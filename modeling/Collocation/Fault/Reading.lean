import Collocation.Decimal.Fixed
import Collocation.Fault.Report
import Collocation.Text.Quoted

/-!
Failures of reading a value as something else: a number, a whole number, a list, an array of numbers
or an entry of one.
-/

namespace Collocation

inductive ReadFault where
  | notNumeral (text : String)
  | notWhole (text : String)
  | noNumber (typeName : String)
  | noWholeNumber (typeName : String)
  /-- A kind of value that cannot be tested for being infinite. -/
  | notRealKind (typeName : String)
  | tooLarge
  | wholeOfNaN
  | wholeOfInfinity
  | notIterable (typeName : String)
  /-- A matrix, whose items have to be asked for by rows or by columns. -/
  | matrixItems
  | noLength (typeName : String)
  | notCount (typeName : String)
  /-- A kind of value that cannot say how often a list is repeated. -/
  | notRepeatCount (typeName : String)
  | notPosition (typeName : String)
  /-- A whole number too large for a count of items. -/
  | hugeCount
  | noRoom
  | hugePosition
  /-- More digits than a whole number may be written with. -/
  | tooManyDigits (count : Nat)
  /-- More digits than a whole number may have that is written in a message. -/
  | tooManyWritten
  /-- A kind of value that is not written in a format of numbers. -/
  | noFormat (typeName : String)
  /-- A text, which is not written in a format of numbers. -/
  | textFormat (code : String)
  | notHashable (typeName : String)
  | notOrdered (operator left right : String)
  /-- Two kinds of value without a sum or difference. -/
  | noOperation (operator left right : String)
  /-- An item of a list that should hold texts. -/
  | notJoinable (index : Nat) (typeName : String)
  | notEntry (index : Nat)
  /-- An item with a wrong number of parts, where a mapping is made. -/
  | entrySize (index size : Nat)
  | ragged
  | listAsEntry
  | tooDeep
  | mismatched
  | notSingle
  | tooManyAxes
  | quotientTooLarge
  | tooManyEntries
  | tooManyBytes
  | noMemory (entries : Nat)
  | noArrayProduct (left right : String)
  /-- An array whose entries do not fill the shape. -/
  | reshape (size : Nat) (shape : List Nat)
  | outOfBounds (index : Int) (axis size : Nat)
  /-- A choice of entries by truth values, of which there are more or fewer than entries. -/
  | maskSize (axis size given : Nat)
  /-- Values for entries chosen by truth values, of which there are more or fewer than entries. -/
  | maskValues (given chosen : Nat)
  | indexKind
  | tooManyIndices (rank given : Nat)
  /-- A text that is no outcome of a solve. -/
  | notStatus (shown : String)
  | itemIndex
  /-- Variables that are taken out of a vector in which they have no positions. -/
  | noPositions
  deriving DecidableEq

namespace ReadFault

/-- A number of bytes in the largest unit that it reaches, with three digits. -/
def bytesText (n : Nat) : String :=
  let units := ["bytes", "KiB", "MiB", "GiB", "TiB", "PiB", "EiB"]
  let k := min (Nat.log2 (max n 1) / 10) 6
  let value : Rat := (n : Rat) / (Nat.pow 1024 k : Rat)
  let places := if value < 10 then 2 else if value < 100 then 1 else 0
  let digits := Decimal.fixedDigits places value
  (if places = 0 then digits ++ "." else digits) ++ " " ++ (units[k]?.getD "")

/-- What is said of a whole number that is no size of anything. -/
def hugeText : String := "cannot fit 'int' into an index-sized integer"

/-- What is said where a matrix is taken for a row of items. -/
def matrixItemsText : String :=
  "CasADi matrices are not iterable by design.\n"
    ++ "                      Did you mean to iterate over m.nz, with m IM/DM/SX?\n"
    ++ "                      Did you mean to iterate over horzsplit(m,1)/vertsplit(m,1) with m "
    ++ "IM/DM/SX/MX?\n                      "

def report : ReadFault → Report
  | .notNumeral s => ⟨.value, some ("could not convert string to float: " ++ Text.quoted s), none⟩
  | .notWhole s =>
    ⟨.value, some ("invalid literal for int() with base 10: "
      ++ String.ofList ((Text.quoted s).toList.take 200)), none⟩
  | .noNumber t =>
    ⟨.type, some ("float() argument must be a string or a real number, not '" ++ t ++ "'"), none⟩
  | .noWholeNumber t =>
    ⟨.type, some ("int() argument must be a string, a bytes-like object or a real number, not '"
      ++ t ++ "'"), none⟩
  | .notRealKind t => ⟨.type, some ("must be real number, not " ++ t), none⟩
  | .tooLarge => ⟨.overflow, some "int too large to convert to float", none⟩
  | .wholeOfNaN => ⟨.value, some "cannot convert float NaN to integer", none⟩
  | .wholeOfInfinity => ⟨.overflow, some "cannot convert float infinity to integer", none⟩
  | .notIterable t => ⟨.type, some ("'" ++ t ++ "' object is not iterable"), none⟩
  | .matrixItems => ⟨.other "Exception", some matrixItemsText, none⟩
  | .noLength t => ⟨.type, some ("object of type '" ++ t ++ "' has no len()"), none⟩
  | .notCount t =>
    ⟨.type, some ("'" ++ t ++ "' object cannot be interpreted as an integer"), none⟩
  | .notRepeatCount t =>
    ⟨.type, some ("can't multiply sequence by non-int of type '" ++ t ++ "'"), none⟩
  | .notPosition t =>
    ⟨.type, some ("tuple indices must be integers or slices, not " ++ t), none⟩
  | .hugeCount => ⟨.overflow, some hugeText, none⟩
  | .noRoom => ⟨.other "MemoryError", some "", none⟩
  | .hugePosition => ⟨.index, some hugeText, none⟩
  | .tooManyDigits n =>
    ⟨.value, some ("Exceeds the limit (4300 digits) for integer string conversion: value has "
      ++ toString n ++ " digits; use sys.set_int_max_str_digits() to increase the limit"), none⟩
  | .tooManyWritten =>
    ⟨.value, some ("Exceeds the limit (4300 digits) for integer string conversion; "
      ++ "use sys.set_int_max_str_digits() to increase the limit"), none⟩
  | .noFormat t =>
    ⟨.type, some ("unsupported format string passed to " ++ t ++ ".__format__"), none⟩
  | .textFormat code =>
    ⟨.value, some ("Unknown format code '" ++ code ++ "' for object of type 'str'"), none⟩
  | .notHashable t => ⟨.type, some ("unhashable type: '" ++ t ++ "'"), none⟩
  | .notOrdered operator left right =>
    ⟨.type, some ("'" ++ operator ++ "' not supported between instances of '" ++ left ++ "' and '"
      ++ right ++ "'"), none⟩
  | .noOperation operator left right =>
    ⟨.type, some ("unsupported operand type(s) for " ++ operator ++ ": '" ++ left ++ "' and '"
      ++ right ++ "'"), none⟩
  | .notJoinable index t =>
    ⟨.type, some ("sequence item " ++ toString index ++ ": expected str instance, " ++ t
      ++ " found"), none⟩
  | .notEntry index =>
    ⟨.type, some ("cannot convert dictionary update sequence element #" ++ toString index
      ++ " to a sequence"), none⟩
  | .entrySize index size =>
    ⟨.value, some ("dictionary update sequence element #" ++ toString index ++ " has length "
      ++ toString size ++ "; 2 is required"), none⟩
  | .ragged => ⟨.value, none, none⟩
  | .listAsEntry => ⟨.value, some "setting an array element with a sequence.", none⟩
  | .tooDeep =>
    ⟨.value, some ("setting an array element with a sequence. The requested array would exceed the "
      ++ "maximum number of dimension of 64."), none⟩
  | .mismatched => ⟨.value, none, none⟩
  | .notSingle => ⟨.runtime, none, none⟩
  | .tooManyAxes => ⟨.other "NotImplementedError", none, none⟩
  | .quotientTooLarge =>
    ⟨.overflow, some "integer division result too large for a float", none⟩
  | .tooManyEntries => ⟨.value, some "Maximum allowed size exceeded", none⟩
  | .tooManyBytes =>
    ⟨.value, some ("array is too big; `arr.size * arr.dtype.itemsize` is larger than the maximum "
      ++ "possible size."), none⟩
  | .noMemory entries =>
    ⟨.other "_ArrayMemoryError", some ("Unable to allocate " ++ bytesText (8 * entries)
      ++ " for an array with shape (" ++ toString entries ++ ",) and data type float64"), none⟩
  | .noArrayProduct left right =>
    ⟨.other "_UFuncNoLoopError",
      some ("ufunc 'multiply' did not contain a loop with signature matching types ("
        ++ left ++ ", " ++ right ++ ") -> None"), none⟩
  | .reshape size shape =>
    ⟨.value, some ("cannot reshape array of size " ++ toString size ++ " into shape ("
      ++ ",".intercalate (shape.map toString) ++ (if shape.length == 1 then ",)" else ")")),
      none⟩
  | .outOfBounds index axis size =>
    ⟨.index, some ("index " ++ toString index ++ " is out of bounds for axis " ++ toString axis
      ++ " with size " ++ toString size), none⟩
  | .maskSize axis size given =>
    ⟨.index, some ("boolean index did not match indexed array along axis " ++ toString axis
      ++ "; size of axis is " ++ toString size ++ " but size of corresponding boolean axis is "
      ++ toString given), none⟩
  | .maskValues given chosen =>
    ⟨.value, some ("NumPy boolean array indexing assignment cannot assign " ++ toString given
      ++ " input values to the " ++ toString chosen ++ " output values where the mask is true"),
      none⟩
  | .indexKind => ⟨.index, none, none⟩
  | .tooManyIndices rank given =>
    ⟨.index, some ("too many indices for array: array is " ++ toString rank ++ "-dimensional, but "
      ++ toString given ++ " were indexed"), none⟩
  | .notStatus shown => ⟨.value, some (shown ++ " is not a valid SolverStatus"), none⟩
  | .itemIndex => ⟨.index, some "tuple index out of range", none⟩
  | .noPositions => ⟨.other "NotImplementedError", none, none⟩

end ReadFault

end Collocation
