import Collocation.Decimal.Numeral
import Collocation.Fault
import Collocation.Table
import Collocation.Tensor

/-!
Reading values: as a number, as a whole number, as a list of items, as an array. Each reading says
which kinds of value it accepts, and fails with the cause otherwise.
-/

namespace Collocation.Value

variable {α : Type} [Scalar α]

def scalarOfInt (n : Int) : Outcome α α :=
  match Scalar.ofInt? n with
  | some x => .ok x
  | Option.none => .error (.reading .tooLarge)

def scalarOfNumber : Number α → Outcome α α
  | .int n => scalarOfInt n
  | .real x => .ok x

def toScalar : Value α → Outcome α α
  | .number x => scalarOfNumber x
  | .bool b => scalarOfInt b.toInt
  | .text s =>
    match Decimal.readNumeral s with
    | some n => .ok n.toScalar
    | Option.none => .error (.reading (.notNumeral s))
  | .matrix m =>
    match m.byRows with
    | [x] => .ok x
    | _ => .error (.reading .notSingle)
  | v => .error (.reading (.noNumber v.typeName))

def wholePart (x : α) : Outcome α Int :=
  match Scalar.exact x with
  | .finite q => .ok (if q < 0 then -(-q).floor else q.floor)
  | .nan => .error (.reading .wholeOfNaN)
  | _ => .error (.reading .wholeOfInfinity)

/-- Reads a whole number: a scalar loses its fraction, a text must be all digits. -/
def toWhole : Value α → Outcome α Int
  | .number (.int n) => .ok n
  | .number (.real x) => wholePart x
  | .bool b => .ok b.toInt
  | .text s =>
    if Decimal.maxWholeDigits < Decimal.wholeDigits s then
      .error (.reading (.tooManyDigits (Decimal.wholeDigits s)))
    else match Decimal.readWhole s with
      | some n => .ok n
      | Option.none => .error (.reading (.notWhole s))
  | .matrix m =>
    match m.byRows with
    | [x] => wholePart x
    | _ => .error (.reading .notSingle)
  | v => .error (.reading (.noWholeNumber v.typeName))

/-- The items of a value: of a text its characters, of a mapping its keys. -/
def toItems : Value α → Outcome α (List (Value α))
  | .list items => .ok items
  | .tuple items => .ok items
  | .text s => .ok (s.toList.map fun c => .text c.toString)
  | .mapping entries => .ok (entries.map (·.1))
  | .matrix _ => .error (.reading .matrixItems)
  | v => .error (.reading (.notIterable v.typeName))

def toLength : Value α → Outcome α Nat
  | .list items => .ok items.length
  | .tuple items => .ok items.length
  | .text s => .ok s.length
  | .mapping entries => .ok entries.length
  | v => .error (.reading (.noLength v.typeName))

mutual

/-- A value that may be a key: neither a list, a mapping nor a matrix, nor a tuple with one
inside. -/
def checkKey : Value α → Outcome α Unit
  | .list _ => .error (.reading (.notHashable "list"))
  | .mapping _ => .error (.reading (.notHashable "dict"))
  | .matrix _ => .error (.reading (.notHashable "DM"))
  | .tuple items => checkKeys items
  | _ => .ok ()

def checkKeys : List (Value α) → Outcome α Unit
  | [] => .ok ()
  | v :: rest => do
    checkKey v
    checkKeys rest

end

/-- One item that is a pair, as an entry of a mapping. -/
def toEntry (index : Nat) (v : Value α) : Outcome α (Value α × Value α) :=
  match v with
  | .text _ | .list _ | .tuple _ | .mapping _ =>
    match v.toItems with
    | .ok [key, item] => .ok (key, item)
    | .ok items => .error (.reading (.entrySize index items.length))
    | .error e => .error e
  | _ => .error (.reading (.notEntry index))

/-- Items that are pairs, as the entries of a mapping. -/
def toEntries (index : Nat) : List (Value α) → Outcome α (Table α (Value α))
  | [] => .ok []
  | v :: rest => do
    let e ← toEntry index v
    checkKey e.1
    let es ← toEntries (index + 1) rest
    return e :: es

mutual

/-- A value that can be written in a message: no whole number in it has too many digits. -/
def isWritable : Value α → Bool
  | .number (.int n) => decide (n.natAbs < Nat.pow 10 Decimal.maxWholeDigits)
  | .list items => areWritable items
  | .tuple items => areWritable items
  | .mapping entries => haveWritable entries
  | _ => true

def areWritable : List (Value α) → Bool
  | [] => true
  | v :: rest => isWritable v && areWritable rest

def haveWritable : List (Value α × Value α) → Bool
  | [] => true
  | (k, v) :: rest => isWritable k && isWritable v && haveWritable rest

end

def toTruth : Value α → Outcome α Bool
  | .matrix m =>
    match m.byRows with
    | [x] => .ok (!Scalar.eq x 0.0)
    | _ => .error (.reading .notSingle)
  | v => .ok v.isTruthy

/-- Reads a number that others are compared or combined with; a matrix stands for its single entry.
Values that are no numbers fail as told. -/
def toOperand (mismatch : ReadFault) : Value α → Outcome α (Number α)
  | .matrix m =>
    match m.byRows with
    | [x] => .ok (.real x)
    | _ => .error (.reading .notSingle)
  | v =>
    match v.numeric? with
    | some x => .ok x
    | Option.none => .error (.reading mismatch)

/-- Reads a mapping; a list of pairs is one too. -/
def toTable (v : Value α) : Outcome α (Table α (Value α)) :=
  match v with
  | .mapping entries => .ok entries
  | v => do return Table.merge [] (← toEntries 0 (← v.toItems))

/-- Reads a mapping, where a value that counts as false is an empty one. -/
def toMapping (v : Value α) : Outcome α (Table α (Value α)) := do
  if ← v.toTruth then v.toTable else return []

mutual

/-- The shape of nested lists, where all lists of one level have one length. -/
def shape? : Value α → Option (List Nat)
  | .list items => shapeOfItems? items.length items
  | .tuple items => shapeOfItems? items.length items
  | .matrix m => some [m.height, m.width]
  | _ => some []

def shapeOfItems? (count : Nat) : List (Value α) → Option (List Nat)
  | [] => some [count]
  | [v] => (shape? v).map (count :: ·)
  | v :: rest =>
    match shape? v, shapeOfItems? count rest with
    | some s, some t => if count :: s = t then some t else Option.none
    | _, _ => Option.none

end

mutual

/-- The numbers in nested lists, in order; a missing value stands for "not a number". -/
def leaves : Value α → Outcome α (List α)
  | .list items => leavesOfItems items
  | .tuple items => leavesOfItems items
  | .matrix m => .ok m.byRows
  | .none => .ok [Scalar.nan]
  | .bool b => (toScalar (.bool b)).map ([·])
  | .number x => (scalarOfNumber x).map ([·])
  | .text s => (toScalar (.text s)).map ([·])
  | .mapping entries => (toScalar (.mapping entries)).map ([·])

def leavesOfItems : List (Value α) → Outcome α (List α)
  | [] => .ok []
  | v :: rest => do
    let xs ← leaves v
    let ys ← leavesOfItems rest
    return xs ++ ys

end

/-- Reads an array: nested lists of numbers in which all lists of one level have one length. -/
def toTensor (v : Value α) : Outcome α (Tensor α) :=
  match v.shape? with
  | some shape =>
    if Tensor.maxRank < shape.length then .error (.reading .tooDeep)
    else v.leaves.map (⟨shape, ·⟩)
  | Option.none => .error (.reading .ragged)

/-- Reads one entry of an array: a missing value stands for "not a number", and a list is none. -/
def toEntryScalar (v : Value α) : Outcome α α :=
  match v with
  | .none => .ok Scalar.nan
  | .list _ | .tuple _ => .error (.reading .listAsEntry)
  | .matrix m =>
    match m.byRows with
    | [x] => .ok x
    | _ => .error (.reading .listAsEntry)
  | v => v.toScalar

/-- A whole number, where the truth values stand for one and zero. -/
def whole? : Value α → Option Int
  | .number (.int n) => some n
  | .bool b => some b.toInt
  | _ => Option.none

def isSize (n : Int) : Bool := -Tensor.countable ≤ n && n < Tensor.countable

/-- How often a list is repeated: a value that is no whole number is refused. -/
def toRepeatCount (v : Value α) : Outcome α Int :=
  match v.whole? with
  | some n =>
    if !isSize n then .error (.reading .hugeCount)
    else if Scalar.maxEntries α < n then .error (.reading .noRoom)
    else .ok n
  | Option.none => .error (.reading (.notRepeatCount v.typeName))

/-- A count of steps: a value that is no whole number is refused. -/
def toCount (v : Value α) : Outcome α Int :=
  match v.whole? with
  | some n => .ok n
  | Option.none => .error (.reading (.notCount v.typeName))

/-- A position in a row of items: a value that is no whole number is refused. -/
def toPosition (v : Value α) : Outcome α Int :=
  match v.whole? with
  | some n => if isSize n then .ok n else .error (.reading .hugePosition)
  | Option.none => .error (.reading (.notPosition v.typeName))

/-- Reads an array as one row of numbers, whatever its shape. -/
def toVector (v : Value α) : Outcome α (List α) := v.toTensor.map (·.entries)

end Collocation.Value
