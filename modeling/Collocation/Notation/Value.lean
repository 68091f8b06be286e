import Collocation.Notation.Number
import Collocation.Value.Order

/-!
Values in the notation. What the notation lacks is written as an object with one field: special
numbers under "f", tuples under "t", mappings under "d" and matrices under "dm".
-/

namespace Collocation

namespace Json

variable {α : Type} [Scalar α]

/-- A number by its digits: whole if there is neither a point nor an exponent. -/
def numberOf (digits : String) : Number α :=
  if digits.toList.any fun c => c == '.' || c == 'e' || c == 'E' then
    .real (((Decimal.readNumeral digits).map (·.toScalar)).getD 0.0)
  else .int ((Decimal.readWhole digits).getD 0)

def specialNumber (name : String) : α := ((Decimal.readNumeral name).map (·.toScalar)).getD 0.0

def whole : Json → Int
  | .number digits => (Decimal.readWhole digits).getD 0
  | .bool b => b.toInt
  | _ => 0

/-- A number as a scalar; anything else counts as zero. -/
def scalar (j : Json) : α :=
  match j with
  | .number digits =>
    match (numberOf digits : Number α) with
    | .int n => Scalar.ofInt n
    | .real x => x
  | .object [("f", .text name)] => specialNumber name
  | _ => 0.0

def anyNumber : Json → Number α
  | .number digits => numberOf digits
  | j => .real j.scalar

def matrix (j : Json) : Matrix α :=
  match j with
  | .array (.array first :: rest) =>
    ⟨rest.length + 1, first.length, (.array first :: rest).map fun r => r.items.map scalar⟩
  | .array items => ⟨items.length, 1, items.map fun x => [scalar x]⟩
  | j => ⟨1, 1, [[scalar j]]⟩

mutual

def value : Json → Value α
  | .null => .none
  | .bool b => .bool b
  | .number digits => .number (numberOf digits)
  | .text s => .text s
  | .array items => .list (values items)
  | .object fields => fieldValue fields

def fieldValue : List (String × Json) → Value α
  | (name, j) :: _ =>
    if name = "f" then .real (specialNumber j.content)
    else if name = "t" then tupleValue j
    else if name = "d" then .mapping (Table.merge [] (entries j))
    else if name = "dm" then .matrix (matrix j)
    else .none
  | [] => .none

def tupleValue : Json → Value α
  | .array items => .tuple (values items)
  | _ => .tuple []

def entries : Json → List (Value α × Value α)
  | .array items => pairs items
  | _ => []

def values : List Json → List (Value α)
  | [] => []
  | j :: rest => value j :: values rest

def pairs : List Json → List (Value α × Value α)
  | [] => []
  | j :: rest => pair j :: pairs rest

def pair : Json → Value α × Value α
  | .array [key, item] => (value key, value item)
  | _ => (.none, .none)

end

end Json

namespace Value

variable {α : Type} [Scalar α]

mutual

/-- A value written down: tuples are arrays, and what is neither a number nor a text nor a list has
to have a number. -/
def toJson (form : NumberForm := .exact) : Value α → Outcome α Json
  | .none => .ok .null
  | .bool b => .ok (.bool b)
  | .number x => .ok (form.writeNumber x)
  | .text s => .ok (.text s)
  | .list items => (itemsToJson form items).map .array
  | .tuple items => (itemsToJson form items).map .array
  | .mapping entries => (toScalar (.mapping entries)).map form.write
  | .matrix m => (toScalar (.matrix m)).map form.write

def itemsToJson (form : NumberForm := .exact) : List (Value α) → Outcome α (List Json)
  | [] => .ok []
  | v :: rest => do
    let j ← toJson form v
    let js ← itemsToJson form rest
    return j :: js

end

def entriesToJson {γ : Type} (write : γ → Outcome α Json) :
    Table α γ → Outcome α (List Json)
  | [] => .ok []
  | (key, x) :: rest => do
    let j := Json.array [← key.toJson, ← write x]
    let js ← entriesToJson write rest
    return j :: js

/-- Entries of a mapping in the order of their keys. -/
def sortedToJson (entries : Table α (Value α)) : Outcome α Json := do
  let keys ← sorted (entries.map (·.1))
  let ordered := keys.map fun key => (key, (Table.find? key entries).getD .none)
  return .array (← entriesToJson (fun v => v.toJson) ordered)

end Value

namespace Json

variable {α : Type} [Scalar α]

/-- A field as a value, or another value if it is missing. -/
def valueOr (j : Json) (name : String) (rest : Value α) : Value α :=
  ((j.field? name).map value).getD rest

def valueAt (j : Json) (name : String) : Value α := j.valueOr name .none

def textAt (j : Json) (name : String) : String := (j.field name).content

def wholeAt (j : Json) (name : String) : Int := (j.field name).whole

def itemsAt (j : Json) (name : String) : List Json := (j.field name).items

/-- The parts of what is written down, one after the other: of a text its characters, of an object
the names of its fields. -/
def parts : Json → Outcome α (List Json)
  | .array items => .ok items
  | .text s => .ok (s.toList.map fun c => .text c.toString)
  | .object fields => .ok (fields.map fun f => .text f.1)
  | j => .error (.reading (.notIterable (j.value : Value α).typeName))

def texts (j : Json) : List String := j.items.map content

def namedValues (j : Json) : List (String × Value α) := j.fields.map fun f => (f.1, f.2.value)

end Json

end Collocation
