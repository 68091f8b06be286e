import Collocation.Value.Reading
import Collocation.Text.Blank

/-!
Checks shared by the areas of the library: counts, tolerances, names and arrays.
-/

namespace Collocation.Check

variable {α : Type} [Scalar α]

/-- Refuses with a fault whose message shows a value, unless the value cannot be written. -/
def refuse {β : Type} (shown : Value α) (f : Fault α) : Outcome α β :=
  if shown.isWritable then .error f else .error (.reading .tooManyWritten)

/-- A whole number, not a truth value, of at least `minimum`, which may be any value that numbers
compare with. -/
def integerAtLeast (v : Value α) (name : String) (minimum : Value α) : Outcome α Int :=
  match v with
  | .number (.int n) => do
    let least ← minimum.toOperand (.notOrdered "<" "int" minimum.typeName)
    if (Number.int n).lt least then
      refuse (.tuple [minimum, v]) (.option (.belowMinimum name minimum n))
    else return n
  | v => .error (.option (.notInteger name v.typeText))

/-- A whole number, not a truth value, of at least `minimum`. -/
def integer (v : Value α) (name : String) (minimum : Int := 1) : Outcome α Int :=
  integerAtLeast v name (.int minimum)

/-- A finite positive number, not a truth value. -/
def positive (v : Value α) (name : String) : Outcome α (Number α) :=
  match v with
  | .number x => do
    let _ ← Value.scalarOfNumber x
    match x.exact with
    | .finite q => if q ≤ 0 then throw (.option (.notPositive name x)) else return x
    | _ => throw (.option (.notFinite name x))
  | v => .error (.option (.notNumeric name v.typeText))

/-- A text with more than white space in it. -/
def name (v : Value α) (what : String) : Outcome α String :=
  match v with
  | .text s =>
    if Text.isBlankText s then .error (.problem (.nameEmpty what)) else .ok s
  | v => .error (.problem (.nameKind what v.typeText))

/-- No name is one of those seen before, and none occurs twice. -/
def distinctFrom (seen : List (Value α)) (sort : String) : List (Value α) → Outcome α Unit
  | [] => .ok ()
  | n :: rest => do
    n.checkKey
    if seen.any (·.same n) then throw (.problem (.duplicateName sort n.display))
    distinctFrom (n :: seen) sort rest

def distinct (names : List (Value α)) (sort : String) : Outcome α Unit := distinctFrom [] sort names

def finiteEntries (entries : List α) (name : String) (stage : String := "validation") :
    Outcome α Unit :=
  if entries.all Scalar.isFinite then .ok () else .error (.data (.corrupt name stage))

def shape (t : Tensor α) (expected : Value α) (name : String) (stage : String := "validation") :
    Outcome α Unit :=
  if (Value.tuple (t.shape.map fun (n : Nat) => .int n)).same expected then .ok ()
  else .error (.data (.shape name t.shape expected stage))

end Collocation.Check
