import Collocation.Value.Selection

/-!
Products of a value and a row of numbers. A number multiplies every entry. Nested lists are an array
that goes together with the row along its last axis, where a single entry stands for as many as the
row has. Values that are no numbers are refused, each sort in its own way.
-/

namespace Collocation.Value

variable {α : Type} [Scalar α]

/-- The length of a text in an array of texts, of which every other value takes a fixed part. -/
def textWidth : Value α → Nat
  | .text s => max 1 s.length
  | .bool _ => 5
  | .number (.int _) => 21
  | _ => 32

def isText : Value α → Bool
  | .text _ => true
  | _ => false

def isNumeric (v : Value α) : Bool := v.numeric?.isSome

def timesEntry (v : Value α) (y : α) : Outcome α α :=
  match v with
  | .number x => (scalarOfNumber x).map (· * y)
  | .bool b => (scalarOfInt b.toInt).map (· * y)
  | .matrix m => (toScalar (.matrix m)).map (· * y)
  | .text _ => .error (.reading (.notRepeatCount "float"))
  | v => .error (.reading (.noOperation "*" v.typeName "float"))

/-- The names of the sorts of two arrays whose product is asked for. -/
def arraySorts (leaves : List (Value α)) : String × String :=
  let width := (leaves.map textWidth).foldl max 1
  ("dtype('<U" ++ toString width ++ "')", "dtype('float64')")

def timesRowIn (shape : List Nat) (leaves : List (Value α)) (row : List α) :
    Outcome α (Tensor α) := do
  let n := row.length
  match shape.getLast? with
  | some last =>
    if last = n then
      let repeated := (List.range (leaves.length / max n 1)).flatMap fun _ => row
      return ⟨shape, ← (leaves.zip repeated).mapM fun e => (e.1.timesEntry e.2 : Outcome α α)⟩
    else if last = 1 then
      let pairs := leaves.flatMap fun v => row.map fun y => (v, y)
      return ⟨shape.dropLast ++ [n], ← pairs.mapM fun e => (e.1.timesEntry e.2 : Outcome α α)⟩
    else throw (.reading .mismatched)
  | Option.none =>
    let pairs := leaves.flatMap fun v => row.map fun y => (v, y)
    return ⟨[n], ← pairs.mapM fun e => (e.1.timesEntry e.2 : Outcome α α)⟩

def timesRow (v : Value α) (row : List α) : Outcome α (Tensor α) := do
  let some shape := v.shape? | throw (.reading .ragged)
  let leaves := v.flattened
  if leaves.any isText && leaves.all fun e => e.isText || e.isNumeric then
    let (left, right) := arraySorts leaves
    throw (.reading (.noArrayProduct left right))
  timesRowIn shape leaves row

end Collocation.Value
