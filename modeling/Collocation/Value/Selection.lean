import Collocation.Value.Reading

/-!
Choices of places on an axis, as callers write them: whole numbers, where negative ones count from
the end, or one truth value for each place.
-/

namespace Collocation

structure Selection where
  shape : List Nat
  places : List Nat
  /-- Whether the places were chosen by truth values. -/
  byTruth : Bool := false

namespace Value

variable {α : Type} [Scalar α]

mutual

/-- What stands in nested lists, in order. -/
def flattened : Value α → List (Value α)
  | .list items => flattenedItems items
  | .tuple items => flattenedItems items
  | v => [v]

def flattenedItems : List (Value α) → List (Value α)
  | [] => []
  | v :: rest => flattened v ++ flattenedItems rest

end

def isBool : Value α → Bool
  | .bool _ => true
  | _ => false

def toIndex (v : Value α) : Outcome α Int :=
  match v.whole? with
  | some n => if isSize n then .ok n else .error (.reading .indexKind)
  | Option.none => .error (.reading .indexKind)

end Value

namespace Selection

variable {α : Type} [Scalar α]

/-- An index into `size` places; negative indices count from the end. -/
def place (size : Nat) (i : Int) : Outcome α Nat :=
  let p := if i < 0 then i + size else i
  if 0 ≤ p ∧ p < size then .ok p.toNat else .error (.reading (.outOfBounds i 0 size))

def marked (truths : List Bool) : List Nat :=
  (List.range truths.length).filter fun i => truths[i]?.getD false

/-- The places that truth values choose, of which there is one for each place. -/
def ofTruths (size : Nat) (shape : List Nat) (truths : List Bool) : Outcome α Selection :=
  match shape with
  | [given] =>
    if given = size then
      .ok { shape := [(marked truths).length], places := marked truths, byTruth := true }
    else .error (.reading (.maskSize 0 size given))
  | _ => .error (.reading (.tooManyIndices 1 shape.length))

def ofItems (size : Nat) (items : List (Value α)) : Outcome α Selection := do
  let some shape := (Value.list items).shape? | throw (.reading .ragged)
  let leaves := Value.flattenedItems items
  if leaves.isEmpty then return { shape, places := [] }
  if leaves.all Value.isBool then ofTruths size shape (leaves.map Value.isTruthy)
  else
    let indices ← leaves.mapM fun (v : Value α) => (v.toIndex : Outcome α Int)
    let places ← indices.mapM fun i => (place size i : Outcome α Nat)
    return { shape, places }

def pick {γ : Type} (s : Selection) (xs : List γ) : List γ := s.places.filterMap (xs[·]?)

/-- The values that a row of values gives to the chosen places: one for all of them, or one for each
place along the last axis. -/
def spread (s : Selection) (xs : List α) : Outcome α (List α) :=
  match xs with
  | [x] => .ok (s.places.map fun _ => x)
  | xs =>
    if s.shape.getLast? = some xs.length then
      .ok ((List.range (s.places.length / xs.length)).flatMap fun _ => xs)
    else if s.byTruth then .error (.reading (.maskValues xs.length s.places.length))
    else .error (.reading .mismatched)

end Selection

end Collocation
