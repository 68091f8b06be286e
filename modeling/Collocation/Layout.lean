import Collocation.Bounds
import Collocation.Problem.Point

/-!
The order of the decision variables. The variables of each mesh point stand together: its states,
its controls and, where kinematic constraints hold, its multipliers. The two times and the
parameters come after all points.
-/

namespace Collocation

/-- One decision variable: its label and its bounds. -/
structure Slot (α : Type) where
  label : Value α
  bounds : Bounds α

/-- The positions from `start` up to and without `stop`. -/
structure Range where
  start : Nat
  stop : Nat
  deriving DecidableEq

namespace Range

/-- The entries of a list at the positions of a range. -/
def of {γ : Type} (r : Range) (xs : List γ) : List γ := (xs.drop r.start).take (r.stop - r.start)

end Range

/-- The decision variables of a problem on a mesh. -/
structure Layout (α : Type) where
  points : Nat
  sizes : Dimensions
  /-- The points with multipliers, in increasing order. -/
  constrained : List Nat
  /-- Where each point starts, and last where the times start. -/
  offsets : List Nat
  slots : List (Slot α)

namespace Layout

variable {α : Type} [Scalar α]

def size (l : Layout α) : Nat := l.slots.length

/-- The number of decision variables that the sizes tell. -/
def expectedSize (l : Layout α) : Nat :=
  l.points * (l.sizes.states + l.sizes.controls) + l.constrained.length * l.sizes.multipliers + 2
    + l.sizes.parameters

def lower (l : Layout α) : List α := l.slots.map (·.bounds.lower)

def upper (l : Layout α) : List α := l.slots.map (·.bounds.upper)

def labels (l : Layout α) : List (Value α) := l.slots.map (·.label)

def initialTimeIndex (l : Layout α) : Nat := l.offsets.getLast?.getD 0

def finalTimeIndex (l : Layout α) : Nat := l.initialTimeIndex + 1

def parameterRange (l : Layout α) : Range :=
  ⟨l.initialTimeIndex + 2, l.initialTimeIndex + 2 + l.sizes.parameters⟩

/-- An entry of the offsets; negative indices count from the end. Where there is no entry, the fault
tells positions that nothing could have from the others. -/
def offset (l : Layout α) (k : Value α) : Outcome α Nat :=
  match k.whole? with
  | none => .error (.reading (.notPosition k.typeName))
  | some index =>
    let place := if index < 0 then index + l.offsets.length else index
    match if place < 0 then none else l.offsets[place.toNat]? with
    | some n => .ok n
    | none => .error (.reading (if Value.isSize index then .itemIndex else .hugePosition))

def stateRange (l : Layout α) (k : Value α) : Outcome α Range := do
  let start ← l.offset k
  return ⟨start, start + l.sizes.states⟩

def controlRange (l : Layout α) (k : Value α) : Outcome α Range := do
  let start := (← l.offset k) + l.sizes.states
  return ⟨start, start + l.sizes.controls⟩

/-- The positions of the multipliers at an index, if that is a point with multipliers. -/
def multiplierRange (l : Layout α) (k : Value α) : Outcome α (Option Range) := do
  if l.constrained.any fun (c : Nat) => k.equalsInt c then
    let start := (← l.offset k) + l.sizes.states + l.sizes.controls
    return some ⟨start, start + l.sizes.multipliers⟩
  else return none

end Layout

end Collocation
