import Collocation.Layout
import Collocation.Value.Reading

/-!
Flat vectors and trajectories. `Layout.split` reads a flat vector by the ranges of the layout,
`Layout.assemble` puts trajectories together point by point, and the two undo each other.
-/

namespace Collocation

/-- The content of a flat vector: states and controls at every point, multipliers at the constrained
points, the times and the parameters. -/
structure Trajectory (α : Type) where
  states : List (List α)
  controls : List (List α)
  multipliers : List (List α)
  initialTime : α
  finalTime : α
  parameters : List α

/-- The content of a flat vector as a caller wrote it. -/
structure AssemblyRequest (α : Type) where
  states : Value α
  controls : Value α
  initialTime : Value α
  finalTime : Value α
  multipliers : Value α := .none
  parameters : Value α := .none

namespace Layout

variable {α : Type} [Scalar α]

/-- The entries of a vector from an offset on. -/
def entries (w : List α) (start count : Nat) : List α := (w.drop start).take count

def startOf (l : Layout α) (k : Nat) : Nat := l.offsets[k]?.getD 0

def stateAt (l : Layout α) (w : List α) (k : Nat) : List α :=
  entries w (l.startOf k) l.sizes.states

def controlAt (l : Layout α) (w : List α) (k : Nat) : List α :=
  entries w (l.startOf k + l.sizes.states) l.sizes.controls

def multiplierAt (l : Layout α) (w : List α) (k : Nat) : List α :=
  entries w (l.startOf k + l.sizes.states + l.sizes.controls) l.sizes.multipliers

def entry (w : List α) (i : Nat) : α := w[i]?.getD 0.0

def trajectoryOf (l : Layout α) (w : List α) : Trajectory α where
  states := (List.range l.points).map (l.stateAt w)
  controls := (List.range l.points).map (l.controlAt w)
  multipliers := l.constrained.map (l.multiplierAt w)
  initialTime := entry w l.initialTimeIndex
  finalTime := entry w l.finalTimeIndex
  parameters := l.parameterRange.of w

def split (l : Layout α) (w : List α) : Outcome α (Trajectory α) :=
  if w.length = l.size then .ok (l.trajectoryOf w)
  else .error (.data (.vectorLength w.length l.size true))

/-- The entries of the points from `k` on: states, controls, and a row of multipliers at each
constrained point. -/
def pointEntries (constrained : List Nat) (k : Nat) :
    List (List α) → List (List α) → List (List α) → List α
  | x :: states, u :: controls, multipliers =>
    if constrained.contains k then
      x ++ u ++ multipliers.headD [] ++ pointEntries constrained (k + 1) states controls
        multipliers.tail
    else x ++ u ++ pointEntries constrained (k + 1) states controls multipliers
  | _, _, _ => []

def join (l : Layout α) (t : Trajectory α) : List α :=
  pointEntries l.constrained 0 t.states t.controls t.multipliers
    ++ t.initialTime :: t.finalTime :: t.parameters

/-- An array as rows: a matrix of the right shape, or a scalar or row with as many entries. -/
def rowsOf (name : String) (height width : Nat) (t : Tensor α) : Outcome α (List (List α)) :=
  if (t.size = height * width ∧ t.rank ≤ 1) ∨ t.shape = [height, width] then
    .ok (Tensor.rowsOf width height t.entries)
  else .error (.data (.trajectoryShape name t.shape height width))

def parametersOf (l : Layout α) (t : Tensor α) : Outcome α (List α) :=
  if t.size = l.sizes.parameters then .ok t.entries
  else .error (.data (.parameterCount t.size l.sizes.parameters))

def zeroMultipliers (l : Layout α) : List (List α) :=
  List.replicate l.constrained.length (List.replicate l.sizes.multipliers 0.0)

/-- The vector with the given states, controls and times; multipliers and parameters that are not
given are zero. -/
def assemble (l : Layout α) (states controls : Tensor α) (initialTime finalTime : α)
    (multipliers parameters : Option (Tensor α) := none) : Outcome α (List α) := do
  let xs ← rowsOf "states" l.points l.sizes.states states
  let us ← rowsOf "controls" l.points l.sizes.controls controls
  let ms ← match multipliers with
    | some t => rowsOf "multipliers" l.constrained.length l.sizes.multipliers t
    | none => pure l.zeroMultipliers
  let ps ← match parameters with
    | some t => l.parametersOf t
    | none => pure (List.replicate l.sizes.parameters 0.0)
  return l.join ⟨xs, us, ms, initialTime, finalTime, ps⟩

/-- An array that may be missing, or what stands for it. -/
def orElse {γ : Type} (read : Tensor α → Outcome α γ) (rest : γ) : Value α → Outcome α γ
  | .none => .ok rest
  | v => do read (← v.toTensor)

/-- The vector with the content that a caller wrote. The trajectories are read and checked one after
the other, and the times last. -/
def assembleRequest (l : Layout α) (r : AssemblyRequest α) : Outcome α (List α) := do
  let states ← rowsOf "states" l.points l.sizes.states (← r.states.toTensor)
  let controls ← rowsOf "controls" l.points l.sizes.controls (← r.controls.toTensor)
  let multipliers ← orElse (rowsOf "multipliers" l.constrained.length l.sizes.multipliers)
    l.zeroMultipliers r.multipliers
  let parameters ← orElse l.parametersOf (List.replicate l.sizes.parameters 0.0) r.parameters
  let initialTime ← r.initialTime.toEntryScalar
  let finalTime ← r.finalTime.toEntryScalar
  return l.join { states, controls, multipliers, initialTime, finalTime, parameters }

/-- The nearest value within bounds; "not a number" stays. -/
def clipEntry (b : Bounds α) (x : α) : α :=
  if Scalar.isNaN x then x else Scalar.smaller (Scalar.larger x b.lower) b.upper

def clip (l : Layout α) (w : List α) : List α := l.slots.zipWith (fun s => clipEntry s.bounds) w

/-- Every row of an array moved into the bounds; rows of one entry stand for rows of equal
entries. -/
def clipArray (l : Layout α) (t : Tensor α) : Outcome α (Tensor α) :=
  let spread (x : α) : List α := l.clip (List.replicate l.size x)
  match t.shape.getLast? with
  | none => .ok ⟨[l.size], t.entries.flatMap spread⟩
  | some width =>
    let shape := t.shape.dropLast ++ [l.size]
    if width = l.size then
      .ok ⟨shape, (Tensor.rowsOf width (t.size / width) t.entries).flatMap l.clip⟩
    else if width = 1 then .ok ⟨shape, t.entries.flatMap spread⟩
    else .error (.reading .mismatched)

end Layout

end Collocation
