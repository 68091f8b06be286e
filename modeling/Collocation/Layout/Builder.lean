import Collocation.Layout
import Collocation.Problem
import Collocation.Signature

/-!
Building a layout: bounds and names of each sort are set in any order, and broadcast over the mesh
points when the layout is built.
-/

namespace Collocation

/-- The bounds of the states or of the controls: along the horizon, and at its ends if these have
bounds of their own. -/
structure BoundsSet (α : Type) where
  path : List (Bounds α)
  initial : Option (List (Bounds α)) := none
  final : Option (List (Bounds α)) := none

namespace BoundsSet

variable {α : Type}

/-- The bounds at point `k`, where `last` is the last point. -/
def boundsAt (s : BoundsSet α) (k last : Nat) : List (Bounds α) :=
  match s.initial, s.final with
  | some first, final => if k = 0 then first else if k = last then final.getD s.path else s.path
  | none, final => if k = last then final.getD s.path else s.path

end BoundsSet

/-- The sizes of a layout as a caller wrote them. -/
structure LayoutRequest (α : Type) where
  points : Value α
  states : Value α
  controls : Value α
  multipliers : Value α := .int 0
  parameters : Value α := .int 0
  indices : Value α := .tuple []

/-- A layout in the making. Sizes are kept as given. -/
structure LayoutBuilder (α : Type) where
  points : Value α
  states : Value α
  controls : Value α
  multipliers : Value α
  parameters : Value α
  constrained : List Nat
  stateBounds : BoundsSet α
  controlBounds : BoundsSet α
  multiplierBounds : List (Bounds α)
  parameterBounds : List (Bounds α)
  initialTime : Bounds α
  finalTime : Bounds α
  stateNames : List (Value α)
  controlNames : List (Value α)
  multiplierNames : List (Value α)
  parameterNames : List (Value α)

namespace LayoutBuilder

variable {α : Type} [Scalar α]

def insert (n : Int) : List Int → List Int
  | [] => [n]
  | m :: rest => if n ≤ m then n :: m :: rest else m :: insert n rest

def sorted (ns : List Int) : List Int := ns.foldr insert []

def hasRepeats : List Int → Bool
  | m :: n :: rest => m == n || hasRepeats (n :: rest)
  | _ => false

def numbered (mark : String) (n : Int) : List (Value α) :=
  (List.range n.toNat).map fun i => .text (mark ++ toString i)

/-- Whether one of some points in increasing order lies outside the mesh. -/
def outside (points : Value α) : List Int → Outcome α Bool
  | [] => .ok false
  | k :: rest =>
    if k < 0 then .ok true
    else do
      let n ← points.toOperand (.notOrdered ">=" "int" points.typeName)
      if n.le (.int k) then return true else outside points rest

/-- The points with multipliers, in increasing order. They do not matter where there are no
multipliers; elsewhere each has to be a point of the mesh and named once. -/
def constrainedPoints (points multipliers indices : Value α) : Outcome α (List Nat) := do
  if !multipliers.isTruthy then return []
  let given ← (← indices.toItems).mapM fun (v : Value α) => (v.toWhole : Outcome α Int)
  let ks := sorted given
  if ← outside points ks then throw (.data (.indicesOutside ks points))
  if hasRepeats ks then throw (.data (.indicesRepeated ks))
  return ks.map Int.toNat

def freeBounds (n : Int) : List (Bounds α) := List.replicate n.toNat .free

/-- A builder for the given sizes, without bounds and with names that are numbered. The number of
mesh points is not read before the layout is built, unless points are given to compare with it. -/
def ofRequest (r : LayoutRequest α) : Outcome α (LayoutBuilder α) := do
  let constrained ← constrainedPoints r.points r.multipliers r.indices
  let states ← r.states.toRepeatCount
  let controls ← r.controls.toRepeatCount
  let multipliers ← r.multipliers.toRepeatCount
  let parameters ← r.parameters.toRepeatCount
  return {
    points := r.points
    states := r.states
    controls := r.controls
    multipliers := r.multipliers
    parameters := r.parameters
    constrained
    stateBounds := { path := freeBounds states }
    controlBounds := { path := freeBounds controls }
    multiplierBounds := freeBounds multipliers
    parameterBounds := freeBounds parameters
    initialTime := .free
    finalTime := .free
    stateNames := numbered "x" states
    controlNames := numbered "u" controls
    multiplierNames := numbered "lambda" multipliers
    parameterNames := numbered "p" parameters }

def signature : Signature where
  function := "LayoutBuilder.__init__"
  required := ["num_mesh_points", "num_states", "num_controls"]
  optional := ["num_multipliers", "num_parameters", "kinematic_constraint_indices"]

def ofNamed (sizes : List (String × Value α)) : Outcome α (LayoutBuilder α) := do
  signature.checkNames (sizes.map (·.1))
  let size (name : String) (rest : Value α) : Value α := (sizes.lookup name).getD rest
  ofRequest {
    points := size "num_mesh_points" .none
    states := size "num_states" .none
    controls := size "num_controls" .none
    multipliers := size "num_multipliers" (.int 0)
    parameters := size "num_parameters" (.int 0)
    indices := size "kinematic_constraint_indices" (.tuple []) }

def count (v : Value α) : Int := v.whole?.getD 0

/-- As many items as there are variables of a sort. -/
def checkCount (actual : Nat) (expected : Value α) (sort : String) : Outcome α Unit :=
  if expected.equalsInt actual then .ok () else .error (.data (.count actual sort expected))

def boundsSet (path : List (Bounds α)) (initial final : Option (List (Bounds α)))
    (expected : Value α) (sort : String) : Outcome α (BoundsSet α) := do
  checkCount path.length expected sort
  if let some bs := initial then checkCount bs.length expected ("initial " ++ sort)
  if let some bs := final then checkCount bs.length expected ("final " ++ sort)
  return ⟨path, initial, final⟩

def setStateBounds (path : List (Bounds α)) (initial final : Option (List (Bounds α)) := none) :
    Edit (LayoutBuilder α) α Unit := do
  let bs ← boundsSet path initial final (← get).states "state"
  modify fun b => { b with stateBounds := bs }

def setControlBounds (path : List (Bounds α)) (initial final : Option (List (Bounds α)) := none) :
    Edit (LayoutBuilder α) α Unit := do
  let bs ← boundsSet path initial final (← get).controls "control"
  modify fun b => { b with controlBounds := bs }

def setMultiplierBounds (bounds : List (Bounds α)) : Edit (LayoutBuilder α) α Unit := do
  (checkCount bounds.length (← get).multipliers "multiplier" : Outcome α Unit)
  modify fun b => { b with multiplierBounds := bounds }

def setParameterBounds (bounds : List (Bounds α)) : Edit (LayoutBuilder α) α Unit := do
  (checkCount bounds.length (← get).parameters "parameter" : Outcome α Unit)
  modify fun b => { b with parameterBounds := bounds }

def setTimeBounds (initial final : Bounds α) : Edit (LayoutBuilder α) α Unit :=
  modify fun b => { b with initialTime := initial, finalTime := final }

/-- The names in a value that has as many items as there are variables of a sort. -/
def countedNames (names expected : Value α) (sort : String) : Outcome α (List (Value α)) := do
  checkCount (← names.toLength) expected sort
  names.toItems

/-- Sets the names of one sort if they are given: `size` is the number of its variables, and `put`
stores the names. -/
def setNamesOf (sort : String) (size : LayoutBuilder α → Value α)
    (put : List (Value α) → LayoutBuilder α → LayoutBuilder α) (names : Value α) :
    Edit (LayoutBuilder α) α Unit :=
  if names.isMissing then pure ()
  else do
    let ns ← countedNames names (size (← get)) sort
    modify (put ns)

/-- Sets the names of the sorts that are given, one sort after the other. -/
def setNames (states controls multipliers parameters : Value α := .none) :
    Edit (LayoutBuilder α) α Unit := do
  setNamesOf "state name" (·.states) (fun ns b => { b with stateNames := ns }) states
  setNamesOf "control name" (·.controls) (fun ns b => { b with controlNames := ns }) controls
  setNamesOf "multiplier name" (·.multipliers) (fun ns b => { b with multiplierNames := ns })
    multipliers
  setNamesOf "parameter name" (·.parameters) (fun ns b => { b with parameterNames := ns })
    parameters

def slotsAt (bounds : List (Bounds α)) (names : List (Value α)) (k : Nat) : List (Slot α) :=
  bounds.zipWith (fun b n => ⟨.text (n.display ++ "[" ++ toString k ++ "]"), b⟩) names

/-- The variables of point `k`, where `last` is the last point. -/
def pointSlots (b : LayoutBuilder α) (last k : Nat) : List (Slot α) :=
  slotsAt (b.stateBounds.boundsAt k last) b.stateNames k
    ++ slotsAt (b.controlBounds.boundsAt k last) b.controlNames k
    ++ if b.constrained.contains k then slotsAt b.multiplierBounds b.multiplierNames k else []

def globalSlots (b : LayoutBuilder α) : List (Slot α) :=
  ⟨.text "t0", b.initialTime⟩ :: ⟨.text "tf", b.finalTime⟩
    :: b.parameterBounds.zipWith (fun bound n => ⟨n, bound⟩) b.parameterNames

/-- Where each of some blocks starts, and where the last one ends. -/
def offsetsOf {γ : Type} (start : Nat) : List (List γ) → List Nat
  | [] => [start]
  | block :: rest => start :: offsetsOf (start + block.length) rest

def expectedSize (b : LayoutBuilder α) (points : Int) : Int :=
  points * (count b.states + count b.controls) + b.constrained.length * count b.multipliers + 2
    + count b.parameters

/-- The number of mesh points: it has to have a predecessor, and to be whole. -/
def pointCount (v : Value α) : Outcome α Int :=
  match v with
  | .number _ | .bool _ | .matrix _ => v.toCount
  | v => .error (.reading (.noOperation "-" v.typeName "int"))

def build (b : LayoutBuilder α) : Outcome α (Layout α) := do
  let points ← pointCount b.points
  let blocks := (List.range points.toNat).map (b.pointSlots (points - 1).toNat)
  let slots := blocks.flatten ++ b.globalSlots
  if (slots.length : Int) ≠ b.expectedSize points then
    throw (.data (.layoutSize slots.length (b.expectedSize points)))
  return {
    points := points.toNat
    sizes := ⟨(count b.states).toNat, (count b.controls).toNat, (count b.multipliers).toNat,
      (count b.parameters).toNat⟩
    constrained := b.constrained
    offsets := offsetsOf 0 blocks
    slots }

end LayoutBuilder

end Collocation
