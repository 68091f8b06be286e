import Collocation.Bounds
import Collocation.Check
import Collocation.Problem.Point

/-!
An optimal control problem as its author declares it, one call at a time: times, variables with
bounds, functions and costs. A call that fails may already have changed a part of the problem, so
every call is an `Edit`: it returns the problem as it left it.
-/

namespace Collocation

/-- A variable: its bounds along the horizon and at the two ends. -/
structure Variable (α : Type) where
  name : String
  bounds : Bounds α
  initial : Bounds α
  final : Bounds α

/-- A constraint at every point of the mesh; one pair of bounds stands for all components. -/
structure PathConstraint (α : Type) where
  name : String
  evaluator : Evaluator (Point α) α
  bounds : List (Bounds α)

/-- What a cost depends on: the two ends, or every point of the horizon. -/
inductive CostEvaluator (α : Type) where
  | endpoint (f : Evaluator (Endpoints α) α)
  | integral (f : Evaluator (Point α) α)

structure CostTerm (α : Type) where
  name : String
  evaluator : CostEvaluator α
  weight : α

/-- A problem as declared so far. -/
structure Problem (α : Type) where
  name : Value α := .text "Optimal Control Problem"
  initialTime : Option (Bounds α) := none
  finalTime : Option (Bounds α) := none
  states : List (Variable α) := []
  controls : List (Variable α) := []
  parameters : List (Variable α) := []
  multipliers : List (Variable α) := []
  dynamics : Option (Evaluator (Point α) α) := none
  kinematic : Option (Evaluator (Point α) α) := none
  path : List (PathConstraint α) := []
  costs : List (CostTerm α) := []

/-- A change of a value of type `σ` that returns something or fails; what was changed before a
failure stays changed. -/
abbrev Edit (σ α β : Type) := ExceptT (Fault α) (StateM σ) β

def Edit.within {σ τ α β : Type} (part : σ → τ) (put : τ → σ → σ) (e : Edit τ α β) :
    Edit σ α β := do
  let (outcome, changed) := (e.run (part (← get))).run
  modify (put changed)
  outcome

namespace Variable

variable {α : Type} [Scalar α]

/-- Bounds at one end, which are those along the horizon if none are given. -/
def endBounds (along : Bounds α) (v : Value α) (context : String) : Outcome α (Bounds α) :=
  match v with
  | .none => .ok along
  | v => Bounds.ofValue v context

def declare (sort : String) (name boundary initial final : Value α) : Outcome α (Variable α) := do
  let n ← Check.name name (sort ++ " name")
  let owner := sort ++ " '" ++ n ++ "' "
  let bounds ← Bounds.ofValue boundary (owner ++ "boundary")
  let first ← endBounds bounds initial (owner ++ "initial")
  let last ← endBounds bounds final (owner ++ "final")
  return ⟨n, bounds, first, last⟩

end Variable

namespace Supplied

variable {β α : Type} [Scalar α]

def toEvaluator (what : String) : Supplied β α → Outcome α (Evaluator β α)
  | .evaluator f => .ok f
  | .value v => .error (.problem (.notCallable what v.typeName))

end Supplied

namespace Problem

variable {α : Type} [Scalar α]

/-- Sets the bounds of both times. The initial time is set before the final one is read. -/
def time (initial : Value α := .real 0.0) (final : Value α := .none) : Edit (Problem α) α Unit := do
  let first ← Bounds.ofValue initial "initial time"
  modify fun p => { p with initialTime := some first }
  let last ← Bounds.ofValue final "final time"
  modify fun p => { p with finalTime := some last }

def state (name : Value α) (boundary initial final : Value α := .none) :
    Edit (Problem α) α Nat := do
  let v ← Variable.declare "State" name boundary initial final
  modify fun p => { p with states := p.states ++ [v] }
  return (← get).states.length - 1

def control (name : Value α) (boundary initial final : Value α := .none) :
    Edit (Problem α) α Nat := do
  let v ← Variable.declare "Control" name boundary initial final
  modify fun p => { p with controls := p.controls ++ [v] }
  return (← get).controls.length - 1

def parameter (name : Value α) (boundary : Value α := .none) : Edit (Problem α) α Nat := do
  let v ← Variable.declare "Parameter" name boundary .none .none
  modify fun p => { p with parameters := p.parameters ++ [v] }
  return (← get).parameters.length - 1

def setDynamics (f : Supplied (Point α) α) : Edit (Problem α) α Unit := do
  let e ← f.toEvaluator "Dynamics"
  modify fun p => { p with dynamics := some e }

/-- The names of multipliers: a count makes names, anything else must hold them. -/
def multiplierNames (v : Value α) : Outcome α (List (Value α)) :=
  match v.numeric? with
  | some (.int n) =>
    if n < 1 then .error (.problem (.multiplierCount v))
    else .ok ((List.range n.toNat).map fun i => .text ("lambda_" ++ toString i))
  | _ => do
    let names ← v.toItems
    if names.isEmpty then throw (.problem .noMultipliers)
    return names

/-- Sets the kinematic constraints and their multipliers. The function is set before the
multipliers are checked. -/
def setKinematic (f : Supplied (Point α) α) (multipliers : Value α)
    (boundary : Value α := .none) : Edit (Problem α) α Unit := do
  let e ← f.toEvaluator "Kinematic constraints"
  let names ← multiplierNames multipliers
  modify fun p => { p with kinematic := some e }
  let declared ← names.mapM fun (n : Value α) =>
    (Variable.declare "Multiplier" n boundary .none .none : Outcome α (Variable α))
  modify fun p => { p with multipliers := declared }

/-- The bounds in a list, each with its place in the context. -/
def listedBounds (name : String) (index : Nat) : List (Value α) → Outcome α (List (Bounds α))
  | [] => .ok []
  | v :: rest => do
    let b ← Bounds.ofValue v ("path constraint '" ++ name ++ "' bound " ++ toString index)
    let bs ← listedBounds name (index + 1) rest
    return b :: bs

/-- The bounds of a path constraint: a list with a pair for each component, or one pair for all. -/
def pathBounds (name : String) (v : Value α) : Outcome α (List (Bounds α)) :=
  match v with
  | .list [] => .error (.problem (.noPathBounds name))
  | .list items => listedBounds name 0 items
  | v => do return [← Bounds.ofValue v ("path constraint '" ++ name ++ "'")]

/-- Adds a path constraint; without bounds its components are zero. -/
def addPath (name : Value α) (f : Supplied (Point α) α) (bounds : Value α := .real 0.0) :
    Edit (Problem α) α Unit := do
  let n ← Check.name name "Path constraint name"
  let e ← f.toEvaluator ("Path constraint '" ++ n ++ "'")
  let bs ← pathBounds n bounds
  modify fun p => { p with path := p.path ++ [⟨n, e, bs⟩] }

/-- The weight of a cost: a number, not a truth value. -/
def weightOf (name : String) (weight : Value α) : Outcome α α :=
  match weight with
  | .number x => Value.scalarOfNumber x
  | _ => .error (.problem (.weightKind name))

def addEndpointCost (name : Value α) (f : Supplied (Endpoints α) α)
    (weight : Value α := .real 1.0) : Edit (Problem α) α Unit := do
  let n ← Check.name name "Cost term name"
  let e ← f.toEvaluator ("Cost term '" ++ n ++ "'")
  let w ← weightOf n weight
  modify fun p => { p with costs := p.costs ++ [⟨n, .endpoint e, w⟩] }

def addIntegralCost (name : Value α) (f : Supplied (Point α) α)
    (weight : Value α := .real 1.0) : Edit (Problem α) α Unit := do
  let n ← Check.name name "Cost term name"
  let e ← f.toEvaluator ("Cost term '" ++ n ++ "'")
  let w ← weightOf n weight
  modify fun p => { p with costs := p.costs ++ [⟨n, .integral e, w⟩] }

def sizes (p : Problem α) : Dimensions :=
  ⟨p.states.length, p.controls.length, p.multipliers.length, p.parameters.length⟩

/-- What was declared, or the fault of having left it out. -/
def declared {β : Type} (x : Option β) (fault : ProblemFault α) :
    Outcome α β :=
  match x with
  | some y => .ok y
  | none => .error (.problem fault)

def initialTimeBounds (p : Problem α) : Outcome α (Bounds α) :=
  declared p.initialTime (.noTimes p.name.display)

def finalTimeBounds (p : Problem α) : Outcome α (Bounds α) :=
  declared p.finalTime (.noTimes p.name.display)

def requiredDynamics (p : Problem α) : Outcome α (Evaluator (Point α) α) :=
  declared p.dynamics (.noDynamics p.name.display)

def text (p : Problem α) : String :=
  "Problem('" ++ p.name.display ++ "', states=" ++ toString p.states.length ++ ", controls="
    ++ toString p.controls.length ++ ", multipliers=" ++ toString p.multipliers.length
    ++ ", parameters=" ++ toString p.parameters.length ++ ")"

def minimumHorizon : α := 1e-10

/-- Checks what can be checked without calling the functions: the times leave room for a horizon,
there are states and dynamics, and names are distinct within their sort. -/
def checkStructure (p : Problem α) : Outcome α Unit := do
  let first ← p.initialTimeBounds
  let last ← p.finalTimeBounds
  if last.upper ≤ first.lower + minimumHorizon then
    throw (.problem (.noHorizon last.upper first.lower))
  if p.states.isEmpty then throw (.problem (.noStates p.name.display))
  if p.dynamics.isNone then throw (.problem (.noDynamics p.name.display))
  Check.distinct (p.states.map (.text ·.name)) "state"
  Check.distinct (p.controls.map (.text ·.name)) "control"
  Check.distinct (p.parameters.map (.text ·.name)) "parameter"
  Check.distinct (p.multipliers.map (.text ·.name)) "multiplier"
  Check.distinct (p.costs.map (.text ·.name)) "cost term"
  Check.distinct (p.path.map (.text ·.name)) "path constraint"

end Problem

end Collocation
