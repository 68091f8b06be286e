import Collocation.Check
import Collocation.Signature
import Collocation.Value.Selection

/-!
Solutions: trajectories over time, the outcome of the solve and what the optimiser reported. A solve
that did not converge is a solution too; `Solution.requireConverged` turns it into a failure.
-/

namespace Collocation

inductive Status where
  | converged
  | iterationLimit
  | infeasible
  | solverError
  deriving DecidableEq

namespace Status

def name : Status → String
  | .converged => "converged"
  | .iterationLimit => "iteration_limit"
  | .infeasible => "infeasible"
  | .solverError => "solver_error"

def ofName? (s : String) : Option Status :=
  [converged, .iterationLimit, .infeasible, .solverError].find? fun k => k.name == s

/-- The outcome that a value names, which only texts do. -/
def ofValue {α : Type} [Scalar α] (v : Value α) : Outcome α Status :=
  let named := match v with
    | .text s => ofName? s
    | _ => none
  match named with
  | some status => .ok status
  | none => .error (.reading (.notStatus v.shown))

end Status

/-- What the optimiser reported, by name. -/
abbrev Statistics (α : Type) := Table α (Value α)

structure VariableNames (α : Type) where
  states : List (Value α)
  controls : List (Value α)
  multipliers : List (Value α)
  parameters : List (Value α)

/-- A solution. Its names, indices and texts are kept as they were given. -/
structure Solution (α : Type) where
  times : List α
  /-- One row for each time. -/
  states : List (List α)
  /-- One row for each time. -/
  controls : List (List α)
  /-- One row for each index of `multiplierIndices`. -/
  multipliers : List (List α)
  multiplierIndices : List (Value α)
  parameters : List α
  meshPoints : List α
  initialTime : α
  finalTime : α
  objective : α
  breakdown : Table α (Value α)
  status : Status
  iterations : Int
  message : Value α
  names : VariableNames α
  scheme : Value α
  statistics : Statistics α

/-- The fields of a solution as values, some of which are read before the others. -/
structure SolutionRequest (α : Type) where
  times : Value α
  states : Value α
  controls : Value α
  multipliers : Value α
  multiplierIndices : List (Value α)
  parameters : Value α
  meshPoints : Value α
  initialTime : Value α
  finalTime : Value α
  objective : Value α
  breakdown : Table α (Value α)
  status : Status
  iterations : Value α
  message : Value α
  stateNames : Value α
  controlNames : Value α
  multiplierNames : Value α
  parameterNames : Value α
  scheme : Value α
  statistics : Statistics α := []

namespace SolutionRequest

variable {α : Type} [Scalar α]

def signature : Signature where
  function := "Solution.__init__"
  required := ["times", "states", "controls", "multipliers", "multiplier_indices", "parameters",
    "initial_time", "final_time", "objective", "objective_breakdown", "status", "iterations",
    "message", "state_names", "control_names", "multiplier_names", "parameter_names",
    "mesh_points", "transcription_scheme"]
  optional := ["stats"]

def early (fields : List (String × Value α)) (name : String) : Outcome α (Value α) :=
  match fields.lookup name with
  | some v => .ok v
  | none => .error (.call (.absent name))

/-- The fields that are given by name. The outcome, the indices and the tables are read at once, the
other fields only where all names are right. -/
def ofNamed (fields : List (String × Value α)) : Outcome α (SolutionRequest α) := do
  let status ← Status.ofValue (← early fields "status")
  let multiplierIndices ← (← early fields "multiplier_indices").toItems
  let breakdown ← (← early fields "objective_breakdown").toTable
  let statistics ← ((fields.lookup "stats").getD (.mapping [])).toTable
  signature.checkNamedOnly (fields.map (·.1))
  let field (name : String) : Value α := (fields.lookup name).getD .none
  return {
    times := field "times"
    states := field "states"
    controls := field "controls"
    multipliers := field "multipliers"
    multiplierIndices
    parameters := field "parameters"
    meshPoints := field "mesh_points"
    initialTime := field "initial_time"
    finalTime := field "final_time"
    objective := field "objective"
    breakdown, status
    iterations := field "iterations"
    message := field "message"
    stateNames := field "state_names"
    controlNames := field "control_names"
    multiplierNames := field "multiplier_names"
    parameterNames := field "parameter_names"
    scheme := field "transcription_scheme"
    statistics }

/-- An array that fills the given shape, whatever its own shape. -/
def fill (v : Value α) (shape : List Nat) : Outcome α (List α) := do
  let t ← v.toTensor
  if t.size = shape.foldl (· * ·) 1 then return t.entries
  else throw (.reading (.reshape t.size shape))

/-- An array of as many entries as `height` rows have with a column for each name, as such rows. -/
def fillRows (v : Value α) (height : Nat) (names : Value α) : Outcome α (List (List α)) := do
  let width ← names.toLength
  return Tensor.rowsOf width height (← fill v [height, width])

def toSolution (r : SolutionRequest α) : Outcome α (Solution α) := do
  let points ← r.times.toLength
  let times ← fill r.times [points]
  let states ← fillRows r.states points r.stateNames
  let controls ← fillRows r.controls points r.controlNames
  let multipliers ← fillRows r.multipliers r.multiplierIndices.length r.multiplierNames
  let parameters ← fill r.parameters [← r.parameterNames.toLength]
  let meshPoints ← fill r.meshPoints [points]
  let initialTime ← r.initialTime.toScalar
  let finalTime ← r.finalTime.toScalar
  let objective ← r.objective.toScalar
  let iterations ← r.iterations.toWhole
  let names : VariableNames α :=
    ⟨← r.stateNames.toItems, ← r.controlNames.toItems, ← r.multiplierNames.toItems,
      ← r.parameterNames.toItems⟩
  return {
    times, states, controls, multipliers, parameters, meshPoints, initialTime, finalTime
    objective, iterations, names
    multiplierIndices := r.multiplierIndices
    breakdown := r.breakdown
    status := r.status
    message := r.message
    scheme := r.scheme
    statistics := r.statistics }

end SolutionRequest

namespace Solution

variable {α : Type} [Scalar α]

def success (s : Solution α) : Bool := s.status = .converged

def duration (s : Solution α) : α := s.finalTime - s.initialTime

def numPoints (s : Solution α) : Nat := s.times.length

def column (rows : List (List α)) (j : Nat) : List α := rows.map fun r => r[j]?.getD 0.0

/-- The times that the indices of the multipliers choose. -/
def multiplierPlaces (s : Solution α) : Outcome α Selection :=
  Selection.ofItems s.numPoints s.multiplierIndices

def multiplierTimes (s : Solution α) : Outcome α (List α) := do
  let times := (← s.multiplierPlaces).pick s.times
  if times.length = s.multiplierIndices.length then return times
  else throw (.reading (.reshape times.length [s.multiplierIndices.length]))

def requireConverged (s : Solution α) : Outcome α (Solution α) :=
  if s.success then .ok s else .error (.notConverged s.status.name s.message)

/-- What is found under a name: a trajectory or one number. -/
inductive Found (α : Type) where
  | trajectory (xs : List α)
  | number (x : α)

def timeName : Value α := .text "time"

def available (s : Solution α) : List (Value α) :=
  timeName :: s.names.states ++ s.names.controls ++ s.names.multipliers ++ s.names.parameters

def position? (names : List (Value α)) (key : Value α) : Option Nat := names.findIdx? (·.same key)

/-- What is found under a name. The time comes first, then states, controls, multipliers and
parameters; of equal names the first counts. -/
def find (s : Solution α) (key : Value α) : Outcome α (Found α) :=
  if timeName.same key then .ok (.trajectory s.times)
  else match position? s.names.states key with
  | some i => .ok (.trajectory (column s.states i))
  | none =>
  match position? s.names.controls key with
  | some i => .ok (.trajectory (column s.controls i))
  | none =>
  match position? s.names.multipliers key with
  | some i => .ok (.trajectory (column s.multipliers i))
  | none =>
  match position? s.names.parameters key with
  | some i => .ok (.number (s.parameters[i]?.getD 0.0))
  | none => .error (.noVariable key s.available)

def has (s : Solution α) (key : Value α) : Bool := (s.find key).isOk

end Solution

end Collocation
