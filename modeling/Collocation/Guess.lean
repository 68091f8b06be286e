import Collocation.Interpolation
import Collocation.Layout.Trajectory
import Collocation.Mesh
import Collocation.Solution

/-!
Where the optimiser starts. Without a guess every variable starts from its bounds. A guess gives
samples of trajectories at times of its own, which are interpolated onto the mesh; what it leaves
out stays at the default, and the result is moved into the bounds.
-/

namespace Collocation

/-- A guess as the caller wrote it: every field may be missing. -/
structure Guess (α : Type) where
  times : Value α := .none
  states : Value α := .none
  controls : Value α := .none
  multipliers : Value α := .none
  parameters : Value α := .none
  initialTime : Value α := .none
  finalTime : Value α := .none

namespace Guess

variable {α : Type} [Scalar α]

def signature : Signature where
  function := "InitialGuess.__init__"
  required := []
  optional := ["times", "states", "controls", "multipliers", "parameters", "initial_time",
    "final_time"]

def ofNamed (fields : List (String × Value α)) : Outcome α (Guess α) := do
  signature.checkNames (fields.map (·.1))
  let field (name : String) : Value α := (fields.lookup name).getD .none
  return {
    times := field "times"
    states := field "states"
    controls := field "controls"
    multipliers := field "multipliers"
    parameters := field "parameters"
    initialTime := field "initial_time"
    finalTime := field "final_time" }

/-- The start of one variable: the middle of finite bounds, the finite side of half-open ones, and
zero without restriction. -/
def startOf (b : Bounds α) : α :=
  match Scalar.isFinite b.lower, Scalar.isFinite b.upper with
  | true, true => 0.5 * (b.lower + b.upper)
  | true, false => b.lower
  | false, true => b.upper
  | false, false => 0.0

/-- The shortest horizon that a default start may have. -/
def zeroTolerance : α := 1e-14

/-- The start from the bounds alone; the final time is moved behind the initial one. -/
def default (l : Layout α) : List α :=
  let starts := l.slots.map fun s => startOf s.bounds
  let first := Layout.entry starts l.initialTimeIndex
  let last := Layout.entry starts l.finalTimeIndex
  if last - first ≤ zeroTolerance then
    let upper := Layout.entry l.upper l.finalTimeIndex
    starts.set l.finalTimeIndex (Scalar.smaller (first + 1.0) upper)
  else starts

/-- At least two sample times, each above the one before. -/
def checkTimes (times : List α) : Outcome α Unit :=
  if times.length < 2 || (Mesh.differences times).any fun d => decide (d ≤ 0.0) then
    .error (.data .sampleTimes)
  else .ok ()

/-- Sample times as fractions of the way from the first to the last one. -/
def normalized (times : List α) : List α :=
  let first := times.headD 0.0
  let last := Mesh.lastPoint times
  times.map fun t => (t - first) / (last - first)

/-- Samples as rows: one row for each time, and one column for each variable; a flat list will do
for a single variable. -/
def sampleRows (name : String) (samples columns : Nat) (v : Value α) :
    Outcome α (List (List α)) := do
  let t ← v.toTensor
  let shape := if t.rank = 1 && columns = 1 then [t.size, 1] else t.shape
  if shape ≠ [samples, columns] then
    throw (.data (.sampleShape name shape samples columns))
  Check.finiteEntries t.entries ("Initial guess " ++ name) "initial guess"
  return Tensor.rowsOf columns samples t.entries

/-- The samples of one sort at the given points, or the default rows if there are none. -/
def placed (name : String) (times : List α) (columns : Nat) (points : List α) (v : Value α)
    (rest : List (List α)) : Outcome α (List (List α)) :=
  match v with
  | .none => .ok rest
  | v => do
    let rows ← sampleRows name times.length columns v
    return Interpolation.resample (normalized times) rows columns points

def constrainedPoints (l : Layout α) (m : Mesh α) : List α :=
  l.constrained.map fun k => m.points[k]?.getD 0.0

/-- Where multipliers are given, the points that they belong to have to be points of the mesh. -/
def checkConstrained (l : Layout α) (m : Mesh α) (v : Value α) : Outcome α Unit :=
  if v.isMissing then .ok ()
  else match l.constrained.find? fun k => decide (m.numPoints ≤ k) with
    | some k => .error (.reading (.outOfBounds k 0 m.numPoints))
    | none => .ok ()

/-- The trajectories of a guess, over those of a default. -/
def trajectories (g : Guess α) (l : Layout α) (m : Mesh α) (base : Trajectory α) :
    Outcome α (Trajectory α) :=
  match g.times with
  | .none =>
    if g.states.isMissing && g.controls.isMissing && g.multipliers.isMissing then .ok base
    else .error (.data .noSampleTimes)
  | times => do
    let ts ← times.toVector
    checkTimes ts
    let states ← placed "states" ts l.sizes.states m.points g.states base.states
    let controls ← placed "controls" ts l.sizes.controls m.points g.controls base.controls
    let wanted := if l.constrained.isEmpty then .none else g.multipliers
    let multipliers ←
      placed "multipliers" ts l.sizes.multipliers (constrainedPoints l m) wanted base.multipliers
    checkConstrained l m wanted
    return { base with
      states, controls, multipliers
      initialTime := ts.headD 0.0
      finalTime := Mesh.lastPoint ts }

def override (v : Value α) (rest : α) : Outcome α α :=
  match v with
  | .none => .ok rest
  | v => v.toScalar

def overrideParameters (v : Value α) (rest : List α) : Outcome α (List α) :=
  match v with
  | .none => .ok rest
  | v => v.toVector

/-- The content of a guess: its trajectories, parameters and times over those of a default. -/
def content (g : Guess α) (l : Layout α) (m : Mesh α) (base : Trajectory α) :
    Outcome α (Trajectory α) := do
  let t ← g.trajectories l m base
  let parameters ← overrideParameters g.parameters base.parameters
  let initialTime ← override g.initialTime t.initialTime
  let finalTime ← override g.finalTime t.finalTime
  return { t with parameters, initialTime, finalTime }

/-- The vector that a guess stands for, within the bounds. -/
def vector (g : Guess α) (l : Layout α) (m : Mesh α) : Outcome α (List α) := do
  let base ← l.split (default l)
  let t ← g.content l m base
  let w ← l.assemble (Tensor.ofRows t.states l.sizes.states)
    (Tensor.ofRows t.controls l.sizes.controls) t.initialTime t.finalTime
    (some (Tensor.ofRows t.multipliers l.sizes.multipliers))
    (some (Tensor.ofList t.parameters))
  return l.clip w

/-- The multipliers of a solution at all of its times. -/
def resampledMultipliers (s : Solution α) : Outcome α (Value α) := do
  if s.multiplierIndices.isEmpty then return .none
  let times ← s.multiplierTimes
  let width := s.names.multipliers.length
  return Value.ofRows (Interpolation.resample times s.multipliers width s.times)

def ofSolution (s : Solution α) : Outcome α (Guess α) := do
  let multipliers ← resampledMultipliers s
  return {
    multipliers
    times := Value.ofRow s.times
    states := Value.ofRows s.states
    controls := Value.ofRows s.controls
    parameters := Value.ofRow s.parameters
    initialTime := .real s.initialTime
    finalTime := .real s.finalTime }

end Guess

inductive GuessSource (α : Type) where
  | bounds
  | guess (g : Guess α)
  | solution (s : Solution α)

namespace GuessSource

variable {α : Type} [Scalar α]

def start (source : GuessSource α) (l : Layout α) (m : Mesh α) : Outcome α (List α) :=
  match source with
  | .bounds => .ok (Guess.default l)
  | .guess g => g.vector l m
  | .solution s => do (← Guess.ofSolution s).vector l m

end GuessSource

end Collocation
