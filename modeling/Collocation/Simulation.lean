import Collocation.Problem.Functions
import Collocation.Interpolation
import Collocation.Number.Arithmetic
import Collocation.Simulation.Integrator
import Collocation.Solution.Summary

/-!
Simulating a solution: the dynamics are integrated from its initial state under its controls, and
the largest distance from its own states is measured.
-/

namespace Collocation

structure SimulationRequest (α : Type) where
  method : Value α
  relativeTolerance : Value α
  toleranceFactor : Value α
  maxStep : Value α

def SimulationRequest.standard {α : Type} [Scalar α] : SimulationRequest α where
  method := .text "RK45"
  relativeTolerance := .real 1e-7
  toleranceFactor := .real 1e-2
  maxStep := .none

/-- A simulated solution. The deviations are "not a number" if the integration failed. -/
structure Simulation (α : Type) where
  times : Tensor α
  states : Tensor α
  deviation : List α
  maxDeviation : α
  success : Bool
  message : String

/-- What an integrator is asked for, beside the equation itself. -/
structure OdeLog (α : Type) where
  method : Value α
  start : α
  stop : α
  initial : List α
  relativeTolerance : Number α
  absoluteTolerance : Number α
  maxStep : Value α
  /-- Derivatives that the integrator reports. -/
  derivatives : Option (List (List α))

namespace Simulation

variable {α : Type} [Scalar α]

/-- Rows of `width` columns, all interpolated at the times in a value. A row without columns does
not look at the value. -/
def interpolated (times : List α) (rows : List (List α)) (width : Nat) (t : Value α) :
    Outcome α (List α) := do
  if width = 0 then return []
  return (Interpolation.columns times rows width (← t.toVector)).flatten

/-- The derivative of the state under the interpolated controls and multipliers of a solution, at a
time of any kind. -/
def rhsAt (f : Functions α) (s : Solution α) (multiplierTimes : List α) (t : Value α)
    (x : List α) : Outcome α (List α) := do
  let u ← interpolated s.times s.controls s.names.controls.length t
  let lam ←
    if multiplierTimes.isEmpty then pure (List.replicate f.sizes.multipliers 0.0)
    else interpolated multiplierTimes s.multipliers s.names.multipliers.length t
  f.evalDynamics t (.ofRow x) (.ofRow u) (.ofRow s.parameters) (.ofRow lam)

/-- The greatest distance in each column of two lists of rows. -/
def deviations (width : Nat) (xs ys : List (List α)) : List α :=
  (List.range width).map fun j =>
    let gaps := (Solution.column xs j).zipWith (fun a b => Scalar.abs (a - b))
      (Solution.column ys j)
    match gaps with
    | [] => 0.0
    | d :: rest => Solution.greatestOf d rest

/-- The result of an integration beside the states of a solution. -/
def compare (p : Problem α) (s : Solution α) (r : OdeResult α) : Simulation α :=
  let width := s.names.states.length
  if r.success && r.states.shape = [s.numPoints, width] then
    let perState := deviations width (Tensor.rowsOf width s.numPoints r.states.entries) s.states
    { times := r.times, states := r.states, deviation := perState
      maxDeviation := match perState with
        | [] => 0.0
        | d :: rest => Solution.greatestOf d rest
      success := r.success, message := r.message }
  else
    { times := r.times, states := r.states
      deviation := List.replicate p.states.length Scalar.nan
      maxDeviation := Scalar.nan
      success := r.success, message := r.message }

/-- Simulates a solution of a problem. The integrator is called only if the solution has as many
states as the problem. -/
def run (p : Problem α) (s : Solution α) (q : SimulationRequest α) (solver : OdeSolver α) :
    Outcome α (OdeLog α × Simulation α) := do
  let rtol ← Check.positive q.relativeTolerance "ode_rtol"
  let factor ← Check.positive q.toleranceFactor "ode_atol_factor"
  if s.names.states.length ≠ p.states.length then
    throw (.data (.stateCount s.names.states.length p.states.length))
  let f ← p.functions
  let multiplierTimes ← s.multiplierTimes
  let absolute ← rtol.product factor
  let maxStep := match q.maxStep with
    | .none => .real Scalar.infinity
    | v => v
  let some initial := s.states.head? | throw (.reading (.outOfBounds 0 0 0))
  let result ← solver {
    rhs := rhsAt f s multiplierTimes
    start := s.initialTime
    stop := s.finalTime
    times := s.times
    initial, maxStep }
  let log : OdeLog α :=
    ⟨q.method, s.initialTime, s.finalTime, initial, rtol, absolute, maxStep,
      result.derivatives⟩
  return (log, compare p s result)

end Simulation

end Collocation
