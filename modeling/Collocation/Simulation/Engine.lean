import Collocation.Simulation.Integrator
import Collocation.Value.Reading

/-!
Integrators by description: steps that follow the error, steps of fixed length, and two that do not
integrate at all, one to look at the right-hand side and one to replay a result.
-/

namespace Collocation

inductive OdeEngine (α : Type) where
  | adaptive
  /-- Steps along the derivative, so many between neighbouring times. -/
  | euler (steps : Nat)
  /-- Classical steps of four stages, so many between neighbouring times. -/
  | rungeKutta (steps : Nat)
  /-- Derivatives at given times and states; the state itself stays where it starts. -/
  | probe (places : List (Value α × Value α))
  /-- A result that is known beforehand; the states have one row for each component. -/
  | replay (times states : Value α)

/-- An integrator with the outcome that it reports, where that is laid down. -/
structure OdeChoice (α : Type) where
  engine : OdeEngine α
  success : Option (Value α) := none
  message : Option (Value α) := none

namespace OdeEngine

variable {α : Type} [Scalar α]

/-- The result of an integrator that looks at the right-hand side. -/
def probed (r : OdeRequest α) (places : List (Value α × Value α)) : Outcome α (OdeResult α) := do
  let derivatives ← places.mapM fun (place : Value α × Value α) =>
    (do r.rhs place.1 (← place.2.toVector) : Outcome α (List α))
  return {
    times := Tensor.ofList r.times
    states := Tensor.ofRows (r.times.map fun _ => r.initial) r.initial.length
    success := true
    message := "done"
    derivatives := some derivatives }

def replayed (times states : Value α) : Outcome α (OdeResult α) := do
  let y ← states.toTensor
  let t ← times.toTensor
  return { times := t, states := y.transpose, success := true, message := "done" }

def run : OdeEngine α → OdeSolver α
  | adaptive => Integrator.adaptive
  | euler n => Integrator.fixed Integrator.euler n
  | rungeKutta n => Integrator.fixed Integrator.rungeKutta n
  | probe places => fun r => probed r places
  | replay times states => fun _ => replayed times states

end OdeEngine

namespace OdeChoice

variable {α : Type} [Scalar α]

/-- Runs the integrator, and reports the outcome that is laid down. -/
def run (c : OdeChoice α) : OdeSolver α := fun r => do
  let result ← c.engine.run r
  let success ← (c.success.getD (.bool result.success)).toTruth
  return { result with
    success
    message := (c.message.map (·.display)).getD result.message }

end OdeChoice

end Collocation
