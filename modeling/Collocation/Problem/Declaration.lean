import Collocation.Problem
import Collocation.Signature

/-!
Declarations by name: which arguments a declaration of a problem's parts has to be given.
-/

namespace Collocation

/-- The declarations with arguments that have to be given. -/
inductive Declaration where
  | state
  | control
  | parameter
  | kinematic
  | path
  | endpointCost
  | integralCost
  deriving DecidableEq

namespace Declaration

def signature : Declaration → Signature
  | state =>
    { function := "Problem.state"
      required := ["name"], optional := ["boundary", "initial", "final"] }
  | control =>
    { function := "Problem.control"
      required := ["name"], optional := ["boundary", "initial", "final"] }
  | parameter =>
    { function := "Problem.parameter", required := ["name"], optional := ["boundary"] }
  | kinematic =>
    { function := "Problem.kinematic_constraints"
      required := ["func", "multipliers"], optional := ["boundary"] }
  | path =>
    { function := "Problem.path_constraint", required := ["name", "func"], optional := ["bounds"] }
  | endpointCost =>
    { function := "Problem.endpoint_cost", required := ["name", "func"], optional := ["weight"] }
  | integralCost =>
    { function := "Problem.integral_cost", required := ["name", "func"], optional := ["weight"] }

/-- A declaration that is made only if its arguments are all there. -/
def checked {α β : Type} (d : Declaration) (given : List String) (e : Edit (Problem α) α β) :
    Edit (Problem α) α β := do
  (d.signature.requireNames given : Outcome α Unit)
  e

end Declaration

end Collocation
