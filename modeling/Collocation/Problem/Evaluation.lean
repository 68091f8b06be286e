import Collocation.Problem.Functions
import Collocation.Signature

/-!
Calls of the functions of a problem with arguments in their places, as many as the caller gives. A
function that is one of several takes its index first.
-/

namespace Collocation

/-- The functions that a caller can evaluate. -/
inductive Evaluation where
  | dynamics
  | kinematic
  | path
  | integrand
  | endpoint
  deriving DecidableEq

namespace Evaluation

/-- The arguments that each of them takes, in their places. -/
def signature : Evaluation → Signature
  | dynamics =>
    { function := "ProblemFunctions.dynamics"
      required := ["t", "x", "u"], optional := ["p", "multipliers"] }
  | kinematic =>
    { function := "ProblemFunctions.kinematic_constraint_errors"
      required := ["t", "x", "u"], optional := ["p"] }
  | path =>
    { function := "ProblemFunctions.path_constraint"
      required := ["index", "t", "x", "u"], optional := ["p"] }
  | integrand =>
    { function := "ProblemFunctions.integrand"
      required := ["index", "t", "x", "u"], optional := ["p"] }
  | endpoint =>
    { function := "ProblemFunctions.endpoint_cost"
      required := ["index", "t0", "x0", "tf", "xf"], optional := ["p"] }

end Evaluation

namespace Functions

variable {α : Type} [Scalar α]

/-- Evaluates a function. Arguments that are left out count as missing ones, and an index is read
before the other arguments. -/
def evaluate (f : Functions α) (which : Evaluation) (args : List (Value α)) :
    Outcome α (List α) := do
  which.signature.checkCount args.length
  let arg (i : Nat) : Value α := args[i]?.getD .none
  match which with
  | .dynamics => f.evalDynamics (arg 0) (arg 1) (arg 2) (arg 3) (arg 4)
  | .kinematic => f.evalKinematic (arg 0) (arg 1) (arg 2) (arg 3)
  | .path => f.evalPath (← (arg 0).toPosition) (arg 1) (arg 2) (arg 3) (arg 4)
  | .integrand => f.evalIntegrand (← (arg 0).toPosition) (arg 1) (arg 2) (arg 3) (arg 4)
  | .endpoint =>
    f.evalEndpoint (← (arg 0).toPosition) (arg 1) (arg 2) (arg 3) (arg 4) (arg 5)

end Functions

end Collocation
