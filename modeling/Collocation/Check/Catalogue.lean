import Collocation.Bounds
import Collocation.Mesh
import Collocation.Signature
import Collocation.Solver

/-!
The checks of the library as calls with arguments in their places, each of any kind.
-/

namespace Collocation

inductive CheckCall where
  | positiveInteger
  | positiveNumber
  | nonemptyText
  | finiteEntries
  | arrayShape
  | distinctNames
  | boundsInput
  | meshPoints
  | intervalLengths
  | solverOptions
  deriving DecidableEq

namespace CheckCall

def signature : CheckCall → Signature
  | positiveInteger => ⟨"_validate_positive_integer", false, ["value", "name"], ["min_value"]⟩
  | positiveNumber => ⟨"_validate_positive_number", false, ["value", "name"], []⟩
  | nonemptyText => ⟨"_validate_string_not_empty", false, ["value", "name"], []⟩
  | finiteEntries =>
    ⟨"_validate_array_numerical_integrity", false, ["array", "name"], ["context"]⟩
  | arrayShape => ⟨"_validate_array_shape", false, ["array", "expected_shape", "name"], ["context"]⟩
  | distinctNames => ⟨"_validate_names_unique", false, ["names", "kind"], []⟩
  | boundsInput => ⟨"_validate_bounds_input_format", false, ["bounds_input", "context"], []⟩
  | meshPoints => ⟨"_validate_mesh_points", false, ["points"], []⟩
  | intervalLengths => ⟨"_validate_interval_lengths", false, ["lengths"], []⟩
  | solverOptions =>
    ⟨"_validate_solver_options", false,
      ["optim_solver", "optim_hessian_approximation", "optim_max_iterations",
        "optim_convergence_tolerance", "optim_constraint_tolerance", "verbosity"], []⟩

variable {α : Type} [Scalar α]

/-- The stage that a failure of an array names. -/
def stage (v : Option (Value α)) : String := (v.map Value.display).getD "validation"

/-- Runs a check, which returns the checked row of numbers if it has one. -/
def run (c : CheckCall) (args : List (Value α)) : Outcome α (Option (List α)) := do
  let arg (i : Nat) : Value α := args[i]?.getD .none
  let name (i : Nat) : String := (arg i).display
  let array ← match c with
    | .finiteEntries | .arrayShape => (arg 0).toTensor
    | _ => pure (Tensor.ofList [])
  c.signature.checkCount args.length
  match c with
  | .positiveInteger =>
    let _ ← Check.integerAtLeast (arg 0) (name 1) (args[2]?.getD (.int 1))
    return none
  | .positiveNumber =>
    let _ ← Check.positive (arg 0) (name 1)
    return none
  | .nonemptyText =>
    let _ ← Check.name (arg 0) (name 1)
    return none
  | .finiteEntries =>
    Check.finiteEntries array.entries (name 1) (stage args[2]?)
    return none
  | .arrayShape =>
    Check.shape array (arg 1) (name 2) (stage args[3]?)
    return none
  | .distinctNames =>
    Check.distinct (← (arg 0).toItems) (name 1)
    return none
  | .boundsInput =>
    Bounds.inPlace (arg 1) (Bounds.check (arg 0))
    return none
  | .meshPoints => return some (← Mesh.checkPoints (← (arg 0).toTensor))
  | .intervalLengths => return some (← Mesh.checkLengths (← (arg 0).toTensor))
  | .solverOptions =>
    let _ ← SolverRequest.checkEngine (arg 0) (arg 1) (arg 2) (arg 3) (arg 4) (arg 5)
    return none

end CheckCall

end Collocation
