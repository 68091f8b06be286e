import Collocation.Decimal.Double
import Collocation.Proofs.Problem.Calls
import Collocation.Proofs.Problem.Functions
import Collocation.Proofs.Problem.Returned

/-! Problems that have no functions.  The callables of a complete problem are called one after the
other, up to the first that fails, and all failures are reported as failures of the definition but
for those that a returned value lets through. -/

namespace Collocation

variable {α : Type}

/-- The callables of a problem, in the order in which they are called. -/
def Problem.callables (p : Problem α) : List (Callable α) :=
  p.dynamics.toList.map .dynamics ++ p.kinematic.toList.map .kinematic ++ p.path.map .path
    ++ p.costs.map .cost

/-- A function name can be made from the name of a constraint or a cost. -/
def Problem.Callable.isNamed : Callable α → Bool
  | .dynamics _ | .kinematic _ => true
  | .path c => isFunctionName (functionName "path" c.name)
  | .cost ⟨name, .endpoint _, _⟩ => isFunctionName (functionName "endpoint" name)
  | .cost ⟨name, .integral _, _⟩ => isFunctionName (functionName "integrand" name)

variable [Scalar α]

namespace Problem

/-- Calls a callable and takes the function that comes out. -/
def Callable.take (p : Problem α) : Callable α → Outcome α Unit
  | .dynamics e => discard (e.callSized ⟨p.sizes, p.kinematic.isSome⟩ p.sizes.states "Dynamics")
  | .kinematic e =>
    discard (e.callSized ⟨p.sizes, false⟩ p.sizes.multipliers "Kinematic constraints")
  | .path c => discard (Functions.ofPath ⟨p.sizes, false⟩ c)
  | .cost ⟨name, .endpoint e, weight⟩ =>
    discard (Functions.ofEndpoint ⟨p.sizes, false⟩ name weight e)
  | .cost ⟨name, .integral e, weight⟩ =>
    discard (Functions.ofIntegral ⟨p.sizes, false⟩ name weight e)

/-- A callable returns what lets a failure of the given kind through. -/
def Callable.Escapes (p : Problem α) (kind : Kind) : Callable α → Prop
  | .dynamics e => e.Escapes ⟨p.sizes, p.kinematic.isSome⟩ kind
  | .kinematic e => e.Escapes ⟨p.sizes, false⟩ kind
  | .path c => c.evaluator.Escapes ⟨p.sizes, false⟩ kind
  | .cost ⟨_, .endpoint e, _⟩ => e.Escapes ⟨p.sizes, false⟩ kind
  | .cost ⟨_, .integral e, _⟩ => e.Escapes ⟨p.sizes, false⟩ kind

end Problem

theorem discard_ofCosts (p : Problem α) (costs : List (CostTerm α)) :
    discard (Functions.ofCosts ⟨p.sizes, false⟩ costs) =
      forM (costs.map .cost) (Problem.Callable.take p) := by
  induction costs with
  | nil => rfl
  | cons c rest ih =>
    obtain ⟨name, evaluator, weight⟩ := c
    rw [List.map_cons, List.forM_cons, ← ih]
    cases evaluator with
    | endpoint e =>
      refine Except.discard_bind fun f => ?_
      exact Except.discard_collect fun _ => rfl
    | integral e =>
      refine Except.discard_bind fun f => ?_
      exact Except.discard_collect fun _ => rfl

theorem discard_kinematic (p : Problem α) (kinematic : Option (Evaluator (Point α) α)) :
    discard (kinematic.mapM fun g =>
        g.callSized ⟨p.sizes, false⟩ p.sizes.multipliers "Kinematic constraints") =
      forM (kinematic.toList.map .kinematic) (Problem.Callable.take p) := by
  cases kinematic with
  | none => rfl
  | some g =>
    refine (Except.discard_collect fun _ => rfl).trans ?_
    exact (bind_pure_unit (x := Problem.Callable.take p (.kinematic g))).symm

namespace Problem

variable {p : Problem α} {kind : Kind}

/-- Functions are taken from a complete problem by calling its callables in order. -/
theorem discard_functions (p : Problem α) :
    discard p.functions = p.checkStructure >>= fun _ => forM p.callables (Callable.take p) := by
  cases hcheck : p.checkStructure with
  | error fault =>
    rw [functions, functionsIn, hcheck]
    rfl
  | ok u =>
    have hcomplete := checkStructure_eq_ok.mp hcheck
    obtain ⟨first, last, hfirst, hlast, -⟩ := hcomplete.times
    obtain ⟨e, he⟩ := Option.ne_none_iff_exists'.mp hcomplete.dynamics
    rw [functions, functionsIn, hcheck, initialTimeBounds, declared_eq_ok.mpr hfirst,
      finalTimeBounds, declared_eq_ok.mpr hlast, requiredDynamics, declared_eq_ok.mpr he,
      callables, he]
    simp only [Option.toList_some, List.map_cons, List.map_nil, List.cons_append, List.nil_append,
      List.append_assoc, List.forM_cons, List.forM_append, ← discard_ofCosts]
    change discard (e.callSized _ _ _ >>= fun xdot => _) = _
    refine Except.discard_bind fun xdot => ?_
    rw [← discard_kinematic]
    refine Except.discard_bind fun kinematic => ?_
    rw [List.forM_map]
    refine (Except.discard_bind fun path => ?_).trans
      (congrArg (· >>= fun _ => _) (Except.forM_discard p.path).symm)
    exact Except.discard_collect fun _ => rfl

/-- A complete problem lets a failure through at the first of its callables that fails. -/
def LetsThrough (p : Problem α) (kind : Kind) : Prop :=
  p.Complete ∧ ∃ before c after, p.callables = before ++ c :: after ∧
    (∀ b ∈ before, b.take p = .ok ()) ∧ c.Escapes p kind

theorem Callable.Escapes.kind_mem {c : Callable α} (h : c.Escapes p kind) :
    kind ∈ Returned.escapingKinds := by
  match c with
  | .dynamics _ | .kinematic _ | .path _ => exact Evaluator.Escapes.kind_mem h
  | .cost ⟨_, .endpoint _, _⟩ | .cost ⟨_, .integral _, _⟩ => exact Evaluator.Escapes.kind_mem h

namespace Sample

/-- The calls of an author whose dynamics return the given value. -/
def returning (r : Returned (Point α) α) : List (Call α) :=
  [.time (.real 0.0) (.real 1.0), .state (.text "x") .none .none .none,
    .dynamics (.evaluator fun _ => .ok r)]

/-- A whole number above all doubles in a list, matrices of two widths in a list, and two numbers in
an array with three axes. -/
def escaping : List (Returned (Point Float) Float × Kind) :=
  [(.value (.list [.int (Int.pow 10 400)]), .overflow),
    (.sequence [.function ⟨1, 1, [fun _ => 1.0]⟩, .function ⟨1, 2, [fun _ => 1.0, fun _ => 2.0]⟩],
      .runtime),
    (.array ⟨[1, 1, 2], [1.0, 2.0]⟩, .other "NotImplementedError")]

def author (r : Returned (Point Float) Float) : Edit (Problem Float) Float Unit :=
  Edit.sequence Call.run (returning r)

/-- Each of the three results gets through. -/
theorem escaping_raises : ∀ sample ∈ escaping, ∃ p : Problem Float,
    (author sample.1).Yields { name := .text "p" } () p ∧
      (∀ c ∈ p.callables, c.isNamed = true) ∧ sample.2 ≠ .problemDefinition ∧
      Raises p.functions sample.2 ∧ Raises p.validate sample.2 := by
  simp only [escaping, List.forall_mem_cons]
  refine ⟨?large, ?uneven, ?axes, nofun⟩
  all_goals
    exact ⟨_, Edit.yields_of_isOk (by decide +kernel), by decide +kernel, by decide +kernel,
      by decide +kernel, by decide +kernel⟩

end Sample

end Problem

end Collocation
