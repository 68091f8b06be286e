import Collocation.Proofs.Problem.Horizon

/-! Calls that fail.  All calls check their arguments before they change a problem, except that the
initial time is set before the final one is read, and kinematic constraints before their multipliers
are declared.  Calls that fail change nothing else. -/

namespace Collocation.Problem

variable {α : Type} [Scalar α]

namespace Call

def accepted (c : Call α) : Bool := c.item.isOk

/-- A call that is refused when it has already set a part of the problem. -/
inductive Halfway : Call α → Prop where
  | time {initial final : Value α} {first : Bounds α} {fault : Fault α}
      (hfirst : Bounds.ofValue initial "initial time" = .ok first)
      (hlast : Bounds.ofValue final "final time" = .error fault) :
      Halfway (.time initial final)
  | kinematic {e : Evaluator (Point α) α} {multipliers boundary : Value α}
      {names : List (Value α)} {fault : Fault α}
      (hnames : multiplierNames multipliers = .ok names)
      (hdeclared : (names.mapM fun (n : Value α) =>
        (Variable.declare "Multiplier" n boundary .none .none : Outcome α (Variable α))) =
          .error fault) :
      Halfway (.kinematic (.evaluator e) multipliers boundary)

theorem initialTime?_eq {initial final : Value α} {first : Bounds α}
    (h : Bounds.ofValue initial "initial time" = .ok first) :
    (Call.time initial final).initialTime? = some (some first) := by
  rw [initialTime?, h]
  rfl

omit [Scalar α] in
theorem kinematic?_eq {f : Supplied (Point α) α} {g : Evaluator (Point α) α}
    {multipliers boundary : Value α} {names : List (Value α)}
    (hf : f.toEvaluator "Kinematic constraints" = .ok g)
    (hnames : multiplierNames multipliers = .ok names) :
    (Call.kinematic f multipliers boundary).kinematic? = some (some g) := by
  rw [kinematic?, hf, hnames]
  rfl

/-- A refused call that is not halfway sets nothing. -/
theorem sets_nothing {c : Call α} {fault : Fault α} (h : c.item = .error fault)
    (hc : ¬ c.Halfway) : c.initialTime? = none ∧ c.kinematic? = none := by
  cases c with
  | time initial final =>
    rcases Except.bind_eq_error.mp h with hfirst | ⟨first, hfirst, h⟩
    · exact ⟨by rw [initialTime?, hfirst]; rfl, rfl⟩
    rcases Except.bind_eq_error.mp h with hlast | ⟨last, -, h⟩
    · exact absurd (.time hfirst hlast) hc
    · cases h
  | kinematic f multipliers boundary =>
    rcases Except.bind_eq_error.mp h with hf | ⟨g, hf, h⟩
    · exact ⟨rfl, by rw [kinematic?, hf]; rfl⟩
    rcases Except.bind_eq_error.mp h with hnames | ⟨names, hnames, h⟩
    · exact ⟨rfl, by rw [kinematic?, hf, hnames]; rfl⟩
    rcases Except.bind_eq_error.mp h with hdeclared | ⟨declared, -, h⟩
    · obtain rfl := toEvaluator_eq_ok hf
      exact absurd (.kinematic hnames hdeclared) hc
    · cases h
  | _ => exact ⟨rfl, rfl⟩

theorem leave_eq {c : Call α} {fault : Fault α} (h : c.item = .error fault) (hc : ¬ c.Halfway)
    (p : Problem α) : c.leave p = p := by
  obtain ⟨htime, hkinematic⟩ := sets_nothing h hc
  rw [leave, htime, hkinematic]
  rfl

/-- A halfway call fails on every problem, and a new problem shows what it has set. -/
theorem Halfway.leaves {c : Call α} (h : c.Halfway) :
    ∃ fault, c.item = .error fault ∧ c.leave {} ≠ {} := by
  cases h with
  | @time initial final first fault hfirst hlast =>
    have hitem : (Call.time initial final).item = .error fault :=
      Except.bind_eq_error.mpr (.inr ⟨first, hfirst, Except.bind_eq_error.mpr (.inl hlast)⟩)
    refine ⟨fault, hitem, fun h => ?_⟩
    rw [leave, initialTime?_eq hfirst] at h
    cases congrArg Problem.initialTime h
  | @kinematic e multipliers boundary names fault hnames hdeclared =>
    have hitem : (Call.kinematic (.evaluator e) multipliers boundary).item = .error fault := by
      refine Except.bind_eq_error.mpr (.inr ⟨e, rfl, ?_⟩)
      refine Except.bind_eq_error.mpr (.inr ⟨names, hnames, ?_⟩)
      exact Except.bind_eq_error.mpr (.inl hdeclared)
    refine ⟨fault, hitem, fun h => ?_⟩
    rw [leave, kinematic?_eq rfl hnames] at h
    cases congrArg Problem.kinematic h

theorem accepted_iff {c : Call α} {p : Problem α} :
    c.accepted = true ↔ ∃ p', c.run.Yields p () p' := by
  simp only [run_yields, accepted]
  cases c.item with
  | error fault => simp [Except.isOk, Except.toBool]
  | ok e => simp [Except.isOk, Except.toBool]

theorem atomic_iff {c : Call α} : (∀ p, c.run.Atomic p) ↔ ¬ c.Halfway := by
  constructor
  · intro h hc
    obtain ⟨fault, hfault, hne⟩ := hc.leaves
    exact hne (h {} fault _ (run_fails.mpr ⟨hfault, rfl⟩))
  · intro hc p fault p' hp
    obtain ⟨hfault, rfl⟩ := run_fails.mp hp
    exact leave_eq hfault hc p

/-- A call that succeeds sets the initial time and the kinematic constraints to the same as one that
fails; what it puts in besides does not depend on them. -/
theorem put_eq {c : Call α} {e : Item α} (h : c.item = .ok e) (p : Problem α)
    (initialTime : Option (Bounds α)) (kinematic : Option (Evaluator (Point α) α)) :
    e.put (p.overlaid initialTime kinematic) =
      (e.put p).overlaid (c.initialTime?.getD initialTime) (c.kinematic?.getD kinematic) := by
  cases makes_of_item h with
  | time hfirst _ =>
    rw [initialTime?_eq hfirst]
    rfl
  | kinematic hf hnames _ =>
    rw [kinematic?_eq hf hnames]
    rfl
  | _ => rfl

end Call

/-- After some calls a problem is what the accepted ones alone make of it, except that a time call
sets the initial time and a call for kinematic constraints sets these even if it fails. -/
theorem afterAll_eq (calls : List (Call α)) (p : Problem α) (initialTime : Option (Bounds α))
    (kinematic : Option (Evaluator (Point α) α)) :
    ∃ q, (Edit.sequence Call.run (calls.filter Call.accepted)).Yields p () q ∧
      Edit.afterAll Call.run calls (p.overlaid initialTime kinematic) =
        q.overlaid (lastPicked Call.initialTime? initialTime calls)
          (lastPicked Call.kinematic? kinematic calls) := by
  induction calls generalizing p initialTime kinematic with
  | nil => exact ⟨p, rfl, rfl⟩
  | cons c rest ih =>
    rw [Edit.afterAll_cons, Call.run_eq, lastPicked_cons, lastPicked_cons]
    cases hitem : c.item with
    | ok e =>
      obtain ⟨q, hq, hrest⟩ := ih (e.put p) (c.initialTime?.getD initialTime)
        (c.kinematic?.getD kinematic)
      have hc : c.run.Yields p () (e.put p) := Call.run_yields.mpr ⟨e, hitem, rfl⟩
      refine ⟨q, ?_, (congrArg (Edit.afterAll Call.run rest) (Call.put_eq hitem ..)).trans hrest⟩
      rw [List.filter_cons_of_pos (by rw [Call.accepted, hitem]; rfl), Edit.sequence_cons,
        Edit.yields_bind]
      exact ⟨(), _, hc, hq⟩
    | error fault =>
      obtain ⟨q, hq, hrest⟩ := ih p (c.initialTime?.getD initialTime) (c.kinematic?.getD kinematic)
      refine ⟨q, ?_, hrest⟩
      rwa [List.filter_cons_of_neg (by rw [Call.accepted, hitem]; exact nofun)]

/-- Without halfway calls, calls that fail leave no trace. -/
theorem yields_accepted {calls : List (Call α)} (h : ∀ c ∈ calls, ¬ c.Halfway) (p : Problem α) :
    (Edit.sequence Call.run (calls.filter Call.accepted)).Yields p ()
      (Edit.afterAll Call.run calls p) := by
  induction calls generalizing p with
  | nil => rfl
  | cons c rest ih =>
    have hrest := ih fun d hd => h d (List.mem_cons_of_mem c hd)
    rw [Edit.afterAll_cons, Call.run_eq]
    cases hitem : c.item with
    | ok e =>
      have hc : c.run.Yields p () (e.put p) := Call.run_yields.mpr ⟨e, hitem, rfl⟩
      rw [List.filter_cons_of_pos (by rw [Call.accepted, hitem]; rfl), Edit.sequence_cons,
        Edit.yields_bind]
      exact ⟨(), _, hc, hrest (e.put p)⟩
    | error fault =>
      rw [List.filter_cons_of_neg (by rw [Call.accepted, hitem]; exact nofun)]
      have hleave := Call.leave_eq hitem (h c (by simp)) p
      show (Edit.sequence Call.run (rest.filter Call.accepted)).Yields p ()
        (Edit.afterAll Call.run rest (c.leave p))
      rw [hleave]
      exact hrest p

/-- A call leaves a problem as it was when it fails, unless it is halfway. After some calls a
problem is what those that succeed make of it on their own, except that the initial time and the
kinematic constraints are those of the last call that got as far as to set them. -/
theorem attempts (calls : List (Call α)) (p : Problem α) :
    (∀ c : Call α, (∀ s, c.run.Atomic s) ↔ ¬ c.Halfway) ∧
    (∀ c : Call α, c.accepted = true ↔ ∃ p', c.run.Yields p () p') ∧
    ∃ q, (Edit.sequence Call.run (calls.filter Call.accepted)).Yields p () q ∧
      Edit.afterAll Call.run calls p =
        q.overlaid (lastPicked Call.initialTime? p.initialTime calls)
          (lastPicked Call.kinematic? p.kinematic calls) ∧
      ((∀ c ∈ calls, ¬ c.Halfway) → Edit.afterAll Call.run calls p = q) := by
  refine ⟨fun c => Call.atomic_iff, fun c => Call.accepted_iff, ?_⟩
  obtain ⟨q, hq, hrest⟩ := afterAll_eq calls p p.initialTime p.kinematic
  exact ⟨q, hq, hrest, fun h => ((yields_accepted h p).unique hq).2⟩

namespace Sample

def timed : Problem Extended := attempted (.text "sample") [.time (.real 0.0) (.real 10.0)]

/-- The initial time is accepted, but the bounds of the final one are out of order. -/
def shifted : Call Extended := .time (.real 5.0) (.tuple [.real 3.0, .real 1.0])

/-- The function is accepted, but the second multiplier has no name. -/
def unnamed : Call Extended :=
  .kinematic (.evaluator fun _ => .ok (.function ⟨1, 1, [fun pt => pt.time]⟩))
    (.list [.text "reaction", .text ""]) .none

end Sample

/-- A new initial time stays when the final one is refused, and new kinematic constraints stay when
one of their multipliers is. -/
theorem not_atomic :
    ¬ Sample.shifted.run.Atomic Sample.timed ∧ ¬ Sample.unnamed.run.Atomic Sample.timed := by
  constructor
  · intro h
    obtain ⟨fault, hfault⟩ := Except.exists_error (x := Sample.shifted.item) (by decide +kernel)
    have htime := congrArg Problem.initialTime (h fault _ (Call.run_fails.mpr ⟨hfault, rfl⟩))
    revert htime
    decide +kernel
  · intro h
    obtain ⟨fault, hfault⟩ := Except.exists_error (x := Sample.unnamed.item) (by decide +kernel)
    have hset := congrArg (·.kinematic.isSome) (h fault _ (Call.run_fails.mpr ⟨hfault, rfl⟩))
    revert hset
    decide +kernel

end Collocation.Problem
