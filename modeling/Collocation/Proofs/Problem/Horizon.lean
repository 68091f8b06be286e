import Collocation.Proofs.Bounds
import Collocation.Proofs.Problem.Snapshot

/-! Bounds of the times.  After any calls on a problem they hold a number, and a problem with
functions has room for a horizon between them. -/

namespace Collocation

namespace Problem

variable {α : Type} [Scalar α]

/-- A problem after any calls, of which some may have failed. -/
def attempted (name : Value α) (calls : List (Call α)) : Problem α :=
  Edit.afterAll Call.run calls { name }

/-- The bounds of the times, where they are set, hold a number. -/
structure Timed (p : Problem α) : Prop where
  initialTime : ∀ b ∈ p.initialTime, b.exact.Proper
  finalTime : ∀ b ∈ p.finalTime, b.exact.Proper

theorem Timed.overlaid {p : Problem α} (hp : p.Timed) {initialTime : Option (Bounds α)}
    (h : ∀ b ∈ initialTime, b.exact.Proper) (kinematic : Option (Evaluator (Point α) α)) :
    (p.overlaid initialTime kinematic).Timed :=
  ⟨h, hp.finalTime⟩

section Calls

variable [Rounding α]

/-- A call that fails between the two times has set the initial one, which is checked before. -/
theorem Call.leave_timed (c : Call α) {p : Problem α} (hp : p.Timed) : (c.leave p).Timed := by
  refine hp.overlaid ?_ _
  cases c with
  | time initial final =>
    rw [initialTime?]
    cases hfirst : Bounds.ofValue initial "initial time" with
    | error fault => exact hp.initialTime
    | ok first =>
      rintro b ⟨⟩
      exact Bounds.ofValue_proper hfirst
  | _ => exact hp.initialTime

theorem Call.run_keeps (c : Call α) : c.run.Keeps Timed := by
  intro p hp
  rw [run_eq]
  cases hitem : c.item with
  | error fault => exact c.leave_timed hp
  | ok e =>
    cases makes_of_item hitem with
    | time hfirst hlast =>
      refine ⟨?_, ?_⟩
      · rintro b ⟨⟩
        exact Bounds.ofValue_proper hfirst
      · rintro b ⟨⟩
        exact Bounds.ofValue_proper hlast
    | _ => exact { hp with }

theorem attempted_timed (name : Value α) (calls : List (Call α)) : (attempted name calls).Timed :=
  Edit.afterAll_keeps (fun c _ => c.run_keeps) ⟨nofun, nofun⟩

end Calls

/-- A problem with functions has times, and their bounds leave room for a horizon. -/
theorem times_of_functions {p : Problem α} {f : Functions α}
    (h : p.functions = .ok f) : p.initialTime = some f.initialTime ∧
      p.finalTime = some f.finalTime ∧
      ¬ f.finalTime.upper ≤ f.initialTime.lower + minimumHorizon := by
  have hmakes := functions_eq_ok.mp h
  obtain ⟨first, last, hfirst, hlast, hroom⟩ := hmakes.complete.times
  obtain rfl := Option.some.inj (hfirst.symm.trans hmakes.initialTime)
  obtain rfl := Option.some.inj (hlast.symm.trans hmakes.finalTime)
  exact ⟨hfirst, hlast, hroom⟩

theorem distinct_ne {β : Type} {text : β → String} {items : List β} {sort : String}
    {upper lower : Extended} : (Check.distinct (items.map fun x => .text (text x)) sort :
      Outcome Extended Unit) ≠ .error (.problem (.noHorizon upper lower)) := by
  unfold Check.distinct
  generalize ([] : List (Value Extended)) = seen
  induction items generalizing seen with
  | nil => exact nofun
  | cons x rest ih =>
    intro h
    rcases Except.bind_eq_error.mp h with h | ⟨_, -, h⟩
    · cases h
    · split_ifs at h
      · cases h
      · exact ih _ h

/-- Times are refused only if their bounds leave no room for a horizon. -/
theorem no_room_of_refused {p : Problem Extended} {upper lower : Extended}
    (h : p.checkStructure = .error (.problem (.noHorizon upper lower))) :
    ∃ first last, p.initialTime = some first ∧ p.finalTime = some last ∧
      last.upper ≤ first.lower + minimumHorizon := by
  unfold checkStructure at h
  rcases Except.bind_eq_error.mp h with h | ⟨first, hfirst, h⟩
  · unfold initialTimeBounds declared at h
    split at h <;> cases h
  rcases Except.bind_eq_error.mp h with h | ⟨last, hlast, h⟩
  · unfold finalTimeBounds declared at h
    split at h <;> cases h
  simp only [Except.if_throw_eq_error, Except.bind_eq_error, distinct_ne, Fault.problem.injEq,
    reduceCtorEq, and_false, or_false, exists_false] at h
  exact ⟨first, last, declared_eq_ok.mp hfirst, declared_eq_ok.mp hlast, h.1⟩

end Problem

end Collocation
