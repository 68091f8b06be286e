import Collocation.Proofs.Problem.Failures
import Collocation.Transcription

/-! Transcriptions with a record of what was done to the problem.  Recording changes no outcome, and
where a transcription succeeds every callable was called once, in order, before the layout was
built. -/

namespace Collocation

/-- An operation with a record of what is done. -/
abbrev Recorded (α β : Type) := Edit (List (Event α)) α β

variable {α β γ : Type}

/-- An operation that is recorded when it starts. -/
def recording (event : Event α) (x : Outcome α β) : Recorded α β := do
  modify (· ++ [event])
  x

section Recorded

variable [Scalar α]

/-- The functions of a problem, with a record of the calls. -/
def Problem.recordedFunctions (p : Problem α) : Recorded α (Functions α) := p.functionsIn recording

/-- Transcribes a problem, with a record of the calls and of the layout. -/
def Transcription.recordedCreate (r : Registry α) (solver : Solver α) (p : Problem α) :
    Recorded α (Transcription α) := createIn recording r solver p

end Recorded

/-- A recorded operation has the outcome of the plain one, and adds given events if it succeeds. -/
structure Records (e : Recorded α β) (x : Outcome α β) (events : List (Event α)) : Prop where
  outcome : ∀ log, (e.run log).run.1 = x
  log : ∀ log y, x = .ok y → (e.run log).run.2 = log ++ events

namespace Records

theorem pure (y : β) : Records (pure y : Recorded α β) (.ok y) [] :=
  ⟨fun _ => rfl, fun log _ _ => (List.append_nil log).symm⟩

theorem lift (x : Outcome α β) : Records (liftM x : Recorded α β) x [] :=
  ⟨fun _ => rfl, fun log _ _ => (List.append_nil log).symm⟩

theorem recording (event : Event α) (x : Outcome α β) :
    Records (recording event x) x [event] :=
  ⟨fun _ => rfl, fun _ _ _ => rfl⟩

theorem bind {e : Recorded α β} {x : Outcome α β} {f : β → Recorded α γ} {g : β → Outcome α γ}
    {first second : List (Event α)} (he : Records e x first)
    (hf : ∀ y, x = .ok y → Records (f y) (g y) second) :
    Records (e >>= f) (x >>= g) (first ++ second) := by
  constructor
  · intro log
    rw [Edit.run_bind]
    have houtcome := he.outcome log
    rcases hrun : (e.run log).run with ⟨fault | y, log'⟩
    · rw [hrun] at houtcome
      rw [← houtcome]
      rfl
    · rw [hrun] at houtcome
      rw [← houtcome]
      exact (hf y houtcome.symm).outcome log'
  · intro log z hz
    obtain ⟨y, hy, hz⟩ := Except.bind_eq_ok.mp hz
    have hyields : e.Yields log y (log ++ first) :=
      Prod.ext ((he.outcome log).trans hy) (he.log log y hy)
    rw [Edit.run_bind, hyields]
    rw [(hf y hy).log _ z hz, List.append_assoc]

theorem lift_bind {x : Outcome α β} {f : β → Recorded α γ} {g : β → Outcome α γ}
    {events : List (Event α)} (hf : ∀ y, x = .ok y → Records (f y) (g y) events) :
    Records (liftM x >>= f) (x >>= g) events := (lift x).bind hf

/-- What is only put together adds no event. -/
theorem finish {e : Recorded α β} {x : Outcome α β} {events : List (Event α)}
    (he : Records e x events) (f : β → γ) :
    Records (do let y ← e; Pure.pure (f y)) (do let y ← x; Pure.pure (f y)) events := by
  have h := he.bind fun y _ => pure (f y)
  rwa [List.append_nil] at h

theorem mapM {f : β → Recorded α γ} {g : β → Outcome α γ} {event : β → Event α}
    (hf : ∀ y, Records (f y) (g y) [event y]) (xs : List β) :
    Records (xs.mapM f) (xs.mapM g) (xs.map event) := by
  induction xs with
  | nil => exact pure []
  | cons x rest ih =>
    rw [List.mapM_cons, List.mapM_cons]
    exact (hf x).bind fun y _ => ih.finish fun ys => y :: ys

theorem option_mapM {f : β → Recorded α γ} {g : β → Outcome α γ} {event : β → Event α}
    (hf : ∀ y, Records (f y) (g y) [event y]) (x : Option β) :
    Records (x.mapM f) (x.mapM g) (x.toList.map event) := by
  cases x with
  | none => exact pure none
  | some y => exact (hf y).finish some

end Records

variable [Scalar α]

theorem Functions.ofCosts_records (s : Setting) (costs : List (CostTerm α)) :
    Records (ofCostsIn recording s costs) (ofCosts s costs)
      (costs.map fun c => .called (.cost c)) := by
  induction costs with
  | nil => exact .pure _
  | cons c rest ih =>
    obtain ⟨name, evaluator, weight⟩ := c
    cases evaluator with
    | endpoint e => exact (Records.recording _ _).bind fun f _ => ih.finish _
    | integral e => exact (Records.recording _ _).bind fun f _ => ih.finish _

theorem Problem.recordedFunctions_records (p : Problem α) :
    Records p.recordedFunctions p.functions (p.callables.map .called) := by
  refine .lift_bind fun _ _ => .lift_bind fun first _ => .lift_bind fun last _ => ?_
  refine .lift_bind fun dynamics hdynamics => ?_
  rw [callables, declared_eq_ok.mp hdynamics]
  simp only [Option.toList_some, List.map_cons, List.map_nil, List.cons_append, List.nil_append,
    List.append_assoc, List.map_append, List.map_map]
  refine (Records.recording _ _).bind fun xdot _ => ?_
  refine (Records.option_mapM (fun g => .recording _ _) p.kinematic).bind fun kinematic _ => ?_
  refine (Records.mapM (fun c => .recording _ _) p.path).bind fun path _ => ?_
  exact (Functions.ofCosts_records _ p.costs).finish _

/-- A transcription that succeeds has called every callable once, in order, and then built its
layout. -/
theorem Transcription.recordedCreate_records (r : Registry α) (solver : Solver α)
    (p : Problem α) : Records (recordedCreate r solver p) (create r solver p)
      (p.callables.map .called ++ [.laidOut]) := by
  refine .lift_bind fun i _ => .lift_bind fun _ _ => ?_
  refine p.recordedFunctions_records.bind fun f _ => ?_
  split_ifs
  all_goals exact .lift_bind fun points _ => .lift_bind fun _ _ => (Records.recording _ _).finish _

end Collocation
