import Collocation.Proofs.Problem.Calls
import Collocation.Session

/-! Questions to the transcription of a session.  Between them calls may change the problem of the
session, but what a question says and what it leaves depend on the other parts alone. -/

namespace Collocation

variable {α : Type} [Scalar α]

/-- What a transcription is asked. -/
inductive Question (α : Type) where
  | layout
  | bounds
  | blocks
  | constraints (v : Value α)
  | objective (v : Value α)
  | terms (v : Value α)
  | guess (choice : GuessChoice α)
  /-- The optimiser works on the program that it is given. -/
  | solve (engine : Program α → Optimiser α) (choice : GuessChoice α)

inductive Answer (α : Type) where
  | layout (l : Layout α)
  | bounds (ofVariables ofConstraints : List (Bounds α))
  | blocks (bs : List (Block α))
  | vector (xs : List α)
  | number (x : α)
  | terms (entries : List (String × α))
  | solved (r : SolveRecord α)

/-- What happens to a session: a call on its problem, or a question to its transcription. -/
inductive Act (α : Type) where
  | call (c : Problem.Call α)
  | ask (q : Question α)

def Act.isQuestion {α : Type} : Act α → Bool
  | .call _ => false
  | .ask _ => true

namespace Session

def assembled (s : Session α) : Outcome α (Program α) := do (← s.requireTranscription).program

theorem assembled_of {s : Session α} {t : Transcription α} (h : s.requireTranscription = .ok t) :
    s.assembled = t.program := by
  rw [assembled, h]
  rfl

theorem transcribe_yields {s₀ s : Session α} {t : Transcription α} :
    transcribe.Yields s₀ t s ↔
      (∃ solver, s₀.requireSolver = .ok solver ∧
        Transcription.create s₀.registry solver s₀.problem = .ok t) ∧
      s = { s₀ with transcription := some t } := by
  simp only [transcribe, Edit.yields_bind, Edit.yields_get, Edit.yields_lift, Edit.yields_modify,
    Edit.yields_pure]
  constructor
  · rintro ⟨_, _, ⟨rfl, rfl⟩, solver, _, ⟨hsolver, rfl⟩, t, _, ⟨ht, rfl⟩, _, _, rfl, rfl, rfl⟩
    exact ⟨⟨solver, hsolver, ht⟩, rfl⟩
  · rintro ⟨⟨solver, hsolver, ht⟩, rfl⟩
    exact ⟨_, _, ⟨rfl, rfl⟩, solver, _, ⟨hsolver, rfl⟩, t, _, ⟨ht, rfl⟩, (), _, rfl, rfl, rfl⟩

/-- The answer to a question at this moment. -/
def answer (s : Session α) : Question α → Outcome α (Answer α)
  | .layout => do return .layout (← s.requireTranscription).layout
  | .bounds => do
    let p ← (← s.requireTranscription).program
    return .bounds (p.layout.slots.map (·.bounds)) p.constraintBounds
  | .blocks => do return .blocks (← (← s.requireTranscription).program).blocks
  | .constraints v => do return .vector (← (← s.requireTranscription).constraintsOf v)
  | .objective v => do return .number (← (← s.requireTranscription).objectiveOf v)
  | .terms v => do return .terms (← (← s.requireTranscription).termsOf v)
  | .guess choice => do return .vector (← s.start choice)
  | .solve engine choice => do
    return .solved (s.record .transcription (engine (← s.assembled)) choice)

/-- What an act leaves of a session: a call changes the problem, and a solve keeps its solution. -/
def after (s : Session α) : Act α → Session α
  | .call c => ((onProblem c.run).run s).run.2
  | .ask (.solve engine choice) =>
    match s.assembled with
    | .ok p => ((solve .transcription (engine p) choice).run s).run.2
    | .error _ => s
  | .ask _ => s

def answers (s : Session α) : List (Act α) → List (Outcome α (Answer α))
  | [] => []
  | .call c :: rest => (s.after (.call c)).answers rest
  | .ask q :: rest => s.answer q :: (s.after (.ask q)).answers rest

theorem solve_run (s : Session α) (route : SolveRoute α) (o : Optimiser α)
    (choice : GuessChoice α) : ((solve route o choice).run s).run =
      (.ok (s.record route o choice), match (s.record route o choice).outcome with
        | .ok solution => { s with solution := some solution }
        | .error _ => s) := by
  rw [solve, Edit.run_bind, Edit.run_get]
  cases h : (s.record route o choice).outcome with
  | error fault =>
    simp only [h]
    rfl
  | ok solution =>
    simp only [h]
    rfl

theorem after_transcription (s : Session α) (a : Act α) :
    (s.after a).transcription = s.transcription := by
  cases a with
  | call c => rfl
  | ask q =>
    cases q with
    | solve engine choice =>
      simp only [after]
      cases s.assembled with
      | error fault => rfl
      | ok p =>
        simp only [solve_run]
        cases (s.record .transcription (engine p) choice).outcome <;> rfl
    | _ => rfl

theorem after_assembled (s : Session α) (a : Act α) : (s.after a).assembled = s.assembled := by
  simp only [assembled, requireTranscription, require, after_transcription]

def withProblem (s : Session α) (p : Problem α) : Session α := { s with problem := p }

theorem after_call (s : Session α) (c : Problem.Call α) :
    s.after (.call c) = s.withProblem (c.run.run s.problem).run.2 := rfl

theorem answer_withProblem (s : Session α) (p : Problem α) (q : Question α) :
    (s.withProblem p).answer q = s.answer q := by
  cases q <;> rfl

theorem after_withProblem (s : Session α) (p : Problem α) (q : Question α) :
    (s.withProblem p).after (.ask q) = (s.after (.ask q)).withProblem p := by
  cases q with
  | solve engine choice =>
    have hassembled : (s.withProblem p).assembled = s.assembled := rfl
    simp only [after, hassembled]
    cases s.assembled with
    | error fault => rfl
    | ok program =>
      have hrecord : (s.withProblem p).record .transcription (engine program) choice =
        s.record .transcription (engine program) choice := rfl
      simp only [solve_run, hrecord]
      cases (s.record .transcription (engine program) choice).outcome <;> rfl
  | _ => rfl

/-- Neither the problem nor the calls on it show in any answer. -/
theorem answers_withProblem (s : Session α) (p : Problem α) (acts : List (Act α)) :
    (s.withProblem p).answers acts = s.answers (acts.filter Act.isQuestion) := by
  induction acts generalizing s p with
  | nil => rfl
  | cons a rest ih =>
    cases a with
    | call c =>
      rw [List.filter_cons_of_neg (by simp [Act.isQuestion]), answers, after_call]
      exact ih s _
    | ask q =>
      rw [List.filter_cons_of_pos rfl, answers, answers, answer_withProblem, after_withProblem, ih]

end Session

end Collocation
