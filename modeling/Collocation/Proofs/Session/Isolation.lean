import Collocation.Proofs.Session.Questions
import Collocation.Proofs.Transcription.Reading

/-! A transcription is isolated from its problem.  It puts its program together when that is first
needed, possibly long after its problem has changed, and keeps it.  What is kept is at any time the
program of the transcription as it was made, so every answer is what it would be without the
changes. -/

namespace Collocation

variable {α : Type} [Scalar α]

namespace Transcription

variable (t : Transcription α) (v : Value α)

def constraintsBy (p : Program α) : Outcome α (List α) := do
  return p.constraints (← t.checkVector (← v.toVector))

def checkObjective : Outcome α Unit :=
  match t.scheme.objectiveFault with
  | some cause => .error (.foreign cause.report)
  | none => .ok ()

def objectiveBy (p : Program α) : Outcome α α := do
  return p.objective (← t.checkVector (← v.toVector))

def termsBy (p : Program α) : Outcome α (List (String × α)) := do
  if p.terms.isEmpty then return []
  return p.termValues (← t.checkVector (← v.toVector))

theorem constraintsOf_eq : t.constraintsOf v = t.program >>= t.constraintsBy v := by
  unfold constraintsOf evaluateConstraints constraintsBy
  cases t.program with
  | error fault => rfl
  | ok p => cases v.toVector <;> rfl

theorem objectiveOf_eq : t.objectiveOf v =
    t.checkObjective >>= fun _ => t.program >>= t.objectiveBy v := by
  unfold objectiveOf evaluateObjective checkObjective objectiveBy
  cases t.scheme.objectiveFault with
  | some cause => rfl
  | none =>
    cases t.program with
    | error fault => rfl
    | ok p => cases v.toVector <;> rfl

theorem termsOf_eq : t.termsOf v = t.program >>= t.termsBy v := by
  unfold termsOf evaluateTerms termsBy
  cases t.program with
  | error fault => rfl
  | ok p =>
    cases v.toVector with
    | error fault => rfl
    | ok w => cases hterms : p.terms.isEmpty <;> simp [hterms, bind, Except.bind]

end Transcription

/-- A session that keeps the program of its transcription. -/
structure LazySession (α : Type) where
  session : Session α
  program : Option (Program α) := none

namespace LazySession

/-- The program, which is put together when it is first needed. -/
def assemble : Edit (LazySession α) α (Program α) := do
  let s ← get
  match s.program with
  | some p => return p
  | none =>
    let p ← s.session.assembled
    modify fun s => { s with program := some p }
    return p

/-- What the transcription says by the program that is kept, once a check has passed. -/
def consult {β : Type} (check : Transcription α → Outcome α Unit) (report : β → Answer α)
    (read : Transcription α → Program α → Outcome α β) : Edit (LazySession α) α (Answer α) := do
  let t ← (← get).session.requireTranscription
  check t
  let p ← assemble
  return report (← read t p)

def unchecked : Transcription α → Outcome α Unit := fun _ => .ok ()

def ask : Question α → Edit (LazySession α) α (Answer α)
  | .layout => do return .layout (← (← get).session.requireTranscription).layout
  | .bounds =>
    consult unchecked (fun p => .bounds (p.layout.slots.map (·.bounds)) p.constraintBounds)
      fun _ p => .ok p
  | .blocks => consult unchecked (fun p => .blocks p.blocks) fun _ p => .ok p
  | .constraints v => consult unchecked .vector (·.constraintsBy v)
  | .objective v => consult (·.checkObjective) .number (·.objectiveBy v)
  | .terms v => consult unchecked .terms (·.termsBy v)
  | .guess choice => do return .vector (← (← get).session.start choice)
  | .solve engine choice => do
    let p ← assemble
    let r ← Edit.within (·.session) (fun session s => { s with session })
      (Session.solve .transcription (engine p) choice)
    return .solved r

def after (s : LazySession α) : Act α → LazySession α
  | .call c => { s with session := s.session.after (.call c) }
  | .ask q => ((ask q).run s).run.2

def answers (s : LazySession α) : List (Act α) → List (Outcome α (Answer α))
  | [] => []
  | .call c :: rest => (s.after (.call c)).answers rest
  | .ask q :: rest => ((ask q).run s).run.1 :: (s.after (.ask q)).answers rest

/-- The program that is kept is that of the transcription. -/
def Coherent (s : LazySession α) : Prop := ∀ p, s.program = some p → s.session.assembled = .ok p

/-- The session once its program has been asked for. -/
def kept (s : LazySession α) : LazySession α :=
  match s.program with
  | some _ => s
  | none => { s with program := s.session.assembled.toOption }

variable {s : LazySession α}

theorem kept_session : s.kept.session = s.session := by
  rw [kept]
  cases s.program <;> rfl

theorem Coherent.kept (h : s.Coherent) : s.kept.Coherent := by
  rw [LazySession.kept]
  cases hkept : s.program with
  | some p => exact h
  | none =>
    intro p hp
    cases hassembled : s.session.assembled with
    | error fault =>
      rw [hassembled] at hp
      cases hp
    | ok p' =>
      rw [hassembled] at hp
      obtain rfl := Option.some.inj hp
      rfl

theorem assemble_run (h : s.Coherent) :
    (assemble.run s).run = (s.session.assembled, s.kept) := by
  rw [assemble, Edit.run_bind, Edit.run_get, kept]
  cases hkept : s.program with
  | some p =>
    rw [h p hkept]
    simp only [hkept]
    rfl
  | none =>
    simp only [hkept]
    rw [Edit.run_bind, Edit.run_lift]
    cases hassembled : s.session.assembled with
    | error fault =>
      obtain ⟨session, program⟩ := s
      cases hkept
      rfl
    | ok p => rfl

theorem exists_kept (h : s.Coherent) : ∃ program, s.kept = ⟨s.session, program⟩ ∧
    Coherent ⟨s.session, program⟩ := by
  refine ⟨s.kept.program, by rw [← kept_session], ?_⟩
  rw [← kept_session]
  exact h.kept

theorem consult_run {β : Type} (h : s.Coherent) (check : Transcription α → Outcome α Unit)
    (report : β → Answer α) (read : Transcription α → Program α → Outcome α β) : ∃ program,
    ((consult check report read).run s).run = (do
      let t ← s.session.requireTranscription
      check t
      let p ← t.program
      return report (← read t p), ⟨s.session, program⟩) ∧
        Coherent ⟨s.session, program⟩ := by
  simp only [consult, Edit.run_bind, Edit.run_get, Edit.run_lift]
  cases ht : s.session.requireTranscription with
  | error fault => exact ⟨s.program, rfl, h⟩
  | ok t =>
    cases hcheck : check t with
    | error fault =>
      refine ⟨s.program, ?_, h⟩
      simp only [hcheck, bind, Except.bind]
    | ok _ =>
      obtain ⟨program, hkept, hprogram⟩ := exists_kept h
      refine ⟨program, ?_, hprogram⟩
      simp only [hcheck, assemble_run h, hkept, Session.assembled_of ht, bind, Except.bind]
      cases t.program with
      | error fault => rfl
      | ok p =>
        simp only
        cases read t p <;> rfl

theorem ask_run (h : s.Coherent) (q : Question α) : ∃ program,
    ((ask q).run s).run = (s.session.answer q, ⟨s.session.after (.ask q), program⟩) ∧
      Coherent ⟨s.session, program⟩ := by
  cases q with
  | layout =>
    refine ⟨s.program, ?_, h⟩
    simp only [ask, Session.answer, Edit.run_bind, Edit.run_get, Edit.run_lift]
    cases s.session.requireTranscription <;> rfl
  | bounds => exact consult_run h unchecked _ _
  | blocks => exact consult_run h unchecked _ _
  | constraints v =>
    simp only [Session.answer, Transcription.constraintsOf_eq, bind_assoc]
    exact consult_run h unchecked _ _
  | objective v =>
    simp only [Session.answer, Transcription.objectiveOf_eq, bind_assoc]
    exact consult_run h _ _ _
  | terms v =>
    simp only [Session.answer, Transcription.termsOf_eq, bind_assoc]
    exact consult_run h unchecked _ _
  | guess choice =>
    refine ⟨s.program, ?_, h⟩
    simp only [ask, Session.answer, Edit.run_bind, Edit.run_get, Edit.run_lift]
    cases s.session.start choice <;> rfl
  | solve engine choice =>
    obtain ⟨program, hkept, hprogram⟩ := exists_kept h
    refine ⟨program, ?_, hprogram⟩
    rw [ask, Edit.run_bind, assemble_run h, hkept]
    simp only [Session.answer, Session.after]
    cases s.session.assembled with
    | error fault => rfl
    | ok p =>
      simp only [Edit.run_bind, Edit.run_within, Session.solve_run]
      rfl

theorem Coherent.after (h : s.Coherent) (a : Act α) :
    (s.after a).session = s.session.after a ∧ (s.after a).Coherent := by
  cases a with
  | call c => exact ⟨rfl, h⟩
  | ask q =>
    obtain ⟨program, hrun, hprogram⟩ := ask_run h q
    have hafter : s.after (.ask q) = ⟨s.session.after (.ask q), program⟩ := congrArg Prod.snd hrun
    rw [hafter]
    exact ⟨rfl, fun p hp => (s.session.after_assembled (.ask q)).trans (hprogram p hp)⟩

/-- The moment at which the program is put together does not show. -/
theorem answers_eq (h : s.Coherent) (acts : List (Act α)) :
    s.answers acts = s.session.answers acts := by
  induction acts generalizing s with
  | nil => rfl
  | cons a rest ih =>
    obtain ⟨hsession, hcoherent⟩ := h.after a
    cases a with
    | call c => rw [answers, ih hcoherent, hsession, Session.answers]
    | ask q =>
      obtain ⟨program, hrun, -⟩ := ask_run h q
      rw [answers, ih hcoherent, hsession, hrun, Session.answers]

/-- A run keeps the transcription, and what it has put together is the program of that. -/
theorem foldl_after (h : s.Coherent) (acts : List (Act α)) :
    (acts.foldl after s).session.transcription = s.session.transcription ∧
      (acts.foldl after s).Coherent := by
  induction acts generalizing s with
  | nil => exact ⟨rfl, h⟩
  | cons a rest ih =>
    obtain ⟨hsession, hcoherent⟩ := h.after a
    obtain ⟨hkeeps, hrest⟩ := ih hcoherent
    exact ⟨by rw [List.foldl_cons, hkeeps, hsession, Session.after_transcription], hrest⟩

/-- A transcription is isolated from its problem. Whatever calls are made on the problem, before or
after the program is put together, the answers are those of a run without these calls. -/
theorem isolated {s₀ s : Session α} {t : Transcription α} (h : Session.transcribe.Yields s₀ t s)
    (acts : List (Act α)) :
    answers { session := s } acts = answers { session := s } (acts.filter Act.isQuestion) ∧
      answers { session := s } acts = s.answers acts ∧
      (acts.foldl after { session := s }).session.transcription = some t ∧
      ∀ p, (acts.foldl after { session := s }).program = some p → t.program = .ok p := by
  obtain ⟨-, hs⟩ := Session.transcribe_yields.mp h
  have htranscription : s.transcription = some t := by rw [hs]
  have hcoherent : LazySession.Coherent { session := s } := nofun
  obtain ⟨hkeeps, hrun⟩ := foldl_after hcoherent acts
  rw [htranscription] at hkeeps
  refine ⟨?_, answers_eq hcoherent acts, hkeeps, fun p hp => ?_⟩
  · rw [answers_eq hcoherent, answers_eq hcoherent]
    exact s.answers_withProblem s.problem acts
  · have hrequire : (acts.foldl after { session := s }).session.requireTranscription = .ok t := by
      rw [Session.requireTranscription, Session.require, hkeeps]
    exact (Session.assembled_of hrequire).symm.trans (hrun p hp)

namespace Sample

open Transcription.Sample

def start : Session Extended := { registry := .initial, problem, solver := some solver }

/-- Questions with calls between them, two of which fail. -/
def acts : List (Act Extended) :=
  [.call (.time (.real 5.0) (.tuple [.real 3.0, .real 1.0])), .ask .layout,
    .call (.state (.text "y") .none .none .none), .ask (.constraints (.ofRow [])),
    .call (.kinematic (.evaluator drive) (.list [.text "mu", .text ""]) .none),
    .ask (.solve (fun _ => ({} : OptimiserScript Extended).toOptimiser) .bounds),
    .call (.integralCost (.text "late") (.evaluator drive) (.int 1)), .ask (.guess .current)]

end Sample

theorem isolated_sample : ∃ (s : Session Extended) (t : Transcription Extended),
    Session.transcribe.Yields Sample.start t s ∧
      answers { session := s } Sample.acts =
        answers { session := s } (Sample.acts.filter Act.isQuestion) ∧
      (Sample.acts.foldl after { session := s }).session.transcription = some t := by
  obtain ⟨t, ht, -⟩ := Transcription.Sample.created
  have hyields : Session.transcribe.Yields Sample.start t
      { Sample.start with transcription := some t } :=
    Session.transcribe_yields.mpr ⟨⟨_, rfl, ht⟩, rfl⟩
  obtain ⟨hanswers, -, hkept, -⟩ := isolated hyields Sample.acts
  exact ⟨_, t, hyields, hanswers, hkept⟩

end LazySession

end Collocation
