import Collocation.Solve
import Collocation.Proofs.Extended
import Collocation.Proofs.Guess
import Collocation.Proofs.Transcription.Reading

/-! The outcome of a solve.  A run that fails, or does not converge, comes back as a solution; a run
that converged is refused if its vector or its objective is not finite, so a solution that counts as
a success has only finite numbers. -/

namespace Collocation

variable {α : Type} [Scalar α]

namespace Statistics

/-- A report can be read: the number of iterations is missing or whole, and the flag of success, if
there is one, is true or false. -/
structure Readable (s : Statistics α) : Prop where
  iterations : ∀ v ∈ s.named? "iter_count", ∃ n, v = .int n
  success : ∀ v ∈ s.named? "success", ∃ b, v.toTruth = .ok b

theorem Readable.exists_status {s : Statistics α} (h : s.Readable) : ∃ st, s.status = .ok st := by
  have htruth : ∃ b, ((s.named? "success").getD (.bool false)).toTruth = .ok b := by
    cases hv : s.named? "success" with
    | none => exact ⟨_, rfl⟩
    | some v => exact h.success v hv
  obtain ⟨b, hb⟩ := htruth
  unfold status
  dsimp only
  split
  · exact ⟨_, rfl⟩
  · rw [hb]
    exact ⟨_, rfl⟩

theorem exists_iterations {s : Statistics α}
    (h : ∀ v ∈ s.named? "iter_count", ∃ n, v = .int n) : ∃ n, s.iterations = .ok n := by
  unfold iterations
  cases hv : s.named? "iter_count" with
  | none => exact ⟨_, rfl⟩
  | some v =>
    obtain ⟨n, rfl⟩ := h v hv
    exact ⟨n, rfl⟩

/-- Whatever was recorded and whatever the text of the failure, a failed run is an error. -/
theorem status_ofFailure (recorded : Except String (Statistics α)) (text : String) :
    (ofFailure recorded text).status = .ok .solverError := by
  have hlookup : namedOutcomes.lookup ("Exception: " ++ text) = none := by
    refine List.lookup_eq_none_iff.mpr fun e he => ?_
    have hhead : e.1.toList.head? ≠ some 'E' := by
      revert e
      decide
    refine bne_iff_ne.mpr fun heq => hhead ?_
    rw [← heq]
    simp
  unfold status ofFailure
  simp only [Table.named?_put_self, Option.map_some, Option.getD_some, Value.display, hlookup]
  rw [Table.named?_put_of_ne (by decide), Table.named?_put_self]
  rfl

theorem iterations_ofFailure {recorded : Except String (Statistics α)} (text : String)
    (h : ∀ s, recorded = .ok s → ∀ v ∈ s.named? "iter_count", ∃ n, v = .int n) :
    ∃ n, (ofFailure recorded text).iterations = .ok n := by
  refine exists_iterations fun v hv => ?_
  unfold ofFailure at hv
  rw [Table.named?_put_of_ne (by decide), Table.named?_put_of_ne (by decide)] at hv
  cases recorded with
  | error e => cases hv
  | ok s => exact h s rfl v hv

end Statistics

/-- A solution shows the content of a vector. -/
structure Solution.Shows (s : Solution α) (tr : Trajectory α) : Prop where
  states : s.states = tr.states
  controls : s.controls = tr.controls
  multipliers : s.multipliers = tr.multipliers
  parameters : s.parameters = tr.parameters
  initialTime : s.initialTime = tr.initialTime
  finalTime : s.finalTime = tr.finalTime

/-- The numbers of a solution are finite. -/
structure Solution.Finite (s : Solution α) : Prop where
  states : ∀ row ∈ s.states, ∀ x ∈ row, Scalar.isFinite x
  controls : ∀ row ∈ s.controls, ∀ x ∈ row, Scalar.isFinite x
  multipliers : ∀ row ∈ s.multipliers, ∀ x ∈ row, Scalar.isFinite x
  parameters : ∀ x ∈ s.parameters, Scalar.isFinite x
  initialTime : Scalar.isFinite s.initialTime
  finalTime : Scalar.isFinite s.finalTime
  objective : Scalar.isFinite s.objective
  breakdown : ∀ e ∈ s.breakdown, ∃ x, e.2 = .real x ∧ Scalar.isFinite x

/-- Sums absorb what is not finite: a finite sum has finite terms. -/
def Scalar.Absorbs (α : Type) [Scalar α] : Prop :=
  ∀ x y : α, Scalar.isFinite (x + y) → Scalar.isFinite x ∧ Scalar.isFinite y

theorem Scalar.Absorbs.of_sum (h : Scalar.Absorbs α) {xs : List α}
    (hsum : Scalar.isFinite (Scalar.sum xs)) : ∀ x ∈ xs, Scalar.isFinite x := by
  have hfold (start : α) (hstart : Scalar.isFinite (xs.foldl (· + ·) start)) :
      Scalar.isFinite start ∧ ∀ x ∈ xs, Scalar.isFinite x := by
    clear hsum
    induction xs generalizing start with
    | nil => exact ⟨hstart, nofun⟩
    | cons x rest ih =>
      obtain ⟨hx, hrest⟩ := ih (start + x) hstart
      obtain ⟨hs, hx⟩ := h start x hx
      exact ⟨hs, List.forall_mem_cons.mpr ⟨hx, hrest⟩⟩
  exact (hfold 0.0 hsum).2

theorem absorbs_extended : Scalar.Absorbs Extended := by
  intro x y h
  obtain ⟨q, hq⟩ := Extended.isFinite_iff.mp h
  obtain ⟨a, b, rfl, rfl, -⟩ := Extended.add_eq_finite hq
  exact ⟨Extended.isFinite_iff.mpr ⟨a, rfl⟩, Extended.isFinite_iff.mpr ⟨b, rfl⟩⟩

namespace Transcription

variable {t : Transcription α} {prog : Program α} {w : List α} {s : Statistics α}
  {status : Status} {iterations : Int} {name : String}

section Extract

variable (hprog : t.program = .ok prog) (hobjective : t.scheme.objectiveFault = none)
  (hw : w.length = t.layout.size)
include hprog hobjective hw

theorem decode_eq :
    t.decode w = .ok (t.layout.trajectoryOf w, prog.objective w, prog.termValues w) := by
  rw [decode, Layout.split_eq_ok.mpr ⟨hw, rfl⟩, objective_of_program hprog hobjective hw,
    terms_of_program hprog hw]
  rfl

variable (name) in
/-- What is decoded becomes a solution, unless the run converged and a number is not finite. -/
theorem extract_sound (hstatus : s.status = .ok status)
    (hiterations : s.iterations = .ok iterations)
    (hsound : status = .converged →
      (∀ x ∈ w, Scalar.isFinite x) ∧ Scalar.isFinite (prog.objective w)) :
    ∃ S, t.extract name w s = .ok S ∧ S.Shows (t.layout.trajectoryOf w) ∧ S.status = status ∧
      S.objective = prog.objective w ∧
      S.breakdown = (prog.termValues w).map fun e => (.text e.1, .real e.2) := by
  rw [extract, hstatus, hiterations, decode_eq hprog hobjective hw]
  by_cases hconverged : status = .converged
  · obtain ⟨hvector, hvalue⟩ := hsound hconverged
    have hcheck : Check.finiteEntries w "Converged decision vector" "extraction" = .ok () :=
      if_pos (List.all_eq_true.mpr hvector)
    simp only [bind, Except.bind, pure, Except.pure, hconverged, ↓reduceIte, hcheck, hvalue]
    exact ⟨_, rfl, ⟨rfl, rfl, rfl, rfl, rfl, rfl⟩, rfl, rfl, rfl⟩
  · simp only [bind, Except.bind, pure, Except.pure, hconverged, ↓reduceIte]
    exact ⟨_, rfl, ⟨rfl, rfl, rfl, rfl, rfl, rfl⟩, rfl, rfl, rfl⟩

variable (name) in
theorem extract_corrupt (hstatus : s.status = .ok .converged)
    (hiterations : s.iterations = .ok iterations)
    (hcorrupt : ¬ ((∀ x ∈ w, Scalar.isFinite x) ∧ Scalar.isFinite (prog.objective w))) :
    Raises (t.extract name w s) .dataIntegrity := by
  rw [extract, hstatus, hiterations, decode_eq hprog hobjective hw]
  by_cases hvector : ∀ x ∈ w, Scalar.isFinite x
  · have hvalue : ¬ Scalar.isFinite (prog.objective w) := fun h => hcorrupt ⟨hvector, h⟩
    have hcheck : Check.finiteEntries w "Converged decision vector" "extraction" = .ok () :=
      if_pos (List.all_eq_true.mpr hvector)
    simp only [bind, Except.bind, pure, Except.pure, ↓reduceIte, hcheck, hvalue]
    exact ⟨_, rfl, rfl⟩
  · have hcheck : Check.finiteEntries w "Converged decision vector" "extraction" =
        .error (.data (.corrupt "Converged decision vector" "extraction")) :=
      if_neg (mt List.all_eq_true.mp hvector)
    simp only [bind, Except.bind, pure, Except.pure, ↓reduceIte, hcheck]
    exact ⟨_, rfl, rfl⟩

end Extract

/-- A solution that was extracted from a vector. -/
structure Extracted (t : Transcription α) (w : List α) (S : Solution α) : Prop where
  length : w.length = t.layout.size
  shows : S.Shows (t.layout.trajectoryOf w)
  times : S.times = t.mesh.times S.initialTime S.finalTime
  indices : S.multiplierIndices = t.layout.constrained.map fun (k : Nat) => .int k
  names : S.names.multipliers = t.functions.multiplierNames.map .text

theorem content_of_decode {content : Trajectory α} {objective : α} {terms : List (String × α)}
    (h : t.decode w = .ok (content, objective, terms)) :
    w.length = t.layout.size ∧ t.layout.trajectoryOf w = content := by
  simp only [decode, Except.bind_eq_ok, Except.pure_eq_ok] at h
  obtain ⟨tr, hsplit, value, -, values, -, heq⟩ := h
  obtain rfl : tr = content := congrArg Prod.fst heq
  exact Layout.split_eq_ok.mp hsplit

/-- The solution that shows the content of a vector, with what a run reported. -/
def solutionOf (t : Transcription α) (schemeName : String) (w : List α) (s : Statistics α)
    (status : Status) (iterations : Int) (objective : α) (terms : List (String × α)) :
    Solution α :=
  let content := t.layout.trajectoryOf w
  let f := t.functions
  { times := t.mesh.times content.initialTime content.finalTime
    states := content.states
    controls := content.controls
    multipliers := content.multipliers
    multiplierIndices := t.layout.constrained.map fun (k : Nat) => .int k
    parameters := content.parameters
    meshPoints := t.mesh.points
    initialTime := content.initialTime
    finalTime := content.finalTime
    objective, iterations, status
    breakdown := terms.map fun e => (.text e.1, .real e.2)
    message := .text s.message
    names := ⟨f.stateNames.map .text, f.controlNames.map .text, f.multiplierNames.map .text,
      f.parameterNames.map .text⟩
    scheme := .text schemeName
    statistics := s }

theorem extract_eq_ok {S : Solution α} (h : t.extract name w s = .ok S) :
    w.length = t.layout.size ∧ ∃ status iterations objective terms,
      S = t.solutionOf name w s status iterations objective terms := by
  simp only [extract, Except.bind_eq_ok] at h
  obtain ⟨status, -, iterations, -, h⟩ := h
  cases hdecode : t.decode w with
  | error f => simp [hdecode] at h
  | ok decoded =>
    obtain ⟨content, objective, terms⟩ := decoded
    obtain ⟨hlength, rfl⟩ := content_of_decode hdecode
    simp only [hdecode, Except.bind_eq_ok, Except.pure_eq_ok] at h
    obtain ⟨_, rfl, h⟩ := h
    refine ⟨hlength, status, iterations, objective, terms, ?_⟩
    split_ifs at h with hconverged hvalue
    · obtain ⟨_, -, h⟩ := Except.bind_eq_ok.mp h
      exact (Except.pure_eq_ok.mp h).symm
    · obtain ⟨_, -, h⟩ := Except.bind_eq_ok.mp h
      obtain ⟨_, h, -⟩ := Except.bind_eq_ok.mp h
      exact absurd h Except.throw_ne_ok
    · exact (Except.pure_eq_ok.mp h).symm

theorem extracted_of_extract {S : Solution α} (h : t.extract name w s = .ok S) :
    t.Extracted w S := by
  obtain ⟨hlength, status, iterations, objective, terms, rfl⟩ := extract_eq_ok h
  exact ⟨hlength, ⟨rfl, rfl, rfl, rfl, rfl, rfl⟩, rfl, rfl, rfl⟩

/-- A solution of a run that converged has only finite numbers. -/
theorem finite_of_sound {r : Registry α} {solver : Solver α} {p : Problem α}
    (habsorbs : Scalar.Absorbs α) (hcreate : create r solver p = .ok t)
    (hw : w.length = t.layout.size) (hvector : ∀ x ∈ w, Scalar.isFinite x)
    (hvalue : Scalar.isFinite (prog.objective w)) {S : Solution α}
    (hshows : S.Shows (t.layout.trajectoryOf w)) (hobjective : S.objective = prog.objective w)
    (hbreakdown : S.breakdown = (prog.termValues w).map fun e => (.text e.1, .real e.2)) :
    S.Finite := by
  obtain ⟨-, -, -, -, harranged⟩ := create_layout hcreate
  have hall := harranged.all_trajectoryOf hw hvector
  refine ⟨hshows.states ▸ hall.states, hshows.controls ▸ hall.controls,
    hshows.multipliers ▸ hall.multipliers, hshows.parameters ▸ hall.parameters,
    hshows.initialTime ▸ hall.initialTime, hshows.finalTime ▸ hall.finalTime,
    hobjective ▸ hvalue, fun e he => ?_⟩
  rw [hbreakdown] at he
  obtain ⟨term, hterm, rfl⟩ := List.mem_map.mp he
  exact ⟨term.2, rfl, habsorbs.of_sum hvalue term.2 (List.mem_map_of_mem hterm)⟩

/-- Corrupt data of a run that converged are refused, and everything else becomes a solution. -/
theorem extract_outcome {r : Registry α} {solver : Solver α} {p : Problem α} (name : String)
    (habsorbs : Scalar.Absorbs α) (hcreate : create r solver p = .ok t)
    (hobjective : t.scheme.objectiveFault = none) (hprog : t.program = .ok prog)
    (hw : w.length = t.layout.size) (hstatus : s.status = .ok status)
    (hiterations : s.iterations = .ok iterations) :
    (Raises (t.extract name w s) .dataIntegrity ∨ ∃ S, t.extract name w s = .ok S) ∧
    (Raises (t.extract name w s) .dataIntegrity ↔ status = .converged ∧
      ¬ ((∀ x ∈ w, Scalar.isFinite x) ∧ Scalar.isFinite (prog.objective w))) ∧
    ∀ S, t.extract name w s = .ok S →
      S.Shows (t.layout.trajectoryOf w) ∧ S.status = status ∧ (S.success → S.Finite) := by
  by_cases hbad : status = .converged ∧
      ¬ ((∀ x ∈ w, Scalar.isFinite x) ∧ Scalar.isFinite (prog.objective w))
  · obtain ⟨rfl, hcorrupt⟩ := hbad
    have hraises := extract_corrupt name hprog hobjective hw hstatus hiterations hcorrupt
    refine ⟨.inl hraises, iff_of_true hraises ⟨rfl, hcorrupt⟩, fun S hS => ?_⟩
    obtain ⟨f, hf, -⟩ := hraises
    rw [hf] at hS
    cases hS
  · have hsound (hconverged : status = .converged) := not_not.mp (not_and.mp hbad hconverged)
    obtain ⟨S, hS, hshows, hS', hvalue, hbreakdown⟩ :=
      extract_sound name hprog hobjective hw hstatus hiterations hsound
    refine ⟨.inr ⟨S, hS⟩, iff_of_false ?_ hbad, fun S' hok => ?_⟩
    · rintro ⟨f, hf, -⟩
      rw [hS] at hf
      cases hf
    · obtain rfl : S = S' := Except.ok.inj (hS.symm.trans hok)
      refine ⟨hshows, hS', fun hsuccess => ?_⟩
      have hconverged : status = .converged := hS' ▸ of_decide_eq_true hsuccess
      obtain ⟨hvector, hfinite⟩ := hsound hconverged
      exact finite_of_sound habsorbs hcreate hw hvector hfinite hshows hvalue hbreakdown

section Solve

variable {o : Optimiser α} {guess : GuessSource α} {x0 : List α}

theorem solve_eq (hprog : t.program = .ok prog) (hstart : guess.start t.layout t.mesh = .ok x0)
    (hengine : o.create = .ok ()) : (t.solve name o guess).2 = t.runFrom name o x0 := by
  rw [solve, hprog, hstart, hengine]
  rfl

/-- A solve with an engine that was created: it fails only with corrupt data after a run that
converged, and returns the content of the engine's vector or, where the run failed, of the start. A
solution that counts as a success is finite throughout. -/
theorem solve_outcome {r : Registry α} {solver : Solver α} {p : Problem α} {t : Transcription α}
    {prog : Program α} {o : Optimiser α} {guess : GuessSource α} {x0 : List α} (name : String)
    (habsorbs : Scalar.Absorbs α) (hcreate : create r solver p = .ok t)
    (hobjective : t.scheme.objectiveFault = none) (hprog : t.program = .ok prog)
    (hstart : guess.start t.layout t.mesh = .ok x0) (hengine : o.create = .ok ()) :
    (∀ w s, o.run x0 = .ok w → w.length = t.layout.size → o.statistics = .ok s → s.Readable →
      ∃ status objective tr, s.status = .ok status ∧ t.evaluateObjective w = .ok objective ∧
        t.layout.split w = .ok tr ∧
        (Raises (t.solve name o guess).2 .dataIntegrity ∨ ∃ S, (t.solve name o guess).2 = .ok S) ∧
        (Raises (t.solve name o guess).2 .dataIntegrity ↔ status = .converged ∧
          ¬ ((∀ x ∈ w, Scalar.isFinite x) ∧ Scalar.isFinite objective)) ∧
        ∀ S, (t.solve name o guess).2 = .ok S →
          S.Shows tr ∧ S.status = status ∧ (S.success → S.Finite)) ∧
    ∀ cause, o.run x0 = .error cause → cause.kind = .runtime →
      (∀ s, o.statistics = .ok s → ∀ v ∈ s.named? "iter_count", ∃ n, v = .int n) →
      ∃ S tr, (t.solve name o guess).2 = .ok S ∧ t.layout.split x0 = .ok tr ∧ S.Shows tr ∧
        S.status = .solverError := by
  rw [solve_eq hprog hstart hengine]
  constructor
  · intro w s hrun hw hs hreadable
    obtain ⟨status, hstatus⟩ := hreadable.exists_status
    obtain ⟨iterations, hiterations⟩ := Statistics.exists_iterations hreadable.iterations
    have hout : t.runFrom name o x0 = t.extract name w s := by rw [runFrom, hrun, hs]
    rw [hout]
    exact ⟨status, prog.objective w, _, hstatus, objective_of_program hprog hobjective hw,
      Layout.split_eq_ok.mpr ⟨hw, rfl⟩,
      extract_outcome name habsorbs hcreate hobjective hprog hw hstatus hiterations⟩
  · intro cause hrun hkind hrecorded
    obtain ⟨-, -, -, hks, harranged⟩ := create_layout hcreate
    have hx0 := Guess.length_start harranged hks.inside hks.increasing hstart
    have hstatus := Statistics.status_ofFailure o.statistics (cause.text.getD "")
    obtain ⟨iterations, hiterations⟩ :=
      Statistics.iterations_ofFailure (cause.text.getD "") hrecorded
    obtain ⟨S, hS, hshows, hS', -, -⟩ := extract_sound name hprog hobjective hx0 hstatus
      hiterations nofun
    refine ⟨S, _, ?_, Layout.split_eq_ok.mpr ⟨hx0, rfl⟩, hshows, hS'⟩
    rw [runFrom, hrun]
    exact (if_pos hkind).trans hS

end Solve

namespace Sample

/-- An engine that returns its start, with the given report. -/
def returning (s : Statistics Extended) : Optimiser Extended where
  run x := .ok x
  statistics := .ok s

/-- An engine whose run fails after it has recorded a report. -/
def failing (s : Statistics Extended) : Optimiser Extended where
  run _ := .error ⟨.runtime, some "no memory"⟩
  statistics := .ok s

def report : Statistics Extended :=
  [(.text "success", .bool true), (.text "return_status", .text "Solve_Succeeded"),
    (.text "iter_count", .int 7)]

theorem readable : report.Readable where
  iterations v hv := by
    have hcount : report.named? "iter_count" = some (.int 7) := rfl
    obtain rfl : Value.int 7 = v := Option.some.inj (hcount.symm.trans hv)
    exact ⟨7, rfl⟩
  success v hv := by
    have hflag : report.named? "success" = some (.bool true) := rfl
    obtain rfl : Value.bool true = v := Option.some.inj (hflag.symm.trans hv)
    exact ⟨true, rfl⟩

end Sample

theorem solve_outcome_sample :
    ∃ t prog x0, create .initial Sample.solver Sample.problem = .ok t ∧
      t.scheme.objectiveFault = none ∧ t.program = .ok prog ∧
      GuessSource.bounds.start t.layout t.mesh = .ok x0 ∧
      (∃ status objective tr, Sample.report.status = .ok status ∧
        t.evaluateObjective x0 = .ok objective ∧ t.layout.split x0 = .ok tr ∧
        (Raises (t.solve "sample" (Sample.returning Sample.report) .bounds).2 .dataIntegrity ↔
          status = .converged ∧ ¬ ((∀ x ∈ x0, Scalar.isFinite x) ∧ Scalar.isFinite objective)) ∧
        ∀ S, (t.solve "sample" (Sample.returning Sample.report) .bounds).2 = .ok S →
          S.Shows tr ∧ S.status = status ∧ (S.success → S.Finite)) ∧
      ∃ S tr, (t.solve "sample" (Sample.failing Sample.report) .bounds).2 = .ok S ∧
        t.layout.split x0 = .ok tr ∧ S.Shows tr ∧ S.status = .solverError := by
  obtain ⟨t, ht, hscheme⟩ := Sample.created
  obtain ⟨f, -, -, htrapezoidal⟩ := create_eq_ok (Problem.holds_ofCalls Sample.declared) ht hscheme
  have hobjective : t.scheme.objectiveFault = none := by
    rw [hscheme]
    rfl
  have hprog := htrapezoidal.program_eq
  have hstart : GuessSource.bounds.start t.layout t.mesh = .ok (Guess.default t.layout) := rfl
  obtain ⟨status, objective, tr, hstatus, hvalue, hsplit, -, hraises, hsolution⟩ :=
    (solve_outcome "sample" absorbs_extended ht hobjective hprog hstart
      (o := Sample.returning Sample.report) rfl).1 _ Sample.report rfl
      (Guess.length_default t.layout) rfl Sample.readable
  have hfailed := (solve_outcome "sample" absorbs_extended ht hobjective hprog hstart
    (o := Sample.failing Sample.report) rfl).2 _ rfl rfl fun s hs => by
      obtain rfl : Sample.report = s := Except.ok.inj hs
      exact Sample.readable.iterations
  exact ⟨t, _, _, ht, hobjective, hprog, hstart,
    ⟨status, objective, tr, hstatus, hvalue, hsplit, hraises, hsolution⟩, hfailed⟩

end Transcription

end Collocation
