import Collocation.Proofs.WarmStart

/-! Warm starts of transcriptions.  A transcription of the same problem on another mesh starts from
what a vector was decoded to. -/

namespace Collocation

namespace Transcription

section Decoded

variable {α : Type} [Scalar α] {r r' : Registry α} {solver solver' : Solver α} {p : Problem α}
  {t t' : Transcription α} {w : List α} {S : Solution α}

/-- Transcriptions of one problem have the same functions. -/
theorem functions_eq (hcreate : create r solver p = .ok t)
    (hcreate' : create r' solver' p = .ok t') : t'.functions = t.functions :=
  Except.ok.inj ((create_layout hcreate').1.symm.trans (create_layout hcreate).1)

/-- Only kinematic constraints lead to multipliers. -/
theorem kinematic_of_constrained (hcreate : create r solver p = .ok t)
    (hne : t.layout.constrained ≠ []) :
    t.functions.kinematic.isSome ∧ t.functions.sizes.multipliers ≠ 0 := by
  obtain ⟨-, -, -, hconstrained, -⟩ := create_layout hcreate
  have hm : t.functions.sizes.multipliers ≠ 0 := mt hconstrained.none hne
  refine ⟨by_contra fun hkinematic => hne ?_, hm⟩
  obtain ⟨index, f, points, _, layout, -, hpoints, -, -, rfl⟩ := create_parts hcreate
  rw [if_neg hkinematic] at hpoints
  obtain rfl : [] = points := Except.ok.inj hpoints
  refine List.map_eq_nil_iff.mp (List.Perm.eq_nil (hconstrained.perm hm))

/-- Without points of its own a scheme has multipliers at all points, if there are any. -/
theorem constrained_eq_range (hcreate : create r solver p = .ok t)
    (hscheme : t.scheme.kinematic = none) (hkinematic : t.functions.kinematic.isSome)
    (hm : t.functions.sizes.multipliers ≠ 0) :
    t.layout.constrained = List.range t.mesh.numPoints := by
  obtain ⟨-, -, -, hconstrained, -⟩ := create_layout hcreate
  rw [kinematicPoints_eq hcreate hscheme, constrainedPoints, if_pos hkinematic] at hconstrained
  exact hconstrained.eq_range hm

theorem layout_eq (hcreate : create r solver p = .ok t) (hcreate' : create r' solver' p = .ok t')
    (hscheme : t.scheme.kinematic = none) (hscheme' : t'.scheme.kinematic = none)
    (hmesh : t'.mesh = t.mesh) : t'.layout = t.layout := by
  have hpoints := kinematicPoints_eq hcreate hscheme
  have hpoints' := kinematicPoints_eq hcreate' hscheme'
  obtain ⟨-, -, hlayout, -, -⟩ := create_layout hcreate
  obtain ⟨-, -, hlayout', -, -⟩ := create_layout hcreate'
  rw [hpoints', functions_eq hcreate hcreate', hmesh, ← hpoints] at hlayout'
  exact Except.ok.inj (hlayout'.symm.trans hlayout)

/-- A finite vector is decoded, if the objective is finite too where the run converged. -/
theorem extract_of_program {prog : Program α} {s : Statistics α} {status : Status}
    (name : String) (hprog : t.program = .ok prog) (hobjective : t.scheme.objectiveFault = none)
    (hw : w.length = t.layout.size) (hfinite : ∀ x ∈ w, Scalar.isFinite x)
    (hstatus : s.status = .ok status) (hcount : ∀ v ∈ s.named? "iter_count", ∃ n, v = .int n)
    (hvalue : status = .converged → Scalar.isFinite (prog.objective w)) :
    ∃ S, t.extract name w s = .ok S := by
  obtain ⟨iterations, hiterations⟩ := Statistics.exists_iterations hcount
  obtain ⟨S, hS, -⟩ := extract_sound name hprog hobjective hw hstatus hiterations
    fun hconverged => ⟨hfinite, hvalue hconverged⟩
  exact ⟨S, hS⟩

theorem extract_succeeds {prog : Program α} {s : Statistics α} {status : Status}
    (name : String) (hscheme : t.scheme = .trapezoidal) (hprog : t.program = .ok prog)
    (hw : w.length = t.layout.size) (hfinite : ∀ x ∈ w, Scalar.isFinite x)
    (hstatus : s.status = .ok status) (hcount : ∀ v ∈ s.named? "iter_count", ∃ n, v = .int n)
    (hvalue : status = .converged → ∀ objective, t.evaluateObjective w = .ok objective →
      Scalar.isFinite objective) :
    ∃ S, t.extract name w s = .ok S := by
  have hobjective : t.scheme.objectiveFault = none := by rw [hscheme]; rfl
  exact extract_of_program name hprog hobjective hw hfinite hstatus hcount fun hconverged =>
    hvalue hconverged _ (objective_of_program hprog hobjective hw)

theorem Extracted.finite_multipliers (h : t.Extracted w S) (hcreate : create r solver p = .ok t)
    (hfinite : ∀ x ∈ w, Scalar.isFinite x) :
    ∀ row ∈ S.multipliers, ∀ x ∈ row, Scalar.isFinite x := by
  obtain ⟨-, -, -, -, harranged⟩ := create_layout hcreate
  exact h.shows.multipliers ▸ (harranged.all_trajectoryOf h.length hfinite).multipliers

/-- A solution without multipliers leaves none to take up on any mesh. -/
theorem Extracted.constrained_nil (h : t.Extracted w S) (hpos : 0 < t.mesh.numPoints)
    (hcreate : create r solver p = .ok t) (hscheme : t.scheme.kinematic = none)
    (hcreate' : create r' solver' p = .ok t') (hnil : S.multiplierIndices = []) :
    t'.layout.constrained = [] := by
  by_contra hne
  obtain ⟨hkinematic, hm⟩ := kinematic_of_constrained hcreate' hne
  rw [functions_eq hcreate hcreate'] at hkinematic hm
  rw [h.indices, List.map_eq_nil_iff, constrained_eq_range hcreate hscheme hkinematic hm] at hnil
  exact Nat.ne_of_gt hpos (List.range_eq_nil.mp hnil)

end Decoded

section Exact

variable {r r' : Registry Extended} {solver solver' : Solver Extended} {p : Problem Extended}
  {t t' : Transcription Extended} {w : List Extended} {S : Solution Extended}

/-- The times of what is extracted from a finite vector are numbers. -/
theorem Extracted.exists_times {qs : List ℚ} (h : t.Extracted w S) (hgrid : t.mesh.Grid qs)
    (hcreate : create r solver p = .ok t) (hfinite : ∀ x ∈ w, Scalar.isFinite x) :
    ∃ a b, S.initialTime = .finite a ∧ S.finalTime = .finite b ∧
      S.times = (Mesh.gridTimes qs a b).map .finite ∧
      (Layout.entry w t.layout.initialTimeIndex < Layout.entry w t.layout.finalTimeIndex ↔
        a < b) := by
  obtain ⟨-, -, -, -, harranged⟩ := create_layout hcreate
  have hall := harranged.all_trajectoryOf h.length hfinite
  obtain ⟨a, ha⟩ := Extended.isFinite_iff.mp hall.initialTime
  obtain ⟨b, hb⟩ := Extended.isFinite_iff.mp hall.finalTime
  have hinitial : S.initialTime = .finite a := h.shows.initialTime.trans ha
  have hfinal : S.finalTime = .finite b := h.shows.finalTime.trans hb
  refine ⟨a, b, hinitial, hfinal, ?_, ?_⟩
  · rw [h.times, hinitial, hfinal, hgrid.times_eq]
  · show (t.layout.trajectoryOf w).initialTime < (t.layout.trajectoryOf w).finalTime ↔ a < b
    rw [ha, hb, Extended.finite_lt_finite]

/-- What is extracted from a finite vector with a horizon is a solution on the mesh. -/
theorem Extracted.solves {qs : List ℚ} (h : t.Extracted w S) (hgrid : t.mesh.Grid qs)
    (hcreate : create r solver p = .ok t) (hscheme : t.scheme.kinematic = none)
    (hfinite : ∀ x ∈ w, Scalar.isFinite x)
    (hhorizon : Layout.entry w t.layout.initialTimeIndex <
      Layout.entry w t.layout.finalTimeIndex) :
    ∃ a b, Guess.Solves S t.mesh qs a b t.functions.sizes := by
  obtain ⟨-, -, -, hks, harranged⟩ := create_layout hcreate
  have hfills := harranged.fills hks.inside h.length
  have hall := harranged.all_trajectoryOf h.length hfinite
  obtain ⟨a, b, hinitial, hfinal, htimes, hiff⟩ := h.exists_times hgrid hcreate hfinite
  refine ⟨a, b, hgrid, hiff.mp hhorizon, htimes, hinitial, hfinal, ?states, ?controls,
    ?finiteStates, ?finiteControls, h.finite_multipliers hcreate hfinite, ?names, ?parameters,
    ?multipliers⟩
  case states => exact h.shows.states ▸ ⟨hfills.states, hfills.stateRows⟩
  case controls => exact h.shows.controls ▸ ⟨hfills.controls, hfills.controlRows⟩
  case finiteStates => exact h.shows.states ▸ hall.states
  case finiteControls => exact h.shows.controls ▸ hall.controls
  case names =>
    rw [h.names]
    exact harranged.fits.multiplierNames
  case parameters => exact h.shows.parameters ▸ hfills.parameters
  case multipliers =>
    rw [h.indices, List.map_eq_nil_iff, or_iff_not_imp_left]
    intro hne
    obtain ⟨hkinematic, hm⟩ := kinematic_of_constrained hcreate hne
    have hrange := constrained_eq_range hcreate hscheme hkinematic hm
    refine ⟨h.shows.multipliers ▸ ⟨?_, hfills.multiplierRows⟩, by rw [hrange]; rfl⟩
    rw [hfills.multipliers, hrange, List.length_range, Mesh.numPoints]

/-- A finite vector with a horizon is decoded, once there is a program to evaluate it, and whatever
solution it is decoded to is taken up by any transcription of the same problem.  On the same mesh,
by the trapezoidal rule or any other scheme without points of its own, the start is the vector
itself, moved into the bounds. -/
theorem warm_start {form : MeshForm Extended} (name : String)
    (hform : Mesh.ofForm form = .ok solver.mesh)
    (hcreate : create r solver p = .ok t) (hscheme : t.scheme = .trapezoidal)
    (hcreate' : create r' solver' p = .ok t') (hw : w.length = t.layout.size)
    (hfinite : ∀ x ∈ w, Scalar.isFinite x)
    (hhorizon : Layout.entry w t.layout.initialTimeIndex <
      Layout.entry w t.layout.finalTimeIndex) :
    (∀ prog s status, t.program = .ok prog → s.status = .ok status →
      (∀ v ∈ s.named? "iter_count", ∃ n, v = .int n) →
      (status = .converged → ∀ objective, t.evaluateObjective w = .ok objective →
        Scalar.isFinite objective) →
      ∃ S, t.extract name w s = .ok S) ∧
    ∀ s S, t.extract name w s = .ok S →
      ∃ v, (GuessSource.solution S).start t'.layout t'.mesh = .ok v ∧
        t'.layout.Continues t'.mesh t.mesh S v ∧
        (t'.scheme.kinematic = none → t'.mesh = t.mesh → v = t.layout.clip w) := by
  have hstandard : t.scheme.kinematic = none := by rw [hscheme]; rfl
  constructor
  · intro prog s status hprog hstatus hcount hvalue
    exact extract_succeeds name hscheme hprog hw hfinite hstatus hcount hvalue
  · intro s S hS
    obtain ⟨qs, hgrid⟩ := Mesh.grid_of_form hform
    have hcountable := Mesh.countable_of_form hform
    obtain ⟨-, hmesh, -, hks, harranged⟩ := create_layout hcreate
    obtain ⟨-, -, -, hks', harranged'⟩ := create_layout hcreate'
    rw [← hmesh] at hgrid hcountable
    rw [functions_eq hcreate hcreate'] at harranged'
    have hextracted := extracted_of_extract hS
    obtain ⟨a, b, hsolves⟩ := hextracted.solves hgrid hcreate hstandard hfinite hhorizon
    have hboth := hextracted.constrained_nil hgrid.numPoints_pos hcreate hstandard hcreate'
    have hbase := harranged'.fills hks'.inside (Guess.length_default t'.layout)
    refine ⟨_, Guess.start_solution hsolves harranged' hks'.inside hcountable,
      Guess.continues_resampled hsolves harranged' hks'.inside hks'.increasing hbase hboth, ?_⟩
    intro hscheme' hmesh'
    have hlayout := layout_eq hcreate hcreate' hstandard hscheme' hmesh'
    rw [hlayout, hmesh'] at hbase ⊢
    rw [Guess.resampled_self hsolves harranged.sizes hextracted.indices hbase
      (harranged.fills hks.inside hw) hextracted.shows,
      harranged.join_trajectoryOf hks.increasing hks.inside hw]

end Exact

namespace Sample

/-- A mesh with the points of the sample mesh and two others. -/
def finer : Solver Extended := { solver with mesh := ⟨[0.0, 0.125, 0.25, 0.75, 1.0]⟩ }

/-- Entries for three points and for the times; some controls are out of their bounds. -/
def vector : List Extended := [1.0, 2.0, 0.5, 0.25, 0.5, 1.5, 3.0, -2.0, 0.0, 0.0, 2.0]

theorem decoded : ∃ t, create .initial solver problem = .ok t ∧ vector.length = t.layout.size ∧
    Layout.entry vector t.layout.initialTimeIndex < Layout.entry vector t.layout.finalTimeIndex ∧
    ∀ objective, t.evaluateObjective vector = .ok objective → Scalar.isFinite objective := by
  obtain ⟨t, ht, hready⟩ := Except.exists_of_any (x := create .initial solver problem)
    (p := fun t => decide (vector.length = t.layout.size ∧
      Layout.entry vector t.layout.initialTimeIndex <
        Layout.entry vector t.layout.finalTimeIndex) &&
      (t.evaluateObjective vector).toOption.all Scalar.isFinite) (by decide +kernel)
  rw [Bool.and_eq_true, decide_eq_true_eq] at hready
  obtain ⟨⟨hlength, hhorizon⟩, hvalue⟩ := hready
  refine ⟨t, ht, hlength, hhorizon, fun objective h => ?_⟩
  rw [h] at hvalue
  exact hvalue

end Sample

theorem warm_start_sample : ∃ t t' S,
    create .initial Sample.solver Sample.problem = .ok t ∧
    create .initial Sample.finer Sample.problem = .ok t' ∧
    t.extract "trapezoidal" Sample.vector Sample.report = .ok S ∧
    (∃ v, (GuessSource.solution S).start t'.layout t'.mesh = .ok v ∧
      t'.layout.Continues t'.mesh t.mesh S v) ∧
    (GuessSource.solution S).start t.layout t.mesh = .ok (t.layout.clip Sample.vector) := by
  obtain ⟨t, ht, hlength, hhorizon, hvalue⟩ := Sample.decoded
  obtain ⟨t', ht'⟩ := Except.exists_of_isOk
    (show (create .initial Sample.finer Sample.problem).isOk = true by decide +kernel)
  have hscheme : t.scheme = .trapezoidal := create_scheme (i := 0) rfl ht
  have hfinite : ∀ x ∈ Sample.vector, Scalar.isFinite x := by decide +kernel
  have hstatus : Sample.report.status = .ok .converged := by
    with_unfolding_all rfl
  obtain ⟨hextract, hstart⟩ :=
    warm_start "trapezoidal" Sample.form_solver ht hscheme ht' hlength hfinite hhorizon
  have hprog := program_of_declared (Problem.holds_ofCalls Sample.declared) ht hscheme
  obtain ⟨S, hS⟩ := hextract _ _ _ hprog hstatus Sample.readable.iterations fun _ => hvalue
  obtain ⟨v, hv, hcontinues, -⟩ := hstart _ S hS
  obtain ⟨u, hu, -, hsame⟩ := (warm_start "trapezoidal" Sample.form_solver ht hscheme ht
    hlength hfinite hhorizon).2 _ S hS
  have hstandard : t.scheme.kinematic = none := by rw [hscheme]; rfl
  exact ⟨t, t', S, ht, ht', hS, ⟨v, hv, hcontinues⟩, hsame hstandard rfl ▸ hu⟩

end Transcription

end Collocation
