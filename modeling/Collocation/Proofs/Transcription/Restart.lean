import Collocation.Proofs.Guess.Restart
import Collocation.Proofs.Mesh.Rebuilding
import Collocation.Proofs.Mesh.Times
import Collocation.Proofs.Problem.Bounded
import Collocation.Proofs.Transcription.DefaultHorizon
import Collocation.Proofs.Transcription.Schemes
import Collocation.Proofs.Transcription.WarmStart

/-! Restarts of a problem.  By whatever schemes and on whatever meshes a problem is transcribed,
what a vector was decoded to in one transcription is a start for another one just if its times
increase as they are rounded and its multipliers stay finite.  The bounds of the variables do not
see to that: the times do not increase on a horizon that ends before its begin. -/

namespace Collocation

variable {α : Type} [Scalar α]

/-- The setters of a problem give bounds that hold a number, if those of the problem do. -/
theorem Problem.setters_proper {p : Problem α} {f : Functions α} (hp : p.Bounded)
    (hf : p.functions = .ok f) : ∀ c ∈ p.setters f, ∀ b ∈ c.bounds, b.exact.Proper := by
  obtain ⟨hfirst, hlast, -⟩ := times_of_functions hf
  have hall {vs : List (Variable α)} {side : Variable α → Bounds α}
      (h : ∀ v ∈ vs, (side v).exact.Proper) : ∀ b ∈ vs.map side, b.exact.Proper :=
    List.forall_mem_map.mpr h
  simp only [setters, LayoutBuilder.Setter.bounds, Option.getD_some, List.forall_mem_cons,
    List.forall_mem_append, List.not_mem_nil, IsEmpty.forall_iff, implies_true, and_true]
  exact ⟨⟨⟨hall fun v hv => (hp.states v hv).bounds, hall fun v hv => (hp.states v hv).initial⟩,
      hall fun v hv => (hp.states v hv).final⟩,
    ⟨⟨hall fun v hv => (hp.controls v hv).bounds, hall fun v hv => (hp.controls v hv).initial⟩,
      hall fun v hv => (hp.controls v hv).final⟩,
    hall fun v hv => (hp.multipliers v hv).bounds,
    hall fun v hv => (hp.parameters v hv).bounds,
    hp.timed.initialTime _ hfirst, hp.timed.finalTime _ hlast⟩

namespace Transcription

section Rounded

variable {r r' : Registry α} {solver solver' : Solver α} {p : Problem α}
  {t t' : Transcription α} {w : List α} {S : Solution α}

/-- Every variable of a transcription has bounds that hold a number. -/
theorem layout_bounded [Rounding α] (hp : p.Bounded) (h : create r solver p = .ok t) :
    t.layout.Bounded := by
  obtain ⟨hfunctions, -, hlayout, -, -⟩ := create_layout h
  obtain ⟨b, b', hb, hcalls, hbuild⟩ := layoutOf_eq_ok.mp hlayout
  have hsetters := Problem.setters_proper hp hfunctions
  have hkeeps := Edit.sequence_keeps (I := fun b : LayoutBuilder α =>
    ∀ x ∈ b.bounds, x.exact.Proper) fun c hc =>
      LayoutBuilder.Setter.run_keeps_bounds c (hsetters c hc)
  have hproper := hkeeps b (LayoutBuilder.ofRequest_bounds hb Bounds.free_proper)
  rw [hcalls] at hproper
  exact fun s hs => hproper _ (LayoutBuilder.build_bounds hbuild s hs)

theorem Extracted.numPoints_eq (h : t.Extracted w S) : S.numPoints = t.mesh.numPoints := by
  rw [Solution.numPoints, h.times]
  exact List.length_map _

/-- Whatever points the scheme has chosen for them, the multipliers become samples at all times. -/
theorem Extracted.start_eq (h : t.Extracted w S) (hcreate : create r solver p = .ok t)
    (hcountable : (t.mesh.numPoints : Int) ≤ Tensor.countable) (l : Layout α)
    (m : Mesh α) : (GuessSource.solution S).start l m =
      (Guess.again (Guess.spread S t.layout.constrained)).vector l m := by
  obtain ⟨-, -, -, hks, -⟩ := create_layout hcreate
  rw [← h.numPoints_eq] at hks hcountable
  rw [GuessSource.start, Guess.ofSolution_spread h.indices hks.inside hcountable]
  rfl

/-- The rows of what is extracted from a finite vector are samples at its times. -/
theorem Extracted.sampled (h : t.Extracted w S) (hcreate : create r solver p = .ok t)
    (htwo : 2 ≤ t.mesh.numPoints) (hfinite : ∀ x ∈ w, Scalar.isFinite x) :
    Guess.Sampled (Guess.spread S t.layout.constrained) t.functions.sizes := by
  obtain ⟨-, -, -, hks, harranged⟩ := create_layout hcreate
  have hfills := harranged.fills hks.inside h.length
  have hall := harranged.all_trajectoryOf h.length hfinite
  have hlength : S.times.length = t.mesh.numPoints := h.numPoints_eq
  have hstates : Guess.Rows S.states S.times t.functions.sizes.states :=
    h.shows.states ▸ ⟨hfills.states.trans hlength.symm, hfills.stateRows⟩
  have hcontrols : Guess.Rows S.controls S.times t.functions.sizes.controls :=
    h.shows.controls ▸ ⟨hfills.controls.trans hlength.symm, hfills.controlRows⟩
  have hfiniteStates := h.shows.states.symm ▸ hall.states
  have hfiniteControls := h.shows.controls.symm ▸ hall.controls
  have hparameters := (congrArg List.length h.shows.parameters).trans hfills.parameters
  unfold Guess.spread
  split_ifs with hempty
  · refine ⟨hlength ▸ htwo, hstates, hcontrols, hfiniteStates, hfiniteControls, hparameters,
      .inl ?_⟩
    rw [h.indices, List.isEmpty_iff.mp hempty, List.map_nil]
  · refine ⟨hlength ▸ htwo, hstates, hcontrols, hfiniteStates, hfiniteControls, hparameters,
      .inr ⟨Interpolation.length_resample _ _ _ _, fun row hrow => ?_⟩⟩
    have hwidth : S.names.multipliers.length = t.functions.sizes.multipliers := by
      rw [h.names]
      exact harranged.fits.multiplierNames
    rw [← hwidth]
    exact Interpolation.length_of_mem_resample hrow

variable [Faithful α]

/-- On a horizon that does not end behind its begin, finite times cannot be used. -/
theorem Extracted.not_usable {p q : ℚ} {l : Layout α} {ks : List Nat} (h : t.Extracted w S)
    (hm : t.mesh.Increasing) (htimes : ∀ x ∈ S.times, Scalar.isFinite x)
    (h0 : Scalar.exact S.initialTime = .finite p) (hf : Scalar.exact S.finalTime = .finite q)
    (hqp : q ≤ p) : ¬ Guess.Usable (Guess.spread S ks) l := by
  intro husable
  have hpos := husable.times
  rw [Guess.spread_times, h.times] at hpos
  rw [h.times] at htimes
  obtain ⟨d, hd, hle⟩ := Mesh.exists_difference hm h0 hf hqp htimes
  exact hpos d hd hle

/-- Without points of its own a scheme gives solutions that can be used if their times increase. -/
theorem Extracted.usable (h : t.Extracted w S) (hcreate : create r solver p = .ok t)
    (hscheme : t.scheme.kinematic = none) (hfinite : ∀ x ∈ w, Scalar.isFinite x)
    (htimes : ∀ x ∈ S.times, Scalar.isFinite x) (hincreasing : S.times.Pairwise (· < ·))
    (l : Layout α) : Guess.Usable (Guess.spread S t.layout.constrained) l := by
  obtain ⟨-, -, -, hks, harranged⟩ := create_layout hcreate
  have hmultipliers := h.finite_multipliers hcreate hfinite
  refine ⟨?_, fun _ _ => ?_⟩
  · rw [Guess.spread_times]
    exact Guess.differences_pos htimes hincreasing
  · by_cases hne : t.layout.constrained = []
    · rw [hne]
      exact hmultipliers
    · obtain ⟨hkinematic, hm⟩ := kinematic_of_constrained hcreate hne
      have hrange := constrained_eq_range hcreate hscheme hkinematic hm
      have hlength : S.multipliers.length = S.numPoints := by
        rw [h.shows.multipliers, (harranged.fills hks.inside h.length).multipliers, hrange,
          List.length_range, h.numPoints_eq]
      rw [hrange, ← h.numPoints_eq]
      exact Guess.spread_range_finite hlength hmultipliers htimes hincreasing

/-- What becomes of the solution that a vector was decoded to, as a guess for another transcription
of the problem. -/
structure Restarts (t t' : Transcription α) (w : List α) (S : Solution α) : Prop where
  /-- A solution that can be used gives a start, which is within the bounds unless the times are
  infinite or too far apart. -/
  accepted : Guess.Usable (Guess.spread S t.layout.constrained) t'.layout →
    ∃ v, (GuessSource.solution S).start t'.layout t'.mesh = .ok v ∧
      Guess.Screened (Guess.again (Guess.spread S t.layout.constrained)) t'.layout v ∧
      (Guess.Spans S.times → t'.layout.Admits v)
  /-- All others are refused as corrupt data. -/
  refused : ¬ Guess.Usable (Guess.spread S t.layout.constrained) t'.layout →
    Raises ((GuessSource.solution S).start t'.layout t'.mesh) .dataIntegrity
  /-- On a horizon that does not end behind its begin there is no use for finite times. -/
  unordered : (∀ x ∈ S.times, Scalar.isFinite x) →
    ¬ Layout.entry w t.layout.initialTimeIndex < Layout.entry w t.layout.finalTimeIndex →
    ¬ Guess.Usable (Guess.spread S t.layout.constrained) t'.layout
  /-- Finite times that increase are enough where the multipliers are there at all points. -/
  increasing : t.scheme.kinematic = none → (∀ x ∈ S.times, Scalar.isFinite x) →
    S.times.Pairwise (· < ·) → Guess.Usable (Guess.spread S t.layout.constrained) t'.layout

theorem Extracted.restarts {form form' : MeshForm α} (h : t.Extracted w S) (hp : p.Bounded)
    (hform : Mesh.ofForm form = .ok solver.mesh) (hform' : Mesh.ofForm form' = .ok solver'.mesh)
    (hcreate : create r solver p = .ok t) (hcreate' : create r' solver' p = .ok t')
    (hfinite : ∀ x ∈ w, Scalar.isFinite x) : t.Restarts t' w S := by
  obtain ⟨-, hmesh, -, -, harranged⟩ := create_layout hcreate
  obtain ⟨-, hmesh', -, hks', harranged'⟩ := create_layout hcreate'
  rw [functions_eq hcreate hcreate'] at harranged'
  have hincreasing := Mesh.increasing_of_form hform
  have hincreasing' := Mesh.increasing_of_form hform'
  have hcountable := Mesh.countable_of_form hform
  rw [← hmesh] at hincreasing hcountable
  rw [← hmesh'] at hincreasing'
  have hsampled := h.sampled hcreate hincreasing.two hfinite
  have hall := harranged.all_trajectoryOf h.length hfinite
  have hinitial : S.initialTime = Layout.entry w t.layout.initialTimeIndex := h.shows.initialTime
  have hfinal : S.finalTime = Layout.entry w t.layout.finalTimeIndex := h.shows.finalTime
  have hfiniteInitial : Scalar.isFinite S.initialTime := h.shows.initialTime ▸ hall.initialTime
  have hfiniteFinal : Scalar.isFinite S.finalTime := h.shows.finalTime ▸ hall.finalTime
  have hstart := h.start_eq hcreate hcountable t'.layout t'.mesh
  refine ⟨fun husable => ?accepted, fun hrefused => ?refused, fun htimes hab => ?unordered,
    fun hscheme htimes hordered => ?increasing⟩
  case accepted =>
    have hv := hsampled.vector_eq harranged' hks'.inside husable
    have hscreened := Guess.screened harranged' hks'.inside hks'.increasing
      (layout_bounded hp hcreate') hincreasing' hv
    refine ⟨_, hstart.trans hv, hscreened, fun hspans => ?_⟩
    refine hscreened.admits (by rwa [Guess.spread_times]) ?_ ?_ ?_
    · rwa [Guess.spread_initialTime]
    · rwa [Guess.spread_finalTime]
    · rw [Guess.spread_parameters, h.shows.parameters]
      exact hall.parameters
  case refused =>
    rw [hstart]
    exact hsampled.vector_refused hks'.inside hrefused
  case unordered =>
    obtain ⟨a, ha⟩ := Rounding.isFinite_iff.mp hfiniteInitial
    obtain ⟨b, hb⟩ := Rounding.isFinite_iff.mp hfiniteFinal
    rw [← hinitial, ← hfinal, Differences.lt_iff, ha, hb, Extended.finite_lt_finite, not_lt] at hab
    exact h.not_usable hincreasing htimes ha hb hab
  case increasing => exact h.usable hcreate hscheme hfinite htimes hordered t'.layout

/-- Whatever calls are made on a problem: what a finite vector is decoded to, by any scheme, is
taken up by every transcription of the same problem just if its times increase as they are rounded
and its multipliers stay finite when they are resampled; it is refused as corrupt data otherwise.
The start is within the bounds then, unless the times are infinite or too far apart.  A vector is
decoded unless the run converged with an objective that is not finite. -/
theorem restart {form form' : MeshForm α} (name : Value α) (calls : List (Problem.Call α))
    (schemeName : String) (hform : Mesh.ofForm form = .ok solver.mesh)
    (hform' : Mesh.ofForm form' = .ok solver'.mesh)
    (hcreate : create r solver (.attempted name calls) = .ok t)
    (hcreate' : create r' solver' (.attempted name calls) = .ok t')
    (hw : w.length = t.layout.size) (hfinite : ∀ x ∈ w, Scalar.isFinite x) :
    (∀ prog s status, t.program = .ok prog → t.scheme.objectiveFault = none →
      s.status = .ok status → (∀ v ∈ s.named? "iter_count", ∃ n, v = .int n) →
      (status = .converged → Scalar.isFinite (prog.objective w)) →
      ∃ S, t.extract schemeName w s = .ok S) ∧
    ∀ s S, t.extract schemeName w s = .ok S → t.Restarts t' w S := by
  constructor
  · intro prog s status hprog hobjective hstatus hcount hvalue
    exact extract_of_program schemeName hprog hobjective hw hfinite hstatus hcount hvalue
  · intro s S hS
    exact (extracted_of_extract hS).restarts (Problem.attempted_bounded name calls) hform hform'
      hcreate hcreate' hfinite

end Rounded

section Exact

variable {r r' : Registry Extended} {solver solver' : Solver Extended} {p : Problem Extended}
  {t t' : Transcription Extended} {w : List Extended} {S : Solution Extended}

/-- Without rounding, a solution can be used just if it has a horizon. -/
theorem Extracted.usable_iff {qs : List ℚ} (h : t.Extracted w S) (hgrid : t.mesh.Grid qs)
    (hm : t.mesh.Increasing) (hcreate : create r solver p = .ok t)
    (hfinite : ∀ x ∈ w, Scalar.isFinite x) (l : Layout Extended) :
    Guess.Usable (Guess.spread S t.layout.constrained) l ↔
      Layout.entry w t.layout.initialTimeIndex < Layout.entry w t.layout.finalTimeIndex := by
  obtain ⟨-, -, -, hks, harranged⟩ := create_layout hcreate
  have hfills := harranged.fills hks.inside h.length
  obtain ⟨a, b, hinitial, hfinal, htimes, hhorizon⟩ := h.exists_times hgrid hcreate hfinite
  have hspans := htimes ▸ Guess.spans_finite (Mesh.gridTimes qs a b)
  rw [hhorizon]
  constructor
  · intro husable
    by_contra hab
    exact h.not_usable hm hspans.finite hinitial hfinal (not_lt.mp hab) husable
  · intro hab
    have hincreasing := Mesh.gridTimes_increasing hgrid.increasing hab
    have hin : ∀ k ∈ t.layout.constrained, k < (Mesh.gridTimes qs a b).length := by
      have hlength : t.mesh.numPoints = (Mesh.gridTimes qs a b).length := by
        rw [← h.numPoints_eq, Solution.numPoints, htimes, List.length_map]
      exact hlength ▸ hks.inside
    refine ⟨?_, fun _ _ => ?_⟩
    · rw [Guess.spread_times]
      refine Guess.differences_pos hspans.finite (htimes ▸ List.pairwise_map.mpr ?_)
      exact hincreasing.imp (Extended.finite_lt_finite _ _).mpr
    · exact Guess.spread_finite htimes hincreasing hin hks.increasing
        (h.shows.multipliers ▸ hfills.multipliers) (h.finite_multipliers hcreate hfinite)

/-- Without rounding, a solution is a start just if it has a horizon, and then within the bounds. -/
theorem starts_iff_horizon {form form' : MeshForm Extended} (name : Value Extended)
    (calls : List (Problem.Call Extended)) (hform : Mesh.ofForm form = .ok solver.mesh)
    (hform' : Mesh.ofForm form' = .ok solver'.mesh)
    (hcreate : create r solver (.attempted name calls) = .ok t)
    (hcreate' : create r' solver' (.attempted name calls) = .ok t')
    (hfinite : ∀ x ∈ w, Scalar.isFinite x) {schemeName : String} {s : Statistics Extended}
    (hS : t.extract schemeName w s = .ok S) :
    (Layout.entry w t.layout.initialTimeIndex < Layout.entry w t.layout.finalTimeIndex →
      ∃ v, (GuessSource.solution S).start t'.layout t'.mesh = .ok v ∧ t'.layout.Admits v) ∧
    (¬ Layout.entry w t.layout.initialTimeIndex < Layout.entry w t.layout.finalTimeIndex →
      Raises ((GuessSource.solution S).start t'.layout t'.mesh) .dataIntegrity) := by
  have hextracted := extracted_of_extract hS
  obtain ⟨qs, hgrid⟩ := Mesh.grid_of_form hform
  have hm := Mesh.increasing_of_form hform
  rw [← (create_layout hcreate).2.1] at hgrid hm
  have hrestarts := hextracted.restarts (Problem.attempted_bounded name calls) hform hform'
    hcreate hcreate' hfinite
  have husable := hextracted.usable_iff hgrid hm hcreate hfinite t'.layout
  obtain ⟨a, b, -, -, htimes, -⟩ := hextracted.exists_times hgrid hcreate hfinite
  rw [← husable]
  refine ⟨fun h => ?_, hrestarts.refused⟩
  obtain ⟨v, hv, -, hadmits⟩ := hrestarts.accepted h
  exact ⟨v, hv, hadmits (htimes ▸ Guess.spans_finite _)⟩

end Exact

namespace Sample

theorem form_finer : Mesh.ofForm (.points (.list [.real 0.0, .real 0.125, .real 0.25, .real 0.75,
    .real 1.0])) = .ok finer.mesh := by
  with_unfolding_all rfl

/-- The report on a run that stopped early. -/
def stopped : Statistics Extended :=
  [(.text "return_status", .text "Maximum_Iterations_Exceeded")]

/-- Entries for three points, with multipliers at the first and the last of them, and for times. -/
def sparseVector (initialTime finalTime : Extended) : List Extended :=
  [1.0, 0.5, 3.0, 2.0, 0.25, 4.0, 1.0, -2.0, initialTime, finalTime]

theorem created_sparse : ∃ t prog,
    create (registryAt [2, 0]) sparse (.attempted (.text "sample") attempts) = .ok t ∧
    t.program = .ok prog ∧ t.scheme.objectiveFault = none ∧ t.layout.constrained = [0, 2] ∧
    t.layout.size = 10 ∧ t.layout.initialTimeIndex = 8 := by
  obtain ⟨t, ht, hparts⟩ := Except.exists_of_any
    (x := create (registryAt [2, 0]) sparse (.attempted (.text "sample") attempts))
    (p := fun t => decide (t.layout.constrained = [0, 2] ∧ t.layout.size = 10 ∧
      t.layout.initialTimeIndex = 8 ∧ t.functions.sizes.multipliers ≠ 0)) (by decide +kernel)
  obtain ⟨hconstrained, hsize, hindex, hm⟩ := of_decide_eq_true hparts
  have hscheme := create_scheme (i := 1) rfl ht
  have hstandard : t.scheme.constraints = .standard := by rw [hscheme]; rfl
  have hobjective : t.scheme.objectiveFault = none := by rw [hscheme]; rfl
  have hprog := program_of_standard hstandard ((hasMultipliers_iff ht).mpr (.inr hm))
  exact ⟨t, _, ht, hprog, hobjective, hconstrained, hsize, hindex⟩

end Sample

/-- Multipliers at two of three points on one mesh, and at all points of another one. -/
theorem restart_sample : ∃ t t' S S',
    create (Sample.registryAt [2, 0]) Sample.sparse
      (.attempted (.text "sample") Sample.attempts) = .ok t ∧
    create .initial Sample.finer (.attempted (.text "sample") Sample.attempts) = .ok t' ∧
    t.extract "sparse" (Sample.sparseVector 0.0 2.0) Sample.stopped = .ok S ∧
    t.Restarts t' (Sample.sparseVector 0.0 2.0) S ∧
    (∃ v, (GuessSource.solution S).start t'.layout t'.mesh = .ok v) ∧
    t.extract "sparse" (Sample.sparseVector 2.0 2.0) Sample.stopped = .ok S' ∧
    t.Restarts t' (Sample.sparseVector 2.0 2.0) S' ∧
    Raises ((GuessSource.solution S').start t'.layout t'.mesh) .dataIntegrity := by
  obtain ⟨t, prog, ht, hprog, hobjective, -, hsize, hindex⟩ := Sample.created_sparse
  obtain ⟨t', ht'⟩ := Except.exists_of_isOk
    (show (create .initial Sample.finer
        (.attempted (.text "sample") Sample.attempts)).isOk = true by decide +kernel)
  have hform : Mesh.ofForm _ = .ok Sample.sparse.mesh := Sample.form_solver
  have hmesh := (create_layout ht).2.1
  obtain ⟨qs, hgrid⟩ := Mesh.grid_of_form hform
  have hm := Mesh.increasing_of_form hform
  rw [← hmesh] at hgrid hm
  have hfinal : t.layout.finalTimeIndex = 9 := by rw [Layout.finalTimeIndex, hindex]
  have hstatus : Sample.stopped.status = .ok .iterationLimit := by with_unfolding_all rfl
  have hfinite : ∀ x ∈ Sample.sparseVector 0.0 2.0, Scalar.isFinite x := by decide +kernel
  have hfinite' : ∀ x ∈ Sample.sparseVector 2.0 2.0, Scalar.isFinite x := by decide +kernel
  obtain ⟨hdecoded, hrestarts⟩ := restart (.text "sample") Sample.attempts "sparse" hform
    Sample.form_finer ht ht' (w := Sample.sparseVector 0.0 2.0) hsize.symm hfinite
  obtain ⟨hdecoded', hrestarts'⟩ := restart (.text "sample") Sample.attempts "sparse" hform
    Sample.form_finer ht ht' (w := Sample.sparseVector 2.0 2.0) hsize.symm hfinite'
  obtain ⟨S, hS⟩ := hdecoded _ Sample.stopped _ hprog hobjective hstatus nofun nofun
  obtain ⟨S', hS'⟩ := hdecoded' _ Sample.stopped _ hprog hobjective hstatus nofun nofun
  have husable := (extracted_of_extract hS).usable_iff hgrid hm ht hfinite t'.layout
  have husable' := (extracted_of_extract hS').usable_iff hgrid hm ht hfinite' t'.layout
  rw [hindex, hfinal] at husable husable'
  obtain ⟨v, hv, -⟩ := (hrestarts _ S hS).accepted (husable.mpr (by decide +kernel))
  exact ⟨t, t', S, S', ht, ht', hS, hrestarts _ S hS, ⟨v, hv⟩, hS', hrestarts' _ S' hS',
    (hrestarts' _ S' hS').refused (mt husable'.mp (by decide +kernel))⟩

/-- A run from the bounds that stops at its start, where the horizon ends before it begins: what it
returns is finite and within the bounds, but it is refused as a guess for the same transcription. -/
theorem not_restarted : ∃ t S,
    create .initial Sample.solver (.attempted (.text "sample") Sample.overlapping) = .ok t ∧
    t.layout.Admits (Guess.default t.layout) ∧
    (∀ x ∈ Guess.default t.layout, Scalar.isFinite x) ∧
    Sample.stopped.status = .ok .iterationLimit ∧ Sample.stopped.named? "iter_count" = none ∧
    (t.solve "trapezoidal" (Sample.returning Sample.stopped) .bounds).2 = .ok S ∧
    Raises ((GuessSource.solution S).start t.layout t.mesh) .dataIntegrity := by
  have hstatus : Sample.stopped.status = .ok .iterationLimit := by with_unfolding_all rfl
  obtain ⟨t, ht, hparts⟩ := Except.exists_of_any
    (x := create .initial Sample.solver (.attempted (.text "sample") Sample.overlapping))
    (p := fun t =>
      (t.solve "trapezoidal" (Sample.returning Sample.stopped) .bounds).2.toOption.any
        fun (S : Solution Extended) =>
          decide (Raises ((GuessSource.solution S).start t.layout t.mesh) .dataIntegrity))
    (by decide +kernel)
  obtain ⟨S, hS, hrefused⟩ := Except.exists_of_any hparts
  have hp := Problem.attempted_bounded (.text "sample") Sample.overlapping
  have hwithin (i : Nat) (s : Slot Extended) (hs : t.layout.slots[i]? = some s) :=
    Guess.default_within (layout_timed hp.timed ht) (layout_bounded hp ht) hs
  have hlength := Guess.length_default t.layout
  refine ⟨t, S, ht, ⟨hlength, fun i s hs => ?_⟩, fun x hx => ?_, hstatus, rfl, hS,
    of_decide_eq_true hrefused⟩
  · obtain ⟨q, hq, hbounds⟩ := hwithin i s hs
    exact ⟨_, hq, hbounds⟩
  · obtain ⟨i, hi, rfl⟩ := List.mem_iff_getElem.mp hx
    have hslot : i < t.layout.slots.length := hi.trans_eq hlength
    obtain ⟨q, hq, -⟩ := hwithin i _ (List.getElem?_eq_getElem hslot)
    rw [List.getElem?_eq_getElem hi, Option.some.injEq] at hq
    exact Extended.isFinite_iff.mpr ⟨q, hq⟩

end Transcription

end Collocation
