import Collocation.Proofs.Mesh.Rebuilding
import Collocation.Proofs.Simulation.Request
import Collocation.Proofs.Transcription.Exactness
import Collocation.Proofs.Transcription.WarmStart

/-! Simulated and transcribed dynamics.  At the points of its mesh a solution is interpolated to its
own rows, so there the right-hand side that an integrator is given has the derivatives that the
defects were made of.  The defects vanish exactly if the trapezoidal rule holds between neighbouring
points, with these derivatives. -/

namespace Collocation

open Interpolation (columnSamples columns eval_at columnSamples_eq)
open Transcription (finite_step)

namespace Simulation

/-- At a sample time rows are interpolated to the row of the sample. -/
theorem rowAt_sample {qs : List ℚ} {q : ℚ} {i width : Nat} {rows : List (List Extended)}
    {row : List Extended} (hqs : qs.Pairwise (· < ·)) (htwo : 2 ≤ qs.length)
    (hlength : rows.length = qs.length) (hi : qs[i]? = some q) (hrow : rows[i]? = some row)
    (hwidth : row.length = width) :
    rowAt (qs.map Extended.finite) rows width (.finite q) = row := by
  have hcolumn (c : Nat) : (columnSamples (qs.map Extended.finite) rows c).eval [.finite q] =
      [Layout.entry row c] := by
    have hfirst : ((columnSamples (qs.map Extended.finite) rows c).eval [.finite q])[0]? =
        some (Layout.entry row c) := by
      rw [columnSamples_eq (by rw [List.length_map, hlength]), eval_at hqs hi rfl htwo rfl]
      simp [Interpolation.entry, hrow, Layout.entry]
    obtain ⟨y, hy⟩ := List.length_eq_one_iff.mp (Interpolation.Samples.length_eval
      (columnSamples (qs.map Extended.finite) rows c) [.finite q])
    rw [hy] at hfirst ⊢
    rw [Option.some.inj hfirst]
  rw [rowAt, columns, List.map_congr_left fun c _ => hcolumn c, ← List.flatMap_def,
    ← List.map_eq_flatMap]
  exact Layout.map_entry hwidth

section Solution

variable {S : Solution Extended} {m : Mesh Extended} {qs : List ℚ} {a b : ℚ} {d : Dimensions}
  {k : Nat} (hS : Guess.Solves S m qs a b d) (hk : k < m.numPoints)
include hS hk

theorem exists_time : ∃ q, (Mesh.gridTimes qs a b)[k]? = some q ∧
    S.times[k]? = some (.finite q) := by
  have hlt : k < (Mesh.gridTimes qs a b).length := by
    rwa [← hS.length_times, hS.times, List.length_map] at hk
  refine ⟨_, List.getElem?_eq_getElem hlt, ?_⟩
  rw [hS.times, List.getElem?_map, List.getElem?_eq_getElem hlt, Option.map_some]

/-- At the time of a point a trajectory on the mesh is interpolated to its row there. -/
theorem rowAt_time {rows : List (List Extended)} {width : Nat}
    (h : Guess.Rows rows m.points width) :
    rowAt S.times rows width (Layout.entry S.times k) = rows[k]?.getD [] := by
  obtain ⟨q, hq, htime⟩ := exists_time hS hk
  have hgrid := Guess.times_grid hS.grid hS.horizon
  have hlength : rows.length = (Mesh.gridTimes qs a b).length := by
    rw [h.length, hS.grid.points, List.length_map, Mesh.length_gridTimes]
  have hlt : k < rows.length := h.length ▸ hk
  rw [Layout.entry, htime, Option.getD_some, hS.times, List.getElem?_eq_getElem hlt,
    Option.getD_some]
  exact rowAt_sample hgrid.increasing hgrid.two hlength hq (List.getElem?_eq_getElem hlt)
    (h.widths _ (List.getElem_mem hlt))

end Solution

/-- The step of state `i` on interval `k` of a solution. -/
def stepOf (S : Solution Extended) (k i : Nat) : Extended :=
  Layout.entry (S.states[k + 1]?.getD []) i - Layout.entry (S.states[k]?.getD []) i

/-- The step that the trapezoidal rule makes of derivatives at all points. -/
def ruleStep (S : Solution Extended) (slope : Nat → List Extended) (k i : Nat) : Extended :=
  (Layout.entry S.times (k + 1) - Layout.entry S.times k) / 2.0 *
    (Layout.entry (slope k) i + Layout.entry (slope (k + 1)) i)

theorem stepOf_finite {S : Solution Extended} {m : Mesh Extended} {qs : List ℚ} {a b : ℚ}
    {d : Dimensions} (hS : Guess.Solves S m qs a b d) {k i : Nat} (hk : k + 1 < m.numPoints)
    (hi : i < d.states) : ∃ q, stepOf S k i = .finite q := by
  have hentry {j : Nat} (hj : j < m.numPoints) :
      ∃ q, Layout.entry (S.states[j]?.getD []) i = .finite q := by
    have hrow : j < S.states.length := hS.states.length ▸ hj
    have hlength := Layout.length_row hS.states.widths hrow
    exact Extended.isFinite_iff.mp (hS.finiteStates _ (Layout.row_mem hrow) _
      (Layout.entry_mem (hlength.symm ▸ hi)))
  obtain ⟨x, hx⟩ := hentry (j := k) (by omega)
  obtain ⟨y, hy⟩ := hentry hk
  exact ⟨y - x, by rw [stepOf, hx, hy, finite_step]⟩

end Simulation

namespace Transcription

variable {t : Transcription Extended} {r : Registry Extended} {solver : Solver Extended}
  {p : Problem Extended} {name : String} {w : List Extended} {s : Statistics Extended}
  {S : Solution Extended} {qs : List ℚ} {a b : ℚ} {k : Nat}

theorem names_of_extract (h : t.extract name w s = .ok S) :
    S.names = ⟨t.functions.stateNames.map .text, t.functions.controlNames.map .text,
      t.functions.multiplierNames.map .text, t.functions.parameterNames.map .text⟩ := by
  obtain ⟨-, status, iterations, objective, terms, rfl⟩ := extract_eq_ok h
  rfl

/-- Without points of its own a scheme has multipliers at no point or at all. -/
theorem constrained_none_or_all (hcreate : create r solver p = .ok t)
    (hscheme : t.scheme.kinematic = none) : t.layout.constrained = [] ∨
      t.layout.constrained = List.range t.mesh.numPoints := by
  by_cases hnil : t.layout.constrained = []
  · exact .inl hnil
  · obtain ⟨hkinematic, hm⟩ := kinematic_of_constrained hcreate hnil
    exact .inr (constrained_eq_range hcreate hscheme hkinematic hm)

section Points

variable (hcreate : create r solver p = .ok t) (hscheme : t.scheme.kinematic = none)
  (hS : Guess.Solves S t.mesh qs a b t.functions.sizes) (h : t.extract name w s = .ok S)
  (hk : k < t.mesh.numPoints)
include hcreate hscheme hS h hk

/-- The multipliers that are interpolated at a point are those that the defects see there. -/
theorem multipliersAt_point :
    Simulation.multipliersAt t.functions S (t.layout.constrained.filterMap (S.times[·]?))
        (Layout.entry S.times k) =
      (t.layout.trajectoryOf w).multiplierAt t.layout.constrained t.functions.sizes.multipliers
        k := by
  have hextracted := extracted_of_extract h
  obtain ⟨-, -, -, hks, harranged⟩ := create_layout hcreate
  have hfills := harranged.fills hks.inside hextracted.length
  rcases constrained_none_or_all hcreate hscheme with hnil | hrange
  · rw [hnil]
    rfl
  · have hrows : Guess.Rows S.multipliers t.mesh.points t.functions.sizes.multipliers := by
      rw [hextracted.shows.multipliers]
      refine ⟨?_, hfills.multiplierRows⟩
      rw [hfills.multipliers, hrange, List.length_range, Mesh.numPoints]
    have htimes : (List.range t.mesh.numPoints).filterMap (S.times[·]?) = S.times := by
      rw [← hS.length_times]
      exact filterMap_range_getElem? S.times
    have hsome : S.times.isEmpty = false := by
      rw [List.isEmpty_eq_false_iff, ← List.length_pos_iff, hS.length_times]
      omega
    have hindex : (List.range t.mesh.numPoints).idxOf? k = some k := by
      rw [List.idxOf?_eq_some_iff]
      refine ⟨by rwa [List.length_range], List.getElem_range _, fun j hj => ?_⟩
      rw [List.getElem_range]
      omega
    rw [hrange, htimes, Simulation.multipliersAt, hsome, Trajectory.multiplierAt, hindex, hS.names,
      ← hextracted.shows.multipliers]
    exact Simulation.rowAt_time hS hk hrows

/-- At a point the right-hand side has the derivatives of the defects. -/
theorem rhsAt_point :
    Simulation.rhsAt t.functions S (t.layout.constrained.filterMap (S.times[·]?))
        (.real (Layout.entry S.times k)) (S.states[k]?.getD []) =
      .ok ((t.sample (t.read w)).derivatives.column k) := by
  have hextracted := extracted_of_extract h
  obtain ⟨-, -, -, hks, harranged⟩ := create_layout hcreate
  have hplaced := placed_of_create hcreate
  have hstates : (S.states[k]?.getD []).length = t.functions.sizes.states :=
    Layout.length_row hS.states.widths (hS.states.length ▸ hk)
  have hcontrols : Simulation.rowAt S.times S.controls S.names.controls.length
      (Layout.entry S.times k) = S.controls[k]?.getD [] := by
    have hnames : S.names.controls.length = t.functions.sizes.controls := by
      rw [names_of_extract h, List.length_map]
      rfl
    rw [hnames]
    exact Simulation.rowAt_time hS hk hS.controls
  have hcontrolRow : (S.controls[k]?.getD []).length = t.functions.sizes.controls :=
    Layout.length_row hS.controls.widths (hS.controls.length ▸ hk)
  have hmultipliers := multipliersAt_point hcreate hscheme hS h hk
  have hmultiplierRow : ((t.layout.trajectoryOf w).multiplierAt t.layout.constrained
      t.functions.sizes.multipliers k).length = t.functions.sizes.multipliers := by
    rw [← hmultipliers]
    exact Simulation.MultipliersFit.length (.inr hS.names) _
  rw [Simulation.rhsAt_real, hcontrols, hmultipliers,
    Functions.evalDynamics_of_lengths hstates hcontrolRow hS.parameters hmultiplierRow,
    hplaced.column_dynamicsAt hextracted.length hk, Trajectory.dynamicsAt, Trajectory.pointAt,
    hextracted.times, hextracted.shows.states, hextracted.shows.controls,
    hextracted.shows.initialTime, hextracted.shows.finalTime, hextracted.shows.parameters]

end Points

/-- The length of an interval is the distance of its times. -/
theorem intervalLength_eq (hS : Guess.Solves S t.mesh qs a b t.functions.sizes)
    (hshows : S.Shows (t.layout.trajectoryOf w)) (hk : k + 1 < t.mesh.numPoints) :
    (t.layout.trajectoryOf w).intervalLength t.mesh k =
      Layout.entry S.times (k + 1) - Layout.entry S.times k := by
  have htime {j : Nat} (hj : j < t.mesh.numPoints) : Layout.entry S.times j =
      .finite (a + (b - a) * qs[j]?.getD 0) := by
    obtain ⟨q, hq, htime⟩ := Simulation.exists_time hS hj
    rw [Mesh.gridTimes, List.getElem?_map, Option.map_eq_some_iff] at hq
    obtain ⟨x, hx, rfl⟩ := hq
    rw [Layout.entry, htime, hx]
    rfl
  rw [Trajectory.intervalLength, ← hshows.initialTime, ← hshows.finalTime, hS.initialTime,
    hS.finalTime, hS.grid.entry_points, hS.grid.entry_points, htime hk, htime (by omega),
    finite_step, finite_step, finite_step, Extended.finite_mul]
  congr 1
  ring

section Solved

variable (hcreate : create r solver p = .ok t)
  (hS : Guess.Solves S t.mesh qs a b t.functions.sizes) (h : t.extract name w s = .ok S)
include hcreate hS h

/-- For a solution on the mesh of a transcription an integrator is asked with the functions of that
transcription. -/
theorem asks_of_extract {q : SimulationRequest Extended} {rtol factor : Number Extended}
    (hcountable : (t.mesh.numPoints : Int) ≤ Tensor.countable)
    (hrtol : Check.positive q.relativeTolerance "ode_rtol" = .ok rtol)
    (hfactor : Check.positive q.toleranceFactor "ode_atol_factor" = .ok factor) :
    ∃ initial, Simulation.Asks p S q (Simulation.request t.functions S q
      (t.layout.constrained.filterMap (S.times[·]?)) initial) := by
  obtain ⟨hf, -, -, hks, -⟩ := create_layout hcreate
  have hnum : S.numPoints = t.mesh.numPoints := hS.length_times
  have htimes := Guess.multiplierTimes_eq (extracted_of_extract h).indices
    (fun k hk => hnum ▸ hks.inside k hk) (by rwa [hnum])
  have hpos : 0 < S.states.length := hS.states.length ▸ hS.grid.numPoints_pos
  have hinitial : S.states.head? = some S.states[0] :=
    List.head?_eq_getElem?.trans (List.getElem?_eq_getElem hpos)
  have hstates : S.names.states.length = p.states.length := by
    rw [names_of_extract h, (Problem.functions_eq_ok.mp hf).stateNames, List.length_map,
      List.length_map]
  exact ⟨_, Simulation.run_asks hrtol hfactor hstates hf htimes hinitial⟩

/-- A defect is the step of a state less that of the trapezoidal rule. -/
theorem defect_eq_steps {i : Nat} (hk : k + 1 < t.mesh.numPoints)
    (hi : i < t.functions.sizes.states) :
    Layout.entry (t.defect k (t.sample (t.read w))) i = Simulation.stepOf S k i -
      Simulation.ruleStep S (t.sample (t.read w)).derivatives.column k i := by
  have hextracted := extracted_of_extract h
  rw [(placed_of_create hcreate).defect_entry hextracted.length hk hi,
    intervalLength_eq hS hextracted.shows hk, Trajectory.stateEntry, Trajectory.stateEntry,
    ← hextracted.shows.states]
  rfl

theorem defect_eq_zero_iff (hk : k + 1 < t.mesh.numPoints) :
    t.defect k (t.sample (t.read w)) = List.replicate t.functions.sizes.states 0.0 ↔
      ∀ i < t.functions.sizes.states, Simulation.stepOf S k i =
        Simulation.ruleStep S (t.sample (t.read w)).derivatives.column k i := by
  have hlength := (placed_of_create hcreate).length_defect (extracted_of_extract h).length hk
  rw [Layout.eq_replicate_iff hlength]
  refine forall_congr' fun i => forall_congr' fun hi => ?_
  obtain ⟨step, hstep⟩ := Simulation.stepOf_finite hS hk hi
  rw [defect_eq_steps hcreate hS h hk hi, hstep]
  exact Extended.finite_sub_eq_zero

end Solved

/-- A solution is simulated with the dynamics that it was transcribed with.  At every point of the
mesh the right-hand side that an integrator is given, at the time and the states of the solution,
has the derivative that the defects are made of.  So the defects vanish exactly if the steps of the
states are those of the trapezoidal rule with the derivatives of the integrator. -/
theorem simulates_transcribed {form : MeshForm Extended} {prog : Program Extended}
    {q : SimulationRequest Extended} {rtol factor : Number Extended}
    (hmesh : Mesh.ofForm form = .ok solver.mesh) (hcreate : create r solver p = .ok t)
    (hscheme : t.scheme = .trapezoidal) (hprog : t.program = .ok prog)
    (hfinite : ∀ x ∈ w, Scalar.isFinite x)
    (hhorizon : Layout.entry w t.layout.initialTimeIndex <
      Layout.entry w t.layout.finalTimeIndex)
    (h : t.extract name w s = .ok S)
    (hrtol : Check.positive q.relativeTolerance "ode_rtol" = .ok rtol)
    (hfactor : Check.positive q.toleranceFactor "ode_atol_factor" = .ok factor) :
    ∃ (asked : OdeRequest Extended) (slope : Nat → List Extended),
      Simulation.Asks p S q asked ∧
      (∀ k < solver.mesh.numPoints, ∃ time x, S.times[k]? = some time ∧ S.states[k]? = some x ∧
        asked.rhs (.real time) x = .ok (slope k) ∧
        (prog.sample (prog.read w)).derivatives.column k = slope k) ∧
      (∀ k, k + 1 < solver.mesh.numPoints → t.defectBlock k ∈ prog.blocks ∧
        ∀ i < t.functions.sizes.states,
          Layout.entry ((t.defectBlock k).value (prog.sample (prog.read w))) i =
            Simulation.stepOf S k i - Simulation.ruleStep S slope k i) ∧
      ((∀ block ∈ prog.blocks, block.kind = .defect → block.value (prog.sample (prog.read w)) =
          List.replicate t.functions.sizes.states 0.0) ↔
        ∀ k, k + 1 < solver.mesh.numPoints → ∀ i < t.functions.sizes.states,
          Simulation.stepOf S k i = Simulation.ruleStep S slope k i) := by
  obtain ⟨qs, hgrid⟩ := Mesh.grid_of_form hmesh
  have hcountable := Mesh.countable_of_form hmesh
  obtain ⟨-, hmesh', -⟩ := create_layout hcreate
  obtain ⟨-, rfl⟩ := (program_standard_iff (standard_of_trapezoidal hscheme)).mp hprog
  rw [← hmesh'] at hgrid hcountable ⊢
  have hstandard : t.scheme.kinematic = none := by rw [hscheme]; rfl
  obtain ⟨a, b, hS⟩ :=
    (extracted_of_extract h).solves hgrid hcreate hstandard hfinite hhorizon
  obtain ⟨initial, hasks⟩ := asks_of_extract hcreate hS h hcountable hrtol hfactor
  refine ⟨_, (t.sample (t.read w)).derivatives.column, hasks, fun k hk => ?rhs,
    fun k hk => ⟨defectBlock_mem hk, fun i hi => defect_eq_steps hcreate hS h hk hi⟩, ?vanish⟩
  case rhs =>
    have htime : k < S.times.length := hS.length_times.symm ▸ hk
    have hrow : k < S.states.length := hS.states.length ▸ hk
    have hrhs := rhsAt_point hcreate hstandard hS h hk
    rw [Layout.entry, List.getElem?_eq_getElem htime, List.getElem?_eq_getElem hrow] at hrhs
    exact ⟨_, _, List.getElem?_eq_getElem htime, List.getElem?_eq_getElem hrow, hrhs, rfl⟩
  case vanish =>
    rw [forall_defects]
    exact forall_congr' fun k => forall_congr' fun hk => defect_eq_zero_iff hcreate hS h hk

/-- With a kinematic constraint, so that multipliers are interpolated too. -/
theorem simulates_transcribed_sample : ∃ t prog S asked, ∃ slope : Nat → List Extended,
    create .initial Sample.solver Sample.problem = .ok t ∧ t.program = .ok prog ∧
    t.layout.constrained = [0, 1, 2] ∧
    t.extract "trapezoidal" Sample.vector Sample.report = .ok S ∧
    Simulation.Asks Sample.problem S .standard asked ∧
    (∀ k < 3, ∃ time x, S.times[k]? = some time ∧ S.states[k]? = some x ∧
      asked.rhs (.real time) x = .ok (slope k) ∧
      (prog.sample (prog.read Sample.vector)).derivatives.column k = slope k) := by
  obtain ⟨t, ht, hlength, hhorizon, hvalue⟩ := Sample.decoded
  have hscheme : t.scheme = .trapezoidal := create_scheme (i := 0) rfl ht
  have hprog := program_of_declared (Problem.holds_ofCalls Sample.declared) ht hscheme
  have hfinite : ∀ x ∈ Sample.vector, Scalar.isFinite x := by decide +kernel
  have hstatus : Sample.report.status = .ok .converged := by
    with_unfolding_all rfl
  obtain ⟨S, hS⟩ := extract_succeeds "trapezoidal" hscheme hprog hlength hfinite hstatus
    Sample.readable.iterations fun _ => hvalue
  obtain ⟨rtol, factor, hrtol, hfactor⟩ := Simulation.Sample.standard_accepted
  have hconstrained : t.layout.constrained = [0, 1, 2] := by
    obtain ⟨t', ht', hpoints⟩ := Except.exists_of_any
      (x := create .initial Sample.solver Sample.problem)
      (p := fun t => t.layout.constrained = [0, 1, 2]) (by decide +kernel)
    obtain rfl := Except.ok.inj (ht.symm.trans ht')
    exact of_decide_eq_true hpoints
  obtain ⟨asked, slope, hasks, hrhs, -, -⟩ := simulates_transcribed Sample.form_solver ht hscheme
    hprog hfinite hhorizon hS hrtol hfactor
  exact ⟨t, _, S, asked, slope, ht, hprog, hconstrained, hS, hasks, hrhs⟩

end Transcription

end Collocation
