import Collocation.Proofs.Transcription.Reading

/-! The feasible vectors of a program.  A vector is within the bounds of the variables and of the
constraints exactly if its trajectories satisfy everything that is declared. -/

namespace Collocation

section Interval

variable {α : Type} [Scalar α]

def Bounds.Encloses (b : Bounds α) (x : α) : Prop := b.lower ≤ x ∧ x ≤ b.upper

/-- A vector is within the bounds of the variables, and its constraints are within theirs. -/
structure Program.Admits (prog : Program α) (w : List α) : Prop where
  lower : List.Forall₂ (· ≤ ·) prog.layout.lower w
  upper : List.Forall₂ (· ≤ ·) w prog.layout.upper
  constraintLower :
    List.Forall₂ (· ≤ ·) (prog.constraintBounds.map (·.lower)) (prog.constraints w)
  constraintUpper :
    List.Forall₂ (· ≤ ·) (prog.constraints w) (prog.constraintBounds.map (·.upper))

theorem Program.admits_iff {prog : Program α} {w : List α} : prog.Admits w ↔
    List.Forall₂ Bounds.Encloses (prog.layout.slots.map (·.bounds)) w ∧
      List.Forall₂ Bounds.Encloses prog.constraintBounds (prog.constraints w) := by
  rw [List.forall₂_map_left_iff]
  unfold Bounds.Encloses
  rw [← forall₂_between, ← forall₂_between]
  constructor
  · rintro ⟨h1, h2, h3, h4⟩
    exact ⟨⟨h1, h2⟩, h3, h4⟩
  · rintro ⟨⟨h1, h2⟩, h3, h4⟩
    exact ⟨h1, h2, h3, h4⟩

/-- Every variable lies in the interval that is declared for it, at every point of a mesh. -/
structure Declared.Within (d : Declared α) (m : Mesh α) (tr : Trajectory α) : Prop where
  states : ∀ k < m.numPoints, List.Forall₂
    (fun r x => (r.limits.at m.numPoints k).Encloses x) d.states (tr.states[k]?.getD [])
  controls : ∀ k < m.numPoints, List.Forall₂
    (fun r x => (r.limits.at m.numPoints k).Encloses x) d.controls (tr.controls[k]?.getD [])
  multipliers : ∀ k < m.numPoints, ∀ c ∈ d.kinematic, ∀ x ∈ tr.multipliers[k]?.getD [],
    c.bounds.interval.Encloses x
  times : ∀ s ∈ d.times,
    s.1.interval.Encloses tr.initialTime ∧ s.2.interval.Encloses tr.finalTime
  parameters : List.Forall₂ (fun v x => v.interval.Encloses x) d.parameters tr.parameters

end Interval

/-- Every constraint holds: all defects and kinematic errors vanish, every component of a path
constraint lies in its interval, and the horizon has a least length unless both times are fixed. -/
structure Declared.Satisfied (d : Declared Extended) (f : Functions Extended) (m : Mesh Extended)
    (tr : Trajectory Extended) : Prop where
  defects : ∀ k, k + 1 < m.numPoints → ∀ i < d.states.length, tr.defectAt f m k i = 0.0
  kinematic : ∀ k < m.numPoints, ∀ e ∈ tr.kinematicAt f m k, e = 0.0
  path : ∀ k < m.numPoints, List.Forall₂
    (fun g c => List.Forall₂ Bounds.Encloses (c.bounds.componentIntervals g.function.length)
      (g.function.at (tr.pointAt m k))) f.path d.path
  duration : (∀ s ∈ d.times, ¬ (s.1.interval.isFixed ∧ s.2.interval.isFixed)) →
    Problem.minimumHorizon ≤ tr.finalTime - tr.initialTime

/-- Trajectories satisfy everything that is declared. -/
structure Declared.Feasible (d : Declared Extended) (f : Functions Extended) (m : Mesh Extended)
    (tr : Trajectory Extended) : Prop extends d.Within m tr, d.Satisfied f m tr

/-- The bounds in force at a point are the intervals of the variables there. -/
theorem BoundsSet.inForce_variables {α : Type} (vs : List (Variable α)) (points k : Nat) :
    (⟨vs.map (·.bounds), some (vs.map (·.initial)), some (vs.map (·.final))⟩ : BoundsSet α).inForce
      points k = (vs.map Variable.limits).map fun l => l.at points k := by
  rw [List.map_map, inForce]
  by_cases h0 : k = 0
  · simp [h0, Limits.at, Variable.limits]
  · by_cases hlast : k + 1 = points <;> simp [h0, hlast, Limits.at, Variable.limits]

namespace Transcription

section Variables

variable {α : Type} [Scalar α] {t : Transcription α} {p : Problem α} {f : Functions α}
  {m : Mesh α} {d : Declared α} {w : List α} {k : Nat}

variable (hp : p.Holds d) (hf : f.Of d) (ht : t.Trapezoidal p f m)
include hp ht

theorem states_within (hk : k < m.numPoints) :
    List.Forall₂ Bounds.Encloses ((t.layout.statePlace k).of (t.layout.slots.map (·.bounds)))
        ((t.layout.statePlace k).of w) ↔
      List.Forall₂ (fun r x => (r.limits.at m.numPoints k).Encloses x) d.states
        ((t.layout.trajectoryOf w).states[k]?.getD []) := by
  rw [ht.layout.state_bounds hk, Problem.arrangement, BoundsSet.inForce_variables, hp.states,
    List.map_map, List.forall₂_map_left_iff, Layout.statePlace_of, states_row ht.layout hk]
  rfl

theorem controls_within (hk : k < m.numPoints) :
    List.Forall₂ Bounds.Encloses ((t.layout.controlPlace k).of (t.layout.slots.map (·.bounds)))
        ((t.layout.controlPlace k).of w) ↔
      List.Forall₂ (fun r x => (r.limits.at m.numPoints k).Encloses x) d.controls
        ((t.layout.trajectoryOf w).controls[k]?.getD []) := by
  rw [ht.layout.control_bounds hk, Problem.arrangement, BoundsSet.inForce_variables, hp.controls,
    List.map_map, List.forall₂_map_left_iff, Layout.controlPlace_of, controls_row ht.layout hk]
  rfl

theorem parameters_within :
    List.Forall₂ Bounds.Encloses (t.layout.parameterRange.of (t.layout.slots.map (·.bounds)))
        (t.layout.parameterRange.of w) ↔
      List.Forall₂ (fun v x => v.interval.Encloses x) d.parameters
        (t.layout.trajectoryOf w).parameters := by
  rw [ht.layout.parameter_bounds, Problem.arrangement, hp.parameters, List.forall₂_map_left_iff]
  rfl

include hf

/-- All multipliers have the bounds that are declared with the kinematic constraints. -/
theorem multipliers_within (hw : w.length = t.layout.size) (hk : k < m.numPoints) :
    (k ∈ constrainedPoints f m → List.Forall₂ Bounds.Encloses
        ((t.layout.multiplierPlace k).of (t.layout.slots.map (·.bounds)))
        ((t.layout.multiplierPlace k).of w)) ↔
      ∀ c ∈ d.kinematic, ∀ x ∈ (t.layout.trajectoryOf w).multipliers[k]?.getD [],
        c.bounds.interval.Encloses x := by
  have hdeclared := hf.declared
  cases hc : d.kinematic with
  | none =>
    rw [hc, Option.isSome_none] at hdeclared
    simp [constrainedPoints, hdeclared]
  | some c =>
    rw [hc, Option.isSome_some] at hdeclared
    have hmem : k ∈ constrainedPoints f m := by
      rw [constrainedPoints, if_pos hdeclared]
      exact List.mem_range.mpr hk
    have hbounds : p.multipliers.map (·.bounds) =
        List.replicate p.multipliers.length c.bounds.interval := by
      refine List.eq_replicate_iff.mpr ⟨List.length_map _, fun b hb => ?_⟩
      obtain ⟨v, hv, rfl⟩ := List.mem_map.mp hb
      have := hp.multipliers v hv
      rw [hc, Option.map_some, Option.some.injEq] at this
      exact this.symm
    have hlength := ht.layout.length_multiplierAt hk hw hmem
    have hcount : p.multipliers.length = f.sizes.multipliers := by
      simpa [Problem.arrangement] using ht.layout.fits.multipliers
    rw [ht.layout.multiplier_bounds hk hmem, Problem.arrangement, hbounds,
      Layout.multiplierPlace_of, forall₂_replicate (hlength.trans hcount.symm),
      multipliers_row ht hk hdeclared]
    simp [hmem]

omit hp in
theorem times_within (hw : w.length = t.layout.size) :
    (List.Forall₂ Bounds.Encloses (t.layout.initialPlace.of (t.layout.slots.map (·.bounds)))
        (t.layout.initialPlace.of w) ∧
      List.Forall₂ Bounds.Encloses (t.layout.finalPlace.of (t.layout.slots.map (·.bounds)))
        (t.layout.finalPlace.of w)) ↔
      ∀ s ∈ d.times, s.1.interval.Encloses (t.layout.trajectoryOf w).initialTime ∧
        s.2.interval.Encloses (t.layout.trajectoryOf w).finalTime := by
  obtain ⟨s, hs, htimes⟩ := Option.map_eq_some_iff.mp hf.times
  obtain ⟨h0, h1⟩ := Prod.mk.inj htimes
  rw [(ht.layout.times_of hw).1, (ht.layout.times_of hw).2, ht.layout.time_bounds.1,
    ht.layout.time_bounds.2, hs]
  simp [Problem.arrangement, h0, h1, Layout.trajectoryOf]

/-- A vector is within the bounds of the variables exactly if its trajectories are within the
intervals that are declared. -/
theorem variables_within (hw : w.length = t.layout.size) :
    List.Forall₂ Bounds.Encloses (t.layout.slots.map (·.bounds)) w ↔
      d.Within m (t.layout.trajectoryOf w) := by
  have hsize : (t.layout.slots.map (·.bounds)).length = t.layout.size := List.length_map _
  rw [Tiles.forall₂_iff (hsize ▸ ht.layout.tiles) (hsize.trans hw.symm), ht.layout.forall_places]
  constructor
  · rintro ⟨hx, hu, hm, h0, h1, hparameters⟩
    exact ⟨fun k hk => (states_within hp ht hk).mp (hx k hk),
      fun k hk => (controls_within hp ht hk).mp (hu k hk),
      fun k hk => (multipliers_within hp hf ht hw hk).mp (hm k hk),
      (times_within hf ht hw).mp ⟨h0, h1⟩, (parameters_within hp ht).mp hparameters⟩
  · rintro ⟨hx, hu, hm, htimes, hparameters⟩
    obtain ⟨h0, h1⟩ := (times_within hf ht hw).mpr htimes
    exact ⟨fun k hk => (states_within hp ht hk).mpr (hx k hk),
      fun k hk => (controls_within hp ht hk).mpr (hu k hk),
      fun k hk => (multipliers_within hp hf ht hw hk).mpr (hm k hk), h0, h1,
      (parameters_within hp ht).mpr hparameters⟩

end Variables

/-- The bounds of the defects of the interval behind point `k`. -/
def defectBounds (f : Functions Extended) (m : Mesh Extended) (k : Nat) : List (Bounds Extended) :=
  if k + 1 < m.numPoints then List.replicate f.sizes.states zeroBounds else []

def kinematicBounds (f : Functions Extended) : List (Bounds Extended) :=
  if f.kinematic.isSome then List.replicate f.sizes.multipliers zeroBounds else []

def pathBounds (f : Functions Extended) : List (Bounds Extended) := f.path.flatMap (·.bounds)

section Constraints

variable {t : Transcription Extended} {p : Problem Extended} {f : Functions Extended}
  {m : Mesh Extended} {d : Declared Extended}

/-- The bounds of the constraints stand in the order of the constraints. -/
theorem constraintBounds_eq (ht : t.Trapezoidal p f m) :
    (t.trapezoidalProgram m).constraintBounds =
      (List.range m.numPoints).flatMap (fun k =>
          defectBounds f m k ++ (kinematicBounds f ++ pathBounds f))
        ++ if f.hasFixedTimes then [] else [⟨Problem.minimumHorizon, Scalar.infinity⟩] := by
  have hpath (k : Nat) : (f.path.mapIdx (pathBlock k)).flatMap (·.bounds) = pathBounds f := by
    rw [pathBounds, List.mapIdx_eq_zipIdx_map, List.flatMap_map]
    conv => rhs; rw [← List.zipIdx_map_fst 0 f.path, List.flatMap_map]
    rfl
  have hpoint (k : Nat) (hk : k ∈ List.range m.numPoints) : (t.pointBlocks k).flatMap (·.bounds) =
      defectBounds f m k ++ (kinematicBounds f ++ pathBounds f) := by
    rw [pointBlocks, List.flatMap_append, List.flatMap_append, List.append_assoc, kinematicBlock?,
      kinematicColumn_eq ht (List.mem_range.mp hk), ht.mesh, ht.functions, hpath, defectBounds,
      kinematicBounds]
    congr 1
    · split_ifs <;> simp [defectBlock, ht.functions]
    · congr 1
      split_ifs <;> simp
  rw [Program.constraintBounds, trapezoidalProgram, List.flatMap_append, List.flatMap_assoc,
    List.flatMap_congr hpoint, durationBlocks, ht.functions]
  congr 1
  split_ifs <;> rfl

theorem encloses_zero {x : Extended} : (zeroBounds : Bounds Extended).Encloses x ↔ x = 0.0 := by
  constructor
  · rintro ⟨hlower, hupper⟩
    exact Extended.le_antisymm hupper hlower
  · rintro rfl
    exact ⟨Extended.le_refl_zero, Extended.le_refl_zero⟩

variable (tr : Trajectory Extended) (k : Nat)

theorem length_defectBounds : (defectBounds f m k).length = (tr.defectsAt f m k).length := by
  unfold defectBounds Trajectory.defectsAt
  split_ifs <;> simp

variable (hf : f.Of d)
include hf

theorem length_kinematicBounds : (kinematicBounds f).length = (tr.kinematicAt f m k).length := by
  unfold kinematicBounds Trajectory.kinematicAt
  cases hg : f.kinematic with
  | none => simp
  | some g => simp [hf.length_kinematic hg]

theorem length_pathBounds : (pathBounds f).length = (tr.pathAt f m k).length := by
  rw [pathBounds, Trajectory.pathAt, List.length_flatMap, List.length_flatMap]
  congr 1
  refine List.map_congr_left fun g hg => ?_
  rw [hf.counted.path g hg, VectorFunction.length_at]

theorem defects_within :
    List.Forall₂ Bounds.Encloses (defectBounds f m k) (tr.defectsAt f m k) ↔
      (k + 1 < m.numPoints → ∀ i < d.states.length, tr.defectAt f m k i = 0.0) := by
  unfold defectBounds Trajectory.defectsAt
  split_ifs with hk
  · rw [forall₂_replicate (by simp), List.forall_mem_map, ← hf.states]
    simp [encloses_zero, hk]
  · simp [hk]

theorem kinematic_within :
    List.Forall₂ Bounds.Encloses (kinematicBounds f) (tr.kinematicAt f m k) ↔
      ∀ e ∈ tr.kinematicAt f m k, e = 0.0 := by
  unfold kinematicBounds Trajectory.kinematicAt
  cases hg : f.kinematic with
  | none => simp
  | some g =>
    rw [Option.isSome_some, if_pos rfl, forall₂_replicate (by simp [hf.length_kinematic hg])]
    simp [encloses_zero]

theorem path_within :
    List.Forall₂ Bounds.Encloses (pathBounds f) (tr.pathAt f m k) ↔
      List.Forall₂ (fun g c => List.Forall₂ Bounds.Encloses
        (c.bounds.componentIntervals g.function.length) (g.function.at (tr.pointAt m k)))
        f.path d.path := by
  have hlength (g : PathFunction Extended) (hg : g ∈ f.path) :
      g.bounds.length = (g.function.at (tr.pointAt m k)).length := by
    rw [hf.counted.path g hg, VectorFunction.length_at]
  rw [pathBounds, Trajectory.pathAt, forall₂_flatMap hlength]
  exact forall_mem_iff_forall₂ hf.path fun hgc => by rw [hgc.bounds]

omit k in
theorem duration_within :
    List.Forall₂ Bounds.Encloses
        (if f.hasFixedTimes then [] else [⟨Problem.minimumHorizon, Scalar.infinity⟩])
        (if f.hasFixedTimes then [] else [tr.finalTime - tr.initialTime]) ↔
      ((∀ s ∈ d.times, ¬ (s.1.interval.isFixed ∧ s.2.interval.isFixed)) →
        Problem.minimumHorizon ≤ tr.finalTime - tr.initialTime) := by
  obtain ⟨s, hs, htimes⟩ := Option.map_eq_some_iff.mp hf.times
  obtain ⟨h0, h1⟩ := Prod.mk.inj htimes
  have hfixed : f.hasFixedTimes = true ↔ s.1.interval.isFixed ∧ s.2.interval.isFixed := by
    rw [Functions.hasFixedTimes, h0, h1, Bool.and_eq_true]
  split_ifs with h
  · simp [hs, hfixed.mp h]
  · have hfree : ∀ s ∈ d.times, ¬ (s.1.interval.isFixed ∧ s.2.interval.isFixed) := by
      intro s' hs'
      obtain rfl : s = s' := by simpa [hs] using hs'
      exact fun hboth => h (hfixed.mpr hboth)
    rw [List.forall₂_cons, and_iff_left .nil, imp_iff_right hfree]
    exact and_iff_left_of_imp fun hle => Extended.le_infinity hle

theorem point_within :
    List.Forall₂ Bounds.Encloses (defectBounds f m k ++ (kinematicBounds f ++ pathBounds f))
        (tr.defectsAt f m k ++ (tr.kinematicAt f m k ++ tr.pathAt f m k)) ↔
      (k + 1 < m.numPoints → ∀ i < d.states.length, tr.defectAt f m k i = 0.0) ∧
      (∀ e ∈ tr.kinematicAt f m k, e = 0.0) ∧
      List.Forall₂ (fun g c => List.Forall₂ Bounds.Encloses
        (c.bounds.componentIntervals g.function.length) (g.function.at (tr.pointAt m k)))
        f.path d.path := by
  rw [forall₂_append (length_defectBounds tr k), forall₂_append (length_kinematicBounds tr k hf),
    defects_within tr k hf, kinematic_within tr k hf, path_within tr k hf]

omit k in
/-- The constraints of a trajectory are within their bounds exactly if all of them hold. -/
theorem constraints_within (ht : t.Trapezoidal p f m) :
    List.Forall₂ Bounds.Encloses (t.trapezoidalProgram m).constraintBounds (tr.constraints f m) ↔
      d.Satisfied f m tr := by
  have hlength (k : Nat) : (defectBounds f m k ++ (kinematicBounds f ++ pathBounds f)).length =
      (tr.defectsAt f m k ++ (tr.kinematicAt f m k ++ tr.pathAt f m k)).length := by
    rw [List.length_append, List.length_append, List.length_append, List.length_append,
      length_defectBounds tr k, length_kinematicBounds (m := m) tr k hf,
      length_pathBounds (m := m) tr k hf]
  have hall : ((List.range m.numPoints).flatMap fun k =>
        defectBounds f m k ++ (kinematicBounds f ++ pathBounds f)).length =
      ((List.range m.numPoints).flatMap fun k =>
        tr.defectsAt f m k ++ (tr.kinematicAt f m k ++ tr.pathAt f m k)).length := by
    simp only [List.length_flatMap, hlength]
  rw [constraintBounds_eq ht, Trajectory.constraints, forall₂_append hall,
    forall₂_flatMap fun k _ => hlength k, duration_within tr hf]
  simp only [List.mem_range, point_within tr _ hf]
  constructor
  · rintro ⟨hpoints, hduration⟩
    exact ⟨fun k hk => (hpoints k (by omega)).1 hk, fun k hk => (hpoints k hk).2.1,
      fun k hk => (hpoints k hk).2.2, hduration⟩
  · rintro ⟨hdefects, hkinematic, hpath, hduration⟩
    exact ⟨fun k hk => ⟨hdefects k, hkinematic k hk, hpath k hk⟩, hduration⟩

end Constraints

/-- The vectors that the program of a problem admits are exactly those whose trajectories satisfy
everything that the calls of the problem declare. -/
theorem admits_iff_feasible {calls : List (Problem.Call Extended)} {name : Value Extended}
    {p : Problem Extended} (hcalls : (Edit.sequence Problem.Call.run calls).Yields { name } () p)
    {r : Registry Extended} {solver : Solver Extended} {t : Transcription Extended}
    (hcreate : create r solver p = .ok t) (hscheme : t.scheme = .trapezoidal) :
    ∃ f prog, p.functions = .ok f ∧ f.Of (.ofCalls calls) ∧
      t.program = .ok prog ∧ prog.layout = t.layout ∧
      ∀ w, w.length = t.layout.size → ∃ tr, t.layout.split w = .ok tr ∧
        tr.Fits f solver.mesh ∧ t.evaluateConstraints w = .ok (prog.constraints w) ∧
        (prog.Admits w ↔ (Declared.ofCalls calls).Feasible f solver.mesh tr) := by
  have hp := Problem.holds_ofCalls hcalls
  obtain ⟨f, hf, hof, ht⟩ := create_eq_ok hp hcreate hscheme
  refine ⟨f, t.trapezoidalProgram solver.mesh, hf, hof, ht.program_eq, rfl, fun w hw => ?_⟩
  refine ⟨t.layout.trajectoryOf w, if_pos hw, ht.fits hw, ?_, ?_⟩
  · have hcheck : t.checkVector w = .ok w := if_pos hw
    rw [evaluateConstraints, ht.program_eq, hcheck]
    rfl
  · have hlayout : (t.trapezoidalProgram solver.mesh).layout = t.layout := rfl
    rw [Program.admits_iff, hlayout, variables_within hp hof ht hw, constraints_eq ht hw hof,
      constraints_within _ hof ht]
    constructor
    · rintro ⟨hwithin, hsatisfied⟩
      exact ⟨hwithin, hsatisfied⟩
    · rintro ⟨hwithin, hsatisfied⟩
      exact ⟨hwithin, hsatisfied⟩

theorem admits_iff_feasible_sample :
    ∃ t, create .initial Sample.solver Sample.problem = .ok t ∧
      ∃ f prog, Sample.problem.functions = .ok f ∧ f.Of (.ofCalls Sample.calls) ∧
        t.program = .ok prog ∧ prog.layout = t.layout ∧
        ∀ w, w.length = t.layout.size → ∃ tr, t.layout.split w = .ok tr ∧
          tr.Fits f Sample.solver.mesh ∧ t.evaluateConstraints w = .ok (prog.constraints w) ∧
          (prog.Admits w ↔ (Declared.ofCalls Sample.calls).Feasible f Sample.solver.mesh tr) := by
  obtain ⟨t, ht, hscheme⟩ := Sample.created
  exact ⟨t, ht, admits_iff_feasible Sample.declared ht hscheme⟩

end Transcription

end Collocation
