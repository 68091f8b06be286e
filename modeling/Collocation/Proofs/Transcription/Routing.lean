import Collocation.Proofs.Layout.Contents
import Collocation.Proofs.Transcription.Creation

/-! What a program reads from a decision vector.  The scheme keeps the constrained points in an
order of its own and the layout in increasing order; at every point both find the same states,
controls and multipliers, so functions are evaluated at the points of the trajectory that the layout
splits off, with the multipliers of these points.
-/

namespace Collocation

variable {α : Type} [Scalar α]

omit [Scalar α] in
/-- A column of columns of one height. -/
theorem Columns.column_beside {n j : Nat} {columns : List (List α)} {c : List α}
    (h : ∀ c ∈ columns, c.length = n) (hj : columns[j]? = some c) :
    (beside n columns).column j = c := by
  induction columns generalizing j with
  | nil => simp at hj
  | cons first rest ih =>
    have hfirst : first.length = n := h first (by simp)
    cases j with
    | zero =>
      obtain rfl : first = c := by simpa using hj
      simp [column, beside, hfirst]
    | succ j =>
      have hdrop : (first ++ rest.flatten).drop ((j + 1) * n) = rest.flatten.drop (j * n) := by
        rw [Nat.succ_mul, Nat.add_comm, ← List.drop_drop, ← hfirst, List.drop_left]
      rw [column, beside, List.flatten_cons, hdrop]
      exact ih (fun c hc => h c (by simp [hc])) (by simpa using hj)

omit [Scalar α] in
/-- A column that is made for point `k` of a mesh. -/
theorem Columns.column_beside_range {n k points : Nat} {f : Nat → List α}
    (h : ∀ k < points, (f k).length = n) (hk : k < points) :
    (beside n ((List.range points).map f)).column k = f k := by
  refine column_beside ?_ ?_
  · simpa using h
  · simp [hk]

/-- Point `k` of a trajectory on a mesh, without multipliers. -/
def Trajectory.pointAt (tr : Trajectory α) (m : Mesh α) (k : Nat) : Point α where
  time := Layout.entry (m.times tr.initialTime tr.finalTime) k
  state := tr.states[k]?.getD []
  control := tr.controls[k]?.getD []
  parameter := tr.parameters

namespace Transcription

section Arranged

variable {t : Transcription α} {m : Mesh α} {n : Nat} {sizes : Dimensions} {ks : List Nat}
  {a : Arrangement α} {w : List α} {k : Nat}

section Rows

variable (hl : t.layout.Arranged n sizes ks a) (hw : w.length = t.layout.size) (hk : k < n)
include hl hk

theorem states_row :
    (t.layout.trajectoryOf w).states[k]?.getD [] = t.layout.stateAt w k := by
  simp [Layout.trajectoryOf, hl.points, hk]

theorem controls_row :
    (t.layout.trajectoryOf w).controls[k]?.getD [] = t.layout.controlAt w k := by
  simp [Layout.trajectoryOf, hl.points, hk]

include hw

theorem states_column : (t.read w).states.column k = t.layout.stateAt w k := by
  rw [read, hl.points, hl.sizes]
  exact Columns.column_beside_range (fun j hj => hl.length_stateAt hj hw) hk

theorem controls_column : (t.read w).controls.column k = t.layout.controlAt w k := by
  rw [read, hl.points, hl.sizes]
  exact Columns.column_beside_range (fun j hj => hl.length_controlAt hj hw) hk

end Rows

/-- The program and the layout find the same point of the trajectory. -/
theorem point_eq (hmesh : t.mesh = m) (hl : t.layout.Arranged m.numPoints sizes ks a)
    (hw : w.length = t.layout.size) (hk : k < m.numPoints) :
    (t.read w).point k = (t.layout.trajectoryOf w).pointAt m k := by
  rw [Variables.point, Trajectory.pointAt, states_column hl hw hk, controls_column hl hw hk,
    states_row hl hk, controls_row hl hk]
  simp only [read, Layout.trajectoryOf, hmesh, Layout.entry]

end Arranged

/-- The parts of a transcription fit together: each of its functions has as many components as there
are variables for them, its layout has every variable in its place, and the layout holds the points
of the scheme. -/
structure Placed (t : Transcription α) (a : Arrangement α) : Prop where
  counted : t.functions.Counted
  unconstrained : t.functions.kinematic = none → t.kinematicPoints = []
  constrained : LayoutBuilder.Constrained t.mesh.numPoints t.functions.sizes.multipliers
    t.kinematicPoints t.layout.constrained
  layout : t.layout.Arranged t.mesh.numPoints t.functions.sizes t.layout.constrained a

/-- Transcriptions by all schemes are such. -/
theorem placed_of_create {r : Registry α} {solver : Solver α} {p : Problem α} {t : Transcription α}
    (h : create r solver p = .ok t) : t.Placed (p.arrangement t.functions) := by
  obtain ⟨hf, -, -, hconstrained, harranged⟩ := create_layout h
  refine ⟨(Problem.functions_eq_ok.mp hf).counted, fun hnone => ?_, hconstrained, harranged⟩
  obtain ⟨index, f, points, quadrature, layout, -, hpoints, -, -, rfl⟩ := create_parts h
  have hkinematic : f.kinematic = none := hnone
  rw [hkinematic] at hpoints
  exact (Except.pure_eq_ok.mp hpoints).symm

namespace Placed

variable {t : Transcription α} {a : Arrangement α} {w : List α} {k c : Nat} (ht : t.Placed a)
include ht

theorem sizes_eq : t.layout.sizes = t.functions.sizes := ht.layout.sizes

/-- Where there are multipliers, the points of the scheme are those of the layout. -/
theorem mem_kinematicPoints (hm : t.functions.sizes.multipliers ≠ 0) :
    (k : Int) ∈ t.kinematicPoints ↔ k ∈ t.layout.constrained := by
  rw [ht.constrained.mem_iff, and_iff_left hm]

omit ht [Scalar α] in
theorem getElem?_of_column (hc : t.kinematicColumn? k = some c) :
    t.kinematicPoints[c]? = some (k : Int) := by
  obtain ⟨hlt, hget, -⟩ := List.idxOf?_eq_some_iff.mp hc
  rw [List.getElem?_eq_getElem hlt]
  exact congrArg some hget

/-- Points of the scheme stand for kinematic constraints. -/
theorem exists_kinematic (hc : t.kinematicColumn? k = some c) :
    ∃ g, t.functions.kinematic = some g := by
  rw [← Option.isSome_iff_exists, Option.isSome_iff_ne_none]
  intro hnone
  have hget := getElem?_of_column hc
  rw [ht.unconstrained hnone] at hget
  cases hget

/-- The scheme has a column for each point that the layout has multipliers at, and for no other. -/
theorem isSome_kinematicColumn (hm : t.functions.sizes.multipliers ≠ 0) :
    (t.kinematicColumn? k).isSome ↔ k ∈ t.layout.constrained := by
  rw [← ht.mem_kinematicPoints hm, kinematicColumn?, Option.isSome_iff_ne_none, ne_eq,
    List.idxOf?_eq_none_iff, not_not]

variable (hw : w.length = t.layout.size)
include hw

/-- The column of a point holds the multipliers that stand at its place in the layout. -/
theorem multipliers_column (hc : t.kinematicColumn? k = some c) :
    (t.read w).multipliers.column c =
      if k ∈ t.layout.constrained then t.layout.multiplierAt w k
      else List.replicate t.functions.sizes.multipliers 0.0 := by
  by_cases hm : t.functions.sizes.multipliers = 0
  · have hnone := ht.constrained.none hm
    simp [read, Columns.column, Columns.beside, ht.sizes_eq, hm, hnone]
  · have hmem : k ∈ t.layout.constrained :=
      (ht.isSome_kinematicColumn hm).mp (Option.isSome_iff_exists.mpr ⟨c, hc⟩)
    rw [if_pos hmem, read, ht.sizes_eq]
    refine Columns.column_beside ?_ ?_
    · intro row hrow
      obtain ⟨i, hi, rfl⟩ := List.mem_map.mp hrow
      obtain ⟨j, hj, rfl⟩ := List.mem_map.mp ((ht.constrained.perm hm).mem_iff.mpr hi)
      exact ht.layout.length_multiplierAt (ht.constrained.inside j hj) hw hj
    · rw [List.getElem?_map, getElem?_of_column hc]
      rfl

/-- The dynamics see the multipliers of their point, or zeros where it has none. -/
theorem multipliersAt_eq : t.multipliersAt (t.read w) k =
    if k ∈ t.layout.constrained then t.layout.multiplierAt w k
    else List.replicate t.functions.sizes.multipliers 0.0 := by
  rw [multipliersAt]
  cases hc : t.kinematicColumn? k with
  | some c => exact ht.multipliers_column hw hc
  | none =>
    have hnot : k ∉ t.layout.constrained := by
      intro hk
      by_cases hm : t.functions.sizes.multipliers = 0
      · rw [ht.constrained.none hm] at hk
        cases hk
      · have hsome := (ht.isSome_kinematicColumn hm).mpr hk
        rw [hc] at hsome
        cases hsome
    rw [if_neg hnot]

omit hw

theorem column_derivatives (v : Variables α) (hk : k < t.mesh.numPoints) :
    (t.sample v).derivatives.column k = t.derivativesAt v k := by
  refine Columns.column_beside_range (f := t.derivativesAt v) (fun j _ => ?_) hk
  rw [derivativesAt, VectorFunction.length_at, ht.counted.dynamics]

theorem column_kinematic (v : Variables α) {g : VectorFunction (Point α) α}
    (hg : t.functions.kinematic = some g) (hc : t.kinematicColumn? k = some c) :
    (t.sample v).kinematic.column c = g.at (v.point k) := by
  simp only [sample, kinematicErrors, hg]
  refine Columns.column_beside ?_ ?_
  · intro row hrow
    obtain ⟨i, -, rfl⟩ := List.mem_map.mp hrow
    rw [VectorFunction.length_at, ht.counted.kinematic g hg]
  · rw [List.getElem?_map, getElem?_of_column hc]
    rfl

omit ht in
theorem column_path (v : Variables α) (hk : k < t.mesh.numPoints) {j : Nat} {q : PathFunction α}
    (hq : t.functions.path[j]? = some q) :
    ((t.sample v).path[j]?.map (·.column k)).getD [] = q.function.at (v.point k) := by
  simp only [sample, List.getElem?_map, hq, Option.map_some, Option.getD_some]
  refine Columns.column_beside_range (f := fun i => q.function.at (v.point i)) (fun i _ => ?_) hk
  rw [VectorFunction.length_at]

section Trajectory

variable (hw : w.length = t.layout.size)
include hw

omit ht hw in
theorem row_multipliers {j : Nat} (hj : t.layout.constrained[j]? = some k) :
    (t.layout.trajectoryOf w).multipliers[j]?.getD [] = t.layout.multiplierAt w k := by
  simp [Layout.trajectoryOf, hj]

/-- At a constrained point the dynamics see the row of multipliers that the layout splits off for
it. -/
theorem derivatives_constrained {j : Nat} (hj : t.layout.constrained[j]? = some k) :
    (t.sample (t.read w)).derivatives.column k = t.functions.dynamics.at
      { (t.layout.trajectoryOf w).pointAt t.mesh k with
        multiplier := (t.layout.trajectoryOf w).multipliers[j]?.getD [] } := by
  have hmem : k ∈ t.layout.constrained := List.mem_of_getElem? hj
  have hk := ht.constrained.inside k hmem
  rw [ht.column_derivatives _ hk, derivativesAt, ht.multipliersAt_eq hw, if_pos hmem,
    point_eq rfl ht.layout hw hk, row_multipliers hj]

/-- At the other points the dynamics see zeros. -/
theorem derivatives_free (hk : k < t.mesh.numPoints) (hnot : k ∉ t.layout.constrained) :
    (t.sample (t.read w)).derivatives.column k = t.functions.dynamics.at
      { (t.layout.trajectoryOf w).pointAt t.mesh k with
        multiplier := List.replicate t.functions.sizes.multipliers 0.0 } := by
  rw [ht.column_derivatives _ hk, derivativesAt, ht.multipliersAt_eq hw, if_neg hnot,
    point_eq rfl ht.layout hw hk]

/-- The kinematic blocks of a point: one with the errors there, if the point is constrained. -/
theorem kinematic_at {g : VectorFunction (Point α) α} (hg : t.functions.kinematic = some g)
    (hm : t.functions.sizes.multipliers ≠ 0) (hk : k < t.mesh.numPoints) :
    (t.kinematicBlock? k).toList.map (fun b => (b.point, b.value (t.sample (t.read w)))) =
      if k ∈ t.layout.constrained then
        [(some k, g.at ((t.layout.trajectoryOf w).pointAt t.mesh k))]
      else [] := by
  have hmem := ht.isSome_kinematicColumn (k := k) hm
  cases hc : t.kinematicColumn? k with
  | none =>
    rw [hc] at hmem
    rw [if_neg fun hk => Bool.false_ne_true (hmem.mpr hk), kinematicBlock?, hc]
    rfl
  | some c =>
    rw [hc] at hmem
    rw [if_pos (hmem.mp rfl), ← point_eq rfl ht.layout hw hk, ← ht.column_kinematic _ hg hc,
      kinematicBlock?, hc]
    rfl

end Trajectory

omit ht in
theorem filter_kinematic (k : Nat) : (t.pointBlocks k).filter (·.kind = .kinematic) =
    (t.kinematicBlock? k).toList := by
  have hdefect : (if k + 1 < t.mesh.numPoints then [t.defectBlock k] else []).filter
      (·.kind = .kinematic) = [] := by
    split_ifs <;> rfl
  have hkinematic : (t.kinematicBlock? k).toList.filter (·.kind = .kinematic) =
      (t.kinematicBlock? k).toList := by
    refine List.filter_eq_self.mpr fun b hb => ?_
    obtain ⟨c, -, rfl⟩ := Option.map_eq_some_iff.mp (Option.mem_toList.mp hb)
    rfl
  have hpath : (t.functions.path.mapIdx (pathBlock k)).filter (·.kind = .kinematic) = [] := by
    refine List.filter_eq_nil_iff.mpr fun b hb => ?_
    obtain ⟨j, -, rfl⟩ := List.mem_mapIdx.mp hb
    exact Bool.false_ne_true
  rw [pointBlocks, List.filter_append, List.filter_append, hdefect, hkinematic, hpath,
    List.nil_append, List.append_nil]

/-- There is one kinematic block for each constrained point, in increasing order, with the errors at
this point. -/
theorem kinematic_blocks (hw : w.length = t.layout.size) {g : VectorFunction (Point α) α}
    (hg : t.functions.kinematic = some g) (hm : t.functions.sizes.multipliers ≠ 0) :
    ((t.trapezoidalProgram t.mesh).blocks.filter (·.kind = .kinematic)).map
      (fun b => (b.point, b.value (t.sample (t.read w)))) =
    t.layout.constrained.map fun k =>
      (some k, g.at ((t.layout.trajectoryOf w).pointAt t.mesh k)) := by
  have hduration : t.durationBlocks.filter (·.kind = .kinematic) = [] := by
    unfold durationBlocks
    split_ifs <;> rfl
  rw [trapezoidalProgram, List.filter_append, hduration, List.append_nil, List.filter_flatMap]
  simp only [filter_kinematic, List.map_flatMap]
  rw [List.flatMap_congr fun k hk => ht.kinematic_at hw hg hm (List.mem_range.mp hk),
    flatMap_if_singleton, ht.constrained.filter_range]

end Placed

end Transcription

end Collocation
