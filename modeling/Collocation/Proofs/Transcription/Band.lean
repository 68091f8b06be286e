import Collocation.Proofs.Transcription.Reading

/-! Which entries of a decision vector a constraint depends on.  Vectors that agree on the variables
of a point, the times and the parameters have the same point of the trajectory there, so a
constraint at a point has the same value at both; a defect also depends on the point behind it. -/

namespace Collocation

variable {α : Type} [Scalar α]

namespace Layout

/-- Where the variables of point `k` end: at the next point or, after the last one, at the times. -/
def endOf (l : Layout α) (k : Nat) : Nat :=
  if k + 1 < l.points then l.startOf (k + 1) else l.initialTimeIndex

/-- The variables of the points from `first` to `last`. -/
def pointsRange (l : Layout α) (first last : Nat) : Range := ⟨l.startOf first, l.endOf last⟩

/-- The times and the parameters. -/
def globalRange (l : Layout α) : Range := ⟨l.initialTimeIndex, l.size⟩

namespace Arranged

variable {l : Layout α} {n : Nat} {d : Dimensions} {ks : List Nat} {a : Arrangement α}
  {w w' : List α} {k : Nat} (h : l.Arranged n d ks a)
include h

/-- The places of a point end where the next point or the times start. -/
theorem stop_le_endOf (hk : k < n) : ∀ r ∈ l.pointPlaces k, r.stop ≤ l.endOf k := by
  intro r hr
  obtain ⟨-, hpairs⟩ := h.tiles.pairwise
  rw [places, List.pairwise_append, List.pairwise_flatMap] at hpairs
  obtain ⟨⟨-, hpoints⟩, -, hglobal⟩ := hpairs
  have hrange : k < (List.range l.points).length := by rw [List.length_range, h.points]; exact hk
  unfold endOf
  split_ifs with hnext
  · have hnext' : k + 1 < (List.range l.points).length := by rwa [List.length_range]
    have hpair := List.pairwise_iff_getElem.mp hpoints k (k + 1) hrange hnext' (Nat.lt_succ_self k)
    rw [List.getElem_range, List.getElem_range] at hpair
    exact hpair r hr (l.statePlace (k + 1)) List.mem_cons_self
  · refine hglobal r (List.mem_flatMap_of_mem ?_ hr) l.initialPlace List.mem_cons_self
    rwa [List.mem_range, h.points]

theorem start_le_endOf (hk : k < n) : l.startOf k ≤ l.endOf k :=
  Nat.le_trans (Nat.le_add_right _ _) (h.stop_le_endOf hk (l.statePlace k) List.mem_cons_self)

section Point

variable (hpoint : (l.pointsRange k k).Agree w w') (hk : k < n)
include hpoint hk

theorem stateAt_congr : l.stateAt w k = l.stateAt w' k := by
  rw [← statePlace_of, ← statePlace_of]
  exact hpoint.of_eq (Nat.le_refl _) (h.stop_le_endOf hk _ List.mem_cons_self)

theorem controlAt_congr : l.controlAt w k = l.controlAt w' k := by
  rw [← controlPlace_of, ← controlPlace_of]
  refine hpoint.of_eq (Nat.le_add_right _ _) (h.stop_le_endOf hk _ ?_)
  exact List.mem_cons_of_mem _ List.mem_cons_self

theorem multiplierAt_congr (hmem : k ∈ l.constrained) :
    l.multiplierAt w k = l.multiplierAt w' k := by
  rw [← multiplierPlace_of, ← multiplierPlace_of]
  refine hpoint.of_eq (Nat.le_trans (Nat.le_add_right _ _) (Nat.le_add_right _ _))
    (h.stop_le_endOf hk _ ?_)
  rw [pointPlaces, if_pos (List.contains_iff_mem.mpr hmem)]
  simp

end Point

section Global

variable (hglobal : l.globalRange.Agree w w')
include hglobal

theorem times_congr : entry w l.initialTimeIndex = entry w' l.initialTimeIndex ∧
    entry w l.finalTimeIndex = entry w' l.finalTimeIndex := by
  have hstop : l.initialTimeIndex + 1 < l.size :=
    h.tiles.stop_le l.finalPlace (by simp [places, globalPlaces])
  have hinitial := hglobal l.initialTimeIndex (Nat.le_refl _) (Nat.lt_of_succ_lt hstop)
  have hfinal := hglobal l.finalTimeIndex (Nat.le_succ _) hstop
  exact ⟨congrArg (·.getD 0.0) hinitial, congrArg (·.getD 0.0) hfinal⟩

theorem parameters_congr : l.parameterRange.of w = l.parameterRange.of w' :=
  hglobal.of_eq (Nat.le_add_right _ _)
    (h.tiles.stop_le l.parameterRange (by simp [places, globalPlaces]))

end Global

end Arranged

end Layout

/-- The value of a block depends on nothing but the entries of a decision vector in some ranges. -/
def Program.DependsOn (prog : Program α) (b : Block α) (rs : List Range) : Prop :=
  ∀ w w', w.length = prog.layout.size → w'.length = prog.layout.size →
    (∀ r ∈ rs, r.Agree w w') →
    b.value (prog.sample (prog.read w)) = b.value (prog.sample (prog.read w'))

namespace Transcription

/-- The constraints of point `k`. -/
def blockKinds (t : Transcription α) (k : Nat) : List BlockKind :=
  (if k + 1 < t.mesh.numPoints then [.defect] else [])
    ++ (if (k : Int) ∈ t.kinematicPoints then [.kinematic] else [])
    ++ List.replicate t.functions.path.length .path

/-- Every point has its blocks. A defect depends on its point, the next one, the times and the
parameters; the other constraints of a point depend on that point, the times and the parameters. -/
structure Banded (t : Transcription α) (prog : Program α) : Prop where
  kinds : prog.blocks.map (fun b => (b.point, b.kind)) =
    (List.range t.mesh.numPoints).flatMap (fun k => (t.blockKinds k).map (some k, ·))
      ++ if t.functions.hasFixedTimes then [] else [(none, .duration)]
  defect : ∀ b ∈ prog.blocks, ∀ k, b.kind = .defect → b.point = some k →
    prog.DependsOn b [prog.layout.pointsRange k (k + 1), prog.layout.globalRange]
  pointwise : ∀ b ∈ prog.blocks, ∀ k, b.kind = .kinematic ∨ b.kind = .path → b.point = some k →
    prog.DependsOn b [prog.layout.pointsRange k k, prog.layout.globalRange]

theorem kinds_pointBlocks (t : Transcription α) (k : Nat) :
    (t.pointBlocks k).map (fun b => (b.point, b.kind)) = (t.blockKinds k).map (some k, ·) := by
  have hdefect : (if k + 1 < t.mesh.numPoints then [t.defectBlock k] else []).map
      (fun b => (b.point, b.kind)) =
        (if k + 1 < t.mesh.numPoints then [BlockKind.defect] else []).map (some k, ·) := by
    split_ifs <;> rfl
  have hkinematic : (t.kinematicBlock? k).toList.map (fun b => (b.point, b.kind)) =
      (if (k : Int) ∈ t.kinematicPoints then [BlockKind.kinematic] else []).map (some k, ·) := by
    have hmem : (t.kinematicColumn? k).isSome ↔ (k : Int) ∈ t.kinematicPoints := by
      rw [kinematicColumn?, Option.isSome_iff_ne_none, ne_eq, List.idxOf?_eq_none_iff, not_not]
    rw [kinematicBlock?]
    cases hc : t.kinematicColumn? k with
    | none =>
      rw [hc] at hmem
      rw [if_neg fun hk => Bool.false_ne_true (hmem.mpr hk)]
      rfl
    | some c =>
      rw [hc] at hmem
      rw [if_pos (hmem.mp rfl)]
      rfl
  have hpath : (t.functions.path.mapIdx (pathBlock k)).map (fun b => (b.point, b.kind)) =
      (List.replicate t.functions.path.length BlockKind.path).map (some k, ·) := by
    rw [List.map_replicate, List.eq_replicate_iff]
    refine ⟨by simp, fun e he => ?_⟩
    obtain ⟨b, hb, rfl⟩ := List.mem_map.mp he
    obtain ⟨j, hj, rfl⟩ := List.mem_mapIdx.mp hb
    rfl
  rw [pointBlocks, blockKinds, List.map_append, List.map_append, List.map_append, List.map_append,
    hdefect, hkinematic, hpath]

theorem kinds_blocks (t : Transcription α) :
    (t.trapezoidalProgram t.mesh).blocks.map (fun b => (b.point, b.kind)) =
      (List.range t.mesh.numPoints).flatMap (fun k => (t.blockKinds k).map (some k, ·))
        ++ if t.functions.hasFixedTimes then [] else [(none, .duration)] := by
  have hduration : t.durationBlocks.map (fun b => (b.point, b.kind)) =
      if t.functions.hasFixedTimes then [] else [(none, .duration)] := by
    rw [durationBlocks]
    split_ifs <;> rfl
  rw [trapezoidalProgram, List.map_append, hduration, List.map_flatMap]
  simp only [kinds_pointBlocks]

namespace Placed

variable {t : Transcription α} {a : Arrangement α} {w w' : List α} {k c : Nat} (ht : t.Placed a)
  (hw : w.length = t.layout.size) (hw' : w'.length = t.layout.size)
  (hglobal : t.layout.globalRange.Agree w w')
include ht hglobal

theorem duration_congr : t.intervalDuration (t.read w) k = t.intervalDuration (t.read w') k := by
  obtain ⟨hinitial, hfinal⟩ := ht.layout.times_congr hglobal
  simp only [intervalDuration, Variables.duration, read, hinitial, hfinal]

include hw hw'

variable (hpoint : (t.layout.pointsRange k k).Agree w w') (hk : k < t.mesh.numPoints)
include hpoint hk

omit hglobal in
theorem states_congr : (t.read w).states.column k = (t.read w').states.column k := by
  rw [states_column ht.layout hw hk, states_column ht.layout hw' hk,
    ht.layout.stateAt_congr hpoint hk]

theorem point_congr : (t.read w).point k = (t.read w').point k := by
  obtain ⟨hinitial, hfinal⟩ := ht.layout.times_congr hglobal
  have hcontrols : (t.read w).controls.column k = (t.read w').controls.column k := by
    rw [controls_column ht.layout hw hk, controls_column ht.layout hw' hk,
      ht.layout.controlAt_congr hpoint hk]
  have htimes : (t.read w).times = (t.read w').times := by simp only [read, hinitial, hfinal]
  rw [Variables.point, Variables.point, ht.states_congr hw hw' hpoint hk, hcontrols, htimes]
  simp only [read, ht.layout.parameters_congr hglobal]

theorem derivatives_congr : (t.sample (t.read w)).derivatives.column k =
    (t.sample (t.read w')).derivatives.column k := by
  have hmultipliers : t.multipliersAt (t.read w) k = t.multipliersAt (t.read w') k := by
    rw [ht.multipliersAt_eq hw, ht.multipliersAt_eq hw']
    split_ifs with hmem
    · exact ht.layout.multiplierAt_congr hpoint hk hmem
    · rfl
  rw [ht.column_derivatives _ hk, ht.column_derivatives _ hk, derivativesAt, derivativesAt,
    hmultipliers, ht.point_congr hw hw' hglobal hpoint hk]

theorem kinematic_congr (hc : t.kinematicColumn? k = some c) :
    (t.sample (t.read w)).kinematic.column c = (t.sample (t.read w')).kinematic.column c := by
  obtain ⟨g, hg⟩ := ht.exists_kinematic hc
  rw [ht.column_kinematic _ hg hc, ht.column_kinematic _ hg hc,
    ht.point_congr hw hw' hglobal hpoint hk]

theorem path_congr {j : Nat} {q : PathFunction α} (hq : t.functions.path[j]? = some q) :
    ((t.sample (t.read w)).path[j]?.map (·.column k)).getD [] =
      ((t.sample (t.read w')).path[j]?.map (·.column k)).getD [] := by
  rw [column_path _ hk hq, column_path _ hk hq, ht.point_congr hw hw' hglobal hpoint hk]

theorem defect_congr (hnext : k + 1 < t.mesh.numPoints)
    (hpoint' : (t.layout.pointsRange (k + 1) (k + 1)).Agree w w') :
    t.defect k (t.sample (t.read w)) = t.defect k (t.sample (t.read w')) := by
  have hdecision (v : Variables α) : (t.sample v).decision = v := rfl
  simp only [defect, hdecision]
  rw [ht.states_congr hw hw' hpoint hk, ht.states_congr hw hw' hpoint' hnext,
    ht.derivatives_congr hw hw' hglobal hpoint hk,
    ht.derivatives_congr hw hw' hglobal hpoint' hnext, ht.duration_congr hglobal]

omit hglobal hw hw' hpoint in
/-- Vectors that agree on a point and the next one agree on each of them. -/
theorem agree_next (hnext : k + 1 < t.mesh.numPoints)
    (h : (t.layout.pointsRange k (k + 1)).Agree w w') :
    (t.layout.pointsRange k k).Agree w w' ∧ (t.layout.pointsRange (k + 1) (k + 1)).Agree w w' := by
  have hend : t.layout.endOf k = t.layout.startOf (k + 1) := if_pos (ht.layout.points.symm ▸ hnext)
  have hfirst := ht.layout.start_le_endOf hk
  have hsecond := ht.layout.start_le_endOf hnext
  constructor
  · exact h.mono (Nat.le_refl _) (hend.trans_le hsecond)
  · exact h.mono (hfirst.trans_eq hend) (Nat.le_refl _)

end Placed

/-- What a constraint depends on, whatever the functions of a problem are, on every mesh and for
every scheme that makes the constraints of the trapezoidal rule: two decision vectors that agree on
a point, the times and the parameters have the same kinematic and path constraints there, and if
they agree on the next point as well, the same defect.  There are no constraints, at any vector,
only where kinematic constraints stand without multipliers. -/
theorem banded {r : Registry α} {solver : Solver α} {p : Problem α} {t : Transcription α}
    (h : create r solver p = .ok t) (hstandard : t.scheme.constraints = .standard) :
    (∀ prog, t.program = .ok prog → prog.layout = t.layout ∧ t.Banded prog ∧
      ∀ w, w.length = t.layout.size → t.evaluateConstraints w =
        .ok (prog.blocks.flatMap fun b => b.value (prog.sample (prog.read w)))) ∧
    (∀ fault, t.program = .error fault → ∀ w, t.evaluateConstraints w = .error fault) ∧
    ((∃ prog, t.program = .ok prog) ↔
      t.kinematicPoints = [] ∨ t.functions.sizes.multipliers ≠ 0) := by
  have ht := placed_of_create h
  refine ⟨fun prog hprogram => ?holds, fun fault hfault w => ?fails, ?made⟩
  case made =>
    simp only [program_standard_iff hstandard, exists_and_left, exists_eq, and_true]
    exact hasMultipliers_iff h
  case fails =>
    rw [evaluateConstraints, hfault]
    rfl
  obtain ⟨-, rfl⟩ := (program_standard_iff hstandard).mp hprogram
  refine ⟨rfl, ⟨kinds_blocks t, forall_blocks (fun k hk => ?defect) fun j hkind _ => ?horizon,
    forall_blocks (fun k hk => ?pointwise) fun j hkind _ => ?duration⟩,
    fun w hw => constraints_of_program hprogram hw⟩
  case horizon => cases hkind
  case duration => rcases hkind with hkind | hkind <;> cases hkind
  case defect =>
    refine forall_pointBlocks (fun hnext j _ hj => ?_) (fun c hc j hkind _ => ?kinematic)
      fun i q hq j hkind _ => ?path
    case kinematic => cases hkind
    case path => cases hkind
    obtain rfl : k = j := Option.some.inj hj
    intro w w' hw hw' hagree
    obtain ⟨hpoint, hpoint'⟩ := ht.agree_next hk hnext (hagree _ List.mem_cons_self)
    have hglobal := hagree _ (List.mem_cons_of_mem _ List.mem_cons_self)
    exact ht.defect_congr hw hw' hglobal hpoint hk hnext hpoint'
  case pointwise =>
    refine forall_pointBlocks (fun _ j hkind _ => ?_) (fun c hc j _ hj => ?_)
      fun i q hq j _ hj => ?_
    · rcases hkind with hkind | hkind <;> cases hkind
    · obtain rfl : k = j := Option.some.inj hj
      intro w w' hw hw' hagree
      have hglobal := hagree _ (List.mem_cons_of_mem _ List.mem_cons_self)
      exact ht.kinematic_congr hw hw' hglobal (hagree _ List.mem_cons_self) hk hc
    · obtain rfl : k = j := Option.some.inj hj
      intro w w' hw hw' hagree
      have hglobal := hagree _ (List.mem_cons_of_mem _ List.mem_cons_self)
      exact ht.path_congr hw hw' hglobal (hagree _ List.mem_cons_self) hk hq

theorem banded_sample : ∃ t prog, create .initial Sample.solver Sample.problem = .ok t ∧
    t.program = .ok prog ∧ t.Banded prog := by
  obtain ⟨t, ht, hscheme⟩ := Sample.created
  have hprog := program_of_declared (Problem.holds_ofCalls Sample.declared) ht hscheme
  obtain ⟨-, hbanded, -⟩ := (banded ht (standard_of_trapezoidal hscheme)).1 _ hprog
  exact ⟨t, _, ht, hprog, hbanded⟩

end Transcription

end Collocation
