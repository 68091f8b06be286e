import Collocation.Proofs.Layout.Acceptance
import Collocation.Proofs.Transcription.Reading
import Mathlib.Algebra.BigOperators.Group.List.Basic

/-! Transcriptions that are made.  The functions of a problem fit its variables, so all checks of a
layout pass, and what a scheme adds to them decides whether a transcription is made; its program has
bounds for each variable and for each entry of every constraint. -/

namespace Collocation

variable {α : Type} [Scalar α]

omit [Scalar α] in
theorem LayoutBuilder.suits_ofTexts {names : List String} {n : Nat} (h : names.length = n) :
    LayoutBuilder.Suits (.ofTexts names : Value α) n :=
  .inr ⟨congrArg Except.ok (by rw [List.length_map, h]), _, rfl⟩

/-- The bounds and names of a problem are as many as its variables. -/
theorem Problem.Makes.suits {p : Problem α} {f : Functions α} (h : p.Makes f) :
    ∀ c ∈ p.setters f, c.Suits f.sizes := by
  have hsizes := h.sizes_eq
  intro c hc
  simp only [setters, List.mem_cons, List.not_mem_nil, or_false] at hc
  rcases hc with rfl | rfl | rfl | rfl | rfl | rfl
  · exact ⟨by simp [hsizes, sizes], by simp [hsizes, sizes], by simp [hsizes, sizes]⟩
  · exact ⟨by simp [hsizes, sizes], by simp [hsizes, sizes], by simp [hsizes, sizes]⟩
  · simp [LayoutBuilder.Setter.Suits, hsizes, sizes]
  · simp [LayoutBuilder.Setter.Suits, hsizes, sizes]
  · trivial
  · exact ⟨LayoutBuilder.suits_ofTexts rfl, LayoutBuilder.suits_ofTexts rfl,
      LayoutBuilder.suits_ofTexts rfl, LayoutBuilder.suits_ofTexts rfl⟩

namespace Transcription

section Layout

variable {p : Problem α} {f : Functions α} {n : Nat} {points : List Int}

theorem namedPoints_ints (points : List Int) :
    LayoutBuilder.namedPoints (.list (points.map .int) : Value α) = .ok points :=
  LayoutBuilder.namedPoints_eq_ok rfl

theorem exists_layoutOf (hf : p.Makes f) (hpoints : LayoutBuilder.MeshPoints n points)
    (hd : f.sizes.Storable α) : ∃ l, layoutOf f p n points = .ok l := by
  have hnamed : LayoutBuilder.namedPoints (.list (points.map .int) : Value α) = .ok points :=
    namedPoints_ints points
  obtain ⟨b, hb⟩ := LayoutBuilder.exists_ofRequest hnamed hpoints hd
  obtain ⟨b', l, hyields, hl⟩ := LayoutBuilder.exists_build hb hf.suits
  exact ⟨l, layoutOf_eq_ok.mpr ⟨b, b', hb, hyields, hl⟩⟩

/-- For points of the mesh the layout of a problem is refused only where memory does not last. -/
theorem layoutOf_not_raises (hf : p.Makes f) (hpoints : LayoutBuilder.MeshPoints n points) :
    ¬ Raises (layoutOf f p n points) .dataIntegrity := by
  rw [layoutOf_eq]
  refine not_raises_bind (LayoutBuilder.ofRequest_not_raises (namedPoints_ints points) hpoints) ?_
  intro b hb
  obtain ⟨b', l, hyields, hl⟩ := LayoutBuilder.exists_build hb hf.suits
  rw [hyields]
  simp only [hl]
  exact not_raises_ok l

theorem layoutOf_raises (hm : f.sizes.multipliers ≠ 0)
    (hpoints : ¬ LayoutBuilder.MeshPoints n points) :
    Raises (layoutOf f p n points) .dataIntegrity := by
  rw [layoutOf_eq]
  exact (LayoutBuilder.ofRequest_raises (namedPoints_ints points) hm hpoints).bind

end Layout

/-- The scheme of a solver is found in a registry, and it accepts the configuration. -/
def Accepted (r : Registry α) (solver : Solver α) (s : Scheme α) : Prop :=
  ∃ i, r.find solver.scheme = .ok i ∧ r.schemeAt i = s ∧
    checkConfiguration s (r.displayName i) solver = .ok ()

section Creation

variable {r : Registry α} {solver : Solver α} {s : Scheme α} {p : Problem α} {f : Functions α}
  {points : List Int} {t : Transcription α}
  (haccepted : Accepted r solver s) (hf : p.functions = .ok f)
include haccepted

theorem create_scheme_eq (h : create r solver p = .ok t) : t.scheme = s := by
  obtain ⟨i, hi, hs, -⟩ := haccepted
  rw [create_scheme hi h, hs]

theorem program_of_create (hstandard : s.constraints = .standard)
    (h : create r solver p = .ok t) (hmultipliers : t.HasMultipliers) :
    t.program = .ok (t.trapezoidalProgram t.mesh) :=
  program_of_standard (by rw [create_scheme_eq haccepted h, hstandard]) hmultipliers

variable
  (hpoints : (if f.kinematic.isSome then kinematicPointsOf s solver.mesh else pure []) = .ok points)
  (hquadrature : s.quadrature = none) (hmesh : 0 < solver.mesh.numPoints)
include hf hpoints hquadrature hmesh

/-- With an accepted configuration all that is left to be checked is the layout. -/
theorem create_eq : ∃ make : Layout α → Transcription α,
    create r solver p = (do return make (← layoutOf f p solver.mesh.numPoints points)) := by
  obtain ⟨i, hi, rfl, hchecked⟩ := haccepted
  have hq := quadratureOf_eq hquadrature hmesh
  refine ⟨fun layout => {
    schemeIndex := i, scheme := r.schemeAt i, solver, problemName := p.name, functions := f
    kinematicPoints := points, quadrature := trapezoidalWeights solver.mesh.intervals, layout }, ?_⟩
  have hfound : p.functionsIn (fun _ x => x) = .ok f := hf
  rw [create, createIn, hi]
  simp only [monadLift_self, bind, Except.bind, hchecked, hfound, hq]
  split_ifs at hpoints ⊢ with hkinematic
  · rw [hpoints]
  · obtain rfl := Except.pure_eq_ok.mp hpoints
    rfl

theorem exists_create (hin : LayoutBuilder.MeshPoints solver.mesh.numPoints points)
    (hd : f.sizes.Storable α) : ∃ t, create r solver p = .ok t := by
  obtain ⟨make, heq⟩ := create_eq haccepted hf hpoints hquadrature hmesh
  obtain ⟨l, hl⟩ := exists_layoutOf (Problem.functions_eq_ok.mp hf) hin hd
  exact ⟨make l, by rw [heq, hl]; rfl⟩

theorem create_not_raises (hin : LayoutBuilder.MeshPoints solver.mesh.numPoints points) :
    ¬ Raises (create r solver p) .dataIntegrity := by
  obtain ⟨make, heq⟩ := create_eq haccepted hf hpoints hquadrature hmesh
  rw [heq]
  refine not_raises_bind (layoutOf_not_raises (Problem.functions_eq_ok.mp hf) hin) fun _ _ => ?_
  exact not_raises_ok _

theorem program_not_raises (hstandard : s.constraints = .standard)
    (hin : LayoutBuilder.MeshPoints solver.mesh.numPoints points)
    (hmultipliers : ∀ t, create r solver p = .ok t → t.HasMultipliers) :
    ¬ Raises (create r solver p >>= program) .dataIntegrity := by
  refine not_raises_bind (create_not_raises haccepted hf hpoints hquadrature hmesh hin)
    fun t ht => ?_
  rw [program_of_create haccepted hstandard ht (hmultipliers t ht)]
  exact not_raises_ok _

theorem create_raises (hm : f.sizes.multipliers ≠ 0)
    (hout : ¬ LayoutBuilder.MeshPoints solver.mesh.numPoints points) :
    Raises (create r solver p) .dataIntegrity := by
  obtain ⟨make, heq⟩ := create_eq haccepted hf hpoints hquadrature hmesh
  rw [heq]
  exact (layoutOf_raises hm hout).bind

end Creation

section Sizes

variable {t : Transcription α} {a : Arrangement α} {w : List α} {k : Nat}

/-- How many constraints there are of the given numbers of defects, kinematic and path constraints
at a point, where kinematic constraints hold at the points `ks`. -/
theorem sum_point_sizes {n states multipliers paths : Nat} {ks : List Nat} (hin : ∀ k ∈ ks, k < n)
    (hd : ks.Nodup) : ((List.range n).map fun k => (if k + 1 < n then states else 0) +
      ((if k ∈ ks then multipliers else 0) + paths)).sum =
        (n - 1) * states + ks.length * multipliers + n * paths := by
  have hsteps : ((List.range n).map fun k => if k + 1 < n then states else 0).sum =
      (n - 1) * states := by
    cases n with
    | zero => simp
    | succ n =>
      have hall : (List.range n).map (fun k => if k + 1 < n + 1 then states else 0) =
          (List.range n).map fun _ => states :=
        List.map_congr_left fun k hk => if_pos (Nat.succ_lt_succ (List.mem_range.mp hk))
      rw [List.range_succ, List.map_append, List.sum_append, hall]
      simp
  have hrest : ((List.range n).map fun k => (if k ∈ ks then multipliers else 0) + paths).sum =
      ks.length * multipliers + n * paths := by
    have hwidth := LayoutBuilder.sum_width ⟨paths, 0, multipliers, 0⟩ ks n
    rw [LayoutBuilder.countP_contains hin hd] at hwidth
    have hmap : (List.range n).map (fun k => (if k ∈ ks then multipliers else 0) + paths) =
        (List.range n).map (LayoutBuilder.width ⟨paths, 0, multipliers, 0⟩ ks) := by
      refine List.map_congr_left fun k _ => ?_
      simp only [LayoutBuilder.width, List.contains_iff_mem]
      omega
    rw [hmap, hwidth]
    simp only [Nat.add_zero]
    omega
  rw [List.sum_map_add, hsteps, hrest]
  omega

namespace Placed

variable (ht : t.Placed a)
include ht

theorem length_kinematicBounds : ((t.kinematicBlock? k).toList.flatMap (·.bounds)).length =
    if k ∈ t.layout.constrained then t.functions.sizes.multipliers else 0 := by
  by_cases hm : t.functions.sizes.multipliers = 0
  · cases hc : t.kinematicColumn? k <;> simp [kinematicBlock?, hc, hm]
  · have hmem := ht.isSome_kinematicColumn (k := k) hm
    cases hc : t.kinematicColumn? k with
    | none =>
      rw [hc, Option.isSome_none] at hmem
      rw [if_neg fun hk => Bool.false_ne_true (hmem.mpr hk)]
      simp [kinematicBlock?, hc]
    | some c =>
      rw [hc] at hmem
      rw [if_pos (hmem.mp rfl)]
      simp [kinematicBlock?, hc]

theorem length_pathBounds : ((t.functions.path.mapIdx (pathBlock k)).flatMap (·.bounds)).length =
    (t.functions.path.map (·.function.length)).sum := by
  rw [List.mapIdx_eq_zipIdx_map, List.flatMap_map, List.length_flatMap]
  conv => rhs; rw [← List.zipIdx_map_fst 0 t.functions.path, List.map_map]
  congr 1
  refine List.map_congr_left fun c hc => ?_
  have hget := List.mk_mem_zipIdx_iff_getElem?.mp hc
  exact ht.counted.path c.1 (List.mem_of_getElem? hget)

theorem length_pointBounds : ((t.pointBlocks k).flatMap (·.bounds)).length =
    (if k + 1 < t.mesh.numPoints then t.functions.sizes.states else 0) +
      ((if k ∈ t.layout.constrained then t.functions.sizes.multipliers else 0) +
        (t.functions.path.map (·.function.length)).sum) := by
  have hdefect : ((if k + 1 < t.mesh.numPoints then [t.defectBlock k] else []).flatMap
      (·.bounds)).length = if k + 1 < t.mesh.numPoints then t.functions.sizes.states else 0 := by
    split_ifs <;> simp [defectBlock]
  rw [pointBlocks, List.flatMap_append, List.flatMap_append, List.length_append, List.length_append,
    hdefect, ht.length_kinematicBounds, ht.length_pathBounds, Nat.add_assoc]

/-- Each block of a point has as many entries as bounds. -/
theorem length_value (hw : w.length = t.layout.size) (hk : k < t.mesh.numPoints) :
    ∀ b ∈ t.pointBlocks k, (b.value (t.sample (t.read w))).length = b.bounds.length := by
  refine forall_pointBlocks (fun hnext => ?defect) (fun c hc => ?kinematic) fun j q hq => ?path
  case defect =>
    rw [defectBlock, ht.length_defect hw hnext, List.length_replicate]
  case kinematic =>
    obtain ⟨g, hg⟩ := ht.exists_kinematic hc
    show ((t.sample (t.read w)).kinematic.column c).length = _
    rw [ht.column_kinematic _ hg hc, VectorFunction.length_at, ht.counted.kinematic g hg,
      List.length_replicate]
  case path =>
    show (((t.sample (t.read w)).path[j]?.map (·.column k)).getD []).length = _
    rw [column_path _ hk hq, VectorFunction.length_at]
    exact (ht.counted.path q (List.mem_of_getElem? hq)).symm

/-- The program of the trapezoidal rule has as many bounds of constraints as there are entries. -/
theorem length_blocks : ((t.trapezoidalProgram t.mesh).constraintBounds).length =
    (t.mesh.numPoints - 1) * t.functions.sizes.states +
      t.layout.constrained.length * t.functions.sizes.multipliers +
      t.mesh.numPoints * (t.functions.path.map (·.function.length)).sum +
      if t.functions.hasFixedTimes then 0 else 1 := by
  have hduration : (t.durationBlocks.flatMap (·.bounds)).length =
      if t.functions.hasFixedTimes then 0 else 1 := by
    rw [durationBlocks]
    split_ifs <;> rfl
  rw [Program.constraintBounds, trapezoidalProgram, List.flatMap_append, List.length_append,
    hduration, List.flatMap_assoc, List.length_flatMap]
  simp only [ht.length_pointBounds]
  rw [sum_point_sizes ht.constrained.inside ht.constrained.nodup]

theorem length_constraints (hw : w.length = t.layout.size) :
    ((t.trapezoidalProgram t.mesh).constraints w).length =
      ((t.trapezoidalProgram t.mesh).constraintBounds).length := by
  have hblock : ∀ b ∈ (t.trapezoidalProgram t.mesh).blocks,
      (b.value (t.sample (t.read w))).length = b.bounds.length :=
    forall_blocks (fun k hk => ht.length_value hw hk) rfl
  rw [Program.constraints, Program.constraintBounds, List.length_flatMap, List.length_flatMap]
  congr 1
  exact List.map_congr_left hblock

end Placed

end Sizes

section Trapezoidal

theorem kinematicPointsOf_trapezoidal (f : Functions α) (m : Mesh α) :
    (if f.kinematic.isSome then kinematicPointsOf .trapezoidal m else pure []) =
      .ok ((constrainedPoints f m).map Int.ofNat) := by
  unfold constrainedPoints
  split_ifs
  · rfl
  · rfl

omit [Scalar α] in
theorem meshPoints_constrained (f : Functions α) (m : Mesh α) :
    LayoutBuilder.MeshPoints m.numPoints ((constrainedPoints f m).map Int.ofNat) where
  nodup := nodup_constrainedPoints.map Int.ofNat_injective
  inside k hk := by
    obtain ⟨j, hj, rfl⟩ := List.mem_map.mp hk
    have hlt := constrainedPoints_lt hj
    simp only [Int.ofNat_eq_natCast]
    omega

variable {f : Functions α} {d : Declared α} {m : Mesh α}

/-- Points are constrained only if there are multipliers for them. -/
theorem multipliers_ne_zero (hf : f.Of d) {k : Nat} (hk : k ∈ constrainedPoints f m) :
    f.sizes.multipliers ≠ 0 := by
  intro hm
  rw [constrainedPoints, hf.multipliers.mp hm] at hk
  cases hk

theorem length_mul_constrained {t : Transcription α} {a : Arrangement α} (ht : t.Placed a)
    (hf : t.functions.Of d)
    (hpoints : t.kinematicPoints = (constrainedPoints t.functions t.mesh).map Int.ofNat) :
    t.layout.constrained.length * t.functions.sizes.multipliers =
      t.mesh.numPoints * t.functions.sizes.multipliers := by
  rw [ht.constrained.length_mul, hpoints, List.length_map, constrainedPoints]
  split_ifs with hkinematic
  · rw [List.length_range]
  · have hnone := Option.not_isSome_iff_eq_none.mp hkinematic
    rw [hf.multipliers.mpr hnone, Nat.mul_zero, Nat.mul_zero]

end Trapezoidal

end Transcription

/-- How many variables a problem with the given functions has on a mesh: those of each point, the
two times and the parameters. -/
def Functions.numVariables (f : Functions α) (points : Nat) : Nat :=
  points * (f.sizes.states + f.sizes.controls) + points * f.sizes.multipliers + 2
    + f.sizes.parameters

/-- How many constraints the trapezoidal rule makes of the given functions: defects of each
interval, kinematic and path constraints at each point, and the length of a horizon that is not
fixed. -/
def Functions.numConstraints (f : Functions α) (points : Nat) : Nat :=
  (points - 1) * f.sizes.states + points * f.sizes.multipliers
    + points * (f.path.map (·.function.length)).sum + if f.hasFixedTimes then 0 else 1

namespace Transcription

/-- A problem that calls declare and that has functions is transcribed by the trapezoidal rule
without any failure of its data: the quadrature has a weight for each point, each point of the
scheme has its multipliers, and variables and constraints are as many as their bounds. A
transcription is missing only where memory does not last. -/
theorem assembles {calls : List (Problem.Call α)} {name : Value α} {p : Problem α}
    (hcalls : (Edit.sequence Problem.Call.run calls).Yields { name } () p) {f : Functions α}
    (hf : p.functions = .ok f) {form : MeshForm α} {solver : Solver α}
    (hmesh : Mesh.ofForm form = .ok solver.mesh) {r : Registry α}
    (haccepted : Accepted r solver .trapezoidal) :
    ¬ Raises (create r solver p >>= program) .dataIntegrity ∧
    (f.sizes.Storable α → ∃ t, create r solver p = .ok t) ∧
    ∀ t, create r solver p = .ok t → ∃ prog, t.program = .ok prog ∧
      t.quadrature.length = solver.mesh.numPoints ∧
      (∀ k ∈ t.kinematicPoints, ∃ place, t.layout.multiplierRange (.int k) = .ok (some place)) ∧
      prog.layout.lower.length = f.numVariables solver.mesh.numPoints ∧
      prog.layout.upper.length = f.numVariables solver.mesh.numPoints ∧
      prog.constraintBounds.length = f.numConstraints solver.mesh.numPoints ∧
      ∀ w, w.length = prog.layout.size → ∃ g, t.evaluateConstraints w = .ok g ∧
        g.length = f.numConstraints solver.mesh.numPoints := by
  have hof := Problem.functions_of (Problem.holds_ofCalls hcalls) hf
  have hpos := Mesh.numPoints_pos hmesh
  have hpoints := kinematicPointsOf_trapezoidal f solver.mesh
  have hin := meshPoints_constrained f solver.mesh
  have hmultipliers (t : Transcription α) (ht : create r solver p = .ok t) : t.HasMultipliers :=
    hasMultipliers_of (Problem.holds_ofCalls hcalls) ht
  refine ⟨program_not_raises haccepted hf hpoints rfl hpos rfl hin hmultipliers,
    exists_create haccepted hf hpoints rfl hpos hin, fun t ht => ?_⟩
  have hscheme := create_scheme_eq haccepted ht
  have hprogram := program_of_create haccepted rfl ht (hmultipliers t ht)
  have hplaced := placed_of_create ht
  obtain ⟨hf', hmesh', -⟩ := create_layout ht
  obtain rfl : f = t.functions := Except.ok.inj (hf.symm.trans hf')
  rw [← hmesh'] at hpos ⊢
  have hasked := kinematicPoints_eq ht (by rw [hscheme]; rfl)
  have hquadrature := create_quadrature ht (by rw [hscheme]; rfl)
  have hcount := length_mul_constrained hplaced hof hasked
  have hsize : t.layout.size = t.functions.numVariables t.mesh.numPoints := by
    rw [hplaced.layout.size, hcount]
    rfl
  have hconstraints := hplaced.length_blocks
  rw [hcount] at hconstraints
  refine ⟨_, hprogram, ?_, fun k hk => ?_, ?_, ?_, hconstraints, fun w hw => ?_⟩
  · rw [hquadrature, length_trapezoidalWeights, ← hmesh', Mesh.intervals, Mesh.length_differences]
    exact Nat.sub_add_cancel hpos
  · rw [hasked] at hk
    obtain ⟨j, hj, rfl⟩ := List.mem_map.mp hk
    have hm : t.functions.sizes.multipliers ≠ 0 := multipliers_ne_zero hof hj
    have hmem : j ∈ t.layout.constrained := by
      rw [← hplaced.mem_kinematicPoints hm, hasked]
      exact List.mem_map_of_mem hj
    refine ⟨t.layout.multiplierPlace j, ?_⟩
    show t.layout.multiplierRange (.int j) = _
    rw [hplaced.layout.multiplierRange_eq (constrainedPoints_lt hj),
      if_pos (List.contains_iff_mem.mpr hmem)]
  · rw [← hsize]
    exact List.length_map _
  · rw [← hsize]
    exact List.length_map _
  · refine ⟨_, constraints_of_program hprogram hw, ?_⟩
    rw [hplaced.length_constraints hw]
    exact hconstraints

namespace Sample

theorem accepted : Accepted .initial solver .trapezoidal := ⟨0, rfl, rfl, rfl⟩

theorem storable {f : Functions Extended} (hf : problem.functions = .ok f) :
    f.sizes.Storable Extended := by
  have hsizes : problem.sizes = ⟨1, 1, 1, 0⟩ := by decide +kernel
  rw [(Problem.functions_eq_ok.mp hf).sizes_eq, hsizes]
  exact ⟨⟨by decide, by decide⟩, ⟨by decide, by decide⟩, ⟨by decide, by decide⟩,
    ⟨by decide, by decide⟩⟩

end Sample

theorem assembles_sample : ∃ f t prog, Sample.problem.functions = .ok f ∧
    create .initial Sample.solver Sample.problem = .ok t ∧ t.program = .ok prog ∧
    t.quadrature.length = 3 ∧ prog.layout.lower.length = f.numVariables 3 ∧
    prog.constraintBounds.length = f.numConstraints 3 ∧
    ¬ Raises (create .initial Sample.solver Sample.problem >>= program) .dataIntegrity := by
  obtain ⟨f, hf⟩ := Except.exists_of_isOk
    (show Sample.problem.functions.isOk = true by decide +kernel)
  obtain ⟨hraises, hcreate, hassembled⟩ :=
    assembles Sample.declared hf Sample.form_solver Sample.accepted
  obtain ⟨t, ht⟩ := hcreate (Sample.storable hf)
  obtain ⟨prog, hprog, hquadrature, -, hlower, -, hconstraints, -⟩ := hassembled t ht
  exact ⟨f, t, prog, hf, ht, hprog, hquadrature, hlower, hconstraints, hraises⟩

end Transcription

end Collocation
