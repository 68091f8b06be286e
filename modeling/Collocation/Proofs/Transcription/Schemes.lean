import Collocation.Proofs.Solve
import Collocation.Proofs.Transcription.Assembly

/-! Schemes that choose the points with kinematic constraints.  The scheme names these points in an
order of its own, and the layout holds them in increasing order; the program, the trajectories that
the layout splits off and the solutions that are decoded all give a point the same multipliers.
-/

namespace Collocation

variable {α : Type} [Scalar α]

/-- The trapezoidal rule with kinematic constraints at points of its own choice. -/
def Scheme.trapezoidalAt (className : String) (indices : Value α) : Scheme α :=
  { className, kinematic := some indices }

/-- At the vector `w` the dynamics see the multipliers that the trajectory `tr` has for the points
`ks`, row by row, and zeros at all other points of the mesh; kinematic constraints stand at the
points `ks`, in this order. -/
structure Program.Routes (prog : Program α) (f : Functions α) (g : VectorFunction (Point α) α)
    (m : Mesh α) (ks : List Nat) (w : List α) (tr : Trajectory α) : Prop where
  rows : tr.multipliers.length = ks.length
  constrained : ∀ (j k : Nat) row, ks[j]? = some k → tr.multipliers[j]? = some row →
    (prog.sample (prog.read w)).derivatives.column k =
      f.dynamics.at { tr.pointAt m k with multiplier := row }
  free : ∀ k < m.numPoints, k ∉ ks → (prog.sample (prog.read w)).derivatives.column k =
    f.dynamics.at { tr.pointAt m k with
      multiplier := List.replicate f.sizes.multipliers 0.0 }
  kinematic : (prog.blocks.filter (·.kind = .kinematic)).map
      (fun b => (b.point, b.value (prog.sample (prog.read w)))) =
    ks.map fun k => (some k, g.at (tr.pointAt m k))

namespace Transcription

/-- The points of a scheme and those of the layout route the multipliers alike. -/
theorem Placed.program_routes {t : Transcription α} {a : Arrangement α} (ht : t.Placed a)
    {w : List α} (hw : w.length = t.layout.size) {g : VectorFunction (Point α) α}
    (hg : t.functions.kinematic = some g) (hm : t.functions.sizes.multipliers ≠ 0) :
    (t.trapezoidalProgram t.mesh).Routes t.functions g t.mesh t.layout.constrained w
      (t.layout.trajectoryOf w) where
  rows := List.length_map _
  constrained j k row hj hrow := by
    have hrow' : (t.layout.trajectoryOf w).multipliers[j]?.getD [] = row := by rw [hrow]; rfl
    rw [← hrow']
    exact ht.derivatives_constrained hw hj
  free k hk hnot := ht.derivatives_free hw hk hnot
  kinematic := ht.kinematic_blocks hw hg hm

/-- A scheme that is the trapezoidal rule except for the points of the kinematic constraints may
name any points of the mesh, each once and in any order: the dynamics see the multipliers of their
own point and zeros where it has none, and there is one kinematic constraint for each point, in the
order of the mesh. Other points are refused. There are multipliers with kinematic constraints,
unless the call that sets both has failed halfway. -/
theorem routes {p : Problem α} {f : Functions α} (hf : p.functions = .ok f)
    {g : VectorFunction (Point α) α} (hg : f.kinematic = some g) (hm : f.sizes.multipliers ≠ 0)
    {form : MeshForm α} {solver : Solver α} (hmesh : Mesh.ofForm form = .ok solver.mesh)
    {r : Registry α} {className : String} {indices : Value α}
    (haccepted : Accepted r solver (.trapezoidalAt className indices)) {points : List Int}
    (hpoints : LayoutBuilder.namedPoints indices = .ok points) :
    (¬ LayoutBuilder.MeshPoints solver.mesh.numPoints points →
      Raises (create r solver p) .dataIntegrity) ∧
    (LayoutBuilder.MeshPoints solver.mesh.numPoints points →
      ¬ Raises (create r solver p >>= program) .dataIntegrity ∧
      (f.sizes.Storable α → ∃ t, create r solver p = .ok t) ∧
      ∀ t, create r solver p = .ok t → ∃ prog, t.program = .ok prog ∧
        t.layout.constrained.Pairwise (· < ·) ∧ (t.layout.constrained.map Int.ofNat).Perm points ∧
        ∀ w, w.length = prog.layout.size → ∃ tr values, t.layout.split w = .ok tr ∧
          t.evaluateConstraints w = .ok (prog.constraints w) ∧
          prog.Routes f g solver.mesh t.layout.constrained w tr ∧
          t.decode w = .ok (tr, values) ∧
          ∀ name s S, t.extract name w s = .ok S → S.multipliers = tr.multipliers ∧
            S.multiplierIndices = t.layout.constrained.map fun (k : Nat) => .int k) := by
  have hpos := Mesh.numPoints_pos hmesh
  have hasked : (if f.kinematic.isSome then
      kinematicPointsOf (.trapezoidalAt className indices) solver.mesh else pure []) =
        .ok points := by
    rw [hg]
    exact hpoints
  have hmultipliers (t : Transcription α) (ht : create r solver p = .ok t) : t.HasMultipliers := by
    obtain ⟨hf', -⟩ := create_layout ht
    rw [hasMultipliers_iff ht, ← Except.ok.inj (hf.symm.trans hf')]
    exact .inr hm
  refine ⟨create_raises haccepted hf hasked rfl hpos hm, fun hin =>
    ⟨program_not_raises haccepted hf hasked rfl hpos rfl hin hmultipliers,
      exists_create haccepted hf hasked rfl hpos hin, fun t ht => ?_⟩⟩
  have hplaced := placed_of_create ht
  have hscheme := create_scheme_eq haccepted ht
  have hprogram := program_of_create haccepted rfl ht (hmultipliers t ht)
  obtain ⟨hf', hmesh', -⟩ := create_layout ht
  obtain rfl : f = t.functions := Except.ok.inj (hf.symm.trans hf')
  have hperm := hplaced.constrained.perm hm
  refine ⟨_, hprogram, hplaced.constrained.increasing, ?_, fun w hw => ?_⟩
  · have hread := kinematicPointsOf_create ht
    rw [hscheme, hmesh', hasked] at hread
    rwa [← Except.ok.inj hread] at hperm
  · have hconstraints := constraints_of_program hprogram hw
    have hdecode := decode_eq hprogram (by rw [hscheme]; rfl) hw
    refine ⟨_, _, Layout.split_eq_ok.mpr ⟨hw, rfl⟩, hconstraints, ?_, hdecode,
      fun name s S hS => ?_⟩
    · rw [← hmesh']
      exact hplaced.program_routes hw hg hm
    · have hextracted := extracted_of_extract hS
      exact ⟨hextracted.shows.multipliers, hextracted.indices⟩

namespace Sample

/-- A registry with a scheme that has kinematic constraints at the given points. -/
def registryAt (points : List Int) : Registry Extended where
  schemes := [⟨.trapezoidal, some "trapezoidal"⟩,
    ⟨.trapezoidalAt "Sparse" (.list (points.map .int)), some "sparse"⟩]
  bindings := [("trapezoidal", 0), ("sparse", 1)]

def sparse : Solver Extended := { solver with scheme := "sparse" }

theorem accepted_sparse (points : List Int) :
    Accepted (registryAt points) sparse (.trapezoidalAt "Sparse" (.list (points.map .int))) :=
  ⟨1, rfl, rfl, rfl⟩

end Sample

/-- The points of the sample problem in decreasing order, and one of them twice. -/
theorem routes_sample : ∃ f g t, Sample.problem.functions = .ok f ∧ f.kinematic = some g ∧
    create (Sample.registryAt [2, 0]) Sample.sparse Sample.problem = .ok t ∧
    t.layout.constrained = [0, 2] ∧
    (∃ prog, t.program = .ok prog ∧ ∀ w, w.length = prog.layout.size →
      ∃ tr, prog.Routes f g Sample.sparse.mesh [0, 2] w tr) ∧
    Raises (create (Sample.registryAt [1, 1]) Sample.sparse Sample.problem) .dataIntegrity := by
  obtain ⟨f, hf, hparts⟩ := Except.exists_of_any (x := Sample.problem.functions)
    (p := fun f => f.kinematic.isSome && decide (f.sizes.multipliers ≠ 0)) (by decide +kernel)
  rw [Bool.and_eq_true, decide_eq_true_eq] at hparts
  obtain ⟨g, hg⟩ := Option.isSome_iff_exists.mp hparts.1
  have hmesh : Mesh.ofForm _ = .ok Sample.sparse.mesh := Sample.form_solver
  obtain ⟨-, haccept⟩ := routes hf hg hparts.2 hmesh (Sample.accepted_sparse [2, 0])
    (namedPoints_ints [2, 0])
  obtain ⟨hrefuse, -⟩ := routes hf hg hparts.2 hmesh (Sample.accepted_sparse [1, 1])
    (namedPoints_ints [1, 1])
  obtain ⟨-, hcreate, hroutes⟩ := haccept ⟨by decide, by decide⟩
  obtain ⟨t, ht⟩ := hcreate (Sample.storable hf)
  obtain ⟨prog, hprog, hsorted, hperm, hvector⟩ := hroutes t ht
  have hconstrained : t.layout.constrained = [0, 2] := by
    refine hsorted.eq_of_mem_iff (by decide) fun k => ?_
    have hmem := hperm.mem_iff (a := (k : Int))
    simp only [List.mem_map, Int.ofNat_eq_natCast, Int.natCast_inj, exists_eq_right,
      List.mem_cons, List.not_mem_nil, or_false] at hmem ⊢
    rw [hmem]
    omega
  rw [hconstrained] at hvector
  refine ⟨f, g, t, hf, hg, ht, hconstrained, ⟨prog, hprog, fun w hw => ?_⟩,
    hrefuse fun h => absurd h.nodup (by decide)⟩
  obtain ⟨tr, -, -, -, hroutes, -⟩ := hvector w hw
  exact ⟨tr, hroutes⟩

end Transcription

end Collocation
