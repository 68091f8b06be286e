import Collocation.Proofs.Transcription.Costs

/-! Exactness of the trapezoidal rule.  States on polynomials of degree two, with their derivatives
as dynamics, have no defects, whatever the mesh and the horizon are.  An integrand that is linear in
time is the derivative of such a polynomial, so that its integral is exact as well. -/

namespace Collocation

open Transcription (weighted weightedSum single trapezoidalWeights sequenceDefect finite_step)

/-- The polynomial `constant + linear * t + square * t ^ 2`. -/
structure Quadratic where
  constant : ℚ
  linear : ℚ
  square : ℚ

namespace Quadratic

def value (x : Quadratic) (t : ℚ) : ℚ := x.constant + x.linear * t + x.square * t ^ 2

def slope (x : Quadratic) (t : ℚ) : ℚ := x.linear + 2 * x.square * t

/-- On every interval the mean slope is the mean of the slopes at both ends. -/
theorem value_sub (x : Quadratic) (u v : ℚ) :
    x.value v - x.value u = (v - u) / 2 * (x.slope u + x.slope v) := by
  rw [value, value, slope, slope]
  ring

/-- The polynomial from zero that has a linear function as its derivative. -/
def primitive (a b : ℚ) : Quadratic := ⟨0, a, b / 2⟩

theorem slope_primitive (a b t : ℚ) : (primitive a b).slope t = a + b * t := by
  rw [slope, primitive]
  ring

end Quadratic

/-- The time at a fraction of the way from `t0` to `tf`, which may lie before `t0`. -/
def horizonTime (t0 tf fraction : ℚ) : ℚ := t0 + (tf - t0) * fraction

theorem weighted_finite (weight : Extended) (p q : ℚ) :
    weighted weight [.finite p, .finite q] = weight * .finite (p * q) := by
  unfold weighted
  split_ifs with hzero
  · rw [Extended.eq_zero_iff.mp hzero, Extended.zero_eq, Extended.finite_mul, zero_mul]
  · exact Extended.mul_mul_finite weight p q

/-- Between two points of a mesh a polynomial of degree two has no defect. -/
theorem Quadratic.defect_eq_zero (x : Quadratic) (t0 tf p q : ℚ) :
    Extended.finite (x.value (horizonTime t0 tf q)) - .finite (x.value (horizonTime t0 tf p))
      - (Extended.finite tf - .finite t0) * (Extended.finite q - .finite p) / 2.0
        * (Extended.finite (x.slope (horizonTime t0 tf p))
          + .finite (x.slope (horizonTime t0 tf q))) = 0.0 := by
  have hlength : horizonTime t0 tf q - horizonTime t0 tf p = (tf - t0) * (q - p) := by
    rw [horizonTime, horizonTime]
    ring
  have hgrowth := x.value_sub (horizonTime t0 tf p) (horizonTime t0 tf q)
  rw [hlength] at hgrowth
  rw [Extended.two_eq, Extended.zero_eq, finite_step, finite_step, finite_step, Extended.finite_mul,
    Extended.finite_div two_ne_zero, Extended.finite_add, Extended.finite_mul, finite_step, hgrowth,
    sub_self]

namespace Mesh.Grid

variable {m : Mesh Extended} {qs : List ℚ} (h : m.Grid qs)
include h

theorem entry_points (k : Nat) : Layout.entry m.points k = .finite (qs[k]?.getD 0) := by
  rw [h.points, Layout.entry, List.getElem?_map, Extended.zero_eq]
  cases qs[k]? <;> rfl

theorem entry_first : qs[0]?.getD 0 = 0 := by
  rw [← List.head?_eq_getElem?, h.first, Option.getD_some]

theorem entry_last : qs[m.numPoints - 1]?.getD 0 = 1 := by
  have hlength : m.numPoints = qs.length := by rw [numPoints, h.points, List.length_map]
  rw [hlength, ← List.getLast?_eq_getElem?, h.last, Option.getD_some]

end Mesh.Grid

namespace Trajectory

section Dynamics

variable {α : Type} [Scalar α]

/-- The multipliers that the dynamics see at point `k`: its row if it is one of the constrained
points `ks`, and zeros otherwise. -/
def multiplierAt (tr : Trajectory α) (ks : List Nat) (n k : Nat) : List α :=
  match ks.idxOf? k with
  | some j => tr.multipliers[j]?.getD []
  | none => List.replicate n 0.0

/-- What the dynamics evaluate to at point `k`. -/
def dynamicsAt (tr : Trajectory α) (f : Functions α) (m : Mesh α) (ks : List Nat) (k : Nat) :
    List α :=
  f.dynamics.at { tr.pointAt m k with multiplier := tr.multiplierAt ks f.sizes.multipliers k }

end Dynamics

/-- The states lie on polynomials at the times of all points, and the dynamics evaluate to the
derivatives of these polynomials. -/
structure Follows (tr : Trajectory Extended) (f : Functions Extended) (m : Mesh Extended)
    (ks : List Nat) (time : Nat → ℚ) (x : Nat → Quadratic) : Prop where
  states : ∀ k < m.numPoints, ∀ i < f.sizes.states,
    tr.stateEntry k i = .finite ((x i).value (time k))
  slopes : ∀ k < m.numPoints, ∀ i < f.sizes.states,
    Layout.entry (tr.dynamicsAt f m ks k) i = .finite ((x i).slope (time k))

section Exact

variable {tr : Trajectory Extended} {m : Mesh Extended} {qs : List ℚ} {t0 tf : ℚ} (hm : m.Grid qs)
  (h0 : tr.initialTime = .finite t0) (hf : tr.finalTime = .finite tf)
include hm h0 hf

theorem time_pointAt {k : Nat} (hk : k < m.numPoints) :
    (tr.pointAt m k).time = .finite (horizonTime t0 tf (qs[k]?.getD 0)) := by
  have hk : k < qs.length := by rwa [Mesh.numPoints, hm.points, List.length_map] at hk
  rw [pointAt, h0, hf, hm.times_eq, Layout.entry, Mesh.gridTimes, List.getElem?_map,
    List.getElem?_map, List.getElem?_eq_getElem hk]
  rfl

/-- The integral of a linear function of time, between the times of the horizon. -/
theorem integralCostBy_linear {c : CostFunction (Point Extended) Extended} {a b : ℚ}
    (h : ∀ k < m.numPoints, single c.function (tr.pointAt m k) =
      .finite (a + b * horizonTime t0 tf (qs[k]?.getD 0))) :
    tr.integralCostBy (trapezoidalWeights m.intervals) m c =
      c.weight * .finite (a * (tf - t0) + b * (tf ^ 2 - t0 ^ 2) / 2) := by
  -- A primitive of the integrand has no defects, so the rule gives its growth.
  let x := Quadratic.primitive a b
  let time (k : Nat) : ℚ := horizonTime t0 tf (qs[k]?.getD 0)
  have hdefect (k : Nat) (hk : k + 1 < m.numPoints) :
      sequenceDefect m.points (tr.finalTime - tr.initialTime)
        ((List.range m.numPoints).map fun k => .finite (x.value (time k))) (tr.integrand m c) k =
        0.0 := by
    have hk' : k < m.numPoints := by omega
    rw [sequenceDefect, integrand, Layout.entry_map_range hk, Layout.entry_map_range hk',
      Layout.entry_map_range hk, Layout.entry_map_range hk', h k hk', h (k + 1) hk,
      ← Quadratic.slope_primitive, ← Quadratic.slope_primitive, hm.entry_points, hm.entry_points,
      h0, hf]
    exact x.defect_eq_zero t0 tf _ _
  have hpoints := hm.numPoints_pos
  obtain ⟨r, s, hr, hs, hgrowth⟩ := Transcription.growth_eq_weightedSum hm (by simp)
    (by simp [integrand]) hdefect
  have hlast : m.numPoints - 1 < m.numPoints := by omega
  rw [Layout.entry_map_range hlast, Layout.entry_map_range hpoints, finite_step] at hgrowth
  have hproduct : r * s = a * (tf - t0) + b * (tf ^ 2 - t0 ^ 2) / 2 := by
    rw [← Extended.finite.inj hgrowth]
    simp only [time, hm.entry_first, hm.entry_last, horizonTime, x, Quadratic.primitive,
      Quadratic.value]
    ring
  rw [integralCostBy, if_neg (Transcription.weights_ne_zero hm), hr, hs, ← hproduct,
    weighted_finite]

end Exact

end Trajectory

namespace Transcription

section Defects

variable {t : Transcription Extended} {a : Arrangement Extended} {w : List Extended}

theorem Placed.column_dynamicsAt (ht : t.Placed a) (hw : w.length = t.layout.size) {k : Nat}
    (hk : k < t.mesh.numPoints) : (t.sample (t.read w)).derivatives.column k =
      (t.layout.trajectoryOf w).dynamicsAt t.functions t.mesh t.layout.constrained k := by
  rw [Trajectory.dynamicsAt, Trajectory.multiplierAt]
  cases hj : t.layout.constrained.idxOf? k with
  | none => exact ht.derivatives_free hw hk (List.idxOf?_eq_none_iff.mp hj)
  | some j =>
    obtain ⟨hlt, hget, -⟩ := List.idxOf?_eq_some_iff.mp hj
    exact ht.derivatives_constrained hw ((List.getElem?_eq_getElem hlt).trans (congrArg some hget))

/-- The defects of states on polynomials of degree two vanish. -/
theorem Placed.defect_follows (ht : t.Placed a) (hw : w.length = t.layout.size) {qs : List ℚ}
    (hm : t.mesh.Grid qs) {t0 tf : ℚ} (h0 : (t.layout.trajectoryOf w).initialTime = .finite t0)
    (hf : (t.layout.trajectoryOf w).finalTime = .finite tf) {x : Nat → Quadratic}
    (hx : (t.layout.trajectoryOf w).Follows t.functions t.mesh t.layout.constrained
      (fun k => horizonTime t0 tf (qs[k]?.getD 0)) x) {k : Nat} (hk : k + 1 < t.mesh.numPoints) :
    t.defect k (t.sample (t.read w)) = List.replicate t.functions.sizes.states 0.0 := by
  have hk' : k < t.mesh.numPoints := by omega
  rw [Layout.eq_replicate_iff (ht.length_defect hw hk)]
  intro i hi
  rw [ht.defect_entry hw hk hi, ht.column_dynamicsAt hw hk, ht.column_dynamicsAt hw hk',
    hx.states k hk' i hi, hx.states (k + 1) hk i hi, hx.slopes k hk' i hi,
    hx.slopes (k + 1) hk i hi, Trajectory.intervalLength, h0, hf, hm.entry_points, hm.entry_points]
  exact (x i).defect_eq_zero t0 tf _ _

end Defects

/-- The trapezoidal rule is exact on polynomials of degree two.  On every mesh, and between any two
times, states on such polynomials have no defects if the dynamics evaluate to the derivatives, and
an integral cost whose integrand is linear in time contributes its weight times the integral. -/
theorem exact_on_quadratics {form : MeshForm Extended} {r : Registry Extended}
    {solver : Solver Extended} {p : Problem Extended} {f : Functions Extended}
    {t : Transcription Extended} {prog : Program Extended}
    (hmesh : Mesh.ofForm form = .ok solver.mesh) (hfunctions : p.functions = .ok f)
    (hcreate : create r solver p = .ok t) (hscheme : t.scheme = .trapezoidal)
    (hprog : t.program = .ok prog) {w : List Extended} {tr : Trajectory Extended}
    (hsplit : t.layout.split w = .ok tr) {t0 tf : ℚ} (h0 : tr.initialTime = .finite t0)
    (hf : tr.finalTime = .finite tf) :
    ∃ (entries : List (String × Extended)) (tau : Nat → ℚ),
      t.evaluateTerms w = .ok entries ∧ (entries.map (·.1)).Nodup ∧
      (∀ k < solver.mesh.numPoints, Layout.entry solver.mesh.points k = .finite (tau k) ∧
        (tr.pointAt solver.mesh k).time = .finite (horizonTime t0 tf (tau k))) ∧
      (∀ k, k + 1 < solver.mesh.numPoints → t.defectBlock k ∈ prog.blocks) ∧
      (∀ x : Nat → Quadratic, tr.Follows f solver.mesh t.layout.constrained
          (fun k => horizonTime t0 tf (tau k)) x →
        ∀ block ∈ prog.blocks, block.kind = .defect →
          block.value (prog.sample (prog.read w)) = List.replicate f.sizes.states 0.0) ∧
      ∀ c ∈ f.integralCosts, ∀ a b : ℚ,
        (∀ k < solver.mesh.numPoints, single c.function (tr.pointAt solver.mesh k) =
          .finite (a + b * horizonTime t0 tf (tau k))) →
        (c.name, c.weight * .finite (a * (tf - t0) + b * (tf ^ 2 - t0 ^ 2) / 2)) ∈ entries := by
  obtain ⟨qs, hgrid⟩ := Mesh.grid_of_form hmesh
  obtain ⟨hw, rfl⟩ := Layout.split_eq_ok.mp hsplit
  obtain ⟨hsame, hmesh', -, -, hlayout⟩ := create_layout hcreate
  obtain rfl : t.functions = f := Except.ok.inj (hsame.symm.trans hfunctions)
  have hplaced := placed_of_create hcreate
  obtain ⟨-, rfl⟩ := (program_standard_iff (standard_of_trapezoidal hscheme)).mp hprog
  have hquadrature := create_quadrature hcreate (by rw [hscheme]; rfl)
  rw [← hmesh'] at hgrid hquadrature ⊢
  have hnames := (Problem.functions_eq_ok.mp hfunctions).nodup_costNames
  have hterms := termValues_eq rfl hlayout hw hprog hgrid.numPoints_pos hnames
  refine ⟨_, fun k => qs[k]?.getD 0, terms_of_program hprog hw, ?_,
    fun k hk => ⟨hgrid.entry_points k, Trajectory.time_pointAt hgrid h0 hf hk⟩,
    fun k hk => defectBlock_mem hk, fun x hx => ?_, fun c hc a b hvalues => ?_⟩
  · rw [hterms, Trajectory.namedCosts_names]
    exact hnames
  · exact forall_defects.mpr fun k hk => hplaced.defect_follows hw hgrid h0 hf hx hk
  · rw [hterms, Trajectory.namedCosts, hquadrature,
      ← Trajectory.integralCostBy_linear hgrid h0 hf hvalues]
    exact List.mem_append_right _ (List.mem_map_of_mem hc)

namespace Sample

def linear (a b : ℚ) (pt : Point Extended) : Extended := .finite a + .finite b * pt.time

theorem linear_eq {a b t : ℚ} {pt : Point Extended} (h : pt.time = .finite t) :
    linear a b pt = .finite (a + b * t) := by
  rw [linear, h, Extended.finite_mul, Extended.finite_add]

def parabolaCalls : List (Problem.Call Extended) :=
  [.time (.tuple [.none, .none]) (.tuple [.none, .none]), .state (.text "x") .none .none .none,
    .dynamics (.evaluator fun _ => .ok (.function ⟨1, 1, [linear 1 2]⟩)),
    .integralCost (.text "load") (.evaluator fun _ => .ok (.function ⟨1, 1, [linear 3 2]⟩))
      (.int 2)]

def parabolaFunctions : Functions Extended where
  stateNames := ["x"]
  controlNames := []
  multiplierNames := []
  parameterNames := []
  initialTime := ⟨.negInf, .posInf⟩
  finalTime := ⟨.negInf, .posInf⟩
  dynamics := [linear 1 2]
  kinematic := none
  path := []
  endpointCosts := []
  integralCosts := [⟨"load", [linear 3 2], .finite 2⟩]

def parabola : Quadratic := ⟨0, 1, 1⟩

def backwardVector : List Extended := [30.0, 20.0, 2.0, 5.0, 1.0]

/-- The parabola from time five back to time one. -/
def backward : Trajectory Extended where
  states := [[30.0], [20.0], [2.0]]
  controls := [[], [], []]
  multipliers := []
  initialTime := 5.0
  finalTime := 1.0
  parameters := []

theorem parabola_created : ∃ t : Transcription Extended,
    create .initial solver (problemOf parabolaCalls) = .ok t ∧ t.scheme = .trapezoidal ∧
      t.layout.split backwardVector = .ok backward := by
  have hrun : (create .initial solver (problemOf parabolaCalls) >>= fun t =>
      t.layout.split backwardVector) = .ok backward := by
    with_unfolding_all rfl
  obtain ⟨t, ht, hsplit⟩ := Except.bind_eq_ok.mp hrun
  exact ⟨t, ht, create_scheme (i := 0) rfl ht, hsplit⟩

theorem backward_follows {ks : List Nat} {tau : Nat → ℚ}
    (htau : ∀ k < solver.mesh.numPoints, Layout.entry solver.mesh.points k = .finite (tau k) ∧
      (backward.pointAt solver.mesh k).time = .finite (horizonTime 5 1 (tau k))) :
    backward.Follows parabolaFunctions solver.mesh ks (fun k => horizonTime 5 1 (tau k))
      fun _ => parabola where
  states k hk i hi := by
    have hall : ∀ k < 3, ∃ q ∈ ([0, 1 / 4, 1] : List ℚ),
        Layout.entry solver.mesh.points k = .finite q ∧
          backward.stateEntry k 0 = .finite (parabola.value (horizonTime 5 1 q)) := by
      decide +kernel
    obtain rfl : i = 0 := Nat.lt_one_iff.mp hi
    obtain ⟨q, -, hq, hstate⟩ := hall k hk
    obtain rfl : q = tau k := Extended.finite.inj (hq.symm.trans (htau k hk).1)
    exact hstate
  slopes k hk i hi := by
    obtain rfl : i = 0 := Nat.lt_one_iff.mp hi
    refine (linear_eq (htau k hk).2).trans ?_
    rw [Quadratic.slope, parabola, mul_one]

end Sample

/-- Time runs backward on this horizon. -/
theorem exact_on_quadratics_sample : ∃ t prog entries,
    create .initial Sample.solver (Sample.problemOf Sample.parabolaCalls) = .ok t ∧
      t.program = .ok prog ∧ t.evaluateTerms Sample.backwardVector = .ok entries ∧
      (∀ block ∈ prog.blocks, block.kind = .defect →
        block.value (prog.sample (prog.read Sample.backwardVector)) = [0.0]) ∧
      ("load", .finite (-72)) ∈ entries := by
  have hfunctions : (Sample.problemOf Sample.parabolaCalls).functions =
      .ok Sample.parabolaFunctions := by
    with_unfolding_all rfl
  obtain ⟨t, ht, hscheme, hsplit⟩ := Sample.parabola_created
  have hinitial : Sample.backward.initialTime = .finite 5 := by with_unfolding_all rfl
  have hfinal : Sample.backward.finalTime = .finite 1 := Extended.one_eq
  have hnone : t.functions.kinematic = none := by
    rw [← Except.ok.inj (hfunctions.symm.trans (create_layout ht).1)]
    rfl
  have hprog := program_of_standard (standard_of_trapezoidal hscheme)
    (hasMultipliers_of_none ht hnone)
  obtain ⟨entries, tau, hentries, -, htau, -, hdefects, hcosts⟩ :=
    exact_on_quadratics Sample.form_solver hfunctions ht hscheme hprog hsplit hinitial hfinal
  have hload := hcosts _ (List.mem_singleton_self _) 3 2 fun k hk =>
    Sample.linear_eq (htau k hk).2
  refine ⟨t, _, entries, ht, hprog, hentries, hdefects _ (Sample.backward_follows htau), ?_⟩
  norm_num at hload
  exact hload

end Transcription

end Collocation
