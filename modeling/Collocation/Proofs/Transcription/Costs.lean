import Collocation.Proofs.Problem.Horizon
import Collocation.Proofs.Transcription.Objective
import Collocation.Proofs.Transcription.Quadrature

/-! Every cost counts once.  Endpoint and integral costs go into one dictionary under their names; a
problem whose names pass the check has an entry there for each of its costs, and the objective is
the sum of the entries, whatever the scheme.  Nothing can be evaluated where kinematic constraints
stand without multipliers, as a call that fails halfway may leave them. -/

namespace Collocation

open Transcription (weighted weightedSum single trapezoidalWeights)

/-- A weight times some factors.  Weight zero makes the product zero, also where a factor is not
finite. -/
structure IsProduct (weight : Extended) (factors : List Extended) (x : Extended) : Prop where
  product : weight ≠ .finite 0 ∨ (∀ y ∈ factors, Scalar.isFinite y = true) →
    x = factors.foldl (· * ·) weight
  zero : weight = .finite 0 → x = .finite 0

theorem Extended.eq_zero_iff {x : Extended} : Scalar.eq x 0.0 = true ↔ x = .finite 0 := by
  rw [zero_eq]
  constructor
  · intro h
    rw [Scalar.eq, Bool.and_eq_true, decide_eq_true_iff, decide_eq_true_iff] at h
    exact le_antisymm h.1 h.2
  · rintro rfl
    exact eq_finite_self 0

theorem Extended.foldl_mul_zero {factors : List Extended}
    (h : ∀ y ∈ factors, Scalar.isFinite y = true) :
    factors.foldl (· * ·) (.finite 0) = .finite 0 := by
  induction factors with
  | nil => rfl
  | cons y rest ih =>
    obtain ⟨q, rfl⟩ := isFinite_iff.mp (h y (by simp))
    rw [List.foldl_cons, finite_mul, zero_mul]
    exact ih fun z hz => h z (by simp [hz])

theorem weighted_isProduct (weight : Extended) (factors : List Extended) :
    IsProduct weight factors (weighted weight factors) := by
  unfold weighted
  by_cases hzero : weight = .finite 0
  · rw [if_pos (Extended.eq_zero_iff.mpr hzero), Extended.zero_eq]
    refine ⟨fun h => ?_, fun _ => rfl⟩
    have hfinite := h.resolve_left fun hne => hne hzero
    rw [hzero, Extended.foldl_mul_zero hfinite]
  · rw [if_neg (mt Extended.eq_zero_iff.mp hzero)]
    exact ⟨fun _ => rfl, fun h => absurd h hzero⟩

theorem weightsVanish_iff {weights : List Extended} :
    weights.all (Scalar.eq · 0.0) = true ↔ ∀ c ∈ weights, c = .finite 0 := by
  simp only [List.all_eq_true, Extended.eq_zero_iff]

/-- What a cost contributes to the objective: its weight times the value at the two ends or, for an
integral cost, times the length of the horizon and the weighted sum over all points.  `weights` are
the quadrature coefficients; if all of them are zero, so is every integral. -/
inductive CostTerm.Contributes (s : Setting) (weights : List Extended) (m : Mesh Extended)
    (tr : Trajectory Extended) : CostTerm Extended → Extended → Prop where
  | endpoint {name : String} {weight x : Extended} {e : Evaluator (Endpoints Extended) Extended}
      {φ : Endpoints Extended → Extended}
      (hφ : e.callSized s 1 ("Endpoint cost '" ++ name ++ "'") = .ok [φ])
      (hx : IsProduct weight [φ (tr.endsOn m)] x) :
      Contributes s weights m tr ⟨name, .endpoint e, weight⟩ x
  | integral {name : String} {weight x : Extended} {e : Evaluator (Point Extended) Extended}
      {L : Point Extended → Extended}
      (hL : e.callSized s 1 ("Integral cost '" ++ name ++ "'") = .ok [L])
      (hweights : ∃ c ∈ weights, c ≠ .finite 0)
      (hx : IsProduct weight [tr.finalTime - tr.initialTime,
        weightedSum weights ((List.range m.numPoints).map fun k => L (tr.pointAt m k))] x) :
      Contributes s weights m tr ⟨name, .integral e, weight⟩ x
  | unweighted {name : String} {weight : Extended} {e : Evaluator (Point Extended) Extended}
      (hweights : ∀ c ∈ weights, c = .finite 0) :
      Contributes s weights m tr ⟨name, .integral e, weight⟩ (.finite 0)

section Contributions

variable {s : Setting} {m : Mesh Extended} {tr : Trajectory Extended} {c : CostTerm Extended}

theorem CostFunction.FromEndpoint.contributes {f : CostFunction (Endpoints Extended) Extended}
    (h : FromEndpoint s c f) (weights : List Extended) :
    c.Contributes s weights m tr (tr.endpointCost m f) := by
  obtain ⟨h⟩ := h
  simp only [Functions.ofEndpoint, Except.bind_eq_ok, Except.pure_eq_ok] at h
  obtain ⟨g, hg, _, _, rfl⟩ := h
  obtain ⟨φ, rfl⟩ := List.length_eq_one_iff.mp (Evaluator.callSized_eq_ok.mp hg).2
  exact .endpoint hg (weighted_isProduct _ _)

theorem CostFunction.FromIntegral.contributes {f : CostFunction (Point Extended) Extended}
    (h : FromIntegral s c f) (weights : List Extended) :
    c.Contributes s weights m tr (tr.integralCostBy weights m f) := by
  obtain ⟨h⟩ := h
  simp only [Functions.ofIntegral, Except.bind_eq_ok, Except.pure_eq_ok] at h
  obtain ⟨g, hg, _, _, rfl⟩ := h
  obtain ⟨L, rfl⟩ := List.length_eq_one_iff.mp (Evaluator.callSized_eq_ok.mp hg).2
  rw [Trajectory.integralCostBy]
  split_ifs with hweights
  · rw [Extended.zero_eq]
    exact .unweighted (weightsVanish_iff.mp hweights)
  · rw [weightsVanish_iff] at hweights
    push Not at hweights
    exact .integral hg hweights (weighted_isProduct _ _)

/-- Every cost of a problem contributes the entry under its name. -/
theorem Problem.Makes.contributes {p : Problem Extended} {f : Functions Extended} (h : p.Makes f)
    (weights : List Extended) (hc : c ∈ p.costs) : ∃ x, (c.name, x) ∈ tr.namedCosts weights f m ∧
      c.Contributes ⟨p.sizes, false⟩ weights m tr x := by
  rw [Trajectory.namedCosts]
  cases hkind : c.isEndpoint with
  | true =>
    obtain ⟨g, hg, hfrom⟩ := exists_right_of_mem h.endpointCosts
      (List.mem_filter.mpr ⟨hc, hkind⟩)
    refine ⟨tr.endpointCost m g, List.mem_append_left _ ?_, hfrom.contributes _⟩
    rw [hfrom.name_eq]
    exact List.mem_map_of_mem hg
  | false =>
    obtain ⟨g, hg, hfrom⟩ := exists_right_of_mem h.integralCosts
      (List.mem_filter.mpr ⟨hc, by rw [hkind]; rfl⟩)
    refine ⟨tr.integralCostBy weights m g, List.mem_append_right _ ?_, hfrom.contributes _⟩
    rw [hfrom.name_eq]
    exact List.mem_map_of_mem hg

end Contributions

namespace Transcription

/-- The scheme of a transcription lets its objective be evaluated. -/
structure Evaluable {α : Type} [Scalar α] (t : Transcription α) : Prop where
  program : ∃ prog, t.program = .ok prog
  objective : t.scheme.objectiveFault = none

section Evaluable

variable {α : Type} [Scalar α] {r : Registry α} {solver : Solver α} {p : Problem α}
  {t : Transcription α} (hcreate : create r solver p = .ok t)
include hcreate

/-- A scheme without points of its own has multipliers at all of its kinematic points, unless the
problem has kinematic constraints and no multipliers. -/
theorem hasMultipliers_iff_paired (hscheme : t.scheme.kinematic = none)
    (hpos : 0 < solver.mesh.numPoints) :
    t.HasMultipliers ↔ (p.kinematic.isSome → p.multipliers ≠ []) := by
  obtain ⟨hfunctions, hmesh, -⟩ := create_layout hcreate
  have hmakes := Problem.functions_eq_ok.mp hfunctions
  have hkinematic := (Except.option_mapM_eq_ok.mp hmakes.kinematic).1
  have hpoints : t.kinematicPoints = [] ↔ ¬ p.kinematic.isSome := by
    have hrange : List.range t.mesh.numPoints ≠ [] := mt List.range_eq_nil.mp (hmesh ▸ hpos.ne')
    rw [kinematicPoints_eq hcreate hscheme, List.map_eq_nil_iff, constrainedPoints, hkinematic]
    split_ifs with h <;> simp [h, hrange]
  have hmultipliers : t.functions.sizes.multipliers ≠ 0 ↔ p.multipliers ≠ [] := by
    rw [hmakes.sizes_eq, Problem.sizes, ne_eq, List.length_eq_zero_iff]
  rw [hasMultipliers_iff hcreate, hpoints, hmultipliers, imp_iff_not_or]

/-- By the trapezoidal rule everything is evaluated, unless there are kinematic constraints without
multipliers. -/
theorem evaluable_iff (hscheme : t.scheme = .trapezoidal) (hpos : 0 < solver.mesh.numPoints) :
    t.Evaluable ↔ (p.kinematic.isSome → p.multipliers ≠ []) := by
  rw [← hasMultipliers_iff_paired hcreate (by rw [hscheme]; rfl) hpos]
  constructor
  · rintro ⟨⟨prog, hprog⟩, -⟩
    exact (program_eq_ok.mp hprog).1
  · intro h
    exact ⟨⟨_, program_of_standard (standard_of_trapezoidal hscheme) h⟩, by rw [hscheme]; rfl⟩

/-- Otherwise nothing is evaluated, at no vector. -/
theorem evaluate_raises (hscheme : t.scheme = .trapezoidal) (hpos : 0 < solver.mesh.numPoints)
    (h : ¬ (p.kinematic.isSome → p.multipliers ≠ [])) (w : List α) :
    Raises (t.evaluateTerms w) .dataIntegrity ∧ Raises (t.evaluateObjective w) .dataIntegrity := by
  have hprogram : Raises t.program .dataIntegrity :=
    program_raises (mt (hasMultipliers_iff_paired hcreate (by rw [hscheme]; rfl) hpos).mp h)
  have hobjective : t.scheme.objectiveFault = none := by rw [hscheme]; rfl
  refine ⟨hprogram.bind, ?_⟩
  rw [evaluateObjective, hobjective]
  exact hprogram.bind

end Evaluable

/-- No cost is lost or merged.  At every decision vector there is exactly one entry for each cost,
which is what the cost contributes, and the objective is the sum of all entries.  This holds for
every scheme that can be evaluated.  The trapezoidal rule is one, with weights that do not vanish,
for every problem that calls declare; only where kinematic constraints stand without multipliers
there are neither entries nor an objective. -/
theorem evaluateTerms_eq {form : MeshForm Extended} {r : Registry Extended}
    {solver : Solver Extended} {p : Problem Extended} {t : Transcription Extended}
    (hmesh : Mesh.ofForm form = .ok solver.mesh) (hcreate : create r solver p = .ok t) :
    (t.scheme = .trapezoidal → ((∃ d, p.Holds d) → t.Evaluable) ∧
      (t.Evaluable ↔ (p.kinematic.isSome → p.multipliers ≠ [])) ∧
      (¬ t.Evaluable → ∀ w, Raises (t.evaluateTerms w) .dataIntegrity ∧
        Raises (t.evaluateObjective w) .dataIntegrity) ∧
      t.quadrature = trapezoidalWeights solver.mesh.intervals ∧
      ∃ c ∈ t.quadrature, c ≠ .finite 0) ∧
    (t.Evaluable → ∀ w : List Extended, w.length = t.layout.size → ∃ tr entries,
      t.layout.split w = .ok tr ∧
      tr.Fills solver.mesh.numPoints p.sizes t.layout.constrained ∧
      t.evaluateTerms w = .ok entries ∧
      (entries.map (·.1)).Nodup ∧ (entries.map (·.1)).Perm (p.costs.map (·.name)) ∧
      (∀ c ∈ p.costs, ∃ x, (c.name, x) ∈ entries ∧
        c.Contributes ⟨p.sizes, false⟩ t.quadrature solver.mesh tr x) ∧
      t.evaluateObjective w = .ok (Scalar.sum (entries.map (·.2)))) := by
  obtain ⟨qs, hgrid⟩ := Mesh.grid_of_form hmesh
  constructor
  · intro hscheme
    have hquadrature := create_quadrature hcreate (by rw [hscheme]; rfl)
    have hweights := weights_ne_zero hgrid
    rw [weightsVanish_iff, ← hquadrature] at hweights
    push Not at hweights
    have hevaluable := evaluable_iff hcreate hscheme hgrid.numPoints_pos
    refine ⟨?_, hevaluable, fun hnot => ?_, hquadrature, hweights⟩
    · rintro ⟨d, hd⟩
      exact hevaluable.mpr hd.paired.mp
    · exact evaluate_raises hcreate hscheme hgrid.numPoints_pos (mt hevaluable.mpr hnot)
  intro heval w hw
  obtain ⟨prog, hprog⟩ := heval.program
  obtain ⟨hfunctions, hsame, -, hks, hlayout⟩ := create_layout hcreate
  have hmakes := Problem.functions_eq_ok.mp hfunctions
  rw [hsame] at hlayout hks
  have hvalues := termValues_eq hsame hlayout hw hprog hgrid.numPoints_pos hmakes.nodup_costNames
  refine ⟨t.layout.trajectoryOf w,
    (t.layout.trajectoryOf w).namedCosts t.quadrature t.functions solver.mesh, if_pos hw,
    ?_, ?_, ?_, ?_, fun c hc => hmakes.contributes t.quadrature hc, ?_⟩
  · rw [← hmakes.sizes_eq]
    exact hlayout.fills hks.inside hw
  · rw [terms_of_program hprog hw, hvalues]
  · rw [Trajectory.namedCosts_names]
    exact hmakes.nodup_costNames
  · rw [Trajectory.namedCosts_names]
    exact hmakes.perm_costNames.symm
  · rw [objective_of_program hprog heval.objective hw, Program.objective, hvalues]

namespace Sample

def power (pt : Point Extended) : Extended :=
  Layout.entry pt.control 0 * Layout.entry pt.state 0

/-- A problem with costs of both kinds, one of them with weight zero. -/
def weighedCalls : List (Problem.Call Extended) :=
  [.time (.real 0.0) (.real 1.0), .state (.text "x") .none .none .none,
    .control (.text "u") .none .none .none,
    .dynamics (.evaluator fun _ => .ok (.function ⟨1, 1, [power]⟩)),
    .integralCost (.text "power") (.evaluator fun _ => .ok (.function ⟨1, 1, [power]⟩)) (.int 2),
    .endpointCost (.text "time") (.evaluator fun _ => .ok (.function ⟨1, 1, [(·.finalTime)]⟩))
      (.int 1),
    .integralCost (.text "unused") (.evaluator fun _ => .ok (.function ⟨1, 1, [power]⟩)) (.int 0)]

/-- The last call is refused for the name of a multiplier, after the constraints have been set. -/
def unnamedCalls : List (Problem.Call Extended) :=
  weighedCalls ++ [.kinematic (.evaluator fun _ => .ok (.sequence [])) (.list [.text ""]) .none]

theorem weighed : (Edit.sequence Problem.Call.run weighedCalls).Yields { name := .text "sample" } ()
    (problemOf weighedCalls) := Edit.yields_of_isOk (by decide +kernel)

end Sample

theorem evaluateTerms_sample : ∃ t : Transcription Extended, ∃ w tr entries,
    create .initial Sample.solver (Sample.problemOf Sample.weighedCalls) = .ok t ∧
      w.length = t.layout.size ∧ t.layout.split w = .ok tr ∧ t.evaluateTerms w = .ok entries ∧
      (entries.map (·.1)).Perm ["power", "time", "unused"] ∧
      t.evaluateObjective w = .ok (Scalar.sum (entries.map (·.2))) := by
  obtain ⟨t, ht⟩ := Except.exists_of_isOk
    (show (create .initial Sample.solver (Sample.problemOf Sample.weighedCalls)).isOk = true by
      decide +kernel)
  obtain ⟨htrapezoidal, hall⟩ := evaluateTerms_eq Sample.form_solver ht
  have heval := (htrapezoidal (create_scheme (i := 0) rfl ht)).1
    ⟨_, Problem.holds_ofCalls Sample.weighed⟩
  obtain ⟨tr, entries, htr, -, hentries, -, hperm, -, hobjective⟩ :=
    hall heval (List.replicate t.layout.size (.finite 1)) List.length_replicate
  have hnames : (Sample.problemOf Sample.weighedCalls).costs.map (·.name) =
      ["power", "time", "unused"] := by decide +kernel
  exact ⟨t, _, tr, entries, ht, List.length_replicate, htr, hentries, hnames ▸ hperm, hobjective⟩

/-- A problem that has functions, and costs, but no entries for them at any vector. -/
theorem not_evaluated : ∃ t : Transcription Extended,
    create .initial Sample.solver (.attempted (.text "sample") Sample.unnamedCalls) = .ok t ∧
    (Problem.attempted (.text "sample") Sample.unnamedCalls).costs.map (·.name) =
      ["power", "time", "unused"] ∧
    ∀ w, Raises (t.evaluateTerms w) .dataIntegrity ∧
      Raises (t.evaluateObjective w) .dataIntegrity := by
  obtain ⟨t, ht⟩ := Except.exists_of_isOk
    (show (create .initial Sample.solver
        (.attempted (.text "sample") Sample.unnamedCalls)).isOk = true by decide +kernel)
  refine ⟨t, ht, by decide +kernel, ?_⟩
  exact evaluate_raises ht (create_scheme (i := 0) rfl ht) (by decide) (by decide +kernel)

end Transcription

end Collocation
