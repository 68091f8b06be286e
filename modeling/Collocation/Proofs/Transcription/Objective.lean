import Collocation.Proofs.Transcription.Reading

/-! The objective of a transcription, read from trajectories.  Costs have different names, so there
is a term for each of them, which is read from the two ends or from all points; the objective is
their sum. -/

namespace Collocation

variable {α : Type} [Scalar α]

namespace Trajectory

def endsOn (tr : Trajectory α) (m : Mesh α) : Endpoints α where
  initialTime := tr.initialTime
  initialState := tr.states[0]?.getD []
  finalTime := tr.finalTime
  finalState := tr.states[m.numPoints - 1]?.getD []
  parameter := tr.parameters

def endpointCost (tr : Trajectory α) (m : Mesh α) (c : CostFunction (Endpoints α) α) : α :=
  Transcription.weighted c.weight [Transcription.single c.function (tr.endsOn m)]

def integrand (tr : Trajectory α) (m : Mesh α) (c : CostFunction (Point α) α) : List α :=
  (List.range m.numPoints).map fun k => Transcription.single c.function (tr.pointAt m k)

def integralCost (tr : Trajectory α) (m : Mesh α) (c : CostFunction (Point α) α) : α :=
  if (Transcription.trapezoidalWeights m.intervals).all (Scalar.eq · 0.0) then 0.0
  else Transcription.weighted c.weight [tr.finalTime - tr.initialTime,
    Transcription.weightedSum (Transcription.trapezoidalWeights m.intervals) (tr.integrand m c)]

def costs (tr : Trajectory α) (f : Functions α) (m : Mesh α) : List α :=
  f.endpointCosts.map (tr.endpointCost m) ++ f.integralCosts.map (tr.integralCost m)

/-- An integral cost with any coefficients in the place of the trapezoidal weights. -/
def integralCostBy (tr : Trajectory α) (weights : List α) (m : Mesh α)
    (c : CostFunction (Point α) α) : α :=
  if weights.all (Scalar.eq · 0.0) then 0.0
  else Transcription.weighted c.weight [tr.finalTime - tr.initialTime,
    Transcription.weightedSum weights (tr.integrand m c)]

def namedCosts (tr : Trajectory α) (weights : List α) (f : Functions α) (m : Mesh α) :
    List (String × α) :=
  f.endpointCosts.map (fun c => (c.name, tr.endpointCost m c))
    ++ f.integralCosts.map fun c => (c.name, tr.integralCostBy weights m c)

theorem namedCosts_names (tr : Trajectory α) (weights : List α) (f : Functions α) (m : Mesh α) :
    (tr.namedCosts weights f m).map (·.1) = f.costNames := by
  rw [namedCosts, List.map_append, List.map_map, List.map_map]
  rfl

theorem namedCosts_values (tr : Trajectory α) (f : Functions α) (m : Mesh α) :
    (tr.namedCosts (Transcription.trapezoidalWeights m.intervals) f m).map (·.2) =
      tr.costs f m := by
  rw [namedCosts, List.map_append, List.map_map, List.map_map]
  rfl

end Trajectory

namespace ObjectiveTerm

omit [Scalar α]

theorem put_of_fresh {s : ObjectiveTerm α} {held : List (ObjectiveTerm α)}
    (h : s.name ∉ held.map (·.name)) : s.put held = held ++ [s] := by
  induction held with
  | nil => rfl
  | cons first rest ih =>
    rw [List.map_cons, List.mem_cons, not_or] at h
    rw [put, if_neg (Ne.symm h.1), ih h.2, List.cons_append]

/-- Terms with different names are all kept, in their order. -/
theorem byName_of_nodup {terms : List (ObjectiveTerm α)} (h : (terms.map (·.name)).Nodup) :
    byName terms = terms := by
  have hfold (held rest : List (ObjectiveTerm α)) (h : ((held ++ rest).map (·.name)).Nodup) :
      rest.foldl (fun held s => s.put held) held = held ++ rest := by
    induction rest generalizing held with
    | nil => rw [List.foldl_nil, List.append_nil]
    | cons s rest ih =>
      have hfresh : s.name ∉ held.map (·.name) := by
        rw [List.map_append, List.nodup_append] at h
        exact fun hs => h.2.2 _ hs _ (by simp) rfl
      rw [List.append_cons] at h
      rw [List.foldl_cons, put_of_fresh hfresh, ih _ h, List.append_assoc, List.singleton_append]
  exact hfold [] terms h

-- Terms with one name would be one term, at the place of the first and with the value of the last.
example (f g : Variables α → α) :
    byName [⟨"time", f⟩, ⟨"energy", f⟩, ⟨"time", g⟩] = [⟨"time", g⟩, ⟨"energy", f⟩] := rfl

end ObjectiveTerm

namespace Transcription

section Reading

variable {t : Transcription α} {m : Mesh α} {sizes : Dimensions} {ks : List Nat}
  {a : Arrangement α} {w : List α}

variable (hmesh : t.mesh = m) (hl : t.layout.Arranged m.numPoints sizes ks a)
  (hw : w.length = t.layout.size)
include hl hw

theorem endpoints_eq (hm : 0 < m.numPoints) :
    (t.read w).endpoints (m.numPoints - 1) = (t.layout.trajectoryOf w).endsOn m := by
  have hlast : m.numPoints - 1 < m.numPoints := by omega
  rw [Variables.endpoints, Trajectory.endsOn, states_column hl hw hm, states_column hl hw hlast,
    states_row hl hm, states_row hl hlast]
  rfl

include hmesh

theorem integrandValues_eq (c : CostFunction (Point α) α) :
    t.integrandValues c.function (t.read w) = (t.layout.trajectoryOf w).integrand m c := by
  rw [integrandValues, hmesh, Trajectory.integrand]
  refine List.map_congr_left fun k hk => ?_
  rw [point_eq hmesh hl hw (List.mem_range.mp hk)]

/-- There is a term for every cost, with the value that the trajectories give it. -/
theorem termValues_eq {prog : Program α} (hprog : t.program = .ok prog) (hm : 0 < m.numPoints)
    (hnames : t.functions.costNames.Nodup) :
    prog.termValues w = (t.layout.trajectoryOf w).namedCosts t.quadrature t.functions m := by
  obtain ⟨blocks, -, rfl⟩ := program_parts hprog
  have hendpoint (c : CostFunction (Endpoints α) α) :
      (t.endpointTerm c).value (t.read w) = (t.layout.trajectoryOf w).endpointCost m c := by
    simp only [endpointTerm, hmesh, endpoints_eq hl hw hm, Trajectory.endpointCost]
  have hintegral (c : CostFunction (Point α) α) :
      (t.integralTerm c).value (t.read w) =
        (t.layout.trajectoryOf w).integralCostBy t.quadrature m c := by
    simp only [integralTerm, integrandValues_eq hmesh hl hw]
    rfl
  have hterms : t.objectiveTerms = t.costTerms := by
    refine ObjectiveTerm.byName_of_nodup ?_
    rwa [costTerms, List.map_append, List.map_map, List.map_map]
  simp only [Program.termValues, hterms, costTerms, List.map_append,
    List.map_map, Trajectory.namedCosts]
  congr 1
  · exact List.map_congr_left fun c _ => congrArg (Prod.mk c.name) (hendpoint c)
  · exact List.map_congr_left fun c _ => congrArg (Prod.mk c.name) (hintegral c)

end Reading

/-- The objective of a transcription by the trapezoidal rule is the sum of all costs. -/
theorem Trapezoidal.evaluateObjective_eq {t : Transcription α} {p : Problem α} {f : Functions α}
    {m : Mesh α} (ht : t.Trapezoidal p f m) {w : List α} (hw : w.length = t.layout.size)
    (hm : 0 < m.numPoints) :
    t.evaluateObjective w = .ok (Scalar.sum ((t.layout.trajectoryOf w).costs f m)) := by
  have hfault : t.scheme.objectiveFault = none := by rw [ht.scheme, Scheme.trapezoidal]
  have hvalues := termValues_eq ht.mesh ht.layout hw ht.program_eq hm
    (by rw [ht.functions]; exact ht.costNames)
  rw [objective_of_program ht.program_eq hfault hw, Program.objective, hvalues, ht.quadrature,
    ht.functions, Trajectory.namedCosts_values]

end Transcription

end Collocation
