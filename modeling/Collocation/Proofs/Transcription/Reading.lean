import Collocation.Proofs.Extended
import Collocation.Proofs.Transcription.Routing

/-! The constraints of a transcription, read from trajectories.  The program cuts a decision vector
into matrices and the layout splits it into rows; both find the same states, controls and
multipliers at every point, so the constraint vector is what the trajectories say, point by point.
-/

namespace Collocation

variable {α : Type} [Scalar α]

theorem Layout.map_entry {n : Nat} {xs : List α} (h : xs.length = n) :
    (List.range n).map (entry xs) = xs := by
  subst h
  refine List.ext_getElem (by simp) fun i _ hi => ?_
  rw [List.getElem_map, List.getElem_range, entry, List.getElem?_eq_getElem hi, Option.getD_some]

theorem Layout.eq_replicate_iff {n : Nat} {xs : List α} {c : α} (h : xs.length = n) :
    xs = List.replicate n c ↔ ∀ i < n, entry xs i = c := by
  conv => lhs; rw [← map_entry h]
  rw [List.eq_replicate_iff, List.forall_mem_map, List.length_map, List.length_range]
  simp only [List.mem_range, true_and]

theorem Layout.entry_map_range {g : Nat → α} {n k : Nat} (hk : k < n) :
    entry ((List.range n).map g) k = g k := by
  simp [entry, hk]

theorem Layout.entry_zipWith {op : α → α → α} {n i : Nat} {xs ys : List α} (hx : xs.length = n)
    (hy : ys.length = n) (hi : i < n) :
    entry (xs.zipWith op ys) i = op (entry xs i) (entry ys i) := by
  have hxi : i < xs.length := hx ▸ hi
  have hyi : i < ys.length := hy ▸ hi
  simp only [entry, List.getElem?_zipWith, List.getElem?_eq_getElem hxi,
    List.getElem?_eq_getElem hyi, Option.getD_some]

namespace Trajectory

/-- A trajectory has rows for all points of a mesh, with an entry for each variable. Rows of
multipliers are there if kinematic constraints are. -/
def Fits (tr : Trajectory α) (f : Functions α) (m : Mesh α) : Prop :=
  tr.Fills m.numPoints f.sizes (Transcription.constrainedPoints f m)

/-- The derivatives of the states at point `k`; the dynamics see the multipliers there, if any. -/
def derivativeAt (tr : Trajectory α) (f : Functions α) (m : Mesh α) (k : Nat) : List α :=
  f.dynamics.at { tr.pointAt m k with multiplier := tr.multipliers[k]?.getD [] }

def intervalLength (tr : Trajectory α) (m : Mesh α) (k : Nat) : α :=
  (tr.finalTime - tr.initialTime) * (Layout.entry m.points (k + 1) - Layout.entry m.points k)

def stateEntry (tr : Trajectory α) (k i : Nat) : α := Layout.entry (tr.states[k]?.getD []) i

def slope (tr : Trajectory α) (f : Functions α) (m : Mesh α) (k i : Nat) : α :=
  Layout.entry (tr.derivativeAt f m k) i

/-- The defect of state `i` on interval `k`: its step, less half the interval times the sum of its
derivatives at both ends. -/
def defectAt (tr : Trajectory α) (f : Functions α) (m : Mesh α) (k i : Nat) : α :=
  tr.stateEntry (k + 1) i - tr.stateEntry k i
    - tr.intervalLength m k / 2.0 * (tr.slope f m k i + tr.slope f m (k + 1) i)

/-- The defects of the interval behind point `k`, which the last point has not. -/
def defectsAt (tr : Trajectory α) (f : Functions α) (m : Mesh α) (k : Nat) : List α :=
  if k + 1 < m.numPoints then (List.range f.sizes.states).map (tr.defectAt f m k) else []

/-- The kinematic errors at point `k`, if there are kinematic constraints. -/
def kinematicAt (tr : Trajectory α) (f : Functions α) (m : Mesh α) (k : Nat) : List α :=
  match f.kinematic with
  | some g => g.at (tr.pointAt m k)
  | none => []

/-- The values of all path constraints at point `k`. -/
def pathAt (tr : Trajectory α) (f : Functions α) (m : Mesh α) (k : Nat) : List α :=
  f.path.flatMap fun c => c.function.at (tr.pointAt m k)

/-- The constraints of a trajectory: at each point the defects of the interval behind it, the
kinematic errors and the path constraints, and at last the length of the horizon, unless both times
are fixed. -/
def constraints (tr : Trajectory α) (f : Functions α) (m : Mesh α) : List α :=
  (List.range m.numPoints).flatMap (fun k =>
      tr.defectsAt f m k ++ (tr.kinematicAt f m k ++ tr.pathAt f m k))
    ++ if f.hasFixedTimes then [] else [tr.finalTime - tr.initialTime]

end Trajectory

namespace Transcription

/-- In a transcription by the trapezoidal rule the points of the scheme are in the order of the
layout. -/
theorem Trapezoidal.placed {t : Transcription α} {p : Problem α} {f : Functions α} {m : Mesh α}
    {d : Declared α} (ht : t.Trapezoidal p f m) (hf : f.Of d) : t.Placed (p.arrangement f) where
  counted := ht.functions ▸ hf.counted
  unconstrained hnone := by
    rw [ht.functions] at hnone
    rw [ht.kinematicPoints, constrainedPoints, hnone]
    rfl
  constrained := by
    rw [ht.mesh, ht.functions, ht.kinematicPoints, ht.layout.constrained]
    refine ⟨?_, fun _ => constrainedPoints_lt, fun _ => .refl _, fun hnone => ?_⟩
    · unfold constrainedPoints
      split_ifs
      · exact List.pairwise_lt_range
      · exact .nil
    · rw [constrainedPoints, hf.multipliers.mp hnone]
      rfl
  layout := by
    rw [ht.mesh, ht.functions, ht.layout.constrained]
    exact ht.layout

section Reading

variable {t : Transcription α} {p : Problem α} {f : Functions α} {m : Mesh α} {d : Declared α}
  {w : List α} {k : Nat}

variable (ht : t.Trapezoidal p f m) (hw : w.length = t.layout.size) (hk : k < m.numPoints)
include ht hk

theorem multipliers_row (hkinematic : f.kinematic.isSome) :
    (t.layout.trajectoryOf w).multipliers[k]?.getD [] = t.layout.multiplierAt w k := by
  simp [Layout.trajectoryOf, ht.layout.constrained, constrainedPoints, hkinematic, hk]

theorem kinematicColumn_eq :
    t.kinematicColumn? k = if f.kinematic.isSome then some k else none := by
  rw [kinematicColumn?, ht.kinematicPoints, constrainedPoints]
  split_ifs
  · rw [List.idxOf?_eq_some_iff]
    refine ⟨by simpa using hk, by simp, fun j hj => ?_⟩
    simp only [List.getElem_map, List.getElem_range, Int.ofNat_eq_natCast, Int.natCast_inj]
    omega
  · rfl

include hw

variable (hf : f.Of d)
include hf

theorem multipliersAt_eq : t.multipliersAt (t.read w) k =
    (t.layout.trajectoryOf w).multipliers[k]?.getD [] := by
  rw [(ht.placed hf).multipliersAt_eq hw, ht.layout.constrained]
  by_cases hkinematic : f.kinematic.isSome
  · have hmem : k ∈ constrainedPoints f m := by simpa [constrainedPoints, hkinematic] using hk
    rw [if_pos hmem, multipliers_row ht hk hkinematic]
  · have hnone := Option.not_isSome_iff_eq_none.mp hkinematic
    have hpoints : constrainedPoints f m = [] := if_neg hkinematic
    rw [hpoints, if_neg List.not_mem_nil, ht.functions, hf.multipliers.mpr hnone]
    simp [Layout.trajectoryOf, ht.layout.constrained, hpoints]

theorem derivativesAt_eq :
    t.derivativesAt (t.read w) k = (t.layout.trajectoryOf w).derivativeAt f m k := by
  rw [derivativesAt, multipliersAt_eq ht hw hk hf, point_eq ht.mesh ht.layout hw hk, ht.functions,
    Trajectory.derivativeAt]

theorem derivatives_column : (t.sample (t.read w)).derivatives.column k =
    (t.layout.trajectoryOf w).derivativeAt f m k := by
  rw [← derivativesAt_eq ht hw hk hf]
  exact (ht.placed hf).column_derivatives (t.read w) (ht.mesh ▸ hk)

theorem kinematic_column {g : VectorFunction (Point α) α} (hg : f.kinematic = some g) :
    (t.sample (t.read w)).kinematic.column k = g.at ((t.layout.trajectoryOf w).pointAt m k) := by
  have hcolumn : t.kinematicColumn? k = some k := by
    rw [kinematicColumn_eq ht hk, hg]
    rfl
  rw [← point_eq ht.mesh ht.layout hw hk]
  exact (ht.placed hf).column_kinematic (t.read w) (ht.functions ▸ hg) hcolumn

omit hf in
theorem path_column {j : Nat} {c : PathFunction α} (hc : f.path[j]? = some c) :
    ((t.sample (t.read w)).path[j]?.map (·.column k)).getD [] =
      c.function.at ((t.layout.trajectoryOf w).pointAt m k) := by
  rw [← point_eq ht.mesh ht.layout hw hk]
  exact Placed.column_path (t.read w) (ht.mesh ▸ hk) (ht.functions ▸ hc)

theorem kinematic_value : (t.kinematicBlock? k).toList.flatMap
    (fun b => b.value (t.sample (t.read w))) = (t.layout.trajectoryOf w).kinematicAt f m k := by
  rw [kinematicBlock?, kinematicColumn_eq ht hk, Trajectory.kinematicAt]
  cases hg : f.kinematic with
  | none => rfl
  | some g =>
    simpa using kinematic_column ht hw hk hf hg

omit hf in
theorem path_values : (t.functions.path.mapIdx (pathBlock k)).flatMap
    (fun b => b.value (t.sample (t.read w))) = (t.layout.trajectoryOf w).pathAt f m k := by
  rw [ht.functions, List.mapIdx_eq_zipIdx_map, List.flatMap_map, Trajectory.pathAt]
  conv => rhs; rw [← List.zipIdx_map_fst 0 f.path, List.flatMap_map]
  refine List.flatMap_congr fun c hc => ?_
  exact path_column ht hw hk (List.mk_mem_zipIdx_iff_getElem?.mp hc)

end Reading

section Defects

theorem intervalDuration_eq {t : Transcription α} {w : List α} {k : Nat}
    (hk : k + 1 < t.mesh.numPoints) :
    t.intervalDuration (t.read w) k = (t.layout.trajectoryOf w).intervalLength t.mesh k := by
  have hinterval := Mesh.entry_differences hk
  rw [Layout.entry] at hinterval
  rw [intervalDuration, Mesh.intervals, hinterval]
  rfl

namespace Placed

section Lengths

variable {t : Transcription α} {a : Arrangement α} {w : List α} {k : Nat} (ht : t.Placed a)
include ht

theorem length_states (hw : w.length = t.layout.size) (hk : k < t.mesh.numPoints) :
    ((t.read w).states.column k).length = t.functions.sizes.states := by
  rw [states_column ht.layout hw hk]
  exact ht.layout.length_stateAt hk hw

theorem length_derivatives (v : Variables α) (hk : k < t.mesh.numPoints) :
    ((t.sample v).derivatives.column k).length = t.functions.sizes.states := by
  rw [ht.column_derivatives _ hk, derivativesAt, VectorFunction.length_at, ht.counted.dynamics]

theorem length_defect (hw : w.length = t.layout.size) (hk : k + 1 < t.mesh.numPoints) :
    (t.defect k (t.sample (t.read w))).length = t.functions.sizes.states := by
  have hk' : k < t.mesh.numPoints := by omega
  have hsample : (t.sample (t.read w)).decision = t.read w := rfl
  simp only [defect, hsample, List.length_zipWith, ht.length_states hw hk', ht.length_states hw hk,
    ht.length_derivatives _ hk', ht.length_derivatives _ hk, Nat.min_self]

end Lengths

/-- An entry of a defect: the step of the state, less half the interval times the sum of its
derivatives at both ends. -/
theorem defect_entry {t : Transcription Extended} {a : Arrangement Extended} {w : List Extended}
    {k i : Nat} (ht : t.Placed a) (hw : w.length = t.layout.size) (hk : k + 1 < t.mesh.numPoints)
    (hi : i < t.functions.sizes.states) :
    Layout.entry (t.defect k (t.sample (t.read w))) i =
      (t.layout.trajectoryOf w).stateEntry (k + 1) i - (t.layout.trajectoryOf w).stateEntry k i
        - (t.layout.trajectoryOf w).intervalLength t.mesh k / 2.0 *
          (Layout.entry ((t.sample (t.read w)).derivatives.column k) i +
            Layout.entry ((t.sample (t.read w)).derivatives.column (k + 1)) i) := by
  have hk' : k < t.mesh.numPoints := by omega
  have hdefect : t.defect k (t.sample (t.read w)) =
      (((t.read w).states.column (k + 1)).zipWith (· - ·) ((t.read w).states.column k)).zipWith
        (fun s f => s - 0.5 * t.intervalDuration (t.read w) k * f)
        (((t.sample (t.read w)).derivatives.column k).zipWith (· + ·)
          ((t.sample (t.read w)).derivatives.column (k + 1))) := rfl
  have hx := ht.length_states hw hk'
  have hx' := ht.length_states hw hk
  have hf := ht.length_derivatives (t.read w) hk'
  have hf' := ht.length_derivatives (t.read w) hk
  rw [hdefect, Layout.entry_zipWith (by simp [hx, hx']) (by simp [hf, hf']) hi,
    Layout.entry_zipWith hx' hx hi, Layout.entry_zipWith hf hf' hi, intervalDuration_eq hk,
    Extended.half_mul, Trajectory.stateEntry, Trajectory.stateEntry, states_row ht.layout hk,
    states_row ht.layout hk', states_column ht.layout hw hk, states_column ht.layout hw hk']

end Placed

end Defects

section Exact

variable {t : Transcription Extended} {p : Problem Extended} {f : Functions Extended}
  {m : Mesh Extended} {d : Declared Extended} {w : List Extended} {k : Nat}

variable (ht : t.Trapezoidal p f m) (hw : w.length = t.layout.size) (hf : f.Of d)
include ht hw hf

/-- The defects of the program are those of the trajectory. -/
theorem defect_eq (hk : k + 1 < m.numPoints) :
    t.defect k (t.sample (t.read w)) = (t.layout.trajectoryOf w).defectsAt f m k := by
  have hk' : k < m.numPoints := by omega
  have hplaced := ht.placed hf
  have hnext : k + 1 < t.mesh.numPoints := ht.mesh ▸ hk
  rw [Trajectory.defectsAt, if_pos hk, ← ht.functions,
    ← Layout.map_entry (hplaced.length_defect hw hnext)]
  refine List.map_congr_left fun i hi => ?_
  rw [hplaced.defect_entry hw hnext (List.mem_range.mp hi), derivatives_column ht hw hk' hf,
    derivatives_column ht hw hk hf, ht.mesh, ht.functions]
  rfl

theorem point_values (hk : k < m.numPoints) :
    (t.pointBlocks k).flatMap (fun b => b.value (t.sample (t.read w))) =
      (t.layout.trajectoryOf w).defectsAt f m k ++
        ((t.layout.trajectoryOf w).kinematicAt f m k ++
          (t.layout.trajectoryOf w).pathAt f m k) := by
  rw [pointBlocks, List.flatMap_append, List.flatMap_append, kinematic_value ht hw hk hf,
    path_values ht hw hk, ht.mesh, List.append_assoc]
  congr 1
  split_ifs with hnext
  · rw [List.flatMap_singleton, ← defect_eq ht hw hf hnext]
    rfl
  · rw [Trajectory.defectsAt, if_neg hnext, List.flatMap_nil]

/-- The constraint vector is what the trajectories of the decision vector say. -/
theorem constraints_eq : (t.trapezoidalProgram m).constraints w =
    (t.layout.trajectoryOf w).constraints f m := by
  have hduration : t.durationBlocks.flatMap (fun b => b.value (t.sample (t.read w))) =
      if f.hasFixedTimes then []
      else [(t.layout.trajectoryOf w).finalTime - (t.layout.trajectoryOf w).initialTime] := by
    rw [durationBlocks, ht.functions]
    split_ifs <;> rfl
  simp only [Program.constraints, trapezoidalProgram, List.flatMap_append, hduration]
  rw [List.flatMap_assoc, Trajectory.constraints]
  congr 1
  exact List.flatMap_congr fun k hk => point_values ht hw hf (List.mem_range.mp hk)

end Exact

/-- The content of a decision vector has a row for each point of the mesh. -/
theorem Trapezoidal.fits {t : Transcription α} {p : Problem α} {f : Functions α} {m : Mesh α}
    (ht : t.Trapezoidal p f m) {w : List α} (hw : w.length = t.layout.size) :
    (t.layout.trajectoryOf w).Fits f m :=
  ht.layout.fills (fun _ => constrainedPoints_lt) hw

/-- The program and the layout read a decision vector alike: the constraint vector is what the
trajectories say that the vector is split into. -/
theorem evaluateConstraints_eq {calls : List (Problem.Call Extended)} {name : Value Extended}
    {p : Problem Extended} (hcalls : (Edit.sequence Problem.Call.run calls).Yields { name } () p)
    {r : Registry Extended} {solver : Solver Extended} {t : Transcription Extended}
    (hcreate : create r solver p = .ok t) (hscheme : t.scheme = .trapezoidal) :
    ∃ f, p.functions = .ok f ∧ f.Of (.ofCalls calls) ∧
      ∀ w, w.length = t.layout.size → ∃ tr, t.layout.split w = .ok tr ∧ tr.Fits f solver.mesh ∧
        t.evaluateConstraints w = .ok (tr.constraints f solver.mesh) := by
  obtain ⟨f, hf, hof, ht⟩ := create_eq_ok (Problem.holds_ofCalls hcalls) hcreate hscheme
  refine ⟨f, hf, hof, fun w hw => ⟨t.layout.trajectoryOf w, if_pos hw, ht.fits hw, ?_⟩⟩
  have hcheck : t.checkVector w = .ok w := if_pos hw
  rw [evaluateConstraints, ht.program_eq, hcheck]
  simp only [bind, Except.bind, pure, Except.pure, constraints_eq ht hw hof]

namespace Sample

def drive : Evaluator (Point Extended) Extended := fun _ =>
  .ok (.function ⟨1, 1, [fun pt => Layout.entry pt.control 0 + Layout.entry pt.multiplier 0]⟩)

def moment : Evaluator (Point Extended) Extended := fun _ =>
  .ok (.function ⟨1, 1, [fun pt => Layout.entry pt.state 0 * pt.time]⟩)

/-- A problem with a variable of each sort but parameters, kinematic constraints and a path
constraint. -/
def calls : List (Problem.Call Extended) :=
  [.time (.real 0.0) (.tuple [.real 1.0, .none]),
    .state (.text "x") .none (.real 1.0) .none,
    .control (.text "u") (.tuple [.int (-1), .int 1]) .none .none,
    .dynamics (.evaluator drive),
    .kinematic (.evaluator moment) (.int 1) .none,
    .path (.text "band") (.evaluator moment) (.list [.tuple [.none, .int 2]])]

def solver : Solver Extended where
  scheme := "trapezoidal"
  mesh := ⟨[0.0, 0.25, 1.0]⟩
  enforceDerivatives := false
  schemeOptions := []
  optimSolver := "ipopt"
  maxIterations := none
  convergenceTolerance := none
  constraintTolerance := none
  hessian := "exact"
  verbosity := 0
  engineOptions := []
  showSummary := .none

theorem form_solver : Mesh.ofForm (.points (.list [.real 0.0, .real 0.25, .real 1.0])) =
    .ok solver.mesh := by
  with_unfolding_all rfl

/-- The problem that some calls declare. -/
def problemOf (calls : List (Problem.Call Extended)) : Problem Extended :=
  ((Edit.sequence Problem.Call.run calls).run { name := .text "sample" }).run.2

def problem : Problem Extended := problemOf calls

theorem declared :
    (Edit.sequence Problem.Call.run calls).Yields { name := .text "sample" } () problem :=
  Edit.yields_of_isOk (by decide +kernel)

theorem created : ∃ t, create .initial solver problem = .ok t ∧ t.scheme = .trapezoidal := by
  obtain ⟨t, ht⟩ := Except.exists_of_isOk
    (show (create .initial solver problem).isOk = true by decide +kernel)
  exact ⟨t, ht, create_scheme (i := 0) rfl ht⟩

end Sample

theorem evaluateConstraints_sample : ∃ t, create .initial Sample.solver Sample.problem = .ok t ∧
    ∃ f, Sample.problem.functions = .ok f ∧ f.Of (.ofCalls Sample.calls) ∧
      ∀ w, w.length = t.layout.size → ∃ tr, t.layout.split w = .ok tr ∧
        tr.Fits f Sample.solver.mesh ∧
        t.evaluateConstraints w = .ok (tr.constraints f Sample.solver.mesh) := by
  obtain ⟨t, ht, hscheme⟩ := Sample.created
  exact ⟨t, ht, evaluateConstraints_eq Sample.declared ht hscheme⟩

end Transcription

end Collocation
