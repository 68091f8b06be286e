import Collocation.Proofs.Guess.Reading
import Collocation.Proofs.Guess.Solution
import Collocation.Proofs.Solve

/-! Warm starts.  A start that is made of a solution has the values of the solution at every point
that its mesh shares with that of the solution, moved into the bounds; on the same mesh it is the
vector that the solution was decoded from. -/

namespace Collocation

namespace Guess

section Samples

variable {m : Mesh Extended} {qs : List ℚ} {a b : ℚ}

theorem times_grid (h : m.Grid qs) (hab : a < b) : Times (Mesh.gridTimes qs a b) where
  two := Mesh.length_gridTimes.symm ▸ h.two
  increasing := Mesh.gridTimes_increasing h.increasing hab

/-- As fractions of the horizon, the times of a mesh are its points again. -/
theorem fractions_grid (h : m.Grid qs) (hab : a < b) : fractions (Mesh.gridTimes qs a b) = qs := by
  have hmoved : Mesh.gridTimes qs a b = qs.map fun q => (b - a) * q + a :=
    List.map_congr_left fun q _ => add_comm a ((b - a) * q)
  have hne : qs ≠ [] := by
    rintro rfl
    exact absurd h.two (by decide)
  rw [hmoved, fractions_affine (sub_pos.mpr hab) a hne]
  simp [fractions, List.headD_eq_head?_getD, h.first, h.last]

end Samples

/-- A solution on a mesh: rows of finite numbers at the times of a horizon, and multipliers at all
points or at none. -/
structure Solves (S : Solution Extended) (m : Mesh Extended) (qs : List ℚ) (a b : ℚ)
    (d : Dimensions) : Prop where
  grid : m.Grid qs
  horizon : a < b
  times : S.times = (Mesh.gridTimes qs a b).map .finite
  initialTime : S.initialTime = .finite a
  finalTime : S.finalTime = .finite b
  states : Rows S.states m.points d.states
  controls : Rows S.controls m.points d.controls
  finiteStates : ∀ row ∈ S.states, ∀ x ∈ row, Scalar.isFinite x
  finiteControls : ∀ row ∈ S.controls, ∀ x ∈ row, Scalar.isFinite x
  finiteMultipliers : ∀ row ∈ S.multipliers, ∀ x ∈ row, Scalar.isFinite x
  names : S.names.multipliers.length = d.multipliers
  parameters : S.parameters.length = d.parameters
  multipliers : S.multiplierIndices = [] ∨ Rows S.multipliers m.points d.multipliers ∧
    S.multiplierIndices = Selection.positions m.numPoints

section Solution

variable {S : Solution Extended} {old new : Mesh Extended} {qs : List ℚ} {a b : ℚ}
  {d : Dimensions} {l : Layout Extended} {base : Trajectory Extended}

variable (hS : Solves S old qs a b d)
include hS

theorem Solves.length_times : S.times.length = old.numPoints := by
  rw [hS.times, Mesh.numPoints, hS.grid.points, List.length_map, List.length_map,
    Mesh.length_gridTimes]

/-- Multipliers that are there at all points, or at none, stay as they are. -/
theorem Solves.exists_spread : ∃ ks, S.multiplierIndices = ks.map (fun (k : Nat) => .int k) ∧
    (∀ k ∈ ks, k < S.numPoints) ∧ spread S ks = S := by
  have hnum : S.numPoints = old.numPoints := hS.length_times
  rcases hS.multipliers with hnone | ⟨hrows, hindices⟩
  · exact ⟨[], hnone, nofun, rfl⟩
  · refine ⟨List.range old.numPoints, hindices, fun k hk => hnum ▸ List.mem_range.mp hk, ?_⟩
    have hne : (List.range old.numPoints).isEmpty = false := by
      simpa using Nat.ne_of_gt hS.grid.numPoints_pos
    have hall : (List.range old.numPoints).filterMap (S.times[·]?) = S.times := by
      rw [← hS.length_times, filterMap_range_getElem?]
    have hlength : S.multipliers.length = (Mesh.gridTimes qs a b).length := by
      rw [hrows.length, hS.grid.points, List.length_map, Mesh.length_gridTimes]
    have hself : Interpolation.resample S.times S.multipliers d.multipliers S.times =
        S.multipliers := by
      rw [hS.times]
      exact Interpolation.resample_self (Mesh.gridTimes_increasing hS.grid.increasing hS.horizon)
        (Mesh.length_gridTimes.symm ▸ hS.grid.two) hlength hrows.widths
    rw [spread, hne, hall, hS.names, hself, hnum, ← hindices]
    rfl

theorem ofSolution_eq (hcountable : (old.numPoints : Int) ≤ Tensor.countable) :
    ofSolution S = .ok (again S) := by
  obtain ⟨ks, hindices, hks, heq⟩ := hS.exists_spread
  have hnum : S.numPoints = old.numPoints := hS.length_times
  rw [ofSolution_spread hindices hks (hnum ▸ hcountable), heq]

theorem Solves.sampled : Sampled S d := by
  have hlength : old.points.length = S.times.length := hS.length_times.symm
  have htwo := hS.grid.two
  refine ⟨?_, ⟨hS.states.length.trans hlength, hS.states.widths⟩,
    ⟨hS.controls.length.trans hlength, hS.controls.widths⟩, hS.finiteStates, hS.finiteControls,
    hS.parameters, hS.multipliers.imp_right fun h => ⟨h.1.length.trans hlength, h.1.widths⟩⟩
  rwa [← hlength, hS.grid.points, List.length_map]

theorem Solves.usable (l : Layout Extended) : Usable S l where
  times := by
    rw [hS.times]
    exact (checkTimes_iff.mp (checkTimes_eq_ok.mpr (times_grid hS.grid hS.horizon))).2
  multipliers _ _ := hS.finiteMultipliers

/-- As fractions of the horizon, the times are the points of the mesh again. -/
theorem Solves.normalized_eq : normalized S.times = old.points := by
  rw [hS.times, normalized_finite (times_grid hS.grid hS.horizon),
    fractions_grid hS.grid hS.horizon, hS.grid.points]

/-- A solution as a guess stands for its resampled content, moved into the bounds. -/
theorem vector_again {arrangement : Arrangement Extended}
    (h : l.Arranged new.numPoints d l.constrained arrangement)
    (hks : ∀ k ∈ l.constrained, k < new.numPoints) : (again S).vector l new =
      .ok (l.clip (l.join (resampled S old.points l new (l.trajectoryOf (default l))))) := by
  rw [hS.sampled.vector_eq h hks (hS.usable l), hS.normalized_eq]

/-- A solution is taken up on any layout of its sizes. -/
theorem start_solution {arrangement : Arrangement Extended}
    (h : l.Arranged new.numPoints d l.constrained arrangement)
    (hks : ∀ k ∈ l.constrained, k < new.numPoints)
    (hcountable : (old.numPoints : Int) ≤ Tensor.countable) :
    (GuessSource.solution S).start l new =
      .ok (l.clip (l.join (resampled S old.points l new (l.trajectoryOf (default l))))) := by
  rw [GuessSource.start, ofSolution_eq hS hcountable]
  exact vector_again hS h hks

/-- On its own mesh a solution is resampled to the content that it shows. -/
theorem resampled_self {tr : Trajectory Extended} (hd : l.sizes = d)
    (hindices : S.multiplierIndices = l.constrained.map fun (k : Nat) => .int k)
    (hbase : base.Fills old.numPoints d l.constrained)
    (htr : tr.Fills old.numPoints d l.constrained) (hshows : S.Shows tr) :
    resampled S old.points l old base = tr := by
  subst hd
  have hrows {rows : List (List Extended)} {width : Nat} (h : Rows rows old.points width) :
      Interpolation.resample old.points rows width old.points = rows := by
    rw [hS.grid.points]
    refine Interpolation.resample_self hS.grid.increasing hS.grid.two ?_ h.widths
    rw [h.length, hS.grid.points, List.length_map]
  have hmultipliers : (resampled S old.points l old base).multipliers = tr.multipliers := by
    -- Without constrained points both lists of rows are empty.
    rcases hS.multipliers with hnone | ⟨hms, hall⟩
    · have hempty : l.constrained = [] := List.map_eq_nil_iff.mp (hindices.symm.trans hnone)
      have hbase := hbase.multipliers
      have htr := htr.multipliers
      rw [hempty, List.length_nil, List.length_eq_zero_iff] at hbase htr
      simp [resampled, hempty, hbase, htr]
    · have hconstrained : l.constrained = List.range old.numPoints := by
        refine List.map_injective_iff.mpr (fun i j hij => ?_) (hindices.symm.trans hall)
        simpa using hij
      have hpoints : constrainedPoints l old = old.points := by
        rw [constrainedPoints, hconstrained]
        refine List.ext_getElem (by simp [Mesh.numPoints]) fun i _ hi => ?_
        simp [hi]
      have hne : l.constrained ≠ [] := by
        simpa [hconstrained] using Nat.ne_of_gt hS.grid.numPoints_pos
      have hnone : S.multiplierIndices ≠ [] := by simpa [hindices] using hne
      simp [resampled, hne, hnone, hpoints, hrows hms, ← hshows.multipliers]
  have hstates : (resampled S old.points l old base).states = tr.states :=
    (hrows hS.states).trans hshows.states
  have hcontrols : (resampled S old.points l old base).controls = tr.controls :=
    (hrows hS.controls).trans hshows.controls
  let r := resampled S old.points l old base
  calc r = ⟨r.states, r.controls, r.multipliers, S.initialTime, S.finalTime, S.parameters⟩ := rfl
    _ = tr := by
      rw [hstates, hcontrols, hmultipliers, hshows.initialTime, hshows.finalTime,
        hshows.parameters]

/-- At a point of its mesh a solution is resampled to its row there, whatever the other points. -/
theorem resample_shared {rows : List (List Extended)} {width k : Nat} {x : Extended}
    (h : Rows rows old.points width) (hx : old.points[k]? = some x) : ∃ row,
      rows[k]? = some row ∧ ∀ {queries : List Extended} {i : Nat}, queries[i]? = some x →
        (Interpolation.resample old.points rows width queries)[i]? = some row := by
  have hlength := h.length
  rw [hS.grid.points, List.length_map] at hlength
  rw [hS.grid.points, List.getElem?_map, Option.map_eq_some_iff] at hx
  obtain ⟨q, hq, rfl⟩ := hx
  have hk : k < rows.length := by
    rw [hlength]
    exact (List.getElem?_eq_some_iff.mp hq).1
  have hrow : rows[k]? = some rows[k] := List.getElem?_eq_getElem hk
  refine ⟨rows[k], hrow, fun hi => ?_⟩
  rw [hS.grid.points]
  exact Interpolation.resample_at hS.grid.increasing hq hS.grid.two hlength hrow
    (h.widths _ (List.getElem_mem hk)) hi

end Solution

end Guess

/-! ### Shared points -/

section Shared

variable {α : Type} [Scalar α]

namespace Layout

/-- A vector takes up a solution: at the points that both meshes share, its rows are those of the
solution, moved into the bounds there, and so are its times and parameters. -/
structure Continues (l : Layout α) (new old : Mesh α) (S : Solution α) (v : List α) : Prop where
  length : v.length = l.size
  states : ∀ (j k : Nat) x, new.points[j]? = some x → old.points[k]? = some x → ∃ r row,
    l.stateRange (.int j) = .ok r ∧ S.states[k]? = some row ∧ r.of v = l.clipRow r row
  controls : ∀ (j k : Nat) x, new.points[j]? = some x → old.points[k]? = some x → ∃ r row,
    l.controlRange (.int j) = .ok r ∧ S.controls[k]? = some row ∧ r.of v = l.clipRow r row
  /-- Where the layout has multipliers, the solution has some at the same point. -/
  multipliers : ∀ (j k : Nat) x, new.points[j]? = some x → old.points[k]? = some x → ∃ found,
    l.multiplierRange (.int j) = .ok found ∧ ∀ r ∈ found, ∃ (i : Nat) (row : List α),
      S.multiplierIndices[i]? = some (.int k) ∧ S.multipliers[i]? = some row ∧
      r.of v = l.clipRow r row
  initialTime : l.initialPlace.of v = l.clipRow l.initialPlace [S.initialTime]
  finalTime : l.finalPlace.of v = l.clipRow l.finalPlace [S.finalTime]
  parameters : l.parameterRange.of v = l.clipRow l.parameterRange S.parameters

end Layout

end Shared

namespace Guess

variable {S : Solution Extended} {old new : Mesh Extended} {qs : List ℚ} {a b : ℚ}
  {d : Dimensions} {l : Layout Extended} {base : Trajectory Extended}

section Continues

variable {arrangement : Arrangement Extended} (hS : Solves S old qs a b d)
  (h : l.Arranged new.numPoints d l.constrained arrangement)
  (hks : ∀ k ∈ l.constrained, k < new.numPoints) (hsorted : l.constrained.Pairwise (· < ·))
  (hbase : base.Fills new.numPoints d l.constrained)
  (hboth : S.multiplierIndices = [] → l.constrained = [])
include hS h hks hsorted hbase hboth

/-- The row of multipliers at a shared point is found by the position of the point among those of
the solution and, in the vector, by its position among the constrained ones. -/
theorem multipliers_resampled {j k : Nat} {x : Extended} (hj : new.points[j]? = some x)
    (hk : old.points[k]? = some x) (hmem : j ∈ l.constrained) : ∃ (i : Nat) (row : List Extended),
      S.multiplierIndices[i]? = some (.int k) ∧ S.multipliers[i]? = some row ∧
      (l.multiplierPlace j).of (l.join (resampled S old.points l new base)) = row := by
  have hsplit := h.split_join hks hsorted (hS.sampled.fills h.sizes old.points hbase)
  have hne : l.constrained ≠ [] := List.ne_nil_of_mem hmem
  have hsome : S.multiplierIndices ≠ [] := mt hboth hne
  obtain ⟨hms, hall⟩ := hS.multipliers.resolve_left hsome
  obtain ⟨i, hi⟩ := List.mem_iff_getElem?.mp hmem
  obtain ⟨r, hr, hrow⟩ := (h.inverse hks hsorted).multiplierRows _ _ hsplit i j hi
  rw [h.multiplierRange_eq (hks j hmem), if_pos (List.contains_iff_mem.mpr hmem), Except.ok.injEq,
    Option.some.injEq] at hr
  obtain ⟨row, hrow', hshared⟩ := resample_shared hS hms hk
  have hpoint : (constrainedPoints l new)[i]? = some x := by
    rw [constrainedPoints, List.getElem?_map, hi, Option.map_some, hj, Option.getD_some]
  have hresampled : (resampled S old.points l new base).multipliers[i]? = some row := by
    simpa [resampled, hne, hsome, h.sizes] using hshared hpoint
  have hindex : S.multiplierIndices[k]? = some (.int k) := by
    have hlt : k < old.numPoints := (List.getElem?_eq_some_iff.mp hk).1
    simp [hall, Selection.positions, hlt]
  refine ⟨k, row, hindex, hrow', ?_⟩
  rw [hr]
  exact Option.some.inj (hrow.symm.trans hresampled)

/-- A resampled solution is taken up at the shared points. -/
theorem continues_resampled :
    l.Continues new old S (l.clip (l.join (resampled S old.points l new base))) := by
  have hsplit := h.split_join hks hsorted (hS.sampled.fills h.sizes old.points hbase)
  have hinverse := h.inverse hks hsorted
  obtain ⟨hlength, hcontent⟩ := Layout.split_eq_ok.mp hsplit
  obtain ⟨hinitial, hfinal⟩ := h.times_of hlength
  have hlt {j : Nat} {x : Extended} (hj : new.points[j]? = some x) : j < new.numPoints :=
    (List.getElem?_eq_some_iff.mp hj).1
  refine ⟨?length, fun j k x hj hk => ?states, fun j k x hj hk => ?controls,
    fun j k x hj hk => ?multipliers, ?initialTime, ?finalTime, ?parameters⟩
  case length => rw [Layout.clip, List.length_zipWith, hlength, Layout.size, Nat.min_self]
  case states =>
    obtain ⟨r, -, hr, hrow, -, -⟩ := hinverse.pointRows _ _ hsplit j (hlt hj)
    obtain ⟨row, hk, hshared⟩ := resample_shared hS hS.states hk
    have hj := hshared hj
    rw [← h.sizes] at hj
    obtain rfl : row = _ := Option.some.inj (hj.symm.trans hrow)
    exact ⟨r, _, hr, hk, l.of_clip r _⟩
  case controls =>
    obtain ⟨-, r, -, -, hr, hrow⟩ := hinverse.pointRows _ _ hsplit j (hlt hj)
    obtain ⟨row, hk, hshared⟩ := resample_shared hS hS.controls hk
    have hj := hshared hj
    rw [← h.sizes] at hj
    obtain rfl : row = _ := Option.some.inj (hj.symm.trans hrow)
    exact ⟨r, _, hr, hk, l.of_clip r _⟩
  case multipliers =>
    refine ⟨_, h.multiplierRange_eq (hlt hj), fun r hr => ?_⟩
    split_ifs at hr with hmem
    · obtain rfl : l.multiplierPlace j = r := Option.some.inj hr
      obtain ⟨i, row, hindex, hrow, hof⟩ := multipliers_resampled hS h hks hsorted hbase hboth hj hk
        (List.contains_iff_mem.mp hmem)
      exact ⟨i, row, hindex, hrow, by rw [l.of_clip, hof]⟩
    · cases hr
  case initialTime =>
    have htime := congrArg Trajectory.initialTime hcontent
    rw [l.of_clip, hinitial]
    exact congrArg (fun x => l.clipRow _ [x]) htime
  case finalTime =>
    have htime := congrArg Trajectory.finalTime hcontent
    rw [l.of_clip, hfinal]
    exact congrArg (fun x => l.clipRow _ [x]) htime
  case parameters =>
    rw [l.of_clip]
    exact congrArg (l.clipRow _) (congrArg Trajectory.parameters hcontent)

end Continues

end Guess

end Collocation
