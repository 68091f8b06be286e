import Collocation.Proofs.Guess.Solution
import Collocation.Proofs.Interpolation.Polyline
import Collocation.Proofs.Mesh

/-! Restarts.  A solution that can be used as a guess gives a start that is within the bounds, if
its times are finite with a finite way between them.  Its multipliers stay finite where they are
there at all times already, and in exact arithmetic wherever they are. -/

namespace Collocation

variable {α : Type} [Scalar α]

/-- A vector has an entry for each variable, within its bounds. -/
structure Layout.Admits (l : Layout α) (w : List α) : Prop where
  length : w.length = l.size
  within : ∀ (i : Nat) s, l.slots[i]? = some s → ∃ x, w[i]? = some x ∧ s.bounds.Within x

namespace Guess

/-! ### Bounds -/

section Admitted

variable {S : Solution α} {l : Layout α} {w : List α}

/-- A start for a solution of finite numbers is within all bounds, if its times are not too far
apart. -/
theorem Screened.admits [Rounding α] (h : Screened (again S) l w) (hspans : Spans S.times)
    (hinitial : Scalar.isFinite S.initialTime) (hfinal : Scalar.isFinite S.finalTime)
    (hparameters : ∀ x ∈ S.parameters, Scalar.isFinite x) : l.Admits w := by
  have hnumber {x : α} (hx : Scalar.isFinite x) : ¬ Scalar.isNaN x = true := by
    obtain ⟨q, hq⟩ := Rounding.isFinite_iff.mp hx
    rw [Rounding.isNaN_iff, hq]
    exact nofun
  have hgiven {x : α} {pick : List α → α} (hx : Scalar.isFinite x) :
      ¬ CorruptTime (.real x) (again S).times pick := by
    rintro (⟨y, hy, hnan⟩ | ⟨hnone, -⟩)
    · obtain rfl : x = y := Except.ok.inj hy
      exact hnumber hx hnan
    · cases hnone
  have hnan : ∀ i : Nat, ¬ Layout.NaNAt w i := by
    intro i
    -- Before the times, at one of them, or behind them.
    rcases Nat.lt_or_ge i l.initialTimeIndex with hi | hi
    · exact h.points (.inr ⟨S.times, Value.toVector_ofRow _, hspans⟩) i hi
    obtain ⟨j, rfl⟩ := Nat.exists_eq_add_of_le hi
    match j with
    | 0 => exact mt h.initialTime.mp (hgiven hinitial)
    | 1 => exact mt h.finalTime.mp (hgiven hfinal)
    | j + 2 =>
      rw [Nat.add_comm j 2, ← Nat.add_assoc]
      refine mt (h.parameters j).mp ?_
      rintro ⟨-, ps, hps, x, hx, hisNaN⟩
      obtain rfl := Except.ok.inj ((Value.toVector_ofRow S.parameters).symm.trans hps)
      exact hnumber (hparameters x (List.mem_of_getElem? hx)) hisNaN
  refine ⟨h.length, fun i s hs => ?_⟩
  obtain ⟨x, hx, hwithin⟩ := h.within i s hs
  exact ⟨x, hx, hwithin.resolve_left fun hisNaN => hnan i ⟨x, hx, hisNaN⟩⟩

end Admitted

/-! ### Multipliers -/

/-- Multipliers that are there at all times are resampled to finite ones. -/
theorem spread_range_finite [Faithful α] {S : Solution α}
    (hlength : S.multipliers.length = S.numPoints)
    (hfinite : ∀ row ∈ S.multipliers, ∀ x ∈ row, Scalar.isFinite x)
    (htimes : ∀ t ∈ S.times, Scalar.isFinite t) (hincreasing : S.times.Pairwise (· < ·)) :
    ∀ row ∈ (spread S (List.range S.numPoints)).multipliers, ∀ x ∈ row, Scalar.isFinite x := by
  unfold spread
  split_ifs with hempty
  · exact hfinite
  · have hall : (List.range S.numPoints).filterMap (S.times[·]?) = S.times :=
      filterMap_range_getElem? S.times
    dsimp only
    rw [hall]
    exact Interpolation.resample_own_finite hlength.symm htimes hfinite _ hincreasing

section Exact

/-- Without rounding, numbers are never too far apart. -/
theorem spans_finite (qs : List ℚ) : Spans (qs.map Extended.finite) where
  finite := List.forall_mem_map.mpr fun q _ => Extended.isFinite_iff.mpr ⟨q, rfl⟩
  way := by
    rw [Mesh.lastPoint, List.headD_eq_head?_getD, List.head?_map, List.getLast?_map,
      Extended.zero_eq, Option.getD_map, Option.getD_map, Extended.finite_sub]
    exact Extended.isFinite_iff.mpr ⟨_, rfl⟩

variable {S : Solution Extended} {ks : List Nat} {ts : List ℚ}

theorem exists_rational_rows {rows : List (List Extended)}
    (h : ∀ row ∈ rows, ∀ x ∈ row, Scalar.isFinite x) :
    ∃ qss : List (List ℚ), rows = qss.map fun row => row.map .finite := by
  induction rows with
  | nil => exact ⟨[], rfl⟩
  | cons row rest ih =>
    obtain ⟨hrow, hrest⟩ := List.forall_mem_cons.mp h
    obtain ⟨qs, rfl⟩ := Mesh.exists_rationals (List.all_eq_true.mpr hrow)
    obtain ⟨qss, rfl⟩ := ih hrest
    exact ⟨qs :: qss, rfl⟩

section Chosen

variable (htimes : S.times = ts.map .finite) (hincreasing : ts.Pairwise (· < ·))
  (hks : ∀ k ∈ ks, k < ts.length) (hsorted : ks.Pairwise (· < ·))
include htimes hincreasing hks hsorted

/-- The times at points in increasing order are numbers that increase. -/
theorem exists_chosen : ∃ qs : List ℚ, ks.filterMap (S.times[·]?) = qs.map .finite ∧
    qs.Pairwise (· < ·) ∧ qs.length = ks.length := by
  refine ⟨ks.map fun k => ts[k]?.getD 0, ?_, ?_, List.length_map _⟩
  · have hin : ∀ k ∈ ks, k < S.times.length := by rwa [htimes, List.length_map]
    rw [filterMap_getElem? hin 0.0, htimes, List.map_map]
    refine List.map_congr_left fun k _ => ?_
    rw [Function.comp_apply, List.getElem?_map, Extended.zero_eq, Option.getD_map]
  · refine List.pairwise_map.mpr (hsorted.imp_of_mem fun {j k} hj hk hjk => ?_)
    have hj := hks j hj
    have hk := hks k hk
    rw [List.getElem?_eq_getElem hj, List.getElem?_eq_getElem hk]
    exact List.pairwise_iff_getElem.mp hincreasing j k hj hk hjk

/-- Between finite rows at increasing times there are finite rows. -/
theorem spread_finite (hlength : S.multipliers.length = ks.length)
    (hfinite : ∀ row ∈ S.multipliers, ∀ x ∈ row, Scalar.isFinite x) :
    ∀ row ∈ (spread S ks).multipliers, ∀ x ∈ row, Scalar.isFinite x := by
  unfold spread
  split_ifs with hempty
  · exact hfinite
  obtain ⟨qs, hchosen, hqs, hcount⟩ := exists_chosen htimes hincreasing hks hsorted
  obtain ⟨qss, hrows⟩ := exists_rational_rows hfinite
  have hrowcount : qss.length = qs.length := by
    rw [hcount, ← hlength, hrows, List.length_map]
  have hne : qs ≠ [] := by
    rintro rfl
    exact hempty (List.isEmpty_iff.mpr (List.eq_nil_of_length_eq_zero hcount.symm))
  intro row hrow x hx
  rw [hchosen, hrows, htimes, Interpolation.resample_eq_polylines hqs hne hrowcount] at hrow
  obtain ⟨q, -, rfl⟩ := List.mem_map.mp hrow
  obtain ⟨y, -, rfl⟩ := List.mem_map.mp hx
  exact Extended.isFinite_iff.mpr ⟨y, rfl⟩

end Chosen

end Exact

end Guess

end Collocation
