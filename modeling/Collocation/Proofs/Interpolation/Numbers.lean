import Collocation.Proofs.Faithful
import Collocation.Proofs.Interpolation

/-! Interpolation never makes something that is not a number.  Rounded times need not increase, but
wherever the search ends, the query lies between two neighbouring times.  These have a positive
distance then, so the line between two finite samples is a number at the query, though it may be
infinite.  At the sample times themselves no line is drawn, if they increase. -/

namespace Collocation.Interpolation

variable {α : Type} [Scalar α] [Faithful α]

section Line

variable {a b : Sample α} {x : α} {p q r : ℚ}

theorem onLine_ne_nan (ha : Scalar.exact a.time = .finite p) (hb : Scalar.exact b.time = .finite q)
    (hx : Scalar.exact x = .finite r) (hp : 0 ≤ p) (hpr : p < r) (hrq : r < q)
    (hu : ∃ u, Scalar.exact a.value = .finite u) (hv : ∃ v, Scalar.exact b.value = .finite v) :
    Scalar.exact (onLine a b x) ≠ .nan := by
  obtain ⟨u, hu⟩ := hu
  obtain ⟨v, hv⟩ := hv
  obtain ⟨d, hd, hdpos⟩ := Faithful.exists_distance ha hb hp (hpr.trans hrq)
  obtain ⟨e, he, hepos⟩ := Faithful.exists_distance ha hx hp hpr
  -- The slope may be infinite, but then it is multiplied by a positive distance.
  have hslope : Scalar.exact ((b.value - a.value) / (b.time - a.time)) ≠ .nan :=
    Faithful.div_ne_nan (Differences.exact_sub_ne_nan hv hu) hd hdpos.ne'
  have hy := Faithful.add_ne_nan (Faithful.mul_ne_nan hslope he hepos.ne') hu
  unfold onLine
  dsimp only
  rwa [if_neg (mt Rounding.isNaN_iff.mp hy)]

end Line

namespace Samples

/-- Finite values at finite times. -/
structure Finite (s : Samples α) : Prop where
  times (i : Nat) : ∃ p, Scalar.exact (entry s.times i) = .finite p
  values (i : Nat) : ∃ u, Scalar.exact (entry s.values i) = .finite u

namespace Finite

variable {s : Samples α} (hs : s.Finite) {x : α} {r : ℚ}
include hs

omit [Faithful α] in
theorem value_ne_nan (i : Nat) : Scalar.exact (entry s.values i) ≠ .nan := by
  obtain ⟨u, hu⟩ := hs.values i
  exact Extended.ne_nan_of_finite hu

theorem comparable (hx : Scalar.exact x = .finite r) : Comparable s.times x := by
  intro i _
  obtain ⟨p, hp⟩ := hs.times i
  rw [Rounding.le_iff, Differences.lt_iff, hp, hx, Extended.finite_le_finite,
    Extended.finite_lt_finite]
  exact le_or_gt p r

theorem valueAt_ne_nan (hpos : ∀ i, (0.0 : α) ≤ entry s.times i) (hx : Scalar.exact x = .finite r)
    {place : Place} (h : Found s.times x place) : Scalar.exact (s.valueAt x place) ≠ .nan := by
  cases h with
  | behind => exact hs.value_ne_nan _
  | before => exact hs.value_ne_nan _
  | @on i h =>
    obtain ⟨p, hp⟩ := hs.times i
    obtain ⟨q, hq⟩ := hs.times (i + 1)
    have hp0 := (Rounding.le_iff _ _).mp (hpos i)
    rw [hp, Differences.exact_zero, Extended.finite_le_finite] at hp0
    simp only [valueAt]
    split_ifs with hlast
    · exact hs.value_ne_nan i
    rw [Bool.or_eq_true, not_or, decide_eq_true_eq, Rounding.eq_iff] at hlast
    obtain ⟨hsize, hne⟩ := hlast
    have hle := (Rounding.le_iff _ _).mp h.le
    have hlt := (Differences.lt_iff _ _).mp (h.lt (lt_of_le_of_ne h.le_size hsize))
    rw [Nat.add_sub_cancel, hp, hx, Extended.finite_le_finite] at hle
    rw [hx, hq, Extended.finite_lt_finite] at hlt
    have hpr : p < r := by
      refine lt_of_le_of_ne hle fun heq => hne ⟨?_, Extended.ne_nan_of_finite hx⟩
      rw [hx, ← heq]
      exact hp
    exact onLine_ne_nan hp hq hx hp0 hpr hlt (hs.values i) (hs.values (i + 1))

/-- At one of the times, if they increase, the value is that of a sample. -/
theorem valueAt_own {k : Nat}
    (hincreasing : ∀ i j, i < j → j < s.size → entry s.times i < entry s.times j)
    (hk : k < s.size) {place : Place} (h : Found s.times (entry s.times k) place) :
    ∃ j, s.valueAt (entry s.times k) place = entry s.values j := by
  cases h with
  | behind => exact ⟨s.size - 1, rfl⟩
  | before => exact ⟨0, rfl⟩
  | @on i h =>
    refine ⟨i, if_pos ?_⟩
    obtain ⟨p, hp⟩ := hs.times k
    have hle := h.le
    rw [Nat.add_sub_cancel] at hle
    rw [Bool.or_eq_true, decide_eq_true_eq]
    refine or_iff_not_imp_left.mpr fun hsize => ?_
    have hnext : entry s.times k < entry s.times (i + 1) := h.lt (lt_of_le_of_ne h.le_size hsize)
    -- Neither the times before nor those behind have the next one behind them.
    rcases Nat.lt_trichotomy i k with hlt | rfl | hlt
    · refine absurd hnext (Differences.not_lt_of_le ?_)
      rcases Nat.lt_or_eq_of_le (Nat.succ_le_of_lt hlt) with hlt | heq
      · exact Differences.le_of_lt (hincreasing _ _ hlt hk)
      · have heq : i + 1 = k := heq
        rw [heq]
        exact Rounding.le_self hp
    · exact Rounding.eq_iff.mpr ⟨rfl, Extended.ne_nan_of_finite hp⟩
    · have hi : i < s.size := lt_of_lt_of_le (Nat.lt_succ_self i) h.le_size
      exact absurd (hincreasing _ _ hlt hi) (Differences.not_lt_of_le hle)

/-- What holds of the value wherever a query is found holds of its value. -/
theorem evalFrom_forall {P : α → Prop} (hpos : 0 < s.size) {queries : List α}
    (hqueries : ∀ x ∈ queries, Scalar.isFinite x)
    (hvalues : ∀ x ∈ queries, ∀ place, Found s.times x place → P (s.valueAt x place))
    (hint : Nat) : ∀ y ∈ s.evalFrom hint queries, P y := by
  induction queries generalizing hint with
  | nil => exact List.forall_mem_nil _
  | cons x rest ih =>
    obtain ⟨hx, hrest⟩ := List.forall_mem_cons.mp hqueries
    obtain ⟨hvalue, hvalues⟩ := List.forall_mem_cons.mp hvalues
    obtain ⟨r, hr⟩ := Rounding.isFinite_iff.mp hx
    have hnumber : ¬ Scalar.isNaN x = true :=
      mt Rounding.isNaN_iff.mp (Extended.ne_nan_of_finite hr)
    rw [evalFrom, if_neg hnumber]
    exact List.forall_mem_cons.mpr
      ⟨hvalue _ ((hs.comparable hr).found hpos hint), ih hrest hvalues _⟩

theorem eval_forall {P : α → Prop} {queries : List α} (hfirst : P (entry s.values 0))
    (hqueries : ∀ x ∈ queries, Scalar.isFinite x)
    (hvalues : ∀ x ∈ queries, ∀ place, Found s.times x place → P (s.valueAt x place)) :
    ∀ y ∈ s.eval queries, P y := by
  unfold eval
  split_ifs with hfew
  · intro y hy
    obtain ⟨-, -, rfl⟩ := List.mem_map.mp hy
    exact hfirst
  · exact hs.evalFrom_forall (by omega) hqueries hvalues 0

end Finite

end Samples

section Resampled

variable {times queries : List α} {rows : List (List α)}

omit [Faithful α] in
/-- An entry is one of those of the list, or zero. -/
theorem entry_toArray {P : α → Prop} {xs : List α} (h : ∀ x ∈ xs, P x) (hzero : P 0.0) (i : Nat) :
    P (entry xs.toArray i) := by
  rw [entry, List.getElem?_toArray]
  cases hx : xs[i]? with
  | none => exact hzero
  | some x => exact h x (List.mem_of_getElem? hx)

theorem columnSamples_finite (hlength : times.length = rows.length)
    (htimes : ∀ t ∈ times, Scalar.isFinite t)
    (hrows : ∀ row ∈ rows, ∀ x ∈ row, Scalar.isFinite x) (j : Nat) :
    (columnSamples times rows j).Finite := by
  have hzero := Differences.exact_zero (α := α)
  rw [columnSamples_eq hlength]
  refine ⟨fun i => ?_, fun i => ?_⟩
  · exact entry_toArray (P := fun t => ∃ p, Scalar.exact t = .finite p)
      (fun t ht => Rounding.isFinite_iff.mp (htimes t ht)) ⟨0, hzero⟩ i
  · refine entry_toArray (P := fun x => ∃ u, Scalar.exact x = .finite u) (fun x hx => ?_)
      ⟨0, hzero⟩ i
    obtain ⟨row, hrow, rfl⟩ := List.mem_map.mp hx
    cases hx : row[j]? with
    | none => exact ⟨0, hzero⟩
    | some x => exact Rounding.isFinite_iff.mp (hrows row hrow x (List.mem_of_getElem? hx))

omit [Faithful α] in
theorem resample_forall {P : α → Prop} {width : Nat} (hzero : P 0.0)
    (h : ∀ j, ∀ y ∈ (columnSamples times rows j).eval queries, P y) :
    ∀ row ∈ resample times rows width queries, ∀ x ∈ row, P x := by
  intro row hrow x hx
  obtain ⟨i, -, rfl⟩ := List.mem_map.mp hrow
  obtain ⟨column, hcolumn, rfl⟩ := List.mem_map.mp hx
  obtain ⟨j, -, rfl⟩ := List.mem_map.mp hcolumn
  cases hentry : ((columnSamples times rows j).eval queries)[i]? with
  | none => exact hzero
  | some y => exact h j y (List.mem_of_getElem? hentry)

variable (hlength : times.length = rows.length) (htimes : ∀ t ∈ times, Scalar.isFinite t)
  (hrows : ∀ row ∈ rows, ∀ x ∈ row, Scalar.isFinite x)
include hlength htimes hrows

/-- Whatever the order of the times is, rows between finite ones hold numbers. -/
theorem resample_ne_nan (width : Nat) (hpos : ∀ t ∈ times, (0.0 : α) ≤ t)
    (hqueries : ∀ x ∈ queries, Scalar.isFinite x) :
    ∀ row ∈ resample times rows width queries, ∀ x ∈ row, Scalar.exact x ≠ .nan := by
  have hzero : Scalar.exact (0.0 : α) = .finite 0 := Differences.exact_zero
  refine resample_forall (Extended.ne_nan_of_finite hzero) fun j => ?_
  have hs := columnSamples_finite hlength htimes hrows j
  refine hs.eval_forall (hs.value_ne_nan 0) hqueries fun x hx place hplace => ?_
  obtain ⟨r, hr⟩ := Rounding.isFinite_iff.mp (hqueries x hx)
  refine hs.valueAt_ne_nan (fun i => ?_) hr hplace
  rw [columnSamples_eq hlength]
  exact entry_toArray hpos (Rounding.le_self hzero) i

/-- At increasing times of their own, finite rows stay finite. -/
theorem resample_own_finite (width : Nat) (hincreasing : times.Pairwise (· < ·)) :
    ∀ row ∈ resample times rows width times, ∀ x ∈ row, Scalar.isFinite x := by
  refine resample_forall (Rounding.isFinite_iff.mpr ⟨0, Differences.exact_zero⟩) fun j => ?_
  have hs := columnSamples_finite hlength htimes hrows j
  have hvalues (i : Nat) := Rounding.isFinite_iff.mpr (hs.values i)
  refine hs.eval_forall (hvalues 0) htimes fun x hx place hplace => ?_
  obtain ⟨k, hk, rfl⟩ := List.mem_iff_getElem.mp hx
  have hcolumn : (columnSamples times rows j).times = times.toArray := by
    rw [columnSamples_eq hlength]
  have hentry {i : Nat} (hi : i < times.length) :
      entry (columnSamples times rows j).times i = times[i] := by
    rw [hcolumn, entry, List.getElem?_toArray, List.getElem?_eq_getElem hi, Option.getD_some]
  have hsize : (columnSamples times rows j).size = times.length := by
    rw [Samples.size, hcolumn, List.size_toArray]
  rw [← hentry hk] at hplace ⊢
  have hordered (i i' : Nat) (hlt : i < i') (hi' : i' < (columnSamples times rows j).size) :
      entry (columnSamples times rows j).times i < entry (columnSamples times rows j).times i' := by
    rw [hsize] at hi'
    rw [hentry (hlt.trans hi'), hentry hi']
    exact List.pairwise_iff_getElem.mp hincreasing i i' _ hi' hlt
  obtain ⟨i, hi⟩ := hs.valueAt_own hordered (hsize ▸ hk) hplace
  rw [hi]
  exact hvalues i

end Resampled

end Collocation.Interpolation
