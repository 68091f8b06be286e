import Collocation.Interpolation
import Collocation.Proofs.Extended

/-! Interpolation at the samples themselves.  Walking, halving and searching near a hint all end
where one time is not behind the query and the next one is.  Times that increase are cut by a query
into those up to it and those behind it, so only that cut is found, and a query at a sample time has
the value of the sample, wherever the search begins. -/

namespace Collocation.Interpolation

section Search

variable {α : Type} [Scalar α] {times : Array α} {x : α} {r : Nat}

variable (times x) in
/-- Halving ends at a position whose time is not up to the query while the one before it is, as far
as these lie between its ends. -/
theorem bisect_spec {low high : Nat} (hle : low ≤ high) :
    low ≤ bisect times x low high ∧ bisect times x low high ≤ high ∧
    (low < bisect times x low high → entry times (bisect times x low high - 1) ≤ x) ∧
    (bisect times x low high < high → ¬ entry times (bisect times x low high) ≤ x) := by
  fun_induction bisect times x low high with
  | case1 low high hlt middle hx ih =>
    obtain ⟨hlow, hhigh, hbefore, hbehind⟩ := ih (by omega)
    refine ⟨by omega, hhigh, fun _ => ?_, hbehind⟩
    rcases hlow.lt_or_eq with hmoved | hstayed
    · exact hbefore hmoved
    · rwa [← hstayed]
  | case2 low high hlt middle hx ih =>
    obtain ⟨hlow, hhigh, hbefore, hbehind⟩ := ih (by omega)
    refine ⟨hlow, by omega, hbefore, fun _ => ?_⟩
    rcases hhigh.lt_or_eq with hmoved | hstayed
    · exact hbehind hmoved
    · rwa [hstayed]
  | case3 low high hlt =>
    obtain rfl : low = high := by omega
    exact ⟨le_rfl, le_rfl, fun hlt => absurd hlt (lt_irrefl _), fun hlt => absurd hlt (lt_irrefl _)⟩

/-- Every time is up to a query or behind it. -/
def Comparable (times : Array α) (x : α) : Prop :=
  ∀ i < times.size, entry times i ≤ x ∨ x < entry times i

/-- The time before a position is not behind a query, and the one at it is, unless it is the end. -/
structure Enclosed (times : Array α) (x : α) (r : Nat) : Prop where
  pos : 0 < r
  le_size : r ≤ times.size
  le : entry times (r - 1) ≤ x
  lt : r < times.size → x < entry times r

/-- What a place says about a query. -/
inductive Found (times : Array α) (x : α) : Place → Prop
  | behind (h : entry times (times.size - 1) < x) : Found times x .behind
  | before (h : x < entry times 0) : Found times x .before
  | on {i : Nat} (h : Enclosed times x (i + 1)) : Found times x (.on i)

theorem found_behindFirst (hzero : r = 0 → x < entry times 0)
    (hpos : 0 < r → Enclosed times x r) : Found times x (.behindFirst r) := by
  cases r with
  | zero => exact .before (hzero rfl)
  | succ n => exact .on (hpos (Nat.succ_pos n))

namespace Comparable

variable (h : Comparable times x)
include h

theorem le {i : Nat} (hi : i < times.size) (hx : ¬ x < entry times i) : entry times i ≤ x :=
  (h i hi).resolve_right hx

theorem lt {i : Nat} (hi : i < times.size) (hx : ¬ entry times i ≤ x) : x < entry times i :=
  (h i hi).resolve_left hx

theorem walk {i count : Nat} (hpos : 0 < i) (hle : entry times (i - 1) ≤ x)
    (hsize : i + count = times.size) : Enclosed times x (walk times x i count) := by
  induction count generalizing i with
  | zero =>
    rw [Interpolation.walk]
    exact ⟨hpos, by omega, hle, fun hlt => absurd hlt (by omega)⟩
  | succ count ih =>
    rw [Interpolation.walk]
    split_ifs with hx
    · exact ih (Nat.succ_pos i) hx (by omega)
    · exact ⟨hpos, by omega, hle, fun _ => h.lt (by omega) hx⟩

/-- Halving from a time that is not behind the query, or from the first one. -/
theorem found_bisect {low high : Nat} (hle : low ≤ high) (hsize : high ≤ times.size)
    (hpos : 0 < times.size) (hlow : low = 0 ∨ low < high ∧ entry times low ≤ x)
    (hhigh : high < times.size → x < entry times high) :
    Found times x (.behindFirst (Interpolation.bisect times x low high)) := by
  obtain ⟨hstart, hend, hbefore, hbehind⟩ := bisect_spec times x hle
  generalize Interpolation.bisect times x low high = r at *
  have hlt (hr : r < times.size) : x < entry times r := by
    rcases hend.lt_or_eq with hmoved | rfl
    · exact h.lt hr (hbehind hmoved)
    · exact hhigh hr
  refine found_behindFirst (fun hr => ?_) fun hr => ⟨hr, hend.trans hsize, ?_, hlt⟩
  · rw [← hr]
    exact hlt (by omega)
  · rcases hstart.lt_or_eq with hmoved | rfl
    · exact hbefore hmoved
    · obtain ⟨hlt, hle⟩ := hlow.resolve_left (by omega)
      exact absurd hle (hbehind hlt)

/-- The search near a position that has two samples behind it. -/
theorem found_searchFrom {i : Nat} (hi : 1 ≤ i) (hsize : i + 2 < times.size) :
    Found times x (searchFrom times x i) := by
  have hnearby : nearby = 8 := rfl
  unfold searchFrom
  dsimp only
  split_ifs with h0 hbefore hnear h1 h2 hnear
  · rw [Bool.and_eq_true, decide_eq_true_eq, decide_eq_true_eq] at hnear
    exact h.found_bisect (by omega) (by omega) (by omega) (.inr ⟨by omega, hnear.2⟩)
      fun _ => hbefore
  · exact h.found_bisect (by omega) (by omega) (by omega) (.inl rfl) fun _ => hbefore
  · have hlt : x < entry times (i - 1 + 1) := by rwa [Nat.sub_add_cancel hi]
    exact .on ⟨by omega, by omega, h.le (by omega) hbefore, fun _ => hlt⟩
  · exact .on ⟨by omega, by omega, h.le (by omega) h0, fun _ => h1⟩
  · exact .on ⟨by omega, by omega, h.le (by omega) h1, fun _ => h2⟩
  · rw [Bool.and_eq_true, decide_eq_true_eq, decide_eq_true_eq] at hnear
    exact h.found_bisect (by omega) (by omega) (by omega)
      (.inr ⟨by omega, h.le (by omega) h2⟩) fun _ => hnear.2
  · exact h.found_bisect (by omega) le_rfl (by omega) (.inr ⟨by omega, h.le (by omega) h2⟩)
      fun hlt => absurd hlt (lt_irrefl _)

/-- The search ends at a place that encloses the query, wherever it begins. -/
theorem found (hpos : 0 < times.size) (hint : Nat) : Found times x (locate times x hint) := by
  unfold locate
  dsimp only
  split_ifs with hlast hfirst hfew
  · exact .behind hlast
  · exact .before hfirst
  · have hwalk := h.walk Nat.one_pos (h.le hpos hfirst) (Nat.add_sub_cancel' hpos)
    exact found_behindFirst (fun hzero => absurd hzero hwalk.pos.ne') fun _ => hwalk
  · have hmany : 4 < times.size := by
      unfold fewSamples at hfew
      omega
    exact h.found_searchFrom (by omega) (by omega)

end Comparable

/-- The first `r` times are up to a query, and all others lie behind it. -/
structure Cut (times : Array α) (x : α) (r : Nat) : Prop where
  pos : 0 < r
  le_size : r ≤ times.size
  le_iff : ∀ j < times.size, entry times j ≤ x ↔ j < r
  lt_iff : ∀ j < times.size, x < entry times j ↔ r ≤ j

namespace Cut

variable (h : Cut times x r)
include h

theorem comparable : Comparable times x := by
  intro i hi
  rw [h.le_iff i hi, h.lt_iff i hi]
  exact Nat.lt_or_ge i r

/-- Only the cut itself is enclosed by its neighbours. -/
theorem eq_of_enclosed {i : Nat} (hi : Enclosed times x i) : i = r := by
  have hpos := hi.pos
  have hsize := hi.le_size
  have hbefore := (h.le_iff (i - 1) (by omega)).mp hi.le
  rcases hsize.lt_or_eq with hlt | heq
  · have := (h.lt_iff i hlt).mp (hi.lt hlt)
    omega
  · have := h.le_size
    omega

/-- The place of a query that is not behind all samples, wherever the search begins. -/
theorem locate_eq (hlast : ¬ entry times (times.size - 1) < x) (hint : Nat) :
    locate times x hint = .on (r - 1) := by
  have hsize := h.le_size
  have hpos := h.pos
  have hfound := h.comparable.found (by omega) hint
  generalize locate times x hint = place at hfound
  cases hfound with
  | behind hbehind => exact absurd hbehind hlast
  | before hbefore =>
    have := (h.lt_iff 0 (by omega)).mp hbefore
    omega
  | on henclosed => rw [← h.eq_of_enclosed henclosed, Nat.add_sub_cancel]

end Cut

end Search

/-- The values of queries one by one: each is looked up at some hint. -/
theorem getElem?_evalFrom {α : Type} [Scalar α] (s : Samples α) (hint : Nat) {queries : List α}
    {j : Nat} {x : α} (hx : queries[j]? = some x) (hnumber : Scalar.isNaN x = false) :
    ∃ hint', (s.evalFrom hint queries)[j]? = some (s.valueAt x (locate s.times x hint')) := by
  induction queries generalizing hint j with
  | nil => cases hx
  | cons y rest ih =>
    cases j with
    | zero =>
      obtain rfl : y = x := by simpa using hx
      exact ⟨hint, by simp [Samples.evalFrom, hnumber]⟩
    | succ j =>
      rw [List.getElem?_cons_succ] at hx
      unfold Samples.evalFrom
      split_ifs
      · exact ih hint hx
      · exact ih _ hx

theorem length_resample {α : Type} [Scalar α] (times : List α) (rows : List (List α)) (width : Nat)
    (queries : List α) : (resample times rows width queries).length = queries.length := by
  simp [resample]

theorem length_of_mem_resample {α : Type} [Scalar α] {times : List α} {rows : List (List α)}
    {width : Nat} {queries row : List α} (h : row ∈ resample times rows width queries) :
    row.length = width := by
  obtain ⟨i, -, rfl⟩ := List.mem_map.mp h
  simp [columns]

theorem columnSamples_eq {α : Type} [Scalar α] {times : List α} {rows : List (List α)}
    (h : times.length = rows.length) (c : Nat) : columnSamples times rows c =
      ⟨times.toArray, (rows.map fun row => row[c]?.getD 0.0).toArray⟩ := by
  have htimes : (times.zipWith (fun t row => (⟨t, row[c]?.getD 0.0⟩ : Sample α)) rows).map
      (·.time) = times := by
    rw [← List.map_uncurry_zip_eq_zipWith, List.map_map]
    exact List.map_fst_zip (Nat.le_of_eq h)
  have hvalues : (times.zipWith (fun t row => (⟨t, row[c]?.getD 0.0⟩ : Sample α)) rows).map
      (·.value) = rows.map fun row => row[c]?.getD 0.0 := by
    rw [← List.map_uncurry_zip_eq_zipWith, List.map_map]
    conv => rhs; rw [← List.map_snd_zip (Nat.le_of_eq h.symm), List.map_map]
    rfl
  rw [columnSamples, Samples.ofList, htimes, hvalues]

section Values

variable {qs : List ℚ} {q : ℚ} {i j : Nat} {queries : List Extended}

theorem entry_finite (hi : qs[i]? = some q) :
    entry (qs.map Extended.finite).toArray i = .finite q := by
  simp [entry, hi]

/-- A query from one of the times on and before the next one cuts increasing times behind that
one. -/
theorem cut_of_between {x : ℚ} (hqs : qs.Pairwise (· < ·)) (hi : qs[i]? = some q) (hx : q ≤ x)
    (hnext : ∀ p, qs[i + 1]? = some p → x < p) :
    Cut (qs.map Extended.finite).toArray (.finite x) (i + 1) := by
  obtain ⟨hlt, rfl⟩ := List.getElem?_eq_some_iff.mp hi
  have hbound {j : Nat} (hj : j < (qs.map Extended.finite).toArray.size) : j < qs.length := by
    simpa using hj
  have hentry {j : Nat} (hj : j < qs.length) :
      entry (qs.map Extended.finite).toArray j = .finite qs[j] :=
    entry_finite (List.getElem?_eq_getElem hj)
  have hmono {j k : Nat} (hj : j < qs.length) (hk : k < qs.length) (hjk : j ≤ k) :
      qs[j] ≤ qs[k] := by
    rcases Nat.lt_or_eq_of_le hjk with h | rfl
    · exact (List.pairwise_iff_getElem.mp hqs j k hj hk h).le
    · exact le_refl _
  have hle {j : Nat} (hj : j < qs.length) : qs[j] ≤ x ↔ j < i + 1 := by
    by_cases h : j < i + 1
    · exact iff_of_true (le_trans (hmono hj hlt (by omega)) hx) h
    · have hsucc : i + 1 < qs.length := by omega
      have hbehind := hnext _ (List.getElem?_eq_getElem hsucc)
      exact iff_of_false (lt_of_lt_of_le hbehind (hmono hsucc hj (by omega))).not_ge h
  refine ⟨by omega, by simp; omega, fun j hj => ?_, fun j hj => ?_⟩
  · rw [hentry (hbound hj), Extended.finite_le_finite, hle (hbound hj)]
  · rw [hentry (hbound hj), Extended.finite_lt_finite, ← not_le, hle (hbound hj), Nat.not_lt]

section Increasing

variable (hqs : qs.Pairwise (· < ·)) (hi : qs[i]? = some q)
include hqs hi

/-- A sample time cuts the times behind itself. -/
theorem cut_of_increasing : Cut (qs.map Extended.finite).toArray (.finite q) (i + 1) := by
  refine cut_of_between hqs hi (le_refl q) fun p hp => ?_
  obtain ⟨hlt, rfl⟩ := List.getElem?_eq_some_iff.mp hi
  obtain ⟨hsucc, rfl⟩ := List.getElem?_eq_some_iff.mp hp
  exact List.pairwise_iff_getElem.mp hqs i (i + 1) hlt hsucc (Nat.lt_succ_self i)

theorem eval_at {s : Samples Extended} (hs : s.times = (qs.map Extended.finite).toArray)
    (htwo : 2 ≤ qs.length) (hj : queries[j]? = some (.finite q)) :
    (s.eval queries)[j]? = some (entry s.values i) := by
  have hcut := cut_of_increasing hqs hi
  have hlt : i < qs.length := (List.getElem?_eq_some_iff.mp hi).1
  have hsize : s.size = qs.length := by simp [Samples.size, hs]
  have hlast : ¬ entry (qs.map Extended.finite).toArray (qs.length - 1) < .finite q := by
    obtain ⟨last, hget⟩ : ∃ last, qs[qs.length - 1]? = some last :=
      ⟨_, List.getElem?_eq_getElem (by omega)⟩
    have hle := (cut_of_increasing hqs hget).le_iff i (by simpa using hlt)
    rw [entry_finite hi, Extended.finite_le_finite] at hle
    rw [entry_finite hget, Extended.finite_lt_finite, not_lt]
    exact hle.mpr (by omega)
  obtain ⟨hint, heval⟩ := getElem?_evalFrom s 0 hj (Extended.isNaN_finite q)
  rw [Samples.eval, if_neg (by omega), heval, hs, hcut.locate_eq (by simpa using hlast)]
  simp only [Samples.valueAt, Samples.sample, Nat.add_sub_cancel, hs, entry_finite hi,
    Extended.eq_finite_self, Bool.or_true, ↓reduceIte]

/-- Resampled rows at a sample time are the row of the sample. -/
theorem resample_at {rows : List (List Extended)} {width : Nat} {row : List Extended}
    (htwo : 2 ≤ qs.length) (hlength : rows.length = qs.length) (hrow : rows[i]? = some row)
    (hwidth : row.length = width) (hj : queries[j]? = some (.finite q)) :
    (resample (qs.map .finite) rows width queries)[j]? = some row := by
  have hlt : j < queries.length := (List.getElem?_eq_some_iff.mp hj).1
  have hcolumn (c : Nat) : ((columnSamples (qs.map .finite) rows c).eval queries)[j]? =
      some (row[c]?.getD 0.0) := by
    rw [columnSamples_eq (by rw [List.length_map, hlength]), eval_at hqs hi rfl htwo hj]
    simp [entry, hrow]
  rw [resample, List.getElem?_map, List.getElem?_range hlt, Option.map_some, columns, List.map_map]
  congr 1
  refine List.ext_getElem (by simp [hwidth]) fun c hc hc' => ?_
  simp [hcolumn, hc']

end Increasing

/-- Samples that are resampled at their own times. -/
theorem resample_self (hqs : qs.Pairwise (· < ·)) (htwo : 2 ≤ qs.length)
    {rows : List (List Extended)} {width : Nat} (hlength : rows.length = qs.length)
    (hwidth : ∀ row ∈ rows, row.length = width) :
    resample (qs.map .finite) rows width (qs.map .finite) = rows := by
  refine List.ext_getElem? fun i => ?_
  by_cases hi : i < qs.length
  · have hrow : rows[i]? = some rows[i] := List.getElem?_eq_getElem (hlength ▸ hi)
    rw [hrow]
    exact resample_at hqs (List.getElem?_eq_getElem hi) htwo hlength hrow
      (hwidth _ (List.getElem_mem _)) (by simp [hi])
  · rw [List.getElem?_eq_none (by simpa [length_resample] using hi),
      List.getElem?_eq_none (by omega)]

end Values

end Collocation.Interpolation
