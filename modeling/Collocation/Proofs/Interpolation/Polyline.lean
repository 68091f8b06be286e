import Collocation.Proofs.Interpolation
import Mathlib.Tactic.Linarith

/-! Interpolation between the samples.  Samples at increasing times are the corners of a line that
is level before the first and behind the last of them; wherever the search begins, the value of a
query is the value of that line. -/

namespace Collocation.Interpolation

/-- The line from corner to corner, level before the first and behind the last one. -/
def polyline : List (ℚ × ℚ) → ℚ → ℚ
  | [], _ => 0
  | [p], _ => p.2
  | p :: q :: rest, x =>
    if x ≤ p.1 then p.2
    else if x < q.1 then p.2 + (q.2 - p.2) / (q.1 - p.1) * (x - p.1)
    else polyline (q :: rest) x

section Corners

variable {ps : List (ℚ × ℚ)} {p q : ℚ × ℚ} {x : ℚ} {i : Nat}

theorem polyline_before (hp : ps.head? = some p) (hx : x ≤ p.1) : polyline ps x = p.2 := by
  cases ps with
  | nil => cases hp
  | cons r rest =>
    obtain rfl : r = p := Option.some.inj hp
    cases rest with
    | nil => rfl
    | cons q rest => rw [polyline, if_pos hx]

variable (hps : ps.Pairwise fun p q => p.1 < q.1)
include hps

/-- From one corner to the next the line is straight. -/
theorem polyline_between (hp : ps[i]? = some p) (hq : ps[i + 1]? = some q) (hpx : p.1 ≤ x)
    (hxq : x ≤ q.1) : polyline ps x = p.2 + (q.2 - p.2) / (q.1 - p.1) * (x - p.1) := by
  induction ps generalizing i with
  | nil => cases hp
  | cons r rest ih =>
    cases rest with
    | nil => cases hq
    | cons s rest =>
      have hrest := hps.of_cons
      cases i with
      | zero =>
        obtain rfl : r = p := Option.some.inj hp
        obtain rfl : s = q := Option.some.inj hq
        have hlt : r.1 < s.1 := List.rel_of_pairwise_cons hps (by simp)
        have hne : s.1 - r.1 ≠ 0 := sub_ne_zero.mpr hlt.ne'
        rw [polyline]
        split_ifs with hfirst hnext
        · rw [le_antisymm hfirst hpx, sub_self, mul_zero, add_zero]
        · rfl
        · rw [polyline_before rfl hxq, le_antisymm hxq (not_lt.mp hnext), div_mul_cancel₀ _ hne]
          ring
      | succ i =>
        rw [List.getElem?_cons_succ] at hp hq
        have hsx : s.1 ≤ x := by
          rcases Nat.eq_zero_or_pos i with rfl | hpos
          · obtain rfl : s = p := Option.some.inj hp
            exact hpx
          · have hmem : p ∈ rest := by
              obtain ⟨j, rfl⟩ := Nat.exists_eq_add_of_lt hpos
              exact List.mem_of_getElem? hp
            exact le_trans (List.rel_of_pairwise_cons hrest hmem).le hpx
        have hlt : r.1 < x := lt_of_lt_of_le (List.rel_of_pairwise_cons hps (by simp)) hsx
        rw [polyline, if_neg (not_le.mpr hlt), if_neg (not_lt.mpr hsx)]
        exact ih hrest hp hq

theorem polyline_behind (hp : ps.getLast? = some p) (hx : p.1 ≤ x) : polyline ps x = p.2 := by
  induction ps with
  | nil => cases hp
  | cons r rest ih =>
    cases rest with
    | nil =>
      obtain rfl : r = p := Option.some.inj hp
      rfl
    | cons s rest =>
      have hlast : (s :: rest).getLast? = some p := by rwa [List.getLast?_cons_cons] at hp
      have hsx : s.1 ≤ x := by
        rcases List.mem_cons.mp (List.mem_of_getLast? hlast) with rfl | hmem
        · exact hx
        · exact le_trans (List.rel_of_pairwise_cons hps.of_cons hmem).le hx
      have hlt : r.1 < x := lt_of_lt_of_le (List.rel_of_pairwise_cons hps (by simp)) hsx
      rw [polyline, if_neg (not_le.mpr hlt), if_neg (not_lt.mpr hsx)]
      exact ih hps.of_cons hlast

end Corners

/-- A query behind the first time lies behind one of the times and before the next. -/
theorem exists_between {qs : List ℚ} {first x : ℚ} (hfirst : qs.head? = some first)
    (hx : first ≤ x) : ∃ i q, qs[i]? = some q ∧ q ≤ x ∧ ∀ p, qs[i + 1]? = some p → x < p := by
  induction qs generalizing first with
  | nil => cases hfirst
  | cons q rest ih =>
    obtain rfl : q = first := Option.some.inj hfirst
    cases rest with
    | nil => exact ⟨0, q, rfl, hx, nofun⟩
    | cons p rest =>
      by_cases hp : p ≤ x
      · obtain ⟨i, r, hr, hrx, hnext⟩ := ih rfl hp
        exact ⟨i + 1, r, hr, hrx, hnext⟩
      · refine ⟨0, q, rfl, hx, ?_⟩
        rintro r hr
        obtain rfl : p = r := Option.some.inj hr
        exact not_le.mp hp

/-- Between finite samples the line is computed without overflow or loss. -/
theorem onLine_finite {p q : ℚ × ℚ} (h : p.1 < q.1) (x : ℚ) :
    onLine ⟨Extended.finite p.1, .finite p.2⟩ ⟨.finite q.1, .finite q.2⟩ (.finite x) =
      .finite (p.2 + (q.2 - p.2) / (q.1 - p.1) * (x - p.1)) := by
  have hne : q.1 + -p.1 ≠ 0 := by
    have := sub_pos.mpr h
    linarith
  have hy : (Extended.finite q.2 - .finite p.2) / (.finite q.1 - .finite p.1) *
      (.finite x - .finite p.1) + .finite p.2 =
        .finite (p.2 + (q.2 - p.2) / (q.1 - p.1) * (x - p.1)) := by
    rw [Extended.finite_sub, Extended.finite_sub, Extended.finite_sub, Extended.finite_div hne,
      Extended.finite_mul, Extended.finite_add]
    congr 1
    ring
  unfold onLine
  dsimp only
  rw [hy, Extended.isNaN_finite, if_neg Bool.false_ne_true]

section Samples

variable {s : Samples Extended} {qs ys : List ℚ}
  (htimes : s.times = (qs.map Extended.finite).toArray)
  (hvalues : s.values = (ys.map Extended.finite).toArray) (hlength : ys.length = qs.length)
include htimes hvalues hlength

/-- A sample and the corner that it stands for. -/
theorem exists_corner {i : Nat} (hi : i < qs.length) :
    ∃ p : ℚ × ℚ, qs[i]? = some p.1 ∧ (qs.zip ys)[i]? = some p ∧
      s.sample i = ⟨.finite p.1, .finite p.2⟩ := by
  have hq : qs[i]? = some qs[i] := List.getElem?_eq_getElem hi
  have hlt : i < ys.length := hlength ▸ hi
  have hy : ys[i]? = some ys[i] := List.getElem?_eq_getElem hlt
  refine ⟨(_, _), hq, List.getElem?_zip_eq_some.mpr ⟨hq, hy⟩, ?_⟩
  rw [Samples.sample, htimes, hvalues, entry_finite hq, entry_finite hy]

omit htimes hvalues in
theorem getLast?_corners : (qs.zip ys).getLast? = (qs.zip ys)[qs.length - 1]? := by
  rw [List.getLast?_eq_getElem?, List.length_zip, hlength, Nat.min_self]

variable (hqs : qs.Pairwise (· < ·))
include hqs

omit htimes hvalues in
theorem corners_increasing : (qs.zip ys).Pairwise fun p q => p.1 < q.1 := by
  refine List.pairwise_map.mp ?_
  rwa [List.map_fst_zip hlength.ge]

/-- Between two samples, or behind the last one, a value is on the line. -/
theorem valueAt_on {i : Nat} {r x : ℚ} (hr : qs[i]? = some r) (hrx : r ≤ x)
    (hnext : ∀ p, qs[i + 1]? = some p → x < p) :
    s.valueAt (.finite x) (.on i) = .finite (polyline (qs.zip ys) x) := by
  have hps := corners_increasing hlength hqs
  have hsize : s.size = qs.length := by simp [Samples.size, htimes]
  have hi : i < qs.length := (List.getElem?_eq_some_iff.mp hr).1
  obtain ⟨p, hp, hpi, hstart⟩ := exists_corner htimes hvalues hlength hi
  obtain rfl : p.1 = r := Option.some.inj (hp.symm.trans hr)
  rw [Samples.valueAt, hstart, hsize]
  dsimp only
  by_cases hend : i + 1 = qs.length
  · have hget : (qs.zip ys).getLast? = some p := by
      rw [getLast?_corners hlength, ← hend, Nat.add_sub_cancel, hpi]
    rw [decide_eq_true hend, Bool.true_or, if_pos rfl, polyline_behind hps hget hrx]
  · obtain ⟨q, hq, hqi, hstop⟩ := exists_corner htimes hvalues hlength
      (Nat.lt_of_le_of_ne hi hend)
    have hxq : x < q.1 := hnext _ hq
    rw [polyline_between hps hpi hqi hrx hxq.le, decide_eq_false hend, Bool.false_or]
    split_ifs with hat
    · obtain rfl := Extended.eq_finite_iff.mp hat
      rw [sub_self, mul_zero, add_zero]
    · rw [hstop, onLine_finite (lt_of_le_of_lt hrx hxq)]

/-- Whatever the hint is, a query is found at its value on the line. -/
theorem valueAt_locate (hne : qs ≠ []) (x : ℚ) (hint : Nat) :
    s.valueAt (.finite x) (locate s.times (.finite x) hint) =
      .finite (polyline (qs.zip ys) x) := by
  have hps := corners_increasing hlength hqs
  have hpos : 0 < qs.length := List.length_pos_iff.mpr hne
  have hsize : s.size = qs.length := by simp [Samples.size, htimes]
  obtain ⟨p, hp, hzip, hsample⟩ := exists_corner htimes hvalues hlength hpos
  obtain ⟨q, hq, hlast, hbehind⟩ :=
    exists_corner htimes hvalues hlength (Nat.sub_lt hpos Nat.one_pos)
  rw [Samples.sample, Sample.mk.injEq] at hsample hbehind
  by_cases hafter : q.1 < x
  · -- behind all samples
    have hplace : locate s.times (.finite x) hint = .behind := by
      rw [locate, ← Samples.size, hsize, hbehind.1,
        if_pos ((Extended.finite_lt_finite _ _).mpr hafter)]
    have hget : (qs.zip ys).getLast? = some q := by rwa [getLast?_corners hlength]
    rw [hplace, Samples.valueAt, hsize, hbehind.2, polyline_behind hps hget hafter.le]
  have hnotlast : ¬ entry s.times (s.size - 1) < .finite x := by
    rw [hsize, hbehind.1, Extended.finite_lt_finite]
    exact hafter
  by_cases hbefore : x < p.1
  · -- before all samples
    have hplace : locate s.times (.finite x) hint = .before := by
      rw [locate, ← Samples.size, if_neg hnotlast, hsample.1,
        if_pos ((Extended.finite_lt_finite _ _).mpr hbefore)]
    have hget : (qs.zip ys).head? = some p := by rwa [List.head?_eq_getElem?]
    rw [hplace, Samples.valueAt, hsample.2, polyline_before hget hbefore.le]
  -- between two samples, or at the last one
  have hhead : qs.head? = some p.1 := by rwa [List.head?_eq_getElem?]
  obtain ⟨i, r, hr, hrx, hnext⟩ := exists_between hhead (not_lt.mp hbefore)
  have hplace : locate s.times (.finite x) hint = .on i := by
    rw [htimes]
    have hcut := cut_of_between hqs hr hrx hnext
    rw [htimes, Samples.size, htimes] at hnotlast
    exact hcut.locate_eq hnotlast hint
  rw [hplace, valueAt_on htimes hvalues hlength hqs hr hrx hnext]

/-- Samples at increasing times have the values of the line through them. -/
theorem eval_eq_polyline (hne : qs ≠ []) (xs : List ℚ) :
    s.eval (xs.map .finite) = xs.map fun x => .finite (polyline (qs.zip ys) x) := by
  have hsize : s.size = qs.length := by simp [Samples.size, htimes]
  unfold Samples.eval
  split_ifs with hone
  · -- a single sample is a level line
    obtain ⟨q, rfl⟩ : ∃ q, qs = [q] := List.length_eq_one_iff.mp
      (Nat.le_antisymm (hsize ▸ hone) (List.length_pos_iff.mpr hne))
    obtain ⟨y, rfl⟩ : ∃ y, ys = [y] := List.length_eq_one_iff.mp hlength
    have hentry : entry s.values 0 = .finite y := by rw [hvalues]; exact entry_finite rfl
    rw [List.map_map, hentry]
    rfl
  · refine List.ext_getElem? fun j => ?_
    by_cases hj : j < xs.length
    · have hx : (xs.map Extended.finite)[j]? = some (.finite xs[j]) := by simp [hj]
      obtain ⟨hint, heval⟩ := getElem?_evalFrom s 0 hx (Extended.isNaN_finite _)
      rw [heval, valueAt_locate htimes hvalues hlength hqs hne]
      simp [hj]
    · rw [List.getElem?_eq_none (by simpa using hj), List.getElem?_eq_none (by simpa using hj)]

end Samples

/-- A row with the values of the lines through the columns of some rows. -/
def polylines (qs : List ℚ) (rows : List (List ℚ)) (width : Nat) (x : ℚ) : List ℚ :=
  (List.range width).map fun j => polyline (qs.zip (rows.map fun row => row[j]?.getD 0)) x

/-- Rows at increasing times are resampled column by column along the lines through them. -/
theorem resample_eq_polylines {qs : List ℚ} {rows : List (List ℚ)}
    (hqs : qs.Pairwise (· < ·)) (hne : qs ≠ []) (hlength : rows.length = qs.length) (width : Nat)
    (xs : List ℚ) :
    resample (qs.map Extended.finite) (rows.map fun row => row.map .finite) width
      (xs.map .finite) = xs.map fun x => (polylines qs rows width x).map .finite := by
  have hcolumn (j : Nat) :
      (columnSamples (qs.map Extended.finite) (rows.map fun row => row.map .finite) j).eval
        (xs.map .finite) =
          xs.map fun x => .finite (polyline (qs.zip (rows.map fun row => row[j]?.getD 0)) x) := by
    have hentries : (rows.map fun row => row.map Extended.finite).map
        (fun row => row[j]?.getD 0.0) = (rows.map fun row => row[j]?.getD 0).map .finite := by
      rw [List.map_map, List.map_map]
      refine List.map_congr_left fun row _ => ?_
      rw [Function.comp_apply, Function.comp_apply, List.getElem?_map, Extended.zero_eq,
        Option.getD_map]
    rw [columnSamples_eq (by simp [hlength]), hentries]
    exact eval_eq_polyline rfl rfl (by simp [hlength]) hqs hne xs
  unfold resample columns
  refine List.ext_getElem (by simp) fun i hi _ => ?_
  have hx : i < xs.length := by simpa using hi
  simp [polylines, hcolumn, hx]

end Collocation.Interpolation
