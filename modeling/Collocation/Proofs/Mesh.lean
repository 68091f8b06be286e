import Collocation.Layout.Trajectory
import Collocation.Mesh
import Collocation.Proofs.Extended
import Collocation.Proofs.Outcome
import Mathlib.Tactic.Linarith

/-! The points of a mesh.  In exact arithmetic a mesh that is accepted has at least two points,
which increase from zero to one. -/

namespace Collocation

namespace Mesh

section Differences

variable {α : Type} [Scalar α]

theorem entry_differences {points : List α} {k : Nat} (hk : k + 1 < points.length) :
    Layout.entry (differences points) k =
      Layout.entry points (k + 1) - Layout.entry points k := by
  induction points generalizing k with
  | nil => simp at hk
  | cons x rest ih =>
    cases rest with
    | nil => simp at hk
    | cons y rest =>
      cases k with
      | zero => rfl
      | succ k => exact ih (by simpa using hk)

theorem checkPoints_eq_ok {t : Tensor α} {points : List α} : checkPoints t = .ok points ↔
    t.rank = 1 ∧ 2 ≤ t.entries.length ∧ t.entries.all Scalar.isFinite ∧
      (¬ endTolerance < Scalar.abs (t.entries.headD 0.0) ∧
        ¬ endTolerance < Scalar.abs (lastPoint t.entries - 1.0)) ∧
      ((differences t.entries).all fun d => decide (spacing < d)) ∧ t.entries = points := by
  simp only [checkPoints, Except.if_throw_eq_ok, Except.unless_throw_eq_ok, Except.pure_eq_ok,
    Bool.or_eq_true, decide_eq_true_iff, not_or, not_lt, ne_eq, not_not]

theorem length_differences (points : List α) : (differences points).length = points.length - 1 := by
  induction points with
  | nil => rfl
  | cons x rest ih =>
    cases rest with
    | nil => rfl
    | cons y rest => rw [differences, List.length_cons, ih]; rfl

end Differences

section Forms

variable {α : Type} [Scalar α] {form : MeshForm α} {m : Mesh α}

/-- In every form a mesh is asked for as an array of points. -/
theorem exists_tensor (h : ofForm form = .ok m) : ∃ t, ofTensor t = .ok m := by
  cases form with
  | uniform count =>
    simp only [ofForm, uniform, Except.bind_eq_ok] at h
    obtain ⟨_, _, _, _, h⟩ := h
    exact ⟨_, h⟩
  | lengths lengths =>
    simp only [ofForm, ofLengths, Except.bind_eq_ok] at h
    obtain ⟨_, _, _, _, h⟩ := h
    exact ⟨_, h⟩
  | points points =>
    simp only [ofForm, ofValue, Except.bind_eq_ok] at h
    obtain ⟨t, _, h⟩ := h
    exact ⟨t, h⟩

theorem two_le_numPoints (h : ofForm form = .ok m) : 2 ≤ m.numPoints := by
  obtain ⟨t, ht⟩ := exists_tensor h
  obtain ⟨points, hcheck, rfl⟩ := Except.map_eq_ok.mp ht
  obtain ⟨-, htwo, -, -, -, rfl⟩ := checkPoints_eq_ok.mp hcheck
  simp only [numPoints, withEnds, List.length_append, List.length_cons, List.length_dropLast,
    List.length_drop, List.length_nil]
  omega

theorem numPoints_pos (h : ofForm form = .ok m) : 0 < m.numPoints :=
  Nat.lt_of_lt_of_le Nat.two_pos (two_le_numPoints h)

end Forms

/-- The points of a mesh are rationals that increase from zero to one. -/
structure Grid (m : Mesh Extended) (qs : List ℚ) : Prop where
  points : m.points = qs.map .finite
  two : 2 ≤ qs.length
  first : qs.head? = some 0
  last : qs.getLast? = some 1
  increasing : qs.Pairwise (· < ·)

theorem Grid.numPoints_pos {m : Mesh Extended} {qs : List ℚ} (h : m.Grid qs) :
    0 < m.numPoints := by
  have htwo := h.two
  rw [numPoints, h.points, List.length_map]
  omega

theorem endTolerance_eq : (endTolerance : Extended) = .finite 1e-14 := rfl

theorem spacing_eq : (spacing : Extended) = .finite 1e-12 := rfl

theorem exists_rationals {points : List Extended} (h : points.all Scalar.isFinite) :
    ∃ qs : List ℚ, points = qs.map .finite := by
  induction points with
  | nil => exact ⟨[], rfl⟩
  | cons x rest ih =>
    rw [List.all_cons, Bool.and_eq_true] at h
    obtain ⟨q, rfl⟩ := Extended.isFinite_iff.mp h.1
    obtain ⟨qs, rfl⟩ := ih h.2
    exact ⟨q :: qs, rfl⟩

theorem all_isFinite (qs : List ℚ) : (qs.map Extended.finite).all Scalar.isFinite := by
  refine List.all_eq_true.mpr fun x hx => ?_
  obtain ⟨q, -, rfl⟩ := List.mem_map.mp hx
  exact Extended.isFinite_iff.mpr ⟨q, rfl⟩

/-- If all neighbours are further apart than a distance, then so are all others. -/
theorem differences_iff_pairwise {e : ℚ} (he : 0 ≤ e) {qs : List ℚ} :
    ((differences (qs.map Extended.finite)).all fun d => decide (Extended.finite e < d)) = true ↔
      qs.Pairwise fun p q => p + e < q := by
  induction qs with
  | nil => exact iff_of_true rfl .nil
  | cons x rest ih =>
    cases rest with
    | nil => exact iff_of_true rfl (List.pairwise_singleton _ _)
    | cons y rest =>
      rw [List.map_cons, List.map_cons, differences, List.all_cons, Bool.and_eq_true,
        decide_eq_true_iff, Extended.finite_sub, Extended.finite_lt_finite, ← List.map_cons, ih,
        List.pairwise_cons (a := x)]
      refine and_congr_left fun hrest => ⟨fun hxy z hz => ?_, fun hx => ?_⟩
      · rcases List.mem_cons.mp hz with rfl | hz
        · linarith
        · have := (List.pairwise_cons.mp hrest).1 z hz
          linarith
      · have := hx y List.mem_cons_self
        linarith

/-- Points are accepted if the first and the last lie within the tolerance of zero and one, and all
are further apart than the spacing. -/
structure Accepted (a : ℚ) (inner : List ℚ) (b : ℚ) : Prop where
  first : |a| ≤ 1e-14
  last : |b - 1| ≤ 1e-14
  spaced : (a :: inner ++ [b]).Pairwise fun p q => p + 1e-12 < q

/-- Moving the ends to zero and one brings accepted points no nearer than by the tolerance. -/
theorem Accepted.apart {a b : ℚ} {inner : List ℚ} (h : Accepted a inner b) :
    ((0 : ℚ) :: inner ++ [1]).Pairwise fun p q => p + 99e-14 < q := by
  obtain ⟨ha, hb, h⟩ := h
  rw [abs_le] at ha hb
  norm_num at ha hb
  simp only [List.cons_append, List.pairwise_cons, List.mem_append, List.mem_singleton,
    List.pairwise_append] at h ⊢
  obtain ⟨hfirst, hinner, hlast⟩ := h
  norm_num at hfirst hlast hinner ⊢
  refine ⟨?_, hinner.imp fun hpq => by linarith, fun p hp => ?_⟩
  · rintro q (hq | rfl)
    · have := hfirst q (.inl hq)
      linarith
    · norm_num
  · have := hlast p hp
    linarith

theorem Accepted.increasing {a b : ℚ} {inner : List ℚ} (h : Accepted a inner b) :
    ((0 : ℚ) :: inner ++ [1]).Pairwise (· < ·) :=
  h.apart.imp fun hpq => by linarith

theorem abs_finite (q : ℚ) : Scalar.abs (Extended.finite q) = .finite |q| := by
  show (if decide (Extended.finite q < .finite 0) then -Extended.finite q else .finite q) = _
  simp only [Extended.finite_lt_finite, decide_eq_true_iff, Extended.neg_finite]
  split_ifs with hq
  · rw [abs_of_neg hq]
  · rw [abs_of_nonneg (not_lt.mp hq)]

theorem withEnds_finite (a b : ℚ) (inner : List ℚ) :
    withEnds ((a :: inner ++ [b]).map Extended.finite) =
      ((0 :: inner ++ [1] : List ℚ)).map Extended.finite := by
  have hinner : ((a :: inner ++ [b]).map Extended.finite).drop 1 =
      inner.map Extended.finite ++ [.finite b] := by simp
  rw [withEnds, hinner, List.dropLast_concat, Extended.zero_eq, Extended.one_eq]
  simp

theorem exists_ends {β : Type} {qs : List β} (h : 2 ≤ qs.length) :
    ∃ a inner b, qs = a :: inner ++ [b] := by
  cases qs with
  | nil => simp at h
  | cons a rest =>
    have hrest : rest ≠ [] := by
      rintro rfl
      simp at h
    exact ⟨a, rest.dropLast, rest.getLast hrest, by
      rw [List.cons_append, List.dropLast_concat_getLast hrest]⟩

theorem ends_iff {a b : ℚ} {inner : List ℚ} :
    (¬ endTolerance < Scalar.abs (((a :: inner ++ [b]).map Extended.finite).headD 0.0) ∧
      ¬ endTolerance < Scalar.abs (lastPoint ((a :: inner ++ [b]).map Extended.finite) - 1.0)) ↔
      |a| ≤ 1e-14 ∧ |b - 1| ≤ 1e-14 := by
  have hb : lastPoint ((a :: inner ++ [b]).map Extended.finite) - 1.0 = .finite (b - 1) := by
    rw [lastPoint, List.map_append, List.map_singleton, List.getLast?_concat, Option.getD_some,
      Extended.one_eq, Extended.finite_sub, sub_eq_add_neg]
  rw [hb, List.cons_append, List.map_cons, List.headD_cons, abs_finite, abs_finite, endTolerance_eq,
    Extended.finite_lt_finite, Extended.finite_lt_finite, not_lt, not_lt]

theorem checkPoints_iff {t : Tensor Extended} {points : List Extended} :
    checkPoints t = .ok points ↔ t.rank = 1 ∧ t.entries = points ∧
      ∃ a inner b, points = (a :: inner ++ [b]).map .finite ∧ Accepted a inner b := by
  rw [checkPoints_eq_ok]
  constructor
  · rintro ⟨hrank, htwo, hfinite, hends, hgaps, rfl⟩
    obtain ⟨qs, hqs⟩ := exists_rationals hfinite
    rw [hqs, List.length_map] at htwo
    obtain ⟨a, inner, b, rfl⟩ := exists_ends htwo
    rw [hqs, ends_iff] at hends
    rw [hqs, spacing_eq, differences_iff_pairwise (by norm_num)] at hgaps
    exact ⟨hrank, rfl, a, inner, b, hqs, hends.1, hends.2, hgaps⟩
  · rintro ⟨hrank, rfl, a, inner, b, hpoints, haccepted⟩
    rw [hpoints, ends_iff, spacing_eq, differences_iff_pairwise (by norm_num)]
    exact ⟨hrank, by simp, all_isFinite _, ⟨haccepted.first, haccepted.last⟩, haccepted.spaced, rfl⟩

/-- What a mesh is made of: points that are accepted, with the ends moved to zero and one. -/
theorem ofTensor_iff {t : Tensor Extended} {m : Mesh Extended} :
    ofTensor t = .ok m ↔ t.rank = 1 ∧ ∃ a inner b, t.entries = (a :: inner ++ [b]).map .finite ∧
      Accepted a inner b ∧ m = ⟨(0 :: inner ++ [1] : List ℚ).map .finite⟩ := by
  rw [ofTensor, Except.bind_eq_ok]
  constructor
  · rintro ⟨points, hcheck, hm⟩
    obtain ⟨hrank, rfl, a, inner, b, hpoints, haccepted⟩ := checkPoints_iff.mp hcheck
    rw [hpoints, withEnds_finite, Except.pure_eq_ok] at hm
    exact ⟨hrank, a, inner, b, hpoints, haccepted, hm.symm⟩
  · rintro ⟨hrank, a, inner, b, hpoints, haccepted, rfl⟩
    refine ⟨_, checkPoints_iff.mpr ⟨hrank, rfl, a, inner, b, hpoints, haccepted⟩, ?_⟩
    rw [hpoints, withEnds_finite, Except.pure_eq_ok]

theorem Accepted.grid {a b : ℚ} {inner : List ℚ} (h : Accepted a inner b) :
    Grid ⟨(0 :: inner ++ [1] : List ℚ).map .finite⟩ (0 :: inner ++ [1]) :=
  ⟨rfl, by simp, rfl, List.getLast?_concat, h.increasing⟩

/-- A mesh that is accepted is a grid from zero to one. -/
theorem grid_of_tensor {t : Tensor Extended} {m : Mesh Extended} (h : ofTensor t = .ok m) :
    ∃ qs, m.Grid qs := by
  obtain ⟨-, a, inner, b, -, haccepted, rfl⟩ := ofTensor_iff.mp h
  exact ⟨_, haccepted.grid⟩

theorem grid_of_form {form : MeshForm Extended} {m : Mesh Extended} (h : ofForm form = .ok m) :
    ∃ qs, m.Grid qs := by
  obtain ⟨t, ht⟩ := exists_tensor h
  exact grid_of_tensor ht

section Times

variable {m : Mesh Extended} {qs : List ℚ} {a b : ℚ}

/-- The times of a grid on a horizon, as rationals. -/
def gridTimes (qs : List ℚ) (a b : ℚ) : List ℚ := qs.map fun q => a + (b - a) * q

@[simp] theorem length_gridTimes : (gridTimes qs a b).length = qs.length := List.length_map _

theorem Grid.times_eq (h : m.Grid qs) :
    m.times (.finite a) (.finite b) = (gridTimes qs a b).map .finite := by
  rw [times, h.points, gridTimes, List.map_map, List.map_map]
  refine List.map_congr_left fun q _ => ?_
  simp only [Function.comp, timeAt, Extended.finite_sub, Extended.finite_mul, Extended.finite_add,
    sub_eq_add_neg]

theorem gridTimes_increasing (h : qs.Pairwise (· < ·)) (hab : a < b) :
    (gridTimes qs a b).Pairwise (· < ·) := by
  refine List.pairwise_map.mpr (h.imp fun hpq => ?_)
  have := mul_lt_mul_of_pos_left hpq (sub_pos.mpr hab)
  linarith

theorem Grid.times_ends (h : m.Grid qs) : (gridTimes qs a b).head? = some a ∧
    (gridTimes qs a b).getLast? = some b := by
  rw [gridTimes, List.head?_map, List.getLast?_map, h.first, h.last]
  simp

end Times

end Mesh

end Collocation
