import Collocation.Proofs.Mesh
import Collocation.Proofs.Rounding
import Mathlib.Data.List.Chain

/-! The order of the points of a mesh.  Points are checked by their distances, which machine
arithmetic rounds.  Rounding keeps the order of the distances, so that neighbours that seem further
apart than the spacing are in order, also after the ends are moved to zero and one. -/

namespace Collocation

/-- Scalars with differences in the order of the exact differences. -/
class Differences (α : Type) [Scalar α] : Prop extends Rounding α where
  lt_iff (x y : α) : x < y ↔ Scalar.exact x < Scalar.exact y
  exact_abs (x : α) : Scalar.exact (Scalar.abs x) = Scalar.abs (Scalar.exact x)
  exact_sub_mono {x y z w : α} {p q r s : ℚ} (hx : Scalar.exact x = .finite p)
    (hy : Scalar.exact y = .finite q) (hz : Scalar.exact z = .finite r)
    (hw : Scalar.exact w = .finite s) (h : p - q ≤ r - s) :
    Scalar.exact (x - y) ≤ Scalar.exact (z - w)
  exact_zero : Scalar.exact (0.0 : α) = .finite 0
  exact_one : Scalar.exact (1.0 : α) = .finite 1
  tolerance_nonneg : (0.0 : α) ≤ Mesh.endTolerance
  tolerance_lt : (Mesh.endTolerance : α) < Mesh.spacing
  spacing_ge : .finite (1 / 10 ^ 13) ≤ Scalar.exact (Mesh.spacing : α)
  spacing_le : Scalar.exact (Mesh.spacing : α) ≤ .finite 1

instance : Differences Extended where
  lt_iff _ _ := Iff.rfl
  exact_abs _ := rfl
  exact_sub_mono hx hy hz hw h := by
    obtain rfl := hx
    obtain rfl := hy
    obtain rfl := hz
    obtain rfl := hw
    show Extended.finite _ - .finite _ ≤ .finite _ - .finite _
    rw [Extended.finite_sub, Extended.finite_sub, Extended.finite_le_finite, ← sub_eq_add_neg,
      ← sub_eq_add_neg]
    exact h
  exact_zero := Extended.zero_eq
  exact_one := Extended.one_eq
  tolerance_nonneg := by decide +kernel
  tolerance_lt := by decide +kernel
  spacing_ge := by decide +kernel
  spacing_le := by decide +kernel

namespace Extended

theorem le_abs {x : Extended} (h : x ≠ nan) : x ≤ Scalar.abs x := by
  cases x with
  | nan => exact absurd rfl h
  | negInf => rfl
  | posInf => rfl
  | finite q =>
    rw [Mesh.abs_finite, finite_le_finite]
    exact le_abs_self q

theorem lt_of_le_of_lt {x y z : Extended} (hxy : x ≤ y) (hyz : y < z) : x < z := by
  cases x <;> cases y <;> cases z <;> first
    | rfl
    | exact absurd hxy Bool.false_ne_true
    | exact absurd hyz Bool.false_ne_true
    | exact (finite_lt_finite _ _).mpr
        (((finite_le_finite _ _).mp hxy).trans_lt ((finite_lt_finite _ _).mp hyz))

theorem lt_of_lt_of_le {x y z : Extended} (hxy : x < y) (hyz : y ≤ z) : x < z := by
  cases x <;> cases y <;> cases z <;> first
    | rfl
    | exact absurd hxy Bool.false_ne_true
    | exact absurd hyz Bool.false_ne_true
    | exact (finite_lt_finite _ _).mpr
        (((finite_lt_finite _ _).mp hxy).trans_le ((finite_le_finite _ _).mp hyz))

theorem le_of_lt {x y : Extended} (h : x < y) : x ≤ y := by
  cases x <;> cases y <;> first
    | rfl
    | exact absurd h Bool.false_ne_true
    | exact (finite_le_finite _ _).mpr ((finite_lt_finite _ _).mp h).le

end Extended

namespace Differences

variable {α : Type} [Scalar α] [Differences α] {x y z w : α}

theorem lt_trans (hxy : x < y) (hyz : y < z) : x < z := by
  rw [lt_iff] at *
  exact Extended.lt_of_le_of_lt (Extended.le_of_lt hxy) hyz

theorem le_of_lt (h : x < y) : x ≤ y :=
  (Rounding.le_iff _ _).mpr (Extended.le_of_lt ((lt_iff _ _).mp h))

theorem not_lt_of_le (h : x ≤ y) : ¬ y < x :=
  fun hlt => Extended.not_lt_of_le ((Rounding.le_iff _ _).mp h) ((lt_iff _ _).mp hlt)

theorem le_of_not_lt (hx : Scalar.exact x ≠ .nan) (hy : Scalar.exact y ≠ .nan) (h : ¬ y < x) :
    x ≤ y :=
  (Rounding.le_iff _ _).mpr (Extended.le_of_not_lt hx hy (mt (lt_iff _ _).mpr h))

/-- Differences of finite scalars are never "not a number". -/
theorem exact_sub_ne_nan {p q : ℚ} (hx : Scalar.exact x = .finite p)
    (hy : Scalar.exact y = .finite q) : Scalar.exact (x - y) ≠ .nan := by
  intro hnan
  have hle := exact_sub_mono hx hy hx hy le_rfl
  exact Extended.not_nan_le _ (hnan ▸ hle)

/-- Scalars with a difference that is above another one have the larger exact difference. -/
theorem lt_of_sub_lt {p q r s : ℚ} (hx : Scalar.exact x = .finite p)
    (hy : Scalar.exact y = .finite q) (hz : Scalar.exact z = .finite r)
    (hw : Scalar.exact w = .finite s) (h : Scalar.exact (x - y) < Scalar.exact (z - w)) :
    p - q < r - s :=
  lt_of_not_ge fun hle => Extended.not_lt_of_le (exact_sub_mono hz hw hx hy hle) h

/-- The difference from a smaller number back is not rounded above zero. -/
theorem sub_nonpos {p q : ℚ} (hx : Scalar.exact x = .finite p) (hy : Scalar.exact y = .finite q)
    (h : p ≤ q) : x - y ≤ 0.0 := by
  have hle := exact_sub_mono hx hy exact_zero exact_zero (show p - q ≤ 0 - 0 by linarith)
  rwa [Rounding.sub_zero, ← Rounding.le_iff] at hle

theorem lt_of_rationals {p q : ℚ} (hx : Scalar.exact x = .finite p)
    (hy : Scalar.exact y = .finite q) (h : p < q) : x < y := by
  rw [lt_iff, hx, hy]
  exact (Extended.finite_lt_finite p q).mpr h

/-- What increases lies between its ends. -/
theorem between_ends {xs : List α} {a b : α} (h : xs.Pairwise (· < ·)) (hfirst : xs.head? = some a)
    (hlast : xs.getLast? = some b) (ha : a ≤ a) (hb : b ≤ b) : ∀ x ∈ xs, a ≤ x ∧ x ≤ b := by
  intro x hx
  obtain ⟨k, hk, rfl⟩ := List.mem_iff_getElem.mp hx
  have hpoint : xs[k]? = some xs[k] := List.getElem?_eq_getElem hk
  have hordered {i j : Nat} {y z : α} (hi : xs[i]? = some y) (hj : xs[j]? = some z)
      (hlt : i < j) : y ≤ z := by
    obtain ⟨hi', rfl⟩ := List.getElem?_eq_some_iff.mp hi
    obtain ⟨hj', rfl⟩ := List.getElem?_eq_some_iff.mp hj
    exact Differences.le_of_lt (List.pairwise_iff_getElem.mp h i j hi' hj' hlt)
  rw [List.head?_eq_getElem?] at hfirst
  rw [List.getLast?_eq_getElem?] at hlast
  constructor
  · rcases Nat.eq_zero_or_pos k with rfl | hpos
    · rwa [Option.some.inj (hpoint.symm.trans hfirst)]
    · exact hordered hfirst hpoint hpos
  · rcases Nat.lt_or_eq_of_le (Nat.le_sub_one_of_lt hk) with hlt | rfl
    · exact hordered hpoint hlast hlt
    · rwa [Option.some.inj (hpoint.symm.trans hlast)]

end Differences

namespace Mesh

open Differences

variable {α : Type} [Scalar α] [Differences α] {x y : α}

/-- At least two points that increase from zero to one. -/
structure Increasing (m : Mesh α) : Prop where
  two : 2 ≤ m.numPoints
  first : m.points.head? = some 0.0
  last : m.points.getLast? = some 1.0
  increasing : m.points.Pairwise (· < ·)

theorem exact_le_tolerance {d : α} (hd : Scalar.exact d ≠ .nan) (h : ¬ endTolerance < d) :
    Scalar.exact d ≤ Scalar.exact (endTolerance : α) := by
  have htolerance : Scalar.exact (endTolerance : α) ≠ .nan := fun hnan =>
    Extended.not_le_nan _ (hnan ▸ (Rounding.le_iff _ _).mp tolerance_nonneg)
  exact Extended.le_of_not_lt hd htolerance (mt (lt_iff _ _).mpr h)

/-- A distance that exceeds the spacing is larger than what is within the tolerance. -/
theorem lt_of_spacing_lt {d : α} (hd : Scalar.exact d ≤ Scalar.exact (endTolerance : α))
    (h : spacing < y - x) : Scalar.exact d < Scalar.exact (y - x) :=
  Extended.lt_of_le_of_lt hd ((lt_iff _ _).mp (lt_trans tolerance_lt h))

section Neighbours

variable (hx : Scalar.isFinite x = true) (hy : Scalar.isFinite y = true) (h : spacing < y - x)
include hx hy h

/-- Neighbours that are further apart than the spacing are in order: no distance from a point back
to an earlier one is rounded above zero. -/
theorem lt_of_spacing : x < y := by
  obtain ⟨p, hp⟩ := Rounding.isFinite_iff.mp hx
  obtain ⟨q, hq⟩ := Rounding.isFinite_iff.mp hy
  have hzero : Scalar.exact ((0.0 : α) - 0.0) ≤ Scalar.exact (endTolerance : α) := by
    rw [Rounding.sub_zero, ← Rounding.le_iff]
    exact tolerance_nonneg
  have hlt := lt_of_sub_lt exact_zero exact_zero hq hp (lt_of_spacing_lt hzero h)
  exact lt_of_rationals hp hq (by linarith)

/-- A first point within the tolerance can be moved to zero. -/
theorem zero_lt_of_spacing (hend : ¬ endTolerance < Scalar.abs x) : 0.0 < y := by
  obtain ⟨p, hp⟩ := Rounding.isFinite_iff.mp hx
  obtain ⟨q, hq⟩ := Rounding.isFinite_iff.mp hy
  have habs : Scalar.exact (Scalar.abs x) = .finite |p| := by rw [exact_abs, hp, abs_finite]
  have hfirst : Scalar.exact (Scalar.abs x - 0.0) ≤ Scalar.exact (endTolerance : α) := by
    rw [Rounding.sub_zero]
    exact exact_le_tolerance (habs ▸ nofun) hend
  have hlt := lt_of_sub_lt habs exact_zero hq hp (lt_of_spacing_lt hfirst h)
  have hneg := neg_abs_le p
  exact lt_of_rationals exact_zero hq (by linarith)

/-- A last point within the tolerance can be moved to one. -/
theorem lt_one_of_spacing (hend : ¬ endTolerance < Scalar.abs (y - 1.0)) : x < 1.0 := by
  obtain ⟨p, hp⟩ := Rounding.isFinite_iff.mp hx
  obtain ⟨q, hq⟩ := Rounding.isFinite_iff.mp hy
  have hnan := exact_sub_ne_nan hq exact_one
  have habs := Extended.le_abs hnan
  rw [← exact_abs] at habs
  have hlast := Extended.le_trans habs (exact_le_tolerance
    (fun hnan => Extended.not_le_nan _ (hnan ▸ habs)) hend)
  have hlt := lt_of_sub_lt hq exact_one hq hp (lt_of_spacing_lt hlast h)
  exact lt_of_rationals hp exact_one (by linarith)

end Neighbours

omit [Differences α] in
/-- What holds of all differences holds of the differences of neighbours. -/
theorem isChain_of_differences {P : α → Bool} {points : List α} (h : (differences points).all P) :
    points.IsChain fun x y => P (y - x) = true := by
  induction points with
  | nil => exact .nil
  | cons x rest ih =>
    cases rest with
    | nil => exact .singleton x
    | cons y rest =>
      rw [differences, List.all_cons, Bool.and_eq_true] at h
      exact .cons_cons h.1 (ih h.2)

/-- Points that are accepted increase, also after the ends are moved. -/
theorem isChain_withEnds {a b : α} {inner : List α}
    (hfinite : ∀ x ∈ a :: inner ++ [b], Scalar.isFinite x = true)
    (hfirst : ¬ endTolerance < Scalar.abs a) (hlast : ¬ endTolerance < Scalar.abs (b - 1.0))
    (h : (a :: inner ++ [b]).IsChain fun x y => spacing < y - x) :
    ((0.0 : α) :: inner ++ [1.0]).IsChain (· < ·) := by
  rw [List.cons_append, List.isChain_cons, List.isChain_append] at h ⊢
  obtain ⟨hhead, hinner, -, hback⟩ := h
  refine ⟨fun y hy => ?head, hinner.imp_of_mem_imp fun x y hx hy hxy => ?inner, .singleton _,
    fun x hx y hy => ?last⟩
  case head =>
    cases inner with
    | nil =>
      obtain rfl : 1.0 = y := by simpa using hy
      exact lt_of_rationals exact_zero exact_one one_pos
    | cons c rest =>
      obtain rfl : c = y := by simpa using hy
      exact zero_lt_of_spacing (hfinite a (by simp)) (hfinite c (by simp))
        (hhead c rfl) hfirst
  case inner => exact lt_of_spacing (hfinite x (by simp [hx])) (hfinite y (by simp [hy])) hxy
  case last =>
    obtain rfl : 1.0 = y := by simpa using hy
    have hmem : x ∈ inner := List.mem_of_getLast? hx
    exact lt_one_of_spacing (hfinite x (by simp [hmem])) (hfinite b (by simp)) (hback x hx b rfl)
      hlast

instance : Trans (· < · : α → α → Prop) (· < ·) (· < ·) := ⟨lt_trans⟩

/-- The points of a mesh: zero and one, and between them points that are further apart than the
spacing. -/
theorem points_of_tensor {t : Tensor α} {m : Mesh α} (h : ofTensor t = .ok m) : ∃ inner,
    m.points = 0.0 :: inner ++ [1.0] ∧ m.points.IsChain (· < ·) ∧
    (∀ x ∈ inner, Scalar.isFinite x) ∧ inner.IsChain fun x y => spacing < y - x := by
  obtain ⟨points, hcheck, rfl⟩ := Except.map_eq_ok.mp h
  obtain ⟨-, htwo, hfinite, ⟨hfirst, hlast⟩, hgaps, rfl⟩ := checkPoints_eq_ok.mp hcheck
  obtain ⟨a, inner, b, hentries⟩ := exists_ends htwo
  have hend : lastPoint t.entries = b := by
    rw [hentries, lastPoint, List.getLast?_concat, Option.getD_some]
  have hinner : (a :: inner ++ [b]).drop 1 = inner ++ [b] := rfl
  have hends : withEnds t.entries = 0.0 :: inner ++ [1.0] := by
    rw [hentries, withEnds, hinner, List.dropLast_concat]
  rw [hend] at hlast
  rw [hentries] at hfirst hfinite hgaps
  have hfinite := List.all_eq_true.mp hfinite
  have hgaps := (isChain_of_differences hgaps).imp fun _ _ => of_decide_eq_true
  refine ⟨inner, hends, ?_, fun x hx => hfinite x (by simp [hx]), ?_⟩
  · show List.IsChain (· < ·) (withEnds t.entries)
    rw [hends]
    exact isChain_withEnds hfinite hfirst hlast hgaps
  · exact (List.isChain_append.mp (List.isChain_cons.mp hgaps).2).1

theorem increasing_of_tensor {t : Tensor α} {m : Mesh α} (h : ofTensor t = .ok m) :
    m.Increasing := by
  obtain ⟨inner, hpoints, hchain, -, -⟩ := points_of_tensor h
  refine ⟨?_, ?_, ?_, List.isChain_iff_pairwise.mp hchain⟩
  · simp [numPoints, hpoints]
  · rw [hpoints]
    rfl
  · rw [hpoints]
    exact List.getLast?_concat

theorem increasing_of_form {form : MeshForm α} {m : Mesh α} (h : ofForm form = .ok m) :
    m.Increasing := by
  obtain ⟨t, ht⟩ := exists_tensor h
  exact increasing_of_tensor ht

/-- Points lie between zero and one. -/
theorem Increasing.between {m : Mesh α} (h : m.Increasing) :
    ∀ x ∈ m.points, 0.0 ≤ x ∧ x ≤ 1.0 :=
  between_ends h.increasing h.first h.last (Rounding.le_self exact_zero)
    (Rounding.le_self exact_one)

theorem Increasing.exact {m : Mesh α} (h : m.Increasing) {x : α} (hx : x ∈ m.points) :
    ∃ r, Scalar.exact x = .finite r ∧ 0 ≤ r ∧ r ≤ 1 := by
  obtain ⟨hlower, hupper⟩ := h.between x hx
  rw [Rounding.le_iff, exact_zero] at hlower
  rw [Rounding.le_iff, exact_one] at hupper
  exact Extended.finite_of_between hlower hupper

theorem Increasing.isFinite {m : Mesh α} (h : m.Increasing) {x : α} (hx : x ∈ m.points) :
    Scalar.isFinite x := by
  obtain ⟨r, hr, -⟩ := h.exact hx
  exact Rounding.isFinite_iff.mpr ⟨r, hr⟩

/-! ### The number of points -/

/-- Points that are further apart than the spacing are spread out by their number. -/
theorem spread_out {x : α} {rest : List α} (hfinite : ∀ y ∈ x :: rest, Scalar.isFinite y)
    (h : (x :: rest).IsChain fun x y => spacing < y - x) {p : ℚ}
    (hx : Scalar.exact x = .finite p) : ∃ y ∈ x :: rest, ∃ q, Scalar.exact y = .finite q ∧
      p + rest.length / 10 ^ 13 ≤ q := by
  induction rest generalizing x p with
  | nil => exact ⟨x, by simp, p, hx, by simp⟩
  | cons z rest ih =>
    obtain ⟨hgap, hrest⟩ := List.isChain_cons_cons.mp h
    have hfinite := (List.forall_mem_cons.mp hfinite).2
    obtain ⟨r, hr⟩ := Rounding.isFinite_iff.mp (hfinite z (by simp))
    obtain ⟨y, hy, q, hq, hle⟩ := ih hfinite hrest hr
    obtain ⟨s, hs, hs0, -⟩ := Extended.finite_of_between spacing_ge (spacing_le (α := α))
    have hlt : Scalar.exact ((spacing : α) - 0.0) < Scalar.exact (z - x) := by
      rw [Rounding.sub_zero]
      exact (lt_iff _ _).mp hgap
    have hlt := lt_of_sub_lt hs exact_zero hr hx hlt
    refine ⟨y, List.mem_cons_of_mem _ hy, q, hq, ?_⟩
    rw [List.length_cons]
    push_cast
    linarith

/-- The spacing of its points limits their number, so that they can be counted. -/
theorem countable_of_form {form : MeshForm α} {m : Mesh α} (h : ofForm form = .ok m) :
    (m.numPoints : Int) ≤ Tensor.countable := by
  obtain ⟨t, ht⟩ := exists_tensor h
  obtain ⟨inner, hpoints, -, hfinite, hgaps⟩ := points_of_tensor ht
  have hexact {x : α} (hx : x ∈ inner) := (increasing_of_form h).exact
    (show x ∈ m.points by simp [hpoints, hx])
  have hnum : m.numPoints = inner.length + 2 := by simp [numPoints, hpoints]
  rw [hnum, Tensor.countable]
  cases inner with
  | nil => norm_num
  | cons x rest =>
    obtain ⟨p, hp, hp0, -⟩ := hexact List.mem_cons_self
    obtain ⟨y, hy, q, hq, hle⟩ := spread_out hfinite hgaps hp
    obtain ⟨q', hq', -, hq1⟩ := hexact hy
    obtain rfl : q = q' := Extended.finite.inj (hq.symm.trans hq')
    have hfew : (rest.length : ℚ) / 10 ^ 13 ≤ 1 := by linarith
    rw [div_le_one₀ (by norm_num)] at hfew
    have hfew : rest.length ≤ 10 ^ 13 := by exact_mod_cast hfew
    rw [List.length_cons]
    omega

end Mesh

end Collocation
