import Collocation.Scalar
import Mathlib.Algebra.Order.Ring.Rat
import Mathlib.Tactic.NormNum
import Mathlib.Tactic.Ring

/-! Exact arithmetic on the extended line. -/

namespace Collocation

namespace Extended

theorem zero_eq : (0.0 : Extended) = finite 0 := by
  show finite _ = _
  norm_num

theorem one_eq : (1.0 : Extended) = finite 1 := by
  show finite _ = _
  norm_num

theorem half_eq : (0.5 : Extended) = finite (1 / 2) := by
  show finite _ = _
  norm_num

theorem two_eq : (2.0 : Extended) = finite 2 := by
  show finite _ = _
  norm_num

theorem le_refl_zero : (0.0 : Extended) ≤ 0.0 := by
  rw [zero_eq, finite_le_finite]

theorem ne_nan_of_finite {x : Extended} {q : ℚ} (h : x = finite q) : x ≠ nan := by
  rintro rfl
  cases h

theorem le_refl {x : Extended} (hx : x ≠ nan) : x ≤ x := by
  cases x <;> first
    | rfl
    | exact absurd rfl hx
    | exact (finite_le_finite _ _).mpr Rat.le_refl

theorem le_antisymm {x y : Extended} (hxy : x ≤ y) (hyx : y ≤ x) : x = y := by
  cases x <;> cases y <;> first
    | rfl
    | exact absurd hxy Bool.false_ne_true
    | exact absurd hyx Bool.false_ne_true
    | exact congrArg finite
        (Rat.le_antisymm ((finite_le_finite _ _).mp hxy) ((finite_le_finite _ _).mp hyx))

protected theorem le_trans {x y z : Extended} (hxy : x ≤ y) (hyz : y ≤ z) : x ≤ z := by
  cases x <;> cases y <;> cases z <;> first
    | rfl
    | exact absurd hxy Bool.false_ne_true
    | exact absurd hyz Bool.false_ne_true
    | exact (finite_le_finite _ _).mpr
        (((finite_le_finite _ _).mp hxy).trans ((finite_le_finite _ _).mp hyz))

protected theorem neg_le_neg {x y : Extended} (h : x ≤ y) : -y ≤ -x := by
  cases x <;> cases y <;> first
    | rfl
    | exact absurd h Bool.false_ne_true
    | exact (finite_le_finite _ _).mpr (neg_le_neg ((finite_le_finite _ _).mp h))

protected theorem neg_neg (x : Extended) : - -x = x := by
  cases x <;> first
    | rfl
    | exact congrArg finite (neg_neg _)

theorem neg_le_neg_iff {x y : Extended} : -x ≤ -y ↔ y ≤ x := by
  refine ⟨fun h => ?_, Extended.neg_le_neg⟩
  have hback := Extended.neg_le_neg h
  rwa [Extended.neg_neg, Extended.neg_neg] at hback

theorem le_of_not_lt {x y : Extended} (hx : x ≠ nan) (hy : y ≠ nan) (h : ¬ y < x) : x ≤ y := by
  cases x <;> cases y <;> first
    | rfl
    | exact absurd rfl hx
    | exact absurd rfl hy
    | exact absurd rfl h
    | exact (finite_le_finite _ _).mpr (Rat.not_lt.mp (mt (finite_lt_finite _ _).mpr h))

theorem not_lt_of_le {x y : Extended} (h : x ≤ y) : ¬ y < x := by
  cases x <;> cases y <;> first
    | exact Bool.false_ne_true
    | exact absurd h Bool.false_ne_true
    | exact mt (finite_lt_finite _ _).mp (not_lt.mpr ((finite_le_finite _ _).mp h))

/-- What lies between two numbers is a number. -/
theorem finite_of_between {x : Extended} {p q : ℚ} (hpx : finite p ≤ x) (hxq : x ≤ finite q) :
    ∃ r, x = finite r ∧ p ≤ r ∧ r ≤ q := by
  cases x with
  | finite r => exact ⟨r, rfl, (finite_le_finite p r).mp hpx, (finite_le_finite r q).mp hxq⟩
  | nan => exact absurd hpx (not_le_nan _)
  | negInf => exact absurd hpx Bool.false_ne_true
  | posInf => exact absurd hxq Bool.false_ne_true

/-- What is above a value is a number, and at most infinite. -/
theorem le_infinity {x y : Extended} (h : x ≤ y) : y ≤ Scalar.infinity := by
  cases y with
  | nan => exact absurd h (not_le_nan x)
  | _ => rfl

theorem negInf_le {x : Extended} (h : x ≤ x) : .negInf ≤ x := by
  have hopposite := Extended.neg_le_neg (le_infinity (Extended.neg_le_neg h))
  rwa [Extended.neg_neg] at hopposite

theorem half_mul (x : Extended) : 0.5 * x = x / 2.0 := by
  rw [half_eq, two_eq]
  cases x with
  | nan => rfl
  | negInf =>
    show infinityOfSign (sign (finite (1 / 2)) * -1) =
      infinityOfSign (-1 * if (2 : ℚ) < 0 then -1 else 1)
    norm_num [sign]
  | finite q =>
    rw [finite_mul, finite_div (by norm_num)]
    congr 1
    ring
  | posInf =>
    show infinityOfSign (sign (finite (1 / 2)) * 1) =
      infinityOfSign (1 * if (2 : ℚ) < 0 then -1 else 1)
    norm_num [sign]

theorem add_right_comm (x y z : Extended) : x + y + z = x + z + y := by
  cases x <;> cases y <;> cases z <;> first
    | rfl
    | exact congrArg finite (by ring)

theorem sum_perm {xs ys : List Extended} (h : xs.Perm ys) : Scalar.sum xs = Scalar.sum ys :=
  h.foldl_eq' (fun x _ y _ z => add_right_comm z x y) 0.0

theorem foldl_finite (p : ℚ) (qs : List ℚ) :
    (qs.map finite).foldl (· + ·) (finite p) = finite (p + qs.sum) := by
  induction qs generalizing p with
  | nil => simp
  | cons q rest ih => rw [List.map_cons, List.foldl_cons, finite_add, ih, List.sum_cons, add_assoc]

theorem sum_finite (qs : List ℚ) : Scalar.sum (qs.map finite) = finite qs.sum := by
  rw [Scalar.sum, zero_eq, foldl_finite, zero_add]

theorem ofNat_finite (n : ℕ) : Scalar.ofNat n = finite n := by
  show finite (Rat.ofScientific n false 0) = finite n
  rw [Rat.ofScientific_false_def, pow_zero, mul_one]

theorem ofInt_finite (n : ℤ) : Scalar.ofInt n = finite n := by
  cases n with
  | ofNat n => exact ofNat_finite n
  | negSucc n => rw [Scalar.ofInt, ofNat_finite, neg_finite, Int.cast_negSucc]

theorem isNaN_finite (q : ℚ) : Scalar.isNaN (finite q) = false := by
  have hle : finite q ≤ finite q := (finite_le_finite q q).mpr (Rat.le_refl)
  rw [Scalar.isNaN, decide_eq_true hle]
  rfl

theorem eq_finite_iff {p q : ℚ} : Scalar.eq (finite p) (finite q) = true ↔ p = q := by
  rw [Scalar.eq, Bool.and_eq_true, decide_eq_true_eq, decide_eq_true_eq, finite_le_finite,
    finite_le_finite, ← le_antisymm_iff]

theorem eq_finite_self (q : ℚ) : Scalar.eq (finite q) (finite q) = true :=
  eq_finite_iff.mpr rfl

theorem smaller_finite (p q : ℚ) : Scalar.smaller (finite p) (finite q) = finite (min p q) := by
  unfold Scalar.smaller
  split_ifs with h
  · rw [min_eq_right ((finite_lt_finite q p).mp h).le]
  · rw [min_eq_left (not_lt.mp (mt (finite_lt_finite q p).mpr h))]

theorem isFinite_iff {x : Extended} : Scalar.isFinite x = true ↔ ∃ q, x = finite q := by
  cases x with
  | finite q =>
    have hinfinite : Scalar.isInfinite (finite q) = false := rfl
    simp [Scalar.isFinite, isNaN_finite, hinfinite]
  | _ => exact iff_of_false Bool.false_ne_true nofun

theorem add_eq_finite {x y : Extended} {q : ℚ} (h : x + y = finite q) :
    ∃ a b, x = finite a ∧ y = finite b ∧ a + b = q := by
  cases x <;> cases y <;> first
    | exact ⟨_, _, rfl, rfl, finite.inj h⟩
    | cases h

theorem sub_eq_finite {x y : Extended} {q : ℚ} (h : x - y = finite q) :
    ∃ a b, x = finite a ∧ y = finite b ∧ a - b = q := by
  cases x <;> cases y <;> first
    | exact ⟨_, _, rfl, rfl, (sub_eq_add_neg _ _).trans (finite.inj h)⟩
    | cases h

/-- A difference from a number vanishes only if there is none. -/
theorem finite_sub_eq_zero {q : ℚ} {x : Extended} : finite q - x = 0.0 ↔ finite q = x := by
  rw [zero_eq]
  constructor
  · intro h
    obtain ⟨a, b, ha, rfl, hab⟩ := sub_eq_finite h
    rw [ha, sub_eq_zero.mp hab]
  · rintro rfl
    rw [finite_sub, add_neg_cancel]

theorem infinityOfSign_ne_finite (p q : ℚ) : infinityOfSign p ≠ finite q := by
  unfold infinityOfSign
  split_ifs <;> exact nofun

theorem mul_eq_finite {x y : Extended} {q : ℚ} (h : x * y = finite q) :
    ∃ a b, x = finite a ∧ y = finite b ∧ a * b = q := by
  cases x <;> cases y <;> first
    | exact ⟨_, _, rfl, rfl, finite.inj h⟩
    | exact absurd h (infinityOfSign_ne_finite _ _)
    | cases h

theorem half_eq_finite {x : Extended} {q : ℚ} (h : x / 2.0 = finite q) :
    ∃ a, x = finite a ∧ a / 2 = q := by
  rw [← half_mul, half_eq] at h
  obtain ⟨a, b, ha, rfl, hab⟩ := mul_eq_finite h
  obtain rfl := finite.inj ha
  exact ⟨b, rfl, by rw [← hab]; ring⟩

theorem posInf_mul_finite (q : ℚ) : posInf * finite q = infinityOfSign q := by
  show infinityOfSign (1 * sign (finite q)) = infinityOfSign q
  rcases lt_trichotomy q 0 with hq | rfl | hq
  · simp [infinityOfSign, sign, hq]
  · simp [sign]
  · simp [infinityOfSign, sign, hq, hq.not_gt]

theorem negInf_mul_finite (q : ℚ) : negInf * finite q = infinityOfSign (-q) := by
  show infinityOfSign (-1 * sign (finite q)) = infinityOfSign (-q)
  rcases lt_trichotomy q 0 with hq | rfl | hq
  · simp [infinityOfSign, sign, hq, hq.not_gt]
  · simp [sign]
  · simp [infinityOfSign, sign, hq, hq.not_gt]

theorem infinityOfSign_mul_finite (p q : ℚ) :
    infinityOfSign p * finite q = infinityOfSign (p * q) := by
  rcases lt_trichotomy p 0 with hp | rfl | hp
  · have hsign : infinityOfSign (p * q) = infinityOfSign (-q) := by
      simp [infinityOfSign, hp, mul_neg_iff, mul_pos_iff, hp.not_gt]
    rw [hsign, ← negInf_mul_finite q, infinityOfSign, if_pos hp]
  · simp [infinityOfSign]
    rfl
  · have hsign : infinityOfSign (p * q) = infinityOfSign q := by
      simp [infinityOfSign, hp, mul_neg_iff, hp.not_gt]
    rw [hsign, ← posInf_mul_finite q, infinityOfSign, if_neg hp.not_gt, if_pos hp]

/-- Finite factors may be multiplied first. -/
theorem mul_mul_finite (x : Extended) (p q : ℚ) :
    x * finite p * finite q = x * finite (p * q) := by
  cases x with
  | nan => rfl
  | negInf => rw [negInf_mul_finite, infinityOfSign_mul_finite, negInf_mul_finite, neg_mul]
  | finite r => rw [finite_mul, finite_mul, finite_mul, mul_assoc]
  | posInf => rw [posInf_mul_finite, infinityOfSign_mul_finite, posInf_mul_finite]

end Extended

end Collocation
