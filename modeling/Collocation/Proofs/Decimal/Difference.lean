import Collocation.Proofs.Decimal.Conversion
import Collocation.Proofs.Mesh.Spacing

/-! Differences of doubles.  All finite doubles are multiples of the least positive one, so their
differences are such multiples as well, and these are rounded to 53 leading bits.  Rounding keeps
the order, and with it the machine's subtraction keeps the order of the exact differences. -/

namespace Collocation.Decimal

open Float.Model Float.Model.UnpackedFloat

/-! ### Opposites -/

theorem unpackedExact_neg (u : UnpackedFloat) : unpackedExact u.neg = -unpackedExact u := by
  rcases u with (_ | _) | _ | s | ⟨(_ | _), m, e, hm⟩
  case zero => simp [UnpackedFloat.neg, unpackedExact]
  case finite.negative =>
    show Extended.finite (Sign.positive.apply m * 2 ^ e) = -.finite (Sign.negative.apply m * 2 ^ e)
    simp [Sign.apply]
  case finite.positive =>
    show Extended.finite (Sign.negative.apply m * 2 ^ e) = -.finite (Sign.positive.apply m * 2 ^ e)
    simp [Sign.apply]
  all_goals rfl

theorem unpack_packComponents_neg (s : Sign) (e : BitVec 11) (m : BitVec 52) :
    UnpackedFloat.unpack Format.binary64 (packComponents Format.binary64 (-s) e m) =
      (UnpackedFloat.unpack Format.binary64 (packComponents Format.binary64 s e m)).neg := by
  unfold UnpackedFloat.unpack
  simp only [unpackExponent_packComponents, unpackMantissa_packComponents,
    unpackSign_packComponents, Sign.ofBitVec_toBitVec]
  split_ifs <;> rfl

/-- Packing keeps the sign apart. -/
theorem unpack_pack_neg (u : UnpackedFloat) :
    (Float.Model.pack u.neg).unpack = (Float.Model.pack u).unpack.neg := by
  rcases u with s | _ | s | ⟨s, m, e, hm⟩
  · exact unpack_packComponents_neg s _ _
  · rfl
  · exact unpack_packComponents_neg s _ _
  · show UnpackedFloat.unpack Format.binary64 (UnpackedFloat.pack _ (.finite (-s) m e hm)) =
      (UnpackedFloat.unpack Format.binary64 (UnpackedFloat.pack _ (.finite s m e hm))).neg
    unfold UnpackedFloat.pack packedInfinity
    dsimp only
    split_ifs <;> exact unpack_packComponents_neg s _ _

theorem exact_pack_neg (u : UnpackedFloat) :
    Scalar.exact (Float.ofModel (.pack u.neg)) = -Scalar.exact (Float.ofModel (.pack u)) := by
  rw [exact_eq, exact_eq, ← unpackedExact_neg, ← unpack_pack_neg]

/-- Rounding keeps the sign apart. -/
theorem roundWithAccuracy_negative (m : ℕ) (e : ℤ) (accuracy : Accuracy) :
    roundWithAccuracy Format.binary64 .negative m e accuracy =
      (roundWithAccuracy Format.binary64 .positive m e accuracy).neg := by
  simp only [roundWithAccuracy]
  split_ifs <;> rfl

theorem round_negative (m : ℕ) (e : ℤ) : UnpackedFloat.round Format.binary64 .negative m e =
    (UnpackedFloat.round Format.binary64 .positive m e).neg :=
  roundWithAccuracy_negative _ _ _

/-! ### Rounding at an exponent -/

theorem shiftToTargetExponent_kept {m : ℕ} {e : ℤ}
    (he : max ((m.log2 : ℤ) + e - 52) (-1074) = e) :
    shiftToTargetExponent Format.binary64 m e .exact =
      ((ExtendedMantissa.ofMantissaAndAccuracy m .exact) >>> 0, e) := by
  rw [shiftToTargetExponent, targetExponent_eq, he, shiftToExponent, sub_self]
  simp

/-- A mantissa that has the exponent it should have is kept. -/
theorem roundWithAccuracy_kept {m : ℕ} {e : ℤ} (hm : 0 < m)
    (he : max ((m.log2 : ℤ) + e - 52) (-1074) = e) :
    roundWithAccuracy Format.binary64 .positive m e .exact = .finite .positive m e hm := by
  have hshift := shiftToTargetExponent_kept he
  have hround : nearestQuotient m 0 = m := by simpa using nearestQuotient_mul_two_pow m 0
  exact roundWithAccuracy_eq hshift ((roundedMantissa_shiftRight m 0).trans hround) hshift hm

/-- A quotient does not change with a common factor. -/
theorem nearestQuotient_scale (n s k : ℕ) :
    nearestQuotient (n * 2 ^ k) (s + k) = nearestQuotient n s := by
  have hpos := Nat.two_pow_pos k
  have hdiv : n * 2 ^ k / 2 ^ (s + k) = n / 2 ^ s := by
    rw [Nat.pow_add, Nat.mul_div_mul_right _ _ hpos]
  have hmod : n * 2 ^ k % 2 ^ (s + k) = n % 2 ^ s * 2 ^ k := by
    rw [Nat.pow_add, Nat.mul_mod_mul_right]
  have hlt : 2 ^ (s + k) < 2 * (n % 2 ^ s * 2 ^ k) ↔ 2 ^ s < 2 * (n % 2 ^ s) := by
    rw [← mul_assoc, Nat.pow_add, Nat.mul_lt_mul_right hpos]
  have heq : 2 ^ (s + k) = 2 * (n % 2 ^ s * 2 ^ k) ↔ 2 ^ s = 2 * (n % 2 ^ s) := by
    rw [← mul_assoc, Nat.pow_add, Nat.mul_left_inj hpos.ne']
  simp only [nearestQuotient, hdiv, hmod, hlt, heq]

/-- Rounding to leading bits does not depend on the exponent. -/
theorem rounded_mul_two_pow (n k : ℕ) : rounded (n * 2 ^ k) = rounded n * 2 ^ k := by
  rcases n.eq_zero_or_pos with rfl | hpos
  · rw [zero_mul, rounded_of_lt (by decide), Nat.cast_zero, zero_mul]
  · have hexponent : ((n.log2 + k : ℕ) : ℤ) - 52 = (n.log2 : ℤ) - 52 + k := by
      push_cast
      ring
    rw [rounded, log2_mul_two_pow hpos.ne', mul_right_comm, Nat.add_right_comm,
      nearestQuotient_scale, hexponent, zpow_add₀ two_ne_zero, zpow_natCast, ← mul_assoc, rounded]

theorem rounded_of_log2 {m s : ℕ} (hlog : m.log2 = 52 + s) :
    rounded m = nearestQuotient m s * 2 ^ (s : ℤ) := by
  have hexponent : ((52 + s : ℕ) : ℤ) - 52 = s := by omega
  have hshift : 52 + s + 1 = s + 53 := by omega
  rw [rounded, hlog, hexponent, hshift, nearestQuotient_scale]

theorem lt_two_pow_of_log2_lt {m : ℕ} (h : m.log2 < 52) : m < 2 ^ 52 := by
  rcases m.eq_zero_or_pos with rfl | hpos
  · decide
  · exact (Nat.log2_lt hpos.ne').mp h

/-- A positive number is rounded to its 53 leading bits, unless it is too large. -/
theorem exact_round {m : ℕ} {e : ℤ} (hm : 0 < m) (hleast : -1074 ≤ e) :
    Scalar.exact (Float.ofModel (.pack (UnpackedFloat.round Format.binary64 .positive m e))) =
      clamped (rounded m * 2 ^ e) := by
  rw [UnpackedFloat.round, targetExponent_eq, decreaseExponent]
  dsimp only
  rcases le_or_gt 52 m.log2 with hlog | hlog
  · obtain ⟨s, hs⟩ := Nat.exists_eq_add_of_le hlog
    have hshift : (e - max ((m.log2 : ℤ) + e - 52) (-1074)).toNat = 0 := by omega
    rw [hshift, Nat.shiftLeft_zero, Nat.cast_zero, sub_zero, exact_roundWithAccuracy hs (by omega),
      rounded_of_log2 hs, mul_assoc, ← zpow_add₀ two_ne_zero, add_comm e]
  · -- The mantissa is filled up, as far as the least exponent allows.
    have hlt := lt_two_pow_of_log2_lt hlog
    have hrounded : rounded m = m := rounded_of_lt (hlt.trans (by norm_num))
    obtain ⟨k, hk⟩ := Int.eq_ofNat_of_zero_le
      (show 0 ≤ e - max ((m.log2 : ℤ) + e - 52) (-1074) by omega)
    have hpos : 0 < m * 2 ^ k := Nat.mul_pos hm (Nat.two_pow_pos k)
    have hfilled : (m * 2 ^ k).log2 = m.log2 + k := log2_mul_two_pow hm.ne' k
    have hbelow : m * 2 ^ k < 2 ^ 53 := (Nat.log2_lt hpos.ne').mp (by omega)
    have hvalue : ((m * 2 ^ k : ℕ) : ℚ) * 2 ^ (e - k) = m * 2 ^ e := by
      rw [Nat.cast_mul, Nat.cast_pow, Nat.cast_ofNat, mul_assoc, ← zpow_natCast,
        ← zpow_add₀ two_ne_zero, add_sub_cancel]
    rw [hk]
    simp only [Int.toNat_natCast]
    rw [Nat.shiftLeft_eq, roundWithAccuracy_kept hpos (by omega), hrounded, ← hvalue]
    rcases lt_or_ge (m.log2 + k) 52 with hsmall | hfull
    · have hcanonical : Canonical (m * 2 ^ k) (e - k) :=
        ⟨hbelow, by omega, by omega, .inr (by omega)⟩
      rw [clamped, if_pos hcanonical.lt_limit]
      exact (Parts.positive hpos hcanonical).exact_pack
    · exact exact_full hpos (by omega) (by omega)

/-! ### Multiples of the least double -/

/-- The least positive double. -/
def leastDouble : ℚ := 2 ^ (-1074 : ℤ)

theorem leastDouble_pos : 0 < leastDouble := zpow_pos two_pos _

theorem two_pow_mul_leastDouble {k : ℕ} {e : ℤ} (hk : e + 1074 = k) :
    (2 : ℚ) ^ k * leastDouble = 2 ^ e := by
  rw [leastDouble, ← zpow_natCast, ← zpow_add₀ two_ne_zero]
  congr 1
  omega

/-- The double nearest to a multiple of the least one. -/
def nearestMultiple (n : ℤ) : Extended :=
  if 0 ≤ n then clamped (rounded n.natAbs * leastDouble)
  else -clamped (rounded n.natAbs * leastDouble)

theorem nearestMultiple_natCast (n : ℕ) :
    nearestMultiple n = clamped (rounded n * leastDouble) := by
  rw [nearestMultiple, if_pos (Int.natCast_nonneg n), Int.natAbs_natCast]

theorem nearestMultiple_zero : nearestMultiple 0 = .finite 0 := by
  have hzero : rounded 0 * leastDouble = 0 := by
    rw [rounded_of_lt (by decide), Nat.cast_zero, zero_mul]
  have h := nearestMultiple_natCast 0
  rw [hzero, clamped, if_pos (by positivity)] at h
  exact h

/-- Rounding is the same on both sides of zero. -/
theorem nearestMultiple_neg (n : ℤ) : nearestMultiple (-n) = -nearestMultiple n := by
  rcases lt_trichotomy n 0 with h | rfl | h
  · rw [nearestMultiple, nearestMultiple, if_pos (by omega), if_neg (by omega), Int.natAbs_neg,
      Extended.neg_neg]
  · rw [neg_zero, nearestMultiple_zero]
    rfl
  · rw [nearestMultiple, nearestMultiple, if_neg (by omega), if_pos (by omega), Int.natAbs_neg]

theorem nearestMultiple_mono {m n : ℤ} (h : m ≤ n) : nearestMultiple m ≤ nearestMultiple n := by
  have hleast := leastDouble_pos
  have hscale {a b : ℕ} (hab : a ≤ b) :
      clamped (rounded a * leastDouble) ≤ clamped (rounded b * leastDouble) := by
    refine clamped_mono ?_
    have := rounded_mono hab
    gcongr
  have hnonneg (a : ℕ) : .finite 0 ≤ clamped (rounded a * leastDouble) := by
    refine finite_le_clamped ?_
    have := rounded_nonneg a
    positivity
  unfold nearestMultiple
  split_ifs with hm hn hn
  · exact hscale (by omega)
  · omega
  · exact Extended.le_trans (Extended.neg_le_neg (hnonneg _)) (by simpa using hnonneg _)
  · exact Extended.neg_le_neg (hscale (by omega))

/-- A mantissa with an exponent is rounded as the multiple of the least double that it is. -/
theorem exact_round_multiple {m k : ℕ} {e : ℤ} (hm : 0 < m) (hk : e + 1074 = k) :
    Scalar.exact (Float.ofModel (.pack (UnpackedFloat.round Format.binary64 .positive m e))) =
      nearestMultiple (m * 2 ^ k) := by
  have hcast : (m : ℤ) * 2 ^ k = (m * 2 ^ k : ℕ) := by push_cast; rfl
  rw [exact_round hm (by omega), hcast, nearestMultiple_natCast, rounded_mul_two_pow, mul_assoc,
    two_pow_mul_leastDouble hk]

theorem exact_normalize (n : ℤ) {k : ℕ} {e : ℤ} (hk : e + 1074 = k) :
    Scalar.exact (Float.ofModel (.pack (UnpackedFloat.normalize Format.binary64 n e .positive))) =
      nearestMultiple (n * 2 ^ k) := by
  rw [UnpackedFloat.normalize]
  rcases lt_trichotomy n 0 with h | rfl | h
  · obtain ⟨m, rfl⟩ : ∃ m : ℕ, n = -m := ⟨n.natAbs, by omega⟩
    have hm : 0 < m := by omega
    rw [compare_lt_iff_lt.mpr h]
    dsimp only
    rw [neg_neg, Int.toNat_natCast, round_negative, exact_pack_neg, exact_round_multiple hm hk,
      neg_mul, nearestMultiple_neg]
  · rw [zero_mul, nearestMultiple_zero, compare_eq_iff_eq.mpr rfl]
    exact (Parts.zero .positive).exact_pack
  · obtain ⟨m, rfl⟩ := Int.eq_ofNat_of_zero_le h.le
    have hm : 0 < m := by omega
    rw [compare_gt_iff_gt.mpr h]
    exact exact_round_multiple hm hk

/-- A finite double that is taken apart, as a multiple of the least one. -/
inductive Multiple : UnpackedFloat → ℤ → Prop
  | zero (s : Sign) : Multiple (.zero s) 0
  | finite (s : Sign) {m k : ℕ} {e : ℤ} (hm : 0 < m) (h : Canonical m e) (hk : e + 1074 = k) :
      Multiple (.finite s m e hm) (s.apply m * 2 ^ k)

theorem Canonical.exists_shift {m : ℕ} {e : ℤ} (h : Canonical m e) : ∃ k : ℕ, e + 1074 = k := by
  have hleast := h.least
  exact ⟨(e + 1074).toNat, by omega⟩

theorem exists_multiple {x : Float} {q : ℚ} (h : Scalar.exact x = .finite q) :
    ∃ n, Multiple x.toModel.unpack n ∧ q = n * leastDouble := by
  have hx := parts x
  rw [h] at hx
  generalize x.toModel.unpack = u at hx
  cases hx with
  | zero s => exact ⟨0, .zero s, by simp⟩
  | positive hm hcanonical =>
    obtain ⟨k, hk⟩ := hcanonical.exists_shift
    refine ⟨_, .finite .positive hm hcanonical hk, ?_⟩
    rw [Sign.apply, ← two_pow_mul_leastDouble hk, ← mul_assoc]
    push_cast
    rfl
  | negative hm hcanonical =>
    obtain ⟨k, hk⟩ := hcanonical.exists_shift
    refine ⟨_, .finite .negative hm hcanonical hk, ?_⟩
    rw [Sign.apply, ← two_pow_mul_leastDouble hk, ← mul_assoc, ← neg_mul, ← neg_mul]
    push_cast
    rfl

/-- A canonical number is the double nearest to itself. -/
theorem exact_pack_canonical (s : Sign) {m k : ℕ} {e : ℤ} (hm : 0 < m) (h : Canonical m e)
    (hk : e + 1074 = k) : Scalar.exact (Float.ofModel (.pack (.finite s m e hm))) =
      nearestMultiple (s.apply m * 2 ^ k) := by
  have hpositive : Scalar.exact (Float.ofModel (.pack (.finite .positive m e hm))) =
      nearestMultiple (m * 2 ^ k) := by
    have hcast : (m : ℤ) * 2 ^ k = (m * 2 ^ k : ℕ) := by push_cast; rfl
    rw [(Parts.positive hm h).exact_pack, hcast, nearestMultiple_natCast, rounded_mul_two_pow,
      rounded_of_lt h.below, mul_assoc, two_pow_mul_leastDouble hk, clamped, if_pos h.lt_limit]
  cases s with
  | positive => exact hpositive
  | negative =>
    rw [Sign.apply, neg_mul, nearestMultiple_neg, ← hpositive, ← exact_pack_neg]
    rfl

theorem apply_shiftLeft (s : Sign) (m : ℕ) {a j k : ℕ} (h : a + j = k) :
    s.apply (m <<< a : ℕ) * 2 ^ j = s.apply m * 2 ^ k := by
  have hshift : ((m <<< a : ℕ) : ℤ) * 2 ^ j = m * 2 ^ k := by
    rw [Nat.shiftLeft_eq, ← h, pow_add, ← mul_assoc]
    push_cast
    rfl
  cases s <;> simp only [Sign.apply, neg_mul, hshift]

/-- The difference of multiples of the least double is rounded. -/
theorem Multiple.exact_sub {u v : UnpackedFloat} {m n : ℤ} (hu : Multiple u m) (hv : Multiple v n) :
    Scalar.exact (Float.ofModel (.pack (UnpackedFloat.sub Format.binary64 u v))) =
      nearestMultiple (m - n) := by
  cases hu with
  | zero s =>
    cases hv with
    | zero s' =>
      rw [sub_zero, nearestMultiple_zero]
      cases s <;> cases s' <;> exact (Parts.zero _).exact_pack
    | finite s' hm' h' hk' =>
      rw [zero_sub, nearestMultiple_neg, ← exact_pack_canonical s' hm' h' hk', ← exact_pack_neg]
      rfl
  | @finite s i k e hm h hk =>
    cases hv with
    | zero s' =>
      rw [sub_zero]
      exact exact_pack_canonical s hm h hk
    | @finite s' i' k' e' hm' h' hk' =>
      -- Both mantissas are brought to the smaller exponent.
      have hmin : min e e' + 1074 = (min k k' : ℕ) := by omega
      have hleft : (e - min e e').toNat + min k k' = k := by omega
      have hright : (e' - min e e').toNat + min k k' = k' := by omega
      refine (exact_normalize _ hmin).trans ?_
      rw [sub_mul, apply_shiftLeft s i hleft, apply_shiftLeft s' i' hright]

/-- Subtraction keeps the order of the exact differences. -/
theorem exact_sub_mono {x y z w : Float} {p q r s : ℚ} (hx : Scalar.exact x = .finite p)
    (hy : Scalar.exact y = .finite q) (hz : Scalar.exact z = .finite r)
    (hw : Scalar.exact w = .finite s) (h : p - q ≤ r - s) :
    Scalar.exact (x - y) ≤ Scalar.exact (z - w) := by
  obtain ⟨i, hi, rfl⟩ := exists_multiple hx
  obtain ⟨j, hj, rfl⟩ := exists_multiple hy
  obtain ⟨k, hk, rfl⟩ := exists_multiple hz
  obtain ⟨l, hl, rfl⟩ := exists_multiple hw
  rw [← sub_mul, ← sub_mul, mul_le_mul_iff_of_pos_right leastDouble_pos] at h
  have hle : i - j ≤ k - l := by exact_mod_cast h
  have hxy : Scalar.exact (x - y) = nearestMultiple (i - j) := hi.exact_sub hj
  have hzw : Scalar.exact (z - w) = nearestMultiple (k - l) := hk.exact_sub hl
  rw [hxy, hzw]
  exact nearestMultiple_mono hle

/-! ### Order and absolute value -/

theorem lt_iff (x y : Float) : x < y ↔ Scalar.exact x < Scalar.exact y := by
  show (x.toModel < y.toModel : Bool) = true ↔ _
  rw [decide_eq_true_iff]
  show (x.toModel.unpack.lt y.toModel.unpack) = true ↔ _
  have hx := parts x
  have hy := parts y
  generalize x.toModel.unpack = u at hx
  generalize y.toModel.unpack = v at hy
  rcases hp : Scalar.exact x with _ | _ | p | _ <;>
    rcases hq : Scalar.exact y with _ | _ | q | _ <;>
    rw [hp] at hx <;> rw [hq] at hy
  case finite.finite =>
    rw [Extended.finite_lt_finite, UnpackedFloat.lt, compare_finite hx hy, beq_iff_eq,
      Option.some_inj, compare_lt_iff_lt]
  all_goals cases hx <;> cases hy <;> rfl

/-- The bit of the sign is that of the exact value, apart from the two zeros. -/
theorem Reading.abs_exact (r : Reading) :
    (if r.isNegative then -r.exact else r.exact) = Scalar.abs r.exact := by
  cases r with
  | nan => rfl
  | infinite negative => cases negative <;> rfl
  | finite negative v =>
    have hnonneg : 0 ≤ v.toRat := by
      rw [toRat_eq]
      positivity
    cases negative with
    | false =>
      show Extended.finite v.toRat = Scalar.abs (.finite v.toRat)
      rw [Mesh.abs_finite, abs_of_nonneg hnonneg]
    | true =>
      show -Extended.finite (-v.toRat) = Scalar.abs (.finite (-v.toRat))
      rw [Mesh.abs_finite, abs_neg, abs_of_nonneg hnonneg, Extended.neg_finite, neg_neg]

theorem exact_abs (x : Float) : Scalar.exact (Scalar.abs x) = Scalar.abs (Scalar.exact x) := by
  have habs := (Reading.ofBits x.toBits).abs_exact
  rw [Scalar.abs, apply_ite Scalar.exact, exact_neg]
  exact habs

instance : Differences Float where
  lt_iff := lt_iff
  exact_abs := exact_abs
  exact_sub_mono := exact_sub_mono
  exact_zero := by decide +kernel
  exact_one := by decide +kernel
  tolerance_nonneg := by decide +kernel
  tolerance_lt := by decide +kernel
  spacing_ge := by decide +kernel
  spacing_le := by decide +kernel

end Collocation.Decimal
