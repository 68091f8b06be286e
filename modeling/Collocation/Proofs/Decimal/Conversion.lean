import Collocation.Proofs.Decimal.Double
import Collocation.Proofs.Rounding

/-! Whole numbers as doubles.  A whole number keeps its 53 leading bits, the last of them rounded to
the nearest and a tie to the even one; what then reaches the limit of the doubles is infinite.  No
double lies between a whole number and the one it is rounded to. -/

namespace Collocation.Decimal

open Float.Model Float.Model.UnpackedFloat

/-! ### Quotients by powers of two -/

/-- The quotient by a power of two, rounded to the nearest and a tie to the even one. -/
def nearestQuotient (n s : ℕ) : ℕ :=
  n / 2 ^ s +
    if 2 ^ s < 2 * (n % 2 ^ s) ∨ 2 ^ s = 2 * (n % 2 ^ s) ∧ n / 2 ^ s % 2 = 1 then 1 else 0

theorem div_le_nearestQuotient (n s : ℕ) : n / 2 ^ s ≤ nearestQuotient n s := Nat.le_add_right _ _

theorem le_nearestQuotient {n s M : ℕ} (h : M * 2 ^ s ≤ n) : M ≤ nearestQuotient n s :=
  ((Nat.le_div_iff_mul_le (Nat.two_pow_pos s)).mpr h).trans (div_le_nearestQuotient n s)

theorem nearestQuotient_le {n s M : ℕ} (h : n ≤ M * 2 ^ s) : nearestQuotient n s ≤ M := by
  have hpos := Nat.two_pow_pos s
  have hdiv := Nat.div_add_mod n (2 ^ s)
  have hle : n / 2 ^ s ≤ M := Nat.div_le_of_le_mul (by rwa [Nat.mul_comm])
  unfold nearestQuotient
  rcases hle.lt_or_eq with hlt | rfl
  · split_ifs <;> omega
  · rw [Nat.mul_comm] at h
    rw [if_neg (by omega)]
    omega

theorem nearestQuotient_mono {n n' : ℕ} (s : ℕ) (h : n ≤ n') :
    nearestQuotient n s ≤ nearestQuotient n' s := by
  have hpos := Nat.two_pow_pos s
  have hdiv := Nat.div_add_mod n (2 ^ s)
  have hdiv' := Nat.div_add_mod n' (2 ^ s)
  unfold nearestQuotient
  rcases (Nat.div_le_div_right (c := 2 ^ s) h).lt_or_eq with hlt | heq
  · split_ifs <;> omega
  · rw [heq] at hdiv ⊢
    split_ifs <;> omega

/-- What is left of a mantissa after a shift: the quotient, and of the remainder whether it reaches
one half and whether it is neither nothing nor one half. -/
theorem shiftRight_eq (n s : ℕ) :
    ((ExtendedMantissa.ofMantissaAndAccuracy n .exact) >>> s : ExtendedMantissa) =
      ⟨n / 2 ^ s, decide (2 ^ s ≤ 2 * (n % 2 ^ s)),
        !decide (2 * (n % 2 ^ s) = 0 ∨ 2 * (n % 2 ^ s) = 2 ^ s)⟩ := by
  show s.repeat ExtendedMantissa.shiftRightOne _ = _
  induction s with
  | zero => simp [Nat.repeat, ExtendedMantissa.ofMantissaAndAccuracy, Nat.mod_one]
  | succ s ih =>
    rw [Nat.repeat, ih, ExtendedMantissa.shiftRightOne]
    have hpos := Nat.two_pow_pos s
    have hmod : n % 2 ^ (s + 1) = n % 2 ^ s + 2 ^ s * (n / 2 ^ s % 2) := by
      rw [Nat.pow_succ, Nat.mod_mul]
    have hlt := Nat.mod_lt n hpos
    have hbit := Nat.mod_two_eq_zero_or_one (n / 2 ^ s)
    have hbits : ∀ {a b : Bool}, (a = true ↔ b = true) → a = b := Bool.eq_iff_iff.mpr
    rw [ExtendedMantissa.mk.injEq, hmod, Nat.pow_succ]
    refine ⟨Nat.div_div_eq_div_mul n (2 ^ s) 2, hbits ?_, hbits ?_⟩ <;>
      simp only [bne_iff_ne, Bool.or_eq_true, Bool.not_eq_true', decide_eq_true_eq,
        decide_eq_false_iff_not] <;>
      rcases hbit with hbit | hbit <;> rw [hbit] <;> omega

theorem roundedMantissa_shiftRight (n s : ℕ) :
    ((ExtendedMantissa.ofMantissaAndAccuracy n .exact) >>> s : ExtendedMantissa).roundedMantissa =
      nearestQuotient n s := by
  have hpos := Nat.two_pow_pos s
  rw [shiftRight_eq, nearestQuotient]
  unfold ExtendedMantissa.roundedMantissa
  have hlt := Nat.mod_lt n hpos
  rcases lt_trichotomy (2 * (n % 2 ^ s)) (2 ^ s) with h | h | h
  · have hround : decide (2 ^ s ≤ 2 * (n % 2 ^ s)) = false := decide_eq_false (by omega)
    rw [hround, if_neg (by omega)]
    cases !decide (2 * (n % 2 ^ s) = 0 ∨ 2 * (n % 2 ^ s) = 2 ^ s) <;> rfl
  · have hround : decide (2 ^ s ≤ 2 * (n % 2 ^ s)) = true := decide_eq_true (by omega)
    have hsticky : decide (2 * (n % 2 ^ s) = 0 ∨ 2 * (n % 2 ^ s) = 2 ^ s) = true :=
      decide_eq_true (by omega)
    rw [hround, hsticky]
    show n / 2 ^ s + n / 2 ^ s % 2 = _
    split_ifs <;> omega
  · have hround : decide (2 ^ s ≤ 2 * (n % 2 ^ s)) = true := decide_eq_true (by omega)
    have hsticky : decide (2 * (n % 2 ^ s) = 0 ∨ 2 * (n % 2 ^ s) = 2 ^ s) = false :=
      decide_eq_false (by omega)
    rw [hround, hsticky, if_pos (by omega)]
    rfl

theorem nearestQuotient_mul_two_pow (n s : ℕ) : nearestQuotient (n * 2 ^ s) s = n :=
  le_antisymm (nearestQuotient_le le_rfl) (le_nearestQuotient le_rfl)

/-! ### Rounding to 53 bits -/

theorem targetExponent_eq (m : ℕ) (e : ℤ) :
    Format.binary64.targetExponent (totalExponent m e) = max (m.log2 + e - 52) (-1074) := by
  have hbits : (Format.binary64.mantissaBits : ℤ) = 53 := rfl
  have hleast : Format.binary64.minExponent = -1074 := rfl
  rw [Format.targetExponent, totalExponent, hbits, hleast]
  congr 1
  omega

/-- A mantissa of more than 53 bits loses the bits at its end. -/
theorem shiftToTargetExponent_eq {m s : ℕ} {e : ℤ} (hlog : m.log2 = 52 + s)
    (hleast : -1074 ≤ e + s) :
    shiftToTargetExponent Format.binary64 m e .exact =
      ((ExtendedMantissa.ofMantissaAndAccuracy m .exact) >>> s, e + s) := by
  have hshift : (max ((m.log2 : ℤ) + e - 52) (-1074) - e).toNat = s := by omega
  rw [shiftToTargetExponent, targetExponent_eq, shiftToExponent, hshift]

/-- The rounded mantissa has 53 bits, or it is the least one of 54. -/
theorem nearestQuotient_bounds {m s : ℕ} (hlog : m.log2 = 52 + s) :
    2 ^ 52 ≤ nearestQuotient m s ∧ nearestQuotient m s ≤ 2 ^ 53 := by
  have hne : m ≠ 0 := by
    rintro rfl
    rw [Nat.log2_zero] at hlog
    omega
  obtain ⟨hlow, hhigh⟩ := (Nat.log2_eq_iff hne).mp hlog
  refine ⟨le_nearestQuotient (by rwa [← Nat.pow_add]), nearestQuotient_le ?_⟩
  rw [← Nat.pow_add]
  have : 52 + s + 1 = 53 + s := by omega
  rw [← this]
  exact hhigh.le

/-- Values beyond the largest double are infinite. -/
def clamped (q : ℚ) : Extended := if q < 2 ^ (1024 : ℤ) then .finite q else .posInf

/-- A mantissa of 53 bits is kept unless the exponent is too large. -/
theorem exact_full {m : ℕ} {e : ℤ} (hm : 0 < m) (hlog : m.log2 = 52) (hleast : -1074 ≤ e) :
    Scalar.exact (Float.ofModel (.pack (.finite .positive m e hm))) = clamped (m * 2 ^ e) := by
  obtain ⟨hfull, hbelow⟩ := (Nat.log2_eq_iff hm.ne').mp hlog
  unfold clamped
  rcases le_or_gt e 971 with he | he
  · have hcanonical : Canonical m e := ⟨hbelow, hleast, he, .inl hfull⟩
    rw [if_pos hcanonical.lt_limit]
    exact (Parts.positive hm hcanonical).exact_pack
  · have hge : ¬ (m : ℚ) * 2 ^ e < 2 ^ (1024 : ℤ) := by
      have hfull : (2 : ℚ) ^ (52 : ℤ) ≤ m := by exact_mod_cast hfull
      rw [not_lt]
      calc (2 : ℚ) ^ (1024 : ℤ) ≤ 2 ^ (52 + e) := zpow_le_zpow_right₀ (by norm_num) (by omega)
        _ = 2 ^ (52 : ℤ) * 2 ^ e := zpow_add₀ two_ne_zero 52 e
        _ ≤ m * 2 ^ e := by gcongr
    rw [if_neg hge, exact_eq]
    show unpackedExact (Float.Model.pack _).unpack = _
    rw [unpack_pack_large hm (by omega)]
    rfl

theorem roundWithAccuracy_eq {s : Sign} {m rounded : ℕ} {e e₁ e₂ : ℤ} {accuracy : Accuracy}
    {x y : ExtendedMantissa}
    (hx : shiftToTargetExponent Format.binary64 m e accuracy = (x, e₁))
    (hrounded : x.roundedMantissa = rounded)
    (hy : shiftToTargetExponent Format.binary64 rounded e₁ .exact = (y, e₂))
    (hpos : 0 < y.mantissa) :
    roundWithAccuracy Format.binary64 s m e accuracy = .finite s y.mantissa e₂ hpos := by
  subst hrounded
  unfold roundWithAccuracy
  simp only [hx, hy]
  exact dif_neg hpos.ne'

/-- A number of at least 53 bits is rounded to its 53 leading ones. -/
theorem exact_roundWithAccuracy {m s : ℕ} {e : ℤ} (hlog : m.log2 = 52 + s)
    (hleast : -1074 ≤ e + s) :
    Scalar.exact (Float.ofModel
      (.pack (roundWithAccuracy Format.binary64 .positive m e .exact))) =
      clamped (nearestQuotient m s * 2 ^ (e + s)) := by
  obtain ⟨hlow, hhigh⟩ := nearestQuotient_bounds hlog
  have hfirst := shiftToTargetExponent_eq hlog hleast
  have hround := roundedMantissa_shiftRight m s
  rcases hhigh.lt_or_eq with hlt | heq
  · have hfull : (nearestQuotient m s).log2 = 52 + 0 :=
      (Nat.log2_eq_iff (by omega)).mpr ⟨hlow, hlt⟩
    have hsecond := shiftToTargetExponent_eq (e := e + s) hfull (by omega)
    have hpos : 0 < nearestQuotient m s := by omega
    rw [roundWithAccuracy_eq hfirst hround hsecond hpos]
    refine (exact_full hpos hfull (by omega)).trans ?_
    rw [Nat.cast_zero, add_zero]
  · -- The leading bits are all ones and carry into a 54th one, so that one more is dropped.
    have hfull : (2 ^ 53 : ℕ).log2 = 52 + 1 := Nat.log2_two_pow
    have hsecond := shiftToTargetExponent_eq (e := e + s) hfull (by omega)
    rw [shiftRight_eq (2 ^ 53) 1] at hsecond
    have hpos : 0 < 2 ^ 53 / 2 ^ 1 := by decide
    rw [roundWithAccuracy_eq hfirst (hround.trans heq) hsecond hpos]
    have hlog : (2 ^ 53 / 2 ^ 1).log2 = 52 := Nat.log2_two_pow (n := 52)
    refine (exact_full hpos hlog (by omega)).trans ?_
    rw [heq, Nat.cast_one, zpow_add_one₀ two_ne_zero]
    congr 1
    norm_num
    ring

/-! ### Whole numbers -/

/-- A whole number rounded to 53 leading bits. -/
def rounded (n : ℕ) : ℚ := nearestQuotient (n * 2 ^ 53) (n.log2 + 1) * 2 ^ ((n.log2 : ℤ) - 52)

theorem log2_mul_two_pow {n : ℕ} (hn : n ≠ 0) (k : ℕ) : (n * 2 ^ k).log2 = n.log2 + k := by
  obtain ⟨hlow, hhigh⟩ := (Nat.log2_eq_iff hn).mp rfl
  refine (Nat.log2_eq_iff (mul_ne_zero hn (Nat.two_pow_pos k).ne')).mpr ⟨?_, ?_⟩
  · rw [Nat.pow_add]
    gcongr
  · rw [Nat.add_right_comm, Nat.pow_add]
    gcongr

theorem two_pow_sub (a b : ℕ) : (2 : ℚ) ^ (a - b) * 2 ^ (-((a - b : ℕ) : ℤ)) = 1 := by
  rw [← zpow_natCast, ← zpow_add₀ two_ne_zero, add_neg_cancel, zpow_zero]

theorem rounded_of_lt {n : ℕ} (hn : n < 2 ^ 53) : rounded n = n := by
  rcases n.eq_zero_or_pos with rfl | hpos
  · rw [rounded, zero_mul, nearestQuotient, Nat.zero_div, Nat.zero_mod]
    simp
  · have hlog : n.log2 ≤ 52 := Nat.lt_succ_iff.mp ((Nat.log2_lt hpos.ne').mpr hn)
    have hsplit : n * 2 ^ 53 = n * 2 ^ (52 - n.log2) * 2 ^ (n.log2 + 1) := by
      rw [mul_assoc, ← Nat.pow_add]
      congr 2
      omega
    have hexponent : (n.log2 : ℤ) - 52 = -((52 - n.log2 : ℕ) : ℤ) := by omega
    rw [rounded, hsplit, nearestQuotient_mul_two_pow, hexponent, Nat.cast_mul, Nat.cast_pow,
      Nat.cast_ofNat, mul_assoc, two_pow_sub 52 n.log2, mul_one]

/-- A mantissa that fits is kept. -/
theorem roundWithAccuracy_full {m : ℕ} {e : ℤ} (hm : 0 < m) (hlog : m.log2 = 52)
    (hleast : -1074 ≤ e) :
    roundWithAccuracy Format.binary64 .positive m e .exact = .finite .positive m e hm := by
  have hshift := shiftToTargetExponent_eq (s := 0) (e := e) hlog (by omega)
  have hround : nearestQuotient m 0 = m := by simpa using nearestQuotient_mul_two_pow m 0
  rw [Nat.cast_zero, add_zero] at hshift
  exact roundWithAccuracy_eq hshift ((roundedMantissa_shiftRight m 0).trans hround) hshift hm

theorem unpack_toFloat {n : ℕ} (hpos : 0 < n) (hlt : n < 2 ^ 53) :
    n.toUInt64.toFloat.toModel.unpack =
      .finite .positive (n * 2 ^ (52 - n.log2)) (-((52 - n.log2 : ℕ) : ℤ))
        (Nat.mul_pos hpos (Nat.two_pow_pos _)) := by
  have hlog : n.log2 ≤ 52 := Nat.lt_succ_iff.mp ((Nat.log2_lt hpos.ne').mpr hlt)
  have hnat : n.toUInt64.toNat = n := Nat.mod_eq_of_lt (by omega)
  have hmantissa : (n * 2 ^ (52 - n.log2)).log2 = 52 := by
    rw [log2_mul_two_pow hpos.ne']
    omega
  have hshift : ((0 : ℤ) - max ((n.log2 : ℤ) + 0 - 52) (-1074)).toNat = 52 - n.log2 := by omega
  have hm : 0 < n * 2 ^ (52 - n.log2) := Nat.mul_pos hpos (Nat.two_pow_pos _)
  have hunpacked : UnpackedFloat.ofUInt64 Format.binary64 n.toUInt64 =
      .finite .positive (n * 2 ^ (52 - n.log2)) (-((52 - n.log2 : ℕ) : ℤ)) hm := by
    rw [UnpackedFloat.ofUInt64, UnpackedFloat.ofNat, UnpackedFloat.ofInt, UnpackedFloat.normalize,
      hnat, compare_gt_iff_gt.mpr (Int.natCast_pos.mpr hpos)]
    show UnpackedFloat.round Format.binary64 .positive n 0 = _
    rw [UnpackedFloat.round, targetExponent_eq, decreaseExponent, hshift, Nat.shiftLeft_eq]
    show roundWithAccuracy Format.binary64 .positive (n * 2 ^ (52 - n.log2))
      (0 - (52 - n.log2 : ℕ)) _ = _
    rw [zero_sub]
    exact roundWithAccuracy_full hm hmantissa (by omega)
  show (Float.Model.pack (UnpackedFloat.ofUInt64 Format.binary64 n.toUInt64)).unpack = _
  rw [hunpacked]
  refine unpack_pack_finite hm ⟨?_, by omega, by omega, .inl ?_⟩
  · exact (Nat.log2_eq_iff hm.ne').mp hmantissa |>.2
  · exact (Nat.log2_eq_iff hm.ne').mp hmantissa |>.1

/-- A whole number of at most 53 bits is a double: it is converted as such and multiplied by one. -/
theorem exact_ofNat_of_lt {n : ℕ} (hpos : 0 < n) (hlt : n < 2 ^ 53) :
    Scalar.exact (Scalar.ofNat n : Float) = clamped n := by
  have hone : (Float.exactlyRepresentablePowersOfTen[0]).toModel.unpack =
      .finite .positive (2 ^ 52) (-52) (by decide) := rfl
  have hlog : n.log2 ≤ 52 := Nat.lt_succ_iff.mp ((Nat.log2_lt hpos.ne').mpr hlt)
  have hne := (Nat.mul_pos hpos (Nat.two_pow_pos (52 - n.log2))).ne'
  have hproduct : (n * 2 ^ (52 - n.log2) * 2 ^ 52).log2 = 52 + 52 := by
    rw [log2_mul_two_pow hne, log2_mul_two_pow hpos.ne']
    omega
  have hexponent : -((52 - n.log2 : ℕ) : ℤ) + -52 + (52 : ℕ) = -((52 - n.log2 : ℕ) : ℤ) := by
    omega
  have hscientific : (Scalar.ofNat n : Float) =
      n.toUInt64.toFloat * Float.exactlyRepresentablePowersOfTen[0] :=
    dif_pos ⟨hlt, by decide⟩
  rw [hscientific]
  show Scalar.exact (Float.ofModel (.pack (UnpackedFloat.mul Format.binary64
    n.toUInt64.toFloat.toModel.unpack _))) = _
  rw [hone, unpack_toFloat hpos hlt]
  refine (exact_roundWithAccuracy hproduct (by omega)).trans ?_
  rw [nearestQuotient_mul_two_pow, hexponent, Nat.cast_mul, Nat.cast_pow, Nat.cast_ofNat,
    mul_assoc, two_pow_sub 52 n.log2, mul_one]

theorem exact_ofNat_of_ge {n : ℕ} (hge : 2 ^ 53 ≤ n) :
    Scalar.exact (Scalar.ofNat n : Float) = clamped (rounded n) := by
  have hpos : 0 < n := (Nat.two_pow_pos 53).trans_le hge
  have hproduct : (n <<< 53 * 10 ^ 0).log2 = 52 + (n.log2 + 1) := by
    rw [Nat.shiftLeft_eq, pow_zero, mul_one, log2_mul_two_pow hpos.ne']
    omega
  have hexponent : (-53 + 0 + (n.log2 + 1 : ℕ) : ℤ) = n.log2 - 52 := by omega
  have hleast : ¬ (0 : ℤ) < -(2 ^ Format.binary64.exponentBits + n.log2) :=
    not_lt.mpr (neg_nonpos.mpr (add_nonneg (pow_nonneg zero_le_two _) (Int.natCast_nonneg _)))
  have hunpacked : UnpackedFloat.ofScientific Format.binary64 n 0 =
      roundWithAccuracy Format.binary64 .positive (n <<< 53 * 10 ^ 0) (-53 + 0) .exact := by
    rw [UnpackedFloat.ofScientific, dif_neg hpos.ne', if_neg (by decide), if_neg hleast,
      if_pos le_rfl]
    rfl
  have hscientific : (Scalar.ofNat n : Float) = Float.ofModel (Float.Model.ofScientific n 0) :=
    dif_neg fun h => hge.not_gt h.1
  rw [hscientific, Float.Model.ofScientific, hunpacked]
  refine (exact_roundWithAccuracy (e := -53 + 0) hproduct (by omega)).trans ?_
  rw [rounded, Nat.shiftLeft_eq, pow_zero, mul_one, hexponent]

theorem exact_ofNat (n : ℕ) : Scalar.exact (Scalar.ofNat n : Float) = clamped (rounded n) := by
  rcases lt_or_ge n (2 ^ 53) with hlt | hge
  · rw [rounded_of_lt hlt]
    rcases n.eq_zero_or_pos with rfl | hpos
    · decide +kernel
    · exact exact_ofNat_of_lt hpos hlt
  · exact exact_ofNat_of_ge hge

/-! ### The order of rounded numbers -/

/-- The last of the 53 leading bits of a whole number stands for this power of two. -/
theorem mul_last_mul (b k : ℕ) :
    (b : ℚ) * 2 ^ ((k : ℤ) - 52) * 2 ^ 53 = (b * 2 ^ (k + 1) : ℕ) := by
  have hexponent : ((k : ℤ) - 52) + (53 : ℕ) = (k + 1 : ℕ) := by omega
  rw [mul_assoc, ← zpow_natCast 2 53, ← zpow_add₀ two_ne_zero, hexponent, zpow_natCast]
  push_cast
  rfl

theorem le_mul_last_iff {a b k : ℕ} :
    (a : ℚ) ≤ b * 2 ^ ((k : ℤ) - 52) ↔ a * 2 ^ 53 ≤ b * 2 ^ (k + 1) := by
  rw [← mul_le_mul_iff_of_pos_right (show (0 : ℚ) < 2 ^ 53 by norm_num), mul_last_mul]
  exact_mod_cast Iff.rfl

theorem mul_last_le_iff {a b k : ℕ} :
    b * (2 : ℚ) ^ ((k : ℤ) - 52) ≤ a ↔ b * 2 ^ (k + 1) ≤ a * 2 ^ 53 := by
  rw [← mul_le_mul_iff_of_pos_right (show (0 : ℚ) < 2 ^ 53 by norm_num), mul_last_mul]
  exact_mod_cast Iff.rfl

theorem rounded_bounds {n : ℕ} (hn : n ≠ 0) :
    (2 : ℚ) ^ (n.log2 : ℤ) ≤ rounded n ∧ rounded n ≤ 2 ^ ((n.log2 : ℤ) + 1) := by
  have hlog : (n * 2 ^ 53).log2 = 52 + (n.log2 + 1) := by
    rw [log2_mul_two_pow hn]
    omega
  obtain ⟨hlow, hhigh⟩ := nearestQuotient_bounds hlog
  have hlow : (2 : ℚ) ^ (52 : ℤ) ≤ nearestQuotient (n * 2 ^ 53) (n.log2 + 1) := by
    exact_mod_cast hlow
  have hhigh : (nearestQuotient (n * 2 ^ 53) (n.log2 + 1) : ℚ) ≤ 2 ^ (53 : ℤ) := by
    exact_mod_cast hhigh
  constructor
  · calc (2 : ℚ) ^ (n.log2 : ℤ) = 2 ^ (52 : ℤ) * 2 ^ ((n.log2 : ℤ) - 52) := by
          rw [← zpow_add₀ two_ne_zero, add_sub_cancel]
      _ ≤ rounded n := by
          unfold rounded
          gcongr
  · calc rounded n ≤ 2 ^ (53 : ℤ) * 2 ^ ((n.log2 : ℤ) - 52) := by
          unfold rounded
          gcongr
      _ = 2 ^ ((n.log2 : ℤ) + 1) := by
          rw [← zpow_add₀ two_ne_zero]
          congr 1
          omega

theorem rounded_nonneg (n : ℕ) : 0 ≤ rounded n := by
  unfold rounded
  positivity

/-- Rounding keeps the order. -/
theorem rounded_mono {n n' : ℕ} (h : n ≤ n') : rounded n ≤ rounded n' := by
  rcases n.eq_zero_or_pos with rfl | hpos
  · rw [rounded_of_lt (by decide), Nat.cast_zero]
    exact rounded_nonneg n'
  have hpos' : n' ≠ 0 := (hpos.trans_le h).ne'
  have hlog : n.log2 ≤ n'.log2 :=
    (Nat.le_log2 hpos').mpr (((Nat.le_log2 hpos.ne').mp le_rfl).trans h)
  rcases hlog.lt_or_eq with hlt | heq
  · calc rounded n ≤ 2 ^ ((n.log2 : ℤ) + 1) := (rounded_bounds hpos.ne').2
      _ ≤ 2 ^ (n'.log2 : ℤ) := zpow_le_zpow_right₀ (by norm_num) (by omega)
      _ ≤ rounded n' := (rounded_bounds hpos').1
  · unfold rounded
    rw [heq]
    gcongr
    exact nearestQuotient_mono _ (Nat.mul_le_mul_right _ h)

theorem exists_scaled {m : ℕ} {e t : ℤ} (h : t ≤ e) : ∃ M : ℕ, (m : ℚ) * 2 ^ e = M * 2 ^ t := by
  refine ⟨m * 2 ^ (e - t).toNat, ?_⟩
  rw [Nat.cast_mul, Nat.cast_pow, Nat.cast_ofNat, mul_assoc, ← zpow_natCast,
    ← zpow_add₀ two_ne_zero, Int.toNat_of_nonneg (by omega), sub_add_cancel]

/-- A number of 53 bits that ends in smaller ones than a rounded number is below it. -/
theorem lt_two_pow_log2 {m n : ℕ} {e : ℤ} (hm : m < 2 ^ 53) (he : e < (n.log2 : ℤ) - 52) :
    (m : ℚ) * 2 ^ e < 2 ^ (n.log2 : ℤ) := by
  have hm : (m : ℚ) < 2 ^ (53 : ℤ) := by exact_mod_cast hm
  calc (m : ℚ) * 2 ^ e < 2 ^ (53 : ℤ) * 2 ^ e := by gcongr
    _ = 2 ^ (53 + e) := (zpow_add₀ two_ne_zero 53 e).symm
    _ ≤ 2 ^ (n.log2 : ℤ) := zpow_le_zpow_right₀ (by norm_num) (by omega)

/-- No number of 53 bits lies between a whole number and what it is rounded to. -/
theorem rounded_le {n m : ℕ} {e : ℤ} (hm : m < 2 ^ 53) (h : (n : ℚ) ≤ m * 2 ^ e) :
    rounded n ≤ m * 2 ^ e := by
  rcases n.eq_zero_or_pos with rfl | hpos
  · rwa [rounded_of_lt (by decide)]
  rcases lt_or_ge e ((n.log2 : ℤ) - 52) with he | he
  · have hlow : (2 : ℚ) ^ (n.log2 : ℤ) ≤ n := by
      exact_mod_cast (Nat.le_log2 hpos.ne').mp le_rfl
    exact absurd (hlow.trans h) (lt_two_pow_log2 hm he).not_ge
  · obtain ⟨M, hM⟩ := exists_scaled (m := m) he
    rw [hM] at h ⊢
    have hquotient := nearestQuotient_le (le_mul_last_iff.mp h)
    unfold rounded
    gcongr

theorem le_rounded {n m : ℕ} {e : ℤ} (hm : m < 2 ^ 53) (h : (m : ℚ) * 2 ^ e ≤ n) :
    m * 2 ^ e ≤ rounded n := by
  rcases n.eq_zero_or_pos with rfl | hpos
  · rwa [rounded_of_lt (by decide)]
  rcases lt_or_ge e ((n.log2 : ℤ) - 52) with he | he
  · exact (lt_two_pow_log2 hm he).le.trans (rounded_bounds hpos.ne').1
  · obtain ⟨M, hM⟩ := exists_scaled (m := m) he
    rw [hM] at h ⊢
    have hquotient := le_nearestQuotient (mul_last_le_iff.mp h)
    unfold rounded
    gcongr

/-! ### Conversion -/

theorem clamped_mono {p q : ℚ} (h : p ≤ q) : clamped p ≤ clamped q := by
  unfold clamped
  split_ifs with hp hq
  · exact (Extended.finite_le_finite p q).mpr h
  · rfl
  · exact absurd (h.trans_lt ‹_›) hp
  · rfl

theorem finite_le_clamped {p q : ℚ} (h : p ≤ q) : .finite p ≤ clamped q := by
  unfold clamped
  split_ifs
  · exact (Extended.finite_le_finite p q).mpr h
  · rfl

theorem clamped_le_posInf (q : ℚ) : clamped q ≤ .posInf := by
  unfold clamped
  split_ifs <;> rfl

theorem ofNat_mono {n n' : ℕ} (h : n ≤ n') :
    Scalar.exact (Scalar.ofNat n : Float) ≤ Scalar.exact (Scalar.ofNat n' : Float) := by
  rw [exact_ofNat, exact_ofNat]
  exact clamped_mono (rounded_mono h)

/-- The double of a whole number is not above a double that the number itself is not above. -/
theorem ofNat_le {x : Float} {n : ℕ} (h : .finite n ≤ Scalar.exact x) :
    Scalar.exact (Scalar.ofNat n : Float) ≤ Scalar.exact x := by
  rw [exact_ofNat]
  rcases exact_cases x with hx | hx | hx | ⟨m, e, hcanonical, hx | hx⟩ <;> rw [hx] at h ⊢
  · exact absurd h Bool.false_ne_true
  · exact clamped_le_posInf _
  · exact absurd h Bool.false_ne_true
  · have hle := rounded_le hcanonical.below ((Extended.finite_le_finite _ _).mp h)
    rw [clamped, if_pos (hle.trans_lt hcanonical.lt_limit)]
    exact (Extended.finite_le_finite _ _).mpr hle
  · have hle := (Extended.finite_le_finite _ _).mp h
    have hpos : (0 : ℚ) ≤ m * 2 ^ e := by positivity
    have hzero : n = 0 := by
      have hnonpos : (n : ℚ) ≤ (0 : ℕ) := by
        rw [Nat.cast_zero]
        exact hle.trans (neg_nonpos.mpr hpos)
      exact Nat.le_zero.mp (Nat.cast_le.mp hnonpos)
    subst hzero
    rw [rounded_of_lt (by decide), clamped, if_pos (by positivity)]
    exact h

theorem le_ofNat {x : Float} {n : ℕ} (h : Scalar.exact x ≤ .finite n) :
    Scalar.exact x ≤ Scalar.exact (Scalar.ofNat n : Float) := by
  rw [exact_ofNat]
  have hnonneg := rounded_nonneg n
  rcases exact_cases x with hx | hx | hx | ⟨m, e, hcanonical, hx | hx⟩ <;> rw [hx] at h ⊢
  · exact absurd h Bool.false_ne_true
  · exact absurd h Bool.false_ne_true
  · unfold clamped
    split_ifs <;> rfl
  · exact finite_le_clamped (le_rounded hcanonical.below ((Extended.finite_le_finite _ _).mp h))
  · exact finite_le_clamped ((neg_nonpos.mpr (by positivity)).trans hnonneg)

theorem ofInt_cases (n : ℤ) :
    (∃ k : ℕ, n = k ∧ (Scalar.ofInt n : Float) = Scalar.ofNat k) ∨
      ∃ k : ℕ, n = -k ∧
        Scalar.exact (Scalar.ofInt n : Float) = -Scalar.exact (Scalar.ofNat k : Float) := by
  cases n with
  | ofNat n => exact .inl ⟨n, rfl, rfl⟩
  | negSucc n => exact .inr ⟨n + 1, Int.negSucc_eq n, exact_neg _⟩

theorem ofInt_le {x : Float} {n : ℤ} (h : .finite n ≤ Scalar.exact x) : Scalar.ofInt n ≤ x := by
  rw [le_iff]
  rcases ofInt_cases n with ⟨k, rfl, hk⟩ | ⟨k, rfl, hk⟩ <;> rw [hk]
  · exact ofNat_le h
  · have hopposite : Scalar.exact (-x) ≤ .finite k := by
      rw [exact_neg]
      simpa using Extended.neg_le_neg h
    rw [← Extended.neg_le_neg_iff, Extended.neg_neg, ← exact_neg]
    exact le_ofNat hopposite

theorem exact_ofInt_neg (n : ℤ) :
    Scalar.exact (Scalar.ofInt (-n) : Float) = -Scalar.exact (Scalar.ofInt n : Float) := by
  rcases n with (_ | k) | k
  · decide +kernel
  · exact exact_neg _
  · have hopposite : Scalar.exact (Scalar.ofInt (.negSucc k) : Float) =
        -Scalar.exact (Scalar.ofNat (k + 1) : Float) := exact_neg _
    rw [hopposite, Extended.neg_neg]
    rfl

/-- The other order is that of the opposites. -/
theorem le_ofInt {x : Float} {n : ℤ} (h : Scalar.exact x ≤ .finite n) : x ≤ Scalar.ofInt n := by
  have hopposite : Scalar.ofInt (-n) ≤ -x := ofInt_le (by
    rw [exact_neg]
    simpa using Extended.neg_le_neg h)
  rwa [le_iff, exact_ofInt_neg, exact_neg, Extended.neg_le_neg_iff, ← le_iff] at hopposite

theorem ofInt_mono {n n' : ℤ} (h : n ≤ n') : (Scalar.ofInt n : Float) ≤ Scalar.ofInt n' := by
  have hzero : Scalar.exact (0.0 : Float) = .finite 0 := by decide +kernel
  rw [le_iff]
  rcases ofInt_cases n with ⟨k, rfl, hk⟩ | ⟨k, rfl, hk⟩ <;>
    rcases ofInt_cases n' with ⟨k', rfl, hk'⟩ | ⟨k', rfl, hk'⟩ <;> rw [hk, hk']
  · exact ofNat_mono (by omega)
  · obtain rfl : k = 0 := by omega
    obtain rfl : k' = 0 := by omega
    decide +kernel
  · -- Zero lies between numbers of different signs.
    have hlower : (Scalar.ofInt (-k) : Float) ≤ 0.0 :=
      ofInt_le (hzero ▸ (Extended.finite_le_finite _ _).mpr (by simp))
    have hupper : (0.0 : Float) ≤ Scalar.ofInt k' :=
      le_ofInt (hzero ▸ (Extended.finite_le_finite _ _).mpr (by simp))
    rw [← hk, ← hk']
    exact Extended.le_trans ((le_iff _ _).mp hlower) ((le_iff _ _).mp hupper)
  · exact Extended.neg_le_neg (ofNat_mono (by omega))

/-! ### Machine arithmetic as rounding -/

instance : Rounding Float where
  le_iff := le_iff
  infinity := by decide +kernel
  negInfinity := by decide +kernel
  sub_zero := exact_sub_zero
  add_zero := exact_add_zero
  ofInt_mono := ofInt_mono
  ofInt_le := ofInt_le
  le_ofInt := le_ofInt

end Collocation.Decimal
