import Collocation.Decimal.Double
import Collocation.Proofs.Extended
import Mathlib

/-! Doubles by their parts.  The bits of a double are a sign, a mantissa and an exponent; its exact
value, its order and its opposite are those of the parts, and parts that are canonical are packed
into bits without loss. -/

namespace Collocation.Decimal

open Float.Model Float.Model.UnpackedFloat

/-- The exact value of a double that is taken apart. -/
def unpackedExact : UnpackedFloat → Extended
  | .notANumber => .nan
  | .infinity .positive => .posInf
  | .infinity .negative => .negInf
  | .zero _ => .finite 0
  | .finite s m e _ => .finite (s.apply m * 2 ^ e)

theorem toRat_eq (b : Binary) : b.toRat = b.m * (2 : ℚ) ^ b.q := by
  unfold Binary.toRat
  split_ifs with h
  · obtain ⟨k, hk⟩ := Int.eq_ofNat_of_zero_le h
    rw [hk]
    simp [twos]
  · obtain ⟨k, hk⟩ := Int.eq_ofNat_of_zero_le (show 0 ≤ -b.q by omega)
    have hq : b.q = -(k : ℤ) := by omega
    rw [hq, neg_neg, Rat.mkRat_eq_div, zpow_neg, zpow_natCast, div_eq_mul_inv]
    simp [twos]

/-! ### The fields of the bits -/

theorem toNat_unpackMantissa (b : BitVec 64) :
    (@unpackMantissa Format.binary64 b).toNat = b.toNat % 2 ^ 52 := by
  simp [unpackMantissa_def]

theorem toNat_unpackExponent (b : BitVec 64) :
    (@unpackExponent Format.binary64 b).toNat = b.toNat / 2 ^ 52 % 2 ^ 11 := by
  simp [unpackExponent_def, Nat.shiftRight_eq_div_pow]

theorem toNat_unpackSign (b : BitVec 64) :
    (@unpackSign Format.binary64 b).toNat = b.toNat / 2 ^ 63 := by
  have := b.isLt
  simp [unpackSign_def, Nat.shiftRight_eq_div_pow]
  omega

/-- The first bit of a mantissa is not stored. -/
theorem append_implicit (m : BitVec 52) : (1#1 ++ m).toNat = 2 ^ 52 + m.toNat := by
  rw [BitVec.toNat_append, ← Nat.shiftLeft_add_eq_or_of_lt m.isLt]
  rfl

def signOf (negative : Bool) : Sign := if negative then .negative else .positive

/-- The sign of a double is its first bit. -/
theorem ofBitVec_unpackSign (b : BitVec 64) :
    Sign.ofBitVec (@unpackSign Format.binary64 b) = signOf (b.toNat / 2 ^ 63 == 1) := by
  have hs := toNat_unpackSign b
  have hlt := b.isLt
  have hsign : @unpackSign Format.binary64 b = 0#1 ↔ b.toNat / 2 ^ 63 = 0 := by
    rw [← BitVec.toNat_inj, hs]
    rfl
  unfold Sign.ofBitVec signOf
  rw [if_congr hsign rfl rfl, if_congr beq_iff_eq rfl rfl]
  split_ifs <;> first | rfl | omega

theorem exact_infinite (negative : Bool) :
    (Reading.infinite negative).exact = unpackedExact (.infinity (signOf negative)) := by
  cases negative <;> rfl

theorem exact_finite (negative : Bool) (v : Binary) :
    (Reading.finite negative v).exact = .finite ((signOf negative).apply v.m * 2 ^ v.q) := by
  cases negative <;> simp [Reading.exact, toRat_eq, signOf, Sign.apply]

/-- The bits of a double are read as the parts that the arithmetic works on. -/
theorem exact_eq (x : Float) : Scalar.exact x = unpackedExact x.toModel.unpack := by
  let b : BitVec 64 := x.toModel.toBits.toBitVec
  have hm := toNat_unpackMantissa b
  have he := toNat_unpackExponent b
  have hfraction : @unpackMantissa Format.binary64 b = 0#52 ↔ b.toNat % 2 ^ 52 = 0 := by
    rw [← BitVec.toNat_inj, hm]
    rfl
  have hlargest : @unpackExponent Format.binary64 b = -1#11 ↔
      b.toNat / 2 ^ 52 % 2 ^ 11 = 2047 := by
    rw [← BitVec.toNat_inj, he]
    rfl
  have hleast : @unpackExponent Format.binary64 b = 0#11 ↔
      b.toNat / 2 ^ 52 % 2 ^ 11 = 0 := by
    rw [← BitVec.toNat_inj, he]
    rfl
  have hbias : (Format.binary64.exponentBias : ℤ) = 1023 := rfl
  have hn : x.toBits.toNat = b.toNat := rfl
  show (Reading.ofBits x.toBits).exact = unpackedExact (UnpackedFloat.unpack Format.binary64 b)
  unfold Reading.ofBits UnpackedFloat.unpack
  simp only [hn, twos, Nat.pow_eq, beq_iff_eq, hlargest, hleast, hfraction, ofBitVec_unpackSign,
    hbias]
  split_ifs with hmax hzero hmin hzero
  · exact exact_infinite _
  · rfl
  · rw [exact_finite, hzero]
    simp [unpackedExact, Sign.apply]
    cases signOf _ <;> rfl
  · rw [exact_finite, unpackedExact, hm, he, hmin]
    rfl
  · rw [exact_finite, unpackedExact, append_implicit, hm, he]
    congr 2

/-! ### Canonical parts -/

/-- A mantissa of at most 53 bits that fills them unless the exponent is the least one. -/
structure Canonical (m : ℕ) (e : ℤ) : Prop where
  below : m < 2 ^ 53
  least : -1074 ≤ e
  most : e ≤ 971
  full : 2 ^ 52 ≤ m ∨ e = -1074

theorem unpack_canonical {x : Float} {s : Sign} {m : ℕ} {e : ℤ} {hpos : 0 < m}
    (h : x.toModel.unpack = .finite s m e hpos) : Canonical m e := by
  let b : BitVec 64 := x.toModel.toBits.toBitVec
  have hm := toNat_unpackMantissa b
  have hbias : (Format.binary64.exponentBias : ℤ) = 1023 := rfl
  have hleast : @unpackExponent Format.binary64 b ≠ 0#11 →
      (@unpackExponent Format.binary64 b).toNat ≠ 0 := by
    intro hne h0
    exact hne (BitVec.toNat_inj.mp h0)
  have hlargest : @unpackExponent Format.binary64 b ≠ -1#11 →
      (@unpackExponent Format.binary64 b).toNat < 2047 := by
    intro hne
    have hlt : (@unpackExponent Format.binary64 b).toNat < 2 ^ 11 := BitVec.isLt _
    have : (@unpackExponent Format.binary64 b).toNat ≠ 2047 :=
      fun h => hne (BitVec.toNat_inj.mp h)
    omega
  change UnpackedFloat.unpack Format.binary64 b = _ at h
  unfold UnpackedFloat.unpack at h
  simp only [hbias] at h
  split_ifs at h with hmax hzero hmin hzero
  · obtain ⟨-, rfl, rfl⟩ := UnpackedFloat.finite.inj h
    rw [hm]
    have hlt := Nat.mod_lt b.toNat (Nat.two_pow_pos 52)
    have hzero : (@unpackExponent Format.binary64 b).toNat = 0 :=
      congrArg BitVec.toNat hmin
    exact ⟨by omega, by omega, by omega, .inr (by omega)⟩
  · obtain ⟨-, rfl, rfl⟩ := UnpackedFloat.finite.inj h
    rw [append_implicit, hm]
    have hlt := Nat.mod_lt b.toNat (Nat.two_pow_pos 52)
    have hpos := hleast hmin
    have hmost := hlargest hmax
    exact ⟨by omega, by omega, by omega, .inl (by omega)⟩

namespace Canonical

variable {m m' : ℕ} {e e' : ℤ}

theorem lt_limit (h : Canonical m e) : (m : ℚ) * 2 ^ e < 2 ^ (1024 : ℤ) := by
  have hbelow : (m : ℚ) < 2 ^ (53 : ℤ) := by exact_mod_cast h.below
  have hmost := h.most
  calc (m : ℚ) * 2 ^ e < 2 ^ (53 : ℤ) * 2 ^ e := by gcongr
    _ = 2 ^ (53 + e) := (zpow_add₀ two_ne_zero 53 e).symm
    _ ≤ 2 ^ (1024 : ℤ) := zpow_le_zpow_right₀ (by norm_num) (by omega)

/-- Of canonical numbers that with the larger exponent is the larger one. -/
theorem lt_of_exponent_lt (h : Canonical m e) (h' : Canonical m' e') (he : e < e') :
    (m : ℚ) * 2 ^ e < m' * 2 ^ e' := by
  have hfull : 2 ^ 52 ≤ m' := h'.full.resolve_right (by have := h.least; omega)
  calc (m : ℚ) * 2 ^ e < 2 ^ 53 * 2 ^ e := by
        have : (m : ℚ) < 2 ^ 53 := by exact_mod_cast h.below
        gcongr
    _ = 2 ^ 52 * 2 ^ (e + 1) := by
        rw [zpow_add₀ two_ne_zero]
        ring
    _ ≤ m' * 2 ^ e' := by
        have : (2 : ℚ) ^ 52 ≤ m' := by exact_mod_cast hfull
        gcongr
        · norm_num
        · omega

/-- Canonical numbers compare by their exponents first. -/
theorem compare_eq (h : Canonical m e) (h' : Canonical m' e') :
    (compare e e').then (compare m m') = compare ((m : ℚ) * 2 ^ e) (m' * 2 ^ e') := by
  have hscale (a b : ℕ) : (a : ℚ) * 2 ^ e < b * 2 ^ e ↔ a < b := by
    rw [mul_lt_mul_iff_of_pos_right (by positivity), Nat.cast_lt]
  rcases lt_trichotomy e e' with he | rfl | he
  · rw [compare_lt_iff_lt.mpr he, compare_lt_iff_lt.mpr (h.lt_of_exponent_lt h' he)]
    rfl
  · rw [compare_eq_iff_eq.mpr rfl, Ordering.eq_then]
    rcases lt_trichotomy m m' with hm | rfl | hm
    · rw [compare_lt_iff_lt.mpr hm, compare_lt_iff_lt.mpr ((hscale m m').mpr hm)]
    · rw [compare_eq_iff_eq.mpr rfl, compare_eq_iff_eq.mpr rfl]
    · rw [compare_gt_iff_gt.mpr hm, compare_gt_iff_gt.mpr ((hscale m' m).mpr hm)]
  · rw [compare_gt_iff_gt.mpr he, compare_gt_iff_gt.mpr (h'.lt_of_exponent_lt h he)]
    rfl

end Canonical

/-- What a double is when it is taken apart. -/
inductive Parts : UnpackedFloat → Extended → Prop
  | nan : Parts .notANumber .nan
  | posInf : Parts (.infinity .positive) .posInf
  | negInf : Parts (.infinity .negative) .negInf
  | zero (s : Sign) : Parts (.zero s) (.finite 0)
  | positive {m : ℕ} {e : ℤ} (hm : 0 < m) (h : Canonical m e) :
      Parts (.finite .positive m e hm) (.finite (m * 2 ^ e))
  | negative {m : ℕ} {e : ℤ} (hm : 0 < m) (h : Canonical m e) :
      Parts (.finite .negative m e hm) (.finite (-(m * 2 ^ e)))

theorem parts (x : Float) : Parts x.toModel.unpack (Scalar.exact x) := by
  rw [exact_eq]
  rcases h : x.toModel.unpack with (_ | _) | _ | s | ⟨(_ | _), m, e, hm⟩
  · exact .negInf
  · exact .posInf
  · exact .nan
  · exact .zero s
  · rw [unpackedExact, Sign.apply, Int.cast_neg, Int.cast_natCast, neg_mul]
    exact .negative hm (unpack_canonical h)
  · exact .positive hm (unpack_canonical h)

/-- A double is special, or it is a canonical number or the opposite of one. -/
theorem exact_cases (x : Float) :
    Scalar.exact x = .nan ∨ Scalar.exact x = .posInf ∨ Scalar.exact x = .negInf ∨
      ∃ m e, Canonical m e ∧
        (Scalar.exact x = .finite (m * 2 ^ e) ∨ Scalar.exact x = .finite (-(m * 2 ^ e))) := by
  have hx := parts x
  generalize x.toModel.unpack = u at hx
  generalize Scalar.exact x = v at hx
  cases hx with
  | nan => exact .inl rfl
  | posInf => exact .inr (.inl rfl)
  | negInf => exact .inr (.inr (.inl rfl))
  | zero s =>
    have hzero : Canonical 0 (-1074) := ⟨by decide, by decide, by decide, .inr rfl⟩
    exact .inr (.inr (.inr ⟨0, -1074, hzero, .inl (by simp)⟩))
  | positive hm h => exact .inr (.inr (.inr ⟨_, _, h, .inl rfl⟩))
  | negative hm h => exact .inr (.inr (.inr ⟨_, _, h, .inr rfl⟩))

/-! ### Order -/

theorem compare_neg_neg (p q : ℚ) : compare (-p) (-q) = (compare p q).swap := by
  rcases lt_trichotomy p q with h | rfl | h
  · rw [compare_lt_iff_lt.mpr h, compare_gt_iff_gt.mpr (neg_lt_neg h)]
    rfl
  · rw [compare_eq_iff_eq.mpr rfl, compare_eq_iff_eq.mpr rfl]
    rfl
  · rw [compare_gt_iff_gt.mpr h, compare_lt_iff_lt.mpr (neg_lt_neg h)]
    rfl

theorem compare_finite {x y : UnpackedFloat} {p q : ℚ} (hx : Parts x (.finite p))
    (hy : Parts y (.finite q)) : x.compare y = some (compare p q) := by
  have hpos {m : ℕ} {e : ℤ} (hm : 0 < m) : (0 : ℚ) < m * 2 ^ e := by positivity
  cases hx with
  | zero s =>
    cases hy with
    | zero s' => rfl
    | positive hm h => exact congrArg some (compare_lt_iff_lt.mpr (hpos hm)).symm
    | negative hm h => exact congrArg some (compare_gt_iff_gt.mpr (neg_lt_zero.mpr (hpos hm))).symm
  | positive hm h =>
    cases hy with
    | zero s' => exact congrArg some (compare_gt_iff_gt.mpr (hpos hm)).symm
    | positive hm' h' => exact congrArg some (h.compare_eq h')
    | negative hm' h' =>
      exact congrArg some (compare_gt_iff_gt.mpr
        ((neg_lt_zero.mpr (hpos hm')).trans (hpos hm))).symm
  | negative hm h =>
    cases hy with
    | zero s' => exact congrArg some (compare_lt_iff_lt.mpr (neg_lt_zero.mpr (hpos hm))).symm
    | positive hm' h' =>
      exact congrArg some (compare_lt_iff_lt.mpr
        ((neg_lt_zero.mpr (hpos hm)).trans (hpos hm'))).symm
    | negative hm' h' =>
      rw [compare_neg_neg, ← h.compare_eq h']
      rfl

/-- Doubles compare by their exact values. -/
theorem le_iff (x y : Float) : x ≤ y ↔ Scalar.exact x ≤ Scalar.exact y := by
  show (x.toModel ≤ y.toModel : Bool) = true ↔ _
  rw [decide_eq_true_iff]
  show (x.toModel.unpack.le y.toModel.unpack) = true ↔ _
  have hx := parts x
  have hy := parts y
  generalize x.toModel.unpack = u at hx
  generalize y.toModel.unpack = v at hy
  rcases hp : Scalar.exact x with _ | _ | p | _ <;>
    rcases hq : Scalar.exact y with _ | _ | q | _ <;>
    rw [hp] at hx <;> rw [hq] at hy
  case finite.finite =>
    rw [Extended.finite_le_finite, UnpackedFloat.le, compare_finite hx hy]
    exact Ordering.isLE_iff_ne_gt.trans compare_le_iff_le
  all_goals cases hx <;> cases hy <;> rfl

/-! ### Packing -/

/-- A canonical number is packed without loss. -/
theorem unpack_pack_finite {s : Sign} {m : ℕ} {e : ℤ} (hm : 0 < m) (h : Canonical m e) :
    (Float.Model.pack (.finite s m e hm)).unpack = .finite s m e hm := by
  obtain ⟨hbelow, hleast, hmost, hfull⟩ := h
  have hbias : (Format.binary64.exponentBias : ℤ) = 1023 := rfl
  obtain ⟨k, hk⟩ := Int.eq_ofNat_of_zero_le (show 0 ≤ e + 1075 by omega)
  have hbiased : (e + 1023 + (52 : ℕ)).toNat = k := by omega
  have hexponent : (BitVec.ofNat 11 k).toNat = k := by
    rw [BitVec.toNat_ofNat, Nat.mod_eq_of_lt (by omega)]
  have hmax : BitVec.ofNat 11 k ≠ -1#11 := by
    intro h
    have hk : (BitVec.ofNat 11 k).toNat = 2047 := congrArg BitVec.toNat h
    omega
  have hmin : BitVec.ofNat 11 k ≠ 0#11 := by
    intro h
    have hk : (BitVec.ofNat 11 k).toNat = 0 := congrArg BitVec.toNat h
    omega
  have hbits : Format.binary64.mantissaBits = 53 := rfl
  show UnpackedFloat.unpack Format.binary64 (UnpackedFloat.pack Format.binary64 _) = _
  unfold UnpackedFloat.pack
  simp only [hbias, hbiased, hbits]
  rw [if_neg (by omega)]
  by_cases hnormal : 2 ^ 52 ≤ m
  · have hlog : m.log2 = 52 := (Nat.log2_eq_iff hm.ne').mpr ⟨hnormal, hbelow⟩
    have hmantissa : (1#1 ++ BitVec.ofNat 52 m).toNat = m := by
      rw [append_implicit, BitVec.toNat_ofNat]
      omega
    rw [if_pos (by omega)]
    unfold UnpackedFloat.unpack
    simp only [unpackExponent_packComponents, unpackMantissa_packComponents, if_neg hmax,
      if_neg hmin, unpackSign_packComponents, Sign.ofBitVec_toBitVec, hexponent, hmantissa, hbias]
    congr 1
    omega
  · have hlog : m.log2 < 52 := (Nat.log2_lt hm.ne').mpr (not_le.mp hnormal)
    have hmantissa : (BitVec.ofNat 52 m).toNat = m := by
      rw [BitVec.toNat_ofNat]
      omega
    have hne : BitVec.ofNat 52 m ≠ 0#52 := by
      intro h
      have hm0 : (BitVec.ofNat 52 m).toNat = 0 := congrArg BitVec.toNat h
      omega
    rw [if_neg (by omega)]
    unfold UnpackedFloat.unpack
    simp only [unpackExponent_packComponents, unpackMantissa_packComponents,
      unpackSign_packComponents, Sign.ofBitVec_toBitVec, hmantissa, hbias, dif_neg hne]
    have he : e = -1074 := hfull.resolve_left hnormal
    subst he
    rfl

theorem unpack_pack_large {s : Sign} {m : ℕ} {e : ℤ} (hm : 0 < m) (he : 972 ≤ e) :
    (Float.Model.pack (.finite s m e hm)).unpack = .infinity s := by
  have hbias : (Format.binary64.exponentBias : ℤ) = 1023 := rfl
  show UnpackedFloat.unpack Format.binary64 (UnpackedFloat.pack Format.binary64 _) = _
  unfold UnpackedFloat.pack
  simp only [hbias]
  rw [if_pos (by omega)]
  unfold UnpackedFloat.unpack packedInfinity
  simp only [unpackExponent_packComponents, unpackMantissa_packComponents,
    unpackSign_packComponents, Sign.ofBitVec_toBitVec]
  rfl

theorem Parts.unpack_pack {u : UnpackedFloat} {v : Extended} (h : Parts u v) :
    (Float.Model.pack u).unpack = u := by
  cases h with
  | positive hm h => exact unpack_pack_finite hm h
  | negative hm h => exact unpack_pack_finite hm h
  | zero s => cases s <;> rfl
  | _ => rfl

/-- A double that is put together from its parts has their value. -/
theorem Parts.exact_pack {u : UnpackedFloat} {v : Extended} (h : Parts u v) :
    Scalar.exact (Float.ofModel (.pack u)) = v := by
  rw [exact_eq, h.unpack_pack]
  cases h with
  | positive hm h => rfl
  | negative hm h => simp [unpackedExact, Sign.apply]
  | _ => rfl

theorem exact_neg (x : Float) : Scalar.exact (-x) = -Scalar.exact x := by
  have hneg : Parts x.toModel.unpack.neg (-Scalar.exact x) := by
    have hx := parts x
    generalize x.toModel.unpack = u at hx ⊢
    generalize Scalar.exact x = v at hx ⊢
    cases hx with
    | nan => exact .nan
    | posInf => exact .negInf
    | negInf => exact .posInf
    | zero s =>
      rw [Extended.neg_finite, neg_zero]
      exact .zero _
    | positive hm h => exact .negative hm h
    | negative hm h =>
      rw [Extended.neg_finite, neg_neg]
      exact .positive hm h
  exact hneg.exact_pack

theorem apply_neg (s : Sign) (n : ℤ) : (-s).apply n = -s.apply n := by
  cases s
  · exact (neg_neg n).symm
  · rfl

theorem add_eq_sub_neg (u v : UnpackedFloat) :
    UnpackedFloat.add Format.binary64 u v = UnpackedFloat.sub Format.binary64 u v.neg := by
  rcases u with (_ | _) | _ | (_ | _) | ⟨s, m, e, hm⟩ <;>
    rcases v with (_ | _) | _ | (_ | _) | ⟨s', m', e', hm'⟩
  case finite.finite =>
    simp only [UnpackedFloat.add, UnpackedFloat.neg, UnpackedFloat.sub, apply_neg, sub_neg_eq_add]
  all_goals first
    | rfl
    | cases s' <;> rfl

theorem Parts.sub_zero {u : UnpackedFloat} {v : Extended} (h : Parts u v) (s : Sign) :
    Parts (UnpackedFloat.sub Format.binary64 u (.zero s)) v := by
  cases h with
  | nan => exact .nan
  | posInf => exact .posInf
  | negInf => exact .negInf
  | zero s' => cases s <;> cases s' <;> exact .zero _
  | positive hm h => exact .positive hm h
  | negative hm h => exact .negative hm h

theorem Parts.add_zero {u : UnpackedFloat} {v : Extended} (h : Parts u v) (s : Sign) :
    Parts (UnpackedFloat.add Format.binary64 u (.zero s)) v := by
  rw [add_eq_sub_neg]
  exact h.sub_zero _

theorem exact_sub_zero (x : Float) : Scalar.exact (x - 0.0) = Scalar.exact x := by
  have hzero : (0.0 : Float).toModel.unpack = .zero .positive := rfl
  have hsub := (parts x).sub_zero .positive
  rw [← hzero] at hsub
  exact hsub.exact_pack

theorem exact_add_zero (x : Float) : Scalar.exact (x + 0.0) = Scalar.exact x := by
  have hzero : (0.0 : Float).toModel.unpack = .zero .positive := rfl
  have hadd := (parts x).add_zero .positive
  rw [← hzero] at hadd
  exact hadd.exact_pack

end Collocation.Decimal
