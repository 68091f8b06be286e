import Collocation.Proofs.Decimal.Difference
import Collocation.Proofs.Faithful

/-! Arithmetic of doubles as rounding.  A product or a quotient is a mantissa with an exponent, and
two bits that tell where the exact value lies behind it; these survive the shift to 53 bits, so the
rounded mantissa is on the same side of every whole number as the exact value.  As all doubles of
the exponent in question, and of larger ones, are whole multiples of one power of two, no double
lies between the exact result and the computed one. -/

namespace Collocation.Decimal

open Float.Model Float.Model.UnpackedFloat

/-! ### Sums -/

theorem Multiple.neg {v : UnpackedFloat} {n : ℤ} (h : Multiple v n) : Multiple v.neg (-n) := by
  cases h with
  | zero s => exact .zero _
  | finite s hm hcanonical hk =>
    rw [← neg_mul, ← apply_neg]
    exact .finite _ hm hcanonical hk

theorem Multiple.exact_add {u v : UnpackedFloat} {m n : ℤ} (hu : Multiple u m) (hv : Multiple v n) :
    Scalar.exact (Float.ofModel (.pack (UnpackedFloat.add Format.binary64 u v))) =
      nearestMultiple (m + n) := by
  rw [add_eq_sub_neg, hu.exact_sub hv.neg, sub_neg_eq_add]

theorem nearestMultiple_of_exact {x : Float} {n : ℤ} (h : Multiple x.toModel.unpack n) :
    nearestMultiple n = Scalar.exact x := by
  have hsub := h.exact_sub (.zero .positive)
  rw [sub_zero] at hsub
  rw [← hsub, ← exact_sub_zero x]
  rfl

/-- The double nearest to a multiple of the least one is what the multiple is rounded to. -/
theorem roundsTo_nearestMultiple (n : ℤ) :
    RoundsTo Float (n * leastDouble) (nearestMultiple n) := by
  refine .of_finite (nearestMultiple_mono (le_refl n)) (fun z r hz hle => ?_) fun z r hz hge => ?_
  · obtain ⟨k, hk, rfl⟩ := exists_multiple hz
    rw [mul_le_mul_iff_of_pos_right leastDouble_pos] at hle
    rw [← hz, ← nearestMultiple_of_exact hk]
    exact nearestMultiple_mono (by exact_mod_cast hle)
  · obtain ⟨k, hk, rfl⟩ := exists_multiple hz
    rw [mul_le_mul_iff_of_pos_right leastDouble_pos] at hge
    rw [← hz, ← nearestMultiple_of_exact hk]
    exact nearestMultiple_mono (by exact_mod_cast hge)

theorem roundsTo_add {x y : Float} {p q : ℚ} (hx : Scalar.exact x = .finite p)
    (hy : Scalar.exact y = .finite q) : RoundsTo Float (p + q) (Scalar.exact (x + y)) := by
  obtain ⟨i, hi, rfl⟩ := exists_multiple hx
  obtain ⟨j, hj, rfl⟩ := exists_multiple hy
  have hsum : Scalar.exact (x + y) = nearestMultiple (i + j) := hi.exact_add hj
  rw [hsum, ← add_mul, ← Int.cast_add]
  exact roundsTo_nearestMultiple _

/-- Doubles that differ have a difference: it is at least the least double. -/
theorem sub_pos_of_lt {x y : Float} {p q : ℚ} (hx : Scalar.exact x = .finite p)
    (hy : Scalar.exact y = .finite q) (h : q < p) : .finite 0 < Scalar.exact (x - y) := by
  obtain ⟨i, hi, rfl⟩ := exists_multiple hx
  obtain ⟨j, hj, rfl⟩ := exists_multiple hy
  rw [mul_lt_mul_iff_of_pos_right leastDouble_pos] at h
  have hlt : j < i := by exact_mod_cast h
  have hdifference : Scalar.exact (x - y) = nearestMultiple (i - j) := hi.exact_sub hj
  have hone : Scalar.exact (Float.ofBits 1) = .finite leastDouble := by decide +kernel
  have hle := (roundsTo_nearestMultiple (i - j)).ge (Float.ofBits 1) (by
    rw [hone, Extended.finite_le_finite]
    have hcast : (1 : ℚ) ≤ ((i - j : ℤ) : ℚ) := by exact_mod_cast (by omega : 1 ≤ i - j)
    nlinarith [leastDouble_pos])
  rw [hdifference]
  rw [hone] at hle
  exact Extended.lt_of_lt_of_le ((Extended.finite_lt_finite _ _).mpr leastDouble_pos) hle

/-! ### Mantissas with an exact value behind them -/

/-- The exact value that a mantissa stands for begins with it, and the two bits tell whether there
is anything behind. -/
structure Stands (em : ExtendedMantissa) (x : ℚ) : Prop where
  le : em.mantissa ≤ x
  lt : x < em.mantissa + 1
  exact_iff : em.roundBit = false ∧ em.stickyBit = false ↔ x = em.mantissa

theorem stands_exact (m : ℕ) : Stands (.ofMantissaAndAccuracy m .exact) m :=
  ⟨le_rfl, lt_add_one _, iff_of_true ⟨rfl, rfl⟩ rfl⟩

namespace Stands

variable {em : ExtendedMantissa} {x : ℚ}

theorem shiftRightOne (h : Stands em x) : Stands em.shiftRightOne (x / 2) := by
  obtain ⟨hle, hlt, hexact⟩ := h
  have hdiv : (em.mantissa : ℚ) = 2 * (em.mantissa / 2 : ℕ) + (em.mantissa % 2 : ℕ) := by
    exact_mod_cast (Nat.div_add_mod em.mantissa 2).symm
  rcases Nat.mod_two_eq_zero_or_one em.mantissa with hbit | hbit
  · rw [hbit, Nat.cast_zero, add_zero] at hdiv
    rw [hdiv] at hle hlt hexact
    refine ⟨?_, ?_, ?_⟩ <;> simp only [ExtendedMantissa.shiftRightOne, hbit]
    · linarith
    · linarith
    · rw [div_eq_iff two_ne_zero, mul_comm, ← hexact]
      simp
  · rw [hbit, Nat.cast_one] at hdiv
    rw [hdiv] at hle hlt
    refine ⟨?_, ?_, ?_⟩ <;> simp only [ExtendedMantissa.shiftRightOne, hbit]
    · linarith
    · linarith
    · refine iff_of_false (by simp) fun heq => ?_
      linarith

theorem shiftRight (h : Stands em x) (s : ℕ) :
    Stands (em >>> s : ExtendedMantissa) (x / 2 ^ s) := by
  show Stands (s.repeat ExtendedMantissa.shiftRightOne em) _
  induction s with
  | zero => simpa [Nat.repeat] using h
  | succ s ih =>
    rw [Nat.repeat, pow_succ, ← div_div]
    exact ih.shiftRightOne

/-- The rounded mantissa is the mantissa or the next one, and the mantissa if nothing is behind. -/
theorem rounded_cases (h : Stands em x) : em.roundedMantissa = em.mantissa ∨
    em.mantissa < x ∧ em.roundedMantissa = em.mantissa + 1 := by
  have hlt (hbehind : ¬ (em.roundBit = false ∧ em.stickyBit = false)) : em.mantissa < x :=
    lt_of_le_of_ne h.le (Ne.symm (mt h.exact_iff.mpr hbehind))
  obtain ⟨m, round, sticky⟩ := em
  cases round <;> cases sticky
  · exact .inl rfl
  · exact .inl rfl
  · rcases Nat.mod_two_eq_zero_or_one m with hbit | hbit
    · exact .inl (by show m + m % 2 = m; omega)
    · exact .inr ⟨hlt (by simp), by show m + m % 2 = m + 1; omega⟩
  · exact .inr ⟨hlt (by simp), rfl⟩

theorem le_rounded (h : Stands em x) {k : ℕ} (hk : k ≤ x) : k ≤ em.roundedMantissa := by
  have hlt : k < em.mantissa + 1 := by exact_mod_cast hk.trans_lt h.lt
  rcases h.rounded_cases with heq | ⟨-, heq⟩ <;> omega

theorem rounded_le (h : Stands em x) {k : ℕ} (hk : x ≤ k) : em.roundedMantissa ≤ k := by
  rcases h.rounded_cases with heq | ⟨hlt, heq⟩
  · rw [heq]
    exact_mod_cast h.le.trans hk
  · rw [heq]
    exact_mod_cast hlt.trans_le hk

end Stands

/-! ### Rounding to 53 bits -/

/-- A rounded mantissa of 53 bits, or of fewer at the least exponent, is packed with its exponent.
-/
theorem exact_of_shift {m R : ℕ} {e t : ℤ} {accuracy : Accuracy} {em : ExtendedMantissa}
    (hshift : shiftToTargetExponent Format.binary64 m e accuracy = (em, t))
    (hR : em.roundedMantissa = R) (ht : -1074 ≤ t) (hle : R ≤ 2 ^ 53)
    (hfull : 2 ^ 52 ≤ R ∨ t = -1074) :
    Scalar.exact (Float.ofModel
      (.pack (roundWithAccuracy Format.binary64 .positive m e accuracy))) =
      clamped (R * 2 ^ t) := by
  rcases R.eq_zero_or_pos with rfl | hpos
  · obtain ⟨s, e', hsecond⟩ : ∃ (s : ℕ) (e' : ℤ),
        shiftToTargetExponent Format.binary64 0 t .exact =
          ((ExtendedMantissa.ofMantissaAndAccuracy 0 .exact) >>> s, e') := ⟨_, _, rfl⟩
    have hzero : roundWithAccuracy Format.binary64 .positive m e accuracy = .zero .positive := by
      unfold roundWithAccuracy
      simp only [hshift, hR, hsecond, shiftRight_eq, Nat.zero_div, ↓reduceDIte]
    rw [hzero, Nat.cast_zero, zero_mul, clamped, if_pos (by positivity)]
    exact (Parts.zero .positive).exact_pack
  rcases hle.lt_or_eq with hlt | rfl
  · have hlog : R.log2 ≤ 52 := Nat.lt_succ_iff.mp ((Nat.log2_lt hpos.ne').mpr hlt)
    rcases hlog.lt_or_eq with hsmall | hlog
    · have hbelow := lt_two_pow_of_log2_lt hsmall
      obtain rfl : t = -1074 := hfull.resolve_left (by omega)
      have hsecond := shiftToTargetExponent_kept (m := R) (e := -1074) (by omega)
      have hcanonical : Canonical R (-1074) := ⟨hlt, le_rfl, by omega, .inr rfl⟩
      rw [roundWithAccuracy_eq hshift hR hsecond hpos, clamped, if_pos hcanonical.lt_limit]
      exact (Parts.positive hpos hcanonical).exact_pack
    · have hsecond := shiftToTargetExponent_kept (m := R) (e := t) (by omega)
      rw [roundWithAccuracy_eq hshift hR hsecond hpos]
      exact exact_full hpos hlog ht
  · have hlog : (2 ^ 53 : ℕ).log2 = 52 + 1 := Nat.log2_two_pow
    have hsecond := shiftToTargetExponent_eq (e := t) hlog (by omega)
    rw [shiftRight_eq (2 ^ 53) 1] at hsecond
    have hhalf : 0 < 2 ^ 53 / 2 ^ 1 := by decide
    have hlog : (2 ^ 53 / 2 ^ 1).log2 = 52 := Nat.log2_two_pow (n := 52)
    rw [roundWithAccuracy_eq hshift hR hsecond hhalf]
    refine (exact_full hhalf hlog (by omega)).trans ?_
    rw [Nat.cast_one, zpow_add_one₀ two_ne_zero]
    congr 1
    norm_num
    ring

theorem exists_canonical {z : Float} {r : ℚ} (h : Scalar.exact z = .finite r) :
    ∃ m e, Canonical m e ∧ (r = m * 2 ^ e ∨ r = -(m * 2 ^ e)) := by
  rcases exact_cases z with hz | hz | hz | ⟨m, e, hcanonical, hz⟩
  all_goals rw [h] at hz
  · cases hz
  · cases hz
  · cases hz
  · exact ⟨m, e, hcanonical, hz.imp Extended.finite.inj Extended.finite.inj⟩

/-- A canonical number is whole at a given exponent, or it is below all those of that exponent. -/
theorem Canonical.whole_or_lt {m : ℕ} {e : ℤ} (h : Canonical m e) (t : ℤ) :
    (∃ k : ℕ, (m : ℚ) * 2 ^ e = k * 2 ^ t) ∨ e < t ∧ (m : ℚ) * 2 ^ e < 2 ^ 52 * 2 ^ t := by
  rcases le_or_gt t e with hte | hte
  · exact .inl (exists_scaled hte)
  · refine .inr ⟨hte, ?_⟩
    have hbelow : (m : ℚ) < 2 ^ 53 := by exact_mod_cast h.below
    calc (m : ℚ) * 2 ^ e < 2 ^ 53 * 2 ^ e := by gcongr
      _ = 2 ^ 52 * 2 ^ (e + 1) := by
          rw [zpow_add_one₀ two_ne_zero]
          ring
      _ ≤ 2 ^ 52 * 2 ^ t := by
          gcongr
          · norm_num
          · omega

/-- What is on the same side of all whole numbers, at an exponent at which all larger doubles are
whole, is on the same side of all doubles. -/
theorem roundsTo_clamped {y : ℚ} {R : ℕ} {t : ℤ} (hy : 0 ≤ y) (ht : 2 ^ 52 ≤ y ∨ t ≤ -1074)
    (hle : ∀ k : ℕ, k ≤ y → k ≤ R) (hge : ∀ k : ℕ, y ≤ k → R ≤ k) :
    RoundsTo Float (y * 2 ^ t) (clamped (R * 2 ^ t)) := by
  have hpos : (0 : ℚ) < 2 ^ t := by positivity
  have hlarge {m : ℕ} {e : ℤ} (h : Canonical m e) (het : e < t) : 2 ^ 52 ≤ y := by
    have hleast := h.least
    exact ht.resolve_right (by omega)
  refine .of_finite (clamped_mono le_rfl) (fun z r hz hbound => ?above) fun z r hz hbound => ?below
  case above =>
    obtain ⟨m, e, hcanonical, rfl | rfl⟩ := exists_canonical hz
    · have hle : (R : ℚ) * 2 ^ t ≤ m * 2 ^ e := by
        rcases hcanonical.whole_or_lt t with ⟨k, hk⟩ | ⟨het, hlt⟩
        · rw [hk] at hbound ⊢
          have hRk := hge k (le_of_mul_le_mul_right hbound hpos)
          gcongr
        · have hbelow : (2 : ℚ) ^ 52 * 2 ^ t ≤ y * 2 ^ t := by
            have := hlarge hcanonical het
            gcongr
          exact absurd (hbound.trans_lt hlt) hbelow.not_gt
      rw [clamped, if_pos (hle.trans_lt hcanonical.lt_limit)]
      exact (Extended.finite_le_finite _ _).mpr hle
    · -- Only zero lies below the opposite of a number.
      have hnonneg : (0 : ℚ) ≤ m * 2 ^ e := by positivity
      have hyzero : y ≤ (0 : ℕ) := by
        rw [Nat.cast_zero]
        by_contra hlt
        have := mul_pos (not_le.mp hlt) hpos
        linarith
      obtain rfl : R = 0 := Nat.le_zero.mp (hge 0 hyzero)
      have hV : 0 ≤ y * 2 ^ t := by positivity
      rw [Nat.cast_zero, zero_mul, clamped, if_pos (by positivity), Extended.finite_le_finite]
      exact hV.trans hbound
  case below =>
    obtain ⟨m, e, hcanonical, rfl | rfl⟩ := exists_canonical hz
    · refine finite_le_clamped ?_
      rcases hcanonical.whole_or_lt t with ⟨k, hk⟩ | ⟨het, hlt⟩
      · rw [hk] at hbound ⊢
        have hkR := hle k (le_of_mul_le_mul_right hbound hpos)
        gcongr
      · have hR : 2 ^ 52 ≤ R := hle (2 ^ 52) (by exact_mod_cast hlarge hcanonical het)
        have hR : (2 : ℚ) ^ 52 ≤ R := by exact_mod_cast hR
        exact hlt.le.trans (by gcongr)
    · exact finite_le_clamped ((neg_nonpos.mpr (by positivity)).trans (by positivity))

/-- A mantissa with something behind it is rounded without passing over a double. -/
theorem roundsTo_roundWithAccuracy {m : ℕ} {e : ℤ} {accuracy : Accuracy} {x : ℚ}
    (h : Stands (.ofMantissaAndAccuracy m accuracy) x)
    (he : e ≤ max ((m.log2 : ℤ) + e - 52) (-1074)) :
    RoundsTo Float (x * 2 ^ e) (Scalar.exact (Float.ofModel
      (.pack (roundWithAccuracy Format.binary64 .positive m e accuracy)))) := by
  obtain ⟨t, s, ht, hs⟩ : ∃ (t : ℤ) (s : ℕ), max ((m.log2 : ℤ) + e - 52) (-1074) = t ∧ t = e + s :=
    ⟨_, (max ((m.log2 : ℤ) + e - 52) (-1074) - e).toNat, rfl, by omega⟩
  have hshift : shiftToTargetExponent Format.binary64 m e accuracy =
      ((ExtendedMantissa.ofMantissaAndAccuracy m accuracy) >>> s, t) := by
    have hcount : (t - e).toNat = s := by omega
    rw [shiftToTargetExponent, targetExponent_eq, ht, shiftToExponent, hcount, ← hs]
  have hstands := h.shiftRight s
  have hscale : x / 2 ^ s * 2 ^ t = x * 2 ^ e := by
    rw [hs, zpow_add₀ two_ne_zero, zpow_natCast]
    field_simp
  have hmantissa : (ExtendedMantissa.ofMantissaAndAccuracy m accuracy).mantissa = m := by
    rcases accuracy with _ | (_ | _ | _) <;> rfl
  have hlow : (m : ℚ) ≤ x := hmantissa ▸ h.le
  have hhigh : x < m + 1 := by
    have hlt := h.lt
    rwa [hmantissa] at hlt
  have hpos : (0 : ℚ) < 2 ^ s := by positivity
  have hupper : x / 2 ^ s ≤ (2 ^ 53 : ℕ) := by
    have hbits : m + 1 ≤ 2 ^ 53 * 2 ^ s := by
      rw [← Nat.pow_add]
      exact Nat.lt_log2_self.trans_le (Nat.pow_le_pow_right two_pos (by omega))
    rw [div_le_iff₀ hpos]
    exact hhigh.le.trans (by exact_mod_cast hbits)
  have hlower : (2 : ℚ) ^ 52 ≤ x / 2 ^ s ∨ t = -1074 := by
    rw [or_iff_not_imp_right]
    intro hnot
    have hlog : m.log2 = 52 + s := by omega
    have hne : m ≠ 0 := by
      rintro rfl
      rw [Nat.log2_zero] at hlog
      omega
    have hbits : 2 ^ 52 * 2 ^ s ≤ m := by
      rw [← Nat.pow_add, ← hlog]
      exact Nat.log2_self_le hne
    rw [le_div_iff₀ hpos]
    exact le_trans (by exact_mod_cast hbits) hlow
  have hfull := hlower.imp_left fun hle => hstands.le_rounded (k := 2 ^ 52) (by exact_mod_cast hle)
  rw [exact_of_shift hshift rfl (by omega) (hstands.rounded_le hupper) hfull, ← hscale]
  refine roundsTo_clamped ?_ (hlower.imp_right le_of_eq) (fun _ => hstands.le_rounded)
    fun _ => hstands.rounded_le
  exact div_nonneg ((Nat.cast_nonneg m).trans hlow) hpos.le

/-! ### Products and quotients -/

/-- The number that a sign stands for. -/
def signFactor (s : Sign) : ℚ := s.apply 1

theorem roundsTo_signed {m : ℕ} {e : ℤ} {accuracy : Accuracy} {v : ℚ} (s : Sign)
    (h : RoundsTo Float v (Scalar.exact (Float.ofModel
      (.pack (roundWithAccuracy Format.binary64 .positive m e accuracy))))) :
    RoundsTo Float (signFactor s * v) (Scalar.exact (Float.ofModel
      (.pack (roundWithAccuracy Format.binary64 s m e accuracy)))) := by
  cases s with
  | positive => simpa [signFactor, Sign.apply] using h
  | negative =>
    rw [roundWithAccuracy_negative, exact_pack_neg]
    simpa [signFactor, Sign.apply] using h.neg exact_neg

/-- A finite double that is taken apart is a zero, or a sign with a canonical number. -/
inductive Finite : UnpackedFloat → ℚ → Prop
  | zero (s : Sign) : Finite (.zero s) 0
  | finite (s : Sign) {m : ℕ} {e : ℤ} (hm : 0 < m) (h : Canonical m e) :
      Finite (.finite s m e hm) (signFactor s * (m * 2 ^ e))

theorem finite_of_exact {x : Float} {q : ℚ} (h : Scalar.exact x = .finite q) :
    Finite x.toModel.unpack q := by
  have hx := parts x
  rw [h] at hx
  generalize x.toModel.unpack = u at hx
  cases hx with
  | zero s => exact .zero s
  | positive hm hcanonical =>
    simpa [signFactor, Sign.apply] using Finite.finite .positive hm hcanonical
  | negative hm hcanonical =>
    simpa [signFactor, Sign.apply] using Finite.finite .negative hm hcanonical

theorem signFactor_mul (s s' : Sign) : signFactor (s * s') = signFactor s * signFactor s' := by
  cases s <;> cases s' <;> simp [signFactor, Sign.apply]

theorem signFactor_div (s s' : Sign) : signFactor (s / s') = signFactor s / signFactor s' := by
  have hquotient : s / s' = s * s' := by cases s <;> cases s' <;> rfl
  rw [hquotient, signFactor_mul]
  cases s <;> cases s' <;> simp [signFactor, Sign.apply]

/-- Of two canonical numbers that are not both at the least exponent one has 53 bits, so their
product has as many. -/
theorem product_exponent {m m' : ℕ} {e e' : ℤ} (h : Canonical m e) (h' : Canonical m' e')
    (hm : 0 < m) (hm' : 0 < m') :
    e + e' ≤ max (((m * m').log2 : ℤ) + (e + e') - 52) (-1074) := by
  have hfull (hlarge : 2 ^ 52 ≤ m * m') : 52 ≤ (m * m').log2 :=
    (Nat.le_log2 (Nat.mul_pos hm hm').ne').mpr hlarge
  rcases h.full with hlarge | rfl
  · have := hfull (hlarge.trans (Nat.le_mul_of_pos_right m hm'))
    omega
  rcases h'.full with hlarge | rfl
  · have := hfull (hlarge.trans (Nat.le_mul_of_pos_left m' hm))
    omega
  · omega

theorem roundsTo_pack_zero (s : Sign) :
    RoundsTo Float 0 (Scalar.exact (Float.ofModel (.pack (.zero s)))) := by
  rw [(Parts.zero s).exact_pack]
  exact .refl 0

theorem Finite.roundsTo_mul {u v : UnpackedFloat} {p q : ℚ} (hu : Finite u p) (hv : Finite v q) :
    RoundsTo Float (p * q)
      (Scalar.exact (Float.ofModel (.pack (UnpackedFloat.mul Format.binary64 u v)))) := by
  cases hu with
  | zero s =>
    rw [zero_mul]
    cases hv <;> exact roundsTo_pack_zero _
  | @finite s m e hm h =>
    cases hv with
    | zero s' =>
      rw [mul_zero]
      exact roundsTo_pack_zero _
    | @finite s' m' e' hm' h' =>
      have hproduct : signFactor s * (m * 2 ^ e) * (signFactor s' * (m' * 2 ^ e')) =
          signFactor (s * s') * ((m * m' : ℕ) * 2 ^ (e + e')) := by
        rw [signFactor_mul, zpow_add₀ two_ne_zero]
        push_cast
        ring
      rw [hproduct]
      exact roundsTo_signed _
        (roundsTo_roundWithAccuracy (stands_exact _) (product_exponent h h' hm hm'))

/-- The remainder of a division tells what is behind the quotient. -/
theorem stands_quotient (n : ℕ) {d : ℕ} (hd : 0 < d) :
    Stands (.ofMantissaAndAccuracy (n / d) (accuracyOfFraction (n % d) d)) (n / d : ℚ) := by
  have hdiv : (n : ℚ) = d * (n / d : ℕ) + (n % d : ℕ) := by
    exact_mod_cast (Nat.div_add_mod n d).symm
  have hpos : (0 : ℚ) < d := by exact_mod_cast hd
  have hlt : ((n % d : ℕ) : ℚ) < d := by exact_mod_cast Nat.mod_lt n hd
  have hmantissa : (ExtendedMantissa.ofMantissaAndAccuracy (n / d)
      (accuracyOfFraction (n % d) d)).mantissa = n / d := by
    rcases accuracyOfFraction (n % d) d with _ | (_ | _ | _) <;> rfl
  refine ⟨?_, ?_, ?_⟩ <;> rw [hmantissa]
  · rw [le_div_iff₀ hpos]
    nlinarith [Nat.cast_nonneg (α := ℚ) (n % d)]
  · rw [div_lt_iff₀ hpos]
    nlinarith
  · have hremainder : (n / d : ℚ) = (n / d : ℕ) ↔ n % d = 0 := by
      rw [div_eq_iff hpos.ne', ← Nat.cast_inj (R := ℚ), Nat.cast_zero]
      constructor <;> intro h <;> linarith
    rw [hremainder, accuracyOfFraction]
    split_ifs with hzero
    · exact iff_of_true ⟨rfl, rfl⟩ hzero
    · refine iff_of_false ?_ hzero
      cases compare (2 * (n % d)) d <;> simp [ExtendedMantissa.ofMantissaAndAccuracy]

/-- The mantissa of a quotient has 53 bits, unless its exponent is the least one. -/
theorem quotient_exponent {m m' : ℕ} {e e' t : ℤ} (hm : 0 < m) (hm' : 0 < m')
    (ht : min (e - e')
      (Format.binary64.targetExponent (totalExponent m e - totalExponent m' e')) = t) :
    t ≤ max (((m <<< (e - e' - t).toNat / m').log2 : ℤ) + t - 52) (-1074) := by
  have hbits : (Format.binary64.mantissaBits : ℤ) = 53 := rfl
  have hleast : Format.binary64.minExponent = -1074 := rfl
  rw [Format.targetExponent, totalExponent, totalExponent, hbits, hleast] at ht
  rcases le_or_gt t (-1074) with hsmall | hlarge
  · omega
  have hfull : 2 ^ 52 ≤ m <<< (e - e' - t).toNat / m' := by
    rw [Nat.le_div_iff_mul_le hm', Nat.shiftLeft_eq]
    calc 2 ^ 52 * m' ≤ 2 ^ 52 * 2 ^ (m'.log2 + 1) := by
          have := Nat.lt_log2_self (n := m')
          gcongr
      _ = 2 ^ (52 + (m'.log2 + 1)) := (Nat.pow_add ..).symm
      _ ≤ 2 ^ (m.log2 + (e - e' - t).toNat) := Nat.pow_le_pow_right two_pos (by omega)
      _ = 2 ^ m.log2 * 2 ^ (e - e' - t).toNat := Nat.pow_add ..
      _ ≤ m * 2 ^ (e - e' - t).toNat := by
          have := Nat.log2_self_le hm.ne'
          gcongr
  have hlog := (Nat.le_log2 (by omega : m <<< (e - e' - t).toNat / m' ≠ 0)).mpr hfull
  omega

theorem Finite.roundsTo_div {u v : UnpackedFloat} {p q : ℚ} (hu : Finite u p) (hv : Finite v q)
    (hq : q ≠ 0) : RoundsTo Float (p / q)
      (Scalar.exact (Float.ofModel (.pack (UnpackedFloat.div Format.binary64 u v)))) := by
  cases hv with
  | zero s' => exact absurd rfl hq
  | @finite s' m' e' hm' h' =>
    cases hu with
    | zero s =>
      rw [zero_div]
      exact roundsTo_pack_zero _
    | @finite s m e hm h =>
      obtain ⟨t, ht⟩ : ∃ t, min (e - e')
        (Format.binary64.targetExponent (totalExponent m e - totalExponent m' e')) = t := ⟨_, rfl⟩
      have hcore : divCore Format.binary64 m e m' e' =
          (m <<< (e - e' - t).toNat / m', t,
            accuracyOfFraction (m <<< (e - e' - t).toNat % m') m') := by
        rw [divCore, ht]
      have hquotient : signFactor s * (m * 2 ^ e) / (signFactor s' * (m' * 2 ^ e')) =
          signFactor (s / s') * ((m <<< (e - e' - t).toNat : ℕ) / m' * 2 ^ t) := by
        have hshift : (2 : ℚ) ^ (e - e' - t).toNat = 2 ^ e / 2 ^ e' / 2 ^ t := by
          rw [← zpow_natCast, Int.toNat_of_nonneg (by omega), zpow_sub₀ two_ne_zero,
            zpow_sub₀ two_ne_zero]
        rw [signFactor_div, Nat.shiftLeft_eq]
        push_cast
        rw [hshift]
        field_simp
      have hrounds := roundsTo_roundWithAccuracy (stands_quotient (m <<< (e - e' - t).toNat) hm')
        (quotient_exponent hm hm' ht)
      rw [hquotient, UnpackedFloat.div, hcore]
      exact roundsTo_signed _ hrounds

/-! ### Infinities -/

theorem infinityOfSign_pos {q : ℚ} (hq : 0 < q) : Extended.infinityOfSign q = .posInf := by
  simp [Extended.infinityOfSign, hq, hq.not_gt]

theorem infinityOfSign_neg {q : ℚ} (hq : q < 0) : Extended.infinityOfSign q = .negInf := by
  simp [Extended.infinityOfSign, hq]

section Infinite

variable {u v : UnpackedFloat} {a b : Extended}

theorem Parts.add_infinite (hu : Parts u a) (hv : Parts v b)
    (h : (∀ p, a ≠ .finite p) ∨ ∀ p, b ≠ .finite p) :
    Parts (UnpackedFloat.add Format.binary64 u v) (a + b) := by
  cases hu with
  | nan => exact .nan
  | posInf => cases hv <;> constructor
  | negInf => cases hv <;> constructor
  | _ =>
    have hb := h.resolve_left fun ha => ha _ rfl
    cases hv with
    | nan => exact .nan
    | posInf => exact .posInf
    | negInf => exact .negInf
    | _ => exact absurd rfl (hb _)

theorem Parts.posInf_mul (hv : Parts v b) :
    Parts (UnpackedFloat.mul Format.binary64 (.infinity .positive) v) (.posInf * b) := by
  cases hv with
  | nan => exact .nan
  | posInf =>
    rw [show Extended.posInf * .posInf = .posInf from infinityOfSign_pos (q := 1 * 1) (by norm_num)]
    exact .posInf
  | negInf =>
    rw [show Extended.posInf * .negInf = .negInf from
      infinityOfSign_neg (q := 1 * -1) (by norm_num)]
    exact .negInf
  | zero s =>
    rw [Extended.posInf_mul_finite]
    exact .nan
  | positive hm h =>
    rw [Extended.posInf_mul_finite, infinityOfSign_pos (by positivity)]
    exact .posInf
  | negative hm h =>
    rw [Extended.posInf_mul_finite, infinityOfSign_neg (neg_neg_of_pos (by positivity))]
    exact .negInf

theorem Parts.negInf_mul (hv : Parts v b) :
    Parts (UnpackedFloat.mul Format.binary64 (.infinity .negative) v) (.negInf * b) := by
  cases hv with
  | nan => exact .nan
  | posInf =>
    rw [show Extended.negInf * .posInf = .negInf from
      infinityOfSign_neg (q := -1 * 1) (by norm_num)]
    exact .negInf
  | negInf =>
    rw [show Extended.negInf * .negInf = .posInf from
      infinityOfSign_pos (q := -1 * -1) (by norm_num)]
    exact .posInf
  | zero s =>
    rw [Extended.negInf_mul_finite, neg_zero]
    exact .nan
  | positive hm h =>
    rw [Extended.negInf_mul_finite, infinityOfSign_neg (neg_neg_of_pos (by positivity))]
    exact .negInf
  | negative hm h =>
    rw [Extended.negInf_mul_finite, neg_neg, infinityOfSign_pos (by positivity)]
    exact .posInf

theorem Parts.mul_infinite (hu : Parts u a) (hv : Parts v b) (ha : ∀ p, a ≠ .finite p) :
    Parts (UnpackedFloat.mul Format.binary64 u v) (a * b) := by
  cases hu with
  | nan => exact .nan
  | posInf => exact hv.posInf_mul
  | negInf => exact hv.negInf_mul
  | _ => exact absurd rfl (ha _)

/-- Zeros have a sign, which tells the infinity that a quotient by one is; all other quotients of
infinities are as on the extended line. -/
theorem Parts.div_infinite (hu : Parts u a) (hv : Parts v b) (ha : ∀ p, a ≠ .finite p)
    (hb : b ≠ .finite 0) : Parts (UnpackedFloat.div Format.binary64 u v) (a / b) := by
  have hpos {m : ℕ} {e : ℤ} (hm : 0 < m) : (0 : ℚ) < m * 2 ^ e := by positivity
  cases hv with
  | nan => cases hu <;> exact .nan
  | zero => exact absurd rfl hb
  | posInf =>
    cases hu with
    | nan => exact .nan
    | posInf => exact .nan
    | negInf => exact .nan
    | _ => exact absurd rfl (ha _)
  | negInf =>
    cases hu with
    | nan => exact .nan
    | posInf => exact .nan
    | negInf => exact .nan
    | _ => exact absurd rfl (ha _)
  | @positive m e hm h =>
    cases hu with
    | nan => exact .nan
    | posInf =>
      rw [show Extended.posInf / .finite (m * 2 ^ e) = .posInf from
        infinityOfSign_pos (by simp [Extended.sign, (hpos hm).not_gt])]
      exact .posInf
    | negInf =>
      rw [show Extended.negInf / .finite (m * 2 ^ e) = .negInf from
        infinityOfSign_neg (by simp [Extended.sign, (hpos hm).not_gt])]
      exact .negInf
    | _ => exact absurd rfl (ha _)
  | @negative m e hm h =>
    cases hu with
    | nan => exact .nan
    | posInf =>
      rw [show Extended.posInf / .finite (-(m * 2 ^ e)) = .negInf from
        infinityOfSign_neg (by simp [Extended.sign, hpos hm])]
      exact .negInf
    | negInf =>
      rw [show Extended.negInf / .finite (-(m * 2 ^ e)) = .posInf from
        infinityOfSign_pos (by simp [Extended.sign, hpos hm])]
      exact .posInf
    | _ => exact absurd rfl (ha _)

end Infinite

theorem mul_comm_unpacked (u v : UnpackedFloat) :
    UnpackedFloat.mul Format.binary64 u v = UnpackedFloat.mul Format.binary64 v u := by
  have hsign (s s' : Sign) : s * s' = s' * s := by cases s <;> cases s' <;> rfl
  rcases u with s | _ | s | ⟨s, m, e, hm⟩ <;> rcases v with s' | _ | s' | ⟨s', m', e', hm'⟩ <;>
    first
      | rfl
      | simp only [UnpackedFloat.mul, hsign, Nat.mul_comm, Int.add_comm]

instance : Faithful Float where
  exact_half := by decide +kernel
  sub_pos := sub_pos_of_lt
  add := roundsTo_add
  mul hx hy := (finite_of_exact hx).roundsTo_mul (finite_of_exact hy)
  div hx hy hq := (finite_of_exact hx).roundsTo_div (finite_of_exact hy) hq
  add_infinite {x y} h := ((parts x).add_infinite (parts y) h).exact_pack
  mul_infinite {x y} hx := ((parts x).mul_infinite (parts y) hx).exact_pack
  mul_comm x y := congrArg (fun u => Scalar.exact (Float.ofModel (.pack u))) (mul_comm_unpacked _ _)
  div_infinite {x y} hx hy := ((parts x).div_infinite (parts y) hx hy).exact_pack

end Collocation.Decimal
