import Collocation.Proofs.Decimal.Faithful
import Collocation.Proofs.Mesh.Tolerance

/-! Doubles up to two.  Numbers of at most 53 bits are doubles, and so are their multiples by a
small power of two, so the doubles in question are no further apart than that power. -/

namespace Collocation.Decimal

open Float.Model Float.Model.UnpackedFloat

theorem clamped_of_le {q : ℚ} (h : q ≤ 2 ^ (45 : ℤ)) : clamped q = .finite q :=
  if_pos (h.trans_lt (zpow_lt_zpow_right₀ one_lt_two (by norm_num)))

theorem exact_ofNat_small {n : ℕ} (h : n ≤ 2 ^ 45) :
    Scalar.exact (Scalar.ofNat n : Float) = .finite n := by
  rw [exact_ofNat, rounded_of_lt (h.trans_lt (by norm_num)),
    clamped_of_le (by exact_mod_cast h)]

theorem exists_multiple_grain {n : ℕ} (h : n ≤ 2 ^ 45) :
    ∃ x : Float, Scalar.exact x = .finite (n * grain) := by
  rcases n.eq_zero_or_pos with rfl | hpos
  · exact ⟨0.0, by rw [Nat.cast_zero, zero_mul, Differences.exact_zero]⟩
  · have hvalue : (n : ℚ) * 2 ^ (-44 : ℤ) = n * grain := by norm_num [grain]
    have hsmall : (n : ℚ) * grain ≤ 2 ^ (45 : ℤ) := by
      have hcount : (n : ℚ) ≤ 2 ^ 45 := by exact_mod_cast h
      calc (n : ℚ) * grain ≤ 2 ^ 45 * grain := mul_le_mul_of_nonneg_right hcount grain_pos.le
        _ ≤ 2 ^ (45 : ℤ) := by norm_num [grain]
    refine ⟨.ofModel (.pack (.round Format.binary64 .positive n (-44))), ?_⟩
    rw [exact_round hpos (by norm_num), rounded_of_lt (h.trans_lt (by norm_num)), hvalue,
      clamped_of_le hsmall]

theorem exists_near {x : Float} {q : ℚ} (hlow : .finite (q - grain) ≤ Scalar.exact x)
    (hhigh : Scalar.exact x ≤ .finite (q + grain)) :
    ∃ r, Scalar.exact x = .finite r ∧ |r - q| ≤ grain := by
  obtain ⟨r, hr, hlow, hhigh⟩ := Extended.finite_of_between hlow hhigh
  exact ⟨r, hr, abs_le.mpr ⟨by linarith, by linarith⟩⟩

instance : Grained Float where
  exact_neg := exact_neg
  exact_ofNat := exact_ofNat_small
  exists_multiple := exists_multiple_grain
  exact_scale := by decide +kernel
  absolute := exists_near (by decide +kernel) (by decide +kernel)
  relative := exists_near (by decide +kernel) (by decide +kernel)

/-- In doubles as well equal meshes may have two keys, and equality may hold one way round only. -/
example : Mesh.agrees (⟨[0.0, 0.5, 1.0]⟩ : Mesh Float) ⟨[0.0, 0.5000000001, 1.0]⟩ = true ∧
    Mesh.sameKey (⟨[0.0, 0.5, 1.0]⟩ : Mesh Float) ⟨[0.0, 0.5000000001, 1.0]⟩ = false ∧
    Mesh.agrees (⟨[0.0, 0.5, 1.0]⟩ : Mesh Float) ⟨[0.0, 0.50000501003, 1.0]⟩ = true ∧
    Mesh.agrees (⟨[0.0, 0.50000501003, 1.0]⟩ : Mesh Float) ⟨[0.0, 0.5, 1.0]⟩ = false := by
  decide +kernel

end Collocation.Decimal
