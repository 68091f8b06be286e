import Collocation.Number
import Collocation.Proofs.Extended

/-! Scalars whose order is that of their exact values, as in exact arithmetic and on the machine.
A whole number becomes a scalar by rounding, which never passes over a scalar, so that numbers that
are in order stay in order when they are converted. -/

namespace Collocation

/-- Scalars compare by their exact values, zero changes nothing, and no scalar lies between a whole
number and the scalar that it is rounded to. -/
class Rounding (α : Type) [Scalar α] : Prop where
  le_iff (x y : α) : x ≤ y ↔ Scalar.exact x ≤ Scalar.exact y
  infinity : Scalar.exact (Scalar.infinity : α) = .posInf
  negInfinity : Scalar.exact (-Scalar.infinity : α) = .negInf
  sub_zero (x : α) : Scalar.exact (x - 0.0) = Scalar.exact x
  add_zero (x : α) : Scalar.exact (x + 0.0) = Scalar.exact x
  ofInt_mono {m n : ℤ} (h : m ≤ n) : (Scalar.ofInt m : α) ≤ Scalar.ofInt n
  ofInt_le {n : ℤ} {x : α} (h : .finite n ≤ Scalar.exact x) : Scalar.ofInt n ≤ x
  le_ofInt {n : ℤ} {x : α} (h : Scalar.exact x ≤ .finite n) : x ≤ Scalar.ofInt n

/-- Exact arithmetic needs no rounding. -/
instance : Rounding Extended where
  le_iff _ _ := Iff.rfl
  infinity := rfl
  negInfinity := rfl
  sub_zero x := by
    rw [Extended.zero_eq]
    cases x with
    | finite q => rw [Extended.finite_sub, neg_zero, add_zero]
    | _ => rfl
  add_zero x := by
    rw [Extended.zero_eq]
    cases x with
    | finite q => rw [Extended.finite_add, add_zero]
    | _ => rfl
  ofInt_mono h := by
    rw [Extended.ofInt_finite, Extended.ofInt_finite, Extended.finite_le_finite]
    exact_mod_cast h
  ofInt_le h := by rwa [Extended.ofInt_finite]
  le_ofInt h := by rwa [Extended.ofInt_finite]

namespace Rounding

variable {α : Type} [Scalar α] [Rounding α]

theorem le_self {x : α} {q : ℚ} (hx : Scalar.exact x = .finite q) : x ≤ x := by
  rw [le_iff, hx]
  exact Extended.le_refl nofun

/-- Scalars are equal if their exact values are, apart from what is no number. -/
theorem eq_iff {x y : α} :
    Scalar.eq x y = true ↔ Scalar.exact x = Scalar.exact y ∧ Scalar.exact y ≠ .nan := by
  rw [Scalar.eq, Bool.and_eq_true, decide_eq_true_eq, decide_eq_true_eq, le_iff x y, le_iff y x]
  constructor
  · rintro ⟨hxy, hyx⟩
    exact ⟨Extended.le_antisymm hxy hyx, fun hnan => Extended.not_nan_le _ (hnan ▸ hyx)⟩
  · rintro ⟨heq, hnan⟩
    rw [heq]
    exact ⟨Extended.le_refl hnan, Extended.le_refl hnan⟩

theorem isInfinite_iff {x : α} :
    Scalar.isInfinite x = true ↔ Scalar.exact x = .posInf ∨ Scalar.exact x = .negInf := by
  simp [Scalar.isInfinite, eq_iff, infinity, negInfinity]

theorem isNaN_iff {x : α} : Scalar.isNaN x = true ↔ Scalar.exact x = .nan := by
  rw [Scalar.isNaN, Bool.not_eq_true', decide_eq_false_iff_not, le_iff]
  constructor
  · intro h
    by_contra hx
    exact h (Extended.le_refl hx)
  · intro h
    rw [h]
    exact Extended.not_nan_le _

/-- Finite scalars are those that have a number as their exact value. -/
theorem isFinite_iff {x : α} : Scalar.isFinite x = true ↔ ∃ q, Scalar.exact x = .finite q := by
  rw [Scalar.isFinite, Bool.and_eq_true, Bool.not_eq_true', Bool.not_eq_true', ← Bool.not_eq_true,
    ← Bool.not_eq_true, isNaN_iff, isInfinite_iff, not_or]
  cases Scalar.exact x <;> simp

end Rounding

end Collocation
