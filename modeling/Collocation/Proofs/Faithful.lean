import Collocation.Proofs.Mesh.Spacing

/-! Scalars with faithful operations.  No scalar lies between the exact result of an operation on
two numbers and the result that is computed, so whatever the exact result is compared with, the
computed one is on the same side of it.  In particular only operations on infinities, and the
quotient of two zeros, make something that is not a number. -/

namespace Collocation

/-- A number is rounded to a value: no scalar lies between the two. -/
structure RoundsTo (α : Type) [Scalar α] (v : ℚ) (e : Extended) : Prop where
  le (z : α) (h : .finite v ≤ Scalar.exact z) : e ≤ Scalar.exact z
  ge (z : α) (h : Scalar.exact z ≤ .finite v) : Scalar.exact z ≤ e

/-- Scalars whose operations round the exact result for two numbers, and follow the conventions for
infinities.  Different numbers have a difference. -/
class Faithful (α : Type) [Scalar α] : Prop extends Differences α where
  exact_half : Scalar.exact (0.5 : α) = .finite (1 / 2)
  sub_pos {x y : α} {p q : ℚ} (hx : Scalar.exact x = .finite p) (hy : Scalar.exact y = .finite q)
    (h : q < p) : .finite 0 < Scalar.exact (x - y)
  add {x y : α} {p q : ℚ} (hx : Scalar.exact x = .finite p) (hy : Scalar.exact y = .finite q) :
    RoundsTo α (p + q) (Scalar.exact (x + y))
  mul {x y : α} {p q : ℚ} (hx : Scalar.exact x = .finite p) (hy : Scalar.exact y = .finite q) :
    RoundsTo α (p * q) (Scalar.exact (x * y))
  div {x y : α} {p q : ℚ} (hx : Scalar.exact x = .finite p) (hy : Scalar.exact y = .finite q)
    (hq : q ≠ 0) : RoundsTo α (p / q) (Scalar.exact (x / y))
  add_infinite {x y : α}
    (h : (∀ p, Scalar.exact x ≠ .finite p) ∨ ∀ p, Scalar.exact y ≠ .finite p) :
    Scalar.exact (x + y) = Scalar.exact x + Scalar.exact y
  mul_infinite {x y : α} (hx : ∀ p, Scalar.exact x ≠ .finite p) :
    Scalar.exact (x * y) = Scalar.exact x * Scalar.exact y
  mul_comm (x y : α) : Scalar.exact (x * y) = Scalar.exact (y * x)
  div_infinite {x y : α} (hx : ∀ p, Scalar.exact x ≠ .finite p) (hy : Scalar.exact y ≠ .finite 0) :
    Scalar.exact (x / y) = Scalar.exact x / Scalar.exact y

namespace RoundsTo

variable {α : Type} [Scalar α] {v : ℚ} {e : Extended}

/-- Without rounding nothing lies between. -/
theorem refl (v : ℚ) : RoundsTo α v (.finite v) := ⟨fun _ h => h, fun _ h => h⟩

theorem ne_nan [Differences α] (h : RoundsTo α v e) : e ≠ .nan := by
  rintro rfl
  have hzero := Differences.exact_zero (α := α)
  rcases le_total v 0 with hv | hv
  · have hle := h.le 0.0 (by rwa [hzero, Extended.finite_le_finite])
    exact Extended.not_nan_le _ hle
  · have hge := h.ge 0.0 (by rwa [hzero, Extended.finite_le_finite])
    exact Extended.not_le_nan _ hge

/-- Only finite scalars can lie between a number and a value. -/
theorem of_finite (hself : e ≤ e)
    (hle : ∀ (z : α) r, Scalar.exact z = .finite r → v ≤ r → e ≤ .finite r)
    (hge : ∀ (z : α) r, Scalar.exact z = .finite r → r ≤ v → .finite r ≤ e) :
    RoundsTo α v e := by
  constructor
  · intro z hz
    cases hexact : Scalar.exact z with
    | finite r => exact hle z r hexact ((Extended.finite_le_finite _ _).mp (hexact ▸ hz))
    | posInf => exact Extended.le_infinity hself
    | nan => exact absurd (hexact ▸ hz) (Extended.not_le_nan _)
    | negInf => exact absurd (hexact ▸ hz) (by exact Bool.false_ne_true)
  · intro z hz
    cases hexact : Scalar.exact z with
    | finite r => exact hge z r hexact ((Extended.finite_le_finite _ _).mp (hexact ▸ hz))
    | negInf => exact Extended.negInf_le hself
    | nan => exact absurd (hexact ▸ hz) (Extended.not_nan_le _)
    | posInf => exact absurd (hexact ▸ hz) (by exact Bool.false_ne_true)

/-- A difference is rounded like the result of any other operation. -/
theorem sub [Differences α] {x y : α} {p q : ℚ} (hx : Scalar.exact x = .finite p)
    (hy : Scalar.exact y = .finite q) : RoundsTo α (p - q) (Scalar.exact (x - y)) := by
  refine of_finite (Differences.exact_sub_mono hx hy hx hy le_rfl) (fun z r hz hle => ?_)
    fun z r hz hge => ?_
  · rw [← hz, ← Rounding.sub_zero z]
    exact Differences.exact_sub_mono hx hy hz Differences.exact_zero (by linarith)
  · rw [← hz, ← Rounding.sub_zero z]
    exact Differences.exact_sub_mono hz Differences.exact_zero hx hy (by linarith)

/-- Rounding is the same on both sides of zero if scalars have opposites. -/
theorem neg (hneg : ∀ x : α, Scalar.exact (-x) = -Scalar.exact x) (h : RoundsTo α v e) :
    RoundsTo α (-v) (-e) := by
  constructor
  · intro z hz
    rw [← Extended.neg_le_neg_iff, ← hneg, Extended.neg_neg]
    exact h.ge (-z) (by
      rw [hneg]
      simpa using Extended.neg_le_neg hz)
  · intro z hz
    rw [← Extended.neg_le_neg_iff, ← hneg, Extended.neg_neg]
    exact h.le (-z) (by
      rw [hneg]
      simpa using Extended.neg_le_neg hz)

/-- What lies between two scalars is rounded to a number between them. -/
theorem between (h : RoundsTo α v e) {x y : α} {p q : ℚ} (hx : Scalar.exact x = .finite p)
    (hy : Scalar.exact y = .finite q) (hp : p ≤ v) (hq : v ≤ q) :
    ∃ r, e = .finite r ∧ p ≤ r ∧ r ≤ q := by
  have hge := h.ge x (by rwa [hx, Extended.finite_le_finite])
  have hle := h.le y (by rwa [hy, Extended.finite_le_finite])
  rw [hx] at hge
  rw [hy] at hle
  exact Extended.finite_of_between hge hle

/-- A scalar is rounded to itself. -/
theorem eq_of_scalar {x : α} (hx : Scalar.exact x = .finite v) (h : RoundsTo α v e) :
    e = .finite v := by
  obtain ⟨r, rfl, hle, hge⟩ := h.between hx hx le_rfl le_rfl
  rw [le_antisymm hge hle]

end RoundsTo

namespace Extended

theorem finite_or_not (x : Extended) : (∃ p, x = finite p) ∨ ∀ p, x ≠ finite p := by
  cases x with
  | finite p => exact .inl ⟨p, rfl⟩
  | _ => exact .inr nofun

theorem infinityOfSign_ne_nan {q : ℚ} (hq : q ≠ 0) : infinityOfSign q ≠ nan := by
  rcases lt_or_gt_of_ne hq with h | h
  · simp [infinityOfSign, h]
  · simp [infinityOfSign, h, h.not_gt]

theorem add_finite_ne_nan {x : Extended} (hx : x ≠ nan) (q : ℚ) : x + finite q ≠ nan := by
  cases x with
  | nan => exact absurd rfl hx
  | _ => exact nofun

theorem mul_finite_ne_nan {x : Extended} (hx : x ≠ nan) {q : ℚ} (hq : q ≠ 0) :
    x * finite q ≠ nan := by
  cases x with
  | nan => exact absurd rfl hx
  | negInf =>
    rw [negInf_mul_finite]
    exact infinityOfSign_ne_nan (neg_ne_zero.mpr hq)
  | finite p => exact nofun
  | posInf =>
    rw [posInf_mul_finite]
    exact infinityOfSign_ne_nan hq

/-- Nothing but a number can be taken zero times. -/
theorem mul_finite_zero {x : Extended} (hx : ∀ p, x ≠ finite p) : x * finite 0 = nan := by
  cases x with
  | nan => rfl
  | negInf => simp [negInf_mul_finite, infinityOfSign]
  | finite p => exact absurd rfl (hx p)
  | posInf => simp [posInf_mul_finite, infinityOfSign]

theorem add_nan (x : Extended) : x + nan = nan := by
  cases x <;> rfl

protected theorem mul_comm (x y : Extended) : x * y = y * x := by
  cases x <;> cases y <;> first
    | rfl
    | exact congrArg finite (mul_comm _ _)
    | exact congrArg infinityOfSign (mul_comm _ _)

theorem div_finite_ne_nan {x : Extended} (hx : x ≠ nan) {q : ℚ} (hq : q ≠ 0) :
    x / finite q ≠ nan := by
  have hsign : (if q < 0 then -1 else 1 : ℚ) ≠ 0 := by split_ifs <;> norm_num
  cases x with
  | nan => exact absurd rfl hx
  | finite p =>
    rw [finite_div hq]
    exact nofun
  | negInf => exact infinityOfSign_ne_nan (mul_ne_zero (by simp [sign]) hsign)
  | posInf => exact infinityOfSign_ne_nan (mul_ne_zero (by simp [sign]) hsign)

end Extended

instance : Faithful Extended where
  exact_half := Extended.half_eq
  sub_pos hx hy h := by
    obtain rfl := hx
    obtain rfl := hy
    show _ < Extended.finite _ - .finite _
    rw [Extended.finite_sub, Extended.finite_lt_finite, ← sub_eq_add_neg]
    exact sub_pos.mpr h
  add hx hy := by
    obtain rfl := hx
    obtain rfl := hy
    exact .refl _
  mul hx hy := by
    obtain rfl := hx
    obtain rfl := hy
    exact .refl _
  div {x y p q} hx hy hq := by
    obtain rfl := hx
    obtain rfl := hy
    have hquotient : Extended.finite p / .finite q = .finite (p / q) := Extended.finite_div hq
    show RoundsTo Extended _ (Extended.finite p / .finite q)
    rw [hquotient]
    exact .refl _
  add_infinite _ := rfl
  mul_infinite _ := rfl
  mul_comm := Extended.mul_comm
  div_infinite _ _ := rfl

namespace Faithful

variable {α : Type} [Scalar α] [Faithful α] {x y : α} {p q : ℚ}

section

variable (hx : Scalar.exact x ≠ .nan) (hy : Scalar.exact y = .finite q)
include hx hy

theorem add_ne_nan : Scalar.exact (x + y) ≠ .nan := by
  rcases (Scalar.exact x).finite_or_not with ⟨p, hp⟩ | hinfinite
  · exact (add hp hy).ne_nan
  · rw [add_infinite (.inl hinfinite), hy]
    exact Extended.add_finite_ne_nan hx q

theorem mul_ne_nan (hq : q ≠ 0) : Scalar.exact (x * y) ≠ .nan := by
  rcases (Scalar.exact x).finite_or_not with ⟨p, hp⟩ | hinfinite
  · exact (mul hp hy).ne_nan
  · rw [mul_infinite hinfinite, hy]
    exact Extended.mul_finite_ne_nan hx hq

theorem div_ne_nan (hq : q ≠ 0) : Scalar.exact (x / y) ≠ .nan := by
  rcases (Scalar.exact x).finite_or_not with ⟨p, hp⟩ | hinfinite
  · exact (div hp hy hq).ne_nan
  · rw [div_infinite hinfinite (hy ▸ mt Extended.finite.inj hq), hy]
    exact Extended.div_finite_ne_nan hx hq

end

theorem half_mul_ne_nan (hx : Scalar.exact x ≠ .nan) : Scalar.exact (0.5 * x) ≠ .nan := by
  rw [mul_comm]
  exact mul_ne_nan hx exact_half (by norm_num)

/-- From a number that is not negative there is a positive and finite distance to a larger one. -/
theorem exists_distance (hx : Scalar.exact x = .finite p) (hy : Scalar.exact y = .finite q)
    (hp : 0 ≤ p) (h : p < q) : ∃ d, Scalar.exact (y - x) = .finite d ∧ 0 < d := by
  have hpos := sub_pos hy hx h
  have hle := Differences.exact_sub_mono hy hx hy Differences.exact_zero (show q - p ≤ q - 0 by
    linarith)
  rw [Rounding.sub_zero, hy] at hle
  obtain ⟨d, hd, -⟩ := Extended.finite_of_between (Extended.le_of_lt hpos) hle
  rw [hd] at hpos
  exact ⟨d, hd, (Extended.finite_lt_finite _ _).mp hpos⟩

/-- A part of something is a fraction of it between zero and one. -/
theorem exists_fraction (hx : Scalar.exact x = .finite p) (hy : Scalar.exact y = .finite q)
    (hp : 0 ≤ p) (hpq : p ≤ q) (hq : 0 < q) :
    ∃ r, Scalar.exact (x / y) = .finite r ∧ 0 ≤ r ∧ r ≤ 1 :=
  (div hx hy hq.ne').between Differences.exact_zero Differences.exact_one (div_nonneg hp hq.le)
    (div_le_one_of_le₀ hpq hq.le)

end Faithful

end Collocation
