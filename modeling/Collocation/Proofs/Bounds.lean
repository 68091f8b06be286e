import Collocation.Bounds.Written
import Collocation.Proofs.Outcome
import Collocation.Proofs.Rounding
import Mathlib.Tactic.Linarith

/-! Bounds that hold a number.  Whatever is accepted as bounds has its sides in order, and neither
side is infinite in the wrong direction.  A variable then starts from a number between them. -/

namespace Collocation

variable {α : Type} [Scalar α]

/-- The number fits into the range of the scalars. -/
def Number.InRange : Number α → Prop
  | .int n => Scalar.isInfinite (Scalar.ofInt n : α) = false
  | .real _ => True

instance (x : Number α) : Decidable x.InRange :=
  match x with
  | .int n => inferInstanceAs (Decidable (Scalar.isInfinite (Scalar.ofInt n : α) = false))
  | .real _ => inferInstanceAs (Decidable True)

theorem Value.exists_scalarOfNumber_iff {x : Number α} :
    (∃ s, scalarOfNumber x = .ok s) ↔ x.InRange := by
  cases x with
  | int n =>
    simp only [scalarOfNumber, scalarOfInt, Scalar.ofInt?, Number.InRange]
    cases Scalar.isInfinite (Scalar.ofInt n : α) <;> simp
  | real x => exact iff_of_true ⟨x, rfl⟩ trivial

namespace Bounds

/-- The sides are in order, and some number lies between them. -/
structure Proper (b : Bounds Extended) : Prop where
  ordered : b.lower ≤ b.upper
  lower : b.lower ≠ .posInf
  upper : b.upper ≠ .negInf

theorem proper_iff {b : Bounds Extended} : b.Proper ↔
    (b.lower ≠ .nan ∧ b.upper ≠ .nan ∧ ¬ b.upper < b.lower) ∧ b.lower ≠ .posInf ∧
      b.upper ≠ .negInf := by
  refine ⟨fun h => ⟨⟨?_, ?_, Extended.not_lt_of_le h.ordered⟩, h.lower, h.upper⟩,
    fun h => ⟨Extended.le_of_not_lt h.1.1 h.1.2.1 h.1.2.2, h.2.1, h.2.2⟩⟩
  · exact fun hnan => Extended.not_nan_le _ (hnan ▸ h.ordered)
  · exact fun hnan => Extended.not_le_nan _ (hnan ▸ h.ordered)

/-- The exact values of both sides. -/
def exact (b : Bounds α) : Bounds Extended := ⟨Scalar.exact b.lower, Scalar.exact b.upper⟩

/-- What lies between two ends; a missing end is infinite. -/
def between (lower upper : Option (Number α)) : Bounds Extended :=
  ⟨lower.elim .negInf Number.exact, upper.elim .posInf Number.exact⟩

theorem fits_eq_ok_iff {x : Number α} : fits x = .ok () ↔ x.InRange := by
  rw [← Value.exists_scalarOfNumber_iff]
  show Functor.map (fun _ => ()) (Value.scalarOfNumber x) = .ok () ↔ _
  simp

theorem checkSide_number_iff {side : Nat} {x : Number α} {context : String} :
    checkSide side (.number x) context = .ok () ↔ x.InRange ∧ x.exact ≠ .nan := by
  show (fits x >>= fun _ => if x.exact = .nan then _ else _) = _ ↔ _
  rw [Except.bind_eq_ok]
  split_ifs with hnan
  · simp [hnan]
  · exact ⟨fun ⟨_, h, _⟩ => ⟨fits_eq_ok_iff.mp h, hnan⟩,
      fun h => ⟨(), fits_eq_ok_iff.mpr h.1, rfl⟩⟩

/-- What is accepted as a side is missing or a number. -/
theorem exists_side {side : Nat} {v : Value α} {context : String}
    (h : checkSide side v context = .ok ()) : ∃ x, v = WrittenBounds.sideValue x := by
  cases v with
  | none => exact ⟨none, rfl⟩
  | number x => exact ⟨some x, rfl⟩
  | _ => cases h

/-- A pair of sides is accepted if some number lies between them. -/
theorem checkPair_eq_ok_iff (lower upper : Option (Number α)) (context : String) :
    checkPair (WrittenBounds.sideValue lower) (WrittenBounds.sideValue upper) context = .ok () ↔
      (∀ x ∈ lower, x.InRange) ∧ (∀ x ∈ upper, x.InRange) ∧ (between lower upper).Proper := by
  have hmissing {side : Nat} : checkSide side (.none : Value α) context = .ok () := rfl
  rw [proper_iff]
  cases lower with
  | none =>
    cases upper with
    | none =>
      have hfree : ¬ Extended.posInf < .negInf := Bool.false_ne_true
      exact iff_of_true rfl (by simp [between, hfree])
    | some u =>
      have hlt : ¬ u.exact < .negInf := by cases u.exact <;> exact Bool.false_ne_true
      simp only [checkPair, WrittenBounds.sideValue, Except.seq_eq_ok, hmissing,
        checkSide_number_iff, Except.guard_eq_ok]
      simp [between, hlt, and_assoc]
  | some l =>
    cases upper with
    | none =>
      have hlt : ¬ .posInf < l.exact := by cases l.exact <;> exact Bool.false_ne_true
      simp only [checkPair, WrittenBounds.sideValue, Except.seq_eq_ok, hmissing,
        checkSide_number_iff, Except.guard_eq_ok]
      simp [between, hlt, and_assoc]
    | some u =>
      simp only [checkPair, WrittenBounds.sideValue, Except.seq_eq_ok, checkSide_number_iff,
        Except.if_throw_eq_ok, Except.guard_eq_ok, Number.lt, Bool.or_eq_true, decide_eq_true_eq]
      simp only [between, Option.elim, Option.mem_some_iff, forall_eq', not_or]
      tauto

theorem exists_sides {lower upper : Value α} {context : String}
    (h : checkPair lower upper context = .ok ()) :
    ∃ l u, lower = WrittenBounds.sideValue l ∧ upper = WrittenBounds.sideValue u := by
  obtain ⟨hlower, h⟩ := Except.seq_eq_ok.mp h
  obtain ⟨hupper, -⟩ := Except.seq_eq_ok.mp h
  obtain ⟨l, rfl⟩ := exists_side hlower
  obtain ⟨u, rfl⟩ := exists_side hupper
  exact ⟨l, u, rfl, rfl⟩

/-- The constructor of bounds accepts those that hold a number, and no others. -/
theorem make_eq_ok_iff {lower upper : α} {b : Bounds α} :
    make lower upper = .ok b ↔ b = ⟨lower, upper⟩ ∧ b.exact.Proper := by
  have hcheck := checkPair_eq_ok_iff (some (.real lower)) (some (.real upper)) "Bounds"
  rw [make, Except.seq_eq_ok, Except.pure_eq_ok]
  constructor
  · rintro ⟨h, rfl⟩
    exact ⟨rfl, (hcheck.mp h).2.2⟩
  · rintro ⟨rfl, h⟩
    exact ⟨hcheck.mpr ⟨by simp [Number.InRange], by simp [Number.InRange], h⟩, rfl⟩

theorem make_proper {lower upper : α} {b : Bounds α} (h : make lower upper = .ok b) :
    b.exact.Proper := (make_eq_ok_iff.mp h).2

theorem make_iff_proper {b : Bounds α} : make b.lower b.upper = .ok b ↔ b.exact.Proper :=
  make_eq_ok_iff.trans (and_iff_right rfl)

instance (b : Bounds Extended) : Decidable b.Proper :=
  decidable_of_iff (b.lower ≤ b.upper ∧ b.lower ≠ .posInf ∧ b.upper ≠ .negInf)
    ⟨fun h => ⟨h.1, h.2.1, h.2.2⟩, fun h => ⟨h.ordered, h.lower, h.upper⟩⟩

section Rounding

variable [Rounding α]

theorem free_proper : (free : Bounds α).exact.Proper := by
  rw [exact, free, Rounding.infinity, Rounding.negInfinity]
  exact ⟨rfl, by decide, by decide⟩

theorem ofValue_proper {v : Value α} {context : String} {b : Bounds α}
    (h : ofValue v context = .ok b) : b.exact.Proper := by
  simp only [ofValue, Except.bind_eq_ok] at h
  obtain ⟨_, _, h⟩ := h
  split at h
  · obtain ⟨s, _, hmake⟩ := Except.bind_eq_ok.mp h
    exact make_proper hmake
  · obtain ⟨l, _, h⟩ := Except.bind_eq_ok.mp h
    obtain ⟨u, _, hmake⟩ := Except.bind_eq_ok.mp h
    exact make_proper hmake
  · obtain rfl := Except.pure_eq_ok.mp h
    exact free_proper

end Rounding

namespace Proper

variable {b : Bounds Extended} (hb : b.Proper)
include hb

theorem lower_cases : b.lower = .negInf ∨ ∃ l, b.lower = .finite l := by
  have hlower := hb.lower
  have hordered := hb.ordered
  cases h : b.lower with
  | nan => exact absurd (h ▸ hordered) (Extended.not_nan_le _)
  | negInf => exact .inl rfl
  | finite l => exact .inr ⟨l, rfl⟩
  | posInf => exact absurd h hlower

theorem upper_cases : b.upper = .posInf ∨ ∃ u, b.upper = .finite u := by
  have hupper := hb.upper
  have hordered := hb.ordered
  cases h : b.upper with
  | nan => exact absurd (h ▸ hordered) (Extended.not_le_nan _)
  | negInf => exact absurd h hupper
  | finite u => exact .inr ⟨u, rfl⟩
  | posInf => exact .inl rfl

/-- No side is finite, the lower one is, the upper one is, or both are. -/
theorem sides : b = ⟨.negInf, .posInf⟩ ∨ (∃ l, b = ⟨.finite l, .posInf⟩) ∨
    (∃ u, b = ⟨.negInf, .finite u⟩) ∨ ∃ l u, l ≤ u ∧ b = ⟨.finite l, .finite u⟩ := by
  have hordered := hb.ordered
  have hlower := hb.lower_cases
  have hupper := hb.upper_cases
  obtain ⟨lower, upper⟩ := b
  rcases hlower with rfl | ⟨l, rfl⟩ <;> rcases hupper with rfl | ⟨u, rfl⟩
  · exact .inl rfl
  · exact .inr (.inr (.inl ⟨u, rfl⟩))
  · exact .inr (.inl ⟨l, rfl⟩)
  · exact .inr (.inr (.inr ⟨l, u, (Extended.finite_le_finite l u).mp hordered, rfl⟩))

end Proper

@[simp] theorem guess_free : guess ⟨.negInf, .posInf⟩ = Extended.finite 0 := Extended.zero_eq

@[simp] theorem guess_from (l : ℚ) : guess ⟨.finite l, .posInf⟩ = Extended.finite l := rfl

@[simp] theorem guess_upTo (u : ℚ) : guess ⟨.negInf, .finite u⟩ = Extended.finite u := rfl

@[simp] theorem guess_between (l u : ℚ) :
    guess ⟨.finite l, .finite u⟩ = Extended.finite ((l + u) / 2) := by
  show (0.5 : Extended) * .finite (l + u) = _
  rw [Extended.half_eq, Extended.finite_mul]
  congr 1
  ring

/-- A variable starts from a number within its bounds. -/
theorem Proper.guess_within {b : Bounds Extended} (hb : b.Proper) :
    ∃ q, b.guess = .finite q ∧ b.lower ≤ .finite q ∧ .finite q ≤ b.upper := by
  rcases hb.sides with rfl | ⟨l, rfl⟩ | ⟨u, rfl⟩ | ⟨l, u, hlu, rfl⟩
  · exact ⟨0, guess_free, rfl, rfl⟩
  · exact ⟨l, guess_from l, (Extended.finite_le_finite l l).mpr (le_refl l), rfl⟩
  · exact ⟨u, guess_upTo u, rfl, (Extended.finite_le_finite u u).mpr (le_refl u)⟩
  · refine ⟨(l + u) / 2, guess_between l u, ?_, ?_⟩
    · rw [Extended.finite_le_finite]
      linarith
    · rw [Extended.finite_le_finite]
      linarith

end Bounds

end Collocation
