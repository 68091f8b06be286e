import Collocation.Proofs.Bounds.Acceptance
import Collocation.Proofs.Values

/-! Bounds as they are written.  A pair is accepted if it is an interval, and its sides are kept as
they are.  A side that is missing then has no number for the questions that need one. -/

namespace Collocation

variable {α : Type} [Scalar α]

namespace WrittenBounds

omit [Scalar α] in
theorem number?_sideValue (x : Option (Number α)) : (sideValue x).number? = x := by
  cases x <;> rfl

theorem make_eq_ok_iff {lower upper : Value α} {w : WrittenBounds α} :
    make lower upper = .ok w ↔ lower = sideValue w.lower ∧ upper = sideValue w.upper ∧
      (∀ x ∈ w.lower, x.InRange) ∧ (∀ x ∈ w.upper, x.InRange) ∧
      (Bounds.between w.lower w.upper).Proper := by
  rw [make, Except.seq_eq_ok, Except.pure_eq_ok]
  constructor
  · rintro ⟨hcheck, rfl⟩
    obtain ⟨l, u, rfl, rfl⟩ := Bounds.exists_sides hcheck
    simp only [number?_sideValue]
    exact ⟨trivial, trivial, (Bounds.checkPair_eq_ok_iff _ _ _).mp hcheck⟩
  · rintro ⟨rfl, rfl, h⟩
    exact ⟨(Bounds.checkPair_eq_ok_iff _ _ _).mpr h, by rw [number?_sideValue, number?_sideValue]⟩

/-! ### Questions -/

theorem raises_type_sideInfinite {x : Option (Number α)} :
    Raises (sideInfinite x) .type ↔ x = none := by
  cases x with
  | none => exact iff_of_true ⟨_, rfl, rfl⟩ rfl
  | some x => exact iff_of_false (not_raises_ok _) nofun

/-- Whether a number is one of both infinities. -/
def infinite (x : Number α) : Bool := decide (x.exact = .posInf) || decide (x.exact = .negInf)

theorem guess_eq (l u : Number α) : guess ⟨some l, some u⟩ =
    if !infinite l && !infinite u then do
      return .real (0.5 * (← Value.scalarOfNumber (← l.sum u)))
    else if !infinite l then return l
    else if !infinite u then return u
    else return .real 0.0 := rfl

/-- Only whole numbers have a sum that is out of range. -/
theorem sum_eq {l u : Number α} (hl : l.InRange) (hu : u.InRange) :
    ∃ s, l.sum u = .ok s ∧ (s.InRange ∨ ∃ m n, l = .int m ∧ u = .int n ∧ s = .int (m + n)) := by
  cases l with
  | int m =>
    cases u with
    | int n => exact ⟨.int (m + n), rfl, .inr ⟨m, n, rfl, rfl, rfl⟩⟩
    | real u =>
      refine ⟨.real (Number.scalar (.int m) + u), ?_, .inl trivial⟩
      rw [Number.sum, Number.combine, Value.scalarOfNumber_of_inRange hl]
      · rfl
      · nofun
  | real l =>
    refine ⟨.real (l + u.scalar), ?_, .inl trivial⟩
    rw [Number.sum, Number.combine, Value.scalarOfNumber_of_inRange hu]
    · rfl
    · nofun

theorem scalarOfNumber_overflow {x : Number α} (hx : ¬ x.InRange) :
    Value.scalarOfNumber x = .error (.reading .tooLarge) := by
  cases x with
  | int n =>
    have hinfinite : Scalar.isInfinite (Scalar.ofInt n : α) = true := Bool.of_not_eq_false hx
    rw [Value.scalarOfNumber, Value.scalarOfInt, Scalar.ofInt?, hinfinite]
    rfl
  | real x => exact absurd trivial hx

/-- Two whole numbers with a sum that is out of range. -/
def SumTooLarge (l u : Number α) : Prop :=
  ∃ m n, l = .int m ∧ u = .int n ∧ ¬ (Number.int (m + n) : Number α).InRange

theorem guess_of_sumTooLarge {l u : Number α} (h : SumTooLarge l u) :
    Raises (guess ⟨some l, some u⟩) .overflow := by
  obtain ⟨m, n, rfl, rfl, hout⟩ := h
  refine ⟨.reading .tooLarge, ?_, rfl⟩
  show (Value.scalarOfNumber (.int (m + n)) >>= _) = _
  rw [scalarOfNumber_overflow hout]
  rfl

theorem exists_guess {l u : Number α} (hl : l.InRange) (hu : u.InRange) (h : ¬ SumTooLarge l u) :
    ∃ g, guess ⟨some l, some u⟩ = .ok g := by
  rw [guess_eq]
  split_ifs
  · obtain ⟨s, hs, hrange⟩ := sum_eq hl hu
    have hin : s.InRange := by
      rcases hrange with hin | ⟨m, n, rfl, rfl, rfl⟩
      · exact hin
      · exact not_not.mp fun hout => h ⟨m, n, rfl, rfl, hout⟩
    rw [hs]
    show ∃ g : Number α, (Value.scalarOfNumber s >>= fun x => pure (.real (0.5 * x))) = .ok g
    rw [Value.scalarOfNumber_of_inRange hin]
    exact ⟨_, rfl⟩
  · exact ⟨l, rfl⟩
  · exact ⟨u, rfl⟩
  · exact ⟨.real 0.0, rfl⟩

/-- A number for the start needs both sides. -/
theorem raises_type_guess {w : WrittenBounds α} (hl : ∀ x ∈ w.lower, x.InRange)
    (hu : ∀ x ∈ w.upper, x.InRange) :
    Raises w.guess .type ↔ w.lower = none ∨ w.upper = none := by
  obtain ⟨_ | l, _ | u⟩ := w
  · exact iff_of_true ⟨_, rfl, rfl⟩ (.inl rfl)
  · exact iff_of_true ⟨_, rfl, rfl⟩ (.inl rfl)
  · exact iff_of_true ⟨_, rfl, rfl⟩ (.inr rfl)
  · refine iff_of_false ?_ (by simp)
    by_cases hsum : SumTooLarge l u
    · obtain ⟨f, hf, hkind⟩ := guess_of_sumTooLarge hsum
      rw [hf]
      exact not_raises_error (by rw [hkind]; decide)
    · obtain ⟨g, hg⟩ := exists_guess (hl l rfl) (hu u rfl) hsum
      rw [hg]
      exact not_raises_ok g

/-- Whether a pair is open on both sides is asked of the upper side only if the lower one is
infinite. -/
theorem raises_type_isFree {w : WrittenBounds α} :
    Raises w.isFree .type ↔ w.lower = none ∨ (∃ l ∈ w.lower, infinite l) ∧ w.upper = none := by
  obtain ⟨_ | l, u⟩ := w
  · exact iff_of_true ⟨_, rfl, rfl⟩ (.inl rfl)
  · show Raises (if infinite l then sideInfinite u else pure false) .type ↔ _
    split_ifs with h
    · simp [raises_type_sideInfinite, h]
    · exact iff_of_false (not_raises_ok false) (by simp [h])

theorem isFree_given (l u : Number α) :
    isFree ⟨some l, some u⟩ = .ok (infinite l && infinite u) := by
  show (if infinite l then sideInfinite (some u) else pure false) = _
  cases infinite l <;> rfl

variable [Rounding α]

omit [Rounding α] in
theorem moved_eq (operator : String) (whole : Int → Int → Int) (real : α → α → α) {x : Number α}
    (hx : x.InRange) (tolerance : α) :
    moved operator (Number.combine whole real) (some x) (.real tolerance) =
      .ok (.real (real x.scalar tolerance)) := by
  show Number.combine whole real x (.real tolerance) = _
  rw [Number.combine, Value.scalarOfNumber_of_inRange hx]
  · rfl
  · nofun

/-- The upper side is asked only for what the lower one lets through. -/
theorem contains_eq {l v : Number α} (hl : l.InRange) (u : Option (Number α)) :
    contains ⟨some l, u⟩ (.number v) =
      if Scalar.exact l.scalar ≤ v.exact then do
        compareLe (.number v) (.number (← moved "+" Number.sum u (.real 0.0)))
      else .ok false := by
  have hmoved := moved_eq "-" (· - ·) (· - ·) hl 0.0
  have hle : compareLe (.number (.real (l.scalar - 0.0))) (.number v) =
      .ok (decide (Scalar.exact l.scalar ≤ v.exact)) := by
    rw [← Rounding.sub_zero]
    rfl
  rw [contains, Number.difference, hmoved]
  show (compareLe (.number (.real (l.scalar - 0.0))) (.number v) >>= fun b =>
    if b = true then _ else _) = _
  rw [hle]
  show (if decide (Scalar.exact l.scalar ≤ v.exact) = true then _ else _) = _
  rw [if_congr decide_eq_true_iff rfl rfl]
  rfl

theorem contains_given {l u v : Number α} (hl : l.InRange) (hu : u.InRange) :
    contains ⟨some l, some u⟩ (.number v) =
      .ok (decide (Scalar.exact l.scalar ≤ v.exact ∧ v.exact ≤ Scalar.exact u.scalar)) := by
  have hmoved := moved_eq "+" (· + ·) (· + ·) hu 0.0
  have hle : compareLe (.number v) (.number (.real (u.scalar + 0.0))) =
      .ok (decide (v.exact ≤ Scalar.exact u.scalar)) := by
    rw [← Rounding.add_zero u.scalar]
    rfl
  rw [contains_eq hl, Number.sum, hmoved]
  show (if _ then compareLe (.number v) (.number (.real (u.scalar + 0.0))) else _) = _
  rw [hle]
  split_ifs with h <;> simp [h]

theorem raises_type_contains {w : WrittenBounds α} (hl : ∀ x ∈ w.lower, x.InRange)
    (hu : ∀ x ∈ w.upper, x.InRange) (v : Number α) :
    Raises (w.contains (.number v)) .type ↔
      w.lower = none ∨ (∃ l ∈ w.lower, Scalar.exact l.scalar ≤ v.exact) ∧ w.upper = none := by
  obtain ⟨_ | l, u⟩ := w
  · exact iff_of_true ⟨_, rfl, rfl⟩ (.inl rfl)
  · cases u with
    | none =>
      rw [contains_eq (hl l rfl)]
      split_ifs with h
      · exact iff_of_true ⟨_, rfl, rfl⟩ (.inr ⟨⟨l, rfl, h⟩, rfl⟩)
      · exact iff_of_false (not_raises_ok false) (by simp [h])
    | some u =>
      rw [contains_given (hl l rfl) (hu u rfl)]
      exact iff_of_false (not_raises_ok _) (by simp)

/-! ### Exact arithmetic -/

theorem exact_sum (l u : Number Extended) :
    ∃ s, l.sum u = .ok s ∧ s.exact = l.exact + u.exact := by
  cases l with
  | int m =>
    cases u with
    | int n => exact ⟨.int (m + n), rfl, by simp [Number.exact]⟩
    | real u =>
      refine ⟨.real (.finite m + u), ?_, rfl⟩
      rw [Number.sum, Number.combine, Value.scalarOfNumber_exact]
      · rfl
      · intro m n hm hn
        cases hn
  | real l =>
    refine ⟨.real (l + u.exact), ?_, rfl⟩
    rw [Number.sum, Number.combine, Value.scalarOfNumber_exact u]
    · rfl
    · intro m n hm hn
      cases hm

/-- In exact arithmetic the number for the start is that of the interval between both sides. -/
theorem guess_exact (l u : Number Extended) :
    ∃ g, guess ⟨some l, some u⟩ = .ok g ∧ g.exact = Bounds.guess ⟨l.exact, u.exact⟩ := by
  have hinfinite (x : Number Extended) : Scalar.isInfinite x.exact = infinite x := by
    rw [Bool.eq_iff_iff, Rounding.isInfinite_iff]
    simp [infinite, Scalar.exact]
  rw [guess_eq, Bounds.guess, hinfinite, hinfinite]
  cases infinite l <;> cases infinite u
  · obtain ⟨s, hs, hexact⟩ := exact_sum l u
    refine ⟨.real (0.5 * s.exact), ?_, ?_⟩
    · show (l.sum u >>= fun s => Value.scalarOfNumber s >>= fun x =>
        pure (Number.real (0.5 * x))) = _
      rw [hs]
      show (Value.scalarOfNumber s >>= fun x => pure (Number.real (0.5 * x))) = _
      rw [Value.scalarOfNumber_exact]
      rfl
    · rw [hexact]
      rfl
  · exact ⟨l, rfl, rfl⟩
  · exact ⟨u, rfl, rfl⟩
  · exact ⟨.real 0.0, rfl, rfl⟩

theorem contains_guess {l u : Number Extended}
    (h : (Bounds.between (some l) (some u)).Proper) :
    ∃ g, guess ⟨some l, some u⟩ = .ok g ∧
      contains ⟨some l, some u⟩ (.number g) = .ok true := by
  have hrange (x : Number Extended) : x.InRange :=
    Value.exists_scalarOfNumber_iff.mp ⟨_, Value.scalarOfNumber_exact x⟩
  have hscalar (x : Number Extended) : x.scalar = x.exact :=
    (Value.scalarOfNumber_eq_ok (Value.scalarOfNumber_exact x)).symm
  obtain ⟨g, hg, hexact⟩ := guess_exact l u
  obtain ⟨q, hq, hlower, hupper⟩ := h.guess_within
  refine ⟨g, hg, ?_⟩
  have hguess : Bounds.guess ⟨l.exact, u.exact⟩ = .finite q := hq
  rw [contains_given (hrange l) (hrange u), hscalar, hscalar, hexact, hguess]
  exact congrArg Except.ok (decide_eq_true ⟨hlower, hupper⟩)

/-! ### What a pair answers -/

omit [Rounding α] in
/-- A pair is accepted if it is an interval, and raises otherwise. -/
theorem make_outcome {lower upper : Value α} (hv : (Value.tuple [lower, upper]).InRange) :
    (Value.tuple [lower, upper]).IsInterval ∧ (∃ w, make lower upper = .ok w) ∨
      ¬ (Value.tuple [lower, upper]).IsInterval ∧
        Raises (make lower upper) .problemDefinition := by
  have hcheck : Bounds.check (.tuple [lower, upper]) "Bounds" = .ok () ↔ _ :=
    Bounds.check_eq_ok_iff hv
  have honly : OnlyRaises (Bounds.checkPair lower upper "Bounds") .problemDefinition :=
    Bounds.check_onlyRaises hv
  by_cases h : (Value.tuple [lower, upper]).IsInterval
  · exact .inl ⟨h, _, Except.seq_eq_ok.mpr ⟨hcheck.mpr h, rfl⟩⟩
  · exact .inr ⟨h, (honly.raises_iff.mpr fun ⟨(), hok⟩ => h (hcheck.mp hok)).bind⟩

/-- A pair is accepted exactly if it is an interval, and keeps its sides. Of what is accepted, the
questions fail that need the number of a missing side; with both sides given all questions are
answered, but for the middle of whole numbers whose sum is out of range. In exact arithmetic the
pair then contains the number that it gives for the start. -/
theorem answers {lower upper : Value α} (hv : (Value.tuple [lower, upper]).InRange) :
    ((Value.tuple [lower, upper]).IsInterval ∧ (∃ w, make lower upper = .ok w) ∨
      ¬ (Value.tuple [lower, upper]).IsInterval ∧
        Raises (make lower upper) .problemDefinition) ∧
    (∀ w, make lower upper = .ok w →
      lower = sideValue w.lower ∧ upper = sideValue w.upper ∧
      (Bounds.between w.lower w.upper).Proper ∧
      (Raises w.guess .type ↔ w.lower = none ∨ w.upper = none) ∧
      (Raises w.isFree .type ↔
        w.lower = none ∨ (∃ l ∈ w.lower, infinite l) ∧ w.upper = none) ∧
      (∀ v, Raises (w.contains (.number v)) .type ↔
        w.lower = none ∨ (∃ l ∈ w.lower, Scalar.exact l.scalar ≤ v.exact) ∧ w.upper = none) ∧
      ∀ l u, w = ⟨some l, some u⟩ →
        w.isFree = .ok (infinite l && infinite u) ∧
        (∀ v, w.contains (.number v) =
          .ok (decide (Scalar.exact l.scalar ≤ v.exact ∧ v.exact ≤ Scalar.exact u.scalar))) ∧
        (SumTooLarge l u ∧ Raises w.guess .overflow ∨
          ¬ SumTooLarge l u ∧ ∃ g, w.guess = .ok g)) ∧
    ∀ (lower upper : Value Extended) (l u : Number Extended),
      make lower upper = .ok ⟨some l, some u⟩ →
      ∃ g, guess ⟨some l, some u⟩ = .ok g ∧
        contains ⟨some l, some u⟩ (.number g) = .ok true := by
  refine ⟨make_outcome hv, ?_,
    fun lower upper l u h => contains_guess (make_eq_ok_iff.mp h).2.2.2.2⟩
  intro w hw
  obtain ⟨hlower, hupper, hl, hu, hproper⟩ := make_eq_ok_iff.mp hw
  refine ⟨hlower, hupper, hproper, raises_type_guess hl hu, raises_type_isFree,
    raises_type_contains hl hu, ?_⟩
  rintro l u rfl
  refine ⟨isFree_given l u, fun v => contains_given (hl l rfl) (hu u rfl), ?_⟩
  by_cases hsum : SumTooLarge l u
  · exact .inl ⟨hsum, guess_of_sumTooLarge hsum⟩
  · exact .inr ⟨hsum, exists_guess (hl l rfl) (hu u rfl) hsum⟩

/-- Machine numbers without a lower side. -/
theorem answers_missing : (Value.tuple [.none, .real 1.0] : Value Float).InRange ∧
    ∃ w, make (.none : Value Float) (.real 1.0) = .ok w ∧ Raises w.guess .type := by
  have hrange : (Value.tuple [.none, .real 1.0] : Value Float).InRange := by
    intro x hx
    simp only [List.mem_cons, List.not_mem_nil, or_false] at hx
    rcases hx with hx | hx <;> cases hx
    trivial
  have hmake : make (.none : Value Float) (.real 1.0) = .ok ⟨none, some (.real 1.0)⟩ :=
    make_eq_ok_iff.mpr ⟨rfl, rfl, nofun, by simp [Number.InRange], by decide +kernel⟩
  exact ⟨hrange, _, hmake, ((answers hrange).2.1 _ hmake).2.2.2.1.mpr (.inl rfl)⟩

/-- A pair without a lower side is accepted and answers no question. A whole number that is rounded
down, or a sum that is too large, leaves the number for the start outside of the pair. -/
theorem not_usable :
    (∃ w, make (.none : Value Float) (.real 1.0) = .ok w ∧ Raises w.guess .type ∧
      Raises w.isFree .type ∧ Raises (w.contains (.real 0.0)) .type) ∧
    (∃ w, make (.int (10 ^ 308) : Value Float) (.int (10 ^ 308)) = .ok w ∧
      Raises w.guess .overflow) ∧
    (∃ w g, make (.real (-Scalar.infinity) : Value Float) (.int (2 ^ 53 + 1)) = .ok w ∧
      w.guess = .ok g ∧ w.contains (.number g) = .ok false) ∧
    ∃ w g, make (.real 1e308 : Value Float) (.real 1.7e308) = .ok w ∧
      w.guess = .ok g ∧ w.contains (.number g) = .ok false := by
  refine ⟨⟨⟨none, some (.real 1.0)⟩, ?_, ⟨_, rfl, rfl⟩, ⟨_, rfl, rfl⟩, ⟨_, rfl, rfl⟩⟩,
    ⟨⟨some (.int (10 ^ 308)), some (.int (10 ^ 308))⟩, ?_, ?_⟩,
    ⟨⟨some (.real (-Scalar.infinity)), some (.int (2 ^ 53 + 1))⟩, .int (2 ^ 53 + 1), ?_, ?_, ?_⟩,
    ⟨⟨some (.real 1e308), some (.real 1.7e308)⟩, .real (0.5 * (1e308 + 1.7e308)), ?_, ?_, ?_⟩⟩
  · exact make_eq_ok_iff.mpr ⟨rfl, rfl, nofun, by simp [Number.InRange], by decide +kernel⟩
  · have hrange : ∀ x ∈ some (.int (10 ^ 308) : Number Float), x.InRange := by
      rintro x ⟨⟩
      decide +kernel
    exact make_eq_ok_iff.mpr ⟨rfl, rfl, hrange, hrange, by decide +kernel⟩
  · exact guess_of_sumTooLarge ⟨_, _, rfl, rfl, by decide +kernel⟩
  · have hrange : ∀ x ∈ some (.int (2 ^ 53 + 1) : Number Float), x.InRange := by
      rintro x ⟨⟩
      decide +kernel
    exact make_eq_ok_iff.mpr ⟨rfl, rfl, by simp [Number.InRange], hrange, by decide +kernel⟩
  · have hlower : infinite (.real (-Scalar.infinity) : Number Float) = true := by decide +kernel
    have hupper : infinite (.int (2 ^ 53 + 1) : Number Float) = false := rfl
    rw [guess_eq, hlower, hupper]
    rfl
  · have hlower : (.real (-Scalar.infinity) : Number Float).InRange := trivial
    have hupper : (.int (2 ^ 53 + 1) : Number Float).InRange := by decide +kernel
    rw [contains_given hlower hupper]
    exact congrArg Except.ok (by decide +kernel)
  · exact make_eq_ok_iff.mpr
      ⟨rfl, rfl, by simp [Number.InRange], by simp [Number.InRange], by decide +kernel⟩
  · have hlower : infinite (.real 1e308 : Number Float) = false := by decide +kernel
    have hupper : infinite (.real 1.7e308 : Number Float) = false := by decide +kernel
    rw [guess_eq, hlower, hupper]
    rfl
  · have hlower : (.real 1e308 : Number Float).InRange := trivial
    have hupper : (.real 1.7e308 : Number Float).InRange := trivial
    rw [contains_given hlower hupper]
    exact congrArg Except.ok (by decide +kernel)

end WrittenBounds

end Collocation
