import Collocation.Proofs.Bounds
import Collocation.Proofs.Decimal.Conversion
import Collocation.Proofs.Problem.Intervals

/-! The values that are accepted as bounds: nothing, a finite number, or a pair of ends with a
number between them.  Ends that are whole numbers are rounded, which keeps them in order, so that
what was accepted as written is accepted again as scalars. -/

namespace Collocation

variable {α : Type} [Scalar α]

/-- The numbers that are written in a value, alone or as ends, fit into the range of the scalars. -/
def Value.InRange : Value α → Prop
  | .number x => x.InRange
  | .tuple items => ∀ x, .number x ∈ items → x.InRange
  | _ => True

/-- A value is written as an interval: as nothing, as a finite number, or as a pair of ends that are
in order and not both infinite in one direction. A missing end is infinite. -/
inductive Value.IsInterval : Value α → Prop
  | unrestricted : IsInterval .none
  | fixed (x : Number α) (q : ℚ) (hx : x.exact = .finite q) : IsInterval (.number x)
  | pair (lower upper : Option (Number α))
      (ordered : (Bounds.between lower upper).lower ≤ (Bounds.between lower upper).upper)
      (above : Bounds.between lower upper ≠ ⟨.posInf, .posInf⟩)
      (below : Bounds.between lower upper ≠ ⟨.negInf, .negInf⟩) :
      IsInterval (.tuple [WrittenBounds.sideValue lower, WrittenBounds.sideValue upper])

/-! ### Numbers as scalars -/

theorem Value.scalarOfNumber_of_inRange {x : Number α} (hx : x.InRange) :
    scalarOfNumber x = .ok x.scalar := by
  obtain ⟨s, hs⟩ := exists_scalarOfNumber_iff.mpr hx
  rw [hs, scalarOfNumber_eq_ok hs]

namespace Number

/-- An end as a number, with a scalar in the place of a missing one. -/
def endOr (missing : α) (x : Option (Number α)) : Number α := x.getD (.real missing)

theorem side_eq (missing : α) (x : Option (Number α)) :
    (WrittenBounds.sideValue x).side missing = (endOr missing x).scalar := by
  cases x <;> rfl

theorem endOr_inRange {missing : α} {x : Option (Number α)} (h : ∀ y ∈ x, y.InRange) :
    (endOr missing x).InRange := by
  cases x with
  | none => trivial
  | some y => exact h y rfl

variable [Rounding α] {x y : Number α}

theorem between_eq (lower upper : Option (Number α)) : Bounds.between lower upper =
    ⟨(endOr (-Scalar.infinity) lower).exact, (endOr Scalar.infinity upper).exact⟩ := by
  cases lower <;> cases upper <;>
    simp [Bounds.between, endOr, exact, Rounding.infinity, Rounding.negInfinity]

/-- Numbers that are in order are in order as scalars. -/
theorem scalar_le (h : x.exact ≤ y.exact) : x.scalar ≤ y.scalar := by
  cases x with
  | int m =>
    cases y with
    | int n => exact Rounding.ofInt_mono (by exact_mod_cast (Extended.finite_le_finite _ _).mp h)
    | real y => exact Rounding.ofInt_le h
  | real x =>
    cases y with
    | int n => exact Rounding.le_ofInt h
    | real y => exact (Rounding.le_iff x y).mpr h

/-- Rounding does not make a number infinite that fits into the range. -/
theorem exact_scalar_ne_posInf (hx : x.InRange) (h : x.exact ≠ .posInf) :
    Scalar.exact x.scalar ≠ .posInf := by
  cases x with
  | int n => exact fun hinf => Bool.eq_false_iff.mp hx (Rounding.isInfinite_iff.mpr (.inl hinf))
  | real x => exact h

theorem exact_scalar_ne_negInf (hx : x.InRange) (h : x.exact ≠ .negInf) :
    Scalar.exact x.scalar ≠ .negInf := by
  cases x with
  | int n => exact fun hinf => Bool.eq_false_iff.mp hx (Rounding.isInfinite_iff.mpr (.inr hinf))
  | real x => exact h

/-- The second check, of ends that are rounded, does not fail after the first. -/
theorem proper_scalar (hx : x.InRange) (hy : y.InRange) (h : Bounds.Proper ⟨x.exact, y.exact⟩) :
    (⟨x.scalar, y.scalar⟩ : Bounds α).exact.Proper :=
  ⟨(Rounding.le_iff _ _).mp (scalar_le h.ordered), exact_scalar_ne_posInf hx h.lower,
    exact_scalar_ne_negInf hy h.upper⟩

end Number

namespace Bounds

theorem between_proper_iff {lower upper : Option (Number α)} : (between lower upper).Proper ↔
    (between lower upper).lower ≤ (between lower upper).upper ∧
      between lower upper ≠ ⟨.posInf, .posInf⟩ ∧ between lower upper ≠ ⟨.negInf, .negInf⟩ := by
  generalize between lower upper = b
  obtain ⟨l, u⟩ := b
  constructor
  · rintro ⟨hordered, hlower, hupper⟩
    exact ⟨hordered, fun h => hlower (congrArg Bounds.lower h),
      fun h => hupper (congrArg Bounds.upper h)⟩
  · rintro ⟨hordered, habove, hbelow⟩
    refine ⟨hordered, ?_, ?_⟩
    · rintro rfl
      cases u <;> first
        | exact habove rfl
        | exact Bool.false_ne_true hordered
    · rintro rfl
      cases l <;> first
        | exact hbelow rfl
        | exact Bool.false_ne_true hordered

theorem isInterval_pair_iff (lower upper : Option (Number α)) :
    (Value.tuple [WrittenBounds.sideValue lower, WrittenBounds.sideValue upper]).IsInterval ↔
      (between lower upper).Proper := by
  have hside : ∀ {x y : Option (Number α)},
      WrittenBounds.sideValue x = WrittenBounds.sideValue y → x = y := by
    intro x y h
    cases x <;> cases y <;> cases h <;> rfl
  rw [between_proper_iff]
  constructor
  · rintro h
    generalize hv : Value.tuple _ = v at h
    cases h with
    | pair l u hordered habove hbelow =>
      simp only [Value.tuple.injEq, List.cons.injEq, and_true] at hv
      obtain rfl := hside hv.1
      obtain rfl := hside hv.2
      exact ⟨hordered, habove, hbelow⟩
    | _ => cases hv
  · rintro ⟨hordered, habove, hbelow⟩
    exact .pair lower upper hordered habove hbelow

theorem inRange_pair {lower upper : Option (Number α)}
    (h : (Value.tuple [WrittenBounds.sideValue lower, WrittenBounds.sideValue upper]).InRange) :
    (∀ x ∈ lower, x.InRange) ∧ ∀ x ∈ upper, x.InRange := by
  constructor <;> rintro x rfl
  · exact h x (by simp [WrittenBounds.sideValue])
  · exact h x (by simp [WrittenBounds.sideValue])

/-- The first check accepts intervals, and nothing else. -/
theorem check_eq_ok_iff {v : Value α} {context : String} (hv : v.InRange) :
    check v context = .ok () ↔ v.IsInterval := by
  cases v with
  | none => exact iff_of_true rfl .unrestricted
  | number x =>
    rw [check, Except.seq_eq_ok, and_iff_right (fits_eq_ok_iff.mpr hv)]
    constructor
    · intro h
      split at h
      · next q hq => exact .fixed x q hq
      · exact absurd h Except.throw_ne_ok
    · rintro ⟨⟩
      next q hq => rw [hq]; rfl
  | tuple items =>
    match items with
    | [lower, upper] =>
      constructor
      · intro h
        obtain ⟨l, u, rfl, rfl⟩ := exists_sides h
        exact (isInterval_pair_iff _ _).mpr ((checkPair_eq_ok_iff _ _ _).mp h).2.2
      · intro h
        cases h with
        | pair l u ordered above below =>
          obtain ⟨hl, hu⟩ := inRange_pair hv
          exact (checkPair_eq_ok_iff _ _ _).mpr
            ⟨hl, hu, between_proper_iff.mpr ⟨ordered, above, below⟩⟩
    | [] => exact iff_of_false nofun nofun
    | [_] => exact iff_of_false nofun nofun
    | _ :: _ :: _ :: _ => exact iff_of_false nofun nofun
  | _ => exact iff_of_false nofun nofun

theorem checkSide_onlyRaises {side : Nat} {v : Value α} {context : String}
    (hv : ∀ x, v = .number x → x.InRange) :
    OnlyRaises (checkSide side v context) .problemDefinition := by
  cases v with
  | none => exact .ok ()
  | number x =>
    have hfits := fits_eq_ok_iff.mpr (hv x rfl)
    show OnlyRaises (fits x >>= fun _ => if x.exact = .nan then _ else _) _
    rw [hfits]
    show OnlyRaises (if x.exact = .nan then _ else _) _
    split_ifs
    · exact .error rfl
    · exact .ok ()
  | _ => exact .error rfl

theorem check_onlyRaises {v : Value α} {context : String} (hv : v.InRange) :
    OnlyRaises (check v context) .problemDefinition := by
  cases v with
  | none => exact .ok ()
  | number x =>
    rw [check, fits_eq_ok_iff.mpr hv]
    cases x.exact with
    | finite q => exact .ok ()
    | _ => exact .error rfl
  | tuple items =>
    rcases items with _ | ⟨lower, _ | ⟨upper, _ | ⟨third, rest⟩⟩⟩
    · exact .error rfl
    · exact .error rfl
    · have hlower : ∀ x, lower = .number x → x.InRange := by
        rintro x rfl
        exact hv x (by simp)
      have hupper : ∀ x, upper = .number x → x.InRange := by
        rintro x rfl
        exact hv x (by simp)
      refine (checkSide_onlyRaises hlower).bind fun _ => ?_
      refine (checkSide_onlyRaises hupper).bind fun _ => ?_
      split
      · refine .guard rfl ?_
        split_ifs
        · exact .error rfl
        · exact .ok ()
      · split_ifs
        · exact .error rfl
        · exact .ok ()
      · split_ifs
        · exact .error rfl
        · exact .ok ()
      · exact .ok ()
    · exact .error rfl
  | _ => exact .error rfl

theorem sideScalar_sideValue {missing : α} {x : Option (Number α)} (hx : ∀ y ∈ x, y.InRange) :
    sideScalar missing (WrittenBounds.sideValue x) = .ok (Number.endOr missing x).scalar := by
  cases x with
  | none => rfl
  | some y => exact Value.scalarOfNumber_of_inRange (hx y rfl)

variable [Rounding α]

/-- What is written as an interval is accepted as that interval. -/
theorem ofValue_eq {v : Value α} (hv : v.InRange) (h : v.IsInterval) (context : String) :
    ofValue v context = .ok v.interval ∧ v.interval.exact.Proper := by
  have hcheck : check v context = .ok () := (check_eq_ok_iff hv).mpr h
  cases h with
  | unrestricted => exact ⟨rfl, free_proper⟩
  | fixed x q hx =>
    have hproper : Proper ⟨x.exact, x.exact⟩ := by
      rw [hx]
      exact ⟨(Extended.finite_le_finite q q).mpr le_rfl, nofun, nofun⟩
    have hscalar := Number.proper_scalar hv hv hproper
    refine ⟨?_, hscalar⟩
    rw [ofValue, hcheck]
    show (Value.scalarOfNumber x >>= fun s => make s s) = _
    rw [Value.scalarOfNumber_of_inRange hv]
    exact make_eq_ok_iff.mpr ⟨rfl, hscalar⟩
  | pair l u ordered above below =>
    obtain ⟨hl, hu⟩ := inRange_pair hv
    have hproper := between_proper_iff.mpr ⟨ordered, above, below⟩
    rw [Number.between_eq] at hproper
    have hscalar := Number.proper_scalar (Number.endOr_inRange hl) (Number.endOr_inRange hu) hproper
    rw [Value.interval, Number.side_eq, Number.side_eq]
    refine ⟨?_, hscalar⟩
    rw [ofValue, hcheck]
    show (sideScalar _ _ >>= fun _ => sideScalar _ _ >>= _) = _
    rw [sideScalar_sideValue hl, sideScalar_sideValue hu]
    exact make_eq_ok_iff.mpr ⟨rfl, hscalar⟩

/-- The interval between two scalars is accepted where it is proper, and kept. -/
theorem ofValue_pair {b : Bounds α} (h : b.exact.Proper) (context : String) :
    ofValue (.tuple [.real b.lower, .real b.upper]) context = .ok b := by
  have hpair := isInterval_pair_iff (some (.real b.lower)) (some (.real b.upper))
  refine (ofValue_eq ?_ (hpair.mpr h) context).1
  intro x hx
  simp only [List.mem_cons, List.not_mem_nil, or_false] at hx
  rcases hx with hx | hx <;> cases hx <;> trivial

/-- Exactly what is written as an interval is accepted as bounds, and as that interval; the second
check never fails after the first. Accepted bounds are in order and hold a number, the exact value
that a variable starts from is one of the numbers between them, and written as a pair they are
accepted as themselves. -/
theorem normalises {v : Value α} (hv : v.InRange) (context : String) :
    (v.IsInterval ∧ ofValue v context = .ok v.interval ∨
      ¬ v.IsInterval ∧ Raises (ofValue v context) .problemDefinition) ∧
    (check v context = .ok () → ofValue v context = .ok v.interval) ∧
    ∀ b, ofValue v context = .ok b →
      b.lower ≤ b.upper ∧ b.exact.Proper ∧
      (∃ q, b.exact.guess = .finite q ∧ b.exact.contains (.finite q) = true) ∧
      ∀ place, ofValue (.tuple [.real b.lower, .real b.upper]) place = .ok b := by
  by_cases h : v.IsInterval
  · obtain ⟨hof, hproper⟩ := ofValue_eq hv h context
    refine ⟨.inl ⟨h, hof⟩, fun _ => hof, ?_⟩
    intro b hb
    obtain rfl := Except.ok.inj (hof.symm.trans hb)
    obtain ⟨q, hguess, hlower, hupper⟩ := hproper.guess_within
    refine ⟨(Rounding.le_iff _ _).mpr hproper.ordered, hproper, ⟨q, hguess, ?_⟩,
      ofValue_pair hproper⟩
    rw [Bounds.contains, decide_eq_true hlower, decide_eq_true hupper]
    rfl
  · have hraises : Raises (check v context) .problemDefinition :=
      (check_onlyRaises hv).raises_iff.mpr fun ⟨(), hok⟩ => h ((check_eq_ok_iff hv).mp hok)
    have hof : Raises (ofValue v context) .problemDefinition := hraises.bind
    refine ⟨.inr ⟨h, hof⟩, fun hok => absurd ((check_eq_ok_iff hv).mp hok) h, ?_⟩
    intro b hb
    rw [hb] at hof
    exact absurd hof (not_raises_ok b)

/-- Whole numbers that are no machine numbers: both ends are rounded, away from each other. -/
theorem normalises_rounded :
    let v : Value Float := .tuple [.int (2 ^ 53 + 1), .int (2 ^ 53 + 3)]
    v.InRange ∧ ofValue v "bounds" = .ok v.interval ∧
      v.interval.exact = ⟨.finite (2 ^ 53), .finite (2 ^ 53 + 4)⟩ := by
  intro v
  have hrange : v.InRange := by
    intro x hx
    simp only [List.mem_cons, List.not_mem_nil, or_false] at hx
    rcases hx with hx | hx <;> cases hx <;> decide +kernel
  have hpair := isInterval_pair_iff (α := Float) (some (.int (2 ^ 53 + 1)))
    (some (.int (2 ^ 53 + 3)))
  have hcheck : check v "bounds" = .ok () :=
    (check_eq_ok_iff hrange).mpr (hpair.mpr (by decide +kernel))
  exact ⟨hrange, (normalises hrange "bounds").2.1 hcheck, by decide +kernel⟩

end Bounds

end Collocation
