import Collocation.Proofs.Faithful
import Collocation.Proofs.Guess
import Collocation.Proofs.Layout.Given

/-! The start from the bounds.  The rule that finds it for all variables at once is the rule of a
single pair of bounds, and moving the final time behind the initial one does not leave the bounds,
so every entry is a number that its bounds allow. -/

namespace Collocation

namespace Layout

/-- The two times of a layout stand in their places, under bounds that hold a number. -/
structure Timed (l : Layout Extended) (first last : Bounds Extended) : Prop where
  initialTime : l.slots[l.initialTimeIndex]? = some ⟨.text "t0", first⟩
  finalTime : l.slots[l.finalTimeIndex]? = some ⟨.text "tf", last⟩
  initial_proper : first.Proper
  final_proper : last.Proper

/-- All bounds of a layout hold a number. -/
def Bounded {α : Type} [Scalar α] (l : Layout α) : Prop := ∀ s ∈ l.slots, s.bounds.exact.Proper

end Layout

namespace Guess

theorem zeroTolerance_eq : (zeroTolerance : Extended) = .finite (1 / 10 ^ 14) := by
  show Extended.finite _ = _
  norm_num

theorem startOf_eq_guess {b : Bounds Extended} (hb : b.Proper) : startOf b = b.guess := by
  have hfinite (q : ℚ) : Scalar.isFinite (Extended.finite q) = true :=
    Extended.isFinite_iff.mpr ⟨q, rfl⟩
  have hbelow : Scalar.isFinite Extended.negInf = false := rfl
  have habove : Scalar.isFinite Extended.posInf = false := rfl
  rcases hb.sides with rfl | ⟨l, rfl⟩ | ⟨u, rfl⟩ | ⟨l, u, -, rfl⟩
  · rw [startOf, hbelow, habove]
    rfl
  · rw [startOf, hfinite, habove]
    rfl
  · rw [startOf, hbelow, hfinite]
    rfl
  · rw [startOf, hfinite, hfinite]
    rfl

/-- The final time of a default start. -/
def finalStart (first last : Bounds Extended) : Extended :=
  if last.guess - first.guess ≤ zeroTolerance then
    Scalar.smaller (first.guess + 1.0) last.upper
  else last.guess

/-- Moved or not, the final time is a number within its bounds. -/
theorem finalStart_within {first last : Bounds Extended} (hfirst : first.Proper)
    (hlast : last.Proper) : ∃ q, finalStart first last = .finite q ∧
      last.lower ≤ .finite q ∧ .finite q ≤ last.upper := by
  obtain ⟨t, ht, -, -⟩ := hfirst.guess_within
  obtain ⟨q, hq, hlower, hupper⟩ := hlast.guess_within
  unfold finalStart
  split_ifs with hclose
  · have hlt : q < t + 1 := by
      rw [hq, ht, zeroTolerance_eq, Extended.finite_sub, Extended.finite_le_finite] at hclose
      linarith
    have hmoved : last.lower ≤ .finite (t + 1) := by
      rcases hlast.lower_cases with h | ⟨l, h⟩
      · rw [h]
        rfl
      · rw [h, Extended.finite_le_finite] at hlower ⊢
        exact le_trans hlower hlt.le
    rw [ht, Extended.one_eq, Extended.finite_add]
    rcases hlast.upper_cases with h | ⟨u, h⟩
    · rw [h]
      exact ⟨t + 1, rfl, hmoved, rfl⟩
    · have hordered := hlast.ordered
      rw [h] at hordered
      rw [h, Extended.smaller_finite]
      refine ⟨_, rfl, ?_, (Extended.finite_le_finite _ _).mpr (min_le_right _ _)⟩
      rcases min_choice (t + 1) u with hmin | hmin
      · rwa [hmin]
      · rwa [hmin]
  · exact ⟨q, hq, hlower, hupper⟩

/-- The final time is behind the initial one, or at an upper bound that does not let it be. -/
theorem finalStart_behind_or {first last : Bounds Extended} (hlast : last.Proper) {t q : ℚ}
    (ht : first.guess = .finite t) (hq : finalStart first last = .finite q) :
    t < q ∨ q ≤ t ∧ last.upper = .finite q := by
  unfold finalStart at hq
  split_ifs at hq with hclose
  · rw [ht, Extended.one_eq, Extended.finite_add] at hq
    rcases hlast.upper_cases with h | ⟨u, h⟩
    · rw [h] at hq
      obtain rfl : t + 1 = q := Extended.finite.inj hq
      exact .inl (lt_add_one t)
    · rw [h, Extended.smaller_finite] at hq
      obtain rfl : min (t + 1) u = q := Extended.finite.inj hq
      rcases lt_or_ge t u with hlt | hle
      · exact .inl (lt_min (lt_add_one t) hlt)
      · have hmin : min (t + 1) u = u := min_eq_right (le_trans hle (lt_add_one t).le)
        rw [hmin]
        exact .inr ⟨hle, h⟩
  · rw [hq, ht, zeroTolerance_eq, Extended.finite_sub, Extended.finite_le_finite] at hclose
    exact .inl (by linarith)

/-- The final time is behind the initial one just if its upper bound is. -/
theorem finalStart_behind_iff {first last : Bounds Extended} (hfirst : first.Proper)
    (hlast : last.Proper) {t q : ℚ} (ht : first.guess = .finite t)
    (hq : finalStart first last = .finite q) : t < q ↔ .finite t < last.upper := by
  constructor
  · intro hlt
    obtain ⟨r, hr, -, hupper⟩ := finalStart_within hfirst hlast
    obtain rfl : q = r := Extended.finite.inj (hq.symm.trans hr)
    rcases hlast.upper_cases with h | ⟨u, h⟩
    · rw [h]
      rfl
    · rw [h, Extended.finite_le_finite] at hupper
      rw [h, Extended.finite_lt_finite]
      exact lt_of_lt_of_le hlt hupper
  · intro hupper
    rcases finalStart_behind_or hlast ht hq with hlt | ⟨hle, h⟩
    · exact hlt
    · rw [h, Extended.finite_lt_finite] at hupper
      exact hupper

section Default

variable {l : Layout Extended} {first last : Bounds Extended} (h : l.Timed first last)
include h

/-- Moving the final time is the only thing done to the starts of the variables. -/
theorem default_eq : default l =
    (l.slots.map fun s => startOf s.bounds).set l.finalTimeIndex (finalStart first last) := by
  have hfirst : Layout.entry (l.slots.map fun s => startOf s.bounds) l.initialTimeIndex =
      first.guess := by
    rw [← startOf_eq_guess h.initial_proper]
    simp [Layout.entry, h.initialTime]
  have hlast : Layout.entry (l.slots.map fun s => startOf s.bounds) l.finalTimeIndex =
      last.guess := by
    rw [← startOf_eq_guess h.final_proper]
    simp [Layout.entry, h.finalTime]
  have hupper : Layout.entry l.upper l.finalTimeIndex = last.upper := by
    simp [Layout.entry, Layout.upper, h.finalTime]
  unfold default finalStart
  dsimp only
  rw [hfirst, hlast, hupper]
  split_ifs
  · rfl
  · have hget : (l.slots.map fun s => startOf s.bounds)[l.finalTimeIndex]? = some last.guess := by
      rw [List.getElem?_map, h.finalTime, Option.map_some, startOf_eq_guess h.final_proper]
    obtain ⟨_, hentry⟩ := List.getElem?_eq_some_iff.mp hget
    rw [← hentry, List.set_getElem_self]

theorem default_of_ne {i : Nat} {s : Slot Extended} (hs : l.slots[i]? = some s)
    (hproper : s.bounds.Proper) (hi : i ≠ l.finalTimeIndex) :
    (default l)[i]? = some s.bounds.guess := by
  rw [default_eq h, List.getElem?_set_ne hi.symm, List.getElem?_map, hs, Option.map_some,
    startOf_eq_guess hproper]

theorem default_initialTime : (default l)[l.initialTimeIndex]? = some first.guess :=
  default_of_ne h h.initialTime h.initial_proper (Nat.ne_of_lt (Nat.lt_succ_self _))

theorem default_finalTime : (default l)[l.finalTimeIndex]? = some (finalStart first last) := by
  have hlt : l.finalTimeIndex < (l.slots.map fun s => startOf s.bounds).length := by
    rw [List.length_map]
    exact (List.getElem?_eq_some_iff.mp h.finalTime).1
  rw [default_eq h, List.getElem?_set_self hlt]

/-- Every entry of the default start is a number within its bounds. -/
theorem default_within (hl : l.Bounded) {i : Nat} {s : Slot Extended}
    (hs : l.slots[i]? = some s) : ∃ q, (default l)[i]? = some (.finite q) ∧
      s.bounds.lower ≤ .finite q ∧ .finite q ≤ s.bounds.upper := by
  by_cases hi : i = l.finalTimeIndex
  · subst hi
    obtain rfl := Option.some.inj (h.finalTime.symm.trans hs)
    obtain ⟨q, hq, hwithin⟩ := finalStart_within h.initial_proper h.final_proper
    exact ⟨q, by rw [default_finalTime h, hq], hwithin⟩
  · have hproper : s.bounds.Proper := hl s (List.mem_of_getElem? hs)
    obtain ⟨q, hq, hwithin⟩ := hproper.guess_within
    exact ⟨q, by rw [default_of_ne h hs hproper hi, hq], hwithin⟩

end Default

/-- A start from the bounds: a number within its bounds for each variable, which is the guess of the
bounds except for the final time, and the final time moved behind the initial one if it is not there
and its bounds let it. -/
structure FromBounds (l : Layout Extended) (w : List Extended) (first last : Bounds Extended) :
    Prop where
  length : w.length = l.size
  initialBounds : l.slots[l.initialTimeIndex]? = some ⟨.text "t0", first⟩
  finalBounds : l.slots[l.finalTimeIndex]? = some ⟨.text "tf", last⟩
  within : ∀ (i : Nat) s, l.slots[i]? = some s → ∃ q, w[i]? = some (.finite q) ∧
    s.bounds.lower ≤ .finite q ∧ .finite q ≤ s.bounds.upper
  others : ∀ (i : Nat) s, l.slots[i]? = some s → i ≠ l.finalTimeIndex →
    w[i]? = some s.bounds.guess
  finalTime : ∃ t0, w[l.initialTimeIndex]? = some t0 ∧ w[l.finalTimeIndex]? =
    some (if last.guess - t0 ≤ 1e-14 then Scalar.smaller (t0 + 1.0) last.upper else last.guess)

theorem fromBounds {l : Layout Extended} {first last : Bounds Extended}
    (h : l.Timed first last) (hl : l.Bounded) : FromBounds l (default l) first last where
  length := length_default l
  initialBounds := h.initialTime
  finalBounds := h.finalTime
  within _ _ hs := default_within h hl hs
  others _ _ hs hi := default_of_ne h hs (hl _ (List.mem_of_getElem? hs)) hi
  finalTime := ⟨first.guess, default_initialTime h, default_finalTime h⟩

/-! ### Rounded starts -/

section Rounded

variable {α : Type} [Scalar α] [Faithful α]

/-- Between bounds that hold a number, also a rounded start is a number. -/
theorem startOf_ne_nan {b : Bounds α} (hb : b.exact.Proper) : Scalar.exact (startOf b) ≠ .nan := by
  obtain ⟨⟨hlower, hupper, -⟩, -, -⟩ := Bounds.proper_iff.mp hb
  unfold startOf
  split
  · next hfinite =>
    obtain ⟨u, hu⟩ := Rounding.isFinite_iff.mp hfinite
    exact Faithful.half_mul_ne_nan (Faithful.add_ne_nan hlower hu)
  · exact hlower
  · exact hupper
  · exact Extended.ne_nan_of_finite Differences.exact_zero

theorem entry_ne_nan {xs : List α} (h : ∀ x ∈ xs, Scalar.exact x ≠ .nan) (i : Nat) :
    Scalar.exact (Layout.entry xs i) ≠ .nan := by
  rw [Layout.entry]
  cases hx : xs[i]? with
  | none =>
    exact Extended.ne_nan_of_finite Differences.exact_zero
  | some x => exact h x (List.mem_of_getElem? hx)

theorem default_ne_nan {l : Layout α} (hl : l.Bounded) :
    ∀ x ∈ default l, Scalar.exact x ≠ .nan := by
  have hstarts : ∀ x ∈ l.slots.map fun s => startOf s.bounds, Scalar.exact x ≠ .nan :=
    List.forall_mem_map.mpr fun s hs => startOf_ne_nan (hl s hs)
  have hupper : ∀ x ∈ l.upper, Scalar.exact x ≠ .nan :=
    List.forall_mem_map.mpr fun s hs => (Bounds.proper_iff.mp (hl s hs)).1.2.1
  unfold default
  dsimp only
  split_ifs with hclose
  · intro x hx
    rcases List.mem_or_eq_of_mem_set hx with hx | rfl
    · exact hstarts x hx
    · unfold Scalar.smaller
      split_ifs
      · exact entry_ne_nan hupper _
      · exact Faithful.add_ne_nan (entry_ne_nan hstarts _) Differences.exact_one
  · exact hstarts

end Rounded

end Guess

namespace LayoutBuilder

section Bounded

variable {α : Type} [Scalar α] {r : LayoutRequest α} {b : LayoutBuilder α}
  {calls : List (Setter α)} {l : Layout α}

/-- Bounds from calls were made by the constructor of bounds. -/
def Setter.Made (c : Setter α) : Prop :=
  ∀ x ∈ c.bounds, Bounds.make x.lower x.upper = .ok x

instance (c : Setter α) : Decidable c.Made :=
  decidable_of_iff (∀ x ∈ c.bounds, x.exact.Proper)
    (forall₂_congr fun _ _ => Bounds.make_iff_proper.symm)

theorem build_bounded [Rounding α] (hb : ofRequest r = .ok b) (hcalls : ∀ c ∈ calls, c.Made)
    (hl : (Edit.afterAll Setter.run calls b).build = .ok l) : l.Bounded := by
  have hproper := bounds_afterAll (P := fun x => x.exact.Proper) hb Bounds.free_proper
    fun c hc x hx => Bounds.make_proper (hcalls c hc x hx)
  exact fun s hs => hproper _ (build_bounds hl s hs)

end Bounded

variable {r : LayoutRequest Extended} {b : LayoutBuilder Extended}
  {calls : List (Setter Extended)} {l : Layout Extended}

theorem build_timed (hb : ofRequest r = .ok b) (hcalls : ∀ c ∈ calls, c.Made)
    (hl : (Edit.afterAll Setter.run calls b).build = .ok l) :
    l.Timed (Edit.afterAll Setter.run calls b).initialTime
      (Edit.afterAll Setter.run calls b).finalTime := by
  have hbounded := build_bounded hb hcalls hl
  obtain ⟨hfirst, hlast⟩ := build_times hl
  exact ⟨hfirst, hlast, hbounded _ (List.mem_of_getElem? hfirst),
    hbounded _ (List.mem_of_getElem? hlast)⟩

/-- On every layout that a builder makes, whatever calls were made on it before, the default start
is the guess of the bounds and within them. -/
theorem build_default (hb : ofRequest r = .ok b) (hcalls : ∀ c ∈ calls, c.Made)
    (hl : (Edit.afterAll Setter.run calls b).build = .ok l) :
    ∃ first last, Guess.FromBounds l (Guess.default l) first last := by
  exact ⟨_, _, Guess.fromBounds (build_timed hb hcalls hl) (build_bounded hb hcalls hl)⟩

theorem sampleCalls_made : ∀ c ∈ sampleCalls, c.Made := by decide +kernel

/-- The sample calls and one under which both times start from 3. -/
def closeCalls : List (Setter Extended) := sampleCalls ++ [.times ⟨2.0, 4.0⟩ ⟨1.0, 5.0⟩]

theorem build_default_three : ∃ (b : LayoutBuilder Extended) (l : Layout Extended),
    ofRequest (.ofSizes 3 ⟨1, 0, 1, 1⟩ (.list [.int 2, .int 0])) = .ok b ∧
    (∀ c ∈ closeCalls, c.Made) ∧ (Edit.afterAll Setter.run closeCalls b).build = .ok l ∧
    ∃ first last, Guess.FromBounds l (Guess.default l) first last := by
  obtain ⟨b, hb⟩ : ∃ b : LayoutBuilder Extended,
      ofRequest (.ofSizes 3 ⟨1, 0, 1, 1⟩ (.list [.int 2, .int 0])) = .ok b := ⟨_, rfl⟩
  have hmade : ∀ c ∈ closeCalls, c.Made := by decide +kernel
  obtain ⟨-, l, -, hl, -⟩ := build_afterAll hb closeCalls
  exact ⟨b, l, hb, hmade, hl, build_default hb hmade hl⟩

end LayoutBuilder

end Collocation
