import Collocation.Proofs.Problem.Horizon
import Collocation.Proofs.Transcription.Reading
import Mathlib.Data.Real.Basic

/-! The horizon of a program.  Two mechanisms keep the final time behind the initial one: times that
are both fixed are checked when the functions of a problem are made, and for all others the program
has a constraint.  Together they admit only positive horizons, and always some. -/

namespace Collocation

namespace Extended

def LeReal : Extended → ℝ → Prop
  | .negInf, _ => True
  | .finite q, x => (q : ℝ) ≤ x
  | _, _ => False

def RealLe (x : ℝ) : Extended → Prop
  | .finite q => x ≤ (q : ℝ)
  | .posInf => True
  | _ => False

theorem leReal_cast {e : Extended} {q : ℚ} : e.LeReal q ↔ e ≤ finite q := by
  cases e with
  | finite p => exact Rat.cast_le.trans (finite_le_finite p q).symm
  | negInf => exact iff_of_true trivial rfl
  | _ => exact iff_of_false id Bool.false_ne_true

theorem realLe_cast {e : Extended} {q : ℚ} : RealLe q e ↔ finite q ≤ e := by
  cases e with
  | finite p => exact Rat.cast_le.trans (finite_le_finite q p).symm
  | posInf => exact iff_of_true trivial rfl
  | _ => exact iff_of_false id Bool.false_ne_true

end Extended

namespace Bounds

structure ContainsReal (b : Bounds Extended) (x : ℝ) : Prop where
  lower : b.lower.LeReal x
  upper : Extended.RealLe x b.upper

/-- On rational numbers this is what the order of the extended line says. -/
theorem containsReal_cast {b : Bounds Extended} {q : ℚ} :
    b.ContainsReal q ↔ b.lower ≤ .finite q ∧ .finite q ≤ b.upper :=
  ⟨fun h => ⟨Extended.leReal_cast.mp h.lower, Extended.realLe_cast.mp h.upper⟩,
    fun h => ⟨Extended.leReal_cast.mpr h.1, Extended.realLe_cast.mpr h.2⟩⟩

namespace Proper

variable {b : Bounds Extended} (hb : b.Proper)
include hb

/-- Bounds without a lower side contain numbers below any number. -/
theorem exists_below (h : b.lower = .negInf) (r : ℚ) : ∃ q : ℚ, q ≤ r ∧ b.ContainsReal q := by
  obtain ⟨lower, upper⟩ := b
  obtain rfl : lower = .negInf := h
  have hupper : upper ≠ .negInf := hb.upper
  cases upper with
  | nan => exact absurd hb.ordered (Extended.not_le_nan _)
  | negInf => exact absurd rfl hupper
  | finite u =>
    refine ⟨min r u, min_le_left r u, containsReal_cast.mpr ⟨rfl, ?_⟩⟩
    exact (Extended.finite_le_finite _ _).mpr (min_le_right r u)
  | posInf => exact ⟨r, le_refl r, containsReal_cast.mpr ⟨rfl, rfl⟩⟩

/-- Bounds without an upper side contain numbers above any number. -/
theorem exists_above (h : b.upper = .posInf) (r : ℚ) : ∃ q : ℚ, r ≤ q ∧ b.ContainsReal q := by
  obtain ⟨lower, upper⟩ := b
  obtain rfl : upper = .posInf := h
  have hlower : lower ≠ .posInf := hb.lower
  cases lower with
  | nan => exact absurd hb.ordered (Extended.not_nan_le _)
  | negInf => exact ⟨r, le_refl r, containsReal_cast.mpr ⟨rfl, rfl⟩⟩
  | finite l =>
    refine ⟨max r l, le_max_left r l, containsReal_cast.mpr ⟨?_, rfl⟩⟩
    exact (Extended.finite_le_finite _ _).mpr (le_max_right r l)
  | posInf => exact absurd rfl hlower

/-- A side that is finite is one of the numbers. -/
theorem containsReal_lower {l : ℚ} (h : b.lower = .finite l) : b.ContainsReal l := by
  refine containsReal_cast.mpr ⟨?_, h ▸ hb.ordered⟩
  rw [h, Extended.finite_le_finite]

theorem containsReal_upper {u : ℚ} (h : b.upper = .finite u) : b.ContainsReal u := by
  refine containsReal_cast.mpr ⟨h ▸ hb.ordered, ?_⟩
  rw [h, Extended.finite_le_finite]

theorem exists_containsReal : ∃ q : ℚ, b.ContainsReal q := by
  rcases hb.lower_cases with h | ⟨l, h⟩
  · obtain ⟨q, -, hq⟩ := hb.exists_below h 0
    exact ⟨q, hq⟩
  · exact ⟨l, hb.containsReal_lower h⟩

end Proper

end Bounds

namespace Problem

def leastHorizon : ℚ := 1 / 10 ^ 10

theorem minimumHorizon_eq : (minimumHorizon : Extended) = .finite leastHorizon := by
  show Extended.finite _ = _
  norm_num [leastHorizon]

section Bounds

variable {first last : Bounds Extended} {t0 tf : ℝ}

/-- Times that are both fixed and pass the check are far enough from each other. -/
theorem horizon_of_fixed (hroom : ¬ last.upper ≤ first.lower + minimumHorizon)
    (hfirst : first.isFixed) (hlast : last.isFixed) (h0 : first.ContainsReal t0)
    (hf : last.ContainsReal tf) : Extended.LeReal minimumHorizon (tf - t0) := by
  obtain ⟨lower0, upper0⟩ := first
  obtain ⟨lower1, upper1⟩ := last
  simp only [Bounds.isFixed, Scalar.eq, Bool.and_eq_true, decide_eq_true_eq] at hfirst hlast
  obtain rfl := Extended.le_antisymm hfirst.1 hfirst.2
  obtain rfl := Extended.le_antisymm hlast.1 hlast.2
  obtain ⟨h0l, h0u⟩ := h0
  obtain ⟨hfl, hfu⟩ := hf
  rw [minimumHorizon_eq] at hroom ⊢
  cases lower0 with
  | finite q0 =>
    cases lower1 with
    | finite q1 =>
      rw [Extended.finite_add, Extended.finite_le_finite, not_le] at hroom
      have hlt : ((q0 + leastHorizon : ℚ) : ℝ) < q1 := Rat.cast_lt.mpr hroom
      push_cast at hlt
      have h0 : t0 ≤ q0 := h0u
      have hf : (q1 : ℝ) ≤ tf := hfl
      show (leastHorizon : ℝ) ≤ tf - t0
      linarith
    | negInf => exact hfu.elim
    | _ => exact hfl.elim
  | negInf => exact h0u.elim
  | _ => exact h0l.elim

/-- Bounds that pass the check contain times with the least horizon. -/
theorem exists_horizon (hroom : ¬ last.upper ≤ first.lower + minimumHorizon)
    (hfirst : first.Proper) (hlast : last.Proper) : ∃ q0 q1 : ℚ, first.ContainsReal q0 ∧
      last.ContainsReal q1 ∧ leastHorizon ≤ q1 - q0 := by
  rcases hfirst.lower_cases with h0 | ⟨l, h0⟩
  · obtain ⟨q1, hq1⟩ := hlast.exists_containsReal
    obtain ⟨q0, hle, hq0⟩ := hfirst.exists_below h0 (q1 - leastHorizon)
    exact ⟨q0, q1, hq0, hq1, by linarith⟩
  · rcases hlast.upper_cases with h1 | ⟨u, h1⟩
    · obtain ⟨q1, hle, hq1⟩ := hlast.exists_above h1 (l + leastHorizon)
      exact ⟨l, q1, hfirst.containsReal_lower h0, hq1, by linarith⟩
    · rw [h0, h1, minimumHorizon_eq, Extended.finite_add, Extended.finite_le_finite,
        not_le] at hroom
      exact ⟨l, u, hfirst.containsReal_lower h0, hlast.containsReal_upper h1, by linarith⟩

/-- Bounds that fail the check contain no times with a longer horizon. -/
theorem horizon_le (hroom : last.upper ≤ first.lower + minimumHorizon)
    (h0 : first.ContainsReal t0) (hf : last.ContainsReal tf) :
    Extended.RealLe (tf - t0) minimumHorizon := by
  have h0 := h0.lower
  have hf := hf.upper
  rw [minimumHorizon_eq] at hroom ⊢
  generalize first.lower = lower at h0 hroom
  generalize last.upper = upper at hf hroom
  cases lower with
  | finite l =>
    cases upper with
    | finite u =>
      rw [Extended.finite_add, Extended.finite_le_finite] at hroom
      have hle : (u : ℝ) ≤ (l + leastHorizon : ℚ) := Rat.cast_le.mpr hroom
      push_cast at hle
      have h0 : (l : ℝ) ≤ t0 := h0
      have hf : tf ≤ u := hf
      show tf - t0 ≤ (leastHorizon : ℝ)
      linarith
    | posInf => cases hroom
    | _ => exact hf.elim
  | negInf =>
    cases upper with
    | nan => exact hf.elim
    | negInf => exact hf.elim
    | _ => cases hroom
  | _ => exact h0.elim

end Bounds

end Problem

/-- Real times that are within the bounds of the two time variables, and whose difference is within
those of the constraints on the horizon. -/
structure Program.AdmitsTimes (prog : Program Extended) (t0 tf : ℝ) : Prop where
  initialTime : ∃ lower upper, prog.layout.lower[prog.layout.initialTimeIndex]? = some lower ∧
    prog.layout.upper[prog.layout.initialTimeIndex]? = some upper ∧
    (⟨lower, upper⟩ : Bounds Extended).ContainsReal t0
  finalTime : ∃ lower upper, prog.layout.lower[prog.layout.finalTimeIndex]? = some lower ∧
    prog.layout.upper[prog.layout.finalTimeIndex]? = some upper ∧
    (⟨lower, upper⟩ : Bounds Extended).ContainsReal tf
  duration : ∀ block ∈ prog.blocks, block.kind = .duration →
    ∀ b ∈ block.bounds, b.ContainsReal (tf - t0)

namespace Transcription

variable {p : Problem Extended} {t : Transcription Extended} {prog : Program Extended}
  {r : Registry Extended} {solver : Solver Extended}

def horizonBlock : Block Extended where
  kind := .duration
  point := none
  value s := [s.decision.duration]
  bounds := [⟨Problem.minimumHorizon, Scalar.infinity⟩]

theorem forall_duration (hprog : t.program = .ok prog) {P : Block Extended → Prop} :
    (∀ block ∈ prog.blocks, block.kind = .duration → P block) ↔
      (¬ t.functions.hasFixedTimes → P horizonBlock) := by
  obtain ⟨blocks, hblocks, rfl⟩ := program_parts hprog
  have hduration : t.durationBlocks =
      if t.functions.hasFixedTimes then [] else [horizonBlock] := rfl
  constructor
  · intro h hfree
    refine h horizonBlock (List.mem_append_right _ ?_) rfl
    rw [hduration, if_neg hfree]
    exact List.mem_singleton_self _
  · intro h block hblock hkind
    rcases List.mem_append.mp hblock with hblock | hblock
    · exact absurd hkind (kind_ne_duration hblocks block hblock)
    · rw [hduration] at hblock
      split_ifs at hblock with hfixed
      · cases hblock
      · obtain rfl := List.mem_singleton.mp hblock
        exact h hfixed

/-- The bounds of the times in a program are those of the functions, and there is a constraint on
the horizon unless both times are fixed. -/
theorem admitsTimes_iff (hcreate : create r solver p = .ok t) (hprog : t.program = .ok prog)
    {t0 tf : ℝ} : prog.AdmitsTimes t0 tf ↔ t.functions.initialTime.ContainsReal t0 ∧
      t.functions.finalTime.ContainsReal tf ∧
      (¬ t.functions.hasFixedTimes → Extended.LeReal Problem.minimumHorizon (tf - t0)) := by
  have hblocks : (∀ block ∈ prog.blocks, block.kind = .duration →
      ∀ b ∈ block.bounds, b.ContainsReal (tf - t0)) ↔
      (¬ t.functions.hasFixedTimes → Extended.LeReal Problem.minimumHorizon (tf - t0)) := by
    rw [forall_duration hprog]
    refine imp_congr_right fun _ => ?_
    rw [horizonBlock, List.forall_mem_singleton]
    exact ⟨fun h => h.lower, fun h => ⟨h, trivial⟩⟩
  obtain ⟨index, f, points, quadrature, layout, hf, -, -, hlayout, rfl⟩ := create_parts hcreate
  obtain ⟨blocks, -, rfl⟩ := program_parts hprog
  obtain ⟨ks, -, harranged⟩ := layoutOf_arranged hlayout
  have hslot0 := Range.getElem?_of_single harranged.initialTime
  have hslot1 := Range.getElem?_of_single harranged.finalTime
  have hl0 : layout.lower[layout.initialTimeIndex]? = some f.initialTime.lower := by
    rw [Layout.lower, List.getElem?_map, hslot0]
    rfl
  have hu0 : layout.upper[layout.initialTimeIndex]? = some f.initialTime.upper := by
    rw [Layout.upper, List.getElem?_map, hslot0]
    rfl
  have hl1 : layout.lower[layout.finalTimeIndex]? = some f.finalTime.lower := by
    rw [Layout.lower, List.getElem?_map, hslot1]
    rfl
  have hu1 : layout.upper[layout.finalTimeIndex]? = some f.finalTime.upper := by
    rw [Layout.upper, List.getElem?_map, hslot1]
    rfl
  constructor
  · rintro ⟨⟨l0, u0, hl, hu, h0⟩, ⟨l1, u1, hl', hu', h1⟩, hduration⟩
    obtain rfl := Option.some.inj (hl0.symm.trans hl)
    obtain rfl := Option.some.inj (hu0.symm.trans hu)
    obtain rfl := Option.some.inj (hl1.symm.trans hl')
    obtain rfl := Option.some.inj (hu1.symm.trans hu')
    exact ⟨h0, h1, hblocks.mp hduration⟩
  · rintro ⟨h0, h1, hduration⟩
    exact ⟨⟨_, _, hl0, hu0, h0⟩, ⟨_, _, hl1, hu1, h1⟩, hblocks.mpr hduration⟩

/-- The constraint on the horizon is one on the difference of the times. -/
theorem duration_value (hprog : t.program = .ok prog) (w : List Extended) :
    ∀ block ∈ prog.blocks, block.kind = .duration → block.value (prog.sample (prog.read w)) =
      [Layout.entry w prog.layout.finalTimeIndex -
        Layout.entry w prog.layout.initialTimeIndex] := by
  refine (forall_duration hprog).mpr fun _ => ?_
  obtain ⟨blocks, -, rfl⟩ := program_parts hprog
  rfl

/-- Whatever calls are made on a problem: the programs of it admit only times with the least
horizon, and some times with it; and if its times are refused, their bounds contain none with a
longer horizon. -/
theorem horizon_positive (name : Value Extended) (calls : List (Problem.Call Extended)) :
    (∀ r solver t prog, create r solver (Problem.attempted name calls) = .ok t →
      t.program = .ok prog →
      (∀ t0 tf, prog.AdmitsTimes t0 tf → Extended.LeReal Problem.minimumHorizon (tf - t0)) ∧
      (∃ t0 tf, prog.AdmitsTimes t0 tf) ∧
      ∀ w, ∀ block ∈ prog.blocks, block.kind = .duration →
        block.value (prog.sample (prog.read w)) = [Layout.entry w prog.layout.finalTimeIndex -
          Layout.entry w prog.layout.initialTimeIndex]) ∧
    ∀ upper lower, (Problem.attempted name calls).checkStructure =
        .error (.problem (.noHorizon upper lower)) →
      ∃ first last, (Problem.attempted name calls).initialTime = some first ∧
        (Problem.attempted name calls).finalTime = some last ∧
        ∀ t0 tf, first.ContainsReal t0 → last.ContainsReal tf →
          Extended.RealLe (tf - t0) Problem.minimumHorizon := by
  have htimed := Problem.attempted_timed name calls
  constructor
  · intro r solver t prog hcreate hprog
    obtain ⟨_, f, _, _, _, hf, -, -, -, ht⟩ := create_parts hcreate
    have hfunctions : t.functions = f := by rw [ht]
    obtain ⟨hinitial, hfinal, hroom⟩ := Problem.times_of_functions hf
    have hfirst := htimed.initialTime _ hinitial
    have hlast := htimed.finalTime _ hfinal
    refine ⟨fun t0 tf h => ?_, ?_, duration_value hprog⟩
    · obtain ⟨h0, h1, hduration⟩ := (admitsTimes_iff hcreate hprog).mp h
      rw [hfunctions] at h0 h1 hduration
      by_cases hfixed : f.hasFixedTimes = true
      · obtain ⟨hfix0, hfix1⟩ := (Bool.and_eq_true _ _).mp hfixed
        exact Problem.horizon_of_fixed hroom hfix0 hfix1 h0 h1
      · exact hduration hfixed
    · obtain ⟨q0, q1, h0, h1, hle⟩ := Problem.exists_horizon hroom hfirst hlast
      refine ⟨q0, q1, (admitsTimes_iff hcreate hprog).mpr ?_⟩
      rw [hfunctions]
      refine ⟨h0, h1, fun _ => ?_⟩
      rw [Problem.minimumHorizon_eq, ← Rat.cast_sub]
      exact Rat.cast_le.mpr hle
  · intro upper lower h
    obtain ⟨first, last, hfirst, hlast, hroom⟩ := Problem.no_room_of_refused h
    exact ⟨first, last, hfirst, hlast, fun t0 tf => Problem.horizon_le hroom⟩

namespace Sample

/-- Calls of which the first one fails. -/
def attempts : List (Problem.Call Extended) := .time (.tuple [.int 2, .int 1]) .none :: calls

/-- Calls that leave no room for a horizon: the last one fails after it has set the initial time. -/
def lateAttempts : List (Problem.Call Extended) :=
  [.time (.int 0) (.int 3), .time (.tuple [.int 3, .none]) (.text "late")]

theorem attempted : ∃ t, t.program.isOk = true ∧
    create .initial Sample.solver (.attempted (.text "sample") attempts) = .ok t := by
  obtain ⟨t, ht, hprog⟩ := Except.exists_of_any
    (x := create .initial Sample.solver (.attempted (.text "sample") attempts))
    (p := fun t => t.program.isOk) (by decide +kernel)
  exact ⟨t, hprog, ht⟩

end Sample

theorem horizon_positive_sample :
    (∃ t prog, create .initial Sample.solver (.attempted (.text "sample") Sample.attempts) = .ok t ∧
      t.program = .ok prog ∧
      (∀ t0 tf, prog.AdmitsTimes t0 tf → Extended.LeReal Problem.minimumHorizon (tf - t0)) ∧
      ∃ t0 tf, prog.AdmitsTimes t0 tf) ∧
    ∃ upper lower, (Problem.attempted (.text "late") Sample.lateAttempts).checkStructure =
        .error (.problem (.noHorizon upper lower)) ∧
      ∃ first last,
        (Problem.attempted (.text "late") Sample.lateAttempts).initialTime = some first ∧
        (Problem.attempted (.text "late") Sample.lateAttempts).finalTime = some last ∧
        ∀ t0 tf, first.ContainsReal t0 → last.ContainsReal tf →
          Extended.RealLe (tf - t0) Problem.minimumHorizon := by
  obtain ⟨t, hok, ht⟩ := Sample.attempted
  obtain ⟨prog, hprog⟩ := Except.exists_of_isOk hok
  obtain ⟨hpositive, hexists, -⟩ :=
    (horizon_positive (.text "sample") Sample.attempts).1 _ _ t prog ht hprog
  have hrefused : (Problem.attempted (.text "late") Sample.lateAttempts).checkStructure =
      .error (.problem (.noHorizon (.finite 3) (.finite 3))) := by
    with_unfolding_all rfl
  exact ⟨⟨t, prog, ht, hprog, hpositive, hexists⟩, _, _, hrefused,
    (horizon_positive (.text "late") Sample.lateAttempts).2 _ _ hrefused⟩

end Transcription

end Collocation
