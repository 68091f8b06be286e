import Collocation.Proofs.Guess.Default
import Collocation.Proofs.Transcription.Horizon

/-! The horizon of a default start.  The check of the times compares the end of the final time with
the begin of the initial one, but a start takes the initial time from the middle of its bounds or
from their end, which may be behind the end of the final time. -/

namespace Collocation

namespace Transcription

variable {p : Problem Extended} {t : Transcription Extended} {r : Registry Extended}
  {solver : Solver Extended}

/-- In the layout of a transcription the times stand under the bounds of the problem. -/
theorem layout_timed (hp : p.Timed) (h : create r solver p = .ok t) :
    t.layout.Timed t.functions.initialTime t.functions.finalTime := by
  obtain ⟨hfunctions, -, -, -, harranged⟩ := create_layout h
  obtain ⟨hfirst, hlast, -⟩ := Problem.times_of_functions hfunctions
  exact ⟨Range.getElem?_of_single harranged.initialTime,
    Range.getElem?_of_single harranged.finalTime, hp.initialTime _ hfirst, hp.finalTime _ hlast⟩

/-- Whatever calls are made on a problem: the default start of a transcription of it has a positive
horizon just if the initial time starts below the upper bound of the final time, and otherwise it
has the final time at this bound.  It does where the initial time starts from its lower bound, and
where the final time has no upper bound. -/
theorem default_horizon (name : Value Extended) (calls : List (Problem.Call Extended))
    (h : create r solver (.attempted name calls) = .ok t) : ∃ first last,
    (Problem.attempted name calls).initialTime = some first ∧
    (Problem.attempted name calls).finalTime = some last ∧
    ∃ t0 tf, (Guess.default t.layout)[t.layout.initialTimeIndex]? = some (.finite t0) ∧
      (Guess.default t.layout)[t.layout.finalTimeIndex]? = some (.finite tf) ∧
      first.guess = .finite t0 ∧ (t0 < tf ↔ .finite t0 < last.upper) ∧
      (¬ t0 < tf → last.upper = .finite tf) ∧
      (first.lower = .finite t0 → t0 < tf) ∧ (last.upper = .posInf → t0 < tf) := by
  have htimed := layout_timed (Problem.attempted_timed name calls) h
  obtain ⟨hfirst, hlast, hroom⟩ := Problem.times_of_functions (create_layout h).1
  obtain ⟨t0, h0, -, -⟩ := htimed.initial_proper.guess_within
  obtain ⟨tf, hf, -, -⟩ := Guess.finalStart_within htimed.initial_proper htimed.final_proper
  have hiff := Guess.finalStart_behind_iff htimed.initial_proper htimed.final_proper h0 hf
  refine ⟨_, _, hfirst, hlast, t0, tf, by rw [Guess.default_initialTime htimed, h0],
    by rw [Guess.default_finalTime htimed, hf], h0, hiff, ?behind, ?lower, ?upper⟩
  case behind =>
    intro hnot
    rcases Guess.finalStart_behind_or htimed.final_proper h0 hf with hlt | ⟨-, hupper⟩
    · exact absurd hlt hnot
    · exact hupper
  case lower =>
    intro hlower
    rw [hiff]
    rcases htimed.final_proper.upper_cases with hu | ⟨u, hu⟩
    · rw [hu]
      rfl
    · rw [hlower, hu, Problem.minimumHorizon_eq, Extended.finite_add, Extended.finite_le_finite,
        not_le] at hroom
      rw [hu, Extended.finite_lt_finite]
      have hpositive : 0 < Problem.leastHorizon := by norm_num [Problem.leastHorizon]
      linarith
  case upper =>
    intro hu
    rw [hiff, hu]
    rfl

theorem default_horizon_sample : ∃ t,
    create .initial Sample.solver (.attempted (.text "sample") Sample.attempts) = .ok t ∧
    ∃ first last,
      (Problem.attempted (.text "sample") Sample.attempts).initialTime = some first ∧
      (Problem.attempted (.text "sample") Sample.attempts).finalTime = some last ∧
      ∃ t0 tf, (Guess.default t.layout)[t.layout.initialTimeIndex]? = some (.finite t0) ∧
        (Guess.default t.layout)[t.layout.finalTimeIndex]? = some (.finite tf) ∧
        first.guess = .finite t0 ∧ (t0 < tf ↔ .finite t0 < last.upper) ∧
        (¬ t0 < tf → last.upper = .finite tf) ∧
        (first.lower = .finite t0 → t0 < tf) ∧ (last.upper = .posInf → t0 < tf) := by
  obtain ⟨t, -, ht⟩ := Sample.attempted
  exact ⟨t, ht, default_horizon (.text "sample") Sample.attempts ht⟩

namespace Sample

/-- The sample problem with times whose bounds overlap: it passes the check, as the horizon may
begin at 0 and end at 3. -/
def overlapping : List (Problem.Call Extended) :=
  calls ++ [.time (.tuple [.int 0, .int 10]) (.tuple [.int 0, .int 3])]

end Sample

/-- A default start that ends before it begins. -/
theorem default_not_behind : ∃ t,
    create .initial Sample.solver (.attempted (.text "sample") Sample.overlapping) = .ok t ∧
    (Guess.default t.layout)[t.layout.initialTimeIndex]? = some (.finite 5) ∧
    (Guess.default t.layout)[t.layout.finalTimeIndex]? = some (.finite 3) := by
  obtain ⟨t, ht⟩ := Except.exists_of_isOk
    (show (create .initial Sample.solver
        (.attempted (.text "sample") Sample.overlapping)).isOk = true by
      decide +kernel)
  have htimed := layout_timed (Problem.attempted_timed _ _) ht
  obtain ⟨hfirst, hlast, -⟩ := Problem.times_of_functions (create_layout ht).1
  have hbegin : (Problem.attempted (.text "sample") Sample.overlapping).initialTime =
      some ⟨.finite 0, .finite 10⟩ := by
    with_unfolding_all rfl
  have hend : (Problem.attempted (.text "sample") Sample.overlapping).finalTime =
      some ⟨.finite 0, .finite 3⟩ := by
    with_unfolding_all rfl
  have h0 := Option.some.inj (hfirst.symm.trans hbegin)
  have hf := Option.some.inj (hlast.symm.trans hend)
  refine ⟨t, ht, ?_, ?_⟩
  · rw [Guess.default_initialTime htimed, h0, Bounds.guess_between]
    norm_num
  · rw [Guess.default_finalTime htimed, h0, hf]
    decide +kernel

end Transcription

end Collocation
