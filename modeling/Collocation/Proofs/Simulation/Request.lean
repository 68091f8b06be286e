import Collocation.Proofs.Problem.Additions
import Collocation.Proofs.Values
import Collocation.Simulation
import Collocation.Simulation.Engine

/-! What an integrator is asked for.  A simulation checks the states of a solution before it asks;
the controls, the parameters and the multipliers are checked by the right-hand side, so only an
integrator that evaluates it learns that one of them does not fit the problem. -/

namespace Collocation

variable {α : Type} [Scalar α]

namespace Functions

variable {f : Functions α} {name context : String}

/-- A row as an argument: it needs as many entries as are expected. -/
theorem argument_ofRow (xs : List α) (expected : Nat) :
    argument (.ofRow xs) expected name context =
      if xs.length = expected then .ok xs
      else .error (.problem (.argument (.wrongLength name context xs.length expected))) := by
  change (Value.ofRow xs).toVector >>= _ = _
  rw [Value.toVector_ofRow]
  rfl

theorem argument_real (t : α) : argument (.real t) 1 name context = .ok [t] := rfl

/-- Rows of the right lengths are accepted, and the dynamics are evaluated there. -/
theorem evalDynamics_of_lengths {t : α} {x u p lam : List α} (hx : x.length = f.sizes.states)
    (hu : u.length = f.sizes.controls) (hp : p.length = f.sizes.parameters)
    (hlam : lam.length = f.sizes.multipliers) :
    f.evalDynamics (.real t) (.ofRow x) (.ofRow u) (.ofRow p) (.ofRow lam) =
      .ok (f.dynamics.at
        { time := t, state := x, control := u, parameter := p, multiplier := lam }) := by
  rw [evalDynamics, pointOf, argument_real, argument_ofRow, argument_ofRow, argument_ofRow,
    argument_ofRow, if_pos hx, if_pos hu, if_pos hp, if_pos hlam]
  rfl

theorem evalDynamics_of_controls_ne {t : α} {x u : List α} (hx : x.length = f.sizes.states)
    (hu : u.length ≠ f.sizes.controls) (p lam : Value α) :
    f.evalDynamics (.real t) (.ofRow x) (.ofRow u) p lam = .error (.problem (.argument
      (.wrongLength "controls" "dynamics" u.length f.sizes.controls))) := by
  rw [evalDynamics, pointOf, argument_real, argument_ofRow, argument_ofRow, if_pos hx, if_neg hu]
  rfl

theorem evalDynamics_of_parameters_ne {t : α} {x u p : List α} (hx : x.length = f.sizes.states)
    (hu : u.length = f.sizes.controls) (hp : p.length ≠ f.sizes.parameters) (lam : Value α) :
    f.evalDynamics (.real t) (.ofRow x) (.ofRow u) (.ofRow p) lam = .error (.problem (.argument
      (.wrongLength "parameters" "dynamics" p.length f.sizes.parameters))) := by
  rw [evalDynamics, pointOf, argument_real, argument_ofRow, argument_ofRow, argument_ofRow,
    if_pos hx, if_pos hu, if_neg hp]
  rfl

end Functions

/-- Numbers that were accepted as positive can be multiplied. -/
theorem Check.exists_product {v w : Value α} {name name' : String} {x y : Number α}
    (hx : Check.positive v name = .ok x) (hy : Check.positive w name' = .ok y) :
    ∃ z, x.product y = .ok z := by
  have hscalar {v : Value α} {name : String} {x : Number α}
      (h : Check.positive v name = .ok x) : ∃ s, Value.scalarOfNumber x = .ok s := by
    unfold Check.positive at h
    split at h
    · next y =>
      obtain ⟨s, hs, h⟩ := Except.bind_eq_ok.mp h
      have hsame : y = x := by
        split at h
        · split_ifs at h
          exact Except.pure_eq_ok.mp h
        · exact absurd h Except.throw_ne_ok
      exact ⟨s, hsame ▸ hs⟩
    · cases h
  obtain ⟨s, hs⟩ := hscalar hx
  obtain ⟨s', hs'⟩ := hscalar hy
  unfold Number.product Number.combine
  split
  · exact ⟨_, rfl⟩
  · exact ⟨.real (s * s'), by rw [hs, hs']; rfl⟩

namespace Simulation

/-- The row of a trajectory at a single time. -/
def rowAt (times : List α) (rows : List (List α)) (width : Nat) (t : α) : List α :=
  (Interpolation.columns times rows width [t]).flatten

@[simp] theorem length_rowAt (times : List α) (rows : List (List α)) (width : Nat) (t : α) :
    (rowAt times rows width t).length = width := by
  rw [rowAt, Interpolation.columns, List.length_flatten, List.map_map]
  have hone : List.length ∘ (fun j => (Interpolation.columnSamples times rows j).eval [t]) =
      fun _ => 1 := by
    funext j
    rw [Function.comp_apply, Interpolation.Samples.length_eval, List.length_singleton]
  rw [hone, List.map_const', List.sum_replicate_nat, List.length_range, Nat.mul_one]

theorem interpolated_real (times : List α) (rows : List (List α)) (width : Nat) (t : α) :
    interpolated times rows width (.real t) = .ok (rowAt times rows width t) := by
  unfold interpolated
  split_ifs with hwidth
  · subst hwidth
    rfl
  · rfl

/-- The multipliers at a single time: zeros if the solution has none. -/
def multipliersAt (f : Functions α) (s : Solution α) (multiplierTimes : List α) (t : α) : List α :=
  if multiplierTimes.isEmpty then List.replicate f.sizes.multipliers 0.0
  else rowAt multiplierTimes s.multipliers s.names.multipliers.length t

theorem rhsAt_real (f : Functions α) (s : Solution α) (multiplierTimes : List α) (t : α)
    (x : List α) : rhsAt f s multiplierTimes (.real t) x =
      f.evalDynamics (.real t) (.ofRow x)
        (.ofRow (rowAt s.times s.controls s.names.controls.length t)) (.ofRow s.parameters)
        (.ofRow (multipliersAt f s multiplierTimes t)) := by
  unfold rhsAt multipliersAt
  rw [interpolated_real]
  split_ifs with hempty
  · rfl
  · rw [interpolated_real]
    rfl

/-- What an integrator is asked for a solution with the given initial state. -/
def request (f : Functions α) (s : Solution α) (q : SimulationRequest α)
    (multiplierTimes initial : List α) : OdeRequest α where
  rhs := rhsAt f s multiplierTimes
  start := s.initialTime
  stop := s.finalTime
  initial := initial
  times := s.times
  maxStep := match q.maxStep with
    | .none => .real Scalar.infinity
    | v => v

/-- A simulation asks its integrator for one thing, whatever integrator it is. -/
def Asks (p : Problem α) (s : Solution α) (q : SimulationRequest α) (r : OdeRequest α) : Prop :=
  ∃ log : OdeResult α → OdeLog α, ∀ solver : OdeSolver α,
    run p s q solver = (solver r).map fun result => (log result, compare p s result)

variable {p : Problem α} {s : Solution α} {q : SimulationRequest α} {f : Functions α}
  {rtol factor : Number α}

theorem run_asks (hrtol : Check.positive q.relativeTolerance "ode_rtol" = .ok rtol)
    (hfactor : Check.positive q.toleranceFactor "ode_atol_factor" = .ok factor)
    (hstates : s.names.states.length = p.states.length) (hf : p.functions = .ok f)
    {multiplierTimes initial : List α} (htimes : s.multiplierTimes = .ok multiplierTimes)
    (hinitial : s.states.head? = some initial) :
    Asks p s q (request f s q multiplierTimes initial) := by
  obtain ⟨absolute, habsolute⟩ := Check.exists_product hrtol hfactor
  let r := request f s q multiplierTimes initial
  let log (result : OdeResult α) : OdeLog α :=
    ⟨q.method, r.start, r.stop, r.initial, rtol, absolute, r.maxStep, result.derivatives⟩
  refine ⟨log, fun solver => ?_⟩
  have hrun : run p s q solver =
      solver r >>= fun result => pure (log result, compare p s result) := by
    simp only [run, hrtol, hfactor, ne_eq, hstates, not_true_eq_false, ↓reduceIte, hf, htimes,
      hinitial, bind, Except.bind, habsolute]
    rfl
  rw [hrun]
  cases solver r <;> rfl

/-- A solution with another number of states never reaches an integrator. -/
theorem run_of_states_ne (hrtol : Check.positive q.relativeTolerance "ode_rtol" = .ok rtol)
    (hfactor : Check.positive q.toleranceFactor "ode_atol_factor" = .ok factor)
    (hstates : s.names.states.length ≠ p.states.length) (solver : OdeSolver α) :
    run p s q solver =
      .error (.data (.stateCount s.names.states.length p.states.length)) := by
  simp only [run, hrtol, hfactor, ne_eq, hstates, not_false_eq_true, ↓reduceIte]
  rfl

/-- The multipliers of a solution are zeros, or as many as the problem has. -/
def MultipliersFit (f : Functions α) (s : Solution α) (multiplierTimes : List α) : Prop :=
  multiplierTimes = [] ∨ s.names.multipliers.length = f.sizes.multipliers

theorem MultipliersFit.length {multiplierTimes : List α}
    (h : MultipliersFit f s multiplierTimes) (t : α) :
    (multipliersAt f s multiplierTimes t).length = f.sizes.multipliers := by
  unfold multipliersAt
  split_ifs with hempty
  · exact List.length_replicate
  · rw [length_rowAt]
    exact h.resolve_left fun hnil => hempty (List.isEmpty_iff.mpr hnil)

/-- A solution with another number of states is refused, and no integrator is asked. With the right
number an integrator is asked: it learns from the right-hand side, and only there, that the solution
has another number of controls or parameters, which is a fault of the arguments. -/
theorem asks_of_sizes (hrtol : Check.positive q.relativeTolerance "ode_rtol" = .ok rtol)
    (hfactor : Check.positive q.toleranceFactor "ode_atol_factor" = .ok factor)
    (hf : p.functions = .ok f) :
    (s.names.states.length ≠ f.sizes.states → ∀ solver, run p s q solver =
      .error (.data (.stateCount s.names.states.length f.sizes.states))) ∧
    (s.names.states.length = f.sizes.states → ∀ multiplierTimes initial,
      s.multiplierTimes = .ok multiplierTimes → s.states.head? = some initial →
      ∃ r, Asks p s q r ∧ ∀ (t : α) (x : List α), x.length = f.sizes.states →
        (s.names.controls.length ≠ f.sizes.controls → r.rhs (.real t) x =
          .error (.problem (.argument (.wrongLength "controls" "dynamics"
            s.names.controls.length f.sizes.controls)))) ∧
        (s.names.controls.length = f.sizes.controls →
          s.parameters.length ≠ f.sizes.parameters → r.rhs (.real t) x =
          .error (.problem (.argument (.wrongLength "parameters" "dynamics"
            s.parameters.length f.sizes.parameters)))) ∧
        (s.names.controls.length = f.sizes.controls →
          s.parameters.length = f.sizes.parameters → MultipliersFit f s multiplierTimes →
          ∃ dx, r.rhs (.real t) x = .ok dx ∧ dx.length = f.sizes.states)) := by
  have hmakes := Problem.functions_eq_ok.mp hf
  have hsize : f.sizes.states = p.states.length := congrArg Dimensions.states hmakes.sizes_eq
  constructor
  · intro hstates solver
    rw [hsize] at hstates ⊢
    exact run_of_states_ne hrtol hfactor hstates solver
  · intro hstates multiplierTimes initial htimes hinitial
    refine ⟨_, run_asks hrtol hfactor (hstates.trans hsize) hf htimes hinitial,
      fun t x hx => ?_⟩
    have hcontrols := length_rowAt s.times s.controls s.names.controls.length t
    change (_ → rhsAt f s multiplierTimes (.real t) x = _) ∧
      (_ → _ → rhsAt f s multiplierTimes (.real t) x = _) ∧
      (_ → _ → _ → ∃ dx, rhsAt f s multiplierTimes (.real t) x = .ok dx ∧ _)
    rw [rhsAt_real]
    refine ⟨fun hu => ?_, fun hu hp => ?_, fun hu hp hlam => ?_⟩
    · rw [Functions.evalDynamics_of_controls_ne hx (by rwa [hcontrols]), hcontrols]
    · exact Functions.evalDynamics_of_parameters_ne hx (hcontrols.trans hu) hp _
    · refine ⟨_, Functions.evalDynamics_of_lengths hx (hcontrols.trans hu) hp (hlam.length t), ?_⟩
      rw [VectorFunction.length_at]
      exact hmakes.counted.dynamics

namespace Sample

/-- A solution with a state and no control. -/
def coasting : Solution Extended where
  times := [0.0, 1.0]
  states := [[0.0], [0.0]]
  controls := [[], []]
  multipliers := []
  multiplierIndices := []
  parameters := []
  meshPoints := [0.0, 1.0]
  initialTime := 0.0
  finalTime := 1.0
  objective := 0.0
  breakdown := []
  status := .converged
  iterations := 0
  message := .text "done"
  names := ⟨[.text "x"], [], [], []⟩
  scheme := .text "trapezoidal"
  statistics := []

theorem standard_accepted : ∃ rtol factor,
    Check.positive (SimulationRequest.standard (α := Extended)).relativeTolerance "ode_rtol" =
      .ok rtol ∧
    Check.positive (SimulationRequest.standard (α := Extended)).toleranceFactor
      "ode_atol_factor" = .ok factor := by
  obtain ⟨rtol, hrtol⟩ := Except.exists_of_isOk (x := Check.positive
    (SimulationRequest.standard (α := Extended)).relativeTolerance "ode_rtol") (by decide +kernel)
  obtain ⟨factor, hfactor⟩ := Except.exists_of_isOk (x := Check.positive
    (SimulationRequest.standard (α := Extended)).toleranceFactor "ode_atol_factor")
    (by decide +kernel)
  exact ⟨rtol, factor, hrtol, hfactor⟩

end Sample

/-- A state that coasts along a problem that has a control. -/
theorem asks_of_sizes_sample : ∃ p f r, Problem.functions p = .ok f ∧
    Asks p Sample.coasting .standard r ∧ r.rhs (.real 0.0) [0.0] = .error (.problem (.argument
      (.wrongLength "controls" "dynamics" 0 1))) := by
  let p := Problem.attempted (.text "p") Problem.Sample.driven
  obtain ⟨f, hf, hsizes⟩ := Problem.Sample.driven_sizes
  obtain ⟨rtol, factor, hrtol, hfactor⟩ := Sample.standard_accepted
  obtain ⟨r, hr, hrhs⟩ := (asks_of_sizes (s := Sample.coasting) hrtol hfactor hf).2
    (by rw [hsizes]; rfl) [] [0.0] rfl rfl
  have hcontrols := (hrhs 0.0 [0.0] (by rw [hsizes]; rfl)).1 (by rw [hsizes]; decide)
  rw [hsizes] at hcontrols
  exact ⟨p, f, r, hf, hr, hcontrols⟩

/-- A solution that does not fit may be simulated. -/
theorem not_always_refused : ¬ ∀ (p : Problem Extended) (s : Solution Extended)
    (q : SimulationRequest Extended) (f : Functions Extended) (rtol factor : Number Extended)
    (solver : OdeSolver Extended), p.functions = .ok f →
    Check.positive q.relativeTolerance "ode_rtol" = .ok rtol →
    Check.positive q.toleranceFactor "ode_atol_factor" = .ok factor →
    (s.names.states.length ≠ f.sizes.states ∨ s.names.controls.length ≠ f.sizes.controls ∨
      s.parameters.length ≠ f.sizes.parameters) →
    Raises (run p s q solver) .dataIntegrity := by
  intro h
  let p := Problem.attempted (.text "p") Problem.Sample.driven
  obtain ⟨f, hf, hsizes⟩ := Problem.Sample.driven_sizes
  obtain ⟨rtol, factor, hrtol, hfactor⟩ := Sample.standard_accepted
  have hraises := h p Sample.coasting .standard f rtol factor (OdeEngine.probe []).run hf hrtol
    hfactor (.inr (.inl (by rw [hsizes]; decide)))
  exact absurd hraises (by decide +kernel)

end Simulation

end Collocation
