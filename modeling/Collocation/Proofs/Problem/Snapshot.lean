import Collocation.Proofs.Problem.Declared
import Collocation.Proofs.Problem.Functions

/-! The functions of a declared problem.  They are what the declared callables returned, with as
many components as there are variables or bounds for them. -/

namespace Collocation

variable {α : Type} [Scalar α]

/-- The intervals of `n` components: a single one stands for all of them. -/
def Value.componentIntervals (v : Value α) (n : Nat) : List (Bounds α) :=
  match v.intervals with
  | [b] => List.replicate n b
  | bs => bs

/-- A path function is what the callable of a condition returned, with an interval for each
component. -/
structure PathFunction.Of (g : PathFunction α) (c : Condition α) (setting : Setting) : Prop where
  returned : ∃ e what, c.callable = .evaluator e ∧ e.call setting what = .ok g.function
  bounds : g.bounds = c.bounds.componentIntervals g.function.length
  length : g.bounds.length = g.function.length

/-- Functions are what the declared callables returned. Dynamics have a component for each state,
and kinematic constraints have one for each multiplier; without kinematic constraints there are no
multipliers. -/
structure Functions.Of (f : Functions α) (d : Declared α) : Prop where
  states : f.sizes.states = d.states.length
  controls : f.sizes.controls = d.controls.length
  parameters : f.sizes.parameters = d.parameters.length
  multipliers : f.sizes.multipliers = 0 ↔ f.kinematic = none
  times : d.times.map (fun t => (t.1.interval, t.2.interval)) = some (f.initialTime, f.finalTime)
  dynamics : ∃ e, d.dynamics = some (.evaluator e) ∧
    e.callSized ⟨f.sizes, f.kinematic.isSome⟩ f.sizes.states "Dynamics" = .ok f.dynamics
  kinematic : ∀ g ∈ f.kinematic, ∃ e, d.kinematic.map (·.callable) = some (.evaluator e) ∧
    e.callSized ⟨f.sizes, false⟩ f.sizes.multipliers "Kinematic constraints" = .ok g
  declared : f.kinematic.isSome = d.kinematic.isSome
  path : List.Forall₂ (fun g c => g.Of c ⟨f.sizes, false⟩) f.path d.path

namespace Evaluator

variable {β : Type}

theorem callSized_eq_ok {e : Evaluator β α} {setting : Setting} {size : Nat} {what : String}
    {f : VectorFunction β α} :
    e.callSized setting size what = .ok f ↔ e.call setting what = .ok f ∧ f.length = size := by
  simp only [callSized, Except.bind_eq_ok]
  constructor
  · rintro ⟨g, hg, h⟩
    by_cases hsize : g.length = size
    · rw [if_neg (not_not.mpr hsize)] at h
      obtain rfl := Except.pure_eq_ok.mp h
      exact ⟨hg, hsize⟩
    · simp [hsize] at h
  · rintro ⟨hf, hsize⟩
    exact ⟨f, hf, by simp [hsize]⟩

end Evaluator

omit [Scalar α] in
@[simp] theorem VectorFunction.length_at {β : Type} (f : VectorFunction β α) (b : β) :
    (f.at b).length = f.length := List.length_map _

namespace Functions

theorem Of.length_dynamics {f : Functions α} {d : Declared α} (hf : f.Of d) :
    f.dynamics.length = f.sizes.states := by
  obtain ⟨_, _, he⟩ := hf.dynamics
  exact (Evaluator.callSized_eq_ok.mp he).2

theorem Of.length_kinematic {f : Functions α} {d : Declared α} (hf : f.Of d)
    {g : VectorFunction (Point α) α} (hg : f.kinematic = some g) :
    g.length = f.sizes.multipliers := by
  obtain ⟨_, _, he⟩ := hf.kinematic g hg
  exact (Evaluator.callSized_eq_ok.mp he).2

omit [Scalar α] in
theorem length_componentBounds {name : String} {size : Nat} {bounds bs : List (Bounds α)}
    (h : componentBounds name size bounds = .ok bs) : bs.length = size := by
  simp only [componentBounds] at h
  split_ifs at h with hlength
  exact Except.ok.inj h ▸ hlength

/-- A path constraint has bounds for each of its components. -/
theorem length_ofPath {setting : Setting} {c : PathConstraint α} {g : PathFunction α}
    (h : ofPath setting c = .ok g) : g.bounds.length = g.function.length := by
  simp only [ofPath, Except.bind_eq_ok, Except.pure_eq_ok] at h
  obtain ⟨f, -, bs, hbs, -, -, rfl⟩ := h
  exact length_componentBounds hbs

theorem componentBounds_eq_ok {name : String} {size : Nat} {v : Value α} {bs : List (Bounds α)}
    (h : componentBounds name size v.intervals = .ok bs) :
    bs = v.componentIntervals size ∧ bs.length = size := by
  have hcheck : componentBounds name size v.intervals =
      if (v.componentIntervals size).length = size then .ok (v.componentIntervals size)
      else .error (.problem (.pathBounds name size (v.componentIntervals size).length)) := rfl
  rw [hcheck] at h
  split_ifs at h with hlength
  obtain rfl := Except.ok.inj h
  exact ⟨rfl, hlength⟩

theorem ofPath_eq_ok {setting : Setting} {c : PathConstraint α} {d : Condition α}
    {g : PathFunction α} (h : ofPath setting c = .ok g)
    (hc : (Supplied.evaluator c.evaluator, c.bounds) = (d.callable, d.bounds.intervals)) :
    g.Of d setting := by
  simp only [ofPath, Except.bind_eq_ok, Except.pure_eq_ok] at h
  obtain ⟨f, hf, bs, hbs, _, _, rfl⟩ := h
  obtain ⟨hcallable, hbounds⟩ := Prod.mk.inj hc
  rw [hbounds] at hbs
  obtain ⟨rfl, hlength⟩ := componentBounds_eq_ok hbs
  exact ⟨⟨_, _, hcallable.symm, hf⟩, rfl, hlength⟩

end Functions

/-- Dynamics with a component for each state, kinematic constraints with one for each multiplier,
and path constraints with bounds for each component. -/
structure Functions.Counted (f : Functions α) : Prop where
  dynamics : f.dynamics.length = f.sizes.states
  kinematic : ∀ g ∈ f.kinematic, g.length = f.sizes.multipliers
  path : ∀ c ∈ f.path, c.bounds.length = c.function.length

theorem Functions.Of.counted {f : Functions α} {d : Declared α} (hf : f.Of d) : f.Counted where
  dynamics := hf.length_dynamics
  kinematic _ hg := hf.length_kinematic hg
  path := (forall_mem_iff_forall₂ hf.path (Q := fun g _ => g.bounds.length = g.function.length)
    fun _ => Iff.rfl).mpr (hf.path.imp fun _ _ h => h.length)

namespace Problem

theorem Makes.counted {p : Problem α} {f : Functions α} (h : p.Makes f) : f.Counted where
  dynamics := by
    obtain ⟨e, -, he⟩ := h.dynamics
    rw [h.sizes_eq]
    exact (Evaluator.callSized_eq_ok.mp he).2
  kinematic g hg := by
    obtain ⟨-, hreturned⟩ := Except.option_mapM_eq_ok.mp h.kinematic
    obtain ⟨e, -, he⟩ := hreturned g hg
    rw [h.sizes_eq]
    exact (Evaluator.callSized_eq_ok.mp he).2
  path c hc := by
    obtain ⟨declared, -, hmade⟩ := Except.exists_of_mapM h.path hc
    exact Functions.length_ofPath hmade

/-- The functions of a problem that holds what is declared. -/
theorem functions_of {p : Problem α} {d : Declared α} {f : Functions α} (hp : p.Holds d)
    (h : p.functions = .ok f) : f.Of d := by
  have hmakes := functions_eq_ok.mp h
  have hsizes := hmakes.sizes_eq
  obtain ⟨e, he, hdynamics⟩ := hmakes.dynamics
  obtain ⟨hsome, hreturned⟩ := Except.option_mapM_eq_ok.mp hmakes.kinematic
  refine ⟨?states, ?controls, ?parameters, ?multipliers, ?times, ⟨e, ?_, ?_⟩, ?kinematic,
    ?declared, ?path⟩
  case states => simpa [hsizes, sizes] using congrArg List.length hp.states
  case controls => simpa [hsizes, sizes] using congrArg List.length hp.controls
  case parameters => simpa [hsizes, sizes] using congrArg List.length hp.parameters
  case multipliers =>
    rw [hsizes, ← Option.not_isSome_iff_eq_none, ← hsome, hp.paired, not_not, sizes,
      List.length_eq_zero_iff]
  case times =>
    have h0 := hmakes.initialTime
    have h1 := hmakes.finalTime
    rw [hp.initialTime] at h0
    rw [hp.finalTime] at h1
    obtain ⟨t, ht, h0⟩ := Option.map_eq_some_iff.mp h0
    rw [ht, Option.map_some, Option.some.injEq] at h1
    rw [ht, Option.map_some, h0, h1]
  · rw [← hp.dynamics, he, Option.map_some]
  · rwa [hsizes, ← hsome]
  case kinematic =>
    intro g hg
    obtain ⟨e', he', hg'⟩ := hreturned g hg
    refine ⟨e', ?_, by rwa [hsizes]⟩
    rw [← hp.kinematic, Option.mem_def.mp he', Option.map_some]
  case declared =>
    have := congrArg Option.isSome hp.kinematic
    rw [Option.isSome_map, Option.isSome_map] at this
    rw [← hsome, this]
  case path =>
    have hheld := List.forall₂_map_left_iff.mp (List.forall₂_map_right_iff.mp
      (List.forall₂_eq_eq_eq ▸ hp.path))
    rw [hsizes]
    exact forall₂_trans (Except.mapM_eq_ok.mp hmakes.path) hheld Functions.ofPath_eq_ok

end Problem

end Collocation
