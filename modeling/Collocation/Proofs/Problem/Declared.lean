import Collocation.Proofs.Problem.Calls
import Collocation.Proofs.Problem.Intervals

/-! Problems that are declared call by call.  A call adds to what is declared, and the calls for the
times, the dynamics and the kinematic constraints replace what was declared before; after calls that
all succeed a problem holds what is declared. -/

namespace Collocation

variable {α : Type} [Scalar α]

/-- Kinematic constraints or a path constraint as they are declared: a callable, with the bounds of
the multipliers or of the components. -/
structure Condition (α : Type) where
  callable : Supplied (Point α) α
  bounds : Value α

structure Declared (α : Type) where
  times : Option (Value α × Value α) := none
  states : List (Restriction α) := []
  controls : List (Restriction α) := []
  parameters : List (Value α) := []
  dynamics : Option (Supplied (Point α) α) := none
  kinematic : Option (Condition α) := none
  path : List (Condition α) := []

namespace Declared

/-- What a call adds or replaces. -/
def add (d : Declared α) : Problem.Call α → Declared α
  | .time initial final => { d with times := some (initial, final) }
  | .state _ boundary initial final =>
    { d with states := d.states ++ [⟨boundary, initial, final⟩] }
  | .control _ boundary initial final =>
    { d with controls := d.controls ++ [⟨boundary, initial, final⟩] }
  | .parameter _ boundary => { d with parameters := d.parameters ++ [boundary] }
  | .dynamics f => { d with dynamics := some f }
  | .kinematic f _ boundary => { d with kinematic := some ⟨f, boundary⟩ }
  | .path _ f bounds => { d with path := d.path ++ [⟨f, bounds⟩] }
  | .endpointCost .. => d
  | .integralCost .. => d

def ofCalls (calls : List (Problem.Call α)) : Declared α := calls.foldl add {}

end Declared

/-- The intervals of the components of a path constraint: those in a list, or a single one. -/
def Value.intervals : Value α → List (Bounds α)
  | .list items => items.map Value.interval
  | v => [v.interval]

/-- A problem holds what is declared, and it has multipliers exactly if it has kinematic
constraints. -/
structure Problem.Holds (p : Problem α) (d : Declared α) : Prop where
  initialTime : p.initialTime = d.times.map (·.1.interval)
  finalTime : p.finalTime = d.times.map (·.2.interval)
  states : p.states.map Variable.limits = d.states.map Restriction.limits
  controls : p.controls.map Variable.limits = d.controls.map Restriction.limits
  parameters : p.parameters.map (·.bounds) = d.parameters.map Value.interval
  multipliers : ∀ v ∈ p.multipliers, d.kinematic.map (·.bounds.interval) = some v.bounds
  paired : p.kinematic.isSome ↔ p.multipliers ≠ []
  dynamics : p.dynamics.map .evaluator = d.dynamics
  kinematic : p.kinematic.map .evaluator = d.kinematic.map (·.callable)
  path : p.path.map (fun c => (Supplied.evaluator c.evaluator, c.bounds)) =
    d.path.map fun c => (c.callable, c.bounds.intervals)

namespace Problem

omit [Scalar α] in
theorem multiplierNames_ne_nil {v : Value α} {names : List (Value α)}
    (h : multiplierNames v = .ok names) : names ≠ [] := by
  unfold multiplierNames at h
  split at h
  · next n _ =>
    split_ifs at h with hn
    obtain rfl := Except.ok.inj h
    have : n.toNat ≠ 0 := by omega
    simpa using this
  · obtain ⟨items, _, h⟩ := Except.bind_eq_ok.mp h
    split_ifs at h with hempty
    · simp at h
    · obtain rfl : items = names := Except.pure_eq_ok.mp h
      simpa using hempty

theorem listedBounds_eq_ok {name : String} {index : Nat} {items : List (Value α)}
    {bs : List (Bounds α)} (h : listedBounds name index items = .ok bs) :
    bs = items.map Value.interval := by
  induction items generalizing index bs with
  | nil => exact (Except.ok.inj h).symm
  | cons v rest ih =>
    simp only [listedBounds, Except.bind_eq_ok, Except.pure_eq_ok] at h
    obtain ⟨b, hb, bs', hbs, rfl⟩ := h
    rw [Bounds.ofValue_eq_ok hb, ih hbs, List.map_cons]

theorem pathBounds_eq_ok {name : String} {v : Value α} {bs : List (Bounds α)}
    (h : pathBounds name v = .ok bs) : bs = v.intervals := by
  unfold pathBounds at h
  split at h
  · cases h
  · exact listedBounds_eq_ok h
  · next hlist =>
    obtain ⟨b, hb, h⟩ := Except.bind_eq_ok.mp h
    obtain rfl := Except.pure_eq_ok.mp h
    rw [Bounds.ofValue_eq_ok hb]
    unfold Value.intervals
    split
    · exact absurd rfl (hlist _)
    · rfl

variable {p p' : Problem α} {d : Declared α}

/-- A call that succeeds leaves a problem that holds what was declared and what the call declares.
-/
theorem Call.run_holds {c : Call α} (h : c.run.Yields p () p') (hp : p.Holds d) :
    p'.Holds (d.add c) := by
  obtain ⟨e, he, rfl⟩ := run_yields.mp h
  cases makes_of_item he with
  | time hfirst hlast =>
    obtain rfl := Bounds.ofValue_eq_ok hfirst
    obtain rfl := Bounds.ofValue_eq_ok hlast
    exact { hp with initialTime := rfl, finalTime := rfl }
  | @state name boundary initial final v hv =>
    have hlimits := Variable.declare_limits (r := ⟨boundary, initial, final⟩) hv
    exact { hp with states := map_concat_eq hp.states hlimits }
  | @control name boundary initial final v hv =>
    have hlimits := Variable.declare_limits (r := ⟨boundary, initial, final⟩) hv
    exact { hp with controls := map_concat_eq hp.controls hlimits }
  | @parameter name boundary v hv =>
    have hbounds : v.bounds = boundary.interval :=
      congrArg Limits.along (Variable.declare_limits (r := ⟨boundary, .none, .none⟩) hv)
    exact { hp with parameters := map_concat_eq hp.parameters hbounds }
  | dynamics hf =>
    rw [toEvaluator_eq_ok hf]
    exact { hp with dynamics := rfl }
  | @kinematic f g multipliers boundary names declared hf hnames hdeclared =>
    rw [toEvaluator_eq_ok hf]
    have hlength := (Except.mapM_eq_ok.mp hdeclared).length_eq
    have hnil : declared ≠ [] := by
      rw [← List.length_pos_iff, ← hlength, List.length_pos_iff]
      exact multiplierNames_ne_nil hnames
    refine { hp with kinematic := rfl, multipliers := ?_, paired := by simpa [Item.put] using hnil }
    intro v hv
    obtain ⟨n, _, hn⟩ := Except.exists_of_mapM hdeclared hv
    have hlimits := Variable.declare_limits (r := ⟨boundary, .none, .none⟩) hn
    exact congrArg some (congrArg Limits.along hlimits).symm
  | @path name bounds f n g bs _ hf hbounds =>
    have hcondition : (Supplied.evaluator g, bs) = (f, bounds.intervals) := by
      rw [toEvaluator_eq_ok hf, pathBounds_eq_ok hbounds]
    exact { hp with path := map_concat_eq hp.path hcondition }
  | endpointCost => exact { hp with }
  | integralCost => exact { hp with }

/-- A problem that is declared by calls that all succeed holds what they declare. -/
theorem holds_ofCalls {calls : List (Call α)} {name : Value α}
    (h : (Edit.sequence Call.run calls).Yields { name } () p) : p.Holds (.ofCalls calls) := by
  have hnothing : ({ name } : Problem α).Holds {} :=
    ⟨rfl, rfl, rfl, rfl, rfl, by simp, by simp, rfl, rfl, rfl⟩
  exact Edit.sequence_follows Call.run_holds h hnothing

end Problem

end Collocation
