import Collocation.Problem.Functions
import Collocation.Proofs.Outcome

/-! When a problem has functions, and which.  It has to be complete: its times leave room for a
horizon, it has states and dynamics, and its names are distinct within their sort.  Each cost makes
a function of its kind, and within a kind functions come in the order of declaration. -/

namespace Collocation

variable {α : Type}

def CostTerm.isEndpoint (c : CostTerm α) : Bool :=
  match c.evaluator with
  | .endpoint _ => true
  | .integral _ => false

variable [Scalar α]

/-- The function of an endpoint cost. -/
inductive CostFunction.FromEndpoint (s : Setting) :
    CostTerm α → CostFunction (Endpoints α) α → Prop where
  | intro {name : String} {weight : α} {e : Evaluator (Endpoints α) α}
      {f : CostFunction (Endpoints α) α} (h : Functions.ofEndpoint s name weight e = .ok f) :
      FromEndpoint s ⟨name, .endpoint e, weight⟩ f

/-- The function of an integral cost. -/
inductive CostFunction.FromIntegral (s : Setting) :
    CostTerm α → CostFunction (Point α) α → Prop where
  | intro {name : String} {weight : α} {e : Evaluator (Point α) α}
      {f : CostFunction (Point α) α} (h : Functions.ofIntegral s name weight e = .ok f) :
      FromIntegral s ⟨name, .integral e, weight⟩ f

theorem CostFunction.FromEndpoint.name_eq {s : Setting} {c : CostTerm α}
    {f : CostFunction (Endpoints α) α} (h : FromEndpoint s c f) : c.name = f.name := by
  obtain ⟨h⟩ := h
  simp only [Functions.ofEndpoint, Except.bind_eq_ok, Except.pure_eq_ok] at h
  obtain ⟨_, _, _, _, rfl⟩ := h
  rfl

theorem CostFunction.FromIntegral.name_eq {s : Setting} {c : CostTerm α}
    {f : CostFunction (Point α) α} (h : FromIntegral s c f) : c.name = f.name := by
  obtain ⟨h⟩ := h
  simp only [Functions.ofIntegral, Except.bind_eq_ok, Except.pure_eq_ok] at h
  obtain ⟨_, _, _, _, rfl⟩ := h
  rfl

namespace Functions

theorem ofCosts_eq_ok {s : Setting} {costs : List (CostTerm α)}
    {endpoint : List (CostFunction (Endpoints α) α)} {integral : List (CostFunction (Point α) α)} :
    ofCosts s costs = .ok (endpoint, integral) ↔
      List.Forall₂ (CostFunction.FromEndpoint s) (costs.filter (·.isEndpoint)) endpoint ∧
      List.Forall₂ (CostFunction.FromIntegral s) (costs.filter (!·.isEndpoint)) integral := by
  unfold ofCosts
  induction costs generalizing endpoint integral with
  | nil =>
    rw [ofCostsIn, Except.pure_eq_ok]
    simp [eq_comm]
  | cons c rest ih =>
    obtain ⟨name, evaluator, weight⟩ := c
    cases evaluator with
    | endpoint e =>
      rw [List.filter_cons_of_pos rfl, List.filter_cons_of_neg (by simp [CostTerm.isEndpoint])]
      simp only [ofCostsIn, Except.bind_eq_ok, Except.pure_eq_ok, Prod.exists, Prod.mk.injEq]
      constructor
      · rintro ⟨f, hf, endpoint, integral, hrest, rfl, rfl⟩
        obtain ⟨hendpoint, hintegral⟩ := ih.mp hrest
        exact ⟨.cons (.intro hf) hendpoint, hintegral⟩
      · rintro ⟨hendpoint, hintegral⟩
        cases hendpoint with
        | cons hf hendpoint =>
          cases hf with
          | intro hf => exact ⟨_, hf, _, _, ih.mpr ⟨hendpoint, hintegral⟩, rfl, rfl⟩
    | integral e =>
      rw [List.filter_cons_of_neg (by simp [CostTerm.isEndpoint]), List.filter_cons_of_pos rfl]
      simp only [ofCostsIn, Except.bind_eq_ok, Except.pure_eq_ok, Prod.exists, Prod.mk.injEq]
      constructor
      · rintro ⟨f, hf, endpoint, integral, hrest, rfl, rfl⟩
        obtain ⟨hendpoint, hintegral⟩ := ih.mp hrest
        exact ⟨hendpoint, .cons (.intro hf) hintegral⟩
      · rintro ⟨hendpoint, hintegral⟩
        cases hintegral with
        | cons hf hintegral =>
          cases hf with
          | intro hf => exact ⟨_, hf, _, _, ih.mpr ⟨hendpoint, hintegral⟩, rfl, rfl⟩

end Functions

/-- The names of all costs, sorted into the two kinds. -/
def Functions.costNames (f : Functions α) : List String :=
  f.endpointCosts.map (·.name) ++ f.integralCosts.map (·.name)

namespace Check

theorem distinctFrom_eq_ok (seen names : List String) (sort : String) :
    (distinctFrom (seen.map .text) sort (names.map .text) : Outcome α Unit) = .ok () ↔
      names.Nodup ∧ ∀ n ∈ names, n ∉ seen := by
  induction names generalizing seen with
  | nil => simp [distinctFrom]
  | cons n rest ih =>
    have hseen : (seen.map (Value.text (α := α))).any (·.same (.text n)) = true ↔ n ∈ seen := by
      simp [Value.same]
    have hrest := ih (n :: seen)
    rw [List.map_cons] at hrest
    simp only [List.map_cons, distinctFrom, Value.checkKey, Except.bind_eq_ok, hrest,
      Except.if_throw_eq_ok, hseen, List.nodup_cons, List.mem_cons, forall_eq_or_imp, not_or]
    constructor
    · rintro ⟨_, _, hn, hnodup, hout⟩
      exact ⟨⟨fun h => (hout n h).1 rfl, hnodup⟩, hn, fun m hm => (hout m hm).2⟩
    · rintro ⟨⟨hn, hnodup⟩, hnseen, hout⟩
      refine ⟨(), trivial, hnseen, hnodup, fun m hm => ⟨?_, hout m hm⟩⟩
      rintro rfl
      exact hn hm

theorem distinct_eq_ok {γ : Type} {items : List γ} {text : γ → String} {sort : String} {u : Unit} :
    (distinct (items.map fun x => .text (text x)) sort : Outcome α Unit) = .ok u ↔
      (items.map text).Nodup := by
  have hnames : (items.map fun x => (.text (text x) : Value α)) = (items.map text).map .text := by
    rw [List.map_map]
    rfl
  have h := distinctFrom_eq_ok (α := α) [] (items.map text) sort
  rw [List.map_nil] at h
  rw [distinct, hnames, h]
  simp

end Check

namespace Problem

/-- A problem has all that its functions need, and its names are distinct within their sort. -/
structure Complete (p : Problem α) : Prop where
  times : ∃ first last, p.initialTime = some first ∧ p.finalTime = some last ∧
    ¬ last.upper ≤ first.lower + minimumHorizon
  states : p.states ≠ []
  dynamics : p.dynamics ≠ none
  stateNames : (p.states.map (·.name)).Nodup
  controlNames : (p.controls.map (·.name)).Nodup
  parameterNames : (p.parameters.map (·.name)).Nodup
  multiplierNames : (p.multipliers.map (·.name)).Nodup
  costNames : (p.costs.map (·.name)).Nodup
  pathNames : (p.path.map (·.name)).Nodup

omit [Scalar α] in
theorem declared_eq_ok {β : Type} {x : Option β} {fault : ProblemFault α} {y : β} :
    declared x fault = .ok y ↔ x = some y := by
  cases x <;> simp [declared]

theorem checkStructure_eq_ok {p : Problem α} {u : Unit} :
    p.checkStructure = .ok u ↔ p.Complete := by
  simp only [checkStructure, Except.bind_eq_ok, Except.if_throw_eq_ok, Check.distinct_eq_ok,
    List.isEmpty_iff, Option.isNone_iff_eq_none]
  constructor
  · rintro ⟨first, hfirst, last, hlast, hroom, hstates, hdynamics, -, h1, -, h2, -, h3, -, h4, -,
      h5, h6⟩
    exact ⟨⟨first, last, declared_eq_ok.mp hfirst, declared_eq_ok.mp hlast, hroom⟩,
      hstates, hdynamics, h1, h2, h3, h4, h5, h6⟩
  · rintro ⟨⟨first, last, hfirst, hlast, hroom⟩, hstates, hdynamics, h1, h2, h3, h4, h5, h6⟩
    exact ⟨first, declared_eq_ok.mpr hfirst, last, declared_eq_ok.mpr hlast, hroom,
      hstates, hdynamics, (), h1, (), h2, (), h3, (), h4, (), h5, h6⟩

/-- The functions of a problem: its names and times, and what its callables returned when they were
called with its sizes. -/
structure Makes (p : Problem α) (f : Functions α) : Prop where
  complete : p.Complete
  stateNames : f.stateNames = p.states.map (·.name)
  controlNames : f.controlNames = p.controls.map (·.name)
  multiplierNames : f.multiplierNames = p.multipliers.map (·.name)
  parameterNames : f.parameterNames = p.parameters.map (·.name)
  initialTime : p.initialTime = some f.initialTime
  finalTime : p.finalTime = some f.finalTime
  dynamics : ∃ e, p.dynamics = some e ∧
    e.callSized ⟨p.sizes, p.kinematic.isSome⟩ p.sizes.states "Dynamics" = .ok f.dynamics
  kinematic : (p.kinematic.mapM fun g =>
    g.callSized ⟨p.sizes, false⟩ p.sizes.multipliers "Kinematic constraints") = .ok f.kinematic
  path : p.path.mapM (Functions.ofPath ⟨p.sizes, false⟩) = .ok f.path
  endpointCosts : List.Forall₂ (CostFunction.FromEndpoint ⟨p.sizes, false⟩)
    (p.costs.filter (·.isEndpoint)) f.endpointCosts
  integralCosts : List.Forall₂ (CostFunction.FromIntegral ⟨p.sizes, false⟩)
    (p.costs.filter (!·.isEndpoint)) f.integralCosts

theorem functions_eq_ok {p : Problem α} {f : Functions α} : p.functions = .ok f ↔ p.Makes f := by
  simp only [functions, functionsIn, monadLift_self, Except.bind_eq_ok, Except.pure_eq_ok]
  constructor
  · rintro ⟨u, hcheck, first, hfirst, last, hlast, e, he, xdot, hxdot, kinematic, hkinematic, path,
      hpath, ⟨endpoint, integral⟩, hcosts, rfl⟩
    obtain ⟨hendpoint, hintegral⟩ := Functions.ofCosts_eq_ok.mp hcosts
    exact {
      complete := checkStructure_eq_ok.mp hcheck
      stateNames := rfl
      controlNames := rfl
      multiplierNames := rfl
      parameterNames := rfl
      initialTime := declared_eq_ok.mp hfirst
      finalTime := declared_eq_ok.mp hlast
      dynamics := ⟨e, declared_eq_ok.mp he, hxdot⟩
      kinematic := hkinematic
      path := hpath
      endpointCosts := hendpoint
      integralCosts := hintegral }
  · intro h
    obtain ⟨e, he, hxdot⟩ := h.dynamics
    have hcosts := Functions.ofCosts_eq_ok.mpr ⟨h.endpointCosts, h.integralCosts⟩
    refine ⟨(), checkStructure_eq_ok.mpr h.complete, _,
      declared_eq_ok.mpr h.initialTime, _, declared_eq_ok.mpr h.finalTime, e,
      declared_eq_ok.mpr he, _, hxdot, _, h.kinematic, _, h.path, _, hcosts, ?_⟩
    rw [← h.stateNames, ← h.controlNames, ← h.multiplierNames, ← h.parameterNames]

theorem Makes.sizes_eq {p : Problem α} {f : Functions α} (h : p.Makes f) : f.sizes = p.sizes := by
  simp only [Functions.sizes, sizes, h.stateNames, h.controlNames, h.multiplierNames,
    h.parameterNames, List.length_map]

/-- No cost is lost or merged: functions have the names of the costs, each once. -/
theorem Makes.perm_costNames {p : Problem α} {f : Functions α} (h : p.Makes f) :
    (p.costs.map (·.name)).Perm f.costNames := by
  have hendpoint : (p.costs.filter (·.isEndpoint)).map (·.name) = f.endpointCosts.map (·.name) :=
    map_eq_map h.endpointCosts CostFunction.FromEndpoint.name_eq
  have hintegral : (p.costs.filter (!·.isEndpoint)).map (·.name) = f.integralCosts.map (·.name) :=
    map_eq_map h.integralCosts CostFunction.FromIntegral.name_eq
  rw [Functions.costNames, ← hendpoint, ← hintegral, ← List.map_append]
  exact (List.filter_append_perm CostTerm.isEndpoint p.costs).symm.map _

theorem Makes.nodup_costNames {p : Problem α} {f : Functions α} (h : p.Makes f) :
    f.costNames.Nodup :=
  h.perm_costNames.nodup_iff.mp h.complete.costNames

end Problem

end Collocation
