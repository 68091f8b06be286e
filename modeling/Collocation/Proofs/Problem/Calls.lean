import Collocation.Proofs.Outcome

/-! What one call does to a problem.  The arguments alone decide whether a call succeeds and what it
then puts into the problem; a call that fails may leave a part of it behind. -/

namespace Collocation

variable {α : Type} [Scalar α]

/-- A call that declares a part of a problem. -/
inductive Problem.Call (α : Type) where
  | time (initial final : Value α)
  | state (name boundary initial final : Value α)
  | control (name boundary initial final : Value α)
  | parameter (name boundary : Value α)
  | dynamics (f : Supplied (Point α) α)
  | kinematic (f : Supplied (Point α) α) (multipliers boundary : Value α)
  | path (name : Value α) (f : Supplied (Point α) α) (bounds : Value α)
  | endpointCost (name : Value α) (f : Supplied (Endpoints α) α) (weight : Value α)
  | integralCost (name : Value α) (f : Supplied (Point α) α) (weight : Value α)

def Problem.Call.run : Call α → Edit (Problem α) α Unit
  | .time initial final => Problem.time initial final
  | .state name boundary initial final => do
    let _ ← Problem.state name boundary initial final
  | .control name boundary initial final => do
    let _ ← Problem.control name boundary initial final
  | .parameter name boundary => do
    let _ ← Problem.parameter name boundary
  | .dynamics f => Problem.setDynamics f
  | .kinematic f multipliers boundary => Problem.setKinematic f multipliers boundary
  | .path name f bounds => Problem.addPath name f bounds
  | .endpointCost name f weight => Problem.addEndpointCost name f weight
  | .integralCost name f weight => Problem.addIntegralCost name f weight

namespace Problem

/-- What a call puts into a problem. -/
inductive Item (α : Type) where
  | times (first last : Bounds α)
  | state (v : Variable α)
  | control (v : Variable α)
  | parameter (v : Variable α)
  | dynamics (f : Evaluator (Point α) α)
  | kinematic (f : Evaluator (Point α) α) (multipliers : List (Variable α))
  | path (c : PathConstraint α)
  | cost (c : CostTerm α)

def Item.put : Item α → Problem α → Problem α
  | .times first last, p => { p with initialTime := some first, finalTime := some last }
  | .state v, p => { p with states := p.states ++ [v] }
  | .control v, p => { p with controls := p.controls ++ [v] }
  | .parameter v, p => { p with parameters := p.parameters ++ [v] }
  | .dynamics f, p => { p with dynamics := some f }
  | .kinematic f multipliers, p => { p with kinematic := some f, multipliers }
  | .path c, p => { p with path := p.path ++ [c] }
  | .cost c, p => { p with costs := p.costs ++ [c] }

def overlaid (p : Problem α) (initialTime : Option (Bounds α))
    (kinematic : Option (Evaluator (Point α) α)) : Problem α :=
  { p with initialTime, kinematic }

omit [Scalar α] in
theorem toEvaluator_eq_ok {β : Type} {what : String} {f : Supplied β α} {e : Evaluator β α}
    (h : f.toEvaluator what = .ok e) : f = .evaluator e := by
  cases f with
  | evaluator g => rw [Except.ok.inj h]
  | value v => cases h

namespace Call

/-- The item that the arguments of a call make, if they are accepted. -/
def item : Call α → Outcome α (Item α)
  | .time initial final => do
    let first ← Bounds.ofValue initial "initial time"
    let last ← Bounds.ofValue final "final time"
    return .times first last
  | .state name boundary initial final => do
    return .state (← Variable.declare "State" name boundary initial final)
  | .control name boundary initial final => do
    return .control (← Variable.declare "Control" name boundary initial final)
  | .parameter name boundary => do
    return .parameter (← Variable.declare "Parameter" name boundary .none .none)
  | .dynamics f => do
    return .dynamics (← f.toEvaluator "Dynamics")
  | .kinematic f multipliers boundary => do
    let e ← f.toEvaluator "Kinematic constraints"
    let names ← multiplierNames multipliers
    let declared ← names.mapM fun (n : Value α) =>
      (Variable.declare "Multiplier" n boundary .none .none : Outcome α (Variable α))
    return .kinematic e declared
  | .path name f bounds => do
    let n ← Check.name name "Path constraint name"
    let e ← f.toEvaluator ("Path constraint '" ++ n ++ "'")
    return .path ⟨n, e, ← pathBounds n bounds⟩
  | .endpointCost name f weight => do
    let n ← Check.name name "Cost term name"
    let e ← f.toEvaluator ("Cost term '" ++ n ++ "'")
    return .cost ⟨n, .endpoint e, ← weightOf n weight⟩
  | .integralCost name f weight => do
    let n ← Check.name name "Cost term name"
    let e ← f.toEvaluator ("Cost term '" ++ n ++ "'")
    return .cost ⟨n, .integral e, ← weightOf n weight⟩

/-- What a call sets the initial time to, before the final one is read. -/
def initialTime? : Call α → Option (Option (Bounds α))
  | .time initial _ => (Bounds.ofValue initial "initial time").toOption.map some
  | _ => none

/-- What a call sets the kinematic constraints to, before the multipliers are declared. -/
def kinematic? : Call α → Option (Option (Evaluator (Point α) α))
  | .kinematic f multipliers _ =>
    (do
      let e ← f.toEvaluator "Kinematic constraints"
      let _ ← multiplierNames multipliers
      return some e : Outcome α (Option (Evaluator (Point α) α))).toOption
  | _ => none

/-- What a call leaves of a problem when it fails. -/
def leave (c : Call α) (p : Problem α) : Problem α :=
  p.overlaid (c.initialTime?.getD p.initialTime) (c.kinematic?.getD p.kinematic)

omit [Scalar α] in
/-- Calls for variables check a declaration before they put it in, and return its place. -/
theorem run_declared (declared : Outcome α (Variable α)) (make : Variable α → Item α)
    {place : Problem α → Nat} {p : Problem α} :
    ((do
      let _ ← (do
        let v ← declared
        modify (make v).put
        return place (← get) : Edit (Problem α) α Nat) : Edit (Problem α) α Unit).run p).run =
    match (do return make (← declared) : Outcome α (Item α)) with
    | .ok e => (.ok (), e.put p)
    | .error fault => (.error fault, p) := by
  simp only [Edit.run_bind, Edit.run_lift, Edit.run_modify, Edit.run_get, Edit.run_pure]
  cases declared <;> rfl

omit [Scalar α] in
/-- Calls for path constraints and costs check a name, a callable and a third argument before they
put anything in. -/
theorem run_named {β γ : Type} {what : String} {about : String → String} (name : Value α)
    (f : Supplied β α) (read : String → Outcome α γ)
    (make : String → Evaluator β α → γ → Item α) {p : Problem α} :
    ((do
      let n ← Check.name name what
      let e ← f.toEvaluator (about n)
      let x ← read n
      modify (make n e x).put : Edit (Problem α) α Unit).run p).run =
    match (do
      let n ← Check.name name what
      let e ← f.toEvaluator (about n)
      return make n e (← read n) : Outcome α (Item α)) with
    | .ok e => (.ok (), e.put p)
    | .error fault => (.error fault, p) := by
  simp only [Edit.run_bind, Edit.run_lift, Edit.run_modify]
  cases Check.name name what with
  | error fault => rfl
  | ok n =>
    simp only [bind, Except.bind]
    cases f.toEvaluator (about n) with
    | error fault => rfl
    | ok e => cases read n <;> rfl

/-- A call puts in the item that its arguments make, or it fails with their fault. -/
theorem run_eq (c : Call α) (p : Problem α) : (c.run.run p).run =
    match c.item with
    | .ok e => (.ok (), e.put p)
    | .error fault => (.error fault, c.leave p) := by
  cases c with
  | time initial final =>
    simp only [run, Problem.time, Edit.run_bind, Edit.run_lift, Edit.run_modify, item, leave,
      initialTime?]
    cases Bounds.ofValue initial "initial time" with
    | error fault => rfl
    | ok first => cases Bounds.ofValue final "final time" <;> rfl
  | state name boundary initial final =>
    exact run_declared (Variable.declare "State" name boundary initial final) .state
  | control name boundary initial final =>
    exact run_declared (Variable.declare "Control" name boundary initial final) .control
  | parameter name boundary =>
    exact run_declared (Variable.declare "Parameter" name boundary .none .none) .parameter
  | dynamics f =>
    simp only [run, setDynamics, Edit.run_bind, Edit.run_lift, Edit.run_modify, item]
    cases f.toEvaluator "Dynamics" <;> rfl
  | kinematic f multipliers boundary =>
    simp only [run, setKinematic, Edit.run_bind, Edit.run_lift, Edit.run_modify, Edit.run_mapM,
      item, leave, kinematic?]
    cases f.toEvaluator "Kinematic constraints" with
    | error fault => rfl
    | ok e =>
      cases multiplierNames multipliers with
      | error fault => rfl
      | ok names =>
        simp only [bind, Except.bind]
        cases names.mapM fun n => Variable.declare "Multiplier" n boundary .none .none <;> rfl
  | path name f bounds =>
    exact run_named name f (pathBounds · bounds) fun n e bs => .path ⟨n, e, bs⟩
  | endpointCost name f weight =>
    exact run_named name f (weightOf · weight) fun n e w => .cost ⟨n, .endpoint e, w⟩
  | integralCost name f weight =>
    exact run_named name f (weightOf · weight) fun n e w => .cost ⟨n, .integral e, w⟩

/-- The item that a call makes, with what its arguments were read as. -/
inductive Makes : Call α → Item α → Prop where
  | time {initial final : Value α} {first last : Bounds α}
      (hfirst : Bounds.ofValue initial "initial time" = .ok first)
      (hlast : Bounds.ofValue final "final time" = .ok last) :
      Makes (.time initial final) (.times first last)
  | state {name boundary initial final : Value α} {v : Variable α}
      (hv : Variable.declare "State" name boundary initial final = .ok v) :
      Makes (.state name boundary initial final) (.state v)
  | control {name boundary initial final : Value α} {v : Variable α}
      (hv : Variable.declare "Control" name boundary initial final = .ok v) :
      Makes (.control name boundary initial final) (.control v)
  | parameter {name boundary : Value α} {v : Variable α}
      (hv : Variable.declare "Parameter" name boundary .none .none = .ok v) :
      Makes (.parameter name boundary) (.parameter v)
  | dynamics {f : Supplied (Point α) α} {g : Evaluator (Point α) α}
      (hf : f.toEvaluator "Dynamics" = .ok g) : Makes (.dynamics f) (.dynamics g)
  | kinematic {f : Supplied (Point α) α} {g : Evaluator (Point α) α}
      {multipliers boundary : Value α} {names : List (Value α)} {declared : List (Variable α)}
      (hf : f.toEvaluator "Kinematic constraints" = .ok g)
      (hnames : multiplierNames multipliers = .ok names)
      (hdeclared : (names.mapM fun (n : Value α) =>
        (Variable.declare "Multiplier" n boundary .none .none : Outcome α (Variable α))) =
          .ok declared) :
      Makes (.kinematic f multipliers boundary) (.kinematic g declared)
  | path {name bounds : Value α} {f : Supplied (Point α) α} {n : String}
      {g : Evaluator (Point α) α} {bs : List (Bounds α)}
      (hname : Check.name name "Path constraint name" = .ok n)
      (hf : f.toEvaluator ("Path constraint '" ++ n ++ "'") = .ok g)
      (hbounds : pathBounds n bounds = .ok bs) : Makes (.path name f bounds) (.path ⟨n, g, bs⟩)
  | endpointCost {name weight : Value α} {f : Supplied (Endpoints α) α} {n : String}
      {g : Evaluator (Endpoints α) α} {w : α} (hname : Check.name name "Cost term name" = .ok n)
      (hf : f.toEvaluator ("Cost term '" ++ n ++ "'") = .ok g)
      (hweight : weightOf n weight = .ok w) :
      Makes (.endpointCost name f weight) (.cost ⟨n, .endpoint g, w⟩)
  | integralCost {name weight : Value α} {f : Supplied (Point α) α} {n : String}
      {g : Evaluator (Point α) α} {w : α} (hname : Check.name name "Cost term name" = .ok n)
      (hf : f.toEvaluator ("Cost term '" ++ n ++ "'") = .ok g)
      (hweight : weightOf n weight = .ok w) :
      Makes (.integralCost name f weight) (.cost ⟨n, .integral g, w⟩)

theorem makes_of_item {c : Call α} {e : Item α} (h : c.item = .ok e) : c.Makes e := by
  cases c <;> simp only [item, Except.bind_eq_ok, Except.pure_eq_ok] at h
  case time =>
    obtain ⟨first, hfirst, last, hlast, rfl⟩ := h
    exact .time hfirst hlast
  case state =>
    obtain ⟨v, hv, rfl⟩ := h
    exact .state hv
  case control =>
    obtain ⟨v, hv, rfl⟩ := h
    exact .control hv
  case parameter =>
    obtain ⟨v, hv, rfl⟩ := h
    exact .parameter hv
  case dynamics =>
    obtain ⟨g, hg, rfl⟩ := h
    exact .dynamics hg
  case kinematic =>
    obtain ⟨g, hg, names, hnames, declared, hdeclared, rfl⟩ := h
    exact .kinematic hg hnames hdeclared
  case path =>
    obtain ⟨n, hn, g, hg, bs, hbs, rfl⟩ := h
    exact .path hn hg hbs
  case endpointCost =>
    obtain ⟨n, hn, g, hg, w, hw, rfl⟩ := h
    exact .endpointCost hn hg hw
  case integralCost =>
    obtain ⟨n, hn, g, hg, w, hw, rfl⟩ := h
    exact .integralCost hn hg hw

variable {c : Call α} {p p' : Problem α} {fault : Fault α}

theorem run_yields : c.run.Yields p () p' ↔ ∃ e, c.item = .ok e ∧ p' = e.put p := by
  rw [Edit.Yields, run_eq]
  cases c.item with
  | error fault => simp
  | ok e => simp [eq_comm]

theorem run_fails : c.run.Fails p fault p' ↔ c.item = .error fault ∧ p' = c.leave p := by
  rw [Edit.Fails, run_eq]
  cases c.item with
  | error fault => simp [eq_comm]
  | ok e => simp

end Call

end Problem

end Collocation
