import Collocation.Problem
import Collocation.Problem.Returned

/-!
The functions of a problem, taken at one moment. Every function of the author is called once; what
comes out no longer depends on the problem, so later declarations do not reach it.
-/

namespace Collocation

/-- A path constraint with bounds for every component. -/
structure PathFunction (α : Type) where
  name : String
  function : VectorFunction (Point α) α
  bounds : List (Bounds α)

/-- A cost with one component, and its weight. -/
structure CostFunction (β α : Type) where
  name : String
  function : VectorFunction β α
  weight : α

/-- The functions of a problem with the names of its variables and the bounds of its times. -/
structure Functions (α : Type) where
  stateNames : List String
  controlNames : List String
  multiplierNames : List String
  parameterNames : List String
  initialTime : Bounds α
  finalTime : Bounds α
  dynamics : VectorFunction (Point α) α
  kinematic : Option (VectorFunction (Point α) α)
  path : List (PathFunction α)
  endpointCosts : List (CostFunction (Endpoints α) α)
  integralCosts : List (CostFunction (Point α) α)

/-- The name of a function made from a declared name: word characters stay, all others become
underscores. -/
def functionName (kind name : String) : List Char :=
  kind.toList ++ '_' :: name.toList.map fun c => if Text.isWord c then c else '_'

/-- No two underscores stand together. -/
def singleUnderscores : List Char → Bool
  | '_' :: '_' :: _ => false
  | _ :: rest => singleUnderscores rest
  | [] => true

/-- The names that a function may have: letters, digits and single underscores, with a letter at the
front. -/
def isFunctionName (cs : List Char) : Bool :=
  cs.all Text.isPlainWord && (cs.head?.map Char.isAlpha).getD false && singleUnderscores cs

namespace Functions

variable {α : Type} [Scalar α]

/-- How many variables of each sort there are, counted by their names. -/
def sizes (f : Functions α) : Dimensions :=
  ⟨f.stateNames.length, f.controlNames.length, f.multiplierNames.length, f.parameterNames.length⟩

def hasFixedTimes (f : Functions α) : Bool := f.initialTime.isFixed && f.finalTime.isFixed

/-- A declared name from which a function name can be made. -/
def checkFunctionName (kind name : String) : Outcome α Unit :=
  if isFunctionName (functionName kind name) then .ok () else .error (.functionName name)

/-- Bounds for `size` components: one pair stands for all of them. -/
def componentBounds (name : String) (size : Nat) (bounds : List (Bounds α)) :
    Outcome α (List (Bounds α)) :=
  let expanded := match bounds with
    | [b] => List.replicate size b
    | bs => bs
  if expanded.length = size then .ok expanded
  else .error (.problem (.pathBounds name size expanded.length))

/-- A path constraint: it is called, its bounds are spread over its components, and its name is
checked last. -/
def ofPath (s : Setting) (c : PathConstraint α) : Outcome α (PathFunction α) := do
  let f ← c.evaluator.call s ("Path constraint '" ++ c.name ++ "'")
  let bounds ← componentBounds c.name f.length c.bounds
  checkFunctionName "path" c.name
  return ⟨c.name, f, bounds⟩

/-- An integral cost, which has one component. -/
def ofIntegral (s : Setting) (name : String) (weight : α) (e : Evaluator (Point α) α) :
    Outcome α (CostFunction (Point α) α) := do
  let f ← e.callSized s 1 ("Integral cost '" ++ name ++ "'")
  checkFunctionName "integrand" name
  return ⟨name, f, weight⟩

/-- An endpoint cost, which has one component. -/
def ofEndpoint (s : Setting) (name : String) (weight : α) (e : Evaluator (Endpoints α) α) :
    Outcome α (CostFunction (Endpoints α) α) := do
  let f ← e.callSized s 1 ("Endpoint cost '" ++ name ++ "'")
  checkFunctionName "endpoint" name
  return ⟨name, f, weight⟩

end Functions

/-! ### Calling the callables

A problem is taken apart once, whatever is done around the calls of its author's functions: `run`
carries out each step of it in a monad of its own, and the plain functions are those of the monad
that only knows outcomes. -/

/-- One of the callables of a problem. -/
inductive Problem.Callable (α : Type) where
  | dynamics (e : Evaluator (Point α) α)
  | kinematic (e : Evaluator (Point α) α)
  | path (c : PathConstraint α)
  | cost (c : CostTerm α)

/-- What is done to a problem while it is transcribed. -/
inductive Event (α : Type) where
  | called (c : Problem.Callable α)
  | laidOut

section Steps

variable {α : Type} [Scalar α] {m : Type → Type} [Monad m] [MonadLiftT (Outcome α) m]
  (run : ∀ {β : Type}, Event α → Outcome α β → m β)

/-- The functions of all costs, in the order of declaration, sorted into the two kinds. -/
def Functions.ofCostsIn (s : Setting) : List (CostTerm α) →
    m (List (CostFunction (Endpoints α) α) × List (CostFunction (Point α) α))
  | [] => return ([], [])
  | c :: rest =>
    match c.evaluator with
    | .integral e => do
      let f ← run (.called (.cost c)) (ofIntegral s c.name c.weight e)
      let (endpoint, integral) ← ofCostsIn s rest
      return (endpoint, f :: integral)
    | .endpoint e => do
      let f ← run (.called (.cost c)) (ofEndpoint s c.name c.weight e)
      let (endpoint, integral) ← ofCostsIn s rest
      return (f :: endpoint, integral)

/-- The functions of a problem: all its callables are called, once and in this order. -/
def Problem.functionsIn (p : Problem α) : m (Functions α) := do
  p.checkStructure
  let first ← p.initialTimeBounds
  let last ← p.finalTimeBounds
  let plain : Setting := ⟨p.sizes, false⟩
  let dynamics ← p.requiredDynamics
  let xdot ← run (.called (.dynamics dynamics))
    (dynamics.callSized ⟨p.sizes, p.kinematic.isSome⟩ p.sizes.states "Dynamics")
  let kinematic ← p.kinematic.mapM fun g => run (.called (.kinematic g))
    (g.callSized plain p.sizes.multipliers "Kinematic constraints")
  let path ← p.path.mapM fun c => run (.called (.path c)) (Functions.ofPath plain c)
  let (endpoint, integral) ← Functions.ofCostsIn run plain p.costs
  return {
    stateNames := p.states.map (·.name)
    controlNames := p.controls.map (·.name)
    multiplierNames := p.multipliers.map (·.name)
    parameterNames := p.parameters.map (·.name)
    initialTime := first
    finalTime := last
    dynamics := xdot
    kinematic := kinematic
    path := path
    endpointCosts := endpoint
    integralCosts := integral }

end Steps

variable {α : Type} [Scalar α]

/-- The functions of all costs, each called as it is. -/
def Functions.ofCosts (s : Setting) (costs : List (CostTerm α)) :
    Outcome α (List (CostFunction (Endpoints α) α) × List (CostFunction (Point α) α)) :=
  ofCostsIn (fun _ x => x) s costs

namespace Problem

/-- The functions of a problem, with nothing done around the calls. -/
def functions (p : Problem α) : Outcome α (Functions α) := p.functionsIn fun _ x => x

/-- Takes the functions and forgets them: the problem can be transcribed as it stands. -/
def validate (p : Problem α) : Outcome α Unit := do
  let _ ← p.functions

end Problem

namespace Functions

def checkLength (xs : List α) (expected : Nat) (name context : String) : Outcome α (List α) :=
  if xs.length = expected then .ok xs
  else .error (.problem (.argument (.wrongLength name context xs.length expected)))

/-- The entries of an argument: a matrix column after column, an array in its own order. -/
def entriesOf : Value α → Outcome α (List α)
  | .matrix m => .ok m.byColumns
  | v => v.toVector

/-- A given argument, which may be missing if it has no entries. -/
def argument (v : Value α) (expected : Nat) (name context : String) : Outcome α (List α) :=
  match v with
  | .none =>
    if expected = 0 then .ok []
    else .error (.problem (.argument (.required name context expected)))
  | v => do checkLength (← entriesOf v) expected name context

def single (xs : List α) : α := xs.headD 0.0

def pointOf (f : Functions α) (context : String) (t x u p : Value α) : Outcome α (Point α) := do
  let time ← argument t 1 "time" context
  let state ← argument x f.sizes.states "states" context
  let control ← argument u f.sizes.controls "controls" context
  let parameter ← argument p f.sizes.parameters "parameters" context
  return { time := single time, state, control, parameter }

/-- The item at an index, where negative indices count from the end. -/
def item {γ : Type} (items : List γ) (index : Int) : Outcome α γ :=
  let place := if index < 0 then index + items.length else index
  if place < 0 then .error (.reading .itemIndex)
  else match items[place.toNat]? with
    | some x => .ok x
    | none => .error (.reading .itemIndex)

def evalDynamics (f : Functions α) (t x u : Value α) (p lam : Value α := .none) :
    Outcome α (List α) := do
  let point ← f.pointOf "dynamics" t x u p
  let multiplier ← argument lam f.sizes.multipliers "multipliers" "dynamics"
  return f.dynamics.at { point with multiplier }

def evalKinematic (f : Functions α) (t x u : Value α) (p : Value α := .none) :
    Outcome α (List α) := do
  let some g := f.kinematic | throw (.problem .noKinematic)
  return g.at (← f.pointOf "kinematic constraints" t x u p)

def evalPath (f : Functions α) (index : Int) (t x u : Value α) (p : Value α := .none) :
    Outcome α (List α) := do
  let c ← item f.path index
  return c.function.at (← f.pointOf ("path constraint '" ++ c.name ++ "'") t x u p)

def evalIntegrand (f : Functions α) (index : Int) (t x u : Value α) (p : Value α := .none) :
    Outcome α (List α) := do
  let c ← item f.integralCosts index
  return c.function.at (← f.pointOf ("integral cost '" ++ c.name ++ "'") t x u p)

def evalEndpoint (f : Functions α) (index : Int) (t0 x0 tf xf : Value α)
    (p : Value α := .none) : Outcome α (List α) := do
  let c ← item f.endpointCosts index
  let context := "endpoint cost '" ++ c.name ++ "'"
  let initialTime ← argument t0 1 "initial time" context
  let initialState ← argument x0 f.sizes.states "initial state" context
  let finalTime ← argument tf 1 "final time" context
  let finalState ← argument xf f.sizes.states "final state" context
  let parameter ← argument p f.sizes.parameters "parameters" context
  return c.function.at
    ⟨single initialTime, initialState, single finalTime, finalState, parameter⟩

end Functions

end Collocation
