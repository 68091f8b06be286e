import Collocation.Layout.Builder
import Collocation.Layout.Trajectory
import Collocation.Number.Arithmetic
import Collocation.Problem.Functions
import Collocation.Scheme
import Collocation.Solver
import Collocation.Value.Order

/-!
A problem on a mesh. A transcription holds the functions of a problem as they were at one moment,
the layout of the decision variables, and the choices of its scheme; nothing in it refers back to
the problem.
-/

namespace Collocation

/-- A problem transcribed by a scheme, on the mesh of a solver. -/
structure Transcription (α : Type) where
  /-- The position of the scheme in the registry, under which its name is found. -/
  schemeIndex : Nat
  scheme : Scheme α
  solver : Solver α
  problemName : Value α
  functions : Functions α
  /-- The points with kinematic constraints, in the order of the scheme. -/
  kinematicPoints : List Int
  quadrature : List α
  layout : Layout α

namespace Transcription

variable {α : Type} [Scalar α]

def mesh (t : Transcription α) : Mesh α := t.solver.mesh

/-- Half of an interval goes to each of its ends: the weights of the points behind an interval. -/
def weightsAfter (previous : α) : List α → List α
  | [] => [0.0 + 0.5 * previous]
  | h :: rest => (0.0 + 0.5 * h + 0.5 * previous) :: weightsAfter h rest

/-- The weights of the trapezoidal rule for intervals of the given lengths. -/
def trapezoidalWeights : List α → List α
  | [] => [0.0]
  | h :: rest => (0.0 + 0.5 * h) :: weightsAfter h rest

/-- The quadrature coefficients of a scheme, as an array. -/
def coefficientsOf (s : Scheme α) (m : Mesh α) : Outcome α (Tensor α) :=
  match s.quadrature with
  | none => .ok (Tensor.ofList (trapezoidalWeights m.intervals))
  | some v => v.toTensor

/-- The quadrature coefficients of a scheme, of which there is one for each point. -/
def quadratureOf (s : Scheme α) (m : Mesh α) : Outcome α (List α) := do
  let t ← coefficientsOf s m
  if t.shape = [m.numPoints] then return t.entries
  else throw (.data (.quadratureShape t.shape m.numPoints s.className))

def kinematicPointsOf (s : Scheme α) (m : Mesh α) : Outcome α (List Int) :=
  match s.kinematic with
  | none => .ok ((List.range m.numPoints).map Int.ofNat)
  | some indices => do
    (← indices.toItems).mapM fun (v : Value α) => (v.toWhole : Outcome α Int)

/-- The texts among which a separator is put; the first item that is no text is refused. -/
def joinable (index : Nat) : List (Value α) → Outcome α (List String)
  | [] => .ok []
  | .text s :: rest => do return s :: (← joinable (index + 1) rest)
  | v :: _ => .error (.reading (.notJoinable index v.typeName))

def sortedKeys (keys : List (Value α)) : Outcome α (List String) := do
  joinable 0 (← Value.sorted keys)

def expectedPoints (points : Nat) (offset : Value α) : Outcome α (Number α) :=
  match offset.numeric? with
  | some x => (Number.int points).sum x
  | none => .error (.reading (.noOperation "+" "int" offset.typeName))

def checkConfiguration (s : Scheme α) (schemeName : String) (solver : Solver α) :
    Outcome α Unit := do
  let points := solver.mesh.numPoints
  let statePoints ← expectedPoints points s.stateOffset
  let controlPoints ← expectedPoints points s.controlOffset
  unless statePoints.eq (.int points) do throw (.scheme (.statePoints statePoints points))
  unless controlPoints.eq statePoints do
    throw (.scheme (.controlPoints controlPoints statePoints))
  if solver.enforceDerivatives && !s.derivatives then
    throw (.scheme (.noDerivatives schemeName))
  let unknown := (solver.schemeOptions.map (·.1)).filter fun k => !s.options.any (·.same k)
  unless unknown.isEmpty do
    throw (.scheme (.unknownOptions (← sortedKeys unknown)))

/-- The bounds of variables, for a layout. -/
def layoutOf (f : Functions α) (p : Problem α) (points : Nat) (kinematicPoints : List Int) :
    Outcome α (Layout α) := do
  let b ← LayoutBuilder.ofRequest {
    points := .int points
    states := .int f.sizes.states
    controls := .int f.sizes.controls
    multipliers := .int f.sizes.multipliers
    parameters := .int f.sizes.parameters
    indices := .list (kinematicPoints.map .int) }
  let fill : Edit (LayoutBuilder α) α Unit := do
    LayoutBuilder.setStateBounds (p.states.map (·.bounds)) (some (p.states.map (·.initial)))
      (some (p.states.map (·.final)))
    LayoutBuilder.setControlBounds (p.controls.map (·.bounds)) (some (p.controls.map (·.initial)))
      (some (p.controls.map (·.final)))
    LayoutBuilder.setMultiplierBounds (p.multipliers.map (·.bounds))
    LayoutBuilder.setParameterBounds (p.parameters.map (·.bounds))
    LayoutBuilder.setTimeBounds f.initialTime f.finalTime
    LayoutBuilder.setNames (.ofTexts f.stateNames) (.ofTexts f.controlNames)
      (.ofTexts f.multiplierNames) (.ofTexts f.parameterNames)
  let (outcome, filled) := (fill.run b).run
  outcome
  filled.build

/-- Transcribes a problem, with each step carried out by `run`. The configuration is checked before
the problem is looked at. -/
def createIn {m : Type → Type} [Monad m] [MonadLiftT (Outcome α) m]
    (run : ∀ {β : Type}, Event α → Outcome α β → m β) (r : Registry α) (solver : Solver α)
    (p : Problem α) : m (Transcription α) := do
  let schemeIndex ← r.find solver.scheme
  let scheme := r.schemeAt schemeIndex
  checkConfiguration scheme (r.displayName schemeIndex) solver
  let functions ← p.functionsIn run
  let kinematicPoints ←
    if functions.kinematic.isSome then kinematicPointsOf scheme solver.mesh else pure []
  let quadrature ← quadratureOf scheme solver.mesh
  let layout ← run .laidOut (layoutOf functions p solver.mesh.numPoints kinematicPoints)
  return {
    schemeIndex, scheme, solver, functions, kinematicPoints, quadrature, layout
    problemName := p.name }

/-- Transcribes a problem, with nothing done around the steps. -/
def create (r : Registry α) (solver : Solver α) (p : Problem α) : Outcome α (Transcription α) :=
  createIn (fun _ x => x) r solver p

end Transcription

end Collocation
