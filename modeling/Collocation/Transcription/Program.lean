import Collocation.Transcription
import Collocation.Value.Product

/-!
The nonlinear program of a transcription: constraints in blocks along the mesh, and weighted costs.
Both are functions of the flat decision vector, which they read through the layout.
-/

namespace Collocation

/-- The sorts of constraints that a program is made of. -/
inductive BlockKind where
  | defect
  | kinematic
  | path
  | duration
  deriving DecidableEq

/-- The text under which a sort of constraints is reported. -/
def BlockKind.name : BlockKind → String
  | .defect => "defect"
  | .kinematic => "kinematic"
  | .path => "path"
  | .duration => "duration"

/-- A matrix with its entries column after column. -/
structure Columns (α : Type) where
  height : Nat
  entries : List α

namespace Columns

variable {α : Type}

/-- The matrix with the given columns side by side. -/
def beside (height : Nat) (columns : List (List α)) : Columns α := ⟨height, columns.flatten⟩

/-- Column `j`, which is empty behind the last one. -/
def column (m : Columns α) (j : Nat) : List α := (m.entries.drop (j * m.height)).take m.height

end Columns

/-- The parts of a decision vector as the program reads them: matrices with a column for each point,
the multipliers with one for each constrained point in the order of the scheme. -/
structure Variables (α : Type) where
  states : Columns α
  controls : Columns α
  multipliers : Columns α
  initialTime : α
  finalTime : α
  parameters : List α
  times : List α

namespace Variables

variable {α : Type} [Scalar α]

/-- The length of the horizon; it is negative if the times are the wrong way round. -/
def duration (v : Variables α) : α := v.finalTime - v.initialTime

/-- Point `k` of the trajectory, without multipliers. -/
def point (v : Variables α) (k : Nat) : Point α where
  time := v.times[k]?.getD 0.0
  state := v.states.column k
  control := v.controls.column k
  parameter := v.parameters

/-- The two ends of the trajectory, where `last` is the last point. -/
def endpoints (v : Variables α) (last : Nat) : Endpoints α where
  initialTime := v.initialTime
  initialState := v.states.column 0
  finalTime := v.finalTime
  finalState := v.states.column last
  parameter := v.parameters

end Variables

/-- What the constraints are written from: the variables, and matrices with the values of the
problem's functions. The derivatives and each path constraint have a column for each point, and the
kinematic errors one for each constrained point in the order of the scheme. -/
structure Sampled (α : Type) where
  decision : Variables α
  derivatives : Columns α
  kinematic : Columns α
  path : List (Columns α)

/-- A vector that is kept within bounds, at a point of the mesh or for the whole horizon. -/
structure Block (α : Type) where
  kind : BlockKind
  point : Option Nat
  value : Sampled α → List α
  bounds : List (Bounds α)

/-- A block that has to vanish has equal bounds on both sides. -/
def Block.isEquality {α : Type} [Scalar α] (b : Block α) : Bool := b.bounds.all Bounds.isFixed

/-- A named part of the objective, with its weight in it. -/
structure ObjectiveTerm (α : Type) where
  name : String
  value : Variables α → α

namespace ObjectiveTerm

variable {α : Type}

/-- Terms with one more, which takes the place of a term with its name or, if there is none, stands
behind all others. -/
def put (t : ObjectiveTerm α) : List (ObjectiveTerm α) → List (ObjectiveTerm α)
  | [] => [t]
  | s :: rest => if s.name = t.name then t :: rest else s :: put t rest

/-- One term for each name: of terms with the same name the last one. -/
def byName (terms : List (ObjectiveTerm α)) : List (ObjectiveTerm α) :=
  terms.foldl (fun held t => t.put held) []

end ObjectiveTerm

/-- A nonlinear program: find a vector within the layout's bounds that keeps every block within its
own and makes the sum of the terms least. -/
structure Program (α : Type) where
  layout : Layout α
  read : List α → Variables α
  sample : Variables α → Sampled α
  blocks : List (Block α)
  terms : List (ObjectiveTerm α)

namespace Program

variable {α : Type} [Scalar α]

/-- The bounds of all constraints, block after block. -/
def constraintBounds (p : Program α) : List (Bounds α) := p.blocks.flatMap (·.bounds)

/-- The values of all constraints at a vector, in the order of their bounds. The functions of the
problem are sampled once for all blocks. -/
def constraints (p : Program α) (w : List α) : List α :=
  let s := p.sample (p.read w)
  p.blocks.flatMap (·.value s)

/-- The terms at a vector, under their names. -/
def termValues (p : Program α) (w : List α) : List (String × α) :=
  let v := p.read w
  p.terms.map fun t => (t.name, t.value v)

/-- The objective: the sum of the terms, in order. -/
def objective (p : Program α) (w : List α) : α := Scalar.sum ((p.termValues w).map (·.2))

/-- The number of scalar constraints, which is not that of the blocks. -/
def numConstraints (p : Program α) : Nat := p.constraintBounds.length

end Program

namespace Transcription

variable {α : Type} [Scalar α]

/-- The variables that a decision vector holds, found through the layout. The times are those of the
mesh on the horizon of the vector. -/
def read (t : Transcription α) (w : List α) : Variables α :=
  let initial := Layout.entry w t.layout.initialTimeIndex
  let final := Layout.entry w t.layout.finalTimeIndex
  { states := .beside t.layout.sizes.states
      ((List.range t.layout.points).map (t.layout.stateAt w))
    controls := .beside t.layout.sizes.controls
      ((List.range t.layout.points).map (t.layout.controlAt w))
    multipliers := .beside t.layout.sizes.multipliers
      (t.kinematicPoints.map fun k => t.layout.multiplierAt w k.toNat)
    initialTime := initial
    finalTime := final
    parameters := t.layout.parameterRange.of w
    times := t.mesh.times initial final }

/-- The program takes the multipliers of each kinematic point out of the vector. They have no
positions there if kinematic constraints are declared without any multipliers. -/
def checkMultipliers (t : Transcription α) : Outcome α Unit :=
  if t.kinematicPoints.all fun k => t.layout.constrained.any fun (c : Nat) => decide ((c : Int) = k)
  then .ok ()
  else .error (.reading .noPositions)

/-- The column that the scheme has for point `k`, if that is a constrained point. -/
def kinematicColumn? (t : Transcription α) (k : Nat) : Option Nat :=
  t.kinematicPoints.idxOf? (k : Int)

/-- The multipliers at point `k`: the column of that point, or zeros where it has none. -/
def multipliersAt (t : Transcription α) (v : Variables α) (k : Nat) : List α :=
  match t.kinematicColumn? k with
  | some c => v.multipliers.column c
  | none => List.replicate t.functions.sizes.multipliers 0.0

/-- The derivatives of the states at point `k`, for which the dynamics are given the multipliers. -/
def derivativesAt (t : Transcription α) (v : Variables α) (k : Nat) : List α :=
  t.functions.dynamics.at { v.point k with multiplier := t.multipliersAt v k }

/-- The kinematic errors at the points of the scheme, in its order. -/
def kinematicErrors (t : Transcription α) (v : Variables α) : List (List α) :=
  match t.functions.kinematic with
  | some g => t.kinematicPoints.map fun k => g.at (v.point k.toNat)
  | none => []

/-- The functions of the problem at all points that their constraints stand at. -/
def sample (t : Transcription α) (v : Variables α) : Sampled α :=
  let points := List.range t.mesh.numPoints
  { decision := v
    derivatives := .beside t.functions.sizes.states (points.map (t.derivativesAt v))
    kinematic := .beside t.functions.sizes.multipliers (t.kinematicErrors v)
    path := t.functions.path.map fun c =>
      .beside c.function.length (points.map fun k => c.function.at (v.point k)) }

/-- The time that interval `k` takes on the horizon. -/
def intervalDuration (t : Transcription α) (v : Variables α) (k : Nat) : α :=
  v.duration * (t.mesh.intervals[k]?.getD 0.0)

/-- What has to vanish. -/
def zeroBounds : Bounds α := ⟨0.0, 0.0⟩

/-- The defect of interval `k`: the step of the states, less half the interval times the sum of the
derivatives at its ends. -/
def defect (t : Transcription α) (k : Nat) (s : Sampled α) : List α :=
  let states := s.decision.states
  let step := (states.column (k + 1)).zipWith (· - ·) (states.column k)
  let slopes := (s.derivatives.column k).zipWith (· + ·) (s.derivatives.column (k + 1))
  step.zipWith (fun d f => d - 0.5 * t.intervalDuration s.decision k * f) slopes

/-- The constraint that the defect of interval `k` vanishes; it is counted to the point before it.
-/
def defectBlock (t : Transcription α) (k : Nat) : Block α where
  kind := .defect
  point := some k
  value := t.defect k
  bounds := List.replicate t.functions.sizes.states zeroBounds

/-- The kinematic constraint at point `k`, if the scheme has one there. -/
def kinematicBlock? (t : Transcription α) (k : Nat) : Option (Block α) :=
  (t.kinematicColumn? k).map fun c => {
    kind := .kinematic
    point := some k
    value := fun s => s.kinematic.column c
    bounds := List.replicate t.functions.sizes.multipliers zeroBounds }

/-- Path constraint `j` at point `k`. -/
def pathBlock (k j : Nat) (c : PathFunction α) : Block α where
  kind := .path
  point := some k
  value s := (s.path[j]?.map (·.column k)).getD []
  bounds := c.bounds

/-- The constraints of point `k`: the defect of the interval behind it, the kinematic constraint and
the path constraints in the order of their declaration. -/
def pointBlocks (t : Transcription α) (k : Nat) : List (Block α) :=
  (if k + 1 < t.mesh.numPoints then [t.defectBlock k] else [])
    ++ (t.kinematicBlock? k).toList
    ++ t.functions.path.mapIdx (pathBlock k)

/-- The constraints that the scheme makes, point by point for the standard ones; a scheme may make
none or fail. -/
def schemeBlocks (t : Transcription α) : Outcome α (List (Block α)) :=
  match t.scheme.constraints with
  | .standard => .ok ((List.range t.mesh.numPoints).flatMap t.pointBlocks)
  | .none => .ok []
  | .fails cause => .error (.foreign cause.report)

/-- The horizon has a least length, unless both times are fixed. -/
def durationBlocks (t : Transcription α) : List (Block α) :=
  if t.functions.hasFixedTimes then []
  else [{
    kind := .duration
    point := none
    value := fun s => [s.decision.duration]
    bounds := [⟨Problem.minimumHorizon, Scalar.infinity⟩] }]

/-- The product of a weight and some factors; the weight zero makes it zero, whatever the factors
are. -/
def weighted (weight : α) (factors : List α) : α :=
  if Scalar.eq weight 0.0 then 0.0 else factors.foldl (· * ·) weight

/-- The one component of a cost function. -/
def single {β : Type} (f : VectorFunction β α) (b : β) : α := (f.at b).headD 0.0

/-- A weighted cost at the two ends, which are the first and the last point of the mesh. -/
def endpointTerm (t : Transcription α) (c : CostFunction (Endpoints α) α) : ObjectiveTerm α where
  name := c.name
  value v := weighted c.weight [single c.function (v.endpoints (t.mesh.numPoints - 1))]

/-- An integrand at all points of the mesh. -/
def integrandValues (t : Transcription α) (f : VectorFunction (Point α) α) (v : Variables α) :
    List α :=
  (List.range t.mesh.numPoints).map fun k => single f (v.point k)

/-- The sum of values, each with its weight. -/
def weightedSum (weights values : List α) : α := Scalar.sum (weights.zipWith (· * ·) values)

/-- A weighted integral cost. Quadrature coefficients that are all zero make it zero, whatever the
values of the integrand are. -/
def integralTerm (t : Transcription α) (c : CostFunction (Point α) α) : ObjectiveTerm α where
  name := c.name
  value v :=
    if t.quadrature.all (Scalar.eq · 0.0) then 0.0
    else weighted c.weight [v.duration, weightedSum t.quadrature (t.integrandValues c.function v)]

/-- The terms of all costs: endpoint costs, then integral costs. -/
def costTerms (t : Transcription α) : List (ObjectiveTerm α) :=
  t.functions.endpointCosts.map t.endpointTerm ++ t.functions.integralCosts.map t.integralTerm

/-- The objective, with a term for each name of a cost. -/
def objectiveTerms (t : Transcription α) : List (ObjectiveTerm α) :=
  ObjectiveTerm.byName t.costTerms

/-- A failure while the program is put together: those of the library's own kinds pass, the others
are wrapped. -/
def assemblyFault (t : Transcription α) (f : Fault α) : Fault α :=
  if f.kind.isOwn then f
  else .data (.assembly t.problemName.display f.report t.scheme.className)

/-- Puts the program together: the variables first, then the constraints of the scheme. -/
def program (t : Transcription α) : Outcome α (Program α) :=
  match t.checkMultipliers >>= fun _ => t.schemeBlocks with
  | .ok blocks => .ok ⟨t.layout, t.read, t.sample, blocks ++ t.durationBlocks, t.objectiveTerms⟩
  | .error f => .error (t.assemblyFault f)

/-- A vector for this transcription has an entry for each variable. -/
def checkVector (t : Transcription α) (w : List α) : Outcome α (List α) :=
  if w.length = t.layout.size then .ok w
  else .error (.data (.vectorLength w.length t.layout.size false))

/-- The constraints at a decision vector. The program is put together before the vector is checked.
-/
def evaluateConstraints (t : Transcription α) (w : List α) : Outcome α (List α) := do
  let p ← t.program
  return p.constraints (← t.checkVector w)

/-- The objective at a decision vector, unless the scheme fails to make one. -/
def evaluateObjective (t : Transcription α) (w : List α) : Outcome α α := do
  if let some cause := t.scheme.objectiveFault then throw (.foreign cause.report)
  let p ← t.program
  return p.objective (← t.checkVector w)

/-- The terms of the objective at a decision vector; without terms any vector will do. -/
def evaluateTerms (t : Transcription α) (w : List α) : Outcome α (List (String × α)) := do
  let p ← t.program
  if p.terms.isEmpty then return []
  return p.termValues (← t.checkVector w)

/-- The constraint vector at a vector that is read once the program has been put together. -/
def constraintsOf (t : Transcription α) (v : Value α) : Outcome α (List α) := do
  let _ ← t.program
  t.evaluateConstraints (← v.toVector)

/-- The objective at a vector that is read once the program has been put together. -/
def objectiveOf (t : Transcription α) (v : Value α) : Outcome α α := do
  if let some cause := t.scheme.objectiveFault then throw (.foreign cause.report)
  let _ ← t.program
  t.evaluateObjective (← v.toVector)

/-- The terms of the objective at a vector, which is not read if there are none. -/
def termsOf (t : Transcription α) (v : Value α) : Outcome α (List (String × α)) := do
  let p ← t.program
  if p.terms.isEmpty then return []
  t.evaluateTerms (← v.toVector)

/-- The quadrature weights on a horizon of the given length, whatever stands for it. -/
def weights (t : Transcription α) (duration : Value α) : Outcome α (Tensor α) :=
  duration.timesRow t.quadrature

end Transcription

end Collocation
