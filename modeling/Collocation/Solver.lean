import Collocation.Mesh

/-!
The configuration of a solve. Options arrive as plain values; `SolverRequest.configure` accepts or
refuses them, and `Solver.engineOptions` is what the optimiser is given.
-/

namespace Collocation

/-- A mesh that is given as such, or as a value. -/
inductive MeshSource (α : Type) where
  | value (v : Value α)
  | mesh (m : Mesh α)

structure SolverRequest (α : Type) where
  scheme : Value α := .text "trapezoidal"
  numMeshPoints : Value α := .none
  mesh : MeshSource α := .value .none
  enforceDerivatives : Value α := .bool false
  schemeOptions : Value α := .none
  optimSolver : Value α := .text "ipopt"
  maxIterations : Value α := .none
  convergenceTolerance : Value α := .none
  constraintTolerance : Value α := .none
  hessian : Value α := .text "exact"
  verbosity : Value α := .int 0
  engineOptions : Value α := .none
  showSummary : Value α := .bool false

/-- A checked configuration. -/
structure Solver (α : Type) where
  scheme : String
  mesh : Mesh α
  enforceDerivatives : Bool
  schemeOptions : Table α (Value α)
  optimSolver : String
  maxIterations : Option Int
  convergenceTolerance : Option (Number α)
  constraintTolerance : Option (Number α)
  hessian : String
  verbosity : Int
  engineOptions : Table α (Value α)
  showSummary : Value α

namespace SolverRequest

variable {α : Type} [Scalar α]

def signature : Signature where
  function := "Solver.__init__"
  required := []
  optional := ["transcription_scheme", "num_mesh_points", "mesh", "enforce_constraint_derivatives",
    "scheme_options", "optim_solver", "optim_max_iterations", "optim_convergence_tolerance",
    "optim_constraint_tolerance", "optim_hessian_approximation", "verbosity", "nlp_options",
    "show_summary"]

/-- The options that are given by name; a mesh may also be given as such. -/
def ofNamed (options : List (String × Value α)) (mesh : Option (Mesh α) := none) :
    Outcome α (SolverRequest α) := do
  signature.checkNames (options.map (·.1))
  let q : SolverRequest α := {}
  let option (name : String) (rest : Value α) : Value α := (options.lookup name).getD rest
  return {
    mesh := match mesh with
      | some m => .mesh m
      | none => .value (option "mesh" .none)
    scheme := option "transcription_scheme" q.scheme
    numMeshPoints := option "num_mesh_points" q.numMeshPoints
    enforceDerivatives := option "enforce_constraint_derivatives" q.enforceDerivatives
    schemeOptions := option "scheme_options" q.schemeOptions
    optimSolver := option "optim_solver" q.optimSolver
    maxIterations := option "optim_max_iterations" q.maxIterations
    convergenceTolerance := option "optim_convergence_tolerance" q.convergenceTolerance
    constraintTolerance := option "optim_constraint_tolerance" q.constraintTolerance
    hessian := option "optim_hessian_approximation" q.hessian
    verbosity := option "verbosity" q.verbosity
    engineOptions := option "nlp_options" q.engineOptions
    showSummary := option "show_summary" q.showSummary }

def optimisers : List String := ["ipopt"]

def hessians : List String := ["exact", "limited-memory"]

/-- The number of mesh points if none is given. -/
def defaultPoints : Int := 100

def oneOf (name : String) (supported : List String) (v : Value α) : Outcome α String :=
  match supported.find? fun s => v.equalsText s with
  | some s => .ok s
  | none => Check.refuse v (.option (.unsupported name v.display supported))

def optional {γ : Type} (read : Value α → Outcome α γ) (v : Value α) : Outcome α (Option γ) :=
  match v with
  | .none => .ok none
  | v => do return some (← read v)

/-- The options that the optimiser gets. -/
structure EngineChoice (α : Type) where
  optimSolver : String
  hessian : String
  maxIterations : Option Int
  convergenceTolerance : Option (Number α)
  constraintTolerance : Option (Number α)
  verbosity : Int

def checkEngine (optimSolver hessian maxIterations convergence constraint verbosity : Value α) :
    Outcome α (EngineChoice α) := do
  let solver ← oneOf "optim_solver" optimisers optimSolver
  let hessian ← oneOf "optim_hessian_approximation" hessians hessian
  let iterations ← optional (Check.integer · "optim_max_iterations") maxIterations
  let convergence ← optional (Check.positive · "optim_convergence_tolerance") convergence
  let constraint ← optional (Check.positive · "optim_constraint_tolerance") constraint
  let verbosity ← Check.integer verbosity "verbosity" 0
  return ⟨solver, hessian, iterations, convergence, constraint, verbosity⟩

/-- The mesh: a uniform one by its number of points, or a given one that has that many. -/
def chooseMesh (count : Value α) (source : MeshSource α) : Outcome α (Mesh α) :=
  match source with
  | .value .none =>
    match count with
    | .none => Mesh.uniform (.int defaultPoints)
    | v => Mesh.uniform v
  | .value v => do fitting (← Mesh.ofValue v)
  | .mesh m => fitting m
where
  /-- A given mesh has as many points as are asked for. -/
  fitting (m : Mesh α) : Outcome α (Mesh α) :=
    match count with
    | .none => .ok m
    | v =>
      if v.equalsInt m.numPoints then .ok m
      else Check.refuse v (.option (.meshConflict v m.numPoints))

/-- The name of the scheme: a text that is not empty. -/
def schemeName (v : Value α) : Outcome α String :=
  match v with
  | .text s => if s.isEmpty then .error (.option (.schemeName v)) else .ok s
  | v => Check.refuse v (.option (.schemeName v))

/-- The options of the scheme: a mapping, or none. -/
def schemeMapping (v : Value α) : Outcome α (Table α (Value α)) :=
  match v with
  | .none => .ok []
  | .mapping entries => .ok entries
  | v => .error (.option (.schemeOptions v.typeName))

def configure (q : SolverRequest α) : Outcome α (Solver α) := do
  let scheme ← schemeName q.scheme
  let engine ← checkEngine q.optimSolver q.hessian q.maxIterations q.convergenceTolerance
    q.constraintTolerance q.verbosity
  let schemeOptions ← schemeMapping q.schemeOptions
  let mesh ← chooseMesh q.numMeshPoints q.mesh
  let enforceDerivatives ← q.enforceDerivatives.toTruth
  let engineOptions ← q.engineOptions.toMapping
  return {
    scheme, mesh, enforceDerivatives, schemeOptions, engineOptions
    optimSolver := engine.optimSolver
    maxIterations := engine.maxIterations
    convergenceTolerance := engine.convergenceTolerance
    constraintTolerance := engine.constraintTolerance
    hessian := engine.hessian
    verbosity := engine.verbosity
    showSummary := q.showSummary }

end SolverRequest

namespace Solver

variable {α : Type} [Scalar α]

def printOptions (verbosity : Int) : Table α (Value α) :=
  if 2 ≤ verbosity then
    [(.text "ipopt.print_level", .int (min (3 + verbosity) 12)), (.text "ipopt.sb", .text "no"),
     (.text "print_time", .int 1)]
  else
    [(.text "ipopt.print_level", .int 0), (.text "ipopt.sb", .text "yes"),
     (.text "print_time", .int 0)]

/-- An option that is given only if it has a value. -/
def given (name : String) : Option (Value α) → Table α (Value α)
  | some v => [(.text name, v)]
  | none => []

/-- The options that the optimiser gets: those of the configuration, and over them those that the
caller wrote for the optimiser. -/
def allOptions (s : Solver α) : Table α (Value α) :=
  let own := printOptions s.verbosity
    ++ [(.text "error_on_fail", .bool false),
        (.text "ipopt.hessian_approximation", .text s.hessian)]
    ++ given "ipopt.max_iter" (s.maxIterations.map .int)
    ++ given "ipopt.tol" (s.convergenceTolerance.map .number)
    ++ given "ipopt.constr_viol_tol" (s.constraintTolerance.map .number)
  Table.merge own s.engineOptions

def text (s : Solver α) : String :=
  "Solver(transcription_scheme='" ++ s.scheme ++ "', mesh=" ++ s.mesh.text ++ ", optim_solver='"
    ++ s.optimSolver ++ "')"

end Solver

end Collocation
