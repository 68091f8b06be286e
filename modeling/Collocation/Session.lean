import Collocation.Simulation
import Collocation.Solution.Frame
import Collocation.Solve

/-!
Sessions: a problem under way with what was made from it so far, which is the snapshot of its
functions, a solver, a transcription and a solution. An operation that fails leaves these four as
they were, and one that lacks a part says which.
-/

namespace Collocation

/-- The registered schemes, the problem under way, and what was made from it. -/
structure Session (α : Type) where
  registry : Registry α
  problem : Problem α := {}
  functions : Option (Functions α) := none
  solver : Option (Solver α) := none
  transcription : Option (Transcription α) := none
  solution : Option (Solution α) := none

/-- Where a decision vector comes from: the default start, evenly rising entries, parts that are put
together, or a given value. -/
inductive VectorSource (α : Type) where
  | default
  | ramp (first step : α)
  | assembled (r : AssemblyRequest α)
  | value (v : Value α)

/-- Where a guess comes from: the bounds alone, the solution of the session, or given fields. -/
inductive GuessChoice (α : Type) where
  | bounds
  | current
  | fields (g : Outcome α (Guess α))

/-- What an optimiser returns from a start. -/
inductive Iterate (α : Type) where
  | start
  | ramp (first step : α)
  | value (v : Value α)

/-- An optimiser whose behaviour is laid down. -/
structure OptimiserScript (α : Type) where
  createFault : Option String := none
  callFault : Option String := none
  result : Iterate α := .start
  statistics : Statistics α := []
  statisticsFault : Option String := none

/-- Who is asked to solve. -/
inductive SolveRoute (α : Type) where
  | transcription
  /-- The solver of the session, which transcribes its problem first. -/
  | solver
  /-- A solver that is made for this solve alone. -/
  | options (q : Outcome α (SolverRequest α))

/-- What a solve did, how it ended and what it printed. -/
structure SolveRecord (α : Type) where
  log : SolveLog α
  outcome : Outcome α (Solution α)
  printed : String := ""

/-- The first `n` numbers that rise by equal steps. -/
def rampOf {α : Type} [Scalar α] (first step : α) (n : Nat) : List α :=
  (List.range n).map fun i => first + step * Scalar.ofNat i

namespace OptimiserScript

variable {α : Type} [Scalar α]

/-- What the optimiser returns from a start. A result that cannot be read is a failure of the
optimiser. -/
def resultFrom (s : OptimiserScript α) (start : List α) : Except Raised (List α) :=
  match s.result with
  | .start => .ok start
  | .ramp first step => .ok (rampOf first step start.length)
  | .value v => v.toVector.mapError fun f => ⟨f.report.kind, f.report.text⟩

/-- The optimiser that behaves as laid down, in every run alike. -/
def toOptimiser (s : OptimiserScript α) : Optimiser α where
  create := match s.createFault with
    | some text => .error text
    | none => .ok ()
  run start := match s.callFault with
    | some text => .error ⟨.runtime, some text⟩
    | none => s.resultFrom start
  statistics := match s.statisticsFault with
    | some text => .error text
    | none => .ok s.statistics

end OptimiserScript

namespace Session

variable {α : Type} [Scalar α]

/-- A session at its start: an empty problem and the schemes of the library. -/
def initial : Session α := { registry := .initial }

/-- A step of a session, which returns the session as it left it. -/
abbrev Step (α β : Type) := Edit (Session α) α β

/-- A part of the session, or the report that it is missing. -/
def require {γ : Type} (part : Part) (get : Session α → Option γ) (s : Session α) : Outcome α γ :=
  match get s with
  | some x => .ok x
  | none => .error (.missing part)

def requireFunctions : Session α → Outcome α (Functions α) := require .functions (·.functions)

def requireSolver : Session α → Outcome α (Solver α) := require .solver (·.solver)

def requireTranscription : Session α → Outcome α (Transcription α) :=
  require .transcription (·.transcription)

def requireSolution : Session α → Outcome α (Solution α) := require .solution (·.solution)

/-- Changes the problem. What a failed call has changed stays changed. -/
def onProblem {β : Type} (e : Edit (Problem α) α β) : Step α β :=
  e.within (·.problem) fun problem s => { s with problem }

/-- Puts another problem in place; what was made from the old one stays. -/
def newProblem (p : Problem α) : Step α (Problem α) := do
  modify fun s => { s with problem := p }
  return p

/-- Takes and keeps a snapshot of the functions of the problem. -/
def takeFunctions : Step α (Functions α) := do
  let f ← (← get).problem.functions
  modify fun s => { s with functions := some f }
  return f

/-- Makes and keeps a solver. -/
def configure (q : SolverRequest α) : Step α (Solver α) := do
  let solver ← q.configure
  modify fun s => { s with solver := some solver }
  return solver

/-- The position of a scheme under its class name. With choices of its own the scheme is new, unless
it is the trapezoidal rule itself. -/
def schemeIndex (className : String) (choices : Option (Scheme α)) :
    Edit (Registry α) α Nat := do
  if className = (Scheme.trapezoidal : Scheme α).className then return 0
  match choices with
  | some scheme => Registry.add { scheme with className }
  | none => return ((← get).lastOf? className).getD 0

/-- Registers a scheme under a name, and returns the name that the scheme has now. -/
def registerScheme (name : Value α) (className : String) (choices : Option (Scheme α)) :
    Step α String :=
  Edit.within (·.registry) (fun registry s => { s with registry }) do
    let i ← schemeIndex className choices
    Registry.register name i

/-- Transcribes the problem as it is now, and keeps the transcription. -/
def transcribe : Step α (Transcription α) := do
  let s ← get
  let t ← Transcription.create s.registry (← s.requireSolver) s.problem
  modify fun s => { s with transcription := some t }
  return t

/-- The name that the scheme of a transcription has now. -/
def schemeName (s : Session α) (t : Transcription α) : String := s.registry.nameOf t.schemeIndex

/-- A decision vector for a transcription, as a value. -/
def vector (t : Transcription α) : VectorSource α → Outcome α (Value α)
  | .default => .ok (.ofRow (Guess.default t.layout))
  | .ramp first step => .ok (.ofRow (rampOf first step t.layout.size))
  | .assembled r => (t.layout.assembleRequest r).map .ofRow
  | .value v => .ok v

/-- A guess; the solution of the session has to be there if it is asked for. -/
def guessSource (s : Session α) : GuessChoice α → Outcome α (GuessSource α)
  | .bounds => .ok .bounds
  | .current => s.requireSolution.map .solution
  | .fields g => g.map .guess

/-- The start that a guess gives for the transcription. -/
def start (s : Session α) (choice : GuessChoice α) : Outcome α (List α) := do
  let t ← s.requireTranscription
  (← s.guessSource choice).start t.layout t.mesh

/-- Solves the problem by a solver, which transcribes it first. A solution that cannot be printed is
a failed solve. -/
def solveBy (s : Session α) (solver : Solver α) (o : Optimiser α) (guess : GuessSource α) :
    SolveRecord α :=
  let (log, outcome) := solver.solve s.registry s.problem o guess
  let shown : Outcome α (Solution α × String) := do
    let solution ← outcome
    return (solution, ← solver.printed solution)
  match shown with
  | .ok (solution, printed) => { log, outcome := .ok solution, printed }
  | .error f => { log, outcome := .error f }

/-- What becomes of a solve for which nothing is missing. -/
def attempt (s : Session α) (route : SolveRoute α) (o : Optimiser α) (choice : GuessChoice α) :
    Outcome α (SolveRecord α) :=
  match route with
  | .transcription => do
    let t ← s.requireTranscription
    let (log, outcome) := t.solve (s.schemeName t) o (← s.guessSource choice)
    return { log, outcome }
  | .solver => do
    let solver ← s.requireSolver
    return s.solveBy solver o (← s.guessSource choice)
  | .options q => do
    let guess ← s.guessSource choice
    let solver ← (← q).configure
    return s.solveBy solver o guess

/-- The record of a solve. Where something is missing there is nothing in the log. -/
def record (s : Session α) (route : SolveRoute α) (o : Optimiser α) (choice : GuessChoice α) :
    SolveRecord α :=
  match s.attempt route o choice with
  | .ok r => r
  | .error f => { log := {}, outcome := .error f }

/-- Solves, and keeps the solution if there is one. -/
def solve (route : SolveRoute α) (o : Optimiser α) (choice : GuessChoice α) :
    Step α (SolveRecord α) := do
  let r := (← get).record route o choice
  if let .ok solution := r.outcome then
    modify fun s => { s with solution := some solution }
  return r

/-- Makes and keeps a solution from its fields. -/
def makeSolution (r : SolutionRequest α) : Step α (Solution α) := do
  let solution ← r.toSolution
  modify fun s => { s with solution := some solution }
  return solution

/-- Simulates the problem as it is now, with the controls of the solution. -/
def simulate (s : Session α) (q : SimulationRequest α) (solver : OdeSolver α) :
    Outcome α (OdeLog α × Simulation α) := do
  Simulation.run s.problem (← s.requireSolution) q solver

end Session

end Collocation
