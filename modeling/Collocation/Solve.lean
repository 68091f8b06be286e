import Collocation.Guess
import Collocation.Solution.Summary
import Collocation.Transcription.Program

/-!
Solving a transcription. The optimiser is given as an `Optimiser`: what it does when it is created,
what it returns from a start, and what it reports afterwards. Non-convergence comes back as a
solution; a converged solution with corrupt data is refused.
-/

namespace Collocation

structure Optimiser (α : Type) where
  /-- It may refuse its options. -/
  create : Except String Unit := .ok ()
  /-- What it returns from a start; a failure here still leads to a solution. -/
  run : List α → Except Raised (List α)
  /-- What it reports afterwards. -/
  statistics : Except String (Statistics α) := .ok []

/-- What an optimiser was given when it was created. -/
structure CreationLog (α : Type) where
  solver : String
  options : Table α (Value α)
  numVariables : Nat
  numConstraints : Nat

/-- What an optimiser was given when it was run. -/
structure RunLog (α : Type) where
  start : List α
  variableBounds : List (Bounds α)
  constraintBounds : List (Bounds α)

/-- What an optimiser was given, as far as a solve went. -/
structure SolveLog (α : Type) where
  creation : Option (CreationLog α) := none
  run : Option (RunLog α) := none

namespace Statistics

variable {α : Type} [Scalar α]

def namedOutcomes : List (String × Status) :=
  [("Solve_Succeeded", .converged), ("Solved_To_Acceptable_Level", .converged),
   ("Feasible_Point_Found", .converged), ("Maximum_Iterations_Exceeded", .iterationLimit),
   ("Maximum_CpuTime_Exceeded", .iterationLimit), ("Maximum_WallTime_Exceeded", .iterationLimit),
   ("Infeasible_Problem_Detected", .infeasible)]

/-- The outcome that was reported: by its name, or by whether it counts as a success. -/
def status (s : Statistics α) : Outcome α Status :=
  let named := ((s.named? "return_status").map Value.display).getD ""
  match namedOutcomes.lookup named with
  | some outcome => .ok outcome
  | none => do
    let success ← ((s.named? "success").getD (.bool false)).toTruth
    return if success then .converged else .solverError

def message (s : Statistics α) : String :=
  ((s.named? "return_status").map Value.display).getD "unknown"

def iterations (s : Statistics α) : Outcome α Int :=
  match s.named? "iter_count" with
  | some v => v.toWhole
  | none => .ok 0

/-- The report on a run that failed: what was recorded so far, marked as a failure. -/
def ofFailure (recorded : Except String (Statistics α)) (text : String) : Statistics α :=
  let base := match recorded with
    | .ok s => s
    | .error _ => []
  Table.put (.text "return_status") (.text ("Exception: " ++ text))
    (Table.put (.text "success") (.bool false) base)

end Statistics

namespace Transcription

variable {α : Type} [Scalar α]

/-- A failure while the output is decoded: those of the library's own kinds pass, the others are
wrapped. -/
def decodingFault (t : Transcription α) (f : Fault α) : Fault α :=
  if f.kind.isOwn then f else .decoding f.report t.scheme.className

/-- The content, the objective and its terms at a vector. -/
def decode (t : Transcription α) (w : List α) :
    Outcome α (Trajectory α × α × List (String × α)) := do
  let content ← t.layout.split w
  let objective ← t.evaluateObjective w
  let terms ← t.evaluateTerms w
  return (content, objective, terms)

def extract (t : Transcription α) (schemeName : String) (w : List α) (s : Statistics α) :
    Outcome α (Solution α) := do
  let status ← s.status
  let iterations ← s.iterations
  let (content, objective, terms) ←
    match t.decode w with
    | .ok d => pure d
    | .error f => throw (t.decodingFault f)
  if status = .converged then
    Check.finiteEntries w "Converged decision vector" "extraction"
    unless Scalar.isFinite objective do throw (.data (.objective objective))
  let f := t.functions
  return {
    times := t.mesh.times content.initialTime content.finalTime
    states := content.states
    controls := content.controls
    multipliers := content.multipliers
    multiplierIndices := t.layout.constrained.map fun (k : Nat) => .int k
    parameters := content.parameters
    meshPoints := t.mesh.points
    initialTime := content.initialTime
    finalTime := content.finalTime
    objective, iterations, status
    breakdown := terms.map fun e => (.text e.1, .real e.2)
    message := .text s.message
    names := ⟨f.stateNames.map .text, f.controlNames.map .text, f.multiplierNames.map .text,
      f.parameterNames.map .text⟩
    scheme := .text schemeName
    statistics := s }

/-- Runs an optimiser from a start and extracts the solution. -/
def runFrom (t : Transcription α) (schemeName : String) (o : Optimiser α) (start : List α) :
    Outcome α (Solution α) :=
  match o.run start with
  | .error cause =>
    if cause.kind = .runtime then
      t.extract schemeName start (.ofFailure o.statistics (cause.text.getD ""))
    else .error (.foreign cause.report)
  | .ok w =>
    match o.statistics with
    | .ok s => t.extract schemeName w s
    | .error text => .error (.foreign ⟨.runtime, some text, none⟩)

/-- Solves a transcription from a guess; with what the optimiser was given, as far as it came. -/
def solve (t : Transcription α) (schemeName : String) (o : Optimiser α)
    (guess : GuessSource α) : SolveLog α × Outcome α (Solution α) :=
  let prepared : Outcome α (Program α × List α) := do
    let p ← t.program
    return (p, ← guess.start t.layout t.mesh)
  match prepared with
  | .error f => ({}, .error f)
  | .ok (p, start) =>
    let creation : CreationLog α :=
      ⟨t.solver.optimSolver, t.solver.allOptions, t.layout.size, p.numConstraints⟩
    match o.create with
    | .error text =>
      ({ creation }, .error (.scheme (.engine t.solver.optimSolver text)))
    | .ok _ =>
      let run : RunLog α := ⟨start, t.layout.slots.map (·.bounds), p.constraintBounds⟩
      ({ creation, run }, t.runFrom schemeName o start)

end Transcription

namespace Solver

variable {α : Type} [Scalar α]

def solve (s : Solver α) (r : Registry α) (p : Problem α) (o : Optimiser α)
    (guess : GuessSource α) : SolveLog α × Outcome α (Solution α) :=
  let prepared : Outcome α (Transcription α) := do
    let t ← Transcription.create r s p
    if 1 ≤ s.verbosity then let _ ← t.program
    return t
  match prepared with
  | .error f => ({}, .error f)
  | .ok t => t.solve (r.nameOf t.schemeIndex) o guess

def printed (s : Solver α) (solution : Solution α) : Outcome α String := do
  if ← s.showSummary.toTruth then solution.summary else return ""

end Solver

end Collocation
