import Collocation.Decimal.Fixed
import Collocation.Mesh
import Collocation.Solution

/-!
The texts of a solution: one line, and a summary of its data in sections.
-/

namespace Collocation.Solution

variable {α : Type} [Scalar α]

def formatted (layout : Decimal.Layout) (x : α) : String :=
  layout.render (Scalar.isNegative x) (Scalar.exact x)

def brief (x : α) : String := formatted (.general 6) x

def precise (x : α) : String := formatted (.scientific 12) x

def rough (x : α) : String := formatted (.scientific 6) x

/-- A value in the summary, which has to be a number. -/
def preciseValue (v : Value α) : Outcome α String :=
  match v with
  | .number _ | .bool _ => v.toScalar.map precise
  | .text _ => .error (.reading (.textFormat "e"))
  | v => .error (.reading (.noFormat v.typeName))

def text (s : Solution α) : String :=
  "Solution(status=" ++ s.status.name ++ ", objective=" ++ brief s.objective ++ ", mesh_points="
    ++ toString s.numPoints ++ ", t0=" ++ brief s.initialTime ++ ", tf=" ++ brief s.finalTime
    ++ ")"

def nameList (names : List (Value α)) : String :=
  "(" ++ toString names.length ++ "): " ++ (Value.list names).shown

def structureLines (s : Solution α) : List String :=
  ["", "┌─ PROBLEM STRUCTURE", "│", "│  Transcription: " ++ s.scheme.display,
   "│  State Variables " ++ nameList s.names.states,
   "│  Control Variables " ++ nameList s.names.controls]
  ++ (if s.names.multipliers.isEmpty then []
      else ["│  Multipliers " ++ nameList s.names.multipliers])
  ++ ["│"]

def statusLines (s : Solution α) : List String :=
  ["┌─ SOLUTION STATUS", "│", "│  Status: " ++ s.status.name, "│  Message: " ++ s.message.display,
   "│  Iterations: " ++ toString s.iterations, "│"]

def termLine (e : Value α × Value α) : Outcome α String := do
  return "│    " ++ e.1.display ++ ": " ++ (← preciseValue e.2)

def objectiveLines (s : Solution α) : Outcome α (List String) := do
  let total := if Scalar.isFinite s.objective then precise s.objective else "Not available"
  let terms ← s.breakdown.mapM fun e => (termLine e : Outcome α String)
  return ["┌─ OBJECTIVE", "│", "│  Total: " ++ total] ++ terms ++ ["│"]

def timingLines (s : Solution α) : List String :=
  ["┌─ TIMING", "│", "│  Initial Time: " ++ precise s.initialTime,
   "│  Final Time: " ++ precise s.finalTime, "│  Duration: " ++ precise s.duration, "│"]

/-- The parameters, if there are any. -/
def parameterLines (s : Solution α) : List String :=
  if s.names.parameters.isEmpty then []
  else ["┌─ PARAMETERS", "│"]
    ++ s.names.parameters.zipWith (fun n x => "│    " ++ n.display ++ ": " ++ precise x)
        s.parameters
    ++ ["│"]

/-- The least of some entries, where one that is "not a number" counts as the least. -/
def leastOf (x : α) (xs : List α) : α :=
  xs.foldl (fun m y => if Scalar.isNaN m then m else if Scalar.isNaN y || y < m then y else m) x

/-- The greatest of some entries, where one that is "not a number" counts as the greatest. -/
def greatestOf (x : α) (xs : List α) : α :=
  xs.foldl (fun m y => if Scalar.isNaN m then m else if Scalar.isNaN y || m < y then y else m) x

def meshLines (s : Solution α) : List String :=
  let intervals := Mesh.differences s.meshPoints
  ["┌─ MESH CONFIGURATION", "│", "│  Mesh Points: " ++ toString s.meshPoints.length,
   "│  Intervals: " ++ toString intervals.length]
  ++ (match intervals with
      | [] => []
      | x :: rest =>
        ["│  Smallest Interval: " ++ rough (leastOf x rest),
         "│  Largest Interval: " ++ rough (greatestOf x rest)])
  ++ (if s.multiplierIndices.isEmpty then []
      else ["│  Kinematic Constraint Points: " ++ toString s.multiplierIndices.length])
  ++ ["│"]

def ruler : String := String.ofList (List.replicate 80 '=')

def summary (s : Solution α) : Outcome α String := do
  let objective ← s.objectiveLines
  let lines :=
    ["", ruler, "DIRCOL SOLUTION DATA", ruler]
    ++ s.structureLines ++ s.statusLines ++ objective ++ s.timingLines
    ++ s.parameterLines ++ s.meshLines
    ++ [ruler, "END SOLUTION DATA", ruler, ""]
  return String.join (lines.map (· ++ "\n"))

end Collocation.Solution
