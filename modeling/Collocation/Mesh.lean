import Collocation.Check
import Collocation.Decimal.Fixed
import Collocation.Number.Arithmetic
import Collocation.Signature
import Collocation.Summation

/-!
Meshes: strictly increasing grids from zero to one. A point stands for the time at which that part
of the horizon has passed, so the horizon itself may still be unknown.
-/

namespace Collocation

/-- The points of a grid from zero to one. -/
structure Mesh (α : Type) where
  points : List α

/-- A mesh as it is asked for: by the number of its points, by the ratios of its intervals, or by
the points themselves. -/
inductive MeshForm (α : Type) where
  | uniform (count : Value α)
  | lengths (lengths : Value α)
  | points (points : Value α)

namespace Mesh

variable {α : Type} [Scalar α]

/-- How far the ends of given points may lie from zero and one. -/
def endTolerance : α := 1e-14

def spacing : α := 1e-12

def differences : List α → List α
  | x :: y :: rest => (y - x) :: differences (y :: rest)
  | _ => []

/-- The position of the least entry, the first of equal ones. -/
def leastIndex : List α → Nat
  | [] => 0
  | x :: rest => go x 0 1 rest
where
  /-- Goes on from the least entry so far and its position. -/
  go (least : α) (found position : Nat) : List α → Nat
    | [] => found
    | y :: rest =>
      if y < least then go y position (position + 1) rest
      else go least found (position + 1) rest

/-- The last of some points; zero if there are none. -/
def lastPoint (points : List α) : α := points.getLast?.getD 0.0

/-- Checks points: a row of at least two finite numbers, from zero to one up to a tolerance, whose
distances all exceed the spacing. -/
def checkPoints (t : Tensor α) : Outcome α (List α) := do
  if t.rank ≠ 1 then throw (.mesh (.notOneDimensional t.shape))
  let points := t.entries
  if points.length < 2 then throw (.mesh (.tooFewPoints points.length))
  unless points.all Scalar.isFinite do throw (.mesh .notFinite)
  let first := points.headD 0.0
  let last := lastPoint points
  if endTolerance < Scalar.abs first || endTolerance < Scalar.abs (last - 1.0) then
    throw (.mesh (.wrongEnds first last))
  let gaps := differences points
  unless gaps.all fun d => decide (spacing < d) do
    let i := leastIndex gaps
    throw (.mesh (.notIncreasing i (gaps[i]?.getD 0.0)))
  return points

/-- Points with the ends moved to zero and one. -/
def withEnds (points : List α) : List α := 0.0 :: (points.drop 1).dropLast ++ [1.0]

def ofTensor (t : Tensor α) : Outcome α (Mesh α) := do
  return ⟨withEnds (← checkPoints t)⟩

def ofValue (v : Value α) : Outcome α (Mesh α) := do
  ofTensor (← v.toTensor)

def equalPoints (n : Nat) : List α :=
  let step : α := 1.0 / Scalar.ofNat (n - 1)
  (List.range (n - 1)).map (fun i => Scalar.ofNat i * step) ++ [1.0]

/-- There is memory for an array of so many entries. -/
def checkMemory (n : Int) : Outcome α Unit := do
  if (Scalar.ofInt? n : Option α).isNone then throw (.reading .quotientTooLarge)
  if Tensor.countable ≤ n then throw (.reading .tooManyEntries)
  if Tensor.countableEntries ≤ n then throw (.reading .tooManyBytes)
  if Scalar.maxEntries α < n then throw (.reading (.noMemory n.toNat))

def uniform (v : Value α) : Outcome α (Mesh α) := do
  let n ← Check.integer v "num_mesh_points" 2
  checkMemory n
  ofTensor (Tensor.ofList (equalPoints n.toNat))

/-- Checks interval lengths: a row of at least one number, all positive and finite. -/
def checkLengths (t : Tensor α) : Outcome α (List α) := do
  if t.rank ≠ 1 || t.entries.length < 1 then throw (.mesh .lengthsShape)
  unless t.isFinite do throw (.mesh .lengthsNotFinite)
  if t.entries.any fun x => decide (x ≤ 0.0) then throw (.mesh .lengthsNotPositive)
  return t.entries

/-- The sums of the first one, two, … entries, after `start`. -/
def runningSums (start : α) : List α → List α
  | [] => []
  | x :: rest => (start + x) :: runningSums (start + x) rest

/-- The points whose distances have the ratios of the given lengths. -/
def pointsOfLengths (lengths : List α) : List α :=
  let total := Summation.pairwise lengths
  0.0 :: (runningSums 0.0 lengths).map (· / total)

/-- The mesh whose intervals have the ratios of the given lengths. -/
def ofLengths (v : Value α) : Outcome α (Mesh α) := do
  let lengths ← checkLengths (← v.toTensor)
  ofTensor (Tensor.ofList (pointsOfLengths lengths))

def ofForm : MeshForm α → Outcome α (Mesh α)
  | .uniform count => uniform count
  | .lengths lengths => ofLengths lengths
  | .points points => ofValue points

def numPoints (m : Mesh α) : Nat := m.points.length

def intervals (m : Mesh α) : List α := differences m.points

def numIntervals (m : Mesh α) : Nat := m.numPoints - 1

def timeAt (initial final tau : α) : α := initial + (final - initial) * tau

def times (m : Mesh α) (initial final : α) : List α := m.points.map (timeAt initial final)

def timesSignature : Signature where
  function := "Mesh.times"
  required := ["initial_time", "final_time"]

/-- A value that a number is added to or subtracted from. -/
def operands (operator : String) (x y : Value α) : Outcome α (Number α × Number α) :=
  match x.numeric?, y.numeric? with
  | some a, some b => .ok (a, b)
  | _, _ => .error (.reading (.noOperation operator x.typeName y.typeName))

/-- The times of all points on a horizon between two values in their places. The length of the
horizon is exact where both are whole. -/
def timesOf (m : Mesh α) (args : List (Value α)) : Outcome α (List α) := do
  timesSignature.checkCount args.length
  let (final, initial) ← operands "-" (args[1]?.getD .none) (args[0]?.getD .none)
  let length ← Value.scalarOfNumber (← final.difference initial)
  let start ← Value.scalarOfNumber initial
  return m.points.map fun tau => start + length * tau

/-- Closeness up to an absolute tolerance and one relative to the second value. -/
def close (x y : α) : Bool := decide (Scalar.abs (x - y) ≤ 1e-8 + 1e-5 * Scalar.abs y)

def isUniform (m : Mesh α) : Bool :=
  let mean : α := 1.0 / Scalar.ofNat m.numIntervals
  m.intervals.all (close · mean)

/-- Two meshes agree if they have as many points, and each point of the first is close to that of
the second. -/
def agrees (m other : Mesh α) : Bool :=
  m.numPoints == other.numPoints && (m.points.zipWith close other.points).all id

def roundTwelve (x : α) : α :=
  match Scalar.exact (x * 1e12) with
  | .finite q => Scalar.ofInt (Decimal.roundEven q) / 1e12
  | _ => x

/-- The points rounded to twelve decimals, by which meshes are told apart in tables. -/
def key (m : Mesh α) : List α := m.points.map roundTwelve

def sameKey (m other : Mesh α) : Bool :=
  m.numPoints == other.numPoints && (m.key.zipWith Scalar.eq other.key).all id

def text (m : Mesh α) : String :=
  "Mesh(" ++ toString m.numPoints ++ " points, "
    ++ (if m.isUniform then "uniform" else "non-uniform") ++ ")"

end Mesh

end Collocation
