import Collocation.Fault.Configuration

/-!
Failures of data: vectors, trajectories and solutions whose sizes or contents do not fit.
-/

namespace Collocation

inductive DataFault (α : Type) where
  | corrupt (name stage : String)
  | shape (name : String) (actual : List Nat) (expected : Value α) (stage : String)
  | indicesOutside (indices : List Int) (points : Value α)
  | indicesRepeated (indices : List Int)
  /-- A wrong number of bounds or names of one sort. -/
  | count (actual : Nat) (sort : String) (expected : Value α)
  | vectorLength (actual size : Nat) (splitting : Bool)
  /-- A layout of another size than its dimensions tell. -/
  | layoutSize (actual : Nat) (expected : Int)
  | trajectoryShape (name : String) (actual : List Nat) (height width : Int)
  | parameterCount (actual : Nat) (expected : Int)
  | quadratureShape (actual : List Nat) (points : Nat) (scheme : String)
  | assembly (problem : String) (cause : Report) (scheme : String)
  /-- Sample times that are too few or do not increase. -/
  | sampleTimes
  | noSampleTimes
  | sampleShape (name : String) (actual : List Nat) (samples columns : Nat)
  | objective (value : α)
  | stateCount (solution problem : Nat)

namespace DataFault

variable {α : Type} [Scalar α]

def indicesText (indices : List Int) : String := shapeText indices

def arrayShape (shape : List Nat) : String := shapeText (shape.map Int.ofNat)

/-- The wording of each failure; it is not laid down where that of a cause is not. -/
def message : DataFault α → Option String
  | .corrupt name _ => some (name ++ " contains NaN or Inf values")
  | .shape name actual expected _ =>
    some (name ++ " has shape " ++ arrayShape actual ++ ", expected " ++ expected.display)
  | .indicesOutside indices points =>
    some ("Kinematic constraint indices " ++ indicesText indices ++ " outside mesh of "
      ++ points.display ++ " points")
  | .indicesRepeated indices =>
    some ("Duplicate kinematic constraint indices " ++ indicesText indices)
  | .count actual sort expected =>
    some ("Got " ++ toString actual ++ " " ++ sort ++ " entries, expected " ++ expected.display)
  | .vectorLength actual size _ =>
    some ("Vector of length " ++ toString actual ++ " does not match layout size "
      ++ toString size)
  | .layoutSize actual expected =>
    some ("Layout has " ++ toString actual ++ " entries, expected " ++ toString expected)
  | .trajectoryShape name actual height width =>
    some (name ++ " have shape " ++ arrayShape actual ++ ", expected "
      ++ shapeText [height, width])
  | .parameterCount actual expected =>
    some ("parameters have " ++ toString actual ++ " entries, expected " ++ toString expected)
  | .quadratureShape actual points _ =>
    some ("Quadrature coefficients have shape " ++ arrayShape actual ++ ", expected ("
      ++ toString points ++ ",)")
  | .assembly problem cause _ => cause.shown.map fun t =>
    "Failed to assemble NLP for problem '" ++ problem ++ "': " ++ t
  | .sampleTimes =>
    some "Initial guess times must contain at least two strictly increasing values"
  | .noSampleTimes => some "Initial guess trajectories require sample times"
  | .sampleShape name actual samples columns =>
    some ("Initial guess " ++ name ++ " have shape " ++ arrayShape actual ++ ", expected "
      ++ arrayShape [samples, columns])
  | .objective value =>
    some ("Converged solution has non-finite objective " ++ Scalar.text value)
  | .stateCount solution problem =>
    some ("Solution has " ++ toString solution ++ " states, problem has " ++ toString problem)

def context : DataFault α → Option String
  | .corrupt _ stage => some ("Numerical corruption in " ++ stage)
  | .shape _ _ _ stage => some ("Shape mismatch in " ++ stage)
  | .vectorLength _ _ splitting => if splitting then some "Layout split" else none
  | .layoutSize .. => some "Layout construction"
  | .trajectoryShape .. => some "Layout assemble"
  | .parameterCount .. => some "Layout assemble"
  | .quadratureShape _ _ scheme => some (scheme ++ " quadrature")
  | .assembly _ _ scheme => some (scheme ++ " construction error")
  | .sampleTimes => some "Initial guess interpolation"
  | .noSampleTimes => some "Initial guess interpolation"
  | .sampleShape .. => some "Initial guess interpolation"
  | .objective _ => some "extraction"
  | .stateCount .. => some "Forward simulation"
  | _ => none

end DataFault

end Collocation
