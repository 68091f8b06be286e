import Collocation.Fault.Report
import Collocation.Value

/-!
Failures of a problem's definition: its names, bounds, functions and constraints.
-/

namespace Collocation

inductive BoundsFault (α : Type) where
  | wrongKind (typeText : String)
  | notFinite (value : Number α)
  | notPair (length : Nat)
  | sideKind (side : Nat) (typeText : String)
  | sideNaN (side : Nat)
  | reversed (lower upper : Number α)
  /-- A lower side at plus infinity, or an upper side at minus infinity. -/
  | emptySet (lower upper : Value α)

inductive ArgumentFault where
  /-- An argument that may be left out only where it has no entries. -/
  | required (name context : String) (expected : Nat)
  | wrongLength (name context : String) (actual expected : Nat)

inductive ProblemFault (α : Type) where
  | nameKind (what typeText : String)
  | nameEmpty (what : String)
  | notCallable (what typeName : String)
  | multiplierCount (count : Value α)
  | noMultipliers
  | noPathBounds (name : String)
  | weightKind (name : String)
  | noTimes (problem : String)
  /-- No final time lies after the earliest initial time. -/
  | noHorizon (upper lower : α)
  | noStates (problem : String)
  | noDynamics (problem : String)
  | duplicateName (sort name : String)
  | raised (what : String) (cause : Report)
  /-- An entry of a returned sequence that is no number. -/
  | entryKind (what : String) (index : Nat) (cause : Report)
  | returnKind (what typeName : String)
  | notVector (what : String) (height width : Nat)
  | returnLength (what : String) (actual expected : Nat)
  | pathBounds (name : String) (size pairs : Nat)
  | noKinematic
  | argument (fault : ArgumentFault)

namespace BoundsFault

variable {α : Type} [Scalar α]

def message : BoundsFault α → String
  | .wrongKind t => "Invalid bounds type: " ++ t
  | .notFinite x => "Fixed bound cannot be NaN/infinite: " ++ x.text
  | .notPair n => "Bounds tuple must have 2 elements, got " ++ toString n
  | .sideKind i t => "Bound " ++ toString i ++ " must be numeric/None, got " ++ t
  | .sideNaN i => "Bound " ++ toString i ++ " cannot be NaN"
  | .reversed l u => "Lower bound (" ++ l.text ++ ") > upper bound (" ++ u.text ++ ")"
  | .emptySet l u =>
    "Bounds (" ++ l.display ++ ", " ++ u.display ++ ") describe an empty set"

end BoundsFault

namespace ArgumentFault

def message : ArgumentFault → String
  | .required name context expected =>
    name ++ " required for " ++ context ++ " (" ++ toString expected ++ " entries)"
  | .wrongLength name context actual expected =>
    context ++ " called with " ++ name ++ " of length " ++ toString actual ++ ", expected "
      ++ toString expected

end ArgumentFault

namespace ProblemFault

variable {α : Type} [Scalar α]

/-- The wording of each failure; it is not laid down where that of a cause is not. -/
def message : ProblemFault α → Option String
  | .nameKind what t => some (what ++ " must be string, got " ++ t)
  | .nameEmpty what => some (what ++ " cannot be empty")
  | .notCallable what t => some (what ++ " must be callable, got " ++ t)
  | .multiplierCount v =>
    some ("Kinematic constraints require at least one multiplier, got " ++ v.display)
  | .noMultipliers => some "Kinematic constraints require at least one multiplier"
  | .noPathBounds name => some ("Path constraint '" ++ name ++ "' bounds list is empty")
  | .weightKind name => some ("Cost term '" ++ name ++ "' weight must be numeric")
  | .noTimes problem => some ("Problem '" ++ problem ++ "' has no time bounds; call time()")
  | .noHorizon upper lower =>
    some ("Final time upper bound (" ++ Scalar.text upper
      ++ ") must exceed initial time lower bound (" ++ Scalar.text lower ++ ")")
  | .noStates problem => some ("Problem '" ++ problem ++ "' must have at least one state")
  | .noDynamics problem => some ("Problem '" ++ problem ++ "' must have dynamics defined")
  | .duplicateName sort name => some ("Duplicate " ++ sort ++ " name '" ++ name ++ "'")
  | .raised what cause => cause.shown.map fun t =>
    what ++ " raised " ++ cause.kind.name ++ " at symbolic arguments: " ++ t
  | .entryKind what index cause => cause.shown.map fun t =>
    what ++ " returned a non-scalar entry at index " ++ toString index ++ ": " ++ t
  | .returnKind what t => some (what ++ " returned unsupported type " ++ t)
  | .notVector what h w =>
    some (what ++ " must return a vector, got shape (" ++ toString h ++ ", " ++ toString w ++ ")")
  | .returnLength what actual expected =>
    some (what ++ " returned " ++ toString actual ++ " entries, expected " ++ toString expected)
  | .pathBounds name size pairs =>
    some ("Path constraint '" ++ name ++ "' has " ++ toString size ++ " entries but "
      ++ toString pairs ++ " bound pairs")
  | .noKinematic => some "Problem has no kinematic constraints"
  | .argument f => some f.message

/-- What a function may return, where it returned something else. -/
def context : ProblemFault α → Option String
  | .entryKind .. => some "Sequence entries must be scalar MX expressions or numbers"
  | .returnKind .. =>
    some "Evaluators must return CasADi MX expressions, numbers or sequences of them"
  | _ => none

end ProblemFault

end Collocation
