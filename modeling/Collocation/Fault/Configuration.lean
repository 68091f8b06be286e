import Collocation.Fault.Report
import Collocation.Value

/-!
Failures of a configuration: meshes, solver options and transcription schemes.
-/

namespace Collocation

/-- The text of a shape: the sizes of its axes in parentheses. -/
def shapeText (shape : List Int) : String :=
  "(" ++ ", ".intercalate (shape.map toString) ++ (if shape.length == 1 then ",)" else ")")

inductive OptionFault (α : Type) where
  | notInteger (name typeText : String)
  | belowMinimum (name : String) (minimum : Value α) (value : Int)
  | notNumeric (name typeText : String)
  | notFinite (name : String) (value : Number α)
  | notPositive (name : String) (value : Number α)
  | unsupported (name value : String) (supported : List String)
  /-- A name of a scheme that is no text, or a blank one. -/
  | schemeName (value : Value α)
  | schemeOptions (typeName : String)
  | meshConflict (count : Value α) (points : Nat)

inductive MeshFault (α : Type) where
  | notOneDimensional (shape : List Nat)
  | tooFewPoints (count : Nat)
  | notFinite
  /-- Ends that are not close to zero and one. -/
  | wrongEnds (first last : α)
  | notIncreasing (interval : Nat) (length : α)
  | lengthsShape
  | lengthsNotFinite
  | lengthsNotPositive

inductive SchemeFault (α : Type) where
  | blankName (value : Value α)
  | taken (name owner : String)
  | unknown (name : String) (registered : List String)
  /-- Another number of state points than the mesh has. -/
  | statePoints (expected : Number α) (actual : Nat)
  | controlPoints (control state : Number α)
  | noDerivatives (scheme : String)
  | unknownOptions (names : List String)
  | engine (solver text : String)

namespace OptionFault

variable {α : Type} [Scalar α]

def message : OptionFault α → String
  | .notInteger name t => name ++ " must be integer, got " ++ t
  | .belowMinimum name minimum value =>
    name ++ " must be >= " ++ minimum.display ++ ", got " ++ toString value
  | .notNumeric name t => name ++ " must be numeric, got " ++ t
  | .notFinite name value => name ++ " cannot be NaN or infinite, got " ++ value.text
  | .notPositive name value => name ++ " must be positive, got " ++ value.text
  | .unsupported name value _ => "Unsupported " ++ name ++ " '" ++ value ++ "'"
  | .schemeName value => "transcription_scheme must be a non-empty string, got " ++ value.shown
  | .schemeOptions t => "scheme_options must be a dict, got " ++ t
  | .meshConflict count points =>
    "num_mesh_points=" ++ count.display ++ " conflicts with a mesh of " ++ toString points
      ++ " points"

def context : OptionFault α → Option String
  | .unsupported name _ supported =>
    some ((if name == "optim_solver" then "Supported solvers: " else "Supported values: ")
      ++ ", ".intercalate supported)
  | _ => none

end OptionFault

namespace MeshFault

variable {α : Type} [Scalar α]

def message : MeshFault α → String
  | .notOneDimensional shape =>
    "Mesh points must be one-dimensional, got shape " ++ shapeText (shape.map Int.ofNat)
  | .tooFewPoints n => "Mesh requires at least 2 points, got " ++ toString n
  | .notFinite => "Mesh points cannot contain NaN or infinite values"
  | .wrongEnds first last =>
    "Mesh must start at 0.0 and end at 1.0, got [" ++ Scalar.text first ++ ", "
      ++ Scalar.text last ++ "]"
  | .notIncreasing interval length =>
    "Mesh points must be strictly increasing with spacing > 1e-12, interval "
      ++ toString interval ++ " has length " ++ Scalar.text length
  | .lengthsShape => "Mesh interval lengths must be a non-empty one-dimensional array"
  | .lengthsNotFinite => "Mesh interval lengths cannot contain NaN or infinite values"
  | .lengthsNotPositive => "Mesh interval lengths must all be positive"

end MeshFault

namespace SchemeFault

variable {α : Type} [Scalar α]

def message : SchemeFault α → String
  | .blankName value =>
    "Transcription scheme name must be a non-empty string: " ++ value.shown
  | .taken name owner =>
    "Transcription scheme '" ++ name ++ "' is already registered to " ++ owner
  | .unknown name _ => "Unknown transcription scheme '" ++ name ++ "'"
  | .statePoints expected actual =>
    "Transcription expects " ++ expected.text ++ " state mesh points, mesh has "
      ++ toString actual
  | .controlPoints control state =>
    "Separate control mesh points are not supported: " ++ control.text ++ " control vs "
      ++ state.text ++ " state mesh points"
  | .noDerivatives scheme =>
    "Enforcing kinematic constraint derivatives is not supported with " ++ scheme
      ++ " transcription"
  | .unknownOptions names =>
    "Unknown option(s) for trapezoidal transcription: " ++ ", ".intercalate names
  | .engine solver text => "Failed to create NLP solver '" ++ solver ++ "': " ++ text

def context : SchemeFault α → Option String
  | .unknown _ registered =>
    some ("Registered schemes: "
      ++ if registered.isEmpty then "none" else ", ".intercalate registered)
  | .unknownOptions _ => some "Trapezoidal transcription takes no scheme options"
  | .engine .. => some "Invalid solver options"
  | _ => none

end SchemeFault

end Collocation
