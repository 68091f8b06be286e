import Collocation.Text.Quoted

/-!
What the receiver of a failure sees: its kind, its message and where it arose. The library has five
kinds of its own; the others are the kinds that any program knows.
-/

namespace Collocation

inductive Kind where
  | base
  /-- A mesh, an option or a scheme is refused. -/
  | configuration
  | problemDefinition
  /-- Data do not fit, or hold what is no number. -/
  | dataIntegrity
  | solutionExtraction
  /-- A solve did not converge where it had to. -/
  | solverFailure
  /-- A value has the right kind and the wrong content. -/
  | value
  | type
  | index
  | key
  | overflow
  | runtime
  | other (name : String)
  deriving DecidableEq

namespace Kind

def name : Kind → String
  | .base => "DircolBaseError"
  | .configuration => "ConfigurationError"
  | .problemDefinition => "ProblemDefinitionError"
  | .dataIntegrity => "DataIntegrityError"
  | .solutionExtraction => "SolutionExtractionError"
  | .solverFailure => "SolverFailure"
  | .value => "ValueError"
  | .type => "TypeError"
  | .index => "IndexError"
  | .key => "KeyError"
  | .overflow => "OverflowError"
  | .runtime => "RuntimeError"
  | .other name => name

def known : List Kind :=
  [.base, .configuration, .problemDefinition, .dataIntegrity, .solutionExtraction, .solverFailure,
   .value, .type, .index, .key, .overflow, .runtime]

def ofName (s : String) : Kind := (known.find? fun k => k.name == s).getD (.other s)

/-- The kinds that the library itself raises; code that wraps foreign failures lets these pass. -/
def isOwn : Kind → Bool
  | .base | .configuration | .problemDefinition | .dataIntegrity | .solutionExtraction
  | .solverFailure => true
  | _ => false

/-- The name of the kind next above in the family of kinds. -/
def parentName : Kind → String
  | .base => "Exception"
  | k => if k.isOwn then base.name else "Exception"

end Kind

/-- A failure as it is reported. The message is absent where its wording is not laid down. -/
structure Report where
  kind : Kind
  message : Option String
  context : Option String := none

namespace Report

/-- The message, followed by the context unless that is empty. -/
def text (r : Report) : Option String :=
  r.message.map fun m =>
    match r.context with
    | some c => if c.isEmpty then m else m ++ " (Context: " ++ c ++ ")"
    | none => m

/-- The text inside another message: a missing key is shown in quotes. -/
def shown (r : Report) : Option String :=
  if r.kind = .key then r.text.map Text.quoted else r.text

end Report

end Collocation
