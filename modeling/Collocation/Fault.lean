import Collocation.Fault.Call
import Collocation.Fault.Data
import Collocation.Fault.Definition
import Collocation.Fault.Reading

/-!
All failures of the library, by area. Each is a cause; its kind and wording come from
`Fault.report`.
-/

namespace Collocation

/-- What a session may not have yet. -/
inductive Part where
  | functions
  | solver
  | transcription
  | solution
  | layout
  deriving DecidableEq

def Part.name : Part → String
  | .functions => "functions"
  | .solver => "solver"
  | .transcription => "tr"
  | .solution => "sol"
  | .layout => "layout"

inductive Fault (α : Type) where
  | reading (f : ReadFault)
  | call (f : CallFault)
  | bounds (f : BoundsFault α) (context : String)
  | problem (f : ProblemFault α)
  | option (f : OptionFault α)
  | mesh (f : MeshFault α)
  | scheme (f : SchemeFault α)
  | data (f : DataFault α)
  /-- The output of the solver could not be decoded. -/
  | decoding (cause : Report) (className : String)
  | notConverged (status : String) (message : Value α)
  | noVariable (name : Value α) (available : List (Value α))
  | functionName (name : String)
  | missing (part : Part)
  | foreign (cause : Report)

namespace Fault

variable {α : Type} [Scalar α]

def report : Fault α → Report
  | .reading f => f.report
  | .call f => f.report
  | .bounds f context => ⟨.problemDefinition, some f.message, some context⟩
  | .problem f => ⟨.problemDefinition, f.message, f.context⟩
  | .option f => ⟨.configuration, some f.message, f.context⟩
  | .mesh f => ⟨.configuration, some f.message, none⟩
  | .scheme f => ⟨.configuration, some f.message, f.context⟩
  | .data f => ⟨.dataIntegrity, f.message, f.context⟩
  | .decoding cause className =>
    ⟨.solutionExtraction, cause.shown.map ("Failed to decode solver output: " ++ ·),
      some (className ++ " decoding")⟩
  | .notConverged status message =>
    ⟨.solverFailure, some ("NLP solve did not converge: " ++ status),
      some ("solver message: " ++ message.display)⟩
  | .noVariable name available =>
    ⟨.key, some ("Variable '" ++ name.display ++ "' not found. Available: "
      ++ (Value.list available).shown), none⟩
  | .functionName _ => ⟨.runtime, none, none⟩
  | .missing part => ⟨.other "Missing", some part.name, none⟩
  | .foreign cause => cause

def kind (f : Fault α) : Kind := f.report.kind

end Fault

abbrev Outcome (α : Type) (β : Type) := Except (Fault α) β

end Collocation
