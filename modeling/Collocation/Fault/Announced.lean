import Collocation.Signature
import Collocation.Value.Reading

/-!
Failures that a caller announces: a kind, a message and perhaps a context, both of any kind of
value.
-/

namespace Collocation

/-- A failure that a caller announces. -/
structure Announced (α : Type) where
  kind : Kind
  message : Value α
  context : Value α := .none

namespace Announced

variable {α : Type} [Scalar α]

/-- The arguments from which every failure of the library is made. -/
def signature : Signature where
  function := Kind.base.name ++ ".__init__"
  required := ["message"]
  optional := ["context"]

def ofArguments (kind : Kind) (args : List (Value α)) : Outcome α (Announced α) := do
  signature.checkCount args.length
  return ⟨kind, args[0]?.getD .none, args[1]?.getD .none⟩

/-- The message, followed by the context unless that counts as false. -/
def text (f : Announced α) : Outcome α String := do
  if ← f.context.toTruth then
    return f.message.display ++ " (Context: " ++ f.context.display ++ ")"
  else return f.message.display

end Announced

end Collocation
