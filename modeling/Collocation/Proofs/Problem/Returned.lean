import Collocation.Problem.Returned
import Collocation.Proofs.Outcome

/-! Results of callables that cannot be read.  Most of them are reported as failures of the
definition of the problem; those that are not are whole numbers out of range, entries that do not go
on top of each other, and arrays with more than two axes, unless they hold a single number. -/

namespace Collocation

variable {β α : Type} [Scalar α]

@[simp] theorem Fault.kind_reading (f : ReadFault) :
    (Fault.reading f : Fault α).kind = f.report.kind := rfl

@[simp] theorem Fault.kind_problem (f : ProblemFault α) :
    (Fault.problem f).kind = .problemDefinition := rfl

@[simp] theorem Fault.kind_foreign (cause : Report) :
    (Fault.foreign cause : Fault α).kind = cause.kind := rfl

namespace Value

/-- A whole number that has no scalar. -/
def TooLarge (v : Value α) : Prop :=
  ∃ n, v.whole? = some n ∧ (Scalar.ofInt? n : Option α) = Option.none

end Value

namespace Entry

/-- A function stands for itself, and a number for a constant. -/
inductive Makes : Entry β α → MatrixFunction β α → Prop where
  | function (f : MatrixFunction β α) : Makes (.function f) f
  | number {v : Value α} {x : α} (h : v.toScalar = .ok x) : Makes (.value v) ⟨1, 1, [fun _ => x]⟩

variable {what : String} {index : Nat} {kind : Kind}

end Entry

namespace MatrixFunction

/-- Two of the matrices have columns, or rows, but not the same number of columns. -/
def Uneven (fs : List (MatrixFunction β α)) : Prop :=
  ∃ f ∈ fs, ∃ g ∈ fs, f.isNothing = false ∧ g.isNothing = false ∧ f.width ≠ g.width

end MatrixFunction

namespace Returned

/-- The entries of a sequence. -/
def entries? : Returned β α → Option (List (Entry β α))
  | .sequence entries => some entries
  | .value (.list items) => some (items.map .value)
  | .value (.tuple items) => some (items.map .value)
  | _ => none

/-- A result that cannot be read, for a reason that is not reported as a failure of the definition:
a fault of the given kind comes through as it is. -/
inductive Escapes : Returned β α → Kind → Prop where
  | entry {r : Returned β α} {before after : List (Entry β α)} {v : Value α}
      (h : r.entries? = some (before ++ .value v :: after))
      (hbefore : ∀ e ∈ before, ∃ f, e.Makes f) (hv : v.TooLarge) : Escapes r .overflow
  | uneven {r : Returned β α} {entries : List (Entry β α)} {fs : List (MatrixFunction β α)}
      (h : r.entries? = some entries) (hfs : List.Forall₂ Entry.Makes entries fs)
      (huneven : MatrixFunction.Uneven fs) : Escapes r .runtime
  | number {v : Value α} (hv : v.TooLarge) : Escapes (.value v) .overflow
  | axes {t : Tensor α} (h : 2 < t.rank) (hsize : t.size ≠ 1) :
      Escapes (.array t) (.other "NotImplementedError")

/-- The failures that come through as they are. -/
def escapingKinds : List Kind := [.overflow, .runtime, .other "NotImplementedError"]

theorem Escapes.kind_mem {r : Returned β α} {kind : Kind} (h : r.Escapes kind) :
    kind ∈ escapingKinds := by
  cases h <;> simp [escapingKinds]

variable {what : String} {kind : Kind}

section Escapes

variable (hkind : kind ≠ .problemDefinition)
include hkind

end Escapes

end Returned

namespace Evaluator

/-- A function returns, without failing, what cannot be read for a reason that is not reported as a
failure of the definition. -/
def Escapes (e : Evaluator β α) (s : Setting) (kind : Kind) : Prop :=
  ∃ r, e s = .ok r ∧ r.Escapes kind

variable {what : String} {kind : Kind} {e : Evaluator β α} {s : Setting}

theorem Escapes.kind_mem (h : e.Escapes s kind) : kind ∈ Returned.escapingKinds := by
  obtain ⟨r, -, hr⟩ := h
  exact hr.kind_mem

end Evaluator

end Collocation
