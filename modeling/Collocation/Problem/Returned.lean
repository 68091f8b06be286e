import Collocation.Problem.Point
import Collocation.Value.Reading

/-!
The result of a caller's function as a vector function: entries are joined, plain numbers are
constant, and a row counts as a column.
-/

namespace Collocation

namespace Entry

variable {β α : Type} [Scalar α]

/-- One entry of a sequence: a function stays, a plain value must be a number. -/
def toFunction (what : String) (index : Nat) : Entry β α → Outcome α (MatrixFunction β α)
  | .function f => .ok f
  | .value v =>
    match v.toScalar with
    | .ok x => .ok ⟨1, 1, [fun _ => x]⟩
    | .error e =>
      if e.kind = .overflow then .error e
      else .error (.problem (.entryKind what index e.report))

/-- All entries of a sequence from the given index on. -/
def toFunctions (what : String) (index : Nat) :
    List (Entry β α) → Outcome α (List (MatrixFunction β α))
  | [] => .ok []
  | e :: rest => do
    let f ← e.toFunction what index
    let fs ← toFunctions what (index + 1) rest
    return f :: fs

end Entry

namespace MatrixFunction

variable {β α : Type}

def constant (xs : List α) : MatrixFunction β α := ⟨xs.length, 1, xs.map fun x _ => x⟩

def ofMatrix (m : Matrix α) : MatrixFunction β α :=
  ⟨m.height, m.width, m.byColumns.map fun x _ => x⟩

/-- A matrix of one column as that column, and one of one row as a column. -/
def toVector (what : String) (f : MatrixFunction β α) : Outcome α (VectorFunction β α) :=
  if f.width = 1 || f.height = 1 then .ok f.components
  else .error (.problem (.notVector what f.height f.width))

end MatrixFunction

namespace Returned

variable {β α : Type} [Scalar α]

def ofEntries (what : String) (entries : List (Entry β α)) : Outcome α (MatrixFunction β α) := do
  match MatrixFunction.onTop (← Entry.toFunctions what 0 entries) with
  | .ok f => return f
  | .error e => throw (.foreign e.report)

/-- An array of at most two axes, where one axis is a column. An array of a single number is that
number, however many axes it has. -/
def ofTensor (t : Tensor α) : Outcome α (MatrixFunction β α) :=
  match t.shape with
  | [] => .ok (.constant t.entries)
  | [_] => .ok (.constant t.entries)
  | [height, width] => .ok (.ofMatrix ⟨height, width, Tensor.rowsOf width height t.entries⟩)
  | _ => if t.size = 1 then .ok (.constant t.entries) else .error (.reading .tooManyAxes)

def toMatrix (what : String) : Returned β α → Outcome α (MatrixFunction β α)
  | .sequence entries => ofEntries what entries
  | .function f => .ok f
  | .array t => ofTensor t
  | .value v =>
    match v with
    | .list items => ofEntries what (items.map .value)
    | .tuple items => ofEntries what (items.map .value)
    | .matrix m => .ok (.ofMatrix m)
    | .bool _ | .number _ => do ofTensor (← v.toTensor)
    | v => .error (.problem (.returnKind what v.typeName))

def toVector (what : String) (r : Returned β α) : Outcome α (VectorFunction β α) := do
  (← r.toMatrix what).toVector what

end Returned

namespace Evaluator

variable {β α : Type} [Scalar α]

/-- Calls a caller's function. Its failures are wrapped, unless they speak of the problem's
definition themselves. -/
def call (f : Evaluator β α) (setting : Setting) (what : String) :
    Outcome α (VectorFunction β α) :=
  match f setting with
  | .ok r => r.toVector what
  | .error e =>
    if e.kind = .problemDefinition then .error (.foreign e.report)
    else .error (.problem (.raised what e.report))

/-- Calls a caller's function that has to return `size` components. -/
def callSized (f : Evaluator β α) (setting : Setting) (size : Nat) (what : String) :
    Outcome α (VectorFunction β α) := do
  let v ← f.call setting what
  if v.length ≠ size then throw (.problem (.returnLength what v.length size))
  return v

end Evaluator

end Collocation
