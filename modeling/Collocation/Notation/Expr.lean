import Collocation.Expr
import Collocation.Notation.Value

/-!
Expressions and functions in the notation. An expression is a number, the name of an argument, or an
array with an operation in front: `["*", 2, ["x", 0]]`. A function is an object with one field that
tells what it returns.
-/

namespace Collocation

def Argument.ofName? (s : String) : Option Argument :=
  [time, .state, .control, .parameter, .multiplier, .initialTime, .initialState, .finalTime,
    .finalState].find? fun a => a.name == s

def UnaryOp.ofName? (s : String) : Option UnaryOp :=
  [("neg", neg), ("sin", .sin), ("cos", .cos), ("exp", .exp), ("log", .log), ("sqrt", .sqrt),
    ("abs", .abs), ("tanh", .tanh)].lookup s

def BinaryOp.ofName? (s : String) : Option BinaryOp :=
  [("+", add), ("-", .sub), ("*", .mul), ("/", .div), ("pow", .pow), ("min", .min),
    ("max", .max)].lookup s

namespace Json

variable {α : Type} [Scalar α]

/-- An operation on operands; several operands of a function of two numbers are taken from the
left. -/
def operation (op : String) (operands : List (Expr α)) : Option (Expr α) :=
  match UnaryOp.ofName? op, BinaryOp.ofName? op, operands with
  | some f, _, [e] => some (.unary f e)
  | _, some f, e :: rest => some (rest.foldl (.binary f) e)
  | _, _, [e] => if op = "sum" then some (.sum e) else none
  | _, _, _ => none

mutual

def expr? : Json → Option (Expr α)
  | .text s => (Argument.ofName? s).map .argument
  | .array (.text op :: rest) =>
    match Argument.ofName? op, rest with
    | some a, [i] => some (.component a i.whole)
    | _, _ => do operation op (← exprs? rest)
  | .array _ => none
  | j => some (.constant j.value)

def exprs? : List Json → Option (List (Expr α))
  | [] => some []
  | j :: rest => do return (← expr? j) :: (← exprs? rest)

end

/-- One entry of a returned sequence: an expression, or a plain value. -/
def entryForm? (j : Json) : Option (EntryForm α) :=
  match j.field? "py" with
  | some v => some (.value v.value)
  | none => j.expr?.map .expr

def raised (j : Json) : Raised :=
  match j.texts with
  | kind :: message :: _ => ⟨Kind.ofName kind, some message⟩
  | _ => ⟨.runtime, none⟩

def functionForm? (j : Json) : Option (FunctionForm α) :=
  match j.fields with
  | [(kind, j)] =>
    if kind = "list" || kind = "tuple" then do return .sequence (← j.items.mapM entryForm?)
    else if kind = "expr" then j.expr?.map .expr
    else if kind = "mat" then do return .matrix (← j.items.mapM fun r => r.items.mapM expr?)
    else if kind = "py" then some (.value j.value)
    else if kind = "array" then some (.array j.value)
    else if kind = "dm" then some (.value (.matrix j.matrix))
    else if kind = "raise" then some (.raises j.raised)
    else none
  | _ => none

/-- What stands in the place of a function: a function, or a value that is none. -/
def supplied {β : Type} (evaluator : FunctionForm α → Evaluator β α) (j : Json) : Supplied β α :=
  match j.field? "notcallable" with
  | some v => .value v.value
  | none =>
    match (j.functionForm? : Option (FunctionForm α)) with
    | some f => .evaluator (evaluator f)
    | none => .value .none

end Json

end Collocation
