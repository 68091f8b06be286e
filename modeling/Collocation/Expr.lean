import Collocation.Elementary
import Collocation.Problem.Point
import Collocation.Value.Reading

/-!
Expressions over the arguments of a problem's functions. An expression stands for a column; a single
number is a column of one, and goes together with columns of any length.
-/

namespace Collocation

inductive Argument where
  | time
  | state
  | control
  | parameter
  | multiplier
  | initialTime
  | initialState
  | finalTime
  | finalState
  deriving DecidableEq

def Argument.name : Argument → String
  | .time => "t"
  | .state => "x"
  | .control => "u"
  | .parameter => "p"
  | .multiplier => "lam"
  | .initialTime => "t0"
  | .initialState => "x0"
  | .finalTime => "tf"
  | .finalState => "xf"

inductive UnaryOp where
  | neg
  | sin
  | cos
  | exp
  | log
  | sqrt
  | abs
  | tanh
  deriving DecidableEq

inductive BinaryOp where
  | add
  | sub
  | mul
  | div
  | pow
  | min
  | max
  deriving DecidableEq

/-- Expressions over the arguments. A constant is read where the expression is evaluated. -/
inductive Expr (α : Type) where
  | constant (v : Value α)
  | argument (a : Argument)
  | component (a : Argument) (i : Int)
  | unary (op : UnaryOp) (e : Expr α)
  | binary (op : BinaryOp) (l r : Expr α)
  | sum (e : Expr α)

instance {α : Type} : Inhabited (Expr α) := ⟨.argument .time⟩

namespace UnaryOp

variable {α : Type} [Scalar α] [Elementary α]

def apply : UnaryOp → α → α
  | .neg, x => -x
  | .sin, x => Elementary.sin x
  | .cos, x => Elementary.cos x
  | .exp, x => Elementary.exp x
  | .log, x => Elementary.log x
  | .sqrt, x => Elementary.sqrt x
  | .abs, x => Scalar.abs x
  | .tanh, x => Elementary.tanh x

end UnaryOp

namespace BinaryOp

variable {α : Type} [Scalar α] [Elementary α]

def apply : BinaryOp → α → α → α
  | .add, x, y => x + y
  | .sub, x, y => x - y
  | .mul, x, y => x * y
  | .div, x, y => x / y
  | .pow, x, y => Elementary.pow x y
  | .min, x, y => Scalar.least x y
  | .max, x, y => Scalar.greatest x y

end BinaryOp

/-- The arguments that are at hand, each with its components. -/
abbrev Scope (β α : Type) := Argument → Option (VectorFunction β α)

namespace Scope

variable {α : Type} [Scalar α]

def components {β : Type} (length : Nat) (vector : β → List α) : VectorFunction β α :=
  (List.range length).map fun i b => ((vector b)[i]?).getD 0.0

def ofPoint (s : Setting) : Scope (Point α) α
  | .time => some [Point.time]
  | .state => some (components s.sizes.states Point.state)
  | .control => some (components s.sizes.controls Point.control)
  | .parameter => some (components s.sizes.parameters Point.parameter)
  | .multiplier =>
    if s.withMultipliers then some (components s.sizes.multipliers Point.multiplier) else none
  | _ => none

/-- The arguments of a function of the two ends. -/
def ofEndpoints (s : Setting) : Scope (Endpoints α) α
  | .initialTime => some [Endpoints.initialTime]
  | .initialState => some (components s.sizes.states Endpoints.initialState)
  | .finalTime => some [Endpoints.finalTime]
  | .finalState => some (components s.sizes.states Endpoints.finalState)
  | .parameter => some (components s.sizes.parameters Endpoints.parameter)
  | _ => none

end Scope

namespace Expr

variable {β α : Type} [Scalar α] [Elementary α]

/-- Applies a function of two numbers to columns of one length, or to a single number and every
component of a column. -/
def combine (f : α → α → α) (l r : VectorFunction β α) : Except Raised (VectorFunction β α) :=
  if l.length = r.length then .ok (l.zipWith (fun x y b => f (x b) (y b)) r)
  else match l, r with
    | [x], r => .ok (r.map fun y b => f (x b) (y b))
    | l, [y] => .ok (l.map fun x b => f (x b) (y b))
    | _, _ => .error ⟨.runtime, none⟩

def missing (a : Argument) : Raised := ⟨.key, some a.name⟩

def outOfRange (a : Argument) (i : Int) (length : Nat) : Raised :=
  ⟨.index, some ("index " ++ toString i ++ " out of range for " ++ a.name ++ " of length "
    ++ toString length)⟩

def toVector (scope : Scope β α) : Expr α → Except Raised (VectorFunction β α)
  | .constant v => (Raised.ofOutcome v.toScalar).map fun x => [fun _ => x]
  | .argument a =>
    match scope a with
    | some v => .ok v
    | none => .error (missing a)
  | .component a i =>
    match scope a with
    | some v =>
      if 0 ≤ i then
        match v[i.toNat]? with
        | some f => .ok [f]
        | none => .error (outOfRange a i v.length)
      else .error (outOfRange a i v.length)
    | none => .error (missing a)
  | .unary op e => do
    let v ← e.toVector scope
    return v.map fun f b => op.apply (f b)
  | .binary op l r => do
    let x ← l.toVector scope
    let y ← r.toVector scope
    combine op.apply x y
  | .sum e => do
    let v ← e.toVector scope
    return [fun b => Scalar.sum (v.at b)]

end Expr

/-- One entry of a sequence that a described function returns. -/
inductive EntryForm (α : Type) where
  | expr (e : Expr α)
  | value (v : Value α)

inductive FunctionForm (α : Type) where
  /-- A list or tuple of expressions and plain values. -/
  | sequence (entries : List (EntryForm α))
  | expr (e : Expr α)
  | matrix (rows : List (List (Expr α)))
  /-- An array of numbers, which is made of nested lists when the function is called. -/
  | array (v : Value α)
  | value (v : Value α)
  | raises (cause : Raised)

namespace FunctionForm

variable {β α : Type} [Scalar α] [Elementary α]

def columnMatrix (v : VectorFunction β α) : MatrixFunction β α := ⟨v.length, 1, v⟩

def entry (scope : Scope β α) : EntryForm α → Except Raised (Entry β α)
  | .expr e => do return .function (columnMatrix (← e.toVector scope))
  | .value v => .ok (.value v)

def returned (scope : Scope β α) : FunctionForm α → Except Raised (Returned β α)
  | .sequence entries => do return .sequence (← entries.mapM (entry scope))
  | .expr e => do return .function (columnMatrix (← e.toVector scope))
  | .matrix rows => do
    let blocks ← rows.mapM fun row => do
      MatrixFunction.beside ((← row.mapM (·.toVector scope)).map columnMatrix)
    return .function (← MatrixFunction.onTop blocks)
  | .array v => do return .array (← Raised.ofOutcome v.toTensor)
  | .value v => .ok (.value v)
  | .raises cause => .error cause

def ofPoint (f : FunctionForm α) : Evaluator (Point α) α := fun s => f.returned (Scope.ofPoint s)

def ofEndpoints (f : FunctionForm α) : Evaluator (Endpoints α) α :=
  fun s => f.returned (Scope.ofEndpoints s)

end FunctionForm

end Collocation
