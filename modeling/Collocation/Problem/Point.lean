import Collocation.Fault
import Collocation.Tensor

/-!
What the functions of a problem depend on. Dynamics, constraints and integrands are functions of one
point of a trajectory, endpoint costs of the two ends; a vector of such functions is a list with one
function per component.
-/

namespace Collocation

structure Point (α : Type) where
  time : α
  state : List α
  control : List α
  parameter : List α
  multiplier : List α := []

structure Endpoints (α : Type) where
  initialTime : α
  initialState : List α
  finalTime : α
  finalState : List α
  parameter : List α

/-- A vector that depends on an argument, one function per component. -/
abbrev VectorFunction (β α : Type) := List (β → α)

def VectorFunction.at {β α : Type} (f : VectorFunction β α) (b : β) : List α := f.map (· b)

structure Raised where
  kind : Kind
  text : Option String

namespace Raised

def report (r : Raised) : Report := ⟨r.kind, r.text, none⟩

/-- An operation of this library inside a caller's function, which lets its failures pass. -/
def ofOutcome {α β : Type} [Scalar α] (x : Outcome α β) : Except Raised β :=
  x.mapError fun f => ⟨f.report.kind, f.report.text⟩

end Raised

/-- A matrix that depends on an argument, with its components column after column. -/
structure MatrixFunction (β α : Type) where
  height : Nat
  width : Nat
  components : List (β → α)

namespace MatrixFunction

variable {β α : Type}

def column (f : MatrixFunction β α) (j : Nat) : List (β → α) :=
  (f.components.drop (j * f.height)).take f.height

def totalHeight (fs : List (MatrixFunction β α)) : Nat := fs.foldl (fun n f => n + f.height) 0

def totalWidth (fs : List (MatrixFunction β α)) : Nat := fs.foldl (fun n f => n + f.width) 0

/-- A matrix without rows and without columns goes together with every other one. -/
def isNothing (f : MatrixFunction β α) : Bool := f.height == 0 && f.width == 0

def isEmpty (f : MatrixFunction β α) : Bool := f.height == 0 || f.width == 0

/-- The columns of matrices of one width, each continued by those below it. -/
def continued (width : Nat) (fs : List (MatrixFunction β α)) : List (β → α) :=
  (List.range width).flatMap fun j => fs.flatMap (·.column j)

/-- Matrices of one height side by side. Those without entries add columns only if none has
entries. -/
def beside : List (MatrixFunction β α) → Except Raised (MatrixFunction β α)
  | [] => .ok ⟨1, 0, []⟩
  | [f] => .ok f
  | fs =>
    match fs.filter (!·.isNothing) with
    | [] => .ok ⟨0, 0, []⟩
    | f :: rest =>
      if rest.all (·.height == f.height) then
        match (f :: rest).filter (!·.isEmpty) with
        | [] => .ok ⟨f.height, totalWidth (f :: rest), []⟩
        | filled => .ok ⟨f.height, totalWidth filled, filled.flatMap (·.components)⟩
      else .error ⟨.runtime, none⟩

/-- Matrices of one width on top of each other. Those without entries add rows only if none has
entries. -/
def onTop : List (MatrixFunction β α) → Except Raised (MatrixFunction β α)
  | [] => .ok ⟨0, 1, []⟩
  | [f] => .ok f
  | fs =>
    match fs.filter (!·.isNothing) with
    | [] => .ok ⟨0, 0, []⟩
    | f :: rest =>
      if rest.all (·.width == f.width) then
        match (f :: rest).filter (!·.isEmpty) with
        | [] => .ok ⟨totalHeight (f :: rest), f.width, []⟩
        | filled => .ok ⟨totalHeight filled, f.width, continued f.width filled⟩
      else .error ⟨.runtime, none⟩

end MatrixFunction

structure Dimensions where
  states : Nat
  controls : Nat
  multipliers : Nat
  parameters : Nat
  deriving DecidableEq, Repr

/-- What a caller's function is called with: vectors of known sizes, the multipliers among them only
for the dynamics of a problem with kinematic constraints. -/
structure Setting where
  sizes : Dimensions
  withMultipliers : Bool
  deriving DecidableEq

/-- One entry of a returned sequence. -/
inductive Entry (β α : Type) where
  | function (f : MatrixFunction β α)
  | value (v : Value α)

inductive Returned (β α : Type) where
  | sequence (entries : List (Entry β α))
  | function (f : MatrixFunction β α)
  | array (t : Tensor α)
  | value (v : Value α)

/-- A caller's function: it is called once, with vectors of known sizes, and fails or says how its
result depends on them. -/
abbrev Evaluator (β α : Type) := Setting → Except Raised (Returned β α)

/-- What a caller passes where a function belongs. -/
inductive Supplied (β α : Type) where
  | evaluator (f : Evaluator β α)
  | value (v : Value α)

end Collocation
