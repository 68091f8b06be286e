import Collocation.Number
import Collocation.Text.Quoted

/-!
Values as callers write them, before any check: the definitions of a problem, the options of a
solver and the fields of a guess all arrive as such values, and are validated by kind, size and
content.
-/

namespace Collocation

structure Matrix (α : Type) where
  height : Nat
  width : Nat
  rows : List (List α)
  deriving Inhabited

namespace Matrix

variable {α : Type}

def byRows (m : Matrix α) : List α := m.rows.flatten

def column (m : Matrix α) (j : Nat) : List α := m.rows.filterMap (·[j]?)

def byColumns (m : Matrix α) : List α := (List.range m.width).flatMap m.column

end Matrix

/-- A value of any kind that a caller may pass. -/
inductive Value (α : Type) where
  | none
  | bool (b : Bool)
  | number (x : Number α)
  | text (s : String)
  | list (items : List (Value α))
  | tuple (items : List (Value α))
  | mapping (entries : List (Value α × Value α))
  | matrix (m : Matrix α)

namespace Value

variable {α : Type}

instance : Inhabited (Value α) := ⟨.none⟩

abbrev int (n : Int) : Value α := .number (.int n)

abbrev real (x : α) : Value α := .number (.real x)

def ofTexts (names : List String) : Value α := .list (names.map .text)

def ofRow (xs : List α) : Value α := .list (xs.map .real)

def ofRows (rows : List (List α)) : Value α := .list (rows.map ofRow)

def typeName : Value α → String
  | .none => "NoneType"
  | .bool _ => "bool"
  | .number (.int _) => "int"
  | .number (.real _) => "float"
  | .text _ => "str"
  | .list _ => "list"
  | .tuple _ => "tuple"
  | .mapping _ => "dict"
  | .matrix _ => "DM"

/-- The kind of a value as messages on kinds show it: a matrix comes from a library of its own. -/
def typeText : Value α → String
  | .matrix m => "<class 'casadi.casadi." ++ (Value.matrix m).typeName ++ "'>"
  | v => "<class '" ++ v.typeName ++ "'>"

variable [Scalar α]

/-- The text of a matrix: a single entry as a number, a column as a list of its entries, any other
matrix as a list of rows that starts a line of its own if there are several. -/
def matrixText (m : Matrix α) : String :=
  let entry (x : α) := (Decimal.Layout.general 6).render (Scalar.isNegative x) (Scalar.exact x)
  let row (xs : List α) := "[" ++ ", ".intercalate (xs.map entry) ++ "]"
  match m.byRows with
  | [] => "[]"
  | [x] => entry x
  | xs =>
    if m.width == 1 then row xs
    else (if 1 < m.height then "\n" else "") ++ "[" ++ ", \n ".intercalate (m.rows.map row) ++ "]"

mutual

/-- The text of a value inside another one: texts are quoted. -/
def shown : Value α → String
  | .none => "None"
  | .bool b => if b then "True" else "False"
  | .number x => x.text
  | .text s => Text.quoted s
  | .list items => "[" ++ ", ".intercalate (shownItems items) ++ "]"
  | .tuple items =>
    "(" ++ ", ".intercalate (shownItems items) ++ (if items.length == 1 then ",)" else ")")
  | .mapping entries => "\x7b" ++ ", ".intercalate (shownEntries entries) ++ "\x7d"
  | .matrix m => "DM(" ++ matrixText m ++ ")"

def shownItems : List (Value α) → List String
  | [] => []
  | v :: rest => shown v :: shownItems rest

def shownEntries : List (Value α × Value α) → List String
  | [] => []
  | (k, v) :: rest => (shown k ++ ": " ++ shown v) :: shownEntries rest

end

/-- The text of a value on its own: a text is itself. -/
def display : Value α → String
  | .text s => s
  | .matrix m => matrixText m
  | v => shown v

def isMissing : Value α → Bool
  | .none => true
  | _ => false

/-- A number, in a place where truth values are not numbers. -/
def number? : Value α → Option (Number α)
  | .number x => some x
  | _ => Option.none

/-- A number, in a place where the truth values stand for one and zero. -/
def numeric? : Value α → Option (Number α)
  | .number x => some x
  | .bool b => some (.int b.toInt)
  | _ => Option.none

/-- Whether a value counts as true: empty, zero and missing ones do not. -/
def isTruthy : Value α → Bool
  | .none => false
  | .bool b => b
  | .number x => x.isTruthy
  | .text s => !s.isEmpty
  | .list items => !items.isEmpty
  | .tuple items => !items.isEmpty
  | .mapping entries => !entries.isEmpty
  | .matrix m => m.byRows.any fun x => !Scalar.eq x 0.0

/-- Equality with a whole number: numbers and truth values by their exact value. -/
def equalsInt (v : Value α) (n : Int) : Bool :=
  match v.numeric? with
  | some x => x.eq (.int n)
  | Option.none => false

def equalsText (v : Value α) (s : String) : Bool :=
  match v with
  | .text t => t == s
  | _ => false

mutual

/-- Equality of values: numbers and truth values by exact value, texts, lists and tuples by
content, and mappings if they have equal entries in any order. -/
def same : Value α → Value α → Bool
  | .none, .none => true
  | .text s, .text t => s == t
  | .list xs, .list ys => sameItems xs ys
  | .tuple xs, .tuple ys => sameItems xs ys
  | .mapping xs, .mapping ys => xs.length == ys.length && haveEntries ys xs
  | .bool a, .bool b => a == b
  | .number a, .number b => a.eq b
  | .bool a, .number b => b.eq (.int a.toInt)
  | .number a, .bool b => a.eq (.int b.toInt)
  | _, _ => false

def sameItems : List (Value α) → List (Value α) → Bool
  | [], [] => true
  | x :: xs, y :: ys => same x y && sameItems xs ys
  | _, _ => false

def haveEntries (held : List (Value α × Value α)) : List (Value α × Value α) → Bool
  | [] => true
  | (k, v) :: rest => (held.any fun e => same k e.1 && same v e.2) && haveEntries held rest

end

end Value

end Collocation
