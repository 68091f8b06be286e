import Collocation.Scalar
import Collocation.Decimal.Fixed

/-!
Numbers as callers write them: whole numbers of any size, or scalars. The two compare by their exact
values, and a whole number becomes a scalar only where it fits.
-/

namespace Collocation

/-- A whole number, or a scalar. -/
inductive Number (α : Type) where
  | int (n : Int)
  | real (x : α)

namespace Number

variable {α : Type} [Scalar α]

def exact : Number α → Extended
  | .int n => .finite n
  | .real x => Scalar.exact x

/-- The text of a number: a whole number by its digits, a scalar by its own text. -/
def text : Number α → String
  | .int n => toString n
  | .real x => Scalar.text x

def le (a b : Number α) : Bool := decide (a.exact ≤ b.exact)

def lt (a b : Number α) : Bool := decide (a.exact < b.exact)

/-- Equality of exact values; "not a number" equals nothing. -/
def eq (a b : Number α) : Bool := a.le b && b.le a

/-- The number zero is false where a condition is asked for, all others are true. -/
def isTruthy : Number α → Bool
  | .int n => n != 0
  | .real x => !Scalar.eq x 0.0

end Number

end Collocation
