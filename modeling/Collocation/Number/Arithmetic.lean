import Collocation.Value.Reading

/-!
Arithmetic of numbers as callers write them: whole as long as all operands are whole, and in scalars
otherwise.
-/

namespace Collocation.Number

variable {α : Type} [Scalar α]

/-- Combines whole numbers as such, and other numbers as scalars. -/
def combine (whole : Int → Int → Int) (real : α → α → α) : Number α → Number α →
    Outcome α (Number α)
  | .int m, .int n => .ok (.int (whole m n))
  | x, y => do return .real (real (← Value.scalarOfNumber x) (← Value.scalarOfNumber y))

def sum : Number α → Number α → Outcome α (Number α) := combine (· + ·) (· + ·)

def difference : Number α → Number α → Outcome α (Number α) := combine (· - ·) (· - ·)

def product : Number α → Number α → Outcome α (Number α) := combine (· * ·) (· * ·)

end Collocation.Number
