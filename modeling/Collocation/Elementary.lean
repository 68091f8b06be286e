import Collocation.Scalar

/-!
Elementary functions, for expressions that callers write.
-/

namespace Collocation

class Elementary (α : Type) where
  sin : α → α
  cos : α → α
  exp : α → α
  log : α → α
  sqrt : α → α
  tanh : α → α
  pow : α → α → α

instance : Elementary Float where
  sin := Float.sin
  cos := Float.cos
  exp := Float.exp
  log := Float.log
  sqrt := Float.sqrt
  tanh := Float.tanh
  pow := Float.pow

namespace Scalar

variable {α : Type} [Scalar α]

/-- The smaller of two values; "not a number" gives way to the other one. -/
def least (x y : α) : α := if isNaN x then y else if y < x then y else x

/-- The larger of two values; "not a number" gives way to the other one. -/
def greatest (x y : α) : α := if isNaN x then y else if x < y then y else x

end Scalar

end Collocation
