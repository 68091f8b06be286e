import Collocation.Extended

/-!
What the library asks of its numbers. Every definition that computes is written over a `Scalar`, so
the same text runs in doubles and is reasoned about in exact arithmetic.
-/

namespace Collocation

/-- Numbers with arithmetic, an order in which "not a number" compares with nothing, decimal
literals, an exact reading and a text. -/
class Scalar (α : Type) extends Add α, Sub α, Mul α, Div α, Neg α, LT α, LE α, OfScientific α where
  decLt : DecidableLT α
  decLe : DecidableLE α
  infinity : α
  nan : α
  exact : α → Extended
  /-- The sign of a value, told apart for the two zeros where there are two. -/
  isNegative : α → Bool
  text : α → String
  /-- How many numbers there is memory for. -/
  maxEntries : Int

attribute [reducible, instance] Scalar.decLt Scalar.decLe

namespace Scalar

variable {α : Type} [Scalar α]

/-- Numerical equality: both zeros are equal, and "not a number" equals nothing. -/
def eq (x y : α) : Bool := decide (x ≤ y) && decide (y ≤ x)

/-- Only "not a number" is not at most itself. -/
def isNaN (x : α) : Bool := !decide (x ≤ x)

def isInfinite (x : α) : Bool := eq x infinity || eq x (-infinity)

/-- Neither infinite nor "not a number". -/
def isFinite (x : α) : Bool := !isNaN x && !isInfinite x

def abs (x : α) : α := if isNegative x then -x else x

def ofNat (n : Nat) : α := OfScientific.ofScientific n false 0

def ofInt : Int → α
  | .ofNat n => ofNat n
  | .negSucc n => -ofNat (n + 1)

/-- The number nearest to an integer, unless the integer is out of range. -/
def ofInt? (n : Int) : Option α :=
  let x : α := ofInt n
  if isInfinite x then none else some x

/-- The sum from the left, starting with zero. -/
def sum (xs : List α) : α := xs.foldl (· + ·) 0.0

/-- The larger of two values; the first unless the second is above it. -/
def larger (x y : α) : α := if x < y then y else x

/-- The smaller of two values; the first unless the second is below it. -/
def smaller (x y : α) : α := if y < x then y else x

end Scalar

def Extended.text : Extended → String
  | .nan => "nan"
  | .negInf => "-inf"
  | .posInf => "inf"
  | .finite q => toString q

/-- Exact arithmetic, with a single zero, and with memory for every array that can be counted. -/
instance : Scalar Extended where
  decLt := inferInstance
  decLe := inferInstance
  infinity := .posInf
  nan := .nan
  exact x := x
  isNegative x := x < .finite 0
  text := Extended.text
  maxEntries := 0x1000000000000000

end Collocation
