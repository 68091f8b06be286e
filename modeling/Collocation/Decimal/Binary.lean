import Collocation.Extended

/-!
Doubles read as `m * 2 ^ q`. The reading is exact, so comparisons with integers, decimal text and
rounding to a number of places are all decided in whole numbers.
-/

namespace Collocation.Decimal

def twos (n : Nat) : Nat := Nat.pow 2 n

def tens (n : Nat) : Nat := Nat.pow 10 n

/-- A finite value without its sign, `m * 2 ^ q`. -/
structure Binary where
  m : Nat
  q : Int
  /-- The gap to the value below is half the gap to the value above. -/
  narrowBelow : Bool
  deriving DecidableEq

inductive Reading where
  | nan
  | infinite (negative : Bool)
  | finite (negative : Bool) (value : Binary)

/-- The sign, eleven bits of exponent and fifty-two of fraction; the largest exponent is kept for
the infinities and "not a number", and the least for the values below the normal ones. -/
def Reading.ofBits (bits : UInt64) : Reading :=
  let n := bits.toNat
  let negative := n / twos 63 == 1
  let exponent : Nat := n / twos 52 % twos 11
  let fraction := n % twos 52
  if exponent == 2047 then
    if fraction == 0 then .infinite negative else .nan
  else if exponent == 0 then
    .finite negative ⟨fraction, -1074, false⟩
  else
    .finite negative ⟨twos 52 + fraction, (exponent : Int) - 1075, fraction == 0 && 1 < exponent⟩

namespace Binary

def toRat (b : Binary) : Rat :=
  if 0 ≤ b.q then ((b.m * twos b.q.toNat : Nat) : Rat) else mkRat b.m (twos (-b.q).toNat)

end Binary

/-- The exact value, in which the two zeros are one. -/
def Reading.exact : Reading → Extended
  | .nan => .nan
  | .infinite negative => if negative then .negInf else .posInf
  | .finite negative value => .finite (if negative then -value.toRat else value.toRat)

def Reading.isNegative : Reading → Bool
  | .nan => false
  | .infinite negative => negative
  | .finite negative _ => negative

end Collocation.Decimal
