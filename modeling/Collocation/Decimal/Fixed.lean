import Collocation.Decimal.Shortest

/-!
Numbers with a set count of digits. The exact value is rounded once, to the nearest and a tie to the
even digit, and then laid out.
-/

namespace Collocation.Decimal

/-- The whole number nearest to `q`, an even one on a tie. -/
def roundEven (q : Rat) : Int :=
  let low := q.floor
  let rest := q - low
  if rest < 1 / 2 then low
  else if 1 / 2 < rest then low + 1
  else if low % 2 = 0 then low else low + 1

def powerOfTen (e : Int) : Rat :=
  if 0 ≤ e then (tens e.toNat : Rat) else mkRat 1 (tens (-e).toNat)

/-- The exponent of the leading digit of a positive value. -/
def leadingExponent (q : Rat) : Int :=
  let estimate := ((q.num.natAbs.log2 : Int) - q.den.log2) * 1233 / 4096 - 2
  let candidates := (List.range 7).map fun (i : Nat) => estimate + (i : Int)
  (candidates.find? fun e => decide (q < powerOfTen (e + 1))).getD estimate

def placePoint (n places : Nat) : String :=
  let ds := Nat.toDigits 10 n
  let padded := List.replicate (places + 1 - ds.length) '0' ++ ds
  let whole := padded.length - places
  let fraction := padded.drop whole
  String.ofList (padded.take whole) ++
    (if fraction.isEmpty then "" else "." ++ String.ofList fraction)

/-- A value that is not negative, with `places` digits after the point. -/
def fixedDigits (places : Nat) (q : Rat) : String :=
  placePoint (roundEven (q * powerOfTen places)).natAbs places

/-- The digits and the exponent of a positive value rounded to `places + 1` digits. -/
def significant (places : Nat) (q : Rat) : Nat × Int :=
  let e := leadingExponent q
  let n := (roundEven (q * powerOfTen (places - e))).natAbs
  if n < tens (places + 1) then (n, e) else (n / 10, e + 1)

/-- A value that is not negative, with one digit before the point, `places` after it and an
exponent. -/
def scientificDigits (places : Nat) (q : Rat) : String :=
  let (n, e) := if q = 0 then (0, 0) else significant places q
  placePoint n places ++ exponentText e

/-- Removes zeros at the end of the digits after the point, and a point without digits. -/
def stripFraction (text : String) : String :=
  if text.contains '.' then
    let ds := stripZeros text.toList
    String.ofList (if ds.getLast? == some '.' then ds.dropLast else ds)
  else text

/-- A value that is not negative, with at most `figures` digits: positional while the exponent of
the leading digit is from -4 to below `figures`, without zeros at the end. -/
def generalDigits (figures : Nat) (q : Rat) : String :=
  let (n, e) := if q = 0 then (0, 0) else significant (figures - 1) q
  if e < -4 || e ≥ figures then
    stripFraction (placePoint n (figures - 1)) ++ exponentText e
  else
    stripFraction (fixedDigits ((figures : Int) - 1 - e).toNat q)

inductive Layout where
  | fixed (places : Nat)
  | scientific (places : Nat)
  /-- A set number of digits, in the shorter of the two forms above. -/
  | general (figures : Nat)

/-- The digits of a value that is not negative. -/
def Layout.digits : Layout → Rat → String
  | .fixed places => fixedDigits places
  | .scientific places => scientificDigits places
  | .general figures => generalDigits figures

/-- The text of a value with the given sign; infinities and "not a number" have names. -/
def Layout.render (layout : Layout) (negative : Bool) : Extended → String
  | .nan => "nan"
  | .negInf => "-inf"
  | .posInf => "inf"
  | .finite q => (if negative then "-" else "") ++ layout.digits (if q < 0 then -q else q)

end Collocation.Decimal
