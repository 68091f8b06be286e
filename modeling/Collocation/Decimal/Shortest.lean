import Collocation.Decimal.Binary

/-!
The fewest decimal digits that read back as a given double, and the natural layout of a number:
positional for moderate sizes, with an exponent otherwise.
-/

namespace Collocation.Decimal

/-- A positive decimal, `digits * 10 ^ exponent`. -/
structure Digits where
  digits : Nat
  exponent : Int
  deriving DecidableEq, Repr

/-- The order of `a * 10 ^ i` and `n * 2 ^ j`, by whole numbers. -/
def compareScaled (a : Nat) (i : Int) (n : Nat) (j : Int) : Ordering :=
  compare (a * tens i.toNat * twos (-j).toNat) (n * twos j.toNat * tens (-i).toNat)

namespace Binary

/-- Whether a decimal lies among the reals that round to `b`: up to the midpoints towards its
neighbours, which belong to the interval when `m` is even. -/
def readsBack (b : Binary) (d : Digits) : Bool :=
  let below := if b.narrowBelow then 4 * b.m - 1 else 4 * b.m - 2
  let above := 4 * b.m + 2
  let closed := b.m % 2 == 0
  let low := compareScaled d.digits d.exponent below (b.q - 2)
  let high := compareScaled d.digits d.exponent above (b.q - 2)
  (low == .gt || (closed && low == .eq)) && (high == .lt || (closed && high == .eq))

/-- The least `k` with `b < 10 ^ k`, found next to an estimate from the binary logarithm. -/
def scale (b : Binary) : Int :=
  let estimate := ((b.m.log2 : Int) + b.q) * 1233 / 4096 - 1
  let candidates := (List.range 6).map fun (i : Nat) => estimate + (i : Int)
  (candidates.find? fun k => compareScaled 1 k b.m b.q == .gt).getD estimate

/-- The whole number of units `10 ^ e` in `b`. -/
def unitsBelow (b : Binary) (e : Int) : Nat :=
  b.m * twos b.q.toNat * tens (-e).toNat / (twos (-b.q).toNat * tens e.toNat)

/-- The neighbour of `b` on the grid `10 ^ e` that reads back: of two the nearer one, and on a tie
the even one. -/
def onGrid? (b : Binary) (e : Int) : Option Digits :=
  let lower : Digits := ⟨b.unitsBelow e, e⟩
  let upper : Digits := ⟨lower.digits + 1, e⟩
  match b.readsBack lower, b.readsBack upper with
  | true, false => some lower
  | false, true => some upper
  | false, false => none
  | true, true =>
    match compareScaled (2 * lower.digits + 1) e (2 * b.m) b.q with
    | .gt => some lower
    | .lt => some upper
    | .eq => some (if lower.digits % 2 == 0 then lower else upper)

/-- The fewest digits that read back, the nearest such decimal. Seventeen digits suffice. -/
def shortest (b : Binary) : Digits :=
  let k := b.scale
  let grids := (List.range 17).map fun (n : Nat) => k - (n : Int) - 1
  (grids.findSome? b.onGrid?).getD ⟨b.unitsBelow (k - 17), k - 17⟩

end Binary

def digitText (n : Nat) : String := String.ofList (Nat.toDigits 10 n)

def stripZeros (ds : List Char) : List Char := (ds.reverse.dropWhile (· == '0')).reverse

def exponentText (e : Int) : String :=
  let digits := digitText e.natAbs
  let padded := if digits.length < 2 then "0" ++ digits else digits
  "e" ++ (if e < 0 then "-" else "+") ++ padded

/-- The natural layout of a positive decimal. With `e` the exponent of the leading digit, it is
positional for `-4 ≤ e < 16`, where a whole number keeps one zero after its point. -/
def Digits.layout (d : Digits) : String :=
  let all := Nat.toDigits 10 d.digits
  let e := d.exponent + all.length - 1
  let ds := stripZeros all
  if e < -4 || e ≥ 16 then
    let mantissa := match ds with
      | [] => "0"
      | c :: [] => c.toString
      | c :: rest => c.toString ++ "." ++ String.ofList rest
    mantissa ++ exponentText e
  else if e < 0 then
    "0." ++ String.ofList (List.replicate (-e - 1).toNat '0' ++ ds)
  else
    let whole := e.toNat + 1
    let padded := ds ++ List.replicate (whole - ds.length) '0'
    let fraction := padded.drop whole
    String.ofList (padded.take whole) ++ "." ++
      (if fraction.isEmpty then "0" else String.ofList fraction)

/-- The text of a double: the fewest digits that read back, or the name of the value. -/
def Reading.text : Reading → String
  | .nan => "nan"
  | .infinite negative => if negative then "-inf" else "inf"
  | .finite negative value =>
    (if negative then "-" else "") ++
      if value.m == 0 then "0.0" else value.shortest.layout

end Collocation.Decimal
