import Collocation.Scalar

/-!
Sums of many numbers. Up to a block, eight sums run side by side; longer rows are halved first, so
that rounding errors grow with the depth of the halving and not with the length of the row.
-/

namespace Collocation.Summation

variable {α : Type} [Scalar α]

def lanes : Nat := 8

def blockLength : Nat := 128

/-- The sums of the lanes after all full groups, and the numbers that fill no group. -/
def runLanes (sums xs : List α) : List α × List α :=
  if lanes ≤ xs.length then runLanes (sums.zipWith (· + ·) (xs.take lanes)) (xs.drop lanes)
  else (sums, xs)
termination_by xs.length
decreasing_by simp only [List.length_drop]; unfold lanes at *; omega

/-- The sum of the lanes, neighbours first. -/
def joinLanes : List α → α
  | [a, b, c, d, e, f, g, h] => ((a + b) + (c + d)) + ((e + f) + (g + h))
  | xs => Scalar.sum xs

def block (xs : List α) : α :=
  if xs.length < lanes then Scalar.sum xs
  else
    let (sums, rest) := runLanes (xs.take lanes) (xs.drop lanes)
    rest.foldl (· + ·) (joinLanes sums)

/-- Where a row is halved: at a whole number of groups. -/
def middle (n : Nat) : Nat := n / 2 - n / 2 % lanes

def pairwise (xs : List α) : α :=
  if blockLength < xs.length then
    pairwise (xs.take (middle xs.length)) + pairwise (xs.drop (middle xs.length))
  else block xs
termination_by xs.length
decreasing_by
  all_goals
    simp only [List.length_take, List.length_drop]
    unfold blockLength at *
    unfold middle lanes
    omega

end Collocation.Summation
