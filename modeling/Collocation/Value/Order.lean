import Collocation.Value.Reading

/-!
The order of values: numbers by exact value, texts by their characters, lists and tuples by their
first unequal items. Other values have none, and sorting fails where it comes upon them.
-/

namespace Collocation.Value

variable {α : Type} [Scalar α]

mutual

def less : Value α → Value α → Outcome α Bool
  | .text a, .text b => .ok (decide (a < b))
  | .list xs, .list ys => lessItems xs ys
  | .tuple xs, .tuple ys => lessItems xs ys
  | a, b => do
    let mismatch : ReadFault := .notOrdered "<" a.typeName b.typeName
    return (← a.toOperand mismatch).lt (← b.toOperand mismatch)

/-- Whether the first items stand before the second ones. -/
def lessItems : List (Value α) → List (Value α) → Outcome α Bool
  | [], ys => .ok !ys.isEmpty
  | _ :: _, [] => .ok false
  | x :: xs, y :: ys => if same x y then lessItems xs ys else less x y

end

/-- The items that go on in the direction of a run, the last one first, and the other items. -/
def takeRun (falling : Bool) (last : Value α) (run : List (Value α)) :
    List (Value α) → Outcome α (List (Value α) × List (Value α))
  | [] => .ok (run, [])
  | v :: rest => do
    if (← less v last) == falling then takeRun falling v (v :: run) rest
    else return (run, v :: rest)

/-- Where a value belongs in sorted items, between two positions: behind all that it is not
below. -/
def insertionPoint (v : Value α) (items : List (Value α)) (low high : Nat) : Outcome α Nat :=
  if low < high then do
    let middle := low + (high - low) / 2
    if ← less v (items[middle]?.getD .none) then insertionPoint v items low middle
    else insertionPoint v items (middle + 1) high
  else .ok low
termination_by high - low

def insertSorted (items : List (Value α)) (v : Value α) : Outcome α (List (Value α)) := do
  let i ← insertionPoint v items 0 items.length
  return items.take i ++ v :: items.drop i

/-- The values in order. The run at the front is found by comparing neighbours, and the values
behind it are inserted one by one. -/
def sorted : List (Value α) → Outcome α (List (Value α))
  | v :: w :: rest => do
    let falling ← less w v
    let (run, others) ← takeRun falling w [w, v] rest
    others.foldlM insertSorted (if falling then run else run.reverse)
  | items => .ok items

end Collocation.Value
