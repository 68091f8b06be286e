import Collocation.Bounds
import Collocation.Number.Arithmetic
import Collocation.Signature

/-!
Bounds with their sides exactly as a caller wrote them: whole numbers stay whole, and a missing side
stays missing. Questions that need a number of a missing side fail.
-/

namespace Collocation

/-- A pair of sides that passed the check of bounds. -/
structure WrittenBounds (α : Type) where
  lower : Option (Number α)
  upper : Option (Number α)

namespace WrittenBounds

variable {α : Type} [Scalar α]

/-- Bounds whose two sides are given as real numbers. -/
def ofBounds (b : Bounds α) : WrittenBounds α := ⟨some (.real b.lower), some (.real b.upper)⟩

/-- The pair of two given sides; a side that was not given is open. -/
def make (lower : Value α := .real (-Scalar.infinity)) (upper : Value α := .real Scalar.infinity) :
    Outcome α (WrittenBounds α) := do
  Bounds.checkPair lower upper "Bounds"
  return ⟨lower.number?, upper.number?⟩

/-- The two sides, both of which may be left out. -/
def signature : Signature where
  function := "Bounds.__init__"
  required := []
  optional := ["lower", "upper"]

/-- The pair for arguments in their places. -/
def ofArguments (args : List (Value α)) : Outcome α (WrittenBounds α) := do
  signature.checkCount args.length
  match args with
  | [] => make
  | [lower] => make lower
  | lower :: upper :: _ => make lower upper

/-- A side as the value that the caller gave. -/
def sideValue : Option (Number α) → Value α
  | some x => .number x
  | none => .none

/-- A single value; two missing sides are equal too. -/
def isFixed (b : WrittenBounds α) : Bool :=
  match b.lower, b.upper with
  | some l, some u => l.eq u
  | none, none => true
  | _, _ => false

/-- Whether a side is infinite; this cannot be asked of a missing one. -/
def sideInfinite : Option (Number α) → Outcome α Bool
  | some x => .ok (decide (x.exact = .posInf) || decide (x.exact = .negInf))
  | none => .error (.reading (.notRealKind "NoneType"))

/-- Both sides are infinite. The upper one is looked at only if the lower one is. -/
def isFree (b : WrittenBounds α) : Outcome α Bool := do
  if ← sideInfinite b.lower then sideInfinite b.upper else return false

/-- The middle of two finite sides, else the finite one, else zero. The sum of whole sides is a
whole number, so half of it may be out of range. -/
def guess (b : WrittenBounds α) : Outcome α (Number α) := do
  let lowerInfinite ← sideInfinite b.lower
  let upperInfinite ← sideInfinite b.upper
  match b.lower, b.upper with
  | some l, some u =>
    if !lowerInfinite && !upperInfinite then
      return .real (0.5 * (← Value.scalarOfNumber (← l.sum u)))
    else if !lowerInfinite then return l
    else if !upperInfinite then return u
    else return .real 0.0
  | _, _ => return .real 0.0

/-- Compares two values that have to be numbers. -/
def compareLe (x y : Value α) : Outcome α Bool := do
  let mismatch : ReadFault := .notOrdered "<=" x.typeName y.typeName
  return (← x.toOperand mismatch).le (← y.toOperand mismatch)

/-- A side moved by a tolerance; both have to be numbers for that. -/
def moved (operator : String) (move : Number α → Number α → Outcome α (Number α))
    (side : Option (Number α)) (tolerance : Value α) : Outcome α (Number α) := do
  let mismatch : ReadFault :=
    .noOperation operator (sideValue side).typeName tolerance.typeName
  move (← (sideValue side).toOperand mismatch) (← tolerance.toOperand mismatch)

/-- Whether a value lies in the interval widened by a tolerance on both sides. -/
def contains (b : WrittenBounds α) (x : Value α) (tolerance : Value α := .real 0.0) :
    Outcome α Bool := do
  if ← compareLe (.number (← moved "-" Number.difference b.lower tolerance)) x then
    compareLe x (.number (← moved "+" Number.sum b.upper tolerance))
  else return false

/-- The value that is asked about, and a tolerance that may be left out. -/
def containsSignature : Signature where
  function := "Bounds.contains"
  required := ["value"]
  optional := ["tolerance"]

/-- The question for arguments in their places. -/
def containsArguments (b : WrittenBounds α) (args : List (Value α)) : Outcome α Bool := do
  containsSignature.checkCount args.length
  b.contains (args[0]?.getD .none) (args[1]?.getD (.real 0.0))

/-- Fixed bounds show their value, others both sides. -/
def text (b : WrittenBounds α) : String :=
  let lower := (sideValue b.lower).display
  if b.isFixed then "Bounds(== " ++ lower ++ ")"
  else "Bounds([" ++ lower ++ ", " ++ (sideValue b.upper).display ++ "])"

end WrittenBounds

end Collocation
