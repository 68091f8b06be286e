import Collocation.Value.Reading

/-!
Bounds of one variable or constraint: a closed interval that holds at least one number. Callers
write a fixed value, a pair whose sides may be missing, or nothing; `Bounds.ofValue` accepts exactly
the intervals that are not empty.
-/

namespace Collocation

/-- A closed interval; an infinite side is open. -/
structure Bounds (α : Type) where
  lower : α
  upper : α
  deriving DecidableEq

namespace Bounds

variable {α : Type} [Scalar α]

def free : Bounds α := ⟨-Scalar.infinity, Scalar.infinity⟩

def isFixed (b : Bounds α) : Bool := Scalar.eq b.lower b.upper

/-- The value that a variable starts from: the middle of finite bounds, the finite side of
half-open ones, and zero without restriction. -/
def guess (b : Bounds α) : α :=
  if !Scalar.isInfinite b.lower then
    if !Scalar.isInfinite b.upper then 0.5 * (b.lower + b.upper) else b.lower
  else if !Scalar.isInfinite b.upper then b.upper else 0.0

def contains (b : Bounds α) (x : α) : Bool := decide (b.lower ≤ x) && decide (x ≤ b.upper)

/-- Whether a number fits into the range of the scalars; asking whether it is "not a number" needs
that. -/
def fits (x : Number α) : Outcome α Unit := (Value.scalarOfNumber x).map fun _ => ()

def checkSide (side : Nat) (v : Value α) (context : String) : Outcome α Unit :=
  match v with
  | .none => .ok ()
  | .number x => do
    fits x
    if x.exact = .nan then throw (.bounds (.sideNaN side) context)
  | v => .error (.bounds (.sideKind side v.typeText) context)

/-- Checks a pair of sides: each is missing or a number, and some number lies between them. -/
def checkPair (lower upper : Value α) (context : String) : Outcome α Unit := do
  checkSide 0 lower context
  checkSide 1 upper context
  match lower, upper with
  | .number l, .number u =>
    if u.lt l then throw (.bounds (.reversed l u) context)
    if l.exact = .posInf || u.exact = .negInf then throw (.bounds (.emptySet lower upper) context)
  | .number l, _ => if l.exact = .posInf then throw (.bounds (.emptySet lower upper) context)
  | _, .number u => if u.exact = .negInf then throw (.bounds (.emptySet lower upper) context)
  | _, _ => pure ()

/-- Checks a fixed value, a pair or nothing. -/
def check (v : Value α) (context : String) : Outcome α Unit :=
  match v with
  | .none => .ok ()
  | .number x => do
    fits x
    match x.exact with
    | .finite _ => pure ()
    | _ => throw (.bounds (.notFinite x) context)
  | .tuple [lower, upper] => checkPair lower upper context
  | .tuple items => .error (.bounds (.notPair items.length) context)
  | v => .error (.bounds (.wrongKind v.typeText) context)

/-- Bounds with the given sides, if some number lies between them. -/
def make (lower upper : α) : Outcome α (Bounds α) := do
  checkPair (.real lower) (.real upper) "Bounds"
  return ⟨lower, upper⟩

/-- One side as a scalar; a missing side is open. -/
def sideScalar (missing : α) : Value α → Outcome α α
  | .number x => Value.scalarOfNumber x
  | _ => .ok missing

/-- The place that a failure names for a given context; one that counts as false names none. -/
def placeOf (context : Value α) : String := if context.isTruthy then context.display else ""

/-- Runs a check whose failures name a given context, which then has to be a condition. -/
def inPlace {β : Type} (context : Value α) (check : String → Outcome α β) : Outcome α β :=
  match check (placeOf context) with
  | .error (.bounds f place) => do
    let _ ← context.toTruth
    throw (.bounds f place)
  | result => result

def ofValue (v : Value α) (context : String) : Outcome α (Bounds α) := do
  check v context
  match v with
  | .number x =>
    let s ← Value.scalarOfNumber x
    make s s
  | .tuple [lower, upper] =>
    make (← sideScalar (-Scalar.infinity) lower) (← sideScalar Scalar.infinity upper)
  | _ => return free

end Bounds

end Collocation
