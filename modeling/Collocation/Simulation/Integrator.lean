import Collocation.Elementary
import Collocation.Fault
import Collocation.Tensor

/-!
Integrators of ordinary differential equations: explicit steps of fixed length, and steps whose
length follows an estimate of their error.
-/

namespace Collocation

/-- The right-hand side of a differential equation, which may refuse its arguments. -/
abbrev RightHandSide (α : Type) := α → List α → Outcome α (List α)

structure OdeRequest (α : Type) where
  /-- The right-hand side at a time of any kind. -/
  rhs : Value α → List α → Outcome α (List α)
  start : α
  stop : α
  initial : List α
  /-- The times at which states are asked for. -/
  times : List α
  maxStep : Value α

/-- What an integrator returns: times, and states with one row for each time. -/
structure OdeResult (α : Type) where
  times : Tensor α
  states : Tensor α
  success : Bool
  message : String
  /-- Derivatives that it was asked to report. -/
  derivatives : Option (List (List α)) := none

def OdeRequest.rhsAt {α : Type} (r : OdeRequest α) : RightHandSide α := fun t => r.rhs (.real t)

abbrev OdeSolver (α : Type) := OdeRequest α → Outcome α (OdeResult α)

namespace Integrator

variable {α : Type} [Scalar α]

def along (h : α) (y k : List α) : List α := y.zipWith (fun a b => a + h * b) k

/-- One explicit step from a time, of the given length. -/
abbrev Step (α : Type) := RightHandSide α → α → α → List α → Outcome α (List α)

def euler : Step α := fun f t h y => do
  return along h y (← f t y)

def rungeKutta : Step α := fun f t h y => do
  let k₁ ← f t y
  let k₂ ← f (t + 0.5 * h) (along (0.5 * h) y k₁)
  let k₃ ← f (t + 0.5 * h) (along (0.5 * h) y k₂)
  let k₄ ← f (t + h) (along h y k₃)
  let sum := ((k₁.zipWith (fun a b => a + 2.0 * b) k₂).zipWith (fun a b => a + 2.0 * b) k₃).zipWith
    (· + ·) k₄
  return along (h / 6.0) y sum

/-- `n` steps of length `h`, the `i`-th one from `a + i * h`. -/
def steps (step : Step α) (f : RightHandSide α) (a h : α) (i : Nat) :
    Nat → List α → Outcome α (List α)
  | 0, y => .ok y
  | n + 1, y => do steps step f a h (i + 1) n (← step f (a + Scalar.ofNat i * h) h y)

/-- The states at times from a state at the first one, with `n` steps between neighbours. -/
def fixedStates (step : Step α) (f : RightHandSide α) (n : Nat) (y : List α) :
    List α → Outcome α (List (List α))
  | a :: b :: rest => do
    let next ← steps step f a ((b - a) / Scalar.ofNat n) 0 n y
    let ys ← fixedStates step f n next (b :: rest)
    return y :: ys
  | [_] => .ok [y]
  | [] => .ok []

def combination (h : α) (y : List α) (terms : List (α × List α)) : List α :=
  terms.foldl (fun acc t => along (h * t.1) acc t.2) y

/-- A step of fifth order, and the estimate of its error from an embedded step of fourth order. -/
def embeddedStep (f : RightHandSide α) (t h : α) (y : List α) :
    Outcome α (List α × List α) := do
  let k₁ ← f t y
  let k₂ ← f (t + h / 5.0) (combination h y [(1.0 / 5.0, k₁)])
  let k₃ ← f (t + 3.0 * h / 10.0) (combination h y [(3.0 / 40.0, k₁), (9.0 / 40.0, k₂)])
  let k₄ ← f (t + 4.0 * h / 5.0)
    (combination h y [(44.0 / 45.0, k₁), (-(56.0 / 15.0), k₂), (32.0 / 9.0, k₃)])
  let k₅ ← f (t + 8.0 * h / 9.0)
    (combination h y [(19372.0 / 6561.0, k₁), (-(25360.0 / 2187.0), k₂), (64448.0 / 6561.0, k₃),
      (-(212.0 / 729.0), k₄)])
  let k₆ ← f (t + h)
    (combination h y [(9017.0 / 3168.0, k₁), (-(355.0 / 33.0), k₂), (46732.0 / 5247.0, k₃),
      (49.0 / 176.0, k₄), (-(5103.0 / 18656.0), k₅)])
  let next := combination h y [(35.0 / 384.0, k₁), (500.0 / 1113.0, k₃), (125.0 / 192.0, k₄),
    (-(2187.0 / 6784.0), k₅), (11.0 / 84.0, k₆)]
  let k₇ ← f (t + h) next
  let zero := y.map fun _ => (0.0 : α)
  let error := combination h zero [(71.0 / 57600.0, k₁), (-(71.0 / 16695.0), k₃),
    (71.0 / 1920.0, k₄), (-(17253.0 / 339200.0), k₅), (22.0 / 525.0, k₆), (-(1.0 / 40.0), k₇)]
  return (next, error)

/-- Whether every error is below a tolerance times `share`. -/
def accurate (share : α) (y next error : List α) : Bool :=
  ((y.zipWith (fun a b => Scalar.greatest (Scalar.abs a) (Scalar.abs b)) next).zipWith
    (fun size e => decide (Scalar.abs e ≤ share * (1e-11 + 1e-9 * size))) error).all id

/-- What came of an attempt to reach a time. -/
inductive Reached (α : Type) where
  /-- The state there, and the length of the next step. -/
  | state (y : List α) (h : α)
  | tooSmall

/-- Goes from a time to another one in steps of about the length `h`. A step that is not accurate is
tried again at half its length, and one that is very accurate makes the next one longer. -/
def advance (f : RightHandSide α) (stop : α) : Nat → α → α → List α → Outcome α (Reached α)
  | 0, _, _, _ => .ok .tooSmall
  | fuel + 1, t, h, y => do
    let rest := stop - t
    let isLast := decide (Scalar.abs rest ≤ Scalar.abs h)
    let step := if isLast then rest else h
    if Scalar.abs step ≤ 2.3e-15 * Scalar.abs t && !isLast then return .tooSmall
    let (next, error) ← embeddedStep f t step y
    if accurate 1.0 y next error then
      let length := if accurate 0.02 y next error then 2.0 * step else step
      if isLast then return .state next (if Scalar.abs length < Scalar.abs h then h else length)
      else advance f stop fuel (t + step) length next
    else if Scalar.abs step ≤ 2.3e-15 * Scalar.abs t then return .tooSmall
    else advance f stop fuel t (0.5 * step) y

/-- The number of steps after which a solution counts as lost. -/
def stepLimit : Nat := 20000

/-- The states at some times, from a state at the start on; with whether the stop was reached. -/
def adaptiveStates (f : RightHandSide α) (stop t h : α) (y : List α) :
    List α → Outcome α (List (α × List α) × Bool)
  | [] => do
    if Scalar.eq t stop then return ([], true)
    match ← advance f stop stepLimit t h y with
    | .state _ _ => return ([], true)
    | .tooSmall => return ([], false)
  | a :: rest => do
    if Scalar.eq a t then
      let (states, ok) ← adaptiveStates f stop t h y rest
      return ((a, y) :: states, ok)
    match ← advance f a stepLimit t h y with
    | .state next length =>
      let (states, ok) ← adaptiveStates f stop a length next rest
      return ((a, next) :: states, ok)
    | .tooSmall => return ([], false)

def resultOf (width : Nat) (states : List (α × List α)) (success : Bool) (message : String) :
    OdeResult α :=
  { times := Tensor.ofList (states.map (·.1))
    states := if states.isEmpty then Tensor.ofList []
              else Tensor.ofRows (states.map (·.2)) width
    success, message }

def argumentFault (text : String) : Fault α := .foreign ⟨.value, some text, none⟩

/-- Checks the times that are asked for: within the span, and strictly in its direction. -/
def checkTimes (r : OdeRequest α) : Outcome α Unit := do
  let low := Scalar.smaller r.start r.stop
  let high := Scalar.larger r.start r.stop
  if r.times.any fun t => decide (t < low) || decide (high < t) then
    throw (argumentFault "Values in `t_eval` are not within `t_span`.")
  let gaps := r.times.zipWith (fun a b => b - a) r.times.tail
  if (r.start < r.stop && gaps.any fun d => decide (d ≤ 0.0))
      || (r.stop < r.start && gaps.any fun d => decide (0.0 ≤ d)) then
    throw (argumentFault "Values in `t_eval` are not properly sorted.")
  match r.maxStep.numeric? with
  | some x =>
    if x.le (.int 0) then throw (argumentFault "`max_step` must be positive.")
  | none => throw (.reading (.notOrdered "<=" r.maxStep.typeName "int"))

/-- Integrates with steps that follow the error. Where the two ends of the span are one, the state
stays as it is. -/
def adaptive (r : OdeRequest α) : Outcome α (OdeResult α) := do
  checkTimes r
  let done := "The solver successfully reached the end of the integration interval."
  if Scalar.eq r.start r.stop then
    let _ ← r.rhsAt r.start r.initial
    return resultOf r.initial.length (r.times.map fun t => (t, r.initial)) true done
  let (states, ok) ←
    adaptiveStates r.rhsAt r.stop r.start ((r.stop - r.start) / 100.0) r.initial r.times
  return resultOf r.initial.length states ok
    (if ok then done else "Required step size is less than spacing between numbers.")

/-- Integrates with a fixed number of steps between neighbouring times. -/
def fixed (step : Step α) (n : Nat) (r : OdeRequest α) : Outcome α (OdeResult α) := do
  let states ← fixedStates step r.rhsAt n r.initial r.times
  return { times := Tensor.ofList r.times
           states := Tensor.ofRows states r.initial.length
           success := true
           message := "done" }

end Integrator

end Collocation
