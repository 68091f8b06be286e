import Collocation.Problem

/-!
Transcription schemes and their registry. A scheme is the trapezoidal rule with some of its choices
replaced. Schemes are looked up by the names under which they were registered, and a scheme carries
the last name that it was registered under; one without a name has that of the basic scheme.
-/

namespace Collocation

/-- What a scheme does where constraints are written down. -/
inductive ConstraintRule where
  | standard
  | none
  | fails (cause : Raised)

structure Scheme (α : Type) where
  className : String
  /-- How many points more than the mesh the scheme expects for states and for controls. -/
  stateOffset : Value α := .int 0
  controlOffset : Value α := .int 0
  derivatives : Bool := false
  options : List (Value α) := []
  /-- Quadrature coefficients other than those of the trapezoidal rule. -/
  quadrature : Option (Value α) := none
  /-- Points with kinematic constraints other than all points. -/
  kinematic : Option (Value α) := none
  constraints : ConstraintRule := .standard
  /-- A failure of the evaluation of the objective. -/
  objectiveFault : Option Raised := none

def Scheme.trapezoidal {α : Type} : Scheme α := { className := "Trapezoidal" }

/-- A scheme with the name that it was last registered under. -/
structure NamedScheme (α : Type) where
  scheme : Scheme α
  ownName : Option String := none

/-- The known schemes, and the names that are bound to them by their position. -/
structure Registry (α : Type) where
  schemes : List (NamedScheme α)
  bindings : List (String × Nat)

namespace Registry

variable {α : Type} [Scalar α]

def initial : Registry α := ⟨[⟨.trapezoidal, some "trapezoidal"⟩], [("trapezoidal", 0)]⟩

def nameOf (r : Registry α) (i : Nat) : String :=
  match r.schemes[i]?.bind (·.ownName) with
  | some n => n
  | none => (r.schemes[0]?.bind (·.ownName)).getD ""

def schemeAt (r : Registry α) (i : Nat) : Scheme α :=
  (r.schemes[i]?.map (·.scheme)).getD .trapezoidal

/-- The name of a scheme in messages: that of its class if it has no other. -/
def displayName (r : Registry α) (i : Nat) : String :=
  let n := r.nameOf i
  if n.isEmpty then (r.schemeAt i).className else n

/-- Adds a scheme without a name, and returns its position. -/
def add (s : Scheme α) : Edit (Registry α) α Nat := do
  modify fun r => { r with schemes := r.schemes ++ [⟨s, none⟩] }
  return (← get).schemes.length - 1

/-- The position of the scheme that was last added under a class name. -/
def lastOf? (r : Registry α) (className : String) : Option Nat :=
  (List.range r.schemes.length).reverse.find? fun i => (r.schemeAt i).className == className

def bindingName (v : Value α) : Outcome α String :=
  match v with
  | .text s => if Text.isBlankText s then .error (.scheme (.blankName v)) else .ok s
  | v => .error (.scheme (.blankName v))

/-- Registers a scheme under a name that is not bound to another scheme, and returns its name. -/
def register (name : Value α) (i : Nat) : Edit (Registry α) α String := do
  let n ← bindingName name
  let r ← get
  match r.bindings.lookup n with
  | some j =>
    if j ≠ i then throw (.scheme (.taken n (r.schemeAt j).className))
  | none => pure ()
  let schemes := r.schemes.modify i fun s => { s with ownName := some n }
  let bindings := if (r.bindings.lookup n).isSome then r.bindings else r.bindings ++ [(n, i)]
  set ({ schemes, bindings } : Registry α)
  return (← get).nameOf i

def available (r : Registry α) : List String :=
  (r.bindings.map (·.1)).mergeSort fun a b => decide (a ≤ b)

def find (r : Registry α) (name : String) : Outcome α Nat :=
  match r.bindings.lookup name with
  | some i => .ok i
  | none => .error (.scheme (.unknown name r.available))

/-- The scheme that a value is bound to, which only texts are. -/
def findValue (r : Registry α) (name : Value α) : Outcome α Nat :=
  match name with
  | .text s => r.find s
  | v => do
    v.checkKey
    throw (.scheme (.unknown v.display r.available))

end Registry

end Collocation
