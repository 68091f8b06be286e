import Collocation.Fault

/-!
Signatures: the arguments that a function takes, in their places or under their names. A call is
checked against the signature before the function looks at any argument.
-/

namespace Collocation

structure Signature where
  function : String
  /-- Whether the function belongs to an object, which takes the first place of every call. -/
  hasOwner : Bool := true
  required : List String
  optional : List String := []

namespace Signature

/-- The number of places that the object of a call takes. -/
def ownerPlaces (s : Signature) : Nat := if s.hasOwner then 1 else 0

def leastPlaces (s : Signature) : Nat := s.required.length + s.ownerPlaces

def mostPlaces (s : Signature) : Nat := s.leastPlaces + s.optional.length

variable {α : Type}

/-- Checks a call with so many arguments in their places. -/
def checkCount (s : Signature) (given : Nat) : Outcome α Unit :=
  if s.required.length + s.optional.length < given then
    .error (.call (.tooMany s.function s.leastPlaces s.mostPlaces (given + s.ownerPlaces)))
  else if given < s.required.length then
    .error (.call (.missing s.function (s.required.drop given)))
  else .ok ()

/-- Checks that all arguments of a call are known by name. -/
def checkKnown (s : Signature) (names : List String) : Outcome α Unit :=
  match names.find? fun n => !(s.required ++ s.optional).contains n with
  | some n => .error (.call (.unknownName s.function n))
  | none => .ok ()

/-- The arguments that a call by names leaves out, though they have to be given. -/
def absent (s : Signature) (names : List String) : List String :=
  s.required.filter fun n => !names.contains n

/-- Checks that a call by names leaves out nothing that has to be given. -/
def requireNames (s : Signature) (names : List String) : Outcome α Unit :=
  if (s.absent names).isEmpty then .ok () else .error (.call (.missing s.function (s.absent names)))

def checkNames (s : Signature) (names : List String) : Outcome α Unit := do
  s.checkKnown names
  s.requireNames names

/-- Checks a call of a function that takes all arguments by name only. -/
def checkNamedOnly (s : Signature) (names : List String) : Outcome α Unit := do
  s.checkKnown names
  unless (s.absent names).isEmpty do throw (.call (.missingNamed s.function (s.absent names)))

theorem checkCount_required (s : Signature) :
    (s.checkCount s.required.length : Outcome α Unit) = .ok () := by
  simp [checkCount]

end Signature

end Collocation
