import Collocation.Layout.Builder
import Collocation.Layout.Trajectory

/-!
A layout in the making beside the layout that was built last. Bounds arrive in calls with arguments
in their places; they are read before the places are counted.
-/

namespace Collocation

/-- A builder and the layout that it built last. -/
structure LayoutDraft (α : Type) where
  builder : LayoutBuilder α
  built : Option (Layout α) := none

inductive VariableSort where
  | state
  | control
  | multiplier
  | parameter
  deriving DecidableEq

def VariableSort.signature : VariableSort → Signature
  | state =>
    { function := "LayoutBuilder.set_state_bounds"
      required := ["bounds"], optional := ["initial", "final"] }
  | control =>
    { function := "LayoutBuilder.set_control_bounds"
      required := ["bounds"], optional := ["initial", "final"] }
  | multiplier => { function := "LayoutBuilder.set_multiplier_bounds", required := ["bounds"] }
  | parameter => { function := "LayoutBuilder.set_parameter_bounds", required := ["bounds"] }

namespace LayoutDraft

variable {α : Type} [Scalar α]

def layout (d : LayoutDraft α) : Outcome α (Layout α) :=
  match d.built with
  | some l => .ok l
  | none => .error (.missing .layout)

def edit {β : Type} (e : Edit (LayoutBuilder α) α β) : Edit (LayoutDraft α) α β :=
  e.within (·.builder) fun builder d => { d with builder }

def build : Edit (LayoutDraft α) α (Layout α) := do
  let l ← (← get).builder.build
  modify fun d => { d with built := some l }
  return l

/-- The bounds in a list; a missing list gives none. -/
def boundsList (items : Option (List (Value α))) : Outcome α (Option (List (Bounds α))) :=
  items.mapM fun vs => vs.mapM fun (v : Value α) => (Bounds.ofValue v "bounds" : Outcome α _)

def required (bounds : Option (List (Bounds α))) : Outcome α (List (Bounds α)) :=
  match bounds with
  | some bs => .ok bs
  | none => .error (.reading (.noLength "NoneType"))

/-- The lists of a call, each read at its turn: the bounds along the horizon and, for states and
controls, those at its ends. -/
def boundsOf (sort : VariableSort) (lists : List (Outcome α (Option (List (Value α))))) :
    Outcome α (BoundsSet α) := do
  let args ← lists.mapM fun (vs : Outcome α _) => (do boundsList (← vs) : Outcome α _)
  sort.signature.checkCount args.length
  return ⟨← required (args[0]?.getD none), args[1]?.getD none, args[2]?.getD none⟩

/-- Sets bounds of one sort from the lists of a call. -/
def setBounds (sort : VariableSort) (lists : List (Outcome α (Option (List (Value α))))) :
    Edit (LayoutDraft α) α Unit := do
  let bs ← (boundsOf sort lists : Outcome α (BoundsSet α))
  edit (match sort with
    | .state => LayoutBuilder.setStateBounds bs.path bs.initial bs.final
    | .control => LayoutBuilder.setControlBounds bs.path bs.initial bs.final
    | .multiplier => LayoutBuilder.setMultiplierBounds bs.path
    | .parameter => LayoutBuilder.setParameterBounds bs.path)

def timeSignature : Signature where
  function := "LayoutBuilder.set_time_bounds"
  required := ["initial", "final"]

def setTimes (args : List (Value α)) : Edit (LayoutDraft α) α Unit := do
  let bounds ← args.mapM fun (v : Value α) => (Bounds.ofValue v "bounds" : Outcome α (Bounds α))
  (timeSignature.checkCount args.length : Outcome α Unit)
  if let [initial, final] := bounds then edit (LayoutBuilder.setTimeBounds initial final)

end LayoutDraft

end Collocation
