import Collocation.Layout.Builder
import Collocation.Proofs.Values

/-! Calls that set the bounds and names of a layout in the making.  After calls that all succeed,
the builder has one item for each variable of a sort, and they are those of the last call that gave
any for the sort. -/

namespace Collocation

@[simp] theorem Value.equalsInt_int {α : Type} [Scalar α] (m n : Int) :
    (Value.int m : Value α).equalsInt n = true ↔ m = n := by
  show (Number.int m : Number α).eq (.int n) = true ↔ m = n
  rw [Number.eq_int_iff, Number.exact, Extended.finite.injEq, Rat.intCast_inj]

theorem Value.length_toItems {α : Type} {v : Value α} {n : Nat} {items : List (Value α)}
    (hn : v.toLength = .ok n) (hi : v.toItems = .ok items) : items.length = n := by
  cases v <;> simp [Value.toLength] at hn <;> simp [Value.toItems] at hi <;> subst hn <;>
    subst hi <;> simp [String.length]

/-- A set of bounds in which every list has `n` entries. -/
structure BoundsSet.Counted {α : Type} (s : BoundsSet α) (n : Nat) : Prop where
  path : s.path.length = n
  initial : ∀ bs ∈ s.initial, bs.length = n
  final : ∀ bs ∈ s.final, bs.length = n

namespace LayoutBuilder

variable {α : Type} [Scalar α]

@[simp] theorem checkCount_int {actual n : Nat} {sort : String} {u : Unit} :
    (checkCount actual (.int n) sort : Outcome α Unit) = .ok u ↔ n = actual := by
  simp only [checkCount, Value.equalsInt_int, Int.natCast_inj]
  by_cases h : n = actual <;> simp [h]

theorem eq_of_boundsSet {path : List (Bounds α)} {initial final : Option (List (Bounds α))}
    {expected : Value α} {sort : String} {bs : BoundsSet α}
    (h : boundsSet path initial final expected sort = .ok bs) : bs = ⟨path, initial, final⟩ := by
  cases initial <;> cases final <;>
    simp only [boundsSet, Except.bind_eq_ok, Except.pure_eq_ok] at h
  · obtain ⟨_, _, rfl⟩ := h
    rfl
  · obtain ⟨_, _, _, _, rfl⟩ := h
    rfl
  · obtain ⟨_, _, _, _, rfl⟩ := h
    rfl
  · obtain ⟨_, _, _, _, _, _, rfl⟩ := h
    rfl

theorem boundsSet_eq_ok {path : List (Bounds α)} {initial final : Option (List (Bounds α))}
    {n : Nat} {sort : String} {s : BoundsSet α}
    (h : boundsSet path initial final (.int n) sort = .ok s) :
    s = ⟨path, initial, final⟩ ∧ s.Counted n := by
  cases initial <;> cases final <;>
    simp only [boundsSet, Except.bind_eq_ok, checkCount_int, Except.pure_eq_ok] at h
  · obtain ⟨_, hp, rfl⟩ := h
    exact ⟨rfl, hp.symm, by simp, by simp⟩
  · obtain ⟨_, hp, _, hf, rfl⟩ := h
    exact ⟨rfl, hp.symm, by simp, by simpa using hf.symm⟩
  · obtain ⟨_, hp, _, hi, rfl⟩ := h
    exact ⟨rfl, hp.symm, by simpa using hi.symm, by simp⟩
  · obtain ⟨_, hp, _, hi, _, hf, rfl⟩ := h
    exact ⟨rfl, hp.symm, by simpa using hi.symm, by simpa using hf.symm⟩

theorem countedNames_eq_ok {names : Value α} {n : Nat} {sort : String} {ns : List (Value α)}
    (h : countedNames names (.int n) sort = .ok ns) : names.toItems = .ok ns ∧ ns.length = n := by
  simp only [countedNames, Except.bind_eq_ok, checkCount_int] at h
  obtain ⟨m, hm, _, rfl, hns⟩ := h
  exact ⟨hns, Value.length_toItems hm hns⟩

/-- A call that sets bounds or names. -/
inductive Setter (α : Type) where
  | states (path : List (Bounds α)) (initial final : Option (List (Bounds α)))
  | controls (path : List (Bounds α)) (initial final : Option (List (Bounds α)))
  | multipliers (bounds : List (Bounds α))
  | parameters (bounds : List (Bounds α))
  | times (initial final : Bounds α)
  | names (states controls multipliers parameters : Value α)

def givenNames (names : Value α) : Option (List (Value α)) :=
  if names.isMissing then none else names.toItems.toOption

namespace Setter

def run : Setter α → Edit (LayoutBuilder α) α Unit
  | .states path initial final => setStateBounds path initial final
  | .controls path initial final => setControlBounds path initial final
  | .multipliers bounds => setMultiplierBounds bounds
  | .parameters bounds => setParameterBounds bounds
  | .times initial final => setTimeBounds initial final
  | .names xs us ms ps => setNames xs us ms ps

def states? : Setter α → Option (BoundsSet α)
  | .states path initial final => some ⟨path, initial, final⟩
  | _ => none

def controls? : Setter α → Option (BoundsSet α)
  | .controls path initial final => some ⟨path, initial, final⟩
  | _ => none

def multipliers? : Setter α → Option (List (Bounds α))
  | .multipliers bounds => some bounds
  | _ => none

def parameters? : Setter α → Option (List (Bounds α))
  | .parameters bounds => some bounds
  | _ => none

def times? : Setter α → Option (Bounds α × Bounds α)
  | .times initial final => some (initial, final)
  | _ => none

def stateNames? : Setter α → Option (List (Value α))
  | .names xs _ _ _ => givenNames xs
  | _ => none

def controlNames? : Setter α → Option (List (Value α))
  | .names _ us _ _ => givenNames us
  | _ => none

def multiplierNames? : Setter α → Option (List (Value α))
  | .names _ _ ms _ => givenNames ms
  | _ => none

def parameterNames? : Setter α → Option (List (Value α))
  | .names _ _ _ ps => givenNames ps
  | _ => none

end Setter

end LayoutBuilder

/-- The bounds and names of the variables of a layout, by sort. -/
structure Arrangement (α : Type) where
  states : BoundsSet α
  controls : BoundsSet α
  multipliers : List (Bounds α)
  parameters : List (Bounds α)
  times : Bounds α × Bounds α
  stateNames : List (Value α)
  controlNames : List (Value α)
  multiplierNames : List (Value α)
  parameterNames : List (Value α)

namespace Arrangement

variable {α : Type} [Scalar α]

open LayoutBuilder

/-- What is there before anything is set: no restrictions, and names that are numbered. -/
def start (d : Dimensions) : Arrangement α where
  states := { path := freeBounds d.states }
  controls := { path := freeBounds d.controls }
  multipliers := freeBounds d.multipliers
  parameters := freeBounds d.parameters
  times := (.free, .free)
  stateNames := numbered "x" d.states
  controlNames := numbered "u" d.controls
  multiplierNames := numbered "lambda" d.multipliers
  parameterNames := numbered "p" d.parameters

/-- What was set last by some calls. -/
def afterCalls (a : Arrangement α) (calls : List (Setter α)) : Arrangement α where
  states := lastPicked Setter.states? a.states calls
  controls := lastPicked Setter.controls? a.controls calls
  multipliers := lastPicked Setter.multipliers? a.multipliers calls
  parameters := lastPicked Setter.parameters? a.parameters calls
  times := lastPicked Setter.times? a.times calls
  stateNames := lastPicked Setter.stateNames? a.stateNames calls
  controlNames := lastPicked Setter.controlNames? a.controlNames calls
  multiplierNames := lastPicked Setter.multiplierNames? a.multiplierNames calls
  parameterNames := lastPicked Setter.parameterNames? a.parameterNames calls

omit [Scalar α] in
theorem foldl_afterCalls (a : Arrangement α) (calls : List (Setter α)) :
    calls.foldl (fun a c => a.afterCalls [c]) a = a.afterCalls calls := by
  induction calls generalizing a with
  | nil => rfl
  | cons c rest ih =>
    rw [List.foldl_cons, ih]
    simp [afterCalls]

/-- Every list has one item for each variable of its sort. -/
structure Fits (a : Arrangement α) (d : Dimensions) : Prop where
  states : a.states.Counted d.states
  controls : a.controls.Counted d.controls
  multipliers : a.multipliers.length = d.multipliers
  parameters : a.parameters.length = d.parameters
  stateNames : a.stateNames.length = d.states
  controlNames : a.controlNames.length = d.controls
  multiplierNames : a.multiplierNames.length = d.multipliers
  parameterNames : a.parameterNames.length = d.parameters

theorem start_fits (d : Dimensions) : (start d : Arrangement α).Fits d where
  states := ⟨by simp [start, freeBounds], by simp [start], by simp [start]⟩
  controls := ⟨by simp [start, freeBounds], by simp [start], by simp [start]⟩
  multipliers := by simp [start, freeBounds]
  parameters := by simp [start, freeBounds]
  stateNames := by simp [start, numbered]
  controlNames := by simp [start, numbered]
  multiplierNames := by simp [start, numbered]
  parameterNames := by simp [start, numbered]

end Arrangement

namespace LayoutBuilder

variable {α : Type} [Scalar α]

def arrangement (b : LayoutBuilder α) : Arrangement α where
  states := b.stateBounds
  controls := b.controlBounds
  multipliers := b.multiplierBounds
  parameters := b.parameterBounds
  times := (b.initialTime, b.finalTime)
  stateNames := b.stateNames
  controlNames := b.controlNames
  multiplierNames := b.multiplierNames
  parameterNames := b.parameterNames

/-- A builder for the given sizes and constrained points, with one item for each variable. -/
structure Sized (b : LayoutBuilder α) (points : Nat) (d : Dimensions) (constrained : List Nat) :
    Prop where
  points : b.points = .int points
  states : b.states = .int d.states
  controls : b.controls = .int d.controls
  multipliers : b.multipliers = .int d.multipliers
  parameters : b.parameters = .int d.parameters
  constrained : b.constrained = constrained
  fits : b.arrangement.Fits d

variable {points : Nat} {d : Dimensions} {ks : List Nat} {b b' : LayoutBuilder α}

theorem setNamesOf_yields {sort : String} {size : LayoutBuilder α → Value α}
    {put : List (Value α) → LayoutBuilder α → LayoutBuilder α} {names : Value α} {n : Nat}
    {u : Unit} (h : (setNamesOf sort size put names).Yields b u b') (hsize : size b = .int n) :
    (givenNames names = none ∧ b' = b) ∨
      ∃ ns, givenNames names = some ns ∧ ns.length = n ∧ b' = put ns b := by
  unfold setNamesOf at h
  split at h
  · next hmissing =>
    simp only [Edit.yields_pure] at h
    exact .inl ⟨by simp [givenNames, hmissing], h.2⟩
  · next hmissing =>
    simp only [Edit.yields_bind, Edit.yields_get, Edit.yields_lift, Edit.yields_modify] at h
    obtain ⟨_, _, ⟨rfl, rfl⟩, ns, _, ⟨hns, rfl⟩, rfl⟩ := h
    rw [hsize] at hns
    obtain ⟨hitems, hlength⟩ := countedNames_eq_ok hns
    exact .inr ⟨ns, by simp [givenNames, hmissing, hitems, Except.toOption], hlength, rfl⟩

/-- Names that are set are as many as there are variables. Here `set` is what storing names does to
the arrangement, and `old` are the names that are there. -/
theorem setNamesOf_sized {sort : String} {size : LayoutBuilder α → Value α}
    {put : List (Value α) → LayoutBuilder α → LayoutBuilder α} {names : Value α} {n : Nat}
    {u : Unit} (h : (setNamesOf sort size put names).Yields b u b') (hb : b.Sized points d ks)
    (hsize : size b = .int n) (set : List (Value α) → Arrangement α) (old : List (Value α))
    (hput : ∀ ns, ns.length = n → (put ns b).Sized points d ks ∧ (put ns b).arrangement = set ns)
    (hold : b.arrangement = set old) :
    b'.Sized points d ks ∧ b'.arrangement = set ((givenNames names).getD old) := by
  rcases setNamesOf_yields h hsize with ⟨hnone, rfl⟩ | ⟨ns, hsome, hlength, rfl⟩
  · rw [hnone]
    exact ⟨hb, hold⟩
  · rw [hsome]
    exact hput ns hlength

/-- A call that succeeds sets what it gives, as often as there are variables, and nothing else. -/
theorem Setter.run_yields {c : Setter α} (h : c.run.Yields b () b') (hb : b.Sized points d ks) :
    b'.Sized points d ks ∧ b'.arrangement = b.arrangement.afterCalls [c] := by
  cases c with
  | states path initial final =>
    simp only [run, setStateBounds, Edit.yields_bind, Edit.yields_get, Edit.yields_lift,
      Edit.yields_modify] at h
    obtain ⟨_, _, ⟨rfl, rfl⟩, bs, _, ⟨hbs, rfl⟩, rfl⟩ := h
    rw [hb.states] at hbs
    obtain ⟨rfl, hcounted⟩ := boundsSet_eq_ok hbs
    exact ⟨{ hb with fits := { hb.fits with states := hcounted } }, rfl⟩
  | controls path initial final =>
    simp only [run, setControlBounds, Edit.yields_bind, Edit.yields_get, Edit.yields_lift,
      Edit.yields_modify] at h
    obtain ⟨_, _, ⟨rfl, rfl⟩, bs, _, ⟨hbs, rfl⟩, rfl⟩ := h
    rw [hb.controls] at hbs
    obtain ⟨rfl, hcounted⟩ := boundsSet_eq_ok hbs
    exact ⟨{ hb with fits := { hb.fits with controls := hcounted } }, rfl⟩
  | multipliers bounds =>
    simp only [run, setMultiplierBounds, Edit.yields_bind, Edit.yields_get, Edit.yields_lift,
      Edit.yields_modify] at h
    obtain ⟨_, _, ⟨rfl, rfl⟩, _, _, ⟨hcount, rfl⟩, rfl⟩ := h
    rw [hb.multipliers, checkCount_int] at hcount
    exact ⟨{ hb with fits := { hb.fits with multipliers := hcount.symm } }, rfl⟩
  | parameters bounds =>
    simp only [run, setParameterBounds, Edit.yields_bind, Edit.yields_get, Edit.yields_lift,
      Edit.yields_modify] at h
    obtain ⟨_, _, ⟨rfl, rfl⟩, _, _, ⟨hcount, rfl⟩, rfl⟩ := h
    rw [hb.parameters, checkCount_int] at hcount
    exact ⟨{ hb with fits := { hb.fits with parameters := hcount.symm } }, rfl⟩
  | times initial final =>
    simp only [run, setTimeBounds, Edit.yields_modify] at h
    subst h
    exact ⟨{ hb with fits := { hb.fits with } }, rfl⟩
  | names xs us ms ps =>
    simp only [run, setNames, Edit.yields_bind] at h
    obtain ⟨_, b1, h1, _, b2, h2, _, b3, h3, h4⟩ := h
    obtain ⟨hb1, ha1⟩ := setNamesOf_sized h1 hb hb.states
      (fun ns => { b.arrangement with stateNames := ns }) b.stateNames
      (fun _ hns => ⟨{ hb with fits := { hb.fits with stateNames := hns } }, rfl⟩) rfl
    obtain ⟨hb2, ha2⟩ := setNamesOf_sized h2 hb1 hb1.controls
      (fun ns => { b1.arrangement with controlNames := ns }) b1.controlNames
      (fun _ hns => ⟨{ hb1 with fits := { hb1.fits with controlNames := hns } }, rfl⟩) rfl
    obtain ⟨hb3, ha3⟩ := setNamesOf_sized h3 hb2 hb2.multipliers
      (fun ns => { b2.arrangement with multiplierNames := ns }) b2.multiplierNames
      (fun _ hns => ⟨{ hb2 with fits := { hb2.fits with multiplierNames := hns } }, rfl⟩) rfl
    obtain ⟨hb4, ha4⟩ := setNamesOf_sized h4 hb3 hb3.parameters
      (fun ns => { b3.arrangement with parameterNames := ns }) b3.parameterNames
      (fun _ hns => ⟨{ hb3 with fits := { hb3.fits with parameterNames := hns } }, rfl⟩) rfl
    refine ⟨hb4, ?_⟩
    have hc : b1.controlNames = b.controlNames := congrArg Arrangement.controlNames ha1
    have hm : b2.multiplierNames = b.multiplierNames :=
      (congrArg Arrangement.multiplierNames ha2).trans (congrArg Arrangement.multiplierNames ha1)
    have hp : b3.parameterNames = b.parameterNames :=
      (congrArg Arrangement.parameterNames ha3).trans
        ((congrArg Arrangement.parameterNames ha2).trans
          (congrArg Arrangement.parameterNames ha1))
    rw [ha4, ha3, ha2, ha1, hc, hm, hp]
    simp only [Arrangement.afterCalls, lastPicked_cons, lastPicked_nil, states?, controls?,
      multipliers?, parameters?, times?, stateNames?, controlNames?, multiplierNames?,
      parameterNames?, Option.getD_none]
    rfl

/-- Calls that all succeed leave of each sort what the last one gave, as often as there are
variables. -/
theorem yields_sequence {calls : List (Setter α)}
    (h : (Edit.sequence Setter.run calls).Yields b () b') (hb : b.Sized points d ks) :
    b'.Sized points d ks ∧ b'.arrangement = b.arrangement.afterCalls calls := by
  rw [← Arrangement.foldl_afterCalls]
  refine Edit.sequence_follows (I := fun b a => b.Sized points d ks ∧ b.arrangement = a)
    (fun {c s s' a} hc hs => ?_) h ⟨hb, rfl⟩
  obtain ⟨hsized, rfl⟩ := hs
  exact Setter.run_yields hc hsized

end LayoutBuilder

end Collocation
