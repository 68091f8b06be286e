import Collocation.Layout.Draft
import Collocation.Proofs.Layout.Setting

/-! The names of the variables of a layout.  The layout has one label for each of its variables, and
builders that differ in their names build layouts that differ in their labels only. -/

namespace Collocation

variable {α : Type}

namespace LayoutBuilder

/-! ### Sizes and names by sort -/

def sizes (b : LayoutBuilder α) : VariableSort → Value α
  | .state => b.states
  | .control => b.controls
  | .multiplier => b.multipliers
  | .parameter => b.parameters

def names (b : LayoutBuilder α) : VariableSort → List (Value α)
  | .state => b.stateNames
  | .control => b.controlNames
  | .multiplier => b.multiplierNames
  | .parameter => b.parameterNames

/-- A builder with other names. -/
def named (names : VariableSort → List (Value α)) (b : LayoutBuilder α) : LayoutBuilder α :=
  { b with
    stateNames := names .state
    controlNames := names .control
    multiplierNames := names .multiplier
    parameterNames := names .parameter }

section Named

variable (b : LayoutBuilder α) (ns ns' : VariableSort → List (Value α))

@[simp] theorem sizes_named : (b.named ns).sizes = b.sizes := by
  funext s
  cases s <;> rfl

@[simp] theorem names_named : (b.named ns).names = ns := by
  funext s
  cases s <;> rfl

@[simp] theorem named_named : (b.named ns).named ns' = b.named ns' := rfl

@[simp] theorem named_names : b.named b.names = b := rfl

end Named

end LayoutBuilder

/-! ### Layouts without their labels -/

/-- A variable without its label. -/
def Slot.unlabelled (s : Slot α) : Slot α := { s with label := .none }

/-- A layout without the labels of its variables. -/
def Layout.unlabelled (l : Layout α) : Layout α := { l with slots := l.slots.map Slot.unlabelled }

namespace LayoutBuilder

variable {b : LayoutBuilder α} {names : VariableSort → List (Value α)}

theorem zipWith_unlabelled (label : Value α → Value α) (bounds : List (Bounds α))
    {ns ns' : List (Value α)} (h : ns.length = ns'.length) :
    (bounds.zipWith (fun b n => (⟨label n, b⟩ : Slot α)) ns).map Slot.unlabelled =
      (bounds.zipWith (fun b n => ⟨label n, b⟩) ns').map Slot.unlabelled := by
  induction bounds generalizing ns ns' with
  | nil => rfl
  | cons b rest ih =>
    cases ns with
    | nil =>
      obtain rfl := List.length_eq_zero_iff.mp h.symm
      rfl
    | cons n ns =>
      cases ns' with
      | nil => cases h
      | cons n' ns' =>
        rw [List.zipWith_cons_cons, List.zipWith_cons_cons, List.map_cons, List.map_cons,
          ih (Nat.succ.inj h)]
        rfl

theorem offsetsOf_map {γ δ : Type} (f : γ → δ) (start : Nat) (blocks : List (List γ)) :
    offsetsOf start (blocks.map (List.map f)) = offsetsOf start blocks := by
  induction blocks generalizing start with
  | nil => rfl
  | cons block rest ih => rw [List.map_cons, offsetsOf, offsetsOf, List.length_map, ih]

variable [Scalar α]

theorem slotsAt_unlabelled (bounds : List (Bounds α)) {ns ns' : List (Value α)}
    (h : ns.length = ns'.length) (k : Nat) :
    (slotsAt bounds ns k).map Slot.unlabelled = (slotsAt bounds ns' k).map Slot.unlabelled :=
  zipWith_unlabelled _ bounds h

section Renamed

variable (h : ∀ s, (names s).length = (b.names s).length)
include h

theorem pointSlots_unlabelled (last k : Nat) :
    ((b.named names).pointSlots last k).map Slot.unlabelled =
      (b.pointSlots last k).map Slot.unlabelled := by
  have hstates := slotsAt_unlabelled (b.stateBounds.boundsAt k last) (h .state) k
  have hcontrols := slotsAt_unlabelled (b.controlBounds.boundsAt k last) (h .control) k
  have hmultipliers := slotsAt_unlabelled b.multiplierBounds (h .multiplier) k
  unfold pointSlots
  simp only [List.map_append]
  refine congrArg₂ (· ++ ·) (congrArg₂ (· ++ ·) hstates hcontrols) ?_
  show List.map Slot.unlabelled (if b.constrained.contains k = true then _ else _) =
    List.map Slot.unlabelled (if b.constrained.contains k = true then _ else _)
  split_ifs
  · exact hmultipliers
  · rfl

omit [Scalar α] in
theorem globalSlots_unlabelled :
    (b.named names).globalSlots.map Slot.unlabelled = b.globalSlots.map Slot.unlabelled := by
  have hparameters := zipWith_unlabelled id b.parameterBounds (h .parameter)
  unfold globalSlots
  rw [List.map_cons, List.map_cons, List.map_cons, List.map_cons]
  exact congrArg (fun slots => _ :: _ :: slots) hparameters

/-- Builders that differ in their names build layouts that differ in their labels. -/
theorem build_unlabelled :
    (b.named names).build.map Layout.unlabelled = b.build.map Layout.unlabelled := by
  show (pointCount b.points >>= _).map _ = (pointCount b.points >>= _).map _
  cases pointCount b.points with
  | error fault => rfl
  | ok points =>
    let blocks (b : LayoutBuilder α) :=
      (List.range points.toNat).map (b.pointSlots (points - 1).toNat)
    have hblocks : (blocks (b.named names)).map (List.map Slot.unlabelled) =
        (blocks b).map (List.map Slot.unlabelled) := by
      simp only [blocks, List.map_map]
      exact List.map_congr_left fun k _ => pointSlots_unlabelled h _ k
    have hoffsets : offsetsOf 0 (blocks (b.named names)) = offsetsOf 0 (blocks b) := by
      rw [← offsetsOf_map Slot.unlabelled, hblocks, offsetsOf_map]
    have hslots :
        ((blocks (b.named names)).flatten ++ (b.named names).globalSlots).map Slot.unlabelled =
          ((blocks b).flatten ++ b.globalSlots).map Slot.unlabelled := by
      rw [List.map_append, List.map_append, List.map_flatten, List.map_flatten, hblocks,
        globalSlots_unlabelled h]
    have hlength : ((blocks (b.named names)).flatten ++ (b.named names).globalSlots).length =
        ((blocks b).flatten ++ b.globalSlots).length := by
      have hlengths := congrArg List.length hslots
      rwa [List.length_map, List.length_map] at hlengths
    show Except.map _ (if (((blocks (b.named names)).flatten ++
      (b.named names).globalSlots).length : Int) ≠ b.expectedSize points then _ else _) =
      Except.map _ (if (((blocks b).flatten ++ b.globalSlots).length : Int) ≠
        b.expectedSize points then _ else _)
    rw [hlength]
    split_ifs
    · rfl
    · refine congrArg Except.ok ?_
      show Layout.mk _ _ _ (offsetsOf 0 (blocks (b.named names))) (List.map Slot.unlabelled
        ((blocks (b.named names)).flatten ++ (b.named names).globalSlots)) = _
      rw [hoffsets, hslots]
      rfl

end Renamed

/-! ### As many names as variables -/

/-- Every sort has one name for each of its variables. -/
def Labelled (b : LayoutBuilder α) : Prop :=
  ∀ s, ∃ n, (b.sizes s).toRepeatCount = .ok n ∧ (b.names s).length = n.toNat

theorem ofRequest_labelled {r : LayoutRequest α} {b : LayoutBuilder α} (h : ofRequest r = .ok b) :
    b.Labelled := by
  simp only [ofRequest, Except.bind_eq_ok, Except.pure_eq_ok] at h
  obtain ⟨constrained, -, ns, hs, nc, hc, nm, hm, np, hp, rfl⟩ := h
  intro s
  cases s with
  | state => exact ⟨ns, hs, by simp [names, numbered]⟩
  | control => exact ⟨nc, hc, by simp [names, numbered]⟩
  | multiplier => exact ⟨nm, hm, by simp [names, numbered]⟩
  | parameter => exact ⟨np, hp, by simp [names, numbered]⟩

/-- A size that can be a count is equal to that count only. -/
theorem equalsInt_of_toRepeatCount {v : Value α} {n m : Int} (hn : v.toRepeatCount = .ok n)
    (hm : v.equalsInt m = true) : n = m := by
  have hwhole : v.whole? = some n := by
    unfold Value.toRepeatCount at hn
    split at hn
    · next k hk =>
      split_ifs at hn
      rw [hk, Except.ok.inj hn]
    · cases hn
  cases v with
  | number x =>
    cases x with
    | int k =>
      obtain rfl := Option.some.inj hwhole
      exact (Value.equalsInt_int k m).mp hm
    | real x => cases hwhole
  | bool t =>
    obtain rfl := Option.some.inj hwhole
    exact (Value.equalsInt_int (α := α) t.toInt m).mp hm
  | _ => cases hwhole

end LayoutBuilder

end Collocation
