import Collocation.Layout.Trajectory
import Collocation.Proofs.Layout.Points
import Collocation.Proofs.Layout.Tiling
import Mathlib.Tactic.Ring

/-! The layout that a builder makes.  Its ranges tile the decision vector point by point, and every
position has the bounds and the label of the variable that stands there. -/

namespace Collocation

variable {α : Type}

/-- The bounds at point `k` of a mesh: at the first point the initial ones and at the last point the
final ones, where these are given, and otherwise those along the horizon. -/
def BoundsSet.inForce (s : BoundsSet α) (points k : Nat) : List (Bounds α) :=
  ((if k = 0 then s.initial else none) <|> (if k + 1 = points then s.final else none)).getD s.path

theorem BoundsSet.boundsAt_eq (s : BoundsSet α) {points k : Nat} (hk : k < points) :
    s.boundsAt k (points - 1) = s.inForce points k := by
  have hlast : k = points - 1 ↔ k + 1 = points := by omega
  obtain ⟨path, initial, final⟩ := s
  cases initial <;> simp only [boundsAt, inForce, hlast] <;> split_ifs <;> rfl

theorem BoundsSet.Counted.inForce {s : BoundsSet α} {n : Nat} (h : s.Counted n) (points k : Nat) :
    (s.inForce points k).length = n := by
  obtain ⟨path, initial, final⟩ := s
  have hi := h.initial
  have hf := h.final
  cases initial <;> cases final <;> by_cases h0 : k = 0 <;> by_cases h1 : k + 1 = points <;>
    simp_all [BoundsSet.inForce, h.path]

namespace Layout

def statePlace (l : Layout α) (k : Nat) : Range := ⟨l.startOf k, l.startOf k + l.sizes.states⟩

def controlPlace (l : Layout α) (k : Nat) : Range :=
  ⟨l.startOf k + l.sizes.states, l.startOf k + l.sizes.states + l.sizes.controls⟩

def multiplierPlace (l : Layout α) (k : Nat) : Range :=
  ⟨l.startOf k + l.sizes.states + l.sizes.controls,
    l.startOf k + l.sizes.states + l.sizes.controls + l.sizes.multipliers⟩

def pointPlaces (l : Layout α) (k : Nat) : List Range :=
  l.statePlace k :: l.controlPlace k
    :: if l.constrained.contains k then [l.multiplierPlace k] else []

def initialPlace (l : Layout α) : Range := ⟨l.initialTimeIndex, l.initialTimeIndex + 1⟩

def finalPlace (l : Layout α) : Range := ⟨l.finalTimeIndex, l.finalTimeIndex + 1⟩

def globalPlaces (l : Layout α) : List Range := [l.initialPlace, l.finalPlace, l.parameterRange]

def places (l : Layout α) : List Range :=
  (List.range l.points).flatMap l.pointPlaces ++ l.globalPlaces

theorem map_bounds_zipWith {label : Value α → Value α} {bounds : List (Bounds α)}
    {names : List (Value α)} (h : bounds.length = names.length) :
    (bounds.zipWith (fun b n => (⟨label n, b⟩ : Slot α)) names).map (·.bounds) = bounds := by
  rw [← List.map_uncurry_zip_eq_zipWith, List.map_map]
  exact List.map_fst_zip (Nat.le_of_eq h)

theorem map_label_zipWith {label : Value α → Value α} {bounds : List (Bounds α)}
    {names : List (Value α)} (h : bounds.length = names.length) :
    (bounds.zipWith (fun b n => (⟨label n, b⟩ : Slot α)) names).map (·.label) =
      names.map label := by
  rw [← List.map_uncurry_zip_eq_zipWith, List.map_map]
  conv => rhs; rw [← List.map_snd_zip (Nat.le_of_eq h.symm), List.map_map]
  rfl

theorem statePlace_of (l : Layout α) (w : List α) (k : Nat) :
    (l.statePlace k).of w = l.stateAt w k := by
  simp [statePlace, Range.of, stateAt, entries]

theorem controlPlace_of (l : Layout α) (w : List α) (k : Nat) :
    (l.controlPlace k).of w = l.controlAt w k := by
  simp [controlPlace, Range.of, controlAt, entries]

theorem multiplierPlace_of (l : Layout α) (w : List α) (k : Nat) :
    (l.multiplierPlace k).of w = l.multiplierAt w k := by
  simp [multiplierPlace, Range.of, multiplierAt, entries]

end Layout

namespace LayoutBuilder

section Offsets

variable {γ : Type}

theorem length_offsetsOf (start : Nat) (blocks : List (List γ)) :
    (offsetsOf start blocks).length = blocks.length + 1 := by
  induction blocks generalizing start with
  | nil => rfl
  | cons b rest ih => simp [offsetsOf, ih]

/-- Block `k` starts behind the blocks before it, and behind all blocks stands the end. -/
theorem getElem?_offsetsOf {start k : Nat} {blocks : List (List γ)} (h : k ≤ blocks.length) :
    (offsetsOf start blocks)[k]? = some (start + (blocks.take k).flatten.length) := by
  induction blocks generalizing start k with
  | nil =>
    obtain rfl : k = 0 := by simpa using h
    rfl
  | cons b rest ih =>
    cases k with
    | zero => rfl
    | succ k =>
      simp only [offsetsOf, List.getElem?_cons_succ, List.take_succ_cons, List.flatten_cons,
        List.length_append]
      rw [ih (by simpa using h), Nat.add_assoc]

theorem getLast?_offsetsOf (start : Nat) (blocks : List (List γ)) :
    (offsetsOf start blocks).getLast? = some (start + blocks.flatten.length) := by
  rw [List.getLast?_eq_getElem?, length_offsetsOf, Nat.add_sub_cancel,
    getElem?_offsetsOf (Nat.le_refl _), List.take_length]

end Offsets

variable {b : LayoutBuilder α} {points : Nat} {d : Dimensions} {ks : List Nat}

@[simp] theorem length_slotsAt [Scalar α] {n : Nat} {bounds : List (Bounds α)}
    {names : List (Value α)} (hb : bounds.length = n) (hn : names.length = n) (k : Nat) :
    (slotsAt bounds names k).length = n := by
  simp [slotsAt, hb, hn]

def width (d : Dimensions) (ks : List Nat) (k : Nat) : Nat :=
  d.states + d.controls + if ks.contains k then d.multipliers else 0

theorem sum_width (d : Dimensions) (ks : List Nat) (points : Nat) :
    ((List.range points).map (width d ks)).sum =
      points * (d.states + d.controls) +
        (List.range points).countP ks.contains * d.multipliers := by
  induction points with
  | zero => simp
  | succ n ih =>
    rw [List.range_succ, List.map_append, List.sum_append, ih, List.countP_append]
    by_cases h : ks.contains n = true <;>
      simp only [List.map_cons, List.map_nil, List.sum_cons, List.sum_nil, width, h,
        List.countP_cons, List.countP_nil, ↓reduceIte, Bool.false_eq_true] <;> ring

/-- Distinct points of the mesh are as many as the points that are among them. -/
theorem countP_contains (hin : ∀ k ∈ ks, k < points) (hd : ks.Nodup) :
    (List.range points).countP ks.contains = ks.length := by
  rw [List.countP_eq_length_filter]
  refine List.Perm.length_eq ((List.perm_ext_iff_of_nodup (List.nodup_range.filter _) hd).mpr ?_)
  intro k
  simp only [List.mem_filter, List.mem_range, List.contains_iff_mem]
  exact ⟨And.right, fun hk => ⟨hin k hk, hk⟩⟩

variable [Scalar α]

def blocks (b : LayoutBuilder α) (points : Nat) : List (List (Slot α)) :=
  (List.range points).map (b.pointSlots (points - 1))

def layout (b : LayoutBuilder α) (points : Nat) (d : Dimensions) (ks : List Nat) : Layout α where
  points
  sizes := d
  constrained := ks
  offsets := offsetsOf 0 (b.blocks points)
  slots := (b.blocks points).flatten ++ b.globalSlots

theorem length_blocks (b : LayoutBuilder α) (points : Nat) : (b.blocks points).length = points := by
  simp [blocks]

theorem getElem?_blocks {k : Nat} (hk : k < points) :
    (b.blocks points)[k]? = some (b.pointSlots (points - 1) k) := by
  simp [blocks, hk]

/-- The variables of point `k` stand behind those of the points before it. -/
theorem blocks_split {k : Nat} (hk : k < points) :
    (b.blocks points).flatten = ((b.blocks points).take k).flatten ++
      (b.pointSlots (points - 1) k ++ ((b.blocks points).drop (k + 1)).flatten) := by
  obtain ⟨hlen, hget⟩ := List.getElem?_eq_some_iff.mp (getElem?_blocks (b := b) hk)
  rw [← hget, ← List.flatten_cons, ← List.drop_eq_getElem_cons hlen, ← List.flatten_append,
    List.take_append_drop]

theorem getElem?_offsets {k : Nat} (hk : k ≤ points) :
    (b.layout points d ks).offsets[k]? = some ((b.blocks points).take k).flatten.length := by
  rw [layout, getElem?_offsetsOf (by rwa [length_blocks]), Nat.zero_add]

theorem startOf_eq {k : Nat} (hk : k ≤ points) :
    (b.layout points d ks).startOf k = ((b.blocks points).take k).flatten.length := by
  rw [Layout.startOf, getElem?_offsets hk, Option.getD_some]

theorem initialTimeIndex_eq (b : LayoutBuilder α) (points : Nat) (d : Dimensions) (ks : List Nat) :
    (b.layout points d ks).initialTimeIndex = (b.blocks points).flatten.length := by
  rw [Layout.initialTimeIndex, layout, getLast?_offsetsOf, Option.getD_some, Nat.zero_add]

/-- The times and the parameters stand behind all points. -/
theorem slots_globals : (b.layout points d ks).slots =
    (b.blocks points).flatten ++ ([⟨.text "t0", b.initialTime⟩] ++ ([⟨.text "tf", b.finalTime⟩] ++
      (b.parameterBounds.zipWith (fun bound n => ⟨n, bound⟩) b.parameterNames ++ []))) := by
  simp [layout, globalSlots]

section Sized

variable (hb : b.Sized points d ks)
include hb

/-- The variables of point `k`, under the bounds that are in force there. -/
theorem pointSlots_eq {k : Nat} (hk : k < points) :
    b.pointSlots (points - 1) k =
      slotsAt (b.stateBounds.inForce points k) b.stateNames k ++
        (slotsAt (b.controlBounds.inForce points k) b.controlNames k ++
          if ks.contains k then slotsAt b.multiplierBounds b.multiplierNames k else []) := by
  rw [pointSlots, BoundsSet.boundsAt_eq _ hk, BoundsSet.boundsAt_eq _ hk, hb.constrained,
    List.append_assoc]

theorem Sized.length_states (k : Nat) :
    (slotsAt (b.stateBounds.inForce points k) b.stateNames k).length = d.states :=
  length_slotsAt (hb.fits.states.inForce points k) hb.fits.stateNames k

theorem Sized.length_controls (k : Nat) :
    (slotsAt (b.controlBounds.inForce points k) b.controlNames k).length = d.controls :=
  length_slotsAt (hb.fits.controls.inForce points k) hb.fits.controlNames k

theorem Sized.length_multipliers (k : Nat) :
    (slotsAt b.multiplierBounds b.multiplierNames k).length = d.multipliers :=
  length_slotsAt hb.fits.multipliers hb.fits.multiplierNames k

theorem length_pointSlots {k : Nat} (hk : k < points) :
    (b.pointSlots (points - 1) k).length = width d ks k := by
  rw [pointSlots_eq hb hk, List.length_append, List.length_append, hb.length_states,
    hb.length_controls, width, Nat.add_assoc]
  by_cases h : ks.contains k = true
  · rw [if_pos h, if_pos h, hb.length_multipliers]
  · rw [if_neg h, if_neg h, List.length_nil]

omit [Scalar α] in
theorem Sized.length_parameters :
    (b.parameterBounds.zipWith (fun bound n => (⟨n, bound⟩ : Slot α)) b.parameterNames).length =
      d.parameters := by
  have hp : b.parameterBounds.length = d.parameters := hb.fits.parameters
  have hn : b.parameterNames.length = d.parameters := hb.fits.parameterNames
  rw [List.length_zipWith, hp, hn, Nat.min_self]

omit [Scalar α] in
theorem length_globalSlots : b.globalSlots.length = 2 + d.parameters := by
  rw [globalSlots, List.length_cons, List.length_cons, hb.length_parameters]
  omega

theorem length_slots (hin : ∀ k ∈ ks, k < points) (hd : ks.Nodup) :
    ((b.blocks points).flatten ++ b.globalSlots).length =
      points * (d.states + d.controls) + ks.length * d.multipliers + 2 + d.parameters := by
  have hsum : (b.blocks points).flatten.length = ((List.range points).map (width d ks)).sum := by
    rw [List.length_flatten, blocks, List.map_map]
    congr 1
    exact List.map_congr_left fun k hk => length_pointSlots hb (List.mem_range.mp hk)
  rw [List.length_append, hsum, sum_width, countP_contains hin hd, length_globalSlots hb]
  omega

/-- The check of the size passes in a builder with distinct constrained points on the mesh. -/
theorem build_eq (hin : ∀ k ∈ ks, k < points) (hd : ks.Nodup) :
    b.build = .ok (b.layout points d ks) := by
  have hcount (n : Nat) : count (.int n : Value α) = n := rfl
  have hpoints : (pointCount b.points : Outcome α Int) = .ok points := by
    rw [hb.points]
    rfl
  have hlast : ((points : Int) - 1).toNat = points - 1 := by omega
  have hsize : (((b.blocks points).flatten ++ b.globalSlots).length : Int) =
      b.expectedSize points := by
    rw [length_slots hb hin hd, expectedSize, hb.states, hb.controls, hb.multipliers,
      hb.parameters, hb.constrained]
    simp only [hcount]
    push_cast
    ring
  rw [build, hpoints]
  simp only [bind, Except.bind, Int.toNat_natCast, hlast]
  rw [← blocks, if_neg (not_not.mpr hsize)]
  rw [hb.states, hb.controls, hb.multipliers, hb.parameters, hb.constrained]
  rfl

end Sized

end LayoutBuilder

/-- A layout in which every variable has its place: the points follow each other, behind them stand
the times and the parameters, and at each place are the bounds and names of an arrangement. -/
structure Layout.Arranged [Scalar α] (l : Layout α) (n : Nat) (d : Dimensions) (ks : List Nat)
    (a : Arrangement α) : Prop where
  points : l.points = n
  sizes : l.sizes = d
  constrained : l.constrained = ks
  starts : ∀ k < n, l.offsets[k]? = some (l.startOf k)
  size : l.size = n * (d.states + d.controls) + ks.length * d.multipliers + 2 + d.parameters
  tiles : Tiles 0 l.places l.size
  fits : a.Fits d
  states : ∀ k < n, (l.statePlace k).of l.slots =
    LayoutBuilder.slotsAt (a.states.inForce n k) a.stateNames k
  controls : ∀ k < n, (l.controlPlace k).of l.slots =
    LayoutBuilder.slotsAt (a.controls.inForce n k) a.controlNames k
  multipliers : ∀ k < n, k ∈ ks → (l.multiplierPlace k).of l.slots =
    LayoutBuilder.slotsAt a.multipliers a.multiplierNames k
  initialTime : l.initialPlace.of l.slots = [⟨.text "t0", a.times.1⟩]
  finalTime : l.finalPlace.of l.slots = [⟨.text "tf", a.times.2⟩]
  parameters : l.parameterRange.of l.slots =
    a.parameters.zipWith (fun bound n => ⟨n, bound⟩) a.parameterNames

namespace Layout.Arranged

variable [Scalar α] {l : Layout α} {n : Nat} {d : Dimensions} {ks : List Nat} {a : Arrangement α}
  {w : List α} {k : Nat}

theorem of_single {i : Nat} (hi : i < w.length) :
    (⟨i, i + 1⟩ : Range).of w = [entry w i] := by
  rw [Range.of, Nat.add_sub_cancel_left, List.drop_eq_getElem_cons hi, entry,
    List.getElem?_eq_getElem hi]
  rfl

theorem length_parameters (h : l.Arranged n d ks a) (hw : w.length = l.size) :
    (l.parameterRange.of w).length = d.parameters := by
  have hstop := h.tiles.stop_le l.parameterRange (by simp [places, globalPlaces])
  rw [Range.length_of (hw ▸ hstop), parameterRange, h.sizes, Nat.add_sub_cancel_left]

section

variable (h : l.Arranged n d ks a) (hk : k < n)
include h hk

theorem pointPlaces_mem {r : Range} (hr : r ∈ l.pointPlaces k) : r ∈ l.places :=
  List.mem_append_left _ (List.mem_flatMap_of_mem (List.mem_range.mpr (h.points.symm ▸ hk)) hr)

theorem statePlace_mem : l.statePlace k ∈ l.places :=
  h.pointPlaces_mem hk (by simp [pointPlaces])

theorem controlPlace_mem : l.controlPlace k ∈ l.places :=
  h.pointPlaces_mem hk (by simp [pointPlaces])

theorem multiplierPlace_mem (hmem : k ∈ ks) : l.multiplierPlace k ∈ l.places := by
  refine h.pointPlaces_mem hk ?_
  rw [pointPlaces, h.constrained, if_pos (List.contains_iff_mem.mpr hmem)]
  simp

variable (hw : w.length = l.size)
include hw

theorem length_stateAt : (l.stateAt w k).length = d.states := by
  have hstop := h.tiles.stop_le _ (h.statePlace_mem hk)
  rw [← l.statePlace_of, Range.length_of (hw ▸ hstop), statePlace, h.sizes,
    Nat.add_sub_cancel_left]

theorem length_controlAt : (l.controlAt w k).length = d.controls := by
  have hstop := h.tiles.stop_le _ (h.controlPlace_mem hk)
  rw [← l.controlPlace_of, Range.length_of (hw ▸ hstop), controlPlace, h.sizes,
    Nat.add_sub_cancel_left]

theorem length_multiplierAt (hmem : k ∈ ks) : (l.multiplierAt w k).length = d.multipliers := by
  have hstop := h.tiles.stop_le _ (h.multiplierPlace_mem hk hmem)
  rw [← l.multiplierPlace_of, Range.length_of (hw ▸ hstop), multiplierPlace, h.sizes,
    Nat.add_sub_cancel_left]

end

/-- The times of a vector stand at the places of the times. -/
theorem times_of (h : l.Arranged n d ks a) (hw : w.length = l.size) :
    l.initialPlace.of w = [entry w l.initialTimeIndex] ∧
      l.finalPlace.of w = [entry w l.finalTimeIndex] := by
  have hstop := h.tiles.stop_le l.finalPlace (by simp [places, globalPlaces])
  have hlt : l.initialTimeIndex + 1 < w.length := by rw [hw]; exact hstop
  exact ⟨of_single (by omega), of_single hlt⟩

theorem time_bounds (h : l.Arranged n d ks a) :
    l.initialPlace.of (l.slots.map (·.bounds)) = [a.times.1] ∧
      l.finalPlace.of (l.slots.map (·.bounds)) = [a.times.2] := by
  rw [Range.of_map, Range.of_map, h.initialTime, h.finalTime]
  exact ⟨rfl, rfl⟩

theorem state_bounds (h : l.Arranged n d ks a) (hk : k < n) :
    (l.statePlace k).of (l.slots.map (·.bounds)) = a.states.inForce n k := by
  have hlength := (h.fits.states.inForce n k).trans h.fits.stateNames.symm
  rw [Range.of_map, h.states k hk, LayoutBuilder.slotsAt, map_bounds_zipWith hlength]

theorem control_bounds (h : l.Arranged n d ks a) (hk : k < n) :
    (l.controlPlace k).of (l.slots.map (·.bounds)) = a.controls.inForce n k := by
  have hlength := (h.fits.controls.inForce n k).trans h.fits.controlNames.symm
  rw [Range.of_map, h.controls k hk, LayoutBuilder.slotsAt, map_bounds_zipWith hlength]

theorem multiplier_bounds (h : l.Arranged n d ks a) (hk : k < n) (hmem : k ∈ ks) :
    (l.multiplierPlace k).of (l.slots.map (·.bounds)) = a.multipliers := by
  have hlength := h.fits.multipliers.trans h.fits.multiplierNames.symm
  rw [Range.of_map, h.multipliers k hk hmem, LayoutBuilder.slotsAt, map_bounds_zipWith hlength]

theorem parameter_bounds (h : l.Arranged n d ks a) :
    l.parameterRange.of (l.slots.map (·.bounds)) = a.parameters := by
  have hlength := h.fits.parameters.trans h.fits.parameterNames.symm
  rw [Range.of_map, h.parameters]
  exact map_bounds_zipWith hlength

/-- All places are those of the points, of the times and of the parameters. -/
theorem forall_places (h : l.Arranged n d ks a) {P : Range → Prop} : (∀ r ∈ l.places, P r) ↔
      (∀ k < n, P (l.statePlace k)) ∧ (∀ k < n, P (l.controlPlace k)) ∧
      (∀ k < n, k ∈ ks → P (l.multiplierPlace k)) ∧
      P l.initialPlace ∧ P l.finalPlace ∧ P l.parameterRange := by
  constructor
  · intro hall
    refine ⟨fun k hk => hall _ (h.statePlace_mem hk), fun k hk => hall _ (h.controlPlace_mem hk),
      fun k hk hmem => hall _ (h.multiplierPlace_mem hk hmem), ?_⟩
    simp only [places, globalPlaces, List.mem_append] at hall
    exact ⟨hall _ (by simp), hall _ (by simp), hall _ (by simp)⟩
  · rintro ⟨hx, hu, hm, h0, h1, hp⟩ r hr
    rcases List.mem_append.mp hr with hr | hr
    · obtain ⟨k, hk, hr⟩ := List.mem_flatMap.mp hr
      rw [List.mem_range, h.points] at hk
      simp only [pointPlaces, List.mem_cons] at hr
      rcases hr with rfl | rfl | hr
      · exact hx k hk
      · exact hu k hk
      · split_ifs at hr with hmem
        · obtain rfl := List.mem_singleton.mp hr
          rw [h.constrained, List.contains_iff_mem] at hmem
          exact hm k hk hmem
        · cases hr
    · simp only [globalPlaces, List.mem_cons, List.not_mem_nil, or_false] at hr
      rcases hr with rfl | rfl | rfl
      · exact h0
      · exact h1
      · exact hp

end Layout.Arranged

namespace LayoutBuilder

variable [Scalar α] {b : LayoutBuilder α} {points : Nat} {d : Dimensions} {ks : List Nat}

section Sized

variable (hb : b.Sized points d ks)
include hb

theorem startOf_succ {k : Nat} (hk : k < points) :
    (b.layout points d ks).startOf (k + 1) =
      (b.layout points d ks).startOf k + width d ks k := by
  rw [startOf_eq hk, startOf_eq (Nat.le_of_lt hk), List.take_add_one, getElem?_blocks hk,
    List.flatten_append, List.length_append, Option.toList_some, List.flatten_singleton,
    length_pointSlots hb hk]

/-- The places of one point follow each other up to the next point. -/
theorem tiles_point {k : Nat} (hk : k < points) :
    Tiles ((b.layout points d ks).startOf k) ((b.layout points d ks).pointPlaces k)
      ((b.layout points d ks).startOf (k + 1)) := by
  rw [startOf_succ hb hk, Layout.pointPlaces, Layout.statePlace, Layout.controlPlace, width]
  refine .cons (Nat.le_add_right _ _) (.cons (Nat.le_add_right _ _) ?_)
  by_cases h : ks.contains k = true
  · rw [if_pos h, layout, if_pos h, ← Nat.add_assoc, ← Nat.add_assoc]
    exact .cons (Nat.le_add_right _ _) (.nil _)
  · rw [if_neg h, layout, if_neg h, Nat.add_zero, ← Nat.add_assoc]
    exact .nil _

/-- All places follow each other from the first entry to the last. -/
theorem tiles_layout : Tiles 0 (b.layout points d ks).places (b.layout points d ks).size := by
  have hpoints : Tiles 0 ((List.range points).flatMap (b.layout points d ks).pointPlaces)
      ((b.layout points d ks).startOf points) := by
    have hfirst : (b.layout points d ks).startOf 0 = 0 := startOf_eq (Nat.zero_le _)
    have := Tiles.flatMap_range (f := (b.layout points d ks).startOf) fun k hk => tiles_point hb hk
    rwa [hfirst] at this
  have hend : (b.layout points d ks).initialTimeIndex = (b.layout points d ks).startOf points := by
    rw [initialTimeIndex_eq, startOf_eq (Nat.le_refl _),
      List.take_of_length_le (length_blocks b points).le]
  have hsize : (b.layout points d ks).size =
      (b.layout points d ks).initialTimeIndex + 2 + d.parameters := by
    rw [Layout.size, initialTimeIndex_eq, layout, List.length_append, length_globalSlots hb,
      Nat.add_assoc]
  refine hpoints.append ?_
  rw [hsize, ← hend]
  exact .cons (Nat.le_add_right _ _)
    (.cons (Nat.le_add_right _ _) (.cons (Nat.le_add_right _ _) (.nil _)))

/-- The variables of point `k`, and what stands before and behind them. -/
theorem slots_split {k : Nat} (hk : k < points) : ∃ before after,
    (b.layout points d ks).startOf k = before.length ∧
    (b.layout points d ks).slots = before ++
      (slotsAt (b.stateBounds.inForce points k) b.stateNames k ++
        (slotsAt (b.controlBounds.inForce points k) b.controlNames k ++
          ((if ks.contains k then slotsAt b.multiplierBounds b.multiplierNames k else []) ++
            after))) := by
  refine ⟨((b.blocks points).take k).flatten,
    ((b.blocks points).drop (k + 1)).flatten ++ b.globalSlots, startOf_eq (Nat.le_of_lt hk), ?_⟩
  rw [layout, blocks_split hk, pointSlots_eq hb hk]
  simp only [List.append_assoc]

/-- The size check of a builder with distinct constrained points on the mesh passes, and the layout
has every variable in its place. -/
theorem build_arranged (hin : ∀ k ∈ ks, k < points) (hd : ks.Nodup) :
    ∃ l, b.build = .ok l ∧ l.Arranged points d ks b.arrangement := by
  refine ⟨_, build_eq hb hin hd, rfl, rfl, rfl, ?starts, length_slots hb hin hd, tiles_layout hb,
    hb.fits, ?states, ?controls, ?multipliers, ?initialTime, ?finalTime, ?parameters⟩
  case starts =>
    intro k hk
    rw [getElem?_offsets (Nat.le_of_lt hk), startOf_eq (Nat.le_of_lt hk)]
  case states =>
    intro k hk
    obtain ⟨before, after, hstart, hslots⟩ := slots_split (d := d) hb hk
    rw [hslots]
    exact Range.of_append hstart (by rw [hb.length_states]; rfl)
  case controls =>
    intro k hk
    obtain ⟨before, after, hstart, hslots⟩ := slots_split (d := d) hb hk
    rw [hslots, ← List.append_assoc]
    exact Range.of_append (by rw [List.length_append, hb.length_states, ← hstart]; rfl)
      (by rw [hb.length_controls]; rfl)
  case multipliers =>
    intro k hk hmem
    obtain ⟨before, after, hstart, hslots⟩ := slots_split (d := d) hb hk
    rw [hslots, if_pos (List.contains_iff_mem.mpr hmem), ← List.append_assoc, ← List.append_assoc]
    exact Range.of_append
      (by rw [List.length_append, List.length_append, hb.length_states, hb.length_controls,
            ← hstart]; rfl)
      (by rw [hb.length_multipliers]; rfl)
  case initialTime =>
    rw [slots_globals]
    exact Range.of_append (initialTimeIndex_eq b points d ks) rfl
  case finalTime =>
    rw [slots_globals, ← List.append_assoc]
    exact Range.of_append
      (by rw [List.length_append, ← initialTimeIndex_eq b points d ks]; rfl) rfl
  case parameters =>
    rw [slots_globals, ← List.append_assoc, ← List.append_assoc]
    exact Range.of_append
      (by rw [List.length_append, List.length_append, ← initialTimeIndex_eq b points d ks]; rfl)
      (by rw [hb.length_parameters]; rfl)

end Sized

end LayoutBuilder

end Collocation
