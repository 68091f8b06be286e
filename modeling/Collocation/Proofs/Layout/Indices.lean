import Collocation.Proofs.Layout.Produced

/-! Indices of the points of a layout.  The offsets have one entry more than there are points, for
the place behind all points where the times start, and indices choose among all of them.  So the
number of points is an index as well, and negative indices count from the place behind the points
and not from the last point.  The multipliers are found by the numbers of the points alone. -/

namespace Collocation

variable {α : Type} [Scalar α]

/-- What an index leads to: a point, the place behind all points, or nothing. -/
inductive Landing where
  | point (j : Nat)
  | behind
  | nowhere
  deriving DecidableEq

/-- Where an index leads to in a layout of `n` points. -/
def Landing.of (n : Nat) (k : Int) : Landing :=
  if 0 ≤ k ∧ k < n then .point k.toNat
  else if k = n ∨ k = -1 then .behind
  else if -(n + 1) ≤ k ∧ k < -1 then .point (k + (n + 1)).toNat
  else .nowhere

namespace Landing

variable {n j : Nat} {k : Int}

/-- The points are found by their numbers, and by negative numbers of which that of the last point
is minus two. -/
theorem of_eq_point_iff : of n k = .point j ↔ j < n ∧ (k = j ∨ k = j - (n + 1)) := by
  unfold of
  split_ifs with hfront hbehind hback
  · simp only [point.injEq]
    omega
  · simp only [false_iff]
    omega
  · simp only [point.injEq]
    omega
  · simp only [false_iff]
    omega

theorem of_eq_behind_iff : of n k = .behind ↔ k = n ∨ k = -1 := by
  unfold of
  split_ifs with hfront hbehind hback
  · simp only [false_iff]
    omega
  · exact iff_of_true rfl hbehind
  · exact iff_of_false nofun hbehind
  · exact iff_of_false nofun hbehind

theorem of_eq_nowhere_iff : of n k = .nowhere ↔ k < -(n + 1) ∨ n < k := by
  unfold of
  split_ifs with hfront hbehind hback
  all_goals simp only [false_iff, true_iff]; omega

end Landing

namespace Layout

/-- What is found at an index: the states and controls of a point, as many positions behind all
points, or nothing. -/
def FindsAt (l : Layout α) (k : Int) : Landing → Prop
  | .point j =>
    l.stateRange (.int k) = .ok (l.statePlace j) ∧ l.controlRange (.int k) = .ok (l.controlPlace j)
  | .behind =>
    l.stateRange (.int k) = .ok ⟨l.initialTimeIndex, l.initialTimeIndex + l.sizes.states⟩ ∧
    l.controlRange (.int k) = .ok ⟨l.initialTimeIndex + l.sizes.states,
      l.initialTimeIndex + l.sizes.states + l.sizes.controls⟩
  | .nowhere => Raises (l.stateRange (.int k)) .index ∧ Raises (l.controlRange (.int k)) .index

omit [Scalar α] in
/-- The ranges that are found by an offset. -/
theorem ranges_of_offset {l : Layout α} {k : Int} {start : Nat}
    (h : l.offset (.int k) = .ok start) :
    l.stateRange (.int k) = .ok ⟨start, start + l.sizes.states⟩ ∧
    l.controlRange (.int k) = .ok ⟨start + l.sizes.states,
      start + l.sizes.states + l.sizes.controls⟩ := by
  rw [stateRange, controlRange, h]
  exact ⟨rfl, rfl⟩

omit [Scalar α] in
/-- The offset at an index, where `place` is the index counted from the front. -/
theorem offset_int {l : Layout α} {k : Int} {place : Nat}
    (hplace : (if k < 0 then k + l.offsets.length else k) = place)
    (hin : place < l.offsets.length) : l.offset (.int k) = .ok (l.startOf place) := by
  have hnot : ¬ (place : Int) < 0 := by omega
  simp only [offset, Value.whole?, hplace, if_neg hnot, Int.toNat_natCast, startOf,
    List.getElem?_eq_getElem hin, Option.getD_some]

theorem offset_raises {l : Layout α} {k : Int}
    (h : k < -l.offsets.length ∨ l.offsets.length ≤ k) : Raises (l.offset (.int k)) .index := by
  have hnone : (if (if k < 0 then k + l.offsets.length else k) < 0 then none
      else l.offsets[(if k < 0 then k + l.offsets.length else k).toNat]?) = none := by
    split_ifs with hneg
    · rfl
    · omega
    · exact List.getElem?_eq_none (by omega)
  simp only [offset, Value.whole?, hnone]
  split_ifs <;> exact ⟨_, rfl, rfl⟩

section Offsets

variable {l : Layout α} (hoffsets : l.offsets.length = l.points + 1)
include hoffsets

omit [Scalar α] in
/-- The times start behind the last point. -/
theorem initialTimeIndex_eq_startOf : l.initialTimeIndex = l.startOf l.points := by
  rw [initialTimeIndex, startOf, List.getLast?_eq_getElem?, hoffsets, Nat.add_sub_cancel]

theorem findsAt_landing (k : Int) : l.FindsAt k (.of l.points k) := by
  rcases hk : Landing.of l.points k with j | _ | _
  · obtain ⟨hj, hk⟩ := Landing.of_eq_point_iff.mp hk
    exact ranges_of_offset (offset_int (by split_ifs <;> omega) (by omega))
  · have hk := Landing.of_eq_behind_iff.mp hk
    rw [FindsAt, initialTimeIndex_eq_startOf hoffsets]
    exact ranges_of_offset (offset_int (by split_ifs <;> omega) (by omega))
  · have hk := Landing.of_eq_nowhere_iff.mp hk
    have hraises : Raises (l.offset (.int k)) .index := offset_raises (by omega)
    exact ⟨hraises.bind, hraises.bind⟩

end Offsets

/-- The multipliers are found by the numbers of the points that have some, and by nothing else. -/
theorem multiplierRange_int {l : Layout α} (hoffsets : l.offsets.length = l.points + 1)
    (hin : ∀ c ∈ l.constrained, c < l.points) (k : Int) : l.multiplierRange (.int k) =
      .ok (if 0 ≤ k ∧ k.toNat ∈ l.constrained then some (l.multiplierPlace k.toNat) else none) := by
  have hany : (l.constrained.any fun (c : Nat) => (Value.int k : Value α).equalsInt c) = true ↔
      0 ≤ k ∧ k.toNat ∈ l.constrained := by
    simp only [List.any_eq_true, Value.equalsInt_int]
    constructor
    · rintro ⟨c, hc, rfl⟩
      exact ⟨by omega, hc⟩
    · rintro ⟨hk, hmem⟩
      exact ⟨_, hmem, by omega⟩
  rw [multiplierRange]
  by_cases h : 0 ≤ k ∧ k.toNat ∈ l.constrained
  · have hlt := hin _ h.2
    have hoffset : l.offset (.int k) = .ok (l.startOf k.toNat) :=
      offset_int (by split_ifs <;> omega) (by omega)
    rw [if_pos (hany.mpr h), if_pos h, hoffset]
    rfl
  · rw [if_neg (mt hany.mp h), if_neg h]
    rfl

/-- What all integers find in a layout, of which the places of the points stand before the times. -/
structure Indexed (l : Layout α) : Prop where
  found : ∀ k : Int, l.FindsAt k (.of l.points k)
  multipliers : ∀ k : Int, l.multiplierRange (.int k) =
    .ok (if 0 ≤ k ∧ k.toNat ∈ l.constrained then some (l.multiplierPlace k.toNat) else none)
  before : ∀ j < l.points, ∀ r ∈ l.pointPlaces j, r.stop ≤ l.initialTimeIndex

end Layout

namespace LayoutBuilder

variable {b : LayoutBuilder α} {l : Layout α} {points : Nat} {d : Dimensions} {indices : Value α}

/-- The offsets are one more than the points. -/
theorem length_offsets (h : b.build = .ok l) : l.offsets.length = l.points + 1 := by
  simp only [build, Except.bind_eq_ok] at h
  obtain ⟨n, -, h⟩ := h
  split_ifs at h
  · cases h
  · obtain rfl := Except.ok.inj h
    simp only [length_offsetsOf, List.length_map, List.length_range]

/-- After any calls the layout is found as the numbers of its points say, and by negative numbers
that are one off. -/
theorem build_indexed (h : ofRequest (.ofSizes points d indices) = .ok b)
    (calls : List (Setter α)) : ∃ l, (Edit.afterAll Setter.run calls b).build = .ok l ∧
      l.points = points ∧ l.sizes = d ∧ l.Indexed := by
  obtain ⟨asked, l, -, hbuild, hks, harranged⟩ := build_afterAll h calls
  have hoffsets := length_offsets hbuild
  have hin : ∀ c ∈ l.constrained, c < l.points := fun c hc => harranged.points ▸ hks.inside c hc
  refine ⟨l, hbuild, harranged.points, harranged.sizes, Layout.findsAt_landing hoffsets,
    Layout.multiplierRange_int hoffsets hin, fun j hj r hr => ?_⟩
  have hpairs := harranged.tiles.pairwise.2
  rw [Layout.places, List.pairwise_append] at hpairs
  exact hpairs.2.2 r (List.mem_flatMap_of_mem (List.mem_range.mpr hj) hr) l.initialPlace
    List.mem_cons_self

/-- A state and a control at each of two points, of which the last has a multiplier. -/
theorem build_indexed_two : ∃ b : LayoutBuilder Extended,
    ofRequest (.ofSizes 2 ⟨1, 1, 1, 0⟩ (.list [.int 1])) = .ok b ∧
    ∃ l, b.build = .ok l ∧ l.points = 2 ∧ l.sizes = ⟨1, 1, 1, 0⟩ ∧ l.Indexed := by
  obtain ⟨b, hb⟩ : ∃ b : LayoutBuilder Extended,
      ofRequest (.ofSizes 2 ⟨1, 1, 1, 0⟩ (.list [.int 1])) = .ok b := ⟨_, rfl⟩
  exact ⟨b, hb, build_indexed hb []⟩

end LayoutBuilder

/-- An integer finds nothing, or one point that it counts from the first point or from the end of
the points, with the multipliers of the same point. -/
def Layout.Confined (l : Layout α) (k : Int) : Prop :=
  Raises (l.stateRange (.int k)) .index ∧ Raises (l.controlRange (.int k)) .index ∨
  ∃ j < l.points, (k = j ∨ k = j - l.points) ∧
    l.stateRange (.int k) = .ok (l.statePlace j) ∧
    l.controlRange (.int k) = .ok (l.controlPlace j) ∧
    l.multiplierRange (.int k) =
      .ok (if j ∈ l.constrained then some (l.multiplierPlace j) else none)

/-- With two points the state at two and at minus one is the initial time, the control there is the
final time, and minus two finds the last point and not the first. -/
theorem LayoutBuilder.indices_not_confined : ∃ b : LayoutBuilder Extended, ∃ l,
    ofRequest (.ofSizes 2 ⟨1, 1, 0, 0⟩ (.tuple [])) = .ok b ∧ b.build = .ok l ∧
    (∀ k ∈ [2, -1], l.stateRange (.int k) = .ok l.initialPlace ∧
      l.controlRange (.int k) = .ok l.finalPlace) ∧
    l.stateRange (.int (-2)) = .ok (l.statePlace 1) ∧
    ∀ k ∈ [2, -1, -2], ¬ l.Confined k := by
  refine ⟨_, _, rfl, rfl, ?outside, rfl, ?confined⟩
  case outside =>
    simp only [List.mem_cons, List.not_mem_nil, or_false, forall_eq_or_imp, forall_eq]
    exact ⟨⟨rfl, rfl⟩, rfl, rfl⟩
  case confined =>
    simp only [List.mem_cons, List.not_mem_nil, or_false]
    rintro k hk (⟨⟨_, h, -⟩, -⟩ | ⟨j, hj, hkj, hstate, -⟩)
    · rcases hk with rfl | rfl | rfl <;> cases h
    -- The point meant is the last one for minus one, the first one for minus two.
    · replace hj : j < 2 := hj
      replace hkj : k = j ∨ k = j - 2 := hkj
      have hstart := congrArg (fun found => found.toOption.map Range.start) hstate
      obtain ⟨rfl, rfl⟩ | ⟨rfl, rfl⟩ : k = -1 ∧ j = 1 ∨ k = -2 ∧ j = 0 := by omega
      · exact absurd hstart (by decide +kernel)
      · exact absurd hstart (by decide +kernel)

end Collocation
