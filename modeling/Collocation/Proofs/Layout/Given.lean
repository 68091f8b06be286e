import Collocation.Proofs.Bounds
import Collocation.Proofs.Layout.Building

/-! Bounds that are given.  A builder holds no bounds but those that calls gave and the free ones
that it began with, and its layout has no others. -/

namespace Collocation

variable {α : Type} [Scalar α]

omit [Scalar α] in
def BoundsSet.bounds (s : BoundsSet α) : List (Bounds α) :=
  s.path ++ s.initial.getD [] ++ s.final.getD []

namespace LayoutBuilder

omit [Scalar α] in
/-- All bounds that a builder holds. -/
def bounds (b : LayoutBuilder α) : List (Bounds α) :=
  b.stateBounds.bounds ++ b.controlBounds.bounds ++ b.multiplierBounds ++ b.parameterBounds ++
    [b.initialTime, b.finalTime]

omit [Scalar α] in
/-- The bounds that a call gives. -/
def Setter.bounds : Setter α → List (Bounds α)
  | .states path initial final => path ++ initial.getD [] ++ final.getD []
  | .controls path initial final => path ++ initial.getD [] ++ final.getD []
  | .multipliers bounds => bounds
  | .parameters bounds => bounds
  | .times initial final => [initial, final]
  | .names .. => []

variable {b : LayoutBuilder α} {P : Bounds α → Prop}

theorem setNamesOf_keeps_bounds {sort : String} {size : LayoutBuilder α → Value α}
    {put : List (Value α) → LayoutBuilder α → LayoutBuilder α}
    (hput : ∀ ns b, (put ns b).bounds = b.bounds) (names : Value α) :
    (setNamesOf sort size put names).Keeps fun b => ∀ x ∈ b.bounds, P x := by
  unfold setNamesOf
  split
  · exact Edit.keeps_pure _
  · refine Edit.keeps_store fun _ ns b' _ _ hb' => ?_
    rwa [hput]

/-- What holds of the bounds in a builder and of those that a call gives holds after the call. -/
theorem Setter.run_keeps_bounds (c : Setter α) (hc : ∀ x ∈ c.bounds, P x) :
    c.run.Keeps fun b => ∀ x ∈ b.bounds, P x := by
  cases c with
  | states path initial final =>
    refine Edit.keeps_store fun _ bs b' _ hbs hb' => ?_
    obtain rfl := eq_of_boundsSet hbs
    simp only [LayoutBuilder.bounds, List.forall_mem_append] at hb' ⊢
    exact ⟨⟨⟨⟨hc, hb'.1.1.1.2⟩, hb'.1.1.2⟩, hb'.1.2⟩, hb'.2⟩
  | controls path initial final =>
    refine Edit.keeps_store fun _ bs b' _ hbs hb' => ?_
    obtain rfl := eq_of_boundsSet hbs
    simp only [LayoutBuilder.bounds, List.forall_mem_append] at hb' ⊢
    exact ⟨⟨⟨⟨hb'.1.1.1.1, hc⟩, hb'.1.1.2⟩, hb'.1.2⟩, hb'.2⟩
  | multipliers bounds =>
    refine Edit.keeps_store fun _ _ b' _ _ hb' => ?_
    simp only [LayoutBuilder.bounds, List.forall_mem_append] at hb' ⊢
    exact ⟨⟨⟨hb'.1.1.1, hc⟩, hb'.1.2⟩, hb'.2⟩
  | parameters bounds =>
    refine Edit.keeps_store fun _ _ b' _ _ hb' => ?_
    simp only [LayoutBuilder.bounds, List.forall_mem_append] at hb' ⊢
    exact ⟨⟨hb'.1.1, hc⟩, hb'.2⟩
  | times initial final =>
    refine Edit.keeps_modify fun b hb => ?_
    simp only [LayoutBuilder.bounds, List.forall_mem_append] at hb ⊢
    exact ⟨hb.1, hc⟩
  | names xs us ms ps =>
    refine Edit.keeps_bind (setNamesOf_keeps_bounds ?xs xs) fun _ _ _ _ _ => ?_
    case xs => exact fun _ _ => rfl
    refine Edit.keeps_bind (setNamesOf_keeps_bounds ?us us) fun _ _ _ _ _ => ?_
    case us => exact fun _ _ => rfl
    refine Edit.keeps_bind (setNamesOf_keeps_bounds ?ms ms) fun _ _ _ _ _ => ?_
    case ms => exact fun _ _ => rfl
    refine setNamesOf_keeps_bounds ?_ ps
    exact fun _ _ => rfl

/-- A new builder has free bounds only. -/
theorem ofRequest_bounds {r : LayoutRequest α} (h : ofRequest r = .ok b) (hfree : P .free) :
    ∀ x ∈ b.bounds, P x := by
  simp only [ofRequest, Except.bind_eq_ok, Except.pure_eq_ok] at h
  obtain ⟨_, _, _, _, _, _, _, _, _, _, rfl⟩ := h
  have hall (n : Int) : ∀ x ∈ (freeBounds n : List (Bounds α)), P x := by
    intro x hx
    rwa [List.eq_of_mem_replicate hx]
  simp only [bounds, BoundsSet.bounds, Option.getD_none, List.append_nil, List.forall_mem_append]
  exact ⟨⟨⟨⟨hall _, hall _⟩, hall _⟩, hall _⟩, by simpa using hfree⟩

/-- After any calls, of which some may have failed. -/
theorem bounds_afterAll {r : LayoutRequest α} {calls : List (Setter α)}
    (hb : ofRequest r = .ok b) (hfree : P .free) (hcalls : ∀ c ∈ calls, ∀ x ∈ c.bounds, P x) :
    ∀ x ∈ (Edit.afterAll Setter.run calls b).bounds, P x :=
  Edit.afterAll_keeps (I := fun b : LayoutBuilder α => ∀ x ∈ b.bounds, P x)
    (fun c hc => Setter.run_keeps_bounds c (hcalls c hc)) (ofRequest_bounds hb hfree)

omit [Scalar α] in
theorem boundsAt_subset (s : BoundsSet α) (k last : Nat) : s.boundsAt k last ⊆ s.bounds := by
  obtain ⟨path, initial, final⟩ := s
  have hfinal : final.getD path ⊆ path ++ initial.getD [] ++ final.getD [] := by
    cases final <;> simp
  cases initial with
  | none =>
    unfold BoundsSet.boundsAt
    dsimp only
    split_ifs
    · exact hfinal
    · simp [BoundsSet.bounds]
  | some first =>
    unfold BoundsSet.boundsAt
    dsimp only
    split_ifs
    · simp [BoundsSet.bounds]
    · exact hfinal
    · simp [BoundsSet.bounds]

theorem mem_slotsAt {bounds : List (Bounds α)} {names : List (Value α)} {k : Nat} {s : Slot α}
    (h : s ∈ slotsAt bounds names k) : s.bounds ∈ bounds := by
  rw [slotsAt, ← List.map_uncurry_zip_eq_zipWith] at h
  obtain ⟨⟨x, n⟩, hmem, rfl⟩ := List.mem_map.mp h
  exact (List.of_mem_zip hmem).1

theorem pointSlots_bounds {last k : Nat} {s : Slot α} (h : s ∈ b.pointSlots last k) :
    s.bounds ∈ b.bounds := by
  simp only [pointSlots, List.mem_append] at h
  simp only [bounds, List.mem_append]
  rcases h with (h | h) | h
  · exact .inl (.inl (.inl (.inl (boundsAt_subset _ _ _ (mem_slotsAt h)))))
  · exact .inl (.inl (.inl (.inr (boundsAt_subset _ _ _ (mem_slotsAt h)))))
  · split_ifs at h
    · exact .inl (.inl (.inr (mem_slotsAt h)))
    · cases h

omit [Scalar α] in
theorem globalSlots_bounds {s : Slot α} (h : s ∈ b.globalSlots) : s.bounds ∈ b.bounds := by
  simp only [bounds, List.mem_append]
  rcases List.mem_cons.mp h with rfl | h
  · exact .inr (by simp)
  rcases List.mem_cons.mp h with rfl | h
  · exact .inr (by simp)
  · rw [← List.map_uncurry_zip_eq_zipWith] at h
    obtain ⟨⟨x, n⟩, hmem, rfl⟩ := List.mem_map.mp h
    exact .inl (.inr (List.of_mem_zip hmem).1)

/-- Whatever the sizes are, the variables of the points come first and the times behind them. -/
theorem build_parts {l : Layout α} (h : b.build = .ok l) : ∃ blocks,
    l.slots = blocks ++ b.globalSlots ∧ l.initialTimeIndex = blocks.length ∧
      ∀ s ∈ blocks, s.bounds ∈ b.bounds := by
  simp only [build, Except.bind_eq_ok, Except.if_throw_eq_ok, Except.pure_eq_ok] at h
  obtain ⟨points, _, _, rfl⟩ := h
  refine ⟨_, rfl, ?_, fun s hs => ?_⟩
  · rw [Layout.initialTimeIndex, getLast?_offsetsOf, Option.getD_some, Nat.zero_add]
  · obtain ⟨block, hblock, hs⟩ := List.mem_flatten.mp hs
    obtain ⟨k, -, rfl⟩ := List.mem_map.mp hblock
    exact pointSlots_bounds hs

/-- Every variable of a layout has bounds from its builder. -/
theorem build_bounds {l : Layout α} (h : b.build = .ok l) : ∀ s ∈ l.slots, s.bounds ∈ b.bounds := by
  obtain ⟨blocks, hslots, -, hblocks⟩ := build_parts h
  intro s hs
  rw [hslots] at hs
  rcases List.mem_append.mp hs with hs | hs
  · exact hblocks s hs
  · exact globalSlots_bounds hs

/-- The initial and the final time stand next to each other. -/
theorem build_times {l : Layout α} (h : b.build = .ok l) :
    l.slots[l.initialTimeIndex]? = some ⟨.text "t0", b.initialTime⟩ ∧
      l.slots[l.finalTimeIndex]? = some ⟨.text "tf", b.finalTime⟩ := by
  obtain ⟨blocks, hslots, hindex, -⟩ := build_parts h
  rw [Layout.finalTimeIndex, hindex, hslots, globalSlots]
  simp

end LayoutBuilder

end Collocation
