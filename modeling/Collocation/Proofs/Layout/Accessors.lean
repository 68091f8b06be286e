import Collocation.Proofs.Layout.Building

/-! What a layout says about its variables.  The ranges of all points, the times and the parameters
cover the decision vector in order, and at each range stand the bounds that were set last and the
labels of the variables there. -/

namespace Collocation

variable {α : Type} [Scalar α]

/-- A layout of the given sizes is asked for, with multipliers at the points of a collection. -/
def LayoutRequest.ofSizes (points : Nat) (d : Dimensions) (indices : Value α) :
    LayoutRequest α where
  points := .int points
  states := .int d.states
  controls := .int d.controls
  multipliers := .int d.multipliers
  parameters := .int d.parameters
  indices

namespace LayoutBuilder

variable {b b' : LayoutBuilder α} {points : Nat} {d : Dimensions} {indices : Value α}
  {asked : List Int}

theorem toRepeatCount_eq_ok {n m : Int} (h : (Value.int n : Value α).toRepeatCount = .ok m) :
    m = n := by
  simp only [Value.toRepeatCount, Value.whole?] at h
  split_ifs at h
  simpa using h.symm

/-- A new builder has the sizes that it is asked for, and nothing is set. -/
theorem ofRequest_sized (h : ofRequest (.ofSizes points d indices) = .ok b) :
    ∃ asked ks, (d.multipliers ≠ 0 → namedPoints indices = .ok asked) ∧
      Constrained points d.multipliers asked ks ∧ b.Sized points d ks ∧
      b.arrangement = .start d := by
  simp only [ofRequest, LayoutRequest.ofSizes, Except.bind_eq_ok, Except.pure_eq_ok] at h
  obtain ⟨ks, hks, states, hstates, controls, hcontrols, multipliers, hmultipliers, parameters,
    hparameters, rfl⟩ := h
  obtain rfl := toRepeatCount_eq_ok hstates
  obtain rfl := toRepeatCount_eq_ok hcontrols
  obtain rfl := toRepeatCount_eq_ok hmultipliers
  obtain rfl := toRepeatCount_eq_ok hparameters
  obtain ⟨asked, hnamed, hconstrained⟩ := constrainedPoints_eq_ok hks
  exact ⟨asked, ks, hnamed, hconstrained,
    ⟨rfl, rfl, rfl, rfl, rfl, rfl, Arrangement.start_fits d⟩, rfl⟩

end LayoutBuilder

namespace Layout

/-- The ranges of point `k`: its states, its controls and, if it has any, its multipliers. -/
def pointRanges (l : Layout α) (k : Nat) : Outcome α (List Range) := do
  let states ← l.stateRange (.int k)
  let controls ← l.controlRange (.int k)
  let multipliers ← l.multiplierRange (.int k)
  return states :: controls :: multipliers.toList

/-- All ranges: those of the points in order, the times and the parameters. -/
def ranges (l : Layout α) : Outcome α (List Range) := do
  let points ← (List.range l.points).mapM l.pointRanges
  return points.flatten ++
    [⟨l.initialTimeIndex, l.initialTimeIndex + 1⟩, ⟨l.finalTimeIndex, l.finalTimeIndex + 1⟩,
      l.parameterRange]

/-- At a range stands one variable for each of some bounds, under the label made from its name. -/
structure Holds (l : Layout α) (r : Range) (bounds : List (Bounds α)) (names : List (Value α))
    (label : Value α → Value α) : Prop where
  length : r.stop = r.start + bounds.length
  lower : r.of l.lower = bounds.map (·.lower)
  upper : r.of l.upper = bounds.map (·.upper)
  labels : r.of l.labels = names.map label

def pointLabel (k : Nat) (name : Value α) : Value α :=
  .text (name.display ++ "[" ++ toString k ++ "]")

variable {l : Layout α} {n : Nat} {d : Dimensions} {ks : List Nat} {a : Arrangement α}

omit [Scalar α] in
theorem holds_of_zipWith {r : Range} {bounds : List (Bounds α)} {names : List (Value α)}
    {label : Value α → Value α} (hlength : bounds.length = names.length)
    (hstop : r.stop = r.start + bounds.length)
    (h : r.of l.slots = bounds.zipWith (fun b name => ⟨label name, b⟩) names) :
    l.Holds r bounds names label := by
  have hbounds : (r.of l.slots).map (·.bounds) = bounds := by rw [h, map_bounds_zipWith hlength]
  refine ⟨hstop, ?_, ?_, ?_⟩
  · rw [lower, Range.of_map, ← hbounds, List.map_map]
    rfl
  · rw [upper, Range.of_map, ← hbounds, List.map_map]
    rfl
  · rw [labels, Range.of_map, h, map_label_zipWith hlength]

namespace Arranged

variable (h : l.Arranged n d ks a)
include h

theorem offset_eq {k : Nat} (hk : k < n) : l.offset (.int k) = .ok (l.startOf k) := by
  have hnot : ¬ (k : Int) < 0 := by omega
  simp only [offset, Value.whole?, if_neg hnot, Int.toNat_natCast, h.starts k hk]

theorem stateRange_eq {k : Nat} (hk : k < n) : l.stateRange (.int k) = .ok (l.statePlace k) := by
  rw [stateRange, h.offset_eq hk]
  rfl

theorem controlRange_eq {k : Nat} (hk : k < n) :
    l.controlRange (.int k) = .ok (l.controlPlace k) := by
  rw [controlRange, h.offset_eq hk]
  rfl

theorem multiplierRange_eq {k : Nat} (hk : k < n) : l.multiplierRange (.int k) =
    .ok (if l.constrained.contains k then some (l.multiplierPlace k) else none) := by
  have hany : (l.constrained.any fun (c : Nat) => (Value.int k : Value α).equalsInt c) =
      l.constrained.contains k := by
    rw [Bool.eq_iff_iff]
    simp only [List.any_eq_true, Value.equalsInt_int, Int.natCast_inj, List.contains_iff_mem,
      exists_eq_right']
  rw [multiplierRange, hany]
  split_ifs
  · rw [h.offset_eq hk]
    rfl
  · rfl

theorem ranges_eq : l.ranges = .ok l.places := by
  have hpoint (k : Nat) (hk : k ∈ List.range l.points) :
      l.pointRanges k = .ok (l.pointPlaces k) := by
    rw [h.points, List.mem_range] at hk
    rw [pointRanges, h.stateRange_eq hk, h.controlRange_eq hk, h.multiplierRange_eq hk]
    simp only [bind, Except.bind, pure, Except.pure, pointPlaces]
    split_ifs <;> rfl
  rw [ranges, Except.mapM_eq_map hpoint]
  rfl

end Arranged

/-- What the accessors of a layout with `n` points say: the ranges cover the decision vector in
order, and each of them holds the bounds and the labels of an arrangement. The multipliers stand at
the points `asked`, if there are any. -/
structure Accounts (l : Layout α) (n : Nat) (d : Dimensions) (asked : List Int)
    (a : Arrangement α) : Prop where
  points : l.points = n
  size : l.size = n * (d.states + d.controls) + asked.length * d.multipliers + 2 + d.parameters
  covered : ∃ rs, l.ranges = .ok rs ∧ Tiles 0 rs l.size
  fits : a.Fits d
  states : ∀ k < n, ∃ r, l.stateRange (.int k) = .ok r ∧
    l.Holds r (a.states.inForce n k) a.stateNames (pointLabel k)
  controls : ∀ k < n, ∃ r, l.controlRange (.int k) = .ok r ∧
    l.Holds r (a.controls.inForce n k) a.controlNames (pointLabel k)
  multipliers : ∀ k < n, ∃ found, l.multiplierRange (.int k) = .ok found ∧
    (found.isSome ↔ (k : Int) ∈ asked ∧ d.multipliers ≠ 0) ∧
    ∀ r ∈ found, l.Holds r a.multipliers a.multiplierNames (pointLabel k)
  initialTime :
    l.Holds ⟨l.initialTimeIndex, l.initialTimeIndex + 1⟩ [a.times.1] [.text "t0"] id
  finalTime : l.Holds ⟨l.finalTimeIndex, l.finalTimeIndex + 1⟩ [a.times.2] [.text "tf"] id
  parameters : l.Holds l.parameterRange a.parameters a.parameterNames id

/-- A layout in which every variable of an arrangement has its place says so. -/
theorem Arranged.accounts (h : l.Arranged n d ks a) {asked : List Int}
    (hks : LayoutBuilder.Constrained n d.multipliers asked ks) : l.Accounts n d asked a where
  points := h.points
  size := by rw [h.size, hks.length_mul]
  covered := ⟨l.places, h.ranges_eq, h.tiles⟩
  fits := h.fits
  states k hk := by
    have hlength := h.fits.states.inForce n k
    refine ⟨_, h.stateRange_eq hk, holds_of_zipWith (hlength.trans h.fits.stateNames.symm) ?_
      (h.states k hk)⟩
    rw [hlength, statePlace, h.sizes]
  controls k hk := by
    have hlength := h.fits.controls.inForce n k
    refine ⟨_, h.controlRange_eq hk, holds_of_zipWith (hlength.trans h.fits.controlNames.symm) ?_
      (h.controls k hk)⟩
    rw [hlength, controlPlace, h.sizes]
  multipliers k hk := by
    refine ⟨_, h.multiplierRange_eq hk, ?_, ?_⟩
    · rw [← hks.mem_iff, h.constrained, ← List.contains_iff_mem]
      split_ifs with hmem <;> simpa using hmem
    · intro r hr
      split_ifs at hr with hmem
      · obtain rfl : l.multiplierPlace k = r := by simpa using hr
        rw [h.constrained, List.contains_iff_mem] at hmem
        refine holds_of_zipWith (h.fits.multipliers.trans h.fits.multiplierNames.symm) ?_
          (h.multipliers k hk hmem)
        rw [h.fits.multipliers, multiplierPlace, h.sizes]
      · simp at hr
  initialTime := holds_of_zipWith rfl rfl h.initialTime
  finalTime := holds_of_zipWith rfl rfl h.finalTime
  parameters := by
    refine holds_of_zipWith (h.fits.parameters.trans h.fits.parameterNames.symm) ?_ h.parameters
    rw [h.fits.parameters, parameterRange, h.sizes]

end Layout

namespace LayoutBuilder

variable {b b' : LayoutBuilder α} {points : Nat} {d : Dimensions} {indices : Value α}
  {asked : List Int} {calls : List (Setter α)}

/-- A builder that was filled by calls that all succeeded. -/
theorem filled_sized (hasked : indices.toItems = .ok (asked.map .int))
    (hb : ofRequest (.ofSizes points d indices) = .ok b)
    (h : (Edit.sequence Setter.run calls).Yields b () b') :
    ∃ ks, Constrained points d.multipliers asked ks ∧ b'.Sized points d ks ∧
      b'.arrangement = (Arrangement.start d).afterCalls calls := by
  obtain ⟨named, ks, hnamed, hks, hsized, hstart⟩ := ofRequest_sized hb
  have heq (hm : d.multipliers ≠ 0) : named = asked :=
    Except.ok.inj ((hnamed hm).symm.trans (namedPoints_eq_ok hasked))
  obtain ⟨hsized', hafter⟩ := yields_sequence h hsized
  exact ⟨ks, hks.congr heq, hsized', by rw [hafter, hstart]⟩

/-- After calls that all succeed a layout can be built; its ranges cover the decision vector, and at
each of them stand the bounds and names that were set last. -/
theorem build_accounts (hasked : indices.toItems = .ok (asked.map .int))
    (hb : ofRequest (.ofSizes points d indices) = .ok b)
    (h : (Edit.sequence Setter.run calls).Yields b () b') :
    ∃ l, b'.build = .ok l ∧
      l.Accounts points d asked ((Arrangement.start d).afterCalls calls) := by
  obtain ⟨ks, hks, hsized, harrangement⟩ := filled_sized hasked hb h
  obtain ⟨l, hl, harranged⟩ := build_arranged hsized hks.inside hks.nodup
  exact ⟨l, hl, harrangement ▸ harranged.accounts hks⟩

/-- Calls on a builder for three points, with multipliers at the last and the first of them: the
bounds of the state are set twice, and there are no controls. -/
def sampleCalls : List (Setter Extended) :=
  [.states [.free] none none,
    .names (.list [.text "height"]) .none (.tuple [.text "contact"]) .none,
    .multipliers [⟨0.0, Scalar.infinity⟩],
    .states [⟨0.0, 2.0⟩] (some [⟨1.0, 1.0⟩]) none,
    .times ⟨0.0, 0.0⟩ ⟨1.0, 5.0⟩]

theorem build_accounts_three : ∃ b b' : LayoutBuilder Extended,
    ofRequest (.ofSizes 3 ⟨1, 0, 1, 1⟩ (.list [.int 2, .int 0])) = .ok b ∧
    (Edit.sequence Setter.run sampleCalls).Yields b () b' ∧
    ∃ l, b'.build = .ok l ∧
      l.Accounts 3 ⟨1, 0, 1, 1⟩ [2, 0]
        ((Arrangement.start ⟨1, 0, 1, 1⟩).afterCalls sampleCalls) := by
  obtain ⟨b, hb, b', h⟩ : ∃ b : LayoutBuilder Extended,
      ofRequest (.ofSizes 3 ⟨1, 0, 1, 1⟩ (.list [.int 2, .int 0])) = .ok b ∧
      ∃ b', (Edit.sequence Setter.run sampleCalls).Yields b () b' := by
    refine ⟨_, rfl, ?_⟩
    exact ⟨_, rfl⟩
  exact ⟨b, b', hb, h, build_accounts rfl hb h⟩

end LayoutBuilder

end Collocation
