import Collocation.Proofs.Layout.Building

/-! Vectors and their content.  The trajectories with rows of the right sizes are what vectors
contain: the rows of such a trajectory, one after the other, stand at the places of the layout. -/

namespace Collocation

variable {α : Type} [Scalar α]

/-- A trajectory has rows for `n` points and for the constrained ones, with an entry for each
variable. -/
structure Trajectory.Fills (tr : Trajectory α) (n : Nat) (d : Dimensions) (ks : List Nat) :
    Prop where
  states : tr.states.length = n
  stateRows : ∀ row ∈ tr.states, row.length = d.states
  controls : tr.controls.length = n
  controlRows : ∀ row ∈ tr.controls, row.length = d.controls
  multipliers : tr.multipliers.length = ks.length
  multiplierRows : ∀ row ∈ tr.multipliers, row.length = d.multipliers
  parameters : tr.parameters.length = d.parameters

/-- Every entry of a trajectory has a property. -/
structure Trajectory.All {β : Type} (tr : Trajectory β) (P : β → Prop) : Prop where
  states : ∀ row ∈ tr.states, ∀ x ∈ row, P x
  controls : ∀ row ∈ tr.controls, ∀ x ∈ row, P x
  multipliers : ∀ row ∈ tr.multipliers, ∀ x ∈ row, P x
  initialTime : P tr.initialTime
  finalTime : P tr.finalTime
  parameters : ∀ x ∈ tr.parameters, P x

namespace Layout

theorem split_eq_ok {l : Layout α} {w : List α} {tr : Trajectory α} :
    l.split w = .ok tr ↔ w.length = l.size ∧ l.trajectoryOf w = tr := by
  unfold split
  split_ifs with h <;> simp [h]

def pointPieces (l : Layout α) (tr : Trajectory α) (k : Nat) : List (List α) :=
  tr.states[k]?.getD [] :: tr.controls[k]?.getD []
    :: if l.constrained.contains k then [tr.multipliers[l.constrained.idxOf k]?.getD []] else []

def globalPieces (tr : Trajectory α) : List (List α) :=
  [[tr.initialTime], [tr.finalTime], tr.parameters]

/-- The parts of a trajectory in the order of their places. -/
def pieces (l : Layout α) (tr : Trajectory α) : List (List α) :=
  (List.range l.points).flatMap (l.pointPieces tr) ++ globalPieces tr

omit [Scalar α] in
theorem row_mem {rows : List (List α)} {k : Nat} (hk : k < rows.length) :
    rows[k]?.getD [] ∈ rows := by
  rw [List.getElem?_eq_getElem hk, Option.getD_some]
  exact List.getElem_mem hk

omit [Scalar α] in
theorem length_row {rows : List (List α)} {n k : Nat} (h : ∀ row ∈ rows, row.length = n)
    (hk : k < rows.length) : (rows[k]?.getD []).length = n :=
  h _ (row_mem hk)

theorem entry_mem {xs : List α} {i : Nat} (hi : i < xs.length) : entry xs i ∈ xs := by
  rw [entry, List.getElem?_eq_getElem hi, Option.getD_some]
  exact List.getElem_mem hi

section Pieces

variable {l : Layout α} {n : Nat} {d : Dimensions} {ks : List Nat} {a : Arrangement α}
  {tr : Trajectory α}

omit [Scalar α] in
/-- Places and parts are paired point by point. -/
theorem forall₂_pieces {R : Range → List α → Prop} : List.Forall₂ R l.places (l.pieces tr) ↔
    (∀ k < l.points, R (l.statePlace k) (tr.states[k]?.getD []) ∧
      R (l.controlPlace k) (tr.controls[k]?.getD []) ∧
      (k ∈ l.constrained →
        R (l.multiplierPlace k) (tr.multipliers[l.constrained.idxOf k]?.getD []))) ∧
    R l.initialPlace [tr.initialTime] ∧ R l.finalPlace [tr.finalTime] ∧
      R l.parameterRange tr.parameters := by
  have hlength (k : Nat) : (l.pointPlaces k).length = (l.pointPieces tr k).length := by
    unfold pointPlaces pointPieces
    split_ifs <;> rfl
  have hpoint (k : Nat) : List.Forall₂ R (l.pointPlaces k) (l.pointPieces tr k) ↔
      R (l.statePlace k) (tr.states[k]?.getD []) ∧ R (l.controlPlace k) (tr.controls[k]?.getD []) ∧
        (k ∈ l.constrained →
          R (l.multiplierPlace k) (tr.multipliers[l.constrained.idxOf k]?.getD [])) := by
    rw [pointPlaces, pointPieces, List.forall₂_cons, List.forall₂_cons]
    by_cases hmem : k ∈ l.constrained <;> simp [hmem]
  have hall : ((List.range l.points).flatMap l.pointPlaces).length =
      ((List.range l.points).flatMap (l.pointPieces tr)).length := by
    simp only [List.length_flatMap, hlength]
  rw [places, pieces, forall₂_append hall, forall₂_flatMap fun k _ => hlength k]
  simp [hpoint, globalPlaces, globalPieces]

omit [Scalar α] in
/-- The rows of a list are what stands at point after point. -/
theorem map_range_eq {rows : List (List α)} {n : Nat} {f : Nat → List α} (hlen : rows.length = n)
    (h : ∀ k < n, f k = rows[k]?.getD []) : (List.range n).map f = rows := by
  refine List.ext_getElem (by simp [hlen]) fun k _ hk => ?_
  rw [List.getElem_map, List.getElem_range, h k (hlen ▸ hk), List.getElem?_eq_getElem hk,
    Option.getD_some]

variable (h : l.Arranged n d ks a) (htr : tr.Fills n d ks)
include h htr

theorem Arranged.length_pieces :
    List.Forall₂ (fun r p => p.length = r.stop - r.start) l.places (l.pieces tr) := by
  refine forall₂_pieces.mpr ⟨fun k hk => ⟨?states, ?controls, fun hmem => ?multipliers⟩, ?rest⟩
  case states =>
    rw [h.points] at hk
    rw [statePlace, Nat.add_sub_cancel_left, h.sizes]
    exact length_row htr.stateRows (htr.states ▸ hk)
  case controls =>
    rw [h.points] at hk
    rw [controlPlace, Nat.add_sub_cancel_left, h.sizes]
    exact length_row htr.controlRows (htr.controls ▸ hk)
  case multipliers =>
    rw [h.constrained] at hmem ⊢
    rw [multiplierPlace, Nat.add_sub_cancel_left, h.sizes]
    exact length_row htr.multiplierRows (htr.multipliers ▸ List.idxOf_lt_length_of_mem hmem)
  case rest =>
    rw [initialPlace, finalPlace, parameterRange, h.sizes]
    simp [htr.parameters]

/-- A trajectory with rows of the right sizes is the content of its parts. -/
theorem Arranged.split_pieces (hks : ∀ k ∈ ks, k < n) (hd : ks.Nodup) :
    l.split (l.pieces tr).flatten = .ok tr := by
  have hstart : ([] : List α).length = 0 := rfl
  obtain ⟨hsize, hof⟩ := h.tiles.flatten_of hstart (h.length_pieces htr)
  rw [List.nil_append] at hsize hof
  refine (if_pos hsize).trans (congrArg Except.ok ?_)
  obtain ⟨hpoints, h0, h1, hparameters⟩ := forall₂_pieces.mp hof
  have hstates : (List.range l.points).map (l.stateAt (l.pieces tr).flatten) = tr.states := by
    refine map_range_eq (htr.states.trans h.points.symm) fun k hk => ?_
    rw [← statePlace_of, (hpoints k hk).1]
  have hcontrols : (List.range l.points).map (l.controlAt (l.pieces tr).flatten) = tr.controls := by
    refine map_range_eq (htr.controls.trans h.points.symm) fun k hk => ?_
    rw [← controlPlace_of, (hpoints k hk).2.1]
  have hmultipliers : l.constrained.map (l.multiplierAt (l.pieces tr).flatten) =
      tr.multipliers := by
    rw [h.constrained]
    refine List.ext_getElem (by rw [List.length_map, htr.multipliers]) fun j hj hj' => ?_
    rw [List.length_map] at hj
    have hlt : ks[j] < l.points := by
      rw [h.points]
      exact hks _ (List.getElem_mem hj)
    have hmem : ks[j] ∈ l.constrained := by
      rw [h.constrained]
      exact List.getElem_mem hj
    have hpiece := (hpoints ks[j] hlt).2.2 hmem
    rw [multiplierPlace_of, h.constrained, hd.idxOf_getElem, List.getElem?_eq_getElem hj',
      Option.getD_some] at hpiece
    rw [List.getElem_map, hpiece]
  have htimes := h.times_of hsize
  rw [h0, h1, List.singleton_inj, List.singleton_inj] at htimes
  rw [trajectoryOf, hstates, hcontrols, hmultipliers, hparameters, ← htimes.1, ← htimes.2]

theorem Arranged.exists_split (hks : ∀ k ∈ ks, k < n) (hd : ks.Nodup) : ∃ w, l.split w = .ok tr :=
  ⟨_, h.split_pieces htr hks hd⟩

end Pieces

/-- The content of a vector has rows of the right sizes. -/
theorem Arranged.fills {l : Layout α} {n : Nat} {d : Dimensions} {ks : List Nat}
    {a : Arrangement α} (h : l.Arranged n d ks a) (hks : ∀ k ∈ ks, k < n) {w : List α}
    (hw : w.length = l.size) : (l.trajectoryOf w).Fills n d ks where
  states := by simp [trajectoryOf, h.points]
  stateRows row hrow := by
    obtain ⟨k, hk, rfl⟩ := List.mem_map.mp hrow
    rw [List.mem_range, h.points] at hk
    exact h.length_stateAt hk hw
  controls := by simp [trajectoryOf, h.points]
  controlRows row hrow := by
    obtain ⟨k, hk, rfl⟩ := List.mem_map.mp hrow
    rw [List.mem_range, h.points] at hk
    exact h.length_controlAt hk hw
  multipliers := by rw [trajectoryOf, List.length_map, h.constrained]
  multiplierRows row hrow := by
    obtain ⟨k, hk, rfl⟩ := List.mem_map.mp hrow
    rw [h.constrained] at hk
    exact h.length_multiplierAt (hks k hk) hw hk
  parameters := h.length_parameters hw

omit [Scalar α] in
theorem mem_of_mem_entries {w : List α} {start count : Nat} {x : α}
    (h : x ∈ entries w start count) : x ∈ w := List.mem_of_mem_drop (List.mem_of_mem_take h)

/-- What holds of all entries of a vector holds of its content. -/
theorem Arranged.all_trajectoryOf {l : Layout α} {n : Nat} {d : Dimensions} {ks : List Nat}
    {a : Arrangement α} (h : l.Arranged n d ks a) {w : List α} (hw : w.length = l.size)
    {P : α → Prop} (hP : ∀ x ∈ w, P x) : (l.trajectoryOf w).All P := by
  have hstop := h.tiles.stop_le l.finalPlace (by simp [places, globalPlaces])
  have hlt : l.initialTimeIndex + 1 < w.length := by rw [hw]; exact hstop
  have hrows {β : Type} {f : β → List α} {items : List β} (hf : ∀ k, ∀ x ∈ f k, x ∈ w) :
      ∀ row ∈ items.map f, ∀ x ∈ row, P x := by
    intro row hrow x hx
    obtain ⟨k, -, rfl⟩ := List.mem_map.mp hrow
    exact hP x (hf k x hx)
  exact ⟨hrows fun _ _ => mem_of_mem_entries, hrows fun _ _ => mem_of_mem_entries,
    hrows fun _ _ => mem_of_mem_entries, hP _ (entry_mem (by omega)), hP _ (entry_mem hlt),
    fun x hx => hP x (mem_of_mem_entries hx)⟩

end Layout

end Collocation
