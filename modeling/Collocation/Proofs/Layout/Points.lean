import Collocation.Proofs.Layout.Setting
import Mathlib.Data.List.Sort

/-! The constrained points of a layout.  A builder holds the points that it is asked for in
increasing order, and refuses points outside the mesh or named twice; without multipliers it holds
none. -/

namespace Collocation

variable {α : Type} [Scalar α]

namespace LayoutBuilder

theorem insert_eq_orderedInsert (n : Int) (ks : List Int) :
    insert n ks = ks.orderedInsert (· ≤ ·) n := by
  induction ks with
  | nil => rfl
  | cons m rest ih => simp only [insert, List.orderedInsert, ih]

theorem sorted_eq_insertionSort (ks : List Int) : sorted ks = ks.insertionSort (· ≤ ·) := by
  induction ks with
  | nil => rfl
  | cons n rest ih =>
    rw [List.insertionSort_cons, ← ih, ← insert_eq_orderedInsert]
    rfl

/-- Numbers in increasing order of which no neighbours are equal increase. -/
theorem pairwise_lt_of_not_hasRepeats {ks : List Int} (h : hasRepeats ks = false)
    (hle : ks.Pairwise (· ≤ ·)) : ks.Pairwise (· < ·) := by
  induction ks with
  | nil => exact .nil
  | cons m rest ih =>
    cases rest with
    | nil => simp
    | cons n rest =>
      simp only [hasRepeats, Bool.or_eq_false_iff, beq_eq_false_iff_ne] at h
      have hrest := ih h.2 hle.of_cons
      refine List.pairwise_cons.mpr ⟨fun k hk => ?_, hrest⟩
      have hmn := List.rel_of_pairwise_cons hle (show n ∈ n :: rest by simp)
      rcases List.mem_cons.mp hk with rfl | hk
      · omega
      · have := List.rel_of_pairwise_cons hrest hk
        omega

/-- In increasing order only numbers without repetitions have no equal neighbours. -/
theorem hasRepeats_eq_false_iff {ks : List Int} (hle : ks.Pairwise (· ≤ ·)) :
    hasRepeats ks = false ↔ ks.Nodup := by
  constructor
  · intro h
    exact (pairwise_lt_of_not_hasRepeats h hle).imp fun hlt => Int.ne_of_lt hlt
  · intro hd
    clear hle
    induction ks with
    | nil => rfl
    | cons m rest ih =>
      cases rest with
      | nil => rfl
      | cons n rest =>
        have hmn : m ≠ n := List.rel_of_pairwise_cons hd (by simp)
        simpa [hasRepeats, hmn] using ih (List.nodup_cons.mp hd).2

theorem perm_sorted (ks : List Int) : (sorted ks).Perm ks := by
  rw [sorted_eq_insertionSort]
  exact List.perm_insertionSort _ _

theorem pairwise_sorted (ks : List Int) : (sorted ks).Pairwise (· ≤ ·) := by
  rw [sorted_eq_insertionSort]
  exact List.pairwise_insertionSort _ _

theorem outside_int (points : Nat) (ks : List Int) :
    (outside (.int points) ks : Outcome α Bool) =
      .ok (ks.any fun k => decide (k < 0 ∨ (points : Int) ≤ k)) := by
  induction ks with
  | nil => rfl
  | cons k rest ih =>
    have hle : (Number.int points : Number α).le (.int k) = decide ((points : Int) ≤ k) := by
      rw [Bool.eq_iff_iff]
      simp only [Number.le, Number.exact, decide_eq_true_eq, Extended.finite_le_finite,
        Rat.intCast_le_intCast]
    by_cases hneg : k < 0
    · simp [outside, hneg]
    · simp only [outside, if_neg hneg, Value.toOperand, Value.numeric?, bind, Except.bind, hle, ih]
      by_cases hlarge : (points : Int) ≤ k <;> simp [hneg, hlarge, pure, Except.pure]

theorem outside_eq_false {points : Nat} {ks : List Int} :
    (outside (.int points) ks : Outcome α Bool) = .ok false ↔ ∀ k ∈ ks, 0 ≤ k ∧ k < points := by
  rw [outside_int, Except.ok.injEq, List.any_eq_false]
  refine forall₂_congr fun k _ => ?_
  rw [decide_eq_true_eq]
  omega

/-- What a builder holds of the points that it is asked for. -/
structure Constrained (points multipliers : Nat) (asked : List Int) (held : List Nat) : Prop where
  increasing : held.Pairwise (· < ·)
  inside : ∀ k ∈ held, k < points
  perm : multipliers ≠ 0 → (held.map Int.ofNat).Perm asked
  none : multipliers = 0 → held = []

def namedPoints (indices : Value α) : Outcome α (List Int) := do
  (← indices.toItems).mapM fun (v : Value α) => (v.toWhole : Outcome α Int)

theorem namedPoints_eq_ok {indices : Value α} {asked : List Int}
    (h : indices.toItems = .ok (asked.map .int)) : namedPoints indices = .ok asked := by
  have hread : ((asked.map Value.int).mapM fun (v : Value α) => (v.toWhole : Outcome α Int)) =
      .ok asked := by
    refine Except.mapM_eq_ok.mpr (List.forall₂_map_left_iff.mpr (List.forall₂_same.mpr ?_))
    exact fun _ _ => rfl
  rw [namedPoints, h]
  exact hread

theorem constrainedPoints_eq_ok {points multipliers : Nat} {indices : Value α} {held : List Nat}
    (h : constrainedPoints (.int points) (.int multipliers) indices = .ok held) :
    ∃ asked, (multipliers ≠ 0 → namedPoints indices = .ok asked) ∧
      Constrained points multipliers asked held := by
  unfold constrainedPoints at h
  by_cases hm : multipliers = 0
  · obtain rfl : [] = held := by
      simpa [hm, Value.isTruthy, Number.isTruthy] using h
    exact ⟨[], fun hne => absurd hm hne, .nil, by simp, fun hne => absurd hm hne, fun _ => rfl⟩
  have htruthy : (!(Value.int multipliers : Value α).isTruthy) = false := by
    simp [Value.isTruthy, Number.isTruthy, hm]
  simp only [htruthy, Bool.false_eq_true, ↓reduceIte, Except.bind_eq_ok] at h
  obtain ⟨items, hitems, ks, hks, out, hout, h⟩ := h
  have hnamed : namedPoints indices = .ok ks := Except.bind_eq_ok.mpr ⟨items, hitems, hks⟩
  cases out with
  | true => simp at h
  | false =>
    have hin := outside_eq_false.mp hout
    cases hr : hasRepeats (sorted ks) with
    | true => simp [hr] at h
    | false =>
      obtain rfl : (sorted ks).map Int.toNat = held := by simpa [hr] using h
      have hpair := pairwise_lt_of_not_hasRepeats hr (pairwise_sorted ks)
      have hback : ((sorted ks).map Int.toNat).map Int.ofNat = sorted ks := by
        rw [List.map_map]
        conv => rhs; rw [← List.map_id (sorted ks)]
        refine List.map_congr_left fun k hk => ?_
        simpa using (hin k hk).1
      refine ⟨ks, fun _ => hnamed, ?_, ?_, fun _ => ?_, fun hz => absurd hz hm⟩
      · refine List.pairwise_map.mpr (hpair.imp_of_mem fun ha hb hlt => ?_)
        have := hin _ ha
        omega
      · rintro k hk
        obtain ⟨n, hn, rfl⟩ := List.mem_map.mp hk
        have := hin n hn
        omega
      · rw [hback]
        exact perm_sorted ks

/-- Points that a layout can have multipliers at: points of a mesh, each named once. -/
structure MeshPoints (points : Nat) (asked : List Int) : Prop where
  nodup : asked.Nodup
  inside : ∀ k ∈ asked, 0 ≤ k ∧ k < points

/-- Points of the mesh that are named once are accepted. -/
theorem exists_constrainedPoints {points : Nat} (multipliers : Nat) {indices : Value α}
    {asked : List Int} (hnamed : namedPoints indices = .ok asked) (h : MeshPoints points asked) :
    ∃ held, constrainedPoints (.int points) (.int multipliers) indices = .ok held := by
  obtain ⟨items, hitems, hread⟩ := Except.bind_eq_ok.mp hnamed
  have hin : (outside (.int points) (sorted asked) : Outcome α Bool) = .ok false :=
    outside_eq_false.mpr fun k hk => h.inside k ((perm_sorted asked).mem_iff.mp hk)
  have hr : hasRepeats (sorted asked) = false :=
    (hasRepeats_eq_false_iff (pairwise_sorted asked)).mpr
      ((perm_sorted asked).nodup_iff.mpr h.nodup)
  unfold constrainedPoints
  split_ifs with hm
  · exact ⟨[], rfl⟩
  · simp only [hitems, hread, hin, hr, bind, Except.bind]
    exact ⟨_, rfl⟩

/-- Where there are multipliers, points outside the mesh and points named twice are refused. -/
theorem constrainedPoints_raises {points multipliers : Nat} {indices : Value α} {asked : List Int}
    (hm : multipliers ≠ 0) (hnamed : namedPoints indices = .ok asked)
    (h : ¬ MeshPoints points asked) :
    Raises (constrainedPoints (.int points) (.int multipliers) indices : Outcome α (List Nat))
      .dataIntegrity := by
  obtain ⟨items, hitems, hread⟩ := Except.bind_eq_ok.mp hnamed
  have htruthy : (!(Value.int multipliers : Value α).isTruthy) = false := by
    simp [Value.isTruthy, Number.isTruthy, hm]
  unfold constrainedPoints
  simp only [htruthy, Bool.false_eq_true, ↓reduceIte, hitems, hread, bind, Except.bind]
  by_cases hin : ∀ k ∈ sorted asked, 0 ≤ k ∧ k < points
  · have hr : hasRepeats (sorted asked) = true := by
      rw [← Bool.not_eq_false, hasRepeats_eq_false_iff (pairwise_sorted asked)]
      intro hnodup
      refine h ⟨(perm_sorted asked).nodup_iff.mp hnodup, fun k hk => ?_⟩
      exact hin k ((perm_sorted asked).mem_iff.mpr hk)
    rw [outside_eq_false.mpr hin]
    simp only [Bool.false_eq_true, ↓reduceIte, hr]
    exact ⟨_, rfl, rfl⟩
  · have hout : (outside (.int points) (sorted asked) : Outcome α Bool) = .ok true := by
      rw [← outside_eq_false (α := α), outside_int, Except.ok.injEq, Bool.not_eq_false] at hin
      rw [outside_int, hin]
    rw [hout]
    exact ⟨_, rfl, rfl⟩

/-- The points asked for matter only where there are multipliers. -/
theorem Constrained.congr {points multipliers : Nat} {asked asked' : List Int} {held : List Nat}
    (h : Constrained points multipliers asked held) (heq : multipliers ≠ 0 → asked = asked') :
    Constrained points multipliers asked' held :=
  ⟨h.increasing, h.inside, fun hm => heq hm ▸ h.perm hm, h.none⟩

theorem Constrained.nodup {points multipliers : Nat} {asked : List Int} {held : List Nat}
    (h : Constrained points multipliers asked held) : held.Nodup :=
  h.increasing.imp fun hlt => Nat.ne_of_lt hlt

/-- Where there are multipliers, the points that are held are those asked for. -/
theorem Constrained.mem_iff {points multipliers : Nat} {asked : List Int} {held : List Nat}
    (h : Constrained points multipliers asked held) {k : Nat} :
    k ∈ held ↔ (k : Int) ∈ asked ∧ multipliers ≠ 0 := by
  by_cases hm : multipliers = 0
  · simp [h.none hm, hm]
  · rw [← (h.perm hm).mem_iff, List.mem_map]
    simp only [Int.ofNat_eq_natCast, Int.natCast_inj, exists_eq_right, ne_eq, hm,
      not_false_eq_true, and_true]

/-- The points that are held are those of the mesh that are among them, in its order. -/
theorem Constrained.filter_range {points multipliers : Nat} {asked : List Int} {held : List Nat}
    (h : Constrained points multipliers asked held) :
    (List.range points).filter (· ∈ held) = held := by
  refine (List.pairwise_lt_range.filter _).eq_of_mem_iff h.increasing fun k => ?_
  rw [List.mem_filter, List.mem_range, decide_eq_true_eq]
  exact ⟨And.right, fun hk => ⟨h.inside k hk, hk⟩⟩

/-- A builder that is asked for all points of the mesh holds them in order. -/
theorem Constrained.eq_range {points multipliers : Nat} {held : List Nat}
    (h : Constrained points multipliers ((List.range points).map Int.ofNat) held)
    (hm : multipliers ≠ 0) : held = List.range points := by
  refine h.increasing.eq_of_mem_iff List.pairwise_lt_range fun k => ?_
  rw [h.mem_iff, List.mem_range, and_iff_left hm, List.mem_map]
  simp only [List.mem_range, Int.ofNat_eq_natCast, Int.natCast_inj, exists_eq_right]

theorem Constrained.length_mul {points multipliers : Nat} {asked : List Int} {held : List Nat}
    (h : Constrained points multipliers asked held) :
    held.length * multipliers = asked.length * multipliers := by
  by_cases hm : multipliers = 0
  · simp [hm]
  · rw [← (h.perm hm).length_eq, List.length_map]

end LayoutBuilder

end Collocation
