import Collocation.Layout
import Collocation.Proofs.Lists

/-! Ranges that follow each other.  A list is its parts at the ranges of a tiling, in order, so two
lists agree entry by entry exactly if they do on every range. -/

namespace Collocation

namespace Range

variable {γ : Type}

theorem length_of {r : Range} {xs : List γ} (h : r.stop ≤ xs.length) :
    (r.of xs).length = r.stop - r.start := by
  simp only [of, List.length_take, List.length_drop]
  omega

/-- The entries at the place of the middle one of three lists. -/
theorem of_append {r : Range} {before xs after : List γ} (hstart : r.start = before.length)
    (hstop : r.stop = r.start + xs.length) : r.of (before ++ (xs ++ after)) = xs := by
  rw [of, hstop, hstart, List.drop_left, Nat.add_sub_cancel_left, List.take_left]

theorem getElem?_of_single {i : Nat} {xs : List γ} {x : γ}
    (h : (⟨i, i + 1⟩ : Range).of xs = [x]) : xs[i]? = some x := by
  rw [of, Nat.add_sub_cancel_left] at h
  have hhead := congrArg List.head? h
  rwa [List.head?_take, if_neg Nat.one_ne_zero, List.head?_drop] at hhead

theorem of_map {δ : Type} (r : Range) (f : γ → δ) (xs : List γ) :
    r.of (xs.map f) = (r.of xs).map f := by
  rw [of, of, List.map_take, List.map_drop]

/-- Two lists have the same entries at the positions of a range. -/
def Agree (r : Range) (xs ys : List γ) : Prop :=
  ∀ i, r.start ≤ i → i < r.stop → xs[i]? = ys[i]?

theorem Agree.mono {r s : Range} {xs ys : List γ} (h : s.Agree xs ys) (hstart : s.start ≤ r.start)
    (hstop : r.stop ≤ s.stop) : r.Agree xs ys :=
  fun i hi hlt => h i (Nat.le_trans hstart hi) (Nat.lt_of_lt_of_le hlt hstop)

theorem Agree.of_eq {r s : Range} {xs ys : List γ} (h : s.Agree xs ys) (hstart : s.start ≤ r.start)
    (hstop : r.stop ≤ s.stop) : r.of xs = r.of ys := by
  refine List.ext_getElem? fun i => ?_
  simp only [of, List.getElem?_take, List.getElem?_drop]
  split_ifs with hi
  · exact h _ (by omega) (by omega)
  · rfl

end Range

/-- The ranges cover the positions from the first number up to the last one in order: each starts
where the one before stops. -/
inductive Tiles : Nat → List Range → Nat → Prop
  | nil (n : Nat) : Tiles n [] n
  | cons {start middle stop : Nat} {rest : List Range} :
      start ≤ middle → Tiles middle rest stop → Tiles start (⟨start, middle⟩ :: rest) stop

namespace Tiles

theorem le {start stop : Nat} {rs : List Range} (h : Tiles start rs stop) : start ≤ stop := by
  induction h with
  | nil => exact Nat.le_refl _
  | cons hle _ ih => exact Nat.le_trans hle ih

theorem append {start middle stop : Nat} {rs ss : List Range} (h : Tiles start rs middle)
    (h' : Tiles middle ss stop) : Tiles start (rs ++ ss) stop := by
  induction h with
  | nil => exact h'
  | cons hle _ ih => exact .cons hle (ih h')

/-- Groups of ranges that follow each other. -/
theorem flatMap_range {n : Nat} {f : Nat → Nat} {group : Nat → List Range}
    (h : ∀ k < n, Tiles (f k) (group k) (f (k + 1))) :
    Tiles (f 0) ((List.range n).flatMap group) (f n) := by
  induction n with
  | zero => exact .nil _
  | succ n ih =>
    rw [List.range_succ, List.flatMap_append, List.flatMap_singleton]
    exact (ih fun k hk => h k (by omega)).append (h n (by omega))

theorem stop_le {start stop : Nat} {rs : List Range} (h : Tiles start rs stop) :
    ∀ r ∈ rs, r.stop ≤ stop := by
  induction h with
  | nil => simp
  | cons _ hrest ih => simpa using ⟨hrest.le, ih⟩

theorem stop_of_getLast? {start stop : Nat} {rs : List Range} (h : Tiles start rs stop) {r : Range}
    (hr : rs.getLast? = some r) : r.stop = stop := by
  induction h with
  | nil => cases hr
  | cons _ hrest ih =>
    cases hrest with
    | nil =>
      obtain rfl := Option.some.inj hr
      rfl
    | cons => exact ih (by rwa [List.getLast?_cons_cons] at hr)

/-- Of two ranges the first stops before the second starts. -/
theorem pairwise {start stop : Nat} {rs : List Range} (h : Tiles start rs stop) :
    (∀ r ∈ rs, start ≤ r.start) ∧ rs.Pairwise (fun r s => r.stop ≤ s.start) := by
  induction h with
  | nil => exact ⟨nofun, .nil⟩
  | cons hle _ ih =>
    obtain ⟨hstart, hpairs⟩ := ih
    refine ⟨List.forall_mem_cons.mpr ⟨Nat.le_refl _, fun r hr => ?_⟩,
      List.pairwise_cons.mpr ⟨hstart, hpairs⟩⟩
    exact Nat.le_trans hle (hstart r hr)

variable {γ δ : Type}

/-- A list is put together from its parts. -/
theorem flatMap_of {start stop : Nat} {rs : List Range} (h : Tiles start rs stop) {xs : List γ}
    (hlen : stop = xs.length) : rs.flatMap (·.of xs) = xs.drop start := by
  induction h with
  | nil n => simp [hlen]
  | @cons start middle stop rest hle _ ih =>
    rw [List.flatMap_cons, ih hlen, Range.of]
    conv => rhs; rw [← List.take_append_drop (middle - start) (xs.drop start)]
    rw [List.drop_drop, Nat.add_sub_cancel' hle]

/-- Pieces of the right lengths, one after the other, stand at the ranges of a tiling. -/
theorem flatten_of {start stop : Nat} {rs : List Range} (h : Tiles start rs stop)
    {pieces : List (List γ)} {before : List γ} (hstart : before.length = start)
    (hlen : List.Forall₂ (fun r p => p.length = r.stop - r.start) rs pieces) :
    (before ++ pieces.flatten).length = stop ∧
      List.Forall₂ (fun r p => r.of (before ++ pieces.flatten) = p) rs pieces := by
  induction h generalizing pieces before with
  | nil n =>
    cases hlen
    exact ⟨by simpa using hstart, .nil⟩
  | @cons start middle stop rest hle _ ih =>
    cases hlen with
    | @cons _ p _ pieces hp hrest =>
      have hmiddle : middle = start + p.length := by
        have : p.length = middle - start := hp
        omega
      have hnext : (before ++ p).length = middle := by rw [List.length_append, hstart, hmiddle]
      obtain ⟨hlength, hof⟩ := ih hnext hrest
      rw [List.append_assoc] at hlength hof
      exact ⟨hlength, .cons (Range.of_append hstart.symm hmiddle) hof⟩

/-- Lists are related if they are at every range of a tiling. -/
theorem forall₂_iff {R : γ → δ → Prop} {rs : List Range} {xs : List γ} {ys : List δ}
    (h : Tiles 0 rs xs.length) (hlen : xs.length = ys.length) :
    List.Forall₂ R xs ys ↔ ∀ r ∈ rs, List.Forall₂ R (r.of xs) (r.of ys) := by
  have hx := h.flatMap_of rfl
  have hy := h.flatMap_of hlen
  rw [List.drop_zero] at hx hy
  conv => lhs; rw [← hx, ← hy]
  refine forall₂_flatMap fun r hr => ?_
  have hstop := h.stop_le r hr
  rw [Range.length_of hstop, Range.length_of (hlen ▸ hstop)]

end Tiles

end Collocation
