import Collocation.Proofs.Extended
import Collocation.Summation
import Mathlib.Algebra.BigOperators.Group.List.Basic

/-! Sums of many numbers.  In exact arithmetic the blocks and lanes of a sum make no difference: it
is the sum of the numbers. -/

namespace Collocation

namespace Summation

open Extended

/-- Adding a group to the lanes moves its numbers from the row into the lanes. -/
theorem sum_zipWith_add {ps qs : List ℚ} (h : ps.length = qs.length) :
    (ps.zipWith (· + ·) qs).sum = ps.sum + qs.sum := by
  induction ps generalizing qs with
  | nil =>
    obtain rfl : qs = [] := List.length_eq_zero_iff.mp h.symm
    simp
  | cons p ps ih =>
    cases qs with
    | nil => simp at h
    | cons q qs =>
      rw [List.zipWith_cons_cons, List.sum_cons, List.sum_cons, List.sum_cons,
        ih (Nat.succ.inj h)]
      ring

theorem zipWith_finite (ps qs : List ℚ) :
    (ps.map finite).zipWith (· + ·) (qs.map finite) = (ps.zipWith (· + ·) qs).map finite := by
  rw [List.zipWith_map, List.map_zipWith]
  rfl

/-- Each group is added to the lanes, so the lanes and what is left over keep the whole sum. -/
theorem runLanes_finite {ps : List ℚ} (qs : List ℚ) (h : ps.length = lanes) :
    ∃ sums rest : List ℚ, runLanes (ps.map finite) (qs.map finite) =
        (sums.map finite, rest.map finite) ∧
      sums.length = lanes ∧ sums.sum + rest.sum = ps.sum + qs.sum := by
  induction hn : qs.length using Nat.strong_induction_on generalizing ps qs with
  | _ n ih =>
    rw [runLanes, List.length_map]
    split_ifs with hlanes
    · have hgroup : ps.length = (qs.take lanes).length := by
        rw [h, List.length_take, min_eq_left hlanes]
      have hshort : (qs.drop lanes).length < n := by
        rw [List.length_drop]
        unfold lanes at hlanes ⊢
        omega
      rw [← List.map_take, ← List.map_drop, zipWith_finite]
      have hgrown : (ps.zipWith (· + ·) (qs.take lanes)).length = lanes := by
        rw [List.length_zipWith, ← hgroup, h, min_self]
      obtain ⟨sums, rest, hrun, hlength, hsum⟩ := ih _ hshort _ hgrown rfl
      refine ⟨sums, rest, hrun, hlength, ?_⟩
      rw [hsum, sum_zipWith_add hgroup, add_assoc, List.sum_take_add_sum_drop]
    · exact ⟨ps, qs, rfl, h, rfl⟩

theorem joinLanes_finite {ps : List ℚ} (h : ps.length = lanes) :
    joinLanes (ps.map finite) = finite ps.sum := by
  match ps, h with
  | [a, b, c, d, e, f, g, i], _ =>
    simp only [List.map_cons, List.map_nil, joinLanes, finite_add, List.sum_cons, List.sum_nil]
    ring_nf

theorem block_finite (qs : List ℚ) : block (qs.map finite) = finite qs.sum := by
  rw [block, List.length_map]
  split_ifs with hlanes
  · exact sum_finite qs
  · have hgroup : (qs.take lanes).length = lanes := by
      rw [List.length_take, min_eq_left (not_lt.mp hlanes)]
    obtain ⟨sums, rest, hrun, hlength, hsum⟩ := runLanes_finite (qs.drop lanes) hgroup
    rw [← List.map_take, ← List.map_drop, hrun]
    show (rest.map finite).foldl (· + ·) (joinLanes (sums.map finite)) = _
    rw [joinLanes_finite hlength, foldl_finite, hsum, List.sum_take_add_sum_drop]

/-- A sum in blocks is the sum: both halves of a long row are shorter than the row. -/
theorem pairwise_finite (qs : List ℚ) : pairwise (qs.map finite) = finite qs.sum := by
  induction hxs : qs.map finite using pairwise.induct generalizing qs with
  | case1 xs hlong ihleft ihright =>
    subst hxs
    rw [pairwise, if_pos hlong, ihleft _ (List.map_take ..), ihright _ (List.map_drop ..),
      finite_add, List.sum_take_add_sum_drop]
  | case2 xs hshort =>
    subst hxs
    rw [pairwise, if_neg hshort, block_finite]

end Summation

end Collocation
