import Collocation.Proofs.Mesh
import Collocation.Transcription.Program

/-! Quadrature by the trapezoidal rule.  The weights give every interval half to each of its ends,
so a weighted sum of values is the area under them; a sequence without trapezoidal defects grows by
that area, scaled with the horizon. -/

namespace Collocation

namespace Transcription

/-- The weights of the points from the first of `points` on, for an interval of length `d` before
them. -/
def weightsFrom (d : ℚ) : List ℚ → List ℚ
  | x :: y :: rest => ((y - x) / 2 + d / 2) :: weightsFrom (y - x) (y :: rest)
  | _ => [d / 2]

/-- The area under the polygon through some values at some points. -/
def area : List ℚ → List ℚ → ℚ
  | x :: y :: points, a :: b :: values => (y - x) / 2 * (a + b) + area (y :: points) (b :: values)
  | _, _ => 0

theorem finite_step (x y : ℚ) : (.finite y - .finite x : Extended) = .finite (y - x) := by
  rw [Extended.finite_sub, sub_eq_add_neg]

theorem weightsAfter_finite (d x : ℚ) (points : List ℚ) :
    weightsAfter (.finite d) (Mesh.differences ((x :: points).map Extended.finite)) =
      (weightsFrom d (x :: points)).map .finite := by
  induction points generalizing d x with
  | nil =>
    show [0.0 + 0.5 * Extended.finite d] = [.finite (d / 2)]
    rw [Extended.zero_eq, Extended.half_eq, Extended.finite_mul, Extended.finite_add]
    congr 2
    ring
  | cons y rest ih =>
    rw [List.map_cons, List.map_cons, Mesh.differences, finite_step, weightsAfter, weightsFrom,
      ← List.map_cons, ih, List.map_cons, Extended.zero_eq, Extended.half_eq]
    simp only [Extended.finite_mul, Extended.finite_add]
    congr 2
    ring

/-- The first point has no interval before it. -/
theorem trapezoidalWeights_finite (x : ℚ) (points : List ℚ) :
    trapezoidalWeights (Mesh.differences ((x :: points).map Extended.finite)) =
      (weightsFrom 0 (x :: points)).map .finite := by
  cases points with
  | nil =>
    show [(0.0 : Extended)] = [.finite (0 / 2)]
    rw [Extended.zero_eq, zero_div]
  | cons y rest =>
    rw [List.map_cons, List.map_cons, Mesh.differences, finite_step, trapezoidalWeights,
      weightsFrom, ← List.map_cons, weightsAfter_finite, List.map_cons, Extended.zero_eq,
      Extended.half_eq]
    simp only [Extended.finite_mul, Extended.finite_add]
    congr 2
    ring

theorem length_weightsFrom (d x : ℚ) (points : List ℚ) :
    (weightsFrom d (x :: points)).length = points.length + 1 := by
  induction points generalizing d x with
  | nil => rfl
  | cons y rest ih => rw [weightsFrom, List.length_cons, ih, List.length_cons]

/-- The weights sum to the length of all intervals, the one before the points for its half. -/
theorem sum_weightsFrom {d x z : ℚ} {points : List ℚ} (h : (x :: points).getLast? = some z) :
    (weightsFrom d (x :: points)).sum = d / 2 + (z - x) := by
  induction points generalizing d x with
  | nil =>
    obtain rfl : x = z := by simpa using h
    simp [weightsFrom]
  | cons y rest ih =>
    rw [List.getLast?_cons_cons] at h
    rw [weightsFrom, List.sum_cons, ih h]
    ring

theorem weightsFrom_pos {d x : ℚ} {points : List ℚ} (hd : 0 < d)
    (h : (x :: points).Pairwise (· < ·)) : ∀ w ∈ weightsFrom d (x :: points), 0 < w := by
  induction points generalizing d x with
  | nil =>
    intro w hw
    obtain rfl := List.mem_singleton.mp hw
    linarith
  | cons y rest ih =>
    obtain ⟨hx, hrest⟩ := List.pairwise_cons.mp h
    have hstep : 0 < y - x := sub_pos.mpr (hx y (by simp))
    intro w hw
    rw [weightsFrom] at hw
    rcases List.mem_cons.mp hw with rfl | hw
    · linarith
    · exact ih hstep hrest w hw

/-- A weighted sum is the area under the values, and what the interval before them adds to it. -/
theorem weightsFrom_sum (d x a : ℚ) {points values : List ℚ}
    (h : values.length = points.length) :
    ((weightsFrom d (x :: points)).zipWith (· * ·) (a :: values)).sum =
      d / 2 * a + area (x :: points) (a :: values) := by
  induction points generalizing d x a values with
  | nil =>
    obtain rfl := List.length_eq_zero_iff.mp h
    simp [weightsFrom, area]
  | cons y rest ih =>
    cases values with
    | nil => simp at h
    | cons b values =>
      rw [weightsFrom, List.zipWith_cons_cons, List.sum_cons, ih _ _ _ (by simpa using h), area]
      ring

/-- The weights of a mesh are rational, positive, and sum to one. -/
theorem weights_of_grid {m : Mesh Extended} {qs : List ℚ} (h : m.Grid qs) :
    trapezoidalWeights m.intervals = (weightsFrom 0 qs).map .finite ∧
      (∀ w ∈ weightsFrom 0 qs, 0 < w) ∧ (weightsFrom 0 qs).sum = 1 := by
  obtain ⟨hpoints, htwo, hfirst, hlast, hincreasing⟩ := h
  rcases qs with _ | ⟨x, _ | ⟨y, rest⟩⟩
  · simp at htwo
  · simp at htwo
  obtain rfl : x = 0 := by simpa using hfirst
  refine ⟨?_, ?_, ?_⟩
  · rw [Mesh.intervals, hpoints, trapezoidalWeights_finite]
  · obtain ⟨hx, hrest⟩ := List.pairwise_cons.mp hincreasing
    have hstep : 0 < y - 0 := sub_pos.mpr (hx y (by simp))
    intro w hw
    rw [weightsFrom] at hw
    rcases List.mem_cons.mp hw with rfl | hw
    · linarith
    · exact weightsFrom_pos hstep hrest w hw
  · rw [sum_weightsFrom hlast]
    norm_num

theorem weights_ne_zero {m : Mesh Extended} {qs : List ℚ} (h : m.Grid qs) :
    ¬ (trapezoidalWeights m.intervals).all (Scalar.eq · 0.0) = true := by
  obtain ⟨hweights, hpos, hsum⟩ := weights_of_grid h
  intro hzero
  rw [hweights, List.all_map, List.all_eq_true] at hzero
  obtain ⟨w, hw⟩ : ∃ w, w ∈ weightsFrom 0 qs := by
    refine List.exists_mem_of_ne_nil _ fun hnil => ?_
    rw [hnil, List.sum_nil] at hsum
    exact zero_ne_one hsum
  have hle : (.finite w : Extended) ≤ 0.0 := by
    have heq : Scalar.eq (Extended.finite w) 0.0 = true := hzero w hw
    rw [Scalar.eq, Bool.and_eq_true, decide_eq_true_iff] at heq
    exact heq.1
  rw [Extended.zero_eq, Extended.finite_le_finite] at hle
  exact absurd hle (not_le.mpr (hpos w hw))

/-- The defect on interval `k` of a sequence with the derivatives `slopes`, on a horizon of the
given length. -/
def sequenceDefect {α : Type} [Scalar α] (points : List α) (duration : α) (values slopes : List α)
    (k : Nat) : α :=
  Layout.entry values (k + 1) - Layout.entry values k
    - duration * (Layout.entry points (k + 1) - Layout.entry points k) / 2.0
      * (Layout.entry slopes k + Layout.entry slopes (k + 1))

/-- A defect vanishes only if it is made from finite values. -/
theorem finite_of_defect {u v a b duration : Extended} {g : ℚ}
    (h : v - u - duration * .finite g / 2.0 * (a + b) = 0.0) :
    ∃ u' v' a' b' r, u = .finite u' ∧ v = .finite v' ∧ a = .finite a' ∧ b = .finite b' ∧
      duration = .finite r ∧ v' - u' = r * (g / 2 * (a' + b')) := by
  rw [Extended.zero_eq] at h
  obtain ⟨step, growth, hstep, hgrowth, hdifference⟩ := Extended.sub_eq_finite h
  obtain ⟨v', u', rfl, rfl, rfl⟩ := Extended.sub_eq_finite hstep
  obtain ⟨half, slopes, hhalf, hslopes, rfl⟩ := Extended.mul_eq_finite hgrowth
  obtain ⟨a', b', rfl, rfl, rfl⟩ := Extended.add_eq_finite hslopes
  obtain ⟨interval, hinterval, rfl⟩ := Extended.half_eq_finite hhalf
  obtain ⟨r, g', rfl, hg, rfl⟩ := Extended.mul_eq_finite hinterval
  obtain rfl := Extended.finite.inj hg
  refine ⟨u', v', a', b', r, rfl, rfl, rfl, rfl, rfl, ?_⟩
  linarith

/-- A sequence without defects that starts with finite values grows by the area under its slopes. -/
theorem growth_eq_area {r x u a : ℚ} {points : List ℚ} {us as : List Extended}
    (hu : us.length = points.length) (ha : as.length = points.length)
    (h : ∀ k < points.length, sequenceDefect ((x :: points).map .finite) (.finite r)
      (.finite u :: us) (.finite a :: as) k = 0.0) :
    ∃ us' as' v, us = us'.map .finite ∧ as = as'.map .finite ∧ as'.length = points.length ∧
      (u :: us').getLast? = some v ∧ v - u = r * area (x :: points) (a :: as') := by
  induction points generalizing x u a us as with
  | nil =>
    obtain rfl := List.length_eq_zero_iff.mp hu
    obtain rfl := List.length_eq_zero_iff.mp ha
    exact ⟨[], [], u, rfl, rfl, rfl, rfl, by simp [area]⟩
  | cons y rest ih =>
    rcases us with _ | ⟨v, us⟩
    · simp at hu
    rcases as with _ | ⟨b, as⟩
    · simp at ha
    have hfirst : v - .finite u - .finite r * (.finite y - .finite x) / 2.0 *
        (.finite a + b) = 0.0 := h 0 (by simp)
    rw [finite_step] at hfirst
    obtain ⟨u', v', a', b', r', hu', rfl, ha', rfl, hr', hgrowth⟩ := finite_of_defect hfirst
    obtain rfl := Extended.finite.inj hu'
    obtain rfl := Extended.finite.inj ha'
    obtain rfl := Extended.finite.inj hr'
    obtain ⟨us', as', z, rfl, rfl, hlength, hlast, harea⟩ :=
      ih (by simpa using hu) (by simpa using ha) fun k hk => h (k + 1) (by simpa using hk)
    refine ⟨v' :: us', b' :: as', z, rfl, rfl, by simpa using hlength, ?_, ?_⟩
    · rw [List.getLast?_cons_cons, hlast]
    · rw [area, mul_add, ← harea, ← hgrowth]
      ring

theorem entry_last {α : Type} [Scalar α] {xs : List α} {x : α} (h : xs.getLast? = some x) :
    Layout.entry xs (xs.length - 1) = x := by
  rw [Layout.entry, ← List.getLast?_eq_getElem?, h, Option.getD_some]

/-- A sequence without defects grows by the weighted sum of its slopes, times the length of the
horizon. Both are finite. -/
theorem growth_eq_weightedSum {m : Mesh Extended} {qs : List ℚ} (hm : m.Grid qs)
    {duration : Extended} {values slopes : List Extended} (hvalues : values.length = m.numPoints)
    (hslopes : slopes.length = m.numPoints)
    (h : ∀ k, k + 1 < m.numPoints → sequenceDefect m.points duration values slopes k = 0.0) :
    ∃ r s, duration = .finite r ∧
      weightedSum (trapezoidalWeights m.intervals) slopes = .finite s ∧
      Layout.entry values (m.numPoints - 1) - Layout.entry values 0 = .finite (r * s) := by
  have hweights := (weights_of_grid hm).1
  obtain ⟨hpoints, htwo, -, -, -⟩ := hm
  have hcount : m.numPoints = qs.length := by rw [Mesh.numPoints, hpoints, List.length_map]
  rw [hweights, hcount]
  rw [hcount] at hvalues hslopes h
  rcases qs with _ | ⟨x, _ | ⟨y, rest⟩⟩
  · simp at htwo
  · simp at htwo
  rcases values with _ | ⟨u, us⟩
  · simp at hvalues
  rcases slopes with _ | ⟨a, as⟩
  · simp at hslopes
  rw [hpoints] at h
  have hfirst : Layout.entry us 0 - u - duration * (.finite y - .finite x) / 2.0 *
      (a + Layout.entry as 0) = 0.0 := h 0 (by simp)
  rw [finite_step] at hfirst
  obtain ⟨u', -, a', -, r, rfl, -, rfl, -, rfl, -⟩ := finite_of_defect hfirst
  obtain ⟨us', as', v, rfl, rfl, hlength, hlast, harea⟩ :=
    growth_eq_area (by simpa using hvalues) (by simpa using hslopes) fun k hk =>
      h k (by simpa using hk)
  refine ⟨r, area (x :: y :: rest) (a' :: as'), rfl, ?_, ?_⟩
  · have hproducts : ((weightsFrom 0 (x :: y :: rest)).map Extended.finite).zipWith (· * ·)
          ((a' :: as').map .finite) =
        ((weightsFrom 0 (x :: y :: rest)).zipWith (· * ·) (a' :: as')).map .finite := by
      rw [List.zipWith_map, List.map_zipWith]
      rfl
    rw [weightedSum, ← List.map_cons, hproducts, Extended.sum_finite,
      weightsFrom_sum 0 x a' hlength, zero_div, zero_mul, zero_add]
  · have hv : ((u' :: us').map Extended.finite).getLast? = some (.finite v) := by
      rw [List.getLast?_map, hlast, Option.map_some]
    rw [← hvalues, ← List.map_cons, entry_last hv, ← harea]
    exact finite_step u' v

end Transcription

end Collocation
