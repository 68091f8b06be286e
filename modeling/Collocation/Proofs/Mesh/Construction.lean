import Collocation.Proofs.Mesh
import Collocation.Proofs.Summation
import Collocation.Proofs.Values
import Mathlib.Algebra.Order.BigOperators.Group.List

/-! How meshes are made.  Points that start at zero, end at one and increase are a mesh if all are
further apart than the spacing, and only then.  Lengths of intervals give such points as soon as
they are positive, so that a mesh of given lengths exists just if no length is too small a part of
their sum. -/

namespace Collocation

namespace Mesh

open Extended

variable {m : Mesh Extended} {qs : List ℚ}

section Spacing

variable {α : Type} [Scalar α]

/-- All neighbours are further apart than the spacing. -/
def Spaced (m : Mesh α) : Prop := ∀ d ∈ m.intervals, spacing < d

instance (m : Mesh α) : Decidable m.Spaced :=
  inferInstanceAs (Decidable (∀ d ∈ m.intervals, spacing < d))

/-- The fault of points that are too close: it names the shortest interval and its length. -/
def tooClose (m : Mesh α) : Fault α :=
  let i := leastIndex m.intervals
  .mesh (.notIncreasing i (m.intervals[i]?.getD 0.0))

theorem tooClose_kind (m : Mesh α) : m.tooClose.kind = .configuration := rfl

end Spacing

theorem Grid.exists_inner (h : m.Grid qs) : ∃ inner, qs = 0 :: inner ++ [1] := by
  obtain ⟨a, inner, b, rfl⟩ := exists_ends h.two
  obtain rfl : a = 0 := Option.some.inj h.first
  obtain rfl : b = 1 := Option.some.inj (List.getLast?_concat.symm.trans h.last)
  exact ⟨inner, rfl⟩

/-- Points from zero to one that increase pass all checks but that of the spacing. -/
theorem Grid.check (h : m.Grid qs) : checkPoints (Tensor.ofList m.points) =
    if m.Spaced then .ok m.points else .error m.tooClose := by
  obtain ⟨inner, rfl⟩ := h.exists_inner
  have hrank : ¬ (Tensor.ofList m.points).rank ≠ 1 := not_not.mpr rfl
  have htwo : ¬ m.points.length < 2 := by
    rw [h.points, List.length_map]
    exact not_lt.mpr h.two
  have hfinite : m.points.all Scalar.isFinite := by
    rw [h.points]
    exact all_isFinite _
  have hends : ¬ (endTolerance < Scalar.abs (m.points.headD 0.0) ||
      endTolerance < Scalar.abs (lastPoint m.points - 1.0)) := by
    rw [Bool.or_eq_true, decide_eq_true_iff, decide_eq_true_iff, not_or, h.points]
    exact ends_iff.mpr (by norm_num)
  have hgaps : ((differences m.points).all fun d => decide (spacing < d)) ↔ m.Spaced := by
    rw [List.all_eq_true]
    exact forall₂_congr fun d _ => decide_eq_true_iff
  unfold checkPoints
  rw [if_neg hrank]
  dsimp only [Tensor.ofList]
  rw [if_neg htwo, if_pos hfinite, if_neg hends]
  simp only [hgaps]
  rfl

theorem Grid.remake (h : m.Grid qs) :
    ofTensor (Tensor.ofList m.points) = if m.Spaced then .ok m else .error m.tooClose := by
  have hwith : withEnds m.points = m.points := by
    obtain ⟨inner, rfl⟩ := h.exists_inner
    rw [h.points]
    exact withEnds_finite 0 1 inner
  rw [ofTensor, h.check]
  split_ifs
  · exact congrArg (fun points => Except.ok (Mesh.mk points)) hwith
  · rfl

section Lengths

/-- The sums of the first none, one, two, … numbers, after `start`. -/
def partialSums (start : ℚ) : List ℚ → List ℚ
  | [] => [start]
  | l :: rest => start :: partialSums (start + l) rest

theorem runningSums_finite (start : ℚ) (ls : List ℚ) :
    finite start :: runningSums (finite start) (ls.map finite) =
      (partialSums start ls).map finite := by
  induction ls generalizing start with
  | nil => rfl
  | cons l rest ih => rw [List.map_cons, runningSums, finite_add, ih, partialSums, List.map_cons]

theorem head?_partialSums (start : ℚ) (ls : List ℚ) :
    (partialSums start ls).head? = some start := by
  cases ls <;> rfl

theorem length_partialSums (start : ℚ) (ls : List ℚ) :
    (partialSums start ls).length = ls.length + 1 := by
  induction ls generalizing start with
  | nil => rfl
  | cons l rest ih => rw [partialSums, List.length_cons, ih, List.length_cons]

theorem getLast?_partialSums (start : ℚ) (ls : List ℚ) :
    (partialSums start ls).getLast? = some (start + ls.sum) := by
  induction ls generalizing start with
  | nil => simp [partialSums]
  | cons l rest ih =>
    rw [partialSums, List.getLast?_cons, ih, Option.getD_some, List.sum_cons, add_assoc]

/-- The points of given lengths lie apart by their parts of the sum. -/
theorem differences_partialSums (total start : ℚ) (ls : List ℚ) :
    differences (((partialSums start ls).map (· / total)).map finite) =
      ls.map fun l => finite (l / total) := by
  induction ls generalizing start with
  | nil => rfl
  | cons l rest ih =>
    have hrest := ih (start + l)
    have hhead := head?_partialSums (start + l) rest
    cases hsums : partialSums (start + l) rest with
    | nil => simp [hsums] at hhead
    | cons s sums =>
      rw [hsums] at hhead hrest
      obtain rfl : s = start + l := Option.some.inj hhead
      rw [partialSums, hsums, List.map_cons, List.map_cons, List.map_cons, List.map_cons,
        differences, List.map_cons, ← hrest, finite_sub]
      congr 2
      ring

/-- The mesh whose intervals are parts of one in the ratios of some lengths. -/
def partition (ls : List ℚ) : Mesh Extended := ⟨((partialSums 0 ls).map (· / ls.sum)).map finite⟩

theorem intervals_partition (ls : List ℚ) :
    (partition ls).intervals = ls.map fun l => finite (l / ls.sum) :=
  differences_partialSums ls.sum 0 ls

variable {ls : List ℚ}

theorem sum_pos_of_lengths (hne : ls ≠ []) (hpos : ∀ l ∈ ls, 0 < l) : 0 < ls.sum :=
  List.sum_pos ls hpos hne

/-- Lengths are accepted if they are a row of positive numbers, at least one. -/
theorem checkLengths_iff {t : Tensor Extended} {lengths : List Extended} :
    checkLengths t = .ok lengths ↔ t.rank = 1 ∧ t.entries = lengths ∧
      ∃ ls : List ℚ, lengths = ls.map finite ∧ ls ≠ [] ∧ ∀ l ∈ ls, 0 < l := by
  simp only [checkLengths, Except.if_throw_eq_ok, Except.unless_throw_eq_ok, Except.pure_eq_ok,
    Bool.or_eq_true, decide_eq_true_eq, not_or, not_not, ne_eq, List.any_eq_true, not_exists,
    not_and, not_lt, Tensor.isFinite]
  constructor
  · rintro ⟨⟨hrank, hlength⟩, hfinite, hpositive, rfl⟩
    obtain ⟨ls, hls⟩ := exists_rationals hfinite
    rw [hls] at hlength hpositive
    refine ⟨hrank, rfl, ls, hls, ?_, fun l hl => ?_⟩
    · rintro rfl
      exact absurd hlength (by decide)
    · have hnot := hpositive _ (List.mem_map_of_mem hl)
      rwa [zero_eq, finite_le_finite, not_le] at hnot
  · rintro ⟨hrank, rfl, ls, hls, hne, hpos⟩
    rw [hls, List.length_map]
    refine ⟨⟨hrank, List.length_pos_iff.mpr hne⟩, all_isFinite ls, fun x hx => ?_, rfl⟩
    obtain ⟨l, hl, rfl⟩ := List.mem_map.mp hx
    rw [zero_eq, finite_le_finite, not_le]
    exact hpos l hl

theorem pointsOfLengths_finite (hsum : ls.sum ≠ 0) :
    pointsOfLengths (ls.map finite) = (partition ls).points := by
  have hzero : (0.0 : Extended) / finite ls.sum = 0.0 := by
    rw [zero_eq, finite_div hsum, zero_div]
  have hdiv (qs : List ℚ) : (qs.map finite).map (· / finite ls.sum) =
      (qs.map (· / ls.sum)).map finite := by
    rw [List.map_map, List.map_map]
    exact List.map_congr_left fun q _ => finite_div hsum
  calc pointsOfLengths (ls.map finite)
      = 0.0 :: (runningSums 0.0 (ls.map finite)).map (· / finite ls.sum) := by
        rw [pointsOfLengths, Summation.pairwise_finite]
    _ = (finite 0 :: runningSums (finite 0) (ls.map finite)).map (· / finite ls.sum) := by
        rw [List.map_cons, ← zero_eq, hzero]
    _ = (partition ls).points := by rw [runningSums_finite, hdiv, partition]

theorem grid_partition (hne : ls ≠ []) (hpos : ∀ l ∈ ls, 0 < l) :
    (partition ls).Grid ((partialSums 0 ls).map (· / ls.sum)) := by
  have hsum := sum_pos_of_lengths hne hpos
  have hlength := List.length_pos_iff.mpr hne
  refine ⟨rfl, ?_, ?_, ?_, ?_⟩
  · rw [List.length_map, length_partialSums]
    omega
  · rw [List.head?_map, head?_partialSums, Option.map_some, zero_div]
  · rw [List.getLast?_map, getLast?_partialSums, Option.map_some, zero_add, div_self hsum.ne']
  · have hgaps : (differences (((partialSums 0 ls).map (· / ls.sum)).map finite)).all fun d =>
        decide (finite 0 < d) := by
      rw [differences_partialSums, List.all_map, List.all_eq_true]
      intro l hl
      exact decide_eq_true ((finite_lt_finite _ _).mpr (div_pos (hpos l hl) hsum))
    refine ((differences_iff_pairwise le_rfl).mp hgaps).imp fun hpq => ?_
    rwa [add_zero] at hpq

theorem spaced_partition (hsum : 0 < ls.sum) :
    (partition ls).Spaced ↔ ∀ l ∈ ls, 1e-12 * ls.sum < l := by
  unfold Spaced
  rw [intervals_partition, List.forall_mem_map, spacing_eq]
  exact forall₂_congr fun l _ => by rw [finite_lt_finite, lt_div_iff₀ hsum]

theorem ofForm_lengths {v : Value Extended}
    (hv : v.toTensor = .ok (Tensor.ofList (ls.map .finite))) (hne : ls ≠ [])
    (hpos : ∀ l ∈ ls, 0 < l) :
    ofForm (.lengths v) =
      if (partition ls).Spaced then .ok (partition ls) else .error (partition ls).tooClose := by
  have hsum := sum_pos_of_lengths hne hpos
  have hcheck : checkLengths (Tensor.ofList (ls.map finite)) = .ok (ls.map finite) :=
    checkLengths_iff.mpr ⟨rfl, rfl, ls, rfl, hne, hpos⟩
  rw [ofForm, ofLengths, hv]
  show (checkLengths _ >>= fun lengths => ofTensor (Tensor.ofList (pointsOfLengths lengths))) = _
  rw [hcheck]
  show ofTensor (Tensor.ofList (pointsOfLengths _)) = _
  rw [pointsOfLengths_finite hsum.ne', (grid_partition hne hpos).remake]

end Lengths

section Times

variable {a b : ℚ}

theorem differences_gridTimes (qs : List ℚ) (a b : ℚ) :
    differences ((gridTimes qs a b).map finite) =
      (differences (qs.map finite)).map (finite (b - a) * ·) := by
  induction qs with
  | nil => rfl
  | cons p rest ih =>
    cases rest with
    | nil => rfl
    | cons q rest =>
      have hstep : finite (a + (b - a) * q) - finite (a + (b - a) * p) =
          finite (b - a) * (finite q - finite p) := by
        rw [finite_sub, finite_sub, finite_mul]
        congr 1
        ring
      exact congrArg₂ List.cons hstep ih

/-- Times from `a` to `b` that increase and lie apart by the parts of the horizon which the
intervals of a mesh stand for. -/
structure Runs (m : Mesh Extended) (a b : ℚ) (ts : List ℚ) : Prop where
  first : ts.head? = some a
  last : ts.getLast? = some b
  increasing : ts.Pairwise (· < ·)
  apart : differences (ts.map finite) = m.intervals.map (finite (b - a) * ·)

theorem Grid.runs (h : m.Grid qs) (hab : a < b) : m.Runs a b (gridTimes qs a b) where
  first := h.times_ends.1
  last := h.times_ends.2
  increasing := gridTimes_increasing h.increasing hab
  apart := by rw [intervals, h.points, differences_gridTimes]

/-- The length of the horizon is the same whether it is taken before or after the ends are read. -/
theorem difference_exact (x y : Number Extended) :
    ∃ d, x.difference y = .ok d ∧ d.exact = x.exact - y.exact := by
  unfold Number.difference Number.combine
  split
  · next m n =>
    refine ⟨_, rfl, ?_⟩
    simp only [Number.exact, finite_sub]
    push_cast
    rw [sub_eq_add_neg]
  · rw [Value.scalarOfNumber_exact, Value.scalarOfNumber_exact]
    exact ⟨_, rfl, rfl⟩

theorem timesOf_numbers (m : Mesh Extended) (x y : Number Extended) :
    m.timesOf [.number x, .number y] = .ok (m.times x.exact y.exact) := by
  obtain ⟨d, hd, hexact⟩ := difference_exact y x
  have hcount : timesSignature.checkCount 2 = (.ok () : Outcome Extended Unit) :=
    timesSignature.checkCount_required
  rw [timesOf, List.length_cons, List.length_singleton, hcount]
  show (y.difference x >>= fun d => _) = _
  rw [hd]
  show (Value.scalarOfNumber d >>= fun d => _) = _
  rw [Value.scalarOfNumber_exact, Value.scalarOfNumber_exact, hexact]
  rfl

end Times

/-- Whatever a mesh is made from, its points increase from zero to one, and its times on a horizon
run from the one end to the other. Positive lengths make a mesh exactly if each is more than the
spacing times their sum, and then the intervals are the lengths over their sum. -/
theorem made_grids :
    (∀ (form : MeshForm Extended) (m : Mesh Extended), ofForm form = .ok m →
      (∃ qs, m.Grid qs) ∧
      ∀ (x y : Number Extended) (a b : ℚ), x.exact = .finite a → y.exact = .finite b → a < b →
        ∃ ts : List ℚ, m.timesOf [.number x, .number y] = .ok (ts.map .finite) ∧ m.Runs a b ts) ∧
    ∀ (v : Value Extended) (ls : List ℚ), v.toTensor = .ok (Tensor.ofList (ls.map .finite)) →
      ls ≠ [] → (∀ l ∈ ls, 0 < l) →
        ((∃ m, ofForm (.lengths v) = .ok m) ↔ ∀ l ∈ ls, 1e-12 * ls.sum < l) ∧
        (∀ m, ofForm (.lengths v) = .ok m → m.intervals = ls.map fun l => .finite (l / ls.sum)) ∧
        ((∃ l ∈ ls, l ≤ 1e-12 * ls.sum) → Raises (ofForm (.lengths v)) .configuration) := by
  refine ⟨fun form m hm => ?_, fun v ls hv hne hpos => ?_⟩
  · obtain ⟨qs, hgrid⟩ := grid_of_form hm
    refine ⟨⟨qs, hgrid⟩, fun x y a b hx hy hab => ⟨gridTimes qs a b, ?_, hgrid.runs hab⟩⟩
    rw [timesOf_numbers, hx, hy, hgrid.times_eq]
  · have hspaced := spaced_partition (sum_pos_of_lengths hne hpos)
    rw [ofForm_lengths hv hne hpos]
    split_ifs with h
    · refine ⟨iff_of_true ⟨_, rfl⟩ (hspaced.mp h), fun m hm => ?_, fun ⟨l, hl, hle⟩ => ?_⟩
      · rw [← Except.ok.inj hm, intervals_partition]
      · exact absurd (hspaced.mp h l hl) (not_lt.mpr hle)
    · exact ⟨iff_of_false nofun (mt hspaced.mpr h), nofun, fun _ => ⟨_, rfl, tooClose_kind _⟩⟩

namespace Sample

/-- Two intervals of one length and one that is twice as long, written as whole numbers. -/
def lengths : List (Number Extended) := [.int 1, .int 1, .int 2]

theorem lengths_exact : lengths.map Number.exact = ([1, 1, 2] : List ℚ).map .finite := by
  simp [lengths, Number.exact]

end Sample

theorem made_grids_sample : ∃ m, ofForm (.lengths (.list (Sample.lengths.map .number))) = .ok m ∧
    (∃ qs, m.Grid qs) ∧ m.intervals = ([1 / 4, 1 / 4, 1 / 2] : List ℚ).map .finite ∧
    ∃ ts : List ℚ, m.timesOf [.int 1, .int 9] = .ok (ts.map .finite) ∧ m.Runs 1 9 ts := by
  have hread := Value.toTensor_numbers Sample.lengths
  rw [Sample.lengths_exact] at hread
  obtain ⟨haccepted, hintervals, -⟩ := made_grids.2 _ _ hread (by simp) (by simp)
  obtain ⟨m, hm⟩ := haccepted.mpr (by norm_num)
  obtain ⟨hgrid, htimes⟩ := made_grids.1 _ m hm
  refine ⟨m, hm, hgrid, ?_, htimes (.int 1) (.int 9) 1 9 ?_ ?_ (by norm_num)⟩
  · rw [hintervals m hm]
    norm_num
  · simp [Number.exact]
  · simp [Number.exact]

end Mesh

end Collocation
