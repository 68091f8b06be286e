import Collocation.Proofs.Mesh.Construction
import Collocation.Solver

/-! Meshes that are made from the data of a mesh.  Its points, and also its intervals, give the same
mesh again as long as no two points are too close.  Points are checked before their ends are moved,
so that in a mesh that was made from points the first and the last interval may be shorter than the
spacing, by as much as the ends were moved; then the mesh cannot be made again. -/

namespace Collocation

namespace Mesh

open Extended

section Remade

variable {α : Type} [Scalar α]

/-- What the data of a mesh make: the same mesh, unless points are too close. -/
def remade (m : Mesh α) : Outcome α (Mesh α) := if m.Spaced then .ok m else .error m.tooClose

end Remade

section Steps

/-- The distances of neighbours. -/
def steps : List ℚ → List ℚ
  | p :: q :: rest => (q - p) :: steps (q :: rest)
  | _ => []

theorem differences_finite (qs : List ℚ) :
    differences (qs.map finite) = (steps qs).map finite := by
  induction qs with
  | nil => rfl
  | cons p rest ih =>
    cases rest with
    | nil => rfl
    | cons q rest =>
      rw [List.map_cons, List.map_cons, differences, ← List.map_cons, ih, steps, List.map_cons,
        finite_sub, sub_eq_add_neg]

/-- Points are the sums of their distances. -/
theorem partialSums_steps (p : ℚ) (rest : List ℚ) :
    partialSums p (steps (p :: rest)) = p :: rest := by
  induction rest generalizing p with
  | nil => rfl
  | cons q rest ih => rw [steps, partialSums, add_sub_cancel, ih]

/-- Neighbours are further apart than a distance exactly if all points are. -/
theorem forall_steps {e : ℚ} (he : 0 ≤ e) {qs : List ℚ} :
    (∀ d ∈ steps qs, e < d) ↔ qs.Pairwise fun p q => p + e < q := by
  rw [← differences_iff_pairwise he, differences_finite, List.all_map, List.all_eq_true]
  exact forall₂_congr fun d _ => by simp

theorem dropLast_steps (qs : List ℚ) (q : ℚ) : (steps (qs ++ [q])).dropLast = steps qs := by
  induction qs with
  | nil => rfl
  | cons p rest ih =>
    cases rest with
    | nil => rfl
    | cons r rest =>
      have hne : steps (r :: rest ++ [q]) ≠ [] := by cases rest <;> exact List.cons_ne_nil _ _
      show ((r - p) :: steps (r :: rest ++ [q])).dropLast = (r - p) :: steps (r :: rest)
      rw [List.dropLast_cons_of_ne_nil hne, ih]

/-- All distances but the first and the last are those of the points between the ends. -/
theorem inner_steps (p q : ℚ) (inner : List ℚ) :
    (steps (p :: inner ++ [q])).tail.dropLast = steps inner := by
  cases inner with
  | nil => rfl
  | cons r rest => exact dropLast_steps (r :: rest) q

end Steps

section Grids

variable {m : Mesh Extended} {qs : List ℚ}

theorem Grid.intervals_eq (h : m.Grid qs) : m.intervals = (steps qs).map finite := by
  rw [intervals, h.points, differences_finite]

theorem Grid.partialSums_eq (h : m.Grid qs) : partialSums 0 (steps qs) = qs := by
  obtain ⟨inner, rfl⟩ := h.exists_inner
  exact partialSums_steps 0 (inner ++ [1])

theorem Grid.sum_steps (h : m.Grid qs) : (steps qs).sum = 1 := by
  have hlast := getLast?_partialSums 0 (steps qs)
  rw [h.partialSums_eq, h.last, zero_add] at hlast
  exact (Option.some.inj hlast).symm

/-- The lengths of its intervals cut one into a mesh. -/
theorem Grid.partition_steps (h : m.Grid qs) : partition (steps qs) = m := by
  have hpoints : (partition (steps qs)).points = m.points := by
    rw [partition, h.partialSums_eq, h.sum_steps, h.points]
    simp
  exact congrArg Mesh.mk hpoints

theorem Grid.ofForm_points (h : m.Grid qs) : ofForm (.points (.ofRow m.points)) = m.remade := by
  rw [ofForm, ofValue, Value.toTensor_ofRow]
  exact h.remake

theorem Grid.ofForm_intervals (h : m.Grid qs) :
    ofForm (.lengths (.ofRow m.intervals)) = m.remade := by
  have hne : steps qs ≠ [] := by
    obtain ⟨inner, rfl⟩ := h.exists_inner
    cases inner <;> exact List.cons_ne_nil _ _
  have hread : (Value.ofRow m.intervals).toTensor =
      .ok (Tensor.ofList ((steps qs).map finite)) := by
    rw [Value.toTensor_ofRow, h.intervals_eq]
  have hpos : ∀ d ∈ steps qs, 0 < d :=
    (forall_steps le_rfl).mpr (h.increasing.imp fun hpq => by rwa [add_zero])
  rw [ofForm_lengths hread hne hpos, h.partition_steps, remade]

/-- A configuration takes the points of a mesh as the form of points does. -/
theorem Grid.chooseMesh_points (h : m.Grid qs) :
    SolverRequest.chooseMesh .none (.value (.ofRow m.points)) = m.remade := by
  rw [← h.ofForm_points]
  show (ofValue (.ofRow m.points) >>= fun m => .ok m) = ofValue (.ofRow m.points)
  cases (ofValue (.ofRow m.points) : Outcome Extended _) <;> rfl

theorem Grid.spaced_iff (h : m.Grid qs) : m.Spaced ↔ qs.Pairwise fun p q => p + 1e-12 < q := by
  rw [← forall_steps (by norm_num), Spaced, h.intervals_eq, List.forall_mem_map]
  exact forall₂_congr fun d _ => by rw [spacing_eq, finite_lt_finite]

end Grids

section Forms

variable {form : MeshForm Extended} {m : Mesh Extended} {t : Tensor Extended}

/-- Moving the ends changes the first and the last interval only, and those by no more than the
tolerance of the ends. -/
theorem nearly_spaced (h : ofTensor t = .ok m) :
    (∀ d ∈ m.intervals.tail.dropLast, spacing < d) ∧ ∀ d ∈ m.intervals, .finite 99e-14 < d := by
  obtain ⟨-, a, inner, b, -, haccepted, rfl⟩ := ofTensor_iff.mp h
  have hintervals : intervals ⟨((0 : ℚ) :: inner ++ [1]).map finite⟩ =
      (steps (0 :: inner ++ [1])).map finite := differences_finite _
  have hinner : inner.Pairwise fun p q => p + 1e-12 < q :=
    (List.pairwise_append.mp haccepted.spaced).1.of_cons
  rw [hintervals, ← List.map_tail, ← List.map_dropLast, inner_steps, List.forall_mem_map,
    List.forall_mem_map]
  refine ⟨fun d hd => ?_, fun d hd => ?_⟩
  · rw [spacing_eq, finite_lt_finite]
    exact (forall_steps (by norm_num)).mpr hinner d hd
  · rw [finite_lt_finite]
    exact (forall_steps (by norm_num)).mpr haccepted.apart d hd

/-- Points whose ends did not have to be moved are as far apart as they were when checked. -/
theorem spaced_of_kept (h : ofTensor t = .ok m) (hkept : t.entries = m.points) : m.Spaced := by
  obtain ⟨-, a, inner, b, hentries, haccepted, rfl⟩ := ofTensor_iff.mp h
  have hsame : a :: inner ++ [b] = 0 :: inner ++ [1] :=
    List.map_injective_iff.mpr (fun _ _ => finite.inj) (hentries.symm.trans hkept)
  rw [haccepted.grid.spaced_iff, ← hsame]
  exact haccepted.spaced

theorem kept_of_ends {inner : List Extended} (h : ofTensor t = .ok m)
    (hends : t.entries = 0.0 :: inner ++ [1.0]) : t.entries = m.points := by
  obtain ⟨points, hcheck, rfl⟩ := Except.map_eq_ok.mp h
  obtain ⟨-, rfl, -⟩ := checkPoints_iff.mp hcheck
  show t.entries = 0.0 :: (t.entries.drop 1).dropLast ++ [1.0]
  rw [hends, List.cons_append, List.drop_one, List.tail_cons, List.dropLast_concat]
  rfl

theorem spaced_of_uniform {count : Value Extended} (h : ofForm (.uniform count) = .ok m) :
    m.Spaced := by
  simp only [ofForm, uniform, Except.bind_eq_ok] at h
  obtain ⟨n, -, -, -, h⟩ := h
  cases hn : n.toNat - 1 with
  | zero =>
    obtain ⟨-, a, inner, b, hentries, -⟩ := ofTensor_iff.mp h
    have hlength := congrArg List.length hentries
    simp [Tensor.ofList, equalPoints, hn] at hlength
  | succ k =>
    have hfirst : (Scalar.ofNat 0 : Extended) * (1.0 / Scalar.ofNat (k + 1)) = 0.0 := by
      rw [one_eq, ofNat_finite, ofNat_finite, finite_div (by positivity), finite_mul, zero_eq]
      simp
    have hends : (Tensor.ofList (equalPoints n.toNat)).entries = (0.0 : Extended) ::
        ((List.range k).map Nat.succ).map (fun i => Scalar.ofNat i * (1.0 / Scalar.ofNat (k + 1)))
          ++ [1.0] := by
      simp only [Tensor.ofList, equalPoints, hn, List.range_succ_eq_map, List.map_cons, hfirst]
    exact spaced_of_kept h (kept_of_ends h hends)

theorem spaced_of_lengths {lengths : Value Extended} (h : ofForm (.lengths lengths) = .ok m) :
    m.Spaced := by
  simp only [ofForm, ofLengths, Except.bind_eq_ok] at h
  obtain ⟨t, -, _, hcheck, h⟩ := h
  obtain ⟨-, -, ls, rfl, hne, hpos⟩ := checkLengths_iff.mp hcheck
  have hsum := sum_pos_of_lengths hne hpos
  rw [pointsOfLengths_finite hsum.ne', (grid_partition hne hpos).remake] at h
  split_ifs at h with hspaced
  exact Except.ok.inj h ▸ hspaced

end Forms

/-- A mesh has the points of its own data: made from its points or from its intervals it is the same
mesh, unless two of its points are too close. Those can only be the first two and the last two, are
too close by less than the tolerance of the ends, and are so in no mesh but one that was made from
points and did not keep them. -/
theorem rebuilt {form : MeshForm Extended} {m : Mesh Extended} (h : ofForm form = .ok m) :
    (ofForm (.points (.ofRow m.points)) = m.remade ∧
      ofForm (.lengths (.ofRow m.intervals)) = m.remade ∧
      SolverRequest.chooseMesh .none (.value (.ofRow m.points)) = m.remade) ∧
    (∀ d ∈ m.intervals.tail.dropLast, spacing < d) ∧ (∀ d ∈ m.intervals, .finite 99e-14 < d) ∧
    ((∀ v t, form = .points v → v.toTensor = .ok t → t.entries = m.points) → m.Spaced) := by
  obtain ⟨qs, hgrid⟩ := grid_of_form h
  obtain ⟨t, ht⟩ := exists_tensor h
  obtain ⟨hinner, hall⟩ := nearly_spaced ht
  refine ⟨⟨hgrid.ofForm_points, hgrid.ofForm_intervals, hgrid.chooseMesh_points⟩, hinner, hall,
    fun hkept => ?_⟩
  cases form with
  | uniform count => exact spaced_of_uniform h
  | lengths lengths => exact spaced_of_lengths h
  | points v =>
    obtain ⟨t, hv, ht⟩ := Except.bind_eq_ok.mp h
    exact spaced_of_kept ht (hkept v t rfl hv)

theorem rebuilt_sample : ∃ m, ofForm (.lengths (.list (Sample.lengths.map .number))) = .ok m ∧
    ofForm (.points (.ofRow m.points)) = .ok m ∧ ofForm (.lengths (.ofRow m.intervals)) = .ok m ∧
    SolverRequest.chooseMesh .none (.value (.ofRow m.points)) = .ok m := by
  have hread := Value.toTensor_numbers Sample.lengths
  rw [Sample.lengths_exact] at hread
  have hspaced : (partition [1, 1, 2]).Spaced := (spaced_partition (by norm_num)).mpr (by norm_num)
  have hm := ofForm_lengths hread (by simp) (by simp)
  rw [if_pos hspaced] at hm
  obtain ⟨⟨hpoints, hintervals, hchosen⟩, -, -, hkept⟩ := rebuilt hm
  have hremade : remade _ = .ok _ := if_pos (hkept nofun)
  rw [hremade] at hpoints hintervals hchosen
  exact ⟨_, hm, hpoints, hintervals, hchosen⟩

namespace Sample

/-- Points of which the first is moved towards the second. -/
def shifted : List ℚ := [-1e-14, 995e-15, 1]

theorem shifted_accepted : Accepted (-1e-14) [995e-15] 1 := by
  refine ⟨by norm_num [abs_le], by norm_num, ?_⟩
  norm_num

end Sample

/-- The points of this mesh are not accepted, and its intervals are not accepted as lengths. -/
theorem not_rebuilt : ∃ m, ofForm (.points (.ofRow (Sample.shifted.map finite))) = .ok m ∧
    m.points = ([0, 995e-15, 1] : List ℚ).map finite ∧
    Raises (ofForm (.points (.ofRow m.points))) .configuration ∧
    Raises (ofForm (.lengths (.ofRow m.intervals))) .configuration ∧
    Raises (SolverRequest.chooseMesh .none (.value (.ofRow m.points))) .configuration := by
  obtain ⟨m, hm⟩ : ∃ m : Mesh Extended, m = ⟨([0, 995e-15, 1] : List ℚ).map finite⟩ := ⟨_, rfl⟩
  have hgrid : m.Grid [0, 995e-15, 1] := hm ▸ Sample.shifted_accepted.grid
  have hspaced : ¬ m.Spaced := by
    rw [hgrid.spaced_iff]
    norm_num
  have hremade : Raises m.remade .configuration := by
    rw [remade, if_neg hspaced]
    exact ⟨_, rfl, tooClose_kind m⟩
  refine ⟨m, ?_, hgrid.points, ?_, ?_, ?_⟩
  · rw [ofForm, ofValue, Value.toTensor_ofRow]
    exact ofTensor_iff.mpr ⟨rfl, _, _, _, rfl, Sample.shifted_accepted, hm⟩
  · rwa [hgrid.ofForm_points]
  · rwa [hgrid.ofForm_intervals]
  · rwa [hgrid.chooseMesh_points]

end Mesh

end Collocation
