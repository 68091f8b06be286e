import Collocation.Proofs.Guess.Corruption
import Collocation.Proofs.Values

/-! Solutions as guesses.  A solution with multipliers at some of its points becomes a guess with
multipliers at all of its times.  All of its rows are samples at its times then, so only two things
are left to be refused: times that do not increase as they are rounded, and multipliers that have
become infinite on the way. -/

namespace Collocation

namespace Guess

variable {α : Type} [Scalar α]

/-- The guess that a solution is turned into. -/
def again (S : Solution α) : Guess α where
  times := .ofRow S.times
  states := .ofRows S.states
  controls := .ofRows S.controls
  multipliers := if S.multiplierIndices.isEmpty then .none else .ofRows S.multipliers
  parameters := .ofRow S.parameters
  initialTime := .real S.initialTime
  finalTime := .real S.finalTime

/-! ### Multipliers at some points -/

section Spread

variable {S : Solution α} {ks : List Nat}

/-- A solution whose multipliers at the points `ks` are resampled to all of its times; without such
points it stays as it is. -/
def spread (S : Solution α) (ks : List Nat) : Solution α :=
  if ks.isEmpty then S
  else { S with
    multipliers := Interpolation.resample (ks.filterMap (S.times[·]?)) S.multipliers
      S.names.multipliers.length S.times
    multiplierIndices := Selection.positions S.numPoints }

@[simp] theorem spread_times (S : Solution α) (ks : List Nat) :
    (spread S ks).times = S.times := by
  unfold spread
  split_ifs <;> rfl

@[simp] theorem spread_parameters (S : Solution α) (ks : List Nat) :
    (spread S ks).parameters = S.parameters := by
  unfold spread
  split_ifs <;> rfl

@[simp] theorem spread_initialTime (S : Solution α) (ks : List Nat) :
    (spread S ks).initialTime = S.initialTime := by
  unfold spread
  split_ifs <;> rfl

@[simp] theorem spread_finalTime (S : Solution α) (ks : List Nat) :
    (spread S ks).finalTime = S.finalTime := by
  unfold spread
  split_ifs <;> rfl

/-- The times of multipliers at the points `ks`. -/
theorem multiplierTimes_eq (hindices : S.multiplierIndices = ks.map fun (k : Nat) => .int k)
    (hks : ∀ k ∈ ks, k < S.numPoints) (hcountable : (S.numPoints : Int) ≤ Tensor.countable) :
    S.multiplierTimes = .ok (ks.filterMap (S.times[·]?)) := by
  have hplaces : S.multiplierPlaces = .ok ⟨[ks.length], ks, false⟩ := by
    rw [Solution.multiplierPlaces, hindices]
    exact Selection.ofItems_ints hks hcountable
  have hlength : (ks.filterMap (S.times[·]?)).length = S.multiplierIndices.length := by
    rw [filterMap_getElem? hks 0.0, hindices, List.length_map, List.length_map]
  rw [Solution.multiplierTimes, hplaces]
  exact if_pos hlength

/-- The guess that a solution is turned into has its multipliers at all times, wherever they were
before. -/
theorem ofSolution_spread (hindices : S.multiplierIndices = ks.map fun (k : Nat) => .int k)
    (hks : ∀ k ∈ ks, k < S.numPoints) (hcountable : (S.numPoints : Int) ≤ Tensor.countable) :
    ofSolution S = .ok (again (spread S ks)) := by
  cases hempty : ks.isEmpty with
  | true =>
    have hnone : S.multiplierIndices.isEmpty = true := by rwa [hindices, List.isEmpty_map]
    simp only [ofSolution, resampledMultipliers, hnone, ↓reduceIte, spread, hempty, again, bind,
      Except.bind, pure, Except.pure]
  | false =>
    have hsome : S.multiplierIndices.isEmpty = false := by rwa [hindices, List.isEmpty_map]
    have htimes := multiplierTimes_eq hindices hks hcountable
    have hall : (Selection.positions S.numPoints : List (Value α)).isEmpty = false := by
      obtain ⟨k, hk⟩ := List.isEmpty_eq_false_iff_exists_mem.mp hempty
      have hpos := Nat.zero_lt_of_lt (hks k hk)
      simpa [Selection.positions] using Nat.ne_of_gt hpos
    simp only [ofSolution, resampledMultipliers, hsome, htimes, spread, hempty, again, hall,
      Bool.false_eq_true, ↓reduceIte, bind, Except.bind, pure, Except.pure]

end Spread

/-! ### Rows at all times -/

theorem sampleRows_ofRows (name : String) {rows : List (List α)} {samples width : Nat}
    (hne : rows ≠ []) (hlength : rows.length = samples) (hwidth : ∀ row ∈ rows, row.length = width)
    (hfinite : ∀ row ∈ rows, ∀ x ∈ row, Scalar.isFinite x) :
    sampleRows name samples width (.ofRows rows) = .ok rows := by
  have hall : Check.finiteEntries rows.flatten ("Initial guess " ++ name) "initial guess" =
      .ok () := by
    refine if_pos (List.all_eq_true.mpr fun x hx => ?_)
    obtain ⟨row, hrow, hx⟩ := List.mem_flatten.mp hx
    exact hfinite row hrow x hx
  have hcut : Tensor.rowsOf width samples rows.flatten = rows :=
    hlength ▸ Tensor.rowsOf_flatten hwidth
  rw [sampleRows, Value.toTensor_ofRows hne hwidth]
  simp [bind, Except.bind, pure, Except.pure, Tensor.ofRows, Tensor.rank, hlength, hall, hcut]

/-- The rows of a solution are samples at its times. -/
structure Sampled (S : Solution α) (d : Dimensions) : Prop where
  two : 2 ≤ S.times.length
  states : Rows S.states S.times d.states
  controls : Rows S.controls S.times d.controls
  finiteStates : ∀ row ∈ S.states, ∀ x ∈ row, Scalar.isFinite x
  finiteControls : ∀ row ∈ S.controls, ∀ x ∈ row, Scalar.isFinite x
  parameters : S.parameters.length = d.parameters
  multipliers : S.multiplierIndices = [] ∨ Rows S.multipliers S.times d.multipliers

/-- A solution can be used as a guess: no difference of its times is rounded to zero or below, and
the multipliers that the layout takes up are finite. -/
structure Usable (S : Solution α) (l : Layout α) : Prop where
  times : ∀ d ∈ Mesh.differences S.times, ¬ d ≤ 0.0
  multipliers : S.multiplierIndices ≠ [] → l.constrained ≠ [] →
    ∀ row ∈ S.multipliers, ∀ x ∈ row, Scalar.isFinite x

/-- The content of a solution, resampled from some fractions of the way to the points of a mesh. -/
def resampled (S : Solution α) (fractions : List α) (l : Layout α) (m : Mesh α)
    (base : Trajectory α) : Trajectory α where
  states := Interpolation.resample fractions S.states l.sizes.states m.points
  controls := Interpolation.resample fractions S.controls l.sizes.controls m.points
  multipliers :=
    if S.multiplierIndices.isEmpty || l.constrained.isEmpty then base.multipliers
    else Interpolation.resample fractions S.multipliers l.sizes.multipliers (constrainedPoints l m)
  initialTime := S.initialTime
  finalTime := S.finalTime
  parameters := S.parameters

section Sampled

variable {S : Solution α} {d : Dimensions} {l : Layout α} {m : Mesh α} {base : Trajectory α}
  (hS : Sampled S d)
include hS

theorem Sampled.ne_nil {rows : List (List α)} {width : Nat} (h : Rows rows S.times width) :
    rows ≠ [] := by
  have htwo := hS.two
  rintro rfl
  have hlength := h.length
  rw [List.length_nil] at hlength
  omega

/-- The fields of the guess are arrays. -/
theorem Sampled.arrays : (again S).Arrays where
  times := ⟨_, congrArg (Except.map some) (Value.toTensor_ofRow S.times)⟩
  states := ⟨_, congrArg (Except.map some)
    (Value.toTensor_ofRows (hS.ne_nil hS.states) hS.states.widths)⟩
  controls := ⟨_, congrArg (Except.map some)
    (Value.toTensor_ofRows (hS.ne_nil hS.controls) hS.controls.widths)⟩
  multipliers := by
    rw [again]
    dsimp only
    rcases hS.multipliers with hnone | hrows
    · rw [hnone]
      exact ⟨none, rfl⟩
    · split_ifs
      · exact ⟨none, rfl⟩
      · exact ⟨_, congrArg (Except.map some) (Value.toTensor_ofRows (hS.ne_nil hrows) hrows.widths)⟩
  parameters := ⟨_, congrArg (Except.map some) (Value.toTensor_ofRow S.parameters)⟩

/-- Rows of a solution are resampled from the fractions of its times. -/
theorem Sampled.placed_ofRows (name : String) {rows : List (List α)} (rest : List (List α))
    {width : Nat} (points : List α) (h : Rows rows S.times width)
    (hfinite : ∀ row ∈ rows, ∀ x ∈ row, Scalar.isFinite x) :
    placed name S.times width points (.ofRows rows) rest =
      .ok (Interpolation.resample (normalized S.times) rows width points) := by
  have hrows := sampleRows_ofRows name (hS.ne_nil h) h.length h.widths hfinite
  unfold placed
  split
  · next hnone => cases hnone
  · rw [hrows]
    rfl

section Used

variable (m base) (husable : Usable S l) (hd : l.sizes = d)
include husable hd

theorem Sampled.placed_multipliers :
    placed "multipliers" S.times l.sizes.multipliers (constrainedPoints l m)
      (if l.constrained.isEmpty then .none else (again S).multipliers) base.multipliers =
        .ok (resampled S (normalized S.times) l m base).multipliers := by
  subst hd
  -- Where the solution or the layout has no multipliers, the default ones stay.
  cases hindices : S.multiplierIndices.isEmpty with
  | true =>
    simp only [again, resampled, hindices, ↓reduceIte, ite_self, Bool.true_or]
    rfl
  | false =>
    cases hl : l.constrained.isEmpty with
    | true =>
      simp only [resampled, hl, ↓reduceIte, Bool.or_true]
      rfl
    | false =>
      have hsome : S.multiplierIndices ≠ [] := by
        rintro hnone
        rw [hnone] at hindices
        cases hindices
      have hne : l.constrained ≠ [] := by
        rintro hnone
        rw [hnone] at hl
        cases hl
      simp only [again, resampled, hl, hindices, Bool.false_eq_true, ↓reduceIte, Bool.or_false]
      exact hS.placed_ofRows _ _ _ (hS.multipliers.resolve_left hsome)
        (husable.multipliers hsome hne)

theorem Sampled.trajectories_eq (hks : ∀ k ∈ l.constrained, k < m.numPoints) :
    (again S).trajectories l m base = .ok { resampled S (normalized S.times) l m base with
      parameters := base.parameters
      initialTime := S.times.headD 0.0
      finalTime := Mesh.lastPoint S.times } := by
  have htimes : (again S).times.toVector = .ok S.times := Value.toVector_ofRow _
  have hcheck : checkTimes S.times = .ok () := checkTimes_iff.mpr ⟨hS.two, husable.times⟩
  have hx : placed "states" S.times l.sizes.states m.points (again S).states base.states = _ :=
    hS.placed_ofRows "states" base.states m.points (hd ▸ hS.states) hS.finiteStates
  have hu : placed "controls" S.times l.sizes.controls m.points (again S).controls
      base.controls = _ :=
    hS.placed_ofRows "controls" base.controls m.points (hd ▸ hS.controls) hS.finiteControls
  have hmultipliers := hS.placed_multipliers m base husable hd
  have hpoints := checkConstrained_eq hks
  unfold trajectories
  split
  · next hnone => cases hnone
  · simp only [bind, Except.bind, pure, Except.pure, htimes, hcheck, hx, hu, hmultipliers, hpoints]
    rfl

theorem Sampled.content_eq (hks : ∀ k ∈ l.constrained, k < m.numPoints) :
    (again S).content l m base = .ok (resampled S (normalized S.times) l m base) := by
  have hparameters : overrideParameters (again S).parameters base.parameters =
      .ok S.parameters := Value.toVector_ofRow _
  rw [content, hS.trajectories_eq m base husable hd hks, hparameters]
  rfl

end Used

/-- What is resampled onto a mesh has a row for each of its points. -/
theorem Sampled.fills (hd : l.sizes = d) (fractions : List α)
    (hbase : base.Fills m.numPoints d l.constrained) :
    (resampled S fractions l m base).Fills m.numPoints d l.constrained := by
  have hmultipliers : Rows (resampled S fractions l m base).multipliers (constrainedPoints l m)
      d.multipliers := by
    rw [resampled]
    dsimp only
    split_ifs
    · exact ⟨hbase.multipliers.trans (List.length_map _).symm, hbase.multiplierRows⟩
    · exact ⟨Interpolation.length_resample _ _ _ _,
        fun _ hrow => hd ▸ Interpolation.length_of_mem_resample hrow⟩
  exact ⟨Interpolation.length_resample _ _ _ _,
    fun _ hrow => hd ▸ Interpolation.length_of_mem_resample hrow,
    Interpolation.length_resample _ _ _ _,
    fun _ hrow => hd ▸ Interpolation.length_of_mem_resample hrow,
    hmultipliers.length.trans (List.length_map _), hmultipliers.widths, hS.parameters⟩

/-- A solution that can be used stands for its resampled content, moved into the bounds. -/
theorem Sampled.vector_eq {a : Arrangement α} (h : l.Arranged m.numPoints d l.constrained a)
    (hks : ∀ k ∈ l.constrained, k < m.numPoints) (husable : Usable S l) :
    (again S).vector l m = .ok (l.clip (l.join
      (resampled S (normalized S.times) l m (l.trajectoryOf (default l))))) := by
  have hcontent := hS.content_eq m (l.trajectoryOf (default l)) husable h.sizes hks
  exact Guess.vector_eq h hcontent (hS.fills h.sizes _ (h.fills hks (length_default l)))

/-- What makes a vector can be used. -/
theorem Sampled.usable_of_vector {w : List α} (hw : (again S).vector l m = .ok w) :
    Usable S l := by
  simp only [vector, content, Except.bind_eq_ok] at hw
  obtain ⟨base, -, -, ⟨t, ht, -⟩, -⟩ := hw
  rcases trajectories_parts ht with ⟨hnone, -⟩ | ⟨times, hplaced⟩
  · cases hnone
  obtain rfl : S.times = times :=
    Except.ok.inj ((Value.toVector_ofRow S.times).symm.trans hplaced.read)
  refine ⟨(checkTimes_iff.mp hplaced.accepted).2, fun hsome hne => ?_⟩
  have hrows := hS.multipliers.resolve_left hsome
  have hmultipliers := hplaced.multipliers
  rw [again, if_neg (mt List.isEmpty_iff.mp hne), if_neg (mt List.isEmpty_iff.mp hsome)]
    at hmultipliers
  obtain ⟨samples, hsamples, -⟩ := Except.bind_eq_ok.mp hmultipliers
  obtain ⟨t', ht', hfinite, -⟩ := sampleRows_entries hsamples
  rw [Value.toTensor_ofRows (hS.ne_nil hrows) hrows.widths] at ht'
  obtain rfl := Except.ok.inj ht'
  exact fun row hrow x hx => hfinite x (List.mem_flatten.mpr ⟨row, hrow, hx⟩)

/-- A solution that cannot be used is refused as corrupt data. -/
theorem Sampled.vector_refused (hks : ∀ k ∈ l.constrained, k < m.numPoints)
    (h : ¬ Usable S l) : Raises ((again S).vector l m) .dataIntegrity := by
  cases hv : (again S).vector l m with
  | ok w => exact absurd (hS.usable_of_vector hv) h
  | error f =>
    refine ⟨f, rfl, ?_⟩
    rcases vector_error hS.arrays hv with hkind | ⟨k, hk, hbeyond, -⟩ | ⟨-, hread⟩ | ⟨-, hread⟩
    · exact hkind
    · exact absurd (hks k hk) (Nat.not_lt.mpr hbeyond)
    · cases hread
    · cases hread

end Sampled

end Guess

end Collocation
