import Collocation.Proofs.Layout.Contents
import Collocation.Proofs.Layout.Produced

/-! Reading a vector and putting one together undo each other.  Both go through the pieces of a
trajectory in the order of their places: assembling concatenates them, and splitting finds each
piece at its place. -/

namespace Collocation

variable {α : Type} [Scalar α]

/-- An array has the shape of a matrix, or it is a scalar or flat and has as many entries. -/
def Tensor.StandsFor {β : Type} (t : Tensor β) (height width : Nat) : Prop :=
  t.shape = [height, width] ∨ t.rank ≤ 1 ∧ t.size = height * width

namespace Layout

section Join

variable {l : Layout α} {n : Nat} {d : Dimensions} {ks : List Nat} {a : Arrangement α}
  {tr : Trajectory α} {w : List α}

omit [Scalar α] in
/-- The entries of the last `m` points. The constrained points before `k` have used up as many rows
of multipliers. -/
theorem pointEntries_eq {xs us : List (List α)} (ms : List (List α)) (before rest : List Nat)
    {k m : Nat} (hx : xs.length = k + m) (hu : us.length = k + m) (hbefore : ∀ j ∈ before, j < k)
    (hrest : ∀ j ∈ rest, k ≤ j) (hsorted : rest.Pairwise (· < ·)) :
    pointEntries (before ++ rest) k (xs.drop k) (us.drop k) (ms.drop before.length) =
      (List.range' k m).flatMap fun j => xs[j]?.getD [] ++ us[j]?.getD [] ++
        if (before ++ rest).contains j then ms[(before ++ rest).idxOf j]?.getD [] else [] := by
  induction m generalizing k before rest with
  | zero =>
    rw [List.drop_eq_nil_of_le (by omega), List.range'_zero, List.flatMap_nil]
    rfl
  | succ m ih =>
    have hxk : k < xs.length := by omega
    have huk : k < us.length := by omega
    have hnot : k ∉ before := fun hmem => Nat.lt_irrefl k (hbefore k hmem)
    rw [List.drop_eq_getElem_cons hxk, List.drop_eq_getElem_cons huk, List.range'_succ,
      List.flatMap_cons, pointEntries, List.getElem?_eq_getElem hxk, List.getElem?_eq_getElem huk,
      Option.getD_some, Option.getD_some]
    by_cases hk : k ∈ rest
    · -- The first of the points that are left is `k`.
      obtain ⟨j, rest, rfl⟩ := List.exists_cons_of_ne_nil (List.ne_nil_of_mem hk)
      obtain ⟨hj, hsorted⟩ := List.pairwise_cons.mp hsorted
      obtain rfl : j = k := by
        rcases List.mem_cons.mp hk with rfl | hmem
        · rfl
        · have := hj k hmem
          have := hrest j (by simp)
          omega
      have hnext := ih (before ++ [j]) rest (k := j + 1) (by omega) (by omega)
        (fun i hi => by
          rcases List.mem_append.mp hi with hi | hi
          · exact Nat.lt_succ_of_lt (hbefore i hi)
          · obtain rfl := List.mem_singleton.mp hi
            exact Nat.lt_succ_self i)
        (fun i hi => hj i hi) hsorted
      rw [List.append_assoc, List.singleton_append, List.length_append, List.length_singleton]
        at hnext
      have hindex : (before ++ j :: rest).idxOf j = before.length := by
        rw [List.idxOf_append_of_notMem hnot, List.idxOf_cons_self, Nat.add_zero]
      rw [if_pos (by simp), if_pos (by simp), hindex, List.tail_drop, hnext,
        List.headD_eq_head?_getD, List.head?_drop]
    · have hmem : (before ++ rest).contains k = false := by simp [hnot, hk]
      have hlt (j : Nat) (hj : j ∈ rest) : k + 1 ≤ j := by
        have := hrest j hj
        rcases Nat.lt_or_eq_of_le this with hlt | rfl
        · exact hlt
        · exact absurd hj hk
      rw [hmem, if_neg Bool.false_ne_true, if_neg Bool.false_ne_true, List.append_nil,
        ih before rest (by omega) (by omega) (fun i hi => Nat.lt_succ_of_lt (hbefore i hi)) hlt
          hsorted]

omit [Scalar α] in
/-- What is put together for the points is taken from the rows. -/
theorem mem_pointEntries {constrained : List Nat} {k : Nat} {xs us ms : List (List α)} {x : α}
    (hx : x ∈ pointEntries constrained k xs us ms) :
    (∃ row ∈ xs, x ∈ row) ∨ (∃ row ∈ us, x ∈ row) ∨ ∃ row ∈ ms, x ∈ row := by
  fun_induction pointEntries constrained k xs us ms with
  | case1 k row xs u us ms hk ih =>
    simp only [List.mem_append] at hx
    rcases hx with ((hx | hx) | hx) | hx
    · exact .inl ⟨row, by simp, hx⟩
    · exact .inr (.inl ⟨u, by simp, hx⟩)
    · cases ms with
      | nil => cases hx
      | cons m ms => exact .inr (.inr ⟨m, by simp, hx⟩)
    · rcases ih hx with ⟨r, hr, hx⟩ | ⟨r, hr, hx⟩ | ⟨r, hr, hx⟩
      · exact .inl ⟨r, by simp [hr], hx⟩
      · exact .inr (.inl ⟨r, by simp [hr], hx⟩)
      · exact .inr (.inr ⟨r, List.mem_of_mem_tail hr, hx⟩)
  | case2 k row xs u us ms hk ih =>
    simp only [List.mem_append] at hx
    rcases hx with (hx | hx) | hx
    · exact .inl ⟨row, by simp, hx⟩
    · exact .inr (.inl ⟨u, by simp, hx⟩)
    · rcases ih hx with ⟨r, hr, hx⟩ | ⟨r, hr, hx⟩ | hms
      · exact .inl ⟨r, by simp [hr], hx⟩
      · exact .inr (.inl ⟨r, by simp [hr], hx⟩)
      · exact .inr (.inr hms)
  | case3 => cases hx

variable (h : l.Arranged n d l.constrained a)
include h

theorem Arranged.join_eq (hsorted : l.constrained.Pairwise (· < ·))
    (htr : tr.Fills n d l.constrained) : l.join tr = (l.pieces tr).flatten := by
  have hx : tr.states.length = 0 + n := by rw [htr.states, Nat.zero_add]
  have hu : tr.controls.length = 0 + n := by rw [htr.controls, Nat.zero_add]
  have hpoints := pointEntries_eq tr.multipliers [] l.constrained hx hu (by simp) (by simp) hsorted
  simp only [List.nil_append, List.length_nil, List.drop_zero] at hpoints
  rw [join, hpoints, pieces, List.flatten_append, h.points, ← List.range_eq_range']
  congr 1
  · rw [List.flatMap_def, List.flatMap_def, List.flatten_flatten, List.map_map]
    congr 1
    refine List.map_congr_left fun k _ => ?_
    rw [Function.comp, pointPieces]
    split_ifs <;> simp
  · simp [globalPieces]

theorem Arranged.split_join (hks : ∀ k ∈ l.constrained, k < n)
    (hsorted : l.constrained.Pairwise (· < ·)) (htr : tr.Fills n d l.constrained) :
    l.split (l.join tr) = .ok tr := by
  rw [h.join_eq hsorted htr]
  exact h.split_pieces htr hks (hsorted.imp Nat.ne_of_lt)

/-- The times and the parameters stand behind all points, where the layout has them. -/
theorem Arranged.length_pointEntries (hsorted : l.constrained.Pairwise (· < ·))
    (hks : ∀ k ∈ l.constrained, k < n) (htr : tr.Fills n d l.constrained) :
    (pointEntries l.constrained 0 tr.states tr.controls tr.multipliers).length =
      l.initialTimeIndex := by
  have hlength := (split_eq_ok.mp (h.split_join hks hsorted htr)).1
  have hsize : l.initialTimeIndex + 2 + d.parameters = l.size := by
    have hlast : l.places.getLast? = some l.parameterRange := by simp [places, globalPlaces]
    rw [← h.sizes]
    exact h.tiles.stop_of_getLast? hlast
  rw [join, List.length_append, List.length_cons, List.length_cons, htr.parameters, ← hsize]
    at hlength
  omega

/-- Other times change no other entries. -/
theorem Arranged.join_times (hsorted : l.constrained.Pairwise (· < ·))
    (hks : ∀ k ∈ l.constrained, k < n) (htr : tr.Fills n d l.constrained) (t0 tf : α) {i : Nat}
    (hinitial : i ≠ l.initialTimeIndex) (hfinal : i ≠ l.finalTimeIndex) :
    (l.join { tr with initialTime := t0, finalTime := tf })[i]? = (l.join tr)[i]? := by
  have hlength := h.length_pointEntries hsorted hks htr
  have hi : i < l.initialTimeIndex ∨ l.initialTimeIndex + 2 ≤ i := by
    rw [finalTimeIndex] at hfinal
    omega
  unfold join
  dsimp only
  rcases hi with hi | hi
  · rw [List.getElem?_append_left (hlength ▸ hi), List.getElem?_append_left (hlength ▸ hi)]
  · obtain ⟨j, rfl⟩ := Nat.exists_eq_add_of_le hi
    have hj : l.initialTimeIndex + 2 + j =
        (pointEntries l.constrained 0 tr.states tr.controls tr.multipliers).length + (j + 2) := by
      omega
    rw [hj, List.getElem?_append_right (Nat.le_add_right _ _),
      List.getElem?_append_right (Nat.le_add_right _ _), Nat.add_sub_cancel_left]
    rfl

/-- The parts of the content of a vector are what stands at the places. -/
theorem Arranged.pieces_trajectoryOf (hw : w.length = l.size) :
    l.pieces (l.trajectoryOf w) = l.places.map (·.of w) := by
  have hpieces : List.Forall₂ (fun r p => p = r.of w) l.places (l.pieces (l.trajectoryOf w)) := by
    obtain ⟨hinitial, hfinal⟩ := h.times_of hw
    refine forall₂_pieces.mpr
      ⟨fun k hk => ⟨?_, ?_, fun hmem => ?_⟩, hinitial.symm, hfinal.symm, rfl⟩
    · simp [trajectoryOf, statePlace_of, hk]
    · simp [trajectoryOf, controlPlace_of, hk]
    · have hindex := List.idxOf_lt_length_of_mem hmem
      simp [trajectoryOf, multiplierPlace_of, List.getElem?_map, List.getElem?_eq_getElem hindex]
  exact List.forall₂_eq_eq_eq ▸ List.forall₂_map_right_iff.mpr hpieces.flip

theorem Arranged.join_trajectoryOf (hsorted : l.constrained.Pairwise (· < ·))
    (hks : ∀ k ∈ l.constrained, k < n) (hw : w.length = l.size) :
    l.join (l.trajectoryOf w) = w := by
  rw [h.join_eq hsorted (h.fills hks hw), h.pieces_trajectoryOf hw, ← List.flatMap_def,
    h.tiles.flatMap_of hw.symm, List.drop_zero]

end Join

/-! ### Arrays -/

/-- The arrays have an entry for each variable of their sort. -/
structure Accepts (l : Layout α) (states controls : Tensor α)
    (multipliers parameters : Option (Tensor α)) : Prop where
  states : states.StandsFor l.points l.sizes.states
  controls : controls.StandsFor l.points l.sizes.controls
  multipliers : ∀ t ∈ multipliers, t.StandsFor l.constrained.length l.sizes.multipliers
  parameters : ∀ t ∈ parameters, t.size = l.sizes.parameters

omit [Scalar α] in
theorem rowsOf_eq_ok {name : String} {height width : Nat} {t : Tensor α} {rows : List (List α)} :
    rowsOf name height width t = .ok rows ↔
      t.StandsFor height width ∧ Tensor.rowsOf width height t.entries = rows := by
  have hiff : (t.size = height * width ∧ t.rank ≤ 1) ∨ t.shape = [height, width] ↔
      t.StandsFor height width := by
    rw [Tensor.StandsFor, Or.comm, And.comm]
  unfold rowsOf
  split_ifs with h
  · simp [hiff.mp h]
  · simp [mt hiff.mpr h]

theorem rowsOf_raises {name : String} {height width : Nat} {t : Tensor α} :
    OnlyRaises (rowsOf name height width t) .dataIntegrity := by
  unfold rowsOf
  split_ifs
  · exact .ok _
  · exact .error rfl

def multiplierRows (l : Layout α) : Option (Tensor α) → Outcome α (List (List α))
  | some t => rowsOf "multipliers" l.constrained.length l.sizes.multipliers t
  | none => .ok l.zeroMultipliers

def parameterEntries (l : Layout α) : Option (Tensor α) → Outcome α (List α)
  | some t => l.parametersOf t
  | none => .ok (List.replicate l.sizes.parameters 0.0)

section Assemble

variable {l : Layout α} {states controls : Tensor α} {t0 tf : α}
  {multipliers parameters : Option (Tensor α)}

theorem multiplierRows_raises : OnlyRaises (l.multiplierRows multipliers) .dataIntegrity := by
  cases multipliers with
  | none => exact .ok _
  | some t => exact rowsOf_raises

theorem multiplierRows_succeeds : (∃ ms, l.multiplierRows multipliers = .ok ms) ↔
    ∀ t ∈ multipliers, t.StandsFor l.constrained.length l.sizes.multipliers := by
  cases multipliers <;> simp [multiplierRows, rowsOf_eq_ok]

theorem parameterEntries_raises : OnlyRaises (l.parameterEntries parameters) .dataIntegrity := by
  cases parameters with
  | none => exact .ok _
  | some t =>
    rw [parameterEntries, parametersOf]
    split_ifs
    · exact .ok _
    · exact .error rfl

theorem parameterEntries_succeeds : (∃ ps, l.parameterEntries parameters = .ok ps) ↔
    ∀ t ∈ parameters, t.size = l.sizes.parameters := by
  cases parameters with
  | none => simp [parameterEntries]
  | some t =>
    rw [parameterEntries, parametersOf]
    split_ifs with h <;> simp [h]

theorem assemble_eq : l.assemble states controls t0 tf multipliers parameters = (do
    let xs ← rowsOf "states" l.points l.sizes.states states
    let us ← rowsOf "controls" l.points l.sizes.controls controls
    let ms ← l.multiplierRows multipliers
    let ps ← l.parameterEntries parameters
    return l.join ⟨xs, us, ms, t0, tf, ps⟩) := by
  cases multipliers <;> cases parameters <;> rfl

theorem assemble_raises :
    OnlyRaises (l.assemble states controls t0 tf multipliers parameters) .dataIntegrity := by
  rw [assemble_eq]
  refine rowsOf_raises.bind fun xs => rowsOf_raises.bind fun us => ?_
  exact multiplierRows_raises.bind fun ms => parameterEntries_raises.bind fun ps => .ok _

theorem assemble_succeeds : (∃ w, l.assemble states controls t0 tf multipliers parameters = .ok w) ↔
    l.Accepts states controls multipliers parameters := by
  simp only [assemble_eq, Except.bind_eq_ok, rowsOf_eq_ok, Except.pure_eq_ok]
  constructor
  · rintro ⟨w, _, ⟨hx, -⟩, _, ⟨hu, -⟩, ms, hms, ps, hps, -⟩
    exact ⟨hx, hu, multiplierRows_succeeds.mp ⟨ms, hms⟩, parameterEntries_succeeds.mp ⟨ps, hps⟩⟩
  · intro h
    obtain ⟨ms, hms⟩ := multiplierRows_succeeds.mpr h.multipliers
    obtain ⟨ps, hps⟩ := parameterEntries_succeeds.mpr h.parameters
    exact ⟨_, _, ⟨h.states, rfl⟩, _, ⟨h.controls, rfl⟩, ms, hms, ps, hps, rfl⟩

end Assemble

/-- The vector that the rows of a trajectory stand for, when they are taken as arrays. -/
def assembleRows (l : Layout α) (tr : Trajectory α) : Outcome α (List α) :=
  l.assemble (Tensor.ofRows tr.states l.sizes.states) (Tensor.ofRows tr.controls l.sizes.controls)
    tr.initialTime tr.finalTime (some (Tensor.ofRows tr.multipliers l.sizes.multipliers))
    (some (Tensor.ofList tr.parameters))

omit [Scalar α] in
theorem rowsOf_ofRows {name : String} {width : Nat} {rows : List (List α)}
    (h : ∀ row ∈ rows, row.length = width) :
    rowsOf name rows.length width (Tensor.ofRows rows width) = .ok rows :=
  rowsOf_eq_ok.mpr ⟨.inl rfl, Tensor.rowsOf_flatten h⟩

end Layout

/-! ### Requests -/

/-- The array in a value that may be missing. -/
def Value.optionalTensor : Value α → Outcome α (Option (Tensor α))
  | .none => .ok Option.none
  | v => v.toTensor.map some

/-- The values of a request read as arrays and times. -/
structure AssemblyRequest.Reads (r : AssemblyRequest α) (states controls : Tensor α) (t0 tf : α)
    (multipliers parameters : Option (Tensor α)) : Prop where
  states : r.states.toTensor = .ok states
  controls : r.controls.toTensor = .ok controls
  initialTime : r.initialTime.toEntryScalar = .ok t0
  finalTime : r.finalTime.toEntryScalar = .ok tf
  multipliers : r.multipliers.optionalTensor = .ok multipliers
  parameters : r.parameters.optionalTensor = .ok parameters

namespace Layout

theorem orElse_eq {γ : Type} {read : Tensor α → Outcome α γ} {rest : γ} {v : Value α}
    {found : Option (Tensor α)} (h : v.optionalTensor = .ok found) :
    orElse read rest v = (found.map read).getD (.ok rest) := by
  cases v with
  | none =>
    obtain rfl : Option.none = found := Except.ok.inj h
    rfl
  | _ =>
    obtain ⟨t, ht, rfl⟩ := Except.map_eq_ok.mp h
    exact congrArg (· >>= read) ht

theorem assembleRequest_eq {l : Layout α} {r : AssemblyRequest α} {states controls : Tensor α}
    {t0 tf : α} {multipliers parameters : Option (Tensor α)}
    (h : r.Reads states controls t0 tf multipliers parameters) :
    l.assembleRequest r = l.assemble states controls t0 tf multipliers parameters := by
  have hms : orElse (rowsOf "multipliers" l.constrained.length l.sizes.multipliers)
      l.zeroMultipliers r.multipliers = l.multiplierRows multipliers := by
    rw [orElse_eq h.multipliers]
    cases multipliers <;> rfl
  have hps : orElse l.parametersOf (List.replicate l.sizes.parameters 0.0) r.parameters =
      l.parameterEntries parameters := by
    rw [orElse_eq h.parameters]
    cases parameters <;> rfl
  rw [assembleRequest, h.states, h.controls, h.initialTime, h.finalTime, hms, hps, assemble_eq]
  rfl

/-! ### Round trips -/

/-- Splitting and assembling undo each other on a layout with `n` points, and each fails on the data
that do not fit. -/
structure Inverse (l : Layout α) (n : Nat) (d : Dimensions) : Prop where
  fills : ∀ w tr, l.split w = .ok tr → tr.Fills n d l.constrained
  assemble_split : ∀ w, w.length = l.size →
    ∃ tr, l.split w = .ok tr ∧ l.assembleRows tr = .ok w
  split_assemble : ∀ tr : Trajectory α, tr.Fills n d l.constrained →
    ∃ w, l.assembleRows tr = .ok w ∧ l.split w = .ok tr
  /-- Rows of states and controls belong to the points of the mesh. -/
  pointRows : ∀ w tr, l.split w = .ok tr → ∀ k < n, ∃ r s,
    l.stateRange (.int k) = .ok r ∧ tr.states[k]? = some (r.of w) ∧
    l.controlRange (.int k) = .ok s ∧ tr.controls[k]? = some (s.of w)
  /-- Row `j` of the multipliers belongs to the `j`-th constrained point. -/
  multiplierRows : ∀ w tr, l.split w = .ok tr → ∀ j k : Nat, l.constrained[j]? = some k → ∃ r,
    l.multiplierRange (.int k) = .ok (some r) ∧ tr.multipliers[j]? = some (r.of w)
  split_raises : ∀ w, Raises (l.split w) .dataIntegrity ↔ w.length ≠ l.size
  assemble_raises : ∀ states controls t0 tf multipliers parameters,
    Raises (l.assemble states controls t0 tf multipliers parameters) .dataIntegrity ↔
      ¬ l.Accepts states controls multipliers parameters
  assemble_succeeds : ∀ states controls t0 tf multipliers parameters,
    (∃ w, l.assemble states controls t0 tf multipliers parameters = .ok w) ↔
      l.Accepts states controls multipliers parameters
  assemble_request : ∀ (r : AssemblyRequest α) states controls t0 tf multipliers parameters,
    r.Reads states controls t0 tf multipliers parameters →
      l.assembleRequest r = l.assemble states controls t0 tf multipliers parameters

theorem split_raises {l : Layout α} {w : List α} :
    Raises (l.split w) .dataIntegrity ↔ w.length ≠ l.size := by
  have honly : OnlyRaises (l.split w) .dataIntegrity := by
    unfold split
    split_ifs
    · exact .ok _
    · exact .error rfl
  rw [honly.raises_iff]
  simp only [split_eq_ok, exists_and_left, exists_eq', and_true, ne_eq]

namespace Arranged

variable {l : Layout α} {n : Nat} {d : Dimensions} {a : Arrangement α} {tr : Trajectory α}

variable (h : l.Arranged n d l.constrained a)
include h

theorem assembleRows_eq (htr : tr.Fills n d l.constrained) :
    l.assembleRows tr = .ok (l.join tr) := by
  have hp : (Tensor.ofList tr.parameters).size = d.parameters := htr.parameters
  rw [assembleRows, assemble_eq, h.sizes, h.points, ← htr.states, rowsOf_ofRows htr.stateRows]
  rw [htr.states, ← htr.controls, rowsOf_ofRows htr.controlRows, multiplierRows, h.sizes,
    ← htr.multipliers, rowsOf_ofRows htr.multiplierRows, parameterEntries, parametersOf, h.sizes,
    if_pos hp]
  rfl

/-- Rows of the right widths that are accepted are as many as there are points. -/
theorem fills_of_assembleRows {w : List α} (hx : ∀ row ∈ tr.states, row.length = d.states)
    (hu : ∀ row ∈ tr.controls, row.length = d.controls)
    (hm : ∀ row ∈ tr.multipliers, row.length = d.multipliers) (hw : l.assembleRows tr = .ok w) :
    tr.Fills n d l.constrained := by
  have haccepts := assemble_succeeds.mp ⟨w, hw⟩
  have hcount {rows : List (List α)} {width height : Nat}
      (hrows : (Tensor.ofRows rows width).StandsFor height width) : rows.length = height := by
    rcases hrows with hshape | ⟨hrank, -⟩
    · exact (List.cons.inj hshape).1
    · exact absurd hrank (by simp [Tensor.ofRows, Tensor.rank])
  have hstates := hcount haccepts.states
  have hcontrols := hcount haccepts.controls
  have hparameters := haccepts.parameters _ rfl
  rw [h.points] at hstates hcontrols
  rw [h.sizes] at hparameters
  exact ⟨hstates, hx, hcontrols, hu, hcount (haccepts.multipliers _ rfl), hm, hparameters⟩

theorem inverse (hks : ∀ k ∈ l.constrained, k < n) (hsorted : l.constrained.Pairwise (· < ·)) :
    l.Inverse n d where
  fills w tr hsplit := by
    obtain ⟨hw, rfl⟩ := split_eq_ok.mp hsplit
    exact h.fills hks hw
  assemble_split w hw := by
    refine ⟨_, split_eq_ok.mpr ⟨hw, rfl⟩, ?_⟩
    rw [h.assembleRows_eq (h.fills hks hw), h.join_trajectoryOf hsorted hks hw]
  split_assemble tr htr := ⟨_, h.assembleRows_eq htr, h.split_join hks hsorted htr⟩
  pointRows w tr hsplit k hk := by
    obtain ⟨-, rfl⟩ := split_eq_ok.mp hsplit
    have hk' : k < l.points := h.points.symm ▸ hk
    refine ⟨_, _, h.stateRange_eq hk, ?_, h.controlRange_eq hk, ?_⟩
    · simp [trajectoryOf, hk', statePlace_of]
    · simp [trajectoryOf, hk', controlPlace_of]
  multiplierRows w tr hsplit j k hj := by
    obtain ⟨-, rfl⟩ := split_eq_ok.mp hsplit
    have hmem : k ∈ l.constrained := List.mem_of_getElem? hj
    refine ⟨l.multiplierPlace k, ?_, ?_⟩
    · rw [h.multiplierRange_eq (hks k hmem), if_pos (List.contains_iff_mem.mpr hmem)]
    · simp [trajectoryOf, hj, multiplierPlace_of]
  split_raises w := split_raises
  assemble_raises _ _ _ _ _ _ := assemble_raises.raises_iff.trans (not_congr assemble_succeeds)
  assemble_succeeds _ _ _ _ _ _ := assemble_succeeds
  assemble_request _ _ _ _ _ _ _ hr := assembleRequest_eq hr

end Arranged

end Layout

namespace LayoutBuilder

variable {b : LayoutBuilder α} {points : Nat} {d : Dimensions} {indices : Value α}
  {calls : List (Setter α)} {l : Layout α}

/-- On every layout that a builder makes, splitting and assembling undo each other; the rows of the
multipliers follow the constrained points in increasing order. -/
theorem build_inverse (hb : ofRequest (.ofSizes points d indices) = .ok b)
    (hl : (Edit.afterAll Setter.run calls b).build = .ok l) :
    ∃ asked, (d.multipliers ≠ 0 → namedPoints indices = .ok asked) ∧
      Constrained points d.multipliers asked l.constrained ∧ l.Inverse points d := by
  obtain ⟨asked, l', hnamed, hl', hconstrained, harranged⟩ := build_afterAll hb calls
  obtain rfl : l' = l := Except.ok.inj (hl'.symm.trans hl)
  exact ⟨asked, hnamed, hconstrained,
    harranged.inverse hconstrained.inside hconstrained.increasing⟩

/-- The builder for three points, after the sample calls and two that fail. -/
theorem build_inverse_three : ∃ (b : LayoutBuilder Extended) (l : Layout Extended),
    ofRequest (.ofSizes 3 ⟨1, 0, 1, 1⟩ (.list [.int 2, .int 0])) = .ok b ∧
    (Edit.afterAll Setter.run (.parameters [] :: .multipliers [.free, .free] :: sampleCalls)
      b).build = .ok l ∧
    ∃ asked, ((1 : Nat) ≠ 0 →
        namedPoints (.list [.int 2, .int 0] : Value Extended) = .ok asked) ∧
      Constrained 3 1 asked l.constrained ∧ l.Inverse 3 ⟨1, 0, 1, 1⟩ := by
  obtain ⟨b, hb⟩ : ∃ b : LayoutBuilder Extended,
      ofRequest (.ofSizes 3 ⟨1, 0, 1, 1⟩ (.list [.int 2, .int 0])) = .ok b := ⟨_, rfl⟩
  obtain ⟨-, l, -, hl, -⟩ :=
    build_afterAll hb (.parameters [] :: .multipliers [.free, .free] :: sampleCalls)
  exact ⟨b, l, hb, hl, build_inverse hb hl⟩

end LayoutBuilder

end Collocation
