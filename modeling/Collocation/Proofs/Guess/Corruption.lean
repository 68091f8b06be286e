import Collocation.Decimal.Double
import Collocation.Proofs.Guess.Default
import Collocation.Proofs.Guess.SampleTimes
import Collocation.Proofs.Interpolation.Numbers
import Collocation.Proofs.Layout.Clipping

/-! Corrupt guesses.  The samples of trajectories are checked entry by entry, but the sample times,
the parameters and the two times are not, and moving into the bounds keeps what is not a number.
So a start is within the bounds except where one of these is not a number, or where the sample times
are infinite or too far apart. -/

namespace Collocation

variable {α : Type} [Scalar α]

namespace Guess

/-- The array fields of a guess are arrays of any shape, or missing. -/
structure Arrays (g : Guess α) : Prop where
  times : ∃ t, g.times.optionalTensor = .ok t
  states : ∃ t, g.states.optionalTensor = .ok t
  controls : ∃ t, g.controls.optionalTensor = .ok t
  multipliers : ∃ t, g.multipliers.optionalTensor = .ok t
  parameters : ∃ t, g.parameters.optionalTensor = .ok t

/-! ### Faults -/

section Faults

variable {g : Guess α} {l : Layout α} {m : Mesh α} {v : Value α}
  {base : Trajectory α} {f : Fault α}

theorem exists_toTensor (hv : ∃ t, v.optionalTensor = .ok t) (hne : v ≠ .none) :
    ∃ t, v.toTensor = .ok t := by
  obtain ⟨found, hv⟩ := hv
  cases v with
  | none => exact absurd rfl hne
  | _ =>
    obtain ⟨t, ht, -⟩ := Except.map_eq_ok.mp hv
    exact ⟨t, ht⟩

theorem sampleRows_raises (name : String) (samples width : Nat) {t : Tensor α}
    (hv : v.toTensor = .ok t) : OnlyRaises (sampleRows name samples width v) .dataIntegrity := by
  rw [sampleRows, hv]
  refine .guard rfl (.bind ?_ fun _ => .ok _)
  unfold Check.finiteEntries
  split_ifs
  · exact .ok ()
  · exact .error rfl

theorem placed_raises (name : String) (times : List α) (width : Nat)
    (points : List α) (rest : List (List α))
    (hv : ∃ t, v.optionalTensor = .ok t) :
    OnlyRaises (placed name times width points v rest) .dataIntegrity := by
  unfold placed
  split
  · exact .ok rest
  · next hne =>
    obtain ⟨t, ht⟩ := exists_toTensor hv hne
    exact (sampleRows_raises name _ width ht).bind fun _ => .ok _

/-- The points with multipliers reach beyond a mesh. -/
def Beyond (l : Layout α) (m : Mesh α) (f : Fault α) : Prop :=
  ∃ k ∈ l.constrained, m.numPoints ≤ k ∧ f = .reading (.outOfBounds k 0 m.numPoints)

omit [Scalar α] in
theorem checkConstrained_error (h : checkConstrained l m v = .error f) : Beyond l m f := by
  unfold checkConstrained at h
  split_ifs at h
  split at h
  · next k hfind =>
    cases h
    exact ⟨k, List.mem_of_find?_eq_some hfind, by simpa using List.find?_some hfind, rfl⟩
  · cases h

theorem trajectories_error (hg : g.Arrays) (h : g.trajectories l m base = .error f) :
    f.kind = .dataIntegrity ∨ Beyond l m f := by
  unfold trajectories at h
  split at h
  · split_ifs at h
    cases h
    exact .inl rfl
  · next hne =>
    obtain ⟨t, ht⟩ := exists_toTensor hg.times hne
    have hvector : g.times.toVector = .ok t.entries := by
      rw [Value.toVector, ht]
      rfl
    have hmultipliers : ∃ t, (if l.constrained.isEmpty then .none
        else g.multipliers).optionalTensor = .ok t := by
      split_ifs
      · exact ⟨none, rfl⟩
      · exact hg.multipliers
    simp only [hvector, Except.bind_eq_error] at h
    rcases h with h | ⟨ts, hts, h | ⟨_, -, h | ⟨xs, -, h | ⟨us, -, h | ⟨ms, -, h | ⟨_, -, h⟩⟩⟩⟩⟩⟩
    · cases h
    · exact .inl (checkTimes_raises ts f h)
    · exact .inl (placed_raises _ _ _ _ _ hg.states f h)
    · exact .inl (placed_raises _ _ _ _ _ hg.controls f h)
    · exact .inl (placed_raises _ _ _ _ _ hmultipliers f h)
    · exact .inr (checkConstrained_error h)
    · cases h

/-- A time that is given is no number. -/
def Unreadable (v : Value α) (f : Fault α) : Prop := v ≠ .none ∧ v.toScalar = .error f

theorem override_error {x : α} (h : override v x = .error f) : Unreadable v f := by
  cases v with
  | none => cases h
  | _ => exact ⟨nofun, h⟩

theorem overrideParameters_succeeds (hv : ∃ t, v.optionalTensor = .ok t) (rest : List α) :
    ∃ ps, overrideParameters v rest = .ok ps := by
  unfold overrideParameters
  split
  · exact ⟨rest, rfl⟩
  · next hne =>
    obtain ⟨t, ht⟩ := exists_toTensor hv hne
    exact ⟨t.entries, by rw [Value.toVector, ht]; rfl⟩

/-- Arrays are refused as corrupt data; the other faults are those of times that are no numbers and
of points that the mesh does not have. -/
theorem vector_error (hg : g.Arrays) (h : g.vector l m = .error f) :
    f.kind = .dataIntegrity ∨ Beyond l m f ∨ Unreadable g.initialTime f ∨
      Unreadable g.finalTime f := by
  have hsplit : l.split (default l) = .ok (l.trajectoryOf (default l)) :=
    Layout.split_eq_ok.mpr ⟨length_default l, rfl⟩
  simp only [vector, hsplit, Except.bind_eq_error] at h
  rcases h with h | ⟨base, -, h | ⟨tr, -, h | ⟨w, -, h⟩⟩⟩
  · cases h
  · simp only [content, Except.bind_eq_error] at h
    rcases h with h | ⟨t, -, h | ⟨ps, -, h | ⟨t0, -, h | ⟨tf, -, h⟩⟩⟩⟩
    · exact (trajectories_error hg h).imp_right .inl
    · obtain ⟨ps, hps⟩ := overrideParameters_succeeds hg.parameters base.parameters
      cases hps.symm.trans h
    · exact .inr (.inr (.inl (override_error h)))
    · exact .inr (.inr (.inr (override_error h)))
    · cases h
  · exact .inl (Layout.assemble_raises f h)
  · cases h

end Faults

/-! ### What gets through -/

/-- The sample times, if there are any, are finite, and so is the way from the first to the last. -/
def Spanned (g : Guess α) : Prop :=
  g.times = .none ∨ ∃ times, g.times.toVector = .ok times ∧ Spans times

/-- A time is given as something that is not a number, or else the sample times give it so. -/
def CorruptTime (v times : Value α) (pick : List α → α) : Prop :=
  (∃ x, v.toScalar = .ok x ∧ Scalar.isNaN x) ∨
    v = .none ∧ times ≠ .none ∧ ∃ ts, times.toVector = .ok ts ∧ Scalar.isNaN (pick ts)

/-- A start for a guess has an entry for each variable, which is within its bounds unless it is not
a number.  If the sample times are finite, with a finite way between them, then no entry of a point
is not a number.  Those behind the points are not numbers just where the guess says so. -/
structure Screened (g : Guess α) (l : Layout α) (w : List α) : Prop where
  length : w.length = l.size
  within : ∀ (i : Nat) s, l.slots[i]? = some s →
    ∃ x, w[i]? = some x ∧ (Scalar.isNaN x ∨ s.bounds.lower ≤ x ∧ x ≤ s.bounds.upper)
  points : g.Spanned → ∀ i < l.initialTimeIndex, ¬ Layout.NaNAt w i
  initialTime : Layout.NaNAt w l.initialTimeIndex ↔
    CorruptTime g.initialTime g.times (·.headD 0.0)
  finalTime : Layout.NaNAt w l.finalTimeIndex ↔ CorruptTime g.finalTime g.times Mesh.lastPoint
  parameters : ∀ j : Nat, Layout.NaNAt w (l.initialTimeIndex + 2 + j) ↔
    g.parameters ≠ .none ∧ ∃ ps, g.parameters.toVector = .ok ps ∧ Layout.NaNAt ps j

section Screened

variable {g : Guess α} {l : Layout α} {m : Mesh α} {w : List α} {base t : Trajectory α}
  {times : List α}

theorem override_isNaN_iff {v times : Value α} {rest x : α} {pick : List α → α}
    (hrest : Scalar.isNaN rest ↔ times ≠ .none ∧
      ∃ ts, times.toVector = .ok ts ∧ Scalar.isNaN (pick ts))
    (h : override v rest = .ok x) : Scalar.isNaN x ↔ CorruptTime v times pick := by
  unfold override at h
  split at h
  · obtain rfl := Except.ok.inj h
    rw [hrest]
    refine ⟨fun hcorrupt => .inr ⟨rfl, hcorrupt⟩, ?_⟩
    rintro (⟨x, hx, -⟩ | ⟨-, hcorrupt⟩)
    · cases hx
    · exact hcorrupt
  · next hne =>
    refine ⟨fun hnan => .inl ⟨x, h, hnan⟩, ?_⟩
    rintro (⟨y, hy, hnan⟩ | ⟨hnone, -⟩)
    · rwa [Except.ok.inj (h.symm.trans hy)]
    · exact absurd hnone hne

theorem overrideParameters_nanAt_iff {v : Value α} {rest ps : List α}
    (hrest : ∀ x ∈ rest, ¬ Scalar.isNaN x = true) (h : overrideParameters v rest = .ok ps)
    (j : Nat) : Layout.NaNAt ps j ↔
      v ≠ .none ∧ ∃ ps', v.toVector = .ok ps' ∧ Layout.NaNAt ps' j := by
  unfold overrideParameters at h
  split at h
  · obtain rfl := Except.ok.inj h
    refine iff_of_false ?_ fun h => h.1 rfl
    rintro ⟨x, hx, hnan⟩
    exact hrest x (List.mem_of_getElem? hx) hnan
  · next hne =>
    refine ⟨fun hnan => ⟨hne, ps, h, hnan⟩, ?_⟩
    rintro ⟨-, ps', hps', hnan⟩
    rwa [Except.ok.inj (h.symm.trans hps')]

variable [Faithful α]

/-- Rows that are placed at points of a mesh hold numbers, if those of the default do. -/
theorem placed_ne_nan {name : String} {width : Nat} {points : List α} {v : Value α}
    {rest rows : List (List α)} (hspans : Spans times) (hcheck : checkTimes times = .ok ())
    (hpoints : ∀ x ∈ points, Scalar.isFinite x)
    (hrest : ∀ row ∈ rest, ∀ x ∈ row, Scalar.exact x ≠ .nan)
    (h : placed name times width points v rest = .ok rows) :
    ∀ row ∈ rows, ∀ x ∈ row, Scalar.exact x ≠ .nan := by
  unfold placed at h
  split at h
  · obtain rfl := Except.ok.inj h
    exact hrest
  · obtain ⟨samples, hsamples, h⟩ := Except.bind_eq_ok.mp h
    obtain rfl := Except.pure_eq_ok.mp h
    obtain ⟨t, -, hfinite, rfl⟩ := sampleRows_entries hsamples
    have hparts := exists_normalized hspans hcheck
    refine Interpolation.resample_ne_nan ?_ (fun x hx => ?_) (fun row hrow x hx => ?_) width
      (fun x hx => ?_) hpoints
    · rw [Tensor.length_rowsOf]
      exact List.length_map _
    · obtain ⟨r, hr, -⟩ := hparts x hx
      exact Rounding.isFinite_iff.mpr ⟨r, hr⟩
    · exact hfinite x (Tensor.mem_of_mem_rowsOf hrow hx)
    · obtain ⟨r, hr, hpos, -⟩ := hparts x hx
      rw [Rounding.le_iff, Differences.exact_zero, hr, Extended.finite_le_finite]
      exact hpos

theorem isFinite_constrainedPoints (hm : m.Increasing) :
    ∀ x ∈ constrainedPoints l m, Scalar.isFinite x := by
  intro x hx
  obtain ⟨k, -, rfl⟩ := List.mem_map.mp hx
  cases hpoint : m.points[k]? with
  | none => exact Rounding.isFinite_iff.mpr ⟨0, Differences.exact_zero⟩
  | some x => exact hm.isFinite (List.mem_of_getElem? hpoint)

/-- Trajectories at times with a finite way between them hold numbers, if those of the default do.
-/
theorem trajectories_ne_nan (hm : m.Increasing) (hg : g.Spanned)
    (hbase : base.All (Scalar.exact · ≠ .nan)) (h : g.trajectories l m base = .ok t) :
    (∀ row ∈ t.states, ∀ x ∈ row, Scalar.exact x ≠ .nan) ∧
    (∀ row ∈ t.controls, ∀ x ∈ row, Scalar.exact x ≠ .nan) ∧
    ∀ row ∈ t.multipliers, ∀ x ∈ row, Scalar.exact x ≠ .nan := by
  rcases trajectories_parts h with ⟨-, rfl⟩ | ⟨times, hplaced⟩
  · exact ⟨hbase.states, hbase.controls, hbase.multipliers⟩
  · obtain ⟨times', htimes, hspans⟩ := hg.resolve_left hplaced.given
    obtain rfl : times' = times := Except.ok.inj (htimes.symm.trans hplaced.read)
    have hpoints : ∀ x ∈ m.points, Scalar.isFinite x := fun _ => hm.isFinite
    exact ⟨placed_ne_nan hspans hplaced.accepted hpoints hbase.states hplaced.states,
      placed_ne_nan hspans hplaced.accepted hpoints hbase.controls hplaced.controls,
      placed_ne_nan hspans hplaced.accepted (isFinite_constrainedPoints hm) hbase.multipliers
        hplaced.multipliers⟩

/-- The times of trajectories are not numbers just where the sample times give them so. -/
theorem trajectories_times (hbase : base.All (Scalar.exact · ≠ .nan))
    (h : g.trajectories l m base = .ok t) :
    (Scalar.isNaN t.initialTime ↔ g.times ≠ .none ∧
      ∃ ts, g.times.toVector = .ok ts ∧ Scalar.isNaN (ts.headD 0.0)) ∧
    (Scalar.isNaN t.finalTime ↔ g.times ≠ .none ∧
      ∃ ts, g.times.toVector = .ok ts ∧ Scalar.isNaN (Mesh.lastPoint ts)) := by
  rcases trajectories_parts h with ⟨hnone, rfl⟩ | ⟨times, hplaced⟩
  · exact ⟨iff_of_false (mt Rounding.isNaN_iff.mp hbase.initialTime) fun h => h.1 hnone,
      iff_of_false (mt Rounding.isNaN_iff.mp hbase.finalTime) fun h => h.1 hnone⟩
  · have hpick (pick : List α → α) : Scalar.isNaN (pick times) ↔ g.times ≠ .none ∧
        ∃ ts, g.times.toVector = .ok ts ∧ Scalar.isNaN (pick ts) := by
      refine ⟨fun hnan => ⟨hplaced.given, times, hplaced.read, hnan⟩, ?_⟩
      rintro ⟨-, ts, hts, hnan⟩
      rwa [Except.ok.inj (hplaced.read.symm.trans hts)]
    rw [hplaced.initialTime, hplaced.finalTime]
    exact ⟨hpick (·.headD 0.0), hpick Mesh.lastPoint⟩

/-- What a start for a guess may hold. -/
theorem screened {n : Nat} {d : Dimensions} {a : Arrangement α}
    (h : l.Arranged n d l.constrained a) (hks : ∀ k ∈ l.constrained, k < n)
    (hsorted : l.constrained.Pairwise (· < ·)) (hl : l.Bounded) (hm : m.Increasing)
    (hw : g.vector l m = .ok w) : Screened g l w := by
  obtain ⟨tr, hcontent, hfills, rfl⟩ := vector_parts h hks hw
  have hlength := (Layout.split_eq_ok.mp (h.split_join hks hsorted hfills)).1
  have hfront := h.length_pointEntries hsorted hks hfills
  have hbase := h.all_trajectoryOf (length_default l) (default_ne_nan hl)
  simp only [content, Except.bind_eq_ok, Except.pure_eq_ok] at hcontent
  obtain ⟨t, ht, ps, hps, t0, h0, tf, hf, rfl⟩ := hcontent
  have hnan (i : Nat) := Layout.clip_nanAt_iff (i := i) hl hlength
  obtain ⟨hinitial, hfinal⟩ := trajectories_times hbase ht
  -- Behind the entries of the points stand the times and the parameters.
  have hbehind (j : Nat) : (l.join { t with
      parameters := ps, initialTime := t0, finalTime := tf })[l.initialTimeIndex + j]? =
        (t0 :: tf :: ps)[j]? := by
    rw [← hfront, Layout.join, List.getElem?_append_right (Nat.le_add_right _ _),
      Nat.add_sub_cancel_left]
  refine ⟨Layout.length_clip hlength, fun i s hs => Layout.clip_within hl hlength hs, ?points,
    ?initialTime, ?finalTime, fun j => ?parameters⟩
  case points =>
    intro hspanned i hi
    obtain ⟨hxs, hus, hms⟩ := trajectories_ne_nan hm hspanned hbase ht
    rw [hnan, Layout.NaNAt, Layout.join, List.getElem?_append_left (hfront ▸ hi)]
    rintro ⟨x, hx, hisNaN⟩
    have hcorrupt := Rounding.isNaN_iff.mp hisNaN
    rcases Layout.mem_pointEntries (List.mem_of_getElem? hx) with
      ⟨row, hrow, hx⟩ | ⟨row, hrow, hx⟩ | ⟨row, hrow, hx⟩
    · exact hxs row hrow x hx hcorrupt
    · exact hus row hrow x hx hcorrupt
    · exact hms row hrow x hx hcorrupt
  case initialTime =>
    have hentry := hbehind 0
    rw [Nat.add_zero, List.getElem?_cons_zero] at hentry
    rw [hnan, Layout.nanAt_iff hentry]
    exact override_isNaN_iff hinitial h0
  case finalTime =>
    have hentry := hbehind 1
    rw [List.getElem?_cons_succ, List.getElem?_cons_zero] at hentry
    rw [hnan, Layout.finalTimeIndex, Layout.nanAt_iff hentry]
    exact override_isNaN_iff hfinal hf
  case parameters =>
    have hparameters : ∀ x ∈ (l.trajectoryOf (default l)).parameters, ¬ Scalar.isNaN x = true :=
      fun x hx => mt Rounding.isNaN_iff.mp (hbase.parameters x hx)
    rw [hnan, Layout.NaNAt, Nat.add_assoc, hbehind, Nat.add_comm 2 j, List.getElem?_cons_succ,
      List.getElem?_cons_succ]
    exact overrideParameters_nanAt_iff hparameters hps j

end Screened

end Guess

namespace LayoutBuilder

open Guess

/-- On every layout that a builder makes and on every mesh, a guess with array fields of any shape
and content is refused as corrupt data, or for a time that is no number, or for points that the mesh
does not have, or it gives a start that is within the bounds wherever the guess holds numbers.  That
is so in any arithmetic that rounds. -/
theorem build_screens [Faithful α] {b : LayoutBuilder α} {points : Nat} {d : Dimensions}
    {indices : Value α} {calls : List (Setter α)} {l : Layout α} {form : MeshForm α} {m : Mesh α}
    {g : Guess α} (hb : ofRequest (.ofSizes points d indices) = .ok b)
    (hcalls : ∀ c ∈ calls, c.Made) (hl : (Edit.afterAll Setter.run calls b).build = .ok l)
    (hm : Mesh.ofForm form = .ok m) (hg : g.Arrays) :
    (∀ f, g.vector l m = .error f → f.kind = .dataIntegrity ∨ Beyond l m f ∨
      Unreadable g.initialTime f ∨ Unreadable g.finalTime f) ∧
    ∀ w, g.vector l m = .ok w → Screened g l w := by
  obtain ⟨_, l', -, hl', hks, harranged⟩ := build_afterAll hb calls
  obtain rfl : l' = l := Except.ok.inj (hl'.symm.trans hl)
  exact ⟨fun f hf => vector_error hg hf, fun w hw =>
    screened harranged hks.inside hks.increasing (build_bounded hb hcalls hl)
      (Mesh.increasing_of_form hm) hw⟩

namespace Sample

/-- A guess with a parameter that is not a number. -/
def corrupted : Guess Extended where
  times := .ofRow [.finite 1, .finite 3]
  states := .ofRows [[.finite 0], [.finite 4]]
  parameters := .real .nan

theorem corrupted_arrays : corrupted.Arrays where
  times := ⟨_, rfl⟩
  states := ⟨_, rfl⟩
  controls := ⟨_, rfl⟩
  multipliers := ⟨_, rfl⟩
  parameters := ⟨_, rfl⟩

/-- A guess in doubles whose sample times are finite, but not the way between them. -/
def distant : Guess Float where
  times := .ofRow [-1.7e308, 1.7e308]
  states := .ofRows [[0.0], [1.0]]

end Sample

theorem build_screens_three : ∃ (b : LayoutBuilder Extended) (l : Layout Extended)
    (m : Mesh Extended),
    ofRequest (.ofSizes 3 ⟨1, 0, 1, 1⟩ (.list [.int 2, .int 0])) = .ok b ∧
    (∀ c ∈ sampleCalls, c.Made) ∧ (Edit.afterAll Setter.run sampleCalls b).build = .ok l ∧
    Mesh.ofForm (.uniform (.int 3)) = .ok m ∧ Sample.corrupted.Arrays ∧
    (∀ f, Sample.corrupted.vector l m = .error f → f.kind = .dataIntegrity ∨ Beyond l m f ∨
      Unreadable Sample.corrupted.initialTime f ∨ Unreadable Sample.corrupted.finalTime f) ∧
    ∀ w, Sample.corrupted.vector l m = .ok w → Screened Sample.corrupted l w := by
  obtain ⟨m, hm⟩ := Except.exists_of_isOk
    (show (Mesh.ofForm (.uniform (.int 3)) : Outcome Extended (Mesh Extended)).isOk = true by
      decide +kernel)
  obtain ⟨b, hb⟩ : ∃ b : LayoutBuilder Extended,
      ofRequest (.ofSizes 3 ⟨1, 0, 1, 1⟩ (.list [.int 2, .int 0])) = .ok b := ⟨_, rfl⟩
  obtain ⟨-, l, -, hl, -⟩ := build_afterAll hb sampleCalls
  exact ⟨b, l, m, hb, sampleCalls_made, hl, hm, Sample.corrupted_arrays,
    build_screens hb sampleCalls_made hl hm Sample.corrupted_arrays⟩

/-- In doubles the way between finite sample times can be infinite, and then a state at the middle
of the mesh is not a number. -/
example : (do
    let b ← ofRequest (.ofSizes 3 ⟨1, 0, 1, 1⟩ (.list [.int 2, .int 0]))
    let l ← b.build
    let m ← Mesh.ofForm (.uniform (.int 3))
    Sample.distant.vector l m : Outcome Float (List Float)).toOption.any
      (fun w => (w[2]?).any Scalar.isNaN) = true := by
  decide +kernel

/-- A parameter that is not a number gets through to the start. -/
theorem not_screened : ∃ (b : LayoutBuilder Extended) (l : Layout Extended)
    (m : Mesh Extended) (w : List Extended),
    ofRequest (.ofSizes 3 ⟨1, 0, 1, 1⟩ (.list [.int 2, .int 0])) = .ok b ∧
    (Edit.afterAll Setter.run sampleCalls b).build = .ok l ∧
    Mesh.ofForm (.uniform (.int 3)) = .ok m ∧ Sample.corrupted.vector l m = .ok w ∧
    w[7]? = some .nan := by
  obtain ⟨w, hall, hnan⟩ := Except.exists_of_any
    (show (do
        let b ← ofRequest (.ofSizes 3 ⟨1, 0, 1, 1⟩ (.list [.int 2, .int 0]))
        let l ← (Edit.afterAll Setter.run sampleCalls b).build
        let m ← Mesh.ofForm (.uniform (.int 3))
        Sample.corrupted.vector l m : Outcome Extended (List Extended)).toOption.any
          (fun w => w[7]? = some .nan) = true by
      decide +kernel)
  simp only [Except.bind_eq_ok] at hall
  obtain ⟨b, hb, l, hl, m, hm, hw⟩ := hall
  exact ⟨b, l, m, w, hb, hl, hm, hw, of_decide_eq_true hnan⟩

end LayoutBuilder

end Collocation
