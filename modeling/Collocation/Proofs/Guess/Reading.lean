import Collocation.Proofs.Guess
import Collocation.Proofs.Guess.SampleTimes
import Collocation.Proofs.Interpolation.Polyline

/-! Guesses as numbers.  Samples at times that are numbers are accepted just if the times increase
and the samples are numbers, and then every row at a point of a mesh is on the lines through the
samples.  Of the times only their fractions of the way from the first to the last one matter. -/

namespace Collocation

theorem Tensor.rowsOf_map {γ δ : Type} (f : γ → δ) (width height : Nat) (xs : List γ) :
    rowsOf width height (xs.map f) = (rowsOf width height xs).map (List.map f) := by
  induction height generalizing xs with
  | zero => rfl
  | succ n ih => rw [rowsOf, rowsOf, ← List.map_take, ← List.map_drop, ih, List.map_cons]

namespace Value

/-- A value is an array of numbers, of any shape, or missing. -/
def HoldsArray (v : Value Extended) : Option (List ℚ) → Prop
  | .none => v = .none
  | some qs => ∃ shape, v.toTensor = .ok ⟨shape, qs.map .finite⟩

/-- A value is a number, or missing. -/
def HoldsScalar (v : Value Extended) : Option ℚ → Prop
  | .none => v = .none
  | some q => v.toScalar = .ok (.finite q)

variable {v : Value Extended}

theorem HoldsArray.ne_none {qs : List ℚ} (h : v.HoldsArray (some qs)) : v ≠ .none := by
  rintro rfl
  obtain ⟨shape, h⟩ := h
  have hentries := congrArg Tensor.entries (Except.ok.inj h)
  cases qs <;> cases hentries

theorem HoldsArray.toVector {qs : List ℚ} (h : v.HoldsArray (some qs)) :
    v.toVector = .ok (qs.map .finite) := by
  obtain ⟨shape, h⟩ := h
  rw [Value.toVector, h]
  rfl

theorem map_finite_injective {ps qs : List ℚ} (h : ps.map Extended.finite = qs.map .finite) :
    ps = qs :=
  List.map_injective_iff.mpr (fun _ _ => Extended.finite.inj) h

/-- What a value holds is unique. -/
theorem HoldsArray.unique {xs ys : Option (List ℚ)} (hx : v.HoldsArray xs) (hy : v.HoldsArray ys) :
    xs = ys := by
  cases xs with
  | none =>
    cases ys with
    | none => rfl
    | some qs => exact absurd hx hy.ne_none
  | some ps =>
    cases ys with
    | none => exact absurd hy hx.ne_none
    | some qs =>
      have heq := hx.toVector.symm.trans hy.toVector
      rw [map_finite_injective (Except.ok.inj heq)]

end Value

namespace Guess

/-! ### Times -/

/-- Numbers as fractions of the way from the first to the last one. -/
def fractions (qs : List ℚ) : List ℚ :=
  qs.map fun q => (q - qs.headD 0) / (qs.getLast?.getD 0 - qs.headD 0)

/-- Sample times: at least two numbers that increase. -/
structure Times (qs : List ℚ) : Prop where
  two : 2 ≤ qs.length
  increasing : qs.Pairwise (· < ·)

section Times

variable {qs : List ℚ}

theorem Times.first_lt_last (h : Times qs) : qs.headD 0 < qs.getLast?.getD 0 := by
  have htwo := h.two
  have hincreasing := h.increasing
  match qs with
  | p :: q :: rest =>
    have hlast : (p :: q :: rest).getLast? = some ((q :: rest).getLast (by simp)) := by
      rw [List.getLast?_cons_cons, List.getLast?_eq_some_getLast]
    rw [hlast, List.headD_cons, Option.getD_some]
    exact List.rel_of_pairwise_cons hincreasing (List.getLast_mem _)

theorem checkTimes_eq_ok : checkTimes (qs.map Extended.finite) = .ok () ↔ Times qs := by
  have hfinite : ∀ t ∈ qs.map Extended.finite, Scalar.isFinite t :=
    List.forall_mem_map.mpr fun q _ => Extended.isFinite_iff.mpr ⟨q, rfl⟩
  rw [checkTimes_iff_increasing hfinite, List.length_map, List.pairwise_map]
  simp only [Extended.finite_lt_finite]
  exact ⟨fun h => ⟨h.1, h.2⟩, fun h => ⟨h.two, h.increasing⟩⟩

theorem normalized_finite (h : Times qs) :
    normalized (qs.map Extended.finite) = (fractions qs).map .finite := by
  have hne : qs.getLast?.getD 0 + -qs.headD 0 ≠ 0 := by
    have := sub_pos.mpr h.first_lt_last
    linarith
  have hfirst : (qs.map Extended.finite).headD 0.0 = .finite (qs.headD 0) := by
    rw [List.headD_eq_head?_getD, List.head?_map, Extended.zero_eq, Option.getD_map,
      List.headD_eq_head?_getD]
  have hlast : Mesh.lastPoint (qs.map Extended.finite) = .finite (qs.getLast?.getD 0) := by
    rw [Mesh.lastPoint, List.getLast?_map, Extended.zero_eq, Option.getD_map]
  rw [normalized, hfirst, hlast, fractions, List.map_map, List.map_map]
  refine List.map_congr_left fun q _ => ?_
  rw [Function.comp_apply, Function.comp_apply, Extended.finite_sub, Extended.finite_sub,
    Extended.finite_div hne, sub_eq_add_neg, sub_eq_add_neg]

theorem Times.ne_nil (h : Times qs) : qs ≠ [] := by
  rintro rfl
  exact absurd h.two (by decide)

/-- The first of the times, which are not none; so the other value does not matter. -/
theorem Times.headD_finite (h : Times qs) (x : Extended) :
    (qs.map Extended.finite).headD 0.0 = (qs.head?.map .finite).getD x := by
  rw [List.headD_eq_head?_getD, List.head?_map, List.head?_eq_some_head h.ne_nil]
  rfl

theorem Times.lastPoint_finite (h : Times qs) (x : Extended) :
    Mesh.lastPoint (qs.map Extended.finite) = (qs.getLast?.map .finite).getD x := by
  rw [Mesh.lastPoint, List.getLast?_map, List.getLast?_eq_some_getLast h.ne_nil]
  rfl

theorem fractions_increasing (h : Times qs) : (fractions qs).Pairwise (· < ·) := by
  have hpos := sub_pos.mpr h.first_lt_last
  refine List.pairwise_map.mpr (h.increasing.imp fun hpq => ?_)
  exact div_lt_div_of_pos_right (by linarith) hpos

/-- Times that are moved and stretched are the same fractions of their way. -/
theorem fractions_affine {s : ℚ} (hs : 0 < s) (c : ℚ) (hne : qs ≠ []) :
    fractions (qs.map fun q => s * q + c) = fractions qs := by
  have hfirst : (qs.map fun q => s * q + c).headD 0 = s * qs.headD 0 + c := by
    obtain ⟨q, rest, rfl⟩ := List.exists_cons_of_ne_nil hne
    rfl
  have hlast : (qs.map fun q => s * q + c).getLast?.getD 0 = s * qs.getLast?.getD 0 + c := by
    rw [List.getLast?_map, List.getLast?_eq_some_getLast hne]
    rfl
  rw [fractions, fractions, hfirst, hlast, List.map_map]
  refine List.map_congr_left fun q _ => ?_
  have hnum : s * q + c - (s * qs.headD 0 + c) = s * (q - qs.headD 0) := by ring
  have hden : s * qs.getLast?.getD 0 + c - (s * qs.headD 0 + c) =
      s * (qs.getLast?.getD 0 - qs.headD 0) := by ring
  rw [Function.comp_apply, hnum, hden, mul_div_mul_left _ _ hs.ne']

theorem Times.affine (h : Times qs) {s : ℚ} (hs : 0 < s) (c : ℚ) :
    Times (qs.map fun q => s * q + c) := by
  refine ⟨by rw [List.length_map]; exact h.two, ?_⟩
  refine List.pairwise_map.mpr (h.increasing.imp fun hpq => ?_)
  have := mul_lt_mul_of_pos_left hpq hs
  linarith

end Times

/-! ### Samples -/

/-- Rows at the given points: on the lines through the samples where there are times and samples,
and those of a default elsewhere. -/
def sampledRows (times samples : Option (List ℚ)) (width : Nat) (points : List ℚ)
    (rest : List (List Extended)) : List (List Extended) :=
  match times, samples with
  | some ts, some ys => points.map fun q =>
      (Interpolation.polylines (fractions ts) (Tensor.rowsOf width ts.length ys) width q).map
        .finite
  | _, _ => rest

@[simp] theorem sampledRows_none (times : Option (List ℚ)) (width : Nat) (points : List ℚ)
    (rest : List (List Extended)) : sampledRows times none width points rest = rest := by
  cases times <;> rfl

section Samples

variable {name : String} {width samples : Nat} {v : Value Extended} {ts points : List ℚ}
  {rest rows : List (List Extended)}

/-- Samples that are accepted are numbers. -/
theorem sampleRows_read (h : sampleRows name samples width v = .ok rows) : ∃ ys : List ℚ,
    v.HoldsArray (some ys) ∧ rows = (Tensor.rowsOf width samples ys).map (List.map .finite) := by
  obtain ⟨t, ht, hfinite, rfl⟩ := sampleRows_entries h
  obtain ⟨ys, hys⟩ := Mesh.exists_rationals (List.all_eq_true.mpr hfinite)
  refine ⟨ys, ⟨t.shape, ?_⟩, ?_⟩
  · rw [ht, ← hys]
  · rw [hys, Tensor.rowsOf_map]

theorem placed_read (hts : Times ts)
    (h : placed name (ts.map .finite) width (points.map .finite) v rest = .ok rows) :
    ∃ samples, v.HoldsArray samples ∧ rows = sampledRows (some ts) samples width points rest := by
  unfold placed at h
  split at h
  · exact ⟨none, rfl, (Except.ok.inj h).symm⟩
  · obtain ⟨sampled, hsampled, hrows⟩ := Except.bind_eq_ok.mp h
    obtain rfl := Except.pure_eq_ok.mp hrows
    rw [List.length_map] at hsampled
    obtain ⟨ys, hv, rfl⟩ := sampleRows_read hsampled
    have hne : fractions ts ≠ [] := mt List.map_eq_nil_iff.mp hts.ne_nil
    have hlength : (Tensor.rowsOf width ts.length ys).length = (fractions ts).length := by
      rw [Tensor.length_rowsOf, fractions, List.length_map]
    refine ⟨some ys, hv, ?_⟩
    rw [normalized_finite hts]
    exact Interpolation.resample_eq_polylines (fractions_increasing hts) hne hlength width points

end Samples

section Trajectories

variable {g : Guess Extended} {l : Layout Extended} {m : Mesh Extended}
  {base t : Trajectory Extended} {points : List ℚ} {times : Option (List ℚ)}

/-- The points with multipliers, as numbers. -/
def multiplierPoints (l : Layout Extended) (points : List ℚ) : List ℚ :=
  l.constrained.map fun k => points[k]?.getD 0

theorem constrainedPoints_finite (hm : m.Grid points) :
    constrainedPoints l m = (multiplierPoints l points).map .finite := by
  rw [constrainedPoints, multiplierPoints, hm.points, List.map_map]
  refine List.map_congr_left fun k _ => ?_
  rw [Function.comp_apply, List.getElem?_map, Extended.zero_eq, Option.getD_map]

/-- The trajectories at times that are numbers. -/
theorem trajectories_read (hm : m.Grid points) (htimes : g.times.HoldsArray times)
    (h : g.trajectories l m base = .ok t) : (∀ ts ∈ times, Times ts) ∧ ∃ xs us ms,
      g.states.HoldsArray xs ∧ g.controls.HoldsArray us ∧
      (if l.constrained.isEmpty then .none else g.multipliers).HoldsArray ms ∧
      t = { base with
        states := sampledRows times xs l.sizes.states points base.states
        controls := sampledRows times us l.sizes.controls points base.controls
        multipliers := sampledRows times ms l.sizes.multipliers (multiplierPoints l points)
          base.multipliers
        initialTime := ((times.bind (·.head?)).map .finite).getD base.initialTime
        finalTime := ((times.bind (·.getLast?)).map .finite).getD base.finalTime } := by
  cases times with
  | none =>
    have hnone : g.times = .none := htimes
    rw [trajectories, hnone] at h
    dsimp only at h
    split_ifs at h with hmissing
    obtain rfl := Except.ok.inj h
    simp only [Bool.and_eq_true] at hmissing
    have hmissing_iff (v : Value Extended) (hv : v.isMissing = true) : v.HoldsArray none := by
      cases v <;> first
        | rfl
        | cases hv
    refine ⟨nofun, none, none, none, hmissing_iff _ hmissing.1.1, hmissing_iff _ hmissing.1.2, ?_,
      rfl⟩
    split_ifs
    · rfl
    · exact hmissing_iff _ hmissing.2
  | some ts =>
    have hvector := htimes.toVector
    have hne := htimes.ne_none
    unfold trajectories at h
    split at h
    · next hnone => exact absurd hnone hne
    · simp only [Except.bind_eq_ok, Except.pure_eq_ok, hvector, Except.ok.injEq] at h
      obtain ⟨_, rfl, _, hcheck, xs, hxs, us, hus, ms, hms, _, -, rfl⟩ := h
      have hts := checkTimes_eq_ok.mp hcheck
      rw [constrainedPoints_finite hm] at hms
      rw [hm.points] at hxs hus
      obtain ⟨xs', hstates, rfl⟩ := placed_read hts hxs
      obtain ⟨us', hcontrols, rfl⟩ := placed_read hts hus
      obtain ⟨ms', hmultipliers, rfl⟩ := placed_read hts hms
      refine ⟨fun _ hmem => Option.some.inj hmem ▸ hts, xs', us', ms', hstates, hcontrols,
        hmultipliers, ?_⟩
      rw [hts.headD_finite base.initialTime, hts.lastPoint_finite base.finalTime]
      rfl

end Trajectories

end Guess

end Collocation
