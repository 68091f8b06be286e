import Collocation.Guess
import Collocation.Proofs.Interpolation
import Collocation.Proofs.Layout.Assembly

/-! Start vectors.  Interpolated rows are as many as the points of the mesh, and as wide as there
are variables, so whatever a guess is assembled to has an entry for each decision variable. -/

namespace Collocation

variable {α : Type} [Scalar α]

namespace Guess

variable {l : Layout α} {m : Mesh α} {g : Guess α} {n : Nat} {d : Dimensions} {a : Arrangement α}
  {base t : Trajectory α} {w : List α}

theorem length_default (l : Layout α) : (default l).length = l.size := by
  unfold default
  dsimp only
  split_ifs <;> simp [Layout.size]

omit [Scalar α] in
/-- On a mesh that has the points with multipliers, the check of them passes. -/
theorem checkConstrained_eq (h : ∀ k ∈ l.constrained, k < m.numPoints) (v : Value α) :
    checkConstrained l m v = .ok () := by
  have hnone : (l.constrained.find? fun k => decide (m.numPoints ≤ k)) = none := by
    rw [List.find?_eq_none]
    intro k hk hle
    have hlt := h k hk
    rw [decide_eq_true_eq] at hle
    omega
  rw [checkConstrained, hnone, ite_self]

/-- Rows are as many as some points, and all of one width. -/
structure Rows (rows : List (List α)) (points : List α) (width : Nat) : Prop where
  length : rows.length = points.length
  widths : ∀ row ∈ rows, row.length = width

/-- The rows of a trajectory have an entry for each variable. -/
structure Wide (t : Trajectory α) (d : Dimensions) : Prop where
  states : ∀ row ∈ t.states, row.length = d.states
  controls : ∀ row ∈ t.controls, row.length = d.controls
  multipliers : ∀ row ∈ t.multipliers, row.length = d.multipliers

/-- Samples that are accepted are finite. -/
theorem sampleRows_entries {name : String} {samples width : Nat} {v : Value α}
    {rows : List (List α)} (h : sampleRows name samples width v = .ok rows) :
    ∃ t, v.toTensor = .ok t ∧ (∀ x ∈ t.entries, Scalar.isFinite x) ∧
      rows = Tensor.rowsOf width samples t.entries := by
  simp only [sampleRows, Except.bind_eq_ok, Except.if_throw_eq_ok, Except.pure_eq_ok] at h
  obtain ⟨t, ht, -, _, hfinite, rfl⟩ := h
  unfold Check.finiteEntries at hfinite
  split_ifs at hfinite with hall
  exact ⟨t, ht, List.all_eq_true.mp hall, rfl⟩

theorem placed_widths {name : String} {times points : List α} {width : Nat} {v : Value α}
    {rest rows : List (List α)} (hrest : ∀ row ∈ rest, row.length = width)
    (h : placed name times width points v rest = .ok rows) : ∀ row ∈ rows, row.length = width := by
  cases v with
  | none =>
    obtain rfl := Except.ok.inj h
    exact hrest
  | _ =>
    obtain ⟨samples, -, h⟩ := Except.bind_eq_ok.mp h
    obtain rfl := Except.pure_eq_ok.mp h
    exact fun _ => Interpolation.length_of_mem_resample

/-- What trajectories are put together from: rows that are placed at sample times. -/
structure PlacedAt (g : Guess α) (l : Layout α) (m : Mesh α) (base t : Trajectory α)
    (times : List α) : Prop where
  given : g.times ≠ .none
  read : g.times.toVector = .ok times
  accepted : checkTimes times = .ok ()
  states : placed "states" times l.sizes.states m.points g.states base.states = .ok t.states
  controls :
    placed "controls" times l.sizes.controls m.points g.controls base.controls = .ok t.controls
  multipliers : placed "multipliers" times l.sizes.multipliers (constrainedPoints l m)
    (if l.constrained.isEmpty then .none else g.multipliers) base.multipliers = .ok t.multipliers
  initialTime : t.initialTime = times.headD 0.0
  finalTime : t.finalTime = Mesh.lastPoint times

/-- Without sample times the trajectories are the default ones. -/
theorem trajectories_parts (h : g.trajectories l m base = .ok t) :
    g.times = .none ∧ t = base ∨ ∃ times, PlacedAt g l m base t times := by
  unfold trajectories at h
  split at h
  · next hnone =>
    split_ifs at h
    exact .inl ⟨hnone, (Except.ok.inj h).symm⟩
  · next hgiven =>
    simp only [Except.bind_eq_ok, Except.pure_eq_ok] at h
    obtain ⟨times, htimes, _, hcheck, xs, hxs, us, hus, ms, hms, _, -, rfl⟩ := h
    exact .inr ⟨times, hgiven, htimes, hcheck, hxs, hus, hms, rfl, rfl⟩

/-- The trajectories of a guess have rows as wide as those of the default. -/
theorem trajectories_wide (hl : l.sizes = d) (hbase : Wide base d)
    (h : g.trajectories l m base = .ok t) : Wide t d := by
  rcases trajectories_parts h with ⟨-, rfl⟩ | ⟨times, hplaced⟩
  · exact hbase
  · subst hl
    exact ⟨placed_widths hbase.states hplaced.states,
      placed_widths hbase.controls hplaced.controls,
      placed_widths hbase.multipliers hplaced.multipliers⟩

section Vector

variable (h : l.Arranged n d l.constrained a)
include h

/-- What a guess is put together from: a trajectory with an entry for each variable.  Rows that are
not as many as there are points do not pass the assembly. -/
theorem vector_parts (hks : ∀ k ∈ l.constrained, k < n) (hg : g.vector l m = .ok w) :
    ∃ tr, g.content l m (l.trajectoryOf (default l)) = .ok tr ∧
      tr.Fills n d l.constrained ∧ w = l.clip (l.join tr) := by
  simp only [vector, Except.bind_eq_ok, Except.pure_eq_ok] at hg
  obtain ⟨base, hbase, tr, hcontent, v, hassemble, rfl⟩ := hg
  obtain ⟨hdefault, rfl⟩ := Layout.split_eq_ok.mp hbase
  have hv : l.assembleRows tr = .ok v := hassemble
  have hfills : tr.Fills n d l.constrained := by
    have hbase := h.fills hks hdefault
    simp only [content, Except.bind_eq_ok, Except.pure_eq_ok] at hcontent
    obtain ⟨t, ht, ps, -, t0, -, tf, -, rfl⟩ := hcontent
    have hwide := trajectories_wide h.sizes
      ⟨hbase.stateRows, hbase.controlRows, hbase.multiplierRows⟩ ht
    exact h.fills_of_assembleRows hwide.states hwide.controls hwide.multipliers hv
  rw [h.assembleRows_eq hfills, Except.ok.injEq] at hv
  exact ⟨tr, hcontent, hfills, by rw [hv]⟩

theorem vector_eq (hcontent : g.content l m (l.trajectoryOf (default l)) = .ok t)
    (ht : t.Fills n d l.constrained) : g.vector l m = .ok (l.clip (l.join t)) := by
  have hsplit : l.split (default l) = .ok (l.trajectoryOf (default l)) :=
    Layout.split_eq_ok.mpr ⟨length_default l, rfl⟩
  have hassemble := h.assembleRows_eq ht
  rw [Layout.assembleRows] at hassemble
  simp only [bind, Except.bind, pure, Except.pure, vector, hsplit, hcontent, hassemble]

theorem length_start {source : GuessSource α} (hks : ∀ k ∈ l.constrained, k < n)
    (hsorted : l.constrained.Pairwise (· < ·)) (hs : source.start l m = .ok w) :
    w.length = l.size := by
  have hvector (g : Guess α) (hg : g.vector l m = .ok w) : w.length = l.size := by
    obtain ⟨tr, -, hfills, rfl⟩ := vector_parts h hks hg
    have hjoin := (Layout.split_eq_ok.mp (h.split_join hks hsorted hfills)).1
    rw [Layout.clip, List.length_zipWith, hjoin, Layout.size, Nat.min_self]
  cases source with
  | bounds => exact Except.ok.inj hs ▸ length_default l
  | guess g => exact hvector g hs
  | solution s =>
    obtain ⟨g, -, hg⟩ := Except.bind_eq_ok.mp hs
    exact hvector g hg

end Vector

end Guess

end Collocation
