import Collocation.Proofs.Guess.Default
import Collocation.Proofs.Guess.Reading
import Collocation.Proofs.Layout.Clipping
import Collocation.Proofs.Values

/-! Where guesses go.  A guess of numbers that is accepted is placed field by field over the default
start and moved into the bounds.  As the default start is within the bounds, what a guess leaves out
stays as it is there. -/

namespace Collocation

namespace Guess

/-- The fields of a guess as numbers, arrays row by row. -/
structure Numbers where
  times : Option (List ℚ) := none
  states : Option (List ℚ) := none
  controls : Option (List ℚ) := none
  multipliers : Option (List ℚ) := none
  parameters : Option (List ℚ) := none
  initialTime : Option ℚ := none
  finalTime : Option ℚ := none

structure Holds (g : Guess Extended) (a : Numbers) : Prop where
  times : g.times.HoldsArray a.times
  states : g.states.HoldsArray a.states
  controls : g.controls.HoldsArray a.controls
  multipliers : g.multipliers.HoldsArray a.multipliers
  parameters : g.parameters.HoldsArray a.parameters
  initialTime : g.initialTime.HoldsScalar a.initialTime
  finalTime : g.finalTime.HoldsScalar a.finalTime

/-- The trajectory that a guess stands for: every sort of variables from its samples, and where
there are none from the default start; the times from the guess, or else from its sample times. -/
def Numbers.trajectory (a : Numbers) (l : Layout Extended) (points : List ℚ) :
    Trajectory Extended :=
  let base := l.trajectoryOf (default l)
  { states := sampledRows a.times a.states l.sizes.states points base.states
    controls := sampledRows a.times a.controls l.sizes.controls points base.controls
    multipliers := sampledRows a.times (if l.constrained.isEmpty then none else a.multipliers)
      l.sizes.multipliers (multiplierPoints l points) base.multipliers
    initialTime := ((a.initialTime <|> a.times.bind (·.head?)).map .finite).getD base.initialTime
    finalTime := ((a.finalTime <|> a.times.bind (·.getLast?)).map .finite).getD base.finalTime
    parameters := (a.parameters.map (·.map .finite)).getD base.parameters }

section Content

variable {g : Guess Extended} {a : Numbers} {l : Layout Extended} {m : Mesh Extended}
  {tr : Trajectory Extended} {points : List ℚ}

theorem override_read {v : Value Extended} {x : Option ℚ} {rest y : Extended}
    (hv : v.HoldsScalar x) (h : override v rest = .ok y) : y = (x.map .finite).getD rest := by
  unfold override at h
  split at h
  · cases x with
    | none => exact (Except.ok.inj h).symm
    | some q => cases hv
  · next hne =>
    cases x with
    | none => exact absurd hv hne
    | some q => exact Except.ok.inj (h.symm.trans hv)

theorem overrideParameters_read {v : Value Extended} {xs : Option (List ℚ)}
    {rest ys : List Extended} (hv : v.HoldsArray xs) (h : overrideParameters v rest = .ok ys) :
    ys = (xs.map (·.map .finite)).getD rest := by
  unfold overrideParameters at h
  split at h
  · cases xs with
    | none => exact (Except.ok.inj h).symm
    | some qs => exact absurd rfl hv.ne_none
  · next hne =>
    cases xs with
    | none => exact absurd hv hne
    | some qs => exact Except.ok.inj (h.symm.trans hv.toVector)

/-- The content of a guess of numbers. -/
theorem content_read (hm : m.Grid points) (ha : g.Holds a)
    (h : g.content l m (l.trajectoryOf (default l)) = .ok tr) :
    (∀ ts ∈ a.times, Times ts) ∧ tr = a.trajectory l points := by
  simp only [content, Except.bind_eq_ok, Except.pure_eq_ok] at h
  obtain ⟨t, ht, ps, hps, t0, h0, tf, hf, rfl⟩ := h
  obtain ⟨htimes, xs, us, ms, hxs, hus, hms, rfl⟩ := trajectories_read hm ha.times ht
  obtain rfl := hxs.unique ha.states
  obtain rfl := hus.unique ha.controls
  obtain rfl : ms = if l.constrained.isEmpty then none else a.multipliers := by
    refine hms.unique ?_
    split_ifs
    · rfl
    · exact ha.multipliers
  have hps := overrideParameters_read ha.parameters hps
  have h0 := override_read ha.initialTime h0
  have hf := override_read ha.finalTime hf
  refine ⟨htimes, ?_⟩
  rw [hps, h0, hf]
  cases h0 : a.initialTime <;> cases hf : a.finalTime <;> simp [Numbers.trajectory, h0, hf]

end Content

/-! ### What is left out -/

/-- What a guess leaves out is in a vector as it is in the default start. -/
structure Numbers.Spares (a : Numbers) (l : Layout Extended) (w : List Extended) : Prop where
  states : a.states = none →
    (l.trajectoryOf w).states = (l.trajectoryOf (default l)).states
  controls : a.controls = none →
    (l.trajectoryOf w).controls = (l.trajectoryOf (default l)).controls
  multipliers : a.multipliers = none →
    (l.trajectoryOf w).multipliers = (l.trajectoryOf (default l)).multipliers
  parameters : a.parameters = none →
    (l.trajectoryOf w).parameters = (l.trajectoryOf (default l)).parameters
  initialTime : a.initialTime = none → a.times = none →
    w[l.initialTimeIndex]? = (default l)[l.initialTimeIndex]?
  finalTime : a.finalTime = none → a.times = none →
    w[l.finalTimeIndex]? = (default l)[l.finalTimeIndex]?

section Spares

variable {a : Numbers} {l : Layout Extended} {points : List ℚ} {v : List Extended}

/-- Rows that are those of a vector within the bounds stay so. -/
theorem map_of_clip {u : List Extended} {ks : List Nat} {f : List Extended → Nat → List Extended}
    {place : Nat → Range} (hf : ∀ w k, (place k).of w = f w k) (hu : l.clip u = u)
    (h : ks.map (f v) = ks.map (f u)) : ks.map (f (l.clip v)) = ks.map (f u) := by
  refine List.map_congr_left fun k hk => ?_
  have hk := List.map_inj_left.mp h k hk
  rw [← hf, ← hf] at hk ⊢
  exact Layout.of_clip_eq hu hk

theorem getElem?_of_entry {u : List Extended} {i : Nat} (hlength : v.length = u.length)
    (h : Layout.entry v i = Layout.entry u i) : v[i]? = u[i]? := by
  by_cases hi : i < u.length
  · have hlt : i < v.length := hlength ▸ hi
    have hv : v[i]? = some v[i] := List.getElem?_eq_getElem hlt
    have hu : u[i]? = some u[i] := List.getElem?_eq_getElem hi
    rw [Layout.entry, Layout.entry, hv, hu] at h
    rw [hv, hu]
    exact congrArg some h
  · rw [List.getElem?_eq_none (by omega), List.getElem?_eq_none (by omega)]

theorem spares (hdefault : l.clip (default l) = default l)
    (hv : l.split v = .ok (a.trajectory l points)) : a.Spares l (l.clip v) := by
  obtain ⟨hlength, hcontent⟩ := Layout.split_eq_ok.mp hv
  rw [← length_default l] at hlength
  have htime {i : Nat} (h : Layout.entry v i = Layout.entry (default l) i) :
      (l.clip v)[i]? = (default l)[i]? := by
    rw [Layout.getElem?_clip_congr (getElem?_of_entry hlength h), hdefault]
  refine ⟨fun hnone => ?states, fun hnone => ?controls, fun hnone => ?multipliers,
    fun hnone => ?parameters, fun h0 hnone => ?initialTime, fun hf hnone => ?finalTime⟩
  case states =>
    have hrows := congrArg Trajectory.states hcontent
    rw [Numbers.trajectory, hnone, sampledRows_none] at hrows
    exact map_of_clip (fun w k => l.statePlace_of w k) hdefault hrows
  case controls =>
    have hrows := congrArg Trajectory.controls hcontent
    rw [Numbers.trajectory, hnone, sampledRows_none] at hrows
    exact map_of_clip (fun w k => l.controlPlace_of w k) hdefault hrows
  case multipliers =>
    have hrows := congrArg Trajectory.multipliers hcontent
    rw [Numbers.trajectory, hnone, ite_self, sampledRows_none] at hrows
    exact map_of_clip (fun w k => l.multiplierPlace_of w k) hdefault hrows
  case parameters =>
    have hrow := congrArg Trajectory.parameters hcontent
    rw [Numbers.trajectory, hnone] at hrow
    exact Layout.of_clip_eq hdefault hrow
  case initialTime =>
    have hentry := congrArg Trajectory.initialTime hcontent
    rw [Numbers.trajectory, h0, hnone] at hentry
    exact htime hentry
  case finalTime =>
    have hentry := congrArg Trajectory.finalTime hcontent
    rw [Numbers.trajectory, hf, hnone] at hentry
    exact htime hentry

end Spares

/-! ### Other sample times -/

section Retimed

variable {g : Guess Extended} {l : Layout Extended} {m : Mesh Extended}
  {base t tr : Trajectory Extended} {ts : List ℚ} {w : List Extended}

/-- Only the number of the sample times and their fractions matter to the rows. -/
theorem placed_congr {times times' : List Extended} (hlength : times'.length = times.length)
    (hfractions : normalized times' = normalized times) (name : String) (width : Nat)
    (points : List Extended) (v : Value Extended) (rest : List (List Extended)) :
    placed name times' width points v rest = placed name times width points v rest := by
  cases v <;> simp only [placed, hlength, hfractions]

theorem override_succeeds {v : Value Extended} {x y : Extended} (h : override v x = .ok y)
    (x' : Extended) : ∃ y', override v x' = .ok y' := by
  cases v with
  | none => exact ⟨x', rfl⟩
  | _ => exact ⟨y, h⟩

variable (hts : g.times.HoldsArray (some ts)) {s c : ℚ} (hs : 0 < s) {v : Value Extended}
  (hv : v.HoldsArray (some (ts.map fun q => s * q + c)))
include hts hs hv

theorem trajectories_retimed (h : g.trajectories l m base = .ok t) : ∃ t0 tf,
    { g with times := v }.trajectories l m base =
      .ok { t with initialTime := t0, finalTime := tf } := by
  have hne := hts.ne_none
  have hne' := hv.ne_none
  unfold trajectories at h
  split at h
  · next hnone => exact absurd hnone hne
  simp only [Except.bind_eq_ok, Except.pure_eq_ok, hts.toVector, Except.ok.injEq] at h
  obtain ⟨_, rfl, _, hcheck, xs, hxs, us, hus, ms, hms, _, hks, rfl⟩ := h
  have htimes := checkTimes_eq_ok.mp hcheck
  have hcheck' := checkTimes_eq_ok.mpr (htimes.affine hs c)
  have hfractions : normalized ((ts.map fun q => s * q + c).map Extended.finite) =
      normalized (ts.map .finite) := by
    rw [normalized_finite (htimes.affine hs c), normalized_finite htimes,
      fractions_affine hs c htimes.ne_nil]
  have hplaced := @placed_congr (ts.map .finite) _ (by simp) hfractions
  refine ⟨((ts.map fun q => s * q + c).map .finite).headD 0.0,
    Mesh.lastPoint ((ts.map fun q => s * q + c).map .finite), ?_⟩
  unfold trajectories
  split
  · next hnone => exact absurd hnone hne'
  · simp only [hv.toVector, bind, Except.bind, pure, Except.pure, hcheck', hplaced, hxs, hus, hms,
      hks]

theorem content_retimed (h : g.content l m base = .ok tr) : ∃ t0 tf,
    { g with times := v }.content l m base =
      .ok { tr with initialTime := t0, finalTime := tf } := by
  simp only [content, Except.bind_eq_ok, Except.pure_eq_ok] at h
  obtain ⟨t, ht, ps, hps, t0, h0, tf, hf, rfl⟩ := h
  obtain ⟨first, last, ht'⟩ := trajectories_retimed hts hs hv ht
  obtain ⟨t0', h0'⟩ := override_succeeds h0 first
  obtain ⟨tf', hf'⟩ := override_succeeds hf last
  refine ⟨t0', tf', ?_⟩
  simp only [content, bind, Except.bind, pure, Except.pure, ht', hps, h0', hf']

/-- Sample times that are moved and stretched change the times only. -/
theorem vector_retimed {n : Nat} {d : Dimensions} {a : Arrangement Extended}
    (h : l.Arranged n d l.constrained a) (hks : ∀ k ∈ l.constrained, k < n)
    (hsorted : l.constrained.Pairwise (· < ·)) (hw : g.vector l m = .ok w) :
    ∃ w', { g with times := v }.vector l m = .ok w' ∧
      ∀ i, i ≠ l.initialTimeIndex → i ≠ l.finalTimeIndex → w'[i]? = w[i]? := by
  obtain ⟨tr, hcontent, hfills, rfl⟩ := vector_parts h hks hw
  obtain ⟨t0, tf, hcontent'⟩ := content_retimed hts hs hv hcontent
  have hfills' :
      Trajectory.Fills { tr with initialTime := t0, finalTime := tf } n d l.constrained :=
    { hfills with }
  exact ⟨_, vector_eq h hcontent' hfills', fun i h0 hf =>
    Layout.getElem?_clip_congr (h.join_times hsorted hks hfills t0 tf h0 hf)⟩

end Retimed

/-- A guess is placed in a vector: each field over the default start, moved into the bounds. -/
structure Numbers.Placed (a : Numbers) (l : Layout Extended) (points : List ℚ)
    (w : List Extended) : Prop where
  times : ∀ ts ∈ a.times, 2 ≤ ts.length ∧ ts.Pairwise (· < ·)
  vector : ∃ v, l.split v = .ok (a.trajectory l points) ∧ w = l.clip v
  spares : a.Spares l w

end Guess

namespace LayoutBuilder

open Guess

variable {b : LayoutBuilder Extended} {points : Nat} {d : Dimensions} {indices : Value Extended}
  {calls : List (Setter Extended)} {l : Layout Extended} {form : MeshForm Extended}
  {m : Mesh Extended} {g : Guess Extended} {a : Numbers} {w : List Extended}

/-- The default start of a layout that a builder makes is within the bounds. -/
theorem clip_default {r : LayoutRequest Extended} (hb : ofRequest r = .ok b)
    (hcalls : ∀ c ∈ calls, c.Made) (hl : (Edit.afterAll Setter.run calls b).build = .ok l) :
    l.clip (Guess.default l) = Guess.default l := by
  refine Layout.clip_of_within (length_default l) fun i s hs => ?_
  obtain ⟨q, hq, hwithin⟩ :=
    default_within (build_timed hb hcalls hl) (build_bounded hb hcalls hl) hs
  exact ⟨_, hq, hwithin⟩

/-- On every layout that a builder makes and on every mesh, a guess of numbers that is accepted is
placed field by field over the default start, and sample times that are moved and stretched are
accepted as well and change the times only. -/
theorem build_places (hb : ofRequest (.ofSizes points d indices) = .ok b)
    (hcalls : ∀ c ∈ calls, c.Made) (hl : (Edit.afterAll Setter.run calls b).build = .ok l)
    (hm : Mesh.ofForm form = .ok m) (ha : g.Holds a) (hw : g.vector l m = .ok w) :
    (∃ qs : List ℚ, m.points = qs.map .finite ∧ a.Placed l qs w) ∧
    ∀ ts ∈ a.times, ∀ s c : ℚ, 0 < s → ∀ v : Value Extended,
      v.HoldsArray (some (ts.map fun q => s * q + c)) →
      ∃ w', { g with times := v }.vector l m = .ok w' ∧
        ∀ i, i ≠ l.initialTimeIndex → i ≠ l.finalTimeIndex → w'[i]? = w[i]? := by
  obtain ⟨qs, hgrid⟩ := Mesh.grid_of_form hm
  obtain ⟨_, l', -, hl', hks, harranged⟩ := build_afterAll hb calls
  obtain rfl : l' = l := Except.ok.inj (hl'.symm.trans hl)
  constructor
  · obtain ⟨tr, hcontent, hfills, rfl⟩ := vector_parts harranged hks.inside hw
    obtain ⟨htimes, rfl⟩ := content_read hgrid ha hcontent
    have hsplit := harranged.split_join hks.inside hks.increasing hfills
    exact ⟨qs, hgrid.points, fun ts hts => ⟨(htimes ts hts).two, (htimes ts hts).increasing⟩,
      ⟨_, hsplit, rfl⟩, spares (clip_default hb hcalls hl) hsplit⟩
  · intro ts hts s c hs v hv
    have htimes := ha.times
    rw [Option.mem_def.mp hts] at htimes
    exact vector_retimed htimes hs hv harranged hks.inside hks.increasing hw

namespace Sample

def numbers : Numbers where
  times := some [1, 3]
  states := some [0, 4]
  parameters := some [7]
  finalTime := some 2

/-- A guess of the states at two times, of the parameter and of another final time. -/
def guess : Guess Extended where
  times := .ofRow [.finite 1, .finite 3]
  states := .ofRows [[.finite 0], [.finite 4]]
  parameters := .real (.finite 7)
  finalTime := .real (.finite 2)

theorem guess_holds : guess.Holds numbers where
  times := ⟨_, Value.toTensor_ofRow _⟩
  states := ⟨[2, 1], rfl⟩
  controls := rfl
  multipliers := rfl
  parameters := ⟨[], rfl⟩
  initialTime := rfl
  finalTime := rfl

end Sample

theorem build_places_three : ∃ (b : LayoutBuilder Extended) (l : Layout Extended)
    (m : Mesh Extended) (w : List Extended),
    ofRequest (.ofSizes 3 ⟨1, 0, 1, 1⟩ (.list [.int 2, .int 0])) = .ok b ∧
    (∀ c ∈ sampleCalls, c.Made) ∧ (Edit.afterAll Setter.run sampleCalls b).build = .ok l ∧
    Mesh.ofForm (.uniform (.int 3)) = .ok m ∧ Sample.guess.vector l m = .ok w ∧
    (∃ qs : List ℚ, m.points = qs.map .finite ∧ Sample.numbers.Placed l qs w) ∧
    ∀ ts ∈ Sample.numbers.times, ∀ s c : ℚ, 0 < s → ∀ v : Value Extended,
      v.HoldsArray (some (ts.map fun q => s * q + c)) →
      ∃ w', { Sample.guess with times := v }.vector l m = .ok w' ∧
        ∀ i, i ≠ l.initialTimeIndex → i ≠ l.finalTimeIndex → w'[i]? = w[i]? := by
  obtain ⟨w, hall⟩ := Except.exists_of_isOk
    (show (do
        let b ← ofRequest (.ofSizes 3 ⟨1, 0, 1, 1⟩ (.list [.int 2, .int 0]))
        let l ← (Edit.afterAll Setter.run sampleCalls b).build
        let m ← Mesh.ofForm (.uniform (.int 3))
        Sample.guess.vector l m : Outcome Extended (List Extended)).isOk = true by
      decide +kernel)
  simp only [Except.bind_eq_ok] at hall
  obtain ⟨b, hb, l, hl, m, hm, hw⟩ := hall
  exact ⟨b, l, m, w, hb, sampleCalls_made, hl, hm, hw,
    build_places hb sampleCalls_made hl hm Sample.guess_holds hw⟩

end LayoutBuilder

end Collocation
