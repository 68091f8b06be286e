import Collocation.Proofs.Transcription.Objective
import Collocation.Proofs.Transcription.Quadrature

/-! Integral costs in Mayer form.  An integral cost may be replaced by a state that has the
integrand as its derivative and by an endpoint cost for the change of that state: as long as the
defects of the state vanish, the objective is the same. -/

namespace Collocation

variable {α : Type} [Scalar α]

/-- A point with its first `n` states, as integrands see it. -/
def Point.firstStates (n : Nat) (pt : Point α) : Point α :=
  { pt with state := pt.state.take n, multiplier := [] }

def Endpoints.firstStates (n : Nat) (e : Endpoints α) : Endpoints α :=
  { e with initialState := e.initialState.take n, finalState := e.finalState.take n }

def Trajectory.firstStates (n : Nat) (tr : Trajectory α) : Trajectory α :=
  { tr with states := tr.states.map (·.take n) }

/-- A cost that does not look at a further state: it has the weight of `c`, and on arguments of the
right size the value that `c` has without that state. -/
structure CostFunction.Ignores {β : Type} (sized : β → Prop) (first : β → β)
    (c' c : CostFunction β α) : Prop where
  weight : c'.weight = c.weight
  value : ∀ b, sized b →
    Transcription.single c'.function b = Transcription.single c.function (first b)

def Point.HasStates (n : Nat) (pt : Point α) : Prop := pt.state.length = n

def Endpoints.HasStates (n : Nat) (e : Endpoints α) : Prop :=
  e.initialState.length = n ∧ e.finalState.length = n

/-- Functions in which the integral cost `c` of `f` is replaced: a further state has the integrand
as its derivative, an endpoint cost of the same weight is the change of that state, and the other
costs stay as they are. -/
structure Functions.Mayer (f' f : Functions α) (c : CostFunction (Point α) α) : Prop where
  sizes : f'.sizes = { f.sizes with states := f.sizes.states + 1 }
  kinematic : f'.kinematic.isSome = f.kinematic.isSome
  slope : ∀ pt : Point α, pt.HasStates (f.sizes.states + 1) →
    Layout.entry (f'.dynamics.at pt) f.sizes.states =
      Transcription.single c.function (pt.firstStates f.sizes.states)
  endpointCosts : ∃ change others, f'.endpointCosts.Perm (change :: others) ∧
    change.weight = c.weight ∧
    (∀ e : Endpoints α, e.HasStates (f.sizes.states + 1) →
      Transcription.single change.function e =
        Layout.entry e.finalState f.sizes.states - Layout.entry e.initialState f.sizes.states) ∧
    List.Forall₂ (CostFunction.Ignores (Endpoints.HasStates (f.sizes.states + 1))
      (Endpoints.firstStates f.sizes.states)) others f.endpointCosts
  integralCosts : ∃ others, f.integralCosts.Perm (c :: others) ∧
    List.Forall₂ (CostFunction.Ignores (Point.HasStates (f.sizes.states + 1))
      (Point.firstStates f.sizes.states)) f'.integralCosts others

theorem Functions.Mayer.states {f' f : Functions α} {c : CostFunction (Point α) α}
    (h : f'.Mayer f c) : f'.sizes.states = f.sizes.states + 1 := congrArg Dimensions.states h.sizes

namespace Trajectory

section First

variable {tr : Trajectory α} {f : Functions α} {m : Mesh α} {n k : Nat}

omit [Scalar α] in
theorem row_firstStates : (tr.firstStates n).states[k]?.getD [] =
    (tr.states[k]?.getD []).take n := by
  rw [firstStates, List.getElem?_map]
  cases tr.states[k]? <;> simp

theorem pointAt_firstStates : (tr.firstStates n).pointAt m k = (tr.pointAt m k).firstStates n := by
  rw [pointAt, row_firstStates]
  rfl

omit [Scalar α] in
theorem endsOn_firstStates : (tr.firstStates n).endsOn m = (tr.endsOn m).firstStates n := by
  rw [endsOn, row_firstStates, row_firstStates]
  rfl

variable (hfits : tr.Fits f m)
include hfits

theorem Fits.hasStates (hk : k < m.numPoints) : (tr.pointAt m k).HasStates f.sizes.states :=
  Layout.length_row hfits.stateRows (hfits.states ▸ hk)

theorem Fits.endsOn_hasStates (hm : 0 < m.numPoints) : (tr.endsOn m).HasStates f.sizes.states :=
  ⟨hfits.hasStates hm, hfits.hasStates (by omega : m.numPoints - 1 < m.numPoints)⟩

variable (hn : f.sizes.states = n + 1)
include hn

theorem integrand_firstStates {c' c : CostFunction (Point α) α}
    (hc : c'.Ignores (Point.HasStates (n + 1)) (Point.firstStates n) c) :
    tr.integrand m c' = (tr.firstStates n).integrand m c := by
  refine List.map_congr_left fun k hk => ?_
  rw [pointAt_firstStates]
  exact hc.value _ (hn ▸ hfits.hasStates (List.mem_range.mp hk))

theorem integralCost_firstStates {c' c : CostFunction (Point α) α}
    (hc : c'.Ignores (Point.HasStates (n + 1)) (Point.firstStates n) c) :
    tr.integralCost m c' = (tr.firstStates n).integralCost m c := by
  simp only [integralCost, integrand_firstStates hfits hn hc, hc.weight]
  rfl

theorem endpointCost_firstStates (hm : 0 < m.numPoints) {c' c : CostFunction (Endpoints α) α}
    (hc : c'.Ignores (Endpoints.HasStates (n + 1)) (Endpoints.firstStates n) c) :
    tr.endpointCost m c' = (tr.firstStates n).endpointCost m c := by
  rw [endpointCost, endpointCost, endsOn_firstStates, hc.weight,
    hc.value _ (hn ▸ hfits.endsOn_hasStates hm)]

end First

section Exchange

variable {tr : Trajectory Extended} {f' f : Functions Extended} {m : Mesh Extended} {qs : List ℚ}
  {c : CostFunction (Point Extended) Extended}

variable (hf : f'.Mayer f c) (hfits : tr.Fits f' m)
include hf hfits

/-- The slopes of the further state are the values of the integrand. -/
theorem slope_eq {k : Nat} (hk : k < m.numPoints) : tr.slope f' m k f.sizes.states =
    Transcription.single c.function ((tr.firstStates f.sizes.states).pointAt m k) := by
  have hstates : ({ tr.pointAt m k with multiplier := tr.multipliers[k]?.getD [] } :
      Point Extended).HasStates (f.sizes.states + 1) := hf.states ▸ hfits.hasStates hk
  rw [slope, derivativeAt, hf.slope _ hstates, pointAt_firstStates]
  rfl

theorem sequenceDefect_eq {k : Nat} (hk : k + 1 < m.numPoints) :
    Transcription.sequenceDefect m.points (tr.finalTime - tr.initialTime)
      ((List.range m.numPoints).map fun k => tr.stateEntry k f.sizes.states)
      ((tr.firstStates f.sizes.states).integrand m c) k = tr.defectAt f' m k f.sizes.states := by
  have hk' : k < m.numPoints := by omega
  rw [Transcription.sequenceDefect, integrand, Layout.entry_map_range hk,
    Layout.entry_map_range hk', Layout.entry_map_range hk, Layout.entry_map_range hk',
    ← slope_eq hf hfits hk, ← slope_eq hf hfits hk']
  rfl

/-- Without the further state a trajectory fits the functions before. -/
theorem Fits.firstStates : (tr.firstStates f.sizes.states).Fits f m := by
  have hpoints : Transcription.constrainedPoints f' m = Transcription.constrainedPoints f m := by
    rw [Transcription.constrainedPoints, hf.kinematic, Transcription.constrainedPoints]
  obtain ⟨hstates, hstateRows, hcontrols, hcontrolRows, hmultipliers, hmultiplierRows,
    hparameters⟩ := hfits
  rw [hf.sizes] at hstateRows hcontrolRows hmultiplierRows hparameters
  rw [hpoints] at hmultipliers
  refine ⟨?_, fun row hrow => ?_, hcontrols, hcontrolRows, hmultipliers, hmultiplierRows,
    hparameters⟩
  · rw [Trajectory.firstStates, List.length_map, hstates]
  · obtain ⟨whole, hwhole, rfl⟩ := List.mem_map.mp hrow
    rw [List.length_take, hstateRows whole hwhole]
    exact Nat.min_eq_left (Nat.le_succ _)

variable (hm : m.Grid qs)
  (h : ∀ k, k + 1 < m.numPoints → tr.defectAt f' m k f.sizes.states = 0.0)
include hm h

/-- The change of the further state is the integral that it replaces. -/
theorem change_eq {change : CostFunction (Endpoints Extended) Extended}
    (hweight : change.weight = c.weight)
    (hchange : ∀ e : Endpoints Extended, e.HasStates (f.sizes.states + 1) →
      Transcription.single change.function e =
        Layout.entry e.finalState f.sizes.states - Layout.entry e.initialState f.sizes.states) :
    tr.endpointCost m change = (tr.firstStates f.sizes.states).integralCost m c := by
  have hpoints := hm.numPoints_pos
  obtain ⟨r, s, hr, hs, hgrowth⟩ := Transcription.growth_eq_weightedSum hm (by simp)
    (by simp [integrand]) fun k hk => (sequenceDefect_eq hf hfits hk).trans (h k hk)
  rw [Layout.entry_map_range (by omega), Layout.entry_map_range hpoints] at hgrowth
  have hends : Transcription.single change.function (tr.endsOn m) = .finite (r * s) :=
    (hchange _ (hf.states ▸ hfits.endsOn_hasStates hpoints)).trans hgrowth
  have hduration : (tr.firstStates f.sizes.states).finalTime -
      (tr.firstStates f.sizes.states).initialTime = .finite r := hr
  rw [endpointCost, integralCost, hends, hduration, hs, hweight,
    if_neg (Transcription.weights_ne_zero hm)]
  simp only [Transcription.weighted, List.foldl_cons, List.foldl_nil, Extended.mul_mul_finite]

/-- Both forms have the same costs in sum. -/
theorem sum_costs_eq :
    Scalar.sum (tr.costs f' m) = Scalar.sum ((tr.firstStates f.sizes.states).costs f m) := by
  obtain ⟨change, others, hendpoint, hweight, hchange, hothers⟩ := hf.endpointCosts
  obtain ⟨rest, hintegral, hrest⟩ := hf.integralCosts
  have hends : others.map (tr.endpointCost m) =
      f.endpointCosts.map ((tr.firstStates f.sizes.states).endpointCost m) := by
    rw [← List.forall₂_eq_eq_eq, List.forall₂_map_left_iff, List.forall₂_map_right_iff]
    exact hothers.imp fun _ _ hc => endpointCost_firstStates hfits hf.states hm.numPoints_pos hc
  have hintegrals : f'.integralCosts.map (tr.integralCost m) =
      rest.map ((tr.firstStates f.sizes.states).integralCost m) := by
    rw [← List.forall₂_eq_eq_eq, List.forall₂_map_left_iff, List.forall₂_map_right_iff]
    exact hrest.imp fun _ _ hc => integralCost_firstStates hfits hf.states hc
  rw [costs, costs, hintegrals]
  have hmayer := (hendpoint.map (tr.endpointCost m)).append_right
    (rest.map ((tr.firstStates f.sizes.states).integralCost m))
  have hlagrange := (hintegral.map ((tr.firstStates f.sizes.states).integralCost m)).append_left
    (f.endpointCosts.map ((tr.firstStates f.sizes.states).endpointCost m))
  rw [List.map_cons, hends, change_eq hf hfits hm h hweight hchange] at hmayer
  rw [List.map_cons] at hlagrange
  exact Extended.sum_perm (hmayer.trans (List.perm_middle.symm.trans hlagrange.symm))

end Exchange

end Trajectory

namespace Transcription

/-- A transcription by the trapezoidal rule on the mesh `m`, of a problem that calls declare and
that has the functions `f`. -/
def Transcribes (t : Transcription α) (f : Functions α) (m : Mesh α) : Prop :=
  ∃ (calls : List (Problem.Call α)) (name : Value α) (p : Problem α) (r : Registry α)
    (solver : Solver α), (Edit.sequence Problem.Call.run calls).Yields { name } () p ∧
      p.functions = .ok f ∧ create r solver p = .ok t ∧ solver.mesh = m ∧ t.scheme = .trapezoidal

theorem Transcribes.trapezoidal {t : Transcription α} {f : Functions α} {m : Mesh α}
    (h : t.Transcribes f m) : ∃ p d, f.Of d ∧ t.Trapezoidal p f m := by
  obtain ⟨calls, name, p, r, solver, hcalls, hf, hcreate, rfl, hscheme⟩ := h
  obtain ⟨f', hf', hof, ht⟩ := create_eq_ok (Problem.holds_ofCalls hcalls) hcreate hscheme
  obtain rfl : f' = f := Except.ok.inj (hf'.symm.trans hf)
  exact ⟨p, _, hof, ht⟩

/-- A vector whose further state has no defects has the objective of the vector without that
state. -/
theorem evaluateObjective_mayer {t t' : Transcription Extended} {p p' : Problem Extended}
    {f f' : Functions Extended} {d' : Declared Extended} {m : Mesh Extended} {qs : List ℚ}
    {c : CostFunction (Point Extended) Extended} (ht : t.Trapezoidal p f m)
    (ht' : t'.Trapezoidal p' f' m) (hof' : f'.Of d') (hf : f'.Mayer f c) (hm : m.Grid qs)
    {w w' : List Extended} (hw : w.length = t.layout.size) (hw' : w'.length = t'.layout.size)
    (htr : t.layout.trajectoryOf w = (t'.layout.trajectoryOf w').firstStates f.sizes.states)
    (hdefect : ∀ k, k + 1 < m.numPoints →
      Layout.entry (t'.defect k (t'.sample (t'.read w'))) f.sizes.states = 0.0) :
    ∃ x, t.evaluateObjective w = .ok x ∧ t'.evaluateObjective w' = .ok x := by
  have hvanish (k : Nat) (hk : k + 1 < m.numPoints) :
      (t'.layout.trajectoryOf w').defectAt f' m k f.sizes.states = 0.0 := by
    have hentry := hdefect k hk
    rwa [defect_eq ht' hw' hof' hk, Trajectory.defectsAt, if_pos hk, hf.states,
      Layout.entry_map_range (Nat.lt_succ_self _)] at hentry
  refine ⟨_, ht.evaluateObjective_eq hw hm.numPoints_pos, ?_⟩
  rw [ht'.evaluateObjective_eq hw' hm.numPoints_pos, htr,
    Trajectory.sum_costs_eq hf (ht'.fits hw') hm hvanish]

/-- The weights of a mesh are positive and sum to one; a sequence without defects grows by the
weighted sum of its slopes, times the length of the horizon; and an integral cost may be put into
Mayer form, which leaves the objective of every vector as it is if the defects of the further state
vanish. -/
theorem quadrature_eq_growth {form : MeshForm Extended} {m : Mesh Extended}
    (hm : Mesh.ofForm form = .ok m) :
    ∃ q, quadratureOf .trapezoidal m = .ok q ∧
      q.length = m.numPoints ∧ (∀ x ∈ q, 0.0 < x) ∧ Scalar.sum q = 1.0 ∧
      (∀ (t0 tf : Extended) (y l : List Extended), y.length = m.numPoints →
        l.length = m.numPoints →
        (∀ k, k + 1 < m.numPoints → sequenceDefect m.points (tf - t0) y l k = 0.0) →
        Layout.entry y (m.numPoints - 1) - Layout.entry y 0 = (tf - t0) * weightedSum q l) ∧
      ∀ (f f' : Functions Extended) (c : CostFunction (Point Extended) Extended)
        (t t' : Transcription Extended), t.Transcribes f m → t'.Transcribes f' m → f'.Mayer f c →
        ∀ (w' : List Extended) (tr : Trajectory Extended), t'.layout.split w' = .ok tr →
          (∃ w, t.layout.split w = .ok (tr.firstStates f.sizes.states)) ∧
          ∀ w, t.layout.split w = .ok (tr.firstStates f.sizes.states) →
            (∀ k, k + 1 < m.numPoints →
              Layout.entry (t'.defect k (t'.sample (t'.read w'))) f.sizes.states = 0.0) →
            ∃ x, t.evaluateObjective w = .ok x ∧ t'.evaluateObjective w' = .ok x := by
  obtain ⟨qs, hgrid⟩ := Mesh.grid_of_form hm
  obtain ⟨hweights, hpos, hsum⟩ := weights_of_grid hgrid
  refine ⟨trapezoidalWeights m.intervals, quadratureOf_eq rfl hgrid.numPoints_pos, ?_, ?_, ?_, ?_,
    ?_⟩
  · obtain ⟨x, points, rfl⟩ : ∃ x points, qs = x :: points := by
      cases qs with
      | nil => exact absurd hgrid.two (by simp)
      | cons x points => exact ⟨x, points, rfl⟩
    rw [hweights, List.length_map, length_weightsFrom, Mesh.numPoints, hgrid.points,
      List.length_map, List.length_cons]
  · intro x hx
    rw [hweights] at hx
    obtain ⟨w, hw, rfl⟩ := List.mem_map.mp hx
    rw [Extended.zero_eq, Extended.finite_lt_finite]
    exact hpos w hw
  · rw [hweights, Extended.sum_finite, hsum, Extended.one_eq]
  · intro t0 tf y l hy hl hdefect
    obtain ⟨r, s, hr, hs, hgrowth⟩ := growth_eq_weightedSum hgrid hy hl hdefect
    rw [hgrowth, hr, hs, Extended.finite_mul]
  · intro f f' c t t' ht ht' hf w' tr hsplit'
    obtain ⟨p, d, hof, ht⟩ := ht.trapezoidal
    obtain ⟨p', d', hof', ht'⟩ := ht'.trapezoidal
    obtain ⟨hw', rfl⟩ := Layout.split_eq_ok.mp hsplit'
    have hfits := Trajectory.Fits.firstStates hf (ht'.fits hw')
    refine ⟨ht.layout.exists_split hfits (fun _ => constrainedPoints_lt)
      nodup_constrainedPoints, fun w hsplit hdefect => ?_⟩
    obtain ⟨hw, htr⟩ := Layout.split_eq_ok.mp hsplit
    exact evaluateObjective_mayer ht ht' hof' hf hgrid hw hw' htr hdefect

namespace Sample

def callable {β : Type} (fs : List (β → Extended)) : Supplied β Extended :=
  .evaluator fun _ => .ok (.function ⟨fs.length, 1, fs⟩)

def push (pt : Point Extended) : Extended := Layout.entry pt.control 0

def effort (pt : Point Extended) : Extended := push pt * push pt

def change (e : Endpoints Extended) : Extended :=
  Layout.entry e.finalState 1 - Layout.entry e.initialState 1

def integralCalls : List (Problem.Call Extended) :=
  [.time (.real 0.0) (.real 1.0), .state (.text "x") .none .none .none,
    .control (.text "u") .none .none .none, .dynamics (callable [push]),
    .integralCost (.text "effort") (callable [effort]) (.int 2)]

def mayerCalls : List (Problem.Call Extended) :=
  [.time (.real 0.0) (.real 1.0), .state (.text "x") .none .none .none,
    .state (.text "y") .none .none .none, .control (.text "u") .none .none .none,
    .dynamics (callable [push, effort]),
    .endpointCost (.text "effort") (callable [change]) (.int 2)]

def integralFunctions : Functions Extended where
  stateNames := ["x"]
  controlNames := ["u"]
  multiplierNames := []
  parameterNames := []
  initialTime := ⟨.finite 0, .finite 0⟩
  finalTime := ⟨.finite 1, .finite 1⟩
  dynamics := [push]
  kinematic := none
  path := []
  endpointCosts := []
  integralCosts := [⟨"effort", [effort], .finite 2⟩]

def mayerFunctions : Functions Extended where
  __ := integralFunctions
  stateNames := ["x", "y"]
  dynamics := [push, effort]
  endpointCosts := [⟨"effort", [change], .finite 2⟩]
  integralCosts := []

def accumulated : Trajectory Extended where
  states := [[0.0, 0.0], [0.5, 0.625], [0.25, 5.5]]
  controls := [[1.0], [2.0], [3.0]]
  multipliers := []
  initialTime := 0.0
  finalTime := 1.0
  parameters := []

theorem mayer_functions :
    mayerFunctions.Mayer integralFunctions ⟨"effort", [effort], .finite 2⟩ where
  sizes := rfl
  kinematic := rfl
  slope _ _ := rfl
  endpointCosts := ⟨_, [], .refl _, rfl, fun _ _ => rfl, .nil⟩
  integralCosts := ⟨[], .refl _, .nil⟩

theorem transcribes_of_created {calls : List (Problem.Call Extended)} {f : Functions Extended}
    {t : Transcription Extended}
    (hcalls : ((Edit.sequence Problem.Call.run calls).run { name := .text "sample" }).run.1.isOk)
    (hf : (problemOf calls).functions = .ok f)
    (ht : create .initial solver (problemOf calls) = .ok t) : t.Transcribes f solver.mesh :=
  ⟨calls, _, _, .initial, solver, Edit.yields_of_isOk hcalls, hf, ht, rfl,
    create_scheme (i := 0) rfl ht⟩

def integralVector : List Extended := [0.0, 1.0, 0.5, 2.0, 0.25, 3.0, 0.0, 1.0]

def mayerVector : List Extended := [0.0, 0.0, 1.0, 0.5, 0.625, 2.0, 0.25, 5.5, 3.0, 0.0, 1.0]

def defectsOf (t : Transcription Extended) (w : List Extended) : List Extended :=
  (List.range 2).map fun k => Layout.entry (t.defect k (t.sample (t.read w))) 1

theorem integral_created : ∃ t : Transcription Extended,
    t.Transcribes integralFunctions solver.mesh ∧
      t.layout.split integralVector = .ok (accumulated.firstStates 1) := by
  have hrun : (create .initial solver (problemOf integralCalls) >>= fun t =>
      t.layout.split integralVector) = .ok (accumulated.firstStates 1) := by
    with_unfolding_all rfl
  have hf : (problemOf integralCalls).functions = .ok integralFunctions := by
    with_unfolding_all rfl
  obtain ⟨t, ht, hsplit⟩ := Except.bind_eq_ok.mp hrun
  exact ⟨t, transcribes_of_created (by decide +kernel) hf ht, hsplit⟩

theorem mayer_created : ∃ t : Transcription Extended,
    t.Transcribes mayerFunctions solver.mesh ∧ t.layout.split mayerVector = .ok accumulated ∧
      defectsOf t mayerVector = [0.0, 0.0] := by
  have hrun : (create .initial solver (problemOf mayerCalls) >>= fun t =>
      t.layout.split mayerVector >>= fun tr => pure (tr, defectsOf t mayerVector)) =
        .ok (accumulated, [0.0, 0.0]) := by
    with_unfolding_all rfl
  have hf : (problemOf mayerCalls).functions = .ok mayerFunctions := by
    with_unfolding_all rfl
  obtain ⟨t, ht, hrest⟩ := Except.bind_eq_ok.mp hrun
  obtain ⟨tr, hsplit, hpair⟩ := Except.bind_eq_ok.mp hrest
  obtain ⟨rfl, hdefects⟩ := Prod.mk.inj (Except.pure_eq_ok.mp hpair)
  exact ⟨t, transcribes_of_created (by decide +kernel) hf ht, hsplit, hdefects⟩

end Sample

theorem quadrature_eq_growth_sample : ∃ q,
    quadratureOf .trapezoidal Sample.solver.mesh = .ok q ∧ Scalar.sum q = 1.0 ∧
      (5.5 - 0.0 : Extended) = (1.0 - 0.0) * weightedSum q [1.0, 4.0, 9.0] ∧
      ∃ (t t' : Transcription Extended) (x : Extended),
        t.Transcribes Sample.integralFunctions Sample.solver.mesh ∧
        t'.Transcribes Sample.mayerFunctions Sample.solver.mesh ∧
        t.evaluateObjective Sample.integralVector = .ok x ∧
        t'.evaluateObjective Sample.mayerVector = .ok x := by
  obtain ⟨q, hq, _, _, hsum, hgrowth, hobjective⟩ := quadrature_eq_growth Sample.form_solver
  obtain ⟨t, ht, hsplit⟩ := Sample.integral_created
  obtain ⟨t', ht', hsplit', hdefects⟩ := Sample.mayer_created
  refine ⟨q, hq, hsum, ?_, t, t', ?_⟩
  · refine hgrowth 0.0 1.0 [0.0, 0.625, 5.5] [1.0, 4.0, 9.0] rfl rfl fun k hk => ?_
    have hall : ∀ k < 2, sequenceDefect Sample.solver.mesh.points (1.0 - 0.0)
        [0.0, 0.625, 5.5] [1.0, 4.0, 9.0] k = 0.0 := by decide +kernel
    exact hall k (Nat.lt_of_succ_lt_succ hk)
  · have hall : ∀ k < 2, Layout.entry ([0.0, 0.0] : List Extended) k = 0.0 := by decide +kernel
    have hvanish (k : Nat) (hk : k + 1 < Sample.solver.mesh.numPoints) :
        Layout.entry (t'.defect k (t'.sample (t'.read Sample.mayerVector))) 1 = 0.0 := by
      have hk : k < 2 := Nat.lt_of_succ_lt_succ hk
      rw [← hall k hk, ← hdefects, Sample.defectsOf, Layout.entry_map_range hk]
    obtain ⟨-, hequal⟩ := hobjective _ _ _ t t' ht ht' Sample.mayer_functions _ _ hsplit'
    obtain ⟨x, hx, hx'⟩ := hequal _ hsplit hvanish
    exact ⟨x, ht, ht', hx, hx'⟩

end Transcription

end Collocation
