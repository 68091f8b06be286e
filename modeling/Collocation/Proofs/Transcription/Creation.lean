import Collocation.Proofs.Layout.Accessors
import Collocation.Proofs.Mesh
import Collocation.Proofs.Problem.Snapshot
import Collocation.Transcription.Program

/-! Transcriptions by the trapezoidal rule.  Kinematic constraints hold at every point of the mesh
or, if a problem has none, nowhere, and the layout has every variable of the problem in its place.
-/

namespace Collocation

variable {α : Type} [Scalar α]

namespace Problem

/-- The calls that fill a layout with the bounds and names of a problem. -/
def setters (p : Problem α) (f : Functions α) : List (LayoutBuilder.Setter α) :=
  [.states (p.states.map (·.bounds)) (some (p.states.map (·.initial)))
      (some (p.states.map (·.final))),
    .controls (p.controls.map (·.bounds)) (some (p.controls.map (·.initial)))
      (some (p.controls.map (·.final))),
    .multipliers (p.multipliers.map (·.bounds)),
    .parameters (p.parameters.map (·.bounds)),
    .times f.initialTime f.finalTime,
    .names (.ofTexts f.stateNames) (.ofTexts f.controlNames) (.ofTexts f.multiplierNames)
      (.ofTexts f.parameterNames)]

/-- The bounds and names of the variables of a problem. -/
def arrangement (p : Problem α) (f : Functions α) : Arrangement α where
  states := ⟨p.states.map (·.bounds), some (p.states.map (·.initial)),
    some (p.states.map (·.final))⟩
  controls := ⟨p.controls.map (·.bounds), some (p.controls.map (·.initial)),
    some (p.controls.map (·.final))⟩
  multipliers := p.multipliers.map (·.bounds)
  parameters := p.parameters.map (·.bounds)
  times := (f.initialTime, f.finalTime)
  stateNames := f.stateNames.map .text
  controlNames := f.controlNames.map .text
  multiplierNames := f.multiplierNames.map .text
  parameterNames := f.parameterNames.map .text

omit [Scalar α] in
theorem afterCalls_setters (p : Problem α) (f : Functions α) (a : Arrangement α) :
    a.afterCalls (p.setters f) = p.arrangement f := rfl

end Problem

namespace Transcription

variable {p : Problem α} {f : Functions α} {n : Nat} {points : List Int} {l : Layout α}

/-- A layout is built once the setters of the problem have filled a builder. -/
theorem layoutOf_eq : layoutOf f p n points = (do
    let b ← LayoutBuilder.ofRequest (.ofSizes n f.sizes (.list (points.map .int)))
    let (outcome, filled) := ((Edit.sequence LayoutBuilder.Setter.run (p.setters f)).run b).run
    outcome
    filled.build) := by
  simp only [Problem.setters, Edit.sequence_cons, Edit.sequence_nil, bind_pure_unit]
  rfl

theorem layoutOf_eq_ok : layoutOf f p n points = .ok l ↔
    ∃ b b', LayoutBuilder.ofRequest (.ofSizes n f.sizes (.list (points.map .int))) = .ok b ∧
      (Edit.sequence LayoutBuilder.Setter.run (p.setters f)).Yields b () b' ∧ b'.build = .ok l := by
  simp only [layoutOf_eq, Except.bind_eq_ok]
  constructor
  · rintro ⟨b, hb, _, hrun, hbuild⟩
    obtain ⟨b', hleft, hyields⟩ := Edit.yields_of_run hrun
    exact ⟨b, b', hb, hyields, hleft ▸ hbuild⟩
  · rintro ⟨b, b', hb, hyields, hbuild⟩
    refine ⟨b, hb, (), ?_⟩
    rw [hyields]
    exact ⟨rfl, hbuild⟩

/-- The layout of a problem has every variable in its place. -/
theorem layoutOf_arranged (h : layoutOf f p n points = .ok l) :
    ∃ ks, LayoutBuilder.Constrained n f.sizes.multipliers points ks ∧
      l.Arranged n f.sizes ks (p.arrangement f) := by
  obtain ⟨b, b', hb, hcalls, hbuild⟩ := layoutOf_eq_ok.mp h
  have hasked : (Value.list (points.map .int) : Value α).toItems = .ok (points.map .int) := rfl
  obtain ⟨ks, hks, hsized, harrangement⟩ := LayoutBuilder.filled_sized hasked hb hcalls
  obtain ⟨l', hl', harranged⟩ := LayoutBuilder.build_arranged hsized hks.inside hks.nodup
  obtain rfl : l' = l := Except.ok.inj (hl'.symm.trans hbuild)
  exact ⟨ks, hks, by rwa [harrangement, Problem.afterCalls_setters] at harranged⟩

/-- The points of a mesh with kinematic constraints: all of them, or none. -/
def constrainedPoints (f : Functions α) (m : Mesh α) : List Nat :=
  if f.kinematic.isSome then List.range m.numPoints else []

omit [Scalar α] in
theorem constrainedPoints_lt {m : Mesh α} {k : Nat} (hk : k ∈ constrainedPoints f m) :
    k < m.numPoints := by
  unfold constrainedPoints at hk
  split_ifs at hk
  · exact List.mem_range.mp hk
  · cases hk

omit [Scalar α] in
theorem nodup_constrainedPoints {m : Mesh α} : (constrainedPoints f m).Nodup := by
  unfold constrainedPoints
  split_ifs
  · exact List.nodup_range
  · exact List.nodup_nil

/-- A transcription of a problem with the functions `f` by the trapezoidal rule on the mesh `m`. -/
structure Trapezoidal (t : Transcription α) (p : Problem α) (f : Functions α) (m : Mesh α) :
    Prop where
  scheme : t.scheme = .trapezoidal
  mesh : t.mesh = m
  functions : t.functions = f
  kinematicPoints : t.kinematicPoints = (constrainedPoints f m).map Int.ofNat
  quadrature : t.quadrature = trapezoidalWeights m.intervals
  costNames : f.costNames.Nodup
  layout : t.layout.Arranged m.numPoints f.sizes (constrainedPoints f m) (p.arrangement f)

theorem layoutOf_constrained {d : Declared α} {m : Mesh α} (hf : f.Of d)
    (h : layoutOf f p m.numPoints ((constrainedPoints f m).map Int.ofNat) = .ok l) :
    l.Arranged m.numPoints f.sizes (constrainedPoints f m) (p.arrangement f) := by
  obtain ⟨ks, hks, harranged⟩ := layoutOf_arranged h
  have hpoints : ks = constrainedPoints f m := by
    unfold constrainedPoints at hks ⊢
    cases hkinematic : f.kinematic with
    | none => exact hks.none (hf.multipliers.mpr hkinematic)
    | some g =>
      have hm : f.sizes.multipliers ≠ 0 := by
        rw [ne_eq, hf.multipliers, hkinematic]
        exact Option.some_ne_none g
      rw [hkinematic] at hks
      exact hks.eq_range hm
  exact hpoints ▸ harranged

theorem create_found {r : Registry α} {solver : Solver α} {t : Transcription α}
    (h : create r solver p = .ok t) :
    r.find solver.scheme = .ok t.schemeIndex ∧ t.scheme = r.schemeAt t.schemeIndex := by
  simp only [create, createIn, monadLift_self, Except.bind_eq_ok] at h
  obtain ⟨index, hindex, _, _, f, _, h⟩ := h
  split_ifs at h
  all_goals
    simp only [Except.bind_eq_ok, Except.pure_eq_ok] at h
    obtain ⟨_, _, _, _, _, _, rfl⟩ := h
    exact ⟨hindex, rfl⟩

theorem create_scheme {r : Registry α} {solver : Solver α} {t : Transcription α} {i : Nat}
    (hi : r.find solver.scheme = .ok i) (h : create r solver p = .ok t) :
    t.scheme = r.schemeAt i := by
  obtain ⟨hfind, hscheme⟩ := create_found h
  rw [hscheme, Except.ok.inj (hfind.symm.trans hi)]

theorem create_parts {r : Registry α} {solver : Solver α} {t : Transcription α}
    (h : create r solver p = .ok t) : ∃ index f points quadrature layout, p.functions = .ok f ∧
      (if f.kinematic.isSome then kinematicPointsOf (r.schemeAt index) solver.mesh else pure []) =
        .ok points ∧
      quadratureOf (r.schemeAt index) solver.mesh = .ok quadrature ∧
      layoutOf f p solver.mesh.numPoints points = .ok layout ∧
      t = { schemeIndex := index, scheme := r.schemeAt index, solver, problemName := p.name,
            functions := f, kinematicPoints := points, quadrature, layout } := by
  simp only [create, createIn, monadLift_self, Except.bind_eq_ok] at h
  obtain ⟨index, _, _, _, f, hf, h⟩ := h
  split_ifs at h with hkinematic
  all_goals
    simp only [Except.bind_eq_ok, Except.pure_eq_ok] at h
    obtain ⟨points, hpoints, quadrature, hquadrature, layout, hlayout, rfl⟩ := h
    exact ⟨index, f, points, quadrature, layout, hf, by simp [hkinematic, hpoints], hquadrature,
      hlayout, rfl⟩

/-- The layout of a transcription by any scheme: the kinematic points of the scheme are its
constrained points. -/
theorem create_layout {r : Registry α} {solver : Solver α} {t : Transcription α}
    (h : create r solver p = .ok t) : p.functions = .ok t.functions ∧ t.mesh = solver.mesh ∧
      layoutOf t.functions p t.mesh.numPoints t.kinematicPoints = .ok t.layout ∧
      LayoutBuilder.Constrained t.mesh.numPoints t.functions.sizes.multipliers t.kinematicPoints
        t.layout.constrained ∧
      t.layout.Arranged t.mesh.numPoints t.functions.sizes t.layout.constrained
        (p.arrangement t.functions) := by
  obtain ⟨index, f, points, quadrature, layout, hf, -, -, hlayout, rfl⟩ := create_parts h
  obtain ⟨ks, hks, harranged⟩ := layoutOf_arranged hlayout
  obtain rfl : layout.constrained = ks := harranged.constrained
  exact ⟨hf, rfl, hlayout, hks, harranged⟩

theorem kinematicPointsOf_create {r : Registry α} {solver : Solver α} {t : Transcription α}
    (h : create r solver p = .ok t) :
    (if t.functions.kinematic.isSome then kinematicPointsOf t.scheme t.mesh else pure []) =
      .ok t.kinematicPoints := by
  obtain ⟨index, f, points, quadrature, layout, -, hpoints, -, -, rfl⟩ := create_parts h
  exact hpoints

/-- Without points of its own a scheme takes all points of the mesh, if there are kinematic
constraints. -/
theorem kinematicPoints_eq {r : Registry α} {solver : Solver α} {t : Transcription α}
    (h : create r solver p = .ok t) (hscheme : t.scheme.kinematic = none) :
    t.kinematicPoints = (constrainedPoints t.functions t.mesh).map Int.ofNat := by
  have hpoints := kinematicPointsOf_create h
  rw [kinematicPointsOf, hscheme] at hpoints
  unfold constrainedPoints
  split_ifs at hpoints ⊢
  · exact (Except.ok.inj hpoints).symm
  · exact (Except.ok.inj hpoints).symm

theorem length_weightsAfter (previous : α) (lengths : List α) :
    (weightsAfter previous lengths).length = lengths.length + 1 := by
  induction lengths generalizing previous with
  | nil => rfl
  | cons h rest ih => rw [weightsAfter, List.length_cons, ih, List.length_cons]

theorem length_trapezoidalWeights (lengths : List α) :
    (trapezoidalWeights lengths).length = lengths.length + 1 := by
  cases lengths with
  | nil => rfl
  | cons h rest => rw [trapezoidalWeights, List.length_cons, length_weightsAfter, List.length_cons]

/-- The trapezoidal rule has a weight for each point, so its coefficients pass the check. -/
theorem quadratureOf_eq {s : Scheme α} {m : Mesh α} (hs : s.quadrature = none)
    (hm : 0 < m.numPoints) : quadratureOf s m = .ok (trapezoidalWeights m.intervals) := by
  have hlength : (trapezoidalWeights m.intervals).length = m.numPoints := by
    rw [length_trapezoidalWeights, Mesh.intervals, Mesh.length_differences]
    exact Nat.sub_add_cancel hm
  have hcoefficients :
      coefficientsOf s m = .ok (Tensor.ofList (trapezoidalWeights m.intervals)) := by
    rw [coefficientsOf, hs]
  rw [quadratureOf, hcoefficients]
  exact if_pos (congrArg (fun n => [n]) hlength)

theorem quadratureOf_eq_ok {s : Scheme α} {m : Mesh α} {q : List α}
    (h : quadratureOf s m = .ok q) : ∃ t, coefficientsOf s m = .ok t ∧ t.shape = [m.numPoints] ∧
      t.entries = q := by
  obtain ⟨t, ht, h⟩ := Except.bind_eq_ok.mp h
  split_ifs at h with hshape
  exact ⟨t, ht, hshape, Except.pure_eq_ok.mp h⟩

/-- A scheme without coefficients of its own integrates by the trapezoidal rule. -/
theorem create_quadrature {r : Registry α} {solver : Solver α} {t : Transcription α}
    (h : create r solver p = .ok t) (hscheme : t.scheme.quadrature = none) :
    t.quadrature = trapezoidalWeights solver.mesh.intervals := by
  obtain ⟨index, f, points, quadrature, layout, -, -, hquadrature, -, rfl⟩ := create_parts h
  have hnone : (r.schemeAt index).quadrature = none := hscheme
  obtain ⟨q, hq, -, rfl⟩ := quadratureOf_eq_ok hquadrature
  rw [coefficientsOf, hnone] at hq
  exact congrArg Tensor.entries (Except.ok.inj hq).symm

theorem create_eq_ok {r : Registry α} {solver : Solver α} {t : Transcription α} {d : Declared α}
    (hp : p.Holds d) (h : create r solver p = .ok t) (hscheme : t.scheme = .trapezoidal) :
    ∃ f, p.functions = .ok f ∧ f.Of d ∧ t.Trapezoidal p f solver.mesh := by
  have hall := kinematicPoints_eq h (by rw [hscheme]; rfl)
  have hquadrature := create_quadrature h (by rw [hscheme]; rfl)
  obtain ⟨index, f, points, quadrature, layout, hf, -, -, hlayout, rfl⟩ := create_parts h
  have hof := Problem.functions_of hp hf
  obtain rfl : points = (constrainedPoints f solver.mesh).map Int.ofNat := hall
  have hnames := (Problem.functions_eq_ok.mp hf).nodup_costNames
  exact ⟨f, hf, hof, hscheme, rfl, rfl, rfl, hquadrature, hnames, layoutOf_constrained hof hlayout⟩

/-- The program of a scheme that makes the constraints of the trapezoidal rule. -/
def trapezoidalProgram (t : Transcription α) (m : Mesh α) : Program α where
  layout := t.layout
  read := t.read
  sample := t.sample
  blocks := (List.range m.numPoints).flatMap t.pointBlocks ++ t.durationBlocks
  terms := t.objectiveTerms

/-- The layout has multipliers at every kinematic point of the scheme. -/
def HasMultipliers (t : Transcription α) : Prop :=
  ∀ k ∈ t.kinematicPoints, ∃ c ∈ t.layout.constrained, (c : Int) = k

omit [Scalar α] in
theorem checkMultipliers_eq_ok {t : Transcription α} :
    t.checkMultipliers = .ok () ↔ t.HasMultipliers := by
  rw [checkMultipliers, HasMultipliers]
  split_ifs with h <;> simpa using h

/-- Multipliers are missing only if the problem has none. -/
theorem hasMultipliers_iff {r : Registry α} {solver : Solver α} {t : Transcription α}
    (h : create r solver p = .ok t) :
    t.HasMultipliers ↔ t.kinematicPoints = [] ∨ t.functions.sizes.multipliers ≠ 0 := by
  obtain ⟨-, -, -, hks, -⟩ := create_layout h
  constructor
  · intro hall
    by_contra! hnot
    obtain ⟨hpoints, hm⟩ := hnot
    obtain ⟨k, hk⟩ := List.exists_mem_of_ne_nil _ hpoints
    obtain ⟨c, hc, -⟩ := hall k hk
    exact absurd (hks.none hm ▸ hc) List.not_mem_nil
  · rintro (hpoints | hm) k hk
    · exact absurd (hpoints ▸ hk) List.not_mem_nil
    · exact List.mem_map.mp ((hks.perm hm).mem_iff.mpr hk)

/-- Without kinematic constraints no multipliers are taken out of a vector. -/
theorem hasMultipliers_of_none {r : Registry α} {solver : Solver α} {t : Transcription α}
    (h : create r solver p = .ok t) (hnone : t.functions.kinematic = none) :
    t.HasMultipliers := by
  have hpoints := kinematicPointsOf_create h
  rw [hnone] at hpoints
  exact (hasMultipliers_iff h).mpr (.inl (Except.ok.inj hpoints).symm)

/-- Kinematic constraints that are declared have multipliers. -/
theorem hasMultipliers_of {r : Registry α} {solver : Solver α} {t : Transcription α}
    {d : Declared α} (hp : p.Holds d) (h : create r solver p = .ok t) : t.HasMultipliers := by
  obtain ⟨hf, -⟩ := create_layout h
  have hof := Problem.functions_of hp hf
  by_cases hkinematic : t.functions.kinematic = none
  · exact hasMultipliers_of_none h hkinematic
  · exact (hasMultipliers_iff h).mpr (.inr (mt hof.multipliers.mp hkinematic))

/-- A program has the layout of its transcription, and the blocks of the scheme stand before that of
the horizon. -/
theorem program_eq_ok {t : Transcription α} {prog : Program α} : t.program = .ok prog ↔
    t.HasMultipliers ∧ ∃ blocks, t.schemeBlocks = .ok blocks ∧ prog = ⟨t.layout, t.read, t.sample,
      blocks ++ t.durationBlocks, t.objectiveTerms⟩ := by
  rw [← checkMultipliers_eq_ok, program]
  cases hcheck : t.checkMultipliers with
  | error fault => exact ⟨nofun, nofun⟩
  | ok u =>
    cases hblocks : t.schemeBlocks with
    | error fault => exact ⟨nofun, nofun⟩
    | ok blocks => simp [bind, Except.bind, eq_comm]

theorem program_parts {t : Transcription α} {prog : Program α} (h : t.program = .ok prog) :
    ∃ blocks, t.schemeBlocks = .ok blocks ∧ prog = ⟨t.layout, t.read, t.sample,
      blocks ++ t.durationBlocks, t.objectiveTerms⟩ := (program_eq_ok.mp h).2

/-- Where a vector has no positions for multipliers, no program is put together. -/
theorem program_raises {t : Transcription α} (h : ¬ t.HasMultipliers) :
    Raises t.program .dataIntegrity := by
  have hcheck : t.checkMultipliers = .error (.reading .noPositions) := by
    rw [← checkMultipliers_eq_ok, checkMultipliers] at h
    rw [checkMultipliers]
    split_ifs at h ⊢
    · exact absurd rfl h
    · rfl
  rw [program, hcheck]
  exact raises_error_iff.mpr rfl

section Standard

variable {t : Transcription α} (hstandard : t.scheme.constraints = .standard)
include hstandard

theorem schemeBlocks_of_standard :
    t.schemeBlocks = .ok ((List.range t.mesh.numPoints).flatMap t.pointBlocks) := by
  rw [schemeBlocks, hstandard]

/-- A scheme that makes the constraints of the trapezoidal rule has no other program. -/
theorem program_standard_iff {prog : Program α} :
    t.program = .ok prog ↔ t.HasMultipliers ∧ prog = t.trapezoidalProgram t.mesh := by
  rw [program_eq_ok, schemeBlocks_of_standard hstandard]
  simp only [Except.ok.injEq, exists_eq_left']
  rfl

theorem program_of_standard (h : t.HasMultipliers) :
    t.program = .ok (t.trapezoidalProgram t.mesh) := (program_standard_iff hstandard).mpr ⟨h, rfl⟩

end Standard

omit [Scalar α] in
theorem standard_of_trapezoidal {t : Transcription α} (h : t.scheme = .trapezoidal) :
    t.scheme.constraints = .standard := by rw [h]; rfl

theorem program_of_declared {r : Registry α} {solver : Solver α} {t : Transcription α}
    {d : Declared α} (hp : p.Holds d) (h : create r solver p = .ok t)
    (hscheme : t.scheme = .trapezoidal) : t.program = .ok (t.trapezoidalProgram t.mesh) :=
  program_of_standard (standard_of_trapezoidal hscheme) (hasMultipliers_of hp h)

theorem Trapezoidal.program_eq {t : Transcription α} {m : Mesh α} (ht : t.Trapezoidal p f m) :
    t.program = .ok (t.trapezoidalProgram m) := by
  have hmultipliers : t.HasMultipliers := by
    intro k hk
    rw [ht.kinematicPoints] at hk
    rw [ht.layout.constrained]
    exact List.mem_map.mp hk
  exact ht.mesh ▸ program_of_standard (standard_of_trapezoidal ht.scheme) hmultipliers

section Evaluation

variable {t : Transcription α} {prog : Program α} {w : List α} (hprog : t.program = .ok prog)
include hprog

theorem objective_of_program (hobjective : t.scheme.objectiveFault = none)
    (hw : w.length = t.layout.size) : t.evaluateObjective w = .ok (prog.objective w) := by
  have hcheck : t.checkVector w = .ok w := if_pos hw
  rw [evaluateObjective, hobjective, hprog, hcheck]
  rfl

theorem terms_of_program (hw : w.length = t.layout.size) :
    t.evaluateTerms w = .ok (prog.termValues w) := by
  have hcheck : t.checkVector w = .ok w := if_pos hw
  rw [evaluateTerms, hprog, hcheck]
  cases h : prog.terms with
  | nil => simp [bind, Except.bind, h, Program.termValues, pure, Except.pure]
  | cons => simp [bind, Except.bind, h, pure, Except.pure]

theorem constraints_of_program (hw : w.length = t.layout.size) :
    t.evaluateConstraints w = .ok (prog.constraints w) := by
  have hcheck : t.checkVector w = .ok w := if_pos hw
  rw [evaluateConstraints, hprog, hcheck]
  rfl

end Evaluation

/-- What holds of the defects, of the kinematic and of the path constraints of a point holds of all
its blocks. -/
theorem forall_pointBlocks {t : Transcription α} {k : Nat} {P : Block α → Prop}
    (hdefect : k + 1 < t.mesh.numPoints → P (t.defectBlock k))
    (hkinematic : ∀ c, t.kinematicColumn? k = some c →
      P ⟨.kinematic, some k, fun s => s.kinematic.column c,
        List.replicate t.functions.sizes.multipliers zeroBounds⟩)
    (hpath : ∀ (j : Nat) q, t.functions.path[j]? = some q → P (pathBlock k j q)) :
    ∀ b ∈ t.pointBlocks k, P b := by
  intro b hb
  simp only [pointBlocks, List.mem_append, List.mem_mapIdx] at hb
  rcases hb with (hb | hb) | ⟨j, hj, rfl⟩
  · split_ifs at hb with hnext
    · obtain rfl := List.mem_singleton.mp hb
      exact hdefect hnext
    · cases hb
  · obtain ⟨c, hc, rfl⟩ := Option.map_eq_some_iff.mp (Option.mem_toList.mp hb)
    exact hkinematic c hc
  · exact hpath j _ (List.getElem?_eq_getElem hj)

/-- What holds of the blocks of all points and of the length of the horizon holds of all blocks. -/
theorem forall_blocks {t : Transcription α} {P : Block α → Prop}
    (hpoints : ∀ k < t.mesh.numPoints, ∀ b ∈ t.pointBlocks k, P b)
    (hduration : P ⟨.duration, none, fun s => [s.decision.duration],
      [⟨Problem.minimumHorizon, Scalar.infinity⟩]⟩) :
    ∀ b ∈ (t.trapezoidalProgram t.mesh).blocks, P b := by
  intro b hb
  rcases List.mem_append.mp hb with hb | hb
  · obtain ⟨k, hk, hb⟩ := List.mem_flatMap.mp hb
    exact hpoints k (List.mem_range.mp hk) b hb
  · unfold durationBlocks at hb
    split_ifs at hb
    · cases hb
    · obtain rfl := List.mem_singleton.mp hb
      exact hduration

theorem defectBlock_mem {t : Transcription α} {k : Nat} (hk : k + 1 < t.mesh.numPoints) :
    t.defectBlock k ∈ (t.trapezoidalProgram t.mesh).blocks := by
  have hblock : t.defectBlock k ∈ t.pointBlocks k := by
    rw [pointBlocks, if_pos hk]
    exact List.mem_append_left _ (List.mem_append_left _ (List.mem_singleton_self _))
  have hpoint : k ∈ List.range t.mesh.numPoints := List.mem_range.mpr (by omega)
  exact List.mem_append_left _ (List.mem_flatMap.mpr ⟨k, hpoint, hblock⟩)

/-- The defect blocks are those of the intervals. -/
theorem forall_defects {t : Transcription α} {P : Block α → Prop} :
    (∀ b ∈ (t.trapezoidalProgram t.mesh).blocks, b.kind = .defect → P b) ↔
      ∀ k, k + 1 < t.mesh.numPoints → P (t.defectBlock k) := by
  constructor
  · intro h k hk
    exact h _ (defectBlock_mem hk) rfl
  · intro h
    apply forall_blocks
    · intro k hk
      exact forall_pointBlocks (fun hnext _ => h k hnext) (fun _ _ => nofun) fun _ _ _ => nofun
    · exact nofun

/-- The blocks of a scheme belong to the points of the mesh. -/
theorem kind_ne_duration {t : Transcription α} {blocks : List (Block α)}
    (h : t.schemeBlocks = .ok blocks) : ∀ b ∈ blocks, b.kind ≠ .duration := by
  unfold schemeBlocks at h
  split at h
  · obtain rfl := Except.ok.inj h
    intro b hb
    obtain ⟨k, -, hb⟩ := List.mem_flatMap.mp hb
    exact forall_pointBlocks (P := fun b => b.kind ≠ .duration) nofun nofun nofun b hb
  · obtain rfl := Except.ok.inj h
    exact fun b hb => nomatch hb
  · cases h

end Transcription

end Collocation
