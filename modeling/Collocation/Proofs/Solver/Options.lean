import Collocation.Proofs.Decimal.Difference
import Collocation.Proofs.Solver.Reading
import Collocation.Solver

/-! Options of a solver that are refused, and how.  The options are read one after the other, and
what is out of order is refused as a configuration.  But meshes, tolerances, the number of points
and the options of the optimiser are read before they are checked, or without a check, and what
cannot be read there fails in other ways, as do messages that cannot be written. -/

namespace Collocation

variable {α : Type} [Scalar α] {kind : Kind}

/-- The number of points of a uniform mesh. -/
def SolverRequest.requested : Value α → Value α
  | .none => .int defaultPoints
  | v => v

/-- Another number than that of the points, which has too many digits for the message. -/
def Mesh.Conflicts (m : Mesh α) (count : Value α) : Prop :=
  count.equalsInt m.numPoints = false ∧ count.isWritable = false

/-- What is given as a mesh cannot be read, there is no memory for as many points as are asked for,
or their number is refused by a message that cannot be written. -/
def MeshSource.Escapes (count : Value α) (kind : Kind) : MeshSource α → Prop
  | .value .none =>
    kind = .value ∧ (SolverRequest.requested count).UnwritableBelow 2 ∨
      ∃ n, SolverRequest.requested count = .int n ∧ 2 ≤ n ∧
        Raises (Mesh.checkMemory n : Outcome α Unit) kind
  | .value v => Raises v.toTensor kind ∨
      ∃ m, Mesh.ofValue v = .ok m ∧ kind = .value ∧ m.Conflicts count
  | .mesh m => kind = .value ∧ m.Conflicts count

namespace SolverRequest

/-- The options of a configuration that can be refused, with the mesh and its number of points as
one. -/
inductive Choice where
  | scheme
  | optimSolver
  | hessian
  | maxIterations
  | convergence
  | constraint
  | verbosity
  | schemeOptions
  | mesh
  | derivatives
  | engineOptions

/-- The options that the optimiser gets. -/
def engineChoices : List Choice :=
  [.optimSolver, .hessian, .maxIterations, .convergence, .constraint, .verbosity]

/-- The options in the order in which they are read. -/
def choices : List Choice :=
  .scheme :: engineChoices ++ [.schemeOptions, .mesh, .derivatives, .engineOptions]

/-- Reads an option. -/
def Choice.read (q : SolverRequest α) : Choice → Outcome α Unit
  | .scheme => discard (schemeName q.scheme)
  | .optimSolver => discard (oneOf "optim_solver" optimisers q.optimSolver)
  | .hessian => discard (oneOf "optim_hessian_approximation" hessians q.hessian)
  | .maxIterations =>
    discard (optional (Check.integer · "optim_max_iterations") q.maxIterations)
  | .convergence =>
    discard (optional (Check.positive · "optim_convergence_tolerance") q.convergenceTolerance)
  | .constraint =>
    discard (optional (Check.positive · "optim_constraint_tolerance") q.constraintTolerance)
  | .verbosity => discard (Check.integer q.verbosity "verbosity" 0)
  | .schemeOptions => discard (schemeMapping q.schemeOptions)
  | .mesh => discard (chooseMesh q.numMeshPoints q.mesh)
  | .derivatives => discard q.enforceDerivatives.toTruth
  | .engineOptions => discard q.engineOptions.toMapping

theorem discard_checkEngine (q : SolverRequest α) :
    discard (checkEngine q.optimSolver q.hessian q.maxIterations q.convergenceTolerance
      q.constraintTolerance q.verbosity) = forM engineChoices (Choice.read q) := by
  refine Except.discard_bind fun solver => Except.discard_bind fun hessian =>
    Except.discard_bind fun iterations => Except.discard_bind fun convergence =>
    Except.discard_bind fun constraint => ?_
  exact (Except.discard_collect fun _ => rfl).trans
    (bind_pure_unit (x := Choice.read q .verbosity)).symm

/-- A configuration is made of all options, up to the first that fails. -/
theorem discard_configure (q : SolverRequest α) :
    discard q.configure = forM choices (Choice.read q) := by
  rw [choices, List.cons_append, List.forM_cons, List.forM_append, ← discard_checkEngine]
  refine Except.discard_bind fun scheme => Except.discard_bind fun engine =>
    Except.discard_bind fun schemeOptions => Except.discard_bind fun mesh =>
    Except.discard_bind fun derivatives => ?_
  exact (Except.discard_collect fun _ => rfl).trans
    (bind_pure_unit (x := Choice.read q .engineOptions)).symm

/-! ### Meshes -/

section Meshes

variable {count : Value α} {source : MeshSource α} {m m' : Mesh α}

theorem fitting_raises_iff (hkind : kind ≠ .configuration) :
    Raises (chooseMesh.fitting count m) kind ↔ kind = .value ∧ m.Conflicts count := by
  have hfault : (Fault.option (.meshConflict count m.numPoints)).kind ≠ kind := hkind.symm
  unfold chooseMesh.fitting Mesh.Conflicts
  split
  · exact iff_of_false (not_raises_ok m) (by simp [Value.isWritable])
  · split_ifs with hequal
    · exact iff_of_false (not_raises_ok m) (by simp [hequal])
    · rw [Check.refuse_raises_iff hfault]
      simp [hequal]

theorem chooseMesh_none (count : Value α) :
    chooseMesh count (.value .none) = Mesh.uniform (requested count) := by
  cases count <;> rfl

theorem chooseMesh_value {v : Value α} (hv : v ≠ .none) :
    chooseMesh count (.value v) = Mesh.ofValue v >>= chooseMesh.fitting count := by
  cases v with
  | none => exact absurd rfl hv
  | _ => rfl

theorem chooseMesh_raises_iff (hkind : kind ≠ .configuration) :
    Raises (chooseMesh count source) kind ↔ source.Escapes count kind := by
  cases source with
  | value v =>
    by_cases hv : v = .none
    · subst hv
      rw [chooseMesh_none, Mesh.uniform_raises_iff hkind, MeshSource.Escapes]
    · rw [chooseMesh_value hv, raises_bind_iff, Mesh.ofValue_raises_iff hkind]
      simp only [fitting_raises_iff hkind]
      cases v with
      | none => exact absurd rfl hv
      | _ => exact Iff.rfl
  | mesh m => exact fitting_raises_iff hkind

/-- The points are as many as are asked for. -/
def Fits (q : SolverRequest α) (n : Nat) : Prop :=
  match q.mesh with
  | .value .none => requested q.numMeshPoints = .int n
  | _ => q.numMeshPoints = .none ∨ ∃ x, q.numMeshPoints = .number x ∧ x.exact = .finite n

theorem equalsInt_iff {v : Value α} {n : Nat} (hn : 2 ≤ n) :
    v.equalsInt n = true ↔ ∃ x, v = .number x ∧ x.exact = .finite n := by
  cases v with
  | number x => simpa [Value.equalsInt, Value.numeric?] using Number.eq_int_iff (n := n)
  | bool b =>
    -- The truth values stand for zero and one.
    have hb : b.toInt ≠ n := by cases b <;> simp [Bool.toInt] <;> omega
    refine iff_of_false (fun h => hb ?_) (by simp)
    exact_mod_cast Extended.finite.inj (Number.eq_int_iff.mp h)
  | _ => exact iff_of_false nofun (by simp)

theorem fitting_eq_ok (hm : 2 ≤ m.numPoints) (h : chooseMesh.fitting count m = .ok m') :
    m' = m ∧ (count = .none ∨ ∃ x, count = .number x ∧ x.exact = .finite m.numPoints) := by
  unfold chooseMesh.fitting at h
  split at h
  · exact ⟨(Except.ok.inj h).symm, .inl rfl⟩
  · split_ifs at h with hequal
    · exact ⟨(Except.ok.inj h).symm, .inr ((equalsInt_iff hm).mp hequal)⟩
    · exact absurd h (Check.refuse_ne_ok _ _)

/-- A mesh that is chosen comes from a constructor of meshes, and has the right number of points. -/
theorem chooseMesh_eq_ok {q : SolverRequest α}
    (hmesh : ∀ m, q.mesh = .mesh m → ∃ form, Mesh.ofForm form = .ok m)
    (h : chooseMesh q.numMeshPoints q.mesh = .ok m) :
    (∃ form, Mesh.ofForm form = .ok m) ∧ q.Fits m.numPoints := by
  unfold Fits
  cases hsource : q.mesh with
  | value v =>
    rw [hsource] at h
    by_cases hv : v = .none
    · subst hv
      rw [chooseMesh_none] at h
      exact ⟨⟨.uniform _, h⟩, Mesh.eq_numPoints_of_uniform h⟩
    · rw [chooseMesh_value hv] at h
      obtain ⟨made, hmade, h⟩ := Except.bind_eq_ok.mp h
      have hform : Mesh.ofForm (.points v) = .ok made := hmade
      obtain ⟨rfl, hcount⟩ := fitting_eq_ok (Mesh.two_le_numPoints hform) h
      refine ⟨⟨_, hform⟩, ?_⟩
      cases v with
      | none => exact absurd rfl hv
      | _ => exact hcount
  | mesh given =>
    rw [hsource] at h
    obtain ⟨form, hform⟩ := hmesh given hsource
    obtain ⟨rfl, hcount⟩ := fitting_eq_ok (Mesh.two_le_numPoints hform) h
    exact ⟨⟨form, hform⟩, hcount⟩

end Meshes

/-! ### Failures -/

section Failures

variable {q : SolverRequest α}

/-- An option lets a failure through: it is read in a way that fails before it can be refused, or is
refused by a message that cannot be written. -/
def Choice.Escapes (q : SolverRequest α) (kind : Kind) : Choice → Prop
  | .scheme => kind = .value ∧ q.scheme.isWritable = false
  | .optimSolver => kind = .value ∧ q.optimSolver.isWritable = false
  | .hessian => kind = .value ∧ q.hessian.isWritable = false
  | .maxIterations => kind = .value ∧ q.maxIterations.UnwritableBelow 1
  | .convergence => kind = .overflow ∧ ∃ x, q.convergenceTolerance = .number x ∧ ¬ x.InRange
  | .constraint => kind = .overflow ∧ ∃ x, q.constraintTolerance = .number x ∧ ¬ x.InRange
  | .verbosity => kind = .value ∧ q.verbosity.UnwritableBelow 0
  | .schemeOptions => False
  | .mesh => q.mesh.Escapes q.numMeshPoints kind
  | .derivatives => kind = .runtime ∧ ∃ m, q.enforceDerivatives = .matrix m ∧ m.byRows.length ≠ 1
  | .engineOptions => Raises q.engineOptions.toMapping kind

/-- A configuration lets a failure through at the first of its options that fails. -/
def LetsThrough (q : SolverRequest α) (kind : Kind) : Prop :=
  ∃ before c after, choices = before ++ c :: after ∧ (∀ b ∈ before, b.read q = .ok ()) ∧
    c.Escapes q kind

theorem optional_raises_iff {γ : Type} {read : Value α → Outcome α γ} {v : Value α} :
    Raises (optional read v) kind ↔ v ≠ .none ∧ Raises (read v) kind := by
  cases v with
  | none => exact iff_of_false (not_raises_ok _) (by simp)
  | _ => exact (raises_bind_iff_left fun _ => not_raises_ok _).trans (by simp)

theorem oneOf_raises_iff (hkind : kind ≠ .configuration) {name : String}
    {supported : List String} {v : Value α} :
    Raises (oneOf name supported v) kind ↔ kind = .value ∧ v.isWritable = false := by
  have hfault : (Fault.option (.unsupported name v.display supported) : Fault α).kind ≠ kind :=
    hkind.symm
  unfold oneOf
  split
  · next s hs =>
    -- Only texts are found.
    have hfound := List.find?_some hs
    cases v with
    | text t => exact iff_of_false (not_raises_ok s) (by simp [Value.isWritable])
    | _ => exact absurd hfound Bool.false_ne_true
  · exact Check.refuse_raises_iff hfault

theorem schemeName_raises_iff (hkind : kind ≠ .configuration) {v : Value α} :
    Raises (schemeName v) kind ↔ kind = .value ∧ v.isWritable = false := by
  have hfault : (Fault.option (.schemeName v)).kind ≠ kind := hkind.symm
  unfold schemeName
  split
  · refine iff_of_false ?_ (by simp [Value.isWritable])
    split_ifs
    · exact not_raises_error hkind.symm
    · exact not_raises_ok _
  · exact Check.refuse_raises_iff hfault

theorem schemeMapping_raises (v : Value α) : OnlyRaises (schemeMapping v) .configuration := by
  unfold schemeMapping
  split
  · exact .ok _
  · exact .ok _
  · exact .error rfl

theorem toTruth_raises_iff {v : Value α} : Raises v.toTruth kind ↔
    kind = .runtime ∧ ∃ m, v = .matrix m ∧ m.byRows.length ≠ 1 := by
  by_cases hv : ∃ m, v = .matrix m
  · obtain ⟨m, rfl⟩ := hv
    rw [Value.toTruth]
    split
    · next x hx => exact iff_of_false (not_raises_ok _) (by simp [hx])
    · next hx =>
      have hlength : m.byRows.length ≠ 1 := fun h => (List.length_eq_one_iff.mp h).elim hx
      simpa [hlength, ReadFault.report] using eq_comm
  · rw [not_exists] at hv
    rw [Value.toTruth_of_ne_matrix hv]
    refine iff_of_false (not_raises_ok _) ?_
    rintro ⟨-, m, hm, -⟩
    exact hv m hm

/-- Failures other than refusals are those that an option lets through. -/
theorem Choice.read_raises_iff (hkind : kind ≠ .configuration) (c : Choice) :
    Raises (c.read q) kind ↔ c.Escapes q kind := by
  cases c with
  | scheme => rw [read, raises_discard_iff, schemeName_raises_iff hkind, Escapes]
  | optimSolver | hessian => rw [read, raises_discard_iff, oneOf_raises_iff hkind, Escapes]
  | maxIterations =>
    rw [read, raises_discard_iff, optional_raises_iff,
      Check.integer_raises_iff hkind (by decide), Escapes]
    refine and_iff_right_of_imp ?_
    rintro ⟨-, -, n, hn, -⟩
    simp [hn]
  | convergence | constraint =>
    rw [read, raises_discard_iff, optional_raises_iff, Check.positive_raises_iff hkind, Escapes]
    refine and_iff_right_of_imp ?_
    rintro ⟨-, x, hx, -⟩
    simp [hx]
  | verbosity =>
    rw [read, raises_discard_iff, Check.integer_raises_iff hkind (by decide), Escapes]
  | schemeOptions =>
    exact iff_of_false (mt raises_discard_iff.mp ((schemeMapping_raises _).not_raises hkind)) id
  | mesh => rw [read, raises_discard_iff, chooseMesh_raises_iff hkind, Escapes]
  | derivatives => rw [read, raises_discard_iff, toTruth_raises_iff, Escapes]
  | engineOptions => rw [read, raises_discard_iff, Escapes]

theorem exists_configure_iff :
    (∃ s, q.configure = .ok s) ↔ ∀ c ∈ choices, c.read q = .ok () := by
  rw [← Except.discard_eq_ok, discard_configure, Except.forM_eq_ok]

theorem configure_raises_iff (hkind : kind ≠ .configuration) :
    Raises q.configure kind ↔ q.LetsThrough kind := by
  rw [← raises_discard_iff, discard_configure, raises_forM_iff]
  simp only [Choice.read_raises_iff hkind, LetsThrough]

/-- The failures that options let through. -/
def escapingKinds : List Kind := [.value, .type, .overflow, .other "_ArrayMemoryError"]

theorem Choice.Escapes.kind_mem {c : Choice} (h : c.Escapes q kind) :
    kind ∈ escapingKinds ∨ kind ∈ Value.matrixKinds ∧
      ∃ m, q.enforceDerivatives = .matrix m ∨ q.engineOptions = .matrix m := by
  have hvalue : .value ∈ escapingKinds := by simp [escapingKinds]
  have harray : Value.arrayKinds ⊆ escapingKinds := by simp [Value.arrayKinds, escapingKinds]
  have hentry : Value.entryKinds ⊆ escapingKinds := by simp [Value.entryKinds, escapingKinds]
  have hmemory : Mesh.memoryKinds ⊆ escapingKinds := by simp [Mesh.memoryKinds, escapingKinds]
  cases c with
  | schemeOptions => exact h.elim
  | mesh =>
    rw [Escapes, MeshSource.Escapes.eq_def] at h
    split at h
    · rcases h with ⟨rfl, -⟩ | ⟨n, -, -, h⟩
      · exact .inl hvalue
      · exact .inl (hmemory (Mesh.checkMemory_raises n kind h))
    · rcases h with h | ⟨m, -, rfl, -⟩
      · exact .inl (harray (Value.toTensor_raises _ kind h))
      · exact .inl hvalue
    · exact .inl (h.1 ▸ hvalue)
  | derivatives =>
    obtain ⟨rfl, m, hm, -⟩ := h
    exact .inr ⟨by simp [Value.matrixKinds], m, .inl hm⟩
  | engineOptions =>
    by_cases hmatrix : ∃ m, q.engineOptions = .matrix m
    · obtain ⟨m, hm⟩ := hmatrix
      rw [Escapes, hm] at h
      exact .inr ⟨Value.toMapping_matrix_raises m kind h, m, .inr hm⟩
    · exact .inl (hentry (Value.toMapping_raises (not_exists.mp hmatrix) kind h))
  | _ =>
    obtain ⟨rfl, -⟩ := h
    exact .inl (by simp [escapingKinds])

/-- The options are of the kinds that are announced, and in range: a mapping for the optimiser, a
truth value for the derivatives, numbers that fit, a mesh of numbers for which there is memory, and
for the rest values that can be written in messages. -/
structure Announced (q : SolverRequest α) : Prop where
  engineOptions : q.engineOptions = .none ∨ ∃ entries, q.engineOptions = .mapping entries
  derivatives : ∃ b, q.enforceDerivatives = .bool b
  convergence : ∀ x, q.convergenceTolerance = .number x → x.InRange
  constraint : ∀ x, q.constraintTolerance = .number x → x.InRange
  memory : q.mesh = .value .none → ∀ n, requested q.numMeshPoints = .int n →
    (Mesh.checkMemory n : Outcome α Unit) = .ok ()
  mesh : ∀ v, q.mesh = .value v → v = .none ∨ ∃ t, v.toTensor = .ok t
  writable : ∀ v ∈ [q.scheme, q.optimSolver, q.hessian, q.maxIterations, q.verbosity,
    q.numMeshPoints], v.isWritable = true

omit [Scalar α] in
/-- The number of points of a uniform mesh is below the least one only if it is given so. -/
theorem writable_of_requested {count : Value α} (hcount : count.isWritable = true) :
    ¬ (requested count).UnwritableBelow 2 := by
  rintro ⟨hunwritable, n, hn, hlt⟩
  cases count with
  | none =>
    obtain rfl : defaultPoints = n := Number.int.inj (Value.number.inj hn)
    exact absurd hlt (by decide)
  | _ => exact Bool.false_ne_true (hunwritable.symm.trans hcount)

theorem Announced.not_escapes (hq : q.Announced) (c : Choice) : ¬ c.Escapes q kind := by
  have hwritable {v : Value α} (hv : v.isWritable = false) : v ∉ [q.scheme, q.optimSolver,
      q.hessian, q.maxIterations, q.verbosity, q.numMeshPoints] := fun hmem =>
    Bool.false_ne_true (hv.symm.trans (hq.writable v hmem))
  intro h
  cases c with
  | scheme | optimSolver | hessian => exact hwritable h.2 (by simp)
  | maxIterations | verbosity => exact hwritable h.2.1 (by simp)
  | schemeOptions => exact h
  | convergence =>
    obtain ⟨-, x, hx, hout⟩ := h
    exact hout (hq.convergence x hx)
  | constraint =>
    obtain ⟨-, x, hx, hout⟩ := h
    exact hout (hq.constraint x hx)
  | mesh =>
    rw [Choice.Escapes, MeshSource.Escapes.eq_def] at h
    split at h
    · next hsource =>
      rcases h with ⟨-, h⟩ | ⟨n, hn, -, h⟩
      · exact writable_of_requested (hq.writable _ (by simp)) h
      · rw [hq.memory hsource n hn] at h
        exact not_raises_ok _ h
    · next v hne hsource =>
      obtain ⟨t, ht⟩ := (hq.mesh v hsource).resolve_left hne
      rcases h with h | ⟨m, -, -, h⟩
      · rw [ht] at h
        exact not_raises_ok _ h
      · exact hwritable h.2 (by simp)
    · exact hwritable h.2.2 (by simp)
  | derivatives =>
    obtain ⟨-, m, hm, -⟩ := h
    obtain ⟨b, hb⟩ := hq.derivatives
    exact nomatch hb.symm.trans hm
  | engineOptions =>
    rw [Choice.Escapes] at h
    rcases hq.engineOptions with heq | ⟨_ | ⟨e, rest⟩, heq⟩ <;> rw [heq] at h <;>
      exact not_raises_ok _ h

/-- A configuration is accepted if each of its options is. It then has points that increase from
zero to one, as many as were asked for; but next to a mesh that is given their number may also be
written as a scalar. One that is not accepted is refused as a configuration, unless the first of its
options that fails lets another failure through, which none of the announced kinds does. -/
theorem configure_outcomes [Differences α]
    (hmesh : ∀ m, q.mesh = .mesh m → ∃ form, Mesh.ofForm form = .ok m) :
    ((∃ s, q.configure = .ok s) ↔ ∀ c ∈ choices, c.read q = .ok ()) ∧
    (∀ s, q.configure = .ok s → s.mesh.Increasing ∧ q.Fits s.mesh.numPoints) ∧
    (∀ kind, kind ≠ .configuration → (Raises q.configure kind ↔ q.LetsThrough kind)) ∧
    (∀ kind, q.LetsThrough kind → kind ∈ escapingKinds ∨ kind ∈ Value.matrixKinds ∧
      ∃ m, q.enforceDerivatives = .matrix m ∨ q.engineOptions = .matrix m) ∧
    (q.Announced → OnlyRaises q.configure .configuration) := by
  have hiff {kind : Kind} (hkind : kind ≠ .configuration) := configure_raises_iff (q := q) hkind
  refine ⟨exists_configure_iff, fun s hs => ?_, fun kind => hiff, ?_, fun hq f hf => ?_⟩
  · simp only [configure, Except.bind_eq_ok, Except.pure_eq_ok] at hs
    obtain ⟨scheme, -, engine, -, schemeOptions, -, mesh, hchoose, -, -, -, -, rfl⟩ := hs
    obtain ⟨⟨form, hform⟩, hfits⟩ := chooseMesh_eq_ok hmesh hchoose
    exact ⟨Mesh.increasing_of_form hform, hfits⟩
  · rintro kind ⟨_, c, _, -, -, hc⟩
    exact hc.kind_mem
  · by_contra hkind
    obtain ⟨_, c, _, -, -, hc⟩ := (hiff hkind).mp ⟨f, hf, rfl⟩
    exact hq.not_escapes c hc

end Failures

namespace Sample

def halves : Value Float := .ofRow [0.0, 0.5, 1.0]

/-- A mesh, and the number of its points as a double. -/
def counted (m : Mesh Float) : SolverRequest Float :=
  { numMeshPoints := .real 3.0, mesh := .mesh m }

theorem counted_announced (m : Mesh Float) : (counted m).Announced where
  engineOptions := .inl rfl
  derivatives := ⟨false, rfl⟩
  convergence := nofun
  constraint := nofun
  memory h := by simp [counted] at h
  mesh _ h := by simp [counted] at h
  writable := by
    simp only [List.forall_mem_cons]
    exact ⟨rfl, rfl, rfl, rfl, Value.isWritable_int (by decide), rfl, nofun⟩

/-- A number in the place of the options of the optimiser. -/
def unmapped : SolverRequest Float := { numMeshPoints := .int 2, engineOptions := .int 5 }

/-- A number where a mapping is asked for, a text where points are, a whole number above all
doubles, more points than there is memory for, and a number with too many digits for the message. -/
def escaping : List (SolverRequest Float × Kind) :=
  [(unmapped, .type),
    ({ mesh := .value (.text "abc") }, .value),
    ({ numMeshPoints := .int 2, convergenceTolerance := .int (Int.pow 10 400) }, .overflow),
    ({ numMeshPoints := .int (Int.pow 10 14) }, .other "_ArrayMemoryError"),
    ({ verbosity := .int (-Int.pow 10 4300) }, .value)]

theorem escaping_raises : ∀ sample ∈ escaping, sample.2 ≠ .configuration ∧
    Raises sample.1.configure sample.2 := by
  simp only [escaping, List.forall_mem_cons]
  exact ⟨by decide +kernel, by decide +kernel, by decide +kernel, by decide +kernel,
    by decide +kernel, nofun⟩

end Sample

theorem configure_outcomes_counted : ∃ m s, Mesh.ofForm (.points Sample.halves) = .ok m ∧
    (Sample.counted m).configure = .ok s ∧ s.mesh.Increasing ∧
      (Sample.counted m).Fits s.mesh.numPoints ∧ ¬ (Sample.counted m).LetsThrough .type ∧
      (Sample.counted m).Announced ∧ OnlyRaises (Sample.counted m).configure .configuration := by
  obtain ⟨m, hm, hok⟩ := Except.exists_of_any (x := Mesh.ofForm (.points Sample.halves))
    (p := fun m => (Sample.counted m).configure.isOk) (by decide +kernel)
  obtain ⟨s, hs⟩ := Except.exists_of_isOk hok
  obtain ⟨-, haccepted, hraises, -, honly⟩ :=
    configure_outcomes (q := Sample.counted m) fun given hgiven =>
      ⟨_, hm.trans (congrArg Except.ok (MeshSource.mesh.inj hgiven))⟩
  obtain ⟨hincreasing, hfits⟩ := haccepted s hs
  have hannounced := Sample.counted_announced m
  refine ⟨m, s, hm, hs, hincreasing, hfits, fun h => ?_, hannounced, honly hannounced⟩
  have hraised := (hraises .type (by decide)).mpr h
  rw [hs] at hraised
  exact not_raises_ok s hraised

/-- Not every configuration that is not accepted is refused as one. -/
theorem not_only_configuration : ¬ ∀ q : SolverRequest Float,
    (∀ m, q.mesh = .mesh m → ∃ form, Mesh.ofForm form = .ok m) →
      (∀ s, q.configure = .ok s → s.mesh.Increasing ∧
        (q.numMeshPoints = .none ∨ q.numMeshPoints = .int s.mesh.numPoints)) ∧
      OnlyRaises q.configure .configuration := by
  intro h
  obtain ⟨hkind, hraises⟩ := Sample.escaping_raises (Sample.unmapped, .type) List.mem_cons_self
  have hmesh (m : Mesh Float) : Sample.unmapped.mesh ≠ .mesh m := by simp [Sample.unmapped]
  exact (h _ fun m hm => absurd hm (hmesh m)).2.not_raises hkind hraises

end SolverRequest

end Collocation
