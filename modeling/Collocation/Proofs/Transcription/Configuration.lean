import Collocation.Proofs.Registry
import Collocation.Proofs.Sorting
import Collocation.Proofs.Transcription.Recorded
import Collocation.Proofs.Values

/-! Configurations that are refused.  Whether a transcription accepts the configuration of a solver
is decided before the problem is looked at, so that all problems are refused alike. -/

namespace Collocation

variable {α : Type} [Scalar α]

theorem Number.eq_int_self (n : Int) : (Number.int n : Number α).eq (.int n) = true :=
  eq_int_iff.mpr rfl

/-- A scheme that is not registered, or the trapezoidal rule with demands that it cannot meet. -/
def Solver.Unsupported (solver : Solver α) (r : Registry α) : Prop :=
  (∀ i, r.find solver.scheme ≠ .ok i) ∨
    solver.scheme = "trapezoidal" ∧
      (solver.enforceDerivatives = true ∨ solver.schemeOptions ≠ [])

namespace Transcription

variable {r : Registry α} {solver : Solver α}

/-- The trapezoidal rule has the points of the mesh, no derivatives and no options. -/
theorem checkConfiguration_trapezoidal (name : String) (solver : Solver α) :
    checkConfiguration .trapezoidal name solver =
      if solver.enforceDerivatives then .error (.scheme (.noDerivatives name))
      else if solver.schemeOptions = [] then .ok ()
      else sortedKeys (solver.schemeOptions.map (·.1)) >>= fun names =>
        .error (.scheme (.unknownOptions names)) := by
  have hpoints : expectedPoints solver.mesh.numPoints (.int 0 : Value α) =
      .ok (.int (solver.mesh.numPoints + 0)) := rfl
  have hall : ((solver.schemeOptions.map (·.1)).filter fun k =>
      !(Scheme.trapezoidal : Scheme α).options.any (·.same k)) =
        solver.schemeOptions.map (·.1) := List.filter_eq_self.mpr fun _ _ => rfl
  unfold checkConfiguration
  rw [hall]
  change (expectedPoints _ (.int 0 : Value α) >>= fun _ =>
    expectedPoints _ (.int 0 : Value α) >>= _) = _
  rw [hpoints, Int.add_zero]
  simp only [bind, Except.bind, Number.eq_int_self, if_true]
  cases solver.enforceDerivatives with
  | true => rfl
  | false => cases solver.schemeOptions <;> rfl

/-- A problem is refused with the given fault before anything is done to it. -/
def Refuses (r : Registry α) (solver : Solver α) (fault : Fault α) : Prop :=
  ∀ p, create r solver p = .error fault ∧ ∀ log, (recordedCreate r solver p).Fails log fault log

theorem refuses_of_find {fault : Fault α} (h : r.find solver.scheme = .error fault) :
    Refuses r solver fault := by
  intro p
  constructor
  · rw [create, createIn, h]
    rfl
  · intro log
    rw [Edit.Fails, recordedCreate, createIn, Edit.run_bind, Edit.run_lift, h]

theorem refuses_of_check {fault : Fault α} {i : Nat} (hi : r.find solver.scheme = .ok i)
    (h : checkConfiguration (r.schemeAt i) (r.displayName i) solver = .error fault) :
    Refuses r solver fault := by
  intro p
  constructor
  · rw [create, createIn, hi]
    exact Except.bind_eq_error.mpr (.inr ⟨i, rfl, Except.bind_eq_error.mpr (.inl h)⟩)
  · intro log
    rw [Edit.Fails, recordedCreate, createIn, Edit.run_bind, Edit.run_lift, hi]
    simp only [Edit.run_bind, Edit.run_lift, h]

/-- The keys of the options are refused, as unknown ones or because they cannot be shown. -/
theorem refuses_of_options {i : Nat} (hi : r.find solver.scheme = .ok i)
    (hscheme : r.schemeAt i = .trapezoidal) (henforce : solver.enforceDerivatives = false)
    (hoptions : solver.schemeOptions ≠ [])
    (hkeys : ∀ e ∈ solver.schemeOptions, e.1.checkKey = .ok ()) :
    ∃ fault, Refuses r solver fault ∧
      ((∀ e ∈ solver.schemeOptions, e.1.isText = true) ∧ fault.kind = .configuration ∨
        (¬ ∀ e ∈ solver.schemeOptions, e.1.isText = true) ∧ fault.kind = .type) := by
  have htexts : (∃ names, sortedKeys (solver.schemeOptions.map (·.1)) = .ok names) ↔
      ∀ e ∈ solver.schemeOptions, e.1.isText = true := by
    rw [sortedKeys_eq_ok, List.forall_mem_map]
  have hcheck := checkConfiguration_trapezoidal (r.displayName i) solver
  rw [henforce, if_neg Bool.false_ne_true, if_neg hoptions, ← hscheme] at hcheck
  cases hsorted : sortedKeys (solver.schemeOptions.map (·.1)) with
  | ok names =>
    rw [hsorted] at hcheck
    exact ⟨_, refuses_of_check hi hcheck, .inl ⟨htexts.mp ⟨names, hsorted⟩, rfl⟩⟩
  | error fault =>
    rw [hsorted] at hcheck
    refine ⟨fault, refuses_of_check hi hcheck, .inr ⟨fun h => ?_, ?_⟩⟩
    · obtain ⟨names, hnames⟩ := htexts.mpr h
      cases hnames.symm.trans hsorted
    · exact sortedKeys_raises (List.forall_mem_map.mpr hkeys) fault hsorted

/-- A configuration that is not supported is refused with one fault for all problems, before a
callable is called or a layout is built. It is refused as a configuration, unless only the options
are at fault and a key among them is no text: such a key cannot be put into the message, and is
refused by its kind. -/
theorem create_unsupported (hr : Registry.Later .initial r)
    (hkeys : ∀ e ∈ solver.schemeOptions, e.1.checkKey = .ok ()) (h : solver.Unsupported r) :
    ∃ fault, (∀ p, create r solver p = .error fault ∧
        ∀ log, (recordedCreate r solver p).Fails log fault log) ∧
      (fault.kind = .configuration ∨ fault.kind = .type) ∧
      (fault.kind = .configuration ↔ (∀ i, r.find solver.scheme ≠ .ok i) ∨
        solver.enforceDerivatives = true ∨ ∀ e ∈ solver.schemeOptions, e.1.isText = true) := by
  cases hfind : r.find solver.scheme with
  | error fault =>
    refine ⟨fault, refuses_of_find hfind, ?_⟩
    obtain ⟨names, rfl⟩ : ∃ names, fault = .scheme (.unknown solver.scheme names) := by
      unfold Registry.find at hfind
      split at hfind
      · cases hfind
      · exact ⟨_, (Except.error.inj hfind).symm⟩
    exact ⟨.inl rfl, iff_of_true rfl (.inl nofun)⟩
  | ok i =>
    obtain ⟨hname, hdemand⟩ : solver.scheme = "trapezoidal" ∧
        (solver.enforceDerivatives = true ∨ solver.schemeOptions ≠ []) :=
      h.resolve_left fun hnone => hnone i hfind
    obtain ⟨hlookup, hkept⟩ := Registry.initial_sound.kept hr (n := "trapezoidal") rfl
    obtain rfl : i = 0 := by
      rw [hname, Registry.find_eq_ok, hlookup] at hfind
      exact (Option.some.inj hfind).symm
    have hscheme : r.schemeAt 0 = .trapezoidal := hkept
    have hfound : ¬ ∀ i, (.ok 0 : Outcome α Nat) ≠ .ok i := fun hnone => hnone 0 rfl
    cases henforce : solver.enforceDerivatives with
    | true =>
      have hcheck := checkConfiguration_trapezoidal (r.displayName 0) solver
      rw [if_pos henforce, ← hscheme] at hcheck
      exact ⟨_, refuses_of_check hfind hcheck, .inl rfl, iff_of_true rfl (.inr (.inl rfl))⟩
    | false =>
      have hoptions : solver.schemeOptions ≠ [] :=
        hdemand.resolve_left (henforce ▸ Bool.false_ne_true)
      obtain ⟨fault, hrefuses, ⟨htexts, hkind⟩ | ⟨htexts, hkind⟩⟩ :=
        refuses_of_options hfind hscheme henforce hoptions hkeys
      · exact ⟨fault, hrefuses, .inl hkind, iff_of_true hkind (.inr (.inr htexts))⟩
      · refine ⟨fault, hrefuses, .inr hkind, iff_of_false ?_ ?_⟩
        · rw [hkind]
          decide
        · rintro (hnone | h | h)
          · exact hfound hnone
          · cases h
          · exact htexts h

namespace Sample

/-- A solver with an option that no scheme has. -/
def demanding : Solver Extended := { Sample.solver with schemeOptions := [(.text "order", .int 4)] }

/-- A request whose only fault is an option with a number for its key. -/
def numbered : SolverRequest Extended where
  numMeshPoints := .int 3
  schemeOptions := .mapping [(.int 1, .int 2)]

end Sample

theorem create_unsupported_sample : Registry.Later (.initial : Registry Extended) .initial ∧
    (∀ e ∈ Sample.demanding.schemeOptions, e.1.checkKey = .ok ()) ∧
    Sample.demanding.Unsupported .initial ∧
    ∃ fault, (∀ p, create .initial Sample.demanding p = .error fault ∧
        ∀ log, (recordedCreate .initial Sample.demanding p).Fails log fault log) ∧
      fault.kind = .configuration := by
  have hkeys : ∀ e ∈ Sample.demanding.schemeOptions, e.1.checkKey = .ok () := by
    simp [Sample.demanding, Value.checkKey]
  have hunsupported : Sample.demanding.Unsupported .initial :=
    .inr ⟨rfl, .inr (List.cons_ne_nil _ _)⟩
  have htexts : ∀ e ∈ Sample.demanding.schemeOptions, e.1.isText = true := by decide
  obtain ⟨fault, hrefuses, -, hkind⟩ := create_unsupported .refl hkeys hunsupported
  exact ⟨.refl, hkeys, hunsupported, fault, hrefuses, hkind.mpr (.inr (.inr htexts))⟩

/-- Not every configuration that is not supported is refused as one. -/
theorem not_refused_as_configuration : ∃ solver : Solver Extended,
    Sample.numbered.configure = .ok solver ∧ solver.Unsupported .initial ∧
      (∀ e ∈ solver.schemeOptions, (e.1.checkKey).isOk = true) ∧
      Raises (create .initial solver Sample.problem) .type := by
  obtain ⟨solver, hsolver, hparts⟩ := Except.exists_of_any (x := Sample.numbered.configure)
    (p := fun solver => decide (solver.scheme = "trapezoidal" ∧ solver.schemeOptions.length = 1 ∧
      (∀ e ∈ solver.schemeOptions, (e.1.checkKey).isOk = true) ∧
      Raises (create .initial solver Sample.problem) .type)) (by decide +kernel)
  obtain ⟨hname, hlength, hkeys, hraises⟩ := of_decide_eq_true hparts
  have hoptions : solver.schemeOptions ≠ [] := List.ne_nil_of_length_pos (hlength ▸ Nat.one_pos)
  exact ⟨solver, hsolver, .inr ⟨hname, .inr hoptions⟩, hkeys, hraises⟩

end Transcription

end Collocation
