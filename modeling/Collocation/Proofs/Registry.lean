import Collocation.Proofs.Solve
import Collocation.Session

/-! Registries over time.  A name stays bound to its scheme for good, and a scheme carries the last
of the names that it was registered under; that is the name in every solution made with it. -/

namespace Collocation

variable {α : Type}

namespace Registry

/-- The name that a scheme was last registered under. -/
def ownName? (r : Registry α) (i : Nat) : Option String := r.schemes[i]?.bind (·.ownName)

/-- The registry with a name bound to a scheme, which carries that name from then on. -/
def bound (r : Registry α) (n : String) (i : Nat) : Registry α where
  schemes := r.schemes.modify i fun s => { s with ownName := some n }
  bindings := if (r.bindings.lookup n).isSome then r.bindings else r.bindings ++ [(n, i)]

variable {r r' : Registry α} {n : String} {i : Nat}

theorem lookup_bound (hfree : ∀ j, r.bindings.lookup n = some j → j = i) (m : String) :
    (r.bound n i).bindings.lookup m = if m = n then some i else r.bindings.lookup m := by
  unfold bound
  cases hn : r.bindings.lookup n with
  | some j =>
    obtain rfl := hfree j hn
    by_cases hm : m = n
    · simp [hm, hn]
    · simp [hm]
  | none =>
    by_cases hm : m = n
    · simp [hm, hn, List.lookup_append]
    · simp [hm, List.lookup_append, List.lookup_cons, beq_false_of_ne hm]

theorem ownName?_bound (hi : i < r.schemes.length) (j : Nat) :
    (r.bound n i).ownName? j = if j = i then some n else r.ownName? j := by
  unfold ownName? bound
  rw [List.getElem?_modify]
  by_cases hj : i = j
  · subst hj
    simp [hi]
  · simp [hj, Ne.symm hj]

theorem nameOf_of_ownName? (h : r.ownName? i = some n) : r.nameOf i = n := by
  unfold ownName? at h
  rw [nameOf, h]

theorem find_eq_ok : r.find n = .ok i ↔ r.bindings.lookup n = some i := by
  unfold find
  cases r.bindings.lookup n <;> simp

theorem bindingName_eq_ok {name : Value α} (h : bindingName name = .ok n) : name = .text n := by
  unfold bindingName at h
  split at h
  · split_ifs at h
    rw [Except.ok.inj h]
  · cases h

theorem register_bound {name : Value α} (hname : bindingName name = .ok n)
    (hfree : ∀ j, r.bindings.lookup n = some j → j = i) :
    (register name i).Yields r ((r.bound n i).nameOf i) (r.bound n i) := by
  rw [Edit.Yields, register, Edit.run_bind, Edit.run_lift, hname]
  simp only [Edit.run_bind, Edit.run_get]
  cases hlookup : r.bindings.lookup n with
  | none =>
    simp only [bound, hlookup, Option.isSome_none, Bool.false_eq_true, if_false]
    rfl
  | some j =>
    obtain rfl := hfree j hlookup
    simp only [bound, hlookup, Option.isSome_some, if_true, ne_eq, not_true_eq_false, if_false]
    rfl

theorem register_taken {name : Value α} {j : Nat} (hname : bindingName name = .ok n)
    (hj : r.bindings.lookup n = some j) (hne : j ≠ i) :
    (register name i).Fails r (.scheme (.taken n (r.schemeAt j).className)) r := by
  rw [Edit.Fails, register, Edit.run_bind, Edit.run_lift, hname]
  simp only [Edit.run_bind, Edit.run_get, hj, if_pos hne]
  rfl

theorem register_blank {name : Value α} {fault : Fault α}
    (hname : bindingName name = .error fault) : (register name i).Fails r fault r := by
  rw [Edit.Fails, register, Edit.run_bind, Edit.run_lift, hname]

/-- A registration changes nothing, or binds a name that is not bound to another scheme. -/
theorem register_cases (name : Value α) (i : Nat) (r : Registry α) :
    (∃ fault, (register name i).Fails r fault r) ∨
      ∃ n, name = .text n ∧ (∀ j, r.bindings.lookup n = some j → j = i) ∧
        (register name i).Yields r ((r.bound n i).nameOf i) (r.bound n i) := by
  cases hname : (bindingName name : Outcome α String) with
  | error fault => exact .inl ⟨fault, register_blank hname⟩
  | ok n =>
    by_cases hfree : ∀ j, r.bindings.lookup n = some j → j = i
    · exact .inr ⟨n, bindingName_eq_ok hname, hfree, register_bound hname hfree⟩
    · obtain ⟨j, hj⟩ := not_forall.mp hfree
      obtain ⟨hlookup, hne⟩ := Classical.not_imp.mp hj
      exact .inl ⟨_, register_taken hname hlookup hne⟩

/-- The registry with one more scheme, which has no name yet. -/
def extended (r : Registry α) (s : Scheme α) : Registry α :=
  { r with schemes := r.schemes ++ [⟨s, none⟩] }

theorem ownName?_extended (s : Scheme α) (i : Nat) : (r.extended s).ownName? i = r.ownName? i := by
  unfold ownName? extended
  rcases lt_trichotomy i r.schemes.length with hi | hi | hi
  · rw [List.getElem?_append_left hi]
  · subst hi
    simp
  · have hmore : (r.schemes ++ [(⟨s, none⟩ : NamedScheme α)]).length ≤ i := by
      rw [List.length_append, List.length_singleton]
      omega
    rw [List.getElem?_eq_none hmore, List.getElem?_eq_none hi.le]

theorem schemeAt_extended (s : Scheme α) (hi : i < r.schemes.length) :
    (r.extended s).schemeAt i = r.schemeAt i := by
  unfold schemeAt extended
  rw [List.getElem?_append_left hi]

theorem schemeAt_bound (j : Nat) : (r.bound n i).schemeAt j = r.schemeAt j := by
  unfold schemeAt bound
  rw [List.getElem?_modify]
  cases r.schemes[j]? with
  | none => rfl
  | some s => by_cases hj : i = j <;> simp [hj]

theorem length_bound : (r.bound n i).schemes.length = r.schemes.length :=
  List.length_modify ..

/-- What happens to a registry: a scheme is defined, or one that is there is registered under a
name. -/
inductive Step : Registry α → Registry α → Prop where
  | define (r : Registry α) (s : Scheme α) : Step r ((add s).run r).run.2
  | register (r : Registry α) (name : Value α) {i : Nat} (hi : i < r.schemes.length) :
      Step r ((register name i).run r).run.2

/-- A step adds a scheme, or binds a name that is not bound to another scheme, or does nothing. -/
theorem Step.cases (h : Step r r') : r' = r ∨ (∃ s, r' = r.extended s) ∨
    ∃ n i, i < r.schemes.length ∧ (∀ j, r.bindings.lookup n = some j → j = i) ∧
      r' = r.bound n i := by
  cases h with
  | define s => exact .inr (.inl ⟨s, rfl⟩)
  | register name hi =>
    rcases register_cases name _ r with ⟨fault, hfails⟩ | ⟨n, -, hfree, hyields⟩
    · rw [hfails]
      exact .inl rfl
    · rw [hyields]
      exact .inr (.inr ⟨n, _, hi, hfree, rfl⟩)

theorem Step.lookup_kept (h : Step r r') (hn : r.bindings.lookup n = some i) :
    r'.bindings.lookup n = some i := by
  obtain rfl | ⟨s, rfl⟩ | ⟨m, j, -, hfree, rfl⟩ := h.cases
  · exact hn
  · exact hn
  · rw [lookup_bound hfree]
    by_cases hm : n = m
    · subst hm
      rw [if_pos rfl, hfree i hn]
    · rwa [if_neg hm]

theorem Step.schemeAt_kept (h : Step r r') (hi : i < r.schemes.length) :
    i < r'.schemes.length ∧ r'.schemeAt i = r.schemeAt i := by
  obtain rfl | ⟨s, rfl⟩ | ⟨m, j, -, -, rfl⟩ := h.cases
  · exact ⟨hi, rfl⟩
  · refine ⟨?_, schemeAt_extended s hi⟩
    simpa [extended] using Nat.lt_succ_of_lt hi
  · rw [length_bound]
    exact ⟨hi, schemeAt_bound i⟩

/-- Names are bound to schemes that are there, and such a scheme carries one of its names. -/
structure Sound (r : Registry α) : Prop where
  inside : ∀ n i, r.bindings.lookup n = some i → i < r.schemes.length
  named : ∀ n i, r.bindings.lookup n = some i →
    ∃ m, r.ownName? i = some m ∧ r.bindings.lookup m = some i

theorem lookup_initial (h : (initial : Registry α).bindings.lookup n = some i) : i = 0 := by
  rw [initial, List.lookup_cons] at h
  split at h
  · exact (Option.some.inj h).symm
  · cases h

theorem initial_sound : (initial : Registry α).Sound where
  inside n i hn := by
    rw [lookup_initial hn]
    exact Nat.one_pos
  named n i hn := by
    rw [lookup_initial hn]
    exact ⟨"trapezoidal", rfl, rfl⟩

theorem Sound.step (hr : r.Sound) (h : Step r r') : r'.Sound := by
  obtain rfl | ⟨s, rfl⟩ | ⟨m, j, hj, hfree, rfl⟩ := h.cases
  · exact hr
  · refine ⟨fun n i hn => (h.schemeAt_kept (hr.inside n i hn)).1, fun n i hn => ?_⟩
    rw [ownName?_extended]
    exact hr.named n i hn
  · refine ⟨fun n i hn => ?_, fun n i hn => ?_⟩
    · rw [length_bound]
      rw [lookup_bound hfree] at hn
      split_ifs at hn
      · exact Option.some.inj hn ▸ hj
      · exact hr.inside n i hn
    · by_cases hi : i = j
      · subst hi
        refine ⟨m, ?_, ?_⟩
        · rw [ownName?_bound hj, if_pos rfl]
        · rw [lookup_bound hfree, if_pos rfl]
      · have hbefore : r.bindings.lookup n = some i := by
          rw [lookup_bound hfree] at hn
          split_ifs at hn
          · exact absurd (Option.some.inj hn).symm hi
          · exact hn
        obtain ⟨own, hown, hlookup⟩ := hr.named n i hbefore
        refine ⟨own, ?_, h.lookup_kept hlookup⟩
        rw [ownName?_bound hj, if_neg hi, hown]

/-- A registry comes after another one, any number of steps later. -/
abbrev Later : Registry α → Registry α → Prop := Relation.ReflTransGen Step

theorem Sound.later (hr : r.Sound) (h : Later r r') : r'.Sound := by
  induction h with
  | refl => exact hr
  | tail _ hstep ih => exact ih.step hstep

theorem Later.sound (h : Later .initial r) : r.Sound := initial_sound.later h

/-- A name that is bound stays bound to the same scheme. -/
theorem Sound.kept (hr : r.Sound) (h : Later r r') (hn : r.bindings.lookup n = some i) :
    r'.bindings.lookup n = some i ∧ r'.schemeAt i = r.schemeAt i := by
  induction h with
  | refl => exact ⟨hn, rfl⟩
  | tail hbefore hstep ih =>
    obtain ⟨hlookup, hscheme⟩ := ih
    refine ⟨hstep.lookup_kept hlookup, ?_⟩
    rw [(hstep.schemeAt_kept ((hr.later hbefore).inside n i hlookup)).2, hscheme]

theorem Sound.lookup_nameOf (hr : r.Sound) (hn : r.bindings.lookup n = some i) :
    r.bindings.lookup (r.nameOf i) = some i := by
  obtain ⟨m, hown, hm⟩ := hr.named n i hn
  rwa [nameOf_of_ownName? hown]

/-- Every scheme carries the name that it is asked for by if no scheme has two of them. -/
theorem Sound.nameOf_iff (hr : r.Sound) :
    (∀ n i, r.bindings.lookup n = some i → r.nameOf i = n) ↔
      ∀ n m i, r.bindings.lookup n = some i → r.bindings.lookup m = some i → n = m := by
  constructor
  · intro h n m i hn hm
    rw [← h n i hn, h m i hm]
  · intro h n i hn
    exact h _ n i (hr.lookup_nameOf hn) hn

/-- A registration that succeeds gives the scheme its name, and no other scheme a new one. -/
theorem nameOf_register {name : Value α} (hr : r.Sound) (hi : i < r.schemes.length)
    (h : (register name i).Yields r n r') :
    name = .text n ∧ r'.nameOf i = n ∧
      ∀ m j, r.bindings.lookup m = some j → j ≠ i → r'.nameOf j = r.nameOf j := by
  obtain ⟨fault, hfails⟩ | ⟨m, hname, hfree, hyields⟩ := register_cases name i r
  · cases hfails.symm.trans h
  · obtain ⟨hreturned, rfl⟩ := hyields.unique h
    have hown : (r.bound m i).nameOf i = m :=
      nameOf_of_ownName? (by rw [ownName?_bound hi, if_pos rfl])
    obtain rfl : m = n := hown.symm.trans hreturned
    refine ⟨hname, hown, fun m' j hj hne => ?_⟩
    obtain ⟨own, hheld, -⟩ := hr.named m' j hj
    rw [nameOf_of_ownName? hheld]
    exact nameOf_of_ownName? (by rw [ownName?_bound hi, if_neg hne, hheld])

theorem lastOf?_lt {className : String} (h : r.lastOf? className = some i) :
    i < r.schemes.length := by
  have hmem := List.mem_of_find?_eq_some h
  simpa using hmem

/-- A class name stands for a scheme that is there, which may have to be defined first. -/
theorem schemeIndex_yields (className : String) (choices : Option (Scheme α))
    (hpos : 0 < r.schemes.length) : ∃ i r',
      (Session.schemeIndex className choices).Yields r i r' ∧ Later r r' ∧
        i < r'.schemes.length := by
  unfold Session.schemeIndex
  split_ifs
  · exact ⟨0, r, Edit.yields_pure.mpr ⟨rfl, rfl⟩, .refl, hpos⟩
  · cases choices with
    | some scheme =>
      refine ⟨_, _, rfl, .single (.define r { scheme with className }), ?_⟩
      rw [List.length_append, List.length_singleton]
      omega
    | none =>
      refine ⟨_, r, rfl, .refl, ?_⟩
      cases h : r.lastOf? className with
      | none => exact hpos
      | some i => exact lastOf?_lt h

/-- The registry of a session is reached by definitions and registrations. -/
theorem registerScheme_keeps (name : Value α) (className : String) (choices : Option (Scheme α)) :
    (Session.registerScheme name className choices).Keeps fun s => Later .initial s.registry := by
  intro s hs
  have hpos : 0 < s.registry.schemes.length :=
    hs.sound.inside "trapezoidal" 0 (initial_sound.kept hs rfl).1
  obtain ⟨i, r', hindex, hlater, hi⟩ := schemeIndex_yields className choices hpos
  rw [Session.registerScheme, Edit.run_within, Edit.run_bind, hindex]
  exact (hs.trans hlater).tail (.register r' name hi)

end Registry

section Solution

variable [Scalar α] {r : Registry α} {solver : Solver α} {p : Problem α}

namespace Transcription

variable {t : Transcription α} {name : String} {S : Solution α}

theorem create_index {i : Nat} (hi : r.find solver.scheme = .ok i)
    (h : create r solver p = .ok t) : t.schemeIndex = i :=
  Except.ok.inj ((create_found h).1.symm.trans hi)

theorem runFrom_scheme {o : Optimiser α} {start : List α}
    (h : t.runFrom name o start = .ok S) : S.scheme = .text name := by
  unfold runFrom at h
  split at h
  · split_ifs at h
    obtain ⟨-, _, _, _, _, rfl⟩ := extract_eq_ok h
    rfl
  · split at h
    · obtain ⟨-, _, _, _, _, rfl⟩ := extract_eq_ok h
      rfl
    · cases h

/-- A solution says the name that its transcription has when it is solved. -/
theorem solve_scheme {o : Optimiser α} {guess : GuessSource α}
    (h : (t.solve name o guess).2 = .ok S) : S.scheme = .text name := by
  simp only [solve] at h
  split at h
  · cases h
  · split at h
    · cases h
    · exact runFrom_scheme h

end Transcription

theorem Solver.solve_scheme {o : Optimiser α} {guess : GuessSource α} {i : Nat} {S : Solution α}
    (hi : r.find solver.scheme = .ok i) (h : (solver.solve r p o guess).2 = .ok S) :
    S.scheme = .text (r.nameOf i) := by
  simp only [solve] at h
  split at h
  · cases h
  · next t ht =>
    obtain ⟨made, hcreate, hmade⟩ := Except.bind_eq_ok.mp ht
    obtain rfl : made = t := by
      split_ifs at hmade
      · obtain ⟨_, -, hmade⟩ := Except.bind_eq_ok.mp hmade
        exact Except.pure_eq_ok.mp hmade
      · exact Except.pure_eq_ok.mp hmade
    rw [← Transcription.create_index hi hcreate]
    exact Transcription.solve_scheme h

end Solution

namespace Registry

variable [Scalar α] {r : Registry α}

/-- The names in a registry that is reached by any definitions and registrations. A name that is
bound stays bound to its scheme. A scheme carries one of its names, the one that it was registered
under last, and solutions that are asked for under any of its names show that one. So every solution
shows the name that it was asked for under exactly if no scheme has two names. -/
theorem shown_names (hr : Later .initial r) :
    (∀ n i, r.find n = .ok i → ∀ r', Later r r' →
      r'.find n = .ok i ∧ r'.schemeAt i = r.schemeAt i) ∧
    (∀ n i, r.find n = .ok i → r.find (r.nameOf i) = .ok i ∧
      ∀ solver p, solver.scheme = n →
        (∀ t, Transcription.create r solver p = .ok t → t.schemeIndex = i) ∧
        ∀ o guess S, (solver.solve r p o guess).2 = .ok S → S.scheme = .text (r.nameOf i)) ∧
    (∀ name n i r', i < r.schemes.length → (register name i).Yields r n r' →
      name = .text n ∧ r'.nameOf i = n ∧
        ∀ m j, r.find m = .ok j → j ≠ i → r'.nameOf j = r.nameOf j) ∧
    ((∀ n i, r.find n = .ok i → r.nameOf i = n) ↔
      ∀ n m i, r.find n = .ok i → r.find m = .ok i → n = m) := by
  have hsound := hr.sound
  refine ⟨?kept, ?shown, ?registered, ?distinct⟩
  case kept =>
    intro n i hn r' hlater
    obtain ⟨hlookup, hscheme⟩ := hsound.kept hlater (find_eq_ok.mp hn)
    exact ⟨find_eq_ok.mpr hlookup, hscheme⟩
  case shown =>
    intro n i hn
    refine ⟨find_eq_ok.mpr (hsound.lookup_nameOf (find_eq_ok.mp hn)), ?_⟩
    rintro solver p rfl
    exact ⟨fun t ht => Transcription.create_index hn ht,
      fun o guess S hS => solver.solve_scheme hn hS⟩
  case registered =>
    intro name n i r' hi hregister
    simp only [find_eq_ok]
    exact nameOf_register hsound hi hregister
  case distinct =>
    simp only [find_eq_ok]
    exact hsound.nameOf_iff

namespace Sample

/-- A copy of the trapezoidal rule that is registered twice. -/
def renamed : Registry Extended :=
  let defined := ((add { Scheme.trapezoidal with className := "Copy" }).run initial).run.2
  let first := ((register (.text "one") 1).run defined).run.2
  ((register (.text "two") 1).run first).run.2

theorem renamed_reached : Later .initial renamed :=
  .tail (.tail (.tail .refl (.define _ _)) (.register _ _ (by decide))) (.register _ _ (by decide))

end Sample

theorem shown_names_sample : Later .initial Sample.renamed ∧
    (∀ r', Later Sample.renamed r' → r'.find "one" = .ok 1) ∧
    Sample.renamed.find (Sample.renamed.nameOf 1) = .ok 1 ∧
    ¬ ∀ n i, Sample.renamed.find n = .ok i → Sample.renamed.nameOf i = n := by
  have hone : Sample.renamed.find "one" = .ok 1 := find_eq_ok.mpr (by decide +kernel)
  have htwo : Sample.renamed.find "two" = .ok 1 := find_eq_ok.mpr (by decide +kernel)
  obtain ⟨hkept, hshown, -, hdistinct⟩ := shown_names Sample.renamed_reached
  refine ⟨Sample.renamed_reached, fun r' h => (hkept _ _ hone r' h).1, (hshown _ _ hone).1, ?_⟩
  intro h
  exact absurd (hdistinct.mp h _ _ _ hone htwo) (by decide)

/-- Not every scheme carries the name that it is asked for by. -/
theorem not_named_as_asked : ∃ S : Solution Extended, Later .initial Sample.renamed ∧
    Sample.renamed.find "one" = .ok 1 ∧ Sample.renamed.nameOf 1 = "two" ∧
    (Solver.solve { Transcription.Sample.solver with scheme := "one" } Sample.renamed
      Transcription.Sample.problem (Transcription.Sample.returning Transcription.Sample.report)
      .bounds).2 = .ok S ∧ S.scheme = .text "two" := by
  have hone : Sample.renamed.find "one" = .ok 1 := find_eq_ok.mpr (by decide +kernel)
  have htwo : Sample.renamed.nameOf 1 = "two" := by decide +kernel
  obtain ⟨S, hS⟩ := Except.exists_of_isOk (x := (Solver.solve
    { Transcription.Sample.solver with scheme := "one" } Sample.renamed
    Transcription.Sample.problem (Transcription.Sample.returning Transcription.Sample.report)
    .bounds).2) (by decide +kernel)
  exact ⟨S, Sample.renamed_reached, hone, htwo, hS, htwo ▸ Solver.solve_scheme hone hS⟩

end Registry

end Collocation
