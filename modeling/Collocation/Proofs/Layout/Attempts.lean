import Collocation.Proofs.Layout.Naming
import Mathlib.Control.Lawful

/-! Calls on a layout in the making that fail.  Bounds are counted before any of them is stored, but
names are stored sort by sort: when a list is refused, the lists before it are already there.  Calls
that fail leave nothing else, so that the layout that is built afterwards differs at most in its
labels. -/

namespace Collocation.LayoutBuilder

variable {α : Type} [Scalar α]

/-! ### Lists of names -/

/-- How messages call the names of a sort. -/
def nameText : VariableSort → String
  | .state => "state name"
  | .control => "control name"
  | .multiplier => "multiplier name"
  | .parameter => "parameter name"

/-- What a list of names gives to the variables of its sort: nothing if it is missing. -/
def readNames (sizes : VariableSort → Value α) (p : VariableSort × Value α) :
    Outcome α (Option (List (Value α))) :=
  if p.2.isMissing then .ok none else some <$> countedNames p.2 (sizes p.1) (nameText p.1)

/-- The names that lists give to a sort, up to the first list that is refused. -/
def keptNames (sizes : VariableSort → Value α) :
    List (VariableSort × Value α) → VariableSort → Option (List (Value α))
  | [], _ => none
  | p :: rest, s =>
    match readNames sizes p with
    | .ok given => keptNames sizes rest s <|> if s = p.1 then given else none
    | .error _ => none

/-- The names of a builder after lists of names, up to the first one that is refused. -/
def keep (kept : VariableSort → Option (List (Value α))) (b : LayoutBuilder α) : LayoutBuilder α :=
  b.named fun s => (kept s).getD (b.names s)

section Keep

variable (b : LayoutBuilder α) (kept kept' : VariableSort → Option (List (Value α)))

omit [Scalar α]

@[simp] theorem sizes_keep : (b.keep kept).sizes = b.sizes := sizes_named ..

@[simp] theorem keep_none : (b.keep fun _ => none) = b := rfl

theorem keep_keep : (b.keep kept).keep kept' = b.keep fun s => kept' s <|> kept s := by
  unfold keep
  rw [names_named, named_named]
  congr 1
  funext s
  cases h : kept' s <;> simp [h]

end Keep

def setNamesFor (p : VariableSort × Value α) : Edit (LayoutBuilder α) α Unit :=
  setNamesOf (nameText p.1) (·.sizes p.1) (fun ns b => b.named (Function.update b.names p.1 ns)) p.2

/-- The lists of a call that sets names, in their order. -/
def nameLists (states controls multipliers parameters : Value α) :
    List (VariableSort × Value α) :=
  [(.state, states), (.control, controls), (.multiplier, multipliers), (.parameter, parameters)]

theorem setNames_eq (xs us ms ps : Value α) :
    setNames xs us ms ps = Edit.sequence setNamesFor (nameLists xs us ms ps) := by
  simp only [nameLists, Edit.sequence_cons, Edit.sequence_nil, bind_pure_unit]
  rfl

theorem run_setNamesFor (p : VariableSort × Value α) (b : LayoutBuilder α) :
    ((setNamesFor p).run b).run = match readNames b.sizes p with
      | .ok given => (.ok (), b.keep fun s => if s = p.1 then given else none)
      | .error fault => (.error fault, b) := by
  unfold setNamesFor setNamesOf readNames
  split_ifs with hmissing
  · show ((.ok (), b) : Outcome α Unit × _) = (.ok (), b.named fun s => _)
    simp
  · rw [Edit.run_store]
    cases countedNames p.2 (b.sizes p.1) (nameText p.1) with
    | error fault => rfl
    | ok ns =>
      show ((.ok (), b.named (Function.update b.names p.1 ns)) : Outcome α Unit × _) =
        (.ok (), b.named fun s => _)
      congr 2
      funext s
      by_cases hs : s = p.1
      · subst hs
        simp
      · simp [hs]

theorem keptNames_of_ok {sizes : VariableSort → Value α} {p : VariableSort × Value α}
    {given : Option (List (Value α))} (h : readNames sizes p = .ok given)
    (rest : List (VariableSort × Value α)) :
    keptNames sizes (p :: rest) =
      fun s => keptNames sizes rest s <|> if s = p.1 then given else none := by
  funext s
  rw [keptNames, h]

theorem keptNames_of_error {sizes : VariableSort → Value α} {p : VariableSort × Value α}
    {fault : Fault α} (h : readNames sizes p = .error fault)
    (rest : List (VariableSort × Value α)) : keptNames sizes (p :: rest) = fun _ => none := by
  funext s
  rw [keptNames, h]

/-- Lists of names are stored up to the first one that is refused. -/
theorem run_namesSequence (ps : List (VariableSort × Value α)) (b : LayoutBuilder α) :
    ((Edit.sequence setNamesFor ps).run b).run =
      (forM ps fun p => discard (readNames b.sizes p), b.keep (keptNames b.sizes ps)) := by
  induction ps generalizing b with
  | nil => rfl
  | cons p rest ih =>
    rw [Edit.sequence_cons, Edit.run_bind, run_setNamesFor, List.forM_cons]
    cases hread : readNames b.sizes p with
    | error fault =>
      rw [keptNames_of_error hread]
      rfl
    | ok given =>
      rw [keptNames_of_ok hread, ← keep_keep]
      show ((Edit.sequence setNamesFor rest).run (b.keep _)).run = _
      rw [ih, sizes_keep]
      rfl

/-! ### Calls -/

namespace Setter

/-- Whether a call is accepted, which only depends on the sizes. -/
def outcome (sizes : VariableSort → Value α) : Setter α → Outcome α Unit
  | .states path initial final => discard (boundsSet path initial final (sizes .state) "state")
  | .controls path initial final =>
    discard (boundsSet path initial final (sizes .control) "control")
  | .multipliers bounds => checkCount bounds.length (sizes .multiplier) "multiplier"
  | .parameters bounds => checkCount bounds.length (sizes .parameter) "parameter"
  | .times _ _ => .ok ()
  | .names xs us ms ps => forM (nameLists xs us ms ps) fun p => discard (readNames sizes p)

def accepted (sizes : VariableSort → Value α) (c : Setter α) : Bool := (c.outcome sizes).isOk

/-- The bounds that a call sets when it is accepted. -/
def putBounds : Setter α → LayoutBuilder α → LayoutBuilder α
  | .states path initial final, b => { b with stateBounds := ⟨path, initial, final⟩ }
  | .controls path initial final, b => { b with controlBounds := ⟨path, initial, final⟩ }
  | .multipliers bounds, b => { b with multiplierBounds := bounds }
  | .parameters bounds, b => { b with parameterBounds := bounds }
  | .times initial final, b => { b with initialTime := initial, finalTime := final }
  | .names .., b => b

/-- The names that a call stores, whether it is accepted or refused. -/
def kept (sizes : VariableSort → Value α) : Setter α → VariableSort → Option (List (Value α))
  | .names xs us ms ps => keptNames sizes (nameLists xs us ms ps)
  | _ => fun _ => none

/-- What a call does: it sets its bounds if it is accepted, and stores names in any case. -/
theorem run_eq (c : Setter α) (b : LayoutBuilder α) :
    (c.run.run b).run = match c.outcome b.sizes with
      | .ok () => (.ok (), (c.putBounds b).keep (c.kept b.sizes))
      | .error fault => (.error fault, b.keep (c.kept b.sizes)) := by
  cases c with
  | states path initial final =>
    rw [run, setStateBounds, Edit.run_store]
    simp only [outcome, sizes, kept, keep_none, putBounds]
    cases h : boundsSet path initial final b.states "state" with
    | error fault => rfl
    | ok bs =>
      rw [eq_of_boundsSet h]
      rfl
  | controls path initial final =>
    rw [run, setControlBounds, Edit.run_store]
    simp only [outcome, sizes, kept, keep_none, putBounds]
    cases h : boundsSet path initial final b.controls "control" with
    | error fault => rfl
    | ok bs =>
      rw [eq_of_boundsSet h]
      rfl
  | multipliers bounds =>
    rw [run, setMultiplierBounds, Edit.run_store]
    simp only [outcome, sizes, kept, keep_none, putBounds]
    cases (checkCount bounds.length b.multipliers "multiplier" : Outcome α Unit) <;> rfl
  | parameters bounds =>
    rw [run, setParameterBounds, Edit.run_store]
    simp only [outcome, sizes, kept, keep_none, putBounds]
    cases (checkCount bounds.length b.parameters "parameter" : Outcome α Unit) <;> rfl
  | times initial final => rfl
  | names xs us ms ps =>
    rw [run, setNames_eq, run_namesSequence]
    show (outcome b.sizes (.names xs us ms ps), _) = _
    cases outcome b.sizes (.names xs us ms ps) <;> rfl

/-- A call that is refused when it has already stored names: one of its lists is refused, and one of
those before it is given. -/
inductive Halfway (sizes : VariableSort → Value α) : Setter α → Prop where
  | names {xs us ms ps : Value α} {before after : List (VariableSort × Value α)}
      {refused : VariableSort × Value α} {fault : Fault α}
      (hlists : nameLists xs us ms ps = before ++ refused :: after)
      (hbefore : ∀ p ∈ before, ∃ given, readNames sizes p = .ok given)
      (hgiven : ∃ p ∈ before, ∃ ns, readNames sizes p = .ok (some ns))
      (hrefused : readNames sizes refused = .error fault) :
      Halfway sizes (.names xs us ms ps)

end Setter

variable {sizes : VariableSort → Value α}

/-- Lists that are not refused store what is given. -/
theorem exists_kept_iff {ps : List (VariableSort × Value α)}
    (h : ∀ p ∈ ps, ∃ given, readNames sizes p = .ok given) :
    (∃ s ns, keptNames sizes ps s = some ns) ↔
      ∃ p ∈ ps, ∃ ns, readNames sizes p = .ok (some ns) := by
  induction ps with
  | nil => simp [keptNames]
  | cons p rest ih =>
    obtain ⟨⟨given, hgiven⟩, hrest⟩ := List.forall_mem_cons.mp h
    rw [List.exists_mem_cons_iff, ← ih hrest, keptNames_of_ok hgiven, hgiven]
    constructor
    · rintro ⟨s, ns, hs⟩
      cases hkept : keptNames sizes rest s with
      | some ns' => exact .inr ⟨s, ns', hkept⟩
      | none =>
        have hs : (if s = p.1 then given else none) = some ns := by simpa [hkept] using hs
        split_ifs at hs
        exact .inl ⟨ns, congrArg Except.ok hs⟩
    · rintro (⟨ns, hns⟩ | ⟨s, ns, hs⟩)
      · obtain rfl := Except.ok.inj hns
        cases hkept : keptNames sizes rest p.1 with
        | some ns' => exact ⟨p.1, ns', by simp [hkept]⟩
        | none => exact ⟨p.1, ns, by simp [hkept]⟩
      · exact ⟨s, ns, by simp [hs]⟩

/-- What stands behind a list that is refused is not read. -/
theorem keptNames_refused {before after : List (VariableSort × Value α)}
    {refused : VariableSort × Value α} {fault : Fault α}
    (hbefore : ∀ p ∈ before, ∃ given, readNames sizes p = .ok given)
    (hrefused : readNames sizes refused = .error fault) :
    keptNames sizes (before ++ refused :: after) = keptNames sizes before := by
  induction before with
  | nil => exact keptNames_of_error hrefused after
  | cons p rest ih =>
    obtain ⟨⟨given, hgiven⟩, hrest⟩ := List.forall_mem_cons.mp hbefore
    rw [List.cons_append, keptNames_of_ok hgiven, keptNames_of_ok hgiven, ih hrest]

namespace Setter

/-- The halfway calls are those that are refused and leave names. -/
theorem halfway_iff {c : Setter α} : c.Halfway sizes ↔
    (∃ fault, c.outcome sizes = .error fault) ∧ ∃ s ns, c.kept sizes s = some ns := by
  constructor
  · rintro ⟨hlists, hbefore, hgiven, hrefused⟩
    next xs us ms ps before after refused fault =>
    have hraises : Raises (outcome sizes (.names xs us ms ps)) fault.kind := by
      rw [outcome, raises_forM_iff]
      refine ⟨before, refused, after, hlists, ?_, raises_discard_iff.mpr ⟨fault, hrefused, rfl⟩⟩
      intro p hp
      obtain ⟨given, hread⟩ := hbefore p hp
      rw [hread]
      rfl
    obtain ⟨fault', hfault, -⟩ := hraises
    refine ⟨⟨fault', hfault⟩, ?_⟩
    rw [kept, hlists, keptNames_refused hbefore hrefused]
    exact (exists_kept_iff hbefore).mpr hgiven
  · rintro ⟨⟨fault, hfault⟩, hkept⟩
    cases c with
    | names xs us ms ps =>
      have hraises : Raises (outcome sizes (.names xs us ms ps)) fault.kind := ⟨fault, hfault, rfl⟩
      rw [outcome, raises_forM_iff] at hraises
      obtain ⟨before, refused, after, hlists, hbefore, hrefused⟩ := hraises
      obtain ⟨fault', hrefused, -⟩ := raises_discard_iff.mp hrefused
      have hbefore : ∀ p ∈ before, ∃ given, readNames sizes p = .ok given := by
        intro p hp
        obtain ⟨given, hread, -⟩ := Except.bind_eq_ok.mp (hbefore p hp)
        exact ⟨given, hread⟩
      rw [kept, hlists, keptNames_refused hbefore hrefused] at hkept
      exact .names hlists hbefore ((exists_kept_iff hbefore).mp hkept) hrefused
    | _ =>
      obtain ⟨s, ns, hs⟩ := hkept
      cases hs

theorem accepted_eq_true {c : Setter α} (h : c.outcome sizes = .ok ()) :
    c.accepted sizes = true := by
  rw [accepted, h]
  rfl

theorem accepted_eq_false {c : Setter α} {fault : Fault α} (h : c.outcome sizes = .error fault) :
    ¬ c.accepted sizes = true := by
  rw [accepted, h]
  exact Bool.false_ne_true

theorem accepted_iff {c : Setter α} {b : LayoutBuilder α} :
    c.accepted b.sizes = true ↔ ∃ b', c.run.Yields b () b' := by
  unfold Edit.Yields
  rw [run_eq, accepted]
  cases c.outcome b.sizes with
  | error fault => simp [Except.isOk, Except.toBool]
  | ok u => simp [Except.isOk, Except.toBool]

theorem kept_eq_none {c : Setter α} {fault : Fault α} (h : c.outcome sizes = .error fault)
    (hc : ¬ c.Halfway sizes) : c.kept sizes = fun _ => none := by
  funext s
  rw [← Option.not_isSome_iff_eq_none, Option.isSome_iff_exists]
  exact fun ⟨ns, hs⟩ => hc (halfway_iff.mpr ⟨⟨fault, h⟩, s, ns, hs⟩)

/-- The halfway calls are those that can leave something when they fail. -/
theorem atomic_iff {c : Setter α} {b : LayoutBuilder α} :
    (∀ b', b'.sizes = b.sizes → c.run.Atomic b') ↔ ¬ c.Halfway b.sizes := by
  constructor
  · intro h hc
    obtain ⟨⟨fault, hfault⟩, s, ns, hs⟩ := halfway_iff.mp hc
    -- The names of this builder are not those that the call stores.
    let b' := b.named fun _ => ns ++ [.none]
    have hsizes : b'.sizes = b.sizes := sizes_named ..
    have hfails : c.run.Fails b' fault (b'.keep (c.kept b'.sizes)) := by
      rw [Edit.Fails, run_eq, hsizes, hfault]
    have hnames := congrArg (fun b => (b.names s).length) (h b' hsizes fault _ hfails)
    simp [keep, hsizes, hs, b'] at hnames
  · intro hc b' hsizes fault b'' hfails
    rw [Edit.Fails, run_eq, hsizes] at hfails
    cases hout : c.outcome b.sizes with
    | ok u => simp [hout] at hfails
    | error fault' =>
      rw [hout, kept_eq_none hout hc, keep_none] at hfails
      exact (Prod.ext_iff.mp hfails).2.symm

section PutBounds

omit [Scalar α]

theorem putBounds_named (c : Setter α) (b : LayoutBuilder α)
    (names : VariableSort → List (Value α)) :
    c.putBounds (b.named names) = (c.putBounds b).named names := by
  cases c <;> rfl

theorem names_putBounds (c : Setter α) (b : LayoutBuilder α) :
    (c.putBounds b).names = b.names := by
  funext s
  cases c <;> cases s <;> rfl

theorem sizes_putBounds (c : Setter α) (b : LayoutBuilder α) :
    (c.putBounds b).sizes = b.sizes := by
  funext s
  cases c <;> cases s <;> rfl

end PutBounds

end Setter

/-! ### Sequences of calls -/

/-- After some calls a builder is what the accepted ones alone make of it, except for the names:
they are those of the last call that stored any for a sort, refused ones among them. -/
theorem afterAll_eq (calls : List (Setter α)) (b : LayoutBuilder α)
    (names : VariableSort → List (Value α)) :
    ∃ q, (Edit.sequence Setter.run (calls.filter (Setter.accepted b.sizes))).Yields b () q ∧
      Edit.afterAll Setter.run calls (b.named names) =
        q.named fun s => lastPicked (fun c => c.kept b.sizes s) (names s) calls := by
  induction calls generalizing b names with
  | nil => exact ⟨b, rfl, rfl⟩
  | cons c rest ih =>
    rw [Edit.afterAll_cons, Setter.run_eq, sizes_named]
    cases hout : c.outcome b.sizes with
    | error fault =>
      rw [List.filter_cons_of_neg (Setter.accepted_eq_false hout)]
      obtain ⟨q, hq, hrest⟩ := ih b fun s => (c.kept b.sizes s).getD (names s)
      refine ⟨q, hq, ?_⟩
      simp only [lastPicked_cons]
      rw [← hrest, keep, names_named, named_named]
    | ok u =>
      rw [List.filter_cons_of_pos (Setter.accepted_eq_true hout)]
      let b' := (c.putBounds b).keep (c.kept b.sizes)
      have hsizes : b'.sizes = b.sizes := (sizes_keep ..).trans (c.sizes_putBounds b)
      obtain ⟨q, hq, hrest⟩ := ih b' fun s => (c.kept b.sizes s).getD (names s)
      rw [hsizes] at hq hrest
      have hc : c.run.Yields b () b' := by
        rw [Edit.Yields, Setter.run_eq, hout]
      refine ⟨q, ?_, ?_⟩
      · rw [Edit.sequence_cons, Edit.yields_bind]
        exact ⟨(), b', hc, hq⟩
      · simp only [lastPicked_cons]
        rw [← hrest, keep, Setter.putBounds_named, names_named, named_named]
        rfl

/-- Without halfway calls, calls that fail leave no trace. -/
theorem yields_accepted {calls : List (Setter α)} {b : LayoutBuilder α}
    (h : ∀ c ∈ calls, ¬ c.Halfway b.sizes) :
    (Edit.sequence Setter.run (calls.filter (Setter.accepted b.sizes))).Yields b ()
      (Edit.afterAll Setter.run calls b) := by
  induction calls generalizing b with
  | nil => rfl
  | cons c rest ih =>
    rw [Edit.afterAll_cons, Setter.run_eq]
    cases hout : c.outcome b.sizes with
    | error fault =>
      rw [List.filter_cons_of_neg (Setter.accepted_eq_false hout),
        Setter.kept_eq_none hout (h c (by simp))]
      exact ih fun d hd => h d (by simp [hd])
    | ok u =>
      let b' := (c.putBounds b).keep (c.kept b.sizes)
      have hsizes : b'.sizes = b.sizes := (sizes_keep ..).trans (c.sizes_putBounds b)
      have hc : c.run.Yields b () b' := by
        rw [Edit.Yields, Setter.run_eq, hout]
      have hrest := ih (b := b') fun d hd => hsizes.symm ▸ h d (by simp [hd])
      rw [hsizes] at hrest
      rw [List.filter_cons_of_pos (Setter.accepted_eq_true hout), Edit.sequence_cons,
        Edit.yields_bind]
      exact ⟨(), b', hc, hrest⟩

/-- A list of names that is accepted has as many names as there are variables. -/
theorem length_readNames {p : VariableSort × Value α} {ns : List (Value α)} {n : Int}
    (h : readNames sizes p = .ok (some ns)) (hn : (sizes p.1).toRepeatCount = .ok n) :
    ns.length = n.toNat := by
  unfold readNames at h
  split_ifs at h with hmissing
  · cases h
  · obtain ⟨ns', hcounted, hns⟩ := Except.map_eq_ok.mp h
    obtain rfl := Option.some.inj hns
    simp only [countedNames, Except.bind_eq_ok] at hcounted
    obtain ⟨m, hm, _, hcheck, hitems⟩ := hcounted
    unfold checkCount at hcheck
    split_ifs at hcheck with hequals
    rw [equalsInt_of_toRepeatCount hn hequals, Value.length_toItems hm hitems, Int.toNat_natCast]

theorem length_keptNames {ps : List (VariableSort × Value α)} {s : VariableSort}
    {ns : List (Value α)} {n : Int} (h : keptNames sizes ps s = some ns)
    (hn : (sizes s).toRepeatCount = .ok n) : ns.length = n.toNat := by
  induction ps with
  | nil => cases h
  | cons p rest ih =>
    cases hread : readNames sizes p with
    | error fault =>
      rw [keptNames_of_error hread] at h
      cases h
    | ok given =>
      cases hkept : keptNames sizes rest s with
      | some ns' =>
        obtain rfl : ns' = ns := by simpa [keptNames_of_ok hread, hkept] using h
        exact ih hkept
      | none =>
        have hgiven : (if s = p.1 then given else none) = some ns := by
          simpa [keptNames_of_ok hread, hkept] using h
        split_ifs at hgiven with hs
        subst hs hgiven
        exact length_readNames hread hn

theorem keep_labelled {b : LayoutBuilder α} (h : b.Labelled) (c : Setter α) :
    (b.keep (c.kept b.sizes)).Labelled := by
  intro s
  obtain ⟨n, hn, hlength⟩ := h s
  refine ⟨n, by rwa [sizes_keep], ?_⟩
  rw [keep, names_named]
  cases hkept : c.kept b.sizes s with
  | none => exact hlength
  | some ns =>
    cases c with
    | names xs us ms ps => exact length_keptNames hkept hn
    | _ => cases hkept

theorem run_labelled (c : Setter α) : c.run.Keeps (Labelled (α := α)) := by
  intro b hb
  rw [Setter.run_eq]
  cases c.outcome b.sizes with
  | error fault => exact keep_labelled hb c
  | ok u =>
    have hput : (c.putBounds b).Labelled := by
      intro s
      rw [c.sizes_putBounds, c.names_putBounds]
      exact hb s
    have hkeep := keep_labelled hput c
    rwa [c.sizes_putBounds] at hkeep

/-- A call leaves a builder as it was when it fails, unless it is halfway. After some calls a
builder is what those that succeed make of it on their own, except that each sort has the names that
were stored last, which can be those of a halfway call. The layouts of both builders are the same
but for their labels, and without halfway calls the builders are the same. -/
theorem setting_attempts {r : LayoutRequest α} {b : LayoutBuilder α} (hb : ofRequest r = .ok b)
    (calls : List (Setter α)) :
    (∀ c : Setter α, (∀ b', b'.sizes = b.sizes → c.run.Atomic b') ↔ ¬ c.Halfway b.sizes) ∧
    (∀ c : Setter α, c.accepted b.sizes = true ↔ ∃ b', c.run.Yields b () b') ∧
    ∃ q, (Edit.sequence Setter.run (calls.filter (Setter.accepted b.sizes))).Yields b () q ∧
      Edit.afterAll Setter.run calls b =
        q.named (fun s => lastPicked (fun c => c.kept b.sizes s) (b.names s) calls) ∧
      (Edit.afterAll Setter.run calls b).build.map Layout.unlabelled =
        q.build.map Layout.unlabelled ∧
      ((∀ c ∈ calls, ¬ c.Halfway b.sizes) → Edit.afterAll Setter.run calls b = q) := by
  refine ⟨fun c => Setter.atomic_iff, fun c => Setter.accepted_iff, ?_⟩
  obtain ⟨q, hq, hafter⟩ := afterAll_eq calls b b.names
  rw [named_names] at hafter
  refine ⟨q, hq, hafter, ?_, fun h => ((yields_accepted h).unique hq).2⟩
  have hlabelled := ofRequest_labelled hb
  have hleft : (Edit.afterAll Setter.run calls b).Labelled :=
    Edit.afterAll_keeps (fun c _ => run_labelled c) hlabelled
  have hright : q.Labelled := by
    have hkeeps : (Edit.sequence Setter.run
        (calls.filter (Setter.accepted b.sizes))).Keeps Labelled :=
      Edit.sequence_keeps fun c _ => run_labelled c
    have hkept := hkeeps b hlabelled
    rwa [hq] at hkept
  rw [hafter] at hleft ⊢
  refine build_unlabelled fun s => ?_
  obtain ⟨n, hn, hlength⟩ := hleft s
  obtain ⟨n', hn', hlength'⟩ := hright s
  rw [sizes_named, hn'] at hn
  rw [names_named] at hlength
  rw [hlength, hlength', Except.ok.inj hn]

namespace Sample

/-- Two points with one state and one control. -/
def request : LayoutRequest Extended := { points := .int 2, states := .int 1, controls := .int 1 }

/-- A name for the state, and one name too many for the control. -/
def misnamed : Setter Extended :=
  .names (.list [.text "position"]) (.list [.text "force", .text "torque"]) .none .none

/-- The texts of the labels of a layout. -/
def labels (b : LayoutBuilder Extended) : Option (List String) :=
  b.build.toOption.map fun l => l.labels.map Value.display

end Sample

/-- A call that is refused halfway leaves the layout of the calls that succeed, but for its labels.
-/
theorem setting_attempts_sample : ∃ b q, ofRequest Sample.request = .ok b ∧
    (Edit.sequence Setter.run ([Sample.misnamed].filter (Setter.accepted b.sizes))).Yields b () q ∧
    (Edit.afterAll Setter.run [Sample.misnamed] b).build.map Layout.unlabelled =
      q.build.map Layout.unlabelled := by
  obtain ⟨b, hb⟩ := Except.exists_of_isOk (x := ofRequest Sample.request) (by decide +kernel)
  obtain ⟨-, -, q, hq, -, hbuild, -⟩ := setting_attempts hb [Sample.misnamed]
  exact ⟨b, q, hb, hq, hbuild⟩

/-- Names of the states stay when those of the controls are refused. -/
theorem names_not_atomic : ∃ b, ofRequest Sample.request = .ok b ∧
    Raises (Sample.misnamed.run.run b).run.1 .dataIntegrity ∧
    Sample.labels b = some ["x0[0]", "u0[0]", "x0[1]", "u0[1]", "t0", "tf"] ∧
    Sample.labels (Edit.afterAll Setter.run [Sample.misnamed] b) =
      some ["position[0]", "u0[0]", "position[1]", "u0[1]", "t0", "tf"] :=
  ⟨_, rfl, by decide +kernel, by decide +kernel, by decide +kernel⟩

end Collocation.LayoutBuilder
