import Collocation.Proofs.Layout.Accessors

/-! When a layout can be built.  A builder is refused for points outside the mesh or named twice, or
where memory does not last; calls with one item for each variable succeed, and then so does the
final check of the size. -/

namespace Collocation

variable {α : Type} [Scalar α]

variable (α) in
/-- A list of so many items can be counted, and there is memory for it. -/
def Fits (n : Nat) : Prop := (n : Int) < Tensor.countable ∧ (n : Int) ≤ Scalar.maxEntries α

variable (α) in
/-- A list with one item for each variable of a sort can be made. -/
structure Dimensions.Storable (d : Dimensions) : Prop where
  states : Fits α d.states
  controls : Fits α d.controls
  multipliers : Fits α d.multipliers
  parameters : Fits α d.parameters

theorem Value.toRepeatCount_int {n : Nat} (h : Fits α n) :
    (Value.int n : Value α).toRepeatCount = .ok (n : Int) := by
  obtain ⟨hcountable, hmemory⟩ := h
  have hsize : isSize n = true := by
    rw [isSize, Bool.and_eq_true, decide_eq_true_eq, decide_eq_true_eq]
    have : 0 ≤ Tensor.countable := by decide
    omega
  simp only [toRepeatCount, Value.whole?, hsize, Bool.not_true, Bool.false_eq_true, ↓reduceIte,
    if_neg (Int.not_lt.mpr hmemory)]

theorem Value.toRepeatCount_not_raises (n : Nat) :
    ¬ Raises (Value.int n : Value α).toRepeatCount .dataIntegrity := by
  simp only [toRepeatCount, Value.whole?]
  split_ifs
  · exact not_raises_error Kind.noConfusion
  · exact not_raises_error Kind.noConfusion
  · exact not_raises_ok _

namespace LayoutBuilder

section Request

variable {points : Nat} {d : Dimensions} {indices : Value α} {asked : List Int}
  (hnamed : namedPoints indices = .ok asked)
include hnamed

theorem exists_ofRequest (hasked : MeshPoints points asked) (hd : d.Storable α) :
    ∃ b, ofRequest (.ofSizes points d indices) = .ok b := by
  obtain ⟨held, hheld⟩ := exists_constrainedPoints d.multipliers hnamed hasked
  simp only [ofRequest, LayoutRequest.ofSizes, Except.bind_eq_ok, Except.pure_eq_ok]
  exact ⟨_, held, hheld, _, Value.toRepeatCount_int hd.states, _,
    Value.toRepeatCount_int hd.controls, _, Value.toRepeatCount_int hd.multipliers, _,
    Value.toRepeatCount_int hd.parameters, rfl⟩

/-- For points of the mesh a builder is refused only where memory does not last. -/
theorem ofRequest_not_raises (hasked : MeshPoints points asked) :
    ¬ Raises (ofRequest (.ofSizes points d indices)) .dataIntegrity := by
  obtain ⟨held, hheld⟩ := exists_constrainedPoints d.multipliers hnamed hasked
  refine not_raises_bind ?_ fun _ _ => ?_
  · rw [LayoutRequest.ofSizes, hheld]
    exact not_raises_ok held
  · refine not_raises_bind (Value.toRepeatCount_not_raises d.states) fun _ _ => ?_
    refine not_raises_bind (Value.toRepeatCount_not_raises d.controls) fun _ _ => ?_
    refine not_raises_bind (Value.toRepeatCount_not_raises d.multipliers) fun _ _ => ?_
    refine not_raises_bind (Value.toRepeatCount_not_raises d.parameters) fun _ _ => ?_
    exact not_raises_ok _

theorem ofRequest_raises (hm : d.multipliers ≠ 0) (hasked : ¬ MeshPoints points asked) :
    Raises (ofRequest (.ofSizes points d indices)) .dataIntegrity :=
  (constrainedPoints_raises hm hnamed hasked).bind

end Request

/-- Names that are missing, or as many as there are variables. -/
def Suits (names : Value α) (n : Nat) : Prop :=
  names.isMissing ∨ names.toLength = .ok n ∧ ∃ ns, names.toItems = .ok ns

/-- What a call gives has one item for each variable of its sort. -/
def Setter.Suits (d : Dimensions) : Setter α → Prop
  | .states path initial final => (⟨path, initial, final⟩ : BoundsSet α).Counted d.states
  | .controls path initial final => (⟨path, initial, final⟩ : BoundsSet α).Counted d.controls
  | .multipliers bounds => bounds.length = d.multipliers
  | .parameters bounds => bounds.length = d.parameters
  | .times _ _ => True
  | .names xs us ms ps => LayoutBuilder.Suits xs d.states ∧ LayoutBuilder.Suits us d.controls ∧
    LayoutBuilder.Suits ms d.multipliers ∧ LayoutBuilder.Suits ps d.parameters

/-- A builder for the given sizes, whatever was set in it. -/
structure HasSizes (b : LayoutBuilder α) (d : Dimensions) : Prop where
  states : b.states = .int d.states
  controls : b.controls = .int d.controls
  multipliers : b.multipliers = .int d.multipliers
  parameters : b.parameters = .int d.parameters

theorem boundsSet_eq {path : List (Bounds α)} {initial final : Option (List (Bounds α))} {n : Nat}
    {sort : String} (h : (⟨path, initial, final⟩ : BoundsSet α).Counted n) :
    boundsSet path initial final (.int n) sort = .ok ⟨path, initial, final⟩ := by
  have hcheck {bs : List (Bounds α)} (hbs : bs.length = n) (sort : String) :
      (checkCount bs.length (.int n) sort : Outcome α Unit) = .ok () :=
    checkCount_int.mpr hbs.symm
  have hpath := hcheck h.path sort
  cases initial with
  | none =>
    cases final with
    | none => simp [boundsSet, hpath, bind, Except.bind, pure, Except.pure]
    | some last =>
      have hlast := hcheck (h.final last rfl) ("final " ++ sort)
      simp [boundsSet, hpath, hlast, bind, Except.bind, pure, Except.pure]
  | some first =>
    have hfirst := hcheck (h.initial first rfl) ("initial " ++ sort)
    cases final with
    | none => simp [boundsSet, hpath, hfirst, bind, Except.bind, pure, Except.pure]
    | some last =>
      have hlast := hcheck (h.final last rfl) ("final " ++ sort)
      simp [boundsSet, hpath, hfirst, hlast, bind, Except.bind, pure, Except.pure]

variable {d : Dimensions}

theorem setNamesOf_succeeds {sort : String} {size : LayoutBuilder α → Value α}
    {put : List (Value α) → LayoutBuilder α → LayoutBuilder α} {names : Value α} {n : Nat}
    (hsize : ∀ b : LayoutBuilder α, b.HasSizes d → size b = .int n)
    (hput : ∀ ns b, b.HasSizes d → (put ns b).HasSizes d) (h : Suits names n) :
    (setNamesOf sort size put names).Succeeds (·.HasSizes d) := by
  unfold setNamesOf
  split
  · exact Edit.succeeds_pure ()
  · next hmissing =>
    obtain ⟨hlength, ns, hns⟩ := h.resolve_left hmissing
    refine Edit.succeeds_store fun b hb => ⟨ns, ?_, hput ns b hb⟩
    simp only [countedNames, hsize b hb, hlength, hns, Except.bind_eq_ok, checkCount_int]
    exact ⟨n, rfl, (), rfl, trivial⟩

/-- A call that gives one item for each variable succeeds. -/
theorem Setter.run_succeeds {c : Setter α} (h : c.Suits d) : c.run.Succeeds (·.HasSizes d) := by
  cases c with
  | states path initial final =>
    refine Edit.succeeds_store fun b hb => ⟨⟨path, initial, final⟩, ?_, { hb with }⟩
    rw [hb.states]
    exact boundsSet_eq h
  | controls path initial final =>
    refine Edit.succeeds_store fun b hb => ⟨⟨path, initial, final⟩, ?_, { hb with }⟩
    rw [hb.controls]
    exact boundsSet_eq h
  | multipliers bounds =>
    refine Edit.succeeds_store fun b hb => ⟨(), ?_, { hb with }⟩
    rw [hb.multipliers, checkCount_int]
    exact Eq.symm h
  | parameters bounds =>
    refine Edit.succeeds_store fun b hb => ⟨(), ?_, { hb with }⟩
    rw [hb.parameters, checkCount_int]
    exact Eq.symm h
  | times initial final => exact Edit.succeeds_modify fun b hb => { hb with }
  | names xs us ms ps =>
    obtain ⟨hxs, hus, hms, hps⟩ := h
    refine (setNamesOf_succeeds (fun _ hb => hb.states) ?_ hxs).bind fun _ => ?_
    · exact fun _ _ hb => { hb with }
    refine (setNamesOf_succeeds (fun _ hb => hb.controls) ?_ hus).bind fun _ => ?_
    · exact fun _ _ hb => { hb with }
    refine (setNamesOf_succeeds (fun _ hb => hb.multipliers) ?_ hms).bind fun _ => ?_
    · exact fun _ _ hb => { hb with }
    exact setNamesOf_succeeds (fun _ hb => hb.parameters) (fun _ _ hb => { hb with }) hps

/-- After calls that give one item for each variable a layout can be built. -/
theorem exists_build {points : Nat} {indices : Value α} {b : LayoutBuilder α}
    {calls : List (Setter α)} (hb : ofRequest (.ofSizes points d indices) = .ok b)
    (h : ∀ c ∈ calls, c.Suits d) :
    ∃ b' l, (Edit.sequence Setter.run calls).Yields b () b' ∧ b'.build = .ok l := by
  obtain ⟨_, ks, -, hks, hsized, -⟩ := ofRequest_sized hb
  have hsizes : b.HasSizes d :=
    ⟨hsized.states, hsized.controls, hsized.multipliers, hsized.parameters⟩
  obtain ⟨_, b', hyields, -⟩ :=
    Edit.sequence_succeeds (fun c hc => Setter.run_succeeds (h c hc)) b hsizes
  obtain ⟨l, hl, -⟩ := build_arranged (yields_sequence hyields hsized).1 hks.inside hks.nodup
  exact ⟨b', l, hyields, hl⟩

end LayoutBuilder

end Collocation
