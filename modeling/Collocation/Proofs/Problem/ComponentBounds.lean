import Collocation.Proofs.Problem.Additions

/-! Bounds of the components of a path constraint.  A single interval, given as it is or as the only
item of a list, stands for every component; a longer list has to have an item for each. -/

namespace Collocation

variable {α : Type} [Scalar α]

namespace Functions

variable {name : String} {size : Nat}

omit [Scalar α] in
theorem componentBounds_single (b : Bounds α) :
    componentBounds name size [b] = .ok (List.replicate size b) :=
  if_pos List.length_replicate

omit [Scalar α] in
theorem componentBounds_of_length_eq {bounds : List (Bounds α)} (h : bounds.length = size) :
    componentBounds name size bounds = .ok bounds := by
  unfold componentBounds
  split
  · next b =>
    obtain rfl : size = 1 := h.symm
    exact if_pos rfl
  · exact if_pos h

omit [Scalar α] in
theorem componentBounds_of_length_ne {bounds : List (Bounds α)} (hone : bounds.length ≠ 1)
    (h : bounds.length ≠ size) : componentBounds name size bounds =
      .error (.problem (.pathBounds name size bounds.length)) := by
  unfold componentBounds
  split
  · exact absurd rfl hone
  · exact if_neg h

/-- With a legal name and a callable that returns, the bounds alone decide what becomes of a path
constraint. -/
theorem ofPath_eq {setting : Setting} {c : PathConstraint α} {v : VectorFunction (Point α) α}
    (hlegal : isFunctionName (functionName "path" c.name) = true)
    (hv : c.evaluator.call setting ("Path constraint '" ++ c.name ++ "'") = .ok v) :
    ofPath setting c = (componentBounds c.name v.length c.bounds).map fun bounds =>
      ⟨c.name, v, bounds⟩ := by
  have hcheck : (checkFunctionName "path" c.name : Outcome α Unit) = .ok () := if_pos hlegal
  rw [ofPath, hv, hcheck]
  change (componentBounds c.name v.length c.bounds >>= fun bounds =>
    pure (⟨c.name, v, bounds⟩ : PathFunction α)) = _
  cases componentBounds c.name v.length c.bounds <;> rfl

end Functions

theorem Value.intervals_of_ne {v : Value α} (h : ∀ items, v ≠ .list items) :
    v.intervals = [v.interval] := by
  unfold intervals
  split
  · next items => exact absurd rfl (h items)
  · rfl

namespace Problem

theorem Call.item_path {name : String} {e : Evaluator (Point α) α} {bounds : Value α}
    {bs : List (Bounds α)} (hname : Text.isBlankText name = false)
    (hbounds : pathBounds name bounds = .ok bs) :
    (Call.path (.text name) (.evaluator e) bounds).item = .ok (.path ⟨name, e, bs⟩) := by
  simp only [item, Check.name_eq_ok.mpr ⟨rfl, hname⟩, Supplied.toEvaluator]
  change (pathBounds name bounds >>= fun bs => pure (Item.path ⟨name, e, bs⟩)) = _
  rw [hbounds]
  rfl

/-- A path constraint is declared with the intervals of its bounds. -/
theorem Call.bounds_of_item {label bounds : Value α} {callable : Supplied (Point α) α}
    {c : PathConstraint α} (hc : (Call.path label callable bounds).item = .ok (.path c)) :
    c.bounds = bounds.intervals := by
  cases makes_of_item hc with
  | path hname hf hbounds => exact pathBounds_eq_ok hbounds

/-- A path constraint in a problem that is otherwise in order, with a callable that returns a vector
of any length. A list of bounds with an item for each component gives each component its own; a list
with one item and bounds that are no list give every component the same; all other lists are
refused. -/
theorem functions_of_pathBounds {name label bounds : Value α} {before after : List (Call α)}
    {callable : Supplied (Point α) α} {c : PathConstraint α} {f : Functions α}
    {v : VectorFunction (Point α) α}
    (hc : (Call.path label callable bounds).item = .ok (.path c))
    (hf : (attempted name (before ++ after)).functions = .ok f)
    (hnew : (Addition.path c).New (attempted name (before ++ after)))
    (hlegal : (Callable.path c).isNamed = true)
    (hv : c.evaluator.call ⟨f.sizes, false⟩ ("Path constraint '" ++ c.name ++ "'") = .ok v) :
    let p := attempted name (before ++ .path label callable bounds :: after)
    (∀ items, bounds = .list items → items.length = v.length →
      ∃ f', p.functions = .ok f' ∧ f'.HasPath f ⟨c.name, v, items.map Value.interval⟩) ∧
    (∀ item, bounds = .list [item] → ∃ f', p.functions = .ok f' ∧
      f'.HasPath f ⟨c.name, v, List.replicate v.length item.interval⟩) ∧
    (∀ items, bounds = .list items → items.length ≠ 1 → items.length ≠ v.length →
      p.functions = .error (.problem (.pathBounds c.name v.length items.length))) ∧
    ((∀ items, bounds ≠ .list items) → ∃ f', p.functions = .ok f' ∧
      f'.HasPath f ⟨c.name, v, List.replicate v.length bounds.interval⟩) := by
  intro p
  have hadds : Adds (.path c) (attempted name (before ++ after)) p := Adds.attempted hc _ _ _
  have hbounds := Call.bounds_of_item hc
  rw [(functions_eq_ok.mp hf).sizes_eq] at hv
  have hpath := Functions.ofPath_eq hlegal hv
  rw [hbounds] at hpath
  have haccept {bs : List (Bounds α)}
      (h : Functions.componentBounds c.name v.length bounds.intervals = .ok bs) :
      ∃ f', p.functions = .ok f' ∧ f'.HasPath f ⟨c.name, v, bs⟩ := by
    rw [h] at hpath
    exact hadds.functions_path hf hnew hpath
  refine ⟨?each, ?one, ?refused, ?single⟩
  case each =>
    rintro items rfl hlength
    apply haccept
    exact Functions.componentBounds_of_length_eq (by rwa [Value.intervals, List.length_map])
  case one =>
    rintro item rfl
    apply haccept
    exact Functions.componentBounds_single _
  case refused =>
    rintro items rfl hone hlength
    rw [Value.intervals, Functions.componentBounds_of_length_ne (by rwa [List.length_map])
      (by rwa [List.length_map]), List.length_map] at hpath
    apply hadds.functions_error hf hnew
    rw [Addition.callable, Callable.take, hpath]
    rfl
  case single =>
    intro hlist
    apply haccept
    rw [Value.intervals_of_ne hlist]
    exact Functions.componentBounds_single _

namespace Sample

/-- The state and the control side by side. -/
def both : VectorFunction (Point Extended) Extended :=
  [fun pt => pt.state.headD 0.0, fun pt => pt.control.headD 0.0]

/-- Bounds for the state and the control in a list. -/
def box (name : String) (items : List (Value Extended)) : Call Extended :=
  .path (.text name) (.evaluator fun _ => .ok (.function ⟨2, 1, both⟩)) (.list items)

def boxed (name : String) (items : List (Value Extended)) : PathConstraint Extended :=
  ⟨name, fun _ => .ok (.function ⟨2, 1, both⟩), items.map Value.interval⟩

theorem item_box (name : String) (items : List (Value Extended))
    (hname : Text.isBlankText name = false) (h : (pathBounds name (.list items)).isOk = true) :
    (box name items).item = .ok (.path (boxed name items)) := by
  obtain ⟨bs, hbs⟩ := Except.exists_of_isOk h
  obtain rfl := pathBounds_eq_ok hbs
  exact Call.item_path hname hbs

end Sample

theorem pathBounds_sample : ∃ f f' : Functions Extended,
    (attempted (.text "p") Sample.driven).functions = .ok f ∧
    (attempted (.text "p")
      (Sample.box "box" [.real 0.0, .none] :: Sample.driven)).functions = .ok f' ∧
    f'.HasPath f ⟨"box", Sample.both, [⟨0.0, 0.0⟩, .free]⟩ := by
  obtain ⟨f, hf, -⟩ := Sample.driven_sizes
  have hbase : (attempted (.text "p") ([] ++ Sample.driven)).functions = .ok f := hf
  have hc := Sample.item_box "box" [.real 0.0, .none] (by decide) (by decide +kernel)
  have hfunctions := functions_of_pathBounds hc hbase (by decide +kernel) (by decide)
    (v := Sample.both) rfl
  obtain ⟨f', hf', hpath⟩ := hfunctions.1 _ rfl rfl
  exact ⟨f, f', hf, hf', hpath⟩

/-- A list with one item need not belong to a constraint with one component. -/
theorem not_length_eq : ¬ ∀ (name label : Value Extended) (before after : List (Call Extended))
    (callable : Supplied (Point Extended) Extended) (items : List (Value Extended))
    (c : PathConstraint Extended) (f : Functions Extended)
    (v : VectorFunction (Point Extended) Extended),
    (Call.path label callable (.list items)).item = .ok (.path c) →
    (attempted name (before ++ after)).functions = .ok f →
    (Addition.path c).New (attempted name (before ++ after)) →
    (Callable.path c).isNamed = true →
    c.evaluator.call ⟨f.sizes, false⟩ ("Path constraint '" ++ c.name ++ "'") = .ok v →
    ((∃ f', (attempted name (before ++ .path label callable (.list items) :: after)).functions =
      .ok f') ↔ items.length = v.length) := by
  intro h
  obtain ⟨f, hf, -⟩ := Sample.driven_sizes
  have hc := Sample.item_box "box" [.real 0.0] (by decide) (by decide +kernel)
  have hiff := h (.text "p") _ [] Sample.driven _ _ _ f Sample.both hc hf
    (by decide +kernel) (by decide) rfl
  have haccepted : (attempted (.text "p")
      (Sample.box "box" [.real 0.0] :: Sample.driven)).functions.isOk = true := by decide +kernel
  have hlength : ([.real 0.0] : List (Value Extended)).length = Sample.both.length :=
    hiff.mp (Except.exists_of_isOk haccepted)
  exact absurd hlength (by decide)

end Problem

end Collocation
