import Mathlib.Data.List.Nodup
import Collocation.Proofs.Problem.Failures
import Collocation.Proofs.Problem.Horizon

/-! Problems with one path constraint or one cost more.  Wherever such an addition is declared among
other calls, it puts one callable between the others and leaves the rest as it is.  So a problem
that is in order without the addition fails with it exactly where the new callable does. -/

namespace Collocation

variable {α : Type}

/-- What can be added to a problem any number of times, with a callable and a name. -/
inductive Problem.Addition (α : Type) where
  | path (c : PathConstraint α)
  | cost (c : CostTerm α)

/-- Names are texts with more than white space in them. -/
theorem Check.name_eq_ok [Scalar α] {v : Value α} {what n : String} :
    Check.name v what = .ok n ↔ v = .text n ∧ Text.isBlankText n = false := by
  cases v with
  | text s =>
    rw [Check.name, Value.text.injEq]
    split_ifs with hblank
    · constructor
      · exact nofun
      · rintro ⟨rfl, h⟩
        rw [hblank] at h
        cases h
    · rw [Except.ok.injEq]
      constructor
      · rintro rfl
        exact ⟨rfl, Bool.eq_false_iff.mpr hblank⟩
      · exact And.left
  | _ => exact iff_of_false nofun nofun

namespace Problem

namespace Addition

def item : Addition α → Item α
  | .path c => .path c
  | .cost c => .cost c

def callable : Addition α → Callable α
  | .path c => .path c
  | .cost c => .cost c

def name : Addition α → String
  | .path c => c.name
  | .cost c => c.name

/-- The names of the additions of the same sort in a problem. -/
def siblings (p : Problem α) : Addition α → List String
  | .path _ => p.path.map (·.name)
  | .cost _ => p.costs.map (·.name)

/-- An addition with a name of its own. -/
def New (a : Addition α) (p : Problem α) : Prop := a.name ∉ a.siblings p

instance (a : Addition α) (p : Problem α) : Decidable (a.New p) :=
  inferInstanceAs (Decidable (¬ a.name ∈ a.siblings p))

end Addition

/-- A problem is another one with an addition somewhere among its own ones. -/
inductive Adds : Addition α → Problem α → Problem α → Prop where
  | path {c : PathConstraint α} {p : Problem α} {before after : List (PathConstraint α)}
      (h : p.path = before ++ after) :
      Adds (.path c) p { p with path := before ++ c :: after }
  | cost {c : CostTerm α} {p : Problem α} {before after : List (CostTerm α)}
      (h : p.costs = before ++ after) :
      Adds (.cost c) p { p with costs := before ++ c :: after }

namespace Adds

variable {a : Addition α} {p p' : Problem α}

theorem put_item (a : Addition α) (p : Problem α) : Adds a p (a.item.put p) := by
  cases a with
  | path c => exact .path (List.append_nil _).symm
  | cost c => exact .cost (List.append_nil _).symm

/-- What else is put into both problems comes behind the addition. -/
theorem put (h : Adds a p p') (e : Item α) : Adds a (e.put p) (e.put p') := by
  cases h with
  | @path c _ before after h =>
    cases e with
    | path d =>
      have hboth : (Item.put (.path d) p).path = before ++ (after ++ [d]) := by
        rw [Item.put, h, List.append_assoc]
      have hadds := Adds.path (c := c) hboth
      rwa [← List.cons_append, ← List.append_assoc] at hadds
    | _ => exact .path h
  | @cost c _ before after h =>
    cases e with
    | cost d =>
      have hboth : (Item.put (.cost d) p).costs = before ++ (after ++ [d]) := by
        rw [Item.put, h, List.append_assoc]
      have hadds := Adds.cost (c := c) hboth
      rwa [← List.cons_append, ← List.append_assoc] at hadds
    | _ => exact .cost h

theorem overlaid (h : Adds a p p') (initialTime : Option (Bounds α))
    (kinematic : Option (Evaluator (Point α) α)) :
    Adds a (p.overlaid initialTime kinematic) (p'.overlaid initialTime kinematic) := by
  cases h with
  | path h => exact .path h
  | cost h => exact .cost h

theorem take_eq [Scalar α] (h : Adds a p p') : Callable.take p' = Callable.take p := by
  cases h <;> rfl

theorem callables (h : Adds a p p') : ∃ before after,
    p.callables = before ++ after ∧ p'.callables = before ++ a.callable :: after := by
  cases h with
  | @path c _ before after h =>
    refine ⟨p.dynamics.toList.map .dynamics ++ p.kinematic.toList.map .kinematic ++
      before.map .path, after.map .path ++ p.costs.map .cost, ?_, ?_⟩
    · rw [Problem.callables, h, List.map_append]
      simp only [List.append_assoc]
    · rw [Problem.callables, List.map_append, List.map_cons]
      simp only [List.append_assoc, List.cons_append]
      rfl
  | @cost c _ before after h =>
    refine ⟨p.dynamics.toList.map .dynamics ++ p.kinematic.toList.map .kinematic ++
      p.path.map .path ++ before.map .cost, after.map .cost, ?_, ?_⟩
    · rw [Problem.callables, h, List.map_append]
      simp only [List.append_assoc]
    · rw [Problem.callables, List.map_append, List.map_cons]
      simp only [List.append_assoc]
      rfl

variable [Scalar α]

theorem run (h : Adds a p p') (c : Call α) :
    Adds a (c.run.run p).run.2 (c.run.run p').run.2 := by
  rw [Call.run_eq, Call.run_eq]
  cases c.item with
  | ok e => exact h.put e
  | error fault =>
    have hleave : ∀ (i : Option (Option (Bounds α))) (k : Option (Option (Evaluator _ α))),
        Adds a (p.overlaid (i.getD p.initialTime) (k.getD p.kinematic))
          (p'.overlaid (i.getD p'.initialTime) (k.getD p'.kinematic)) := by
      intro i k
      have htime : p'.initialTime = p.initialTime := by cases h <;> rfl
      have hkinematic : p'.kinematic = p.kinematic := by cases h <;> rfl
      rw [htime, hkinematic]
      exact h.overlaid _ _
    exact hleave _ _

theorem afterAll (h : Adds a p p') (calls : List (Call α)) :
    Adds a (Edit.afterAll Call.run calls p) (Edit.afterAll Call.run calls p') := by
  induction calls generalizing p p' with
  | nil => exact h
  | cons c rest ih => exact ih (h.run c)

/-- A call among others adds what it makes, whether or not the others succeed. -/
theorem attempted {c : Call α} (hc : c.item = .ok a.item) (name : Value α)
    (before after : List (Call α)) :
    Adds a (attempted name (before ++ after)) (attempted name (before ++ c :: after)) := by
  have happend (calls : List (Call α)) : Problem.attempted name (before ++ calls) =
      Edit.afterAll Call.run calls (Problem.attempted name before) := List.foldl_append
  rw [happend, happend, Edit.afterAll_cons, Call.run_eq, hc]
  exact (put_item a _).afterAll after

/-- An addition with a name of its own leaves a complete problem complete. -/
theorem complete (h : Adds a p p') (hnew : a.New p) (hp : p.Complete) : p'.Complete := by
  cases h with
  | @path c _ before after h =>
    have hnames := hp.pathNames
    rw [Addition.New, Addition.name, Addition.siblings, h] at hnew
    rw [h, List.map_append] at hnames
    refine { hp with pathNames := ?_ }
    rw [List.map_append, List.map_cons, List.nodup_middle, List.nodup_cons, ← List.map_append]
    exact ⟨hnew, by rwa [List.map_append]⟩
  | @cost c _ before after h =>
    have hnames := hp.costNames
    rw [Addition.New, Addition.name, Addition.siblings, h] at hnew
    rw [h, List.map_append] at hnames
    refine { hp with costNames := ?_ }
    rw [List.map_append, List.map_cons, List.nodup_middle, List.nodup_cons, ← List.map_append]
    exact ⟨hnew, by rwa [List.map_append]⟩

variable {f : Functions α} (h : Adds a p p') (hf : p.functions = .ok f) (hnew : a.New p)
include h hf hnew

/-- A problem that is in order without an addition fails with it where the new callable fails. -/
theorem discard_functions : discard p'.functions = a.callable.take p := by
  obtain ⟨before, after, hp, hp'⟩ := h.callables
  have hcomplete := (functions_eq_ok.mp hf).complete
  have hold : forM p.callables (Callable.take p) = .ok () := by
    have hdiscard := Problem.discard_functions p
    rw [checkStructure_eq_ok (u := ()).mpr hcomplete, hf] at hdiscard
    exact hdiscard.symm
  rw [hp, List.forM_append, Except.bind_eq_ok] at hold
  obtain ⟨⟨⟩, hbefore, hafter⟩ := hold
  rw [Problem.discard_functions, checkStructure_eq_ok (u := ()).mpr (h.complete hnew hcomplete),
    hp', h.take_eq]
  change forM (before ++ a.callable :: after) (Callable.take p) = _
  rw [List.forM_append, hbefore, List.forM_cons, hafter]
  change (a.callable.take p >>= fun _ => pure ()) = _
  rw [bind_pure_unit]

theorem functions_ok (ht : a.callable.take p = .ok ()) : ∃ f', p'.functions = .ok f' := by
  have hdiscard := h.discard_functions hf hnew
  rw [ht] at hdiscard
  cases hf' : p'.functions with
  | ok f' => exact ⟨f', rfl⟩
  | error fault =>
    rw [hf'] at hdiscard
    cases hdiscard

theorem functions_error {fault : Fault α} (ht : a.callable.take p = .error fault) :
    p'.functions = .error fault := by
  have hdiscard := h.discard_functions hf hnew
  rw [ht] at hdiscard
  cases hf' : p'.functions with
  | ok f' =>
    rw [hf'] at hdiscard
    cases hdiscard
  | error fault' =>
    rw [hf'] at hdiscard
    exact congrArg _ (Except.error.inj hdiscard)

end Adds

end Problem

/-- Functions are other ones with a path function somewhere among theirs. -/
def Functions.HasPath (f' f : Functions α) (g : PathFunction α) : Prop :=
  ∃ before after, f.path = before ++ after ∧ f' = { f with path := before ++ g :: after }

/-- What a new path constraint adds to the functions of a problem. -/
theorem Problem.Adds.functions_path [Scalar α] {c : PathConstraint α} {p p' : Problem α}
    {f : Functions α} {g : PathFunction α} (h : Adds (.path c) p p') (hf : p.functions = .ok f)
    (hnew : (Addition.path c).New p) (hg : Functions.ofPath ⟨p.sizes, false⟩ c = .ok g) :
    ∃ f', p'.functions = .ok f' ∧ f'.HasPath f g := by
  have hmakes := functions_eq_ok.mp hf
  have hcomplete := h.complete hnew hmakes.complete
  cases h with
  | @path _ _ before after h =>
    have hpath := hmakes.path
    rw [h, List.mapM_append, Except.bind_eq_ok] at hpath
    obtain ⟨gs, hbefore, hpath⟩ := hpath
    obtain ⟨gs', hafter, hpath⟩ := Except.bind_eq_ok.mp hpath
    have hgs := Except.pure_eq_ok.mp hpath
    have hmapM : (before ++ c :: after).mapM (Functions.ofPath ⟨p.sizes, false⟩) =
        .ok (gs ++ g :: gs') := by
      rw [List.mapM_append, hbefore, List.mapM_cons, hg, hafter]
      rfl
    refine ⟨{ f with path := gs ++ g :: gs' }, functions_eq_ok.mpr ?_, gs, gs', hgs.symm, rfl⟩
    exact { hmakes with complete := hcomplete, path := hmapM }

namespace Problem.Sample

/-- A state that moves at the speed of a control. -/
def driven : List (Call Extended) :=
  [.time (.real 0.0) (.real 1.0), .state (.text "x") .none .none .none,
    .control (.text "u") .none .none .none,
    .dynamics (.evaluator fun _ => .ok (.function ⟨1, 1, [fun pt => pt.control.headD 0.0]⟩))]

theorem driven_sizes :
    ∃ f, (attempted (.text "p") driven).functions = .ok f ∧ f.sizes = ⟨1, 1, 0, 0⟩ := by
  obtain ⟨f, hf, hsizes⟩ := Except.exists_of_any (x := (attempted (.text "p") driven).functions)
    (p := fun f => f.sizes = ⟨1, 1, 0, 0⟩) (by decide +kernel)
  exact ⟨f, hf, of_decide_eq_true hsizes⟩

end Problem.Sample

end Collocation
