import Mathlib.Data.List.Forall2

/-! Facts about lists: lists that are related entry by entry, and what was picked last. -/

namespace Collocation

variable {β γ δ : Type}

section Related

variable {R : β → γ → Prop}

/-- Joined lists are related if their parts of one length are. -/
theorem forall₂_append {xs xs' : List β} {ys ys' : List γ} (h : xs.length = ys.length) :
    List.Forall₂ R (xs ++ xs') (ys ++ ys') ↔ List.Forall₂ R xs ys ∧ List.Forall₂ R xs' ys' := by
  induction xs generalizing ys with
  | nil =>
    obtain rfl : ys = [] := List.length_eq_zero_iff.mp h.symm
    simp
  | cons x xs ih =>
    cases ys with
    | nil => simp at h
    | cons y ys =>
      simp only [List.cons_append, List.forall₂_cons, ih (Nat.succ.inj h), and_assoc]

/-- Lists in parts of one length are related if all parts are. -/
theorem forall₂_flatMap {f : δ → List β} {g : δ → List γ} {ds : List δ}
    (h : ∀ d ∈ ds, (f d).length = (g d).length) :
    List.Forall₂ R (ds.flatMap f) (ds.flatMap g) ↔ ∀ d ∈ ds, List.Forall₂ R (f d) (g d) := by
  induction ds with
  | nil => simp
  | cons d ds ih =>
    rw [List.flatMap_cons, List.flatMap_cons, forall₂_append (h d (by simp)),
      ih fun e he => h e (by simp [he])]
    simp

/-- Items lie between two lists exactly if each lies between its two sides. -/
theorem forall₂_between {S : γ → β → Prop} {lower upper : δ → β} {ds : List δ} {xs : List γ} :
    List.Forall₂ R (ds.map lower) xs ∧ List.Forall₂ S xs (ds.map upper) ↔
      List.Forall₂ (fun d x => R (lower d) x ∧ S x (upper d)) ds xs := by
  induction ds generalizing xs with
  | nil => simp
  | cons d ds ih =>
    cases xs with
    | nil => simp
    | cons x xs =>
      simp only [List.map_cons, List.forall₂_cons, ← ih]
      exact and_and_and_comm

theorem forall₂_replicate {n : Nat} {x : β} {ys : List γ} (h : ys.length = n) :
    List.Forall₂ R (List.replicate n x) ys ↔ ∀ y ∈ ys, R x y := by
  subst h
  induction ys with
  | nil => simp
  | cons y ys ih =>
    rw [List.length_cons, List.replicate_succ, List.forall₂_cons, ih, List.forall_mem_cons]

theorem map_eq_map {f : β → δ} {g : γ → δ} {xs : List β} {ys : List γ} (hrel : List.Forall₂ R xs ys)
    (h : ∀ {x y}, R x y → f x = g y) : xs.map f = ys.map g := by
  induction hrel with
  | nil => rfl
  | cons hxy _ ih => rw [List.map_cons, List.map_cons, h hxy, ih]

theorem exists_right_of_mem {xs : List β} {ys : List γ} (hrel : List.Forall₂ R xs ys) {x : β}
    (hx : x ∈ xs) : ∃ y ∈ ys, R x y := by
  induction hrel with
  | nil => cases hx
  | @cons x' y xs ys hxy _ ih =>
    rcases List.mem_cons.mp hx with rfl | hx
    · exact ⟨y, by simp, hxy⟩
    · obtain ⟨y', hy', hxy'⟩ := ih hx
      exact ⟨y', by simp [hy'], hxy'⟩

theorem forall₂_trans {S : β → δ → Prop} {T : γ → δ → Prop} {xs : List β} {ys : List γ}
    {zs : List δ} (hy : List.Forall₂ R xs ys) (hz : List.Forall₂ S xs zs)
    (h : ∀ {x y z}, R x y → S x z → T y z) : List.Forall₂ T ys zs := by
  induction hy generalizing zs with
  | nil =>
    cases hz
    exact .nil
  | cons hxy _ ih =>
    cases hz with
    | cons hxz hrest => exact .cons (h hxy hxz) (ih hrest)

/-- What holds of all items of a list holds of the pairs that it makes with a related list. -/
theorem forall_mem_iff_forall₂ {P : β → Prop} {Q : β → γ → Prop} {xs : List β} {ys : List γ}
    (hrel : List.Forall₂ R xs ys) (h : ∀ {x y}, R x y → (P x ↔ Q x y)) :
    (∀ x ∈ xs, P x) ↔ List.Forall₂ Q xs ys := by
  induction hrel with
  | nil => simp
  | cons hxy _ ih => rw [List.forall_mem_cons, List.forall₂_cons, h hxy, ih]

end Related

/-- The items of a list that have a property, each with its image. -/
theorem flatMap_if_singleton {p : β → Prop} [DecidablePred p] (f : β → γ) (xs : List β) :
    xs.flatMap (fun x => if p x then [f x] else []) = (xs.filter fun x => p x).map f := by
  induction xs with
  | nil => rfl
  | cons x rest ih =>
    rw [List.flatMap_cons, ih]
    by_cases h : p x <;> simp [h]

/-- Lists with the same images still have them when each gets one more item with the same image. -/
theorem map_concat_eq {f : β → δ} {g : γ → δ} {xs : List β} {ys : List γ} {x : β} {y : γ}
    (h : xs.map f = ys.map g) (hxy : f x = g y) : (xs ++ [x]).map f = (ys ++ [y]).map g := by
  rw [List.map_append, List.map_append, h, List.map_singleton, List.map_singleton, hxy]

/-- The items at some positions of a list, all of which it has; so the other item does not matter.
-/
theorem filterMap_getElem? {xs : List β} {ks : List Nat} (h : ∀ k ∈ ks, k < xs.length) (x : β) :
    ks.filterMap (xs[·]?) = ks.map fun k => xs[k]?.getD x := by
  rw [← List.filterMap_eq_map]
  refine List.filterMap_congr fun k hk => ?_
  rw [Function.comp_apply, List.getElem?_eq_getElem (h k hk), Option.getD_some]

theorem filterMap_range_getElem? (xs : List β) :
    (List.range xs.length).filterMap (xs[·]?) = xs := by
  induction xs with
  | nil => rfl
  | cons x rest ih =>
    rw [List.length_cons, List.range_succ_eq_map,
      List.filterMap_cons_some List.getElem?_cons_zero, List.filterMap_map]
    exact congrArg (x :: ·) ih

/-- What is picked last from the items of a list, or `start` if nothing is. -/
def lastPicked (pick : β → Option γ) (start : γ) (items : List β) : γ :=
  (items.filterMap pick).getLast?.getD start

@[simp] theorem lastPicked_nil (pick : β → Option γ) (start : γ) :
    lastPicked pick start [] = start := rfl

@[simp] theorem lastPicked_cons (pick : β → Option γ) (start : γ) (item : β) (items : List β) :
    lastPicked pick start (item :: items) =
      lastPicked pick ((pick item).getD start) items := by
  unfold lastPicked
  cases h : pick item with
  | none => simp [h]
  | some x => simp [h, List.getLast?_cons]

end Collocation
