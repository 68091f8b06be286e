import Collocation.Problem
import Collocation.Proofs.Lists

/-! Operations that succeed.  A sequence of operations succeeds if each of them does, with what the
ones before it returned and, for edits, with the value that they left. -/

namespace Collocation

section Outcome

variable {ε β γ : Type}

@[simp] theorem Except.bind_eq_ok {x : Except ε β} {f : β → Except ε γ} {c : γ} :
    (x >>= f) = .ok c ↔ ∃ b, x = .ok b ∧ f b = .ok c := by
  cases x with
  | error e => simp [bind, Except.bind]
  | ok b => simp [bind, Except.bind]

theorem Except.bind_eq_error {x : Except ε β} {f : β → Except ε γ} {e : ε} :
    (x >>= f) = .error e ↔ x = .error e ∨ ∃ b, x = .ok b ∧ f b = .error e := by
  cases x with
  | error e' => simp [bind, Except.bind]
  | ok b => simp [bind, Except.bind]

@[simp] theorem Except.pure_eq_ok {b c : β} : (pure b : Except ε β) = .ok c ↔ b = c := by
  simp [pure, Except.pure]

@[simp] theorem Except.map_eq_ok {f : β → γ} {x : Except ε β} {c : γ} :
    f <$> x = .ok c ↔ ∃ b, x = .ok b ∧ f b = c := by
  cases x with
  | error e => simp [Functor.map, Except.map]
  | ok b => simp [Functor.map, Except.map]

@[simp] theorem Except.throw_ne_ok {e : ε} {c : β} : ¬ (throw e : Except ε β) = .ok c := by
  simp [throw, throwThe, MonadExceptOf.throw]

/-- An operation behind a check succeeds if the fault that the check looks for is absent. -/
theorem Except.if_throw_eq_ok {p : Prop} [Decidable p] {e : ε} {f : β → Except ε γ}
    {x : Except ε γ} {c : γ} :
    (if p then throw e >>= f else x) = .ok c ↔ ¬ p ∧ x = .ok c := by
  by_cases h : p <;> simp [h]

theorem Except.if_throw_eq_error {p : Prop} [Decidable p] {e e' : ε} {f : β → Except ε γ}
    {x : Except ε γ} :
    (if p then throw e >>= f else x) = .error e' ↔ p ∧ e = e' ∨ ¬ p ∧ x = .error e' := by
  by_cases h : p <;> simp [h, throw, throwThe, MonadExceptOf.throw, bind, Except.bind]

theorem Except.guard_eq_ok {p : Prop} [Decidable p] {e : ε} {u : Unit} :
    (if p then throw e else pure () : Except ε Unit) = .ok u ↔ ¬ p := by
  split_ifs with h <;> simp [h]

theorem Except.seq_eq_ok {x : Except ε Unit} {f : Unit → Except ε γ} {c : γ} :
    (x >>= f) = .ok c ↔ x = .ok () ∧ f () = .ok c := by
  rw [bind_eq_ok]
  exact ⟨fun ⟨(), h⟩ => h, fun h => ⟨(), h⟩⟩

theorem Except.unless_throw_eq_ok {p : Prop} [Decidable p] {e : ε} {f : β → Except ε γ}
    {x : Except ε γ} {c : γ} :
    (if p then x else throw e >>= f) = .ok c ↔ p ∧ x = .ok c := by
  by_cases h : p <;> simp [h]

theorem Except.mapM_eq_ok {f : β → Except ε γ} {xs : List β} {ys : List γ} :
    xs.mapM f = .ok ys ↔ List.Forall₂ (fun x y => f x = .ok y) xs ys := by
  induction xs generalizing ys with
  | nil => cases ys <;> simp
  | cons x xs ih =>
    simp only [List.mapM_cons, bind_eq_ok, pure_eq_ok]
    constructor
    · rintro ⟨y, hy, rest, hrest, rfl⟩
      exact .cons hy (ih.mp hrest)
    · intro h
      cases h with
      | cons hy hrest => exact ⟨_, hy, _, ih.mpr hrest, rfl⟩

/-- What comes out of a list comes out of one of its items. -/
theorem Except.exists_of_mapM {f : β → Except ε γ} {xs : List β} {ys : List γ}
    (h : xs.mapM f = .ok ys) {y : γ} (hy : y ∈ ys) : ∃ x ∈ xs, f x = .ok y :=
  exists_right_of_mem (mapM_eq_ok.mp h).flip hy

theorem Except.exists_of_isOk {x : Except ε β} (h : x.isOk = true) : ∃ b, x = .ok b := by
  cases x with
  | error e => cases h
  | ok b => exact ⟨b, rfl⟩

theorem Except.exists_error {x : Except ε β} (h : x.isOk = false) : ∃ e, x = .error e := by
  cases x with
  | error e => exact ⟨e, rfl⟩
  | ok b => cases h

/-- An operation on an item that may be missing succeeds if it does on the item. -/
theorem Except.exists_of_any {x : Except ε β} {p : β → Bool} (h : x.toOption.any p = true) :
    ∃ b, x = .ok b ∧ p b = true := by
  cases x with
  | ok b => exact ⟨b, rfl, h⟩
  | error e => exact absurd h Bool.false_ne_true

theorem Except.option_mapM_eq_ok {f : β → Except ε γ} {x : Option β} {y : Option γ} :
    x.mapM f = .ok y ↔ x.isSome = y.isSome ∧ ∀ b ∈ y, ∃ a ∈ x, f a = .ok b := by
  cases x <;> cases y <;> simp

theorem Except.mapM_eq_map {f : β → Except ε γ} {g : β → γ} {xs : List β}
    (h : ∀ x ∈ xs, f x = .ok (g x)) : xs.mapM f = .ok (xs.map g) :=
  mapM_eq_ok.mpr (List.forall₂_map_right_iff.mpr (List.forall₂_same.mpr h))

/-- What comes out of an operation can be forgotten before the next one or after it. -/
theorem Except.discard_bind {x : Except ε β} {g : β → Except ε γ} {y : Except ε PUnit}
    (h : ∀ b, discard (g b) = y) : discard (x >>= g) = discard x >>= fun _ => y := by
  cases x with
  | error e => rfl
  | ok b => exact h b

theorem Except.discard_collect {x : Except ε β} {g : β → Except ε γ}
    (h : ∀ b, discard (g b) = .ok ⟨⟩) : discard (x >>= g) = discard x := by
  cases x with
  | error e => rfl
  | ok b => exact h b

theorem Except.discard_eq_ok {x : Except ε β} : discard x = .ok () ↔ ∃ b, x = .ok b := by
  cases x with
  | error e => exact iff_of_false nofun nofun
  | ok b => exact iff_of_true rfl ⟨b, rfl⟩

theorem Except.forM_eq_ok {f : β → Except ε Unit} {xs : List β} :
    forM xs f = .ok () ↔ ∀ x ∈ xs, f x = .ok () := by
  induction xs with
  | nil => exact iff_of_true rfl nofun
  | cons x rest ih => rw [List.forM_cons, seq_eq_ok, ih, List.forall_mem_cons]

/-- Results that nobody looks at need not be collected. -/
theorem Except.forM_discard {f : β → Except ε γ} (xs : List β) :
    (forM xs fun x => discard (f x)) = discard (xs.mapM f) := by
  induction xs with
  | nil => rfl
  | cons x rest ih =>
    rw [List.forM_cons, ih, List.mapM_cons]
    cases f x with
    | error e => rfl
    | ok y => cases h : rest.mapM f <;> simp [discard, Functor.mapConst] <;> rfl

end Outcome

section Kinds

variable {α β γ : Type} [Scalar α]

/-- An operation fails with a fault of the given kind. -/
def Raises (x : Outcome α β) (kind : Kind) : Prop := ∃ f, x = .error f ∧ f.kind = kind

/-- An operation fails in no other way than with a fault of the given kind. -/
def OnlyRaises (x : Outcome α β) (kind : Kind) : Prop := ∀ f, x = .error f → f.kind = kind

variable {x : Outcome α β} {kind : Kind}

theorem OnlyRaises.ok (y : β) : OnlyRaises (.ok y : Outcome α β) kind := nofun

theorem OnlyRaises.error {f : Fault α} (h : f.kind = kind) :
    OnlyRaises (.error f : Outcome α β) kind := by
  rintro _ ⟨⟩
  exact h

theorem OnlyRaises.bind {g : β → Outcome α γ} (h : OnlyRaises x kind)
    (hg : ∀ y, OnlyRaises (g y) kind) : OnlyRaises (x >>= g) kind := by
  cases x with
  | error f => exact .error (h f rfl)
  | ok y => exact hg y

/-- An operation behind a check fails with the fault of the check, or as the operation does. -/
theorem OnlyRaises.guard {p : Prop} [Decidable p] {f : Fault α} {g : γ → Outcome α β}
    (hf : f.kind = kind) (hx : OnlyRaises x kind) :
    OnlyRaises (if p then throw f >>= g else x) kind := by
  split_ifs
  · exact .error hf
  · exact hx

/-- An operation behind a demand fails with the fault of the demand, or as the operation does. -/
theorem OnlyRaises.demand {p : Prop} [Decidable p] {f : Fault α} {g : γ → Outcome α β}
    (hf : f.kind = kind) (hx : OnlyRaises x kind) :
    OnlyRaises (if p then x else throw f >>= g) kind := by
  split_ifs
  · exact hx
  · exact .error hf

theorem OnlyRaises.not_raises {kind' : Kind} (h : OnlyRaises x kind) (hkind : kind' ≠ kind) :
    ¬ Raises x kind' := by
  rintro ⟨f, hf, rfl⟩
  exact hkind (h f hf)

theorem Raises.bind {g : β → Outcome α γ} (h : Raises x kind) : Raises (x >>= g) kind := by
  obtain ⟨f, rfl, hf⟩ := h
  exact ⟨f, rfl, hf⟩

theorem not_raises_ok (y : β) : ¬ Raises (.ok y : Outcome α β) kind := nofun

theorem not_raises_error {f : Fault α} (h : f.kind ≠ kind) :
    ¬ Raises (.error f : Outcome α β) kind := by
  rintro ⟨_, ⟨⟩, hf⟩
  exact h hf

/-- What comes second has to be considered only after what the first operation can return. -/
theorem not_raises_bind {g : β → Outcome α γ} (h : ¬ Raises x kind)
    (hg : ∀ y, x = .ok y → ¬ Raises (g y) kind) : ¬ Raises (x >>= g) kind := by
  cases x with
  | error f => exact not_raises_error fun hf => h ⟨f, rfl, hf⟩
  | ok y => exact hg y rfl

theorem OnlyRaises.raises_iff (h : OnlyRaises x kind) : Raises x kind ↔ ¬ ∃ y, x = .ok y := by
  cases x with
  | error f => simpa [Raises] using h f rfl
  | ok y => simp [Raises]

@[simp] theorem raises_ok_iff {y : β} : Raises (.ok y : Outcome α β) kind ↔ False :=
  iff_of_false (not_raises_ok y) id

@[simp] theorem raises_error_iff {f : Fault α} :
    Raises (.error f : Outcome α β) kind ↔ f.kind = kind := by
  simp [Raises]

instance (x : Outcome α β) (kind : Kind) : Decidable (Raises x kind) :=
  match x with
  | .ok y => .isFalse (not_raises_ok y)
  | .error _ => decidable_of_iff _ raises_error_iff.symm

theorem raises_bind_iff {g : β → Outcome α γ} :
    Raises (x >>= g) kind ↔ Raises x kind ∨ ∃ y, x = .ok y ∧ Raises (g y) kind := by
  cases x with
  | error f => simp [bind, Except.bind]
  | ok y => simp [bind, Except.bind]

/-- What cannot fail in a given way does not count. -/
theorem raises_bind_iff_left {g : β → Outcome α γ} (hg : ∀ y, ¬ Raises (g y) kind) :
    Raises (x >>= g) kind ↔ Raises x kind := by
  rw [raises_bind_iff, or_iff_left]
  exact fun ⟨y, _, h⟩ => hg y h

@[simp] theorem raises_discard_iff : Raises (discard x) kind ↔ Raises x kind := by
  cases x with
  | error f => exact raises_error_iff.trans raises_error_iff.symm
  | ok y => exact raises_ok_iff.trans raises_ok_iff.symm

theorem raises_map_iff {g : β → γ} :
    Raises (x.map g) kind ↔ Raises x kind := by
  cases x with
  | error f => exact raises_error_iff.trans raises_error_iff.symm
  | ok y => exact raises_ok_iff.trans raises_ok_iff.symm

/-- An operation fails in no other ways than with faults of the given kinds. -/
def RaisesAmong (x : Outcome α β) (kinds : List Kind) : Prop := ∀ kind, Raises x kind → kind ∈ kinds

namespace RaisesAmong

variable {kinds : List Kind}

theorem ok (y : β) : RaisesAmong (.ok y : Outcome α β) kinds :=
  fun _ h => absurd h (not_raises_ok y)

theorem error {f : Fault α} (h : f.kind ∈ kinds) : RaisesAmong (.error f : Outcome α β) kinds :=
  fun _ hf => raises_error_iff.mp hf ▸ h

theorem bind {g : β → Outcome α γ} (h : RaisesAmong x kinds) (hg : ∀ y, RaisesAmong (g y) kinds) :
    RaisesAmong (x >>= g) kinds := by
  intro kind hraises
  rcases raises_bind_iff.mp hraises with hx | ⟨y, -, hy⟩
  · exact h kind hx
  · exact hg y kind hy

theorem map {g : β → γ} (h : RaisesAmong x kinds) : RaisesAmong (x.map g) kinds :=
  fun kind hraises => h kind (raises_map_iff.mp hraises)

theorem guard {p : Prop} [Decidable p] {f : Fault α} {g : γ → Outcome α β}
    (hf : f.kind ∈ kinds) (hx : RaisesAmong x kinds) :
    RaisesAmong (if p then throw f >>= g else x) kinds := by
  split_ifs
  · exact .error hf
  · exact hx

end RaisesAmong

/-- A sequence of operations fails where the first of them fails. -/
theorem raises_forM_iff {g : γ → Outcome α Unit} {xs : List γ} :
    Raises (forM xs g) kind ↔ ∃ before y after, xs = before ++ y :: after ∧
      (∀ z ∈ before, g z = .ok ()) ∧ Raises (g y) kind := by
  induction xs with
  | nil => simp [pure, Except.pure]
  | cons x rest ih =>
    rw [List.forM_cons, raises_bind_iff, ih]
    constructor
    · rintro (hx | ⟨⟨⟩, hx, before, y, after, rfl, hbefore, hy⟩)
      · exact ⟨[], x, rest, rfl, nofun, hx⟩
      · exact ⟨x :: before, y, after, rfl, List.forall_mem_cons.mpr ⟨hx, hbefore⟩, hy⟩
    · rintro ⟨_ | ⟨z, before⟩, y, after, heq, hbefore, hy⟩
      · obtain ⟨rfl, rfl⟩ := List.cons.inj heq
        exact .inl hy
      · obtain ⟨rfl, rfl⟩ := List.cons.inj heq
        obtain ⟨hx, hrest⟩ := List.forall_mem_cons.mp hbefore
        exact .inr ⟨(), hx, before, y, after, rfl, hrest, hy⟩

end Kinds

namespace Edit

variable {σ α β γ : Type}

/-- An edit of `s` succeeds: it returns `x` and leaves `s'`. -/
def Yields (e : Edit σ α β) (s : σ) (x : β) (s' : σ) : Prop := (e.run s).run = (.ok x, s')

theorem Yields.unique {e : Edit σ α β} {s s' s'' : σ} {x y : β} (h : e.Yields s x s')
    (h' : e.Yields s y s'') : x = y ∧ s' = s'' := by
  simpa using h.symm.trans h'

theorem yields_of_isOk {e : Edit σ α Unit} {s : σ} (h : (e.run s).run.1.isOk = true) :
    e.Yields s () (e.run s).run.2 := by
  unfold Yields
  rcases hrun : (e.run s).run with ⟨_ | ⟨⟩, s'⟩
  · rw [hrun] at h
    cases h
  · rfl

theorem yields_of_run {e : Edit σ α β} {s : σ} {x : β} (h : (e.run s).run.1 = .ok x) :
    ∃ s', (e.run s).run.2 = s' ∧ e.Yields s x s' := ⟨_, rfl, Prod.ext h rfl⟩

theorem run_bind (e : Edit σ α β) (f : β → Edit σ α γ) (s : σ) :
    ((e >>= f).run s).run = match (e.run s).run with
      | (.ok x, s') => ((f x).run s').run
      | (.error fault, s') => (.error fault, s') := by
  show (ExceptT.run (ExceptT.bind e f) s).run = _
  simp only [ExceptT.run, ExceptT.bind, ExceptT.mk, ExceptT.bindCont, bind, StateT.bind, Id.run]
  rcases e s with ⟨x | x, s'⟩ <;> rfl

@[simp] theorem yields_bind {e : Edit σ α β} {f : β → Edit σ α γ} {s s'' : σ} {y : γ} :
    (e >>= f).Yields s y s'' ↔ ∃ x s', e.Yields s x s' ∧ (f x).Yields s' y s'' := by
  unfold Yields
  rw [run_bind]
  rcases (e.run s).run with ⟨x | x, s'⟩ <;> simp

@[simp] theorem yields_pure {s s' : σ} {x y : β} :
    (pure x : Edit σ α β).Yields s y s' ↔ y = x ∧ s' = s := by
  show ((.ok x, s) : Outcome α β × σ) = (.ok y, s') ↔ _
  simp [eq_comm]

@[simp] theorem yields_lift {x : Outcome α β} {s s' : σ} {y : β} :
    (liftM x : Edit σ α β).Yields s y s' ↔ x = .ok y ∧ s' = s := by
  show ((x, s) : Outcome α β × σ) = (.ok y, s') ↔ _
  simp [eq_comm]

@[simp] theorem yields_get {s s' t : σ} :
    (get : Edit σ α σ).Yields s t s' ↔ t = s ∧ s' = s := by
  show ((.ok s, s) : Outcome α σ × σ) = (.ok t, s') ↔ _
  simp [eq_comm]

@[simp] theorem yields_modify {f : σ → σ} {s s' : σ} {u : Unit} :
    (modify f : Edit σ α Unit).Yields s u s' ↔ s' = f s := by
  show ((.ok (), f s) : Outcome α Unit × σ) = (.ok u, s') ↔ _
  simp [eq_comm]

/-- An edit of `s` fails: it returns a fault and leaves `s'`. -/
def Fails (e : Edit σ α β) (s : σ) (fault : Fault α) (s' : σ) : Prop :=
  (e.run s).run = (.error fault, s')

/-- An edit of `s` that fails leaves it as it was. -/
def Atomic (e : Edit σ α β) (s : σ) : Prop := ∀ fault s', e.Fails s fault s' → s' = s

@[simp] theorem run_pure (x : β) (s : σ) : ((pure x : Edit σ α β).run s).run = (.ok x, s) := rfl

@[simp] theorem run_lift (x : Outcome α β) (s : σ) :
    ((liftM x : Edit σ α β).run s).run = (x, s) := rfl

@[simp] theorem run_get (s : σ) : ((get : Edit σ α σ).run s).run = (.ok s, s) := rfl

@[simp] theorem run_modify (f : σ → σ) (s : σ) :
    ((modify f : Edit σ α Unit).run s).run = (.ok (), f s) := rfl

/-- What is read from a value is stored in it, or the value stays. -/
theorem run_store (read : σ → Outcome α β) (put : β → σ → σ) (s : σ) :
    ((do let x ← read (← get); modify (put x) : Edit σ α Unit).run s).run =
      match read s with
      | .ok x => (.ok (), put x s)
      | .error fault => (.error fault, s) := by
  rw [run_bind, run_get]
  show ((liftM (read s) >>= fun x => modify (put x) : Edit σ α Unit).run s).run = _
  rw [run_bind, run_lift]
  cases read s <;> rfl

@[simp] theorem run_within {τ : Type} (part : σ → τ) (put : τ → σ → σ) (e : Edit τ α β) (s : σ) :
    ((e.within part put).run s).run =
      ((e.run (part s)).run.1, put (e.run (part s)).run.2 s) := rfl

@[simp] theorem run_mapM (f : β → Outcome α γ) (xs : List β) (s : σ) :
    ((xs.mapM fun x => (liftM (f x) : Edit σ α γ)).run s).run = (xs.mapM f, s) := by
  induction xs with
  | nil => rfl
  | cons x xs ih =>
    rw [List.mapM_cons, List.mapM_cons, run_bind, run_lift]
    cases f x with
    | error fault => rfl
    | ok y =>
      show (((xs.mapM fun x => (liftM (f x) : Edit σ α γ)) >>= fun ys =>
        pure (y :: ys) : Edit σ α (List γ)).run s).run = _
      rw [run_bind, ih]
      cases xs.mapM f <;> rfl

section Keeps

variable {I : σ → Prop} {e : Edit σ α β}

/-- An edit keeps an invariant, whether it succeeds or fails. -/
def Keeps (e : Edit σ α β) (I : σ → Prop) : Prop := ∀ s, I s → I (e.run s).run.2

theorem keeps_pure (x : β) : (pure x : Edit σ α β).Keeps I := fun _ hs => hs

theorem keeps_lift (x : Outcome α β) : (liftM x : Edit σ α β).Keeps I := fun _ hs => hs

theorem keeps_get : (get : Edit σ α σ).Keeps I := fun _ hs => hs

theorem keeps_modify {f : σ → σ} (h : ∀ s, I s → I (f s)) : (modify f : Edit σ α Unit).Keeps I := h

/-- What comes second has to keep the invariant only after what the first edit can return. -/
theorem keeps_bind {f : β → Edit σ α γ} (he : e.Keeps I)
    (hf : ∀ s x s', I s → e.Yields s x s' → (f x).Keeps I) : (e >>= f).Keeps I := by
  intro s hs
  rw [run_bind]
  have hleft := he s hs
  rcases hrun : (e.run s).run with ⟨x | x, s'⟩
  · rwa [hrun] at hleft
  · rw [hrun] at hleft
    exact hf s x s' hs hrun s' hleft

theorem keeps_lift_bind {x : Outcome α β} {f : β → Edit σ α γ}
    (h : ∀ y, x = .ok y → (f y).Keeps I) : (liftM x >>= f : Edit σ α γ).Keeps I :=
  keeps_bind (keeps_lift x) fun _ y _ _ hy => h y (yields_lift.mp hy).1

/-- An edit that reads something from a value and then stores it. -/
theorem keeps_store {read : σ → Outcome α β} {put : β → σ → σ}
    (h : ∀ s x s', I s → read s = .ok x → I s' → I (put x s')) :
    (do let x ← read (← get); modify (put x) : Edit σ α Unit).Keeps I := by
  refine keeps_bind keeps_get fun s x s' hs hget => keeps_lift_bind fun y hread => ?_
  obtain ⟨rfl, -⟩ := yields_get.mp hget
  exact keeps_modify fun s₁ => h x y s₁ hs hread

end Keeps

section Succeeds

variable {I : σ → Prop} {e : Edit σ α β}

/-- An edit of a value with an invariant succeeds, and keeps the invariant. -/
def Succeeds (e : Edit σ α β) (I : σ → Prop) : Prop := ∀ s, I s → ∃ x s', e.Yields s x s' ∧ I s'

theorem succeeds_pure (x : β) : (pure x : Edit σ α β).Succeeds I := fun s hs => ⟨x, s, rfl, hs⟩

theorem succeeds_modify {f : σ → σ} (h : ∀ s, I s → I (f s)) :
    (modify f : Edit σ α Unit).Succeeds I := fun s hs => ⟨(), f s, rfl, h s hs⟩

theorem Succeeds.bind {f : β → Edit σ α γ} (he : e.Succeeds I) (hf : ∀ x, (f x).Succeeds I) :
    (e >>= f).Succeeds I := by
  intro s hs
  obtain ⟨x, s', hx, hs'⟩ := he s hs
  obtain ⟨y, s'', hy, hs''⟩ := hf x s' hs'
  exact ⟨y, s'', yields_bind.mpr ⟨x, s', hx, hy⟩, hs''⟩

/-- An edit that reads something from a value and then stores it. -/
theorem succeeds_store {read : σ → Outcome α β} {put : β → σ → σ}
    (h : ∀ s, I s → ∃ x, read s = .ok x ∧ I (put x s)) :
    (do let x ← read (← get); modify (put x) : Edit σ α Unit).Succeeds I := by
  intro s hs
  obtain ⟨x, hread, hput⟩ := h s hs
  refine ⟨(), put x s, ?_, hput⟩
  simp only [yields_bind, yields_get, yields_lift, yields_modify]
  exact ⟨s, s, ⟨rfl, rfl⟩, x, s, ⟨hread, rfl⟩, rfl⟩

end Succeeds

section Sequence

variable {C : Type} {run : C → Edit σ α Unit}

/-- What calls of one kind leave of a value, one after the other. Calls that fail are passed over.
-/
def afterAll (run : C → Edit σ α Unit) (calls : List C) (s : σ) : σ :=
  calls.foldl (fun s c => ((run c).run s).run.2) s

@[simp] theorem afterAll_cons (c : C) (rest : List C) (s : σ) :
    afterAll run (c :: rest) s = afterAll run rest ((run c).run s).run.2 := rfl

theorem afterAll_keeps {I : σ → Prop} {calls : List C} (step : ∀ c ∈ calls, (run c).Keeps I)
    {s : σ} (hs : I s) : I (afterAll run calls s) := by
  induction calls generalizing s with
  | nil => exact hs
  | cons c rest ih =>
    have hs' := step c (by simp) s hs
    exact ih (fun c hc => step c (by simp [hc])) hs'

/-- Calls of one kind, one after the other. -/
def sequence (run : C → Edit σ α Unit) : List C → Edit σ α Unit
  | [] => pure ()
  | c :: rest => do
    run c
    sequence run rest

@[simp] theorem sequence_nil : sequence run [] = pure () := rfl

@[simp] theorem sequence_cons (c : C) (rest : List C) :
    sequence run (c :: rest) = (do run c; sequence run rest) := rfl

theorem sequence_succeeds {I : σ → Prop} {calls : List C}
    (step : ∀ c ∈ calls, (run c).Succeeds I) : (sequence run calls).Succeeds I := by
  induction calls with
  | nil => exact succeeds_pure ()
  | cons c rest ih =>
    refine (step c (by simp)).bind fun _ => ih fun c hc => step c (by simp [hc])

theorem sequence_keeps {I : σ → Prop} {calls : List C} (step : ∀ c ∈ calls, (run c).Keeps I) :
    (sequence run calls).Keeps I := by
  induction calls with
  | nil => exact keeps_pure ()
  | cons c rest ih =>
    refine keeps_bind (step c (by simp)) fun _ _ _ _ _ => ih fun c hc => step c (by simp [hc])

/-- If a description of a value follows every call, then it follows a sequence of calls. -/
theorem sequence_follows {D : Type} {I : σ → D → Prop} {next : D → C → D}
    (step : ∀ {c s s' d}, (run c).Yields s () s' → I s d → I s' (next d c)) {calls : List C}
    {s s' : σ} {d : D} (h : (sequence run calls).Yields s () s') (hs : I s d) :
    I s' (calls.foldl next d) := by
  induction calls generalizing s d with
  | nil =>
    simp only [sequence_nil, yields_pure, true_and] at h
    exact h ▸ hs
  | cons c rest ih =>
    simp only [sequence_cons, yields_bind] at h
    obtain ⟨_, middle, hc, hrest⟩ := h
    exact ih hrest (step hc hs)

end Sequence

end Edit

end Collocation
