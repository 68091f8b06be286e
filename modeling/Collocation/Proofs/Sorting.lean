import Collocation.Proofs.Outcome
import Collocation.Transcription
import Collocation.Value.Product

/-! Sorting values.  Sorting rearranges, and it fails only where two values cannot be compared:
never for texts, and for other keys with a failure of their kind. -/

namespace Collocation

/-- An operation fails in no other way than the given one. -/
def Except.FailsOnly {ε β : Type} (x : Except ε β) (F : ε → Prop) : Prop :=
  ∀ e, x = .error e → F e

namespace Except.FailsOnly

variable {ε β γ : Type} {F : ε → Prop} {x : Except ε β}

theorem ok (b : β) : Except.FailsOnly (.ok b : Except ε β) F := nofun

theorem bind {f : β → Except ε γ} (hx : Except.FailsOnly x F)
    (hf : ∀ b, x = .ok b → Except.FailsOnly (f b) F) : Except.FailsOnly (x >>= f) F := by
  cases x with
  | error e =>
    rintro _ ⟨⟩
    exact hx e rfl
  | ok b => exact hf b rfl

end Except.FailsOnly

namespace Value

variable {α : Type} [Scalar α]

section Sorted

variable {P : Value α → Prop} {F : Fault α → Prop}

theorem perm_insertSorted {items out : List (Value α)} {v : Value α}
    (h : insertSorted items v = .ok out) : out.Perm (v :: items) := by
  simp only [insertSorted, Except.bind_eq_ok, Except.pure_eq_ok] at h
  obtain ⟨i, -, rfl⟩ := h
  calc (items.take i ++ v :: items.drop i).Perm (v :: (items.take i ++ items.drop i)) :=
        List.perm_middle
    _ = v :: items := by rw [List.take_append_drop]

theorem perm_insertAll {items out : List (Value α)} {vs : List (Value α)}
    (h : vs.foldlM insertSorted items = .ok out) : out.Perm (vs ++ items) := by
  induction vs generalizing items with
  | nil =>
    obtain rfl := Except.pure_eq_ok.mp h
    exact .refl _
  | cons v rest ih =>
    obtain ⟨inserted, hinsert, hrest⟩ := Except.bind_eq_ok.mp h
    calc out.Perm (rest ++ inserted) := ih hrest
      _ |>.Perm (rest ++ v :: items) := (perm_insertSorted hinsert).append_left rest
      _ |>.Perm (v :: rest ++ items) := List.perm_middle

theorem perm_takeRun {falling : Bool} {last : Value α} {run rest : List (Value α)}
    {out : List (Value α) × List (Value α)} (h : takeRun falling last run rest = .ok out) :
    (out.1 ++ out.2).Perm (run ++ rest) := by
  induction rest generalizing last run with
  | nil =>
    obtain rfl := Except.ok.inj h
    exact .refl _
  | cons v rest ih =>
    obtain ⟨b, -, h⟩ := Except.bind_eq_ok.mp h
    split_ifs at h
    · exact (ih h).trans List.perm_middle.symm
    · obtain rfl := Except.pure_eq_ok.mp h
      exact .refl _

/-- Sorting loses nothing and adds nothing. -/
theorem perm_sorted {items out : List (Value α)} (h : sorted items = .ok out) :
    out.Perm items := by
  unfold sorted at h
  split at h
  · next v w rest =>
    simp only [Except.bind_eq_ok] at h
    obtain ⟨falling, -, ⟨run, others⟩, hrun, hothers⟩ := h
    have hrun : (run ++ others).Perm ([w, v] ++ rest) := perm_takeRun hrun
    have hstart : (if falling then run else run.reverse).Perm run := by
      split_ifs
      · exact .refl _
      · exact List.reverse_perm run
    calc out.Perm (others ++ if falling then run else run.reverse) := perm_insertAll hothers
      _ |>.Perm (others ++ run) := hstart.append_left others
      _ |>.Perm (run ++ others) := List.perm_append_comm
      _ |>.Perm ([w, v] ++ rest) := hrun
      _ |>.Perm (v :: w :: rest) := .swap v w rest
  · obtain rfl := Except.ok.inj h
    exact .refl _

variable (hless : ∀ v w, P v → P w → Except.FailsOnly (less v w) F)
include hless

theorem insertionPoint_failsOnly {v : Value α} {items : List (Value α)} {low high : Nat}
    (hv : P v) (hitems : ∀ w ∈ items, P w) (hhigh : high ≤ items.length) :
    Except.FailsOnly (insertionPoint v items low high) F := by
  fun_induction insertionPoint v items low high with
  | case1 low high hlow middle ihbelow ihabove =>
    have hmiddle : middle < items.length := by omega
    have hheld : P (items[middle]?.getD .none) := by
      rw [List.getElem?_eq_getElem hmiddle]
      exact hitems _ (List.getElem_mem hmiddle)
    refine (hless v _ hv hheld).bind fun below _ => ?_
    split_ifs
    · exact ihbelow (Nat.le_of_lt hmiddle)
    · exact ihabove hhigh
  | case2 low high hlow => exact .ok low

theorem insertAll_failsOnly {items vs : List (Value α)} (hitems : ∀ w ∈ items, P w)
    (hvs : ∀ v ∈ vs, P v) : Except.FailsOnly (vs.foldlM insertSorted items) F := by
  induction vs generalizing items with
  | nil => exact .ok items
  | cons v rest ih =>
    obtain ⟨hv, hrest⟩ := List.forall_mem_cons.mp hvs
    have hinsert : Except.FailsOnly (insertSorted items v) F :=
      (insertionPoint_failsOnly hless hv hitems (Nat.le_refl _)).bind fun _ _ => .ok _
    refine hinsert.bind fun inserted h => ih (fun w hw => ?_) hrest
    rcases List.mem_cons.mp ((perm_insertSorted h).mem_iff.mp hw) with rfl | hw
    · exact hv
    · exact hitems w hw

theorem takeRun_failsOnly {falling : Bool} {last : Value α} {run rest : List (Value α)}
    (hlast : P last) (hrest : ∀ v ∈ rest, P v) :
    Except.FailsOnly (takeRun falling last run rest) F := by
  induction rest generalizing last run with
  | nil => exact .ok _
  | cons v rest ih =>
    obtain ⟨hv, hrest⟩ := List.forall_mem_cons.mp hrest
    refine (hless v last hv hlast).bind fun below _ => ?_
    split_ifs
    · exact ih hv hrest
    · exact .ok _

/-- Sorting fails only as the comparison of two of the values does. -/
theorem sorted_failsOnly {items : List (Value α)} (hitems : ∀ v ∈ items, P v) :
    Except.FailsOnly (sorted items) F := by
  unfold sorted
  split
  · next v w rest =>
    obtain ⟨hv, hw, hrest⟩ : P v ∧ P w ∧ ∀ x ∈ rest, P x := by simpa using hitems
    refine (hless w v hw hv).bind fun falling _ => ?_
    refine (takeRun_failsOnly hless hw hrest).bind fun (run, others) hrun => ?_
    have hmem (x) (hx : x ∈ run ++ others) : P x := by
      have := (perm_takeRun hrun).mem_iff.mp hx
      simp only [List.cons_append, List.nil_append, List.mem_cons] at this
      rcases this with rfl | rfl | hx
      · exact hw
      · exact hv
      · exact hrest x hx
    refine insertAll_failsOnly hless (fun x hx => hmem x ?_) fun x hx => hmem x ?_
    · refine List.mem_append_left _ ?_
      split_ifs at hx
      · exact hx
      · exact List.mem_reverse.mp hx
    · exact List.mem_append_right _ hx
  · exact .ok _

end Sorted

section Keys

theorem toOperand_raises {mismatch : ReadFault} (hmismatch : mismatch.report.kind = .type)
    {v : Value α} (hv : v.checkKey = .ok ()) : OnlyRaises (v.toOperand mismatch) .type := by
  unfold toOperand
  split
  · cases hv
  · split
    · exact .ok _
    · exact .error hmismatch

mutual

/-- Two keys are compared, or refused by their kinds. -/
theorem less_raises (a b : Value α) (ha : a.checkKey = .ok ()) (hb : b.checkKey = .ok ()) :
    OnlyRaises (less a b) .type := by
  unfold less
  split
  · exact .ok _
  · cases ha
  · next xs ys => exact lessItems_raises xs ys ha hb
  · exact (toOperand_raises rfl ha).bind fun x => (toOperand_raises rfl hb).bind fun y => .ok _

theorem lessItems_raises (xs ys : List (Value α)) (hxs : checkKeys xs = .ok ())
    (hys : checkKeys ys = .ok ()) : OnlyRaises (lessItems xs ys) .type := by
  match xs, ys with
  | [], ys => exact .ok _
  | _ :: _, [] => exact .ok _
  | x :: xs, y :: ys =>
    obtain ⟨_, hx, hxs⟩ := Except.bind_eq_ok.mp hxs
    obtain ⟨_, hy, hys⟩ := Except.bind_eq_ok.mp hys
    rw [lessItems]
    split_ifs
    · exact lessItems_raises xs ys hxs hys
    · exact less_raises x y hx hy

end

end Keys

end Value

namespace Transcription

variable {α : Type}

theorem joinable_eq_ok (index : Nat) {vs : List (Value α)} :
    (∃ names, joinable index vs = .ok names) ↔ ∀ v ∈ vs, v.isText = true := by
  induction vs generalizing index with
  | nil => simp [joinable]
  | cons v rest ih =>
    cases v with
    | text s =>
      rw [List.forall_mem_cons, ← ih (index + 1)]
      simp [joinable, Value.isText]
    | _ => simp [joinable, Value.isText]

theorem joinable_raises (index : Nat) (vs : List (Value α)) [Scalar α] :
    OnlyRaises (joinable index vs) .type := by
  induction vs generalizing index with
  | nil => exact .ok _
  | cons v rest ih =>
    cases v with
    | text s => exact OnlyRaises.bind (ih (index + 1)) fun _ => .ok _
    | _ => exact .error rfl

variable [Scalar α] {keys : List (Value α)}

/-- Texts are sorted and joined; with any other key among them they are refused. -/
theorem sortedKeys_eq_ok :
    (∃ names, sortedKeys keys = .ok names) ↔ ∀ k ∈ keys, k.isText = true := by
  have htext (v w : Value α) (hv : v.isText = true) (hw : w.isText = true) :
      Except.FailsOnly (Value.less v w) fun _ => False := by
    cases v <;> cases hv
    cases w <;> cases hw
    rw [Value.less]
    exact .ok _
  constructor
  · rintro ⟨names, h⟩
    obtain ⟨sorted, hsorted, hjoin⟩ := Except.bind_eq_ok.mp h
    intro k hk
    exact (joinable_eq_ok 0).mp ⟨names, hjoin⟩ k ((Value.perm_sorted hsorted).mem_iff.mpr hk)
  · intro hkeys
    cases hsorted : Value.sorted keys with
    | error fault => exact (Value.sorted_failsOnly htext hkeys fault hsorted).elim
    | ok sorted =>
      have hjoin (v) (hv : v ∈ sorted) : v.isText = true :=
        hkeys v ((Value.perm_sorted hsorted).mem_iff.mp hv)
      obtain ⟨names, hnames⟩ := (joinable_eq_ok 0).mpr hjoin
      exact ⟨names, Except.bind_eq_ok.mpr ⟨sorted, hsorted, hnames⟩⟩

/-- Keys that cannot be shown in order are refused by their kinds. -/
theorem sortedKeys_raises (hkeys : ∀ k ∈ keys, k.checkKey = .ok ()) :
    OnlyRaises (sortedKeys keys) .type := by
  have hsorted : OnlyRaises (Value.sorted keys) .type :=
    Value.sorted_failsOnly Value.less_raises hkeys
  exact hsorted.bind fun vs => joinable_raises 0 vs

end Transcription

end Collocation
