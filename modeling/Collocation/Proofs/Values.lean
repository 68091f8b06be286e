import Collocation.Proofs.Extended
import Collocation.Proofs.Outcome
import Collocation.Value.Selection

/-! Rows of numbers as values.  A list of numbers, or of rows of one width, is read as the array of
these numbers, and the list of all positions on an axis chooses all of them. -/

namespace Collocation

variable {α : Type} [Scalar α]

theorem Number.eq_int_iff {x : Number α} {n : Int} :
    x.eq (.int n) = true ↔ x.exact = .finite n := by
  rw [Number.eq, Number.le, Number.le, Bool.and_eq_true, decide_eq_true_eq, decide_eq_true_eq]
  refine ⟨fun ⟨hle, hge⟩ => Extended.le_antisymm hle hge, fun h => ?_⟩
  rw [h]
  exact ⟨Extended.le_refl nofun, Extended.le_refl nofun⟩

namespace Value

omit [Scalar α] in
/-- Items of one shape have it behind their number. -/
theorem shapeOfItems?_eq {count : Nat} {items : List (Value α)} {shape : List Nat}
    (hne : items ≠ []) (h : ∀ v ∈ items, v.shape? = some shape) :
    shapeOfItems? count items = some (count :: shape) := by
  induction items with
  | nil => exact absurd rfl hne
  | cons v rest ih =>
    have hv := h v (by simp)
    cases rest with
    | nil => simp [shapeOfItems?, hv]
    | cons u rest =>
      have hrest := ih (by simp) fun x hx => h x (List.mem_cons_of_mem _ hx)
      simp only [shapeOfItems?] at hrest ⊢
      rw [hv, hrest]
      simp

omit [Scalar α] in
theorem shape?_numbers (xs : List (Number α)) :
    (list (xs.map .number)).shape? = some [xs.length] := by
  unfold shape?
  cases xs with
  | nil => rfl
  | cons x rest =>
    have hitems : ∀ v ∈ (x :: rest).map Value.number, v.shape? = some [] := by
      intro v hv
      obtain ⟨y, -, rfl⟩ := List.mem_map.mp hv
      rfl
    rw [shapeOfItems?_eq (by simp) hitems, List.length_map]

omit [Scalar α] in
theorem shape?_ofRow (xs : List α) : (ofRow xs).shape? = some [xs.length] := by
  have hrow : ofRow xs = list ((xs.map Number.real).map .number) := by
    rw [ofRow, List.map_map]
    rfl
  rw [hrow, shape?_numbers, List.length_map]

theorem leavesOfItems_reals (xs : List α) : leavesOfItems (xs.map .real) = .ok xs := by
  induction xs with
  | nil => rfl
  | cons x rest ih =>
    rw [List.map_cons, leavesOfItems, ih]
    rfl

theorem toTensor_ofRow (xs : List α) : (ofRow xs).toTensor = .ok (Tensor.ofList xs) := by
  have hleaves : (ofRow xs).leaves = .ok xs := leavesOfItems_reals xs
  rw [toTensor, shape?_ofRow, hleaves]
  rfl

theorem toVector_ofRow (xs : List α) : (ofRow xs).toVector = .ok xs := by
  rw [toVector, toTensor_ofRow]
  rfl

theorem toTensor_ofRows {rows : List (List α)} {width : Nat} (hne : rows ≠ [])
    (h : ∀ row ∈ rows, row.length = width) :
    (ofRows rows).toTensor = .ok (Tensor.ofRows rows width) := by
  have hshape : (ofRows rows).shape? = some [rows.length, width] := by
    have hitems : ∀ v ∈ rows.map ofRow, v.shape? = some [width] := by
      intro v hv
      obtain ⟨row, hrow, rfl⟩ := List.mem_map.mp hv
      rw [shape?_ofRow, h row hrow]
    unfold ofRows shape?
    rw [shapeOfItems?_eq (by simpa using hne) hitems, List.length_map]
  have hleaves : (ofRows rows).leaves = .ok rows.flatten := by
    have hitems : leavesOfItems (rows.map ofRow) = .ok rows.flatten := by
      clear hne h hshape
      induction rows with
      | nil => rfl
      | cons row rest ih =>
        have hrow : (ofRow row).leaves = .ok row := leavesOfItems_reals row
        rw [List.map_cons, leavesOfItems, hrow, ih]
        rfl
    exact hitems
  rw [toTensor, hshape, hleaves]
  rfl

/-- In exact arithmetic every number is read as its value. -/
theorem scalarOfNumber_exact (x : Number Extended) : scalarOfNumber x = .ok x.exact := by
  cases x with
  | real x => rfl
  | int n =>
    have hfinite : Scalar.isInfinite (Extended.finite n) = false := rfl
    rw [scalarOfNumber, scalarOfInt, Scalar.ofInt?, Extended.ofInt_finite, hfinite]
    rfl

/-- A list of numbers is read as the row of their values. -/
theorem toTensor_numbers (xs : List (Number Extended)) :
    (list (xs.map .number)).toTensor = .ok (Tensor.ofList (xs.map Number.exact)) := by
  have hleaves : leavesOfItems (xs.map .number) = .ok (xs.map Number.exact) := by
    induction xs with
    | nil => rfl
    | cons x rest ih =>
      rw [List.map_cons, leavesOfItems, leaves, scalarOfNumber_exact, ih]
      rfl
  rw [toTensor, shape?_numbers, leaves, hleaves, Tensor.ofList, List.length_map]
  rfl

end Value

namespace Selection

/-- The positions of an axis, in order. -/
def positions (n : Nat) : List (Value α) := (List.range n).map fun (k : Nat) => .int k

omit [Scalar α] in
theorem flattened_ints (ks : List Nat) : Value.flattenedItems
    (ks.map fun (k : Nat) => (.int k : Value α)) = ks.map fun (k : Nat) => .int k := by
  induction ks with
  | nil => rfl
  | cons k rest ih =>
    rw [List.map_cons, Value.flattenedItems, ih]
    rfl

omit [Scalar α] in
theorem shape_ints (ks : List Nat) :
    (Value.list (ks.map fun (k : Nat) => (.int k : Value α))).shape? = some [ks.length] := by
  cases ks with
  | nil => rfl
  | cons k rest =>
    have hne : (k :: rest).map (fun (k : Nat) => (.int k : Value α)) ≠ [] := List.cons_ne_nil _ _
    have hitems : ∀ v ∈ (k :: rest).map fun (k : Nat) => (.int k : Value α),
        v.shape? = some [] := by
      intro v hv
      obtain ⟨j, -, rfl⟩ := List.mem_map.mp hv
      rfl
    unfold Value.shape?
    rw [Value.shapeOfItems?_eq hne hitems, List.length_map]

omit [Scalar α] in
theorem toIndex_int {k : Nat} (hk : (k : Int) < Tensor.countable) :
    (Value.int k : Value α).toIndex = .ok (k : Int) := by
  have hsize : Value.isSize k = true := by
    rw [Value.isSize, Bool.and_eq_true, decide_eq_true_eq, decide_eq_true_eq, Tensor.countable]
      at *
    omega
  rw [Value.toIndex, Value.whole?]
  exact if_pos hsize

omit [Scalar α] in
theorem place_natCast {n k : Nat} (hk : k < n) : (place n k : Outcome α Nat) = .ok k := by
  have hnot : ¬ (k : Int) < 0 := by omega
  have hin : 0 ≤ (k : Int) ∧ (k : Int) < n := by omega
  simp only [place, if_neg hnot, if_pos hin, Int.toNat_natCast]

/-- Numbers of places choose these places. -/
theorem ofItems_ints {n : Nat} {ks : List Nat} (hin : ∀ k ∈ ks, k < n)
    (hsize : (n : Int) ≤ Tensor.countable) :
    ofItems n (ks.map fun (k : Nat) => (.int k : Value α)) = .ok ⟨[ks.length], ks, false⟩ := by
  cases hks : ks with
  | nil => rfl
  | cons first rest =>
    rw [← hks]
    have hindices : (ks.map fun (k : Nat) => (.int k : Value α)).mapM
        (fun v => (v.toIndex : Outcome α Int)) = .ok (ks.map Int.ofNat) := by
      rw [List.mapM_map]
      refine Except.mapM_eq_map fun k hk => ?_
      have hlt := hin k hk
      have hk : (k : Int) < Tensor.countable := by omega
      rw [Function.comp_apply, toIndex_int hk]
      rfl
    have hplaces : (ks.map Int.ofNat).mapM (fun i => (place n i : Outcome α Nat)) = .ok ks := by
      rw [List.mapM_map]
      conv => rhs; rw [← List.map_id ks]
      exact Except.mapM_eq_map fun k hk => place_natCast (hin k hk)
    have hempty : (ks.map fun (k : Nat) => (.int k : Value α)).isEmpty = false := by rw [hks]; rfl
    have htruths : (ks.map fun (k : Nat) => (.int k : Value α)).all Value.isBool = false := by
      rw [hks]
      rfl
    rw [ofItems, shape_ints, flattened_ints]
    simp only [hempty, htruths, Bool.false_eq_true, ↓reduceIte, hindices]
    show (do let places ← (ks.map Int.ofNat).mapM (fun i => (place n i : Outcome α Nat))
             return (⟨[ks.length], places, false⟩ : Selection)) = _
    rw [hplaces]
    rfl

end Selection

end Collocation
