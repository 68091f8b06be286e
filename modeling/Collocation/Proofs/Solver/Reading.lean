import Collocation.Proofs.Bounds.Written
import Collocation.Proofs.Mesh
import Collocation.Proofs.Problem.Returned

/-! How values fail to be read as arrays, mappings, tolerances and meshes.  Arrays, mappings and
whole numbers out of range fail in ways of their own, before there is anything that could be refused
as a configuration. -/

namespace Collocation

variable {α : Type} [Scalar α] {kind : Kind}

namespace Value

variable {v : Value α}

/-! ### Arrays -/

/-- How arrays fail to be read: nested lists of uneven lengths and texts that are no numerals, kinds
of value that are no numbers, and whole numbers out of range. -/
def arrayKinds : List Kind := [.value, .type, .overflow]

theorem scalarOfNumber_raises_iff {x : Number α} :
    Raises (scalarOfNumber x) kind ↔ kind = .overflow ∧ ¬ x.InRange := by
  by_cases hx : x.InRange
  · rw [scalarOfNumber_of_inRange hx]
    simp [hx]
  · rw [WrittenBounds.scalarOfNumber_overflow hx]
    simpa [hx, ReadFault.report] using eq_comm

theorem scalarOfNumber_raises (x : Number α) : RaisesAmong (scalarOfNumber x) arrayKinds := by
  intro kind h
  obtain ⟨rfl, -⟩ := scalarOfNumber_raises_iff.mp h
  simp [arrayKinds]

mutual

theorem leaves_raises : ∀ v : Value α, RaisesAmong v.leaves arrayKinds
  | .list items => leavesOfItems_raises items
  | .tuple items => leavesOfItems_raises items
  | .matrix _ => .ok _
  | .none => .ok _
  | .bool b => (scalarOfNumber_raises (.int b.toInt)).map
  | .number x => (scalarOfNumber_raises x).map
  | .text s => by
    refine .map ?_
    rw [toScalar]
    split
    · exact .ok _
    · exact .error (by simp [arrayKinds, ReadFault.report])
  | .mapping entries => .error (by simp [arrayKinds, ReadFault.report])

theorem leavesOfItems_raises : ∀ items : List (Value α),
    RaisesAmong (leavesOfItems items) arrayKinds
  | [] => .ok _
  | v :: rest => (leaves_raises v).bind fun _ => (leavesOfItems_raises rest).bind fun _ => .ok _

end

theorem toTensor_raises (v : Value α) : RaisesAmong v.toTensor arrayKinds := by
  unfold toTensor
  split
  · split_ifs
    · exact .error (by simp [arrayKinds, ReadFault.report])
    · exact (leaves_raises v).map
  · exact .error (by simp [arrayKinds, ReadFault.report])

/-! ### Mappings -/

/-- How entries of mappings fail to be read: items with other than two parts, and items without
parts or with a key that is none. -/
def entryKinds : List Kind := [.value, .type]

mutual

theorem checkKey_raises : ∀ v : Value α, RaisesAmong v.checkKey entryKinds
  | .list _ | .mapping _ | .matrix _ => .error (by simp [entryKinds, ReadFault.report])
  | .tuple items => checkKeys_raises items
  | .none | .bool _ | .number _ | .text _ => .ok ()

theorem checkKeys_raises : ∀ items : List (Value α), RaisesAmong (checkKeys items) entryKinds
  | [] => .ok ()
  | v :: rest => (checkKey_raises v).bind fun _ => checkKeys_raises rest

end

theorem toEntry_raises (index : Nat) (v : Value α) :
    RaisesAmong (v.toEntry index) entryKinds := by
  cases v with
  | text _ | list _ | tuple _ | mapping _ =>
    simp only [toEntry, toItems]
    split
    · exact .ok _
    · exact .error (by simp [entryKinds, ReadFault.report])
    · next heq => cases heq
  | _ => exact .error (by simp [entryKinds, ReadFault.report])

theorem toEntries_raises (index : Nat) (items : List (Value α)) :
    RaisesAmong (toEntries index items) entryKinds := by
  induction items generalizing index with
  | nil => exact .ok _
  | cons v rest ih =>
    exact (toEntry_raises index v).bind fun e => (checkKey_raises e.1).bind fun _ =>
      (ih (index + 1)).bind fun _ => .ok _

theorem toTable_raises (hv : ∀ m, v ≠ .matrix m) : RaisesAmong v.toTable entryKinds := by
  cases v with
  | mapping entries => exact .ok entries
  | matrix m => exact absurd rfl (hv m)
  | text _ | list _ | tuple _ => exact (toEntries_raises 0 _).bind fun _ => .ok _
  | _ => exact .error (by simp [entryKinds, ReadFault.report])

theorem toTruth_of_ne_matrix (hv : ∀ m, v ≠ .matrix m) : v.toTruth = .ok v.isTruthy := by
  cases v with
  | matrix m => exact absurd rfl (hv m)
  | _ => rfl

/-- Values other than matrices are mappings, or count as false, or fail by their entries. -/
theorem toMapping_raises (hv : ∀ m, v ≠ .matrix m) : RaisesAmong v.toMapping entryKinds := by
  rw [toMapping, toTruth_of_ne_matrix hv]
  refine .bind (.ok _) fun b => ?_
  split_ifs
  · exact toTable_raises hv
  · exact .ok _

/-- How matrices fail to be read as truth values or as mappings: unless they have one entry they are
neither true nor false, and they have no items. -/
def matrixKinds : List Kind := [.runtime, .other "Exception"]

theorem toMapping_matrix_raises (m : Matrix α) :
    RaisesAmong (Value.matrix m).toMapping matrixKinds := by
  refine .bind ?_ fun b => ?_
  · rw [toTruth]
    split
    · exact .ok _
    · exact .error (by simp [matrixKinds, ReadFault.report])
  · split_ifs
    · exact .error (by simp [matrixKinds, ReadFault.report])
    · exact .ok _

/-! ### Messages -/

omit [Scalar α] in
theorem isWritable_int {n : Int} (hn : n.natAbs < 10) :
    (Value.int n : Value α).isWritable = true := by
  have hpow {k : Nat} (hk : k ≠ 0) : n.natAbs < Nat.pow 10 k := hn.trans_le (Nat.le_self_pow hk 10)
  rw [isWritable]
  exact decide_eq_true (hpow (by decide))

omit [Scalar α] in
theorem isWritable_pair (a b : Value α) :
    (Value.tuple [a, b]).isWritable = (a.isWritable && b.isWritable) := by
  show (a.isWritable && (b.isWritable && true)) = _
  rw [Bool.and_true]

/-- A whole number below a minimum that has too many digits for a message. -/
def UnwritableBelow (v : Value α) (least : Int) : Prop :=
  v.isWritable = false ∧ ∃ n, v = .int n ∧ n < least

end Value

namespace Check

variable {v : Value α} {name : String}

theorem lt_int (n least : Int) : (Number.int n : Number α).lt (.int least) = true ↔ n < least := by
  simp [Number.lt, Number.exact, Extended.finite_lt_finite]

omit [Scalar α] in
theorem refuse_ne_ok {β : Type} {y : β} (shown : Value α) (f : Fault α) :
    (refuse shown f : Outcome α β) ≠ .ok y := by
  rw [refuse]
  split_ifs <;> nofun

theorem integer_eq_ok {least n : Int} :
    integer v name least = .ok n ↔ v = .int n ∧ least ≤ n := by
  cases v with
  | number x =>
    cases x with
    | int k =>
      show (if (Number.int k : Number α).lt (.int least) then refuse _ _ else pure k) = _ ↔ _
      rw [if_congr (lt_int k least) rfl rfl]
      split_ifs with hk
      · exact iff_of_false (refuse_ne_ok _ _) (by simp; omega)
      · simp
        omega
    | real x => exact iff_of_false nofun (by simp)
  | _ => exact iff_of_false nofun (by simp)

/-- What is refused by a message that cannot be written fails by it. -/
theorem refuse_raises_iff {β : Type} {f : Fault α} (hf : f.kind ≠ kind) :
    Raises (refuse v f : Outcome α β) kind ↔ kind = .value ∧ v.isWritable = false := by
  rw [refuse]
  split_ifs with hv
  · simp [hf, hv]
  · simpa [hv, ReadFault.report] using eq_comm

theorem integer_raises_iff (hkind : kind ≠ .configuration) {least : Int}
    (hleast : least.natAbs < 10) :
    Raises (integer v name least) kind ↔ kind = .value ∧ v.UnwritableBelow least := by
  cases v with
  | number x =>
    cases x with
    | int n =>
      have hwritable : (Value.tuple [.int least, .int n] : Value α).isWritable =
          (Value.int n : Value α).isWritable := by
        rw [Value.isWritable_pair, Value.isWritable_int hleast, Bool.true_and]
      show Raises (if (Number.int n : Number α).lt (.int least) then
        refuse (.tuple [.int least, .int n]) _ else pure n) kind ↔ _
      rw [if_congr (lt_int n least) rfl rfl]
      split_ifs with hn
      · have hfault : (Fault.option (.belowMinimum name (.int least) n) : Fault α).kind ≠ kind :=
          hkind.symm
        rw [refuse_raises_iff hfault, hwritable]
        simp [Value.UnwritableBelow, hn]
      · exact iff_of_false (not_raises_ok n) (by simp [Value.UnwritableBelow, hn])
    | real x => exact iff_of_false (not_raises_error hkind.symm) (by simp [Value.UnwritableBelow])
  | _ => exact iff_of_false (not_raises_error hkind.symm) (by simp [Value.UnwritableBelow])

/-- Numbers are asked for being infinite before they are compared with zero, and whole numbers out
of range are not what can be asked. -/
theorem positive_raises_iff (hkind : kind ≠ .configuration) : Raises (positive v name) kind ↔
    kind = .overflow ∧ ∃ x, v = .number x ∧ ¬ x.InRange := by
  cases v with
  | number x =>
    show Raises (Value.scalarOfNumber x >>= _) kind ↔ _
    refine (raises_bind_iff_left fun s => ?_).trans (Value.scalarOfNumber_raises_iff.trans ?_)
    · -- What comes after the question is refused as a configuration, or accepted.
      split
      · split_ifs
        · exact not_raises_error hkind.symm
        · exact not_raises_ok x
      · exact not_raises_error hkind.symm
    · simp
  | _ => exact iff_of_false (not_raises_error hkind.symm) (by simp)

end Check

namespace Mesh

variable {v : Value α} {m : Mesh α}

theorem ofTensor_raises (t : Tensor α) : OnlyRaises (ofTensor t) .configuration := by
  refine OnlyRaises.bind ?_ fun _ => .ok _
  exact .guard rfl (.guard rfl (.demand rfl (.guard rfl (.demand rfl (.ok _)))))

theorem ofValue_raises_iff (hkind : kind ≠ .configuration) :
    Raises (ofValue v) kind ↔ Raises v.toTensor kind :=
  raises_bind_iff_left fun t => (ofTensor_raises t).not_raises hkind

theorem uniform_raises_iff (hkind : kind ≠ .configuration) : Raises (uniform v) kind ↔
    kind = .value ∧ v.UnwritableBelow 2 ∨
      ∃ n, v = .int n ∧ 2 ≤ n ∧ Raises (checkMemory n : Outcome α Unit) kind := by
  have hafter (n : Int) : Raises (do
      checkMemory n
      ofTensor (Tensor.ofList (equalPoints n.toNat)) : Outcome α (Mesh α)) kind ↔
        Raises (checkMemory n : Outcome α Unit) kind :=
    raises_bind_iff_left fun _ => (ofTensor_raises _).not_raises hkind
  rw [uniform, raises_bind_iff, Check.integer_raises_iff hkind (by decide)]
  simp only [Check.integer_eq_ok, hafter, and_assoc]

/-- How there is no memory for the points: their number has no double, is no size of an array, or is
larger than what there is. -/
def memoryKinds : List Kind := [.overflow, .value, .other "_ArrayMemoryError"]

theorem checkMemory_raises (n : Int) :
    RaisesAmong (checkMemory n : Outcome α Unit) memoryKinds := by
  refine .guard ?large (.guard ?countable (.guard ?bytes ?memory))
  case memory =>
    split_ifs
    · exact .error (by simp [memoryKinds, ReadFault.report])
    · exact .ok ()
  all_goals simp [memoryKinds, ReadFault.report]

theorem length_withEnds {points : List α} (h : 2 ≤ points.length) :
    (withEnds points).length = points.length := by
  simp only [withEnds, List.length_append, List.length_cons, List.length_dropLast,
    List.length_drop, List.length_nil]
  omega

/-- A uniform mesh has the number of points that is asked for. -/
theorem eq_numPoints_of_uniform (h : uniform v = .ok m) : v = .int m.numPoints := by
  simp only [uniform, Except.bind_eq_ok] at h
  obtain ⟨n, hn, -, -, h⟩ := h
  obtain ⟨rfl, htwo⟩ := Check.integer_eq_ok.mp hn
  obtain ⟨points, hcheck, rfl⟩ := Except.map_eq_ok.mp h
  obtain ⟨-, hlength, -, -, -, rfl⟩ := checkPoints_eq_ok.mp hcheck
  have hcount : (equalPoints n.toNat : List α).length = n := by
    simp [equalPoints]
    omega
  rw [numPoints, length_withEnds hlength, Tensor.ofList, hcount]

end Mesh

end Collocation
