import Collocation.Problem.Evaluation
import Collocation.Proofs.Problem.Additions
import Collocation.Proofs.Problem.Failures
import Collocation.Proofs.Solution.Shapes

/-! Operands in lists and operands in matrices.  Functions of a problem read lists row by row and
matrices column by column, and compare only the number of entries with the one that is expected.  So
a vector may stand in either container, and rows and columns change places where a list of rows is
replaced by the matrix with these rows. -/

namespace Collocation

variable {α : Type}

/-- Operations of which the results are forgotten fail alike if they are the same. -/
theorem Except.error_iff_of_discard {ε β γ : Type} {x : Except ε β} {y : Except ε γ}
    (h : discard x = discard y) (e : ε) : x = .error e ↔ y = .error e := by
  cases x <;> cases y <;> simp_all [discard, Functor.mapConst, Except.map]

namespace Grid

/-- The matrix with the rows of an array. -/
def matrix (g : Grid α) : Matrix α := ⟨g.rows.length, g.width, g.rows⟩

/-- The matrix with the rows of an array as its columns. -/
def transposed (g : Grid α) : Matrix α :=
  ⟨g.width, g.rows.length, (List.range g.width).map g.matrix.column⟩

/-- An array of not more than one row or of not more than one column. -/
def IsVector (g : Grid α) : Prop := g.rows.length ≤ 1 ∨ g.width ≤ 1

variable {g : Grid α}

theorem getElem?_column {j : Nat} (hj : j < g.width) (i : Nat) :
    (g.matrix.column j)[i]? = entryAt g.rows i j := by
  obtain ⟨rows, width, hrows⟩ := g
  show (rows.filterMap (·[j]?))[i]? = entryAt rows i j
  induction rows generalizing i with
  | nil => rfl
  | cons row rest ih =>
    obtain ⟨hrow, hrest⟩ := List.forall_mem_cons.mp hrows
    have hlt : j < row.length := hrow ▸ hj
    rw [List.filterMap_cons_some (f := (·[j]?)) (List.getElem?_eq_getElem hlt)]
    cases i with
    | zero => exact (List.getElem?_eq_getElem hlt).symm
    | succ i => exact ih i hrest hj

theorem length_column {j : Nat} (hj : j < g.width) :
    (g.matrix.column j).length = g.rows.length := by
  refine le_antisymm (List.length_filterMap_le ..) (Nat.le_of_not_lt fun hlt => ?_)
  have hnone := List.getElem?_eq_none (Nat.le_refl (g.matrix.column j).length)
  have hrow : g.rows[(g.matrix.column j).length].length = g.width :=
    g.rectangular _ (List.getElem_mem hlt)
  rw [getElem?_column hj, entryAt, List.getElem?_eq_getElem hlt] at hnone
  exact absurd (List.getElem?_eq_none_iff.mp hnone) (by omega)

theorem length_byColumns (g : Grid α) : g.matrix.byColumns.length = g.entries.length := by
  have hlengths : (List.range g.width).map (fun j => (g.matrix.column j).length) =
      List.replicate g.width g.rows.length := by
    refine List.eq_replicate_iff.mpr ⟨by simp, ?_⟩
    simpa using fun j hj => length_column hj
  rw [Matrix.byColumns, List.length_flatMap]
  show ((List.range g.width).map fun j => (g.matrix.column j).length).sum = _
  rw [hlengths, List.sum_replicate_nat, length_entries, Nat.mul_comm]

/-- Columns of the transposed matrix are the rows. -/
theorem column_transposed {i : Nat} (hi : i < g.rows.length) :
    g.transposed.column i = g.rows[i] := by
  have hrow : g.rows[i].length = g.width := g.rectangular _ (List.getElem_mem hi)
  rw [Matrix.column, transposed, List.filterMap_map]
  conv => rhs; rw [← filterMap_range_getElem? g.rows[i], hrow]
  refine List.filterMap_congr fun j hj => ?_
  rw [Function.comp_apply, getElem?_column (List.mem_range.mp hj), entryAt,
    List.getElem?_eq_getElem hi]
  rfl

theorem byColumns_transposed (g : Grid α) : g.transposed.byColumns = g.entries := by
  rw [Matrix.byColumns, List.flatMap, entries]
  congr 1
  refine List.ext_getElem (by simp [transposed]) fun i _ hi => ?_
  rw [List.getElem_map, List.getElem_range, column_transposed hi]

theorem byColumns_of_isVector (h : g.IsVector) : g.matrix.byColumns = g.entries := by
  obtain ⟨rows, width, hrows⟩ := g
  show (List.range width).flatMap (fun j => rows.filterMap (·[j]?)) = rows.flatten
  rcases h with hheight | hwidth
  · rcases rows with _ | ⟨row, _ | ⟨_, _⟩⟩
    · simp
    · obtain rfl := hrows row List.mem_cons_self
      have hentry (j : Nat) : [row].filterMap (·[j]?) = row[j]?.toList := by
        cases hj : row[j]? <;> simp [hj]
      simp only [hentry]
      rw [← List.filterMap_eq_flatMap_toList, filterMap_range_getElem?, List.flatten_singleton]
    · exact absurd hheight (by simp)
  · replace hwidth : width ≤ 1 := hwidth
    have hrow (row : List α) (hmem : row ∈ rows) :
        (List.range width).flatMap (fun j => row[j]?.toList) = row := by
      rw [← hrows row hmem, ← List.filterMap_eq_flatMap_toList, filterMap_range_getElem?]
    have hswap : (List.range width).flatMap (fun j => rows.filterMap (·[j]?)) =
        rows.flatMap fun row => (List.range width).flatMap fun j => row[j]?.toList := by
      obtain rfl | rfl : width = 0 ∨ width = 1 := by omega
      · simp
      · simp [List.filterMap_eq_flatMap_toList]
    rw [hswap, List.flatMap_congr hrow, List.flatMap_id']

end Grid

variable [Scalar α]

/-- A list, or another value that is no matrix, holds the numbers of an array: row by row, or one
after the other if they are a single column. -/
structure Value.Lists (v : Value α) (g : Grid α) : Prop where
  container : ∀ m, v ≠ .matrix m
  read : v.toTensor = .ok g.tensor ∨ g.width = 1 ∧ v.toTensor = .ok (.ofList g.entries)

/-- An operand of a function: any value, or the numbers of an array in a list. -/
inductive Operand (α : Type) [Scalar α] where
  | plain (v : Value α)
  | array (v : Value α) (g : Grid α) (h : v.Lists g)

namespace Operand

def listed : Operand α → Value α
  | plain v => v
  | array v _ _ => v

/-- The operand with matrices for all lists, which have the same rows. -/
def inMatrix : Operand α → Value α
  | plain v => v
  | array _ g _ => .matrix g.matrix

/-- The operand with matrices for all lists, which have the rows as their columns. -/
def inTransposed : Operand α → Value α
  | plain v => v
  | array _ g _ => .matrix g.transposed

/-- All lists hold a single row or a single column. -/
def IsVector : Operand α → Prop
  | plain _ => True
  | array _ g _ => g.IsVector

/-- The operand is missing or consists of numbers. -/
def IsNumeric : Operand α → Prop
  | plain v => v = .none ∨ ∃ xs, Functions.entriesOf v = .ok xs
  | array .. => True

end Operand

namespace Functions

variable {f : Functions α} {name context : String} {expected : Nat}

theorem argument_of_ne_none {v : Value α} (h : v ≠ .none) : argument v expected name context =
    entriesOf v >>= fun xs => checkLength xs expected name context := by
  cases v with
  | none => exact absurd rfl h
  | bool | number | text | list | tuple | mapping | matrix => rfl

theorem entriesOf_of_not_matrix {v : Value α} (h : ∀ m, v ≠ .matrix m) :
    entriesOf v = v.toVector := by
  cases v with
  | matrix m => exact absurd rfl (h m)
  | none | bool | number | text | list | tuple | mapping => rfl

theorem argument_of_lists {v : Value α} {g : Grid α} (h : v.Lists g) :
    argument v expected name context = checkLength g.entries expected name context := by
  have hvector : v.toVector = .ok g.entries := by
    rw [Value.toVector]
    obtain hread | ⟨-, hread⟩ := h.read <;> rw [hread] <;> rfl
  have hne : v ≠ .none := by
    rintro rfl
    obtain hread | ⟨-, hread⟩ := h.read <;> cases hread
  rw [argument_of_ne_none hne, entriesOf_of_not_matrix h.container, hvector]
  rfl

theorem argument_inTransposed (o : Operand α) :
    argument o.inTransposed expected name context = argument o.listed expected name context := by
  cases o with
  | plain v => rfl
  | array v g h =>
    rw [Operand.listed, argument_of_lists h, ← g.byColumns_transposed]
    rfl

theorem argument_inMatrix {o : Operand α} (h : o.IsVector) :
    argument o.inMatrix expected name context = argument o.listed expected name context := by
  cases o with
  | plain v => rfl
  | array v g hlists =>
    rw [Operand.listed, argument_of_lists hlists, ← Grid.byColumns_of_isVector h]
    rfl

/-- Only the number of entries counts for whether an operand is accepted. -/
theorem discard_argument (o : Operand α) :
    discard (argument o.inMatrix expected name context) =
      discard (argument o.listed expected name context) := by
  cases o with
  | plain v => rfl
  | array v g h =>
    rw [Operand.listed, argument_of_lists h]
    show discard (checkLength g.matrix.byColumns expected name context) = _
    rw [checkLength, checkLength, g.length_byColumns]
    split_ifs <;> rfl

theorem argument_raises {o : Operand α} (h : o.IsNumeric) :
    OnlyRaises (argument o.listed expected name context) .problemDefinition := by
  have hlength (xs : List α) :
      OnlyRaises (checkLength xs expected name context) .problemDefinition := by
    unfold checkLength
    split_ifs
    · exact .ok _
    · exact .error rfl
  have hmissing : OnlyRaises (argument (.none : Value α) expected name context)
      .problemDefinition := by
    unfold argument
    split_ifs
    · exact .ok _
    · exact .error rfl
  cases o with
  | plain v =>
    by_cases hv : v = .none
    · exact hv ▸ hmissing
    · obtain ⟨xs, hxs⟩ := h.resolve_left hv
      rw [Operand.listed, argument_of_ne_none hv, hxs]
      exact hlength xs
  | array v g hlists => exact argument_of_lists hlists ▸ hlength _

/-- Reads operands one after the other, with the number of entries and the name that each of them
has. Operands that are not given are missing. -/
def gather (context : String) : List (Nat × String) → List (Value α) → Outcome α (List (List α))
  | [], _ => .ok []
  | (expected, name) :: rest, operands => do
    let xs ← argument (operands.headD .none) expected name context
    let others ← gather context rest operands.tail
    return xs :: others

section Gather

variable {specs : List (Nat × String)} {ops : List (Operand α)}

/-- Operands that are read in the same way are gathered in the same way. -/
theorem gather_congr {read read' : Operand α → Value α}
    (h : ∀ o ∈ ops, ∀ expected name, argument (read o) expected name context =
      argument (read' o) expected name context) :
    gather context specs (ops.map read) = gather context specs (ops.map read') := by
  induction specs generalizing ops with
  | nil => rfl
  | cons spec rest ih =>
    have hhead : argument ((ops.map read).headD .none) spec.1 spec.2 context =
        argument ((ops.map read').headD .none) spec.1 spec.2 context := by
      cases ops with
      | nil => rfl
      | cons o _ => exact h o List.mem_cons_self _ _
    have htail := ih fun o ho => h o (List.mem_of_mem_tail ho)
    rw [List.map_tail, List.map_tail] at htail
    rw [gather, gather, hhead, htail]

/-- Operands are refused in lists exactly as they are refused in matrices. -/
theorem discard_gather : discard (gather context specs (ops.map Operand.inMatrix)) =
    discard (gather context specs (ops.map Operand.listed)) := by
  have hcollect (expected : Nat) (name : String) (rest : List (Nat × String))
      (v : Value α) (others : List (Value α)) :
      discard (do
        let xs ← argument v expected name context
        let ys ← gather context rest others
        return xs :: ys) =
      discard (argument v expected name context) >>= fun _ =>
        discard (gather context rest others) :=
    Except.discard_bind fun xs => Except.discard_collect fun ys => rfl
  induction specs generalizing ops with
  | nil => rfl
  | cons spec rest ih =>
    have hhead : discard (argument ((ops.map Operand.inMatrix).headD .none) spec.1 spec.2 context) =
        discard (argument ((ops.map Operand.listed).headD .none) spec.1 spec.2 context) := by
      cases ops with
      | nil => rfl
      | cons o _ => exact discard_argument o
    have htail := @ih ops.tail
    rw [List.map_tail, List.map_tail] at htail
    rw [gather, gather, hcollect, hcollect, hhead, htail]

theorem gather_raises (h : ∀ o ∈ ops, o.IsNumeric) :
    OnlyRaises (gather context specs (ops.map Operand.listed)) .problemDefinition := by
  induction specs generalizing ops with
  | nil => exact .ok _
  | cons spec rest ih =>
    have hhead : OnlyRaises (argument ((ops.map Operand.listed).headD .none) spec.1 spec.2 context)
        .problemDefinition := by
      cases ops with
      | nil => exact argument_raises (o := .plain .none) (.inl rfl)
      | cons o _ => exact argument_raises (h o List.mem_cons_self)
    have htail := ih fun o ho => h o (List.mem_of_mem_tail ho)
    rw [List.map_tail] at htail
    exact hhead.bind fun xs => htail.bind fun ys => .ok _

end Gather

/-- What an evaluation chooses: what messages call it, and a function of the entries of its
operands. -/
structure Chosen (α : Type) where
  context : String
  function : List (List α) → List α

/-- The point with given entries. -/
def pointFrom (xs : List (List α)) : Point α where
  time := single (xs.getD 0 [])
  state := xs.getD 1 []
  control := xs.getD 2 []
  parameter := xs.getD 3 []
  multiplier := xs.getD 4 []

/-- The ends with given entries. -/
def endsFrom (xs : List (List α)) : Endpoints α where
  initialTime := single (xs.getD 0 [])
  initialState := xs.getD 1 []
  finalTime := single (xs.getD 2 [])
  finalState := xs.getD 3 []
  parameter := xs.getD 4 []

/-- The choice of an evaluation; where there are several functions it is made by an index. -/
def chosen (f : Functions α) (which : Evaluation) (index : Value α) : Outcome α (Chosen α) :=
  match which with
  | .dynamics => .ok ⟨"dynamics", fun xs => f.dynamics.at (pointFrom xs)⟩
  | .kinematic =>
    match f.kinematic with
    | some g => .ok ⟨"kinematic constraints", fun xs => g.at (pointFrom xs)⟩
    | none => .error (.problem .noKinematic)
  | .path => do
    let c ← item f.path (← index.toPosition)
    return ⟨"path constraint '" ++ c.name ++ "'", fun xs => c.function.at (pointFrom xs)⟩
  | .integrand => do
    let c ← item f.integralCosts (← index.toPosition)
    return ⟨"integral cost '" ++ c.name ++ "'", fun xs => c.function.at (pointFrom xs)⟩
  | .endpoint => do
    let c ← item f.endpointCosts (← index.toPosition)
    return ⟨"endpoint cost '" ++ c.name ++ "'", fun xs => c.function.at (endsFrom xs)⟩

/-- The operands of an evaluation. -/
def operands (f : Functions α) : Evaluation → List (Nat × String)
  | .dynamics =>
    [(1, "time"), (f.sizes.states, "states"), (f.sizes.controls, "controls"),
      (f.sizes.parameters, "parameters"), (f.sizes.multipliers, "multipliers")]
  | .kinematic | .path | .integrand =>
    [(1, "time"), (f.sizes.states, "states"), (f.sizes.controls, "controls"),
      (f.sizes.parameters, "parameters")]
  | .endpoint =>
    [(1, "initial time"), (f.sizes.states, "initial state"), (1, "final time"),
      (f.sizes.states, "final state"), (f.sizes.parameters, "parameters")]

end Functions

/-- The arguments of an evaluation: the operands, and before them an index where it needs one. -/
def Evaluation.arguments (which : Evaluation) (index : Value α) (operands : List (Value α)) :
    List (Value α) :=
  match which with
  | .dynamics | .kinematic => operands
  | .path | .integrand | .endpoint => index :: operands

namespace Functions

variable {f : Functions α} {which : Evaluation} {index : Value α}

omit [Scalar α] in
theorem headD_eq_getD (vs : List (Value α)) : vs.headD .none = vs[0]?.getD .none := by
  cases vs <;> rfl

/-- An evaluation chooses a function, reads its operands and evaluates it. -/
theorem evaluate_eq (f : Functions α) (which : Evaluation) (index : Value α)
    (vs : List (Value α)) : f.evaluate which (which.arguments index vs) = (do
      which.signature.checkCount (which.arguments index vs).length
      let c ← f.chosen which index
      let xs ← gather c.context (f.operands which) vs
      return c.function xs) := by
  rw [evaluate]
  congr 1
  funext u
  cases which with
  | dynamics =>
    simp only [evalDynamics, pointOf, operands, gather, headD_eq_getD, List.getElem?_tail,
      bind_assoc, pure_bind]
    rfl
  | kinematic =>
    simp only [evalKinematic, chosen]
    cases f.kinematic with
    | none => rfl
    | some g =>
      simp only [pointOf, operands, gather, headD_eq_getD, List.getElem?_tail, bind_assoc,
        pure_bind]
      rfl
  | path | integrand | endpoint =>
    simp only [evalPath, evalIntegrand, evalEndpoint, pointOf, chosen, operands, gather,
      headD_eq_getD, List.getElem?_tail, bind_assoc, pure_bind]
    rfl

omit [Scalar α] in
theorem length_arguments {γ : Type} (read read' : γ → Value α) (ops : List γ) :
    (which.arguments index (ops.map read)).length =
      (which.arguments index (ops.map read')).length := by
  cases which <;> simp [Evaluation.arguments]

theorem evaluate_congr {ops : List (Operand α)} {read read' : Operand α → Value α}
    (h : ∀ o ∈ ops, ∀ expected name context, argument (read o) expected name context =
      argument (read' o) expected name context) :
    f.evaluate which (which.arguments index (ops.map read)) =
      f.evaluate which (which.arguments index (ops.map read')) := by
  have hgather (context : String) : gather context (f.operands which) (ops.map read) =
      gather context (f.operands which) (ops.map read') :=
    gather_congr fun o ho expected name => h o ho expected name context
  rw [evaluate_eq, evaluate_eq, length_arguments read read']
  simp only [hgather]

theorem discard_evaluate (f : Functions α) (which : Evaluation) (index : Value α)
    (vs : List (Value α)) : discard (f.evaluate which (which.arguments index vs)) = (do
      which.signature.checkCount (which.arguments index vs).length
      let c ← f.chosen which index
      discard (gather c.context (f.operands which) vs)) := by
  rw [evaluate_eq]
  cases (which.signature.checkCount (which.arguments index vs).length : Outcome α Unit) with
  | error fault => rfl
  | ok u =>
    cases f.chosen which index with
    | error fault => rfl
    | ok c =>
      exact Except.discard_collect (g := fun xs => pure (c.function xs)) fun _ => rfl

/-- Lists of rows as operands are the matrices with these rows as their columns, and vectors are the
same in both containers. Whether operands are accepted and how they are refused does not depend on
the container. -/
theorem evaluate_containers (f : Functions α) (which : Evaluation) (index : Value α)
    (ops : List (Operand α)) :
    f.evaluate which (which.arguments index (ops.map Operand.listed)) =
      f.evaluate which (which.arguments index (ops.map Operand.inTransposed)) ∧
    ((∀ o ∈ ops, o.IsVector) →
      f.evaluate which (which.arguments index (ops.map Operand.listed)) =
        f.evaluate which (which.arguments index (ops.map Operand.inMatrix))) ∧
    (∀ fault, f.evaluate which (which.arguments index (ops.map Operand.listed)) = .error fault ↔
      f.evaluate which (which.arguments index (ops.map Operand.inMatrix)) = .error fault) ∧
    ((∀ o ∈ ops, o.IsNumeric) → ∀ fault,
      f.evaluate which (which.arguments index (ops.map Operand.listed)) = .error fault →
      which.signature.checkCount (which.arguments index (ops.map Operand.listed)).length =
        .error fault ∨
      f.chosen which index = .error fault ∨ fault.kind = .problemDefinition) := by
  refine ⟨evaluate_congr fun o _ _ _ _ => (argument_inTransposed o).symm, fun hvector => ?vector,
    fun fault => ?refused, fun hnumeric fault hfault => ?numeric⟩
  case vector => exact evaluate_congr fun o ho _ _ _ => (argument_inMatrix (hvector o ho)).symm
  case refused =>
    refine Except.error_iff_of_discard ?_ fault
    rw [discard_evaluate, discard_evaluate, length_arguments Operand.listed Operand.inMatrix]
    simp only [discard_gather]
  case numeric =>
    rw [evaluate_eq] at hfault
    rcases Except.bind_eq_error.mp hfault with hcount | ⟨-, -, hfault⟩
    · exact .inl hcount
    rcases Except.bind_eq_error.mp hfault with hchosen | ⟨c, -, hfault⟩
    · exact .inr (.inl hchosen)
    rcases Except.bind_eq_error.mp hfault with hgather | ⟨xs, -, hfault⟩
    · exact .inr (.inr (gather_raises hnumeric fault hgather))
    · cases hfault

end Functions

namespace Problem.Sample

/-- Four states whose derivatives are the states themselves. -/
def growth : List (Call Extended) :=
  [.time (.real 0.0) (.real 1.0), .state (.text "a") .none .none .none,
    .state (.text "b") .none .none .none, .state (.text "c") .none .none .none,
    .state (.text "d") .none .none .none,
    .dynamics (.evaluator fun _ =>
      .ok (.function ⟨4, 1, (List.range 4).map fun i pt => pt.state.getD i 0.0⟩))]

end Problem.Sample

/-- Four states in two rows are another vector in a matrix than in a list. -/
theorem Functions.containers_differ : ∃ f : Functions Extended,
    (Problem.attempted (.text "p") Problem.Sample.growth).functions = .ok f ∧
    f.evaluate .dynamics [.real 0.0, .ofRows [[1.0, 2.0], [3.0, 4.0]], .list []] =
      .ok [1.0, 2.0, 3.0, 4.0] ∧
    f.evaluate .dynamics [.real 0.0, .matrix ⟨2, 2, [[1.0, 2.0], [3.0, 4.0]]⟩, .list []] =
      .ok [1.0, 3.0, 2.0, 4.0] := by
  obtain ⟨f, hf, hboth⟩ := Except.exists_of_any
    (x := (Problem.attempted (.text "p") Problem.Sample.growth).functions)
    (p := fun f =>
      (f.evaluate .dynamics [.real 0.0, .ofRows [[1.0, 2.0], [3.0, 4.0]], .list []]).toOption.any
        (· = [1.0, 2.0, 3.0, 4.0]) &&
      (f.evaluate .dynamics
        [.real 0.0, .matrix ⟨2, 2, [[1.0, 2.0], [3.0, 4.0]]⟩, .list []]).toOption.any
        (· = [1.0, 3.0, 2.0, 4.0])) (by decide +kernel)
  obtain ⟨hlist, hmatrix⟩ := Bool.and_eq_true_iff.mp hboth
  obtain ⟨_, hlist, hxs⟩ := Except.exists_of_any hlist
  obtain ⟨_, hmatrix, hys⟩ := Except.exists_of_any hmatrix
  exact ⟨f, hf, of_decide_eq_true hxs ▸ hlist, of_decide_eq_true hys ▸ hmatrix⟩

end Collocation
