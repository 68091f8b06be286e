import Collocation.Solution.Frame
import Collocation.Proofs.Solve
import Collocation.Proofs.Values

/-! Reading the variables of a solution by name.  A name finds the first variable that has it, in
the order time, states, controls, multipliers and parameters, and a table keeps the last column of a
name. The names of a problem are distinct within each kind only, so all variables are read back if
the kinds share no name and none of them uses that of the time, and else one hides another. -/

namespace Collocation

variable {α : Type} [Scalar α]

namespace Table

variable {γ : Type}

/-- A table with entries under texts. -/
def ofNamed (entries : List (String × γ)) : Table α γ := entries.map fun e => (.text e.1, e.2)

omit [Scalar α] in
theorem ofNamed_append (entries more : List (String × γ)) :
    (ofNamed (entries ++ more) : Table α γ) = ofNamed entries ++ ofNamed more := List.map_append

theorem merge_append (t added more : Table α γ) :
    merge t (added ++ more) = merge (merge t added) more := List.foldl_append

/-- Of the entries that are put under one text the last one stays. -/
theorem named?_merge (t : Table α γ) (added : List (String × γ)) (n : String) :
    named? n (merge t (ofNamed added)) = (added.reverse.lookup n).or (named? n t) := by
  induction added generalizing t with
  | nil => rfl
  | cons e rest ih =>
    obtain ⟨m, x⟩ := e
    have hput : named? n (put (.text m) x t) = ([(m, x)].lookup n).or (named? n t) := by
      by_cases h : n = m
      · subst h
        simp
      · rw [named?_put_of_ne h]
        simp [List.lookup_cons, beq_eq_false_iff_ne.mpr h]
    rw [List.reverse_cons, List.lookup_append, Option.or_assoc, ← hput]
    exact ih (put (.text m) x t)

theorem put_ofNamed {entries : List (String × γ)} {n : String} (x : γ)
    (h : n ∉ entries.map (·.1)) :
    put (.text n) x (ofNamed entries : Table α γ) = ofNamed (entries ++ [(n, x)]) := by
  induction entries with
  | nil => rfl
  | cons e rest ih =>
    rw [List.map_cons, List.mem_cons, not_or] at h
    have hkey : (.text e.1 : Value α).same (.text n) = false := by
      simpa [Value.same] using Ne.symm h.1
    have hput : put (.text n) x (ofNamed (e :: rest) : Table α γ) =
        (.text e.1, e.2) :: put (.text n) x (ofNamed rest) := by
      rw [ofNamed, List.map_cons, put, hkey]
      rfl
    rw [hput, ih h.2]
    rfl

/-- Entries under distinct texts stand behind each other. -/
theorem merge_ofNamed {entries added : List (String × γ)}
    (h : ((entries ++ added).map (·.1)).Nodup) :
    merge (ofNamed entries : Table α γ) (ofNamed added) = ofNamed (entries ++ added) := by
  induction added generalizing entries with
  | nil =>
    rw [List.append_nil]
    rfl
  | cons e rest ih =>
    have hnot : e.1 ∉ entries.map (·.1) := by
      rw [List.map_append, List.map_cons, List.nodup_append] at h
      exact fun hmem => h.2.2 e.1 hmem e.1 List.mem_cons_self rfl
    have hall : entries ++ e :: rest = (entries ++ [e]) ++ rest := by simp
    rw [hall] at h ⊢
    rw [← ih h, ← put_ofNamed e.2 hnot]
    rfl

end Table

/-- Items under names, each found by its place among the names. -/
theorem lookup_mapIdx {β : Type} (names : List String) (g : Nat → β) (n : String) :
    (names.mapIdx fun i m => (m, g i)).lookup n = (names.findIdx? (· == n)).map g := by
  induction names generalizing g with
  | nil => rfl
  | cons m rest ih =>
    rw [List.mapIdx_cons, List.lookup_cons, List.findIdx?_cons, ih fun i => g (i + 1)]
    by_cases h : n = m
    · simp [h]
    · simp [beq_eq_false_iff_ne.mpr h, Ne.symm h, Function.comp_def]

theorem lookup_of_nodup {β : Type} {entries : List (String × β)} (h : (entries.map (·.1)).Nodup)
    {e : String × β} (he : e ∈ entries) : entries.lookup e.1 = some e.2 := by
  induction entries with
  | nil => cases he
  | cons first rest ih =>
    rw [List.map_cons, List.nodup_cons] at h
    rw [List.lookup_cons]
    rcases List.mem_cons.mp he with rfl | he
    · simp
    · have hne : e.1 ≠ first.1 := fun heq => h.1 (heq ▸ List.mem_map_of_mem he)
      rw [beq_eq_false_iff_ne.mpr hne]
      exact ih h.2 he

theorem map_fst_mapIdx {β : Type} (names : List String) (g : Nat → β) :
    (names.mapIdx fun i n => (n, g i)).map (·.1) = names := by
  refine List.ext_getElem (by simp) fun i _ _ => ?_
  rw [List.getElem_map, List.getElem_mapIdx]

namespace Solution

/-- What a solution of a problem with the functions `f` has under the names of the problem, in the
order in which names are looked up. -/
def entries (s : Solution α) (f : Functions α) : List (String × Found α) :=
  ("time", .trajectory s.times)
    :: (f.stateNames.mapIdx (fun i n => (n, .trajectory (column s.states i)))
      ++ f.controlNames.mapIdx (fun i n => (n, .trajectory (column s.controls i)))
      ++ f.multiplierNames.mapIdx (fun i n => (n, .trajectory (column s.multipliers i)))
      ++ f.parameterNames.mapIdx (fun i n => (n, .number (s.parameters[i]?.getD 0.0))))

/-- The columns of a table with one row for each time. Multipliers stand at their places among the
times. -/
def columns (s : Solution α) (f : Functions α) (places : List Nat) : List (String × List α) :=
  ("time", s.times)
    :: (f.stateNames.mapIdx (fun i n => (n, column s.states i))
      ++ f.controlNames.mapIdx (fun i n => (n, column s.controls i))
      ++ f.multiplierNames.mapIdx (fun i n =>
        (n, scatter s.numPoints places (column s.multipliers i))))

/-- What is read back of a solution by name. Names find the first variable that has them and the
table keeps the last; with distinct names every variable is found, and the table has a column for
the time, each state, each control and each multiplier. -/
structure ReadsBack (s : Solution α) (f : Functions α) (places : List Nat) : Prop where
  find : ∀ n x, s.find (.text n) = .ok x ↔ (s.entries f).lookup n = some x
  frame : ∃ table, s.frame = .ok table ∧
    ∀ n, table.named? n = (s.columns f places).reverse.lookup n
  distinct : ((s.entries f).map (·.1)).Nodup →
    (∀ e ∈ s.entries f, s.find (.text e.1) = .ok e.2) ∧
    s.frame = .ok (Table.ofNamed (s.columns f places))

section Names

variable {s : Solution α} {f : Functions α} {ks : List Nat}

theorem names_entries (s : Solution α) (f : Functions α) (ks : List Nat) :
    (s.entries f).map (·.1) = (s.columns f ks).map (·.1) ++ f.parameterNames := by
  simp only [entries, columns, List.map_cons, List.map_append, map_fst_mapIdx, List.cons_append]

theorem position?_texts (names : List String) (n : String) :
    position? (names.map .text) (.text n : Value α) = names.findIdx? (· == n) := by
  have hsame : ((fun m => Value.same m (.text n : Value α)) ∘ Value.text) = (· == n) := by
    funext m
    simp [Value.same]
  rw [position?, List.findIdx?_map, hsame]

variable (hnames : s.names = ⟨f.stateNames.map .text, f.controlNames.map .text,
  f.multiplierNames.map .text, f.parameterNames.map .text⟩)
include hnames

theorem find_eq_ok (n : String) (x : Found α) :
    s.find (.text n) = .ok x ↔ (s.entries f).lookup n = some x := by
  have htime : timeName.same (.text n : Value α) = ("time" == n) := by simp [timeName, Value.same]
  rw [find, htime, entries, List.lookup_cons]
  by_cases hn : n = "time"
  · subst hn
    simp
  rw [beq_eq_false_iff_ne.mpr hn, beq_eq_false_iff_ne.mpr (Ne.symm hn)]
  simp only [hnames, position?_texts, List.lookup_append, lookup_mapIdx, Bool.false_eq_true,
    ↓reduceIte]
  -- The first kind that has the name decides.
  cases f.stateNames.findIdx? (· == n) with
  | some i => simp
  | none =>
    cases f.controlNames.findIdx? (· == n) with
    | some i => simp
    | none =>
      cases f.multiplierNames.findIdx? (· == n) with
      | some i => simp
      | none => cases f.parameterNames.findIdx? (· == n) <;> simp

theorem find_of_nodup (h : ((s.entries f).map (·.1)).Nodup) {e : String × Found α}
    (he : e ∈ s.entries f) : s.find (.text e.1) = .ok e.2 :=
  (find_eq_ok hnames e.1 e.2).mpr (lookup_of_nodup h he)

omit hnames in
theorem putColumns_eq (rows : List (List α)) (index : Nat) (names : List String)
    (table : Table α (List α)) : putColumns rows index (names.map .text) table =
      .ok (table.merge (.ofNamed (names.mapIdx fun i n => (n, column rows (index + i))))) := by
  induction names generalizing index table with
  | nil => rfl
  | cons n rest ih =>
    rw [List.map_cons, putColumns, List.mapIdx_cons]
    have hnext := ih (index + 1) (table.put (.text n) (column rows index))
    simp only [Nat.add_right_comm index 1, Nat.add_assoc] at hnext
    exact hnext

omit hnames [Scalar α] in
theorem spread_column {places : List Nat} {xs : List α} (h : xs.length = places.length) :
    (⟨[places.length], places, false⟩ : Selection).spread xs = .ok xs := by
  match xs, h with
  | [], h => simp [Selection.spread, ← h]
  | [x], h =>
    obtain ⟨k, rfl⟩ := List.length_eq_one_iff.mp h.symm
    rfl
  | x :: y :: rest, h =>
    have hpos : 0 < (x :: y :: rest).length := Nat.succ_pos _
    simp only [Selection.spread, ← h, List.getLast?_singleton, ↓reduceIte, Nat.div_self hpos]
    simp

omit hnames in
theorem putMultipliers_eq
    (hplaces : s.multiplierPlaces = .ok ⟨[ks.length], ks, false⟩)
    (hrows : s.multipliers.length = ks.length) (index : Nat) (names : List String)
    (table : Table α (List α)) : s.putMultipliers index (names.map .text) table =
      .ok (table.merge (.ofNamed (names.mapIdx fun i n =>
        (n, scatter s.numPoints ks (column s.multipliers (index + i)))))) := by
  induction names generalizing index table with
  | nil => rfl
  | cons n rest ih =>
    have hlength : (column s.multipliers index).length = ks.length := by
      rw [column, List.length_map, hrows]
    rw [List.map_cons, putMultipliers, hplaces, List.mapIdx_cons]
    simp only [bind, Except.bind, spread_column hlength]
    have hnext := ih (index + 1)
      (table.put (.text n) (scatter s.numPoints ks (column s.multipliers index)))
    simp only [Nat.add_right_comm index 1, Nat.add_assoc] at hnext
    exact hnext

theorem frame_eq (hplaces : s.multiplierPlaces = .ok ⟨[ks.length], ks, false⟩)
    (hrows : s.multipliers.length = ks.length) :
    s.frame = .ok (Table.merge [] (Table.ofNamed (s.columns f ks))) := by
  rw [frame, hnames]
  simp only [putColumns_eq, putMultipliers_eq hplaces hrows, bind, Except.bind, Nat.zero_add,
    ← Table.merge_append, ← Table.ofNamed_append]
  rfl

theorem readsBack (hplaces : s.multiplierPlaces = .ok ⟨[ks.length], ks, false⟩)
    (hrows : s.multipliers.length = ks.length) : s.ReadsBack f ks where
  find := find_eq_ok hnames
  frame := by
    refine ⟨_, frame_eq hnames hplaces hrows, fun n => ?_⟩
    rw [Table.named?_merge]
    exact Option.or_none
  distinct h := by
    refine ⟨fun e he => find_of_nodup hnames h he, ?_⟩
    rw [names_entries s f ks] at h
    have hmerge : Table.merge (Table.ofNamed []) (Table.ofNamed (s.columns f ks)) =
        (Table.ofNamed ([] ++ s.columns f ks) : Table α (List α)) :=
      Table.merge_ofNamed h.of_append_left
    rw [frame_eq hnames hplaces hrows]
    exact congrArg Except.ok hmerge

end Names

end Solution

namespace Transcription

/-- What a solution shows under the names of its problem. The names of the states, of the controls,
of the multipliers and of the parameters are distinct, but different kinds may share a name, and any
of them may use that of the time; without such names every variable is read back. -/
theorem reads_back {r : Registry α} {solver : Solver α} {p : Problem α} {t : Transcription α}
    (hcreate : create r solver p = .ok t) (hcountable : (t.mesh.numPoints : Int) ≤ Tensor.countable)
    {name : String} {w : List α} {s : Statistics α} {S : Solution α}
    (hS : t.extract name w s = .ok S) :
    t.functions.stateNames.Nodup ∧ t.functions.controlNames.Nodup ∧
    t.functions.multiplierNames.Nodup ∧ t.functions.parameterNames.Nodup ∧
    (∃ tr, t.layout.split w = .ok tr ∧ S.Shows tr) ∧
    S.ReadsBack t.functions t.layout.constrained := by
  obtain ⟨hf, -, -, hks, -⟩ := create_layout hcreate
  have hmakes := Problem.functions_eq_ok.mp hf
  obtain ⟨hlength, status, iterations, objective, terms, rfl⟩ := extract_eq_ok hS
  refine ⟨hmakes.stateNames ▸ hmakes.complete.stateNames,
    hmakes.controlNames ▸ hmakes.complete.controlNames,
    hmakes.multiplierNames ▸ hmakes.complete.multiplierNames,
    hmakes.parameterNames ▸ hmakes.complete.parameterNames,
    ⟨_, Layout.split_eq_ok.mpr ⟨hlength, rfl⟩, ⟨rfl, rfl, rfl, rfl, rfl, rfl⟩⟩, ?_⟩
  refine Solution.readsBack rfl ?_ (List.length_map _)
  have hpoints : (t.solutionOf name w s status iterations objective terms).numPoints =
      t.mesh.numPoints := List.length_map _
  rw [Solution.multiplierPlaces, hpoints]
  exact Selection.ofItems_ints hks.inside hcountable

namespace Sample

/-- A problem with a state and a control of one name. -/
def sharing : Problem Extended := problemOf
  [.time (.real 0.0) (.real 1.0), .state (.text "x") .none .none .none,
    .control (.text "x") .none .none .none, .dynamics (.evaluator drive)]

/-- A vector in which no two entries are equal. -/
def ramp (size : Nat) : List Extended := (List.range size).map fun k => .finite k

theorem shared : ∃ t S, create .initial solver sharing = .ok t ∧
    t.functions.stateNames = ["x"] ∧ t.functions.controlNames = ["x"] ∧
    t.extract "trapezoidal" (ramp 8) report = .ok S ∧
    Solution.column S.states 0 ≠ Solution.column S.controls 0 := by
  obtain ⟨t, ht, hparts⟩ := Except.exists_of_any (x := create .initial solver sharing)
    (p := fun t => decide (t.functions.stateNames = ["x"] ∧ t.functions.controlNames = ["x"]) &&
      (t.extract "trapezoidal" (ramp 8) report).toOption.any fun (S : Solution Extended) =>
        decide (Solution.column S.states 0 ≠ Solution.column S.controls 0)) (by decide +kernel)
  rw [Bool.and_eq_true, decide_eq_true_eq] at hparts
  obtain ⟨⟨hstate, hcontrol⟩, hextract⟩ := hparts
  obtain ⟨S, hS, hne⟩ := Except.exists_of_any hextract
  exact ⟨t, S, ht, hstate, hcontrol, hS, of_decide_eq_true hne⟩

end Sample

/-- The names of the sample problem are distinct, so all of its variables are read back. -/
theorem reads_back_sample : ∃ t S, create .initial Sample.solver Sample.problem = .ok t ∧
    t.extract "trapezoidal" (Sample.ramp 11) Sample.report = .ok S ∧
    (∀ e ∈ S.entries t.functions, S.find (.text e.1) = .ok e.2) ∧
    S.frame = .ok (Table.ofNamed (S.columns t.functions t.layout.constrained)) := by
  obtain ⟨t, ht, hparts⟩ := Except.exists_of_any (x := create .initial Sample.solver Sample.problem)
    (p := fun t => (t.extract "trapezoidal" (Sample.ramp 11) Sample.report).toOption.any
      fun (S : Solution Extended) => decide ((S.entries t.functions).map Prod.fst).Nodup)
    (by decide +kernel)
  obtain ⟨S, hS, hnames⟩ := Except.exists_of_any hparts
  obtain ⟨-, hmesh, -⟩ := create_layout ht
  have hcountable : (t.mesh.numPoints : Int) ≤ Tensor.countable := by
    rw [hmesh]
    decide
  obtain ⟨-, -, -, -, -, hreads⟩ := reads_back ht hcountable hS
  exact ⟨t, S, ht, hS, hreads.distinct (of_decide_eq_true hnames)⟩

/-- Not every variable is read back: a state and a control may have one name. -/
theorem not_read_back : ¬ ∀ (r : Registry Extended) (solver : Solver Extended)
    (p : Problem Extended) (t : Transcription Extended) (name : String) (w : List Extended)
    (s : Statistics Extended) (S : Solution Extended),
    create r solver p = .ok t → t.extract name w s = .ok S →
      ∀ e ∈ S.entries t.functions, S.find (.text e.1) = .ok e.2 := by
  intro h
  obtain ⟨t, S, ht, hstate, hcontrol, hS, hne⟩ := Sample.shared
  have hfind := h _ _ _ _ _ _ _ _ ht hS
  have hx := hfind ("x", .trajectory (Solution.column S.states 0))
    (by simp [Solution.entries, hstate])
  have hu := hfind ("x", .trajectory (Solution.column S.controls 0))
    (by simp [Solution.entries, hcontrol])
  exact hne (Solution.Found.trajectory.inj (Except.ok.inj (hx.symm.trans hu)))

end Transcription

end Collocation
