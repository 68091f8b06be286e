import Mathlib.Data.List.Chain
import Collocation.Proofs.Problem.ComponentBounds

/-! Names of functions.  The name of a constraint or a cost, behind the word for its sort, becomes a
function name character by character.  What comes out is legal only if all word characters are
ones of the first 128, the first character is a letter or digit, and of two neighbours at least one
is. -/

namespace Collocation

open Text

theorem Text.toNat_lt_of_isPlainWord {c : Char} (h : isPlainWord c = true) : c.toNat < 128 := by
  delta isPlainWord Char.isAlphanum Char.isAlpha Char.isUpper Char.isLower Char.isDigit at h
  simp only [Bool.or_eq_true, Bool.and_eq_true, decide_eq_true_eq, beq_iff_eq,
    UInt32.le_iff_toNat_le, ge_iff_le] at h
  have hletters : 'Z'.val.toNat = 90 ∧ 'z'.val.toNat = 122 ∧ '9'.val.toNat = 57 := ⟨rfl, rfl, rfl⟩
  rcases h with h | rfl
  · change c.val.toNat < 128
    omega
  · decide

/-- What a character of a name becomes. -/
def functionChar (c : Char) : Char := if isWord c then c else '_'

/-- The words for the sorts of what has a name, which function names begin with. -/
def functionKinds : List String := ["path", "integrand", "endpoint"]

/-- The names that make legal function names. -/
structure Legible (name : String) : Prop where
  plain : ∀ c ∈ name.toList, isWord c = true → c.toNat < 128
  first : ∀ c ∈ name.toList.head?, c.isAlphanum = true
  single : name.toList.IsChain fun c d => c.isAlphanum = true ∨ d.isAlphanum = true

theorem isPlainWord_functionChar {c : Char} :
    isPlainWord (functionChar c) = true ↔ (isWord c = true → c.toNat < 128) := by
  unfold functionChar
  split_ifs with hword
  · constructor
    · intro h _
      exact toNat_lt_of_isPlainWord h
    · intro h
      rw [isWord, if_pos (h hword)] at hword
      exact hword
  · exact iff_of_true (by decide) fun h => absurd h hword

/-- Among characters that are kept only letters and digits are no underscores. -/
theorem functionChar_ne_underscore {c : Char} (h : isWord c = true → c.toNat < 128) :
    functionChar c ≠ '_' ↔ c.isAlphanum = true := by
  unfold functionChar
  split_ifs with hword
  · rw [isWord, if_pos (h hword), isPlainWord, Bool.or_eq_true, beq_iff_eq] at hword
    constructor
    · exact hword.resolve_right
    · rintro halphanum rfl
      exact absurd halphanum (by decide)
  · have hnot : c.isAlphanum ≠ true := by
      intro halphanum
      have hplain : isPlainWord c = true := by rw [isPlainWord, halphanum, Bool.true_or]
      rw [isWord, if_pos (toNat_lt_of_isPlainWord hplain)] at hword
      exact hword hplain
    exact iff_of_false (fun hne => hne rfl) hnot

theorem singleUnderscores_iff {cs : List Char} :
    singleUnderscores cs = true ↔ cs.IsChain fun c d => c ≠ '_' ∨ d ≠ '_' := by
  fun_induction singleUnderscores cs with
  | case1 rest => simp
  | case2 c rest hnot ih =>
    rw [ih, List.isChain_cons, iff_and_self]
    intro _ d hd
    by_contra hboth
    obtain ⟨rfl, rfl⟩ := not_or.mp hboth |>.imp not_not.mp not_not.mp
    cases rest with
    | nil => cases hd
    | cons e rest =>
      obtain rfl := Option.some.inj hd
      exact hnot rest rfl rfl
  | case3 => simp

/-- Behind a legal name that does not end in an underscore, characters after an underscore make a
legal name if no underscore follows another one. -/
theorem isFunctionName_append {kind cs : List Char} (hkind : isFunctionName kind = true)
    (hlast : ∀ c ∈ kind.getLast?, c ≠ '_') : isFunctionName (kind ++ '_' :: cs) = true ↔
      (∀ c ∈ cs, isPlainWord c = true) ∧ (∀ c ∈ cs.head?, c ≠ '_') ∧
        cs.IsChain fun c d => c ≠ '_' ∨ d ≠ '_' := by
  simp only [isFunctionName, Bool.and_eq_true, singleUnderscores_iff] at hkind ⊢
  obtain ⟨⟨hplain, hfirst⟩, hsingle⟩ := hkind
  have hhead : (kind ++ '_' :: cs).head? = kind.head? := by
    cases kind with
    | nil => cases hfirst
    | cons c rest => rfl
  have hunderscore : isPlainWord '_' = true := by decide
  have hseam : ∀ c ∈ kind.getLast?, ∀ d ∈ ('_' :: cs).head?, c ≠ '_' ∨ d ≠ '_' :=
    fun c hc _ _ => .inl (hlast c hc)
  rw [hhead, List.all_append, List.all_cons, hplain, hunderscore, List.isChain_append,
    and_iff_left hseam, List.isChain_cons]
  simp only [Bool.true_and, List.all_eq_true, hfirst, hsingle, and_true, true_and,
    ne_self_iff_false, false_or]

/-- Which names make legal function names, whatever their sort. -/
theorem isFunctionName_iff_legible {kind name : String} (hkind : kind ∈ functionKinds) :
    isFunctionName (functionName kind name) = true ↔ Legible name := by
  have hkinds : ∀ kind ∈ functionKinds, isFunctionName kind.toList = true ∧
      kind.toList.getLast? ≠ some '_' := by decide
  obtain ⟨hlegal, hne⟩ := hkinds kind hkind
  have hlast : ∀ c ∈ kind.toList.getLast?, c ≠ '_' := by
    rintro c hc rfl
    exact hne hc
  have hname : functionName kind name = kind.toList ++ '_' :: name.toList.map functionChar := rfl
  rw [hname, isFunctionName_append hlegal hlast, List.forall_mem_map, List.isChain_map,
    List.head?_map]
  simp only [isPlainWord_functionChar, Option.forall_mem_map]
  constructor
  · rintro ⟨hplain, hfirst, hsingle⟩
    refine ⟨hplain, fun c hc => ?_, hsingle.imp_of_mem_imp fun c d hc hd h => ?_⟩
    · exact (functionChar_ne_underscore (hplain c (List.mem_of_mem_head? hc))).mp (hfirst c hc)
    · exact h.imp (functionChar_ne_underscore (hplain c hc)).mp
        (functionChar_ne_underscore (hplain d hd)).mp
  · rintro ⟨hplain, hfirst, hsingle⟩
    refine ⟨hplain, fun c hc => ?_, hsingle.imp_of_mem_imp fun c d hc hd h => ?_⟩
    · exact (functionChar_ne_underscore (hplain c (List.mem_of_mem_head? hc))).mpr (hfirst c hc)
    · exact h.imp (functionChar_ne_underscore (hplain c hc)).mpr
        (functionChar_ne_underscore (hplain d hd)).mpr

namespace Problem

variable {α : Type} [Scalar α]

/-- An addition is in order apart from its name: its callable returns, and with as many components
as there have to be. -/
def Addition.Fits (p : Problem α) : Addition α → Prop
  | .path c => ∃ v bounds,
    c.evaluator.call ⟨p.sizes, false⟩ ("Path constraint '" ++ c.name ++ "'") = .ok v ∧
      Functions.componentBounds c.name v.length c.bounds = .ok bounds
  | .cost ⟨name, .endpoint e, _⟩ => ∃ v,
    e.callSized ⟨p.sizes, false⟩ 1 ("Endpoint cost '" ++ name ++ "'") = .ok v
  | .cost ⟨name, .integral e, _⟩ => ∃ v,
    e.callSized ⟨p.sizes, false⟩ 1 ("Integral cost '" ++ name ++ "'") = .ok v

omit [Scalar α] in
/-- What only its name is left to check of is taken if the name is legible. -/
theorem discard_named {β : Type} {kind name : String} (hkind : kind ∈ functionKinds) (x : β) :
    (Legible name → discard (do
      Functions.checkFunctionName kind name
      return x : Outcome α β) = .ok ⟨⟩) ∧
    (¬ Legible name → discard (do
      Functions.checkFunctionName kind name
      return x : Outcome α β) = .error (.functionName name)) := by
  unfold Functions.checkFunctionName
  constructor
  · intro hlegible
    rw [if_pos ((isFunctionName_iff_legible hkind).mpr hlegible)]
    rfl
  · intro hnot
    rw [if_neg (mt (isFunctionName_iff_legible hkind).mp hnot)]
    rfl

/-- An addition that is otherwise in order is taken if its name is legible, and refused for its name
if it is not. -/
theorem Addition.Fits.take {a : Addition α} {p : Problem α} (h : a.Fits p) :
    (Legible a.name → a.callable.take p = .ok ()) ∧
      (¬ Legible a.name → a.callable.take p = .error (.functionName a.name)) := by
  match a with
  | .path c =>
    obtain ⟨v, bounds, hv, hbounds⟩ := h
    rw [callable, Callable.take, Functions.ofPath, hv]
    change (_ → discard (Functions.componentBounds c.name v.length c.bounds >>= _) = _) ∧
      (_ → discard (Functions.componentBounds c.name v.length c.bounds >>= _) = _)
    rw [hbounds]
    exact discard_named (by decide) _
  | .cost ⟨name, .endpoint e, weight⟩ =>
    obtain ⟨v, hv⟩ := h
    rw [callable, Callable.take, Functions.ofEndpoint, hv]
    exact discard_named (by decide) _
  | .cost ⟨name, .integral e, weight⟩ =>
    obtain ⟨v, hv⟩ := h
    rw [callable, Callable.take, Functions.ofIntegral, hv]
    exact discard_named (by decide) _

/-- A path constraint or a cost in a problem that is otherwise in order, with a name that its call
accepted. The problem has functions if the name is legible, and fails for the name if it is not. -/
theorem functions_of_name {name : Value α} {before after : List (Call α)} {c : Call α}
    {a : Addition α} {f : Functions α} (hc : c.item = .ok a.item)
    (hf : (attempted name (before ++ after)).functions = .ok f)
    (hnew : a.New (attempted name (before ++ after)))
    (hfits : a.Fits (attempted name (before ++ after))) :
    let p := attempted name (before ++ c :: after)
    (∀ kind ∈ functionKinds,
      isFunctionName (functionName kind a.name) = true ↔ Legible a.name) ∧
    (Legible a.name → ∃ f', p.functions = .ok f') ∧
    (¬ Legible a.name → p.functions = .error (.functionName a.name)) := by
  intro p
  have hadds : Adds a (attempted name (before ++ after)) p := Adds.attempted hc _ _ _
  obtain ⟨htaken, hrefused⟩ := hfits.take
  refine ⟨fun kind => isFunctionName_iff_legible, fun hlegible => ?_, fun hnot => ?_⟩
  · exact hadds.functions_ok hf hnew (htaken hlegible)
  · exact hadds.functions_error hf hnew (hrefused hnot)

namespace Sample

theorem legible_spaced : Legible "a b" := by
  have hname : "a b".toList = ['a', ' ', 'b'] := by decide +kernel
  constructor
  · rw [hname]
    simp only [List.forall_mem_cons, List.not_mem_nil, false_imp_iff, implies_true, and_true]
    decide
  · rw [hname]
    rintro c ⟨⟩
    decide
  · rw [hname]
    decide

theorem not_legible_wide : ¬ Legible "a  b" := by
  have hname : "a  b".toList = ['a', ' ', ' ', 'b'] := by decide +kernel
  rintro ⟨-, -, hsingle⟩
  rw [hname] at hsingle
  exact absurd hsingle (by decide)

theorem fits_boxed (name : String) (p : Problem Extended) :
    (Addition.path (boxed name [.real 0.0])).Fits p :=
  ⟨both, _, rfl, Functions.componentBounds_single _⟩

end Sample

/-- A name with one blank between letters is fine, and with two it is not. -/
theorem functions_of_name_sample :
    (∃ f, (attempted (.text "p") Sample.driven).functions = .ok f) ∧
    (∃ f, (attempted (.text "p") (Sample.box "a b" [.real 0.0] :: Sample.driven)).functions =
      .ok f) ∧
    (attempted (.text "p") (Sample.box "a  b" [.real 0.0] :: Sample.driven)).functions =
      .error (.functionName "a  b") := by
  obtain ⟨f, hf, -⟩ := Sample.driven_sizes
  have hbase : (attempted (.text "p") ([] ++ Sample.driven)).functions = .ok f := hf
  have hnarrow := functions_of_name (a := .path (Sample.boxed "a b" [.real 0.0]))
    (Sample.item_box _ _ (by decide +kernel) (by decide +kernel)) hbase (by decide +kernel)
    (Sample.fits_boxed _ _)
  have hwide := functions_of_name (a := .path (Sample.boxed "a  b" [.real 0.0]))
    (Sample.item_box _ _ (by decide +kernel) (by decide +kernel)) hbase (by decide +kernel)
    (Sample.fits_boxed _ _)
  exact ⟨⟨f, hf⟩, hnarrow.2.1 Sample.legible_spaced, hwide.2.2 Sample.not_legible_wide⟩

/-- Not every name that is accepted makes a legal function name. -/
theorem not_always_named : ¬ ∀ (name : Value Extended) (before after : List (Call Extended))
    (c : Call Extended) (a : Addition Extended) (f : Functions Extended),
    c.item = .ok a.item → (attempted name (before ++ after)).functions = .ok f →
    a.New (attempted name (before ++ after)) → a.Fits (attempted name (before ++ after)) →
    (∀ kind ∈ functionKinds, isFunctionName (functionName kind a.name) = true) ∧
      ∃ f', (attempted name (before ++ c :: after)).functions = .ok f' := by
  intro h
  obtain ⟨f, hf, -⟩ := Sample.driven_sizes
  obtain ⟨-, f', hf'⟩ := h (.text "p") [] Sample.driven _
    (.path (Sample.boxed "a  b" [.real 0.0])) f
    (Sample.item_box _ _ (by decide +kernel) (by decide +kernel)) hf (by decide +kernel)
    (Sample.fits_boxed _ _)
  have hfails : (attempted (.text "p")
      ([] ++ Sample.box "a  b" [.real 0.0] :: Sample.driven)).functions.isOk = false := by
    decide +kernel
  rw [hf'] at hfails
  cases hfails

end Problem

end Collocation
