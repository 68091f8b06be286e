import Collocation.Value

/-!
Tables: entries under values, in the order in which the values were first used. Equal values share
one entry.
-/

namespace Collocation

abbrev Table (α γ : Type) := List (Value α × γ)

namespace Table

variable {α γ : Type} [Scalar α]

/-- A table with the given entry: under a known value in the place of the old entry, otherwise
behind all others. -/
def put (key : Value α) (x : γ) : Table α γ → Table α γ
  | [] => [(key, x)]
  | (k, old) :: rest => if k.same key then (k, x) :: rest else (k, old) :: put key x rest

/-- The entries of one table put into another in order. -/
def merge (t added : Table α γ) : Table α γ := added.foldl (fun acc e => put e.1 e.2 acc) t

def find? (key : Value α) (t : Table α γ) : Option γ :=
  (List.find? (fun e => e.1.same key) t).map (·.2)

def named? (name : String) (t : Table α γ) : Option γ := find? (.text name) t

/-- Under a value that equals itself stands what was put there last. -/
theorem find?_put_self {key : Value α} (h : key.same key = true) (x : γ) (t : Table α γ) :
    find? key (put key x t) = some x := by
  induction t with
  | nil => simp [put, find?, h]
  | cons e rest ih =>
    obtain ⟨k, old⟩ := e
    by_cases hk : k.same key = true
    · simp [put, find?, hk]
    · simpa [put, find?, hk] using ih

/-- A text equals itself, so it finds what was put under it. -/
@[simp] theorem named?_put_self (name : String) (x : γ) (t : Table α γ) :
    named? name (put (.text name) x t) = some x :=
  find?_put_self (by simp [Value.same]) x t

/-- A text finds what it found before something was put under another one. -/
theorem named?_put_of_ne {name other : String} (h : name ≠ other) (x : γ) (t : Table α γ) :
    named? name (put (.text other) x t) = named? name t := by
  have hkey {k : Value α} (hk : k.same (.text other) = true) : k.same (.text name) = false := by
    cases k <;> simp [Value.same] at hk ⊢
    exact hk ▸ Ne.symm h
  induction t with
  | nil => simp [put, named?, find?, Value.same, Ne.symm h]
  | cons e rest ih =>
    obtain ⟨k, old⟩ := e
    unfold named? find? at ih ⊢
    by_cases hk : k.same (.text other) = true
    · simp [put, hk, hkey hk]
    · by_cases hname : k.same (.text name) = true
      · simp [put, hk, hname]
      · simpa [put, hk, hname] using ih

end Table

end Collocation
