import Collocation.Scalar

/-!
Rectangular arrays of numbers of any rank: a shape, and the entries with the last axis running
fastest.
-/

namespace Collocation

structure Tensor (α : Type) where
  shape : List Nat
  entries : List α

namespace Tensor

variable {α : Type}

/-- How many entries of eight bytes can be counted by their bytes. -/
def countableEntries : Int := 0x1000000000000000

/-- How many items can be counted at all. -/
def countable : Int := 0x8000000000000000

def maxRank : Nat := 64

def rank (t : Tensor α) : Nat := t.shape.length

def size (t : Tensor α) : Nat := t.entries.length

def ofList (xs : List α) : Tensor α := ⟨[xs.length], xs⟩

def ofRows (rows : List (List α)) (width : Nat) : Tensor α := ⟨[rows.length, width], rows.flatten⟩

/-- Cuts a list into `height` rows of `width` entries. -/
def rowsOf (width : Nat) : Nat → List α → List (List α)
  | 0, _ => []
  | height + 1, xs => xs.take width :: rowsOf width height (xs.drop width)

/-- The entries that come first in all lists, then those that come second, and so on. -/
def interleave (lists : List (List α)) : List α :=
  (List.range (lists.head?.map (·.length) |>.getD 0)).flatMap fun j => lists.filterMap (·[j]?)

/-- The entries of an array of the given shape, with the first axis running fastest. -/
def reversedEntries : List Nat → List α → List α
  | [], xs => xs
  | n :: shape, xs =>
    interleave ((rowsOf (shape.foldl (· * ·) 1) n xs).map (reversedEntries shape))

/-- The array with its axes in the opposite order. -/
def transpose (t : Tensor α) : Tensor α := ⟨t.shape.reverse, reversedEntries t.shape t.entries⟩

def isFinite [Scalar α] (t : Tensor α) : Bool := t.entries.all Scalar.isFinite

@[simp] theorem length_rowsOf (width height : Nat) (xs : List α) :
    (rowsOf width height xs).length = height := by
  induction height generalizing xs with
  | zero => rfl
  | succ n ih => simp [rowsOf, ih]

/-- Rows hold entries of the list that they are cut from. -/
theorem mem_of_mem_rowsOf {width height : Nat} {xs row : List α} {x : α}
    (hrow : row ∈ rowsOf width height xs) (hx : x ∈ row) : x ∈ xs := by
  induction height generalizing xs with
  | zero => cases hrow
  | succ n ih =>
    rcases List.mem_cons.mp hrow with rfl | hrow
    · exact List.mem_of_mem_take hx
    · exact List.mem_of_mem_drop (ih hrow)

/-- Rows of one width are what their entries are cut into. -/
theorem rowsOf_flatten {width : Nat} {rows : List (List α)} (h : ∀ r ∈ rows, r.length = width) :
    rowsOf width rows.length rows.flatten = rows := by
  induction rows with
  | nil => rfl
  | cons r rest ih =>
    have hr : r.length = width := h r (by simp)
    subst hr
    simp [rowsOf, ih fun s hs => h s (by simp [hs])]

end Tensor

end Collocation
