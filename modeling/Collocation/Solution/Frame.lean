import Collocation.Solution

/-!
Solutions as tables: a column of times, and one for every state, control and multiplier. A column
with the name of an earlier one takes its place.
-/

namespace Collocation

namespace Solution

variable {α : Type} [Scalar α]

/-- A table with one more column, whose name has to be one that values are found under. -/
def putColumn (name : Value α) (xs : List α) (table : Table α (List α)) :
    Outcome α (Table α (List α)) := do
  name.checkKey
  return Table.put name xs table

/-- A table with a column for each name, taken from rows. -/
def putColumns (rows : List (List α)) (index : Nat) :
    List (Value α) → Table α (List α) → Outcome α (Table α (List α))
  | [], table => .ok table
  | name :: names, table => do
    putColumns rows (index + 1) names (← putColumn name (column rows index) table)

/-- Values at some places of a column of `size` entries; the others are "not a number". -/
def scatter (size : Nat) (places : List Nat) (xs : List α) : List α :=
  (places.zip xs).foldl (fun acc p => acc.set p.1 p.2) (List.replicate size Scalar.nan)

def putMultipliers (s : Solution α) (index : Nat) :
    List (Value α) → Table α (List α) → Outcome α (Table α (List α))
  | [], table => .ok table
  | name :: names, table => do
    let selection ← s.multiplierPlaces
    let xs ← selection.spread (column s.multipliers index)
    let column := scatter s.numPoints selection.places xs
    s.putMultipliers (index + 1) names (← putColumn name column table)

/-- The table of a solution, with one row for each time. -/
def frame (s : Solution α) : Outcome α (Table α (List α)) := do
  let states ← putColumns s.states 0 s.names.states [(timeName, s.times)]
  let controls ← putColumns s.controls 0 s.names.controls states
  s.putMultipliers 0 s.names.multipliers controls

end Solution

end Collocation
