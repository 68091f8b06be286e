import Collocation.Scalar

/-!
Piecewise linear interpolation of samples, constant before the first and after the last one. The
interval of a query is searched for near that of the query before it. Times that increase have one
such interval, so there the search does not show.
-/

namespace Collocation.Interpolation

variable {α : Type} [Scalar α]

/-- A sample: where it was taken, and its value. -/
structure Sample (α : Type) where
  time : α
  value : α

inductive Place where
  | before
  | behind
  | on (index : Nat)
  deriving DecidableEq

namespace Place

def hint (size : Nat) : Place → Nat
  | before => 0
  | behind => size
  | on index => index

def behindFirst : Nat → Place
  | 0 => before
  | n + 1 => on n

end Place

def entry (times : Array α) (i : Nat) : α := times[i]?.getD 0.0

/-- How many samples are at hand around the place where a search begins. -/
def nearby : Nat := 8

/-- The number of samples that are compared one by one. -/
def fewSamples : Nat := 4

/-- The first position from `i` on, of `count` ones, whose time lies behind `x`. -/
def walk (times : Array α) (x : α) (i : Nat) : Nat → Nat
  | 0 => i
  | count + 1 => if entry times i ≤ x then walk times x (i + 1) count else i

/-- The first position between two whose time lies behind `x`, by halving. -/
def bisect (times : Array α) (x : α) (low high : Nat) : Nat :=
  if low < high then
    let middle := low + (high - low) / 2
    if entry times middle ≤ x then bisect times x (middle + 1) high
    else bisect times x low middle
  else low
termination_by high - low

/-- Searches around a position, and by halving on that side of it on which `x` lies. -/
def searchFrom (times : Array α) (x : α) (i : Nat) : Place :=
  if x < entry times i then
    if x < entry times (i - 1) then
      let low := if nearby < i && decide (entry times (i - nearby) ≤ x) then i - nearby else 0
      .behindFirst (bisect times x low (i - 1))
    else .on (i - 1)
  else if x < entry times (i + 1) then .on i
  else if x < entry times (i + 2) then .on (i + 1)
  else
    let high :=
      if i + nearby + 1 < times.size && decide (x < entry times (i + nearby)) then i + nearby
      else times.size
    .behindFirst (bisect times x (i + 2) high)

/-- Where `x` lies among the times of at least two samples. -/
def locate (times : Array α) (x : α) (hint : Nat) : Place :=
  let size := times.size
  if entry times (size - 1) < x then .behind
  else if x < entry times 0 then .before
  else if size ≤ fewSamples then .behindFirst (walk times x 1 (size - 1))
  else searchFrom times x (max 1 (min hint (size - 3)))

/-- The line through two samples. Where it is no number, the line is drawn from the other sample,
and a level line has its value. -/
def onLine (a b : Sample α) (x : α) : α :=
  let slope := (b.value - a.value) / (b.time - a.time)
  let y := slope * (x - a.time) + a.value
  if Scalar.isNaN y then
    let z := slope * (x - b.time) + b.value
    if Scalar.isNaN z && Scalar.eq a.value b.value then a.value else z
  else y

/-- Samples with their times and values side by side. -/
structure Samples (α : Type) where
  times : Array α
  values : Array α

namespace Samples

def ofList (samples : List (Sample α)) : Samples α :=
  ⟨(samples.map (·.time)).toArray, (samples.map (·.value)).toArray⟩

def size (s : Samples α) : Nat := s.times.size

def sample (s : Samples α) (i : Nat) : Sample α := ⟨entry s.times i, entry s.values i⟩

def valueAt (s : Samples α) (x : α) : Place → α
  | .before => entry s.values 0
  | .behind => entry s.values (s.size - 1)
  | .on i =>
    let a := s.sample i
    if i + 1 = s.size || Scalar.eq a.time x then a.value else onLine a (s.sample (i + 1)) x

/-- The values of queries, where the search for the first one begins at the hint. -/
def evalFrom (s : Samples α) (hint : Nat) : List α → List α
  | [] => []
  | x :: queries =>
    if Scalar.isNaN x then x :: evalFrom s hint queries
    else
      let place := locate s.times x hint
      s.valueAt x place :: evalFrom s (place.hint s.size) queries

def eval (s : Samples α) (queries : List α) : List α :=
  if s.size ≤ 1 then queries.map fun _ => entry s.values 0 else s.evalFrom 0 queries

@[simp] theorem length_evalFrom (s : Samples α) (hint : Nat) (queries : List α) :
    (s.evalFrom hint queries).length = queries.length := by
  induction queries generalizing hint with
  | nil => rfl
  | cons x rest ih => by_cases h : Scalar.isNaN x = true <;> simp [evalFrom, h, ih]

@[simp] theorem length_eval (s : Samples α) (queries : List α) :
    (s.eval queries).length = queries.length := by
  by_cases h : s.size ≤ 1 <;> simp [eval, h]

end Samples

/-- Column `j` of rows that were sampled at the given times. -/
def columnSamples (times : List α) (rows : List (List α)) (j : Nat) : Samples α :=
  Samples.ofList (times.zipWith (fun t row => ⟨t, row[j]?.getD 0.0⟩) rows)

/-- Rows of `width` columns, each column interpolated at all queries. -/
def columns (times : List α) (rows : List (List α)) (width : Nat) (queries : List α) :
    List (List α) :=
  (List.range width).map fun j => (columnSamples times rows j).eval queries

def resample (times : List α) (rows : List (List α)) (width : Nat) (queries : List α) :
    List (List α) :=
  let columns := columns times rows width queries
  (List.range queries.length).map fun i => columns.map fun column => column[i]?.getD 0.0

end Collocation.Interpolation
