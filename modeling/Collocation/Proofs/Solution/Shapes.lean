import Collocation.Proofs.Values
import Collocation.Solution

/-! The arrays that a solution is made of.  Arrays for states, controls and multipliers are cut into
rows anew, and only the number of their entries is checked: an array of the right shape is kept as
it is, one of another shape with as many entries is rearranged. -/

namespace Collocation

variable {α : Type}

/-- A two-dimensional array: its rows, all of one width. -/
structure Grid (α : Type) where
  rows : List (List α)
  width : Nat
  rectangular : ∀ row ∈ rows, row.length = width

namespace Grid

def entries (g : Grid α) : List α := g.rows.flatten

def tensor (g : Grid α) : Tensor α := .ofRows g.rows g.width

theorem length_entries (g : Grid α) : g.entries.length = g.rows.length * g.width := by
  have hlengths : g.rows.map List.length = List.replicate g.rows.length g.width :=
    List.eq_replicate_iff.mpr ⟨List.length_map .., by simpa using g.rectangular⟩
  rw [entries, List.length_flatten, hlengths, List.sum_replicate_nat]

end Grid

/-- The entry in row `k` and column `i` of rows. -/
def entryAt (rows : List (List α)) (k i : Nat) : Option α := rows[k]? >>= (·[i]?)

/-- In rows that are cut from a list, the entries stand in its order. -/
theorem entryAt_rowsOf {width height k i : Nat} (xs : List α) (hk : k < height) (hi : i < width) :
    entryAt (Tensor.rowsOf width height xs) k i = xs[k * width + i]? := by
  induction height generalizing k xs with
  | zero => omega
  | succ height ih =>
    cases k with
    | zero =>
      show (xs.take width)[i]? = _
      rw [List.getElem?_take_of_lt hi, Nat.zero_mul, Nat.zero_add]
    | succ k =>
      show entryAt (Tensor.rowsOf width height (xs.drop width)) k i = _
      rw [ih (xs.drop width) (by omega), List.getElem?_drop]
      congr 1
      ring

namespace SolutionRequest

/-- The arrays with a row for each time or for each index. -/
inductive Block where
  | states
  | controls
  | multipliers
  deriving DecidableEq

namespace Block

def given (r : SolutionRequest α) : Block → Value α
  | states => r.states
  | controls => r.controls
  | multipliers => r.multipliers

def names (r : SolutionRequest α) : Block → Value α
  | states => r.stateNames
  | controls => r.controlNames
  | multipliers => r.multiplierNames

/-- The number of rows: one for each time, or one for each index of the multipliers. -/
def height (r : SolutionRequest α) (points : Nat) : Block → Nat
  | states => points
  | controls => points
  | multipliers => r.multiplierIndices.length

def replace (v : Value α) (r : SolutionRequest α) : Block → SolutionRequest α
  | states => { r with states := v }
  | controls => { r with controls := v }
  | multipliers => { r with multipliers := v }

/-- The rows that a solution shows. -/
def shown (s : Solution α) : Block → List (List α)
  | states => s.states
  | controls => s.controls
  | multipliers => s.multipliers

def put (rows : List (List α)) (s : Solution α) : Block → Solution α
  | states => { s with states := rows }
  | controls => { s with controls := rows }
  | multipliers => { s with multipliers := rows }

end Block

variable [Scalar α]

theorem fillRows_eq {v names : Value α} {g : Grid α} (height : Nat) {width : Nat}
    (hv : v.toTensor = .ok g.tensor) (hn : names.toLength = .ok width) :
    fillRows v height names =
      if g.entries.length = height * width then .ok (Tensor.rowsOf width height g.entries)
      else .error (.reading (.reshape g.entries.length [height, width])) := by
  have hsize : ([height, width] : List Nat).foldl (· * ·) 1 = height * width := by simp
  rw [fillRows, hn]
  show (fill v [height, width] >>= fun xs => pure (Tensor.rowsOf width height xs)) = _
  rw [fill, hv]
  show ((if g.entries.length = _ then _ else _) >>= _) = _
  rw [hsize]
  split_ifs <;> rfl

variable {r : SolutionRequest α} {points : Nat} {times : List α} {arrays : Block → Grid α}
  {count : Block → Nat}

/-- A block of the wrong number of entries is refused. -/
theorem raises_of_count (hpoints : r.times.toLength = .ok points)
    (htimes : fill r.times [points] = .ok times)
    (harrays : ∀ b : Block, (b.given r).toTensor = .ok (arrays b).tensor)
    (hnames : ∀ b : Block, (b.names r).toLength = .ok (count b)) {b : Block}
    (hb : (arrays b).entries.length ≠ b.height r points * count b) :
    Raises r.toSolution .value := by
  have hstates := fillRows_eq points (harrays .states) (hnames .states)
  have hcontrols := fillRows_eq points (harrays .controls) (hnames .controls)
  have hmultipliers := fillRows_eq r.multiplierIndices.length (harrays .multipliers)
    (hnames .multipliers)
  simp only [Block.given, Block.names] at hstates hcontrols hmultipliers
  rw [toSolution, hpoints]
  show Raises (fill r.times [points] >>= fun times => _) _
  rw [htimes]
  show Raises (fillRows r.states points r.stateNames >>= fun states => _) _
  rw [hstates]
  split_ifs with hs
  · show Raises (fillRows r.controls points r.controlNames >>= fun controls => _) _
    rw [hcontrols]
    split_ifs with hc
    · show Raises (fillRows r.multipliers r.multiplierIndices.length r.multiplierNames >>=
        fun multipliers => _) _
      rw [hmultipliers]
      split_ifs with hm
      · cases b with
        | states => exact absurd hs hb
        | controls => exact absurd hc hb
        | multipliers => exact absurd hm hb
      · exact ⟨_, rfl, rfl⟩
    · exact ⟨_, rfl, rfl⟩
  · exact ⟨_, rfl, rfl⟩

/-- A solution is what its fields are read as. -/
structure Built (r : SolutionRequest α) (points : Nat) (s : Solution α) : Prop where
  times : fill r.times [points] = .ok s.times
  states : fillRows r.states points r.stateNames = .ok s.states
  controls : fillRows r.controls points r.controlNames = .ok s.controls
  multipliers : fillRows r.multipliers r.multiplierIndices.length r.multiplierNames =
    .ok s.multipliers
  parameters : ∃ n, r.parameterNames.toLength = .ok n ∧ fill r.parameters [n] = .ok s.parameters
  meshPoints : fill r.meshPoints [points] = .ok s.meshPoints
  initialTime : r.initialTime.toScalar = .ok s.initialTime
  finalTime : r.finalTime.toScalar = .ok s.finalTime
  objective : r.objective.toScalar = .ok s.objective
  iterations : r.iterations.toWhole = .ok s.iterations
  stateNames : r.stateNames.toItems = .ok s.names.states
  controlNames : r.controlNames.toItems = .ok s.names.controls
  multiplierNames : r.multiplierNames.toItems = .ok s.names.multipliers
  parameterNames : r.parameterNames.toItems = .ok s.names.parameters
  multiplierIndices : r.multiplierIndices = s.multiplierIndices
  breakdown : r.breakdown = s.breakdown
  status : r.status = s.status
  message : r.message = s.message
  scheme : r.scheme = s.scheme
  statistics : r.statistics = s.statistics

theorem toSolution_eq_ok_iff {s : Solution α} :
    r.toSolution = .ok s ↔ ∃ points, r.times.toLength = .ok points ∧ r.Built points s := by
  simp only [toSolution, Except.bind_eq_ok, Except.pure_eq_ok]
  constructor
  · rintro ⟨points, hpoints, times, htimes, states, hstates, controls, hcontrols, multipliers,
      hmultipliers, n, hn, parameters, hparameters, meshPoints, hmesh, initial, hinitial, final,
      hfinal, objective, hobjective, iterations, hiterations, xs, hxs, us, hus, ms, hms, ps, hps,
      rfl⟩
    exact ⟨points, hpoints, htimes, hstates, hcontrols, hmultipliers, ⟨n, hn, hparameters⟩, hmesh,
      hinitial, hfinal, hobjective, hiterations, hxs, hus, hms, hps, rfl, rfl, rfl, rfl, rfl, rfl⟩
  · rintro ⟨points, hpoints, h⟩
    obtain ⟨n, hn, hparameters⟩ := h.parameters
    refine ⟨points, hpoints, _, h.times, _, h.states, _, h.controls, _, h.multipliers, n, hn, _,
      hparameters, _, h.meshPoints, _, h.initialTime, _, h.finalTime, _, h.objective, _,
      h.iterations, _, h.stateNames, _, h.controlNames, _, h.multiplierNames, _,
      h.parameterNames, ?_⟩
    rw [h.multiplierIndices, h.breakdown, h.status, h.message, h.scheme, h.statistics]

theorem Built.block {s : Solution α} (h : r.Built points s) (b : Block) :
    fillRows (b.given r) (b.height r points) (b.names r) = .ok (b.shown s) := by
  cases b with
  | states => exact h.states
  | controls => exact h.controls
  | multipliers => exact h.multipliers

/-- The blocks of a solution are read independently of each other and of the other fields. -/
theorem Built.replace {s : Solution α} (h : r.Built points s) (b : Block) {v : Value α}
    {rows : List (List α)} (hv : fillRows v (b.height r points) (b.names r) = .ok rows) :
    (b.replace v r).Built points (b.put rows s) := by
  cases b with
  | states => exact { h with states := hv }
  | controls => exact { h with controls := hv }
  | multipliers => exact { h with multipliers := hv }

theorem exists_built (hpoints : r.times.toLength = .ok points) {s : Solution α}
    (hs : r.toSolution = .ok s) : r.Built points s := by
  obtain ⟨n, hn, h⟩ := toSolution_eq_ok_iff.mp hs
  obtain rfl := Except.ok.inj (hpoints.symm.trans hn)
  exact h

/-- What is shown of a block are its entries in rows of a column for each name. -/
theorem shown_eq (hpoints : r.times.toLength = .ok points)
    (harrays : ∀ b : Block, (b.given r).toTensor = .ok (arrays b).tensor)
    (hnames : ∀ b : Block, (b.names r).toLength = .ok (count b)) {s : Solution α}
    (hs : r.toSolution = .ok s) (b : Block) :
    (arrays b).entries.length = b.height r points * count b ∧
      b.shown s = Tensor.rowsOf (count b) (b.height r points) (arrays b).entries := by
  have hfill := (exists_built hpoints hs).block b
  rw [fillRows_eq _ (harrays b) (hnames b)] at hfill
  split_ifs at hfill with hcount
  exact ⟨hcount, (Except.ok.inj hfill).symm⟩

/-- Another array with as many entries is accepted in the place of a block. -/
theorem toSolution_replace (hpoints : r.times.toLength = .ok points)
    (hnames : ∀ b : Block, (b.names r).toLength = .ok (count b)) {s : Solution α}
    (hs : r.toSolution = .ok s) (b : Block) {v : Value α} {g : Grid α}
    (hv : v.toTensor = .ok g.tensor) (hcount : g.entries.length = b.height r points * count b) :
    (b.replace v r).toSolution =
      .ok (b.put (Tensor.rowsOf (count b) (b.height r points) g.entries) s) := by
  have hfill := fillRows_eq (b.height r points) hv (hnames b)
  rw [if_pos hcount] at hfill
  have hpoints' : (b.replace v r).times.toLength = .ok points := by cases b <;> exact hpoints
  exact toSolution_eq_ok_iff.mpr ⟨points, hpoints', (exists_built hpoints hs).replace b hfill⟩

/-- A solution is built of arrays with the right numbers of entries, whatever their shapes. An array
with a wrong number of entries is refused; of one with the right number row `k` and column `i` show
the entry at `k * count + i`, which is its own row and column where the shape is the right one, and
any other array of as many entries is accepted in its place. -/
theorem shapes (hpoints : r.times.toLength = .ok points)
    (htimes : fill r.times [points] = .ok times)
    (harrays : ∀ b : Block, (b.given r).toTensor = .ok (arrays b).tensor)
    (hnames : ∀ b : Block, (b.names r).toLength = .ok (count b)) :
    (∀ b : Block, (arrays b).rows.length * (arrays b).width ≠ b.height r points * count b →
      Raises r.toSolution .value) ∧
    ∀ s, r.toSolution = .ok s → ∀ b : Block,
      (arrays b).rows.length * (arrays b).width = b.height r points * count b ∧
      (∀ k i, k < b.height r points → i < count b →
        entryAt (b.shown s) k i = (arrays b).entries[k * count b + i]?) ∧
      ((arrays b).rows.length = b.height r points ∧ (arrays b).width = count b →
        b.shown s = (arrays b).rows) ∧
      ∀ (v : Value α) (g : Grid α), v.toTensor = .ok g.tensor →
        g.rows.length * g.width = b.height r points * count b →
        (b.replace v r).toSolution =
          .ok (b.put (Tensor.rowsOf (count b) (b.height r points) g.entries) s) := by
  refine ⟨fun b hb => raises_of_count hpoints htimes harrays hnames (b := b) ?_, ?_⟩
  · rwa [Grid.length_entries]
  intro s hs b
  obtain ⟨hcount, hshown⟩ := shown_eq hpoints harrays hnames hs b
  refine ⟨(Grid.length_entries _).symm.trans hcount, ?_, ?_, ?_⟩
  · intro k i hk hi
    rw [hshown, entryAt_rowsOf _ hk hi]
  · rintro ⟨hheight, hwidth⟩
    rw [hshown, ← hheight, ← hwidth]
    exact Tensor.rowsOf_flatten (arrays b).rectangular
  · intro v g hv hg
    exact toSolution_replace hpoints hnames hs b hv ((Grid.length_entries g).trans hg)

namespace Sample

/-- Two rows of three entries. -/
def crosswise : Grid Extended := ⟨[[1.0, 2.0, 3.0], [4.0, 5.0, 6.0]], 3, by decide⟩

/-- Three rows of one entry. -/
def column : Grid Extended := ⟨[[0.0], [0.0], [0.0]], 1, by decide⟩

/-- One row of one entry. -/
def single : Grid Extended := ⟨[[7.0]], 1, by decide⟩

def grids : Block → Grid Extended
  | .states => crosswise
  | .controls => column
  | .multipliers => single

def widths : Block → Nat
  | .states => 2
  | .controls => 1
  | .multipliers => 1

/-- Two states at three times, given with a row for each state. -/
def request : SolutionRequest Extended where
  times := .ofRow [0.0, 1.0, 2.0]
  states := .ofRows crosswise.rows
  controls := .ofRows column.rows
  multipliers := .ofRows single.rows
  multiplierIndices := [.int 1]
  parameters := .list []
  meshPoints := .ofRow [0.0, 1.0, 2.0]
  initialTime := .real 0.0
  finalTime := .real 2.0
  objective := .real 0.0
  breakdown := []
  status := .converged
  iterations := .int 1
  message := .text "done"
  stateNames := .list [.text "x", .text "y"]
  controlNames := .list [.text "u"]
  multiplierNames := .list [.text "mu"]
  parameterNames := .list []
  scheme := .text "trapezoidal"

theorem toTensor_given (b : Block) : (b.given request).toTensor = .ok (grids b).tensor := by
  cases b with
  | states => exact Value.toTensor_ofRows (by decide) crosswise.rectangular
  | controls => exact Value.toTensor_ofRows (by decide) column.rectangular
  | multipliers => exact Value.toTensor_ofRows (by decide) single.rectangular

theorem length_names (b : Block) : (b.names request).toLength = .ok (widths b) := by
  cases b <;> rfl

end Sample

/-- Two states at three times that are given with a row for each state, are shown with a row for
each time: what was in the first row and the third column is in the second row and the first
column. -/
theorem shapes_sample : ∃ s, Sample.request.toSolution = .ok s ∧
    entryAt (Block.states.shown s) 1 0 = entryAt Sample.crosswise.rows 0 2 := by
  obtain ⟨s, hs⟩ := Except.exists_of_isOk (x := Sample.request.toSolution) (by decide +kernel)
  have hpoints : Sample.request.times.toLength = .ok 3 := rfl
  have htimes : fill Sample.request.times [3] = .ok [0.0, 1.0, 2.0] := rfl
  have hblock := (shapes hpoints htimes Sample.toTensor_given Sample.length_names).2 s hs .states
  exact ⟨s, hs, hblock.2.1 1 0 (by decide) (by decide)⟩

/-- An array of two rows and three columns is accepted as one of three rows and two columns, and its
entries are rearranged. -/
theorem rearranged : ∃ s, Sample.request.toSolution = .ok s ∧
    Block.states.given Sample.request = .ofRows [[1.0, 2.0, 3.0], [4.0, 5.0, 6.0]] ∧
    Block.states.shown s = [[1.0, 2.0], [3.0, 4.0], [5.0, 6.0]] := by
  obtain ⟨s, hs⟩ := Except.exists_of_isOk (x := Sample.request.toSolution) (by decide +kernel)
  have hpoints : Sample.request.times.toLength = .ok 3 := rfl
  exact ⟨s, hs, rfl, (shown_eq hpoints Sample.toTensor_given Sample.length_names hs .states).2⟩

end SolutionRequest

end Collocation
