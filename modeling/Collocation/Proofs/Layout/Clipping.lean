import Collocation.Proofs.Bounds
import Collocation.Proofs.Layout.Assembly
import Collocation.Proofs.Mesh.Spacing

/-! Moving into the bounds.  Between bounds that hold a number, a value ends up within them, and one
that is within them stays; "not a number" is neither moved nor produced. -/

namespace Collocation

variable {α : Type} [Scalar α]

namespace Bounds

/-- A value lies between the sides; "not a number" does not. -/
def Within (b : Bounds α) (x : α) : Prop := b.lower ≤ x ∧ x ≤ b.upper

theorem Within.ne_nan [Rounding α] {b : Bounds α} {x : α} (h : b.Within x) :
    Scalar.exact x ≠ .nan := by
  intro hnan
  have hle := (Rounding.le_iff _ _).mp h.1
  rw [hnan] at hle
  exact Extended.not_le_nan _ hle

end Bounds

namespace Layout

/-- An entry of a vector is not a number. -/
def NaNAt (w : List α) (i : Nat) : Prop := ∃ x, w[i]? = some x ∧ Scalar.isNaN x

theorem nanAt_iff {w : List α} {i : Nat} {x : α} (h : w[i]? = some x) :
    NaNAt w i ↔ Scalar.isNaN x := by
  rw [NaNAt, h]
  simp

/-- A row moved into the bounds at a range. -/
def clipRow (l : Layout α) (r : Range) (row : List α) : List α :=
  (r.of (l.slots.map (·.bounds))).zipWith clipEntry row

theorem of_clip (l : Layout α) (r : Range) (w : List α) :
    r.of (l.clip w) = l.clipRow r (r.of w) := by
  rw [clip, clipRow, Range.of, Range.of, Range.of, ← List.zipWith_map_left, List.drop_zipWith,
    List.take_zipWith]

section Entry

variable {b : Bounds α} {x : α}

theorem clipEntry_of_isNaN (b : Bounds α) (hx : Scalar.isNaN x = true) : clipEntry b x = x :=
  if_pos hx

variable [Differences α]

theorem clipEntry_of_ne_nan (hx : Scalar.exact x ≠ .nan) :
    clipEntry b x = Scalar.smaller (Scalar.larger x b.lower) b.upper :=
  if_neg (mt Rounding.isNaN_iff.mp hx)

theorem clipEntry_within (hb : b.exact.Proper) (hx : Scalar.exact x ≠ .nan) :
    b.Within (clipEntry b x) := by
  obtain ⟨⟨hlower, hupper, -⟩, -, -⟩ := Bounds.proper_iff.mp hb
  -- First the lower bound is enforced, then the upper one, which is not below it.
  obtain ⟨y, hy, hbelow, hne⟩ : ∃ y, Scalar.larger x b.lower = y ∧ b.lower ≤ y ∧
      Scalar.exact y ≠ .nan := by
    unfold Scalar.larger
    split_ifs with hlt
    · exact ⟨_, rfl, (Rounding.le_iff _ _).mpr (Extended.le_refl hlower), hlower⟩
    · exact ⟨_, rfl, Differences.le_of_not_lt hlower hx hlt, hx⟩
  rw [clipEntry_of_ne_nan hx, hy, Scalar.smaller]
  split_ifs with hlt
  · exact ⟨(Rounding.le_iff _ _).mpr hb.ordered,
      (Rounding.le_iff _ _).mpr (Extended.le_refl hupper)⟩
  · exact ⟨hbelow, Differences.le_of_not_lt hne hupper hlt⟩

theorem isNaN_clipEntry (hb : b.exact.Proper) (x : α) :
    Scalar.isNaN (clipEntry b x) = Scalar.isNaN x := by
  cases hx : Scalar.isNaN x with
  | true => rw [clipEntry_of_isNaN b hx, hx]
  | false =>
    have hne : Scalar.exact x ≠ .nan := by rw [ne_eq, ← Rounding.isNaN_iff, hx]; exact nofun
    have hwithin := (clipEntry_within hb hne).ne_nan
    rwa [ne_eq, ← Rounding.isNaN_iff, Bool.not_eq_true] at hwithin

theorem clipEntry_of_within (h : b.Within x) : clipEntry b x = x := by
  rw [clipEntry_of_ne_nan h.ne_nan, Scalar.larger, if_neg (Differences.not_lt_of_le h.1),
    Scalar.smaller, if_neg (Differences.not_lt_of_le h.2)]

end Entry

variable {l : Layout α} {v : List α} {i : Nat}

theorem getElem?_clip {s : Slot α} {x : α} (hs : l.slots[i]? = some s)
    (hx : v[i]? = some x) : (l.clip v)[i]? = some (clipEntry s.bounds x) := by
  rw [clip, List.getElem?_zipWith, hs, hx]

/-- Each entry is moved by itself. -/
theorem getElem?_clip_congr {u : List α} (h : v[i]? = u[i]?) :
    (l.clip v)[i]? = (l.clip u)[i]? := by
  rw [clip, clip, List.getElem?_zipWith, List.getElem?_zipWith, h]

/-- Where a vector is that of another one within the bounds, it stays so. -/
theorem of_clip_eq {u : List α} {r : Range} (hu : l.clip u = u) (h : r.of v = r.of u) :
    r.of (l.clip v) = r.of u := by
  rw [of_clip, h, ← of_clip, hu]

theorem length_clip (hv : v.length = l.size) : (l.clip v).length = l.size := by
  rw [clip, List.length_zipWith, hv, size, Nat.min_self]

section Bounded

variable [Differences α]

/-- Entries that are not numbers stay where they are. -/
theorem clip_nanAt_iff (hl : ∀ s ∈ l.slots, s.bounds.exact.Proper) (hv : v.length = l.size) :
    NaNAt (l.clip v) i ↔ NaNAt v i := by
  by_cases hi : i < l.slots.length
  · have hs : l.slots[i]? = some l.slots[i] := List.getElem?_eq_getElem hi
    have hlt : i < v.length := hv ▸ hi
    have hx : v[i]? = some v[i] := List.getElem?_eq_getElem hlt
    rw [nanAt_iff (getElem?_clip hs hx), nanAt_iff hx,
      isNaN_clipEntry (hl _ (List.getElem_mem hi))]
  · have hsize : l.size ≤ i := not_lt.mp hi
    rw [NaNAt, NaNAt, List.getElem?_eq_none (by rwa [length_clip hv]),
      List.getElem?_eq_none (by rwa [hv])]

/-- An entry is within its bounds unless it is not a number. -/
theorem clip_within (hl : ∀ s ∈ l.slots, s.bounds.exact.Proper) (hv : v.length = l.size)
    {s : Slot α} (hs : l.slots[i]? = some s) :
    ∃ x, (l.clip v)[i]? = some x ∧ (Scalar.isNaN x = true ∨ s.bounds.Within x) := by
  have hi : i < v.length := by
    rw [hv]
    exact (List.getElem?_eq_some_iff.mp hs).1
  refine ⟨_, getElem?_clip hs (List.getElem?_eq_getElem hi), ?_⟩
  by_cases hx : Scalar.isNaN v[i] = true
  · rw [clipEntry_of_isNaN _ hx]
    exact .inl hx
  · exact .inr (clipEntry_within (hl s (List.mem_of_getElem? hs)) (mt Rounding.isNaN_iff.mpr hx))

/-- A vector within the bounds stays as it is. -/
theorem clip_of_within (hv : v.length = l.size)
    (h : ∀ (i : Nat) s, l.slots[i]? = some s → ∃ x, v[i]? = some x ∧ s.bounds.Within x) :
    l.clip v = v := by
  refine List.ext_getElem? fun i => ?_
  by_cases hi : i < l.slots.length
  · have hs : l.slots[i]? = some l.slots[i] := List.getElem?_eq_getElem hi
    obtain ⟨x, hx, hwithin⟩ := h i _ hs
    rw [getElem?_clip hs hx, hx, clipEntry_of_within hwithin]
  · have hsize : l.size ≤ i := not_lt.mp hi
    rw [List.getElem?_eq_none (by rwa [length_clip hv]), List.getElem?_eq_none (by rwa [hv])]

end Bounded

end Layout

end Collocation
