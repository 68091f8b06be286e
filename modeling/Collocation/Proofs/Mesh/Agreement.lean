import Collocation.Proofs.Mesh.Construction
import Mathlib.Data.Rat.Floor

/-! Which meshes count as equal, and which have one key in tables.  Having one key is an
equivalence, and meshes with one key are equal.  Equality itself allows for a difference that is far
larger than what the keys round off, and that is relative to the second mesh, so equal meshes need
not have one key, and equality holds the other way round, and passes on to a third mesh, only up to
the tolerance. -/

namespace Collocation

namespace Mesh

open Extended

theorem all_zipWith_iff {β γ : Type} {test : β → γ → Bool} {xs : List β} {ys : List γ} :
    (xs.zipWith test ys).all id = true ↔
      ∀ (k : ℕ) x y, xs[k]? = some x → ys[k]? = some y → test x y = true := by
  rw [List.all_eq_true]
  constructor
  · intro h k x y hx hy
    refine h _ (List.mem_of_getElem? (i := k) ?_)
    rw [List.getElem?_zipWith, hx, hy]
  · intro h b hb
    obtain ⟨k, hk⟩ := List.mem_iff_getElem?.mp hb
    rw [List.getElem?_zipWith_eq_some] at hk
    obtain ⟨x, y, hx, hy, rfl⟩ := hk
    exact h k x y hx hy

/-- The points of a mesh are numbers between zero and one. -/
def Between (m : Mesh Extended) : Prop :=
  ∀ (k : ℕ) x, m.points[k]? = some x → ∃ p, x = finite p ∧ 0 ≤ p ∧ p ≤ 1

/-- Two meshes have as many points, and those in one place are related. -/
structure Pointwise (R : ℚ → ℚ → Prop) (a b : Mesh Extended) : Prop where
  count : a.numPoints = b.numPoints
  related : ∀ (k : ℕ) p q, a.points[k]? = some (finite p) → b.points[k]? = some (finite q) → R p q

/-- The points of two meshes in one place are no further apart than `e`. -/
def Within (e : ℚ) : Mesh Extended → Mesh Extended → Prop := Pointwise fun p q => |p - q| ≤ e

section Pointwise

variable {R S T : ℚ → ℚ → Prop} {a b c : Mesh Extended}

theorem Grid.between {ps : List ℚ} (h : a.Grid ps) : a.Between := by
  intro k x hx
  obtain ⟨inner, rfl⟩ := h.exists_inner
  have hincreasing := h.increasing
  have hmem := List.mem_of_getElem? hx
  rw [h.points] at hmem
  obtain ⟨p, hp, rfl⟩ := List.mem_map.mp hmem
  refine ⟨p, rfl, ?_, ?_⟩
  · rcases List.mem_cons.mp hp with rfl | hp
    · exact le_rfl
    · exact (List.rel_of_pairwise_cons hincreasing hp).le
  · rcases List.mem_append.mp hp with hp | hp
    · exact ((List.pairwise_append.mp hincreasing).2.2 p hp 1 (by simp)).le
    · exact (List.mem_singleton.mp hp).le

theorem Between.pointwise_iff {test : Extended → Extended → Bool} (ha : a.Between)
    (hb : b.Between) (htest : ∀ p q, test (finite p) (finite q) = true ↔ R p q) :
    (a.numPoints == b.numPoints && (a.points.zipWith test b.points).all id) = true ↔
      Pointwise R a b := by
  rw [Bool.and_eq_true, beq_iff_eq, all_zipWith_iff]
  constructor
  · rintro ⟨hcount, hall⟩
    exact ⟨hcount, fun k p q hp hq => (htest p q).mp (hall k _ _ hp hq)⟩
  · rintro ⟨hcount, hrelated⟩
    refine ⟨hcount, fun k x y hx hy => ?_⟩
    obtain ⟨p, rfl, -⟩ := ha k x hx
    obtain ⟨q, rfl, -⟩ := hb k y hy
    exact (htest p q).mpr (hrelated k p q hx hy)

theorem Pointwise.refl (h : ∀ p, R p p) : Pointwise R a a := by
  refine ⟨rfl, fun k p q hp hq => ?_⟩
  obtain rfl : p = q := by simpa [hp] using hq
  exact h p

theorem Pointwise.symm (h : Pointwise R a b) (hRS : ∀ {p q}, R p q → S q p) : Pointwise S b a :=
  ⟨h.count.symm, fun k p q hp hq => hRS (h.related k q p hq hp)⟩

theorem Pointwise.imp (h : Pointwise R a b) (ha : a.Between) (hb : b.Between)
    (hRS : ∀ {p q}, 0 ≤ p → p ≤ 1 → 0 ≤ q → q ≤ 1 → R p q → S p q) : Pointwise S a b := by
  refine ⟨h.count, fun k p q hp hq => ?_⟩
  obtain ⟨p', ⟨⟩, hp0, hp1⟩ := ha k _ hp
  obtain ⟨q', ⟨⟩, hq0, hq1⟩ := hb k _ hq
  exact hRS hp0 hp1 hq0 hq1 (h.related k p q hp hq)

theorem Pointwise.trans (hab : Pointwise R a b) (hbc : Pointwise S b c) (hb : b.Between)
    (h : ∀ {p q r}, R p q → S q r → T p r) : Pointwise T a c := by
  refine ⟨hab.count.trans hbc.count, fun k p r hp hr => ?_⟩
  have hk : k < b.points.length := by
    have hin := (List.getElem?_eq_some_iff.mp hp).1
    exact lt_of_lt_of_eq hin hab.count
  obtain ⟨q, hq, -⟩ := hb k _ (List.getElem?_eq_getElem hk)
  have hpoint : b.points[k]? = some (finite q) := by rw [List.getElem?_eq_getElem hk, hq]
  exact h (hab.related k p q hp hpoint) (hbc.related k q r hpoint hr)

end Pointwise

section Rounding

/-- The nearest whole number is no further away than a half. -/
theorem abs_roundEven_sub (q : ℚ) : |(Decimal.roundEven q : ℚ) - q| ≤ 1 / 2 := by
  have hlow := Rat.floor_le q
  have hhigh := Rat.lt_floor_add_one q
  push_cast at hhigh
  unfold Decimal.roundEven
  rw [abs_le]
  dsimp only
  split_ifs <;> push_cast <;> constructor <;> linarith

/-- A rational rounded to twelve decimals. -/
def roundedTwelve (q : ℚ) : ℚ := Decimal.roundEven (q * 1e12) / 1e12

theorem roundTwelve_finite (q : ℚ) : roundTwelve (finite q) = finite (roundedTwelve q) := by
  show Scalar.ofInt (Decimal.roundEven (q * 1e12)) / finite 1e12 = _
  rw [ofInt_finite, finite_div (by norm_num), roundedTwelve]

theorem abs_roundedTwelve_sub (q : ℚ) : |roundedTwelve q - q| ≤ 5e-13 := by
  have hround := abs_roundEven_sub (q * 1e12)
  have hscaled : roundedTwelve q - q = (Decimal.roundEven (q * 1e12) - q * 1e12) / 1e12 := by
    rw [roundedTwelve, sub_div, mul_div_cancel_right₀ q (by norm_num)]
  calc |roundedTwelve q - q|
      = |(Decimal.roundEven (q * 1e12) : ℚ) - q * 1e12| / 1e12 := by
        rw [hscaled, abs_div, abs_of_pos (show (0 : ℚ) < 1e12 by norm_num)]
    _ ≤ 1 / 2 / 1e12 := div_le_div_of_nonneg_right hround (by norm_num)
    _ = 5e-13 := by norm_num

/-- What is rounded to one number lies within the last decimal. -/
theorem abs_sub_of_roundedTwelve {p q : ℚ} (h : roundedTwelve p = roundedTwelve q) :
    |p - q| ≤ 1e-12 := by
  have hp := abs_le.mp (abs_roundedTwelve_sub p)
  have hq := abs_le.mp (abs_roundedTwelve_sub q)
  rw [h] at hp
  rw [abs_le]
  norm_num at hp hq ⊢
  constructor <;> linarith

end Rounding

section Equality

variable {a b c : Mesh Extended}

theorem close_finite {p q : ℚ} :
    close (finite p) (finite q) = true ↔ |p - q| ≤ 1e-8 + 1e-5 * |q| := by
  have htolerance : (1e-8 : Extended) + 1e-5 * finite |q| = finite (1e-8 + 1e-5 * |q|) := rfl
  rw [close, decide_eq_true_iff, finite_sub, abs_finite, abs_finite, htolerance, finite_le_finite,
    sub_eq_add_neg]

theorem Between.agrees_iff (ha : a.Between) (hb : b.Between) :
    a.agrees b = true ↔ Pointwise (fun p q => |p - q| ≤ 1e-8 + 1e-5 * |q|) a b :=
  ha.pointwise_iff hb fun _ _ => close_finite

theorem Between.sameKey_iff (ha : a.Between) (hb : b.Between) :
    a.sameKey b = true ↔ Pointwise (fun p q => roundedTwelve p = roundedTwelve q) a b := by
  rw [sameKey, key, key, List.zipWith_map]
  exact ha.pointwise_iff hb fun p q => by
    rw [roundTwelve_finite, roundTwelve_finite, eq_finite_iff]

theorem Between.key_iff (ha : a.Between) (hb : b.Between) :
    a.key = b.key ↔ Pointwise (fun p q => roundedTwelve p = roundedTwelve q) a b := by
  constructor
  · intro hkey
    refine ⟨by simpa [key, numPoints] using congrArg List.length hkey, fun k p q hp hq => ?_⟩
    have hround := congrArg (·[k]?) hkey
    simp only [key, List.getElem?_map, hp, hq, Option.map_some, roundTwelve_finite] at hround
    exact finite.inj (Option.some.inj hround)
  · intro h
    refine List.ext_getElem (by simpa [key, numPoints] using h.count) fun k hk hk' => ?_
    simp only [key, List.length_map] at hk hk'
    obtain ⟨p, hp, -⟩ := ha k _ (List.getElem?_eq_getElem hk)
    obtain ⟨q, hq, -⟩ := hb k _ (List.getElem?_eq_getElem hk')
    have hround := h.related k p q (by rw [List.getElem?_eq_getElem hk, hp])
      (by rw [List.getElem?_eq_getElem hk', hq])
    simp only [key, List.getElem_map, hp, hq, roundTwelve_finite, hround]

/-- Meshes that are close up to the absolute part of the tolerance are equal. -/
theorem Between.agrees_of_within (ha : a.Between) (hb : b.Between) {e : ℚ} (he : e ≤ 1e-8)
    (h : Within e a b) : a.agrees b = true := by
  refine (ha.agrees_iff hb).mpr (h.imp ha hb fun {p q} _ _ _ _ hpq => ?_)
  have hq := abs_nonneg q
  linarith

theorem Within.symm {e : ℚ} (h : Within e a b) : Within e b a :=
  Pointwise.symm h fun {p q} hpq => by rwa [abs_sub_comm]

/-- Points lie between zero and one, so the tolerance is at most that at one. -/
theorem Between.within_of_agrees (ha : a.Between) (hb : b.Between) (h : a.agrees b = true) :
    Within 1001e-8 a b := by
  refine ((ha.agrees_iff hb).mp h).imp ha hb fun {p q} _ _ hq0 hq1 hpq => ?_
  rw [abs_of_nonneg hq0] at hpq
  linarith

theorem between_of_form {form : MeshForm Extended} (h : ofForm form = .ok a) : a.Between := by
  obtain ⟨ps, hgrid⟩ := grid_of_form h
  exact hgrid.between

end Equality

/-- What equality and the keys of meshes have to do with each other. A mesh equals itself. To have
one key is to have the same points when rounded, and meshes with one key are equal, either way
round. Equal meshes lie within the tolerance at one, and are equal the other way round if no point
of the second lies behind that of the first. What equals an equal mesh lies within twice the
tolerance. -/
theorem equality_laws {formA formB formC : MeshForm Extended} {a b c : Mesh Extended}
    (ha : ofForm formA = .ok a) (hb : ofForm formB = .ok b) (hc : ofForm formC = .ok c) :
    (a.agrees b = true ↔ Pointwise (fun p q => |p - q| ≤ 1e-8 + 1e-5 * |q|) a b) ∧
    a.agrees a = true ∧
    (a.sameKey b = true ↔ a.key = b.key) ∧
    (a.key = b.key → Within 1e-12 a b ∧ a.agrees b = true ∧ b.agrees a = true) ∧
    (a.agrees b = true → Within 1001e-8 b a) ∧
    (a.agrees b = true → Pointwise (fun p q => q ≤ p) a b → b.agrees a = true) ∧
    (a.agrees b = true → b.agrees c = true → Within 2002e-8 a c) := by
  replace ha := between_of_form ha
  replace hb := between_of_form hb
  replace hc := between_of_form hc
  have hself : Within 0 a a := Pointwise.refl fun p => by simp
  refine ⟨ha.agrees_iff hb, ha.agrees_of_within ha (by norm_num) hself,
    (ha.sameKey_iff hb).trans (ha.key_iff hb).symm, fun hkey => ?_,
    fun h => (ha.within_of_agrees hb h).symm, fun h hbehind => ?_, fun hab hbc => ?_⟩
  · have hwithin : Within 1e-12 a b :=
      ((ha.key_iff hb).mp hkey).imp ha hb fun _ _ _ _ h => abs_sub_of_roundedTwelve h
    exact ⟨hwithin, ha.agrees_of_within hb (by norm_num) hwithin,
      hb.agrees_of_within ha (by norm_num) hwithin.symm⟩
  · rw [ha.agrees_iff hb] at h
    refine (hb.agrees_iff ha).mpr ⟨h.count.symm, fun k q p hq hp => ?_⟩
    have hpq := h.related k p q hp hq
    have hle := hbehind.related k p q hp hq
    obtain ⟨_, ⟨⟩, hq0, -⟩ := hb k _ hq
    rw [abs_of_nonneg hq0] at hpq
    rw [abs_sub_comm, abs_of_nonneg (hq0.trans hle)]
    linarith
  · have hfirst := ha.within_of_agrees hb hab
    refine hfirst.trans (hb.within_of_agrees hc hbc) hb fun {p q r} hpq hqr => ?_
    have htriangle := abs_sub_le p q r
    linarith

namespace Sample

/-- The ends and one point between them. -/
def withMiddle (q : ℚ) : Mesh Extended := ⟨([0, q, 1] : List ℚ).map finite⟩

theorem withMiddle_accepted {q : ℚ} (hlow : 1e-12 < q) (hhigh : q + 1e-12 < 1) :
    ofForm (.points (.ofRow (withMiddle q).points)) = .ok (withMiddle q) := by
  have haccepted : Accepted 0 [q] 1 := by
    have hone : (1e-12 : ℚ) < 1 := by norm_num
    exact ⟨by norm_num, by norm_num, by simp [hlow, hhigh, hone]⟩
  rw [ofForm, ofValue, Value.toTensor_ofRow]
  exact ofTensor_iff.mpr ⟨rfl, 0, [q], 1, rfl, haccepted, rfl⟩

theorem withMiddle_agrees {p q : ℚ} :
    (withMiddle p).agrees (withMiddle q) = true ↔ |p - q| ≤ 1e-8 + 1e-5 * |q| := by
  have hfirst : close (finite 0) (finite 0) = true := close_finite.mpr (by norm_num)
  have hlast : close (finite 1) (finite 1) = true := close_finite.mpr (by norm_num)
  rw [← close_finite]
  simp [agrees, numPoints, withMiddle, hfirst, hlast]

theorem withMiddle_key {p q : ℚ} (h : (withMiddle p).key = (withMiddle q).key) :
    roundedTwelve p = roundedTwelve q := by
  simpa [key, withMiddle, roundTwelve_finite] using h

end Sample

theorem equality_laws_sample :
    (Sample.withMiddle (1 / 2)).agrees (Sample.withMiddle (1 / 2 + 1e-6)) = true ∧
    Within 1001e-8 (Sample.withMiddle (1 / 2 + 1e-6)) (Sample.withMiddle (1 / 2)) ∧
    Within 2002e-8 (Sample.withMiddle (1 / 2)) (Sample.withMiddle (1 / 2)) := by
  have ha := Sample.withMiddle_accepted (q := 1 / 2) (by norm_num) (by norm_num)
  have hb := Sample.withMiddle_accepted (q := 1 / 2 + 1e-6) (by norm_num) (by norm_num)
  obtain ⟨-, -, -, -, hback, -, hthird⟩ := equality_laws ha hb ha
  have hab : (Sample.withMiddle (1 / 2)).agrees (Sample.withMiddle (1 / 2 + 1e-6)) = true :=
    Sample.withMiddle_agrees.mpr (by norm_num [abs_le])
  have hba : (Sample.withMiddle (1 / 2 + 1e-6)).agrees (Sample.withMiddle (1 / 2)) = true :=
    Sample.withMiddle_agrees.mpr (by norm_num [abs_le])
  exact ⟨hab, hback hab, hthird hab hba⟩

/-- Equal meshes with two keys; a mesh that equals another one, which does not equal it; and three
meshes of which each equals the next, but the first does not equal the last. -/
theorem not_lawful :
    (∀ q ∈ [1 / 2, 5000000001e-10, 50000501003e-11, 500005e-6, 50001e-5],
      ofForm (.points (.ofRow (Sample.withMiddle q).points)) = .ok (Sample.withMiddle q)) ∧
    ((Sample.withMiddle (1 / 2)).agrees (Sample.withMiddle 5000000001e-10) = true ∧
      (Sample.withMiddle (1 / 2)).key ≠ (Sample.withMiddle 5000000001e-10).key) ∧
    ((Sample.withMiddle (1 / 2)).agrees (Sample.withMiddle 50000501003e-11) = true ∧
      ¬ (Sample.withMiddle 50000501003e-11).agrees (Sample.withMiddle (1 / 2)) = true) ∧
    ((Sample.withMiddle (1 / 2)).agrees (Sample.withMiddle 500005e-6) = true ∧
      (Sample.withMiddle 500005e-6).agrees (Sample.withMiddle 50001e-5) = true ∧
      ¬ (Sample.withMiddle (1 / 2)).agrees (Sample.withMiddle 50001e-5) = true) := by
  simp only [Sample.withMiddle_agrees]
  refine ⟨fun q hq => ?_, ⟨by norm_num [abs_le], fun hkey => ?_⟩, by norm_num [abs_le],
    by norm_num [abs_le]⟩
  · have hin : (1e-12 : ℚ) < q ∧ q + 1e-12 < 1 := by
      revert q
      norm_num
    exact Sample.withMiddle_accepted hin.1 hin.2
  · have hclose := abs_sub_of_roundedTwelve (Sample.withMiddle_key hkey)
    norm_num [abs_le] at hclose

end Mesh

end Collocation
