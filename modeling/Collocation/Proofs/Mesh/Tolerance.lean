import Collocation.Proofs.Faithful
import Collocation.Proofs.Mesh.Agreement

/-! Equality of meshes as it is rounded.  Where the scalars up to two lie as close together as the
multiples of a small number, every operation on points errs by at most that number, so equality is
what it is in exact arithmetic up to the sum of these errors, which is far below the tolerance. -/

namespace Collocation

/-- The largest distance between neighbouring scalars up to two. -/
def grain : ℚ := 1 / 2 ^ 44

theorem grain_pos : 0 < grain := by norm_num [grain]

/-- Scalars that have opposites, and the multiples of the grain and the whole numbers of some size
among them.  The tolerances of equality are within a grain of what is written. -/
class Grained (α : Type) [Scalar α] : Prop extends Faithful α where
  exact_neg (x : α) : Scalar.exact (-x) = -Scalar.exact x
  exact_ofNat {n : ℕ} (h : n ≤ 2 ^ 45) : Scalar.exact (Scalar.ofNat n : α) = .finite n
  exists_multiple {n : ℕ} (h : n ≤ 2 ^ 45) : ∃ x : α, Scalar.exact x = .finite (n * grain)
  exact_scale : Scalar.exact (1e12 : α) = .finite 1e12
  absolute : ∃ r, Scalar.exact (1e-8 : α) = .finite r ∧ |r - 1e-8| ≤ grain
  relative : ∃ r, Scalar.exact (1e-5 : α) = .finite r ∧ |r - 1e-5| ≤ grain

instance : Grained Extended where
  exact_neg _ := rfl
  exact_ofNat _ := Extended.ofNat_finite _
  exists_multiple _ := ⟨.finite _, rfl⟩
  exact_scale := rfl
  absolute := ⟨1e-8, rfl, by simp [grain_pos.le]⟩
  relative := ⟨1e-5, rfl, by simp [grain_pos.le]⟩

variable {α : Type} [Scalar α] [Grained α] {v p q : ℚ} {e : Extended} {x y : α}

namespace RoundsTo

/-- What is rounded between zero and two errs by at most a grain. -/
theorem near (h : RoundsTo α v e) (h0 : 0 ≤ v) (h2 : v < 2) :
    ∃ r, e = .finite r ∧ 0 ≤ r ∧ |r - v| ≤ grain := by
  have hscale : grain * 2 ^ 44 = 1 := by norm_num [grain]
  have hlow : (⌊v * 2 ^ 44⌋₊ : ℚ) ≤ v * 2 ^ 44 := Nat.floor_le (by positivity)
  have hhigh : v * 2 ^ 44 < ⌊v * 2 ^ 44⌋₊ + 1 := Nat.lt_floor_add_one _
  have hcount : ⌊v * 2 ^ 44⌋₊ < 2 ^ 45 := by
    rw [Nat.floor_lt (by positivity)]
    push_cast
    linarith
  have hpos := grain_pos
  obtain ⟨x, hx⟩ := Grained.exists_multiple (α := α) hcount.le
  obtain ⟨y, hy⟩ := Grained.exists_multiple (α := α) (Nat.succ_le_of_lt hcount)
  obtain ⟨r, rfl, hr, hr'⟩ := h.between hx hy (by nlinarith) (by push_cast; nlinarith)
  push_cast at hr'
  refine ⟨r, rfl, le_trans (by positivity) hr, ?_⟩
  rw [abs_le]
  constructor <;> nlinarith

theorem near_abs (h : RoundsTo α v e) (hv : |v| < 2) : ∃ r, e = .finite r ∧ |r - v| ≤ grain := by
  obtain ⟨hlow, hhigh⟩ := abs_lt.mp hv
  rcases le_total 0 v with h0 | h0
  · obtain ⟨r, hr, -, herror⟩ := h.near h0 hhigh
    exact ⟨r, hr, herror⟩
  · obtain ⟨r, hr, -, herror⟩ := (h.neg Grained.exact_neg).near (by linarith) (by linarith)
    refine ⟨-r, ?_, ?_⟩
    · rw [← Extended.neg_neg e, hr, Extended.neg_finite]
    · rwa [← abs_neg, show -(-r - v) = r - -v by ring]

end RoundsTo

namespace Mesh

/-- A scalar that stands for a number between zero and one. -/
structure PointAt (x : α) (p : ℚ) : Prop where
  exact : Scalar.exact x = .finite p
  nonneg : 0 ≤ p
  le_one : p ≤ 1

/-- Both sides of the test for closeness are as they are in exact arithmetic, up to a few grains. -/
theorem exists_close (hx : PointAt x p) (hy : PointAt y q) : ∃ d t,
    (close x y = true ↔ |d| ≤ t) ∧ |d - (p - q)| ≤ grain ∧
      |t - (1e-8 + 1e-5 * q)| ≤ 4 * grain := by
  have hp0 := hx.nonneg
  have hp1 := hx.le_one
  have hq0 := hy.nonneg
  have hq1 := hy.le_one
  have hgrain : 0 < grain ∧ grain ≤ 1e-9 := by norm_num [grain]
  obtain ⟨d, hd, hdiff⟩ := (RoundsTo.sub hx.exact hy.exact).near_abs (abs_lt.mpr
    ⟨by linarith, by linarith⟩)
  obtain ⟨a, ha, habsolute⟩ := Grained.absolute (α := α)
  obtain ⟨b, hb, hrelative⟩ := Grained.relative (α := α)
  have hdistance : Scalar.exact (Scalar.abs (x - y)) = .finite |d| := by
    rw [Differences.exact_abs, hd, abs_finite]
  have hsize : Scalar.exact (Scalar.abs y) = .finite q := by
    rw [Differences.exact_abs, hy.exact, abs_finite, abs_of_nonneg hq0]
  rw [abs_le] at habsolute hrelative
  obtain ⟨s, hs, hs0, hproduct⟩ := (Faithful.mul hb hsize).near (by nlinarith) (by nlinarith)
  rw [abs_le] at hproduct
  obtain ⟨t, ht, ht0, hsum⟩ := (Faithful.add ha hs).near (by linarith) (by nlinarith)
  rw [abs_le] at hsum
  refine ⟨d, t, ?_, hdiff, ?_⟩
  · rw [close, decide_eq_true_iff, Rounding.le_iff, hdistance, ht, Extended.finite_le_finite]
  · rw [abs_le]
    constructor <;> nlinarith

/-- The whole number nearest to a scaled point is no further from it than one and a half. -/
theorem exists_scaled (hx : PointAt x p) : ∃ u : ℚ, Scalar.exact (x * 1e12) = .finite u ∧
    0 ≤ u ∧ u ≤ 10 ^ 12 ∧ |u - p * 10 ^ 12| ≤ 1 := by
  have hv0 : 0 ≤ p * 10 ^ 12 := mul_nonneg hx.nonneg (by positivity)
  have hv1 : p * 10 ^ 12 ≤ 10 ^ 12 := mul_le_of_le_one_left (by positivity) hx.le_one
  have hproduct := Faithful.mul hx.exact (Grained.exact_scale (α := α))
  rw [show (1e12 : ℚ) = 10 ^ 12 by norm_num] at hproduct
  have hlow : (⌊p * 10 ^ 12⌋₊ : ℚ) ≤ p * 10 ^ 12 := Nat.floor_le hv0
  have hhigh : p * 10 ^ 12 < ⌊p * 10 ^ 12⌋₊ + 1 := Nat.lt_floor_add_one _
  have hcount : ⌊p * 10 ^ 12⌋₊ ≤ 10 ^ 12 := Nat.floor_le_of_le (by exact_mod_cast hv1)
  have hfirst := Grained.exact_ofNat (α := α) (n := ⌊p * 10 ^ 12⌋₊) (by omega)
  have hsecond := Grained.exact_ofNat (α := α) (n := ⌊p * 10 ^ 12⌋₊ + 1) (by omega)
  have hlast := Grained.exact_ofNat (α := α) (n := 10 ^ 12) (by norm_num)
  obtain ⟨u, hu, hlower, hupper⟩ :=
    hproduct.between hfirst hsecond hlow (by push_cast; exact hhigh.le)
  obtain ⟨u', hu', -, hbound⟩ := hproduct.between hfirst hlast hlow (by exact_mod_cast hv1)
  obtain rfl : u' = u := Extended.finite.inj (hu'.symm.trans hu)
  push_cast at hupper hbound
  refine ⟨u', hu, le_trans (by positivity) hlower, hbound, ?_⟩
  rw [abs_le]
  constructor <;> linarith

/-- A point is rounded to something within two units of the last decimal. -/
theorem exists_rounded (hx : PointAt x p) :
    ∃ r, Scalar.exact (roundTwelve x) = .finite r ∧ |r - p| ≤ 2e-12 := by
  obtain ⟨u, hu, hu0, hu1, hscaled⟩ := exists_scaled hx
  have hround := abs_le.mp (abs_roundEven_sub u)
  obtain ⟨n, hn⟩ : ∃ n : ℕ, Decimal.roundEven u = n := by
    refine Int.eq_ofNat_of_zero_le (Int.lt_add_one_iff.mp ?_)
    have hpos : (0 : ℚ) < Decimal.roundEven u + 1 := by linarith
    exact_mod_cast hpos
  rw [hn] at hround
  push_cast at hround
  have hcount : n ≤ 10 ^ 12 := by
    refine Nat.lt_succ_iff.mp ?_
    have hlt : (n : ℚ) < 10 ^ 12 + 1 := by linarith
    exact_mod_cast hlt
  have hexact : Scalar.exact (Scalar.ofInt n : α) = .finite n :=
    Grained.exact_ofNat (by omega)
  have hquotient := Faithful.div hexact (Grained.exact_scale (α := α)) (by norm_num)
  have hbound : (n : ℚ) ≤ 10 ^ 12 := by exact_mod_cast hcount
  obtain ⟨r, hr, -, herror⟩ := hquotient.near (by positivity) (by norm_num; linarith)
  refine ⟨r, ?_, ?_⟩
  · rw [roundTwelve, hu]
    dsimp only
    rw [hn, hr]
  · rw [abs_le] at hscaled herror ⊢
    norm_num [grain] at herror ⊢
    constructor <;> linarith

/-- The mesh of the exact values of the points. -/
def values (m : Mesh α) : Mesh Extended := ⟨m.points.map Scalar.exact⟩

section Meshes

variable {a b c : Mesh α} {R : ℚ → ℚ → Prop} {test : α → α → Bool}

omit [Grained α] in
theorem numPoints_values (m : Mesh α) : m.values.numPoints = m.numPoints := List.length_map _

theorem Increasing.pointAt (h : a.Increasing) {k : ℕ} (hx : a.points[k]? = some x) :
    ∃ p, PointAt x p := by
  obtain ⟨p, hp, h0, h1⟩ := h.exact (List.mem_of_getElem? hx)
  exact ⟨p, hp, h0, h1⟩

theorem Increasing.between_values (h : a.Increasing) : a.values.Between := by
  intro k e he
  rw [values, List.getElem?_map, Option.map_eq_some_iff] at he
  obtain ⟨x, hx, rfl⟩ := he
  obtain ⟨p, hp⟩ := h.pointAt hx
  exact ⟨p, hp.exact, hp.nonneg, hp.le_one⟩

theorem Increasing.pointAt_of_values (h : a.Increasing) {k : ℕ}
    (hp : a.values.points[k]? = some (.finite p)) : ∃ x, a.points[k]? = some x ∧ PointAt x p := by
  rw [values, List.getElem?_map, Option.map_eq_some_iff] at hp
  obtain ⟨x, hx, hp⟩ := hp
  obtain ⟨p', hpoint⟩ := h.pointAt hx
  obtain rfl : p' = p := Extended.finite.inj (hpoint.exact.symm.trans hp)
  exact ⟨x, hx, hpoint⟩

/-- What the test of two points shows of their values, the tests of all points show of meshes. -/
theorem pointwise_of_test (ha : a.Increasing) (hb : b.Increasing)
    (h : ∀ x y p q, PointAt x p → PointAt y q → test x y = true → R p q)
    (htest : (a.numPoints == b.numPoints && (a.points.zipWith test b.points).all id) = true) :
    Pointwise R a.values b.values := by
  rw [Bool.and_eq_true, beq_iff_eq, all_zipWith_iff] at htest
  refine ⟨by rw [numPoints_values, numPoints_values, htest.1], fun k p q hp hq => ?_⟩
  obtain ⟨x, hx, hpx⟩ := ha.pointAt_of_values hp
  obtain ⟨y, hy, hqy⟩ := hb.pointAt_of_values hq
  exact h x y p q hpx hqy (htest.2 k x y hx hy)

theorem test_of_pointwise (ha : a.Increasing) (hb : b.Increasing)
    (h : ∀ x y p q, PointAt x p → PointAt y q → R p q → test x y = true)
    (hR : Pointwise R a.values b.values) :
    (a.numPoints == b.numPoints && (a.points.zipWith test b.points).all id) = true := by
  rw [Bool.and_eq_true, beq_iff_eq, all_zipWith_iff]
  refine ⟨by rw [← numPoints_values, hR.count, numPoints_values], fun k x y hx hy => ?_⟩
  obtain ⟨p, hp⟩ := ha.pointAt hx
  obtain ⟨q, hq⟩ := hb.pointAt hy
  refine h x y p q hp hq (hR.related k p q ?_ ?_)
  · rw [values, List.getElem?_map, hx, Option.map_some, hp.exact]
  · rw [values, List.getElem?_map, hy, Option.map_some, hq.exact]

/-- Points of meshes that are equal, as rounded, are within the tolerance but for a few grains. -/
theorem agrees_within (ha : a.Increasing) (hb : b.Increasing) (h : a.agrees b = true) :
    Pointwise (fun p q => |p - q| ≤ 1e-8 + 1e-5 * |q| + 1e-12) a.values b.values := by
  refine pointwise_of_test ha hb (fun x y p q hx hy htest => ?_) h
  obtain ⟨d, t, hclose, hd, ht⟩ := exists_close hx hy
  have hdt := hclose.mp htest
  rw [abs_of_nonneg hy.nonneg]
  rw [abs_le] at hd ht hdt ⊢
  norm_num [grain] at hd ht ⊢
  constructor <;> linarith

theorem agrees_of_within (ha : a.Increasing) (hb : b.Increasing)
    (h : Pointwise (fun p q => |p - q| ≤ 1e-8 + 1e-5 * |q| - 1e-12) a.values b.values) :
    a.agrees b = true := by
  refine test_of_pointwise ha hb (fun x y p q hx hy hpq => ?_) h
  obtain ⟨d, t, hclose, hd, ht⟩ := exists_close hx hy
  rw [hclose]
  rw [abs_of_nonneg hy.nonneg] at hpq
  rw [abs_le] at hd ht hpq ⊢
  norm_num [grain] at hd ht hpq
  constructor <;> linarith

/-- Points that are rounded to one value lie within four units of the last decimal. -/
theorem within_of_sameKey (ha : a.Increasing) (hb : b.Increasing) (h : a.sameKey b = true) :
    Within 4e-12 a.values b.values := by
  rw [sameKey, key, key, List.zipWith_map] at h
  refine pointwise_of_test ha hb (fun x y p q hx hy htest => ?_) h
  obtain ⟨r, hr, hrp⟩ := exists_rounded hx
  obtain ⟨s, hs, hsq⟩ := exists_rounded hy
  obtain ⟨heq, -⟩ := Rounding.eq_iff.mp htest
  obtain rfl : r = s := Extended.finite.inj (hr.symm.trans (heq.trans hs))
  rw [abs_le] at hrp hsq ⊢
  constructor <;> linarith

/-- Meshes have one key just if the keys have the same exact values. -/
theorem sameKey_iff (hb : b.Increasing) :
    a.sameKey b = true ↔ a.key.map Scalar.exact = b.key.map Scalar.exact := by
  rw [sameKey, Bool.and_eq_true, beq_iff_eq, all_zipWith_iff]
  constructor
  · rintro ⟨hcount, hall⟩
    refine List.ext_getElem (by simpa [key, numPoints] using hcount) fun k hk hk' => ?_
    rw [List.length_map] at hk hk'
    have hround := hall k _ _ (List.getElem?_eq_getElem hk) (List.getElem?_eq_getElem hk')
    rw [List.getElem_map, List.getElem_map]
    exact (Rounding.eq_iff.mp hround).1
  · intro hkeys
    refine ⟨by simpa [key, numPoints] using congrArg List.length hkeys, fun k x y hx hy => ?_⟩
    have hround := congrArg (·[k]?) hkeys
    simp only [List.getElem?_map, hx, hy, Option.map_some, Option.some.injEq] at hround
    rw [key, List.getElem?_map, Option.map_eq_some_iff] at hy
    obtain ⟨z, hz, rfl⟩ := hy
    obtain ⟨q, hq⟩ := hb.pointAt hz
    obtain ⟨r, hr, -⟩ := exists_rounded hq
    exact Rounding.eq_iff.mpr ⟨hround, Extended.ne_nan_of_finite hr⟩

end Meshes

/-- What equality and the keys of meshes have to do with each other as they are rounded: the laws of
exact arithmetic, with room for the errors.  Equality is the test of the tolerance but for points at
its edge.  A mesh equals itself.  To have one key is to have the same points when rounded, and
meshes with one key are equal, either way round.  Equal meshes lie within the tolerance at one, and
what equals an equal mesh lies within twice the tolerance. -/
theorem equality_rounded {formA formB formC : MeshForm α} {a b c : Mesh α}
    (ha : ofForm formA = .ok a) (hb : ofForm formB = .ok b) (hc : ofForm formC = .ok c) :
    (a.agrees b = true →
      Pointwise (fun p q => |p - q| ≤ 1e-8 + 1e-5 * |q| + 1e-12) a.values b.values) ∧
    (Pointwise (fun p q => |p - q| ≤ 1e-8 + 1e-5 * |q| - 1e-12) a.values b.values →
      a.agrees b = true) ∧
    a.agrees a = true ∧
    (a.sameKey b = true ↔ a.key.map Scalar.exact = b.key.map Scalar.exact) ∧
    (a.sameKey b = true →
      Within 4e-12 a.values b.values ∧ a.agrees b = true ∧ b.agrees a = true) ∧
    (a.agrees b = true → Within 1002e-8 b.values a.values) ∧
    (a.agrees b = true → b.agrees c = true → Within 2004e-8 a.values c.values) := by
  replace ha := increasing_of_form ha
  replace hb := increasing_of_form hb
  replace hc := increasing_of_form hc
  have hclose {m m' : Mesh α} (hm : m.Increasing) (hm' : m'.Increasing)
      (h : Within 4e-12 m.values m'.values) : m.agrees m' = true := by
    refine agrees_of_within hm hm'
      (h.imp hm.between_values hm'.between_values fun {p q} _ _ hq0 _ hpq => ?_)
    rw [abs_of_nonneg hq0]
    linarith
  have hwithin {m m' : Mesh α} (hm : m.Increasing) (hm' : m'.Increasing)
      (h : m.agrees m' = true) : Within 1002e-8 m.values m'.values := by
    refine (agrees_within hm hm' h).imp hm.between_values hm'.between_values
      fun {p q} _ _ hq0 hq1 hpq => ?_
    rw [abs_of_nonneg hq0] at hpq
    linarith
  refine ⟨agrees_within ha hb, agrees_of_within ha hb,
    hclose ha ha (Pointwise.refl fun p => by norm_num), sameKey_iff hb, fun hkey => ?_,
    fun h => (hwithin ha hb h).symm, fun hab hbc => ?_⟩
  · have hkeys := within_of_sameKey ha hb hkey
    exact ⟨hkeys, hclose ha hb hkeys, hclose hb ha hkeys.symm⟩
  · refine (hwithin ha hb hab).trans (hwithin hb hc hbc) hb.between_values fun {p q r} hpq hqr => ?_
    have htriangle := abs_sub_le p q r
    linarith


end Mesh

end Collocation
