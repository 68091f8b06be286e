import Collocation.Guess
import Collocation.Proofs.Faithful

/-! Sample times.  Finite times pass the check just if they increase, however their differences are
rounded.  If the way from the first to the last of them is finite too, then their fractions
of it lie between zero and one. -/

namespace Collocation.Guess

variable {α : Type} [Scalar α] {times : List α}

/-- Finite times, with a finite way from the first to the last one. -/
structure Spans (times : List α) : Prop where
  finite : ∀ t ∈ times, Scalar.isFinite t
  way : Scalar.isFinite (Mesh.lastPoint times - times.headD 0.0)

theorem checkTimes_iff : checkTimes times = .ok () ↔
    2 ≤ times.length ∧ ∀ d ∈ Mesh.differences times, ¬ d ≤ 0.0 := by
  unfold checkTimes
  split_ifs with hfault
  · refine iff_of_false nofun fun ⟨hlength, hall⟩ => ?_
    rw [Bool.or_eq_true, decide_eq_true_eq, List.any_eq_true] at hfault
    rcases hfault with hfew | ⟨d, hd, hle⟩
    · exact Nat.not_lt.mpr hlength hfew
    · exact hall d hd (of_decide_eq_true hle)
  · rw [Bool.or_eq_true, not_or, decide_eq_true_eq, Nat.not_lt] at hfault
    refine iff_of_true rfl ⟨hfault.1, fun d hd hle => hfault.2 ?_⟩
    exact List.any_eq_true.mpr ⟨d, hd, decide_eq_true hle⟩

theorem checkTimes_raises (times : List α) : OnlyRaises (checkTimes times) .dataIntegrity := by
  unfold checkTimes
  split_ifs
  · exact .error rfl
  · exact .ok ()

variable [Faithful α]

/-- Numbers that increase have no difference that is rounded to zero or below. -/
theorem differences_pos (hfinite : ∀ t ∈ times, Scalar.isFinite t) (h : times.Pairwise (· < ·)) :
    ∀ d ∈ Mesh.differences times, ¬ d ≤ 0.0 := by
  induction times with
  | nil => exact List.forall_mem_nil _
  | cons x rest ih =>
    cases rest with
    | nil => exact List.forall_mem_nil _
    | cons y rest =>
      obtain ⟨hx, hrest⟩ := List.forall_mem_cons.mp hfinite
      obtain ⟨p, hp⟩ := Rounding.isFinite_iff.mp hx
      obtain ⟨q, hq⟩ := Rounding.isFinite_iff.mp (hrest y (by simp))
      have hxy : x < y := List.rel_of_pairwise_cons h (by simp)
      rw [Differences.lt_iff, hp, hq, Extended.finite_lt_finite] at hxy
      refine List.forall_mem_cons.mpr ⟨fun hle => ?_, ih hrest h.of_cons⟩
      rw [Rounding.le_iff, Differences.exact_zero] at hle
      exact Extended.not_lt_of_le hle (Faithful.sub_pos hq hp hxy)

/-- Finite times pass the check just if there are two and they increase. -/
theorem checkTimes_iff_increasing (hfinite : ∀ t ∈ times, Scalar.isFinite t) :
    checkTimes times = .ok () ↔ 2 ≤ times.length ∧ times.Pairwise (· < ·) := by
  rw [checkTimes_iff]
  refine and_congr_right fun _ => ⟨fun h => ?_, differences_pos hfinite⟩
  have hall : (Mesh.differences times).all (fun d => !decide (d ≤ 0.0)) = true := by
    refine List.all_eq_true.mpr fun d hd => ?_
    rw [Bool.not_eq_true', decide_eq_false_iff_not]
    exact h d hd
  have hchain : times.IsChain (· < ·) := by
    refine (Mesh.isChain_of_differences hall).imp_of_mem_imp fun x y hx hy hxy => ?_
    obtain ⟨p, hp⟩ := Rounding.isFinite_iff.mp (hfinite x hx)
    obtain ⟨q, hq⟩ := Rounding.isFinite_iff.mp (hfinite y hy)
    rw [Bool.not_eq_true', decide_eq_false_iff_not] at hxy
    exact Differences.lt_of_rationals hp hq (lt_of_not_ge fun hle =>
      hxy (Differences.sub_nonpos hq hp hle))
  exact List.isChain_iff_pairwise.mp hchain

/-- What lies between two numbers is a fraction of the way between zero and one. -/
theorem exists_part {x y t : α} {p q s : ℚ} (hx : Scalar.exact x = .finite p)
    (hy : Scalar.exact y = .finite q) (ht : Scalar.exact t = .finite s) (hps : p ≤ s) (hsq : s ≤ q)
    (hpq : p < q) (hway : Scalar.isFinite (y - x)) :
    ∃ r, Scalar.exact ((t - x) / (y - x)) = .finite r ∧ 0 ≤ r ∧ r ≤ 1 := by
  obtain ⟨e, he⟩ := Rounding.isFinite_iff.mp hway
  have hepos := Faithful.sub_pos hy hx hpq
  have hzero := Differences.exact_sub_mono Differences.exact_zero Differences.exact_zero ht hx
    (show 0 - 0 ≤ s - p by linarith)
  have hle := Differences.exact_sub_mono ht hx hy hx (show s - p ≤ q - p by linarith)
  rw [Rounding.sub_zero, Differences.exact_zero] at hzero
  rw [he] at hepos hle
  obtain ⟨d, hd, hlower, hupper⟩ := Extended.finite_of_between hzero hle
  exact Faithful.exists_fraction hd he hlower hupper ((Extended.finite_lt_finite _ _).mp hepos)

/-- The fractions of the way at which sample times lie. -/
theorem exists_normalized (hspans : Spans times) (h : checkTimes times = .ok ()) :
    ∀ x ∈ normalized times, ∃ r, Scalar.exact x = .finite r ∧ 0 ≤ r ∧ r ≤ 1 := by
  obtain ⟨htwo, hincreasing⟩ := (checkTimes_iff_increasing hspans.finite).mp h
  have hexact {t : α} (ht : t ∈ times) := Rounding.isFinite_iff.mp (hspans.finite t ht)
  obtain ⟨a, inner, b, hends⟩ := Mesh.exists_ends htwo
  have hfirst : times.head? = some a := by rw [hends]; rfl
  have hlast : times.getLast? = some b := by rw [hends]; exact List.getLast?_concat
  have hway : Scalar.isFinite (b - a) := by
    have hway := hspans.way
    rwa [Mesh.lastPoint, List.headD_eq_head?_getD, hfirst, hlast] at hway
  obtain ⟨p, hp⟩ := hexact (List.mem_of_head? hfirst)
  obtain ⟨q, hq⟩ := hexact (List.mem_of_getLast? hlast)
  have hbetween := Differences.between_ends hincreasing hfirst hlast (Rounding.le_self hp)
    (Rounding.le_self hq)
  have hpq : p < q := by
    rw [hends, List.cons_append] at hincreasing
    have hab : a < b := List.rel_of_pairwise_cons hincreasing (by simp)
    rwa [Differences.lt_iff, hp, hq, Extended.finite_lt_finite] at hab
  intro x hx
  obtain ⟨t, ht, rfl⟩ := List.mem_map.mp hx
  obtain ⟨s, hs⟩ := hexact ht
  obtain ⟨hafter, hbefore⟩ := hbetween t ht
  rw [Rounding.le_iff, hp, hs, Extended.finite_le_finite] at hafter
  rw [Rounding.le_iff, hs, hq, Extended.finite_le_finite] at hbefore
  rw [Mesh.lastPoint, List.headD_eq_head?_getD, hfirst, hlast]
  exact exists_part hp hq hs hafter hbefore hpq hway

end Collocation.Guess
