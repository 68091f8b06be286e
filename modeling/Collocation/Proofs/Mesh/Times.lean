import Collocation.Decimal.Double
import Collocation.Proofs.Faithful

/-! Times of a mesh as they are rounded.  A finite horizon begins exactly at the initial time, and
no rounding takes a time over the initial one, so on a horizon that does not end behind its begin
the times do not increase. -/

namespace Collocation.Mesh

variable {α : Type} [Scalar α] [Faithful α] {t0 tf tau : α} {p q e : ℚ}

section Horizon

variable (h0 : Scalar.exact t0 = .finite p) (he : Scalar.exact (tf - t0) = .finite e)
include h0 he

/-- At the begin of a finite horizon the time is the initial one, without any rounding. -/
theorem exact_timeAt_zero : Scalar.exact (timeAt t0 tf 0.0) = .finite p := by
  have hproduct := Faithful.mul he (Differences.exact_zero (α := α))
  rw [mul_zero] at hproduct
  have hsum := Faithful.add h0 (hproduct.eq_of_scalar Differences.exact_zero)
  rw [add_zero] at hsum
  exact hsum.eq_of_scalar h0

/-- On a horizon that does not end behind its begin, no time is behind the initial one. -/
theorem timeAt_le {r : ℚ} (hneg : e ≤ 0) (htau : Scalar.exact tau = .finite r) (hr0 : 0 ≤ r)
    (hr1 : r ≤ 1) : Scalar.exact (timeAt t0 tf tau) ≤ .finite p := by
  have hlower : e ≤ e * r := by nlinarith
  have hupper : e * r ≤ 0 := mul_nonpos_of_nonpos_of_nonneg hneg hr0
  obtain ⟨u, hu, -, hle⟩ := (Faithful.mul he htau).between he Differences.exact_zero hlower hupper
  rw [← h0]
  refine (Faithful.add h0 hu).le t0 ?_
  rw [h0, Extended.finite_le_finite]
  linarith

end Horizon

/-- Without a finite horizon there is no time at its begin. -/
theorem timeAt_zero_nan (he : ∀ e, Scalar.exact (tf - t0) ≠ .finite e) :
    Scalar.exact (timeAt t0 tf 0.0) = .nan := by
  have hproduct : Scalar.exact ((tf - t0) * 0.0) = .nan := by
    rw [Faithful.mul_infinite he, Differences.exact_zero, Extended.mul_finite_zero he]
  have hinfinite : ∀ e, Scalar.exact ((tf - t0) * 0.0) ≠ .finite e := fun e he =>
    Extended.ne_nan_of_finite he hproduct
  rw [timeAt, Faithful.add_infinite (.inr hinfinite), hproduct, Extended.add_nan]

/-- Where a horizon does not end behind its begin, its times do not increase, if they are finite. -/
theorem exists_difference {m : Mesh α} (hm : m.Increasing) (h0 : Scalar.exact t0 = .finite p)
    (hf : Scalar.exact tf = .finite q) (hqp : q ≤ p)
    (hfinite : ∀ x ∈ m.times t0 tf, Scalar.isFinite x) :
    ∃ d ∈ differences (m.times t0 tf), d ≤ 0.0 := by
  obtain ⟨first, inner, last, hpoints⟩ := exists_ends hm.two
  obtain ⟨second, rest, htail⟩ := List.exists_cons_of_ne_nil (show inner ++ [last] ≠ [] by simp)
  have hzero : first = 0.0 := by simpa [hpoints] using hm.first
  rw [List.cons_append, htail, hzero] at hpoints
  have htimes : m.times t0 tf = timeAt t0 tf 0.0 :: timeAt t0 tf second ::
      rest.map (timeAt t0 tf) := by rw [times, hpoints]; rfl
  rw [htimes] at hfinite ⊢
  obtain ⟨hfirst, hrest⟩ := List.forall_mem_cons.mp hfinite
  obtain ⟨hsecond, -⟩ := List.forall_mem_cons.mp hrest
  obtain ⟨e, he⟩ : ∃ e, Scalar.exact (tf - t0) = .finite e := by
    refine (Scalar.exact (tf - t0)).finite_or_not.resolve_right fun hinfinite => ?_
    obtain ⟨r, hr⟩ := Rounding.isFinite_iff.mp hfirst
    rw [timeAt_zero_nan hinfinite] at hr
    cases hr
  have hneg := Differences.sub_nonpos hf h0 hqp
  rw [Rounding.le_iff, he, Differences.exact_zero, Extended.finite_le_finite] at hneg
  obtain ⟨r, hr, hr0, hr1⟩ := hm.exact (show second ∈ m.points by simp [hpoints])
  obtain ⟨s, hs⟩ := Rounding.isFinite_iff.mp hsecond
  have hle := timeAt_le h0 he hneg hr hr0 hr1
  rw [hs, Extended.finite_le_finite] at hle
  exact ⟨_, List.mem_cons_self, Differences.sub_nonpos hs (exact_timeAt_zero h0 he) hle⟩

/-- A horizon that does end behind its begin is not enough: doubles of this size lie so far apart
that some of the times are the same. -/
example : (1e9 : Float) < 1000000000.000001 ∧
    (ofForm (.uniform (.int 12)) : Outcome Float (Mesh Float)).toOption.any
      (fun m => (differences (m.times 1e9 1000000000.000001)).any (· ≤ 0.0)) = true := by
  decide +kernel

end Collocation.Mesh
