import Collocation.Problem
import Collocation.Proofs.Outcome

/-! The intervals that callers write.  A value stands for one interval: a number for itself, a pair
for what lies between its sides, and nothing for no restriction.  Whatever is accepted as bounds is
read as that interval. -/

namespace Collocation

variable {α : Type} [Scalar α]

def Number.scalar : Number α → α
  | .int n => Scalar.ofInt n
  | .real x => x

theorem Value.scalarOfNumber_eq_ok {x : Number α} {s : α} (h : scalarOfNumber x = .ok s) :
    s = x.scalar := by
  cases x with
  | int n =>
    simp only [scalarOfNumber, scalarOfInt, Scalar.ofInt?] at h
    split_ifs at h
    exact (Except.ok.inj h).symm
  | real x => exact (Except.ok.inj h).symm

/-- One side of a pair; a missing side is open. -/
def Value.side (missing : α) : Value α → α
  | .number x => x.scalar
  | _ => missing

/-- The interval that a value stands for. -/
def Value.interval : Value α → Bounds α
  | .number x => ⟨x.scalar, x.scalar⟩
  | .tuple [lower, upper] => ⟨lower.side (-Scalar.infinity), upper.side Scalar.infinity⟩
  | _ => .free

namespace Bounds

theorem sideScalar_eq_ok {missing s : α} {v : Value α} (h : sideScalar missing v = .ok s) :
    s = v.side missing := by
  cases v with
  | number x => exact Value.scalarOfNumber_eq_ok h
  | _ => exact (Except.ok.inj h).symm

theorem make_eq_ok {lower upper : α} {b : Bounds α} (h : make lower upper = .ok b) :
    b = ⟨lower, upper⟩ := by
  simp only [make, Except.bind_eq_ok, Except.pure_eq_ok] at h
  obtain ⟨_, _, rfl⟩ := h
  rfl

theorem ofValue_eq_ok {v : Value α} {context : String} {b : Bounds α}
    (h : ofValue v context = .ok b) : b = v.interval := by
  simp only [ofValue, Except.bind_eq_ok] at h
  obtain ⟨_, _, h⟩ := h
  split at h
  · next x =>
    obtain ⟨s, hs, hmake⟩ := Except.bind_eq_ok.mp h
    rw [make_eq_ok hmake, Value.scalarOfNumber_eq_ok hs]
    rfl
  · next lower upper =>
    obtain ⟨l, hl, h⟩ := Except.bind_eq_ok.mp h
    obtain ⟨u, hu, hmake⟩ := Except.bind_eq_ok.mp h
    rw [make_eq_ok hmake, sideScalar_eq_ok hl, sideScalar_eq_ok hu]
    rfl
  · next hnumber htuple =>
    obtain rfl := Except.pure_eq_ok.mp h
    unfold Value.interval
    split
    · exact absurd rfl (hnumber _)
    · exact absurd rfl (htuple _ _)
    · rfl

end Bounds

/-- The intervals of a variable: along the horizon and at its two ends. -/
structure Limits (α : Type) where
  along : Bounds α
  initial : Bounds α
  final : Bounds α

def Limits.at (l : Limits α) (points k : Nat) : Bounds α :=
  if k = 0 then l.initial else if k + 1 = points then l.final else l.along

/-- What is declared of a variable. An end of the horizon may have bounds of its own. -/
structure Restriction (α : Type) where
  boundary : Value α
  initial : Value α
  final : Value α

namespace Restriction

/-- The bounds of one end, which are the boundary if none are given. -/
def endValue (r : Restriction α) : Value α → Value α
  | .none => r.boundary
  | v => v

def limits (r : Restriction α) : Limits α where
  along := r.boundary.interval
  initial := (r.endValue r.initial).interval
  final := (r.endValue r.final).interval

end Restriction

namespace Variable

def limits (v : Variable α) : Limits α := ⟨v.bounds, v.initial, v.final⟩

theorem endBounds_eq_ok {r : Restriction α} {v : Value α} {context : String} {b : Bounds α}
    (h : endBounds r.boundary.interval v context = .ok b) : b = (r.endValue v).interval := by
  cases v with
  | none => exact (Except.ok.inj h).symm
  | _ => exact Bounds.ofValue_eq_ok h

theorem declare_limits {sort : String} {name : Value α} {r : Restriction α} {v : Variable α}
    (h : declare sort name r.boundary r.initial r.final = .ok v) : v.limits = r.limits := by
  simp only [declare, Except.bind_eq_ok, Except.pure_eq_ok] at h
  obtain ⟨n, _, bounds, hbounds, first, hfirst, last, hlast, rfl⟩ := h
  obtain rfl := Bounds.ofValue_eq_ok hbounds
  rw [limits, endBounds_eq_ok hfirst, endBounds_eq_ok hlast]
  rfl

end Variable

end Collocation
