import Collocation.Proofs.Problem.Horizon

/-! Bounds of all variables.  Declarations read every interval before they put a variable in, so
after any calls on a problem, of which some may have failed, all of its bounds hold a number. -/

namespace Collocation

variable {α : Type} [Scalar α]

/-- The bounds of a variable hold a number, along the horizon and at both ends. -/
structure Variable.Bounded (v : Variable α) : Prop where
  bounds : v.bounds.exact.Proper
  initial : v.initial.exact.Proper
  final : v.final.exact.Proper

namespace Variable

variable [Rounding α]

theorem endBounds_proper {along b : Bounds α} {v : Value α} {context : String}
    (halong : along.exact.Proper) (h : endBounds along v context = .ok b) : b.exact.Proper := by
  unfold endBounds at h
  split at h
  · exact Except.ok.inj h ▸ halong
  · exact Bounds.ofValue_proper h

theorem declare_bounded {sort : String} {name boundary initial final : Value α}
    {v : Variable α} (h : declare sort name boundary initial final = .ok v) : v.Bounded := by
  simp only [declare, Except.bind_eq_ok, Except.pure_eq_ok] at h
  obtain ⟨n, -, bounds, hbounds, first, hfirst, last, hlast, rfl⟩ := h
  have hproper := Bounds.ofValue_proper hbounds
  exact ⟨hproper, endBounds_proper hproper hfirst, endBounds_proper hproper hlast⟩

end Variable

namespace Problem

/-- All bounds of a problem hold a number. -/
structure Bounded (p : Problem α) : Prop where
  timed : p.Timed
  states : ∀ v ∈ p.states, v.Bounded
  controls : ∀ v ∈ p.controls, v.Bounded
  multipliers : ∀ v ∈ p.multipliers, v.Bounded
  parameters : ∀ v ∈ p.parameters, v.Bounded

variable [Rounding α]

/-- A call puts in what it has declared; a call that fails leaves all variables as they are. -/
theorem Call.run_keeps_bounded (c : Call α) : c.run.Keeps Bounded := by
  intro p hp
  have htimed := c.run_keeps p hp.timed
  rw [run_eq] at htimed ⊢
  cases hitem : c.item with
  | error fault =>
    rw [hitem] at htimed
    exact { hp with timed := htimed }
  | ok e =>
    rw [hitem] at htimed
    have hadded {vs : List (Variable α)} {v : Variable α}
        (hvs : ∀ x ∈ vs, x.Bounded) (hv : v.Bounded) : ∀ x ∈ vs ++ [v], x.Bounded :=
      List.forall_mem_append.mpr ⟨hvs, List.forall_mem_singleton.mpr hv⟩
    cases makes_of_item hitem with
    | state hv =>
      exact { hp with
        timed := htimed, states := hadded hp.states (Variable.declare_bounded hv) }
    | control hv =>
      exact { hp with
        timed := htimed, controls := hadded hp.controls (Variable.declare_bounded hv) }
    | parameter hv =>
      exact { hp with
        timed := htimed, parameters := hadded hp.parameters (Variable.declare_bounded hv) }
    | kinematic hf hnames hdeclared =>
      refine { hp with timed := htimed, multipliers := fun v hv => ?_ }
      obtain ⟨n, -, hmade⟩ := Except.exists_of_mapM hdeclared hv
      exact Variable.declare_bounded hmade
    | _ => exact { hp with timed := htimed }

theorem attempted_bounded (name : Value α) (calls : List (Call α)) :
    (attempted name calls).Bounded := by
  have hnone : ∀ v ∈ ([] : List (Variable α)), v.Bounded := List.forall_mem_nil _
  exact Edit.afterAll_keeps (fun c _ => c.run_keeps_bounded)
    ⟨⟨nofun, nofun⟩, hnone, hnone, hnone, hnone⟩

end Problem

end Collocation
