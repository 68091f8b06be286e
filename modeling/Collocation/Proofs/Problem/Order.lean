import Collocation.Proofs.Problem.Calls
import Collocation.Proofs.Problem.Functions
import Collocation.Transcription

/-! Calls of different kinds in any order.  Each call touches one aspect of a problem, and what it
makes of that aspect does not depend on the others; so calls can be told apart by kind.  Problems
that differ only in how costs of the two kinds are mixed have the same functions and the same
transcriptions. -/

namespace Collocation.Problem

variable {α : Type}

/-- The kinds of calls, each of which touches a part of a problem of its own. -/
inductive Aspect where
  | time
  | state
  | control
  | parameter
  | dynamics
  | kinematic
  | path
  | endpointCost
  | integralCost
  deriving DecidableEq

def Call.aspect : Call α → Aspect
  | .time .. => .time
  | .state .. => .state
  | .control .. => .control
  | .parameter .. => .parameter
  | .dynamics .. => .dynamics
  | .kinematic .. => .kinematic
  | .path .. => .path
  | .endpointCost .. => .endpointCost
  | .integralCost .. => .integralCost

def Item.aspect : Item α → Aspect
  | .times .. => .time
  | .state .. => .state
  | .control .. => .control
  | .parameter .. => .parameter
  | .dynamics .. => .dynamics
  | .kinematic .. => .kinematic
  | .path .. => .path
  | .cost c => if c.isEndpoint then .endpointCost else .integralCost

/-- A problem with nothing in it but its name and one aspect. -/
def only : Aspect → Problem α → Problem α
  | .time, p => { name := p.name, initialTime := p.initialTime, finalTime := p.finalTime }
  | .state, p => { name := p.name, states := p.states }
  | .control, p => { name := p.name, controls := p.controls }
  | .parameter, p => { name := p.name, parameters := p.parameters }
  | .dynamics, p => { name := p.name, dynamics := p.dynamics }
  | .kinematic, p => { name := p.name, kinematic := p.kinematic, multipliers := p.multipliers }
  | .path, p => { name := p.name, path := p.path }
  | .endpointCost, p => { name := p.name, costs := p.costs.filter (·.isEndpoint) }
  | .integralCost, p => { name := p.name, costs := p.costs.filter (!·.isEndpoint) }

/-- An item changes its own aspect in the same way wherever it is put. -/
theorem only_put_aspect (e : Item α) (p : Problem α) :
    (e.put p).only e.aspect = e.put (p.only e.aspect) := by
  cases e with
  | cost c =>
    cases h : c.isEndpoint <;> simp [Item.aspect, Item.put, only, h]
  | _ => rfl

/-- An item leaves the other aspects alone. -/
theorem only_put_of_ne {e : Item α} {a : Aspect} (h : e.aspect ≠ a) (p : Problem α) :
    (e.put p).only a = p.only a := by
  cases e with
  | cost c =>
    cases hc : c.isEndpoint <;> cases a <;> simp_all [Item.aspect, Item.put, only]
  | _ =>
    cases a <;> first | rfl | exact absurd rfl h

section Calls

variable [Scalar α] {calls calls' : List (Call α)} {s p p' : Problem α}

theorem Call.Makes.aspect_eq {c : Call α} {e : Item α} (h : c.Makes e) : e.aspect = c.aspect := by
  cases h <;> rfl

/-- The calls of one aspect make that aspect what all calls make it. -/
theorem sequence_only (h : (Edit.sequence Call.run calls).Yields s () p) (a : Aspect) :
    (Edit.sequence Call.run (calls.filter (·.aspect = a))).Yields (s.only a) () (p.only a) := by
  induction calls generalizing s with
  | nil =>
    obtain ⟨-, rfl⟩ := Edit.yields_pure.mp h
    rfl
  | cons c rest ih =>
    rw [Edit.sequence_cons, Edit.yields_bind] at h
    obtain ⟨⟨⟩, middle, hc, hrest⟩ := h
    obtain ⟨e, he, rfl⟩ := Call.run_yields.mp hc
    have haspect := (Call.makes_of_item he).aspect_eq
    have hmiddle := ih hrest
    by_cases hca : c.aspect = a
    · subst hca
      rw [← haspect, only_put_aspect, haspect] at hmiddle
      rw [List.filter_cons_of_pos (by simp), Edit.sequence_cons, Edit.yields_bind]
      exact ⟨(), _, Call.run_yields.mpr ⟨e, he, rfl⟩, hmiddle⟩
    · rw [List.filter_cons_of_neg (by simpa using hca)]
      rwa [only_put_of_ne (by rwa [haspect])] at hmiddle

/-- Calls with the same subsequence for each aspect make problems with the same aspects. -/
theorem only_eq (h : (Edit.sequence Call.run calls).Yields s () p)
    (h' : (Edit.sequence Call.run calls').Yields s () p')
    (haspects : ∀ a, calls.filter (·.aspect = a) = calls'.filter (·.aspect = a)) (a : Aspect) :
    p.only a = p'.only a := by
  have hp := sequence_only h a
  rw [haspects] at hp
  exact (hp.unique (sequence_only h' a)).2

end Calls

/-- Problems with the same aspects differ at most in how their costs are mixed. -/
theorem eq_of_only {p p' : Problem α} (h : ∀ a, p.only a = p'.only a) :
    p' = { p with costs := p'.costs } := by
  have htime := h .time
  have hstate := h .state
  have hcontrol := h .control
  have hparameter := h .parameter
  have hdynamics := h .dynamics
  have hkinematic := h .kinematic
  have hpath := h .path
  cases p
  cases p'
  simp_all [only]

section Snapshot

variable {p p' : Problem α} (honly : ∀ a, p.only a = p'.only a)
include honly

theorem endpoint_eq : p.costs.filter (·.isEndpoint) = p'.costs.filter (·.isEndpoint) :=
  congrArg costs (honly .endpointCost)

theorem integral_eq : p.costs.filter (!·.isEndpoint) = p'.costs.filter (!·.isEndpoint) :=
  congrArg costs (honly .integralCost)

theorem perm_costs : p.costs.Perm p'.costs := by
  have hperm := List.filter_append_perm CostTerm.isEndpoint p.costs
  rw [endpoint_eq honly, integral_eq honly] at hperm
  exact hperm.symm.trans (List.filter_append_perm CostTerm.isEndpoint p'.costs)

variable [Scalar α]

theorem complete_of_only (h : p.Complete) : p'.Complete := by
  have hnames := ((perm_costs honly).map (·.name)).nodup_iff
  rw [eq_of_only honly]
  exact { h with costNames := hnames.mp h.costNames }

/-- The functions of a problem do not depend on how costs of the two kinds are mixed. -/
theorem functions_of_only {f : Functions α} (h : p.functions = .ok f) : p'.functions = .ok f := by
  rw [functions_eq_ok] at h ⊢
  have hcomplete := complete_of_only honly h.complete
  have hendpoint := endpoint_eq honly
  have hintegral := integral_eq honly
  rw [eq_of_only honly] at hcomplete ⊢
  exact { h with
    complete := hcomplete
    endpointCosts := hendpoint ▸ h.endpointCosts
    integralCosts := hintegral ▸ h.integralCosts }

/-- Nor does a transcription. -/
theorem create_of_only {r : Registry α} {solver : Solver α} {t : Transcription α}
    (h : Transcription.create r solver p = .ok t) : Transcription.create r solver p' = .ok t := by
  simp only [Transcription.create, Transcription.createIn, monadLift_self,
    Except.bind_eq_ok] at h ⊢
  obtain ⟨i, hi, u, hcheck, f, hf, h⟩ := h
  refine ⟨i, hi, u, hcheck, f, functions_of_only honly hf, ?_⟩
  rwa [eq_of_only honly]

end Snapshot

/-- Declarations of different kinds may come in any order.  Problems that are declared by calls with
the same subsequence for each kind of calls either both have no functions or have the same, and so
it is with their transcriptions. -/
theorem interleaved [Scalar α] {calls calls' : List (Call α)} {s p p' : Problem α}
    (h : (Edit.sequence Call.run calls).Yields s () p)
    (h' : (Edit.sequence Call.run calls').Yields s () p')
    (haspects : ∀ a, calls.filter (·.aspect = a) = calls'.filter (·.aspect = a)) :
    (∀ f, p.functions = .ok f ↔ p'.functions = .ok f) ∧
    ∀ (r : Registry α) (solver : Solver α) (t : Transcription α),
      Transcription.create r solver p = .ok t ↔ Transcription.create r solver p' = .ok t := by
  have honly := only_eq h h' haspects
  have honly' : ∀ a, p'.only a = p.only a := fun a => (honly a).symm
  exact ⟨fun f => ⟨functions_of_only honly, functions_of_only honly'⟩,
    fun r solver t => ⟨create_of_only honly, create_of_only honly'⟩⟩

namespace Sample

def supply {β : Type} (f : β → Extended) : Supplied β Extended :=
  .evaluator fun _ => .ok (.function ⟨1, 1, [f]⟩)

def pull (pt : Point Extended) : Extended :=
  Layout.entry pt.control 0 + Layout.entry pt.multiplier 0

def length (pt : Point Extended) : Extended := Layout.entry pt.state 0 - Layout.entry pt.parameter 0

def effort (pt : Point Extended) : Extended := Layout.entry pt.control 0 * Layout.entry pt.control 0

/-- Declarations in the order of a textbook. -/
def sorted : List (Call Extended) :=
  [.time (.real 0.0) (.real 1.0), .state (.text "x") .none (.real 1.0) .none,
    .control (.text "u") .none .none .none, .parameter (.text "length") .none,
    .kinematic (supply length) (.int 1) .none, .dynamics (supply pull),
    .path (.text "band") (supply length) (.real 0.0),
    .endpointCost (.text "last") (supply (·.finalTime)) (.int 1),
    .endpointCost (.text "first") (supply (·.initialTime)) (.int 3),
    .integralCost (.text "effort") (supply effort) (.int 2)]

/-- The same declarations, with dynamics before kinematic constraints and with costs mixed. -/
def mixed : List (Call Extended) :=
  [.endpointCost (.text "last") (supply (·.finalTime)) (.int 1), .dynamics (supply pull),
    .path (.text "band") (supply length) (.real 0.0), .control (.text "u") .none .none .none,
    .integralCost (.text "effort") (supply effort) (.int 2),
    .kinematic (supply length) (.int 1) .none,
    .endpointCost (.text "first") (supply (·.initialTime)) (.int 3),
    .parameter (.text "length") .none, .state (.text "x") .none (.real 1.0) .none,
    .time (.real 0.0) (.real 1.0)]

theorem aspects_eq (a : Aspect) : sorted.filter (·.aspect = a) = mixed.filter (·.aspect = a) := by
  cases a <;> rfl

end Sample

theorem interleaved_sample : ∃ p p' : Problem Extended,
    (Edit.sequence Call.run Sample.sorted).Yields {} () p ∧
    (Edit.sequence Call.run Sample.mixed).Yields {} () p' ∧ p.functions.isOk = true ∧
    (∀ f, p.functions = .ok f ↔ p'.functions = .ok f) ∧
    ∀ (r : Registry Extended) (solver : Solver Extended) (t : Transcription Extended),
      Transcription.create r solver p = .ok t ↔ Transcription.create r solver p' = .ok t := by
  have hsorted := Edit.yields_of_isOk (e := Edit.sequence Call.run Sample.sorted)
    (s := ({} : Problem Extended)) (by decide +kernel)
  have hmixed := Edit.yields_of_isOk (e := Edit.sequence Call.run Sample.mixed)
    (s := ({} : Problem Extended)) (by decide +kernel)
  exact ⟨_, _, hsorted, hmixed, by decide +kernel, interleaved hsorted hmixed Sample.aspects_eq⟩

end Collocation.Problem
