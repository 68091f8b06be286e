import Collocation.Proofs.Layout.Accessors

/-! Layouts that builders make.  A call on a builder leaves one item for each variable, whether it
succeeds or fails, so after any calls the layout has every variable in its place. -/

namespace Collocation

variable {α : Type} [Scalar α]

namespace LayoutBuilder

variable {b : LayoutBuilder α} {points : Nat} {d : Dimensions} {ks : List Nat}

theorem setNamesOf_keeps {sort : String} {size : LayoutBuilder α → Value α}
    {put : List (Value α) → LayoutBuilder α → LayoutBuilder α} {names : Value α} {n : Nat}
    (hsize : ∀ b : LayoutBuilder α, b.Sized points d ks → size b = .int n)
    (hput : ∀ ns b, ns.length = n → b.Sized points d ks → (put ns b).Sized points d ks) :
    (setNamesOf sort size put names).Keeps (·.Sized points d ks) := by
  unfold setNamesOf
  split
  · exact Edit.keeps_pure _
  · refine Edit.keeps_store fun b ns b' hb hns hb' => ?_
    rw [hsize b hb] at hns
    exact hput ns b' (countedNames_eq_ok hns).2 hb'

/-- A call leaves one item for each variable, even if it fails. -/
theorem Setter.run_keeps (c : Setter α) : c.run.Keeps (·.Sized points d ks) := by
  cases c with
  | states path initial final =>
    refine Edit.keeps_store fun b bs b' hb hbs hb' => ?_
    rw [hb.states] at hbs
    exact { hb' with fits := { hb'.fits with states := (boundsSet_eq_ok hbs).2 } }
  | controls path initial final =>
    refine Edit.keeps_store fun b bs b' hb hbs hb' => ?_
    rw [hb.controls] at hbs
    exact { hb' with fits := { hb'.fits with controls := (boundsSet_eq_ok hbs).2 } }
  | multipliers bounds =>
    refine Edit.keeps_store fun b _ b' hb hcount hb' => ?_
    rw [hb.multipliers, checkCount_int] at hcount
    exact { hb' with fits := { hb'.fits with multipliers := hcount.symm } }
  | parameters bounds =>
    refine Edit.keeps_store fun b _ b' hb hcount hb' => ?_
    rw [hb.parameters, checkCount_int] at hcount
    exact { hb' with fits := { hb'.fits with parameters := hcount.symm } }
  | times initial final =>
    exact Edit.keeps_modify fun b hb => { hb with fits := { hb.fits with } }
  | names xs us ms ps =>
    refine Edit.keeps_bind (setNamesOf_keeps (fun _ hb => hb.states) ?xs) fun _ _ _ _ _ => ?_
    case xs => exact fun ns b hns hb => { hb with fits := { hb.fits with stateNames := hns } }
    refine Edit.keeps_bind (setNamesOf_keeps (fun _ hb => hb.controls) ?us) fun _ _ _ _ _ => ?_
    case us => exact fun ns b hns hb => { hb with fits := { hb.fits with controlNames := hns } }
    refine Edit.keeps_bind (setNamesOf_keeps (fun _ hb => hb.multipliers) ?ms) fun _ _ _ _ _ => ?_
    case ms => exact fun ns b hns hb => { hb with fits := { hb.fits with multiplierNames := hns } }
    refine setNamesOf_keeps (fun _ hb => hb.parameters) ?_
    exact fun ns b hns hb => { hb with fits := { hb.fits with parameterNames := hns } }

/-- After any calls, of which some may have failed, a layout is built, and every variable has its
place in it. -/
theorem build_afterAll {indices : Value α} (h : ofRequest (.ofSizes points d indices) = .ok b)
    (calls : List (Setter α)) : ∃ asked l, (d.multipliers ≠ 0 → namedPoints indices = .ok asked) ∧
      (Edit.afterAll Setter.run calls b).build = .ok l ∧
      Constrained points d.multipliers asked l.constrained ∧
      l.Arranged points d l.constrained (Edit.afterAll Setter.run calls b).arrangement := by
  obtain ⟨asked, ks, hnamed, hks, hsized, -⟩ := ofRequest_sized h
  have hafter := Edit.afterAll_keeps (I := fun b : LayoutBuilder α => b.Sized points d ks)
    (fun c (_ : c ∈ calls) => c.run_keeps) hsized
  obtain ⟨l, hl, harranged⟩ := build_arranged hafter hks.inside hks.nodup
  have heq : l.constrained = ks := harranged.constrained
  exact ⟨asked, l, hnamed, hl, heq ▸ hks, heq ▸ harranged⟩

end LayoutBuilder

end Collocation
