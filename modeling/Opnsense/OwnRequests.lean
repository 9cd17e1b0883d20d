import Opnsense.IdsRuleset

namespace Opnsense
open Interaction

/-- Any read, some writes, and the apply of one endpoint. -/
def Among (writes : Request → Prop) (applied : Option String) : Request → Prop
  | .reconfigure ep _ => applied = some ep
  | q => q.isWrite = true → writes q

theorem among_of_read {writes : Request → Prop} {applied : Option String} (q : Request)
    (h : q.isRead = true) : Among writes applied q := by
  cases q with
  | get => exact fun hw => nomatch hw
  | search => exact fun hw => nomatch hw
  | _ => cases h

theorem ownWrite_of_among {writes : Request → Prop} {applied : Option String} {q : Request}
    (h : Among writes applied q) (hw : q.isWrite = true) : writes q := by
  cases q with
  | reconfigure => cases hw
  | _ => exact h hw

/-- A request reads, writes or applies. -/
theorem isRead_or_isWrite_or_apply (q : Request) :
    q.isRead = true ∨ q.isWrite = true ∨ ∃ ep opts, q = .reconfigure ep opts := by
  cases q with
  | get => exact Or.inl rfl
  | search => exact Or.inl rfl
  | reconfigure ep opts => exact Or.inr (Or.inr ⟨ep, opts, rfl⟩)
  | _ => exact Or.inr (Or.inl rfl)

theorem eq_reconfigure_of_isApply {q : Request} (h : q.isApply = true) :
    ∃ ep opts, q = .reconfigure ep opts := by
  cases q with
  | reconfigure ep opts => exact ⟨ep, opts, rfl⟩
  | _ => cases h

namespace BaseManager

variable {m : BaseManager} {params : Obj} {dedupe force : Bool}

def ownWrite (m : BaseManager) : Request → Prop
  | .create action .. => action = m.config.add
  | .update action .. => action = m.config.set
  | .delete action _ => action = m.config.delete
  | _ => False

abbrev Own (m : BaseManager) : Request → Prop := Among m.ownWrite m.config.apply

/-- Reads and the apply: what stores nothing. -/
abbrev Quiet (m : BaseManager) : Request → Prop := Among (fun _ => False) m.config.apply

theorem asks_apply_among {writes : Request → Prop} :
    m.apply.Asks (Among writes m.config.apply) :=
  asks_apply_within fun _ hep => hep

theorem asks_apply_own : m.apply.Asks m.Own := asks_apply_among

theorem asks_deleteAll_own (uuids : List String) : (m.deleteAll uuids).Asks m.Own :=
  asks_deleteAll_within among_of_read asks_apply_own fun _ _ _ => rfl

theorem asks_lookup_own : (m.lookup params false dedupe).Asks m.Own := by
  cases dedupe with
  | false =>
    exact Prog.asks_bind (Prog.asks_mono among_of_read asks_findExisting) fun _ => trivial
  | true =>
    apply Prog.asks_bind (Prog.asks_mono among_of_read (asks_findMatching none))
    intro found
    rcases found with _ | ⟨row, _ | ⟨row', rest⟩⟩
    · trivial
    · trivial
    · apply Prog.asks_bind (asks_log ..)
      intro _
      exact Prog.asks_bind (asks_deleteAll_own _) fun _ => trivial

theorem asks_resolve_own (uuid : Option String) :
    (m.resolve params false uuid dedupe).Asks m.Own := by
  cases uuid with
  | some uuid =>
    apply Prog.asks_bind (Prog.asks_mono among_of_read (asks_get _))
    intro existing
    exact Prog.asks_bind (by simp) fun _ => trivial
  | none =>
    apply Prog.asks_bind asks_lookup_own
    rintro ⟨existing, deduped⟩
    exact Prog.asks_bind (Prog.asks_mono among_of_read (asks_hydrateNested existing))
      fun _ => trivial

theorem asks_converge_own (state : String) (existing : Option Obj) :
    (m.converge state params false force existing).Asks m.Own :=
  asks_converge_within among_of_read asks_apply_own state (fun _ _ _ => rfl)
    (fun _ _ _ _ => rfl) fun _ _ _ _ _ => rfl

theorem asks_ensure_own (state : String) (uuid : Option String) :
    (m.ensure state params false uuid dedupe force).Asks m.Own := by
  apply Prog.asks_bind (Prog.asks_mono among_of_read (asks_validate state))
  intro _
  apply Prog.asks_bind (asks_resolve_own uuid)
  rintro ⟨existing, deduped⟩
  exact Prog.asks_bind (asks_converge_own state existing) fun _ => trivial

end BaseManager

namespace BaseSingletonManager

variable {m : BaseSingletonManager} {params : Obj}

def ownWrite (m : BaseSingletonManager) : Request → Prop
  | .post ep .. => ep = m.setEndpoint
  | _ => False

abbrev Own (m : BaseSingletonManager) : Request → Prop := Among m.ownWrite m.applyEndpoint

theorem asks_apply_own : m.apply.Asks m.Own := by
  unfold apply
  split
  · trivial
  · rename_i ep hep
    exact Prog.asks_bind (asks_logError ((asks_await _).mpr hep) _ _) fun _ => trivial

theorem asks_set_own : (m.set params false).Asks m.Own := by
  apply Prog.asks_bind (Prog.asks_mono among_of_read asks_get)
  intro before
  apply Prog.asks_bind (asks_logError (by simp) _ _)
  intro diff
  apply Prog.asks_bind (by simp)
  intro redactedBefore
  cases hdiff : diff.isNone with
  | true => exact Prog.asks_bind (asks_log ..) fun _ => trivial
  | false =>
    apply Prog.asks_bind (by simp)
    intro current
    apply Prog.asks_bind (by simp)
    intro redactedAfter
    have hsend : (do
        let _ ← await (.post m.setEndpoint (m.payload params))
        m.apply).Asks m.Own :=
      Prog.asks_bind ((asks_await _).mpr fun _ => rfl) fun _ => asks_apply_own
    apply Prog.asks_bind (asks_logError hsend _ _)
    intro _
    apply Prog.asks_bind (Prog.asks_mono among_of_read asks_get)
    intro actualAfter
    apply Prog.asks_bind (by simp)
    intro redactedActual
    exact Prog.asks_bind (asks_log ..) fun _ => trivial

theorem asks_ensure_own (state : String) : (m.ensure state params).Asks m.Own :=
  Prog.asks_bind (Prog.asks_mono among_of_read (asks_validate state)) fun _ => asks_set_own

end BaseSingletonManager

namespace IdsRulesetManager

def ownWrite : Request → Prop
  | .post ep .. => ∃ filename flag, ep = toggleEndpoint filename flag
  | _ => False

abbrev Own : Request → Prop := Among ownWrite (some applyEndpoint)

theorem asks_toggleAll_own (todo : List (String × String)) : (toggleAll todo).Asks Own := by
  induction todo with
  | nil => trivial
  | cons ff rest ih => exact Prog.asks_bind ((asks_await _).mpr fun _ => ⟨_, _, rfl⟩) fun _ => ih

theorem asks_converge_own (rows : Obj) (desired : List (String × Bool)) :
    (converge rows desired false true).Asks Own := by
  unfold converge
  split
  · exact Prog.asks_bind (asks_log ..) fun _ => trivial
  · have hsend : (send (todo rows desired) true).Asks Own := by
      apply Prog.asks_rescue
      · apply Prog.asks_bind (asks_toggleAll_own _)
        intro _
        exact Prog.asks_bind ((asks_await _).mpr rfl) fun _ => trivial
      · exact fun _ => trivial
    apply Prog.asks_bind hsend
    intro _
    exact Prog.asks_bind (asks_log ..) fun _ => trivial

theorem asks_ensureMany_own (desired : List (String × Bool)) :
    (ensureMany desired).Asks Own := by
  apply Prog.asks_bind (Prog.asks_mono among_of_read asks_list)
  intro catalogue
  apply Prog.asks_bind (by simp)
  intro rows
  split
  · trivial
  · exact asks_converge_own rows desired

end IdsRulesetManager
end Opnsense
