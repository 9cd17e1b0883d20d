import Opnsense.Playbook

namespace Opnsense
namespace Site
open Interaction BaseManager

variable {I : Type} [DecidableEq I] {site : Site I} {ts : List (Task I)} {t : Task I}

/-- What the declaration wants of the resources of its identity. -/
def Task.Met (site : Site I) (t : Task I) (content : List Resource) : Prop :=
  (t.state = "present" → ∃ r, content = [r] ∧ t.Agrees site r) ∧
    (t.state = "absent" → content = [])

/-- The server shows what it stores, and the parameters are texts with the match keys. -/
structure Task.Plain (site : Site I) (t : Task I) : Prop where
  transparent : TableServer.Transparent (site.api t.manager) (site.manager t.manager)
  declares : TableServer.Declares (site.manager t.manager) t.params

omit [DecidableEq I] in
theorem Task.Plain.faithful (h : t.Plain site) : t.Faithful site :=
  ⟨h.transparent.faithful h.declares, h.declares.has⟩

omit [DecidableEq I] in
theorem Task.Plain.met_of_settles (h : t.Plain site) {x y : List Resource} {res : EnsureResult}
    (hsettles : t.Settles site x y res) : t.Met site y := by
  have hne : "present" ≠ "absent" := by decide
  cases hsettles with
  | @created r _ hstate hfields =>
    refine ⟨fun _ => ⟨r, rfl, ?_⟩, fun habsent => absurd (hstate.symm.trans habsent) hne⟩
    apply TableServer.computeDiff_compared h.transparent h.declares
    rw [hfields]
    exact h.transparent.fill_holds _ h.declares.text
  | kept hstate _ hagrees =>
    exact ⟨fun _ => ⟨_, rfl, hagrees⟩, fun habsent => absurd (hstate.symm.trans habsent) hne⟩
  | updated hstate =>
    refine ⟨fun _ => ⟨_, rfl, ?_⟩, fun habsent => absurd (hstate.symm.trans habsent) hne⟩
    apply TableServer.computeDiff_compared h.transparent h.declares
    exact h.transparent.merge_holds _ _ h.declares.text
  | gone hstate => exact ⟨fun hpresent => absurd (hpresent.symm.trans hstate) hne, fun _ => rfl⟩
  | deleted hstate => exact ⟨fun hpresent => absurd (hpresent.symm.trans hstate) hne, fun _ => rfl⟩

omit [DecidableEq I] in
/-- A declaration that is met changes nothing, unless it is forced to. -/
theorem Task.quiet_of_met (hforce : t.force = false) {x y : List Resource} {res : EnsureResult}
    (hmet : t.Met site x) (hsettles : t.Settles site x y res) :
    y = x ∧ res.changed = false ∧ res.action = .noop := by
  cases hsettles with
  | created hstate =>
    obtain ⟨r, hr, -⟩ := hmet.1 hstate
    cases hr
  | kept _ _ _ hchanged haction => exact ⟨rfl, hchanged, haction⟩
  | updated hstate hdrift =>
    obtain ⟨r, hr, hagrees⟩ := hmet.1 hstate
    cases hr
    rcases hdrift with hdrift | hdrift
    · rw [hforce] at hdrift
      cases hdrift
    · exact absurd hagrees hdrift
  | gone _ hchanged haction => exact ⟨rfl, hchanged, haction⟩
  | deleted hstate =>
    have hnil := hmet.2 hstate
    cases hnil

/-- The declarations of one identity say the same. -/
def Consistent (site : Site I) (ts : List (Task I)) : Prop :=
  ∀ t ∈ ts, ∀ t' ∈ ts, t.key site = t'.key site → t.state = t'.state ∧ t.params = t'.params

omit [DecidableEq I] in
theorem Consistent.met (h : site.Consistent ts) {t t' : Task I} (ht : t ∈ ts) (ht' : t' ∈ ts)
    (hkey : t.key site = t'.key site) {x : List Resource} (hmet : t'.Met site x) :
    t.Met site x := by
  obtain ⟨hstate, hparams⟩ := h t ht t' ht' hkey
  have hmanager : t.manager = t'.manager := congrArg Prod.fst hkey
  obtain ⟨manager, state, params, force⟩ := t
  obtain ⟨manager', state', params', force'⟩ := t'
  obtain rfl : manager = manager' := hmanager
  obtain rfl : state = state' := hstate
  obtain rfl : params = params' := hparams
  exact hmet

section Sample

/-- The first client runs its script twice, beside the second one. -/
def twiceScripts : Client → List (Task Bool)
  | .first => sampleScripts .first ++ sampleScripts .first
  | .second => sampleScripts .second

theorem mem_twiceScripts {i : Client} {t : Task Bool} :
    t ∈ twiceScripts i ↔ t ∈ sampleScripts i := by
  cases i with
  | first => simp [twiceScripts]
  | second => rfl

theorem declared_twiceScripts {i : Client} {k : Key Bool} :
    sampleSite.Declared (twiceScripts i) k ↔ sampleSite.Declared (sampleScripts i) k := by
  simp [Declared, mem_twiceScripts]

theorem twiceScripts_done : ∃ results, ((Pool.schedule sampleSite.network
    (List.replicate 20 Client.first) (sampleSite.begin twiceScripts
      (emptySite, []))).progs .first).next = .inl (.ok results) := by
  refine playbooks_succeed (fun i t ht => sampleScripts_faithful i t (mem_twiceScripts.mp ht)) ?_
    (fun i t ht => sampleScripts_acceptable i t (mem_twiceScripts.mp ht)) emptySite
    (fun i t _ => by simp [cell, emptySite]) _ (by decide)
  intro i j hne k hi hj
  exact sampleScripts_apart i j hne k (declared_twiceScripts.mp hi) (declared_twiceScripts.mp hj)

end Sample

end Site
end Opnsense
