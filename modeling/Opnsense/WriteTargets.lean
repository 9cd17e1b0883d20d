import Opnsense.Accepting
import Opnsense.CheckMode

namespace Opnsense
open Interaction

/-- The uuid a set or del request carries. -/
def Request.target : Request → Option String
  | .update _ uuid .. => some uuid
  | .delete _ uuid => some uuid
  | _ => none

/-- What a set or del request names is of `S`. -/
abbrev Aims (S : String → Prop) (q : Request) : Prop := ∀ uuid, q.target = some uuid → S uuid

theorem aims_of_target_none {S : String → Prop} {q : Request} (h : q.target = none) : Aims S q := by
  intro uuid huuid
  rw [h] at huuid
  cases huuid

theorem aims_of_read {S : String → Prop} (q : Request) (h : q.isRead = true) : Aims S q := by
  apply aims_of_target_none
  cases q with
  | get => rfl
  | search => rfl
  | _ => cases h

namespace BaseManager

variable {m : BaseManager} {params : Obj} {check dedupe force : Bool} {S : String → Prop}

theorem asks_apply_aims : m.apply.Asks (Aims S) :=
  asks_apply_within fun _ _ => aims_of_target_none rfl

theorem asks_deleteAll_aims {uuids : List String} (h : ∀ uuid ∈ uuids, S uuid) :
    (m.deleteAll uuids).Asks (Aims S) := by
  apply asks_deleteAll_within aims_of_read asks_apply_aims
  intro uuid huuid target htarget
  rw [← Option.some.inj htarget]
  exact h uuid huuid

theorem asks_converge_aims (state : String) {existing : Option Obj}
    (h : ∀ row, existing = some row → S (row.text "uuid")) :
    (m.converge state params check force existing).Asks (Aims S) := by
  apply asks_converge_within aims_of_read asks_apply_aims state
  · exact fun _ _ => aims_of_target_none rfl
  · intro row hrow _ target htarget
    rw [← Option.some.inj htarget]
    exact h row hrow
  · intro _ row hrow _ target htarget
    rw [← Option.some.inj htarget]
    exact h row hrow

/-- The rows of a search reply. -/
def rowsOf (reply : Reply) : Except Exc (List Obj) := do
  let v ← reply
  let items ← iterate v
  asRows items

/-- Those that match all identity keys, in the order of the lookup. -/
def matched (m : BaseManager) (params : Obj) (reply : Reply) : List Obj :=
  match rowsOf reply with
  | .ok rows => matchingRows m.matchKeys params rows
  | .error _ => []

section Search

variable {σ : Type} {srv : Appliance σ} {s s' : σ} {reply : Reply} {t : List (Request × Reply)}

theorem run_findMatching_eq
    (hreply : (srv (m.listRequest (m.identity.searchPhrase params)) s).1 = reply) :
    ∃ s₁, (m.identity.findMatching params m.list none).run srv s =
      ((rowsOf reply).map (matchingRows m.matchKeys params), s₁) := by
  rcases hserve : srv (m.listRequest (m.identity.searchPhrase params)) s with ⟨reply', s₁⟩
  rw [hserve] at hreply
  subst hreply
  have hlist : (m.list (Option.getD none (m.identity.searchPhrase params))).run srv s =
      (reply', s₁) := (run_list_eq _).trans hserve
  refine ⟨s₁, ?_⟩
  unfold IdentityResolver.findMatching
  rcases reply' with e | v
  · rw [Prog.run_bind_of_error hlist]
    rfl
  · rw [Prog.run_bind_of_ok hlist]
    have hrows : rowsOf (.ok v) = iterate v >>= asRows := rfl
    rw [hrows]
    rcases iterate v with e | items
    · rfl
    · show Prog.run srv (Prog.ofExcept (asRows items) >>= _) s₁ = ((asRows items).map _, s₁)
      rcases asRows items with e | rows
      · rfl
      · rfl

/-- What a search that returned found. -/
theorem matched_of_returns_findMatching
    (hreply : (srv (m.listRequest (m.identity.searchPhrase params)) s).1 = reply)
    {found : List Obj}
    (h : (m.identity.findMatching params m.list none).Returns srv s found s' t) :
    found = m.matched params reply := by
  obtain ⟨s₁, hrun⟩ := run_findMatching_eq hreply
  have hfound := h.1.symm.trans hrun
  rw [Prod.mk.injEq] at hfound
  unfold matched
  rcases hrows : rowsOf reply with e | rows
  · rw [hrows] at hfound
    cases hfound.1
  · rw [hrows] at hfound
    exact Except.ok.inj hfound.1

variable (hreply : (srv (m.listRequest (m.identity.searchPhrase params)) s).1 = reply)

include hreply

/-- The row found is one of those. -/
theorem found_of_returns_lookup {found : Option Obj} {deduped : List String}
    (h : (m.lookup params check dedupe).Returns srv s (found, deduped) s' t) :
    found = (m.matched params reply).head? := by
  cases dedupe with
  | false =>
    obtain ⟨found', s₁, t₁, t₂, hfind, hret, -⟩ := Prog.returns_bind.mp h
    obtain ⟨heq, -, -⟩ := Prog.returns_ret.mp hret
    obtain ⟨rows, hrows, -, rfl⟩ := returns_findExisting hfind
    cases heq
    rw [matched_of_returns_findMatching hreply hrows]
  | true =>
    obtain ⟨rows, s₁, t₁, t₂, hrows, -, rfl, -⟩ := returns_collapseDuplicates h
    rw [matched_of_returns_findMatching hreply hrows]

/-- Besides reading, a lookup removes the rows behind the first. -/
theorem aims_of_mem_trace_lookup (h : ∀ row ∈ (m.matched params reply).tail, S (row.text "uuid"))
    {qr : Request × Reply} (hqr : qr ∈ (m.lookup params check dedupe).trace srv s) :
    Aims S qr.1 := by
  cases dedupe with
  | false =>
    have hasks : (m.lookup params check false).Asks ReadOnly :=
      Prog.asks_bind asks_findExisting fun _ => trivial
    exact aims_of_read _ (hasks.of_mem_trace hqr)
  | true =>
    rcases Prog.mem_trace_bind hqr with hfind | ⟨found, s₁, hfind, hrest⟩
    · exact aims_of_read _ ((asks_findMatching none).of_mem_trace hfind)
    · obtain rfl := matched_of_returns_findMatching hreply (Prog.returns_of_run hfind)
      rcases hmatched : m.matched params reply with _ | ⟨survivor, _ | ⟨row, rest⟩⟩
      · rw [hmatched] at hrest
        cases hrest
      · rw [hmatched] at hrest
        cases hrest
      · rw [hmatched] at hrest h
        have hremoved : ∀ uuid ∈ (row :: rest).map (·.text "uuid"), S uuid := by
          intro uuid huuid
          obtain ⟨row', hrow', rfl⟩ := List.mem_map.mp huuid
          exact h row' hrow'
        refine (Prog.asks_bind (asks_log ..) fun _ => ?_ : Prog.Asks (Aims S) _).of_mem_trace hrest
        cases check with
        | true => trivial
        | false => exact Prog.asks_bind (asks_deleteAll_aims hremoved) fun _ => trivial

end Search

/-- A row with a uuid is compared under it, hydrated or not. -/
theorem text_of_returns_hydrateNested {σ : Type} {srv : Appliance σ} {s s' : σ}
    {t : List (Request × Reply)} {row : Obj} {existing : Option Obj} (hrow : rowUuid row ≠ "")
    (h : (m.hydrateNested (some row) params).Returns srv s existing s' t) :
    ∃ fields, existing = some fields ∧ fields.text "uuid" = rowUuid row := by
  have hreturns := returns_hydrateNested.mp h
  split at hreturns
  · obtain ⟨item, fields, -, hitem, rfl⟩ := hreturns
    refine ⟨fields, rfl, ?_⟩
    rw [Obj.text_of_lookup (lookup_of_setItem hitem), pyStr_str]
  · obtain ⟨rfl, -, -⟩ := hreturns
    exact ⟨row, rfl, (rowUuid_eq_text hrow).symm⟩

end BaseManager
end Opnsense
