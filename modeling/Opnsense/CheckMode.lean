import Opnsense.Effects

namespace Opnsense
namespace BaseManager
open Interaction

variable {σ : Type} {srv : Appliance σ} {m : BaseManager} {s s' : σ}
  {t t' : List (Request × Reply)} {params : Obj} {check dedupe force : Bool} {uuid : Option String}

/-- The reply to a request for the item of `u`. -/
def itemReply (srv : Appliance σ) (m : BaseManager) (u : String) (s : σ) : Reply :=
  (srv (.get (m.config.get (.str u))) s).1

/-- Requests that do not concern the resource `u`: reads, applies, other deletions. -/
def Spares (m : BaseManager) (u : String) : Request → Prop
  | .get .. => True
  | .search .. => True
  | .reconfigure .. => True
  | .delete action u' => action = m.config.delete ∧ u' ≠ u
  | _ => False

/-- A uuid names one resource: two rows of a search that have one never share it, and what does
not concern a resource leaves its item as it is. -/
structure Framed (srv : Appliance σ) (m : BaseManager) : Prop where
  item_eq : ∀ u q s, u ≠ "" → m.Spares u q →
    itemReply srv m u (srv q s).2 = itemReply srv m u s
  rows_nodup : ∀ phrase s (rows : List Obj) s' t,
    (m.list phrase).Returns srv s (.arr (rows.map .obj)) s' t →
    ((rows.map (·.text "uuid")).filter (· ≠ "")).Nodup

theorem spares_of_read {u : String} (q : Request) (h : q.isRead = true) : m.Spares u q := by
  cases q with
  | get => trivial
  | search => trivial
  | _ => cases h

theorem asks_deleteAll_spares {u : String} {uuids : List String} (h : u ∉ uuids) :
    (m.deleteAll uuids).Asks (m.Spares u) := by
  apply asks_deleteAll_within spares_of_read (asks_apply_within fun _ _ => trivial)
  intro uuid huuid
  exact ⟨rfl, fun heq => h (heq ▸ huuid)⟩

theorem deleteAll_itemReply (hframe : Framed srv m) {u : String} {uuids : List String}
    (hne : u ≠ "") (h : u ∉ uuids) {v : Unit} (hdel : (m.deleteAll uuids).Returns srv s v s' t) :
    itemReply srv m u s' = itemReply srv m u s := by
  have hrun : itemReply srv m u ((m.deleteAll uuids).run srv s).2 = itemReply srv m u s := by
    apply (asks_deleteAll_spares h).run_preserves
      (fun s₁ => itemReply srv m u s₁ = itemReply srv m u s)
    · intro q s₁ hq hs₁
      exact (hframe.item_eq u q s₁ hne hq).trans hs₁
    · rfl
  rwa [hdel.1] at hrun

/-- A survivor with a uuid is not among the rows removed. -/
theorem survivor_not_removed (hframe : Framed srv m) {phrase : Option String}
    {found : List Obj} {row : Obj}
    (h : (m.identity.findMatching params m.list phrase).Returns srv s found s' t)
    (hrow : found.head? = some row) (huuid : row.text "uuid" ≠ "") :
    row.text "uuid" ∉ found.tail.map (·.text "uuid") := by
  obtain ⟨v, rows, hlist, rfl, hv⟩ := returns_findMatching h
  have hnodup : (((matchingRows m.matchKeys params rows).map (·.text "uuid")).filter
      (· ≠ "")).Nodup := by
    by_cases hne : rows = []
    · subst hne
      exact List.nodup_nil
    · rw [hv hne] at hlist
      have hrows := hframe.rows_nodup _ _ _ _ _ hlist
      rw [(((matchingRows_perm m.matchKeys params rows).map _).filter _).nodup_iff]
      exact hrows.sublist ((List.filter_sublist.map _).filter _)
  obtain ⟨rest, hrest⟩ := List.head?_eq_some_iff.mp hrow
  rw [hrest, List.map_cons, List.filter_cons_of_pos (by simpa using huuid), List.nodup_cons]
    at hnodup
  rw [hrest, List.tail_cons]
  intro hmem
  exact hnodup.1 (List.mem_filter.mpr ⟨hmem, by simpa using huuid⟩)

/-- The two modes look up the same row and name the same duplicates, and leave the item
of that row the same. -/
theorem lookup_modes_agree (hframe : Framed srv m) {s₁ s₂ : σ} {e e' : Option Obj}
    {d d' : List String} (h : (m.lookup params true dedupe).Returns srv s (e, d) s₁ t)
    (h' : (m.lookup params false dedupe).Returns srv s (e', d') s₂ t') :
    e = e' ∧ d = d' ∧ ∀ row, e = some row → rowUuid row ≠ "" →
      itemReply srv m (rowUuid row) s₁ = itemReply srv m (rowUuid row) s₂ := by
  cases dedupe with
  | false =>
    obtain ⟨heq, rfl, -⟩ := Prog.Returns.unique h h'
    cases heq
    exact ⟨rfl, rfl, fun _ _ _ => rfl⟩
  | true =>
    obtain ⟨found, s₃, t₁, t₂, hfind, rfl, rfl, rfl, hcheck⟩ := returns_collapseDuplicates h
    obtain ⟨found', s₄, t₃, t₄, hfind', rfl, rfl, rfl, hdel⟩ := returns_collapseDuplicates h'
    obtain ⟨rfl, rfl, -⟩ := Prog.Returns.unique hfind hfind'
    obtain ⟨rfl, -⟩ := by simpa using hcheck
    refine ⟨rfl, rfl, fun row hrow hne => ?_⟩
    have hspared := survivor_not_removed hframe hfind hrow (rowUuid_eq_text hne ▸ hne)
    rw [← rowUuid_eq_text hne] at hspared
    exact (deleteAll_itemReply hframe hne hspared (by simpa using hdel)).symm

/-- The hydrated row depends on the server through the item of that row only. -/
theorem returns_hydrateNested_congr {s₁ s₂ s₁' s₂' : σ} {found existing existing' : Option Obj}
    (h : (m.hydrateNested found params).Returns srv s₁ existing s₁' t)
    (h' : (m.hydrateNested found params).Returns srv s₂ existing' s₂' t')
    (hitem : ∀ row, found = some row → rowUuid row ≠ "" →
      itemReply srv m (rowUuid row) s₁ = itemReply srv m (rowUuid row) s₂) :
    existing = existing' := by
  cases found with
  | none =>
    obtain ⟨rfl, -, -⟩ := Prog.returns_ret.mp h
    exact (Prog.returns_ret.mp h').1.symm
  | some row =>
    have hreturns := returns_hydrateNested.mp h
    have hreturns' := returns_hydrateNested.mp h'
    split at hreturns
    · rename_i hneed
      have hne : rowUuid row ≠ "" := by simpa using (Bool.and_eq_true_iff.mp hneed).2
      rw [if_pos hneed] at hreturns'
      obtain ⟨item, fields, hget, hfields, rfl⟩ := hreturns
      obtain ⟨item', fields', hget', hfields', rfl⟩ := hreturns'
      obtain ⟨body, hq, hv, rfl⟩ := returns_get.mp hget
      obtain ⟨body', hq', hv', rfl⟩ := returns_get.mp hget'
      -- both fetch the same item
      have hbody := hitem row rfl hne
      rw [itemReply, itemReply, hq, hq'] at hbody
      cases hbody
      cases hv.symm.trans hv'
      cases hfields.symm.trans hfields'
      rfl
    · rename_i hneed
      rw [if_neg hneed] at hreturns'
      exact hreturns.1.trans hreturns'.1.symm

theorem resolve_modes_agree (hframe : Framed srv m) {s₁ s₂ : σ} {e e' : Option Obj}
    {d d' : List String} (h : (m.resolve params true uuid dedupe).Returns srv s (e, d) s₁ t)
    (h' : (m.resolve params false uuid dedupe).Returns srv s (e', d') s₂ t') :
    e = e' ∧ d = d' := by
  cases uuid with
  | some uuid =>
    obtain ⟨heq, -, -⟩ := Prog.Returns.unique h h'
    cases heq
    exact ⟨rfl, rfl⟩
  | none =>
    obtain ⟨found, s₃, t₁, t₂, hlook, hhyd, rfl⟩ := returns_resolve h
    obtain ⟨found', s₄, t₃, t₄, hlook', hhyd', rfl⟩ := returns_resolve h'
    obtain ⟨rfl, rfl, hitem⟩ := lookup_modes_agree hframe hlook hlook'
    exact ⟨returns_hydrateNested_congr hhyd hhyd' hitem, rfl⟩

/-- Check mode predicts the verdict of the same call from the same state. -/
theorem ensure_check_predicts (hframe : Framed srv m) {state : String} {s₁ s₂ : σ}
    {r r' : EnsureResult}
    (h : (m.ensure state params true uuid dedupe force).Returns srv s r s₁ t)
    (h' : (m.ensure state params false uuid dedupe force).Returns srv s r' s₂ t') :
    (r.changed, r.action, r.deduped) = (r'.changed, r'.action, r'.deduped) := by
  obtain ⟨e, d, s₃, t₁, t₂, r₀, hres, hconv, -, rfl⟩ := returns_ensure h
  obtain ⟨e', d', s₄, t₃, t₄, r₀', hres', hconv', -, rfl⟩ := returns_ensure h'
  obtain ⟨rfl, rfl⟩ := resolve_modes_agree hframe hres hres'
  obtain ⟨hv, hd, -⟩ := returns_converge hconv
  obtain ⟨hv', hd', -⟩ := returns_converge hconv'
  have heq := hv.trans hv'.symm
  simp only [Prod.mk.injEq] at heq
  unfold withDedupe
  split
  · simp [heq.1, heq.2, hd, hd']
  · simp [heq.1, heq.2]

end BaseManager
end Opnsense
