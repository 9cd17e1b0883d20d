import Opnsense.TableRuns

namespace Opnsense
namespace TableServer
open Interaction BaseManager

variable {api : TableServer} {m : BaseManager} {params : Obj} {T T' : Table}

/-- The class gained no owner, and other resources are as they were. -/
structure Shrunk (api : TableServer) (m : BaseManager) (params : Obj) (T T' : Table) : Prop where
  others_eq : api.others m params T' = api.others m params T
  subset : api.owners m params T' ⊆ api.owners m params T

theorem Shrunk.of_resources (h : T'.resources = T.resources) : Shrunk api m params T T' where
  others_eq := others_congr h
  subset := by
    rw [owners_congr h]
    exact List.Subset.refl _

theorem Shrunk.trans {T'' : Table} (h : Shrunk api m params T T')
    (h' : Shrunk api m params T' T'') : Shrunk api m params T T'' where
  others_eq := h'.others_eq.trans h.others_eq
  subset := List.Subset.trans h'.subset h.subset

/-- A resource that bears the uuid of an owner has not become another one. -/
theorem Shrunk.hasIdentity {u : String} (h : Shrunk api m params T T')
    (hu : u ∈ api.owners m params T) {r : Resource} (hr : r ∈ T'.resources.entries)
    (huuid : r.uuid = u) : api.hasIdentity m params r = true := by
  by_contra hnot
  have hother : r ∈ api.others m params T := by
    rw [← h.others_eq]
    exact List.mem_filter.mpr ⟨hr, by simpa using hnot⟩
  exact hnot (hasIdentity_of_owner hu (List.mem_of_mem_filter hother) huuid)

/-- Deleting what was an owner at the start. -/
theorem Shrunk.del {u : String} (h : Shrunk api m params T T')
    (hu : u ∈ api.owners m params T) : Shrunk api m params T (T'.del u) where
  others_eq := by
    rw [others_del fun r hr huuid => h.hasIdentity hu hr huuid, h.others_eq]
  subset := by
    rw [owners_del]
    exact fun v hv => h.subset (List.mem_of_mem_filter hv)

/-- The class kept its least owner and gained none; a class without owners got at most
one. Other resources are as they were. -/
structure Kept (api : TableServer) (m : BaseManager) (params : Obj) (T T' : Table) : Prop where
  others_eq : api.others m params T' = api.others m params T
  least_mem : ∀ u, IsLeast {v | v ∈ api.owners m params T} u → u ∈ api.owners m params T'
  subset : api.owners m params T ≠ [] → api.owners m params T' ⊆ api.owners m params T
  length_le : api.owners m params T = [] → (api.owners m params T').length ≤ 1

theorem Kept.of_resources (h : T'.resources = T.resources) : Kept api m params T T' where
  others_eq := others_congr h
  least_mem u hu := by
    rw [owners_congr h]
    exact hu.1
  subset _ := by
    rw [owners_congr h]
    exact List.Subset.refl _
  length_le hnil := by
    rw [owners_congr h, hnil]
    exact Nat.zero_le 1

/-- The least owner stays the least one. -/
theorem Kept.least {u : String} (h : Kept api m params T T')
    (hu : IsLeast {v | v ∈ api.owners m params T} u) :
    IsLeast {v | v ∈ api.owners m params T'} u := by
  have hne : api.owners m params T ≠ [] := List.ne_nil_of_mem hu.1
  exact ⟨h.least_mem u hu, fun v hv => hu.2 (h.subset hne hv)⟩

theorem Kept.trans {T'' : Table} (h : Kept api m params T T') (h' : Kept api m params T' T'') :
    Kept api m params T T'' where
  others_eq := h'.others_eq.trans h.others_eq
  least_mem u hu := h'.least_mem u (h.least hu)
  subset hne := by
    obtain ⟨u, hu⟩ := exists_isLeast hne
    have hmin : api.owners m params T' ≠ [] := List.ne_nil_of_mem (h.least_mem u hu)
    exact List.Subset.trans (h'.subset hmin) (h.subset hne)
  length_le hnil := by
    by_cases hempty : api.owners m params T' = []
    · exact h'.length_le hempty
    · have hle := (owners_nodup (T := T'')).length_le_of_subset (h'.subset hempty)
      exact hle.trans (h.length_le hnil)

/-- The requests a de-duplicating call can make once the rows of the class are known:
reads, applies, the removal of other owners and a change of the kept one, if one is kept. -/
def Careful (params : Obj) (kept : Option String) (gone : List String) : Request → Prop
  | .delete _ u => u ∈ gone
  | .update _ u _ sent => some u = kept ∧ sent = params
  | .create .. => False
  | .post .. => False
  | _ => True

section Asks

variable {kept : Option String} {gone : List String}

theorem careful_of_read (q : Request) (h : q.isRead = true) : Careful params kept gone q := by
  cases q <;> trivial

theorem asks_apply_careful : m.apply.Asks (Careful params kept gone) :=
  asks_apply_within fun _ _ => trivial

theorem asks_delete_careful {u : String} (hu : u ∈ gone) :
    (m.delete (.str u) false).Asks (Careful params kept gone) :=
  asks_delete_within careful_of_read asks_apply_careful fun _ => hu

theorem asks_deleteAll_careful {us : List String} (hus : us ⊆ gone) :
    (m.deleteAll us).Asks (Careful params kept gone) :=
  asks_deleteAll_within careful_of_read asks_apply_careful fun _ hu => hus hu

theorem asks_update_careful {u : String} :
    (m.update (.str u) params false).Asks (Careful params (some u) gone) :=
  asks_update_within careful_of_read asks_apply_careful fun _ => ⟨rfl, rfl⟩

end Asks

/-- A careful request shrinks the class, when those to go were owners at the start. -/
theorem careful_shrinks {q : Request} {gone : List String} {S : Table}
    (hgone : gone ⊆ api.owners m params T) (hq : Careful params none gone q)
    (hS : Shrunk api m params T S) :
    Shrunk api m params T (api.serve m.config.payloadKey q S).2 := by
  have hsame : ∀ S' : Table, S'.resources = S.resources → Shrunk api m params T S' :=
    fun S' h => hS.trans (Shrunk.of_resources h)
  cases q with
  | get => exact hsame _ rfl
  | search => exact hsame _ rfl
  | reconfigure => exact hsame _ rfl
  | post => exact hq.elim
  | create => exact hq.elim
  | update => cases hq.1
  | delete action u => exact hS.del (hgone hq)

/-- A careful request keeps the least owner, when it is the one kept. -/
theorem careful_keeps (hfaith : Faithful api m params)
    (hkeys : ∀ k ∈ m.matchKeys, params.has k = true) {q : Request} {u : String}
    {us : List String} {S : Table} (hsorted : api.sortedOwners m params T = u :: us)
    (hq : Careful params (some u) us q) (hS : Kept api m params T S) :
    Kept api m params T (api.serve m.config.payloadKey q S).2 := by
  have hleast := isLeast_of_sortedOwners hsorted
  have hne : api.owners m params T ≠ [] := List.ne_nil_of_mem hleast.1
  have hmem : u ∈ api.owners m params S := hS.least_mem u hleast
  have hsame : ∀ S' : Table, S'.resources = S.resources → Kept api m params T S' :=
    fun S' h => hS.trans (Kept.of_resources h)
  cases q with
  | get => exact hsame _ rfl
  | search => exact hsame _ rfl
  | reconfigure => exact hsame _ rfl
  | post => exact hq.elim
  | create => exact hq.elim
  | update action v payloadKey sent =>
    obtain ⟨hv, rfl⟩ := hq
    cases hv
    have howners : api.owners m sent (api.serve m.config.payloadKey
        (.update action u payloadKey sent) S).2 = api.owners m sent S :=
      owners_set hfaith hkeys hmem
    refine ⟨(others_set hfaith hkeys hmem).trans hS.others_eq, ?_, ?_, fun hnil => absurd hnil hne⟩
    · rw [howners]
      exact hS.least_mem
    · rw [howners]
      exact hS.subset
  | delete action v =>
    obtain ⟨hnot, hus⟩ := sortedOwners_split hsorted
    have hdel := (Shrunk.mk hS.others_eq (hS.subset hne)).del (hus hq)
    refine ⟨hdel.others_eq, ?_, fun _ => hdel.subset, fun hnil => absurd hnil hne⟩
    intro w hw
    -- the least owner is not among those to go
    obtain rfl := hw.unique hleast
    have hne' : w ≠ v := fun heq => hnot (heq ▸ hq)
    change w ∈ api.owners m params (S.del v)
    rw [owners_del]
    exact List.mem_filter.mpr ⟨hmem, by simpa using hne'⟩

end TableServer
end Opnsense
