import Mathlib.Order.Bounds.Basic
import Opnsense.Table

namespace Opnsense
namespace TableServer
open Interaction

/-- The server stores the match keys it is sent, shows them as stored, and a search keeps
every row of which a match key contains the phrase. -/
structure Faithful (api : TableServer) (m : BaseManager) (params : Obj) : Prop where
  fill_text : ∀ k ∈ m.matchKeys, params.has k = true → (api.fill params).text k = params.text k
  merge_text : ∀ stored, ∀ k ∈ m.matchKeys, params.has k = true →
    (api.merge stored params).text k = params.text k
  row_text : ∀ r k, k ∈ m.matchKeys → (api.row r).text k = r.fields.text k
  keep_match : ∀ phrase r k, k ∈ m.matchKeys →
    phrase.toList <:+: ((api.row r).text k).toList → api.keep phrase r = true

section Classes

variable (api : TableServer) (m : BaseManager) (params : Obj)

def hasIdentity (r : Resource) : Bool := sameIdentity m.matchKeys params (api.row r)

/-- The uuids of the resources with the identity of the parameters. -/
def owners (T : Table) : List String :=
  (T.resources.entries.filter (api.hasIdentity m params)).map (·.uuid)

/-- The same, in the order in which the manager sees them. -/
def sortedOwners (T : Table) : List String :=
  (api.owners m params T).insertionSort (· ≤ ·)

/-- The resources of any other identity. -/
def others (T : Table) : List Resource :=
  T.resources.entries.filter fun r => !api.hasIdentity m params r

end Classes

variable {api : TableServer} {m : BaseManager} {params : Obj} {T : Table}

theorem owners_congr {T' : Table} (h : T'.resources = T.resources) :
    api.owners m params T' = api.owners m params T := by
  rw [owners, owners, h]

theorem sortedOwners_congr {T' : Table} (h : T'.resources = T.resources) :
    api.sortedOwners m params T' = api.sortedOwners m params T := by
  rw [sortedOwners, sortedOwners, owners_congr h]

theorem others_congr {T' : Table} (h : T'.resources = T.resources) :
    api.others m params T' = api.others m params T := by
  rw [others, others, h]

theorem owners_nodup : (api.owners m params T).Nodup :=
  T.resources.nodup.sublist (List.filter_sublist.map _)

theorem mem_owners {u : String} :
    u ∈ api.owners m params T ↔
      ∃ r ∈ T.resources.entries, api.hasIdentity m params r = true ∧ r.uuid = u := by
  simp [owners, and_assoc]

theorem mem_sortedOwners {u : String} :
    u ∈ api.sortedOwners m params T ↔ u ∈ api.owners m params T :=
  (List.perm_insertionSort _ _).mem_iff

theorem sortedOwners_eq_nil : api.sortedOwners m params T = [] ↔ api.owners m params T = [] := by
  rw [← List.length_eq_zero_iff, ← List.length_eq_zero_iff, sortedOwners,
    List.length_insertionSort]

theorem owners_of_sortedOwners {u : String} (h : api.sortedOwners m params T = [u]) :
    api.owners m params T = [u] := by
  have hperm : (api.owners m params T).Perm [u] := by
    rw [← h]
    exact (List.perm_insertionSort _ _).symm
  exact List.perm_singleton.mp hperm

theorem sortedOwners_split {u : String} {us : List String}
    (h : api.sortedOwners m params T = u :: us) :
    u ∉ us ∧ us ⊆ api.owners m params T := by
  have hnodup : (u :: us).Nodup := by
    rw [← h]
    exact (List.perm_insertionSort _ _).nodup_iff.mpr owners_nodup
  refine ⟨(List.nodup_cons.mp hnodup).1, fun v hv => ?_⟩
  rw [← mem_sortedOwners, h]
  exact List.mem_cons_of_mem _ hv

/-- The first of the sorted owners is the least. -/
theorem isLeast_of_sortedOwners {u : String} {us : List String}
    (h : api.sortedOwners m params T = u :: us) :
    IsLeast {v | v ∈ api.owners m params T} u := by
  have hsorted : (u :: us).Pairwise (· ≤ ·) := by
    rw [← h]
    exact List.pairwise_insertionSort _ _
  constructor
  · rw [Set.mem_ofPred_eq, ← mem_sortedOwners, h]
    exact List.mem_cons_self ..
  · intro v hv
    rw [Set.mem_ofPred_eq, ← mem_sortedOwners, h] at hv
    rcases List.mem_cons.mp hv with rfl | hv
    · exact le_refl v
    · exact List.rel_of_pairwise_cons hsorted hv

theorem exists_isLeast (h : api.owners m params T ≠ []) :
    ∃ u, IsLeast {v | v ∈ api.owners m params T} u := by
  rcases hsorted : api.sortedOwners m params T with _ | ⟨u, us⟩
  · exact absurd (sortedOwners_eq_nil.mp hsorted) h
  · exact ⟨u, isLeast_of_sortedOwners hsorted⟩

/-- An owner is the only resource with its uuid, so every entry with it has the identity. -/
theorem hasIdentity_of_owner {u : String} (h : u ∈ api.owners m params T) {r : Resource}
    (hr : r ∈ T.resources.entries) (huuid : r.uuid = u) : api.hasIdentity m params r = true := by
  obtain ⟨r', hr', hident, huuid'⟩ := mem_owners.mp h
  have heq : r = r' :=
    List.inj_on_of_nodup_map T.resources.nodup hr hr' (huuid.trans huuid'.symm)
  rw [heq]
  exact hident

theorem keep_of_hasIdentity (hfaith : Faithful api m params) {r : Resource}
    (h : api.hasIdentity m params r = true) :
    api.keep (m.identity.searchPhrase params) r = true := by
  have hsame := sameIdentity_iff.mp h
  obtain ⟨k, hk, hinfix⟩ := m.identity.searchPhrase_infix params
  apply hfaith.keep_match _ _ k hk
  rw [hsame k hk]
  exact hinfix

/-- The rows found are the rows of the class, up to their order. -/
theorem found_perm (hfaith : Faithful api m params) :
    (matchingRows m.matchKeys params (api.rows (m.identity.searchPhrase params) T)).Perm
      ((T.resources.entries.filter (api.hasIdentity m params)).map api.row) := by
  have hfilter : (T.resources.entries.filter (api.keep (m.identity.searchPhrase params))).filter
      (api.hasIdentity m params) = T.resources.entries.filter (api.hasIdentity m params) := by
    rw [List.filter_filter]
    apply List.filter_congr
    intro r _
    cases hident : api.hasIdentity m params r with
    | false => simp
    | true => simp [keep_of_hasIdentity hfaith hident]
  refine (matchingRows_perm _ _ _).trans ?_
  refine ((api.arrange_perm _ _).filter _).trans (List.Perm.of_eq ?_)
  rw [List.filter_map, ← hfilter]
  rfl

/-- In the order of the lookup the found rows name the sorted owners. -/
theorem found_uuids (hfaith : Faithful api m params) :
    (matchingRows m.matchKeys params (api.rows (m.identity.searchPhrase params) T)).map
      (·.text "uuid") = api.sortedOwners m params T := by
  have hperm : ((matchingRows m.matchKeys params
      (api.rows (m.identity.searchPhrase params) T)).map (·.text "uuid")).Perm
      (api.owners m params T) := by
    refine ((found_perm hfaith).map _).trans (List.Perm.of_eq ?_)
    rw [List.map_map]
    exact List.map_congr_left fun r _ => row_text_uuid r
  have hsorted : ((matchingRows m.matchKeys params
      (api.rows (m.identity.searchPhrase params) T)).map (·.text "uuid")).Pairwise (· ≤ ·) := by
    rw [List.pairwise_map]
    have htrans : IsTrans Obj byUuid := ⟨fun _ _ _ h h' => le_trans h h'⟩
    have htotal : Std.Total byUuid := ⟨fun a b => le_total (a.text "uuid") (b.text "uuid")⟩
    exact List.pairwise_insertionSort byUuid _
  apply List.Perm.eq_of_pairwise' hsorted (List.pairwise_insertionSort _ _)
  exact hperm.trans (List.perm_insertionSort _ _).symm

/-- A found row is the row of an owner, and its uuid is known from the row. -/
theorem found_row (hfaith : Faithful api m params) {row : Obj}
    (h : row ∈ matchingRows m.matchKeys params
      (api.rows (m.identity.searchPhrase params) T)) :
    ∃ r ∈ T.resources.entries, api.hasIdentity m params r = true ∧ api.row r = row := by
  obtain ⟨r, hr, rfl⟩ := List.mem_map.mp ((found_perm hfaith).mem_iff.mp h)
  obtain ⟨hmem, hident⟩ := List.mem_filter.mp hr
  exact ⟨r, hmem, hident, rfl⟩

theorem owners_add_of_true (h : api.hasIdentity m params (api.added params T) = true) :
    api.owners m params (api.add params T) =
      api.owners m params T ++ [(api.added params T).uuid] := by
  have hfilter : (api.add params T).resources.entries.filter (api.hasIdentity m params) =
      T.resources.entries.filter (api.hasIdentity m params) ++ [api.added params T] :=
    Keyed.filter_insert_of_true _ (api.fresh_new _ _) h
  rw [owners, hfilter, List.map_append]
  rfl

theorem owners_add_of_false (h : api.hasIdentity m params (api.added params T) = false) :
    api.owners m params (api.add params T) = api.owners m params T := by
  have hfilter : (api.add params T).resources.entries.filter (api.hasIdentity m params) =
      T.resources.entries.filter (api.hasIdentity m params) :=
    Keyed.filter_insert_of_false _ (api.fresh_new _ _) h
  rw [owners, hfilter]
  rfl

/-- A change that keeps the identity keeps the class. -/
theorem owners_set_of {u : String} (h : u ∈ api.owners m params T)
    (hchanged : ∀ r, api.hasIdentity m params r = true →
      api.hasIdentity m params (api.changed params r) = true) :
    api.owners m params (api.set u params T) = api.owners m params T := by
  apply Keyed.keys_filter_modify _ (api.changed_uuid params)
  intro r hr huuid
  have hident := hasIdentity_of_owner h hr huuid
  rw [hident, hchanged r hident]

section Writes

variable (hfaith : Faithful api m params) (hkeys : ∀ k ∈ m.matchKeys, params.has k = true)
include hfaith hkeys

theorem hasIdentity_added : api.hasIdentity m params (api.added params T) = true := by
  apply sameIdentity_iff.mpr
  intro k hk
  rw [hfaith.row_text _ k hk]
  exact hfaith.fill_text k hk (hkeys k hk)

theorem hasIdentity_changed (r : Resource) :
    api.hasIdentity m params (api.changed params r) = true := by
  apply sameIdentity_iff.mpr
  intro k hk
  rw [hfaith.row_text _ k hk]
  exact hfaith.merge_text r.fields k hk (hkeys k hk)

theorem owners_add : api.owners m params (api.add params T) =
    api.owners m params T ++ [(api.added params T).uuid] :=
  owners_add_of_true (hasIdentity_added hfaith hkeys)

theorem others_add : api.others m params (api.add params T) = api.others m params T := by
  have hnot : (!api.hasIdentity m params (api.added params T)) = false := by
    rw [hasIdentity_added hfaith hkeys]
    rfl
  exact Keyed.filter_insert_of_false _ (api.fresh_new _ _) hnot

theorem owners_set {u : String} (h : u ∈ api.owners m params T) :
    api.owners m params (api.set u params T) = api.owners m params T :=
  owners_set_of h fun r _ => hasIdentity_changed hfaith hkeys r

theorem others_set {u : String} (h : u ∈ api.owners m params T) :
    api.others m params (api.set u params T) = api.others m params T := by
  apply Keyed.filter_modify_of_false _ (api.changed_uuid params)
  intro r hr huuid
  rw [hasIdentity_of_owner h hr huuid, hasIdentity_changed hfaith hkeys r]
  exact ⟨rfl, rfl⟩

end Writes

theorem owners_del (u : String) :
    api.owners m params (T.del u) = (api.owners m params T).filter (· ≠ u) :=
  Keyed.keys_filter_erase _ _ _

theorem others_del {u : String}
    (h : ∀ r ∈ T.resources.entries, r.uuid = u → api.hasIdentity m params r = true) :
    api.others m params (T.del u) = api.others m params T := by
  apply Keyed.filter_erase_of_false
  intro r hr huuid
  rw [h r hr huuid]
  rfl

end TableServer
end Opnsense
