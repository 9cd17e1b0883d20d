import Opnsense.CheckMode
import Opnsense.Interaction.Keyed

/-! The appliance as one manager sees it: a table of resources behind the search, get,
add, set and del endpoints. What a row and an item show, which rows a phrase keeps, in
what order they come, and what a write stores are parameters. -/
namespace Opnsense
open Interaction

structure Resource where
  uuid : String
  fields : Obj
  uuid_ne : uuid ≠ ""

/-- The stored resources, and a clock that no two requests share. -/
structure Table where
  resources : Keyed Resource.uuid
  clock : ℕ

structure TableServer where
  row : Resource → Obj
  item : Resource → Obj
  keep : String → Resource → Bool
  arrange : ℕ → List Obj → List Obj
  fill : Obj → Obj
  merge : Obj → Obj → Obj
  fresh : ℕ → List Resource → String
  missing : Reply
  ack : Json
  row_uuid : ∀ r, (row r).lookup "uuid" = some (.str r.uuid)
  arrange_perm : ∀ n rows, (arrange n rows).Perm rows
  fresh_ne : ∀ n rs, fresh n rs ≠ ""
  fresh_new : ∀ n rs, ∀ r ∈ rs, r.uuid ≠ fresh n rs

namespace Table

def tick (T : Table) : Table := { T with clock := T.clock + 1 }

def del (u : String) (T : Table) : Table where
  resources := T.resources.erase u
  clock := T.clock + 1

@[simp] theorem tick_resources (T : Table) : T.tick.resources = T.resources := rfl

end Table

namespace TableServer

variable (api : TableServer)

/-- The rows a search answers: those the phrase keeps, all on one page, in the order of the
moment. -/
def rows (phrase : String) (T : Table) : List Obj :=
  api.arrange T.clock ((T.resources.entries.filter (api.keep phrase)).map api.row)

/-- The resource an add request stores. -/
def added (params : Obj) (T : Table) : Resource where
  uuid := api.fresh T.clock T.resources.entries
  fields := api.fill params
  uuid_ne := api.fresh_ne _ _

/-- The resource a set request leaves. -/
def changed (params : Obj) (r : Resource) : Resource :=
  { r with fields := api.merge r.fields params }

theorem changed_uuid (params : Obj) (r : Resource) : (api.changed params r).uuid = r.uuid := rfl

def add (params : Obj) (T : Table) : Table where
  resources := T.resources.insert (api.added params T) (api.fresh_new _ _)
  clock := T.clock + 1

def set (u : String) (params : Obj) (T : Table) : Table where
  resources := T.resources.modify u (api.changed params) (api.changed_uuid params)
  clock := T.clock + 1

/-- The item of one resource, wrapped in the payload key. -/
def itemOf (payloadKey : String) (ident : Option String) (T : Table) : Reply :=
  match ident.bind T.resources.find with
  | some r => .ok (.obj [(payloadKey, .obj (api.item r))])
  | none => api.missing

def serve (payloadKey : String) : Appliance Table
  | .get ep _, T => (api.itemOf payloadKey ep.ident T, T.tick)
  | .post .., T => (.ok api.ack, T.tick)
  | .search _ phrase _, T => (.ok (.arr ((api.rows phrase T).map .obj)), T.tick)
  | .create _ _ params, T => (.ok (.str (api.added params T).uuid), api.add params T)
  | .update _ u _ params, T => (.ok api.ack, api.set u params T)
  | .delete _ u, T => (.ok api.ack, T.del u)
  | .reconfigure .., T => (.ok api.ack, T.tick)

variable {api} {payloadKey : String} {m : BaseManager} {T T' : Table}
  {t : List (Request × Reply)} {params : Obj}

theorem row_text_uuid (r : Resource) : (api.row r).text "uuid" = r.uuid := by
  rw [Obj.text_of_lookup (api.row_uuid r), pyStr_str]

theorem rows_text_uuid (phrase : String) :
    ((api.rows phrase T).map (·.text "uuid")).Perm
      ((T.resources.entries.filter (api.keep phrase)).map (·.uuid)) := by
  refine ((api.arrange_perm _ _).map _).trans (List.Perm.of_eq ?_)
  rw [List.map_map]
  exact List.map_congr_left fun r _ => row_text_uuid r

theorem rowUuid_row (r : Resource) : BaseManager.rowUuid (api.row r) = r.uuid := by
  have hget : (api.row r).getD "uuid" (.str "") = .str r.uuid :=
    Obj.getD_of_lookup (api.row_uuid r) _
  simp [BaseManager.rowUuid, hget, Json.truthy, r.uuid_ne]

/-- What a search of the manager returns. -/
theorem run_list (phrase : String) :
    (m.list phrase).run (api.serve payloadKey) T =
      (.ok (.arr ((api.rows phrase T).map .obj)), T.tick) := by
  unfold BaseManager.list
  split <;> simp [serve]

theorem run_findMatching (phrase : Option String) :
    (m.identity.findMatching params m.list phrase).run (api.serve payloadKey) T =
      (.ok (matchingRows m.matchKeys params
        (api.rows (phrase.getD (m.identity.searchPhrase params)) T)), T.tick) := by
  exact BaseManager.run_findMatching_of_list params phrase (run_list _)

/-- A plain reply of the server to the manager's item request. -/
theorem itemOf_mem {r : Resource} (hr : r ∈ T.resources.entries) :
    api.itemOf payloadKey (some r.uuid) T = .ok (.obj [(payloadKey, .obj (api.item r))]) := by
  have hfind : T.resources.find r.uuid = some r := Keyed.find_eq_some_iff.mpr ⟨hr, rfl⟩
  simp [itemOf, hfind]

theorem run_get {r : Resource} (hr : r ∈ T.resources.entries) :
    (m.get (.str r.uuid)).run (api.serve m.config.payloadKey) T =
      (.ok (.obj (api.item r)), T.tick) := by
  rw [BaseManager.get, Prog.run_bind, run_logError, run_await,
    EndpointConfig.get_str m.config r.uuid_ne]
  simp [serve, itemOf_mem hr, unwrap, Obj.getD]

theorem run_apply :
    ∃ T', m.apply.run (api.serve payloadKey) T = (.ok (), T') ∧ T'.resources = T.resources := by
  unfold BaseManager.apply
  split
  · exact ⟨T, rfl, rfl⟩
  · exact ⟨T.tick, by simp [Prog.run_bind, serve], rfl⟩

/-- The table frames every manager: uuids are distinct, and each names one item. -/
theorem serve_framed (api : TableServer) (m : BaseManager) :
    BaseManager.Framed (api.serve m.config.payloadKey) m where
  item_eq u q T hu hq := by
    simp only [BaseManager.itemReply, EndpointConfig.get_str m.config hu, serve, itemOf,
      Option.bind_some]
    cases q with
    | delete action u' => simp [Table.del, Keyed.find_erase_of_ne (Ne.symm hq.2)]
    | create | update | post => exact hq.elim
    | get | search | reconfigure => rfl
  rows_nodup phrase T rows T' t h := by
    have hrun := h.1
    rw [run_list, Prod.mk.injEq, Except.ok.injEq, Json.arr.injEq] at hrun
    have hrows : api.rows phrase T = rows :=
      List.map_injective_iff.mpr (fun a b hab => by injection hab) hrun.1
    have hnodup : ((api.rows phrase T).map (·.text "uuid")).Nodup := by
      rw [(rows_text_uuid phrase).nodup_iff]
      exact T.resources.nodup.sublist (List.filter_sublist.map _)
    rw [← hrows]
    exact hnodup.filter _

end TableServer

end Opnsense
