import Opnsense.EnsureDelivery
import Opnsense.PlainServer

namespace Opnsense
open Interaction OpnsenseClient

/-- The part of a path below another. -/
def below (base path : String) : Option String :=
  ((base ++ "/").toList.isPrefixOf? path.toList).map String.ofList

theorem below_append (base u : String) : below base (base ++ "/" ++ u) = some u := by
  have hprefix : ∀ l t : List Char, l.isPrefixOf? (l ++ t) = some t := by
    intro l t
    induction l with
    | nil => cases t <;> rfl
    | cons c l ih => simp [List.isPrefixOf?, ih]
  have hlist : (base ++ "/" ++ u).toList = (base ++ "/").toList ++ u.toList := String.toList_append
  rw [below, hlist, hprefix, Option.map_some, String.ofList_toList]

def answer (v : Json) : HttpReply := .response 200 ⟨pyStr v, .ok v⟩

namespace TableServer

/-- A body under the payload key is a set or an add, a search phrase is a search, and an
empty body below the delete endpoint a deletion. -/
def web (api : TableServer) (config : EndpointConfig) : Server HttpRequest HttpReply Table
  | h, T =>
    match h.method with
    | .get =>
      match api.itemOf config.payloadKey (below (config.get .null).action h.endpoint) T with
      | .ok v => (answer v, T.tick)
      | .error _ => (.response 404 ⟨"", .error "no JSON"⟩, T.tick)
    | .post =>
      match h.data.lookup config.payloadKey with
      | some (.obj params) =>
        match below config.set h.endpoint with
        | some u => (answer api.ack, api.set u params T)
        | none => (answer (.obj [("uuid", .str (api.added params T).uuid)]), api.add params T)
      | _ =>
        match h.data.lookup "searchPhrase" with
        | some phrase =>
          (answer (.obj [("rows", .arr ((api.rows (pyStr phrase) T).map .obj))]), T.tick)
        | none =>
          match below config.delete h.endpoint with
          | some u => (answer api.ack, T.del u)
          | none => (answer api.ack, T.tick)

variable {api : TableServer} {m : BaseManager} {client : OpnsenseClient}

/-- Its requests are told apart unless the endpoints or the payload key clash. -/
theorem web_speaks (hkey : m.config.payloadKey ∉ ["searchPhrase", "rowCount", "current"])
    (hadd : below m.config.set m.config.add = none)
    (happly : ∀ ep, m.config.apply = some ep → below m.config.delete ep = none) :
    Speaks client (api.web m.config) api m := by
  have hsearch : ∀ (phrase : String) (n : ℕ), List.lookup m.config.payloadKey
      [("searchPhrase", Json.str phrase), ("rowCount", .int n), ("current", .int 1)] = none := by
    intro phrase n
    rw [List.lookup_eq_none_iff]
    intro kv hkv
    have hmem : kv.1 ∈ ["searchPhrase", "rowCount", "current"] := List.mem_map_of_mem hkv
    have hne : m.config.payloadKey ≠ kv.1 := fun heq => hkey (by rw [heq]; exact hmem)
    simpa using hne
  constructor
  · intro phrase T
    refine ⟨pyStr (.obj [("rows", .arr ((api.rows phrase T).map .obj))]), ?_⟩
    simp [web, http, attempt, BaseManager.listRequest, hsearch, answer]
  · intro q T hq
    cases q with
    | get ep opts =>
      simp only [web, http, attempt]
      split <;> rfl
    | search action phrase n => simp [web, http, attempt, hsearch]
    | reconfigure ep opts => simp [web, http, attempt, happly ep hq]
    | _ => exact (hq rfl).elim
  · intro params T
    simp [web, http, attempt, hadd]
  · intro u params T
    simp [web, http, attempt, below_append]

/-- No reply of its own is one to retry. -/
theorem web_final (config : EndpointConfig) (h : HttpRequest) (T : Table) :
    (api.web config h T).1.retryable = false := by
  have hok : ∀ v : Json, (answer v).retryable = false := fun v => rfl
  unfold web
  repeat' split
  all_goals first | exact hok _ | rfl

end TableServer
end Opnsense
