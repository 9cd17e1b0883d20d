import Opnsense.AttemptLevel
import Opnsense.ConcurrentDedupe
import Opnsense.TableWeb

/-! De-duplication by clients that send their requests again. An attempt that was thought lost
may have deleted a copy, and others delete in between; the least copy stays, and whoever returns
has left it alone. -/
namespace Opnsense
open Interaction OpnsenseClient

namespace BaseManager

variable {m : BaseManager} {params : Obj} {dedupe force : Bool}

/-- The requests of a manager, each to its endpoint and under its payload key. -/
def Wired (m : BaseManager) : Request → Prop
  | .get ep _ => ep.action = m.itemAction
  | .search .. => True
  | .create action payloadKey _ => action = m.config.add ∧ payloadKey = m.config.payloadKey
  | .update action _ payloadKey _ => action = m.config.set ∧ payloadKey = m.config.payloadKey
  | .delete action _ => action = m.config.delete
  | .reconfigure ep _ => m.config.apply = some ep
  | .post .. => False

theorem asks_get_wired (uuid : Json) : (m.get uuid).Asks m.Wired := by
  refine Prog.asks_bind (asks_logError ((asks_await _).mpr ?_) _ _) fun _ => by simp
  rfl

theorem asks_list_wired (phrase : String) : (m.list phrase).Asks m.Wired := by
  unfold list
  split
  · exact (asks_await _).mpr trivial
  · exact asks_logError ((asks_await _).mpr trivial) _ _

theorem asks_apply_wired : m.apply.Asks m.Wired := asks_apply_within fun _ hep => hep

theorem asks_findMatching_wired (phrase : Option String) :
    (m.identity.findMatching params m.list phrase).Asks m.Wired := by
  refine Prog.asks_bind (asks_list_wired _) fun rows => ?_
  refine Prog.asks_bind (by simp) fun items => ?_
  exact Prog.asks_bind (by simp) fun _ => trivial

theorem asks_delete_wired (uuid : Json) : (m.delete uuid false).Asks m.Wired := by
  refine Prog.asks_bind (asks_get_wired _) fun item => ?_
  refine Prog.asks_bind (by simp) fun fields => ?_
  refine Prog.asks_bind (by simp) fun before => ?_
  refine Prog.asks_bind (asks_logError ?_ _ _) fun _ => trivial
  exact Prog.asks_bind ((asks_await _).mpr rfl) fun _ => asks_apply_wired

theorem asks_deleteAll_wired (uuids : List String) : (m.deleteAll uuids).Asks m.Wired := by
  induction uuids with
  | nil => trivial
  | cons uuid rest ih => exact Prog.asks_bind (asks_delete_wired _) fun _ => ih

theorem asks_lookup_wired : (m.lookup params false dedupe).Asks m.Wired := by
  cases dedupe with
  | true =>
    refine Prog.asks_bind (asks_findMatching_wired none) fun found => ?_
    rcases found with _ | ⟨row, _ | ⟨row', rest⟩⟩
    · trivial
    · trivial
    · refine Prog.asks_bind (asks_log ..) fun _ => ?_
      exact Prog.asks_bind (asks_deleteAll_wired _) fun _ => trivial
  | false =>
    have hfind : (m.identity.findExisting params m.list).Asks m.Wired := by
      refine Prog.asks_bind (asks_logErrorUnless ?_ _ _ _) ?_
      · refine Prog.asks_bind (asks_findMatching_wired _) fun found => ?_
        exact Prog.asks_bind (by simp) fun _ => trivial
      · rintro ⟨found, uuids⟩
        rcases found with _ | ⟨row, _ | ⟨row', rest⟩⟩
        · trivial
        · trivial
        · exact Prog.asks_bind (asks_log ..) fun _ => trivial
    exact Prog.asks_bind hfind fun _ => trivial

theorem asks_create_wired : (m.create params false).Asks m.Wired := by
  refine Prog.asks_bind (by simp) fun after => ?_
  have hsend : (do
      let uuid ← await (.create m.config.add m.config.payloadKey params)
      m.apply
      return uuid : M Json).Asks m.Wired := by
    refine Prog.asks_bind ((asks_await _).mpr ⟨rfl, rfl⟩) fun uuid => ?_
    exact Prog.asks_bind asks_apply_wired fun _ => trivial
  exact Prog.asks_bind (asks_logError hsend _ _) fun _ => trivial

theorem asks_update_wired (uuid : Json) : (m.update uuid params false).Asks m.Wired := by
  refine Prog.asks_bind (asks_get_wired _) fun before => ?_
  refine Prog.asks_bind (by simp) fun before => ?_
  refine Prog.asks_bind (by simp) fun after => ?_
  refine Prog.asks_bind (asks_logError ?_ _ _) fun _ => trivial
  exact Prog.asks_bind ((asks_await _).mpr ⟨rfl, rfl⟩) fun _ => asks_apply_wired

/-- All that `ensure` asks, it asks at its own endpoints. -/
theorem asks_ensure_wired :
    (m.ensure "present" params false none dedupe force).Asks m.Wired := by
  have hvalid : (m.validate "present" params).Asks m.Wired := by
    unfold validate
    split
    · trivial
    · split
      · exact asks_logError (by simp) _ _
      · trivial
  refine Prog.asks_bind hvalid fun _ => ?_
  refine Prog.asks_bind (Prog.asks_bind asks_lookup_wired ?_) ?_
  · rintro ⟨existing, deduped⟩
    refine Prog.asks_bind ?_ fun _ => trivial
    unfold hydrateNested
    split
    · trivial
    · split
      · exact Prog.asks_bind (asks_get_wired _) fun full => Prog.asks_bind (by simp) fun _ => trivial
      · trivial
  · rintro ⟨existing, deduped⟩
    refine Prog.asks_bind ?_ fun _ => trivial
    unfold converge
    simp only [if_true]
    split
    · exact asks_create_wired
    · split
      · exact Prog.asks_bind (asks_log ..) fun _ => trivial
      · exact asks_update_wired _

end BaseManager

namespace TableServer
open BaseManager

variable {api : TableServer} {m : BaseManager} {client : OpnsenseClient}

theorem below_self (base : String) : below base base = none := by
  have hlonger : ∀ l t : List Char, (l ++ '/' :: t).isPrefixOf? l = none := by
    intro l t
    induction l with
    | nil => rfl
    | cons c l ih => simp [List.isPrefixOf?, ih]
  have hlist : (base ++ "/").toList = base.toList ++ ['/'] := String.toList_append
  rw [below, hlist, hlonger]
  rfl

/-- What the item endpoint and the rest of the path name. -/
theorem below_url (ep : Endpoint) : below ep.action ep.url = ep.ident := by
  unfold Endpoint.url
  cases hident : ep.ident with
  | none => exact below_self _
  | some u => exact below_append _ u

theorem decoded_answer {q : Request} {v w : Json} (h : Decoded q (answer v) w) :
    readBody q v = some w := by
  obtain ⟨-, status, body, w', hr, hw, hread⟩ := h
  cases hr
  cases hw
  exact hread

/-- The web server of a table carries the requests of its manager. -/
theorem web_carried (hkey : m.config.payloadKey ∉ ["searchPhrase", "rowCount", "current"])
    (hadd : below m.config.set m.config.add = none)
    (happly : ∀ ep, m.config.apply = some ep → below m.config.delete ep = none) {q : Request}
    (hq : m.Wired q) :
    Carried client (api.web m.config) (api.serve m.config.payloadKey) q := by
  have hsearch : ∀ (phrase : String) (n : ℕ), List.lookup m.config.payloadKey
      [("searchPhrase", Json.str phrase), ("rowCount", .int n), ("current", .int 1)] = none := by
    intro phrase n
    rw [List.lookup_eq_none_iff]
    intro kv hkv
    have hmem : kv.1 ∈ ["searchPhrase", "rowCount", "current"] := List.mem_map_of_mem hkv
    have hne : m.config.payloadKey ≠ kv.1 := fun heq => hkey (by rw [heq]; exact hmem)
    simpa using hne
  intro T
  cases q with
  | get ep opts =>
    have haction : ep.action = (m.config.get .null).action := hq
    have hident : below (m.config.get .null).action ep.url = ep.ident := by
      rw [← haction]
      exact below_url ep
    cases hitem : api.itemOf m.config.payloadKey ep.ident T with
    | ok v =>
      have hweb : api.web m.config (client.http (.get ep opts)) T = (answer v, T.tick) := by
        simp [web, http, attempt, hident, hitem]
      rw [hweb]
      refine ⟨rfl, fun w hw => ?_⟩
      have hread : some v = some w := decoded_answer hw
      rw [← Option.some.inj hread]
      exact hitem
    | error e =>
      have hweb : api.web m.config (client.http (.get ep opts)) T =
          (.response 404 ⟨"", .error "no JSON"⟩, T.tick) := by
        simp [web, http, attempt, hident, hitem]
      rw [hweb]
      refine ⟨rfl, fun w hw => ?_⟩
      obtain ⟨-, status, body, w', hr, hw, -⟩ := hw
      cases hr
      cases hw
  | search action phrase n =>
    have hweb : api.web m.config (client.http (.search action phrase n)) T =
        (answer (.obj [("rows", .arr ((api.rows phrase T).map .obj))]), T.tick) := by
      simp [web, http, attempt, hsearch]
    rw [hweb]
    refine ⟨rfl, fun w hw => ?_⟩
    exact congrArg Except.ok (Option.some.inj (decoded_answer hw))
  | create action payloadKey params =>
    obtain ⟨rfl, rfl⟩ := hq
    have hweb : api.web m.config (client.http (.create m.config.add m.config.payloadKey params)) T =
        (answer (.obj [("uuid", .str (api.added params T).uuid)]), api.add params T) := by
      simp [web, http, attempt, hadd]
    rw [hweb]
    refine ⟨rfl, fun w hw => ?_⟩
    have hread := decoded_answer hw
    have huuid : createdUuid m.config.add (.obj [("uuid", .str (api.added params T).uuid)]) =
        .ok (.str (api.added params T).uuid) := by
      simp [createdUuid, Obj.getD, Json.truthy, (api.added params T).uuid_ne]
    simp only [readBody, huuid, Except.toOption, Option.some.injEq] at hread
    rw [← hread]
    rfl
  | update action u payloadKey params =>
    obtain ⟨rfl, rfl⟩ := hq
    have hweb : api.web m.config
        (client.http (.update m.config.set u m.config.payloadKey params)) T =
        (answer api.ack, api.set u params T) := by
      simp [web, http, attempt, below_append]
    rw [hweb]
    exact ⟨rfl, fun w hw => congrArg Except.ok (Option.some.inj (decoded_answer hw))⟩
  | delete action u =>
    obtain rfl := hq
    have hweb : api.web m.config (client.http (.delete m.config.delete u)) T =
        (answer api.ack, T.del u) := by
      simp [web, http, attempt, below_append]
    rw [hweb]
    exact ⟨rfl, fun w hw => congrArg Except.ok (Option.some.inj (decoded_answer hw))⟩
  | reconfigure ep opts =>
    have hweb : api.web m.config (client.http (.reconfigure ep opts)) T =
        (answer api.ack, T.tick) := by
      simp [web, http, attempt, happly ep hq]
    rw [hweb]
    refine ⟨rfl, fun w hw => ?_⟩
    have hread := decoded_answer hw
    simp only [readBody] at hread
    split at hread
    · exact congrArg Except.ok (Option.some.inj hread)
    · cases hread
  | post ep data opts => exact hq.elim

variable {ι : Type} [DecidableEq ι]

/-- The same clients with nothing between them and the network, each with retries of its own. -/
def declaringOver (client : ι → OpnsenseClient) (m : BaseManager) (params : ι → Obj)
    (dedupe force : ι → Bool) (S : Table × List (Fault NetFailure)) :
    Pool ι HttpRequest HttpReply Event Exc EnsureResult (Table × List (Fault NetFailure)) where
  progs i := (client i).overNetwork
    (m.ensure "present" (params i) false none (dedupe i) (force i))
  state := S

section Sample

/-- The reply to the fifth attempt, the first deletion of the copy, is lost. -/
def lateCut : List (Fault NetFailure) :=
  [.served, .served, .served, .served, .cut ⟨.timeout, rfl⟩]

/-- Both clients delete the same copy; the first one does so twice. -/
def cutTurns : List Client :=
  [.second, .first, .first, .second, .first, .second, .first, .first, .second]

/-- The client whose deletion was acted on unseen returns all the same. -/
example : ∃ res, ((Pool.schedule (lossy ((plainServer []).web sampleManager.config)) cutTurns
    (declaringOver (fun _ => defaultClient) sampleManager raceParams (fun _ => true)
      (fun _ => false) (copies, lateCut))).progs .first).next = .inl (.ok res) := ⟨_, rfl⟩

end Sample

end TableServer
end Opnsense
