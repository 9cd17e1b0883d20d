import Opnsense.DedupeFaults
import Opnsense.Delivery
import Opnsense.OwnRequests

namespace Opnsense
namespace TableServer
open Interaction BaseManager OpnsenseClient

/-- A web server in front of the table: it answers a search with its rows, all on one page, stores
what the add and set requests of the manager say, and nothing on its reads and its apply. -/
structure Speaks (client : OpnsenseClient) (web : Server HttpRequest HttpReply Table)
    (api : TableServer) (m : BaseManager) : Prop where
  search_reply : ∀ phrase T, ∃ text,
    (web (client.http (m.listRequest phrase)) T).1 =
      .response 200 ⟨text, .ok (.obj [("rows", .arr ((api.rows phrase T).map .obj))])⟩
  quiet : ∀ q T, m.Quiet q → (web (client.http q) T).2.resources = T.resources
  add : ∀ params T,
    (web (client.http (.create m.config.add m.config.payloadKey params)) T).2.resources =
    (api.add params T).resources
  set : ∀ u params T,
    (web (client.http (.update m.config.set u m.config.payloadKey params)) T).2.resources =
      (api.set u params T).resources

variable {client : OpnsenseClient} {web : Server HttpRequest HttpReply Table} {api : TableServer}
  {m : BaseManager} {params : Obj} {T : Table} {S S' : Table × List (Fault NetFailure)}
  {force : Bool} {t : List (Request × Reply)}

/-- What one execution of a request keeps, a whole call keeps. -/
theorem appliance_preserves (I : Table → Prop) {q : Request}
    (hstep : ∀ T, I T → I (web (client.http q) T).2) (hS : I S.1) :
    I (client.appliance (lossy web) q S).2.1 := by
  obtain ⟨T, fs⟩ := S
  rw [appliance_state]
  exact executed_preserves I hstep hS _

theorem appliance_quiet (hweb : Speaks client web api m) {q : Request} (hq : m.Quiet q)
    (S : Table × List (Fault NetFailure)) :
    (client.appliance (lossy web) q S).2.1.resources = S.1.resources :=
  appliance_preserves (fun T => T.resources = S.1.resources)
    (fun T hT => (hweb.quiet q T hq).trans hT) rfl

theorem run_quiet_resources (hweb : Speaks client web api m) {α : Type} {p : M α}
    (hp : p.Asks m.Quiet) (S : Table × List (Fault NetFailure)) :
    (p.run (client.appliance (lossy web)) S).2.1.resources = S.1.resources := by
  let same : Table × List (Fault NetFailure) → Prop := fun S' => S'.1.resources = S.1.resources
  have hstart : same S := rfl
  exact hp.run_preserves same (fun q S' hq hS' => (appliance_quiet hweb hq S').trans hS') hstart

/-- A search that was answered at last shows the rows of the table. -/
theorem appliance_search (hweb : Speaks client web api m) {phrase : String} {v : Json}
    (h : client.appliance (lossy web) (m.listRequest phrase) S = (.ok v, S')) :
    ∃ T₁ : Table, T₁.resources = S.1.resources ∧ v = .arr ((api.rows phrase T₁).map .obj) := by
  obtain ⟨T, fs⟩ := S
  let action := m.listAction.getD m.config.search
  let data : Obj := [("searchPhrase", .str phrase), ("rowCount", .int defaultRowCount),
    ("current", .int 1)]
  obtain ⟨o, S₁, hrun, -, hbody⟩ := @run_request _ client web .post action data {} T fs
  have hsearch : ((client.search action phrase defaultRowCount {}).run (lossy web) (T, fs)) =
      (.ok v, S') := h
  rw [search, Prog.run_bind] at hsearch
  have hrun' : (client.request .post action data {}).run (lossy web) (T, fs) = (o, S₁) := hrun
  rw [show Prog.run (lossy web) (client.request .post action _ {}) (T, fs) = _ from hrun']
    at hsearch
  cases o with
  | error e => cases hsearch
  | ok body =>
    -- the body is the answer to one of the executions, and none of them writes
    obtain ⟨k, status, reply, hweb', hjson⟩ := hbody body rfl
    let T₁ := executed web (client.http (m.listRequest phrase)) k T
    have hlist : m.Quiet (m.listRequest phrase) := among_of_read _ rfl
    obtain ⟨text, hreply⟩ := hweb.search_reply phrase T₁
    have heq := hreply.symm.trans hweb'
    cases heq
    cases hjson
    refine ⟨T₁, ?_, ?_⟩
    · exact executed_preserves (fun T' : Table => T'.resources = T.resources)
        (fun T' hT' => (hweb.quiet (m.listRequest phrase) T' hlist).trans hT') rfl k
    · simp only [Prog.run_ofExcept, Prod.mk.injEq, Except.ok.injEq] at hsearch
      rw [← hsearch.1]
      rfl

/-- A lookup that returned found nothing, or the row of the only owner. -/
theorem lookup_over (hweb : Speaks client web api m) (hfaith : Faithful api m params)
    {found : Option Obj} {deduped : List String}
    (h : (m.lookup params false false).Returns (client.appliance (lossy web)) S
      (found, deduped) S' t) :
    deduped = [] ∧ ((api.owners m params S.1 = [] ∧ found = none) ∨
      ∃ r, api.owners m params S.1 = [r.uuid] ∧ found = some (api.row r)) := by
  refine ⟨deduped_of_returns_lookup h, ?_⟩
  obtain ⟨found', S₁, t₁, t₂, hfind, -, -⟩ := Prog.returns_bind.mp h
  obtain ⟨rows, hmatch, -, -⟩ := returns_findExisting hfind
  obtain ⟨v, -, hlist, -, -⟩ := returns_findMatching hmatch
  have hquery := hlist.1
  rw [Option.getD_some, run_list_eq] at hquery
  obtain ⟨T₁, hres, rfl⟩ := appliance_search hweb hquery
  have hrows : (m.list (m.identity.searchPhrase params)).run (client.appliance (lossy web)) S =
      (.ok (.arr ((api.rows (m.identity.searchPhrase params) T₁).map .obj)), _) := hlist.1
  obtain ⟨hlen, rfl⟩ := returns_lookup_of_list hrows h
  have huuids := @found_uuids api m params T₁ hfaith
  rw [sortedOwners_congr hres] at huuids
  rcases hfound : matchingRows m.matchKeys params
    (api.rows (m.identity.searchPhrase params) T₁) with _ | ⟨row, rest⟩
  · rw [hfound] at huuids
    exact Or.inl ⟨sortedOwners_eq_nil.mp huuids.symm, rfl⟩
  · have hmem : row ∈ matchingRows m.matchKeys params
        (api.rows (m.identity.searchPhrase params) T₁) := by
      rw [hfound]
      exact List.mem_cons_self ..
    obtain ⟨r, -, -, rfl⟩ := found_row hfaith hmem
    -- without dedupe a second row would have been an error
    have hrest : rest = [] := by
      rw [hfound] at hlen
      simpa using hlen
    rw [hfound, hrest, List.map_singleton, row_text_uuid] at huuids
    exact Or.inr ⟨r, owners_of_sortedOwners huuids.symm, rfl⟩

/-- What `ensure` compares in the end: nothing, or the state of the only owner. -/
theorem resolve_over (hweb : Speaks client web api m) (hfaith : Faithful api m params)
    {existing : Option Obj} {deduped : List String}
    (h : (m.resolve params false none false).run (client.appliance (lossy web)) S =
      (.ok (existing, deduped), S')) :
    deduped = [] ∧ ((api.owners m params S.1 = [] ∧ existing = none) ∨
      ∃ u fields, api.owners m params S.1 = [u] ∧ existing = some fields ∧
        fields.lookup "uuid" = some (.str u)) := by
  obtain ⟨found, S₁, t₁, t₂, hlook, hhyd, -⟩ := returns_resolve (Prog.returns_of_run h)
  obtain ⟨hnil, ⟨howners, rfl⟩ | ⟨r, howners, rfl⟩⟩ := lookup_over hweb hfaith hlook
  · obtain ⟨rfl, -, -⟩ := Prog.returns_ret.mp hhyd
    exact ⟨hnil, Or.inl ⟨howners, rfl⟩⟩
  · obtain ⟨fields, rfl, huuid⟩ := uuid_of_returns_hydrateNested hhyd
    exact ⟨hnil, Or.inr ⟨r.uuid, fields, howners, rfl, huuid⟩⟩

/-- The requests of an update of one resource. -/
def Updates (m : BaseManager) (params : Obj) (u : String) (q : Request) : Prop :=
  m.Quiet q ∨ q = .update m.config.set u m.config.payloadKey params

theorem updates_of_read {u : String} (q : Request) (h : q.isRead = true) : Updates m params u q :=
  Or.inl (among_of_read q h)

theorem asks_converge_updates (fields : Obj) :
    (m.converge "present" params false force (some fields)).Asks
      (Updates m params (pyStr (Obj.getD fields "uuid" (.str "")))) := by
  have happly : m.apply.Asks (Updates m params (pyStr (Obj.getD fields "uuid" (.str "")))) :=
    Prog.asks_mono (fun _ hq => Or.inl hq) asks_apply_among
  refine asks_converge_within updates_of_read happly "present" (fun hnone => ?_) ?_
    fun hstate => absurd rfl hstate
  · cases hnone
  · intro row hrow _
    rw [← Option.some.inj hrow]
    exact Or.inr rfl

/-- What the executions of an update keep, the updating half of a call keeps. -/
theorem converge_over_preserves (hweb : Speaks client web api m) (I : Table → Prop) {u : String}
    {fields : Obj} (hu : pyStr (Obj.getD fields "uuid" (.str "")) = u)
    (hcongr : ∀ T T', T'.resources = T.resources → I T → I T')
    (hset : ∀ T, I T → I (api.set u params T)) (hS : I S.1) :
    I ((m.converge "present" params false force (some fields)).run
      (client.appliance (lossy web)) S).2.1 := by
  have hstep : ∀ q T, Updates m params u q → I T → I (web (client.http q) T).2 := by
    rintro q T (hq | rfl) hT
    · exact hcongr T _ (hweb.quiet q T hq) hT
    · exact hcongr _ _ (hweb.set u params T) (hset T hT)
  have hasks := @asks_converge_updates m params force fields
  rw [hu] at hasks
  exact hasks.run_preserves (fun S' : Table × List (Fault NetFailure) => I S'.1)
    (fun q S' hq hS' => appliance_preserves I (fun T hT => hstep q T hq hT) hS') hS

section Keys

variable (hweb : Speaks client web api m) (hfaith : Faithful api m params)
  (hkeys : ∀ k ∈ m.matchKeys, params.has k = true)
include hweb hfaith hkeys

/-- Updating the only owner keeps it the only owner, however often it is executed. -/
theorem converge_over_owners {u : String} {fields : Obj}
    (howners : api.owners m params S.1 = [u]) (huuid : fields.lookup "uuid" = some (.str u)) :
    api.owners m params ((m.converge "present" params false force (some fields)).run
      (client.appliance (lossy web)) S).2.1 = [u] := by
  have htext : pyStr (Obj.getD fields "uuid" (.str "")) = u := by
    rw [Obj.getD_of_lookup huuid, pyStr_str]
  apply converge_over_preserves hweb (fun T => api.owners m params T = [u]) htext
  · exact fun T T' hsame hT => (owners_congr hsame).trans hT
  · intro T hT
    have hmem : u ∈ api.owners m params T := by
      rw [hT]
      exact List.mem_singleton_self u
    exact (owners_set hfaith hkeys hmem).trans hT
  · exact howners

/-- Every execution of the add leaves one more resource of the identity. -/
theorem owners_executed_add (k : ℕ) (T : Table) :
    (api.owners m params (executed web
      (client.http (.create m.config.add m.config.payloadKey params)) k T)).length =
      (api.owners m params T).length + k := by
  induction k with
  | zero => rfl
  | succ k ih =>
    rw [executed, Function.iterate_succ_apply', owners_congr (hweb.add params _),
      owners_add hfaith hkeys, List.length_append, ih]
    rfl

end Keys

/-- After the add request, whatever becomes of it, a create changes nothing more. -/
theorem create_over_resources (hweb : Speaks client web api m)
    (S : Table × List (Fault NetFailure)) :
    ((m.create params false).run (client.appliance (lossy web)) S).2.1.resources =
      (client.appliance (lossy web)
        (.create m.config.add m.config.payloadKey params) S).2.1.resources := by
  obtain ⟨after, hafter⟩ := redactDict_obj m.redactFields params
  rcases hadd :
    client.appliance (lossy web) (.create m.config.add m.config.payloadKey params) S with
    ⟨e | uuid, S₁⟩
  · simp [BaseManager.create, Prog.run_bind, hafter, hadd]
  · have hasks : m.apply.Asks m.Quiet := asks_apply_among
    have happly := run_quiet_resources hweb hasks S₁
    rcases hrun : m.apply.run (client.appliance (lossy web)) S₁ with ⟨e | u, S₂⟩
    · rw [hrun] at happly
      simpa [BaseManager.create, Prog.run_bind, hafter, hadd, hrun] using happly
    · rw [hrun] at happly
      simpa [BaseManager.create, Prog.run_bind, hafter, hadd, hrun] using happly

/-- The call gets as far as its add request, which begins in `S'`. -/
def ReachesAdd (srv : Appliance (Table × List (Fault NetFailure))) (m : BaseManager)
    (params : Obj) (S S' : Table × List (Fault NetFailure)) : Prop :=
  m.accepts params ∧ (m.resolve params false none false).run srv S = (.ok (none, []), S')

theorem reachesAdd_unique {srv : Appliance (Table × List (Fault NetFailure))}
    {S'' : Table × List (Fault NetFailure)} (h : ReachesAdd srv m params S S')
    (h' : ReachesAdd srv m params S S'') : S' = S'' :=
  congrArg Prod.snd (h.2.symm.trans h'.2)

theorem ensure_over_resources {srv : Appliance (Table × List (Fault NetFailure))}
    {existing : Option Obj} {deduped : List String} (hvalid : m.accepts params)
    (hres : (m.resolve params false none false).run srv S = (.ok (existing, deduped), S')) :
    ((m.ensure "present" params false none false force).run srv S).2 =
      ((m.converge "present" params false force existing).run srv S').2 := by
  rw [ensure, Prog.run_bind_of_ok (run_validate_of_accepts hvalid), Prog.run_bind_of_ok hres]
  dsimp only
  rw [Prog.run_bind]
  rcases (m.converge "present" params false force existing).run srv S' with ⟨e | r, S''⟩ <;> rfl

/-- How far a call got: not to its add and without a write, to its add, or to a resource that
was found. -/
theorem ensure_over_cases (hweb : Speaks client web api m) :
    let srv := client.appliance (lossy web)
    let left := ((m.ensure "present" params false none false force).run srv S).2.1
    (left.resources = S.1.resources ∧ ∀ S', ¬ ReachesAdd srv m params S S') ∨
    (∃ S', ReachesAdd srv m params S S' ∧ S'.1.resources = S.1.resources ∧ left.resources =
      (srv (.create m.config.add m.config.payloadKey params) S').2.1.resources) ∨
    ∃ fields S', (m.resolve params false none false).run srv S = (.ok (some fields, []), S') ∧
      S'.1.resources = S.1.resources ∧
      left = ((m.converge "present" params false force (some fields)).run srv S').2.1 := by
  intro srv left
  by_cases hvalid : m.accepts params
  · have hreads : (m.resolve params false none false).Asks ReadOnly := asks_resolve (Or.inr rfl)
    have hsame := run_quiet_resources hweb (Prog.asks_mono among_of_read hreads) S
    rcases hres : (m.resolve params false none false).run srv S with
      ⟨e | ⟨existing, deduped⟩, S₁⟩
    · -- the lookup failed
      have hleft : left = S₁.1 := by
        simp only [left, ensure]
        rw [Prog.run_bind_of_ok (run_validate_of_accepts hvalid), Prog.run_bind_of_error hres]
      rw [hres] at hsame
      refine Or.inl ⟨by rw [hleft]; exact hsame, fun S' hadd => ?_⟩
      cases hres.symm.trans hadd.2
    · rw [hres] at hsame
      have hleft : left = ((m.converge "present" params false force existing).run srv S₁).2.1 :=
        congrArg Prod.fst (ensure_over_resources hvalid hres)
      obtain rfl : deduped = [] := by
        obtain ⟨found, S₂, t₁, t₂, hlook, -, -⟩ := returns_resolve (Prog.returns_of_run hres)
        exact deduped_of_returns_lookup hlook
      cases existing with
      | none =>
        -- nobody was found: the add follows
        refine Or.inr (Or.inl ⟨S₁, ⟨hvalid, hres⟩, hsame, ?_⟩)
        rw [hleft]
        exact create_over_resources hweb S₁
      | some fields => exact Or.inr (Or.inr ⟨fields, S₁, rfl, hsame, hleft⟩)
  · -- rejected before any request
    have hsnd := @run_validate_snd _ srv m S params "present"
    rcases hval : (m.validate "present" params).run srv S with ⟨e | ⟨⟩, S₁⟩
    · have hleft : left = S.1 := by
        rw [hval] at hsnd
        simp only [left, ensure]
        rw [Prog.run_bind_of_error hval]
        exact congrArg Prod.fst hsnd
      exact Or.inl ⟨by rw [hleft], fun S' hadd => hvalid hadd.1⟩
    · exact absurd (accepts_of_run_validate hval) hvalid

/-- The resources of the identity `ensure` leaves, by how far it got. -/
theorem ensure_over_owners (hweb : Speaks client web api m) (hfaith : Faithful api m params)
    (hkeys : ∀ k ∈ m.matchKeys, params.has k = true)
    (hone : (api.owners m params S.1).length ≤ 1) :
    let left := ((m.ensure "present" params false none false force).run
      (client.appliance (lossy web)) S).2.1
    (∃ S', ReachesAdd (client.appliance (lossy web)) m params S S' ∧
      (api.owners m params left).length = client.executionsOf web
        (.create m.config.add m.config.payloadKey params) S'.1 S'.2) ∨
    (∀ S', ¬ ReachesAdd (client.appliance (lossy web)) m params S S') ∧
      (api.owners m params left).length ≤ 1 := by
  intro left
  rcases @ensure_over_cases client web api m params S force hweb with
    ⟨hleft, hnot⟩ | ⟨S', hadd, hsame, hleft⟩ | ⟨fields, S', hres, hsame, hleft⟩
  · right
    refine ⟨hnot, ?_⟩
    rw [owners_congr hleft]
    exact hone
  · left
    refine ⟨S', hadd, ?_⟩
    -- the add is reached by a call that found nobody
    have howners : api.owners m params S.1 = [] := by
      obtain ⟨-, ⟨howners, -⟩ | ⟨u, fields, -, hsome, -⟩⟩ := resolve_over hweb hfaith hadd.2
      · exact howners
      · cases hsome
    have hstart : api.owners m params S'.1 = [] := (owners_congr hsame).trans howners
    rw [owners_congr hleft, appliance_state]
    calc (api.owners m params (executed web
            (client.http (.create m.config.add m.config.payloadKey params)) _ S'.1)).length
        = (api.owners m params S'.1).length + _ := owners_executed_add hweb hfaith hkeys _ _
      _ = client.executionsOf web (.create m.config.add m.config.payloadKey params) S'.1 S'.2 := by
          rw [hstart, List.length_nil, Nat.zero_add]
  · right
    refine ⟨fun S'' hadd => ?_, ?_⟩
    · cases hres.symm.trans hadd.2
    · obtain ⟨-, ⟨-, hnone⟩ | ⟨u, fields', howners, hsome, huuid⟩⟩ := resolve_over hweb hfaith hres
      · cases hnone
      · cases hsome
        -- it found the only owner, and a set keeps it
        have hsingle : api.owners m params S'.1 = [u] := (owners_congr hsame).trans howners
        have hlen : (api.owners m params left).length = 1 := by
          rw [show left = _ from hleft, converge_over_owners hweb hfaith hkeys hsingle huuid]
          rfl
        exact hlen.le

end TableServer
end Opnsense
