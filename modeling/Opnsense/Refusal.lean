import Opnsense.FinalReply
import Opnsense.IdsRuleset
import Opnsense.Interaction.Relay
import Opnsense.Service

namespace Opnsense
open Interaction

/-- The paths that make a daemon act. -/
inductive DaemonPath where
  | apply (m : BaseManager)
  | settings (m : BaseSingletonManager)
  | rulesets (desired : List (String × Bool)) (checkMode applies : Bool)
  | action (m : BaseServiceManager) (verb : ServiceVerb) (checkMode : Bool)
  | service (m : BaseServiceManager) (state : String) (checkMode : Bool)

namespace DaemonPath

/-- `_apply` returns nothing, the others a result. -/
def program : DaemonPath → M (Option EnsureResult)
  | apply m => do
    m.apply
    return none
  | settings m => do
    m.apply
    return none
  | rulesets desired checkMode applies => do
    let r ← IdsRulesetManager.ensureMany desired checkMode applies
    return some r
  | action m verb checkMode => do
    let r ← m.act verb checkMode
    return some r
  | service m state checkMode => do
    let r ← m.ensure state checkMode
    return some r

/-- The controller whose verbs a path posts itself. -/
def controller : DaemonPath → Option BaseServiceManager
  | action m _ _ => some m
  | service m _ _ => some m
  | _ => none

/-- The requests that make the daemon act. -/
def acts (path : DaemonPath) (q : Request) : Prop :=
  match path.controller with
  | some m => ∃ verb, q = m.verbRequest verb
  | none => q.isApply = true

end DaemonPath

section Refused

variable {S : Type} {client : OpnsenseClient} {net : Server HttpRequest HttpReply S} {x x' : S}
  {q : Request} {v : Json} {method : Method} {endpoint : String} {data : Obj}
  {opts : CallOptions}

/-- The outcome is an `OpnsenseServerError`. -/
def ServerError {α : Type} (o : Except Exc α) : Prop :=
  ∃ e, o = .error (.opnsense e) ∧ e.cls = .server

/-- A request to act that is answered with 200 and a body whose status is failed or error. -/
def Refused (client : OpnsenseClient) (net : Server HttpRequest HttpReply S) (q : Request) (x : S)
    (v : Json) : Prop :=
  let final (endpoint : String) (data : Obj) (opts : CallOptions) :=
    (client.finalReply net (client.attempt .post endpoint data opts) opts x).1
  (OpnsenseClient.refusal v).isSome = true ∧ ∃ body : HttpBody, body.json = .ok v ∧
    match q with
    | .reconfigure action opts => final action [] opts = .response 200 body
    | .post ep data opts => final ep.url data opts = .response 200 body
    | _ => False

/-- A request answered with 200 returns the body, unless that reports a failed validation. -/
theorem run_request_of_200 {body : HttpBody}
    (hfinal : (client.finalReply net (client.attempt method endpoint data opts) opts x).1 =
      .response 200 body) (hjson : body.json = .ok v) :
    (OpnsenseClient.resultFailed v = false →
      ((client.request method endpoint data opts).run net x).1 = .ok v) ∧
    (OpnsenseClient.resultFailed v = true → ∃ e,
      ((client.request method endpoint data opts).run net x).1 = .error (.opnsense e) ∧
        e.cls = .validation) := by
  obtain ⟨earlier, hretry⟩ := Prog.run_retry_settled net HttpReply.retryable
    (client.attempt method endpoint data opts)
    (client.beforeRetry method endpoint (client.effectiveRetries opts))
    (client.finish method endpoint (opts.timeout.getD client.timeout))
    (client.effectiveRetries opts - 1) [] x
  rw [show (Prog.settled net _ _ _ x).1 = _ from hfinal] at hretry
  rw [OpnsenseClient.request, Prog.run_rescue, hretry]
  constructor
  · intro hresult
    simp [OpnsenseClient.finish, hjson, hresult]
  · intro hresult
    simp [OpnsenseClient.finish, hjson, hresult]

/-- A refused apply is an error of the client: of the server, or a failed validation. -/
theorem run_reconfigure_of_refused {action : String}
    (h : Refused client net (.reconfigure action opts) x v) :
    ∃ e, (client.appliance net (.reconfigure action opts) x).1 = .error (.opnsense e) ∧
      (e.cls = .server ↔ OpnsenseClient.resultFailed v = false) := by
  obtain ⟨hrefusal, body, hjson, hfinal⟩ := h
  obtain ⟨hok, hfailed⟩ := run_request_of_200 hfinal hjson
  obtain ⟨message, hmessage⟩ := Option.isSome_iff_exists.mp hrefusal
  rcases hrun : (client.request .post action [] opts).run net x with ⟨o, x'⟩
  rw [hrun] at hok hfailed
  cases hresult : OpnsenseClient.resultFailed v with
  | true =>
    obtain ⟨e, rfl, hcls⟩ := hfailed hresult
    refine ⟨e, ?_, by simp [hcls]⟩
    simp [OpnsenseClient.appliance, OpnsenseClient.call, OpnsenseClient.reconfigure,
      Prog.run_bind, hrun]
  | false =>
    obtain rfl := hok hresult
    refine ⟨{ cls := .server, message := s!"reconfigure refused by {action}: {message}",
              statusCode := some 500, endpoint := some action }, ?_, iff_of_true rfl rfl⟩
    simp [OpnsenseClient.appliance, OpnsenseClient.call, OpnsenseClient.reconfigure,
      Prog.run_bind, hrun, hmessage]

/-- A refused verb is no error of the client, unless its body also reports a failed validation. -/
theorem run_post_of_refused {ep : Endpoint} (h : Refused client net (.post ep data opts) x v) :
    (OpnsenseClient.resultFailed v = false →
      (client.appliance net (.post ep data opts) x).1 = .ok v) ∧
    (OpnsenseClient.resultFailed v = true → ∃ e,
      (client.appliance net (.post ep data opts) x).1 = .error (.opnsense e) ∧
        e.cls = .validation) := by
  obtain ⟨-, body, hjson, hfinal⟩ := h
  exact run_request_of_200 hfinal hjson

end Refused

section Applies

abbrev isApply (q : Request) : Prop := q.isApply = true

/-- An error is raised again as `f` makes of it when it answers an apply. -/
abbrev RelaysApply {α : Type} (f : Exc → Exc) (p : M α) : Prop :=
  p.Relays isApply (Except.error : Exc → Reply) f

theorem relays_await (q : Request) : RelaysApply (fun e => e) (await q) :=
  ⟨fun r => Prog.relays_ofExcept r, fun _ _ => rfl⟩

theorem not_isApply_of_isRead {q : Request} (h : q.isRead = true) : ¬ isApply q := by
  cases q <;> simp [isApply, Request.isRead, Request.isApply] at h ⊢

theorem relays_apply (m : BaseManager) : RelaysApply (fun e => e) m.apply := by
  unfold BaseManager.apply
  split
  · trivial
  · exact Prog.relays_bind (Prog.relays_onError (relays_await _) _) fun _ => trivial

theorem relays_settingsApply (m : BaseSingletonManager) : RelaysApply (fun e => e) m.apply := by
  unfold BaseSingletonManager.apply
  split
  · trivial
  · exact Prog.relays_bind (Prog.relays_onError (relays_await _) _) fun _ => trivial

namespace IdsRulesetManager

theorem asks_toggleAll (todo : List (String × String)) :
    (toggleAll todo).Asks fun q => ¬ isApply q := by
  induction todo with
  | nil => trivial
  | cons ff rest ih =>
    exact Prog.asks_bind ((asks_await _).mpr (by simp [isApply, Request.isApply])) fun _ => ih

/-- A refused apply behind the toggles is raised with the hint. -/
theorem relays_send (todo : List (String × String)) (applies : Bool) :
    RelaysApply hint (send todo applies) := by
  refine Prog.relays_rescue (f := fun e => e) (g := hint) ?_ fun exc => rfl
  apply Prog.relays_bind (Prog.relays_of_asks (asks_toggleAll todo))
  intro _
  cases applies with
  | true => exact Prog.relays_bind (relays_await _) fun _ => trivial
  | false => trivial

theorem relays_ensureMany (desired : List (String × Bool)) (checkMode applies : Bool) :
    RelaysApply hint (ensureMany desired checkMode applies) := by
  have hlist : list.Asks fun q => ¬ isApply q :=
    Prog.asks_mono (fun q hq => not_isApply_of_isRead hq) asks_list
  apply Prog.relays_bind (Prog.relays_of_asks hlist)
  intro catalogue
  apply Prog.relays_bind (Prog.relays_ofExcept _)
  intro rows
  -- nothing is applied for unknown names, nor when nothing is to be toggled
  split
  · trivial
  · unfold converge
    split
    · trivial
    · split
      · trivial
      · exact Prog.relays_bind (relays_send _ applies) fun _ => trivial

/-- The hint leaves the class of an error as it is. -/
theorem hint_cls (e : OpnsenseError) :
    ∃ e', hint (.opnsense e) = .opnsense e' ∧ (e'.cls = .server ↔ e.cls = .server) := by
  by_cases h : e.cls = .server
  · exact ⟨_, by rw [hint, if_pos h], iff_of_true rfl h⟩
  · exact ⟨e, by rw [hint, if_neg h], Iff.rfl⟩

end IdsRulesetManager

end Applies

namespace BaseServiceManager

variable {σ : Type} {srv : Appliance σ} {m : BaseServiceManager} {s s₁ s₂ : σ}
  {verb : ServiceVerb} {checkMode : Bool} {before : String}

theorem asks_status : m.status.Asks BaseManager.ReadOnly := by
  have hget : (await m.statusRequest).Asks BaseManager.ReadOnly := (asks_await _).mpr rfl
  apply Prog.asks_bind (asks_logError hget _ _)
  intro body
  exact Prog.asks_bind (by simp) fun _ => trivial

/-- Only reading the status itself can make it a server error. -/
theorem serverError_status_iff :
    ServerError (m.status.run srv s).1 ↔ ServerError (srv m.statusRequest s).1 := by
  rcases hstatus : srv m.statusRequest s with ⟨exc | body, s'⟩
  · simp [status, Prog.run_bind, hstatus, ServerError]
  · cases body <;> simp [status, Prog.run_bind, hstatus, asDict, Exc.noAttribute, ServerError]

theorem isVerb_not_read {q : Request} (h : ∃ verb, q = m.verbRequest verb) : ¬ q.isRead = true := by
  obtain ⟨verb, rfl⟩ := h
  simp [verbRequest, Request.isRead]

/-- The one verb a call of `act` posts, outside check mode, once the status was read. -/
theorem visited_act {q : Request} (h : (q, s₁) ∈ (m.act verb checkMode).visits srv s)
    (hq : ∃ verb, q = m.verbRequest verb) :
    checkMode = false ∧ q = m.verbRequest verb ∧
      ∃ before, m.status.run srv s = (.ok before, s₁) := by
  have hread : ∀ {α : Type} {p : M α} {s : σ}, p.Asks BaseManager.ReadOnly →
      (q, s₁) ∉ p.visits srv s :=
    fun hp hmem => isVerb_not_read hq (hp.of_mem_visits hmem)
  -- a verb is neither the status read before it nor what check mode does
  rcases Prog.mem_visits_bind h with h | ⟨before, s', hstatus, h⟩
  · exact absurd h (hread asks_status)
  cases checkMode with
  | true => exact absurd h (hread (Prog.asks_bind (asks_log ..) fun _ => trivial))
  | false =>
    rcases Prog.mem_visits_bind h with h | ⟨v, s'', -, h⟩
    · rw [logError, Prog.visits_onError] at h
      have hposted : (q, s₁) = (m.verbRequest verb, s') := by
        rcases List.mem_cons.mp h with h | h
        · exact h
        · cases hreply : (srv (m.verbRequest verb) s').1 <;> rw [hreply] at h <;> cases h
      cases hposted
      exact ⟨rfl, rfl, before, hstatus⟩
    · exact absurd h (hread (Prog.asks_bind asks_status fun _ =>
        Prog.asks_bind (asks_log ..) fun _ => trivial))

/-- What a posted verb comes to: its own error, or that of the status read behind it. -/
theorem serverError_act_iff (hstatus : m.status.run srv s = (.ok before, s₁)) :
    ServerError ((m.act verb false).run srv s).1 ↔
      ServerError (srv (m.verbRequest verb) s₁).1 ∨
        (∃ v, (srv (m.verbRequest verb) s₁).1 = .ok v) ∧
          ServerError (srv m.statusRequest (srv (m.verbRequest verb) s₁).2).1 := by
  rw [← serverError_status_iff, act, Prog.run_bind_of_ok hstatus]
  -- the verb fails, or the status behind it does, or the call returns
  rcases hpost : srv (m.verbRequest verb) s₁ with ⟨exc | v, s₂⟩
  · simp [Prog.run_bind, hpost, ServerError]
  · rcases hafter : m.status.run srv s₂ with ⟨exc | after, s₃⟩
    · simp [Prog.run_bind, hpost, hafter, ServerError]
    · simp [Prog.run_bind, hpost, hafter, ServerError]

/-- A call that posts a verb goes on as the action of that verb. -/
theorem visited_ensure {state : String} {q : Request}
    (h : (q, s₁) ∈ (m.ensure state checkMode).visits srv s) (hq : ∃ verb, q = m.verbRequest verb) :
    ∃ verb s₂, (q, s₁) ∈ (m.act verb checkMode).visits srv s₂ ∧
      (m.ensure state checkMode).run srv s = (m.act verb checkMode).run srv s₂ := by
  -- the branches that find the state in place post nothing
  have hnoop : ∀ {status message : String} {s : σ}, (q, s₁) ∉ (noop status message).visits srv s :=
    fun hmem => by cases hmem
  unfold ensure at h ⊢
  split at h
  · cases h
  · rename_i hvalid
    rw [if_neg hvalid]
    split at h
    · rename_i hstate
      rw [if_pos hstate]
      exact ⟨.reconfigure, s, h, rfl⟩
    · rename_i hstate
      rw [if_neg hstate]
      rcases Prog.mem_visits_bind h with h | ⟨before, s₂, hstatus, h⟩
      · exact absurd (asks_status.of_mem_visits h) (isVerb_not_read hq)
      · rw [Prog.run_bind_of_ok hstatus]
        by_cases hrunning : state = "running"
        · simp only [if_pos hrunning] at h ⊢
          by_cases hbefore : before = "running"
          · rw [if_pos hbefore] at h
            exact absurd h hnoop
          · rw [if_neg hbefore] at h ⊢
            exact ⟨.start, s₂, h, rfl⟩
        · simp only [if_neg hrunning] at h ⊢
          by_cases hbefore : before ∈ ["stopped", "disabled", "unknown"]
          · rw [if_pos hbefore] at h
            exact absurd h hnoop
          · rw [if_neg hbefore] at h ⊢
            exact ⟨.stop, s₂, h, rfl⟩

end BaseServiceManager

namespace DaemonPath

variable {S : Type} {client : OpnsenseClient} {net : Server HttpRequest HttpReply S} {x x' : S}
  {q : Request} {v : Json}

theorem serverError_bind_ret {α β : Type} {σ : Type} {srv : Appliance σ} {p : M α} {f : α → β}
    {s : σ} : ServerError ((p >>= fun a => Prog.ret (f a)).run srv s).1 ↔
      ServerError (p.run srv s).1 := by
  rcases hp : p.run srv s with ⟨exc | a, s'⟩
  · rw [Prog.run_bind_of_error hp]
    simp [ServerError]
  · rw [Prog.run_bind_of_ok hp]
    simp [ServerError]

theorem visits_bind_ret {α β : Type} {σ : Type} {srv : Appliance σ} {p : M α} {f : α → β} {s : σ} :
    (p >>= fun a => (Prog.ret (f a) : M β)).visits srv s = p.visits srv s := by
  rw [Prog.visits_bind]
  rcases p.run srv s with ⟨exc | a, s'⟩ <;> exact List.append_nil _

/-- What makes a refusal heard: its body reports no failed validation, and behind a verb, which
does not look at the body itself, reading the status fails as a server error. -/
def Heard (client : OpnsenseClient) (net : Server HttpRequest HttpReply S) (path : DaemonPath)
    (q : Request) (x : S) (v : Json) : Prop :=
  OpnsenseClient.resultFailed v = false ∧ ∀ m, path.controller = some m →
    ServerError (client.appliance net m.statusRequest (client.appliance net q x).2).1

/-- A path that applies raises the refusal, but for one that is a failed validation. -/
theorem serverError_of_relays {α : Type} {p : M α} {f : Exc → Exc} (hrelays : RelaysApply f p)
    (hcls : ∀ e, ∃ e', f (.opnsense e) = .opnsense e' ∧ (e'.cls = .server ↔ e.cls = .server))
    (hvisit : (q, x') ∈ p.visits (client.appliance net) x) (hq : q.isApply = true)
    (hrefused : Refused client net q x' v) :
    ServerError (p.run (client.appliance net) x).1 ↔ OpnsenseClient.resultFailed v = false := by
  -- `reconfigure` is the only method that looks for a refusal in the body
  have hreconfigure : ∃ e, (client.appliance net q x').1 = .error (.opnsense e) ∧
      (e.cls = .server ↔ OpnsenseClient.resultFailed v = false) := by
    cases q with
    | reconfigure action opts => exact run_reconfigure_of_refused hrefused
    | _ => cases hq
  obtain ⟨e, hreply, hserver⟩ := hreconfigure
  obtain ⟨e', he', hcls'⟩ := hcls e
  have hrun := hrelays.run_error hvisit hq hreply
  rw [he'] at hrun
  rw [hrun, ← hserver, ← hcls']
  simp [ServerError]

/-- A verb raises the refusal when reading the status behind it fails. -/
theorem serverError_of_verb {m : BaseServiceManager} {verb : ServiceVerb} {checkMode : Bool}
    (hvisit : (q, x') ∈ (m.act verb checkMode).visits (client.appliance net) x)
    (hq : ∃ verb, q = m.verbRequest verb) (hrefused : Refused client net q x' v) :
    ServerError ((m.act verb checkMode).run (client.appliance net) x).1 ↔
      OpnsenseClient.resultFailed v = false ∧
        ServerError (client.appliance net m.statusRequest (client.appliance net q x').2).1 := by
  obtain ⟨rfl, rfl, before, hstatus⟩ := BaseServiceManager.visited_act hvisit hq
  obtain ⟨hok, hfailed⟩ := run_post_of_refused hrefused
  rw [BaseServiceManager.serverError_act_iff hstatus]
  cases hresult : OpnsenseClient.resultFailed v with
  | true =>
    obtain ⟨e, hreply, hcls⟩ := hfailed hresult
    have hpost : (client.appliance net (m.verbRequest verb) x').1 = .error (.opnsense e) := hreply
    simp [hpost, ServerError, hcls]
  | false =>
    have hpost : (client.appliance net (m.verbRequest verb) x').1 = .ok v := hok hresult
    simp [hpost, ServerError]

/-- One refused request of a path, seen from the outcome. -/
theorem serverError_iff_heard (path : DaemonPath)
    (hvisit : (q, x') ∈ path.program.visits (client.appliance net) x) (hq : path.acts q)
    (hrefused : Refused client net q x' v) :
    ServerError (path.program.run (client.appliance net) x).1 ↔ Heard client net path q x' v := by
  have hsame : ∀ e : OpnsenseError,
      ∃ e', Exc.opnsense e = .opnsense e' ∧ (e'.cls = .server ↔ e.cls = .server) :=
    fun e => ⟨e, rfl, Iff.rfl⟩
  cases path with
  | apply m =>
    -- the first three hand the error of the apply on, and the last two go by the verb
    have hrelays : RelaysApply (fun e => e) (program (.apply m)) :=
      Prog.relays_bind (relays_apply m) fun _ => trivial
    simp [serverError_of_relays hrelays hsame hvisit hq hrefused, Heard, controller]
  | settings m =>
    have hrelays : RelaysApply (fun e => e) (program (.settings m)) :=
      Prog.relays_bind (relays_settingsApply m) fun _ => trivial
    simp [serverError_of_relays hrelays hsame hvisit hq hrefused, Heard, controller]
  | rulesets desired checkMode applies =>
    have hrelays : RelaysApply IdsRulesetManager.hint
        (program (.rulesets desired checkMode applies)) :=
      Prog.relays_bind (IdsRulesetManager.relays_ensureMany desired checkMode applies)
        fun _ => trivial
    simp [serverError_of_relays hrelays IdsRulesetManager.hint_cls hvisit hq hrefused, Heard,
      controller]
  | action m verb checkMode =>
    have hvisit' : (q, x') ∈ (m.act verb checkMode).visits (client.appliance net) x :=
      visits_bind_ret ▸ hvisit
    have hrun := @serverError_bind_ret _ _ _ (client.appliance net)
      (m.act verb checkMode) some x
    calc ServerError ((program (.action m verb checkMode)).run (client.appliance net) x).1
        ↔ ServerError ((m.act verb checkMode).run (client.appliance net) x).1 := hrun
      _ ↔ _ := serverError_of_verb hvisit' hq hrefused
      _ ↔ Heard client net (.action m verb checkMode) q x' v := by simp [Heard, controller]
  | service m state checkMode =>
    have hvisit' : (q, x') ∈ (m.ensure state checkMode).visits (client.appliance net) x :=
      visits_bind_ret ▸ hvisit
    obtain ⟨verb, x₂, hact, hensure⟩ := BaseServiceManager.visited_ensure hvisit' hq
    have hrun := @serverError_bind_ret _ _ _ (client.appliance net)
      (m.ensure state checkMode) some x
    rw [hensure] at hrun
    calc ServerError ((program (.service m state checkMode)).run (client.appliance net) x).1
        ↔ ServerError ((m.act verb checkMode).run (client.appliance net) x₂).1 := hrun
      _ ↔ _ := serverError_of_verb hact hq hrefused
      _ ↔ Heard client net (.service m state checkMode) q x' v := by simp [Heard, controller]

/-- A path raises a server error for every refusal it meets exactly when every one is heard. -/
theorem refusal_raised_iff (client : OpnsenseClient) (net : Server HttpRequest HttpReply S) (x : S)
    (path : DaemonPath) :
    (∀ q x' v, (q, x') ∈ path.program.visits (client.appliance net) x → path.acts q →
      Refused client net q x' v → ServerError (path.program.run (client.appliance net) x).1) ↔
    ∀ q x' v, (q, x') ∈ path.program.visits (client.appliance net) x → path.acts q →
      Refused client net q x' v → Heard client net path q x' v := by
  constructor
  · intro h q x' v hvisit hq hrefused
    exact (serverError_iff_heard path hvisit hq hrefused).mp (h q x' v hvisit hq hrefused)
  · intro h q x' v hvisit hq hrefused
    exact (serverError_iff_heard path hvisit hq hrefused).mpr (h q x' v hvisit hq hrefused)

end DaemonPath

/-- A refused reconfigure of the monitoring daemon is reported as one that happened. -/
theorem refused_reconfigure_reported :
    let refused : HttpReply := .response 200
      ⟨"\x7b\"status\": \"failed\"\x7d", .ok (.obj [("status", .str "failed")])⟩
    let path : DaemonPath := .service MonitDaemonManager "reconfigured" false
    let srv := defaultClient.appliance (answering refused)
    (∃ q, (q, ()) ∈ path.program.visits srv () ∧ path.acts q ∧
      Refused defaultClient (answering refused) q () (.obj [("status", .str "failed")])) ∧
    (∃ r, (path.program.run srv ()).1 = .ok (some r) ∧ r.changed = true ∧
      r.action = .reconfigured) ∧
    ¬ ServerError (path.program.run srv ()).1 := by
  intro refused path srv
  have hrun : ∃ r, (path.program.run srv ()).1 = .ok (some r) ∧ r.changed = true ∧
      r.action = .reconfigured := ⟨_, rfl, rfl, rfl⟩
  refine ⟨⟨MonitDaemonManager.verbRequest .reconfigure, ?_, ⟨.reconfigure, rfl⟩, ?_⟩, hrun, ?_⟩
  · exact List.mem_cons_of_mem _ (List.mem_cons_self ..)
  · exact ⟨by decide, _, rfl, rfl⟩
  · obtain ⟨r, hr, -⟩ := hrun
    rw [hr]
    rintro ⟨e, he, -⟩
    cases he

end Opnsense
