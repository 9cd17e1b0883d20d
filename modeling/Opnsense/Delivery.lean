import Opnsense.Client

namespace Opnsense
open Interaction

/-- What the client sees of an attempt that failed: a timeout, a transport error, or a
status from 500 on. -/
abbrev NetFailure := {reply : HttpReply // reply.retryable = true}

/-- A web server behind a network with a schedule of such failures. -/
abbrev lossy {σ : Type} (web : Server HttpRequest HttpReply σ) :
    Server HttpRequest HttpReply (σ × List (Fault NetFailure)) :=
  faulty Subtype.val web

namespace OpnsenseClient

variable {σ S : Type} {client : OpnsenseClient} {web : Server HttpRequest HttpReply σ}
  {net : Server HttpRequest HttpReply S} {opts : CallOptions} {s : σ}
  {fs : List (Fault NetFailure)}

theorem one_le_effectiveRetries : 1 ≤ client.effectiveRetries opts := by
  have hmax : (1 : ℤ) ≤ max 1 (opts.maxRetries.getD client.maxRetries) := le_max_left ..
  have hcast := Int.toNat_le_toNat hmax
  exact hcast

/-- The last reply decides the outcome without another request; a body comes from a response
below 500. -/
theorem run_finish (method : Method) (endpoint : String) (timeout : ℕ)
    (earlier : List HttpReply) (reply : HttpReply) (x : S) :
    ∃ o, (client.finish method endpoint timeout earlier reply).run net x = (o, x) ∧
      ∀ v, o = .ok v → reply.retryable = false ∧
        ∃ status body, reply = .response status body ∧ body.json = .ok v := by
  cases reply with
  | timeout => exact ⟨_, rfl, fun v h => nomatch h⟩
  | transportError text => exact ⟨_, rfl, fun v h => nomatch h⟩
  | response status body =>
    simp only [finish]
    split
    · exact ⟨_, rfl, fun v h => nomatch h⟩
    · rename_i hstatus
      have hlow : ¬ 500 ≤ status := fun h => hstatus (Or.inr h)
      split
      · exact ⟨_, rfl, fun v h => nomatch h⟩
      · rename_i value hjson
        split
        · exact ⟨_, rfl, fun v h => nomatch h⟩
        · refine ⟨_, rfl, fun v h => ?_⟩
          cases h
          exact ⟨by simpa [HttpReply.retryable] using hlow, status, body, rfl, hjson⟩

/-- The state after `k` executions of one request. -/
abbrev executed (web : Server HttpRequest HttpReply σ) (h : HttpRequest) (k : ℕ) (s : σ) : σ :=
  (fun s => (web h s).2)^[k] s

theorem executed_preserves (I : σ → Prop) {h : HttpRequest} (hstep : ∀ s, I s → I (web h s).2)
    (hs : I s) (k : ℕ) : I (executed web h k s) :=
  Function.Iterate.rec I hs hstep k

/-- A retried request: the server executed it so often, and a body is the one some execution
answered. -/
theorem run_request (method : Method) (endpoint : String) (data : Obj) (opts : CallOptions)
    (s : σ) (fs : List (Fault NetFailure)) :
    let h := client.attempt method endpoint data opts
    ∃ o S, (client.request method endpoint data opts).run (lossy web) (s, fs) = (o, S) ∧
      S.1 = executed web h
        (executions web HttpReply.retryable h (client.effectiveRetries opts) s fs) s ∧
      ∀ v, o = .ok v → ∃ k status body,
        (web h (executed web h k s)).1 = .response status body ∧ body.json = .ok v := by
  intro h
  have hbudget : client.effectiveRetries opts - 1 + 1 = client.effectiveRetries opts :=
    Nat.sub_add_cancel one_le_effectiveRetries
  obtain ⟨earlier, reply, S, hretry, hstate, hreply⟩ :=
    Prog.run_retry (fun e : NetFailure => e.2) web h
      (client.beforeRetry method endpoint (client.effectiveRetries opts))
      (client.finish method endpoint (opts.timeout.getD client.timeout))
      (client.effectiveRetries opts - 1) [] s fs
  obtain ⟨o, hfinish, hbody⟩ := @run_finish _ client (lossy web) method endpoint
    (opts.timeout.getD client.timeout) earlier reply S
  rw [hbudget] at hstate
  have hrun := hretry.trans hfinish
  rw [request, Prog.run_rescue, show Prog.run _ _ (s, fs) = _ from hrun]
  cases o with
  | error failed =>
    obtain ⟨exc, status⟩ := failed
    cases exc <;> exact ⟨_, S, rfl, hstate, fun v hv => nomatch hv⟩
  | ok value =>
    refine ⟨.ok value, S, rfl, hstate, fun v hv => ?_⟩
    cases hv
    obtain ⟨hfinal, status, body, rfl, hjson⟩ := hbody value rfl
    -- a reply with a body is not one to retry, so the server gave it
    rcases hreply with hagain | ⟨k, hk⟩
    · rw [hfinal] at hagain
      cases hagain
    · exact ⟨k, status, body, hk.symm, hjson⟩

/-- The method, the path and the body of the HTTP request behind each call. -/
def http (client : OpnsenseClient) : Request → HttpRequest
  | .get ep opts => client.attempt .get ep.url [] opts
  | .post ep data opts => client.attempt .post ep.url data opts
  | .search action phrase rowCount =>
    client.attempt .post action
      [("searchPhrase", .str phrase), ("rowCount", .int rowCount), ("current", .int 1)] {}
  | .create action payloadKey params => client.attempt .post action [(payloadKey, .obj params)] {}
  | .update action uuid payloadKey params =>
    client.attempt .post (action ++ "/" ++ uuid) [(payloadKey, .obj params)] {}
  | .delete action uuid => client.attempt .post (action ++ "/" ++ uuid) [] {}
  | .reconfigure action opts => client.attempt .post action [] opts

/-- The attempts a call has. -/
def budget (client : OpnsenseClient) : Request → ℕ
  | .get _ opts => client.effectiveRetries opts
  | .post _ _ opts => client.effectiveRetries opts
  | .reconfigure _ opts => client.effectiveRetries opts
  | _ => client.effectiveRetries {}

/-- How often the server acts on a call. -/
def executionsOf (client : OpnsenseClient) (web : Server HttpRequest HttpReply σ) (q : Request)
    (s : σ) (fs : List (Fault NetFailure)) : ℕ :=
  executions web HttpReply.retryable (client.http q) (client.budget q) s fs

/-- The first attempt of a call that the server acts on is answered below 500, or no other
attempt of it gets through. -/
abbrev Unrepeated (client : OpnsenseClient) (web : Server HttpRequest HttpReply σ) (q : Request)
    (s : σ) (fs : List (Fault NetFailure)) : Prop :=
  AnsweredOrAlone web HttpReply.retryable (client.http q) (client.budget q) s fs

/-- Decoding a body makes no request. -/
theorem run_bind_snd {p : H Json} {f : Json → H Json} {x : S}
    (hf : ∀ v x, ((f v).run net x).2 = x) : ((p >>= f).run net x).2 = (p.run net x).2 := by
  rw [Prog.run_bind]
  rcases p.run net x with ⟨e | v, x'⟩
  · rfl
  · exact hf v x'

theorem run_create_snd (endpoint payloadKey : String) (params : Obj) (opts : CallOptions) (x : S) :
    ((client.create endpoint payloadKey params opts).run net x).2 =
      ((client.request .post endpoint [(payloadKey, .obj params)] opts).run net x).2 :=
  run_bind_snd fun v x => by rw [Prog.run_ofExcept]

theorem run_search_snd (endpoint phrase : String) (rowCount : ℕ) (opts : CallOptions) (x : S) :
    ((client.search endpoint phrase rowCount opts).run net x).2 =
      ((client.request .post endpoint [("searchPhrase", .str phrase),
        ("rowCount", .int rowCount), ("current", .int 1)] opts).run net x).2 :=
  run_bind_snd fun v x => by rw [Prog.run_ofExcept]

theorem run_reconfigure_snd (endpoint : String) (opts : CallOptions) (x : S) :
    ((client.reconfigure endpoint opts).run net x).2 =
      ((client.request .post endpoint [] opts).run net x).2 := by
  apply run_bind_snd
  intro v x
  cases refusal v <;> rfl

/-- A call moves the server by so many executions of its one HTTP request. -/
theorem appliance_state (q : Request) :
    (client.appliance (lossy web) q (s, fs)).2.1 =
      executed web (client.http q) (client.executionsOf web q s fs) s := by
  have hrequest : ∀ (method : Method) (endpoint : String) (data : Obj) (opts : CallOptions),
      ((client.request method endpoint data opts).run (lossy web) (s, fs)).2.1 =
        executed web (client.attempt method endpoint data opts)
          (executions web HttpReply.retryable (client.attempt method endpoint data opts)
            (client.effectiveRetries opts) s fs) s := by
    intro method endpoint data opts
    obtain ⟨o, S, hrun, hstate, -⟩ :=
      @run_request _ client web method endpoint data opts s fs
    rw [hrun]
    exact hstate
  cases q with
  | get ep opts => exact hrequest ..
  | post ep data opts => exact hrequest ..
  | update action uuid payloadKey params => exact hrequest ..
  | delete action uuid => exact hrequest ..
  | create action payloadKey params =>
    exact (congrArg Prod.fst (run_create_snd ..)).trans (hrequest ..)
  | search action phrase rowCount =>
    exact (congrArg Prod.fst (run_search_snd ..)).trans (hrequest ..)
  | reconfigure action opts =>
    exact (congrArg Prod.fst (run_reconfigure_snd ..)).trans (hrequest ..)

end OpnsenseClient
end Opnsense
