import Opnsense.RetryLoop

namespace Opnsense
open Interaction

namespace OpnsenseClient

/-- The records at error level. -/
def errorRecord : HttpRequest ⊕ Event → Option LogRecord
  | .inr (.log record) => if record.level = .error then some record else none
  | _ => none

def loggedStatus (record : LogRecord) : Option Json := record.extra.lookup "status_code"

/-- A run that raises an `OpnsenseError` logs one record at error level, with the status of its
last attempt: `None` where that was a timeout or a transport error. -/
def LogsLastAttempt (client : OpnsenseClient) (method : Method) (endpoint : String) (data : Obj)
    (opts : CallOptions) (outcomes : ℕ → HttpReply) : Prop :=
  let program := client.requestLoop method endpoint data opts
    (client.failedAfter method endpoint opts)
  ∀ e, (program.run (replaying outcomes) 1).1 = .error (.opnsense e) →
    ∃ q reply, (program.trace (replaying outcomes) 1).getLast? = some (q, reply) ∧
      ((program.history (replaying outcomes) 1).filterMap errorRecord).map loggedStatus =
        [some (statusJson reply.status)]

variable {client : OpnsenseClient} {method : Method} {endpoint : String} {data : Obj}
  {opts : CallOptions}

theorem errorRecords_finish (timeout : ℕ) (earlier : List HttpReply) (reply : HttpReply) {S : Type}
    (net : Server HttpRequest HttpReply S) (x : S) :
    ((client.finish method endpoint timeout earlier reply).history net x).filterMap
      errorRecord = [] := by
  rw [List.filterMap_eq_nil_iff]
  intro ev hev
  obtain ⟨record, hlevel, rfl⟩ := mem_history_finish hev
  rw [errorRecord, hlevel]
  rfl

theorem errorRecords_reports (before earlier : List HttpReply) (q : HttpRequest) (n : ℕ) :
    (Prog.reports q (client.beforeRetry method endpoint n) earlier before).filterMap
      errorRecord = [] := by
  induction before generalizing earlier with
  | nil => rfl
  | cons r rest ih =>
    have hsends : errorRecord (.inl q) = none := rfl
    have hwarns : ((client.beforeRetry method endpoint n earlier r).map
        (Sum.inr : Event → HttpRequest ⊕ Event)).filterMap errorRecord = [] := rfl
    rw [Prog.reports, List.filterMap_cons_none hsends, List.filterMap_append, hwarns, ih]
    rfl

/-- The status that an error hands to the handler. -/
theorem status_of_finish_error {timeout : ℕ} {earlier : List HttpReply} {reply : HttpReply}
    {S : Type} {net : Server HttpRequest HttpReply S} {x x' : S} {exc : Exc} {status : Option ℕ}
    (h : (client.finish method endpoint timeout earlier reply).run net x =
      (.error (exc, status), x')) : status = lastStatus (earlier ++ [reply]) := by
  cases reply with
  | timeout => cases h; rfl
  | transportError text => cases h; rfl
  | response code body =>
    simp only [finish] at h
    split at h
    · cases h; rfl
    · cases hjson : body.json with
      | error message => simp only [hjson] at h; cases h; rfl
      | ok value =>
        simp only [hjson] at h
        split at h
        · cases h; rfl
        · cases h

/-- What the handler logs for a request that raises an `OpnsenseError`: the status of the last
response any attempt got. -/
theorem errorRecords_request {outcomes : ℕ → HttpReply} {e : OpnsenseError}
    (hraise : ((client.request method endpoint data opts).run (replaying outcomes) 1).1 =
      .error (.opnsense e)) :
    let left := client.effectiveRetries opts - 1
    let earlier := Prog.earlierReplies HttpReply.retryable outcomes left 1
    let last := outcomes (attempts HttpReply.retryable outcomes left 1)
    (((client.request method endpoint data opts).history (replaying outcomes) 1).filterMap
      errorRecord).map loggedStatus = [some (statusJson (lastStatus (earlier ++ [last])))] := by
  intro left earlier last
  obtain ⟨hrun, hhistory⟩ := @Prog.retry_replaying _ _ _ _ _ HttpReply.retryable outcomes
    (client.attempt method endpoint data opts)
    (client.beforeRetry method endpoint (client.effectiveRetries opts))
    (client.finish method endpoint (opts.timeout.getD client.timeout)) left 1 []
  have hpos : 0 < attempts HttpReply.retryable outcomes left 1 := attempts_pos
  have hlast : 1 + (attempts HttpReply.retryable outcomes left 1 - 1) =
      attempts HttpReply.retryable outcomes left 1 := by omega
  rw [List.nil_append, hlast] at hrun hhistory
  have hsends : errorRecord (.inl (client.attempt method endpoint data opts)) = none := rfl
  rw [request, Prog.run_rescue, hrun] at hraise
  rw [request, Prog.history_rescue, hrun, hhistory, List.filterMap_append, List.filterMap_append,
    errorRecords_reports, List.filterMap_cons_none hsends, errorRecords_finish]
  rcases hfinish : Prog.run _ _ _ with ⟨failed | v, x'⟩
  · obtain ⟨exc, status⟩ := failed
    rw [hfinish] at hraise
    have hstatus := status_of_finish_error hfinish
    cases exc with
    | opnsense e' => rw [hstatus]; rfl
    | _ => cases hraise
  · rw [hfinish] at hraise
    cases hraise

/-- The last response is that of the last attempt, unless only earlier attempts got one. -/
theorem lastStatus_concat_iff {earlier : List HttpReply} {last : HttpReply} :
    lastStatus (earlier ++ [last]) = last.status ↔
      (last.status = none → ∀ r ∈ earlier, r.status = none) := by
  cases hlast : last.status with
  | some code => simp [lastStatus, hlast]
  | none =>
    have hrest : lastStatus (earlier ++ [last]) = lastStatus earlier := by
      simp [lastStatus, hlast]
    rw [hrest, lastStatus, List.getLast?_eq_none_iff, List.filterMap_eq_nil_iff]
    exact ⟨fun h _ => h, fun h => h rfl⟩

theorem statusJson_inj {a b : Option ℕ} : statusJson a = statusJson b ↔ a = b := by
  constructor
  · intro h
    cases a with
    | none =>
      cases b with
      | none => rfl
      | some m => cases h
    | some n =>
      cases b with
      | none => cases h
      | some m =>
        have hcode : (n : ℤ) = m := Json.int.inj h
        rw [Int.ofNat.inj hcode]
  · exact congrArg statusJson

/-- An attempt without a response is tried again. -/
theorem retryable_of_status {r : HttpReply} (h : r.status = none) : r.retryable = true := by
  cases r with
  | response code body => cases h
  | timeout => rfl
  | transportError text => rfl

/-- An `OpnsenseError` is raised for a last attempt without a response. -/
theorem verdict_of_status {r : HttpReply} (h : r.status = none) :
    ∃ e, client.verdict method endpoint opts r = .error (.opnsense e) := by
  cases r with
  | response code body => cases h
  | timeout => exact ⟨_, rfl⟩
  | transportError text => exact ⟨_, rfl⟩

/-- The error log describes the attempt that failed exactly when no attempt got a response, or
one of them is not tried again, or the last of the budget got a response. -/
theorem logsLastAttempt_iff (client : OpnsenseClient) (method : Method) (endpoint : String)
    (data : Obj) (opts : CallOptions) (outcomes : ℕ → HttpReply) :
    let N := client.effectiveRetries opts
    client.LogsLastAttempt method endpoint data opts outcomes ↔
      ((∀ a, 1 ≤ a → a ≤ N → (outcomes a).retryable = true) → (outcomes N).status = none →
        ∀ a, 1 ≤ a → a ≤ N → (outcomes a).status = none) := by
  intro N
  have hN : 0 < N := effectiveRetries_pos
  let sent := attempts HttpReply.retryable outcomes (N - 1) 1
  let earlier := Prog.earlierReplies HttpReply.retryable outcomes (N - 1) 1
  have hpos : 0 < sent := attempts_pos
  have hbudget : sent ≤ N - 1 + 1 := attempts_spec.1
  have hrequest : client.requestLoop method endpoint data opts
      (client.failedAfter method endpoint opts) = client.request method endpoint data opts :=
    requestLoop_eq _
  have hlast := @getLast?_trace_request _ client (replaying outcomes) method endpoint data opts 1
  have hsettled : client.finalReply (replaying outcomes)
      (client.attempt method endpoint data opts) opts 1 = (outcomes sent, 1 + sent) := by
    rw [finalReply, Prog.settled_replaying, show 1 + (sent - 1) = sent by omega]
  -- a last attempt that would be tried again is the last of the budget
  have hsent : (outcomes sent).retryable = true → sent = N := by
    intro hagain
    rw [← show 1 + (sent - 1) = sent by omega] at hagain
    exact (attempts_eq_of_again hagain).trans (Nat.sub_add_cancel hN)
  have hlogged := @lastStatus_concat_iff earlier (outcomes sent)
  rw [LogsLastAttempt, hrequest, hlast, hsettled, run_request_replaying]
  constructor
  · intro hlog hall hunanswered
    have hwhole : sent = N := hsent (hall sent hpos (by omega))
    obtain ⟨e, hraise⟩ := @verdict_of_status client method endpoint opts (outcomes sent)
      (by rwa [hwhole])
    obtain ⟨q, reply, hreply, hrecord⟩ := hlog e hraise
    cases hreply
    rw [errorRecords_request (by rw [run_request_replaying]; exact hraise)] at hrecord
    have hstatus : lastStatus (earlier ++ [outcomes sent]) = (outcomes sent).status :=
      statusJson_inj.mp (Option.some.inj (List.singleton_inj.mp hrecord))
    intro a ha hle
    rcases Nat.lt_or_eq_of_le hle with hlt | rfl
    · exact hlogged.mp hstatus (by rwa [hwhole]) _
        (Prog.mem_earlierReplies.mpr ⟨a, ha, show a + 1 < 1 + sent by omega, rfl⟩)
    · exact hunanswered
  · intro hcond e hraise
    refine ⟨_, _, rfl, ?_⟩
    rw [errorRecords_request (by rw [run_request_replaying]; exact hraise)]
    refine congrArg (fun status => [some (statusJson status)]) (hlogged.mpr fun hunanswered => ?_)
    have hwhole : sent = N := hsent (retryable_of_status hunanswered)
    have hall : ∀ a, 1 ≤ a → a ≤ N → (outcomes a).retryable = true := by
      intro a ha hle
      rcases Nat.lt_or_eq_of_le hle with hlt | rfl
      · exact again_of_lt_attempts ha (show a + 1 < 1 + sent by omega)
      · rw [← hwhole]
        exact retryable_of_status hunanswered
    intro r hr
    obtain ⟨a, ha, hlt, rfl⟩ := Prog.mem_earlierReplies.mp hr
    have hbefore : a + 1 < 1 + sent := hlt
    exact hcond hall (by rwa [← hwhole]) a ha (by omega)

/-- The appliance fails once and then falls silent. -/
def failsThenSilent (n : ℕ) : HttpReply :=
  if n = 1 then .response 500 ⟨"", .error "Expecting value"⟩ else .timeout

/-- The timeout of the third attempt is logged with the status of the first. -/
theorem stale_status_logged :
    ¬ defaultClient.LogsLastAttempt .get "core/firmware/status" [] {} failsThenSilent := by
  intro hlog
  obtain ⟨q, reply, hreply, hrecord⟩ := hlog _ rfl
  have hlast : reply = .timeout := by
    have htrace := congrArg (Option.map Prod.snd) hreply
    exact (Option.some.inj htrace).symm
  have hlogged : [some (Json.int 500)] = [some (statusJson reply.status)] := hrecord
  rw [hlast] at hlogged
  cases List.singleton_inj.mp hlogged

end OpnsenseClient
end Opnsense
