import Opnsense.FinalReply
import Opnsense.Interaction.History

namespace Opnsense
open Interaction

namespace OpnsenseClient

section Loop

variable (client : OpnsenseClient) (method : Method) (endpoint : String) (data : Obj)
  (opts : CallOptions)

/-- The warning before a retry, and the sleep. -/
def warnAndSleep (attempt : ℕ) (what : String) (status : Obj)
    (next : Prog HttpRequest HttpReply Event (Exc × Option ℕ) Json) :
    Prog HttpRequest HttpReply Event (Exc × Option ℕ) Json :=
  let effectiveRetries := client.effectiveRetries opts
  let delay := client.retryBackoff ^ attempt
  let place := s!"retrying in {oneDecimal delay}s (attempt {attempt}/{effectiveRetries})"
  .emit (.log ⟨.warning, s!"OPNsense {method.text} {endpoint} {what}, {place}",
      [("method", .str method.text), ("endpoint", .str endpoint)] ++ status ++
        [("attempt", .int attempt), ("max_retries", .int effectiveRetries)]⟩)
    (.emit (.sleep delay) next)

/-- `for attempt in range(1, effective_retries + 1)`, with `rest` attempts of the range left.
`status` is `status_code`, and `exhausted` what stands behind the loop. -/
def attemptLoop (exhausted : Option ℕ → Prog HttpRequest HttpReply Event (Exc × Option ℕ) Json) :
    ℕ → ℕ → Option ℕ → Prog HttpRequest HttpReply Event (Exc × Option ℕ) Json
  | 0, _, status => exhausted status
  | rest + 1, attempt, status =>
    let effectiveTimeout := opts.timeout.getD client.timeout
    .call (client.attempt method endpoint data opts) fun reply =>
      match reply with
      | .response code body =>
        if code ∈ [400, 401, 403, 404] then
          .raise (client.errorForStatus code body endpoint, some code)
        else if 500 ≤ code then
          if attempt < client.effectiveRetries opts then
            client.warnAndSleep method endpoint opts attempt s!"returned {code}"
              [("status_code", .int code)] (attemptLoop exhausted rest (attempt + 1) (some code))
          else .raise (client.errorForStatus code body endpoint, some code)
        else
          match body.json with
          | .error message => .raise (.jsonDecodeError message, some code)
          | .ok value =>
            if resultFailed value then
              .raise (.opnsense
                { cls := .validation, message := s!"Validation failed on {endpoint}",
                  statusCode := some 400, endpoint := some endpoint,
                  validations := validationsOf body.json }, some code)
            else
              .emit (.log ⟨.debug, s!"{method.text} {endpoint} {code}",
                [("method", .str method.text), ("endpoint", .str endpoint),
                  ("status_code", .int code)]⟩) (.ret value)
      | .timeout =>
        if attempt < client.effectiveRetries opts then
          client.warnAndSleep method endpoint opts attempt "timed out" []
            (attemptLoop exhausted rest (attempt + 1) status)
        else
          .raise (.opnsense
            { cls := .timeout, endpoint := some endpoint
              message := client.redactSecret
                s!"Request timed out after {effectiveTimeout}s: {method.text} {endpoint}" },
            status)
      | .transportError text =>
        if attempt < client.effectiveRetries opts then
          client.warnAndSleep method endpoint opts attempt "transport error" []
            (attemptLoop exhausted rest (attempt + 1) status)
        else
          .raise (.opnsense
            { cls := .connection, endpoint := some endpoint
              message := client.redactSecret
                s!"Connection failed: {method.text} {endpoint}: {text}" }, status)

/-- `_request` with its loop. -/
def requestLoop (exhausted : Option ℕ → Prog HttpRequest HttpReply Event (Exc × Option ℕ) Json) :
    H Json :=
  Prog.rescue (client.attemptLoop method endpoint data opts exhausted
      (client.effectiveRetries opts) 1 none)
    (fun (exc, status) =>
      match exc with
      | .opnsense e =>
        .emit (.log ⟨.error, s!"{method.text} {endpoint} failed",
          [("method", .str method.text), ("endpoint", .str endpoint),
            ("status_code", statusJson status)]⟩) (.raise (.opnsense e))
      | exc => .raise exc)

/-- The guard of the source behind the loop. -/
def failedAfter (status : Option ℕ) : Prog HttpRequest HttpReply Event (Exc × Option ℕ) Json :=
  let effectiveRetries := client.effectiveRetries opts
  .raise (.opnsense
    { cls := .base, endpoint := some endpoint
      message := s!"Request failed after {effectiveRetries} attempts: {method.text} {endpoint}" },
    status)

/-- What `_request` makes of the outcome of its last attempt. -/
def verdict : HttpReply → Except Exc Json
  | .response code body =>
    if code ∈ [400, 401, 403, 404] ∨ 500 ≤ code then
      .error (client.errorForStatus code body endpoint)
    else
      match body.json with
      | .error message => .error (.jsonDecodeError message)
      | .ok value =>
        if resultFailed value then
          .error (.opnsense
            { cls := .validation, message := s!"Validation failed on {endpoint}",
              statusCode := some 400, endpoint := some endpoint,
              validations := validationsOf body.json })
        else .ok value
  | .timeout =>
    let effectiveTimeout := opts.timeout.getD client.timeout
    .error (.opnsense
      { cls := .timeout, endpoint := some endpoint
        message := client.redactSecret
          s!"Request timed out after {effectiveTimeout}s: {method.text} {endpoint}" })
  | .transportError text =>
    .error (.opnsense
      { cls := .connection, endpoint := some endpoint
        message := client.redactSecret s!"Connection failed: {method.text} {endpoint}: {text}" })

end Loop

variable {client : OpnsenseClient} {method : Method} {endpoint : String} {data : Obj}
  {opts : CallOptions}

theorem effectiveRetries_pos : 0 < client.effectiveRetries opts := by
  unfold effectiveRetries
  omega

@[simp] theorem lastStatus_response (earlier : List HttpReply) (code : ℕ) (body : HttpBody) :
    lastStatus (earlier ++ [.response code body]) = some code := by
  simp [lastStatus, HttpReply.status]

@[simp] theorem lastStatus_timeout (earlier : List HttpReply) :
    lastStatus (earlier ++ [.timeout]) = lastStatus earlier := by
  simp [lastStatus, HttpReply.status]

@[simp] theorem lastStatus_transportError (earlier : List HttpReply) (text : String) :
    lastStatus (earlier ++ [.transportError text]) = lastStatus earlier := by
  simp [lastStatus, HttpReply.status]

/-- The loop is the retried question: by induction on the retries left. With the last attempt
under way no branch goes on, so nothing behind the loop matters. -/
theorem attemptLoop_eq_retry
    (exhausted : Option ℕ → Prog HttpRequest HttpReply Event (Exc × Option ℕ) Json)
    (left : ℕ) (earlier : List HttpReply)
    (hcount : earlier.length + left + 1 = client.effectiveRetries opts) :
    client.attemptLoop method endpoint data opts exhausted (left + 1) (earlier.length + 1)
        (lastStatus earlier) =
      Prog.retry (client.attempt method endpoint data opts) HttpReply.retryable
        (client.beforeRetry method endpoint (client.effectiveRetries opts))
        (client.finish method endpoint (opts.timeout.getD client.timeout)) left earlier := by
  induction left generalizing earlier with
  | zero =>
    -- the last attempt: every branch that would go on is closed
    have hlast : ¬ earlier.length + 1 < client.effectiveRetries opts := by omega
    refine congrArg (Prog.call _) (funext fun reply => ?_)
    cases reply with
    | timeout => simp [hlast, finish]
    | transportError text => simp [hlast, finish]
    | response code body =>
      simp only [hlast, finish, lastStatus_response, if_false]
      by_cases hcode : code ∈ [400, 401, 403, 404]
      · simp only [hcode, true_or, if_true]
      · by_cases hserver : 500 ≤ code
        · simp only [hcode, hserver, or_true, if_true, if_false]
        · cases body.json with
          | error message => simp only [hcode, hserver, or_self, if_false]
          | ok value => simp only [hcode, hserver, or_self, if_false]
  | succ left ih =>
    have hmore : earlier.length + 1 < client.effectiveRetries opts := by omega
    have hnext : ∀ reply, client.attemptLoop method endpoint data opts exhausted (left + 1)
        (earlier.length + 1 + 1) (lastStatus (earlier ++ [reply])) =
        Prog.retry (client.attempt method endpoint data opts) HttpReply.retryable
          (client.beforeRetry method endpoint (client.effectiveRetries opts))
          (client.finish method endpoint (opts.timeout.getD client.timeout)) left
          (earlier ++ [reply]) := by
      intro reply
      have hlen : (earlier ++ [reply]).length = earlier.length + 1 := by simp
      rw [← hlen]
      exact ih (earlier ++ [reply]) (by rw [hlen]; omega)
    refine congrArg (Prog.call _) (funext fun reply => ?_)
    cases reply with
    | timeout =>
      have hstep := hnext .timeout
      rw [lastStatus_timeout] at hstep
      simp only [hmore, if_true, hstep]
      rfl
    | transportError text =>
      have hstep := hnext (.transportError text)
      rw [lastStatus_transportError] at hstep
      simp only [hmore, if_true, hstep]
      rfl
    | response code body =>
      have hstep := hnext (.response code body)
      rw [lastStatus_response] at hstep
      by_cases hcode : code ∈ [400, 401, 403, 404]
      · have hlow : ¬ 500 ≤ code := by
          simp only [List.mem_cons, List.not_mem_nil, or_false] at hcode
          omega
        simp only [hcode, hlow, HttpReply.retryable, finish, lastStatus_response, true_or, if_true,
          decide_false, Bool.false_eq_true, if_false]
      · by_cases hserver : 500 ≤ code
        · simp only [hcode, hserver, hmore, HttpReply.retryable, if_true, if_false, decide_true,
            hstep]
          rfl
        · simp only [hcode, hserver, HttpReply.retryable, decide_false, Bool.false_eq_true,
            if_false]
          cases hjson : body.json with
          | error message =>
            simp only [hcode, hserver, hjson, finish, lastStatus_response, or_self, if_false]
          | ok value =>
            simp only [hcode, hserver, hjson, finish, lastStatus_response, or_self, if_false]

/-- Whatever stands behind the loop, the request is the same. -/
theorem requestLoop_eq
    (exhausted : Option ℕ → Prog HttpRequest HttpReply Event (Exc × Option ℕ) Json) :
    client.requestLoop method endpoint data opts exhausted =
      client.request method endpoint data opts := by
  have hpos := @effectiveRetries_pos client opts
  have hloop := @attemptLoop_eq_retry client method endpoint data opts exhausted
    (client.effectiveRetries opts - 1) [] (by simp only [List.length_nil]; omega)
  rw [Nat.sub_add_cancel hpos] at hloop
  rw [requestLoop, request, ← hloop]
  rfl

/-- What an observer of the network and the clock sees. -/
inductive Deed where
  | sends (h : HttpRequest)
  | sleeps (seconds : ℚ)

def deed : HttpRequest ⊕ Event → Option Deed
  | .inl h => some (.sends h)
  | .inr (.sleep seconds) => some (.sleeps seconds)
  | .inr (.log _) => none

/-- The attempt `i`, counted from one, is the first whose outcome is final. -/
def FirstFinal (outcomes : ℕ → HttpReply) (i : ℕ) : Prop :=
  1 ≤ i ∧ (outcomes i).retryable = false ∧ ∀ a, 1 ≤ a → a < i → (outcomes a).retryable = true

theorem run_finish_verdict (earlier : List HttpReply) (reply : HttpReply) {S : Type}
    (net : Server HttpRequest HttpReply S) (x : S) :
    ((client.finish method endpoint (opts.timeout.getD client.timeout) earlier reply).run net
      x).1.mapError Prod.fst = client.verdict method endpoint opts reply := by
  cases reply with
  | timeout => rfl
  | transportError text => rfl
  | response code body =>
    simp only [finish, verdict]
    split
    · rfl
    · cases body.json with
      | error message => rfl
      | ok value =>
        dsimp only
        split <;> rfl

/-- The end of a request leaves at most a debug record. -/
theorem mem_history_finish {timeout : ℕ} {earlier : List HttpReply} {reply : HttpReply} {S : Type}
    {net : Server HttpRequest HttpReply S} {x : S} {ev : HttpRequest ⊕ Event}
    (h : ev ∈ (client.finish method endpoint timeout earlier reply).history net x) :
    ∃ record : LogRecord, record.level = .debug ∧ ev = .inr (.log record) := by
  cases reply with
  | timeout => cases h
  | transportError text => cases h
  | response code body =>
    simp only [finish] at h
    split at h
    · cases h
    · cases hjson : body.json with
      | error message =>
        rw [hjson] at h
        cases h
      | ok value =>
        rw [hjson] at h
        dsimp only at h
        split at h
        · cases h
        · exact ⟨_, rfl, List.mem_singleton.mp h⟩

theorem deeds_finish (timeout : ℕ) (earlier : List HttpReply) (reply : HttpReply) {S : Type}
    (net : Server HttpRequest HttpReply S) (x : S) :
    ((client.finish method endpoint timeout earlier reply).history net x).filterMap deed = [] := by
  rw [List.filterMap_eq_nil_iff]
  intro ev hev
  obtain ⟨record, -, rfl⟩ := mem_history_finish hev
  rfl

/-- Between two attempts there is one sleep, the longer the more attempts were made. -/
theorem deeds_reports (before earlier : List HttpReply) (q : HttpRequest) (n : ℕ) :
    (Prog.reports q (client.beforeRetry method endpoint n) earlier before).filterMap deed =
      (List.range before.length).flatMap fun a =>
        [.sends q, .sleeps (client.retryBackoff ^ (earlier.length + a + 1))] := by
  induction before generalizing earlier with
  | nil => rfl
  | cons r rest ih =>
    have hone : ((client.beforeRetry method endpoint n earlier r).map
        (Sum.inr : Event → HttpRequest ⊕ Event)).filterMap deed =
        [.sleeps (client.retryBackoff ^ (earlier.length + 1))] := rfl
    have hsends : deed (.inl q) = some (.sends q) := rfl
    rw [Prog.reports, List.filterMap_cons_some hsends, List.filterMap_append, hone, ih,
      List.length_cons, List.range_succ_eq_map, List.flatMap_cons, List.flatMap_map]
    simp only [List.length_append, List.length_singleton, List.cons_append,
      List.nil_append, Nat.add_zero, Nat.succ_eq_add_one]
    refine congrArg (List.cons _) (congrArg (List.cons _) ?_)
    apply List.flatMap_congr
    intro a _
    rw [show earlier.length + 1 + a + 1 = earlier.length + (a + 1) + 1 by omega]

/-- The last outcome alone decides what is returned or raised. -/
theorem run_request_replaying (outcomes : ℕ → HttpReply) :
    let sent := attempts HttpReply.retryable outcomes (client.effectiveRetries opts - 1) 1
    ((client.request method endpoint data opts).run (replaying outcomes) 1).1 =
      client.verdict method endpoint opts (outcomes sent) := by
  intro sent
  obtain ⟨hrun, -⟩ := @Prog.retry_replaying _ _ _ _ _ HttpReply.retryable outcomes
    (client.attempt method endpoint data opts)
    (client.beforeRetry method endpoint (client.effectiveRetries opts))
    (client.finish method endpoint (opts.timeout.getD client.timeout))
    (client.effectiveRetries opts - 1) 1 []
  have hpos : 0 < sent := attempts_pos
  have hlast : 1 + (sent - 1) = sent := by omega
  rw [List.nil_append, hlast] at hrun
  have hverdict := @run_finish_verdict client method endpoint opts
    (Prog.earlierReplies HttpReply.retryable outcomes (client.effectiveRetries opts - 1) 1)
    (outcomes sent) _ (replaying outcomes) (1 + sent)
  rw [← hverdict, request, Prog.run_rescue, hrun]
  rcases Prog.run _ _ _ with ⟨failed | v, x'⟩
  · obtain ⟨exc, status⟩ := failed
    cases exc <;> rfl
  · rfl

/-- For every sequence of outcomes a request makes one attempt after the other up to the first
final one, within its budget; it sleeps between two attempts and not behind the last, whose outcome
alone decides what is returned or raised. -/
theorem request_contract (client : OpnsenseClient) (method : Method) (endpoint : String)
    (data : Obj) (opts : CallOptions) :
    let N := client.effectiveRetries opts
    let q := client.attempt method endpoint data opts
    let program := client.requestLoop method endpoint data opts
      (client.failedAfter method endpoint opts)
    (N : ℤ) = max 1 (opts.maxRetries.getD client.maxRetries) ∧
    (∀ outcomes, ∃ sent,
      (∀ i, FirstFinal outcomes i → sent = min i N) ∧
      ((∀ a, 1 ≤ a → (outcomes a).retryable = true) → sent = N) ∧
      (program.history (replaying outcomes) 1).filterMap deed =
        ((List.range (sent - 1)).flatMap fun a =>
          [.sends q, .sleeps (client.retryBackoff ^ (a + 1))]) ++ [.sends q] ∧
      (program.run (replaying outcomes) 1).1 =
        client.verdict method endpoint opts (outcomes sent)) ∧
    ∀ exhausted, client.requestLoop method endpoint data opts exhausted = program := by
  intro N q program
  have hrequest : program = client.request method endpoint data opts := requestLoop_eq _
  refine ⟨?_, fun outcomes => ?_, fun exhausted => (requestLoop_eq exhausted).trans hrequest.symm⟩
  · simp only [N, effectiveRetries]
    omega
  · have hpos : 0 < N := effectiveRetries_pos
    have hattempts := @attempts_pos _ HttpReply.retryable outcomes (N - 1) 1
    have hbudget : N - 1 + 1 = N := Nat.sub_add_cancel hpos
    obtain ⟨-, hhistory⟩ := @Prog.retry_replaying _ _ _ _ _ HttpReply.retryable outcomes q
      (client.beforeRetry method endpoint N)
      (client.finish method endpoint (opts.timeout.getD client.timeout)) (N - 1) 1 []
    have hlast : 1 + (attempts HttpReply.retryable outcomes (N - 1) 1 - 1) =
        attempts HttpReply.retryable outcomes (N - 1) 1 := by omega
    rw [List.nil_append, hlast] at hhistory
    refine ⟨attempts HttpReply.retryable outcomes (N - 1) 1, fun i hi => ?_, fun hall => ?_, ?_, ?_⟩
    · obtain ⟨hone, hfinal, hbefore⟩ := hi
      have hcount := @attempts_eq_min _ HttpReply.retryable outcomes (N - 1) 1 (i - 1)
        (fun j hj => hbefore (1 + j) (by omega) (by omega))
        (by rwa [show 1 + (i - 1) = i by omega])
      rw [hcount, hbudget, Nat.sub_add_cancel hone]
    · rw [attempts_of_always fun j => hall (1 + j) (by omega), hbudget]
    · have hretry : ((Prog.retry q HttpReply.retryable (client.beforeRetry method endpoint N)
          (client.finish method endpoint (opts.timeout.getD client.timeout)) (N - 1) []).history
            (replaying outcomes) 1).filterMap deed =
          ((List.range (attempts HttpReply.retryable outcomes (N - 1) 1 - 1)).flatMap fun a =>
            [.sends q, .sleeps (client.retryBackoff ^ (a + 1))]) ++ [.sends q] := by
        have hsends : deed (.inl q) = some (.sends q) := rfl
        rw [hhistory, List.filterMap_append, List.filterMap_cons_some hsends, deeds_finish,
          deeds_reports, Prog.earlierReplies, List.length_map, List.length_range]
        simp only [List.length_nil, Nat.zero_add]
      rw [hrequest, request, Prog.history_rescue, List.filterMap_append, hretry]
      -- what comes after the last attempt is at most a log record
      refine List.append_right_eq_self.mpr ?_
      split
      · rfl
      · rename_i failed _ _
        obtain ⟨exc, status⟩ := failed
        cases exc <;> rfl
    · rw [hrequest]
      exact run_request_replaying outcomes

end OpnsenseClient
end Opnsense
