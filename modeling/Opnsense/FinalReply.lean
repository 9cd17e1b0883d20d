import Opnsense.Client

namespace Opnsense
open Interaction

/-- What a reply that is not tried again counts as. -/
inductive Reading where
  | body (v : Json)
  | undecodable (message : String)
  | refused

namespace HttpReply

def reading : HttpReply → Reading
  | .response status body =>
    if status ∈ [400, 401, 403, 404] ∨ 500 ≤ status then .refused
    else
      -- every other status goes this way, not only a 2xx
      match body.json with
      | .error message => .undecodable message
      | .ok v => if OpnsenseClient.resultFailed v then .refused else .body v
  | .timeout => .refused
  | .transportError _ => .refused

theorem reading_eq_body {r : HttpReply} {v : Json} : r.reading = .body v ↔
    ∃ status body, r = .response status body ∧ status ∉ [400, 401, 403, 404] ∧ status < 500 ∧
      body.json = .ok v ∧ OpnsenseClient.resultFailed v = false := by
  constructor
  · intro h
    cases r with
    | timeout => cases h
    | transportError => cases h
    | response status body =>
      simp only [reading] at h
      split at h
      · cases h
      · rename_i hstatus
        rw [not_or, Nat.not_le] at hstatus
        split at h
        · cases h
        · rename_i value hjson
          split at h
          · cases h
          · rename_i hresult
            cases h
            exact ⟨status, body, rfl, hstatus.1, hstatus.2, hjson, by simpa using hresult⟩
  · rintro ⟨status, body, rfl, hstatus, hlow, hjson, hresult⟩
    have hkept : ¬ (status ∈ [400, 401, 403, 404] ∨ 500 ≤ status) := by
      rw [not_or, Nat.not_le]
      exact ⟨hstatus, hlow⟩
    simp only [reading, if_neg hkept, hjson, hresult]
    rfl

end HttpReply

namespace OpnsenseClient

variable {S : Type} {client : OpnsenseClient} {net : Server HttpRequest HttpReply S} {x : S}
  {method : Method} {endpoint : String} {data : Obj} {opts : CallOptions}

/-- The reply the attempts of a request end with, whatever the network answers to each. -/
def finalReply (client : OpnsenseClient) (net : Server HttpRequest HttpReply S) (h : HttpRequest)
    (opts : CallOptions) (x : S) : HttpReply × S :=
  Prog.settled net HttpReply.retryable h (client.effectiveRetries opts - 1) x

/-- The outcome of a request, read off the reply its attempts end with. -/
def Reads : Reading → Except Exc Json → Prop
  | .body v, o => o = .ok v
  | .undecodable message, o => o = .error (.jsonDecodeError message)
  | .refused, o => ∃ e, o = .error (.opnsense e)

theorem run_finish_reads (timeout : ℕ) (earlier : List HttpReply) (r : HttpReply) :
    ∃ o : Except (Exc × Option ℕ) Json,
      (client.finish method endpoint timeout earlier r).run net x = (o, x) ∧
        Reads r.reading (o.mapError Prod.fst) := by
  cases r with
  | timeout => exact ⟨_, rfl, _, rfl⟩
  | transportError text => exact ⟨_, rfl, _, rfl⟩
  | response status body =>
    simp only [finish, HttpReply.reading]
    split
    · exact ⟨_, rfl, _, rfl⟩
    · cases hjson : body.json with
      | error message => exact ⟨_, rfl, rfl⟩
      | ok v =>
        cases hresult : resultFailed v with
        | true =>
          simp only [hresult, if_true]
          exact ⟨_, rfl, _, rfl⟩
        | false =>
          simp only [hresult, Bool.false_eq_true, if_false]
          exact ⟨_, rfl, rfl⟩

/-- A request ends as finishing on its final reply does; the status is dropped from the error. -/
theorem run_request_finish (method : Method) (endpoint : String) (data : Obj) (opts : CallOptions)
    (x : S) :
    let final := client.finalReply net (client.attempt method endpoint data opts) opts x
    ∃ earlier, ((client.request method endpoint data opts).run net x) =
      (((client.finish method endpoint (opts.timeout.getD client.timeout) earlier final.1).run net
        final.2).1.mapError Prod.fst, final.2) := by
  intro final
  obtain ⟨earlier, hretry⟩ := Prog.run_retry_settled net HttpReply.retryable
    (client.attempt method endpoint data opts)
    (client.beforeRetry method endpoint (client.effectiveRetries opts))
    (client.finish method endpoint (opts.timeout.getD client.timeout))
    (client.effectiveRetries opts - 1) [] x
  obtain ⟨o, hfinish, -⟩ := @run_finish_reads _ client net final.2 method endpoint
    (opts.timeout.getD client.timeout) earlier final.1
  refine ⟨earlier, ?_⟩
  have hrun := hretry.trans hfinish
  rw [request, Prog.run_rescue, show Prog.run _ _ x = _ from hrun, hfinish]
  cases o with
  | ok v => rfl
  | error failed =>
    -- the log record of an `OpnsenseError` changes nothing
    obtain ⟨exc, status⟩ := failed
    cases exc <;> rfl

theorem run_request_reads (method : Method) (endpoint : String) (data : Obj) (opts : CallOptions)
    (x : S) :
    let final := client.finalReply net (client.attempt method endpoint data opts) opts x
    ∃ o, (client.request method endpoint data opts).run net x = (o, final.2) ∧
      Reads final.1.reading o := by
  intro final
  obtain ⟨earlier, hrun⟩ := @run_request_finish _ client net method endpoint data opts x
  obtain ⟨o, hfinish, hreads⟩ := @run_finish_reads _ client net final.2 method endpoint
    (opts.timeout.getD client.timeout) earlier final.1
  exact ⟨_, hrun, by rwa [hfinish]⟩

/-- Finishing asks nothing more. -/
theorem trace_finish (timeout : ℕ) (earlier : List HttpReply) (r : HttpReply) :
    (client.finish method endpoint timeout earlier r).trace net x = [] := by
  cases r with
  | timeout => rfl
  | transportError text => rfl
  | response status body =>
    simp only [finish]
    split
    · rfl
    · split
      · rfl
      · split <;> rfl

/-- A call sends one request, again and again, and got its final reply last. -/
theorem trace_request (method : Method) (endpoint : String) (data : Obj) (opts : CallOptions)
    (x : S) : ∃ before, (client.request method endpoint data opts).trace net x =
      before ++ [(client.attempt method endpoint data opts,
        (client.finalReply net (client.attempt method endpoint data opts) opts x).1)] ∧
      ∀ qr ∈ before, qr.1 = client.attempt method endpoint data opts := by
  obtain ⟨before, hretry, hsame⟩ := Prog.trace_retry_settled net HttpReply.retryable
    (client.attempt method endpoint data opts)
    (client.beforeRetry method endpoint (client.effectiveRetries opts))
    (client.finish method endpoint (opts.timeout.getD client.timeout))
    (fun earlier r s => trace_finish _ earlier r) (client.effectiveRetries opts - 1) [] x
  refine ⟨before, ?_, hsame⟩
  rw [request, Prog.trace_rescue]
  rcases Prog.run net _ x with ⟨⟨exc, status⟩ | v, x'⟩
  · cases exc <;> exact (List.append_nil _).trans hretry
  · exact (List.append_nil _).trans hretry

theorem getLast?_trace_request (method : Method) (endpoint : String) (data : Obj)
    (opts : CallOptions) (x : S) :
    ((client.request method endpoint data opts).trace net x).getLast? =
      some (client.attempt method endpoint data opts,
        (client.finalReply net (client.attempt method endpoint data opts) opts x).1) := by
  obtain ⟨before, htrace, -⟩ := @trace_request _ client net method endpoint data opts x
  rw [htrace, List.getLast?_concat]

/-- The last reply is a 2xx response with the body `v`, which does not report a failure. -/
def Succeeded (t : List (HttpRequest × HttpReply)) (v : Json) : Prop :=
  ∃ h status body, t.getLast? = some (h, .response status body) ∧ 200 ≤ status ∧ status < 300 ∧
    body.json = .ok v ∧ resultFailed v = false

/-- A body is returned for a success only, exactly when the attempts do not end with a
response of a status that is neither a success nor among those that are looked at. -/
theorem request_returns_success_iff (client : OpnsenseClient)
    (net : Server HttpRequest HttpReply S) (method : Method) (endpoint : String) (data : Obj)
    (opts : CallOptions) (x : S) :
    (∀ v, ((client.request method endpoint data opts).run net x).1 = .ok v →
      Succeeded ((client.request method endpoint data opts).trace net x) v) ↔
    ∀ status body v, (client.finalReply net (client.attempt method endpoint data opts) opts x).1 =
      .response status body → status ∉ [400, 401, 403, 404] → status < 500 → body.json = .ok v →
      resultFailed v = false → 200 ≤ status ∧ status < 300 := by
  obtain ⟨o, hrun, hreads⟩ := @run_request_reads _ client net method endpoint data opts x
  have hlast := @getLast?_trace_request _ client net method endpoint data opts x
  -- a value is returned for one reading only, that of a body
  have hok : ∀ v, ((client.request method endpoint data opts).run net x).1 = .ok v ↔
      (client.finalReply net (client.attempt method endpoint data opts) opts x).1.reading =
        .body v := by
    intro v
    rw [hrun]
    cases hreading : (client.finalReply net _ opts x).1.reading with
    | body w =>
      rw [hreading] at hreads
      rw [show o = .ok w from hreads]
      simp
    | undecodable message =>
      rw [hreading] at hreads
      rw [show o = _ from hreads]
      simp
    | refused =>
      rw [hreading] at hreads
      obtain ⟨e, he⟩ := hreads
      rw [show o = _ from he]
      simp
  constructor
  · intro hsuccess status body v hfinal hstatus hlow hjson hresult
    have hreturned := (hok v).mpr (HttpReply.reading_eq_body.mpr
      ⟨status, body, hfinal, hstatus, hlow, hjson, hresult⟩)
    obtain ⟨h, status', body', htrace, hmin, hmax, -, -⟩ := hsuccess v hreturned
    rw [hlast, hfinal] at htrace
    cases htrace
    exact ⟨hmin, hmax⟩
  · intro hcond v hreturned
    obtain ⟨status, body, hfinal, hstatus, hlow, hjson, hresult⟩ :=
      HttpReply.reading_eq_body.mp ((hok v).mp hreturned)
    obtain ⟨hmin, hmax⟩ := hcond status body v hfinal hstatus hlow hjson hresult
    rw [hfinal] at hlast
    exact ⟨_, status, body, hlast, hmin, hmax, hjson, hresult⟩

end OpnsenseClient

/-- A network that answers every attempt alike. -/
def answering (r : HttpReply) : Server HttpRequest HttpReply Unit := fun _ s => (r, s)

/-- The body of a conflict is returned as if the request had succeeded. -/
theorem conflict_returned :
    let conflict : HttpReply :=
      .response 409 ⟨"\x7b\"message\": \"conflict\"\x7d", .ok (.obj [("message", .str "conflict")])⟩
    let request := defaultClient.request .post "sample/settings/addItem" [] {}
    (request.run (answering conflict) ()).1 = .ok (.obj [("message", .str "conflict")]) ∧
      ∀ v, ¬ OpnsenseClient.Succeeded (request.trace (answering conflict) ()) v := by
  intro conflict request
  refine ⟨rfl, ?_⟩
  rintro v ⟨h, status, body, hlast, -, hmax, -, -⟩
  rw [show request.trace (answering conflict) () = [(_, conflict)] from rfl] at hlast
  have hreply : conflict = .response status body := by
    simpa using congrArg (Option.map Prod.snd) hlast
  have hstatus : 409 = status := (HttpReply.response.inj hreply).1
  omega

end Opnsense
