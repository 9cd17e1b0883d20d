import Mathlib.Algebra.Order.Round
import Mathlib.Data.Rat.Floor
import Opnsense.DiffEngine
import Opnsense.Interaction.Retry
import Opnsense.Wire

namespace Opnsense
open Interaction

inductive Method where
  | get | post
  deriving DecidableEq, Repr

def Method.text : Method → String
  | get => "GET"
  | post => "POST"

/-- What one attempt sends. -/
structure HttpRequest where
  method : Method
  endpoint : String
  data : Obj
  timeout : ℕ

/-- A body as text, and what decoding it as JSON gives or complains of. -/
structure HttpBody where
  text : String
  json : Except String Json

/-- What `httpx` hands back: a response, a `TimeoutException`, or another transport error. -/
inductive HttpReply where
  | response (status : ℕ) (body : HttpBody)
  | timeout
  | transportError (text : String)

namespace HttpReply

/-- Timeouts, transport errors and statuses from 500 on are tried again. -/
def retryable : HttpReply → Bool
  | response status _ => 500 ≤ status
  | timeout => true
  | transportError _ => true

def status : HttpReply → Option ℕ
  | response status _ => some status
  | _ => none

end HttpReply

/-- The code of the client, at the level of single attempts. -/
abbrev H := Prog HttpRequest HttpReply Event Exc

structure OpnsenseClient where
  key : String
  secret : String
  timeout : ℕ := 30
  maxRetries : ℤ := 3
  retryBackoff : ℚ := 2

/-- `f"{x:.1f}"` -/
def oneDecimal (x : ℚ) : String :=
  let scaled := |x| * 10
  let floor := ⌊scaled⌋.toNat
  let rest := scaled - floor
  let tenths := if rest < 1 / 2 ∨ (rest = 1 / 2 ∧ floor % 2 = 0) then floor else floor + 1
  let sign := if x < 0 then "-" else ""
  s!"{sign}{tenths / 10}.{tenths % 10}"

namespace OpnsenseClient

variable (client : OpnsenseClient)

/-- Replace the secret and the key in error messages. -/
def redactSecret (text : String) : String :=
  let text := if client.secret ≠ "" then text.replace client.secret "<REDACTED:api_secret>"
    else text
  if client.key ≠ "" then text.replace client.key "<REDACTED:api_key>" else text

/-- The `message` of an error body, or the start of its text. -/
def errorDetail (body : HttpBody) : String :=
  match body.json with
  | .ok (.obj fs) =>
    let detail := Obj.getD fs "message" (Obj.getD fs "errorMessage" (.str ""))
    if detail.truthy then pyStr detail else ""
  | _ => String.ofList (body.text.toList.take 200)

/-- `body.get("validations", {})`, a dict or an empty value that names no field. -/
def validationsOf : Except String Json → Obj
  | .ok (.obj fs) =>
    match Obj.getD fs "validations" (.obj []) with
    | .obj validations => validations
    | _ => []
  | _ => []

/-- `_STATUS_MAP`, and what `_raise_for_status` raises. -/
def errorForStatus (status : ℕ) (body : HttpBody) (endpoint : String) : Exc :=
  let detail := errorDetail body
  let message := client.redactSecret
    (s!"HTTP {status} on {endpoint}" ++ if detail ≠ "" then ": " ++ detail else "")
  let error (cls : ErrorClass) : OpnsenseError :=
    { cls, message, statusCode := some status, endpoint := some endpoint }
  .opnsense (match status with
    | 400 => { error .validation with validations := validationsOf body.json }
    | 401 => error .auth
    | 403 => error .permission
    | 404 => error .endpointMissing
    | 500 => error .server
    | _ => error .base)

/-- The body reports `result=failed`. -/
def resultFailed : Json → Bool
  | .obj fs =>
    match Obj.getD fs "result" .null with
    | .str result => result == "failed"
    | _ => false
  | _ => false

/-- The status code known when an error is logged: that of the last response, if any. -/
def lastStatus (replies : List HttpReply) : Option ℕ :=
  (replies.filterMap HttpReply.status).getLast?

def statusJson (status : Option ℕ) : Json :=
  match status with
  | some code => .int code
  | none => .null

section Attempts

variable (method : Method) (endpoint : String) (effectiveRetries effectiveTimeout : ℕ)

/-- Before the next attempt: a warning and the exponential backoff. -/
def beforeRetry (earlier : List HttpReply) (reply : HttpReply) : List Event :=
  let attempt := earlier.length + 1
  let delay := client.retryBackoff ^ attempt
  let what := match reply with
    | .response status _ => s!"returned {status}"
    | .timeout => "timed out"
    | .transportError _ => "transport error"
  let place := s!"retrying in {oneDecimal delay}s (attempt {attempt}/{effectiveRetries})"
  let status : Obj := match reply with
    | .response status _ => [("status_code", .int status)]
    | _ => []
  [.log ⟨.warning, s!"OPNsense {method.text} {endpoint} {what}, {place}",
      [("method", .str method.text), ("endpoint", .str endpoint)] ++ status ++
        [("attempt", .int attempt), ("max_retries", .int effectiveRetries)]⟩,
    .sleep delay]

/-- The body of a request that succeeded, or the exception its last reply maps to. The error
carries the status code for the log of the caller. -/
def finish (earlier : List HttpReply) (reply : HttpReply) :
    Prog HttpRequest HttpReply Event (Exc × Option ℕ) Json :=
  let fail (exc : Exc) : Prog HttpRequest HttpReply Event (Exc × Option ℕ) Json :=
    .raise (exc, lastStatus (earlier ++ [reply]))
  match reply with
  | .response status body =>
    if status ∈ [400, 401, 403, 404] ∨ 500 ≤ status then
      fail (client.errorForStatus status body endpoint)
    else
      match body.json with
      | .error message => fail (.jsonDecodeError message)
      | .ok value =>
        if resultFailed value then
          fail (.opnsense
            { cls := .validation, message := s!"Validation failed on {endpoint}",
              statusCode := some 400, endpoint := some endpoint,
              validations := validationsOf body.json })
        else
          .emit (.log ⟨.debug, s!"{method.text} {endpoint} {status}",
            [("method", .str method.text), ("endpoint", .str endpoint),
              ("status_code", .int status)]⟩) (.ret value)
  | .timeout =>
    fail (.opnsense
      { cls := .timeout, endpoint := some endpoint
        message := client.redactSecret
          s!"Request timed out after {effectiveTimeout}s: {method.text} {endpoint}" })
  | .transportError text =>
    fail (.opnsense
      { cls := .connection, endpoint := some endpoint
        message := client.redactSecret s!"Connection failed: {method.text} {endpoint}: {text}" })

end Attempts

/-- `max_retries` counts attempts, and one is always made. -/
def effectiveRetries (opts : CallOptions) : ℕ :=
  (max 1 (opts.maxRetries.getD client.maxRetries)).toNat

def attempt (method : Method) (endpoint : String) (data : Obj) (opts : CallOptions) : HttpRequest :=
  { method, endpoint, data, timeout := opts.timeout.getD client.timeout }

/-- `_request`: the attempts, and a log record for an `OpnsenseError`. -/
def request (method : Method) (endpoint : String) (data : Obj) (opts : CallOptions) : H Json :=
  Prog.rescue
    (Prog.retry (client.attempt method endpoint data opts) HttpReply.retryable
      (client.beforeRetry method endpoint (client.effectiveRetries opts))
      (client.finish method endpoint (opts.timeout.getD client.timeout))
      (client.effectiveRetries opts - 1) [])
    (fun (exc, status) =>
      match exc with
      | .opnsense e =>
        .emit (.log ⟨.error, s!"{method.text} {endpoint} failed",
          [("method", .str method.text), ("endpoint", .str endpoint),
            ("status_code", statusJson status)]⟩) (.raise (.opnsense e))
      | exc => .raise exc)

def get (ep : Endpoint) (opts : CallOptions) : H Json := client.request .get ep.url [] opts

def post (ep : Endpoint) (data : Obj) (opts : CallOptions) : H Json :=
  client.request .post ep.url data opts

def search (endpoint phrase : String) (rowCount : ℕ) (opts : CallOptions) : H Json := do
  let body ← client.request .post endpoint
    [("searchPhrase", .str phrase), ("rowCount", .int rowCount), ("current", .int 1)] opts
  .ofExcept (match body with
    | .obj fs => .ok (Obj.getD fs "rows" (.arr []))
    | v => .error (Exc.noAttribute v "get"))

/-- The uuid of a create reply. -/
def createdUuid (endpoint : String) : Json → Except Exc Json
  | .obj fs =>
    let uuid := Obj.getD fs "uuid" .null
    if uuid.truthy then .ok uuid
    else .error (.opnsense
      { cls := .base, message := s!"Create succeeded but no UUID in response: {endpoint}",
        endpoint := some endpoint })
  | v => .error (Exc.noAttribute v "get")

def create (endpoint payloadKey : String) (params : Obj) (opts : CallOptions) : H Json := do
  let body ← client.request .post endpoint [(payloadKey, .obj params)] opts
  .ofExcept (createdUuid endpoint body)

def update (endpoint uuid payloadKey : String) (params : Obj) (opts : CallOptions) : H Json :=
  client.request .post (endpoint ++ "/" ++ uuid) [(payloadKey, .obj params)] opts

def delete (endpoint uuid : String) (opts : CallOptions) : H Json :=
  client.request .post (endpoint ++ "/" ++ uuid) [] opts

/-- The message of a reconfigure answer whose `status` is failed or error. -/
def refusal : Json → Option String
  | .obj fs =>
    let status := (strip (Obj.text fs "status").toList).map Char.toLower
    if status = "failed".toList ∨ status = "error".toList then
      let message := Obj.getD fs "message" .null
      let statusMsg := Obj.getD fs "status_msg" .null
      let chosen := if message.truthy then message
        else if statusMsg.truthy then statusMsg else .obj fs
      some (String.ofList (strip (pyStr chosen).toList))
    else none
  | _ => none

def reconfigure (endpoint : String) (opts : CallOptions) : H Json := do
  let body ← client.request .post endpoint [] opts
  match refusal body with
  | none => .ret body
  | some message =>
    .emit (.log ⟨.error, s!"reconfigure failed {endpoint}: {message}",
      [("action", .str "reconfigure_failed"), ("endpoint", .str endpoint),
        ("error", .str message)]⟩)
      (.raise (.opnsense
        { cls := .server, message := s!"reconfigure refused by {endpoint}: {message}",
          statusCode := some 500, endpoint := some endpoint }))

/-- The method behind each request of a manager. -/
def call : Request → H Json
  | .get ep opts => client.get ep opts
  | .post ep data opts => client.post ep data opts
  | .search action phrase rowCount => client.search action phrase rowCount {}
  | .create action payloadKey params => client.create action payloadKey params {}
  | .update action uuid payloadKey params => client.update action uuid payloadKey params {}
  | .delete action uuid => client.delete action uuid {}
  | .reconfigure action opts => client.reconfigure action opts

/-- The appliance as a manager sees it: the client in front of a network. -/
def appliance {S : Type} (net : Server HttpRequest HttpReply S) : Appliance S :=
  fun q s => (client.call q).run net s

end OpnsenseClient

/-- A client with the default settings. -/
def defaultClient : OpnsenseClient := { key := "key", secret := "secret" }

end Opnsense
