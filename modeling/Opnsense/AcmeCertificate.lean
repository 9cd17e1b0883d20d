import Opnsense.OptionalKeys

namespace Opnsense
open Interaction

def acmeCertificateValidators : List (String × FieldSpec) :=
  [("name", requiredStr (some 255)),
    ("description", strField (some 255)),
    ("altNames", strField),
    ("account", strField),
    ("validationMethod", strField),
    ("keyLength", enumField ["key_2048", "key_3072", "key_4096", "key_ec256", "key_ec384"]),
    ("ocsp", boolStrField),
    ("restartActions", strField),
    ("autoRenewal", boolStrField),
    ("renewInterval", strField (some 5)),
    ("aliasmode", enumField ["none", "automatic", "domain", "challenge"]),
    ("enabled", boolStrField)]

/-- Nothing is applied: issuing is a verb of its own. -/
def AcmeCertificateManager (diffEngine : DiffEngine) : BaseManager where
  className := "AcmeCertificateManager"
  config := { base := "acmeclient/certificates", payloadKey := "certificate"
              entitySuffix := some "", updateAction := "update" }
  matchKeys := ["name"]
  matchKeys_ne := nameKey_ne
  validators := acmeCertificateValidators
  diffEngine := diffEngine
  registry := validatorRegistry

namespace AcmeCertificateManager

def endpoint : String := "acmeclient/certificates"

/-- `(certRefId, statusCode, statusLastUpdate)` -/
structure IssueState where
  ref : String
  status : String
  stamp : String
  deriving DecidableEq, Repr

/-- `str(obj.get(key, "") or "").strip()` -/
def issueText (obj : Obj) (key : String) : String :=
  let v := obj.getD key (.str "")
  String.ofList (strip (if v.truthy then pyStr v else "").toList)

/-- `_issue_state` -/
def issueState (current : Json) : Except Exc IssueState := do
  let obj ← asDict current
  return { ref := issueText obj "certRefId"
           status := issueText obj "statusCode"
           stamp := issueText obj "statusLastUpdate" }

namespace IssueState

variable (st : IssueState)

/-- `status in _STATUS_RUNNING` -/
def isRunning : Bool := st.status == "100"

/-- `status in _STATUS_OK` and there is a leaf. -/
def isIssued : Bool := st.ref != "" && (st.status == "200" || st.status == "250")

/-- Not yet an outcome: `status in _STATUS_PENDING`, or the stamp still is the stale one. -/
def isPending (staleStamp : Option String) : Bool :=
  st.status == "" || st.status == "100" || staleStamp == some st.stamp

def toJson : Json := .obj [("certRefId", .str st.ref), ("statusCode", .str st.status)]

end IssueState

variable (diffEngine : DiffEngine)

def get (uuid : Json) : M Json := (AcmeCertificateManager diffEngine).get uuid

/-- `_wait_for_issue`: poll until there is an outcome. The deadline passes with the poll after
`polls` others. -/
def waitForIssue (uuid : Json) (staleStamp : Option String) : ℕ → M Json
  | 0 => do
    -- the deadline has passed: the state is not asked for anything
    let current ← get diffEngine uuid
    let _ ← .ofExcept (issueState current)
    return current
  | polls + 1 => do
    let current ← get diffEngine uuid
    let st ← .ofExcept (issueState current)
    if st.isPending staleStamp then do
      .tell (.sleep 10)
      waitForIssue uuid staleStamp polls
    else return current

def verbEndpoint (verb : String) (uuid : Json) : Endpoint where
  action := endpoint ++ "/" ++ verb
  ident := some (pyStr uuid)

def verbRequest (verb : String) (uuid : Json) : Request :=
  .post (verbEndpoint verb uuid) [] { timeout := if verb = "sign" then some 300 else none }

/-- `_invoke`: post a verb of the lifecycle. -/
def invoke (verb : String) (uuid : Json) (action : Action) : M EnsureResult := do
  let id := pyStr uuid
  let body ← logError (await (verbRequest verb uuid))
    (fun exc => s!"{verb} failed acme cert uuid={id}: {exc.text}")
    (fun exc => [("action", .str s!"{verb}_failed"), ("endpoint", .str endpoint), ("uuid", uuid),
      ("error", .str exc.text)])
  let fields ← .ofExcept (asDict body)
  let status := pyStr (fields.getD "status" (fields.getD "result" (.str "")))
  log .info s!"{action.text} acme cert uuid={id} status={status}"
    [("action", .str action.text), ("endpoint", .str endpoint), ("uuid", uuid),
      ("changed", .bool true)]
  return { changed := true, action, uuid := some uuid,
           after := some (.obj [("status", .str status)]) }

def sign (uuid : Json) : M EnsureResult := invoke "sign" uuid .signed
def revoke (uuid : Json) : M EnsureResult := invoke "revoke" uuid .revoked
def removeKey (uuid : Json) : M EnsureResult := invoke "removekey" uuid .keyRemoved
def automation (uuid : Json) : M EnsureResult := invoke "automation" uuid .automationRun
def import_ (uuid : Json) : M EnsureResult := invoke "import" uuid .imported

/-- The state before anything is signed; outside check mode a run in progress is waited for. -/
def currentIssue (uuid : Json) (checkMode : Bool) (polls : ℕ) : M IssueState := do
  let current ← get diffEngine uuid
  let st ← .ofExcept (issueState current)
  if st.isRunning && !checkMode then do
    -- never race a run in progress; one that outlasts the wait goes on as any state
    let current ← waitForIssue diffEngine uuid none polls
    .ofExcept (issueState current)
  else return st

def issueAction (st : IssueState) : Action := if st.isIssued then .renewed else .issued

def wouldAction (st : IssueState) : Action := if st.isIssued then .wouldRenewed else .wouldIssued

/-- The error of an issue that ended without a leaf. -/
def issueFailed (action : Action) (uuid : Json) (status : String) : Exc :=
  let id := pyStr uuid
  let code := if status = "" then "none" else status
  .opnsense
    { cls := .server
      message := s!"acme {action.text} of {id} ended with statusCode={code} " ++
        "(400 = validation/CA failure, 300 = config error, 100 = still running after 600 s)" ++
        " — read the acmeclient log on the firewall"
      statusCode := some 500
      endpoint := some (verbEndpoint "sign" uuid).url }

/-- Sign, wait for an outcome newer than the state before, and judge it. -/
def signAndWait (uuid : Json) (st : IssueState) (polls : ℕ) : M EnsureResult := do
  let action := issueAction st
  let id := pyStr uuid
  let _ ← invoke "sign" uuid action
  let final ← waitForIssue diffEngine uuid (some st.stamp) polls
  let after ← .ofExcept (issueState final)
  if after.isIssued then
    return { changed := true, action, uuid := some uuid, before := some st.toJson,
             after := some after.toJson }
  else do
    log .error s!"{action.text} failed acme cert uuid={id} statusCode={after.status}"
      [("action", .str s!"{action.text}_failed"), ("endpoint", .str endpoint), ("uuid", uuid)]
    .raise (issueFailed action uuid after.status)

/-- The part of `ensure("issued")` behind `ensure("present")`, once there is an object. -/
def issue (result : EnsureResult) (uuid : Json) (checkMode renew : Bool) (polls polls' : ℕ) :
    M EnsureResult := do
  let st ← currentIssue diffEngine uuid checkMode polls
  let id := pyStr uuid
  if st.isIssued && !renew then return result
  else if checkMode then do
    log .info s!"{(issueAction st).text} check_mode=True acme cert uuid={id}"
      [("action", .str (wouldAction st).text), ("endpoint", .str endpoint), ("uuid", uuid)]
    return { changed := true, action := wouldAction st, uuid := some uuid,
             before := some st.toJson }
  else signAndWait diffEngine uuid st polls'

/-- `ensure`; the two waits see their deadlines after `polls` and `polls'` polls. -/
def ensure (state : String) (params : Obj) (checkMode : Bool) (uuid : Option String)
    (renew : Bool) (polls polls' : ℕ) : M EnsureResult :=
  if state ≠ "issued" then (AcmeCertificateManager diffEngine).ensure state params checkMode uuid
  else do
    let result ← (AcmeCertificateManager diffEngine).ensure "present" params checkMode uuid
    match result.givenUuid with
    | none =>
      -- check mode predicted a creation, or the row that was found has no uuid
      return { changed := true, action := .wouldIssued, before := result.before,
               after := result.after }
    | some certUuid => issue diffEngine result certUuid checkMode renew polls polls'

end AcmeCertificateManager
end Opnsense
