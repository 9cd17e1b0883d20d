import Opnsense.AcmeCertificate

namespace Opnsense
open Interaction

def AcmeAccountManager (diffEngine : DiffEngine) : BaseManager where
  className := "AcmeAccountManager"
  config := { base := "acmeclient/accounts", payloadKey := "account"
              entitySuffix := some "", updateAction := "update" }
  matchKeys := ["name"]
  matchKeys_ne := nameKey_ne
  validators :=
    [("name", requiredStr (some 255)),
      ("description", strField (some 255)),
      ("email", strField (some 255)),
      ("ca", enumField ["buypass", "buypass_test", "google", "google_test", "letsencrypt",
        "letsencrypt_test", "sslcom", "zerossl", "custom"]),
      ("custom_ca", strField (some 255)),
      ("eab_kid", strField (some 255)),
      ("eab_hmac", strField (some 1024)),
      ("enabled", boolStrField)]
  redactFields := ["key", "eab_hmac", "eab_kid"]
  diffEngine := diffEngine
  registry := validatorRegistry

namespace AcmeAccountManager

variable (diffEngine : DiffEngine)

def endpoint : String := "acmeclient/accounts"

/-- `register`: the CA creates the account, or finds it again. -/
def register (uuid : Json) : M EnsureResult := do
  let id := pyStr uuid
  let body ← logError (await (.post { action := endpoint ++ "/register", ident := some id } []))
    (fun exc => s!"register failed acme account uuid={id}: {exc.text}")
    (fun exc => [("action", .str "register_failed"), ("endpoint", .str endpoint), ("uuid", uuid),
      ("error", .str exc.text)])
  let fields ← .ofExcept (asDict body)
  let status := pyStr (fields.getD "status" (fields.getD "result" (.str "")))
  log .info s!"registered acme account uuid={id} status={status}"
    [("action", .str "registered"), ("endpoint", .str endpoint), ("uuid", uuid),
      ("changed", .bool true)]
  return { changed := true, action := .registered, uuid := some uuid,
           after := some (.obj [("status", .str status)]) }

/-- The part of `ensure("registered")` behind `ensure("present")`, once there is an account. -/
def registerUnlessDone (result : EnsureResult) (uuid : Json) (checkMode : Bool) :
    M EnsureResult := do
  let current ← (AcmeAccountManager diffEngine).get uuid
  let fields ← .ofExcept (asDict current)
  let status := AcmeCertificateManager.issueText fields "statusCode"
  let before := Json.obj [("statusCode", .str status)]
  if status = "200" then return result
  else if checkMode then
    return { changed := true, action := .wouldRegister, uuid := some uuid, before := some before }
  else do
    let registered ← register uuid
    return { changed := true, action := .registered, uuid := some uuid, before := some before,
             after := registered.after }

/-- `ensure` -/
def ensure (state : String) (params : Obj) (checkMode : Bool := false)
    (uuid : Option String := none) : M EnsureResult :=
  if state ≠ "registered" then (AcmeAccountManager diffEngine).ensure state params checkMode uuid
  else do
    let result ← (AcmeAccountManager diffEngine).ensure "present" params checkMode uuid
    match result.givenUuid with
    | none =>
      -- check mode predicted a creation, or the row that was found has no uuid
      return { changed := true, action := .wouldRegister, before := result.before,
               after := result.after }
    | some acctUuid => registerUnlessDone diffEngine result acctUuid checkMode

end AcmeAccountManager
end Opnsense
