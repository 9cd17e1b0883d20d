import Opnsense.OptionalKeys
import Opnsense.SettingsManagers

namespace Opnsense
open Interaction

/-- The class attributes; there is no `_section`. -/
def AcmeSettingsManager (diffEngine : DiffEngine) : BaseSingletonManager where
  className := "AcmeSettingsManager"
  endpoint := "acmeclient/settings"
  payloadKey := "acmeclient"
  applyEndpoint := some "acmeclient/service/reconfigure"
  applyTimeout := some 60
  validators :=
    each boolStrField ["enabled", "autoRenewal", "haproxyIntegration", "showIntro"] ++
      [("environment", enumField ["", "prod", "stg"]),
        ("logLevel", enumField ["normal", "extended", "debug", "debug2", "debug3"])] ++
      each (strField (some 5)) ["challengePort", "TLSchallengePort"] ++
      [("restartTimeout", strField (some 10))]
  diffEngine := diffEngine
  registry := validatorRegistry

namespace AcmeSettingsManager

variable (diffEngine : DiffEngine)

def cronEndpoint : String := "acmeclient/settings/fetchCronIntegration"

/-- `body.get("settings", {})`, where what is no dict counts as none. -/
def settingsOf (body : Json) : Except Exc Json := do
  let fields ← asDict body
  return match fields.getD "settings" (.obj []) with
    | .obj settings => .obj settings
    | _ => .obj []

/-- `get` -/
def get : M Json := do
  let body ← (AcmeSettingsManager diffEngine).get
  .ofExcept (settingsOf body)

/-- `set` -/
def set (params : Obj) (checkMode : Bool) : M EnsureResult := do
  let m := AcmeSettingsManager diffEngine
  let before ← get diffEngine
  let diff ← m.diff before params
  let redactedBefore ← .ofExcept (redactDict m.redactFields before)
  if diff.isNone then
    log .debug s!"noop {m.endpoint} — settings match"
      (buildExtra "noop" [] { before := some redactedBefore, changed := some false })
    return { changed := false, action := .noop, before := some redactedBefore,
             after := some redactedBefore }
  let current ← .ofExcept (spread before)
  let redactedAfter ← .ofExcept (redactDict m.redactFields (.obj (current.overlay params)))
  if checkMode then
    log .info s!"set check_mode=True {m.endpoint}"
      (buildExtra "updated" []
        { before := some redactedBefore, after := some redactedAfter, changed := some true,
          checkMode := some true })
    return { changed := true, action := .updated, before := some redactedBefore,
             after := some redactedAfter }
  logError
    (do
      let _ ← await (.post { action := m.endpoint ++ "/set" }
        [(m.payloadKey, .obj [("settings", .obj params)])])
      m.apply)
    (fun exc => s!"set failed {m.endpoint}: {exc.text}")
    (fun exc => buildExtra "update_failed" []
      { before := some redactedBefore, error := some exc.text })
  let actualAfter ← get diffEngine
  let redactedActual ← .ofExcept (redactDict m.redactFields actualAfter)
  log .info s!"updated {m.endpoint}"
    (buildExtra "updated" []
      { before := some redactedBefore, after := some redactedActual, changed := some true })
  return { changed := true, action := .updated, before := some redactedBefore,
           after := some redactedActual }

/-- `str(body.get("result", "")).strip().lower()` -/
def cronOutcome (fields : Obj) : String :=
  String.ofList ((strip (fields.text "result").toList).map Char.toLower)

/-- `{**(result.after or {}), "UpdateCron": str(body.get("uuid", ""))}` -/
def withCron (after : Option Json) (fields : Obj) : Except Exc Obj :=
  match after with
  | none => .ok [("UpdateCron", .str (fields.text "uuid"))]
  | some v => do
    let shown ← if v.truthy then spread v else .ok []
    return shown.set "UpdateCron" (.str (fields.text "uuid"))

/-- What the reply of the cron integration makes of the result. -/
def cronResult (result : EnsureResult) (body : Json) : M EnsureResult := do
  let fields ← .ofExcept (asDict body)
  let outcome := cronOutcome fields
  if outcome = "new" then
    let uuid := fields.getD "uuid" .null
    let id := pyStr uuid
    log .info s!"acme auto-renewal cron created/relinked uuid={id}"
      [("action", .str "cron_created"), ("endpoint", .str cronEndpoint)]
    let after ← .ofExcept (withCron result.after fields)
    return { changed := true, action := if result.changed then .updated else .cronCreated,
             before := result.before, after := some (.obj after) }
  else if outcome ≠ "" ∧ outcome ≠ "no change" then
    .raise (.opnsense
      { cls := .server, message := s!"acme cron integration refused: {outcome}"
        statusCode := some 500, endpoint := some cronEndpoint })
  else return result

/-- `ensure`: the settings, and with `cron` the job that renews. -/
def ensure (state : String) (params : Obj) (checkMode : Bool := false) (cron : Bool := false) :
    M EnsureResult := do
  (AcmeSettingsManager diffEngine).validate state params
  let result ← set diffEngine params checkMode
  if !cron || checkMode then return result
  else do
    let body ← await (.post { action := cronEndpoint } [])
    cronResult result body

end AcmeSettingsManager
end Opnsense
