import Opnsense.DiffEngine
import Opnsense.Endpoints
import Opnsense.Identity
import Opnsense.Redaction
import Opnsense.Validation

namespace Opnsense
open Interaction

/-- A manager class together with the shared components it uses. `matchKeys` is
`_match_keys`, or the single legacy `_match_key`; `listAction` is the search endpoint of
a subclass that overrides `list`. -/
structure BaseManager where
  className : String
  config : EndpointConfig
  matchKeys : List String
  matchKeys_ne : matchKeys ≠ []
  validators : List (String × FieldSpec) := []
  redactFields : List String := []
  applyTimeout : Option ℕ := none
  listAction : Option String := none
  diffEngine : DiffEngine
  registry : ValidatorRegistry

/-- The managers that go by a name alone. -/
theorem nameKey_ne : ["name"] ≠ [] := List.cons_ne_nil _ _

/-- `row_count` of `OpnsenseClient.search` when the caller names none. -/
def defaultRowCount : ℕ := 50

/-- `body.get(payload_key, body)` -/
def unwrap (payloadKey : String) : Json → Except Exc Json
  | .obj body => .ok (Obj.getD body payloadKey (.obj body))
  | v => .error (Exc.noAttribute v "get")

/-- `v[key] = value` -/
def setItem (key : String) (value : Json) : Json → Except Exc Obj
  | .obj fs => .ok (Obj.set fs key value)
  | v => .error (Exc.noItemAssignment v)

/-- `params.get` needs a dict. -/
def asDict : Json → Except Exc Obj
  | .obj fs => .ok fs
  | v => .error (Exc.noAttribute v "get")

namespace BaseManager

variable (m : BaseManager)

def identity : IdentityResolver where
  matchKeys := m.matchKeys
  endpoint := m.config.base
  managerName := m.className
  matchKeys_ne := m.matchKeys_ne

def list (searchPhrase : String) : M Json :=
  match m.listAction with
  | some action => await (.search action searchPhrase defaultRowCount)
  | none =>
    logError (await (.search m.config.search searchPhrase defaultRowCount))
      (fun exc => s!"list failed {m.config.base}: {exc.text}")
      (fun exc => [("action", .str "list_failed"), ("endpoint", .str m.config.base),
        ("error", .str exc.text)])

def get (uuid : Json) : M Json := do
  let body ← logError (await (.get (m.config.get uuid)))
    (fun exc =>
      let id := pyStr uuid
      s!"get failed {m.config.base} uuid={id}: {exc.text}")
    (fun exc => [("action", .str "get_failed"), ("endpoint", .str m.config.base),
      ("uuid", uuid), ("error", .str exc.text)])
  .ofExcept (unwrap m.config.payloadKey body)

/-- Trigger the reconfigure endpoint, when the manager has one. -/
def apply : M Unit :=
  match m.config.apply with
  | none => pure ()
  | some ep => do
    let _ ← logError (await (.reconfigure ep { timeout := m.applyTimeout }))
      (fun exc => s!"apply failed {ep}: {exc.text}")
      (fun exc => [("action", .str "apply_failed"), ("endpoint", .str ep),
        ("error", .str exc.text)])

def create (params : Obj) (checkMode : Bool) : M EnsureResult := do
  let label := m.identity.matchLabel params
  let matchFields := m.identity.matchLogFields params
  let after ← .ofExcept (redactDict m.redactFields (.obj params))
  if checkMode then
    log .info s!"create check_mode=True {label}"
      (buildExtra "created" matchFields
        { after := some after, changed := some true, checkMode := some true })
    return { changed := true, action := .created, after := some after }
  let uuid ← logError
    (do
      let uuid ← await (.create m.config.add m.config.payloadKey params)
      m.apply
      return uuid)
    (fun exc => s!"create failed {label}: {exc.text}")
    (fun exc => buildExtra "create_failed" matchFields { error := some exc.text })
  let id := pyStr uuid
  log .info s!"created {label} uuid={id}"
    (buildExtra "created" matchFields
      { uuid := some uuid, after := some after, changed := some true })
  return { changed := true, action := .created, uuid := some uuid, after := some after }

def update (uuid : Json) (params : Obj) (checkMode : Bool) : M EnsureResult := do
  let label := m.identity.matchLabel params
  let matchFields := m.identity.matchLogFields params
  let id := pyStr uuid
  let before ← m.get uuid
  let before ← .ofExcept (redactDict m.redactFields before)
  let after ← .ofExcept (redactDict m.redactFields (.obj params))
  let result : EnsureResult :=
    { changed := true, action := .updated, uuid := some uuid,
      before := some before, after := some after }
  if checkMode then
    log .info s!"update check_mode=True {label} uuid={id}"
      (buildExtra "updated" matchFields
        { uuid := some uuid, before := some before, after := some after,
          changed := some true, checkMode := some true })
    return result
  logError
    (do
      let _ ← await (.update m.config.set id m.config.payloadKey params)
      m.apply)
    (fun exc => s!"update failed {label} uuid={id}: {exc.text}")
    (fun exc => buildExtra "update_failed" matchFields
      { uuid := some uuid, before := some before, error := some exc.text })
  log .info s!"updated {label} uuid={id}"
    (buildExtra "updated" matchFields
      { uuid := some uuid, before := some before, after := some after, changed := some true })
  return result

def delete (uuid : Json) (checkMode : Bool) : M EnsureResult := do
  let id := pyStr uuid
  let item ← m.get uuid
  let fields ← .ofExcept (asDict item)
  let label := m.identity.matchLabel fields
  let matchFields := m.identity.matchLogFields fields
  let before ← .ofExcept (redactDict m.redactFields item)
  let result : EnsureResult :=
    { changed := true, action := .deleted, uuid := some uuid, before := some before }
  if checkMode then
    log .warning s!"delete check_mode=True {label} uuid={id}"
      (buildExtra "deleted" matchFields
        { uuid := some uuid, before := some before, changed := some true,
          checkMode := some true })
    return result
  logError
    (do
      let _ ← await (.delete m.config.delete id)
      m.apply)
    (fun exc => s!"delete failed {label} uuid={id}: {exc.text}")
    (fun exc => buildExtra "delete_failed" matchFields
      { uuid := some uuid, before := some before, error := some exc.text })
  log .warning s!"deleted {label} uuid={id}"
    (buildExtra "deleted" matchFields
      { uuid := some uuid, before := some before, changed := some true })
  return result

/-- A search row is flat: the diff cannot see a nested block or a field it leaves out. -/
def needsFullItem (row params : Obj) : Bool :=
  params.any (fun kv => kv.2.isDict) || params.any fun kv => !row.has kv.1

/-- `str(row.get("uuid", "") or "")` -/
def rowUuid (row : Obj) : String :=
  let u := row.getD "uuid" (.str "")
  if u.truthy then pyStr u else ""

/-- Replace a flat search row with the full item when the diff cannot see a field. -/
def hydrateNested (existing : Option Obj) (params : Obj) : M (Option Obj) :=
  match existing with
  | none => return none
  | some row =>
    if needsFullItem row params && rowUuid row != "" then do
      let full ← m.get (.str (rowUuid row))
      let full ← .ofExcept (setItem "uuid" (.str (rowUuid row)) full)
      return some full
    else return some row

/-- Delete the duplicates one after the other, each followed by an apply. -/
def deleteAll : List String → M Unit
  | [] => return ()
  | uuid :: rest => do
    let _ ← m.delete (.str uuid) false
    deleteAll rest

/-- Reduce the resources sharing one identity to the one with the lowest uuid; in check
mode only report which would go. -/
def collapseDuplicates (params : Obj) (checkMode : Bool) (label : String) :
    M (Option Obj × List String) := do
  let found ← m.identity.findMatching params m.list
  match found with
  | [] => return (none, [])
  | [row] => return (some row, [])
  | survivor :: duplicates =>
    let removed := duplicates.map fun row => row.text "uuid"
    let kept := survivor.getD "uuid" (.str "")
    let keptText := pyStr kept
    let gone := pyStr (.arr (removed.map .str))
    log .warning s!"duplicate identity {label}: keeping uuid={keptText}, removing {gone}"
      [("action", .str "dedupe"), ("endpoint", .str m.config.base), ("kept", kept),
        ("removed", .arr (removed.map .str)), ("check_mode", .bool checkMode)]
    if checkMode then return (some survivor, removed)
    m.deleteAll removed
    return (some survivor, removed)

/-- Removing a duplicate is always a change. -/
def withDedupe (result : EnsureResult) (deduped : List String) : EnsureResult :=
  if deduped.isEmpty then result
  else
    { result with
      changed := true
      action := if result.changed then result.action else .deduped
      deduped := deduped }

/-- The existing resource by its identity; several of them are an error or are collapsed. -/
def lookup (params : Obj) (checkMode dedupe : Bool) : M (Option Obj × List String) :=
  if dedupe then m.collapseDuplicates params checkMode (m.identity.matchLabel params)
  else do
    let existing ← m.identity.findExisting params m.list
    return (existing, [])

/-- The first half of `ensure`: the existing resource, by uuid or by identity, in the
shape the diff will read, and the duplicates removed on the way. -/
def resolve (params : Obj) (checkMode : Bool) (uuid : Option String) (dedupe : Bool) :
    M (Option Obj × List String) :=
  match uuid with
  | some uuid => do
    let existing ← m.get (.str uuid)
    let existing ← .ofExcept (setItem "uuid" (.str uuid) existing)
    return (some existing, [])
  | none => do
    let (existing, deduped) ← m.lookup params checkMode dedupe
    let existing ← m.hydrateNested existing params
    return (existing, deduped)

/-- The second half of `ensure`: create, update, delete or leave alone. -/
def converge (state : String) (params : Obj) (checkMode forceUpdate : Bool)
    (existing : Option Obj) : M EnsureResult :=
  let label := m.identity.matchLabel params
  let matchFields := m.identity.matchLogFields params
  if state = "present" then
    match existing with
    | none => m.create params checkMode
    | some existing =>
      let uuid := existing.getD "uuid" (.str "")
      if (m.diffEngine.computeDiff existing params).isNone && !forceUpdate then do
        let id := pyStr uuid
        log .debug s!"noop {label} uuid={id} — state matches"
          (buildExtra "noop" matchFields { uuid := some uuid, changed := some false })
        return { changed := false, action := .noop, uuid := some uuid }
      else m.update uuid params checkMode
  else
    match existing with
    | none => do
      log .debug s!"noop {label} — already absent"
        (buildExtra "noop" matchFields { changed := some false })
      return { changed := false, action := .noop }
    | some existing => m.delete (existing.getD "uuid" (.str "")) checkMode

/-- The client-side checks that come before any request. -/
def validate (state : String) (params : Obj) : M Unit := do
  if state ≠ "present" ∧ state ≠ "absent" then
    .raise (.valueError s!"Invalid state '{state}'. Use 'present' or 'absent'.")
  else if state = "present" ∧ m.validators ≠ [] then
    logError (.ofExcept (m.registry.validateParams params m.validators))
      (fun exc => s!"validation failed {m.className}: {exc.text}")
      (fun exc => [("action", .str "validation_failed"), ("endpoint", .str m.config.base),
        ("error", .str exc.text)])
  else return ()

/-- Ensure a resource matches the desired state. -/
def ensure (state : String) (params : Obj) (checkMode : Bool := false)
    (uuid : Option String := none) (dedupe : Bool := false) (forceUpdate : Bool := false) :
    M EnsureResult := do
  m.validate state params
  let (existing, deduped) ← m.resolve params checkMode uuid dedupe
  let result ← m.converge state params checkMode forceUpdate existing
  return withDedupe result deduped

end BaseManager
end Opnsense
