import Opnsense.Effects
import Opnsense.Fatal

namespace Opnsense
open Interaction

/-- A singleton manager class together with the shared components it uses; `sectionKey`
is `_section`. -/
structure BaseSingletonManager where
  className : String
  endpoint : String
  payloadKey : String
  applyEndpoint : Option String := none
  getAction : String := "get"
  setAction : String := "set"
  sectionKey : Option String := none
  applyTimeout : Option ℕ := none
  validators : List (String × FieldSpec) := []
  redactFields : List String := []
  diffEngine : DiffEngine
  registry : ValidatorRegistry

/-- `{**v}` -/
def spread : Json → Except Exc Obj
  | .obj fs => .ok fs
  | v => .error (.typeError ("'" ++ v.typeName ++ "' object is not a mapping"))

namespace BaseSingletonManager

variable (m : BaseSingletonManager)

/-- The block of the document the manager owns; a missing one reads as an empty dict. -/
def ownSection (inner : Json) : Json :=
  match m.sectionKey, inner with
  | none, inner => inner
  | some key, .obj fs =>
    match Obj.getD fs key (.obj []) with
    | .obj owned => .obj owned
    | _ => .obj []
  | some _, _ => .obj []

def get : M Json := do
  let body ← logError (await (.get { action := m.endpoint ++ "/" ++ m.getAction }))
    (fun exc => s!"get failed {m.endpoint}: {exc.text}")
    (fun exc => [("action", .str "get_failed"), ("endpoint", .str m.endpoint),
      ("error", .str exc.text)])
  let inner ← .ofExcept (unwrap m.payloadKey body)
  return m.ownSection inner

/-- `compute_diff(before, params)`; only a dict has a `get` for the first desired key. -/
def diff (before : Json) (params : Obj) : M (Option (List (String × String))) :=
  logError
    (.ofExcept (match before with
      | .obj current => .ok (m.diffEngine.computeDiff current params)
      | v => if params.isEmpty then .ok none else .error (Exc.noAttribute v "get")))
    (fun exc => s!"compute_diff failed: {exc.text}")
    (fun exc => [("action", .str "compute_diff_failed"), ("error", .str exc.text)])

/-- Trigger the reconfigure endpoint, when the manager has one. -/
def apply : M Unit :=
  match m.applyEndpoint with
  | none => pure ()
  | some ep => do
    let _ ← logError (await (.reconfigure ep { timeout := m.applyTimeout }))
      (fun exc => s!"apply failed {ep}: {exc.text}")
      (fun exc => [("action", .str "apply_failed"), ("endpoint", .str ep),
        ("error", .str exc.text)])

def setEndpoint : Endpoint := { action := m.endpoint ++ "/" ++ m.setAction }

/-- The body of a set request, with the section nested back. -/
def payload (params : Obj) : Obj :=
  [(m.payloadKey, .obj (match m.sectionKey with
    | some key => [(key, .obj params)]
    | none => params))]

/-- Post the settings if they drifted, and read back what the server made of them. -/
def set (params : Obj) (checkMode : Bool) : M EnsureResult := do
  let before ← m.get
  let diff ← m.diff before params
  let redactedBefore ← .ofExcept (redactDict m.redactFields before)
  if diff.isNone then
    log .debug s!"noop {m.endpoint} — settings match"
      (buildExtra "noop" [] { before := some redactedBefore, changed := some false })
    return { changed := false, action := .noop, before := some redactedBefore,
             after := some redactedBefore }
  let current ← .ofExcept (spread before)
  let redactedAfter ← .ofExcept (redactDict m.redactFields (.obj (current.overlay params)))
  if checkMode then
    log .info s!"set check_mode=True {m.endpoint}"
      (buildExtra "updated" []
        { before := some redactedBefore, after := some redactedAfter, changed := some true,
          checkMode := some true })
    return { changed := true, action := .updated, before := some redactedBefore,
             after := some redactedAfter }
  logError
    (do
      let _ ← await (.post m.setEndpoint (m.payload params))
      m.apply)
    (fun exc => s!"set failed {m.endpoint}: {exc.text}")
    (fun exc => buildExtra "update_failed" []
      { before := some redactedBefore, error := some exc.text })
  let actualAfter ← m.get
  let redactedActual ← .ofExcept (redactDict m.redactFields actualAfter)
  log .info s!"updated {m.endpoint}"
    (buildExtra "updated" []
      { before := some redactedBefore, after := some redactedActual, changed := some true })
  return { changed := true, action := .updated, before := some redactedBefore,
           after := some redactedActual }

/-- The client-side checks; a singleton can only be present. -/
def validate (state : String) (params : Obj) : M Unit := do
  if state ≠ "present" then
    let got := reprStr state
    .raise (.valueError s!"Singleton managers only support state='present'. Got: {got}")
  else if m.validators ≠ [] then
    logError (.ofExcept (m.registry.validateParams params m.validators))
      (fun exc => s!"validation failed {m.className}: {exc.text}")
      (fun exc => [("action", .str "validation_failed"), ("endpoint", .str m.endpoint),
        ("error", .str exc.text)])
  else return ()

def ensure (state : String) (params : Obj) (checkMode : Bool := false) : M EnsureResult := do
  m.validate state params
  m.set params checkMode

end BaseSingletonManager
end Opnsense
