import Opnsense.BaseManager

namespace Opnsense
open Interaction

/-- A service controller class. -/
structure BaseServiceManager where
  endpoint : String
  applyTimeout : Option ℕ := none

inductive ServiceVerb where
  | start | stop | restart | reconfigure
  deriving DecidableEq, Repr

namespace ServiceVerb

def text : ServiceVerb → String
  | start => "start"
  | stop => "stop"
  | restart => "restart"
  | reconfigure => "reconfigure"

/-- The `action_name` a verb is reported under. -/
def action : ServiceVerb → Action
  | start => .started
  | stop => .stopped
  | restart => .restarted
  | reconfigure => .reconfigured

end ServiceVerb

namespace BaseServiceManager

variable (m : BaseServiceManager)

def statusRequest : Request := .get { action := m.endpoint ++ "/status" }

def verbRequest (verb : ServiceVerb) : Request :=
  .post { action := m.endpoint ++ "/" ++ verb.text } [] { timeout := m.applyTimeout }

/-- `str(body.get("status", "unknown"))` -/
def status : M String := do
  let body ← logError (await m.statusRequest)
    (fun exc => s!"status failed {m.endpoint}: {exc.text}")
    (fun exc => [("action", .str "status_failed"), ("endpoint", .str m.endpoint),
      ("error", .str exc.text)])
  let fields ← .ofExcept (asDict body)
  return pyStr (fields.getD "status" (.str "unknown"))

def statusDict (status : String) : Json := .obj [("status", .str status)]

/-- A stop is logged as a warning. -/
def severity (action : Action) : LogLevel := if action = .stopped then .warning else .info

/-- `_action`: the verb, with the status read before and after it. -/
def act (verb : ServiceVerb) (checkMode : Bool) : M EnsureResult := do
  let action := verb.action
  let before ← m.status
  if checkMode then
    log (severity action) s!"{action.text} check_mode=True {m.endpoint}"
      (buildExtra action.text []
        { before := some (statusDict before), changed := some true, checkMode := some true })
    return { changed := true, action, before := some (statusDict before) }
  -- the body of the reply is not looked at
  let _ ← logError (await (m.verbRequest verb))
    (fun exc => s!"{verb.text} failed {m.endpoint}: {exc.text}")
    (fun exc => buildExtra s!"{verb.text}_failed" []
      { before := some (statusDict before), error := some exc.text })
  let after ← m.status
  log (severity action) s!"{action.text} {m.endpoint}"
    (buildExtra action.text []
      { before := some (statusDict before), after := some (statusDict after),
        changed := some true })
  return { changed := true, action, before := some (statusDict before),
           after := some (statusDict after) }

def start (checkMode : Bool) : M EnsureResult := m.act .start checkMode
def stop (checkMode : Bool) : M EnsureResult := m.act .stop checkMode
def restart (checkMode : Bool) : M EnsureResult := m.act .restart checkMode
def reconfigure (checkMode : Bool) : M EnsureResult := m.act .reconfigure checkMode

/-- The result of a daemon that is in the wanted state already. -/
def noop (status message : String) : M EnsureResult := do
  log .debug message
    (buildExtra "noop" [] { before := some (statusDict status), changed := some false })
  return { changed := false, action := .noop, before := some (statusDict status),
           after := some (statusDict status) }

def ensure (state : String) (checkMode : Bool := false) : M EnsureResult := do
  if state ≠ "running" ∧ state ≠ "stopped" ∧ state ≠ "reconfigured" then
    let got := reprStr state
    .raise (.valueError s!"Invalid state {got}. Use 'running', 'stopped', or 'reconfigured'.")
  else if state = "reconfigured" then m.reconfigure checkMode
  else
    let before ← m.status
    if state = "running" then
      if before = "running" then noop before s!"noop {m.endpoint} — already running"
      else m.start checkMode
    else
      if before ∈ ["stopped", "disabled", "unknown"] then
        noop before s!"noop {m.endpoint} — already stopped (status={before})"
      else m.stop checkMode

end BaseServiceManager

def MonitDaemonManager : BaseServiceManager where
  endpoint := "monit/service"
  applyTimeout := some 60

namespace CoreServiceManager

def endpoint : String := "core/service"

def searchRequest : Request := .get { action := endpoint ++ "/search" }

def verbRequest (verb : ServiceVerb) (name : String) : Request :=
  .post { action := endpoint ++ "/" ++ verb.text ++ "/" ++ name } []

def isObj : Json → Option Obj
  | .obj fs => some fs
  | _ => none

/-- The registry rows of a reply; what is no dict is passed over. -/
def rowsOf (body : Json) : Except Exc (List Obj) := do
  let rows := match body with
    | .obj fs => Obj.getD fs "rows" (.arr [])
    | _ => .arr []
  let items ← iterate rows
  return items.filterMap isObj

def list : M (List Obj) := do
  let body ← await searchRequest
  .ofExcept (rowsOf body)

/-- `row.get(key) == name` -/
def carries (name key : String) (row : Obj) : Bool :=
  match row.lookup key with
  | some (.str s) => s == name
  | _ => false

def statusOf (name : String) (rows : List Obj) : String :=
  match rows.find? fun row => carries name "id" row || carries name "name" row with
  | some row =>
    if pyStr (row.getD "running" (.str "0")) ∈ ["1", "True", "true"] then "running" else "stopped"
  | none => "unknown"

def status (name : String) : M String := do
  let rows ← list
  return statusOf name rows

/-- The verb of a state that was accepted. -/
def verbFor (state : String) : ServiceVerb :=
  if state = "running" then .start else if state = "stopped" then .stop else .restart

def ensure (name : String) (state : String := "running") (checkMode : Bool := false) :
    M EnsureResult := do
  if state ≠ "running" ∧ state ≠ "stopped" ∧ state ≠ "restarted" then
    let got := reprStr state
    .raise (.valueError
      s!"CoreServiceManager.ensure: state must be running|stopped|restarted, got {got}")
  else
    let before ← status name
    let beforeDict := BaseServiceManager.statusDict before
    let verb := verbFor state
    let action := verb.action
    if state = "running" ∧ before = "running" ∨
        state = "stopped" ∧ before ∈ ["stopped", "unknown"] then
      log .debug s!"noop {name} already {before}"
        [("action", .str "noop"), ("service", .str name)]
      return { changed := false, action := .noop, before := some beforeDict,
               after := some beforeDict }
    else if checkMode then
      return { changed := true, action, before := some beforeDict,
               after := some (BaseServiceManager.statusDict
                 (if state ≠ "stopped" then "running" else "stopped")) }
    else
      let _ ← logError (await (verbRequest verb name))
        (fun exc => s!"{verb.text} {name} failed: {exc.text}")
        (fun exc => [("action", .str s!"{verb.text}_failed"), ("service", .str name),
          ("error", .str exc.text)])
      let after ← status name
      log .info s!"{action.text} {name}"
        [("action", .str action.text), ("service", .str name), ("before", .str before),
          ("after", .str after)]
      return { changed := true, action, before := some beforeDict,
               after := some (BaseServiceManager.statusDict after) }

end CoreServiceManager

end Opnsense
