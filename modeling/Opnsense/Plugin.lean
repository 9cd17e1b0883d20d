import Opnsense.BaseManager

/-! Plugins: jobs of the firmware subsystem, which reports a job that it refused as done. -/
namespace Opnsense
open Interaction

/-- `str.splitlines` ends a line here; a carriage return and a line feed end one line. -/
def isLineBreak (c : Char) : Bool :=
  let n := c.toNat
  (0x0a ≤ n && n ≤ 0x0d) || (0x1c ≤ n && n ≤ 0x1e) || n == 0x85 || n == 0x2028 || n == 0x2029

/-- The lines behind `line`, the characters of the current one. -/
def linesFrom (line : List Char) : List Char → List (List Char)
  | [] => if line.isEmpty then [] else [line]
  | [c] => if isLineBreak c then [line] else [line ++ [c]]
  | c :: c' :: rest =>
    if c.toNat = 0x0d ∧ c'.toNat = 0x0a then line :: linesFrom [] rest
    else if isLineBreak c then line :: linesFrom [] (c' :: rest)
    else linesFrom (line ++ [c]) (c' :: rest)

/-- `s.splitlines()` -/
def splitlines (s : String) : List (List Char) := linesFrom [] s.toList

namespace PluginManager

def infoRequest : Request := .get { action := "core/firmware/info" }

def runningRequest : Request := .get { action := "core/firmware/running" }

def statusRequest : Request := .get { action := "core/firmware/upgradestatus" }

/-- The job that brings a package into the wanted state. -/
def jobRequest (want : Bool) (packageName : String) : Request :=
  .post { action := "core/firmware/" ++ (if want then "install" else "remove")
          ident := some packageName } []

/-- `p.get("name", "").startswith("os-")` -/
def isPlugin (package : Obj) : Except Exc Bool :=
  match package.getD "name" (.str "") with
  | .str name => .ok ("os-".toList.isPrefixOf name.toList)
  | v => .error (Exc.noAttribute v "startswith")

def pluginRows : List Json → Except Exc (List Obj)
  | [] => .ok []
  | v :: rest => do
    let package ← asDict v
    let keep ← isPlugin package
    let plugins ← pluginRows rest
    return if keep then package :: plugins else plugins

/-- The plugins among the packages of a `core/firmware/info` reply. -/
def pluginsOf (body : Json) : Except Exc (List Obj) := do
  let fields ← asDict body
  let packages ← iterate (fields.getD "package" (.arr []))
  pluginRows packages

def listPlugins : M (List Obj) :=
  logError
    (do
      let body ← await infoRequest
      .ofExcept (pluginsOf body))
    (fun exc => s!"list_plugins failed: {exc.text}")
    (fun exc => [("action", .str "list_plugins_failed"), ("error", .str exc.text)])

/-- The field of a plugin is this text. -/
def hasText (plugin : Obj) (key text : String) : Bool :=
  match plugin.getD key .null with
  | .str s => s == text
  | _ => false

def installedIn (packageName : String) (plugins : List Obj) : Bool :=
  plugins.any fun p => hasText p "name" packageName && hasText p "installed" "1"

def isInstalled (packageName : String) : M Bool :=
  logError
    (do
      let plugins ← listPlugins
      return installedIn packageName plugins)
    (fun exc => s!"is_installed failed for {packageName}: {exc.text}")
    (fun exc => [("action", .str "is_installed_failed"), ("package", .str packageName),
      ("error", .str exc.text)])

/-- `install` and `remove`: fire the job. -/
def fire (want : Bool) (packageName : String) : M Json :=
  let verb := if want then "install" else "remove"
  logError
    (do
      let result ← await (jobRequest want packageName)
      log .info s!"{verb} requested {packageName}"
        [("action", .str s!"{verb}_requested"), ("package", .str packageName)]
      return result)
    (fun exc => s!"{verb} failed for {packageName}: {exc.text}")
    (fun exc => [("action", .str s!"{verb}_failed"), ("package", .str packageName),
      ("error", .str exc.text)])

def install (packageName : String) : M Json := fire true packageName
def remove (packageName : String) : M Json := fire false packageName

def getStatus : M Json :=
  logError (await statusRequest)
    (fun exc => s!"get_status failed: {exc.text}")
    (fun exc => [("action", .str "get_status_failed"), ("error", .str exc.text)])

section Polling

variable (timeout : ℤ) (interval : ℚ)

/-- Poll until a body is `ready`; `late` is what becomes of the first one after the timeout. With
an interval that is not positive this need not end: `none` stands for a poll that goes on. -/
def poll {α : Type} (look : M Json) (ready : Obj → Option α) (late : Obj → M (Option α)) :
    ℕ → ℚ → M (Option α)
  | 0, waited => do
    let body ← look
    let fields ← .ofExcept (asDict body)
    match ready fields with
    | some a => return some a
    -- the timeout is looked at behind a body only, so there is at least one poll
    | none => if timeout ≤ waited then late fields else return none
  | fuel + 1, waited => do
    let body ← look
    let fields ← .ofExcept (asDict body)
    match ready fields with
    | some a => return some a
    | none =>
      if timeout ≤ waited then late fields
      else do
        .tell (.sleep interval)
        poll look ready late fuel (waited + interval)

/-- `OpnsenseTimeoutError(message)` -/
def timeoutError (message : String) : Exc := .opnsense { cls := .timeout, message }

/-- `str(body.get("status", "")) == "ready"` -/
def isReady (fields : Obj) : Option Unit :=
  if fields.text "status" = "ready" then some () else none

def waitForIdle (fuel : ℕ) : M (Option Unit) :=
  poll timeout interval (await runningRequest) isReady
    (fun _ => .raise (timeoutError s!"firmware subsystem still busy after {timeout}s")) fuel 0

/-- The log of a job that is done: `str(status.get("log", "") or "")`. -/
def doneLog (fields : Obj) : Option String :=
  if fields.text "status" = "done" then
    let log := fields.getD "log" (.str "")
    some (if log.truthy then pyStr log else "")
  else none

/-- `_wait_for_job`: an `error` is a job that has not started yet. -/
def waitForJob (fuel : ℕ) : M (Option String) :=
  poll timeout interval getStatus doneLog
    (fun fields => do
      log .error s!"firmware job timeout after {timeout}s"
        [("action", .str "job_timeout"), ("timeout", .int timeout)]
      let status := pyRepr (fields.getD "status" .null)
      .raise (timeoutError s!"firmware job still {status} after {timeout}s")) fuel 0

end Polling

/-- `OpnsenseServerError(message)` -/
def serverError (message : String) : Exc :=
  .opnsense { cls := .server, message, statusCode := some 500 }

/-- `_REFUSALS` -/
def refusals : List (String × String) :=
  [("Installation out of date",
      "base image out of date — apply the pending point update first"),
    ("No packages available to install", "unknown package name"),
    ("No packages available to remove", "unknown package name")]

/-- `marker in log` -/
def contains (marker log : List Char) : Bool := decide (marker <:+: log)

/-- `_verdict`: the first refusal that the log of the job carries. -/
def verdict (packageName jobLog : String) : M Unit :=
  match refusals.find? fun r => contains r.1.toList jobLog.toList with
  | none => return ()
  | some (marker, meaning) => do
    let line := ((splitlines jobLog).find? fun ln => contains marker.toList ln).elim marker
      fun ln => String.ofList (strip ln)
    log .error s!"plugin {packageName} refused: {line}"
      [("action", .str "refused"), ("package", .str packageName), ("reason", .str meaning)]
    .raise (serverError
      s!"{packageName}: firmware backend refused the job ({meaning}): {line}")

/-- Read the installed state again for a while: the package cache lags the job. -/
def reread (packageName : String) (want : Bool) (verifyInterval : ℚ) : ℕ → Bool → M Bool
  | 0, installed => return installed
  | tries + 1, installed =>
    if installed = want then return installed
    else do
      .tell (.sleep verifyInterval)
      let installed ← isInstalled packageName
      reread packageName want verifyInterval tries installed

def installedDict (installed : Bool) : Json := .obj [("installed", .bool installed)]

def actionOf (want : Bool) : Action := if want then .installed else .removed

def resultOf (want before after : Bool) : EnsureResult where
  changed := true
  action := actionOf want
  before := some (installedDict before)
  after := some (installedDict after)

/-- The settings of a call of `ensure`, with its defaults. -/
structure EnsureSettings where
  wait : Bool := true
  timeout : ℤ := 300
  interval : ℚ := 5
  checkMode : Bool := false
  verifyRetries : ℤ := 12
  verifyInterval : ℚ := 5

section Ensure

variable (packageName : String) (settings : EnsureSettings) (want : Bool) (fuel : ℕ)

/-- What follows on a finished job: its verdict, and the state of the package behind it. -/
def verify (before : Bool) (jobLog : String) : M EnsureResult := do
  let action := (actionOf want).text
  verdict packageName jobLog
  -- a refused job is reported done as well, so the package itself is looked at
  let installed ← isInstalled packageName
  let installed ←
    reread packageName want settings.verifyInterval settings.verifyRetries.toNat installed
  if installed ≠ want then
    let lines := splitlines jobLog
    let tail := " | ".intercalate
      (((lines.drop (lines.length - 4)).filter fun ln => !(strip ln).isEmpty).map String.ofList)
    let still := if want then "absent" else "installed"
    log .error s!"plugin {packageName}: job done but state unchanged"
      [("action", .str s!"{action}_failed"), ("package", .str packageName),
        ("log_tail", .str tail)]
    .raise (serverError (s!"{packageName}: firmware job reported done but the package is still " ++
      s!"{still} — job log tail: {tail}"))
  else do
    log .info s!"{action} {packageName}"
      [("action", .str action), ("package", .str packageName)]
    return resultOf want before installed

/-- Fire the job, and wait for what it comes to unless told not to. -/
def runJob (before : Bool) : M (Option EnsureResult) := do
  let _ ← fire want packageName
  if settings.wait then
    let jobLog ← waitForJob settings.timeout settings.interval fuel
    match jobLog with
    | none => return none
    | some jobLog => do
      let result ← verify packageName settings want before jobLog
      return some result
  else return some (resultOf want before want)

/-- The part of `ensure` for a package that is not in the wanted state. -/
def change (before : Bool) : M (Option EnsureResult) :=
  if settings.checkMode then do
    let action := (actionOf want).text
    log .info s!"{action} check_mode=True {packageName}"
      [("action", .str action), ("package", .str packageName), ("check_mode", .bool true)]
    return some (resultOf want before want)
  else do
    let idle ← waitForIdle settings.timeout settings.interval fuel
    match idle with
    | none => return none
    | some () => runJob packageName settings want fuel before

/-- `ensure`; `none` is a call that polls still after `fuel` polls. -/
def ensure (state : String) : M (Option EnsureResult) :=
  if state ≠ "present" ∧ state ≠ "absent" then
    let got := reprStr state
    .raise (.valueError s!"PluginManager.ensure: state must be present|absent, got {got}")
  else do
    let want := decide (state = "present")
    let installed ← isInstalled packageName
    -- what is in the wanted state already fires no job
    if installed = want then
      log .debug s!"noop plugin {packageName} already {state}"
        [("action", .str "noop"), ("package", .str packageName)]
      return some { changed := false, action := .noop, before := some (installedDict installed),
                    after := some (installedDict installed) }
    else change packageName settings want fuel installed

end Ensure

end PluginManager
end Opnsense
