import Opnsense.BaseManager
import Opnsense.FinalReply
import Opnsense.Firmware
import Opnsense.Interaction.Loop

namespace Opnsense
open Interaction

/-- `except (OpnsenseConnectionError, OpnsenseTimeoutError, OpnsenseServerError)` -/
def isTransient : Exc → Bool
  | .opnsense e => e.cls == .connection || e.cls == .timeout || e.cls == .server
  | _ => false

def isTimeoutError : Exc → Bool
  | .opnsense e => e.cls == .timeout
  | _ => false

/-- A number of seconds, an int or a float, and how an f-string shows it. -/
structure Seconds where
  value : ℚ
  text : String

/-- One of the waits. `opens` is asked before a poll and `lasts` after one that found nothing,
both with the seconds waited so far; `judge` finds the result in a body, or what is to be
remembered of it. -/
structure RebootWait (τ α : Type) where
  endpoint : String
  opts : CallOptions := {}
  interval : ℚ
  start : τ
  opens : ℚ → Bool
  lasts : ℚ → Bool
  judge : Json → Except Exc (τ ⊕ α)
  found : α → List Event
  missed : Exc → List Event
  expiring : τ → List Event
  expired : τ → Exc
  judge_fails : ∀ body e, judge body = .error e → isTransient e = false
  expired_timeout : ∀ last, isTimeoutError (expired last) = true

namespace RebootWait

variable {τ α : Type} (w : RebootWait τ α) (client : OpnsenseClient)

def reports (events : List Event) (p : H α) : H α := events.foldr .emit p

/-- Give up with the timeout error of the wait. -/
def giveUp {β : Type} (last : τ) : H β := reports (w.expiring last) (.raise (w.expired last))

/-- One poll, and the `except` clause around it. -/
def poll (last : τ) : H (τ ⊕ α) :=
  Prog.rescue
    (do
      let body ← client.get { action := w.endpoint } w.opts
      let verdict ← Prog.ofExcept (w.judge body)
      match verdict with
      | .inl last => return .inl last
      | .inr a => reports (w.found a) (.ret (.inr a)))
    (fun exc =>
      if isTransient exc then reports (w.missed exc) (.ret (.inl last)) else .raise exc)

/-- One round of the loop. -/
def round : ℚ × τ → H ((ℚ × τ) ⊕ α)
  | (waited, last) =>
    if w.opens waited then do
      let verdict ← w.poll client last
      match verdict with
      | .inr a => return .inr a
      | .inl last =>
        if w.lasts waited then .emit (.sleep w.interval) (.ret (.inl (waited + w.interval, last)))
        else w.giveUp last
    else w.giveUp last

/-- The wait, for at most so many rounds: with an interval that is not positive it need not end. -/
def program (rounds : ℕ) : H (Option α) := Prog.loop (w.round client) rounds (0, w.start)

end RebootWait

section Ready

/-- `result.get("status", "") in ("running", "done", "ok")` -/
def readyBody (result : Json) : Except Exc (Unit ⊕ Json) := do
  let fields ← asDict result
  return match fields.getD "status" (.str "") with
    | .str status => if status ∈ ["running", "done", "ok"] then .inr result else .inl ()
    | _ => .inl ()

theorem isTransient_of_asDict {α : Type} {f : Obj → α} {body : Json} {e : Exc}
    (h : (do let fields ← asDict body; return f fields) = Except.error e) :
    isTransient e = false := by
  cases body with
  | obj fs => cases h
  | _ =>
    cases h
    rfl

/-- The message of `wait_for_ready` when the time is up. -/
def notReady (timeout : Seconds) (checkEndpoint : String) : Exc :=
  .opnsense
    { cls := .timeout, endpoint := some checkEndpoint
      message := s!"Service not ready after {timeout.text}s polling {checkEndpoint}" }

theorem notReady_timeout (timeout : Seconds) (checkEndpoint : String) (_ : Unit) :
    isTimeoutError (notReady timeout checkEndpoint) = true := rfl

/-- `OpnsenseClient.wait_for_ready`; `asyncTimeout` is the default of the client. -/
def waitForReady (asyncTimeout : Seconds) (checkEndpoint : String) (timeout : Option Seconds)
    (interval : ℚ) : RebootWait Unit Json where
  endpoint := checkEndpoint
  interval := interval
  start := ()
  opens elapsed := elapsed < (timeout.getD asyncTimeout).value
  lasts _ := true
  judge := readyBody
  found _ := []
  missed _ := []
  expiring _ := []
  expired _ := notReady (timeout.getD asyncTimeout) checkEndpoint
  judge_fails _ _ := isTransient_of_asDict
  expired_timeout := notReady_timeout _ _

end Ready

namespace FirmwareManager

/-- `last = str(body.get("product_version", "") or "")`, and `target in last` -/
def versionBody (target : String) (body : Json) : Except Exc (String ⊕ String) := do
  let fields ← asDict body
  let version := fields.getD "product_version" (.str "")
  let last := if version.truthy then pyStr version else ""
  return if target.toList <:+: last.toList then .inr last else .inl last

def versionNotSeen (target : String) (timeout : ℤ) (last : String) : Exc :=
  let wanted := reprStr target
  let seen := reprStr last
  .opnsense
    { cls := .timeout
      message := s!"device did not report version {wanted} within {timeout}s (last: {seen})" }

theorem versionNotSeen_timeout (target : String) (timeout : ℤ) (last : String) :
    isTimeoutError (versionNotSeen target timeout last) = true := rfl

/-- `wait_for_version`; there is at least one poll. -/
def waitForVersion (target : String) (timeout : ℤ) (interval : ℚ) : RebootWait String String where
  endpoint := endpoint ++ "/info"
  opts := { timeout := some 20, maxRetries := some 1 }
  interval := interval
  start := ""
  opens _ := true
  lasts waited := waited < timeout
  judge := versionBody target
  found last := [.log ⟨.info, s!"device is on {last}",
    [("action", .str "version_reached"), ("product_version", .str last)]⟩]
  missed exc := [.log ⟨.debug, s!"waiting for {target}: {exc.text}",
    [("action", .str "version_wait"), ("error", .str exc.text)]⟩]
  expiring last :=
    let seen := reprStr last
    [.log ⟨.error, s!"timeout waiting for version {target} (last seen {seen})",
      [("action", .str "version_timeout"), ("target", .str target), ("last", .str last)]⟩]
  expired := versionNotSeen target timeout
  judge_fails _ _ := isTransient_of_asDict
  expired_timeout := versionNotSeen_timeout target timeout

/-- `str(body.get("status", "")) == "ready"` -/
def idleBody (body : Json) : Except Exc (Unit ⊕ Unit) := do
  let fields ← asDict body
  return if fields.text "status" = "ready" then .inr () else .inl ()

def stillBusy (timeout : ℤ) : Exc :=
  .opnsense { cls := .timeout, message := s!"firmware subsystem still busy after {timeout}s" }

theorem stillBusy_timeout (timeout : ℤ) (_ : Unit) :
    isTimeoutError (stillBusy timeout) = true := rfl

/-- `wait_for_idle` -/
def waitForIdle (timeout : ℤ) (interval : ℚ) : RebootWait Unit Unit where
  endpoint := endpoint ++ "/running"
  opts := { timeout := some 20, maxRetries := some 1 }
  interval := interval
  start := ()
  opens _ := true
  lasts waited := waited < timeout
  judge := idleBody
  found _ := []
  missed exc := [.log ⟨.debug, s!"waiting for idle: {exc.text}",
    [("action", .str "idle_wait"), ("error", .str exc.text)]⟩]
  expiring _ := []
  expired _ := stillBusy timeout
  judge_fails _ _ := isTransient_of_asDict
  expired_timeout := stillBusy_timeout timeout

end FirmwareManager
end Opnsense
