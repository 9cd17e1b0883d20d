import Opnsense.Outages
import Opnsense.Plugin

namespace Opnsense
open Interaction

namespace RebootWait

variable {τ α : Type} (w : RebootWait τ α)

def request : Request := .get { action := w.endpoint } w.opts

/-- One poll of a wait as a manager makes it. -/
def look (last : τ) : M (τ ⊕ α) :=
  Prog.rescue
    (do
      let body ← await w.request
      let verdict ← Prog.ofExcept (w.judge body)
      match verdict with
      | .inl last => return .inl last
      | .inr a => (w.found a).foldr .emit (.ret (.inr a)))
    (fun exc =>
      if isTransient exc then (w.missed exc).foldr .emit (.ret (.inl last)) else .raise exc)

def expire {β : Type} (last : τ) : M β := (w.expiring last).foldr .emit (.raise (w.expired last))

def turn : ℚ × τ → M ((ℚ × τ) ⊕ α)
  | (waited, last) =>
    if w.opens waited then do
      let verdict ← w.look last
      match verdict with
      | .inr a => return .inr a
      | .inl last =>
        if w.lasts waited then .emit (.sleep w.interval) (.ret (.inl (waited + w.interval, last)))
        else w.expire last
    else w.expire last

/-- The wait of a manager, for at most so many rounds. -/
def wait (rounds : ℕ) : M (Option α) := Prog.loop w.turn rounds (0, w.start)

section Client

variable {w} {S : Type} {client : OpnsenseClient} {net : Server HttpRequest HttpReply S} {x : S}

theorem run_look (last : τ) :
    (w.look last).run (client.appliance net) x = (w.poll client last).run net x := by
  have hget : (client.get { action := w.endpoint } w.opts).run net x =
      client.appliance net w.request x := rfl
  rw [look, poll, Prog.run_rescue, Prog.run_rescue, Prog.run_bind, Prog.run_bind, run_await, hget]
  rcases client.appliance net w.request x with ⟨e | body, x₁⟩
  · cases htransient : isTransient e <;> simp [htransient]
  · cases hjudge : w.judge body with
    | error e => simp [Prog.run_bind, hjudge, w.judge_fails body e hjudge]
    | ok verdict => cases verdict <;> simp [Prog.run_bind, hjudge]

/-- Over the client, the wait of a manager is the wait over the network. -/
theorem run_wait (rounds : ℕ) :
    (w.wait rounds).run (client.appliance net) x = (w.program client rounds).run net x := by
  refine Prog.run_loop_congr (fun t x => ?_) rounds _ x
  obtain ⟨waited, last⟩ := t
  rw [turn, round]
  split
  · rw [Prog.run_bind, Prog.run_bind, run_look]
    rcases (w.poll client last).run net x with ⟨e | last' | a, x₁⟩
    · rfl
    · show Prog.run _ (if _ then _ else _) _ = Prog.run _ (if _ then _ else _) _
      split
      · rfl
      · rw [expire, giveUp, reports, Prog.run_foldr_emit, Prog.run_foldr_emit]
        rfl
    · rfl
  · rw [expire, giveUp, reports, Prog.run_foldr_emit, Prog.run_foldr_emit]
    rfl

end Client

section Stops

variable {w} {σ : Type} {srv : Appliance σ} {s : σ}

/-- A reply that ends the wait with a result. -/
def Accepts (w : RebootWait τ α) (qr : Request × Reply) (a : α) : Prop :=
  ∃ body, qr = (w.request, .ok body) ∧ w.judge body = .ok (.inr a)

/-- A poll is one exchange. -/
theorem trace_look (last : τ) (s : σ) :
    (w.look last).trace srv s = [(w.request, (srv w.request s).1)] := by
  rcases hreply : srv w.request s with ⟨e | body, s₁⟩
  · cases htransient : isTransient e <;>
      simp [look, Prog.trace_rescue, Prog.trace_bind, Prog.run_bind, hreply, htransient]
  · cases hjudge : w.judge body with
    | error e => simp [look, Prog.trace_rescue, Prog.trace_bind, Prog.run_bind, hreply, hjudge,
        w.judge_fails body e hjudge]
    | ok verdict => cases verdict <;>
        simp [look, Prog.trace_rescue, Prog.trace_bind, Prog.run_bind, hreply, hjudge]

theorem run_look_of_judged {body : Json} {verdict : τ ⊕ α} {s' : σ} (last : τ)
    (hreply : srv w.request s = (.ok body, s')) (hjudge : w.judge body = .ok verdict) :
    (w.look last).run srv s = (.ok verdict, s') := by
  cases verdict <;> simp [look, Prog.run_rescue, Prog.run_bind, hreply, hjudge]

theorem run_look_of_transient {e : Exc} {s' : σ} (last : τ)
    (hreply : srv w.request s = (.error e, s')) (htransient : isTransient e = true) :
    (w.look last).run srv s = (.ok (.inl last), s') := by
  simp [look, Prog.run_rescue, Prog.run_bind, hreply, htransient]

/-- A poll returns what the wait accepts in its reply. -/
theorem stopsAt_look (last : τ) (s : σ) :
    Prog.StopsAt w.Accepts Sum.getRight? srv (w.look last) s := by
  have htrace : (w.look last).trace srv s = _ := trace_look last s
  -- nothing is accepted in an error, nor in a body that is not the one waited for
  rcases hreply : srv w.request s with ⟨e | body, s₁⟩
  · refine Or.inr ⟨?_, ?_⟩
    · intro b s' hb
      cases htransient : isTransient e <;>
        simp [look, Prog.run_rescue, Prog.run_bind, hreply, htransient] at hb
      obtain ⟨rfl, -⟩ := hb
      rfl
    · rw [htrace, hreply]
      rintro qr hqr a ⟨body, rfl, -⟩
      simp at hqr
  · cases hjudge : w.judge body with
    | error e =>
      have hrun : (w.look last).run srv s = (.error e, s₁) := by
        simp [look, Prog.run_rescue, Prog.run_bind, hreply, hjudge, w.judge_fails body e hjudge]
      refine Or.inr ⟨?_, ?_⟩
      · intro b s' hb
        cases hrun.symm.trans hb
      · rw [htrace, hreply]
        rintro qr hqr a ⟨body', rfl, ha⟩
        obtain rfl : body' = body := by simpa using hqr
        cases hjudge.symm.trans ha
    | ok verdict =>
      have hrun := run_look_of_judged last hreply hjudge
      cases verdict with
      | inl last' =>
        refine Or.inr ⟨?_, ?_⟩
        · intro b s' hb
          cases hrun.symm.trans hb
          rfl
        · rw [htrace, hreply]
          rintro qr hqr a ⟨body', rfl, ha⟩
          obtain rfl : body' = body := by simpa using hqr
          cases hjudge.symm.trans ha
      | inr a =>
        refine Or.inl ⟨_, a, _, [], (w.request, .ok body), hrun, rfl, ?_, ⟨body, rfl, hjudge⟩, ?_⟩
        · rw [htrace, hreply]
          rfl
        · exact fun qr hqr => nomatch hqr

theorem stopsAt_turn (t : ℚ × τ) (s : σ) :
    Prog.StopsAt w.Accepts Sum.getRight? srv (w.turn t) s := by
  obtain ⟨waited, last⟩ := t
  have hexpire : ∀ (last : τ) (s : σ),
      Prog.StopsAt w.Accepts Sum.getRight? srv (w.expire last : M ((ℚ × τ) ⊕ α)) s := by
    intro last s
    apply Prog.stopsAt_of_silent
    · simp [expire]
    · intro b s' hb
      simp [expire] at hb
  rw [turn]
  split
  · apply Prog.StopsAt.bind (stopsAt_look last s)
    · intro b a s hb
      cases b with
      | inl last' => cases hb
      | inr a' =>
        cases hb
        exact ⟨.inr a, rfl, rfl, rfl⟩
    · intro b s hb
      cases b with
      | inl last' =>
        -- the wait goes on, or its time is up
        by_cases hlasts : w.lasts waited = true
        · simp only [hlasts, if_true]
          apply Prog.stopsAt_of_silent rfl
          intro b s' hb
          cases hb
          rfl
        · simp only [hlasts]
          exact hexpire last' s
      | inr a => cases hb
  · exact hexpire last s

/-- A wait asks one question. -/
theorem asks_wait (rounds : ℕ) : (w.wait rounds).Asks (· = w.request) := by
  have hlook : ∀ last, (w.look last).Asks (· = w.request) := by
    intro last
    apply Prog.asks_rescue
    · have hask : (await w.request).Asks (· = w.request) := (asks_await _).mpr rfl
      apply Prog.asks_bind hask
      intro body
      apply Prog.asks_bind (by simp)
      intro verdict
      cases verdict with
      | inl last => trivial
      | inr a => exact (Prog.asks_foldr_emit _ _).mpr trivial
    · intro exc
      split
      · exact (Prog.asks_foldr_emit _ _).mpr trivial
      · trivial
  apply Prog.asks_loop
  rintro ⟨waited, last⟩
  rw [turn]
  split
  · apply Prog.asks_bind (hlook last)
    intro verdict
    cases verdict with
    | inl last' =>
      by_cases hlasts : w.lasts waited = true
      · simp only [hlasts, if_true]
        trivial
      · simp only [hlasts]
        exact (Prog.asks_foldr_emit _ _).mpr trivial
    | inr a => trivial
  · exact (Prog.asks_foldr_emit _ _).mpr trivial

theorem mem_trace_wait {rounds : ℕ} {qr : Request × Reply}
    (h : qr ∈ (w.wait rounds).trace srv s) : qr.1 = w.request :=
  (asks_wait rounds).of_mem_trace h

/-- A wait stops at the first reply that it accepts. -/
theorem stopsAt_wait (rounds : ℕ) (s : σ) : Prog.StopsAt w.Accepts id srv (w.wait rounds) s :=
  Prog.stopsAt_loop stopsAt_turn rounds _ s

end Stops

end RebootWait

namespace FirmwareManager

def statusRequest : Request := .get { action := endpoint ++ "/status" }

def jobRequest : Request := .post { action := endpoint ++ "/upgradestatus" } []

def status : M Json :=
  logError (await statusRequest) (fun exc => s!"firmware status failed: {exc.text}")
    (fun exc => [("action", .str "status_failed"), ("error", .str exc.text)])

def jobStatus : M Json := await jobRequest

/-- `_wait_job` -/
def waitJob (timeout : ℤ) (interval : ℚ) (rounds : ℕ) : M (Option String) :=
  PluginManager.poll timeout interval jobStatus PluginManager.doneLog
    (fun job =>
      let status := pyRepr (job.getD "status" .null)
      .raise (PluginManager.timeoutError s!"firmware job still {status} after {timeout}s"))
    rounds 0

/-- `check`: the resolved status behind the check job. -/
def check (timeout : ℤ) (interval : ℚ) (rounds : ℕ) : M (Option Obj) := do
  let resolved ← logError
    (do
      let _ ← await (fireRequest "check")
      let job ← waitJob timeout interval rounds
      match job with
      | none => return none
      | some _ =>
        let body ← status
        return some body)
    (fun exc => s!"firmware check failed: {exc.text}")
    (fun exc => [("action", .str "check_failed"), ("error", .str exc.text)])
  match resolved with
  | none => return none
  | some body =>
    let fields ← .ofExcept (asDict body)
    let status := fields.getD "status" .null
    let version := fields.getD "product_version" .null
    let statusText := pyStr status
    let versionText := pyStr version
    log .info s!"firmware check: {statusText} ({versionText})"
      [("action", .str "checked"), ("status", status), ("product_version", version)]
    return some fields

/-- The arguments of `ensure`, and how many rounds its loops are followed for. -/
structure UpdateCall where
  state : String := "updated"
  target : Option String := none
  checkMode : Bool := false
  checkTimeout : ℤ := 120
  waitTimeout : ℤ := 1500
  waitInterval : ℚ := 30
  rounds : ℕ

/-- `str(resolved.get("status", "") or "")` -/
def pendingOf (resolved : Obj) : String :=
  let status := resolved.getD "status" (.str "")
  if status.truthy then pyStr status else ""

/-- The job for what is pending, if a state asks for it. -/
def verbFor (state pending : String) : Option String :=
  if state = "updated" then if pending = "update" then some "update" else none
  else if pending = "upgrade" then some "upgrade"
  else if pending = "update" then some "update" else none

def versionDict (version : Json) (status : String) : Json :=
  .obj [("product_version", version), ("status", .str status)]

def actionFor (state : String) : Action := if state = "updated" then .updated else .upgraded

theorem trace_fire {σ : Type} {srv : Appliance σ} (verb : String) (s : σ) :
    (fire verb).trace srv s = [(fireRequest verb, (srv (fireRequest verb) s).1)] := by
  rcases hpost : srv (fireRequest verb) s with ⟨e | v, s'⟩
  · simp only [fire, Prog.trace_rescue, Prog.trace_bind, Prog.run_bind, run_await, trace_await,
      hpost]
    split
    · split <;> rfl
    · rfl
  · simp [fire, Prog.trace_rescue, Prog.trace_bind, Prog.run_bind, hpost]

namespace UpdateCall

variable (c : UpdateCall)

/-- The request, and the waits behind it when a target is given. -/
def apply (verb : String) (before : Json) (version : Json) : M (Option EnsureResult) := do
  let _ ← fire verb
  let result (after : Json) : EnsureResult :=
    { changed := true, action := actionFor c.state, before := some before, after := some after }
  match c.target with
  | none => return some (result (versionDict version "applying"))
  | some target =>
    if target = "" then return some (result (versionDict version "applying"))
    else
      let reached ← (waitForVersion target c.waitTimeout c.waitInterval).wait c.rounds
      match reached with
      | none => return none
      | some version =>
        -- back on the target is not idle: the appliance still installs its plugins
        let idle ← (waitForIdle c.waitTimeout c.waitInterval).wait c.rounds
        match idle with
        | none => return none
        | some () => return some (result (versionDict (.str version) "none"))

/-- `target or before["product_version"]` -/
def projected (version : Json) : Json :=
  match c.target with
  | none => version
  | some target => if target = "" then version else .str target

/-- `ensure` -/
def ensure : M (Option EnsureResult) := do
  if c.state ≠ "updated" ∧ c.state ≠ "upgraded" then
    let got := reprStr c.state
    .raise (.valueError s!"FirmwareManager.ensure: state must be updated|upgraded, got {got}")
  else
    let checked ← check c.checkTimeout 5 c.rounds
    match checked with
    | none => return none
    | some resolved =>
      let pending := pendingOf resolved
      let version := resolved.getD "product_version" .null
      let before := versionDict version pending
      match verbFor c.state pending with
      | none =>
        log .debug s!"noop firmware: nothing pending ({pending})"
          [("action", .str "noop"), ("status", .str pending)]
        return some { changed := false, action := .noop, before := some before,
                      after := some before }
      | some verb =>
        if c.checkMode then
          log .info s!"{c.state} check_mode=True (pending {pending})"
            [("action", .str c.state), ("check_mode", .bool true)]
          return some { changed := true, action := actionFor c.state, before := some before,
                        after := some (versionDict (c.projected version) "pending") }
        else c.apply verb before version

end UpdateCall
end FirmwareManager
end Opnsense
