import Opnsense.Interaction.Steering
import Opnsense.Service

namespace Opnsense
open Interaction

/-- The two implementations, with the daemon they are called for. -/
inductive ServiceController where
  | base (m : BaseServiceManager)
  | core (name : String)

/-- The targets that are a state of the daemon. -/
inductive ServiceTarget where
  | running | stopped
  deriving DecidableEq

namespace ServiceTarget

def text : ServiceTarget → String
  | running => "running"
  | stopped => "stopped"

def verb : ServiceTarget → ServiceVerb
  | running => .start
  | stopped => .stop

end ServiceTarget

namespace ServiceController

def program (c : ServiceController) (target : ServiceTarget) : M EnsureResult :=
  match c with
  | base m => m.ensure target.text false
  | core name => CoreServiceManager.ensure name target.text false

/-- The statuses that count as the target: `_RUNNING_STATES`, `_STOPPED_STATES`, and those the
generic registry compares with. -/
def states : ServiceController → ServiceTarget → List String
  | _, .running => ["running"]
  | base _, .stopped => ["stopped", "disabled", "unknown"]
  | core _, .stopped => ["stopped", "unknown"]

def statusEndpoint : ServiceController → Endpoint
  | base m => { action := m.endpoint ++ "/status" }
  | core _ => { action := CoreServiceManager.endpoint ++ "/search" }

def statusRequest (c : ServiceController) : Request := .get c.statusEndpoint

def verbRequest : ServiceController → ServiceVerb → Request
  | base m, verb => m.verbRequest verb
  | core name, verb => CoreServiceManager.verbRequest verb name

/-- The status in the body of a reply. -/
def decode : ServiceController → Json → Except Exc String
  | base _, body => do
    let fields ← asDict body
    return pyStr (fields.getD "status" (.str "unknown"))
  | core name, body => do
    let rows ← CoreServiceManager.rowsOf body
    return CoreServiceManager.statusOf name rows

/-- The status that a reply to the status request gives, if it gives any. -/
def statusIn (c : ServiceController) : Reply → Option String
  | .ok body => (c.decode body).toOption
  | .error _ => none

/-- A status that was read in the course of a run. -/
def reading (c : ServiceController) (qr : Request × Reply) : Option String :=
  match qr.1 with
  | .get ep _ => if ep = c.statusEndpoint then c.statusIn qr.2 else none
  | _ => none

def status : ServiceController → M String
  | base m => m.status
  | core name => CoreServiceManager.status name

section Runs

variable {σ : Type} (srv : Appliance σ) (c : ServiceController) (target : ServiceTarget)

/-- The verb of the target is posted and accepted; `s'` is the state behind it. The statuses read
before can all be read, and the first of them is not the target's. -/
def Accepted (s s' : σ) : Prop :=
  let first := srv c.statusRequest s
  (∃ before, c.statusIn first.1 = some before ∧ before ∉ c.states target) ∧
    match c with
    | base m =>
      -- `_action` reads the status once more
      let again := srv m.statusRequest first.2
      (∃ before, c.statusIn again.1 = some before) ∧
        ∃ v, srv (m.verbRequest target.verb) again.2 = (.ok v, s')
    | core name => ∃ v, srv (CoreServiceManager.verbRequest target.verb name) first.2 = (.ok v, s')

/-- What the verb and all behind it are, once the status was read. -/
def act : ServiceController → String → M String
  | base m, _ => do
    let before ← m.status
    let _ ← logError (await (m.verbRequest target.verb))
      (fun exc => s!"{target.verb.text} failed {m.endpoint}: {exc.text}")
      (fun exc => buildExtra s!"{target.verb.text}_failed" []
        { before := some (BaseServiceManager.statusDict before), error := some exc.text })
    return before
  | core name, before => do
    let _ ← logError (await (CoreServiceManager.verbRequest target.verb name))
      (fun exc => s!"{target.verb.text} {name} failed: {exc.text}")
      (fun exc => [("action", .str s!"{target.verb.text}_failed"), ("service", .str name),
        ("error", .str exc.text)])
    return before

def idle : ServiceController → String → M EnsureResult
  | base m, before => BaseServiceManager.noop before (match target with
    | .running => s!"noop {m.endpoint} — already running"
    | .stopped => s!"noop {m.endpoint} — already stopped (status={before})")
  | core name, before => do
    log .debug s!"noop {name} already {before}" [("action", .str "noop"), ("service", .str name)]
    return { changed := false, action := .noop,
             before := some (BaseServiceManager.statusDict before),
             after := some (BaseServiceManager.statusDict before) }

def report : ServiceController → String → String → M EnsureResult
  | base m, before, after => do
    let action := target.verb.action
    log (BaseServiceManager.severity action) s!"{action.text} {m.endpoint}"
      (buildExtra action.text []
        { before := some (BaseServiceManager.statusDict before),
          after := some (BaseServiceManager.statusDict after), changed := some true })
    return { changed := true, action, before := some (BaseServiceManager.statusDict before),
             after := some (BaseServiceManager.statusDict after) }
  | core name, before, after => do
    let action := target.verb.action
    log .info s!"{action.text} {name}"
      [("action", .str action.text), ("service", .str name), ("before", .str before),
        ("after", .str after)]
    return { changed := true, action, before := some (BaseServiceManager.statusDict before),
             after := some (BaseServiceManager.statusDict after) }

/-- Both implementations steer the daemon. -/
theorem program_eq_steer : c.program target =
    Prog.steer c.status (· ∈ c.states target) (idle target c) (act target c) (report target c) := by
  cases c with
  | base m =>
    -- `_action` as the verb and what is reported behind it
    have hact : ∀ before, m.act target.verb false = act target (.base m) before >>= fun c =>
        m.status >>= fun after => report target (.base m) c after := by
      intro before
      simp only [BaseServiceManager.act, act, report, Prog.bind_bind_eq, Prog.pure_eq_ret,
        Prog.ret_bind]
      rfl
    cases target with
    | running =>
      show m.ensure "running" false = _
      rw [BaseServiceManager.ensure, if_neg (by decide), if_neg (by decide), Prog.steer]
      refine congrArg (m.status >>= ·) (funext fun before => ?_)
      rw [if_pos rfl]
      by_cases hbefore : before = "running"
      · rw [if_pos hbefore]
        exact (if_pos (List.mem_singleton.mpr hbefore)).symm
      · rw [if_neg hbefore]
        exact (hact before).trans (if_neg (mt List.mem_singleton.mp hbefore)).symm
    | stopped =>
      show m.ensure "stopped" false = _
      rw [BaseServiceManager.ensure, if_neg (by decide), if_neg (by decide), Prog.steer]
      refine congrArg (m.status >>= ·) (funext fun before => ?_)
      rw [if_neg (by decide)]
      by_cases hbefore : before ∈ ["stopped", "disabled", "unknown"]
      · rw [if_pos hbefore]
        exact (if_pos hbefore).symm
      · rw [if_neg hbefore]
        exact (hact before).trans (if_neg hbefore).symm
  | core name =>
    have hgoal : ∀ (noop verbs : M EnsureResult) (before : String),
        (if target.text = "running" ∧ before = "running" ∨
          target.text = "stopped" ∧ before ∈ ["stopped", "unknown"] then noop else verbs) =
        if before ∈ (core name).states target then noop else verbs := by
      intro noop verbs before
      refine if_congr ?_ rfl rfl
      cases target <;> simp [states, ServiceTarget.text]
    have hvalid : ¬(target.text ≠ "running" ∧ target.text ≠ "stopped" ∧
        target.text ≠ "restarted") := by
      cases target <;> decide
    have hverb : CoreServiceManager.verbFor target.text = target.verb := by
      cases target <;> rfl
    show CoreServiceManager.ensure name target.text false = _
    rw [CoreServiceManager.ensure, if_neg hvalid, hverb, Prog.steer]
    refine congrArg (CoreServiceManager.status name >>= ·) (funext fun before => ?_)
    rw [hgoal]
    by_cases hbefore : before ∈ (core name).states target
    · rw [if_pos hbefore, if_pos hbefore]
      rfl
    · rw [if_neg hbefore, if_neg hbefore, if_neg Bool.false_ne_true]
      simp only [act, report, Prog.bind_bind_eq, Prog.pure_eq_ret, Prog.ret_bind]
      rfl

variable {srv c target} {s s' : σ} {status : String} {t : List (Request × Reply)}

theorem statusIn_eq_some {r : Reply} :
    c.statusIn r = some status ↔ ∃ body, r = .ok body ∧ c.decode body = .ok status := by
  rcases r with exc | body
  · simp [statusIn]
  · rcases hbody : c.decode body with exc | status'
    · simp [statusIn, hbody, Except.toOption]
    · simp [statusIn, hbody, Except.toOption]

/-- Reading the status is one request. -/
theorem returns_status : c.status.Returns srv s status s' t ↔
    c.statusIn (srv c.statusRequest s).1 = some status ∧ s' = (srv c.statusRequest s).2 ∧
      t = [(c.statusRequest, (srv c.statusRequest s).1)] := by
  -- an awaited reply that is then decoded
  have hread : c.status.Returns srv s status s' t ↔
      ((await c.statusRequest) >>= fun body => .ofExcept (c.decode body)).Returns srv s status s'
        t := by
    cases c with
    | base m =>
      have hdecode : ∀ body, (Prog.ofExcept (asDict body) >>= fun fields =>
          Prog.ret (pyStr (Obj.getD fields "status" (.str "unknown"))) : M String) =
          .ofExcept ((base m).decode body) := by
        intro body
        cases hbody : asDict body <;> simp [decode, hbody, Prog.ofExcept]
      simp only [ServiceController.status, BaseServiceManager.status, Prog.pure_eq_ret, hdecode,
        Prog.returns_bind, returns_logError]
      rfl
    | core name =>
      have hdecode : ∀ body, (Prog.ofExcept (CoreServiceManager.rowsOf body) >>= fun rows =>
          Prog.ret (CoreServiceManager.statusOf name rows) : M String) =
          .ofExcept ((core name).decode body) := by
        intro body
        cases hbody : CoreServiceManager.rowsOf body <;> simp [decode, hbody, Prog.ofExcept]
      simp only [ServiceController.status, CoreServiceManager.status, CoreServiceManager.list,
        Prog.pure_eq_ret, Prog.bind_bind_eq, hdecode]
      rfl
  rw [hread, Prog.returns_bind, statusIn_eq_some]
  simp only [returns_await, Prog.returns_ofExcept]
  constructor
  · rintro ⟨body, s₁, t₁, t₂, ⟨hsrv, rfl⟩, ⟨hbody, rfl, rfl⟩, rfl⟩
    rw [hsrv]
    exact ⟨⟨body, rfl, hbody⟩, rfl, by simp⟩
  · rintro ⟨⟨body, hok, hbody⟩, rfl, rfl⟩
    exact ⟨body, _, _, [], ⟨Prod.ext hok rfl, rfl⟩, ⟨hbody, rfl, rfl⟩, by simp [hok]⟩

theorem run_status : c.status.run srv s = (.ok status, s') ↔
    c.statusIn (srv c.statusRequest s).1 = some status ∧ s' = (srv c.statusRequest s).2 := by
  constructor
  · intro h
    obtain ⟨hstatus, hstate, -⟩ := returns_status.mp (Prog.returns_of_run h)
    exact ⟨hstatus, hstate⟩
  · rintro ⟨hstatus, hstate⟩
    exact (returns_status.mpr ⟨hstatus, hstate, rfl⟩).1

theorem reads_status : Prog.Reads c.reading srv c.status := by
  intro s status s' t h
  obtain ⟨hstatus, -, rfl⟩ := returns_status.mp h
  have hreading : c.reading (c.statusRequest, (srv c.statusRequest s).1) = some status := by
    rw [← hstatus]
    exact if_pos rfl
  simp [lastReading, hreading]

/-- `_action` has posted the verb when the status before it could be read. -/
theorem run_act_base {m : BaseServiceManager} {before : String} :
    (∃ d, (act target (base m) before).run srv s = (.ok d, s')) ↔
      (∃ again, (base m).statusIn (srv m.statusRequest s).1 = some again) ∧
        ∃ v, srv (m.verbRequest target.verb) (srv m.statusRequest s).2 = (.ok v, s') := by
  constructor
  · rintro ⟨d, hd⟩
    obtain ⟨again, s₂, hagain, hrest⟩ := Prog.run_bind_eq_ok.mp hd
    obtain ⟨hstatus, rfl⟩ := run_status.mp (show (base m).status.run srv s = _ from hagain)
    obtain ⟨v, s₃, hverb, hret⟩ := Prog.run_bind_eq_ok.mp hrest
    rw [run_logError, run_await] at hverb
    cases hret
    exact ⟨⟨_, hstatus⟩, v, hverb⟩
  · rintro ⟨⟨again, hstatus⟩, v, hverb⟩
    have hread : (base m).status.run srv s = (.ok again, (srv m.statusRequest s).2) :=
      run_status.mpr ⟨hstatus, rfl⟩
    refine ⟨again, Prog.run_bind_eq_ok.mpr ⟨again, _, hread, ?_⟩⟩
    refine Prog.run_bind_eq_ok.mpr ⟨v, s', ?_, rfl⟩
    rw [run_logError, run_await]
    exact hverb

theorem run_act_core {name before : String} :
    (∃ d, (act target (core name) before).run srv s = (.ok d, s')) ↔
      ∃ v, srv (CoreServiceManager.verbRequest target.verb name) s = (.ok v, s') := by
  constructor
  · rintro ⟨d, hd⟩
    obtain ⟨v, s₂, hverb, hret⟩ := Prog.run_bind_eq_ok.mp hd
    rw [run_logError, run_await] at hverb
    cases hret
    exact ⟨v, hverb⟩
  · rintro ⟨v, hverb⟩
    refine ⟨before, Prog.run_bind_eq_ok.mpr ⟨v, s', ?_, rfl⟩⟩
    rw [run_logError, run_await]
    exact hverb

/-- The verb is taken to be done when its request did not fail. -/
theorem actedIn_iff_accepted : Prog.ActedIn srv c.status (· ∈ c.states target) (act target c) s s' ↔
    Accepted srv c target s s' := by
  have hfirst : Prog.ActedIn srv c.status (· ∈ c.states target) (act target c) s s' ↔
      ∃ before, (c.statusIn (srv c.statusRequest s).1 = some before ∧ before ∉ c.states target) ∧
        ∃ d, (act target c before).run srv (srv c.statusRequest s).2 = (.ok d, s') := by
    constructor
    · rintro ⟨before, s₁, d, hread, hnot, hact⟩
      obtain ⟨hstatus, rfl⟩ := run_status.mp hread
      exact ⟨before, ⟨hstatus, hnot⟩, d, hact⟩
    · rintro ⟨before, ⟨hstatus, hnot⟩, d, hact⟩
      exact ⟨before, _, d, run_status.mpr ⟨hstatus, rfl⟩, hnot, hact⟩
  rw [hfirst]
  cases c with
  | base m =>
    simp only [run_act_base, exists_and_right]
    rfl
  | core name =>
    simp only [run_act_core, exists_and_right]
    rfl

/-- An `ensure` fails or ends in its target exactly when the status behind an accepted verb is one
of the target's: that status is reported, and not looked at. -/
theorem ensure_reaches_target_iff (srv : Appliance σ) (c : ServiceController)
    (target : ServiceTarget) (s : σ) :
    Prog.EndsIn c.reading (· ∈ c.states target) srv (c.program target) s ↔
      ∀ s', Accepted srv c target s s' → ∀ after,
        c.statusIn (srv c.statusRequest s').1 = some after → after ∈ c.states target := by
  have hidle : ∀ before, Prog.Silent srv (idle target c before) := by
    intro before s
    cases c with
    | base m => exact ⟨_, rfl, rfl⟩
    | core name => exact ⟨_, rfl, rfl⟩
  have hreport : ∀ before after, Prog.Silent srv (report target c before after) := by
    intro before after s
    cases c with
    | base m => exact ⟨_, rfl, rfl⟩
    | core name => exact ⟨_, rfl, rfl⟩
  rw [program_eq_steer, Prog.endsIn_steer_iff reads_status hidle hreport]
  simp only [actedIn_iff_accepted, run_status, and_imp, forall_eq_apply_imp_iff]

end Runs

end ServiceController

/-- A daemon that is stopped whatever is asked of it. -/
def stuckDaemon : Appliance Unit := fun q s => (.ok (match q with
  | .get ep _ => if ep = (ServiceController.core "ntpd").statusEndpoint then
      .obj [("rows", .arr [.obj [("id", .str "ntpd"), ("running", .int 0)]])]
    else .obj [("status", .str "stopped")]
  | _ => .obj [("response", .str "OK")]), s)

/-- A monitored service and one of the core. -/
def stuckServices : List ServiceController := [.base MonitDaemonManager, .core "ntpd"]

theorem lastReading_stuck : ∀ c ∈ stuckServices,
    lastReading c.reading ((c.program .running).trace stuckDaemon ()) = some "stopped" := by
  simp only [stuckServices, List.forall_mem_cons, List.not_mem_nil, false_imp_iff, implies_true,
    and_true]
  exact ⟨rfl, rfl⟩

/-- Both report a start that has not happened. -/
theorem start_reported_stopped :
    (∀ c ∈ stuckServices, ∃ r, ((c.program .running).run stuckDaemon ()).1 = .ok r ∧
      r.changed = true ∧ r.action = .started) ∧
    (∀ c ∈ stuckServices,
      lastReading c.reading ((c.program .running).trace stuckDaemon ()) = some "stopped") ∧
    (∀ c ∈ stuckServices,
      ¬ Prog.EndsIn c.reading (· ∈ c.states .running) stuckDaemon (c.program .running) ()) := by
  have hstarted : ∀ c ∈ stuckServices, ∃ r, ((c.program .running).run stuckDaemon ()).1 = .ok r ∧
      r.changed = true ∧ r.action = .started := by
    simp only [stuckServices, List.forall_mem_cons, List.not_mem_nil, false_imp_iff, implies_true,
      and_true]
    exact ⟨⟨_, rfl, rfl, rfl⟩, ⟨_, rfl, rfl, rfl⟩⟩
  refine ⟨hstarted, lastReading_stuck, fun c hc hends => ?_⟩
  obtain ⟨r, hr, -⟩ := hstarted c hc
  rcases hends with ⟨e, he⟩ | ⟨status, hstatus, hmem⟩
  · cases hr.symm.trans he
  · cases (lastReading_stuck c hc).symm.trans hstatus
    have hstates : c.states .running = ["running"] := by cases c <;> rfl
    rw [hstates] at hmem
    exact absurd hmem (by decide)

end Opnsense
