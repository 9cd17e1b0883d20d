import Opnsense.FirmwareUpdate
import Opnsense.PluginSafety
import Opnsense.Interaction.Polling
import Mathlib.Algebra.Order.Floor.Ring
import Mathlib.Data.Rat.Floor

namespace Opnsense
open Interaction

/-- A Python int, or a float with its `repr`. -/
inductive Number where
  | int (n : ℤ)
  | float (value : ℚ) (repr : String)

namespace Number

def value : Number → ℚ
  | int n => n
  | float value _ => value

def text : Number → String
  | int n => toString n
  | float _ repr => repr

def json : Number → Json
  | int n => .int n
  | float _ repr => .float repr

def seconds (n : Number) : Seconds := ⟨n.value, n.text⟩

end Number

namespace PluginManager

section Turn

variable {α : Type} (timeout : Number) (interval : ℚ) (look : M Json) (ready : Obj → Option α)
  (expiring : Obj → List Event) (expired : Obj → Exc)

/-- What a round makes of a body; a late one is logged and raised. -/
def judge (waited : ℚ) (fields : Obj) : M (ℚ ⊕ α) :=
  match ready fields with
  | some a => return .inr a
  | none =>
    if timeout.value ≤ waited then (expiring fields).foldr .emit (.raise (expired fields))
    else .emit (.sleep interval) (.ret (.inl (waited + interval)))

/-- One round of `while True`. -/
def turn (waited : ℚ) : M (ℚ ⊕ α) := do
  let body ← look
  let fields ← .ofExcept (asDict body)
  judge timeout interval ready expiring expired waited fields

end Turn

def stillBusy (timeout : Number) : Exc :=
  timeoutError s!"firmware subsystem still busy after {timeout.text}s"

/-- `firmware job still {status!r} after {timeout}s` -/
def stillRunning (timeout : Number) (job : Obj) : Exc :=
  let status := pyRepr (job.getD "status" .null)
  timeoutError s!"firmware job still {status} after {timeout.text}s"

/-- `wait_for_idle` -/
def waitForIdleWithin (timeout : Number) (interval : ℚ) (rounds : ℕ) : M (Option Unit) :=
  Prog.loop (turn timeout interval (await runningRequest) isReady (fun _ => [])
    (fun _ => stillBusy timeout)) rounds 0

/-- `_wait_for_job` -/
def waitForJobWithin (timeout : Number) (interval : ℚ) (rounds : ℕ) : M (Option String) :=
  Prog.loop (turn timeout interval getStatus doneLog
    (fun _ => [.log ⟨.error, s!"firmware job timeout after {timeout.text}s",
      [("action", .str "job_timeout"), ("timeout", timeout.json)]⟩])
    (stillRunning timeout)) rounds 0

section Whole

variable {α σ : Type} {srv : Appliance σ} {timeout : ℤ} {interval : ℚ} {look : M Json}
  {ready : Obj → Option α} {late : Obj → M (Option α)} {expiring : Obj → List Event}
  {expired : Obj → Exc}

/-- Two programs with one result and one trace, whatever the state. -/
def Same {β : Type} (srv : Appliance σ) (p p' : M β) : Prop :=
  ∀ s, p.run srv s = p'.run srv s ∧ p.trace srv s = p'.trace srv s

theorem same_bind {β γ : Type} {f f' : β → M γ} (p : M β) (h : ∀ b, Same srv (f b) (f' b)) :
    Same srv (p >>= f) (p >>= f') := by
  intro s
  rw [Prog.run_bind, Prog.run_bind, Prog.trace_bind, Prog.trace_bind]
  rcases p.run srv s with ⟨e | b, s'⟩
  · exact ⟨rfl, rfl⟩
  · exact ⟨(h b s').1, congrArg _ (h b s').2⟩

/-- One poll and one round do the same when what follows them does. -/
theorem poll_same_round {fuel : ℕ} {waited : ℚ}
    (hlate : ∀ fields, late fields = (expiring fields).foldr .emit (.raise (expired fields)))
    (hnext : Same srv
      (match fuel with
        | 0 => return none
        | fuel + 1 => do
          .tell (.sleep interval)
          poll timeout interval look ready late fuel (waited + interval))
      (Prog.loop (turn (.int timeout) interval look ready expiring expired) fuel
        (waited + interval))) :
    Same srv (poll timeout interval look ready late fuel waited)
      (Prog.loop (turn (.int timeout) interval look ready expiring expired) (fuel + 1) waited) := by
  rw [poll_eq, Prog.loop, turn, bind_assoc]
  refine same_bind look fun body => ?_
  rw [bind_assoc]
  refine same_bind _ fun fields s => ?_
  unfold polled judge
  cases ready fields with
  | some a => exact ⟨rfl, rfl⟩
  | none =>
    by_cases hlimit : (timeout : ℚ) ≤ waited
    · simp [Number.value, hlimit, hlate, Prog.run_bind, Prog.trace_bind]
    · simp only [Number.value, hlimit, if_false]
      exact hnext s

/-- With a whole timeout the rounds of the loop are the polls of `poll`. -/
theorem poll_same_loop
    (hlate : ∀ fields, late fields = (expiring fields).foldr .emit (.raise (expired fields)))
    (fuel : ℕ) (waited : ℚ) : Same srv (poll timeout interval look ready late fuel waited)
      (Prog.loop (turn (.int timeout) interval look ready expiring expired) (fuel + 1) waited) := by
  induction fuel generalizing waited with
  | zero => exact poll_same_round hlate fun s => ⟨rfl, rfl⟩
  | succ fuel ih => exact poll_same_round hlate (ih (waited + interval))

theorem waitForIdle_same (timeout : ℤ) (interval : ℚ) (fuel : ℕ) :
    Same srv (waitForIdle timeout interval fuel)
      (waitForIdleWithin (.int timeout) interval (fuel + 1)) := by
  refine poll_same_loop ?_ fuel 0
  intro fields
  rfl

theorem waitForJob_same (timeout : ℤ) (interval : ℚ) (fuel : ℕ) :
    Same srv (waitForJob timeout interval fuel)
      (waitForJobWithin (.int timeout) interval (fuel + 1)) := by
  refine poll_same_loop ?_ fuel 0
  intro fields
  rfl

end Whole

end PluginManager

namespace FirmwareManager

/-- `_wait_job` -/
def waitJobWithin (timeout : Number) (interval : ℚ) (rounds : ℕ) : M (Option String) :=
  Prog.loop (PluginManager.turn timeout interval jobStatus PluginManager.doneLog (fun _ => [])
    (PluginManager.stillRunning timeout)) rounds 0

theorem waitJob_same {σ : Type} {srv : Appliance σ} (timeout : ℤ) (interval : ℚ) (rounds : ℕ) :
    PluginManager.Same srv (waitJob timeout interval rounds)
      (waitJobWithin (.int timeout) interval (rounds + 1)) := by
  refine PluginManager.poll_same_loop ?_ rounds 0
  intro fields
  rfl

def versionMissing (target : String) (timeout : Number) (last : String) : Exc :=
  let wanted := reprStr target
  let seen := reprStr last
  let seconds := timeout.text
  .opnsense
    { cls := .timeout
      message := s!"device did not report version {wanted} within {seconds}s (last: {seen})" }

/-- `wait_for_version` -/
def waitForVersionWithin (target : String) (timeout : Number) (interval : ℚ) :
    RebootWait String String :=
  { waitForVersion target 0 interval with
    lasts := fun waited => waited < timeout.value
    expired := versionMissing target timeout
    expired_timeout := fun _ => rfl }

/-- `wait_for_idle` -/
def waitForIdleWithin (timeout : Number) (interval : ℚ) : RebootWait Unit Unit :=
  { waitForIdle 0 interval with
    lasts := fun waited => waited < timeout.value
    expired := fun _ => PluginManager.stillBusy timeout
    expired_timeout := fun _ => rfl }

theorem waitForVersionWithin_int (target : String) (timeout : ℤ) (interval : ℚ) :
    waitForVersionWithin target (.int timeout) interval = waitForVersion target timeout interval :=
  rfl

theorem waitForIdleWithin_int (timeout : ℤ) (interval : ℚ) :
    waitForIdleWithin (.int timeout) interval = waitForIdle timeout interval := rfl

end FirmwareManager

/-- `ceil(timeout / interval)` -/
def periods (timeout interval : ℚ) : ℕ := ⌈timeout / interval⌉₊

theorem mul_lt_iff_lt_periods {timeout interval : ℚ} (hinterval : 0 < interval) (n : ℕ) :
    (n : ℚ) * interval < timeout ↔ n < periods timeout interval := by
  rw [periods, Nat.lt_ceil, lt_div_iff₀ hinterval]

/-- Given rounds enough, a poll loop makes at least `least` polls, and ends as one that may make
`allowed` of them. -/
def EndsInTime {α : Type} (least allowed : ℕ) (q : Request) (accepts : Reply → Option α)
    (replies : ℕ → Reply) (program : ℕ → M (Option α)) : Prop :=
  ∃ enough, ∀ rounds, enough ≤ rounds → ∃ polls, least ≤ polls ∧
    Prog.PollsOut q accepts replies allowed (isTimeoutError · = true) (program rounds) polls

namespace PluginManager

section Polls

variable {α : Type} {timeout : Number} {interval : ℚ} {look : M Json} {ready : Obj → Option α}
  {expiring : Obj → List Event} {expired : Obj → Exc} {q : Request} {bodies : ℕ → Obj}

/-- The reply with a body that is an object. -/
def answer (fields : Obj) : Reply := .ok (.obj fields)

/-- What a poll takes from a reply. -/
def taken (ready : Obj → Option α) : Reply → Option α
  | .ok (.obj fields) => ready fields
  | _ => none

theorem trace_judge {σ : Type} {srv : Appliance σ} (waited : ℚ) (fields : Obj) (s : σ) :
    (judge timeout interval ready expiring expired waited fields).trace srv s = [] := by
  unfold judge
  split
  · rfl
  · split
    · rw [Prog.trace_foldr_emit]
      rfl
    · rfl

/-- A round asks once, and goes on while another `interval` is left. -/
theorem turn_polls (hinterval : 0 < interval)
    (hlook : ∀ n, look.run (replaying fun n => answer (bodies n)) n = (answer (bodies n), n + 1))
    (htrace : ∀ n, look.trace (replaying fun n => answer (bodies n)) n = [(q, answer (bodies n))])
    (hexpired : ∀ fields, isTimeoutError (expired fields) = true) :
    Prog.PollBody q (taken ready) (fun n => answer (bodies n)) (periods timeout.value interval + 1)
      (isTimeoutError · = true) (turn timeout interval look ready expiring expired)
      (fun n waited => waited = n * interval ∧ n ≤ periods timeout.value interval) := by
  have hrun : ∀ n waited, (turn timeout interval look ready expiring expired waited).run
      (replaying fun n => answer (bodies n)) n =
      (judge timeout interval ready expiring expired waited (bodies n)).run
        (replaying fun n => answer (bodies n)) (n + 1) := by
    intro n waited
    rw [turn, Prog.run_bind_of_ok (hlook n)]
    rfl
  refine ⟨?_, ?_, ?_, ?_⟩
  · rintro n waited - -
    rw [turn, Prog.trace_bind_of_ok (hlook n), htrace]
    refine congrArg (List.cons _) ?_
    exact trace_judge waited (bodies n) (n + 1)
  · rintro n waited a - - ha
    have hready : ready (bodies n) = some a := ha
    rw [hrun, judge, hready]
    rfl
  · rintro n waited ⟨rfl, hn⟩ - hnone
    have hready : ready (bodies n) = none := hnone
    rw [hrun, judge, hready]
    have hlate : n * interval < timeout.value ↔ _ := mul_lt_iff_lt_periods hinterval n
    by_cases hlt : n < periods timeout.value interval
    · refine Or.inl ⟨n * interval + interval, ⟨by push_cast; ring, hlt⟩, ?_⟩
      rw [if_neg (not_le.mpr (hlate.mpr hlt))]
      rfl
    · have hle : timeout.value ≤ n * interval := not_lt.mp (mt hlate.mp hlt)
      refine Or.inr ⟨by omega, expired (bodies n), hexpired _, ?_⟩
      rw [if_pos hle, Prog.run_foldr_emit]
      rfl
  · rintro waited ⟨-, hle⟩
    omega

theorem endsInTime_loop (hinterval : 0 < interval)
    (hlook : ∀ n, look.run (replaying fun n => answer (bodies n)) n = (answer (bodies n), n + 1))
    (htrace : ∀ n, look.trace (replaying fun n => answer (bodies n)) n = [(q, answer (bodies n))])
    (hexpired : ∀ fields, isTimeoutError (expired fields) = true) :
    EndsInTime 1 (periods timeout.value interval + 1) q (taken ready) (fun n => answer (bodies n))
      fun rounds => Prog.loop (turn timeout interval look ready expiring expired) rounds 0 := by
  have hbody : Prog.PollBody q (taken ready) (fun n => answer (bodies n))
      (periods timeout.value interval + 1) (isTimeoutError · = true)
      (turn timeout interval look ready expiring expired) _ :=
    turn_polls hinterval hlook htrace hexpired
  refine ⟨periods timeout.value interval + 2, fun rounds hrounds => ?_⟩
  obtain ⟨polls, hout⟩ := hbody.pollsOut (t := 0) ⟨by simp, Nat.zero_le _⟩ hrounds
  exact ⟨polls, hout.pos (Nat.succ_pos _), hout⟩

end Polls

end PluginManager
/-- A body that is an object, or an outage that the waits through a reboot swallow. -/
abbrev Tolerated := Obj ⊕ { exc : Exc // isTransient exc = true }

def Tolerated.reply : Tolerated → Reply
  | .inl fields => .ok (.obj fields)
  | .inr outage => .error outage

namespace RebootWait

section Polls

variable {τ α : Type} {w : RebootWait τ α} {replies : ℕ → Tolerated} {allowed : ℕ}

/-- What a poll takes from a reply. -/
def taken (w : RebootWait τ α) : Reply → Option α
  | .ok body =>
    match w.judge body with
    | .ok (.inr a) => some a
    | _ => none
  | .error _ => none

theorem run_look_tolerated (replies : ℕ → Tolerated)
    (hjudge : ∀ fields, ∃ verdict, w.judge (.obj fields) = .ok verdict)
    (last : τ) (n : ℕ) :
    ∃ verdict, (w.look last).run (replaying fun n => (replies n).reply) n = (.ok verdict, n + 1) ∧
      w.taken (replies n).reply = verdict.getRight? := by
  rcases hreply : replies n with fields | ⟨e, htransient⟩
  · obtain ⟨verdict, hverdict⟩ := hjudge fields
    refine ⟨verdict, run_look_of_judged last ?_ hverdict, ?_⟩
    · rw [replaying, hreply]
      rfl
    · rw [Tolerated.reply, taken, hverdict]
      cases verdict <;> rfl
  · refine ⟨.inl last, run_look_of_transient last ?_ htransient, rfl⟩
    rw [replaying, hreply]
    rfl

theorem run_expire {β σ : Type} {srv : Appliance σ} (last : τ) (s : σ) :
    (w.expire last : M β).run srv s = (.error (w.expired last), s) := by
  rw [expire, Prog.run_foldr_emit]
  rfl

/-- The rounds of a wait that has `allowed` polls in time. -/
theorem turn_polls (hjudge : ∀ fields, ∃ verdict, w.judge (.obj fields) = .ok verdict)
    (htime : ∀ n, w.InTime n ↔ n < allowed) :
    Prog.PollBody w.request w.taken (fun n => (replies n).reply) allowed (isTimeoutError · = true)
      w.turn (fun n t => t.1 = n * w.interval ∧ (n = allowed → w.opens t.1 = false)) := by
  have hopens : ∀ n < allowed, w.opens (n * w.interval) = true :=
    fun n hn => ((htime n).mpr hn).1 n le_rfl
  refine ⟨?_, ?_, ?_, ?_⟩
  · rintro n ⟨waited, last⟩ ⟨rfl, -⟩ hn
    obtain ⟨verdict, hrun, -⟩ := run_look_tolerated replies hjudge last n
    rw [turn, if_pos (hopens n hn), Prog.trace_bind_of_ok hrun, trace_look]
    refine congrArg (List.cons _) ?_
    cases verdict with
    | inl last' =>
      show Prog.trace _ (if _ then _ else _) _ = _
      split
      · rfl
      · simp [expire]
    | inr a => rfl
  · rintro n ⟨waited, last⟩ a ⟨rfl, -⟩ hn ha
    obtain ⟨verdict, hrun, htaken⟩ := run_look_tolerated replies hjudge last n
    rw [turn, if_pos (hopens n hn), Prog.run_bind_of_ok hrun]
    cases verdict with
    | inl last' => cases ha.symm.trans htaken
    | inr a' =>
      have haa : some a = some a' := ha.symm.trans htaken
      cases haa
      rfl
  · rintro n ⟨waited, last⟩ ⟨rfl, -⟩ hn hnone
    obtain ⟨verdict, hrun, htaken⟩ := run_look_tolerated replies hjudge last n
    cases verdict with
    | inr a => cases hnone.symm.trans htaken
    | inl last' =>
      rw [turn, if_pos (hopens n hn), Prog.run_bind_of_ok hrun]
      obtain ⟨hopened, hlasted⟩ := (htime n).mpr hn
      by_cases hlasts : w.lasts (n * w.interval) = true
      · refine Or.inl ⟨(n * w.interval + w.interval, last'), ⟨?_, ?_⟩, ?_⟩
        · push_cast
          ring
        · -- no further poll is allowed, so the next look at the time closes the loop
          intro hlast
          by_contra hopen
          have hin : w.InTime (n + 1) := by
            refine ⟨fun j hj => ?_, fun j hj => ?_⟩
            · rcases Nat.le_succ_iff.mp hj with hj | rfl
              · exact hopened j hj
              · have hnext : ((n + 1 : ℕ) : ℚ) * w.interval = n * w.interval + w.interval := by
                  push_cast
                  ring
                rw [hnext]
                simpa using hopen
            · rcases Nat.lt_succ_iff_lt_or_eq.mp hj with hj | rfl
              · exact hlasted j hj
              · exact hlasts
          have := (htime (n + 1)).mp hin
          omega
        · show Prog.run _ (if _ then _ else _) _ = _
          rw [if_pos hlasts]
          rfl
      · refine Or.inr ⟨?_, w.expired last', w.expired_timeout last', ?_⟩
        · by_contra hne
          exact hlasts (((htime (n + 1)).mpr (by omega)).2 n (Nat.lt_succ_self n))
        · show Prog.run _ (if _ then _ else _) _ = _
          rw [if_neg hlasts, run_expire]
  · rintro ⟨waited, last⟩ ⟨-, hclosed⟩
    have hshut : ¬ w.opens waited = true := by simp [hclosed rfl]
    rw [turn, if_neg hshut]
    refine ⟨?_, w.expired last, w.expired_timeout last, run_expire last allowed⟩
    simp [expire]

theorem endsInTime_wait (hjudge : ∀ fields, ∃ verdict, w.judge (.obj fields) = .ok verdict)
    (htime : ∀ n, w.InTime n ↔ n < allowed) {least : ℕ} (hleast : least ≤ min 1 allowed) :
    EndsInTime least allowed w.request w.taken (fun n => (replies n).reply) w.wait := by
  refine ⟨allowed + 1, fun rounds hrounds => ?_⟩
  have hstart : 0 = allowed → w.opens 0 = false := by
    rintro rfl
    by_contra hopen
    have hin : w.InTime 0 := ⟨by simpa using hopen, by simp⟩
    exact absurd ((htime 0).mp hin) (lt_irrefl 0)
  have hbody : Prog.PollBody w.request w.taken (fun n => (replies n).reply) allowed
      (isTimeoutError · = true) w.turn _ := turn_polls hjudge htime
  obtain ⟨polls, hout⟩ := hbody.pollsOut (t := (0, w.start)) ⟨by simp, hstart⟩ hrounds
  refine ⟨polls, ?_, hout⟩
  rcases Nat.eq_zero_or_pos allowed with rfl | hpos
  · omega
  · have := hout.pos hpos
    omega

/-- The firmware waits look at the time behind a poll, and so make one more. -/
theorem inTime_iff_of_lasts {timeout : ℚ} (hopens : ∀ waited, w.opens waited = true)
    (hlasts : ∀ waited, w.lasts waited = true ↔ waited < timeout) (hinterval : 0 < w.interval)
    (n : ℕ) : w.InTime n ↔ n < periods timeout w.interval + 1 := by
  cases n with
  | zero => simp [InTime, hopens]
  | succ n =>
    rw [inTime_succ_iff hopens hlasts hinterval.le, mul_lt_iff_lt_periods hinterval]
    omega

end Polls

end RebootWait
/-- Every poll loop ends within its polls, and misses no reply that it waits for. -/
theorem poll_loops_end_in_time (timeout : Number) (interval : ℚ) (hinterval : 0 < interval)
    (bodies : ℕ → Obj) (replies : ℕ → Tolerated) :
    EndsInTime 1 (periods timeout.value interval + 1) PluginManager.runningRequest
      (PluginManager.taken PluginManager.isReady) (fun n => PluginManager.answer (bodies n))
      (PluginManager.waitForIdleWithin timeout interval) ∧
    EndsInTime 1 (periods timeout.value interval + 1) PluginManager.statusRequest
      (PluginManager.taken PluginManager.doneLog) (fun n => PluginManager.answer (bodies n))
      (PluginManager.waitForJobWithin timeout interval) ∧
    EndsInTime 1 (periods timeout.value interval + 1) FirmwareManager.jobRequest
      (PluginManager.taken PluginManager.doneLog) (fun n => PluginManager.answer (bodies n))
      (FirmwareManager.waitJobWithin timeout interval) ∧
    (∀ target, EndsInTime 1 (periods timeout.value interval + 1)
      (FirmwareManager.waitForVersionWithin target timeout interval).request
      (FirmwareManager.waitForVersionWithin target timeout interval).taken
      (fun n => (replies n).reply)
      (FirmwareManager.waitForVersionWithin target timeout interval).wait) ∧
    EndsInTime 1 (periods timeout.value interval + 1)
      (FirmwareManager.waitForIdleWithin timeout interval).request
      (FirmwareManager.waitForIdleWithin timeout interval).taken (fun n => (replies n).reply)
      (FirmwareManager.waitForIdleWithin timeout interval).wait ∧
    ∀ asyncTimeout checkEndpoint given,
      EndsInTime 0 (periods (given.getD asyncTimeout).value interval)
        (waitForReady asyncTimeout checkEndpoint given interval).request
        (waitForReady asyncTimeout checkEndpoint given interval).taken
        (fun n => (replies n).reply)
        (waitForReady asyncTimeout checkEndpoint given interval).wait := by
  have hbusy : ∀ _ : Obj, isTimeoutError (PluginManager.stillBusy timeout) = true := fun _ => rfl
  have hrunning : ∀ job, isTimeoutError (PluginManager.stillRunning timeout job) = true :=
    fun _ => rfl
  refine ⟨?_, ?_, ?_, fun target => ?_, ?_, fun asyncTimeout checkEndpoint given => ?_⟩
  · exact PluginManager.endsInTime_loop hinterval (fun n => rfl) (fun n => rfl) hbusy
  · refine PluginManager.endsInTime_loop hinterval (fun n => ?_) (fun n => ?_) hrunning
    · rw [PluginManager.getStatus, run_logError]
      rfl
    · rw [PluginManager.getStatus, trace_logError]
      rfl
  · exact PluginManager.endsInTime_loop hinterval (fun n => rfl) (fun n => rfl) hrunning
  · refine RebootWait.endsInTime_wait ?_ ?_ (by simp)
    · intro fields
      simp only [FirmwareManager.waitForVersionWithin, FirmwareManager.waitForVersion,
        FirmwareManager.versionBody]
      exact ⟨_, rfl⟩
    · exact RebootWait.inTime_iff_of_lasts (fun _ => rfl) (fun _ => decide_eq_true_iff) hinterval
  · refine RebootWait.endsInTime_wait ?_ ?_ (by simp)
    · intro fields
      exact ⟨_, rfl⟩
    · exact RebootWait.inTime_iff_of_lasts (fun _ => rfl) (fun _ => decide_eq_true_iff) hinterval
  · refine RebootWait.endsInTime_wait ?_ ?_ (Nat.zero_le _)
    · intro fields
      exact ⟨_, rfl⟩
    · intro n
      rw [RebootWait.inTime_waitForReady_iff asyncTimeout checkEndpoint given hinterval.le,
        mul_lt_iff_lt_periods hinterval]

/-- Five polls in ten seconds, three apart: a firmware that stays busy is polled at 0, 3, 6, 9
and 12 seconds. -/
theorem busy_firmware_polled_five_times : (0 : ℚ) < 3 ∧
    EndsInTime 1 5 PluginManager.runningRequest (PluginManager.taken PluginManager.isReady)
      (fun _ => PluginManager.answer [("status", .str "busy")])
      (PluginManager.waitForIdleWithin (.int 10) 3) := by
  have hperiods : periods (Number.int 10).value 3 = 4 := by
    rw [periods, Nat.ceil_eq_iff (by decide)]
    norm_num [Number.value]
  have hends := (poll_loops_end_in_time (.int 10) 3 (by norm_num)
    (fun _ => [("status", .str "busy")]) fun _ => .inl []).1
  rw [hperiods] at hends
  exact ⟨by norm_num, hends⟩

end Opnsense
