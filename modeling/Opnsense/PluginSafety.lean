import Mathlib.Data.Rat.Floor
import Mathlib.Tactic.Linarith
import Opnsense.Effects
import Opnsense.Plugin

namespace Opnsense
namespace PluginManager
open Interaction BaseManager

variable {σ : Type} {srv : Appliance σ} {s s' : σ} {t : List (Request × Reply)}
  {packageName : String} {settings : EnsureSettings} {want before installed : Bool}
  {fuel tries : ℕ}

/-- The installed state a reply shows. -/
def installedOf (packageName : String) (reply : Reply) : Except Exc Bool :=
  match reply with
  | .ok body => (pluginsOf body).map (installedIn packageName)
  | .error exc => .error exc

theorem run_isInstalled : (isInstalled packageName).run srv s =
    (installedOf packageName (srv infoRequest s).1, (srv infoRequest s).2) := by
  rcases hinfo : srv infoRequest s with ⟨exc | body, s'⟩
  · simp [isInstalled, listPlugins, installedOf, Prog.run_bind, hinfo]
  · cases hplugins : pluginsOf body <;>
      simp [isInstalled, listPlugins, installedOf, Prog.run_bind, hinfo, hplugins, Except.map]

theorem trace_isInstalled : (isInstalled packageName).trace srv s =
    [(infoRequest, (srv infoRequest s).1)] := by
  rcases hinfo : srv infoRequest s with ⟨exc | body, s'⟩
  · simp [isInstalled, listPlugins, Prog.run_bind, Prog.trace_bind, hinfo]
  · cases hplugins : pluginsOf body <;>
      simp [isInstalled, listPlugins, Prog.run_bind, Prog.trace_bind, hinfo, hplugins]

section Poll

variable {α : Type} {timeout : ℤ} {interval : ℚ} {q : Request} {look : M Json}
  {ready : Obj → Option α} {late : Obj → M (Option α)} {waited : ℚ}

/-- A class of errors that a well-behaved appliance leaves: of the firmware, or of the clock. -/
def FirmwareError (exc : Exc) : Prop :=
  ∃ e, exc = .opnsense e ∧ (e.cls = .server ∨ e.cls = .timeout)

/-- What a poll of `q` comes to: the body it ended with was ready, or it is not late yet, or it
failed, and then as a timeout unless a reply was no object. -/
structure PollOutcome (q : Request) (ready : Obj → Option α) (fuel : ℕ) (timeout : ℤ)
    (interval waited : ℚ) (o : Except Exc (Option α)) (t : List (Request × Reply)) : Prop where
  asks : ∀ qr ∈ t, qr.1 = q
  ready : ∀ a, o = .ok (some a) →
    ∃ before fields, t = before ++ [(q, .ok (.obj fields))] ∧ ready fields = some a
  unfinished : o = .ok none → ∀ k ≤ fuel, waited + k * interval < timeout
  failed : ∀ exc, o = .error exc → (∀ qr ∈ t, ∃ fields, qr.2 = .ok (.obj fields)) →
    FirmwareError exc

/-- What a poll does with a body that is an object. -/
def polled (timeout : ℤ) (interval : ℚ) (look : M Json) (ready : Obj → Option α)
    (late : Obj → M (Option α)) (fuel : ℕ) (waited : ℚ) (fields : Obj) : M (Option α) :=
  match ready fields with
  | some a => return some a
  | none =>
    if timeout ≤ waited then late fields
    else
      match fuel with
      | 0 => return none
      | fuel + 1 => do
        .tell (.sleep interval)
        poll timeout interval look ready late fuel (waited + interval)

theorem poll_eq : poll timeout interval look ready late fuel waited =
    look >>= fun body => .ofExcept (asDict body) >>=
      polled timeout interval look ready late fuel waited := by
  cases fuel <;> rfl

/-- A body that is an object, with the polls behind it. -/
theorem polled_outcome (hlate : ∀ fields s, ∃ exc, FirmwareError exc ∧
      (late fields).run srv s = (.error exc, s) ∧ (late fields).trace srv s = [])
    (hpoll : ∀ n, fuel = n + 1 → ∀ s, PollOutcome q ready n timeout interval (waited + interval)
      ((poll timeout interval look ready late n (waited + interval)).run srv s).1
      ((poll timeout interval look ready late n (waited + interval)).trace srv s))
    (fields : Obj) (s : σ) : PollOutcome q ready fuel timeout interval waited
      ((polled timeout interval look ready late fuel waited fields).run srv s).1
      ((q, .ok (.obj fields)) ::
        (polled timeout interval look ready late fuel waited fields).trace srv s) := by
  unfold polled
  cases hready : ready fields with
  | some a =>
    refine ⟨by simp, fun b hb => ?_, by simp, by simp⟩
    have hab : a = b := by simpa using hb
    exact ⟨[], fields, rfl, hab ▸ hready⟩
  | none =>
    by_cases hlimit : (timeout : ℚ) ≤ waited
    · obtain ⟨exc, hexc, hrun, htrace⟩ := hlate fields s
      simp only [if_pos hlimit, hrun, htrace]
      refine ⟨by simp, by simp, by simp, fun exc' h _ => ?_⟩
      cases h
      exact hexc
    · simp only [if_neg hlimit]
      cases fuel with
      | zero =>
        refine ⟨by simp, by simp, fun _ k hk => ?_, by simp⟩
        obtain rfl : k = 0 := by omega
        simpa using hlimit
      | succ n =>
        -- not late yet, and polled again after a pause
        obtain ⟨hasks, hready', hunfinished, hfailed⟩ := hpoll n rfl s
        refine ⟨List.forall_mem_cons.mpr ⟨rfl, hasks⟩, fun a ha => ?_, fun h k hk => ?_,
          fun exc h hwell => ?_⟩
        · obtain ⟨before, fields', htrace, hfields'⟩ := hready' a ha
          exact ⟨(q, .ok (.obj fields)) :: before, fields', congrArg (List.cons _) htrace, hfields'⟩
        · rcases k with _ | k
          · simpa using hlimit
          · have hstep := hunfinished h k (by omega)
            push_cast
            linarith
        · exact hfailed exc h (List.forall_mem_cons.mp hwell).2

theorem poll_outcome (hrun : ∀ s, look.run srv s = srv q s)
    (htrace : ∀ s, look.trace srv s = [(q, (srv q s).1)])
    (hlate : ∀ fields s, ∃ exc, FirmwareError exc ∧ (late fields).run srv s = (.error exc, s) ∧
      (late fields).trace srv s = []) (fuel : ℕ) (waited : ℚ) (s : σ) :
    PollOutcome q ready fuel timeout interval waited
      ((poll timeout interval look ready late fuel waited).run srv s).1
      ((poll timeout interval look ready late fuel waited).trace srv s) := by
  have hstep : ∀ fuel waited s, (∀ fields s, PollOutcome q ready fuel timeout interval waited
      ((polled timeout interval look ready late fuel waited fields).run srv s).1
      ((q, .ok (.obj fields)) ::
        (polled timeout interval look ready late fuel waited fields).trace srv s)) →
      PollOutcome q ready fuel timeout interval waited
        ((poll timeout interval look ready late fuel waited).run srv s).1
        ((poll timeout interval look ready late fuel waited).trace srv s) := by
    intro fuel waited s hpolled
    rw [poll_eq, Prog.run_bind, Prog.trace_bind, hrun, htrace]
    rcases hreply : srv q s with ⟨exc | body, s'⟩
    · refine ⟨by simp, by simp, by simp, fun exc' _ hwell => ?_⟩
      obtain ⟨fields, hfields⟩ := hwell (q, .error exc) (by simp)
      cases hfields
    · cases body with
      | obj fields => exact hpolled fields s'
      | _ =>
        refine ⟨by simp [asDict, Prog.ofExcept], by simp [asDict, Prog.ofExcept],
          by simp [asDict, Prog.ofExcept], fun exc' _ hwell => ?_⟩
        obtain ⟨fields, hfields⟩ := hwell _ (List.mem_append_left _ (List.mem_singleton_self _))
        cases hfields
  -- the time waited grows with every poll
  induction fuel generalizing waited s with
  | zero => exact hstep 0 waited s (polled_outcome hlate fun n hn => absurd hn (by omega))
  | succ fuel ih =>
    refine hstep (fuel + 1) waited s (polled_outcome hlate fun n hn s => ?_)
    obtain rfl : fuel = n := by omega
    exact ih (waited + interval) s

theorem idle_outcome (timeout : ℤ) (interval : ℚ) (fuel : ℕ) (s : σ) :
    PollOutcome runningRequest isReady fuel timeout interval 0
      ((waitForIdle timeout interval fuel).run srv s).1
      ((waitForIdle timeout interval fuel).trace srv s) :=
  poll_outcome (fun _ => run_await _) (fun _ => trace_await _)
    (fun _ _ => ⟨_, ⟨_, rfl, Or.inr rfl⟩, rfl, rfl⟩) fuel 0 s

theorem job_outcome (timeout : ℤ) (interval : ℚ) (fuel : ℕ) (s : σ) :
    PollOutcome statusRequest doneLog fuel timeout interval 0
      ((waitForJob timeout interval fuel).run srv s).1
      ((waitForJob timeout interval fuel).trace srv s) :=
  poll_outcome (fun _ => by simp [getStatus]) (fun _ => by simp [getStatus])
    (fun _ _ => ⟨_, ⟨_, rfl, Or.inr rfl⟩, rfl, rfl⟩) fuel 0 s

/-- With a positive interval, or a timeout that is over at once, the polls come to an end. -/
theorem exists_late {fuel : ℕ} (h : 0 < interval ∨ timeout ≤ 0)
    (hfuel : ⌈(timeout : ℚ) / interval⌉₊ ≤ fuel) :
    ∃ k ≤ fuel, (timeout : ℚ) ≤ 0 + (k : ℚ) * interval := by
  rcases h with hpos | hover
  · refine ⟨⌈(timeout : ℚ) / interval⌉₊, hfuel, ?_⟩
    have hceil : (timeout : ℚ) / interval ≤ (⌈(timeout : ℚ) / interval⌉₊ : ℚ) := Nat.le_ceil _
    rw [zero_add]
    exact (div_le_iff₀ hpos).mp hceil
  · refine ⟨0, Nat.zero_le _, ?_⟩
    simpa using hover

/-- Without a pause between its polls, a poll of a body that is never ready goes on. -/
theorem poll_goes_on {fields : Obj} (hlook : look.run srv s = (.ok (.obj fields), s))
    (hready : ready fields = none) (hlimit : waited < timeout) (fuel : ℕ) :
    (poll timeout 0 look ready late fuel waited).run srv s = (.ok none, s) := by
  have hearly : ¬ (timeout : ℚ) ≤ waited := not_le.mpr hlimit
  have hbody : ∀ fuel, (poll timeout 0 look ready late fuel waited).run srv s =
      (polled timeout 0 look ready late fuel waited fields).run srv s := by
    intro fuel
    rw [poll_eq, Prog.run_bind_of_ok hlook]
    rfl
  induction fuel with
  | zero =>
    rw [hbody]
    simp [polled, hready, hearly]
  | succ fuel ih =>
    rw [hbody]
    simp only [polled, hready, if_neg hearly, add_zero]
    exact ih

end Poll

section Phases

/-- A reply of the right kind for its request. -/
def WellFormed (packageName : String) (qr : Request × Reply) : Prop :=
  (qr.1 = infoRequest → ∃ b, installedOf packageName qr.2 = .ok b) ∧
  (qr.1 = runningRequest ∨ qr.1 = statusRequest → ∃ fields, qr.2 = .ok (.obj fields)) ∧
  ∃ v, qr.2 = .ok v

/-- Where the look at the packages fails on a reply, the reply is at fault. -/
theorem not_wellFormed_of_error {reply : Reply} {exc : Exc}
    (h : installedOf packageName reply = .error exc) :
    ¬ WellFormed packageName (infoRequest, reply) := by
  rintro ⟨hinfo, -⟩
  obtain ⟨b, hb⟩ := hinfo rfl
  rw [h] at hb
  cases hb

/-- The log carries none of the refusals. -/
def Unrefused (jobLog : String) : Prop :=
  ∀ r ∈ refusals, contains r.1.toList jobLog.toList = false

theorem run_verdict (jobLog : String) (s : σ) : (verdict packageName jobLog).trace srv s = [] ∧
    ((verdict packageName jobLog).run srv s = (.ok (), s) ∧ Unrefused jobLog ∨
      ∃ exc, FirmwareError exc ∧ (verdict packageName jobLog).run srv s = (.error exc, s)) := by
  unfold verdict
  split
  · rename_i hnone
    refine ⟨rfl, Or.inl ⟨rfl, fun r hr => ?_⟩⟩
    simpa using List.find?_eq_none.mp hnone r hr
  · exact ⟨rfl, Or.inr ⟨_, ⟨_, rfl, Or.inl rfl⟩, rfl⟩⟩

/-- Reading again ends with the wanted state, or with what the last look showed. -/
theorem reread_outcome (verifyInterval : ℚ) (tries : ℕ) (installed : Bool) (s : σ)
    {last : Reply} (hlast : installedOf packageName last = .ok installed) :
    let p := reread packageName want verifyInterval tries installed
    (∀ qr ∈ p.trace srv s, qr.1 = infoRequest) ∧
    (∀ b, (p.run srv s).1 = .ok b → ∃ final,
      ((infoRequest, last) :: p.trace srv s).getLast? = some (infoRequest, final) ∧
        installedOf packageName final = .ok b) ∧
    ((∀ qr ∈ p.trace srv s, WellFormed packageName qr) → ∃ b, (p.run srv s).1 = .ok b) := by
  -- `last` is the reply that `installed` was read from
  induction tries generalizing installed s last with
  | zero => exact ⟨by simp [reread], fun b hb => ⟨last, rfl, by rw [hlast]; exact hb⟩,
      fun _ => ⟨installed, rfl⟩⟩
  | succ tries ih =>
    by_cases hwant : installed = want
    · intro p
      have hp : p = .ret installed := if_pos hwant
      rw [hp]
      exact ⟨by simp, fun b hb => ⟨last, rfl, by rw [hlast]; exact hb⟩, fun _ => ⟨installed, rfl⟩⟩
    · -- one more look, and what is left of the tries
      intro p
      have hp : p = .emit (.sleep verifyInterval) (isInstalled packageName >>=
          reread packageName want verifyInterval tries) := if_neg hwant
      rw [hp, Prog.run_emit, Prog.trace_emit, Prog.run_bind, Prog.trace_bind, run_isInstalled,
        trace_isInstalled]
      cases hshown : installedOf packageName (srv infoRequest s).1 with
      | error exc =>
        refine ⟨by simp, by simp, fun hwell => ?_⟩
        have hlook := hwell _ (List.mem_append_left _ (List.mem_singleton_self _))
        exact absurd hlook (not_wellFormed_of_error hshown)
      | ok b =>
        obtain ⟨hasks, hfinal, hok⟩ := ih b (srv infoRequest s).2 hshown
        refine ⟨List.forall_mem_cons.mpr ⟨rfl, hasks⟩, fun b' hb' => ?_, fun hwell => ?_⟩
        · obtain ⟨final, hgetLast, hstate⟩ := hfinal b' hb'
          refine ⟨final, ?_, hstate⟩
          rw [List.singleton_append, List.getLast?_cons_cons]
          exact hgetLast
        · exact hok (List.forall_mem_cons.mp hwell).2

/-- The end of `verify`, over the state read last. -/
def conclude (packageName : String) (want before : Bool) (jobLog : String) (installed : Bool) :
    M EnsureResult := do
  let action := (actionOf want).text
  if installed ≠ want then
    let lines := splitlines jobLog
    let tail := " | ".intercalate
      (((lines.drop (lines.length - 4)).filter fun ln => !(strip ln).isEmpty).map String.ofList)
    let still := if want then "absent" else "installed"
    log .error s!"plugin {packageName}: job done but state unchanged"
      [("action", .str s!"{action}_failed"), ("package", .str packageName),
        ("log_tail", .str tail)]
    .raise (serverError (s!"{packageName}: firmware job reported done but the package is still " ++
      s!"{still} — job log tail: {tail}"))
  else do
    log .info s!"{action} {packageName}"
      [("action", .str action), ("package", .str packageName)]
    return resultOf want before installed

theorem verify_eq (before : Bool) (jobLog : String) :
    verify packageName settings want before jobLog = verdict packageName jobLog >>= fun _ =>
      isInstalled packageName >>= fun installed =>
        reread packageName want settings.verifyInterval settings.verifyRetries.toNat installed >>=
          conclude packageName want before jobLog := rfl

theorem run_conclude (before : Bool) (jobLog : String) (installed : Bool) (s : σ) :
    (conclude packageName want before jobLog installed).trace srv s = [] ∧
    (installed = want ∧ (conclude packageName want before jobLog installed).run srv s =
        (.ok (resultOf want before installed), s) ∨
      ∃ exc, FirmwareError exc ∧
        (conclude packageName want before jobLog installed).run srv s = (.error exc, s)) := by
  unfold conclude
  by_cases hwant : installed = want
  · have hsame : ¬ installed ≠ want := fun h => h hwant
    simp only [if_neg hsame]
    exact ⟨rfl, Or.inl ⟨hwant, rfl⟩⟩
  · simp only [if_pos (show installed ≠ want from hwant)]
    exact ⟨rfl, Or.inr ⟨_, ⟨_, rfl, Or.inl rfl⟩, rfl⟩⟩

/-- The looks of `verify` behind its first one, and what it concludes from the last. -/
theorem reread_conclude_outcome (before : Bool) (jobLog : String) (installed : Bool) (s : σ)
    {last : Reply} (hlast : installedOf packageName last = .ok installed) :
    let p := reread packageName want settings.verifyInterval settings.verifyRetries.toNat
      installed >>= conclude packageName want before jobLog
    (∀ qr ∈ p.trace srv s, qr.1 = infoRequest) ∧
    (∀ r, (p.run srv s).1 = .ok r → r.changed = true ∧ ∃ final,
      ((infoRequest, last) :: p.trace srv s).getLast? = some (infoRequest, final) ∧
        installedOf packageName final = .ok want) ∧
    ∀ exc, (p.run srv s).1 = .error exc → (∀ qr ∈ p.trace srv s, WellFormed packageName qr) →
      FirmwareError exc := by
  intro p
  obtain ⟨hasks, hfinal, hok⟩ := @reread_outcome _ srv packageName want
    settings.verifyInterval settings.verifyRetries.toNat installed s last hlast
  rcases hreread : (reread packageName want settings.verifyInterval settings.verifyRetries.toNat
    installed).run srv s with ⟨exc | b, s'⟩
  · rw [Prog.run_bind_of_error hreread, Prog.trace_bind_of_error hreread]
    refine ⟨hasks, by simp, fun exc' _ hwell => ?_⟩
    obtain ⟨b, hb⟩ := hok hwell
    rw [hreread] at hb
    cases hb
  · -- the last look decides
    obtain ⟨final, hgetLast, hstate⟩ := hfinal b (by rw [hreread])
    obtain ⟨hquiet, hconclude⟩ := @run_conclude _ srv packageName want before jobLog b s'
    rw [Prog.run_bind_of_ok hreread, Prog.trace_bind_of_ok hreread, hquiet, List.append_nil]
    rcases hconclude with ⟨rfl, hrun⟩ | ⟨exc, hexc, hrun⟩
    · rw [hrun]
      refine ⟨hasks, fun r hr => ?_, by simp⟩
      cases hr
      exact ⟨rfl, final, hgetLast, hstate⟩
    · rw [hrun]
      refine ⟨hasks, by simp, fun exc' h _ => ?_⟩
      cases h
      exact hexc

/-- The check of a finished job: it passes when the log carries no refusal and the last look at
the packages shows the wanted state. -/
theorem verify_outcome (before : Bool) (jobLog : String) (s : σ) :
    let p := verify packageName settings want before jobLog
    (∀ qr ∈ p.trace srv s, qr.1 = infoRequest) ∧
    (∀ r, (p.run srv s).1 = .ok r → r.changed = true ∧ Unrefused jobLog ∧
      ∃ final, (p.trace srv s).getLast? = some (infoRequest, final) ∧
        installedOf packageName final = .ok want) ∧
    ∀ exc, (p.run srv s).1 = .error exc → (∀ qr ∈ p.trace srv s, WellFormed packageName qr) →
      FirmwareError exc := by
  intro p
  obtain ⟨hquiet, ⟨hverdict, hlog⟩ | ⟨exc, hexc, hverdict⟩⟩ :=
    @run_verdict _ srv packageName jobLog s
  swap
  · -- the log carries a refusal
    have hrun : p.run srv s = (.error exc, s) := Prog.run_bind_of_error hverdict _
    have htrace : p.trace srv s = [] := (Prog.trace_bind_of_error hverdict _).trans hquiet
    rw [hrun, htrace]
    refine ⟨by simp, by simp, fun exc' h _ => ?_⟩
    cases h
    exact hexc
  have hp : p = _ := verify_eq before jobLog
  rw [hp, Prog.run_bind_of_ok hverdict, Prog.trace_bind_of_ok hverdict, hquiet, List.nil_append]
  cases hshown : installedOf packageName (srv infoRequest s).1 with
  | error exc =>
    have hlook : (isInstalled packageName).run srv s = (.error exc, (srv infoRequest s).2) := by
      rw [run_isInstalled, hshown]
    rw [Prog.run_bind_of_error hlook, Prog.trace_bind_of_error hlook, trace_isInstalled]
    refine ⟨by simp, by simp, fun exc' _ hwell => ?_⟩
    exact absurd (hwell _ (List.mem_singleton_self _)) (not_wellFormed_of_error hshown)
  | ok b =>
    have hlook : (isInstalled packageName).run srv s = (.ok b, (srv infoRequest s).2) := by
      rw [run_isInstalled, hshown]
    obtain ⟨hasks, hok, hfailed⟩ := @reread_conclude_outcome _ srv packageName settings want before
      jobLog b (srv infoRequest s).2 _ hshown
    rw [Prog.run_bind_of_ok hlook, Prog.trace_bind_of_ok hlook, trace_isInstalled,
      List.singleton_append]
    refine ⟨List.forall_mem_cons.mpr ⟨rfl, hasks⟩, fun r hr => ?_, fun exc h hwell => ?_⟩
    · obtain ⟨hchanged, hfinal⟩ := hok r hr
      exact ⟨hchanged, hlog, hfinal⟩
    · exact hfailed exc h (List.forall_mem_cons.mp hwell).2

end Phases

section Jobs

/-- Requests that start no job. -/
def looks (q : Request) : Prop := q = infoRequest ∨ q = runningRequest ∨ q = statusRequest

theorem not_isWrite_of_looks {q : Request} (h : looks q) : ¬ q.isWrite = true := by
  rcases h with rfl | rfl | rfl <;> simp [infoRequest, runningRequest, statusRequest,
    Request.isWrite]

/-- What was read behind a job: a finished log without a refusal, and at last the wanted state. -/
def VerifiedBy (packageName : String) (want : Bool) (rest : List (Request × Reply)) : Prop :=
  ∃ fields jobLog final, (statusRequest, .ok (.obj fields)) ∈ rest ∧
    doneLog fields = some jobLog ∧ Unrefused jobLog ∧
    rest.getLast? = some (infoRequest, final) ∧ installedOf packageName final = .ok want

theorem run_fire (s : σ) :
    (fire want packageName).run srv s = srv (jobRequest want packageName) s ∧
      (fire want packageName).trace srv s =
        [(jobRequest want packageName, (srv (jobRequest want packageName) s).1)] := by
  rcases hjob : srv (jobRequest want packageName) s with ⟨exc | v, s'⟩ <;>
    simp [fire, Prog.run_bind, Prog.trace_bind, hjob]

/-- What follows on the job that was fired. -/
def awaitJob (packageName : String) (settings : EnsureSettings) (want : Bool) (fuel : ℕ)
    (before : Bool) : M (Option EnsureResult) :=
  if settings.wait then
    waitForJob settings.timeout settings.interval fuel >>= fun
      | none => return none
      | some jobLog => verify packageName settings want before jobLog >>= fun r => return some r
  else return some (resultOf want before want)

theorem runJob_eq (before : Bool) : runJob packageName settings want fuel before =
    fire want packageName >>= fun _ => awaitJob packageName settings want fuel before := by
  unfold runJob awaitJob
  rfl

/-- The outcomes of a part of `ensure`: a change that is verified if it was waited for, one that
is not finished within the fuel, or an error of the firmware unless a reply was malformed. -/
structure JobOutcome (packageName : String) (settings : EnsureSettings) (want : Bool) (fuel : ℕ)
    (o : Except Exc (Option EnsureResult)) (verified : Prop) (t : List (Request × Reply)) :
    Prop where
  changed : ∀ r, o = .ok (some r) → r.changed = true ∧ (settings.wait = true → verified)
  unfinished : o = .ok none → ∀ k ≤ fuel, 0 + (k : ℚ) * settings.interval < settings.timeout
  failed : ∀ exc, o = .error exc → (∀ qr ∈ t, WellFormed packageName qr) → FirmwareError exc

theorem awaitJob_outcome (before : Bool) (s : σ) :
    let p := awaitJob packageName settings want fuel before
    (∀ qr ∈ p.trace srv s, looks qr.1) ∧
    JobOutcome packageName settings want fuel (p.run srv s).1
      (VerifiedBy packageName want (p.trace srv s)) (p.trace srv s) := by
  intro p
  by_cases hwait : settings.wait = true
  swap
  -- a caller that does not wait is told the wanted state
  · have hp : p = .ret (some (resultOf want before want)) := if_neg hwait
    rw [hp]
    refine ⟨by simp, fun r hr => ?_, by simp, by simp⟩
    cases hr
    exact ⟨rfl, fun h => absurd h hwait⟩
  have hp : p = waitForJob settings.timeout settings.interval fuel >>= fun
      | none => return none
      | some jobLog => verify packageName settings want before jobLog >>= fun r => return some r :=
    if_pos hwait
  obtain ⟨hasks, hready, hunfinished, hfailed⟩ :=
    @job_outcome _ srv settings.timeout settings.interval fuel s
  have hlooks : ∀ qr ∈ (waitForJob settings.timeout settings.interval fuel).trace srv s,
      looks qr.1 := fun qr hqr => Or.inr (Or.inr (hasks qr hqr))
  rcases hjob : (waitForJob settings.timeout settings.interval fuel).run srv s with
    ⟨exc | _ | jobLog, s'⟩
  · rw [hp, Prog.run_bind_of_error hjob, Prog.trace_bind_of_error hjob]
    refine ⟨hlooks, by simp, by simp, fun exc' h hwell => ?_⟩
    cases h
    refine hfailed exc (by rw [hjob]) fun qr hqr => ?_
    exact (hwell qr hqr).2.1 (Or.inr (hasks qr hqr))
  · rw [hp, Prog.run_bind_of_ok hjob, Prog.trace_bind_of_ok hjob]
    refine ⟨by simpa using hlooks, by simp, fun _ => hunfinished (by rw [hjob]), by simp⟩
  · obtain ⟨polled, fields, htrace, hdone⟩ := hready jobLog (by rw [hjob])
    obtain ⟨hasks', hok', hfailed'⟩ := @verify_outcome _ srv packageName settings want
      before jobLog s'
    have hlooks' : ∀ qr ∈ (verify packageName settings want before jobLog).trace srv s',
        looks qr.1 := fun qr hqr => Or.inl (hasks' qr hqr)
    rw [hp, Prog.run_bind_of_ok hjob, Prog.trace_bind_of_ok hjob]
    rcases hverify : (verify packageName settings want before jobLog).run srv s' with
      ⟨exc | r, s''⟩
    · simp only [Prog.run_bind_of_error hverify, Prog.trace_bind_of_error hverify]
      refine ⟨List.forall_mem_append.mpr ⟨hlooks, hlooks'⟩, by simp, by simp,
        fun exc' h hwell => ?_⟩
      cases h
      exact hfailed' exc (by rw [hverify]) (List.forall_mem_append.mp hwell).2
    · obtain ⟨hchanged, hlog, final, hgetLast, hstate⟩ := hok' r (by rw [hverify])
      simp only [Prog.run_bind_of_ok hverify, Prog.trace_bind_of_ok hverify]
      rw [show (pure (some r) : M _).trace srv s'' = [] from rfl, List.append_nil]
      refine ⟨List.forall_mem_append.mpr ⟨hlooks, hlooks'⟩, fun r' hr' => ?_, by simp, by simp⟩
      cases hr'
      refine ⟨hchanged, fun _ => ⟨fields, jobLog, final, ?_, hdone, hlog, ?_, hstate⟩⟩
      · rw [htrace]
        simp
      · rw [List.getLast?_append, hgetLast]
        rfl

/-- A job is fired outside check mode, once, for a package first seen in the other state, and
right after the firmware subsystem was seen ready. -/
def FiresOnce (packageName : String) (want checkMode : Bool) (t : List (Request × Reply)) : Prop :=
  ∀ pre qr post, t = pre ++ qr :: post → qr.1.isWrite = true →
    checkMode = false ∧ qr.1 = jobRequest want packageName ∧
    (∀ qr' ∈ pre ++ post, ¬ qr'.1.isWrite = true) ∧
    (∃ first rest, pre = (infoRequest, first) :: rest ∧
      installedOf packageName first = .ok (!want)) ∧
    ∃ fields, pre.getLast? = some (runningRequest, .ok (.obj fields)) ∧
      Obj.text fields "status" = "ready"

theorem firesOnce_of_looks {checkMode : Bool} (h : ∀ qr ∈ t, looks qr.1) :
    FiresOnce packageName want checkMode t := by
  rintro pre qr post rfl hwrite
  exact absurd hwrite (not_isWrite_of_looks (h qr (by simp)))

theorem firesOnce_of_job {first reply : Reply} {polled rest : List (Request × Reply)}
    {fields : Obj} (hfirst : installedOf packageName first = .ok (!want))
    (hpolled : ∀ qr ∈ polled, looks qr.1) (hready : Obj.text fields "status" = "ready")
    (hrest : ∀ qr ∈ rest, looks qr.1) :
    FiresOnce packageName want false ((infoRequest, first) :: (polled ++
      [(runningRequest, .ok (.obj fields))]) ++ (jobRequest want packageName, reply) :: rest) := by
  intro pre qr post heq hwrite
  have hbefore : ∀ qr ∈ (infoRequest, first) :: (polled ++ [(runningRequest, .ok (.obj fields))]),
      ¬ qr.1.isWrite = true := by
    refine List.forall_mem_cons.mpr ⟨not_isWrite_of_looks (Or.inl rfl), ?_⟩
    refine List.forall_mem_append.mpr ⟨fun qr hqr => not_isWrite_of_looks (hpolled qr hqr), ?_⟩
    exact List.forall_mem_singleton.mpr (not_isWrite_of_looks (Or.inr (Or.inl rfl)))
  have hafter : ∀ qr ∈ rest, ¬ qr.1.isWrite = true :=
    fun qr hqr => not_isWrite_of_looks (hrest qr hqr)
  -- the job is the only write
  obtain ⟨rfl, rfl, rfl⟩ := (List.append_cons_inj_of_notMem
    (fun hmem => hbefore qr hmem hwrite) (fun hmem => hafter qr hmem hwrite)).mp heq
  refine ⟨rfl, rfl, List.forall_mem_append.mpr ⟨hbefore, hafter⟩, ⟨first, _, rfl, hfirst⟩, fields,
    ?_, hready⟩
  rw [← List.cons_append, List.getLast?_concat]

/-- What holds of every call, whatever the replies. -/
structure JobSafe (packageName : String) (settings : EnsureSettings) (state : String) (fuel : ℕ)
    (o : Except Exc (Option EnsureResult)) (t : List (Request × Reply)) : Prop where
  fires : FiresOnce packageName (decide (state = "present")) settings.checkMode t
  unchanged : ∀ r, o = .ok (some r) → r.changed = false → ∃ first,
    t = [(infoRequest, first)] ∧ installedOf packageName first = .ok (decide (state = "present"))
  verified : ∀ r, o = .ok (some r) → r.changed = true → settings.wait = true →
    settings.checkMode = false → ∃ pre reply rest,
      t = pre ++ (jobRequest (decide (state = "present")) packageName, reply) :: rest ∧
        VerifiedBy packageName (decide (state = "present")) rest
  ends : state = "present" ∨ state = "absent" → (0 < settings.interval ∨ settings.timeout ≤ 0) →
    ⌈(settings.timeout : ℚ) / settings.interval⌉₊ ≤ fuel →
    (∀ qr ∈ t, WellFormed packageName qr) →
      (∃ r, o = .ok (some r)) ∨ ∃ exc, o = .error exc ∧ FirmwareError exc

/-- The job is fired once the subsystem was seen ready, and followed if the caller waits for it. -/
theorem runJob_safe {state : String} {first : Reply} {polled : List (Request × Reply)}
    {fields : Obj} {s : σ} (hlive : settings.checkMode = false)
    (hfirst : installedOf packageName first = .ok (!decide (state = "present")))
    (hpolled : ∀ qr ∈ polled, looks qr.1) (hstatus : Obj.text fields "status" = "ready")
    (before : Bool) :
    let p := runJob packageName settings (decide (state = "present")) fuel before
    JobSafe packageName settings state fuel (p.run srv s).1
      ((infoRequest, first) :: (polled ++ [(runningRequest, .ok (.obj fields))]) ++
        p.trace srv s) := by
  intro p
  have hp : p = _ := runJob_eq before
  obtain ⟨hfire, hfired⟩ := @run_fire _ srv packageName (decide (state = "present")) s
  rw [hp]
  rcases hjob : srv (jobRequest (decide (state = "present")) packageName) s with ⟨exc | v, s'⟩
  · rw [hjob] at hfire hfired
    rw [Prog.run_bind_of_error hfire, Prog.trace_bind_of_error hfire, hfired]
    have hfires := @firesOnce_of_job packageName (decide (state = "present")) first
      (.error exc) polled [] fields hfirst hpolled hstatus (by simp)
    refine ⟨hlive ▸ hfires, by simp, by simp, fun _ _ _ hwell => ?_⟩
    -- the post of the job itself was answered with an error
    obtain ⟨v, hv⟩ := (hwell (jobRequest (decide (state = "present")) packageName, .error exc)
      (List.mem_append_right _ (List.mem_singleton_self _))).2.2
    cases hv
  · rw [hjob] at hfire hfired
    rw [Prog.run_bind_of_ok hfire, Prog.trace_bind_of_ok hfire, hfired, List.singleton_append]
    obtain ⟨hlooks, hchanged, hunfinished, hfailed⟩ := @awaitJob_outcome _ srv
      packageName settings (decide (state = "present")) fuel before s'
    have hfires := @firesOnce_of_job packageName (decide (state = "present")) first
      (.ok v) polled _ fields hfirst hpolled hstatus hlooks
    refine ⟨hlive ▸ hfires, fun r hr hsame => ?_, fun r hr _ hwait _ => ?_,
      fun _ hpace hfuel hwell => ?_⟩
    · obtain ⟨hchange, -⟩ := hchanged r hr
      rw [hchange] at hsame
      cases hsame
    · obtain ⟨-, hverified⟩ := hchanged r hr
      exact ⟨_, .ok v, _, rfl, hverified hwait⟩
    · rcases hawait : ((awaitJob packageName settings (decide (state = "present")) fuel
        before).run srv s').1 with exc | _ | r
      · refine Or.inr ⟨exc, rfl, hfailed exc hawait fun qr hqr => hwell qr ?_⟩
        exact List.mem_append_right _ (List.mem_cons_of_mem _ hqr)
      · -- the deadline passes within the fuel
        obtain ⟨k, hk, hlate⟩ := exists_late hpace hfuel
        exact absurd hlate (not_le.mpr (hunfinished hawait k hk))
      · exact Or.inl ⟨r, rfl⟩

/-- In check mode nothing follows the first look. -/
theorem change_checked {state : String} {first : Reply} {s : σ} (hcheck : settings.checkMode = true)
    (before : Bool) :
    let p := change packageName settings (decide (state = "present")) fuel before
    JobSafe packageName settings state fuel (p.run srv s).1
      ([(infoRequest, first)] ++ p.trace srv s) := by
  intro p
  have hrun : p.run srv s = (.ok (some (resultOf (decide (state = "present")) before
      (decide (state = "present")))), s) := by
    rw [show p = _ from if_pos hcheck]
    rfl
  have htrace : p.trace srv s = [] := by
    rw [show p = _ from if_pos hcheck]
    rfl
  rw [hrun, htrace, List.append_nil]
  refine ⟨firesOnce_of_looks (List.forall_mem_singleton.mpr (Or.inl rfl)), fun _ hr hchanged => ?_,
    fun _ _ _ _ h => ?_, fun _ _ _ _ => Or.inl ⟨_, rfl⟩⟩
  · cases hr
    cases hchanged
  · rw [hcheck] at h
    cases h

/-- The part of a call behind the first look, for a package in the other state. -/
theorem change_safe {state : String} {first : Reply} {s : σ}
    (hfirst : installedOf packageName first = .ok (!decide (state = "present"))) (before : Bool) :
    let p := change packageName settings (decide (state = "present")) fuel before
    JobSafe packageName settings state fuel (p.run srv s).1
      ([(infoRequest, first)] ++ p.trace srv s) := by
  intro p
  have hinfo : looks infoRequest := Or.inl rfl
  by_cases hcheck : settings.checkMode = true
  · exact change_checked hcheck before
  have hp : p = _ := if_neg hcheck
  have hlive : settings.checkMode = false := Bool.not_eq_true _ ▸ hcheck
  obtain ⟨hasks, hready, hunfinished, hfailed⟩ :=
    @idle_outcome _ srv settings.timeout settings.interval fuel s
  have hlooks : ∀ qr ∈ (waitForIdle settings.timeout settings.interval fuel).trace srv s,
      looks qr.1 := fun qr hqr => Or.inr (Or.inl (hasks qr hqr))
  rcases hidle : (waitForIdle settings.timeout settings.interval fuel).run srv s with
    ⟨exc | _ | ⟨⟩, s'⟩
  · -- the subsystem did not become idle in time
    rw [hp, Prog.run_bind_of_error hidle, Prog.trace_bind_of_error hidle]
    refine ⟨firesOnce_of_looks (List.forall_mem_cons.mpr ⟨hinfo, hlooks⟩), by simp, by simp,
      fun _ _ _ hwell => Or.inr ⟨exc, rfl, ?_⟩⟩
    refine hfailed exc (by rw [hidle]) fun qr hqr => ?_
    exact (hwell qr (List.mem_cons_of_mem _ hqr)).2.1 (Or.inl (hasks qr hqr))
  · rw [hp, Prog.run_bind_of_ok hidle, Prog.trace_bind_of_ok hidle]
    refine ⟨firesOnce_of_looks (List.forall_mem_cons.mpr ⟨hinfo, by simpa using hlooks⟩), by simp,
      by simp, fun _ hpace hfuel _ => ?_⟩
    obtain ⟨k, hk, hlate⟩ := exists_late hpace hfuel
    exact absurd hlate (not_le.mpr (hunfinished (by rw [hidle]) k hk))
  · obtain ⟨polled, fields, htrace, hfields⟩ := hready () (by rw [hidle])
    have hstatus : Obj.text fields "status" = "ready" := by
      by_contra hbusy
      simp [isReady, hbusy] at hfields
    have hpolled : ∀ qr ∈ polled, looks qr.1 := by
      intro qr hqr
      exact hlooks qr (by rw [htrace]; exact List.mem_append_left _ hqr)
    rw [hp, Prog.run_bind_of_ok hidle, Prog.trace_bind_of_ok hidle, htrace,
      ← List.append_assoc, List.singleton_append]
    exact runJob_safe hlive hfirst hpolled hstatus before

/-- A plugin job is fired safely, and what is reported as changed was verified. -/
theorem ensure_job_safe (srv : Appliance σ) (s : σ) (packageName : String)
    (settings : EnsureSettings) (state : String) (fuel : ℕ) :
    JobSafe packageName settings state fuel ((ensure packageName settings fuel state).run srv s).1
      ((ensure packageName settings fuel state).trace srv s) := by
  by_cases hvalid : state ≠ "present" ∧ state ≠ "absent"
  · have hp : ensure packageName settings fuel state = _ := if_pos hvalid
    rw [hp]
    refine ⟨firesOnce_of_looks (by simp), by simp, by simp, fun hstate _ _ _ => ?_⟩
    exact absurd hstate (by tauto)
  -- behind the check of the state comes the first look
  have hp : ensure packageName settings fuel state = isInstalled packageName >>= fun installed =>
      if installed = decide (state = "present") then do
        log .debug s!"noop plugin {packageName} already {state}"
          [("action", .str "noop"), ("package", .str packageName)]
        return some { changed := false, action := .noop, before := some (installedDict installed),
                      after := some (installedDict installed) }
      else change packageName settings (decide (state = "present")) fuel installed :=
    if_neg hvalid
  rw [hp]
  have hinfo : ∀ qr ∈ [(infoRequest, (srv infoRequest s).1)], looks qr.1 :=
    List.forall_mem_singleton.mpr (Or.inl rfl)
  cases hfirst : installedOf packageName (srv infoRequest s).1 with
  | error exc =>
    have hlook : (isInstalled packageName).run srv s = (.error exc, (srv infoRequest s).2) := by
      rw [run_isInstalled, hfirst]
    rw [Prog.run_bind_of_error hlook, Prog.trace_bind_of_error hlook, trace_isInstalled]
    refine ⟨firesOnce_of_looks hinfo, by simp, by simp, fun _ _ _ hwell => ?_⟩
    exact absurd (hwell _ (List.mem_singleton_self _)) (not_wellFormed_of_error hfirst)
  | ok installed =>
    have hlook : (isInstalled packageName).run srv s = (.ok installed, (srv infoRequest s).2) := by
      rw [run_isInstalled, hfirst]
    rw [Prog.run_bind_of_ok hlook, Prog.trace_bind_of_ok hlook, trace_isInstalled]
    by_cases hsame : installed = decide (state = "present")
    · simp only [if_pos hsame]
      refine ⟨firesOnce_of_looks hinfo, fun _ _ _ => ⟨_, rfl, by rw [hfirst, hsame]⟩,
        fun r hr hchanged => ?_, fun _ _ _ _ => Or.inl ⟨_, rfl⟩⟩
      cases hr
      cases hchanged
    · simp only [if_neg hsame]
      have hother : installedOf packageName (srv infoRequest s).1 =
          .ok (!decide (state = "present")) := by
        rw [hfirst, Bool.eq_not.mpr hsame]
      exact change_safe hother installed

/-- An idle appliance without the plugin, whose jobs come to `status`. -/
def bare (status : Reply) : Appliance Unit
  | .get e _, s => (if e.action = "core/firmware/upgradestatus" then status
      else .ok (.obj [("status", .str "ready")]), s)
  | _, s => (.ok (.obj []), s)

def credentialsRefused : Exc := .opnsense { cls := .auth, message := "401" }

/-- A change is reported of a plugin that check mode leaves alone, an error of the client passes
through a call, and a call without a pause between its polls need not end. -/
theorem ensure_leaves_job_unverified :
    let done : Reply := .ok (.obj [("status", .str "done")])
    let running : Reply := .ok (.obj [("status", .str "running")])
    let predict := ensure "os-chrony" { checkMode := true } 60 "present"
    let call := ensure "os-chrony" {} 60 "present"
    (∃ r, (predict.run (bare done) ()).1 = .ok (some r) ∧ r.changed = true ∧
      ∀ qr ∈ predict.trace (bare done) (), qr.1 = infoRequest) ∧
    (call.run (bare (.error credentialsRefused)) ()).1 = .error credentialsRefused ∧
    ∀ fuel, ((ensure "os-chrony" { interval := 0 } fuel "present").run (bare running) ()).1 =
      .ok none := by
  intro done running predict call
  refine ⟨⟨_, rfl, rfl, ?_⟩, ?_, fun fuel => ?_⟩
  · exact List.forall_mem_singleton.mpr rfl
  · rfl
  · have hwait : (waitForJob 300 0 fuel).run (bare running) () = (.ok none, ()) :=
      poll_goes_on rfl rfl (by norm_num) fuel
    have hidle : (waitForIdle 300 0 fuel).run (bare running) () = (.ok (some ()), ()) := by
      cases fuel <;> rfl
    have hfire : (fire true "os-chrony").run (bare running) () = (.ok (.obj []), ()) := rfl
    have hawait : (awaitJob "os-chrony" { interval := 0 } true fuel false).run (bare running) () =
        (.ok none, ()) := Prog.run_bind_of_ok hwait _
    have hjob : (runJob "os-chrony" { interval := 0 } true fuel false).run (bare running) () =
        (.ok none, ()) := by
      rw [runJob_eq, Prog.run_bind_of_ok hfire]
      exact hawait
    have hchange : (change "os-chrony" { interval := 0 } true fuel false).run (bare running) () =
        (.ok none, ()) := (Prog.run_bind_of_ok hidle _).trans hjob
    have hlook : (isInstalled "os-chrony").run (bare running) () = (.ok false, ()) := rfl
    exact congrArg Prod.fst ((Prog.run_bind_of_ok hlook _).trans hchange)

end Jobs

end PluginManager
end Opnsense
