import Opnsense.FirmwareUpdate
import Opnsense.PluginSafety

namespace Opnsense
open Interaction

namespace FirmwareManager

def infoRequest : Request :=
  .get { action := endpoint ++ "/info" } { timeout := some 20, maxRetries := some 1 }

def runningRequest : Request :=
  .get { action := endpoint ++ "/running" } { timeout := some 20, maxRetries := some 1 }

/-- `str(body.get("product_version", "") or "")` -/
def versionOf (fields : Obj) : String :=
  let version := fields.getD "product_version" (.str "")
  if version.truthy then pyStr version else ""

/-- The `product_version` of a `before` or an `after`. -/
def reportedVersion : Option Json → Json
  | some (.obj fields) => Obj.getD fields "product_version" .null
  | _ => .null

/-- The version was read behind the request of an update, and a `ready` behind it. -/
def UpdateSeen (t : List (Request × Reply)) (version : String) : Prop :=
  ∃ t₁ verb posted t₂ fields t₃ idle t₄, verb ∈ ["update", "upgrade"] ∧
    versionOf fields = version ∧ Obj.text idle "status" = "ready" ∧
    t = t₁ ++ (fireRequest verb, posted) :: (t₂ ++ (infoRequest, .ok (.obj fields)) ::
      (t₃ ++ (runningRequest, .ok (.obj idle)) :: t₄))

/-- The appliance gives the version from before as one with the target in it, and is ready. -/
def AnswersStale (target : String) (t : List (Request × Reply)) : Prop :=
  ∃ resolved fields idle, (statusRequest, .ok (.obj resolved)) ∈ t ∧
    (infoRequest, .ok (.obj fields)) ∈ t ∧ (runningRequest, .ok (.obj idle)) ∈ t ∧
    Obj.getD resolved "product_version" .null = .str (versionOf fields) ∧
    target.toList <:+: (versionOf fields).toList ∧ Obj.text idle "status" = "ready"

/-- A reply with the target in its version. -/
def Reaches (target : String) (qr : Request × Reply) (version : String) : Prop :=
  ∃ fields, qr = (infoRequest, .ok (.obj fields)) ∧ versionOf fields = version ∧
    target.toList <:+: version.toList

def IsReady (qr : Request × Reply) (_ : Unit) : Prop :=
  ∃ idle, qr = (runningRequest, .ok (.obj idle)) ∧ Obj.text idle "status" = "ready"

theorem info_ne_running : infoRequest ≠ runningRequest := by
  simp [infoRequest, runningRequest, endpoint]

theorem not_reaches_of_ne {target : String} {qr : Request × Reply} (h : qr.1 ≠ infoRequest)
    (version : String) : ¬ Reaches target qr version := by
  rintro ⟨fields, rfl, -⟩
  exact h rfl

theorem not_isReady_of_ne {qr : Request × Reply} (h : qr.1 ≠ runningRequest) : ¬ IsReady qr () := by
  rintro ⟨idle, rfl, -⟩
  exact h rfl

section Replies

variable {target : String} {timeout : ℤ} {interval : ℚ}

theorem accepts_waitForVersion :
    (waitForVersion target timeout interval).Accepts = Reaches target := by
  have hjudge : ∀ fields, versionBody target (.obj fields) =
      .ok (if target.toList <:+: (versionOf fields).toList then .inr (versionOf fields)
        else .inl (versionOf fields)) := fun _ => rfl
  funext qr version
  apply propext
  constructor
  · rintro ⟨body, rfl, hbody⟩
    cases body with
    | obj fields =>
      have hbody' := (hjudge fields).symm.trans hbody
      split at hbody'
      · rename_i hin
        cases hbody'
        exact ⟨fields, rfl, rfl, hin⟩
      · cases hbody'
    | _ => cases hbody
  · rintro ⟨fields, rfl, rfl, hin⟩
    exact ⟨.obj fields, rfl, (hjudge fields).trans (by rw [if_pos hin])⟩

theorem accepts_waitForIdle : (waitForIdle timeout interval).Accepts = IsReady := by
  have hjudge : ∀ idle, idleBody (.obj idle) =
      .ok (if Obj.text idle "status" = "ready" then .inr () else .inl ()) := fun _ => rfl
  funext qr _
  apply propext
  constructor
  · rintro ⟨body, rfl, hbody⟩
    cases body with
    | obj idle =>
      have hbody' := (hjudge idle).symm.trans hbody
      split at hbody'
      · rename_i hready
        exact ⟨idle, rfl, hready⟩
      · cases hbody'
    | _ => cases hbody
  · rintro ⟨idle, rfl, hready⟩
    exact ⟨.obj idle, rfl, (hjudge idle).trans (by rw [if_pos hready])⟩

theorem stopsAt_waitForVersion {σ : Type} {srv : Appliance σ} (rounds : ℕ) (s : σ) :
    Prog.StopsAt (Reaches target) id srv ((waitForVersion target timeout interval).wait rounds)
      s :=
  accepts_waitForVersion ▸ RebootWait.stopsAt_wait rounds s

theorem stopsAt_waitForIdle {σ : Type} {srv : Appliance σ} (rounds : ℕ) (s : σ) :
    Prog.StopsAt IsReady id srv ((waitForIdle timeout interval).wait rounds) s :=
  accepts_waitForIdle ▸ RebootWait.stopsAt_wait rounds s

end Replies

section Check

variable {σ : Type} {srv : Appliance σ} {s s' : σ} {timeout : ℤ} {interval : ℚ} {rounds : ℕ}

/-- Waiting for a job asks about the job only. -/
theorem mem_trace_waitJob {qr : Request × Reply}
    (h : qr ∈ (waitJob timeout interval rounds).trace srv s) : qr.1 = jobRequest := by
  have houtcome := @PluginManager.poll_outcome σ srv String timeout interval jobRequest jobStatus
    PluginManager.doneLog
    (fun job =>
      let status := pyRepr (job.getD "status" .null)
      .raise (PluginManager.timeoutError s!"firmware job still {status} after {timeout}s"))
    (fun s => run_await _) (fun s => trace_await _)
    (fun fields s => ⟨_, ⟨_, rfl, Or.inr rfl⟩, rfl, rfl⟩) rounds 0 s
  exact houtcome.asks qr h

/-- The reply with the resolved status, and what is in it. -/
def Resolves (qr : Request × Reply) (resolved : Obj) : Prop :=
  qr = (statusRequest, .ok (.obj resolved))

theorem not_resolves_of_ne {qr : Request × Reply} (h : qr.1 ≠ statusRequest) (resolved : Obj) :
    ¬ Resolves qr resolved := by
  rintro rfl
  exact h rfl

theorem mem_trace_check {qr : Request × Reply}
    (h : qr ∈ (check timeout interval rounds).trace srv s) :
    qr.1 = fireRequest "check" ∨ qr.1 = jobRequest ∨ qr.1 = statusRequest := by
  rcases Prog.mem_trace_bind h with h | ⟨resolved, s₁, -, h⟩
  · rw [trace_logError] at h
    rcases Prog.mem_trace_bind h with h | ⟨v, s₂, -, h⟩
    · rw [trace_await, List.mem_singleton] at h
      exact Or.inl (congrArg Prod.fst h)
    · rcases Prog.mem_trace_bind h with h | ⟨job, s₃, -, h⟩
      · exact Or.inr (Or.inl (mem_trace_waitJob h))
      · cases job with
        | none => cases h
        | some _ =>
          rcases Prog.mem_trace_bind h with h | ⟨body, s₄, -, h⟩
          · rw [status, trace_logError, trace_await, List.mem_singleton] at h
            exact Or.inr (Or.inr (congrArg Prod.fst h))
          · cases h
  · cases resolved with
    | none => cases h
    | some body => cases body <;> cases h

/-- A part of `check` that does not ask for the status. -/
theorem stopsAt_of_other {β : Type} {p : M β}
    (h : ∀ qr ∈ p.trace srv s, qr.1 ≠ statusRequest) :
    Prog.StopsAt Resolves (fun _ => none) srv p s :=
  Or.inr ⟨fun _ _ _ => rfl, fun qr hqr => not_resolves_of_ne (h qr hqr)⟩

/-- What asks nothing of the status before a program leaves it to the program. -/
theorem stopsAt_behind {β γ : Type} {result : γ → Option Obj} {p : M β} {f : β → M γ}
    (h : ∀ qr ∈ p.trace srv s, qr.1 ≠ statusRequest)
    (hnext : ∀ b s, Prog.StopsAt Resolves result srv (f b) s) :
    Prog.StopsAt Resolves result srv (p >>= f) s := by
  apply Prog.StopsAt.bind (stopsAt_of_other h)
  · intro b a s hb
    cases hb
  · intro b s _
    exact hnext b s

/-- The dict that the status request was answered with. -/
def resolvedIn : Option Json → Option Obj
  | some (.obj fields) => some fields
  | _ => none

/-- The status request, once the job is done. -/
theorem stopsAt_status (s : σ) :
    Prog.StopsAt Resolves resolvedIn srv (status >>= fun body => Prog.ret (some body)) s := by
  have htrace : (status >>= fun body => Prog.ret (some body) : M (Option Json)).trace srv s =
      [(statusRequest, (srv statusRequest s).1)] := by
    rcases hreply : srv statusRequest s with ⟨e | body, s₁⟩
    · simp [status, Prog.trace_bind, hreply]
    · simp [status, Prog.trace_bind, hreply]
  rcases hreply : srv statusRequest s with ⟨e | body, s₁⟩
  · refine Or.inr ⟨?_, ?_⟩
    · intro b s' hb
      simp [status, Prog.run_bind, hreply] at hb
    · rw [htrace, hreply]
      rintro qr hqr resolved rfl
      simp at hqr
  · have hrun : (status >>= fun body => Prog.ret (some body) : M (Option Json)).run srv s =
        (.ok (some body), s₁) := by
      simp [status, Prog.run_bind, hreply]
    rw [hreply] at htrace
    by_cases hdict : ∃ fields, body = .obj fields
    · obtain ⟨fields, rfl⟩ := hdict
      exact Or.inl ⟨_, fields, _, [], _, hrun, rfl, htrace, rfl, fun qr hqr => nomatch hqr⟩
    · refine Or.inr ⟨?_, ?_⟩
      · intro b s' hb
        cases hrun.symm.trans hb
        cases body with
        | obj fields => exact absurd ⟨fields, rfl⟩ hdict
        | _ => rfl
      · rw [htrace]
        rintro qr hqr resolved rfl
        have hbody : Json.obj resolved = body := by simpa using hqr
        exact hdict ⟨resolved, hbody.symm⟩

/-- `check` returns what the status request was answered with. -/
theorem stopsAt_check (s : σ) : Prog.StopsAt Resolves id srv (check timeout interval rounds) s := by
  have hjob : ∀ qr s, qr ∈ (waitJob timeout interval rounds).trace srv s →
      qr.1 ≠ statusRequest := by
    intro qr s hqr
    rw [mem_trace_waitJob hqr]
    intro heq
    cases heq
  have hfire : ∀ qr s, qr ∈ (await (fireRequest "check")).trace srv s → qr.1 ≠ statusRequest := by
    intro qr s hqr
    rw [trace_await, List.mem_singleton] at hqr
    rw [hqr]
    intro heq
    cases heq
  rw [check]
  refine @Prog.StopsAt.bind _ _ _ _ _ _ _ _ _ _ _ resolvedIn id _ _ ?_ ?_ ?_
  · rw [Prog.StopsAt, run_logError, trace_logError]
    change Prog.StopsAt Resolves resolvedIn srv _ s
    apply stopsAt_behind fun qr hqr => hfire qr s hqr
    intro _ s₁
    apply stopsAt_behind fun qr hqr => hjob qr s₁ hqr
    intro job s₂
    cases job with
    | none =>
      apply Prog.stopsAt_of_silent rfl
      intro b s' hb
      cases hb
      rfl
    | some _ => exact stopsAt_status s₂
  · intro b a s hb
    rcases b with _ | body
    · cases hb
    · cases body with
      | obj fields =>
        cases hb
        exact ⟨some a, rfl, rfl, rfl⟩
      | _ => cases hb
  · intro b s hb
    rcases b with _ | body
    · apply Prog.stopsAt_of_silent rfl
      intro c s' hc
      cases hc
      rfl
    · -- what is no dict has no status to be logged
      cases body with
      | obj fields => cases hb
      | _ =>
        apply Prog.stopsAt_of_silent rfl
        intro c s' hc
        cases hc

end Check

section Update

variable {σ : Type} {srv : Appliance σ} {s s' s₁ : σ} {c : UpdateCall} {target verb : String}
  {before version : Json}

/-- What is returned of an update that went through. -/
def UpdateCall.finished (c : UpdateCall) (before : Json) (version : String) : EnsureResult where
  changed := true
  action := actionFor c.state
  before := some before
  after := some (versionDict (.str version) "none")

/-- A run of `apply` that is through has stopped at the first reply with the target in its version,
and then at the first ready one. -/
def Through (c : UpdateCall) (srv : Appliance σ) (verb target : String) (before version : Json)
    (s : σ) : Prop :=
  ∃ reached s' t info t' ready,
    (c.apply verb before version).run srv s = (.ok (some (c.finished before reached)), s') ∧
    (c.apply verb before version).trace srv s =
      (fireRequest verb, (srv (fireRequest verb) s).1) :: (t ++ info :: (t' ++ [ready])) ∧
    Reaches target info reached ∧ IsReady ready () ∧
    (∀ qr ∈ t, ∀ v, ¬ Reaches target qr v) ∧ ∀ qr ∈ t' ++ [ready], qr.1 = runningRequest

/-- One that is not through returns nothing, and has not seen both of the replies. -/
def NotThrough (c : UpdateCall) (srv : Appliance σ) (verb target : String) (before version : Json)
    (s : σ) : Prop :=
  (∀ r s', (c.apply verb before version).run srv s ≠ (.ok (some r), s')) ∧
  ((∀ qr ∈ (c.apply verb before version).trace srv s, ∀ v, ¬ Reaches target qr v) ∨
    ∀ qr ∈ (c.apply verb before version).trace srv s, ¬ IsReady qr ())

theorem apply_eq (htarget : c.target = some target) (hne : target ≠ "") :
    c.apply verb before version = fire verb >>= fun _ =>
      (waitForVersion target c.waitTimeout c.waitInterval).wait c.rounds >>= fun reached =>
        match reached with
        | none => Prog.ret none
        | some version => (waitForIdle c.waitTimeout c.waitInterval).wait c.rounds >>= fun idle =>
          match idle with
          | none => Prog.ret none
          | some () => Prog.ret (some (c.finished before version)) := by
  simp only [UpdateCall.apply, htarget, if_neg hne]
  rfl

theorem apply_cases (htarget : c.target = some target) (hne : target ≠ "") (s : σ) :
    Through c srv verb target before version s ∨ NotThrough c srv verb target before version s := by
  have hfire : ∀ qr ∈ (fire verb).trace srv s, qr.1 = fireRequest verb := by
    intro qr hqr
    rw [trace_fire, List.mem_singleton] at hqr
    rw [hqr]
  have hfire_info : fireRequest verb ≠ infoRequest := by
    intro heq
    cases heq
  have hfire_running : fireRequest verb ≠ runningRequest := by
    intro heq
    cases heq
  rw [Through, NotThrough, apply_eq htarget hne]
  rcases hposted : (fire verb).run srv s with ⟨e | v, s₁⟩
  · -- the request failed
    right
    refine ⟨?_, Or.inl ?_⟩
    · intro r s' hr
      rw [Prog.run_bind_of_error hposted] at hr
      cases hr
    · rw [Prog.trace_bind_of_error hposted]
      intro qr hqr
      exact not_reaches_of_ne (hfire qr hqr ▸ hfire_info)
  rw [Prog.run_bind_of_ok hposted, Prog.trace_bind_of_ok hposted]
  rcases @stopsAt_waitForVersion _ _ _ _ srv c.rounds s₁ with
    ⟨b, reached, s₂, t, info, hrun, hb, htrace, hreaches, hbefore⟩ | ⟨hnone, htrace⟩
  · obtain rfl : b = some reached := hb
    have hversion : ∀ qr ∈ t ++ [info], qr.1 = infoRequest := by
      intro qr hqr
      exact RebootWait.mem_trace_wait (htrace ▸ hqr)
    rw [Prog.run_bind_of_ok hrun, Prog.trace_bind_of_ok hrun, htrace]
    rcases @stopsAt_waitForIdle _ _ _ srv c.rounds s₂ with
      ⟨b, ⟨⟩, s₃, t', ready, hidle, hb, htrace', hready, -⟩ | ⟨hnone, htrace'⟩
    · obtain rfl : b = some () := hb
      refine Or.inl ⟨reached, s₃, t, info, t', ready, ?_, ?_, hreaches, hready, hbefore, ?_⟩
      · rw [Prog.run_bind_of_ok hidle]
        rfl
      · rw [Prog.trace_bind_of_ok hidle, htrace', trace_fire]
        simp
      · intro qr hqr
        exact RebootWait.mem_trace_wait (htrace' ▸ hqr)
    · -- the appliance was not ready in time
      right
      refine ⟨?_, Or.inr ?_⟩
      · intro r s' hr
        obtain ⟨b, s₃, hb, hrest⟩ := Prog.run_bind_eq_ok.mp hr
        obtain rfl : b = none := hnone b s₃ hb
        cases hrest
      · intro qr hqr
        rcases List.mem_append.mp hqr with h | h
        · exact not_isReady_of_ne (hfire qr h ▸ hfire_running)
        rcases List.mem_append.mp h with h | h
        · exact not_isReady_of_ne (hversion qr h ▸ info_ne_running)
        rcases Prog.mem_trace_bind h with h | ⟨b, s₃, hb, h⟩
        · exact htrace' qr h ()
        · obtain rfl : b = none := hnone b s₃ hb
          cases h
  · -- the version was not seen in time
    right
    refine ⟨?_, Or.inl ?_⟩
    · intro r s' hr
      obtain ⟨b, s₂, hb, hrest⟩ := Prog.run_bind_eq_ok.mp hr
      obtain rfl : b = none := hnone b s₂ hb
      cases hrest
    · intro qr hqr
      rcases List.mem_append.mp hqr with h | h
      · exact not_reaches_of_ne (hfire qr h ▸ hfire_info)
      rcases Prog.mem_trace_bind h with h | ⟨b, s₂, hb, h⟩
      · exact htrace qr h
      · obtain rfl : b = none := hnone b s₂ hb
        cases h

/-- The request that is posted is one of the two that reboot the appliance. -/
theorem verbFor_mem {state pending : String} (h : verbFor state pending = some verb) :
    verb ∈ ["update", "upgrade"] := by
  unfold verbFor at h
  split at h
  · split at h
    · cases h
      decide
    · cases h
  · split at h
    · cases h
      decide
    · split at h
      · cases h
        decide
      · cases h

/-- An update that `ensure` reports as applied: the version it returns was read behind the request,
it is not the one from before, and the appliance was ready behind it. -/
def Happened (c : UpdateCall) (srv : Appliance σ) (s : σ) : Prop :=
  ∀ r s', c.ensure.run srv s = (.ok (some r), s') → r.changed = true →
    ∃ version, reportedVersion r.after = .str version ∧ reportedVersion r.before ≠ .str version ∧
      UpdateSeen (c.ensure.trace srv s) version

theorem answersStale_check (timeout : ℤ) (interval : ℚ) (rounds : ℕ) (target : String) :
    ¬ AnswersStale target ((check timeout interval rounds).trace srv s) := by
  rintro ⟨resolved, fields, idle, -, hinfo, -⟩
  rcases mem_trace_check hinfo with h | h | h
  · cases h
  · cases h
  · cases h

/-- The check was stopped at its status reply. -/
theorem mem_trace_check_of_run {timeout : ℤ} {interval : ℚ} {rounds : ℕ} {resolved : Obj}
    (h : (check timeout interval rounds).run srv s = (.ok (some resolved), s₁)) (resolved' : Obj) :
    (statusRequest, .ok (.obj resolved')) ∈ (check timeout interval rounds).trace srv s ↔
      resolved' = resolved := by
  constructor
  · intro hmem
    obtain ⟨b, a, s', before, hrun, hb, -, ha⟩ := (stopsAt_check s).returned hmem rfl
    cases h.symm.trans hrun
    obtain rfl : resolved = a := by simpa using hb
    cases ha
    rfl
  · rintro rfl
    rcases @stopsAt_check _ srv timeout interval rounds s with
      ⟨b, a, s', before, qr, hrun, hb, htrace, rfl, -⟩ | ⟨hnone, -⟩
    · cases h.symm.trans hrun
      obtain rfl : resolved' = a := by simpa using hb
      rw [htrace]
      exact List.mem_append_right _ (List.mem_singleton.mpr rfl)
    · cases hnone _ _ h

section Behind

variable {timeout : ℤ} {interval : ℚ} {rounds : ℕ} {resolved : Obj} {t : List (Request × Reply)}

/-- Behind a check, the two last replies of a stale answer are those of the update. -/
theorem answersStale_append
    (hcheck : (check timeout interval rounds).run srv s = (.ok (some resolved), s₁))
    (hstatus : ∀ qr ∈ t, qr.1 ≠ statusRequest) :
    AnswersStale target ((check timeout interval rounds).trace srv s ++ t) ↔
      ∃ info ready version, info ∈ t ∧ ready ∈ t ∧ Reaches target info version ∧
        IsReady ready () ∧ resolved.getD "product_version" .null = .str version := by
  have hother : ∀ {q : Request} {r : Reply}, (q = infoRequest ∨ q = runningRequest) →
      (q, r) ∈ (check timeout interval rounds).trace srv s ++ t → (q, r) ∈ t := by
    intro q r hq hmem
    rcases List.mem_append.mp hmem with h | h
    · rcases mem_trace_check h with hq' | hq' | hq' <;> rcases hq with rfl | rfl <;> cases hq'
    · exact h
  constructor
  · rintro ⟨resolved', fields, idle, hresolved, hinfo, hready, hversion, hin, hidle⟩
    have hsame : resolved' = resolved := by
      rcases List.mem_append.mp hresolved with h | h
      · exact (mem_trace_check_of_run hcheck resolved').mp h
      · exact absurd rfl (hstatus _ h)
    subst hsame
    exact ⟨_, _, versionOf fields, hother (Or.inl rfl) hinfo, hother (Or.inr rfl) hready,
      ⟨fields, rfl, rfl, hin⟩, ⟨idle, rfl, hidle⟩, hversion⟩
  · rintro ⟨info, ready, version, hinfo, hready, ⟨fields, rfl, rfl, hin⟩, ⟨idle, rfl, hidle⟩,
      hversion⟩
    refine ⟨resolved, fields, idle, ?_, List.mem_append_right _ hinfo,
      List.mem_append_right _ hready, hversion, hin, hidle⟩
    exact List.mem_append_left _ ((mem_trace_check_of_run hcheck resolved).mpr rfl)

end Behind

/-- What an update asks, with the waits behind it. -/
theorem mem_trace_apply (htarget : c.target = some target) (hne : target ≠ "")
    {qr : Request × Reply} (h : qr ∈ (c.apply verb before version).trace srv s) :
    qr.1 = fireRequest verb ∨ qr.1 = infoRequest ∨ qr.1 = runningRequest := by
  rw [apply_eq htarget hne] at h
  rcases Prog.mem_trace_bind h with h | ⟨v, s₁, -, h⟩
  · rw [trace_fire, List.mem_singleton] at h
    exact Or.inl (congrArg Prod.fst h)
  rcases Prog.mem_trace_bind h with h | ⟨reached, s₂, -, h⟩
  · exact Or.inr (Or.inl (RebootWait.mem_trace_wait h))
  cases reached with
  | none => cases h
  | some reached =>
    rcases Prog.mem_trace_bind h with h | ⟨idle, s₃, -, h⟩
    · exact Or.inr (Or.inr (RebootWait.mem_trace_wait h))
    · rcases idle with _ | ⟨⟩ <;> cases h

/-- The one version an update can have stopped at. -/
theorem reached_unique {t t' : List (Request × Reply)} {info ready qr : Request × Reply}
    {posted : Reply} {reached v : String} (hreaches : Reaches target info reached)
    (hbefore : ∀ qr ∈ t, ∀ v, ¬ Reaches target qr v)
    (hbehind : ∀ qr ∈ t' ++ [ready], qr.1 = runningRequest)
    (hqr : qr ∈ (fireRequest verb, posted) :: (t ++ info :: (t' ++ [ready])))
    (hv : Reaches target qr v) : v = reached := by
  obtain ⟨fields, rfl, rfl, hin⟩ := hv
  rcases List.mem_cons.mp hqr with h | h
  · cases h
  rcases List.mem_append.mp h with h | h
  · exact absurd ⟨fields, rfl, rfl, hin⟩ (hbefore _ h _)
  rcases List.mem_cons.mp h with rfl | h
  · obtain ⟨fields', hfields, hversion, -⟩ := hreaches
    cases hfields
    exact hversion
  · exact absurd (hbehind _ h) info_ne_running

/-- What `ensure` does outside check mode, by what the check comes to. -/
theorem ensure_cases (hstate : c.state = "updated" ∨ c.state = "upgraded")
    (hmode : c.checkMode = false) (srv : Appliance σ) (s : σ) :
    (∃ resolved s₁ verb, (check c.checkTimeout 5 c.rounds).run srv s = (.ok (some resolved), s₁) ∧
      verb ∈ ["update", "upgrade"] ∧
      let version := resolved.getD "product_version" .null
      let before := versionDict version (pendingOf resolved)
      c.ensure.run srv s = (c.apply verb before version).run srv s₁ ∧
        c.ensure.trace srv s = (check c.checkTimeout 5 c.rounds).trace srv s ++
          (c.apply verb before version).trace srv s₁) ∨
    (∀ r s', c.ensure.run srv s = (.ok (some r), s') → r.changed = false) ∧
      c.ensure.trace srv s = (check c.checkTimeout 5 c.rounds).trace srv s := by
  have hvalid : ¬(c.state ≠ "updated" ∧ c.state ≠ "upgraded") := by
    rintro ⟨h, h'⟩
    exact hstate.elim h h'
  rw [UpdateCall.ensure, if_neg hvalid]
  rcases hcheck : (check c.checkTimeout 5 c.rounds).run srv s with ⟨e | resolved, s₁⟩
  · right
    rw [Prog.run_bind_of_error hcheck, Prog.trace_bind_of_error hcheck]
    exact ⟨fun r s' h => (nomatch h), rfl⟩
  rw [Prog.run_bind_of_ok hcheck, Prog.trace_bind_of_ok hcheck]
  cases resolved with
  | none =>
    right
    exact ⟨fun r s' h => (nomatch h), List.append_nil _⟩
  | some resolved =>
    cases hverb : verbFor c.state (pendingOf resolved) with
    | none =>
      -- nothing is pending, and nothing has changed
      right
      simp only [hverb]
      refine ⟨?_, List.append_nil _⟩
      intro r s' h
      cases h
      rfl
    | some verb =>
      left
      refine ⟨resolved, s₁, verb, rfl, verbFor_mem hverb, ?_, ?_⟩
      · simp only [hverb, hmode]
        rfl
      · simp only [hverb, hmode]
        rfl

/-- A reported update has happened exactly when the old image does not answer with a version that
has the target in it, ahead of a ready subsystem: the wait does not compare with the version from
before. -/
theorem happened_iff_not_stale (srv : Appliance σ) (s : σ) (c : UpdateCall) (target : String)
    (hstate : c.state = "updated" ∨ c.state = "upgraded") (htarget : c.target = some target)
    (hne : target ≠ "") (hmode : c.checkMode = false) :
    Happened c srv s ↔ ¬ AnswersStale target (c.ensure.trace srv s) := by
  rcases ensure_cases hstate hmode srv s with
    ⟨resolved, s₁, verb, hcheck, hverb, hrun, htrace⟩ | ⟨hunchanged, htrace⟩
  · have hstatus : ∀ qr ∈ (c.apply verb (versionDict (resolved.getD "product_version" .null)
        (pendingOf resolved)) (resolved.getD "product_version" .null)).trace srv s₁,
        qr.1 ≠ statusRequest := by
      intro qr hqr heq
      rcases mem_trace_apply htarget hne hqr with h | h | h <;> cases heq.symm.trans h
    rw [htrace, answersStale_append hcheck hstatus, Happened, hrun, htrace]
    rcases @apply_cases _ srv c target verb
      (versionDict (resolved.getD "product_version" .null) (pendingOf resolved))
      (resolved.getD "product_version" .null) htarget hne s₁ with
      ⟨reached, s', t, info, t', ready, hreturns, hsplit, hreaches, hready, hbefore, hbehind⟩ |
      ⟨hnothing, hmissing⟩
    · constructor
      · rintro hhappened ⟨info', ready', v, hinfo', -, hv, -, hsame⟩
        obtain rfl : v = reached := reached_unique hreaches hbefore hbehind (hsplit ▸ hinfo') hv
        obtain ⟨version, hafter, hdiffers, -⟩ := hhappened _ s' hreturns rfl
        cases hafter
        exact hdiffers hsame
      · intro hfresh r s'' h hchanged
        cases hreturns.symm.trans h
        refine ⟨reached, rfl, ?_, ?_⟩
        · intro hsame
          refine hfresh ⟨info, ready, reached, ?_, ?_, hreaches, hready, hsame⟩
          · rw [hsplit]
            simp
          · rw [hsplit]
            simp
        · obtain ⟨fields, rfl, hversion, -⟩ := hreaches
          obtain ⟨idle, rfl, hidle⟩ := hready
          exact ⟨_, verb, _, t, fields, t', idle, [], hverb, hversion, hidle, by rw [hsplit]⟩
    · refine iff_of_true (fun r s' h => absurd h (hnothing r s')) ?_
      rintro ⟨info, ready, version, hinfo, hready, hreaches, hisReady, -⟩
      rcases hmissing with h | h
      · exact h info hinfo version hreaches
      · exact h ready hready hisReady
  · rw [htrace]
    refine iff_of_true ?_ (answersStale_check _ _ _ _)
    intro r s' h hchanged
    rw [hunchanged r s' h] at hchanged
    cases hchanged

end Update

/-- An appliance that has an update pending, and the version it answers with. -/
def pendingReply (version : String) : Request → Json
  | .get ep _ =>
    if ep.action = endpoint ++ "/running" then .obj [("status", .str "ready")]
    else .obj [("product_version", .str version), ("status", .str "update")]
  | _ => .obj [("status", .str "done")]

def updateTo (target : String) : UpdateCall := { target := some target, rounds := 1 }

/-- It reboots into the new image as soon as the update is requested. -/
def rebootingAppliance (target : String) : Appliance String := fun q version =>
  (.ok (pendingReply version q), match q with
  | .post ep _ _ => if ep.action = endpoint ++ "/update" then target else version
  | _ => version)

theorem happened_iff_not_stale_other :
    let srv := rebootingAppliance "26.7.4"
    let call := updateTo "26.7.4"
    (∃ r, call.ensure.run srv "26.7.3" = (.ok (some r), "26.7.4") ∧ r.changed = true ∧
      reportedVersion r.before = .str "26.7.3" ∧ reportedVersion r.after = .str "26.7.4") ∧
    (Happened call srv "26.7.3" ↔ ¬ AnswersStale "26.7.4" (call.ensure.trace srv "26.7.3")) :=
  ⟨⟨_, rfl, rfl, rfl, rfl⟩, happened_iff_not_stale (rebootingAppliance "26.7.4") "26.7.3"
    (updateTo "26.7.4") "26.7.4" (Or.inl rfl) rfl (by decide) rfl⟩

/-- It answers with one version all the time. -/
def steadyAppliance (version : String) : Appliance Unit := fun q s =>
  (.ok (pendingReply version q), s)

/-- The old image is taken for the result. -/
theorem old_image_reported :
    (∃ r, ((updateTo "26.7").ensure.run (steadyAppliance "26.7.3") ()).1 = .ok (some r) ∧
      r.changed = true ∧ reportedVersion r.before = .str "26.7.3" ∧
      reportedVersion r.after = .str "26.7.3") ∧
    ¬ Happened (updateTo "26.7") (steadyAppliance "26.7.3") () := by
  have hrun : ∃ r, (updateTo "26.7").ensure.run (steadyAppliance "26.7.3") () = (.ok (some r), ()) ∧
      r.changed = true ∧ reportedVersion r.before = .str "26.7.3" ∧
      reportedVersion r.after = .str "26.7.3" := ⟨_, rfl, rfl, rfl, rfl⟩
  obtain ⟨r, hr, hchanged, hbefore, hafter⟩ := hrun
  refine ⟨⟨r, congrArg Prod.fst hr, hchanged, hbefore, hafter⟩, ?_⟩
  intro hhappened
  obtain ⟨version, hversion, hdiffers, -⟩ := hhappened r () hr hchanged
  rw [hafter] at hversion
  cases hversion
  exact hdiffers hbefore

end FirmwareManager
end Opnsense
