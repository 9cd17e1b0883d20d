import Opnsense.AcmeCertificate
import Opnsense.Interaction.Retry
import Opnsense.OwnRequests

namespace Opnsense
namespace AcmeCertificateManager
open Interaction

variable {σ : Type} {diffEngine : DiffEngine} {srv : Appliance σ} {s s' : σ} {uuid : Json}
  {t : List (Request × Reply)} {stale : Option String} {polls polls' : ℕ} {st : IssueState}
  {result r : EnsureResult} {renew : Bool} {reply : Reply}

/-- The request of one look at the object. -/
def getRequest (uuid : Json) : Request :=
  .get { action := endpoint ++ "/get", ident := if uuid.truthy then some (pyStr uuid) else none }

/-- The object a reply shows. -/
def view (reply : Reply) : Except Exc Json :=
  match reply with
  | .ok body => unwrap "certificate" body
  | .error exc => .error exc

/-- The issue state a reply shows. -/
def stateOf (reply : Reply) : Except Exc IssueState :=
  match view reply with
  | .ok current => issueState current
  | .error exc => .error exc

/-- The reply shows a state that `p` holds of. -/
def shows (p : IssueState → Bool) (reply : Reply) : Bool :=
  match stateOf reply with
  | .ok st => p st
  | .error _ => false

theorem shows_iff {p : IssueState → Bool} :
    shows p reply = true ↔ ∃ st, stateOf reply = .ok st ∧ p st = true := by
  unfold shows
  split <;> simp_all

/-- What `get` does with the reply. -/
def look (uuid : Json) (reply : Reply) : M Json := do
  let body ← logError (.ofExcept reply)
    (fun exc =>
      let id := pyStr uuid
      s!"get failed acmeclient/certificates uuid={id}: {exc.text}")
    (fun exc => [("action", .str "get_failed"), ("endpoint", .str "acmeclient/certificates"),
      ("uuid", uuid), ("error", .str exc.text)])
  .ofExcept (unwrap "certificate" body)

/-- A look that is the last one of a wait. -/
def lastLook (uuid : Json) (reply : Reply) : M Json := do
  let current ← look uuid reply
  let _ ← .ofExcept (issueState current)
  return current

theorem get_eq (uuid : Json) : get diffEngine uuid = .call (getRequest uuid) (look uuid) := rfl

theorem look_of_view {current : Json} (h : view reply = .ok current) :
    look uuid reply = .ret current := by
  cases reply with
  | error exc => cases h
  | ok body => simp [look, logError, Prog.onError, Prog.rescue, Prog.ofExcept,
      show unwrap "certificate" body = .ok current from h]

/-- Without an object to show the run ends there. -/
theorem run_look_bind_of_error {α : Type} {exc : Exc} (h : view reply = .error exc)
    (f : Json → M α) : (look uuid reply >>= f).run srv s = (.error exc, s) ∧
      (look uuid reply >>= f).trace srv s = [] := by
  cases reply with
  | error exc' =>
    cases h
    exact ⟨rfl, rfl⟩
  | ok body =>
    have hunwrap : unwrap "certificate" body = .error exc := h
    simp [look, logError, Prog.onError, Prog.rescue, Prog.ofExcept, hunwrap]

theorem lastLook_of_state (h : stateOf reply = .ok st) :
    ∃ current, lastLook uuid reply = .ret current ∧ issueState current = .ok st := by
  unfold stateOf at h
  split at h
  · rename_i current hview
    exact ⟨current, by simp [lastLook, look_of_view hview, h, Prog.ofExcept], h⟩
  · cases h

theorem run_lastLook_of_error {exc : Exc} (h : stateOf reply = .error exc) :
    (lastLook uuid reply).run srv s = (.error exc, s) ∧
      (lastLook uuid reply).trace srv s = [] := by
  unfold stateOf at h
  split at h
  · rename_i current hview
    simp [lastLook, look_of_view hview, h, Prog.ofExcept]
  · rename_i exc' hview
    cases h
    exact run_look_bind_of_error hview _

theorem trace_lastLook : (lastLook uuid reply).trace srv s = [] := by
  cases hstate : stateOf reply with
  | ok st =>
    obtain ⟨current, hret, -⟩ := @lastLook_of_state uuid _ _ hstate
    rw [hret]
    rfl
  | error exc => exact (run_lastLook_of_error hstate).2

theorem waitForIssue_succ : waitForIssue diffEngine uuid stale (polls + 1) =
    .call (getRequest uuid) fun reply => do
      let current ← look uuid reply
      let st ← .ofExcept (issueState current)
      if st.isPending stale then do
        .tell (.sleep 10)
        waitForIssue diffEngine uuid stale polls
      else return current := rfl

/-- Waiting is asking again while the state is pending. -/
theorem waitForIssue_eq_retry (earlier : List Reply) :
    waitForIssue diffEngine uuid stale polls =
      Prog.retry (getRequest uuid) (shows (·.isPending stale)) (fun _ _ => [.sleep 10])
        (fun _ => lastLook uuid) polls earlier := by
  induction polls generalizing earlier with
  | zero => rfl
  | succ polls ih =>
    -- a reply that cannot be read ends both, one that shows a pending state has both ask again
    rw [waitForIssue_succ, Prog.retry]
    refine congrArg (Prog.call (getRequest uuid)) (funext fun reply => ?_)
    cases hview : view reply with
    | error exc =>
      have hshows : shows (·.isPending stale) reply = false := by simp [shows, stateOf, hview]
      cases reply with
      | error exc' =>
        simp only [hshows]
        rfl
      | ok body =>
        have hunwrap : unwrap "certificate" body = .error exc := hview
        simp [hshows, lastLook, look, logError, Prog.onError, Prog.rescue, Prog.ofExcept, hunwrap]
    | ok current =>
      have hlook : look uuid reply = .ret current := look_of_view hview
      cases hstate : issueState current with
      | error exc =>
        have hshows : shows (·.isPending stale) reply = false := by
          simp [shows, stateOf, hview, hstate]
        simp [hshows, hlook, lastLook, hstate, Prog.ofExcept]
      | ok st =>
        have hshows : shows (·.isPending stale) reply = st.isPending stale := by
          simp [shows, stateOf, hview, hstate]
        by_cases hpending : st.isPending stale = true
        · simp [hshows, hlook, hstate, Prog.ofExcept, hpending, Prog.tell, ← ih]
        · simp [hshows, hlook, lastLook, hstate, Prog.ofExcept, hpending]

/-- The reply a wait ends with, and the state behind it. -/
def settled (srv : Appliance σ) (uuid : Json) (stale : Option String) (polls : ℕ) (s : σ) :
    Reply × σ :=
  Prog.settled srv (shows (·.isPending stale)) (getRequest uuid) polls s

theorem run_waitForIssue : ∃ polled, (waitForIssue diffEngine uuid stale polls).trace srv s =
      polled ++ [(getRequest uuid, (settled srv uuid stale polls s).1)] ∧
    (∀ qr ∈ polled, qr.1 = getRequest uuid) ∧
    (waitForIssue diffEngine uuid stale polls).run srv s =
      (lastLook uuid (settled srv uuid stale polls s).1).run srv
        (settled srv uuid stale polls s).2 := by
  obtain ⟨polled, htrace, hsame⟩ := Prog.trace_retry_settled srv (shows (·.isPending stale))
    (getRequest uuid) (fun _ _ => [.sleep 10]) (fun _ => lastLook uuid)
    (fun _ _ _ => trace_lastLook) polls [] s
  obtain ⟨earlier, hrun⟩ := Prog.run_retry_settled srv (shows (·.isPending stale))
    (getRequest uuid) (fun _ _ => [.sleep 10]) (fun _ => lastLook uuid) polls [] s
  rw [waitForIssue_eq_retry []]
  exact ⟨polled, htrace, hsame, hrun⟩

/-- The program looks at the object until `last`, and goes on as `f` from the state shown there. -/
def GoesOn {α : Type} (srv : Appliance σ) (uuid : Json) (p : M α) (s : σ) (last : Reply × σ)
    (f : IssueState → M α) : Prop :=
  ∃ polled : List (Request × Reply), (∀ qr ∈ polled, qr.1 = getRequest uuid) ∧
    (∀ exc, stateOf last.1 = .error exc → p.run srv s = (.error exc, last.2) ∧
      p.trace srv s = polled ++ [(getRequest uuid, last.1)]) ∧
    ∀ st, stateOf last.1 = .ok st → p.run srv s = (f st).run srv last.2 ∧
      p.trace srv s = polled ++ (getRequest uuid, last.1) :: (f st).trace srv last.2

section GoesOn

variable {α : Type} {p : M α} {last last' : Reply × σ} {f next : IssueState → M α}

theorem GoesOn.of_error (h : GoesOn srv uuid p s last next) {exc : Exc}
    (hstate : stateOf last.1 = .error exc) : GoesOn srv uuid p s last f := by
  obtain ⟨polled, hpolled, herror, -⟩ := h
  refine ⟨polled, hpolled, herror, fun st hst => ?_⟩
  rw [hstate] at hst
  cases hst

theorem GoesOn.congr (h : GoesOn srv uuid p s last next) (hstate : stateOf last.1 = .ok st)
    (hnext : next st = f st) : GoesOn srv uuid p s last f := by
  obtain ⟨polled, hpolled, herror, hok⟩ := h
  refine ⟨polled, hpolled, herror, fun st' hst' => ?_⟩
  obtain rfl : st = st' := Except.ok.inj (hstate.symm.trans hst')
  rw [← hnext]
  exact hok st hstate

/-- Looks behind looks. -/
theorem GoesOn.trans (h : GoesOn srv uuid p s last next) (hstate : stateOf last.1 = .ok st)
    (hnext : GoesOn srv uuid (next st) last.2 last' f) : GoesOn srv uuid p s last' f := by
  obtain ⟨before, hbefore, -, hok⟩ := h
  obtain ⟨polled, hpolled, herror', hok'⟩ := hnext
  obtain ⟨hrun, htrace⟩ := hok st hstate
  have hall : ∀ qr ∈ before ++ (getRequest uuid, last.1) :: polled, qr.1 = getRequest uuid := by
    intro qr hqr
    rcases List.mem_append.mp hqr with hqr | hqr
    · exact hbefore qr hqr
    · rcases List.mem_cons.mp hqr with rfl | hqr
      · rfl
      · exact hpolled qr hqr
  refine ⟨before ++ (getRequest uuid, last.1) :: polled, hall, fun exc h => ?_, fun st' h => ?_⟩
  · obtain ⟨hrun', htrace'⟩ := herror' exc h
    rw [hrun, htrace, hrun', htrace', List.append_assoc]
    exact ⟨rfl, rfl⟩
  · obtain ⟨hrun', htrace'⟩ := hok' st' h
    rw [hrun, htrace, hrun', htrace', List.append_assoc]
    exact ⟨rfl, rfl⟩

end GoesOn

theorem goesOn_wait {α : Type} (f : IssueState → M α) :
    GoesOn srv uuid (waitForIssue diffEngine uuid stale polls >>= fun current =>
      .ofExcept (issueState current) >>= f) s (settled srv uuid stale polls s) f := by
  obtain ⟨polled, htrace, hsame, hrun⟩ :=
    @run_waitForIssue _ diffEngine srv s uuid stale polls
  refine ⟨polled, hsame, fun exc hstate => ?_, fun st hstate => ?_⟩
  · have hwait := hrun.trans (run_lastLook_of_error hstate).1
    exact ⟨Prog.run_bind_of_error hwait _, (Prog.trace_bind_of_error hwait _).trans htrace⟩
  · obtain ⟨current, hlast, hcurrent⟩ := @lastLook_of_state uuid _ _ hstate
    have hwait : (waitForIssue diffEngine uuid stale polls).run srv s =
        (.ok current, (settled srv uuid stale polls s).2) := hrun.trans (by rw [hlast]; rfl)
    refine ⟨(Prog.run_bind_of_ok hwait _).trans ?_, (Prog.trace_bind_of_ok hwait _).trans ?_⟩
    · simp [hcurrent, Prog.ofExcept]
    · simp [hcurrent, Prog.ofExcept, htrace]

/-- One look and what stands behind it. -/
theorem goesOn_get {α : Type} (f : IssueState → M α) :
    GoesOn srv uuid (get diffEngine uuid >>= fun current => .ofExcept (issueState current) >>= f)
      s (srv (getRequest uuid) s) f := by
  refine ⟨[], by simp, fun exc hstate => ?_, fun st hstate => ?_⟩
  · rw [get_eq, Prog.call_bind, Prog.run_call, Prog.trace_call]
    cases hview : view (srv (getRequest uuid) s).1 with
    | error exc' =>
      obtain ⟨hrun, htrace⟩ := @run_look_bind_of_error _ srv
        (srv (getRequest uuid) s).2 uuid _ _ _ hview
        fun current => .ofExcept (issueState current) >>= f
      have hexc : exc' = exc := by simpa [stateOf, hview] using hstate
      rw [hrun, htrace, hexc]
      exact ⟨rfl, rfl⟩
    | ok current =>
      have hissue : issueState current = .error exc := by simpa [stateOf, hview] using hstate
      rw [look_of_view hview]
      simp [hissue, Prog.ofExcept]
  · rw [get_eq, Prog.call_bind, Prog.run_call, Prog.trace_call]
    cases hview : view (srv (getRequest uuid) s).1 with
    | error exc' => simp [stateOf, hview] at hstate
    | ok current =>
      have hissue : issueState current = .ok st := by simpa [stateOf, hview] using hstate
      rw [look_of_view hview]
      simp [hissue, Prog.ofExcept]

/-- The last reply before the decision to sign, and the state behind it. -/
def lastBefore (srv : Appliance σ) (uuid : Json) (checkMode : Bool) (polls : ℕ) (s : σ) :
    Reply × σ :=
  let first := srv (getRequest uuid) s
  if shows (·.isRunning) first.1 && !checkMode then settled srv uuid none polls first.2 else first

/-- The decision is taken on the state that the last look before it showed. -/
theorem goesOn_currentIssue {α : Type} (checkMode : Bool) (f : IssueState → M α) :
    GoesOn srv uuid (currentIssue diffEngine uuid checkMode polls >>= f) s
      (lastBefore srv uuid checkMode polls s) f := by
  let next (st : IssueState) : M α :=
    if st.isRunning && !checkMode then
      waitForIssue diffEngine uuid none polls >>= fun current =>
        .ofExcept (issueState current) >>= f
    else f st
  have hprogram : currentIssue diffEngine uuid checkMode polls >>= f =
      get diffEngine uuid >>= fun current => .ofExcept (issueState current) >>= next := by
    simp only [currentIssue, bind_assoc]
    refine congrArg _ (funext fun current => congrArg _ (funext fun st => ?_))
    by_cases hwait : (st.isRunning && !checkMode) = true
    · simp only [next, if_pos hwait, bind_assoc]
    · simp only [next, if_neg hwait]
      rfl
  rw [hprogram]
  -- one look always, and the looks of the wait behind it if a run is in progress
  have hfirst := @goesOn_get _ diffEngine srv s uuid _ next
  cases hstate : stateOf (srv (getRequest uuid) s).1 with
  | error exc =>
    have hlast : lastBefore srv uuid checkMode polls s = srv (getRequest uuid) s := by
      simp [lastBefore, shows, hstate]
    rw [hlast]
    exact hfirst.of_error hstate
  | ok st =>
    by_cases hwait : (st.isRunning && !checkMode) = true
    · -- the wait for the run in progress
      have hlast : lastBefore srv uuid checkMode polls s =
          settled srv uuid none polls (srv (getRequest uuid) s).2 := by
        simp only [lastBefore, shows, hstate, if_pos hwait]
      have hnext : next st = (waitForIssue diffEngine uuid none polls >>= fun current =>
        .ofExcept (issueState current) >>= f) := if_pos hwait
      rw [hlast]
      exact hfirst.trans hstate (hnext ▸ goesOn_wait f)
    · have hlast : lastBefore srv uuid checkMode polls s = srv (getRequest uuid) s := by
        simp only [lastBefore, shows, hstate, if_neg hwait]
      have hnext : next st = f st := if_neg hwait
      rw [hlast]
      exact hfirst.congr hstate hnext

/-- What `signAndWait` returns for the state it ended with. -/
def issueResult (uuid : Json) (st after : IssueState) : EnsureResult where
  changed := true
  action := issueAction st
  uuid := some uuid
  before := some st.toJson
  after := some after.toJson

/-- The verdict over the state after the sign. -/
def judge (uuid : Json) (st after : IssueState) : M EnsureResult :=
  if after.isIssued then return issueResult uuid st after
  else do
    let id := pyStr uuid
    log .error s!"{(issueAction st).text} failed acme cert uuid={id} statusCode={after.status}"
      [("action", .str s!"{(issueAction st).text}_failed"), ("endpoint", .str endpoint),
        ("uuid", uuid)]
    .raise (issueFailed (issueAction st) uuid after.status)

theorem trace_judge (after : IssueState) : (judge uuid st after).trace srv s = [] := by
  unfold judge
  split <;> rfl

theorem signAndWait_eq : signAndWait diffEngine uuid st polls =
    invoke "sign" uuid (issueAction st) >>= fun _ =>
      waitForIssue diffEngine uuid (some st.stamp) polls >>= fun current =>
        .ofExcept (issueState current) >>= judge uuid st := rfl

theorem run_invoke (verb : String) (action : Action) :
    ((invoke verb uuid action).trace srv s =
        [(verbRequest verb uuid, (srv (verbRequest verb uuid) s).1)]) ∧
      ((invoke verb uuid action).run srv s).2 = (srv (verbRequest verb uuid) s).2 ∧
      ∀ r, ((invoke verb uuid action).run srv s).1 = .ok r →
        ∃ body, (srv (verbRequest verb uuid) s).1 = .ok (.obj body) := by
  rcases hsrv : srv (verbRequest verb uuid) s with ⟨exc | body, s₁⟩
  · simp [invoke, Prog.run_bind, Prog.trace_bind, hsrv]
  · cases body <;> simp [invoke, Prog.run_bind, Prog.trace_bind, hsrv, asDict]

/-- A sign that was answered by a dict. -/
theorem run_invoke_of_dict {verb : String} {action : Action} {body : Obj}
    (h : (srv (verbRequest verb uuid) s).1 = .ok (.obj body)) :
    ∃ r, (invoke verb uuid action).run srv s = (.ok r, (srv (verbRequest verb uuid) s).2) := by
  simp [invoke, Prog.run_bind, h, asDict]

theorem trace_signAndWait : ∃ reply looks, (signAndWait diffEngine uuid st polls).trace srv s =
    (verbRequest "sign" uuid, reply) :: looks ∧ ∀ qr ∈ looks, qr.1 = getRequest uuid := by
  obtain ⟨htrace, -, -⟩ := @run_invoke _ srv s uuid "sign" (issueAction st)
  rw [signAndWait_eq]
  rcases hrun : (invoke "sign" uuid (issueAction st)).run srv s with ⟨exc | r, s₁⟩
  · rw [Prog.trace_bind_of_error hrun, htrace]
    exact ⟨_, [], rfl, by simp⟩
  · rw [Prog.trace_bind_of_ok hrun, htrace]
    refine ⟨_, _, rfl, ?_⟩
    obtain ⟨polled, hpolled, herror, hok⟩ := @goesOn_wait _ diffEngine srv s₁ uuid
      (some st.stamp) polls _ (judge uuid st)
    have hall : ∀ qr ∈ polled ++
        [(getRequest uuid, (settled srv uuid (some st.stamp) polls s₁).1)],
        qr.1 = getRequest uuid := List.forall_mem_append.mpr ⟨hpolled, by simp⟩
    cases hstate : stateOf (settled srv uuid (some st.stamp) polls s₁).1 with
    | error exc =>
      rw [(herror exc hstate).2]
      exact hall
    | ok after =>
      rw [(hok after hstate).2, trace_judge]
      exact hall

/-- A sign that was reported: it was answered, and the wait behind it ended with a leaf. -/
theorem returns_signAndWait (h : (signAndWait diffEngine uuid st polls).Returns srv s r s' t) :
    ∃ body after polled, (srv (verbRequest "sign" uuid) s).1 = .ok (.obj body) ∧
      let last := settled srv uuid (some st.stamp) polls (srv (verbRequest "sign" uuid) s).2
      stateOf last.1 = .ok after ∧ after.isIssued = true ∧ r = issueResult uuid st after ∧
      (∀ qr ∈ polled, qr.1 = getRequest uuid) ∧
      t = (verbRequest "sign" uuid, .ok (.obj body)) ::
        (polled ++ [(getRequest uuid, last.1)]) := by
  rw [signAndWait_eq] at h
  obtain ⟨r₁, s₁, t₁, t₂, hinvoke, hwait, rfl⟩ := Prog.returns_bind.mp h
  obtain ⟨htrace, hstate, hdict⟩ :=
    @run_invoke _ srv s uuid "sign" (issueAction st)
  obtain ⟨hrun, rfl⟩ := hinvoke
  -- the sign itself returns only for an object as its reply
  obtain ⟨body, hbody⟩ := hdict r₁ (by rw [hrun])
  obtain rfl : s₁ = (srv (verbRequest "sign" uuid) s).2 := by rw [← hstate, hrun]
  obtain ⟨polled, hpolled, herror, hok⟩ := @goesOn_wait _ diffEngine srv
    (srv (verbRequest "sign" uuid) s).2 uuid (some st.stamp) polls _ (judge uuid st)
  obtain ⟨hrun', rfl⟩ := hwait
  cases hlast : stateOf (settled srv uuid (some st.stamp) polls
      (srv (verbRequest "sign" uuid) s).2).1 with
  | error exc =>
    rw [(herror exc hlast).1] at hrun'
    cases hrun'
  | ok after =>
    rw [(hok after hlast).1] at hrun'
    rw [(hok after hlast).2, htrace, trace_judge, hbody]
    by_cases hissued : after.isIssued = true
    · simp only [judge, if_pos hissued, Prog.pure_eq_ret, Prog.run_ret, Prod.mk.injEq,
        Except.ok.injEq] at hrun'
      exact ⟨body, after, polled, rfl, hlast, hissued, hrun'.1.symm, hpolled, rfl⟩
    · simp [judge, if_neg hissued, Prog.run_bind] at hrun'

theorem signAndWait_returns {body : Obj} {after : IssueState}
    (hbody : (srv (verbRequest "sign" uuid) s).1 = .ok (.obj body))
    (hlast : stateOf (settled srv uuid (some st.stamp) polls
      (srv (verbRequest "sign" uuid) s).2).1 = .ok after) (hissued : after.isIssued = true) :
    ∃ s' t, (signAndWait diffEngine uuid st polls).Returns srv s (issueResult uuid st after)
      s' t := by
  obtain ⟨r₁, hinvoke⟩ := @run_invoke_of_dict _ srv s uuid _ (issueAction st) _ hbody
  obtain ⟨polled, -, -, hok⟩ := @goesOn_wait _ diffEngine srv
    (srv (verbRequest "sign" uuid) s).2 uuid (some st.stamp) polls _ (judge uuid st)
  have hrun : (signAndWait diffEngine uuid st polls).run srv s = (.ok (issueResult uuid st after),
      (settled srv uuid (some st.stamp) polls (srv (verbRequest "sign" uuid) s).2).2) := by
    rw [signAndWait_eq, Prog.run_bind_of_ok hinvoke, (hok after hlast).1, judge, if_pos hissued]
    rfl
  exact ⟨_, _, Prog.returns_of_run hrun⟩

end AcmeCertificateManager
end Opnsense
