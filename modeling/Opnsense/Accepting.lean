import Opnsense.AcmeAccount
import Opnsense.AcmeSettings
import Opnsense.FinalReply
import Opnsense.Raises

namespace Opnsense
open Interaction

/-- The errors `ensure` raises because of its arguments. -/
def Exc.isArgument : Exc → Bool
  | .valueError _ => true
  | .fieldValidation .. => true
  | _ => false

theorem missingOrEmpty_argument {field : String} {value : Json} {required : Bool} {e : Exc}
    (h : missingOrEmpty field value required = .error e) : e.isArgument = true := by
  unfold missingOrEmpty at h
  split at h
  · cases h
    rfl
  · cases h

mutual

/-- A field that fails its check is reported as an error of that field. -/
theorem validateField_argument (reg : ValidatorRegistry) {params : Obj} {field : String}
    {e : Exc} (spec : FieldSpec) (h : reg.validateField params field spec = .error e) :
    e.isArgument = true := by
  cases spec with
  | rule r =>
    simp only [ValidatorRegistry.validateField] at h
    split at h
    · exact missingOrEmpty_argument h
    · split at h
      · cases h
      · rename_i validator _
        rcases hres : validator field (pyStr (params.getD field .null)) r with e' | u
        · rw [hres] at h
          cases h
          cases e' <;> rfl
        · rw [hres] at h
          cases h
  | dict required fields =>
    simp only [ValidatorRegistry.validateField] at h
    split at h
    · exact missingOrEmpty_argument h
    · split at h
      · exact validateParams_argument reg fields h
      · cases h
        rfl

theorem validateParams_argument (reg : ValidatorRegistry) {params : Obj} {e : Exc}
    (specs : List (String × FieldSpec)) (h : reg.validateParams params specs = .error e) :
    e.isArgument = true := by
  rcases specs with _ | ⟨⟨field, spec⟩, rest⟩
  · cases h
  · simp only [ValidatorRegistry.validateParams] at h
    split at h
    · rename_i e' hfield
      cases h
      exact validateField_argument reg spec hfield
    · exact validateParams_argument reg rest h

end

/-- Errors that are not about the arguments. -/
abbrev NotArgument : Exc → Prop := fun e => e.isArgument = false

theorem notArgument_of_python (e : Exc) (h : e.isPython = true) : NotArgument e := by
  cases e with
  | valueError _ => cases h
  | fieldValidation _ _ _ => cases h
  | _ => rfl

section Client

variable {S : Type} {client : OpnsenseClient} {net : Server HttpRequest HttpReply S} {x : S}

open OpnsenseClient

theorem notArgument_of_reads {r : Reading} {o : Except Exc Json} (h : OpnsenseClient.Reads r o) :
    RepliesIn NotArgument o := by
  intro e he
  cases r with
  | body v =>
    rw [show o = _ from h] at he
    cases he
  | undecodable message =>
    rw [show o = _ from h] at he
    cases he
    rfl
  | refused =>
    obtain ⟨e', rfl⟩ := h
    cases he
    rfl

theorem run_request_notArgument (method : Method) (endpoint : String) (data : Obj)
    (opts : CallOptions) :
    RepliesIn NotArgument ((client.request method endpoint data opts).run net x).1 := by
  obtain ⟨o, hrun, hreads⟩ := @run_request_reads _ client net method endpoint data opts x
  rw [hrun]
  exact notArgument_of_reads hreads

/-- A method that goes on from the body of a request. -/
theorem run_bind_notArgument {p : H Json} {f : Json → H Json}
    (hp : RepliesIn NotArgument (p.run net x).1)
    (hf : ∀ v x', RepliesIn NotArgument ((f v).run net x').1) :
    RepliesIn NotArgument ((p >>= f).run net x).1 := by
  rcases hrun : p.run net x with ⟨e | v, x'⟩
  · rw [Prog.run_bind_of_error hrun]
    rwa [hrun] at hp
  · rw [Prog.run_bind_of_ok hrun]
    exact hf v x'

/-- The client refuses no arguments of `ensure`: its errors are about what it was answered. -/
theorem appliance_notArgument (q : Request) (x : S) :
    RepliesIn NotArgument (client.appliance net q x).1 := by
  cases q with
  | get ep opts => exact run_request_notArgument _ _ _ _
  | post ep data opts => exact run_request_notArgument _ _ _ _
  | update action uuid payloadKey params => exact run_request_notArgument _ _ _ _
  | delete action uuid => exact run_request_notArgument _ _ _ _
  | search action phrase rowCount =>
    apply run_bind_notArgument (run_request_notArgument _ _ _ _)
    intro v x' e he
    rw [Prog.run_ofExcept] at he
    cases v <;> cases he <;> rfl
  | create action payloadKey params =>
    apply run_bind_notArgument (run_request_notArgument _ _ _ _)
    intro v x' e he
    rw [Prog.run_ofExcept] at he
    cases v with
    | obj fs =>
      simp only [createdUuid] at he
      split at he
      · cases he
      · cases he
        rfl
    | _ => cases he; rfl
  | reconfigure action opts =>
    apply run_bind_notArgument (run_request_notArgument _ _ _ _)
    intro v x' e he
    cases hrefusal : refusal v with
    | none =>
      simp only [hrefusal, Prog.run_ret] at he
      cases he
    | some message =>
      simp only [hrefusal, Prog.run_emit, Prog.run_raise] at he
      cases he
      rfl

end Client

section Parts

/-- Nothing is asked, and what is raised is raised before anything else. -/
abbrev Quiet {α : Type} (p : M α) : Prop := p.Asks fun _ => False

/-- Errors about the arguments come before the first request. -/
abbrev ChecksFirst {α : Type} (p : M α) : Prop :=
  p.Upfront (RepliesIn NotArgument) NotArgument

/-- No errors about the arguments. -/
abbrev Accepting {α : Type} (p : M α) : Prop :=
  p.RaisesOnly (RepliesIn NotArgument) NotArgument

theorem quiet_logError_ofExcept {α : Type} (r : Except Exc α) (message : Exc → String)
    (extra : Exc → Obj) : Quiet (logError (.ofExcept r) message extra) :=
  asks_logError (Prog.asks_ofExcept r) message extra

theorem accepting_ofExcept {α : Type} {r : Except Exc α}
    (h : ∀ e, r = .error e → e.isPython = true) : Accepting (Prog.ofExcept r) :=
  Prog.raisesOnly_ofExcept fun e he => notArgument_of_python e (h e he)

variable {m : BaseManager} {params : Obj} {check dedupe force : Bool} {uuid : Option String}

theorem quiet_validate (state : String) : Quiet (m.validate state params) := by
  unfold BaseManager.validate
  split
  · trivial
  · split
    · exact quiet_logError_ofExcept _ _ _
    · trivial

/-- Behind the checks of `ensure` no argument is refused. -/
theorem accepting_rest (state : String) : Accepting (do
    let (existing, deduped) ← m.resolve params check uuid dedupe
    let result ← m.converge state params check force existing
    return BaseManager.withDedupe result deduped : M EnsureResult) := by
  apply Prog.raisesOnly_bind
  · exact BaseManager.raises_resolve_of_ambiguous notArgument_of_python fun _ _ => rfl
  · rintro ⟨existing, deduped⟩
    exact Prog.raisesOnly_bind (BaseManager.raises_converge notArgument_of_python state existing)
      fun _ => trivial

theorem checksFirst_ensure (state : String) :
    ChecksFirst (m.ensure state params check uuid dedupe force) :=
  Prog.upfront_bind_of_quiet (quiet_validate state) fun _ => (accepting_rest state).upfront

end Parts

namespace BaseSingletonManager

variable {m : BaseSingletonManager} {params : Obj} {check : Bool}

theorem accepting_get : Accepting m.get := by
  apply Prog.raisesOnly_bind (raises_logError (raises_await _))
  intro body
  apply Prog.raisesOnly_bind (accepting_ofExcept fun _ he => unwrap_python he)
  intro inner
  trivial

theorem accepting_diff (before : Json) : Accepting (m.diff before params) := by
  apply raises_logError
  apply accepting_ofExcept
  intro e he
  cases before with
  | obj current => cases he
  | _ =>
    cases params with
    | nil => cases he
    | cons kv rest =>
      cases he
      rfl

theorem accepting_apply : Accepting m.apply := by
  unfold apply
  split
  · trivial
  · exact Prog.raisesOnly_bind (raises_logError (raises_await _)) fun _ => trivial

theorem accepting_redact (fields : List String) (v : Json) :
    Accepting (Prog.ofExcept (redactDict fields v)) :=
  accepting_ofExcept fun _ he => redactDict_python he

theorem accepting_spread (v : Json) : Accepting (Prog.ofExcept (spread v)) := by
  apply accepting_ofExcept
  intro e he
  cases v <;> cases he <;> rfl

theorem accepting_post (data : Obj) (ep : Endpoint) : Accepting (do
    let _ ← await (.post ep data)
    m.apply : M Unit) :=
  Prog.raisesOnly_bind (raises_await _) fun _ => accepting_apply

theorem accepting_set : Accepting (m.set params check) := by
  apply Prog.raisesOnly_bind accepting_get
  intro before
  apply Prog.raisesOnly_bind (accepting_diff before)
  intro diff
  apply Prog.raisesOnly_bind (accepting_redact _ _)
  intro redactedBefore
  cases diff.isNone with
  | true => trivial
  | false =>
    apply Prog.raisesOnly_bind (accepting_spread before)
    intro current
    apply Prog.raisesOnly_bind (accepting_redact _ _)
    intro redactedAfter
    cases check with
    | true => trivial
    | false =>
      apply Prog.raisesOnly_bind (raises_logError (accepting_post _ _))
      intro _
      apply Prog.raisesOnly_bind accepting_get
      intro actualAfter
      exact Prog.raisesOnly_bind (accepting_redact _ _) fun _ => trivial

theorem quiet_validate (state : String) : Quiet (m.validate state params) := by
  unfold validate
  split
  · trivial
  · split
    · exact quiet_logError_ofExcept _ _ _
    · trivial

theorem checksFirst_ensure (state : String) : ChecksFirst (m.ensure state params check) :=
  Prog.upfront_bind_of_quiet (quiet_validate state) fun _ => accepting_set.upfront

end BaseSingletonManager

theorem accepting_asDict (v : Json) : Accepting (Prog.ofExcept (asDict v)) :=
  accepting_ofExcept fun _ he => asDict_python he

namespace AcmeSettingsManager

variable {diffEngine : DiffEngine} {params : Obj} {check : Bool}

theorem accepting_get : Accepting (get diffEngine) := by
  apply Prog.raisesOnly_bind BaseSingletonManager.accepting_get
  intro body
  apply accepting_ofExcept
  intro e he
  cases body <;> cases he <;> rfl

theorem accepting_set : Accepting (set diffEngine params check) := by
  apply Prog.raisesOnly_bind accepting_get
  intro before
  apply Prog.raisesOnly_bind (BaseSingletonManager.accepting_diff before)
  intro diff
  apply Prog.raisesOnly_bind (BaseSingletonManager.accepting_redact _ _)
  intro redactedBefore
  cases diff.isNone with
  | true => trivial
  | false =>
    apply Prog.raisesOnly_bind (BaseSingletonManager.accepting_spread before)
    intro current
    apply Prog.raisesOnly_bind (BaseSingletonManager.accepting_redact _ _)
    intro redactedAfter
    cases check with
    | true => trivial
    | false =>
      apply Prog.raisesOnly_bind (raises_logError (BaseSingletonManager.accepting_post _ _))
      intro _
      apply Prog.raisesOnly_bind accepting_get
      intro actualAfter
      exact Prog.raisesOnly_bind (BaseSingletonManager.accepting_redact _ _) fun _ => trivial

theorem withCron_python {after : Option Json} {fields : Obj} {e : Exc}
    (h : withCron after fields = .error e) : e.isPython = true := by
  cases after with
  | none => cases h
  | some v =>
    cases hv : v.truthy with
    | false =>
      simp only [withCron, hv] at h
      cases h
    | true =>
      simp only [withCron, hv] at h
      cases v <;> cases h <;> rfl

theorem accepting_cronResult (result : EnsureResult) (body : Json) :
    Accepting (cronResult result body) := by
  apply Prog.raisesOnly_bind (accepting_asDict body)
  intro fields
  dsimp only
  -- the outcome is any text here: the case split would try to evaluate it
  generalize cronOutcome fields = outcome
  split
  · apply Prog.raisesOnly_bind (Prog.raisesOnly_tell _)
    intro _
    exact Prog.raisesOnly_bind (accepting_ofExcept fun _ he => withCron_python he) fun _ => trivial
  · split
    · exact rfl
    · trivial

theorem checksFirst_ensure (state : String) (cron : Bool) :
    ChecksFirst (ensure diffEngine state params check cron) := by
  apply Prog.upfront_bind_of_quiet (BaseSingletonManager.quiet_validate state)
  intro _
  apply Prog.RaisesOnly.upfront
  apply Prog.raisesOnly_bind accepting_set
  intro result
  split
  · trivial
  · exact Prog.raisesOnly_bind (raises_await _) (accepting_cronResult result)

end AcmeSettingsManager

namespace AcmeAccountManager

variable {diffEngine : DiffEngine}

theorem accepting_register (uuid : Json) : Accepting (register uuid) := by
  apply Prog.raisesOnly_bind (raises_logError (raises_await _))
  intro body
  exact Prog.raisesOnly_bind (accepting_asDict body) fun _ => trivial

theorem accepting_registerUnlessDone (result : EnsureResult) (uuid : Json) (check : Bool) :
    Accepting (registerUnlessDone diffEngine result uuid check) := by
  apply Prog.raisesOnly_bind (BaseManager.raises_get notArgument_of_python _)
  intro current
  apply Prog.raisesOnly_bind (accepting_asDict current)
  intro fields
  dsimp only
  generalize AcmeCertificateManager.issueText fields "statusCode" = status
  split
  · trivial
  · cases check with
    | true => trivial
    | false => exact Prog.raisesOnly_bind (accepting_register uuid) fun _ => trivial

theorem checksFirst_ensure (state : String) (params : Obj) (check : Bool)
    (uuid : Option String) : ChecksFirst (ensure diffEngine state params check uuid) := by
  unfold ensure
  split
  · exact Opnsense.checksFirst_ensure state
  · apply (Opnsense.checksFirst_ensure "present").bind
    intro result
    split
    · trivial
    · exact accepting_registerUnlessDone _ _ _

end AcmeAccountManager

namespace AcmeCertificateManager

variable {diffEngine : DiffEngine}

theorem issueState_python {current : Json} {e : Exc} (h : issueState current = .error e) :
    e.isPython = true := by
  cases current <;> cases h <;> rfl

theorem accepting_issueState (current : Json) :
    Accepting (Prog.ofExcept (issueState current)) :=
  accepting_ofExcept fun _ he => issueState_python he

theorem accepting_get (uuid : Json) : Accepting (get diffEngine uuid) :=
  BaseManager.raises_get notArgument_of_python uuid

theorem accepting_waitForIssue (uuid : Json) (staleStamp : Option String) (polls : ℕ) :
    Accepting (waitForIssue diffEngine uuid staleStamp polls) := by
  induction polls with
  | zero =>
    apply Prog.raisesOnly_bind (accepting_get uuid)
    intro current
    exact Prog.raisesOnly_bind (accepting_issueState current) fun _ => trivial
  | succ polls ih =>
    apply Prog.raisesOnly_bind (accepting_get uuid)
    intro current
    apply Prog.raisesOnly_bind (accepting_issueState current)
    intro st
    split
    · exact Prog.raisesOnly_bind (Prog.raisesOnly_tell _) fun _ => ih
    · trivial

theorem accepting_invoke (verb : String) (uuid : Json) (action : Action) :
    Accepting (invoke verb uuid action) := by
  apply Prog.raisesOnly_bind (raises_logError (raises_await _))
  intro body
  exact Prog.raisesOnly_bind (accepting_asDict body) fun _ => trivial

theorem accepting_currentIssue (uuid : Json) (check : Bool) (polls : ℕ) :
    Accepting (currentIssue diffEngine uuid check polls) := by
  apply Prog.raisesOnly_bind (accepting_get uuid)
  intro current
  apply Prog.raisesOnly_bind (accepting_issueState current)
  intro st
  split
  · exact Prog.raisesOnly_bind (accepting_waitForIssue uuid none polls) accepting_issueState
  · trivial

theorem accepting_signAndWait (uuid : Json) (st : IssueState) (polls : ℕ) :
    Accepting (signAndWait diffEngine uuid st polls) := by
  apply Prog.raisesOnly_bind (accepting_invoke _ _ _)
  intro _
  apply Prog.raisesOnly_bind (accepting_waitForIssue _ _ _)
  intro final
  apply Prog.raisesOnly_bind (accepting_issueState final)
  intro after
  split
  · trivial
  · exact Prog.raisesOnly_bind (Prog.raisesOnly_tell _) fun _ => rfl

theorem accepting_issue (result : EnsureResult) (uuid : Json) (check renew : Bool)
    (polls polls' : ℕ) : Accepting (issue diffEngine result uuid check renew polls polls') := by
  apply Prog.raisesOnly_bind (accepting_currentIssue uuid check polls)
  intro st
  dsimp only
  cases (st.isIssued && !renew) with
  | true => trivial
  | false =>
    cases check with
    | true => trivial
    | false => exact accepting_signAndWait uuid st polls'

theorem checksFirst_ensure (state : String) (params : Obj) (check : Bool)
    (uuid : Option String) (renew : Bool) (polls polls' : ℕ) :
    ChecksFirst (ensure diffEngine state params check uuid renew polls polls') := by
  unfold ensure
  split
  · exact Opnsense.checksFirst_ensure state
  · apply (Opnsense.checksFirst_ensure "present").bind
    intro result
    split
    · trivial
    · exact accepting_issue _ _ _ _ _ _

end AcmeCertificateManager
end Opnsense
