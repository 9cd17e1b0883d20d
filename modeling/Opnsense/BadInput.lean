import Opnsense.Accepting
import Opnsense.EnableFlag
import Opnsense.RedactedKeys

namespace Opnsense
open Interaction

def MonitServiceManager (diffEngine : DiffEngine) : BaseManager where
  className := "MonitServiceManager"
  config := { base := "monit/settings", payloadKey := "service", entitySuffix := some "Service"
              applyEndpoint := some "monit/service/reconfigure" }
  matchKeys := ["name"]
  matchKeys_ne := nameKey_ne
  validators :=
    [("name", requiredStr (some 255)),
      ("enabled", boolStrField),
      ("description", strField (some 255)),
      ("type", enumField ["process", "file", "fifo", "filesystem", "directory", "host", "system",
        "custom", "network"])] ++
      each (strField (some 255)) ["pidfile", "match", "path"] ++
      each (strField (some 10)) ["timeout", "starttimeout"] ++
      each (strField (some 255)) ["address", "interface"] ++
      each strField ["tests", "depends"] ++
      each (strField (some 255)) ["start", "stop", "polltime"]
  diffEngine := diffEngine
  registry := validatorRegistry

/-- What a caller gives to `ensure`; the classes without a uuid of their own take no more than
`state`, `params` and `checkMode`. -/
structure Arguments where
  state : String
  params : Obj
  checkMode : Bool := false
  uuid : Option String := none
  dedupe : Bool := false
  forceUpdate : Bool := false

/-- The classes that inherit `ensure` from `BaseManager` or `BaseSingletonManager`, and those that
override it, with what an instance or a call of theirs has besides the arguments. -/
inductive ManagedClass where
  | inherited (m : BaseManager)
  | monitAlert (diffEngine : DiffEngine)
  | monitService (diffEngine : DiffEngine)
  | oneToOne (diffEngine : DiffEngine)
  | route (diffEngine : DiffEngine) (enableField : Option String)
  | acmeAccount (diffEngine : DiffEngine)
  | acmeCertificate (diffEngine : DiffEngine) (renew : Bool) (polls polls' : ℕ)
  | singleton (m : BaseSingletonManager)
  | settings (c : SettingsManager)
  | acmeSettings (diffEngine : DiffEngine) (cron : Bool)

namespace ManagedClass

/-- `ensure` of the class. -/
def program (a : Arguments) : ManagedClass → M EnsureResult
  | inherited m => m.ensure a.state a.params a.checkMode a.uuid a.dedupe a.forceUpdate
  | monitAlert diffEngine =>
    let params := if a.state = "present" then MonitAlertManager.prepare a.params else a.params
    (MonitAlertManager diffEngine).ensure a.state params a.checkMode a.uuid a.dedupe a.forceUpdate
  | monitService diffEngine =>
    let params :=
      if a.state = "present" then normalizeFields ["tests", "depends"] a.params else a.params
    (MonitServiceManager diffEngine).ensure a.state params a.checkMode a.uuid a.dedupe
      a.forceUpdate
  | oneToOne diffEngine =>
    FwOneToOneManager.ensure diffEngine a.state a.params a.checkMode a.uuid a.dedupe a.forceUpdate
  | route diffEngine enableField =>
    RtRouteManager.ensure diffEngine enableField a.state a.params a.checkMode a.uuid a.dedupe
      a.forceUpdate
  | acmeAccount diffEngine =>
    AcmeAccountManager.ensure diffEngine a.state a.params a.checkMode a.uuid
  | acmeCertificate diffEngine renew polls polls' =>
    AcmeCertificateManager.ensure diffEngine a.state a.params a.checkMode a.uuid renew polls polls'
  | singleton m => m.ensure a.state a.params a.checkMode
  | settings c => c.ensure a.state a.params a.checkMode
  | acmeSettings diffEngine cron =>
    AcmeSettingsManager.ensure diffEngine a.state a.params a.checkMode cron

/-- Whatever the network answers, no request was sent by a call that refuses its arguments. -/
def RefusesUpfront (a : Arguments) (c : ManagedClass) : Prop :=
  ∀ (S : Type) (client : OpnsenseClient) (net : Server HttpRequest HttpReply S) (x x' : S)
    (e : Exc), (c.program a).run (client.appliance net) x = (.error e, x') →
    e.isArgument = true → (c.program a).trace (client.appliance net) x = []

end ManagedClass

theorem FwOneToOneManager.checksFirst_ensure {diffEngine : DiffEngine} (state : String)
    (params : Obj) (check dedupe force : Bool) (uuid : Option String) :
    ChecksFirst (FwOneToOneManager.ensure diffEngine state params check uuid dedupe force) :=
  Prog.upfront_bind_of_quiet (Prog.asks_ofExcept _) fun _ => Opnsense.checksFirst_ensure state

theorem validateField_unset {params : Obj} {key : String} (h : params.lookup key = none) :
    validatorRegistry.validateField params key boolStrField = .ok () := by
  have hget : params.getD key .null = .null := by rw [Obj.getD, h]; rfl
  simp only [boolStrField, ValidatorRegistry.validateField, hget]
  rfl

theorem validateField_flagOf {params : Obj} {key : String} {isOn : Bool}
    (h : params.lookup key = some (flagOf isOn)) :
    validatorRegistry.validateField params key boolStrField = .ok () := by
  simp only [boolStrField, ValidatorRegistry.validateField, Obj.getD_of_lookup h]
  cases isOn <;> rfl

namespace RtRouteManager

variable {diffEngine : DiffEngine} {state : String} {params : Obj} {check dedupe force : Bool}
  {uuid : Option String} {S : Type} {client : OpnsenseClient}
  {net : Server HttpRequest HttpReply S} {x x' : S}

/-- The first call with an enable flag asks the appliance how it calls the flag. -/
def asksForFlag (enableField : Option String) (params : Obj) : Bool :=
  enableField.isNone && hasFlag params && !contradicts params

theorem quiet_deviceEnableFlag {enableField : Option String}
    (h : asksForFlag enableField params = false) :
    Quiet (deviceEnableFlag diffEngine enableField params) := by
  unfold deviceEnableFlag
  split
  · trivial
  · rename_i hflag
    split
    · trivial
    · rename_i hagree
      cases enableField with
      | some field => trivial
      | none =>
        have hask : asksForFlag none params = true := by
          simpa [asksForFlag, hagree] using hflag
        exact absurd (hask.symm.trans h) (by simp)

theorem checksFirst_ensure {enableField : Option String}
    (h : asksForFlag enableField params = false) :
    ChecksFirst (RtRouteManager.ensure diffEngine enableField state params check uuid dedupe
      force) :=
  Prog.upfront_bind_of_quiet (quiet_deviceEnableFlag h) fun _ => Opnsense.checksFirst_ensure state

theorem flag_declared (diffEngine : DiffEngine) : ∀ fs ∈ (RtRouteManager diffEngine).validators,
    fs.1 ∈ flagKeys → fs.2 = boolStrField := by
  simp [RtRouteManager, flagKeys]

/-- Of the two flags one is left out and the other is `"0"` or `"1"`. -/
theorem lookup_flag_translated (field : String) (params : Obj) {key : String}
    (hkey : key ∈ flagKeys) : (translated field params).lookup key = none ∨
      ∃ isOn, (translated field params).lookup key = some (flagOf isOn) := by
  by_cases hname : key = flagName field
  · refine Or.inr ⟨if field = "enabled" then wantsEnabled params else !wantsEnabled params, ?_⟩
    rw [lookup_translated, if_pos hname]
    rfl
  · refine Or.inl ?_
    rw [lookup_translated, if_neg hname, lookup_without_of_mem params hkey]

/-- The flag itself passes its check under either name, so the other fields decide. -/
theorem validateParams_translated (diffEngine : DiffEngine) (params : Obj) (field : String) :
    validatorRegistry.validateParams (translated field params)
        (RtRouteManager diffEngine).validators =
      validatorRegistry.validateParams (without flagKeys params)
        (RtRouteManager diffEngine).validators := by
  apply ValidatorRegistry.validateParams_congr
  intro fs hfs
  by_cases hkey : fs.1 ∈ flagKeys
  · have hpasses : validatorRegistry.validateField (translated field params) fs.1 boolStrField =
        .ok () := by
      rcases lookup_flag_translated field params hkey with hnone | ⟨isOn, hval⟩
      · exact validateField_unset hnone
      · exact validateField_flagOf hval
    rw [flag_declared diffEngine fs hfs hkey, hpasses]
    exact (validateField_unset (lookup_without_of_mem params hkey)).symm
  · have hne : fs.1 ≠ flagName field := fun heq => hkey (heq ▸ flagName_mem field)
    apply ValidatorRegistry.validateField_congr
    rw [lookup_translated, if_neg hne]

/-- The checks of the inherited `ensure` fail, whatever the flags say. -/
def Rejected (diffEngine : DiffEngine) (state : String) (params : Obj) : Prop :=
  (state ≠ "present" ∧ state ≠ "absent") ∨
    state = "present" ∧ ∃ e, validatorRegistry.validateParams (without flagKeys params)
      (RtRouteManager diffEngine).validators = .error e

theorem accepting_validate (field : String) (h : ¬ Rejected diffEngine state params) :
    Accepting ((RtRouteManager diffEngine).validate state (translated field params)) := by
  obtain ⟨hstate, hvalid⟩ := not_or.mp h
  unfold BaseManager.validate
  rw [if_neg hstate]
  split
  · rename_i hpresent
    apply raises_logError
    apply Prog.raisesOnly_ofExcept
    intro e he
    have hrefused := (validateParams_translated diffEngine params field).symm.trans he
    exact absurd ⟨hpresent.1, e, hrefused⟩ hvalid
  · trivial

/-- Whatever the field, what the checks reject is about the arguments. -/
theorem run_validate_of_rejected (field : String) (h : Rejected diffEngine state params)
    {σ : Type} (srv : Appliance σ) (s : σ) : ∃ e, e.isArgument = true ∧
      ((RtRouteManager diffEngine).validate state (translated field params)).run srv s =
        (.error e, s) := by
  unfold BaseManager.validate
  rcases h with hstate | ⟨rfl, e, he⟩
  · rw [if_pos hstate]
    exact ⟨_, rfl, rfl⟩
  · have hvalid : ¬ ("present" ≠ "present" ∧ "present" ≠ "absent") := by decide
    have hvalidators : "present" = "present" ∧ (RtRouteManager diffEngine).validators ≠ [] :=
      ⟨rfl, List.cons_ne_nil _ _⟩
    have hfails := (validateParams_translated diffEngine params field).trans he
    rw [if_neg hvalid, if_pos hvalidators]
    refine ⟨e, validateParams_argument _ _ he, ?_⟩
    rw [run_logError, Prog.run_ofExcept]
    exact congrArg (·, s) hfails

theorem accepting_getSchema (m : BaseManager) : Accepting m.getSchema := by
  apply Prog.raisesOnly_bind (raises_logError (raises_await _))
  intro body
  exact accepting_ofExcept fun _ he => unwrap_python he

/-- Behind the question for the flag only the checks can refuse, and they do not. -/
theorem accepting_ensure (hask : asksForFlag none params = true)
    (h : ¬ Rejected diffEngine state params) :
    Accepting (RtRouteManager.ensure diffEngine none state params check uuid dedupe force) := by
  simp only [asksForFlag, Option.isNone_none, Bool.true_and, Bool.and_eq_true,
    Bool.not_eq_true'] at hask
  unfold RtRouteManager.ensure deviceEnableFlag
  simp only [hask, Bool.not_true, Bool.false_eq_true, if_false, bind_assoc]
  apply Prog.raisesOnly_bind (accepting_getSchema _)
  intro schema
  apply Prog.raisesOnly_bind (accepting_validate (fieldOf schema) h)
  intro _
  exact accepting_rest state

/-- An appliance whose items are all empty. -/
def emptyItems : Server HttpRequest HttpReply Unit :=
  answering (.response 200 ⟨"\x7b\x7d", .ok (.obj [])⟩)

theorem run_getSchema_emptyItems : ((RtRouteManager diffEngine).getSchema).run
    (defaultClient.appliance emptyItems) () = (.ok (.obj []), ()) := rfl

/-- The flag is asked for before the rejected field is seen. -/
theorem trace_ensure_of_rejected (check dedupe force : Bool) (uuid : Option String)
    (hask : asksForFlag none params = true) (h : Rejected diffEngine state params) :
    let program := RtRouteManager.ensure diffEngine none state params check uuid dedupe force
    (∃ e, e.isArgument = true ∧
      program.run (defaultClient.appliance emptyItems) () = (.error e, ())) ∧
    program.trace (defaultClient.appliance emptyItems) () ≠ [] := by
  intro program
  simp only [asksForFlag, Option.isNone_none, Bool.true_and, Bool.and_eq_true,
    Bool.not_eq_true'] at hask
  have hprogram : program = (do
      let schema ← (RtRouteManager diffEngine).getSchema
      (RtRouteManager diffEngine).ensure state (translated (fieldOf schema) params) check uuid
        dedupe force) := by
    simp only [program, RtRouteManager.ensure, deviceEnableFlag, hask, Bool.not_true,
      Bool.false_eq_true, if_false, bind_assoc]
    rfl
  obtain ⟨e, he, hrun⟩ := run_validate_of_rejected (fieldOf (.obj [])) h
    (defaultClient.appliance emptyItems) ()
  rw [hprogram]
  refine ⟨⟨e, he, ?_⟩, ?_⟩
  · rw [Prog.run_bind_of_ok run_getSchema_emptyItems]
    exact Prog.run_bind_of_error hrun _
  · rw [Prog.trace_bind_of_ok run_getSchema_emptyItems]
    exact List.append_ne_nil_of_left_ne_nil (List.cons_ne_nil _ _) _

end RtRouteManager

namespace ManagedClass

variable {a : Arguments}

/-- A request is sent to a device although the arguments are then refused. -/
def AsksTooEarly (a : Arguments) : ManagedClass → Prop
  | route diffEngine enableField =>
    RtRouteManager.asksForFlag enableField a.params = true ∧
      RtRouteManager.Rejected diffEngine a.state a.params
  | _ => False

theorem refusesUpfront_of_checksFirst {c : ManagedClass} (h : ChecksFirst (c.program a)) :
    c.RefusesUpfront a := by
  intro S client net x x' e hrun he
  have hsrv : ∀ q x, RepliesIn NotArgument (client.appliance net q x).1 := appliance_notArgument
  exact h.trace_of_error hsrv hrun (by simpa [NotArgument] using he)

/-- Bad input never reaches the appliance, with one exception. -/
theorem refusesUpfront_iff (a : Arguments) (c : ManagedClass) :
    c.RefusesUpfront a ↔ ¬ c.AsksTooEarly a := by
  constructor
  · intro hrefuses hearly
    cases c with
    | route diffEngine enableField =>
      obtain ⟨hask, hrejected⟩ := hearly
      obtain rfl : enableField = none := by
        cases enableField with
        | none => rfl
        | some field => simp [RtRouteManager.asksForFlag] at hask
      -- the schema is asked for first, and the refusal comes behind it
      obtain ⟨⟨e, he, hrun⟩, htrace⟩ := RtRouteManager.trace_ensure_of_rejected a.checkMode
        a.dedupe a.forceUpdate a.uuid hask hrejected
      exact htrace (hrefuses Unit defaultClient RtRouteManager.emptyItems () () e hrun he)
    | _ => exact hearly
  · intro hearly
    apply refusesUpfront_of_checksFirst
    cases c with
    | inherited m => exact checksFirst_ensure _
    | monitAlert diffEngine => exact checksFirst_ensure _
    | monitService diffEngine => exact checksFirst_ensure _
    | oneToOne diffEngine => exact FwOneToOneManager.checksFirst_ensure _ _ _ _ _ _
    | route diffEngine enableField =>
      cases hask : RtRouteManager.asksForFlag enableField a.params with
      | false => exact RtRouteManager.checksFirst_ensure hask
      | true =>
        -- the name of the flag is asked for, but nothing is refused then
        have hvalid : ¬ RtRouteManager.Rejected diffEngine a.state a.params :=
          fun hrejected => hearly ⟨hask, hrejected⟩
        obtain rfl : enableField = none := by
          cases enableField with
          | none => rfl
          | some field => simp [RtRouteManager.asksForFlag] at hask
        exact (RtRouteManager.accepting_ensure hask hvalid).upfront
    | acmeAccount diffEngine => exact AcmeAccountManager.checksFirst_ensure _ _ _ _
    | acmeCertificate diffEngine renew polls polls' =>
      exact AcmeCertificateManager.checksFirst_ensure _ _ _ _ _ _ _
    | singleton m => exact BaseSingletonManager.checksFirst_ensure _
    | settings c => exact BaseSingletonManager.checksFirst_ensure _
    | acmeSettings diffEngine cron => exact AcmeSettingsManager.checksFirst_ensure _ _

/-- A disabled route without a gateway: the schema is fetched, then the gateway is missed. -/
theorem route_asks_before_refusing :
    let a : Arguments :=
      { state := "present", params := [("network", .str "10.99.0.0/24"), ("disabled", .str "1")] }
    ¬ (route ⟨fun _ _ => false⟩ none).RefusesUpfront a := by
  intro a hrefuses
  have hask : RtRouteManager.asksForFlag none a.params = true := by decide
  have hmissing : validatorRegistry.validateParams [("network", .str "10.99.0.0/24")]
      (RtRouteManager ⟨fun _ _ => false⟩).validators =
        .error (.fieldValidation "gateway" .null "required field is missing or empty") := by
    simp only [RtRouteManager, requiredStr, ValidatorRegistry.validateParams,
      ValidatorRegistry.validateField]
    rfl
  have hrejected : RtRouteManager.Rejected ⟨fun _ _ => false⟩ a.state a.params :=
    Or.inr ⟨rfl, _, hmissing⟩
  obtain ⟨⟨e, he, hrun⟩, htrace⟩ := RtRouteManager.trace_ensure_of_rejected a.checkMode
    a.dedupe a.forceUpdate a.uuid hask hrejected
  exact htrace (hrefuses Unit defaultClient RtRouteManager.emptyItems () () e hrun he)

end ManagedClass
end Opnsense
