import Opnsense.FlagPaths

/-! A malformed enable flag: the translation comes before the validation and rewrites the field
that should be checked, so which calls refuse it depends on the other flag. -/
namespace Opnsense
open Interaction

/-- Neither empty, nor `'0'` or `'1'`, nor a boolean word. -/
def MalformedText (text : String) : Prop :=
  text ≠ "" ∧ text ∉ ["0", "1"] ∧ text.toList.map Char.toLower ∉
    ["true", "false", "yes", "no", "on", "off"].map String.toList

instance (text : String) : Decidable (MalformedText text) :=
  inferInstanceAs (Decidable (_ ∧ _ ∧ _))

/-- The flag `key` is malformed and all other parameters pass their checks. -/
structure MalformedFlag (m : BaseManager) (key text : String) (params : Obj) : Prop where
  key_mem : key ∈ RtRouteManager.flagKeys
  value : params.lookup key = some (.str text)
  malformed : MalformedText text
  others : m.registry.validateParams (without [key] params) m.validators = .ok ()

/-- The call raises an error about its arguments and writes nothing. -/
def RefusedOn {σ : Type} (p : M EnsureResult) (srv : Appliance σ) (s : σ) : Prop :=
  (∃ e s', p.run srv s = (.error e, s') ∧ e.isArgument = true) ∧
    ¬ BaseManager.Writes (p.trace srv s)

theorem toLower_eq_one {c : Char} (h : c.toLower = '1') : c = '1' := by
  unfold Char.toLower at h
  split at h
  · rename_i hupper
    have hval : c.val + ('a'.val - 'A'.val) = '1'.val := congrArg Char.val h
    have hnat := congrArg UInt32.toNat hval
    have hge := hupper.1
    have hle := hupper.2
    simp only [ge_iff_le, UInt32.le_iff_toNat_le] at hge hle
    simp only [UInt32.toNat_add, Char.reduceVal, UInt32.reduceSub, UInt32.reduceToNat] at *
    omega
  · exact h

theorem eq_one_of_lower {text : String} (h : text.toList.map Char.toLower = "1".toList) :
    text = "1" := by
  obtain ⟨c, hc⟩ : ∃ c, text.toList = [c] := by
    rw [← List.length_eq_one_iff, ← List.length_map Char.toLower, h]
    rfl
  have hlower : c.toLower = '1' := by simpa [hc] using h
  rw [← String.toList_inj, hc, toLower_eq_one hlower]
  rfl

/-- The translation takes a malformed flag for one that is off. -/
theorem isTrue_malformed {text : String} (h : MalformedText text) :
    isTrue (.str text) = false := by
  obtain ⟨-, hdigit, hword⟩ := h
  have hone : text.toList.map Char.toLower ≠ "1".toList := by
    intro heq
    exact hdigit (by simp [eq_one_of_lower heq])
  have hfalse : ∀ word ∈ ["1", "true", "yes", "on"].map String.toList,
      text.toList.map Char.toLower ≠ word := by
    intro word hmem heq
    rcases List.mem_cons.mp hmem with rfl | hmem
    · exact hone heq
    · apply hword
      rw [heq]
      simp only [List.map_cons, List.map_nil, List.mem_cons, List.not_mem_nil, or_false]
        at hmem ⊢
      tauto
  rw [isTrue, pyStr_str, decide_eq_false_iff_not]
  exact fun hmem => hfalse _ hmem rfl

section Flags

variable {m : BaseManager} {key text : String} {params out : Obj}

/-- The two flags are `bool_str` fields of the manager. -/
structure ChecksFlags (m : BaseManager) : Prop where
  registry : m.registry = validatorRegistry
  declared : ∀ key ∈ RtRouteManager.flagKeys, (key, boolStrField) ∈ m.validators
  only : ∀ fs ∈ m.validators, fs.1 ∈ RtRouteManager.flagKeys → fs.2 = boolStrField
  checks : m.validators ≠ []

theorem validateField_malformed (h : params.lookup key = some (.str text))
    (hbad : MalformedText text) :
    validatorRegistry.validateField params key boolStrField ≠ .ok () := by
  have hunset : isUnset (.str text) = false := by simpa [isUnset] using hbad.1
  simp only [boolStrField, ValidatorRegistry.validateField, Obj.getD_of_lookup h, hunset]
  have hfails : validateBoolStr key text { type := "bool_str" } =
      .error (.fieldValidation key (.str text) "must be '0' or '1'") := by
    rw [validateBoolStr]
    exact if_neg hbad.2.1
  simp [validatorRegistry, hfails, Except.mapError]

/-- What a translation hands on passes the checks when the other parameters do. -/
theorem accepts_of_others (hm : ChecksFlags m) (h : MalformedFlag m key text params)
    (hother : ∀ k, k ∉ RtRouteManager.flagKeys → out.lookup k = params.lookup k)
    (hflag : ∀ k ∈ RtRouteManager.flagKeys,
      out.lookup k = none ∨ ∃ isOn, out.lookup k = some (flagOf isOn)) :
    m.accepts out := by
  refine Or.inr (ValidatorRegistry.validateParams_eq_ok.mpr fun fs hfs => ?_)
  by_cases hkey : fs.1 ∈ RtRouteManager.flagKeys
  · rw [hm.only fs hfs hkey, hm.registry]
    rcases hflag fs.1 hkey with hnone | ⟨isOn, hval⟩
    · exact validateField_unset hnone
    · exact validateField_flagOf hval
  · have hwithout : (without [key] params).lookup fs.1 = params.lookup fs.1 := by
      apply lookup_without_of_not_mem
      rw [List.mem_singleton]
      rintro heq
      exact hkey (heq ▸ h.key_mem)
    rw [ValidatorRegistry.validateField_congr ((hother fs.1 hkey).trans hwithout.symm)]
    exact ValidatorRegistry.validateParams_eq_ok.mp h.others fs hfs

/-- A malformed flag that reaches the checks under its own name fails them. -/
theorem rejects_malformed (hm : ChecksFlags m) (h : MalformedFlag m key text params) :
    ∃ e, m.registry.validateParams params m.validators = .error e := by
  rcases hres : m.registry.validateParams params m.validators with e | ⟨⟩
  · exact ⟨e, rfl⟩
  · have hfield := ValidatorRegistry.validateParams_eq_ok.mp hres _ (hm.declared key h.key_mem)
    rw [hm.registry] at hfield
    exact absurd hfield (validateField_malformed h.value h.malformed)

end Flags

section Refused

variable {m : BaseManager} {params : Obj} {check dedupe force : Bool} {uuid : Option String}
  {σ : Type} {srv : Appliance σ} {s : σ} {p : M EnsureResult}

theorem refusedOn_raise {e : Exc} (h : e.isArgument = true) :
    RefusedOn (.raise e : M EnsureResult) srv s :=
  ⟨⟨e, s, rfl, h⟩, by simp [BaseManager.Writes]⟩

theorem refusedOn_of_rejects (hchecks : m.validators ≠ []) {e : Exc}
    (h : m.registry.validateParams params m.validators = .error e) :
    RefusedOn (m.ensure "present" params check uuid dedupe force) srv s := by
  have hvalidate : (m.validate "present" params).run srv s = (.error e, s) := by
    simp [BaseManager.validate, hchecks, h]
  refine ⟨⟨e, s, Prog.run_bind_of_error hvalidate _, validateParams_argument _ _ h⟩, ?_⟩
  rw [BaseManager.ensure, Prog.trace_bind_of_error hvalidate]
  exact BaseManager.not_writes_of_asks (BaseManager.asks_validate "present")

/-- Nothing that accepts its arguments is refused by the client either. -/
theorem not_refusedOn_of_accepting {S : Type} {client : OpnsenseClient}
    {net : Server HttpRequest HttpReply S} {x : S} (h : Accepting p) :
    ¬ RefusedOn p (client.appliance net) x := by
  rintro ⟨⟨e, x', hrun, harg⟩, -⟩
  have hnot : NotArgument e := h.run_error (fun q s => appliance_notArgument q s) hrun
  exact absurd (harg.symm.trans hnot) (by decide)

theorem accepting_of_accepts (h : m.accepts params) :
    Accepting (m.ensure "present" params check uuid dedupe force) := by
  have hvalidate : Accepting (m.validate "present" params) := by
    unfold BaseManager.validate
    split
    · rename_i hstate
      exact absurd rfl hstate.1
    · split
      · rename_i hchecks
        rcases h with hnil | hok
        · exact absurd hnil hchecks.2
        · rw [hok]
          exact raises_logError (Prog.raisesOnly_ofExcept fun e he => nomatch he)
      · trivial
  exact Prog.raisesOnly_bind hvalidate fun _ => accepting_rest "present"

end Refused

section Managers

variable {diffEngine : DiffEngine} {key text : String} {params : Obj}
  {check dedupe force : Bool} {uuid : Option String}

theorem RtRouteManager.checksFlags (diffEngine : DiffEngine) :
    ChecksFlags (RtRouteManager diffEngine) where
  registry := rfl
  declared key hkey := by
    rcases List.mem_pair.mp hkey with rfl | rfl <;> simp [RtRouteManager]
  only := RtRouteManager.flag_declared diffEngine
  checks := List.cons_ne_nil _ _

theorem FwOneToOneManager.checksFlags (diffEngine : DiffEngine) :
    ChecksFlags (FwOneToOneManager diffEngine) where
  registry := rfl
  declared key hkey := by
    rcases List.mem_pair.mp hkey with rfl | rfl <;> simp [FwOneToOneManager]
  only := by simp [FwOneToOneManager, RtRouteManager.flagKeys]
  checks := List.cons_ne_nil _ _

theorem MalformedFlag.given {m : BaseManager} (h : MalformedFlag m key text params) :
    RtRouteManager.hasFlag params = true := by
  have hhas : params.has key = true := Obj.has_iff.mpr ⟨_, h.value⟩
  rcases List.mem_pair.mp h.key_mem with rfl | rfl <;> simp [RtRouteManager.hasFlag, hhas]

/-- The code's test for a contradiction is the contradiction. -/
theorem contradicts_iff : RtRouteManager.contradicts params = true ↔ Contradicts params := by
  constructor
  · intro h
    simp only [RtRouteManager.contradicts, Bool.and_eq_true, beq_iff_eq] at h
    obtain ⟨⟨hdisabled, henabled⟩, hsame⟩ := h
    obtain ⟨v, hv⟩ := Obj.has_iff.mp hdisabled
    obtain ⟨w, hw⟩ := Obj.has_iff.mp henabled
    rw [Obj.getD_of_lookup hv, Obj.getD_of_lookup hw] at hsame
    exact ⟨v, w, hv, hw, hsame⟩
  · exact fun h => (RtRouteManager.contradicts_of_contradicts h).2

theorem RtRouteManager.accepts_translated (field : String)
    (h : MalformedFlag (RtRouteManager diffEngine) key text params) :
    (RtRouteManager diffEngine).accepts (translated field params) := by
  refine accepts_of_others (checksFlags diffEngine) h (fun k hk => ?_) fun k hk =>
    lookup_flag_translated field params hk
  have hne : k ≠ flagName field := fun heq => hk (heq ▸ flagName_mem field)
  rw [lookup_translated, if_neg hne, lookup_without_of_not_mem hk]

/-- A route with a malformed flag is refused exactly when the other flag contradicts it. -/
theorem RtRouteManager.refusedOn_iff {S : Type} (client : OpnsenseClient)
    (net : Server HttpRequest HttpReply S) (x : S) (known : Option String)
    (h : MalformedFlag (RtRouteManager diffEngine) key text params) :
    RefusedOn (RtRouteManager.ensure diffEngine known "present" params check uuid dedupe force)
        (client.appliance net) x ↔ Contradicts params := by
  have hflag := h.given
  rw [← contradicts_iff]
  cases hagree : contradicts params with
  | true =>
    have hraise : RtRouteManager.ensure diffEngine known "present" params check uuid dedupe force =
        .raise (contradiction "route") := by
      simp [RtRouteManager.ensure, deviceEnableFlag, hflag, hagree]
    rw [hraise]
    exact iff_of_true (@refusedOn_raise _ _ _ (contradiction "route") rfl) rfl
  | false =>
    -- the flag is read as off, and the translation passes every check
    refine iff_of_false ?_ Bool.false_ne_true
    apply not_refusedOn_of_accepting
    unfold RtRouteManager.ensure deviceEnableFlag
    simp only [hflag, hagree, Bool.not_true, Bool.false_eq_true, if_false]
    cases known with
    | some field => exact accepting_of_accepts (accepts_translated field h)
    | none =>
      rw [bind_assoc]
      apply Prog.raisesOnly_bind (accepting_getSchema _)
      exact fun schema => accepting_of_accepts (accepts_translated (fieldOf schema) h)

/-- A rule with a malformed flag is refused exactly when the flag is `enabled` and stays under that
name, or the other flag contradicts it. -/
theorem FwOneToOneManager.refusedOn_iff {S : Type} (client : OpnsenseClient)
    (net : Server HttpRequest HttpReply S) (x : S)
    (h : MalformedFlag (FwOneToOneManager diffEngine) key text params) :
    RefusedOn (FwOneToOneManager.ensure diffEngine "present" params check uuid dedupe force)
        (client.appliance net) x ↔
      params.has "disabled" = false ∨ Contradicts params := by
  have hm := checksFlags diffEngine
  rw [← contradicts_iff]
  unfold FwOneToOneManager.ensure RtRouteManager.contradicts
  cases hdisabled : params.has "disabled" with
  | false =>
    -- nothing is translated, and the malformed flag is `enabled`
    have hkeep : apiEnableFlag params = .ok params := by simp [apiEnableFlag, hdisabled]
    obtain ⟨e, he⟩ := rejects_malformed hm h
    rw [hkeep]
    exact iff_of_true (refusedOn_of_rejects hm.checks he) (Or.inl rfl)
  | true =>
    cases hagree : (params.has "enabled" &&
        isTrue (params.getD "disabled" .null) == isTrue (params.getD "enabled" .null)) with
    | true =>
      obtain ⟨henabled, hsame⟩ := Bool.and_eq_true_iff.mp hagree
      have hfails : apiEnableFlag params = .error (contradiction "one_to_one") := by
        simp [apiEnableFlag, hdisabled, henabled, beq_iff_eq.mp hsame]
      rw [hfails]
      refine iff_of_true ?_ (Or.inr (by simp [henabled, hsame]))
      exact @refusedOn_raise _ _ _ (contradiction "one_to_one") rfl
    | false =>
      have hkeep : apiEnableFlag params = .ok (Obj.set (without ["disabled"] params) "enabled"
          (flagOf (!isTrue (params.getD "disabled" .null)))) := by
        rw [Bool.beq_comm] at hagree
        simp [apiEnableFlag, hdisabled, hagree]
      rw [hkeep]
      refine iff_of_false ?_ (by simp [hagree])
      apply not_refusedOn_of_accepting
      refine accepting_of_accepts (accepts_of_others hm h (fun k hk => ?_) fun k hk => ?_)
      · have hne : k ≠ "enabled" := fun heq => hk (heq ▸ by decide)
        have hnot : k ∉ ["disabled"] := fun hmem => hk (List.mem_singleton.mp hmem ▸ by decide)
        rw [Obj.lookup_set_of_ne _ hne, lookup_without_of_not_mem hnot]
      · rcases List.mem_pair.mp hk with rfl | rfl
        · refine Or.inl ?_
          rw [Obj.lookup_set_of_ne _ (by decide),
            RtRouteManager.lookup_without_of_mem params (by decide)]
        · exact Or.inr ⟨_, Obj.lookup_set_self _ _ _⟩

/-- Which malformed flags are refused: on a route only one that the other flag contradicts, on a
one-to-one rule also an `enabled` that is given alone. -/
theorem malformed_flag_refused_iff (diffEngine : DiffEngine) (key text : String) (params : Obj)
    (check dedupe force : Bool) (uuid : Option String) {S : Type} (client : OpnsenseClient)
    (net : Server HttpRequest HttpReply S) (x : S) :
    (∀ known, MalformedFlag (RtRouteManager diffEngine) key text params →
      (RefusedOn (RtRouteManager.ensure diffEngine known "present" params check uuid dedupe force)
          (client.appliance net) x ↔ Contradicts params)) ∧
    (MalformedFlag (FwOneToOneManager diffEngine) key text params →
      (RefusedOn (FwOneToOneManager.ensure diffEngine "present" params check uuid dedupe force)
          (client.appliance net) x ↔ params.has "disabled" = false ∨ Contradicts params)) :=
  ⟨fun known => RtRouteManager.refusedOn_iff client net x known,
    FwOneToOneManager.refusedOn_iff client net x⟩

end Managers

/-- A rule with one flag, which is not a boolean word. -/
def oddRule (key : String) : Obj :=
  [("description", .str "web"), ("interface", .str "wan"), ("source_net", .str "10.0.0.1"),
    (key, .str "y")]

theorem oddRule_malformed {key : String} (hkey : key ∈ RtRouteManager.flagKeys) :
    MalformedFlag (FwOneToOneManager ⟨fun _ _ => false⟩) key "y" (oddRule key) where
  key_mem := hkey
  value := by
    rcases List.mem_pair.mp hkey with rfl | rfl <;> rfl
  malformed := by decide
  others := by
    have hwithout : without [key] (oddRule key) = [("description", .str "web"),
        ("interface", .str "wan"), ("source_net", .str "10.0.0.1")] := by
      rcases List.mem_pair.mp hkey with rfl | rfl <;> rfl
    rw [hwithout]
    simp only [FwOneToOneManager, requiredStr, strField, boolStrField, enumField,
      ValidatorRegistry.validateParams, ValidatorRegistry.validateField]
    rfl

/-- `enabled` alone is checked under its own name. -/
theorem malformed_flag_refused_enabled :
    RefusedOn (FwOneToOneManager.ensure ⟨fun _ _ => false⟩ "present" (oddRule "enabled"))
      (defaultClient.appliance RtRouteManager.emptyItems) () :=
  ((malformed_flag_refused_iff ⟨fun _ _ => false⟩ "enabled" "y" (oddRule "enabled") false false
    false none defaultClient RtRouteManager.emptyItems ()).2
      (oddRule_malformed (by decide))).mpr (Or.inl rfl)

/-- An appliance without rules that saves what it is sent. -/
def savingRules : Server HttpRequest HttpReply Unit :=
  answering (.response 200 ⟨"\x7b\"rows\": [], \"uuid\": \"b7a6\"\x7d",
    .ok (.obj [("rows", .arr []), ("uuid", .str "b7a6")])⟩)

/-- What the translation makes of the rule with `disabled`. -/
def openedRule : Obj :=
  [("description", .str "web"), ("interface", .str "wan"), ("source_net", .str "10.0.0.1"),
    ("enabled", .str "1")]

theorem openedRule_accepted : (FwOneToOneManager ⟨fun _ _ => false⟩).accepts openedRule :=
  accepts_of_others (FwOneToOneManager.checksFlags _) (@oddRule_malformed "disabled" (by decide))
    (fun k hk => by
      obtain ⟨hdisabled, henabled⟩ : k ≠ "disabled" ∧ k ≠ "enabled" := by
        simpa [RtRouteManager.flagKeys] using hk
      simp [openedRule, oddRule, List.lookup_cons, beq_false_of_ne hdisabled,
        beq_false_of_ne henabled])
    (fun k hk => by
      rcases List.mem_pair.mp hk with rfl | rfl
      · exact Or.inl rfl
      · exact Or.inr ⟨true, rfl⟩)

/-- A rule whose `disabled` cannot be read is created enabled. -/
theorem malformed_disabled_opens_rule :
    let program := FwOneToOneManager.ensure ⟨fun _ _ => false⟩ "present" (oddRule "disabled")
    MalformedFlag (FwOneToOneManager ⟨fun _ _ => false⟩) "disabled" "y" (oddRule "disabled") ∧
    ¬ RefusedOn program (defaultClient.appliance savingRules) () ∧
    ∃ action payloadKey payload, payload.lookup "enabled" = some (.str "1") ∧
      Request.create action payloadKey payload ∈
        (program.trace (defaultClient.appliance savingRules) ()).map (·.1) := by
  intro program
  let m := FwOneToOneManager ⟨fun _ _ => false⟩
  let srv := defaultClient.appliance savingRules
  have hbad := @oddRule_malformed "disabled" (by decide)
  refine ⟨hbad, ?_, ?_⟩
  · intro hrefused
    rcases (FwOneToOneManager.refusedOn_iff defaultClient savingRules () hbad).mp hrefused with
      hnone | ⟨v, w, -, hw, -⟩
    · cases hnone
    · cases hw
  · refine ⟨m.config.add, m.config.payloadKey, openedRule, rfl, ?_⟩
    have hprogram : program = m.ensure "present" openedRule := rfl
    have hvalidate : (m.validate "present" openedRule).run srv () = (.ok (), ()) :=
      BaseManager.run_validate_of_accepts openedRule_accepted
    have hlist : (m.list (m.identity.searchPhrase openedRule)).run srv () =
        (.ok (.arr ([].map .obj)), ()) := rfl
    have hlookup : (m.lookup openedRule false false).run srv () = (.ok (none, []), ()) :=
      BaseManager.run_lookup_of_list hlist (by decide)
    have hresolve : (m.resolve openedRule false none false).run srv () = (.ok (none, []), ()) := by
      rw [BaseManager.resolve, Prog.run_bind_of_ok hlookup]
      rfl
    rw [hprogram, BaseManager.ensure, Prog.trace_bind_of_ok hvalidate,
      Prog.trace_bind_of_ok hresolve]
    have hcreate : m.converge "present" openedRule false false none =
        m.create openedRule false := rfl
    simp only [List.map_append, List.mem_append]
    refine Or.inr (Or.inr ?_)
    rw [hcreate, Prog.trace_bind, List.map_append, List.mem_append]
    exact Or.inl BaseManager.mem_trace_create

end Opnsense
