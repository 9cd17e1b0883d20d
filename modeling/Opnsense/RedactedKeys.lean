import Opnsense.LogSecrecy
import Opnsense.OptionalKeys

namespace Opnsense
open Interaction

/-- A manager class that may rewrite its parameters before the inherited `ensure`; the fields to
redact are left apart. -/
structure Subclass where
  manager : BaseManager
  prepare : Obj → Obj := id
  nodup : ∀ {params}, (params.map (·.1)).Nodup → ((prepare params).map (·.1)).Nodup
  keeps : ∀ {params params'}, SameOutside (· ∈ manager.redactFields) params params' →
    SameOutside (· ∈ manager.redactFields) (prepare params) (prepare params')

namespace Subclass

variable (c : Subclass)

def ensurePresent (params : Obj) (checkMode : Bool := false) (dedupe : Bool := false)
    (forceUpdate : Bool := false) : M EnsureResult :=
  c.manager.ensure "present" (c.prepare params) checkMode none dedupe forceUpdate

end Subclass

/-- A class that takes its parameters as they are. -/
def BaseManager.plain (m : BaseManager) : Subclass where
  manager := m
  nodup h := h
  keeps h := h

section Monit

/-- `_normalize_events` -/
def normalizeEvents : Json → String
  | .arr xs => ",".intercalate (xs.map pyStr)
  | .null => ""
  | v => pyStr v

def MonitAlertManager (diffEngine : DiffEngine) : BaseManager where
  className := "MonitAlertManager"
  config := { base := "monit/settings", payloadKey := "alert", entitySuffix := some "Alert"
              applyEndpoint := some "monit/service/reconfigure" }
  matchKeys := ["recipient"]
  matchKeys_ne := List.cons_ne_nil _ _
  validators :=
    [("recipient", requiredStr (some 255)),
      ("enabled", boolStrField),
      ("noton", boolStrField),
      ("events", strField),
      ("format", strField),
      ("reminder", strField (some 10)),
      ("description", strField (some 255))]
  redactFields := ["recipient"]
  diffEngine := diffEngine
  registry := validatorRegistry

theorem sameOutside_set {hidden : String → Prop} {d d' : Obj} (h : SameOutside hidden d d')
    (key : String) (v : Json) : SameOutside hidden (d.set key v) (d'.set key v) := by
  induction h with
  | nil => exact List.Forall₂.cons ⟨rfl, Or.inr rfl⟩ List.Forall₂.nil
  | @cons kv kv' rest rest' hkv hrest ih =>
    obtain ⟨k, w⟩ := kv
    obtain ⟨k', w'⟩ := kv'
    obtain ⟨rfl, hvalue⟩ := hkv
    rw [Obj.set, Obj.set]
    by_cases hk : k = key
    · rw [if_pos hk, if_pos hk]
      exact List.Forall₂.cons ⟨rfl, Or.inr rfl⟩ hrest
    · rw [if_neg hk, if_neg hk]
      exact List.Forall₂.cons ⟨rfl, hvalue⟩ ih

theorem has_of_sameOutside {hidden : String → Prop} {d d' : Obj} (h : SameOutside hidden d d')
    (key : String) : d.has key = d'.has key := by
  induction h with
  | nil => rfl
  | @cons kv kv' rest rest' hkv _ ih =>
    obtain ⟨k, w⟩ := kv
    obtain ⟨k', w'⟩ := kv'
    obtain ⟨rfl, -⟩ := hkv
    by_cases hk : key = k
    · subst hk
      simp [Obj.has]
    · rw [Obj.has, Obj.has, List.lookup_cons, List.lookup_cons, beq_false_of_ne hk]
      exact ih

namespace MonitAlertManager

/-- Bring the events into the shape of the API before anything else. -/
def prepare (params : Obj) : Obj :=
  if params.has "events" then
    params.set "events" (.str (normalizeEvents (params.getD "events" .null)))
  else params

def subclass (diffEngine : DiffEngine) : Subclass where
  manager := MonitAlertManager diffEngine
  prepare := prepare
  nodup h := by
    unfold prepare
    split
    · exact Obj.nodup_set h _ _
    · exact h
  keeps := by
    intro params params' h
    have hevents : params.getD "events" .null = params'.getD "events" .null :=
      getD_of_sameOutside h (by simp [MonitAlertManager]) _
    unfold prepare
    rw [has_of_sameOutside h, hevents]
    split
    · exact sameOutside_set h _ _
    · exact h

end MonitAlertManager

end Monit

def IpsecKeypairManager (diffEngine : DiffEngine) : BaseManager where
  className := "IpsecKeypairManager"
  config := { base := "ipsec/key_pairs", payloadKey := "keyPair", entitySuffix := some "Item"
              applyEndpoint := some "ipsec/service/reconfigure" }
  matchKeys := ["name"]
  matchKeys_ne := nameKey_ne
  validators :=
    [("name", requiredStr (some 255)),
      ("keyType", strField),
      ("publicKey", strField),
      ("privateKey", strField)]
  redactFields := ["privateKey"]
  applyTimeout := some 30
  diffEngine := diffEngine
  registry := validatorRegistry

def alertTo (recipient : String) : Obj := [("recipient", .str recipient)]

/-- A key, as long as a PEM block may well be. -/
def longKey (c : Char) : String := String.ofList (List.replicate 256 c)

def keyPairOf (c : Char) : Obj := [("name", .str "fw"), ("privateKey", .str (longKey c))]

def noRows : ℕ → Reply := fun _ => .ok (.arr [])

theorem missing_noRows (m : BaseManager) (params : Obj) : m.Missing params (noRows 0) := by
  rintro rows hrows row hrow
  cases hrows
  cases hrow

theorem rejectedAt_alertTo (engine : DiffEngine) :
    let m := MonitAlertManager engine
    m.registry.rejectedAt (alertTo "noc@example.com") m.validators = none ∧
      m.registry.rejectedAt (alertTo "ops@example.com") m.validators = none :=
  ⟨rfl, rfl⟩

/-- What two calls show of each other, when they differ in the values of redacted fields only: the
log names the match keys as they are, and the validators name the value they reject. -/
theorem shown_eq_iff_hidden (c : Subclass) (params params' : Obj)
    (checkMode dedupe forceUpdate : Bool) (replies : ℕ → Reply) (hnodup : (params.map (·.1)).Nodup)
    (hsecret : SameOutside (· ∈ c.manager.redactFields) params params')
    (hmissing : c.manager.Missing (c.prepare params) (replies 0))
    (hmissing' : c.manager.Missing (c.prepare params') (replies 0))
    (hsame : c.manager.registry.rejectedAt (c.prepare params) c.manager.validators =
      c.manager.registry.rejectedAt (c.prepare params') c.manager.validators) :
    shown replies (c.ensurePresent params checkMode dedupe forceUpdate) =
        shown replies (c.ensurePresent params' checkMode dedupe forceUpdate) ↔
      c.manager.Hidden (c.prepare params) (c.prepare params') (replies 0) := by
  have hsecret' := c.keeps hsecret
  unfold Subclass.ensurePresent BaseManager.Hidden
  cases hrejected : c.manager.registry.rejectedAt (c.prepare params) c.manager.validators with
  | none =>
    exact BaseManager.shown_eq_iff_of_accepted (c.nodup hnodup) hsecret' hmissing hmissing'
      hrejected (hsame ▸ hrejected)
  | some fs =>
    obtain ⟨field, spec⟩ := fs
    obtain ⟨text, hsaid, hshown⟩ := BaseManager.shown_of_rejected hrejected
    obtain ⟨text', hsaid', hshown'⟩ := BaseManager.shown_of_rejected (hsame ▸ hrejected)
    rw [hshown, hshown']
    dsimp only
    rw [hsaid, hsaid', Option.some.injEq]
    constructor
    · intro heq _
      simp only [Prod.mk.injEq, List.cons.injEq, Event.log.injEq, LogRecord.mk.injEq] at heq
      simpa using heq.2.1.2.2
    · intro hhidden
      have htext : text = text' := by
        by_cases hfield : field ∈ c.manager.redactFields
        · exact hhidden hfield
        · -- the rejected value is the same in both calls
          rw [getD_of_sameOutside hsecret' hfield, hsaid'] at hsaid
          exact (Option.some.inj hsaid).symm
      rw [htext]

theorem shown_eq_iff_hidden_alert :
    let engine : DiffEngine := ⟨fun _ _ => false⟩
    let alert := MonitAlertManager.subclass engine
    shown noRows (alert.ensurePresent (alertTo "noc@example.com")) =
        shown noRows (alert.ensurePresent (alertTo "ops@example.com")) ↔
      alert.manager.Hidden (alertTo "noc@example.com") (alertTo "ops@example.com")
        (noRows 0) :=
  shown_eq_iff_hidden (MonitAlertManager.subclass ⟨fun _ _ => false⟩) _ _ false false false
    noRows (by decide) (List.Forall₂.cons ⟨rfl, Or.inl (by decide)⟩ List.Forall₂.nil)
    (missing_noRows _ _) (missing_noRows _ _) rfl

theorem length_longKey (c : Char) : (longKey c).length = 256 := by
  rw [longKey, String.length_ofList, List.length_replicate]

/-- The key is longer than a text may be by default, and the complaint shows it. -/
theorem complaint_longKey (c : Char) :
    validatorRegistry.complaint "privateKey" strField (.str (longKey c)) =
      some (Exc.fieldValidation "privateKey" (.str (longKey c))
        "max length 255, got 256").text := by
  have hset : isUnset (.str (longKey c)) = false := by
    have hne : longKey c ≠ "" := by
      intro hempty
      have hlength := length_longKey c
      rw [hempty] at hlength
      cases hlength
    simpa [isUnset] using hne
  have hrule : validateStr "privateKey" (longKey c) { type := "str" } =
      .error (.fieldValidation "privateKey" (.str (longKey c)) "max length 255, got 256") := by
    simp only [validateStr, length_longKey]
    rfl
  have hcheck : validatorRegistry.validateField [("privateKey", .str (longKey c))] "privateKey"
      strField =
        .error (.fieldValidation "privateKey" (.str (longKey c)) "max length 255, got 256") := by
    have hget : Obj.getD [("privateKey", Json.str (longKey c))] "privateKey" .null =
        .str (longKey c) := rfl
    simp [strField, ValidatorRegistry.validateField, hget, hset, validatorRegistry, hrule,
      Except.mapError, wrapValidatorError]
  rw [ValidatorRegistry.complaint, hcheck]

theorem pyRepr_eq_of_text_eq {field rule : String} {v w : Json}
    (h : (Exc.fieldValidation field v rule).text = (Exc.fieldValidation field w rule).text) :
    pyRepr v = pyRepr w := by
  have hshown : ∀ u, (Exc.fieldValidation field u rule).text =
      "Invalid field '" ++ field ++ "': " ++ rule ++ " (got: " ++ pyRepr u ++ ")" := by
    intro u
    rfl
  rw [hshown, hshown] at h
  exact String.append_right_inj _ |>.mp (String.append_left_inj _ |>.mp h)

/-- A letter repeated is shown as often. -/
theorem reprStr_replicate {c : Char} (hplain : reprChar singleQuote c = [c]) (n : ℕ)
    (hquote : c ≠ singleQuote) : reprStr (String.ofList (List.replicate n c)) =
      String.ofList (singleQuote :: List.replicate n c ++ [singleQuote]) := by
  have hnone : singleQuote ∉ List.replicate n c := by
    intro hmem
    exact hquote (List.eq_of_mem_replicate hmem).symm
  have hshown : (List.replicate n c).flatMap (reprChar singleQuote) = List.replicate n c := by
    rw [List.flatMap_replicate, hplain]
    simp
  rw [reprStr, String.toList_ofList, if_neg (fun h => hnone h.1), hshown]
  rfl

theorem reprStr_longKey_ne : reprStr (longKey 'a') ≠ reprStr (longKey 'b') := by
  intro heq
  rw [longKey, longKey, reprStr_replicate (by decide) 256 (by decide),
    reprStr_replicate (by decide) 256 (by decide)] at heq
  have hlist := List.append_cancel_right (List.cons.inj (String.ofList_injective heq)).2
  have hmem : 'a' ∈ List.replicate 256 'b' := by
    rw [← hlist]
    exact List.mem_replicate.mpr ⟨by decide, rfl⟩
  exact absurd (List.eq_of_mem_replicate hmem) (by decide)

theorem rejectedAt_keyPairOf (engine : DiffEngine) (c : Char) :
    validatorRegistry.rejectedAt (keyPairOf c) (IpsecKeypairManager engine).validators =
      some ("privateKey", strField) := by
  have hname : validatorRegistry.complaint "name" (requiredStr (some 255)) (.str "fw") = none := by
    decide
  have htype : validatorRegistry.complaint "keyType" strField .null = none := by decide
  have hpublic : validatorRegistry.complaint "publicKey" strField .null = none := by decide
  have hget : (keyPairOf c).getD "name" .null = .str "fw" ∧
      (keyPairOf c).getD "keyType" .null = .null ∧ (keyPairOf c).getD "publicKey" .null = .null ∧
      (keyPairOf c).getD "privateKey" .null = .str (longKey c) := ⟨rfl, rfl, rfl, rfl⟩
  simp [ValidatorRegistry.rejectedAt, IpsecKeypairManager, hget, hname, htype, hpublic,
    complaint_longKey]

/-- Two alerts that differ in their recipient, and two key pairs that differ in their private key,
show it in the records of their calls: the validators accept the former, and reject the latter at
the key. -/
theorem recipient_and_key_shown :
    let engine : DiffEngine := ⟨fun _ _ => false⟩
    let alert := MonitAlertManager.subclass engine
    let pair := (IpsecKeypairManager engine).plain
    let rejected (c : Subclass) (params : Obj) :=
      c.manager.registry.rejectedAt (c.prepare params) c.manager.validators
    (SameOutside (· ∈ alert.manager.redactFields) (alertTo "noc@example.com")
        (alertTo "ops@example.com") ∧
      rejected alert (alertTo "noc@example.com") = none ∧
      rejected alert (alertTo "ops@example.com") = none ∧
      shown noRows (alert.ensurePresent (alertTo "noc@example.com")) ≠
        shown noRows (alert.ensurePresent (alertTo "ops@example.com"))) ∧
    SameOutside (· ∈ pair.manager.redactFields) (keyPairOf 'a') (keyPairOf 'b') ∧
      rejected pair (keyPairOf 'a') = some ("privateKey", strField) ∧
      rejected pair (keyPairOf 'b') = some ("privateKey", strField) ∧
      shown noRows (pair.ensurePresent (keyPairOf 'a')) ≠
        shown noRows (pair.ensurePresent (keyPairOf 'b')) := by
  intro engine alert pair rejected
  have hrecipient : SameOutside (· ∈ alert.manager.redactFields) (alertTo "noc@example.com")
      (alertTo "ops@example.com") :=
    List.Forall₂.cons ⟨rfl, Or.inl (by decide)⟩ List.Forall₂.nil
  have hkey : SameOutside (· ∈ pair.manager.redactFields) (keyPairOf 'a') (keyPairOf 'b') :=
    List.Forall₂.cons ⟨rfl, Or.inr rfl⟩
      (List.Forall₂.cons ⟨rfl, Or.inl (by decide)⟩ List.Forall₂.nil)
  obtain ⟨haccept, haccept'⟩ := rejectedAt_alertTo engine
  have hrejected : ∀ c, rejected pair (keyPairOf c) = some ("privateKey", strField) :=
    rejectedAt_keyPairOf engine
  refine ⟨⟨hrecipient, haccept, haccept', fun heq => ?_⟩, hkey, hrejected 'a', hrejected 'b',
    fun heq => ?_⟩
  -- an accepted recipient is named by the records of the creation
  · have htexts := (BaseManager.shown_eq_iff_of_accepted (by decide) hrecipient
      (missing_noRows _ _) (missing_noRows _ _) haccept haccept').mp heq ⟨[], rfl⟩
    exact absurd (htexts "recipient" (by decide) (by decide)) (by decide)
  · obtain ⟨text, hsaid, hshown⟩ := BaseManager.shown_of_rejected (hrejected 'a')
    obtain ⟨text', hsaid', hshown'⟩ := BaseManager.shown_of_rejected (hrejected 'b')
    have hlogged := (hshown.symm.trans heq).trans hshown'
    obtain ⟨-, rfl⟩ : toString text = toString text' ∧ text = text' := by
      simpa using congrArg Prod.snd hlogged
    -- the complaint about a key ends with the key
    have hcomplaint : ∀ c, pair.manager.registry.complaint "privateKey" strField
        ((keyPairOf c).getD "privateKey" .null) = some (Exc.fieldValidation "privateKey"
          (.str (longKey c)) "max length 255, got 256").text := complaint_longKey
    have hsame := (hcomplaint 'a').symm.trans (hsaid.trans (hsaid'.symm.trans (hcomplaint 'b')))
    have hrepr := pyRepr_eq_of_text_eq (Option.some.inj hsame)
    simp only [pyRepr] at hrepr
    exact reprStr_longKey_ne hrepr

end Opnsense
