import Opnsense.OptionalKeys

namespace Opnsense
open Interaction

/-- `str(v).lower() in {"1", "true", "yes", "on"}` -/
def isTrue (v : Json) : Bool :=
  ((pyStr v).toList.map Char.toLower) ∈ ["1", "true", "yes", "on"].map String.toList

/-- `{k: v for k, v in params.items() if k not in keys}` -/
def without (keys : List String) (params : Obj) : Obj := params.filter fun kv => kv.1 ∉ keys

/-- The error of two flags of which one denies the other. -/
def contradiction (resource : String) : Exc :=
  .valueError s!"{resource}: 'disabled' and 'enabled' contradict each other"

def flagOf (isOn : Bool) : Json := .str (if isOn then "1" else "0")

/-- `get_schema`: the item path without a uuid. -/
def BaseManager.getSchema (m : BaseManager) : M Json := do
  let body ← logError (await (.get (m.config.get (.str ""))))
    (fun exc => s!"get_schema failed {m.config.base}: {exc.text}")
    (fun exc => [("action", .str "get_schema_failed"), ("endpoint", .str m.config.base),
      ("error", .str exc.text)])
  .ofExcept (unwrap m.config.payloadKey body)

def FwOneToOneManager (diffEngine : DiffEngine) : BaseManager where
  className := "FwOneToOneManager"
  config := { base := "firewall/one_to_one", payloadKey := "rule", entitySuffix := some "Rule"
              applyEndpoint := some "firewall/one_to_one/apply" }
  matchKeys := ["description", "interface", "source_net"]
  matchKeys_ne := List.cons_ne_nil _ _
  validators :=
    [("description", requiredStr (some 255)),
      ("interface", requiredStr),
      ("source_net", requiredStr),
      ("external", strField),
      ("enabled", boolStrField),
      ("disabled", boolStrField),
      ("sequence", .rule { type := "int", min := some 1 }),
      ("source_not", boolStrField),
      ("destination_not", boolStrField),
      ("destination_net", strField),
      ("log", boolStrField),
      ("type", enumField ["binat", "nat"]),
      ("natreflection", enumField ["", "enable", "disable"]),
      ("categories", strField)]
  diffEngine := diffEngine
  registry := validatorRegistry

namespace FwOneToOneManager

/-- `_api_enable_flag`: a legacy `disabled` becomes `enabled`. -/
def apiEnableFlag (params : Obj) : Except Exc Obj :=
  if params.has "disabled" then
    let disabled := isTrue (params.getD "disabled" .null)
    if params.has "enabled" && isTrue (params.getD "enabled" .null) == disabled then
      .error (contradiction "one_to_one")
    else .ok (Obj.set (without ["disabled"] params) "enabled" (flagOf (!disabled)))
  else .ok params

/-- `ensure`; its `create` and `update` translate again, but no `disabled` is left to translate. -/
def ensure (diffEngine : DiffEngine) (state : String) (params : Obj) (checkMode : Bool := false)
    (uuid : Option String := none) (dedupe : Bool := false) (forceUpdate : Bool := false) :
    M EnsureResult := do
  let params ← .ofExcept (apiEnableFlag params)
  (FwOneToOneManager diffEngine).ensure state params checkMode uuid dedupe forceUpdate

end FwOneToOneManager

def RtRouteManager (diffEngine : DiffEngine) : BaseManager where
  className := "RtRouteManager"
  config := { base := "routes/routes", payloadKey := "route", entitySuffix := some "Route"
              applyEndpoint := some "routes/routes/reconfigure" }
  matchKeys := ["network", "gateway"]
  matchKeys_ne := List.cons_ne_nil _ _
  validators :=
    [("network", requiredStr),
      ("gateway", requiredStr),
      ("descr", strField (some 255)),
      ("disabled", boolStrField),
      ("enabled", boolStrField)]
  diffEngine := diffEngine
  registry := validatorRegistry

namespace RtRouteManager

def flagKeys : List String := ["disabled", "enabled"]

def hasFlag (params : Obj) : Bool := params.has "disabled" || params.has "enabled"

/-- Both flags are given, and they say opposite things. -/
def contradicts (params : Obj) : Bool :=
  params.has "disabled" && params.has "enabled" &&
    isTrue (params.getD "disabled" .null) == isTrue (params.getD "enabled" .null)

/-- What the flags declare; `enabled` goes first. -/
def wantsEnabled (params : Obj) : Bool :=
  if params.has "enabled" then isTrue (params.getD "enabled" .null)
  else !isTrue (params.getD "disabled" .null)

/-- The flag of this firmware, read off the schema. -/
def fieldOf : Json → String
  | .obj schema => if Obj.has schema "enabled" then "enabled" else "disabled"
  | _ => "disabled"

/-- The parameters with the flag under the field of this firmware. -/
def translated (field : String) (params : Obj) : Obj :=
  if field = "enabled" then
    Obj.set (without flagKeys params) "enabled" (flagOf (wantsEnabled params))
  else Obj.set (without flagKeys params) "disabled" (flagOf (!wantsEnabled params))

/-- `_device_enable_flag`; `known` is `_enable_field`, the field read by an earlier call. -/
def deviceEnableFlag (diffEngine : DiffEngine) (known : Option String) (params : Obj) : M Obj :=
  if !hasFlag params then return params
  else if contradicts params then .raise (contradiction "route")
  else
    match known with
    | some field => return translated field params
    | none => do
      let schema ← (RtRouteManager diffEngine).getSchema
      return translated (fieldOf schema) params

/-- `ensure`; its `create` and `update` translate again, see `deviceEnableFlag_translated`. -/
def ensure (diffEngine : DiffEngine) (known : Option String) (state : String) (params : Obj)
    (checkMode : Bool := false) (uuid : Option String := none) (dedupe : Bool := false)
    (forceUpdate : Bool := false) : M EnsureResult := do
  let params ← deviceEnableFlag diffEngine known params
  (RtRouteManager diffEngine).ensure state params checkMode uuid dedupe forceUpdate

section Translated

variable (field : String) (params : Obj)

/-- The name the flag gets. -/
def flagName (field : String) : String := if field = "enabled" then "enabled" else "disabled"

/-- What the flag of that name is set to. -/
def flagValue (field : String) (params : Obj) : Json :=
  flagOf (if field = "enabled" then wantsEnabled params else !wantsEnabled params)

theorem flagName_mem : flagName field ∈ flagKeys := by
  unfold flagName flagKeys
  split <;> simp

theorem lookup_without_of_mem {keys : List String} {key : String} (h : key ∈ keys) :
    (without keys params).lookup key = none := by
  rw [List.lookup_eq_none_iff]
  intro kv hkv
  have hkey : kv.1 ∉ keys := by simpa using (List.mem_filter.mp hkv).2
  simpa using fun heq : key = kv.1 => hkey (heq ▸ h)

theorem set_of_lookup_eq_none {o : Obj} {key : String} (h : o.lookup key = none) (v : Json) :
    o.set key v = o ++ [(key, v)] := by
  induction o with
  | nil => rfl
  | cons kv rest ih =>
    obtain ⟨k, w⟩ := kv
    rw [List.lookup_cons] at h
    cases hk : key == k with
    | true =>
      rw [hk] at h
      cases h
    | false =>
      rw [hk] at h
      have hne : k ≠ key := fun heq => by simp [heq] at hk
      rw [Obj.set, if_neg hne, ih h]
      rfl

theorem translated_eq : translated field params =
    without flagKeys params ++ [(flagName field, flagValue field params)] := by
  have hset : ∀ v, (without flagKeys params).set (flagName field) v =
      without flagKeys params ++ [(flagName field, v)] := fun v =>
    set_of_lookup_eq_none (lookup_without_of_mem params (flagName_mem field)) v
  unfold translated flagValue
  by_cases hfield : field = "enabled"
  · have hname : flagName field = "enabled" := if_pos hfield
    rw [if_pos hfield, if_pos hfield, ← hname, hset]
  · have hname : flagName field = "disabled" := if_neg hfield
    rw [if_neg hfield, if_neg hfield, ← hname, hset]

theorem lookup_translated (key : String) : (translated field params).lookup key =
    if key = flagName field then some (flagValue field params)
    else (without flagKeys params).lookup key := by
  rw [translated_eq, List.lookup_append]
  by_cases hkey : key = flagName field
  · rw [if_pos hkey, hkey, lookup_without_of_mem params (flagName_mem field)]
    simp
  · rw [if_neg hkey, List.lookup_cons, beq_false_of_ne hkey]
    simp

theorem isTrue_flagOf (isOn : Bool) : isTrue (flagOf isOn) = isOn := by
  cases isOn <;> decide

theorem flagValue_translated : flagValue field (translated field params) =
    flagValue field params := by
  have hlookup := lookup_translated field params
  unfold flagValue
  by_cases hfield : field = "enabled"
  · have hname : flagName field = "enabled" := if_pos hfield
    have henabled : (translated field params).lookup "enabled" =
        some (flagOf (wantsEnabled params)) := by
      rw [hlookup, hname, if_pos rfl, flagValue, if_pos hfield]
    have hhas : (translated field params).has "enabled" = true := Obj.has_iff.mpr ⟨_, henabled⟩
    rw [if_pos hfield, if_pos hfield, wantsEnabled, if_pos hhas, Obj.getD_of_lookup henabled,
      isTrue_flagOf]
  · have hname : flagName field = "disabled" := if_neg hfield
    have hdisabled : (translated field params).lookup "disabled" =
        some (flagOf (!wantsEnabled params)) := by
      rw [hlookup, hname, if_pos rfl, flagValue, if_neg hfield]
    have henabled : (translated field params).has "enabled" = false := by
      rw [Obj.has_eq_false_iff, hlookup, hname, if_neg (by decide),
        lookup_without_of_mem params (by decide)]
    rw [if_neg hfield, if_neg hfield, wantsEnabled, henabled, if_neg Bool.false_ne_true,
      Obj.getD_of_lookup hdisabled, isTrue_flagOf, Bool.not_not]

/-- Translating twice is translating once, so it does not matter that `create` and `update` do it
again behind `ensure`. -/
theorem translated_translated : translated field (translated field params) =
    translated field params := by
  have hothers : without flagKeys (translated field params) = without flagKeys params := by
    rw [translated_eq, without, List.filter_append, List.filter_cons_of_neg
      (by simpa using flagName_mem field), List.filter_nil, List.append_nil]
    exact List.filter_filter.trans (by simp [without])
  rw [translated_eq field (translated field params), hothers, flagValue_translated,
    ← translated_eq]

/-- No second question either. -/
theorem deviceEnableFlag_translated (diffEngine : DiffEngine) :
    deviceEnableFlag diffEngine (some field) (translated field params) =
      .ret (translated field params) := by
  have hlookup := lookup_translated field params
  have hone : ∀ key ∈ flagKeys, key ≠ flagName field →
      (translated field params).has key = false := by
    intro key hmem hne
    rw [Obj.has_eq_false_iff, hlookup, if_neg hne, lookup_without_of_mem params hmem]
  have hflag : hasFlag (translated field params) = true := by
    have hname : (translated field params).has (flagName field) = true := by
      rw [Obj.has, hlookup, if_pos rfl]
      rfl
    by_cases hfield : field = "enabled"
    · rw [show flagName field = "enabled" from if_pos hfield] at hname
      simp [hasFlag, hname]
    · rw [show flagName field = "disabled" from if_neg hfield] at hname
      simp [hasFlag, hname]
  have hagree : contradicts (translated field params) = false := by
    by_cases hfield : field = "enabled"
    · have hname : "disabled" ≠ flagName field := by
        rw [show flagName field = "enabled" from if_pos hfield]
        decide
      simp [contradicts, hone "disabled" (by decide) hname]
    · have hname : "enabled" ≠ flagName field := by
        rw [show flagName field = "disabled" from if_neg hfield]
        decide
      simp [contradicts, hone "enabled" (by decide) hname]
  simp [deviceEnableFlag, hflag, hagree, translated_translated]

end Translated

example : contradicts [("disabled", .str "1"), ("enabled", .bool true)] = true ∧
    (translated "disabled" [("network", .str "10.99.0.0/24"), ("enabled", .str "on")]).text
      "disabled" = "0" := by decide

end RtRouteManager
end Opnsense
