import Opnsense.Redaction

namespace Opnsense

/-- How much of a value a rule shows at its ends, and what stands for the rest. -/
structure RedactRule where
  revealStart : ℕ
  revealEnd : ℕ
  maskChar : String := "*"

/-- The rules by the pattern of a field name; `lower` is `str.lower`. -/
structure Redactor where
  rules : List (String × RedactRule)
  lower : String → String

/-- `DEFAULT_RULES` -/
def defaultRules : List (String × RedactRule) :=
  [("password", ⟨0, 0, "*"⟩), ("otp_seed", ⟨0, 0, "*"⟩), ("scrambled_password", ⟨0, 0, "*"⟩),
    ("authorizedkeys", ⟨8, 0, "*"⟩), ("secret", ⟨0, 4, "*"⟩), ("api_key", ⟨4, 4, "*"⟩),
    ("key", ⟨4, 4, "*"⟩)]

/-- `f"<REDACTED:{key}>"` -/
def redacted (key : String) : Json := .str ("<REDACTED:" ++ key ++ ">")

namespace RedactRule

variable (rule : RedactRule)

def isFull : Bool := rule.revealStart == 0 && rule.revealEnd == 0

/-- The ends of the text, and a mask of the length of the rest. -/
def mask (s : String) : String :=
  let chars := s.toList
  let maskedLen := chars.length - rule.revealStart - rule.revealEnd
  String.ofList (chars.take rule.revealStart) ++
    String.join (List.replicate maskedLen rule.maskChar) ++
    String.ofList (chars.drop (chars.length - rule.revealEnd))

end RedactRule

namespace Redactor

variable (r : Redactor)

/-- The rule of the longest pattern in the field name, the first of these if there are several. -/
def matchedRule (key : String) : Option RedactRule :=
  -- the length of the best pattern so far goes along, and only a longer one takes its place
  (r.rules.foldl (fun best (pattern, rule) =>
    if decide (pattern.toList <:+: (r.lower key).toList) && decide (best.2 < pattern.length) then
      (some rule, pattern.length)
    else best) ((none, 0) : Option RedactRule × ℕ)).1

def redactValue (key : String) (value : Json) : Json :=
  match r.matchedRule key with
  | none => value
  | some rule =>
    match value with
    | .str s =>
      -- a text no longer than what is shown of it is hidden as a whole
      if s = "" ∨ rule.isFull = true ∨ s.length ≤ rule.revealStart + rule.revealEnd then
        redacted key
      else .str (rule.mask s)
    | _ => redacted key

/-- `redact_dict` without a field set: every field against the rules. -/
def redactDict (data : Obj) : Obj := data.map fun kv => (kv.1, r.redactValue kv.1 kv.2)

def structlogProcessor (eventDict : Obj) : Obj :=
  eventDict.map fun kv => (kv.1, r.redactValue kv.1 kv.2)

/-- The longest matching rule hides the whole value. -/
def Hides (key : String) : Prop := ∃ rule, r.matchedRule key = some rule ∧ rule.isFull = true

end Redactor

section TwoRuns

variable (secret : String → Prop)

mutual
/-- Two values that differ only in what stands under secret keys, at any depth. -/
def Alike : Json → Json → Prop
  | .obj fs, .obj gs => AlikeFields fs gs
  | .arr xs, .arr ys => AlikeItems xs ys
  | v, w => v = w

def AlikeItems : List Json → List Json → Prop
  | [], [] => True
  | v :: vs, w :: ws => Alike v w ∧ AlikeItems vs ws
  | _, _ => False

def AlikeFields : List (String × Json) → List (String × Json) → Prop
  | [], [] => True
  | (key, v) :: fs, (key', w) :: gs =>
    key = key' ∧ (secret key ∨ Alike v w) ∧ AlikeFields fs gs
  | _, _ => False
end

/-- Two dicts that differ only under some of their own keys. -/
def SameOutside (hidden : String → Prop) (d d' : Obj) : Prop :=
  List.Forall₂ (fun kv kv' => kv.1 = kv'.1 ∧ (hidden kv.1 ∨ kv.2 = kv'.2)) d d'

end TwoRuns

variable {secret hidden : String → Prop} {d d' : Obj}

/-- A text has no inside: alike values are equal, or neither is a text. -/
theorem eq_or_ne_str_of_alike {v w : Json} (h : Alike secret v w) :
    v = w ∨ (∀ s, v ≠ .str s) ∧ ∀ s, w ≠ .str s := by
  cases v with
  | obj fs =>
    cases w with
    | obj gs => exact Or.inr ⟨fun s hs => (nomatch hs), fun s hs => (nomatch hs)⟩
    | _ => cases h
  | arr xs =>
    cases w with
    | arr ys => exact Or.inr ⟨fun s hs => (nomatch hs), fun s hs => (nomatch hs)⟩
    | _ => cases h
  | _ => exact Or.inl (by simpa [Alike] using h)

/-- Entry by entry, what one function makes of two alike dicts is the same when it is the same
of every two values. -/
theorem map_eq_map_iff {f : String → Json → Json}
    (hsame : ∀ key v w, secret key ∨ Alike secret v w →
      (f key v = f key w ↔ hidden key ∨ v = w)) (halike : AlikeFields secret d d') :
    (d.map fun kv => (kv.1, f kv.1 kv.2)) = (d'.map fun kv => (kv.1, f kv.1 kv.2)) ↔
      SameOutside hidden d d' := by
  induction d generalizing d' with
  | nil =>
    cases d' with
    | nil => exact iff_of_true rfl List.Forall₂.nil
    | cons => exact halike.elim
  | cons kv rest ih =>
    cases d' with
    | nil => exact halike.elim
    | cons kv' rest' =>
      obtain ⟨key, v⟩ := kv
      obtain ⟨key', w⟩ := kv'
      obtain ⟨rfl, hvalue, hrest⟩ := halike
      rw [SameOutside, List.forall₂_cons, List.map_cons, List.map_cons, List.cons.injEq,
        Prod.mk.injEq, hsame key v w hvalue]
      exact and_congr Iff.rfl (ih hrest)

/-- A redacted value is the same for two alike ones when a rule takes hold of it, or when it was
the same before. -/
theorem Redactor.redactValue_eq_iff (r : Redactor) (key : String) (v w : Json)
    (h : r.Hides key ∨ Alike r.Hides v w) :
    r.redactValue key v = r.redactValue key w ↔ (r.matchedRule key).isSome = true ∨ v = w := by
  cases hrule : r.matchedRule key with
  | none => simp [redactValue, hrule]
  | some rule =>
    refine iff_of_true ?_ (Or.inl rfl)
    rcases h with ⟨rule', hrule', hfull⟩ | halike
    · -- the rule hides whatever there is
      obtain rfl : rule = rule' := by simpa [hrule] using hrule'
      have hidden : ∀ u, r.redactValue key u = redacted key := by
        intro u
        cases u <;> simp [redactValue, hrule, hfull]
      rw [hidden v, hidden w]
    · have hidden : ∀ u : Json, (∀ s, u ≠ .str s) → r.redactValue key u = redacted key := by
        intro u hu
        cases u with
        | str s => exact absurd rfl (hu s)
        | _ => simp [redactValue, hrule]
      rcases eq_or_ne_str_of_alike halike with rfl | ⟨hv, hw⟩
      · rfl
      · rw [hidden v hv, hidden w hw]

theorem keys_eq_of_alikeFields (h : AlikeFields secret d d') : d.map (·.1) = d'.map (·.1) := by
  induction d generalizing d' with
  | nil =>
    cases d' with
    | nil => rfl
    | cons => exact h.elim
  | cons kv rest ih =>
    cases d' with
    | nil => exact h.elim
    | cons kv' rest' =>
      obtain ⟨hkey, -, hrest⟩ := h
      rw [List.map_cons, List.map_cons, hkey, ih hrest]

section FieldSet

/-- Replacing the value of one key, if the dict has it. -/
theorem setIfHas_eq_map {key : String} {v : Json} (hnodup : (d.map (·.1)).Nodup) :
    (if d.has key then Obj.set d key v else d) =
      d.map fun kv => (kv.1, if kv.1 = key then v else kv.2) := by
  induction d with
  | nil => rfl
  | cons kv rest ih =>
    obtain ⟨k, w⟩ := kv
    obtain ⟨hnot, hrest⟩ := List.nodup_cons.mp hnodup
    by_cases hk : k = key
    · -- the key does not occur again
      subst hk
      have hsame : rest.map (fun kv => (kv.1, if kv.1 = k then v else kv.2)) = rest := by
        conv_rhs => rw [← List.map_id rest]
        apply List.map_congr_left
        intro kv hkv
        have hne : kv.1 ≠ k := fun heq => hnot (List.mem_map.mpr ⟨kv, hkv, heq⟩)
        rw [if_neg hne]
        rfl
      simp [Obj.has, Obj.set, hsame]
    · have hlookup : Obj.has ((k, w) :: rest) key = Obj.has rest key := by
        have hbeq : (key == k) = false := by simpa using fun heq => hk heq.symm
        rw [Obj.has, List.lookup_cons, hbeq]
        rfl
      rw [hlookup, List.map_cons, if_neg hk, ← ih hrest, Obj.set, if_neg hk]
      split <;> rfl

/-- The field set of a call replaces the values of its own keys. -/
theorem redactDict_eq_map (fields : List String) (hnodup : (d.map (·.1)).Nodup) :
    redactDict fields (.obj d) = .ok (.obj (d.map fun kv =>
      (kv.1, if kv.1 ∈ fields then redacted kv.1 else kv.2))) := by
  suffices h : ∀ o : Obj, (o.map (·.1)).Nodup → fields.foldl
      (fun (o : Obj) key => if o.has key then o.set key (redacted key) else o) o =
        o.map fun kv => (kv.1, if kv.1 ∈ fields then redacted kv.1 else kv.2) by
    exact congrArg (fun o => Except.ok (Json.obj o)) (h d hnodup)
  intro o ho
  -- one key is replaced after the other, so the dict varies
  induction fields generalizing o with
  | nil => simp
  | cons key rest ih =>
    have hkeys : (o.map fun kv => (kv.1, if kv.1 = key then redacted key else kv.2)).map (·.1) =
        o.map (·.1) := by
      rw [List.map_map]
      rfl
    rw [List.foldl_cons, setIfHas_eq_map ho, ih _ (hkeys ▸ ho), List.map_map]
    apply List.map_congr_left
    intro kv _
    by_cases hk : kv.1 = key
    · simp [hk]
    · simp [hk]

end FieldSet

/-- Of two dicts that differ in their secrets only, each way of redacting makes the same exactly
when they differ at the top level only: a block under a key that is not taken hold of itself
shows its secrets. -/
theorem redacted_eq_iff (fields : List String) (r : Redactor) (d d' : Obj)
    (hnodup : (d.map (·.1)).Nodup) :
    (AlikeFields (· ∈ fields) d d' →
      (redactDict fields (.obj d) = redactDict fields (.obj d') ↔
        SameOutside (· ∈ fields) d d')) ∧
    (AlikeFields r.Hides d d' →
      (r.redactDict d = r.redactDict d' ↔
        SameOutside (fun key => (r.matchedRule key).isSome = true) d d')) ∧
    (AlikeFields r.Hides d d' →
      (r.structlogProcessor d = r.structlogProcessor d' ↔
        SameOutside (fun key => (r.matchedRule key).isSome = true) d d')) := by
  refine ⟨fun halike => ?_, fun halike => ?_, fun halike => ?_⟩
  · have hnodup' : (d'.map (·.1)).Nodup := keys_eq_of_alikeFields halike ▸ hnodup
    rw [redactDict_eq_map fields hnodup, redactDict_eq_map fields hnodup', Except.ok.injEq,
      Json.obj.injEq]
    -- a value under another key is passed on as it is
    have hsame : ∀ key v w, key ∈ fields ∨ Alike (· ∈ fields) v w →
        ((if key ∈ fields then redacted key else v) = (if key ∈ fields then redacted key else w) ↔
          key ∈ fields ∨ v = w) := by
      intro key v w _
      by_cases hkey : key ∈ fields
      · simp [hkey]
      · simp [hkey]
    exact map_eq_map_iff hsame halike
  · exact map_eq_map_iff r.redactValue_eq_iff halike
  · exact map_eq_map_iff r.redactValue_eq_iff halike

/-- The rules of the library, with a `lower` for the keys of plain letters. -/
def sampleRedactor : Redactor := ⟨defaultRules, fun s => String.ofList (s.toList.map Char.toLower)⟩

/-- A user as an event carries it, with the password one level down. -/
def eventOf (password : String) : Obj :=
  [("user", .obj [("name", .str "admin"), ("password", .str password)])]

theorem hides_password : sampleRedactor.Hides "password" := ⟨⟨0, 0, "*"⟩, rfl, rfl⟩

theorem alike_eventOf {secret : String → Prop} (h : secret "password") (p p' : String) :
    AlikeFields secret (eventOf p) (eventOf p') := by
  simp [eventOf, AlikeFields, Alike, h]

theorem redacted_eq_iff_sample :
    (redactDict ["user"] (.obj (eventOf "a")) = redactDict ["user"] (.obj (eventOf "b")) ↔
        SameOutside (· ∈ ["user"]) (eventOf "a") (eventOf "b")) ∧
      (sampleRedactor.redactDict (eventOf "a") = sampleRedactor.redactDict (eventOf "b") ↔
        SameOutside (fun key => (sampleRedactor.matchedRule key).isSome = true)
          (eventOf "a") (eventOf "b")) :=
  have h := redacted_eq_iff ["user"] sampleRedactor (eventOf "a") (eventOf "b") (by decide)
  ⟨h.1 (by simp [eventOf, AlikeFields]), h.2.1 (alike_eventOf hides_password "a" "b")⟩

/-- The password one level down is a secret for each of the three, and each shows it. -/
theorem nested_password_shown :
    (AlikeFields (· ∈ ["password"]) (eventOf "a") (eventOf "b") ∧
      redactDict ["password"] (.obj (eventOf "a")) ≠ redactDict ["password"] (.obj (eventOf "b"))) ∧
    (AlikeFields sampleRedactor.Hides (eventOf "a") (eventOf "b") ∧
      sampleRedactor.redactDict (eventOf "a") ≠ sampleRedactor.redactDict (eventOf "b") ∧
      sampleRedactor.structlogProcessor (eventOf "a") ≠
        sampleRedactor.structlogProcessor (eventOf "b")) := by
  have hset : ∀ p, redactDict ["password"] (.obj (eventOf p)) = .ok (.obj (eventOf p)) :=
    fun _ => rfl
  have hnone : sampleRedactor.matchedRule "user" = none := by decide
  have hrules : ∀ p, sampleRedactor.redactDict (eventOf p) = eventOf p := by
    intro p
    simp [Redactor.redactDict, Redactor.redactValue, eventOf, hnone]
  have hevent : ∀ p, sampleRedactor.structlogProcessor (eventOf p) = eventOf p := hrules
  have hne : eventOf "a" ≠ eventOf "b" := by simp [eventOf]
  refine ⟨⟨alike_eventOf (by simp) _ _, ?_⟩, alike_eventOf hides_password _ _, ?_, ?_⟩
  · rw [hset, hset]
    simpa using hne
  · rw [hrules, hrules]
    exact hne
  · rw [hevent, hevent]
    exact hne

end Opnsense
