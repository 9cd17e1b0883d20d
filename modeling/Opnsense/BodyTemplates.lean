import Opnsense.FinalReply
import Opnsense.Text.Template
import Opnsense.TextFields

namespace Opnsense
open Text

def isAlphanumeric (c : Char) : Bool := isAsciiLetter c || isAsciiDigit c

/-- The characters of a secret: alphanumeric, and at least 16 of them. -/
structure Secret where
  chars : List Char
  alphanumeric : ∀ c ∈ chars, isAlphanumeric c = true
  long : 16 ≤ chars.length

/-- A JSON value with holes in its texts and in the keys of its objects. -/
inductive JsonTemplate where
  | null
  | bool (b : Bool)
  | int (n : Int)
  | float (repr : String)
  | str (T : Template)
  | arr (items : List JsonTemplate)
  | obj (fields : List (Template × JsonTemplate))

/-- `repr` of a text with holes. -/
def reprStrTemplate (T : Template) : Template :=
  let quote := if some singleQuote ∈ T ∧ some doubleQuote ∉ T then doubleQuote else singleQuote
  some quote :: (T.mapChars (reprChar quote) ++ [some quote])

namespace JsonTemplate

mutual
/-- The value with `s` in the holes. -/
def fill (s : List Char) : JsonTemplate → Json
  | .null => .null
  | .bool b => .bool b
  | .int n => .int n
  | .float r => .float r
  | .str T => .str (String.ofList (T.fill s))
  | .arr vs => .arr (fillItems s vs)
  | .obj fs => .obj (fillFields s fs)

def fillItems (s : List Char) : List JsonTemplate → List Json
  | [] => []
  | v :: vs => fill s v :: fillItems s vs

def fillFields (s : List Char) : List (Template × JsonTemplate) → Obj
  | [] => []
  | (k, v) :: fs => (String.ofList (k.fill s), fill s v) :: fillFields s fs
end

mutual
/-- `repr(v)` -/
def repr : JsonTemplate → Template
  | .null => .lit "None".toList
  | .bool b => .lit (if b then "True" else "False").toList
  | .int n => .lit (toString n).toList
  | .float r => .lit r.toList
  | .str T => reprStrTemplate T
  | .arr vs => some '[' :: ((Template.lit ", ".toList).intercalate (reprItems vs) ++ [some ']'])
  | .obj fs => some '\x7b' ::
    ((Template.lit ", ".toList).intercalate (reprFields fs) ++ [some '\x7d'])

def reprItems : List JsonTemplate → List Template
  | [] => []
  | v :: vs => repr v :: reprItems vs

def reprFields : List (Template × JsonTemplate) → List Template
  | [] => []
  | (k, v) :: fs => (reprStrTemplate k ++ .lit ": ".toList ++ repr v) :: reprFields fs
end

/-- `str(v)` -/
def text : JsonTemplate → Template
  | .str T => T
  | v => repr v

/-- `bool(v)` -/
def truthy : JsonTemplate → Bool
  | .null => false
  | .bool b => b
  | .int n => n != 0
  | .float r => r != "0.0" && r != "-0.0"
  | .str T => !T.isEmpty
  | .arr vs => !vs.isEmpty
  | .obj fs => !fs.isEmpty

/-- `d.get(key, default)` for a key without holes. -/
def getD (fs : List (Template × JsonTemplate)) (key : String) (default : JsonTemplate) :
    JsonTemplate :=
  ((fs.find? fun f => f.1 == Template.lit key.toList).map Prod.snd).getD default

end JsonTemplate

section Rendering

variable {s : List Char} {c quote : Char}

theorem reprChar_alphanumeric (hc : isAlphanumeric c = true)
    (hquote : quote = singleQuote ∨ quote = doubleQuote) : reprChar quote c = [c] := by
  have hbounds : 0x30 ≤ c.toNat ∧ c.toNat < 0x7f ∧ c.toNat ≠ 0x5c := by
    simp only [isAlphanumeric, isAsciiLetter, isAsciiDigit, Bool.or_eq_true, Bool.and_eq_true,
      decide_eq_true_eq] at hc
    omega
  have hne : ∀ d : Char, d.toNat < 0x30 ∨ d.toNat = 0x5c → c ≠ d := by
    rintro d hd rfl
    omega
  have hquote : c ≠ quote := by
    rcases hquote with rfl | rfl
    · exact hne _ (by decide)
    · exact hne _ (by decide)
  have hprintable : Text.isPrintable c = true := by
    rw [Text.isPrintable, if_pos (by omega)]
    simp
    omega
  rw [reprChar, if_neg (not_or.mpr ⟨hquote, hne _ (by decide)⟩), if_neg (by omega),
    if_neg (by omega), if_neg (by omega), if_pos hprintable]

theorem notMem_of_alphanumeric (hs : ∀ c ∈ s, isAlphanumeric c = true)
    (hc : isAlphanumeric c = false) : c ∉ s := by
  intro hmem
  rw [hs c hmem] at hc
  cases hc

theorem toList_reprStr_fill (hs : ∀ c ∈ s, isAlphanumeric c = true) (T : Template) :
    (reprStr (String.ofList (T.fill s))).toList = (reprStrTemplate T).fill s := by
  have hsingle : singleQuote ∈ T.fill s ↔ some singleQuote ∈ T :=
    Template.mem_fill_iff (notMem_of_alphanumeric hs rfl)
  have hdouble : doubleQuote ∈ T.fill s ↔ some doubleQuote ∈ T :=
    Template.mem_fill_iff (notMem_of_alphanumeric hs rfl)
  have hquote : (if some singleQuote ∈ T ∧ some doubleQuote ∉ T then doubleQuote
      else singleQuote) = singleQuote ∨
      (if some singleQuote ∈ T ∧ some doubleQuote ∉ T then doubleQuote else singleQuote) =
        doubleQuote := by
    split
    · exact Or.inr rfl
    · exact Or.inl rfl
  -- the secret has no quote, so the quotes are chosen by the template, and nothing of it is escaped
  have hkept := fun c hc => reprChar_alphanumeric (hs c hc) hquote
  simp only [reprStr, reprStrTemplate, String.toList_ofList, hsingle, hdouble]
  rw [Template.fill_some, Template.fill_append, ← Template.flatMap_fill hkept]
  rfl

namespace JsonTemplate

mutual
theorem toList_pyRepr_fill (hs : ∀ c ∈ s, isAlphanumeric c = true) (v : JsonTemplate) :
    (pyRepr (v.fill s)).toList = v.repr.fill s := by
  cases v with
  | null => exact (Template.fill_lit _ _).symm
  | bool b => exact (Template.fill_lit _ _).symm
  | int n => exact (Template.fill_lit _ _).symm
  | float r => exact (Template.fill_lit _ _).symm
  | str T => exact toList_reprStr_fill hs T
  | arr vs =>
    have hitems := toList_pyReprItems_fill hs vs
    simp only [fill, repr, pyRepr, String.toList_append, String.toList_intercalate, hitems,
      Template.fill_some, Template.fill_append, Template.fill_intercalate]
    rfl
  | obj fs =>
    have hfields := toList_pyReprFields_fill hs fs
    simp only [fill, repr, pyRepr, String.toList_append, String.toList_intercalate, hfields,
      Template.fill_some, Template.fill_append, Template.fill_intercalate]
    rfl

theorem toList_pyReprItems_fill (hs : ∀ c ∈ s, isAlphanumeric c = true)
    (vs : List JsonTemplate) :
    (pyReprItems (fillItems s vs)).map String.toList = (reprItems vs).map (Template.fill s) := by
  cases vs with
  | nil => rfl
  | cons v vs =>
    simp only [fillItems, reprItems, pyReprItems, List.map_cons, toList_pyRepr_fill hs v,
      toList_pyReprItems_fill hs vs]

theorem toList_pyReprFields_fill (hs : ∀ c ∈ s, isAlphanumeric c = true)
    (fs : List (Template × JsonTemplate)) :
    (pyReprFields (fillFields s fs)).map String.toList = (reprFields fs).map (Template.fill s) := by
  cases fs with
  | nil => rfl
  | cons f fs =>
    obtain ⟨k, v⟩ := f
    simp only [fillFields, reprFields, pyReprFields, List.map_cons, toList_pyRepr_fill hs v,
      toList_pyReprFields_fill hs fs, String.toList_append, toList_reprStr_fill hs,
      Template.fill_append, Template.fill_lit]
end

theorem toList_pyStr_fill (hs : ∀ c ∈ s, isAlphanumeric c = true) (v : JsonTemplate) :
    (pyStr (v.fill s)).toList = v.text.fill s := by
  cases v with
  | str T => exact String.toList_ofList
  | null => exact toList_pyRepr_fill hs .null
  | bool b => exact toList_pyRepr_fill hs (.bool b)
  | int n => exact toList_pyRepr_fill hs (.int n)
  | float r => exact toList_pyRepr_fill hs (.float r)
  | arr vs => exact toList_pyRepr_fill hs (.arr vs)
  | obj fs => exact toList_pyRepr_fill hs (.obj fs)

theorem truthy_fill (hs : s ≠ []) (v : JsonTemplate) : (v.fill s).truthy = v.truthy := by
  cases v with
  | str T =>
    have hempty : String.ofList (T.fill s) = "" ↔ T = [] := by
      rw [← Template.fill_eq_nil_iff hs, ← String.toList_inj, String.toList_ofList]
      rfl
    change (String.ofList (T.fill s) != "") = !T.isEmpty
    cases T with
    | nil => rfl
    | cons piece T =>
      have hne : String.ofList (Template.fill s (piece :: T)) ≠ "" :=
        fun h => List.cons_ne_nil _ _ (hempty.mp h)
      rw [bne_iff_ne.mpr hne]
      rfl
  | arr vs => cases vs <;> rfl
  | obj fs => cases fs <;> rfl
  | null => rfl
  | bool b => rfl
  | int n => rfl
  | float r => rfl

/-- A key shorter than the secret has no hole, so it is found in the template. -/
theorem getD_fill {key : String} (hkey : key.length < s.length)
    (fs : List (Template × JsonTemplate)) (default : JsonTemplate) :
    Obj.getD (fillFields s fs) key (default.fill s) = (getD fs key default).fill s := by
  induction fs with
  | nil => rfl
  | cons f fs ih =>
    obtain ⟨k, v⟩ := f
    have hsame : String.ofList (k.fill s) = key ↔ k = .lit key.toList := by
      have hshort : key.toList.length < s.length := by rwa [String.length_toList]
      rw [← Template.fill_eq_iff hshort, ← String.toList_inj, String.toList_ofList]
    rw [fillFields, Obj.getD, List.lookup_cons, getD, List.find?_cons]
    by_cases hk : k = .lit key.toList
    · have hfound : (key == String.ofList (k.fill s)) = true := by
        rw [beq_iff_eq]
        exact (hsame.mpr hk).symm
      have hfound' : (k == Template.lit key.toList) = true := beq_iff_eq.mpr hk
      simp only [hfound, hfound']
      rfl
    · have hmissed : (key == String.ofList (k.fill s)) = false := by
        rw [beq_eq_false_iff_ne]
        exact fun h => hk (hsame.mp h.symm)
      have hmissed' : (k == Template.lit key.toList) = false := beq_eq_false_iff_ne.mpr hk
      simp only [hmissed, hmissed']
      exact ih

end JsonTemplate
end Rendering

/-- An error body with holes: its text, and what decoding it gives. What decoding complains of does
not quote the text. -/
structure BodyTemplate where
  text : Template
  json : Except String JsonTemplate

namespace BodyTemplate

def fill (s : List Char) (b : BodyTemplate) : HttpBody where
  text := String.ofList (b.text.fill s)
  json := b.json.map (JsonTemplate.fill s)

/-- The body is a JSON object, with these fields. -/
def object (b : BodyTemplate) : Option (List (Template × JsonTemplate)) :=
  match b.json with
  | .ok (.obj fs) => some fs
  | _ => none

/-- The `message` of an object, else its `errorMessage`. -/
def message (fs : List (Template × JsonTemplate)) : Template :=
  let detail := JsonTemplate.getD fs "message" (JsonTemplate.getD fs "errorMessage" (.str []))
  if detail.truthy then detail.text else []

/-- What an error shows of the body: a template, and how many characters of a secret of length `len`
follow that are cut off from the rest of it. -/
def detail (len : ℕ) (b : BodyTemplate) : Template × ℕ :=
  match b.object with
  | some fs => (message fs, 0)
  | none => b.text.cut len 200

def validations (b : BodyTemplate) : List (Template × JsonTemplate) :=
  match b.object with
  | some fs =>
    match JsonTemplate.getD fs "validations" (.obj []) with
    | .obj validations => validations
    | _ => []
  | none => []

/-- The fields of a validation error, as they are listed. -/
def reported (validations : List (Template × JsonTemplate)) : Template :=
  (Template.lit "; ".toList).intercalate
    (validations.map fun kv => kv.1 ++ Template.lit ": ".toList ++ kv.2.text)

/-- The body reports `result=failed`. -/
def resultFailed (b : BodyTemplate) : Bool :=
  match b.object with
  | some fs =>
    match JsonTemplate.getD fs "result" .null with
    | .str T => T == Template.lit "failed".toList
    | _ => false
  | none => false

/-- No occurrence of the secret in what is shown of the body begins elsewhere than at a quote. -/
def QuotesOnly (s : List Char) (b : BodyTemplate) : Prop :=
  match b.object with
  | some fs => (message fs).QuotedOnly s
  | none => b.text.QuotedOnly s

section Fill

variable {s : List Char} {b : BodyTemplate}

theorem json_fill_of_object {fs : List (Template × JsonTemplate)} (h : b.object = some fs) :
    (b.fill s).json = .ok (.obj (JsonTemplate.fillFields s fs)) := by
  unfold object at h
  split at h
  · rename_i hjson
    cases h
    rw [fill, hjson]
    rfl
  · cases h

theorem json_fill_of_no_object (h : b.object = none) :
    ∀ fs, (b.fill s).json ≠ .ok (.obj fs) := by
  intro fs hfs
  cases hjson : b.json with
  | error message =>
    rw [fill, hjson] at hfs
    cases hfs
  | ok v =>
    rw [fill, hjson] at hfs
    cases v with
    | obj fs => simp [object, hjson] at h
    | null => cases hfs
    | bool b => cases hfs
    | int n => cases hfs
    | float r => cases hfs
    | str T => cases hfs
    | arr vs => cases hfs

theorem toList_errorDetail_fill (hs : ∀ c ∈ s, isAlphanumeric c = true) (hlong : 16 ≤ s.length) :
    (OpnsenseClient.errorDetail (b.fill s)).toList =
      (b.detail s.length).1.fill s ++ s.take (b.detail s.length).2 := by
  have hne : s ≠ [] := List.ne_nil_of_length_pos (by omega)
  cases hobject : b.object with
  | some fs =>
    have hdetail : Obj.getD (JsonTemplate.fillFields s fs) "message"
        (Obj.getD (JsonTemplate.fillFields s fs) "errorMessage" (.str "")) =
          (JsonTemplate.getD fs "message" (JsonTemplate.getD fs "errorMessage" (.str []))).fill
            s := by
      have herror := @JsonTemplate.getD_fill s "errorMessage" (lt_of_lt_of_le (by decide) hlong) fs
        (.str [])
      have hempty : JsonTemplate.fill s (.str []) = .str "" := rfl
      rw [hempty] at herror
      rw [herror]
      exact JsonTemplate.getD_fill (lt_of_lt_of_le (by decide) hlong) fs _
    simp only [OpnsenseClient.errorDetail, json_fill_of_object hobject, hdetail, detail, hobject,
      message, JsonTemplate.truthy_fill hne, List.take_zero, List.append_nil]
    split
    · exact JsonTemplate.toList_pyStr_fill hs _
    · rfl
  | none =>
    have hnone := @json_fill_of_no_object s b hobject
    rw [detail, hobject]
    simp only
    rw [← Template.take_fill]
    unfold OpnsenseClient.errorDetail
    split
    · rename_i fs hjson
      exact absurd hjson (hnone fs)
    · rw [String.toList_ofList, fill, String.toList_ofList]

theorem validationsOf_fill (hlong : 16 ≤ s.length) :
    OpnsenseClient.validationsOf (b.fill s).json =
      JsonTemplate.fillFields s b.validations := by
  cases hobject : b.object with
  | some fs =>
    have hvalidations := @JsonTemplate.getD_fill s "validations" (lt_of_lt_of_le (by decide) hlong)
      fs (.obj [])
    have hempty : JsonTemplate.fill s (.obj []) = .obj [] := rfl
    rw [hempty] at hvalidations
    simp only [OpnsenseClient.validationsOf, json_fill_of_object hobject, validations, hobject,
      hvalidations]
    cases JsonTemplate.getD fs "validations" (.obj []) <;> rfl
  | none =>
    have hnone := @json_fill_of_no_object s b hobject
    simp only [validations, hobject]
    unfold OpnsenseClient.validationsOf
    split
    · rename_i fs hjson
      exact absurd hjson (hnone fs)
    · rfl

theorem toList_reported_fill (hs : ∀ c ∈ s, isAlphanumeric c = true)
    (validations : List (Template × JsonTemplate)) :
    ("; ".intercalate ((JsonTemplate.fillFields s validations).map
      fun kv => kv.1 ++ ": " ++ pyStr kv.2)).toList = (reported validations).fill s := by
  have hmap : (JsonTemplate.fillFields s validations).map
      (fun kv => (kv.1 ++ ": " ++ pyStr kv.2).toList) =
        (validations.map fun kv => kv.1 ++ Template.lit ": ".toList ++ kv.2.text).map
          (Template.fill s) := by
    induction validations with
    | nil => rfl
    | cons kv rest ih =>
      obtain ⟨k, v⟩ := kv
      have hone : (String.ofList (k.fill s) ++ ": " ++ pyStr (v.fill s)).toList =
          Template.fill s (k ++ Template.lit ": ".toList ++ v.text) := by
        rw [String.toList_append, String.toList_append, String.toList_ofList,
          JsonTemplate.toList_pyStr_fill hs, Template.fill_append, Template.fill_append,
          Template.fill_lit]
      exact congrArg₂ List.cons hone ih
  rw [String.toList_intercalate, List.map_map, reported, Template.fill_intercalate, ← hmap]
  rfl

theorem resultFailed_fill {v : Json} (hlong : 16 ≤ s.length) (h : (b.fill s).json = .ok v) :
    OpnsenseClient.resultFailed v = b.resultFailed := by
  cases hobject : b.object with
  | some fs =>
    rw [json_fill_of_object hobject] at h
    cases h
    have hresult := @JsonTemplate.getD_fill s "result" (lt_of_lt_of_le (by decide) hlong) fs .null
    have hnull : JsonTemplate.fill s .null = .null := rfl
    rw [hnull] at hresult
    simp only [OpnsenseClient.resultFailed, resultFailed, hobject, hresult]
    cases JsonTemplate.getD fs "result" .null with
    | str T =>
      have hshort : "failed".toList.length < s.length := lt_of_lt_of_le (by decide) hlong
      have hsame : String.ofList (T.fill s) = "failed" ↔ T = .lit "failed".toList := by
        rw [← Template.fill_eq_iff hshort, ← String.toList_inj, String.toList_ofList]
      change (String.ofList (T.fill s) == "failed") = (T == Template.lit "failed".toList)
      rw [Bool.eq_iff_iff, beq_iff_eq, beq_iff_eq]
      exact hsame
    | null => rfl
    | bool b => rfl
    | int n => rfl
    | float r => rfl
    | arr vs => rfl
    | obj fs => rfl
  | none =>
    have hnone := @json_fill_of_no_object s b hobject
    simp only [resultFailed, hobject]
    unfold OpnsenseClient.resultFailed
    split
    · rename_i fs
      exact absurd h (hnone fs)
    · rfl

end Fill
end BodyTemplate
end Opnsense
