import Mathlib.Data.List.Basic
import Opnsense.Text.Printable

namespace Opnsense

/-- A Python value as the `json` module decodes it. An object keeps its key order; a float is carried
by its `repr`. -/
inductive Json where
  | null
  | bool (b : Bool)
  | int (n : Int)
  | float (repr : String)
  | str (s : String)
  | arr (items : List Json)
  | obj (fields : List (String × Json))

/-- A Python `dict` with string keys. -/
abbrev Obj := List (String × Json)

namespace Json

/-- `type(v).__name__` -/
def typeName : Json → String
  | null => "NoneType"
  | bool _ => "bool"
  | int _ => "int"
  | float _ => "float"
  | str _ => "str"
  | arr _ => "list"
  | obj _ => "dict"

/-- `bool(v)` -/
def truthy : Json → Bool
  | null => false
  | bool b => b
  | int n => n != 0
  | float r => r != "0.0" && r != "-0.0"
  | str s => s != ""
  | arr xs => !xs.isEmpty
  | obj fs => !fs.isEmpty

/-- `isinstance(v, dict)` -/
def isDict : Json → Bool
  | obj _ => true
  | _ => false

end Json

def hexDigit (n : ℕ) : Char := "0123456789abcdef".toList.getD (n % 16) '0'

def backslash : Char := Char.ofNat 0x5c
def singleQuote : Char := Char.ofNat 0x27
def doubleQuote : Char := Char.ofNat 0x22

def hexDigits (width n : ℕ) : List Char :=
  (List.range width).reverse.map fun i => hexDigit (n >>> (4 * i))

/-- One character inside a `repr`. -/
def reprChar (quote c : Char) : List Char :=
  if c = quote ∨ c = backslash then [backslash, c]
  else if c.toNat = 0x0a then [backslash, 'n']
  else if c.toNat = 0x0d then [backslash, 'r']
  else if c.toNat = 0x09 then [backslash, 't']
  else if Text.isPrintable c then [c]
  else if c.toNat < 0x100 then backslash :: 'x' :: hexDigits 2 c.toNat
  else if c.toNat < 0x10000 then backslash :: 'u' :: hexDigits 4 c.toNat
  else backslash :: 'U' :: hexDigits 8 c.toNat

/-- `repr(s)`: single quotes unless the text has one and no double quote. -/
def reprStr (s : String) : String :=
  let quote :=
    if singleQuote ∈ s.toList ∧ doubleQuote ∉ s.toList then doubleQuote else singleQuote
  String.ofList ([quote] ++ s.toList.flatMap (reprChar quote) ++ [quote])

mutual
/-- `repr(v)`, of integers with at most 4300 digits: of longer ones there is none. -/
def pyRepr : Json → String
  | .null => "None"
  | .bool b => if b then "True" else "False"
  | .int n => toString n
  | .float r => r
  | .str s => reprStr s
  | .arr xs => "[" ++ ", ".intercalate (pyReprItems xs) ++ "]"
  | .obj fs => "\x7b" ++ ", ".intercalate (pyReprFields fs) ++ "\x7d"

def pyReprItems : List Json → List String
  | [] => []
  | v :: vs => pyRepr v :: pyReprItems vs

def pyReprFields : List (String × Json) → List String
  | [] => []
  | (k, v) :: fs => (reprStr k ++ ": " ++ pyRepr v) :: pyReprFields fs
end

/-- `str(v)`, with the limit that `repr` has. -/
def pyStr : Json → String
  | .str s => s
  | v => pyRepr v

@[simp] theorem pyStr_str (s : String) : pyStr (.str s) = s := rfl
@[simp] theorem pyStr_bool (b : Bool) : pyStr (.bool b) = if b then "True" else "False" := by
  cases b <;> rfl

theorem pyStr_obj_ne_empty (fs : Obj) : pyStr (.obj fs) ≠ "" := by
  intro h
  have hlist := congrArg String.toList h
  simp [pyStr, pyRepr] at hlist

example : pyStr (.arr [.int 3, .str "on", .bool true, .obj []]) =
    "[3, 'on', True, \x7b\x7d]" := by decide

namespace Obj

/-- `d.get(key, default)` -/
def getD (o : Obj) (key : String) (default : Json) : Json := (o.lookup key).getD default

/-- `key in d` -/
def has (o : Obj) (key : String) : Bool := (o.lookup key).isSome

/-- `d[key] = value`: an existing key keeps its place. -/
def set : Obj → String → Json → Obj
  | [], key, v => [(key, v)]
  | (k, w) :: rest, key, v => if k = key then (k, v) :: rest else (k, w) :: set rest key v

/-- `{**d, **e}` -/
def overlay (o o' : Obj) : Obj := o'.foldl (fun acc kv => acc.set kv.1 kv.2) o

/-- `str(d.get(key, ""))` -/
def text (o : Obj) (key : String) : String := pyStr (o.getD key (.str ""))

@[simp] theorem lookup_set_self (o : Obj) (key : String) (v : Json) :
    (o.set key v).lookup key = some v := by
  induction o with
  | nil => simp [set]
  | cons kw rest ih =>
    obtain ⟨k, w⟩ := kw
    by_cases hk : k = key
    · simp [set, hk]
    · have hk' : (key == k) = false := by simpa using fun h => hk h.symm
      simp [set, hk, List.lookup_cons, hk', ih]

@[simp] theorem lookup_set_of_ne (o : Obj) {key key' : String} (h : key' ≠ key) (v : Json) :
    (o.set key v).lookup key' = o.lookup key' := by
  induction o with
  | nil => simp [set, h]
  | cons kw rest ih =>
    obtain ⟨k, w⟩ := kw
    by_cases hk : k = key
    · subst hk
      have hk' : (key' == k) = false := by simpa using h
      simp [set, List.lookup_cons, hk']
    · simp [set, hk, List.lookup_cons, ih]

theorem mem_of_lookup {o : Obj} {key : String} {v : Json} (h : o.lookup key = some v) :
    (key, v) ∈ o := by
  obtain ⟨before, after, rfl, -⟩ := List.lookup_eq_some_iff.mp h
  simp

/-- A dict has one value for a key. -/
theorem lookup_of_mem {o : Obj} (hnodup : (o.map (·.1)).Nodup) {key : String} {v : Json}
    (h : (key, v) ∈ o) : o.lookup key = some v := by
  induction o with
  | nil => cases h
  | cons kw rest ih =>
    obtain ⟨k, w⟩ := kw
    obtain ⟨hnot, hrest⟩ := List.nodup_cons.mp hnodup
    rcases List.mem_cons.mp h with heq | hmem
    · cases heq
      exact List.lookup_cons_self
    · have hne : key ≠ k := by
        intro heq
        exact hnot (heq ▸ List.mem_map.mpr ⟨(key, v), hmem, rfl⟩)
      have hk : (key == k) = false := by simpa using hne
      rw [List.lookup_cons, hk]
      exact ih hrest hmem

theorem getD_of_lookup {o : Obj} {key : String} {v : Json} (h : o.lookup key = some v)
    (default : Json) : o.getD key default = v := by
  rw [getD, h]
  rfl

theorem text_of_lookup {o : Obj} {key : String} {v : Json} (h : o.lookup key = some v) :
    o.text key = pyStr v := by
  rw [text, getD_of_lookup h]

theorem text_congr {o o' : Obj} {key : String} (h : o.lookup key = o'.lookup key) :
    o.text key = o'.text key := by
  rw [text, text, getD, getD, h]

theorem has_eq_false_iff {o : Obj} {key : String} : o.has key = false ↔ o.lookup key = none := by
  simp [has]

theorem text_of_not_has {o : Obj} {key : String} (h : o.has key = false) : o.text key = "" := by
  rw [text, getD, has_eq_false_iff.mp h]
  rfl

theorem has_iff {o : Obj} {key : String} : o.has key = true ↔ ∃ v, o.lookup key = some v := by
  rw [has, Option.isSome_iff_exists]

theorem keys_set (o : Obj) (key : String) (v : Json) :
    (o.set key v).map (·.1) =
      if o.has key then o.map (·.1) else o.map (·.1) ++ [key] := by
  induction o with
  | nil => rfl
  | cons kv rest ih =>
    obtain ⟨k, w⟩ := kv
    by_cases hk : k = key
    · subst hk
      simp [set, has]
    · have hhas : has ((k, w) :: rest) key = has rest key := by
        rw [has, List.lookup_cons, beq_false_of_ne (Ne.symm hk)]
        rfl
      rw [hhas, set, if_neg hk, List.map_cons, ih, List.map_cons]
      split <;> rfl

theorem nodup_set {o : Obj} (h : (o.map (·.1)).Nodup) (key : String) (v : Json) :
    ((o.set key v).map (·.1)).Nodup := by
  rw [keys_set]
  cases hhas : o.has key with
  | true => exact h
  | false =>
    have hnew : key ∉ o.map (·.1) := by
      intro hmem
      obtain ⟨⟨k, w⟩, hkv, rfl⟩ := List.mem_map.mp hmem
      rw [has, lookup_of_mem h hkv] at hhas
      cases hhas
    rw [if_neg (by simp), List.nodup_append]
    refine ⟨h, by simp, ?_⟩
    intro key' hkey' new hmem
    rw [List.mem_singleton.mp hmem]
    exact fun heq => hnew (heq ▸ hkey')

end Obj
end Opnsense
