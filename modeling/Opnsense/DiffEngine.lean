import Mathlib.Data.Finset.Image
import Mathlib.Data.List.DropRight
import Opnsense.Json

namespace Opnsense

/-- `checkpw desired hash`: the bcrypt library is installed, checks the password
without an error and accepts it. -/
structure DiffEngine where
  checkpw : String → String → Bool

/-- The case folding of `re.IGNORECASE` on the letters of the pattern. -/
def foldCase (c : Char) : Char :=
  if 0x41 ≤ c.toNat ∧ c.toNat ≤ 0x5a then Char.ofNat (c.toNat + 0x20)
  else if c.toNat = 0x130 ∨ c.toNat = 0x131 then 'i'
  else if c.toNat = 0x17f then 's'
  else if c.toNat = 0x212a then 'k'
  else c

def writeOnlyWords : List String :=
  ["password", "passwd", "secret", "psk", "apikey", "api_key"]

/-- `($|_)`: the end, a final newline, or an underscore. -/
def atWordEnd : List Char → Bool
  | [] => true
  | [c] => c.toNat == 0x0a || c == '_'
  | c :: _ => c == '_'

/-- One of the words starts here and ends at a word end. -/
def wordAt (cs : List Char) : Bool :=
  writeOnlyWords.any fun w =>
    w.toList.isPrefixOf (cs.map foldCase) && atWordEnd (cs.drop w.length)

/-- `(^|_)` before the word: scan on from every underscore. -/
def wordAfterUnderscore : List Char → Bool
  | [] => false
  | c :: cs => (c == '_' && wordAt cs) || wordAfterUnderscore cs

/-- `_WRITE_ONLY_KEY_RE.search(key)` -/
def isWriteOnlyKey (key : String) : Bool :=
  wordAt key.toList || wordAfterUnderscore key.toList

example : ["password", "bind_Password", "api_key", "keyboard", "passwords"].map isWriteOnlyKey =
    [true, true, true, false, false] := by decide

/-- `str.isspace` on one character. -/
def isSpace (c : Char) : Bool :=
  let n := c.toNat
  (0x09 ≤ n && n ≤ 0x0d) || (0x1c ≤ n && n ≤ 0x20) || n == 0x85 || n == 0xa0 || n == 0x1680 ||
    (0x2000 ≤ n && n ≤ 0x200a) || n == 0x2028 || n == 0x2029 || n == 0x202f || n == 0x205f ||
    n == 0x3000

/-- `str.strip()` -/
def strip (cs : List Char) : List Char := (cs.dropWhile isSpace).rdropWhile isSpace

/-- `s.split(",")` -/
def splitComma (s : String) : List (List Char) := s.toList.splitOn ','

/-- The value of `selected` counts as chosen: `in (1, "1", True)`. -/
def isSelected : Json → Bool
  | .int n => n == 1
  | .float r => r == "1.0"
  | .str s => s == "1"
  | .bool b => b
  | _ => false

/-- The keys of an option dict whose `selected` is set, in the order of the options. -/
def selectedKeys (options : Obj) : List String :=
  options.filterMap fun kv =>
    match kv.2 with
    | .obj o => if isSelected (Obj.getD o "selected" .null) then some kv.1 else none
    | _ => none

namespace DiffEngine

/-- A read value as the text a write would carry: `{"selected": v}` is `v`, an option
dict is the CSV of its selected keys, a native bool is `"1"` or `"0"`. -/
def normalizeValue : Json → String
  | .obj fs =>
    match fs.lookup "selected" with
    | some v => pyStr v
    | none =>
      if !fs.isEmpty && fs.all (fun kv => kv.2.isDict) then ",".intercalate (selectedKeys fs)
      else pyStr (.obj fs)
  | .bool b => if b then "1" else "0"
  | v => pyStr v

/-- The non-empty, stripped tokens of a CSV text, as a set. -/
def csvSet (value : String) : Finset String :=
  (((splitComma value).map strip).filter (· ≠ [])).toFinset.image String.ofList

/-- The field is named like a write-only one and reads back empty, so there is
nothing to compare. -/
def writeOnlyBlank (key : String) (current desired : Json) : Bool :=
  match current with
  | .str "" => pyStr desired != "" && isWriteOnlyKey key
  | _ => false

/-- A multi-select option dict compares as a set of keys when a comma is involved. -/
def sameOptions (current : Json) (normalized desired : String) : Bool :=
  match current with
  | .obj fs =>
    !Obj.has fs "selected" && (normalized ++ desired).toList.contains ',' &&
      decide (csvSet normalized = csvSet desired)
  | _ => false

def bcryptPrefix : String := "$2y$"

def isHash (s : String) : Bool := bcryptPrefix.toList.isPrefixOf s.toList

/-- The current text is a hash of the desired one. -/
def hashMatches (e : DiffEngine) (normalized desired : String) : Bool :=
  isHash normalized && !isHash desired && e.checkpw desired normalized

/-- Comparison of one value that is not a pair of nested blocks. -/
def valueDrifts (e : DiffEngine) (current desired : Json) : Bool :=
  let normalized := normalizeValue current
  let desiredStr := pyStr desired
  if sameOptions current normalized desiredStr then false
  else normalized != desiredStr && !hashMatches e normalized desiredStr

mutual
/-- One round of the loop of `compute_diff`. A key the current state does not carry is
skipped, as is a blank write-only field; two nested blocks recurse. -/
def fieldDrifts (e : DiffEngine) (current : Obj) (key : String) : Json → Bool
  | .obj d =>
    match current.lookup key with
    | none => false
    | some cv =>
      if writeOnlyBlank key cv (.obj d) then false
      else
        match cv with
        | .obj c => !(diffFields e c d).isEmpty
        | cv => valueDrifts e cv (.obj d)
  | dv =>
    match current.lookup key with
    | none => false
    | some cv => if writeOnlyBlank key cv dv then false else valueDrifts e cv dv

/-- The fields of the desired state that differ, with the text wanted for them. -/
def diffFields (e : DiffEngine) (current : Obj) : List (String × Json) → List (String × String)
  | [] => []
  | (key, dv) :: rest =>
    if fieldDrifts e current key dv then (key, pyStr dv) :: diffFields e current rest
    else diffFields e current rest
end

/-- `compute_diff`: `none` when nothing is to be changed. -/
def computeDiff (e : DiffEngine) (current desired : Obj) : Option (List (String × String)) :=
  let diff := diffFields e current desired
  if diff.isEmpty then none else some diff

theorem diffFields_isEmpty_iff (e : DiffEngine) (current desired : Obj) :
    (diffFields e current desired).isEmpty = true ↔
      ∀ kv ∈ desired, fieldDrifts e current kv.1 kv.2 = false := by
  induction desired with
  | nil => simp [diffFields]
  | cons kv rest ih =>
    obtain ⟨key, dv⟩ := kv
    by_cases hd : fieldDrifts e current key dv = true
    · simp [diffFields, hd]
    · simp [diffFields, hd, ih]

/-- No diff means that no desired field drifts. -/
theorem computeDiff_eq_none_iff {e : DiffEngine} {current desired : Obj} :
    computeDiff e current desired = none ↔
      ∀ kv ∈ desired, fieldDrifts e current kv.1 kv.2 = false := by
  rw [← diffFields_isEmpty_iff, computeDiff]
  by_cases h : (diffFields e current desired).isEmpty = true <;> simp [h]

theorem fieldDrifts_of_missing (e : DiffEngine) {current : Obj} {key : String}
    (h : current.lookup key = none) (dv : Json) : fieldDrifts e current key dv = false := by
  cases dv <;> simp [fieldDrifts, h]

theorem fieldDrifts_of_blank (e : DiffEngine) {current : Obj} {key : String} {cv dv : Json}
    (h : current.lookup key = some cv) (hb : writeOnlyBlank key cv dv = true) :
    fieldDrifts e current key dv = false := by
  cases dv <;> simp [fieldDrifts, h, hb]

theorem fieldDrifts_of_blocks (e : DiffEngine) {current c d : Obj} {key : String}
    (h : current.lookup key = some (.obj c)) :
    fieldDrifts e current key (.obj d) = (computeDiff e c d).isSome := by
  have hb : writeOnlyBlank key (.obj c) (.obj d) = false := rfl
  simp only [fieldDrifts, h, hb, computeDiff, Bool.false_eq_true, ↓reduceIte]
  by_cases hd : (diffFields e c d).isEmpty = true <;> simp [hd]

theorem fieldDrifts_of_value (e : DiffEngine) {current : Obj} {key : String} {cv dv : Json}
    (h : current.lookup key = some cv) (hb : writeOnlyBlank key cv dv = false)
    (hn : cv.isDict = false ∨ dv.isDict = false) :
    fieldDrifts e current key dv = valueDrifts e cv dv := by
  cases dv with
  | obj d =>
    cases cv with
    | obj c => simp [Json.isDict] at hn
    | _ => simp [fieldDrifts, h, hb]
  | _ => simp [fieldDrifts, h, hb]

end DiffEngine
end Opnsense
