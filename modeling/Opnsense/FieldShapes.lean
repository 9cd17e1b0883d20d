import Opnsense.Rendering

namespace Opnsense
open DiffEngine

/-- The characters of a text can be looked at one by one. -/
theorem not_isSpace_of_all {text : String} (h : text.toList.all (fun c => !isSpace c) = true) :
    ∀ c ∈ text.toList, isSpace c = false := by
  intro c hc
  simpa using List.all_eq_true.mp h c hc

/-- A key of a multi-select: a text without commas and blanks, and no bcrypt hash. -/
structure Token where
  text : String
  text_ne : text ≠ ""
  comma_notMem : ',' ∉ text.toList
  isSpace_eq_false : ∀ c ∈ text.toList, isSpace c = false
  isHash_eq_false : isHash text = false
  deriving DecidableEq

namespace Token

theorem text_injective {k k' : Token} (h : k.text = k'.text) : k = k' := by
  cases k
  cases k'
  cases h
  rfl

/-- The tokens as the API writes them. -/
def csv (ks : List Token) : String := ",".intercalate (ks.map Token.text)

/-- The texts of the tokens, as a set. -/
def texts (ks : List Token) : Finset String := (ks.map Token.text).toFinset

variable (k : Token) (ks ks' : List Token)

/-- The text of an empty dict. -/
def emptyDict : Token where
  text := "\x7b\x7d"
  text_ne := by decide
  comma_notMem := by decide
  isSpace_eq_false := not_isSpace_of_all rfl
  isHash_eq_false := by decide

theorem mem_texts : k.text ∈ texts ks ↔ k ∈ ks := by
  simp only [texts, List.mem_toFinset, List.mem_map]
  constructor
  · rintro ⟨k', hk', htext⟩
    rwa [← text_injective htext]
  · exact fun hk => ⟨k, hk, rfl⟩

theorem texts_eq_iff : texts ks = texts ks' ↔ ∀ k, k ∈ ks ↔ k ∈ ks' := by
  constructor
  · intro h k
    rw [← mem_texts, h, mem_texts]
  · intro h
    ext x
    simp only [texts, List.mem_toFinset, List.mem_map, h]

theorem strip_text : strip k.text.toList = k.text.toList := by
  have hfirst : k.text.toList.dropWhile isSpace = k.text.toList := by
    rw [List.dropWhile_eq_self_iff]
    intro hpos
    simpa using k.isSpace_eq_false _ (List.getElem_mem hpos)
  have hlast : k.text.toList.rdropWhile isSpace = k.text.toList := by
    rw [List.rdropWhile_eq_self_iff]
    intro hne
    simpa using k.isSpace_eq_false _ (List.getLast_mem hne)
  rw [strip, hfirst, hlast]

theorem csvSet_text : csvSet k.text = {k.text} := by
  have hsplit : splitComma k.text = [k.text.toList] := List.splitOn_eq_singleton k.comma_notMem
  simp [csvSet, hsplit, strip_text, k.text_ne]

theorem csvSet_csv : csvSet (csv ks) = texts ks := by
  ext x
  simp only [csv, texts, mem_csvSet_join, List.mem_map, List.mem_toFinset]
  constructor
  · rintro ⟨_, ⟨k, hk, rfl⟩, hx⟩
    rw [csvSet_text, Finset.mem_singleton] at hx
    exact ⟨k, hk, hx.symm⟩
  · rintro ⟨k, hk, rfl⟩
    exact ⟨k.text, ⟨k, hk, rfl⟩, by rw [csvSet_text, Finset.mem_singleton]⟩

/-- A prefix without the separator ends before it. -/
theorem prefix_of_prefix_append {p cs ds : List Char} {c : Char} (h : p <+: cs ++ c :: ds)
    (hc : c ∉ p) : p <+: cs := by
  induction p generalizing cs with
  | nil => exact List.nil_prefix
  | cons d p ih =>
    rw [List.mem_cons, not_or] at hc
    cases cs with
    | nil =>
      rw [List.nil_append, List.cons_prefix_cons] at h
      exact absurd h.1.symm hc.1
    | cons e cs =>
      rw [List.cons_append, List.cons_prefix_cons] at h
      rw [List.cons_prefix_cons]
      exact ⟨h.1, ih h.2 hc.2⟩

theorem toList_csv_cons_cons (k k' : Token) (rest : List Token) :
    (csv (k :: k' :: rest)).toList = k.text.toList ++ ',' :: (csv (k' :: rest)).toList := by
  simp only [csv, List.map_cons, toList_join_cons_cons]

/-- A joined text is no hash, since its first token is none. -/
theorem isHash_csv : isHash (csv ks) = false := by
  rcases ks with _ | ⟨k, _ | ⟨k', rest⟩⟩
  · decide
  · exact k.isHash_eq_false
  · by_contra hhash
    have hprefix : bcryptPrefix.toList <+: k.text.toList ++ ',' ::
        (csv (k' :: rest)).toList := by
      rw [← toList_csv_cons_cons, ← List.isPrefixOf_iff_prefix]
      simpa [isHash] using hhash
    have hfirst : bcryptPrefix.toList <+: k.text.toList :=
      prefix_of_prefix_append hprefix (by decide)
    have hnot := k.isHash_eq_false
    rw [isHash, ← Bool.not_eq_true, List.isPrefixOf_iff_prefix] at hnot
    exact hnot hfirst

/-- Without a comma there is at most one token. -/
theorem length_le_one_of_comma (h : ',' ∉ (csv ks).toList) : ks.length ≤ 1 := by
  by_contra hlen
  exact h (comma_mem_join (by simp; omega))

/-- At most one token is told from at most one by its text. -/
theorem csv_eq_iff_of_short (h : ks.length ≤ 1) (h' : ks'.length ≤ 1) :
    csv ks = csv ks' ↔ texts ks = texts ks' := by
  rcases ks with _ | ⟨k, _ | ⟨_, _⟩⟩
  · rcases ks' with _ | ⟨k', _ | ⟨_, _⟩⟩
    · simp
    · have hne := k'.text_ne
      simpa [csv, texts] using hne.symm
    · simp at h'
  · rcases ks' with _ | ⟨k', _ | ⟨_, _⟩⟩
    · have hne := k.text_ne
      simpa [csv, texts] using hne
    · simp [csv, texts]
    · simp at h'
  · simp at h

theorem mem_csv {c : Char} (h : c ∈ (csv ks).toList) :
    c = ',' ∨ ∃ k ∈ ks, c ∈ k.text.toList := by
  induction ks with
  | nil => simp [csv] at h
  | cons k rest ih =>
    cases rest with
    | nil => exact Or.inr ⟨k, List.mem_cons_self .., by simpa [csv] using h⟩
    | cons k' rest =>
      rw [toList_csv_cons_cons, List.mem_append, List.mem_cons] at h
      rcases h with hc | hc | hc
      · exact Or.inr ⟨k, List.mem_cons_self .., hc⟩
      · exact Or.inl hc
      · rcases ih hc with hc | ⟨k, hk, hc⟩
        · exact Or.inl hc
        · exact Or.inr ⟨k, List.mem_cons_of_mem _ hk, hc⟩

theorem blank_notMem_csv : ' ' ∉ (csv ks).toList := by
  intro h
  rcases mem_csv ks h with hcomma | ⟨k, -, hk⟩
  · revert hcomma
    decide
  · have hspace := k.isSpace_eq_false ' ' hk
    revert hspace
    decide

end Token

theorem length_reprChar_pos (quote c : Char) : 0 < (reprChar quote c).length := by
  unfold reprChar
  repeat' split
  all_goals simp

theorem length_le_reprStr (s : String) : s.length + 2 ≤ (reprStr s).length := by
  have hchars : ∀ (quote : Char) (cs : List Char),
      cs.length ≤ (cs.flatMap (reprChar quote)).length := by
    intro quote cs
    induction cs with
    | nil => simp
    | cons c rest ih =>
      have hpos := length_reprChar_pos quote c
      simp only [List.flatMap_cons, List.length_append, List.length_cons]
      omega
  simp only [reprStr, String.length_ofList, List.length_append, List.length_singleton]
  have hlen := hchars (if singleQuote ∈ s.toList ∧ doubleQuote ∉ s.toList then doubleQuote
    else singleQuote) s.toList
  rw [String.length_toList] at hlen
  omega

theorem toList_pyStr_arr (xs : List Json) : (pyStr (.arr xs)).toList =
    '[' :: (List.intercalate ", ".toList ((pyReprItems xs).map String.toList) ++ [']']) := by
  simp [pyStr, pyRepr, String.toList_append, String.toList_intercalate]

/-- Two items are separated by a comma and a blank. -/
theorem blank_mem_pyStr_arr (v w : Json) (rest : List Json) :
    ' ' ∈ (pyStr (.arr (v :: w :: rest))).toList := by
  rw [toList_pyStr_arr]
  simp [pyReprItems, List.intercalate]

theorem isHash_pyStr_arr (xs : List Json) : isHash (pyStr (.arr xs)) = false := by
  rw [isHash, toList_pyStr_arr]
  rfl

/-- The tokens a list means are not those its text would be read as. -/
theorem csv_ne_of_texts_eq {ks xs : List Token} (hnodup : ks.Nodup)
    (h : Token.texts ks = Token.texts xs) :
    pyStr (.arr (xs.map fun k => .str k.text)) ≠ Token.csv ks := by
  intro hcsv
  rcases xs with _ | ⟨x, _ | ⟨y, rest⟩⟩
  · have hnone : ks = [] := by simpa [Token.texts] using h
    rw [hnone] at hcsv
    revert hcsv
    decide
  · have hone : ks = [x] := by
      have hperm : ks.Perm [x] := (List.perm_ext_iff_of_nodup hnodup (List.nodup_singleton x)).mpr
        ((Token.texts_eq_iff ks [x]).mp h)
      exact hperm.eq_singleton
    -- the text of the list has the brackets and the quotes besides
    have hlength : (pyStr (.arr [.str x.text])).toList.length = x.text.toList.length := by
      have hself : pyStr (.arr [.str x.text]) = x.text := by simpa [hone, Token.csv] using hcsv
      rw [hself]
    have hrepr := length_le_reprStr x.text
    rw [toList_pyStr_arr] at hlength
    simp only [pyReprItems, pyRepr, List.map_cons, List.map_nil, List.length_cons,
      List.length_append, String.length_toList, List.length_nil] at hlength
    have hone' : (List.intercalate ", ".toList [(reprStr x.text).toList]).length =
        (reprStr x.text).length := by
      rw [← String.length_toList]
      simp [List.intercalate]
    omega
  · have hblank := blank_mem_pyStr_arr (.str x.text) (.str y.text)
      (rest.map fun k => .str k.text)
    simp only [List.map_cons] at hcsv
    rw [hcsv] at hblank
    exact Token.blank_notMem_csv ks hblank

/-- An option of a multi-select with its key, its label and what stands under `selected`; the keys
of those that are selected are tokens. -/
inductive ShownOption where
  | chosen (key : Token) (label mark : Json) (hmark : isSelected mark = true)
  | other (key : String) (label mark : Json) (hmark : isSelected mark = false)

namespace ShownOption

def shown : ShownOption → String × Json × Json
  | chosen key label mark _ => (key.text, label, mark)
  | other key label mark _ => (key, label, mark)

def token : ShownOption → Option Token
  | chosen key _ _ _ => some key
  | other .. => none

end ShownOption

/-- An option dict. -/
structure OptionDict where
  options : List ShownOption

namespace OptionDict

variable (d : OptionDict)

def selected : List Token := d.options.filterMap ShownOption.token

/-- It is the multi-select that the two renderings of a resource show. -/
def multiSelect : MultiSelect where
  options := d.options.map ShownOption.shown

def fields : Obj := d.multiSelect.fields

theorem csv_multiSelect : d.multiSelect.csv = Token.csv d.selected := by
  have hselected : d.multiSelect.selected = d.selected.map Token.text := by
    simp only [MultiSelect.selected, multiSelect, selected]
    induction d.options with
    | nil => rfl
    | cons o rest ih =>
      cases o with
      | chosen key label mark hmark => simpa [ShownOption.shown, ShownOption.token, hmark] using ih
      | other key label mark hmark =>
        rw [List.filterMap_cons_none rfl]
        simpa [ShownOption.shown, hmark] using ih
  rw [MultiSelect.csv, hselected, Token.csv]

end OptionDict

/-- A multi-select as the API shows it: with its options, or as the list of what is selected. -/
inductive ChoiceShape where
  | options (d : OptionDict) (hkeys : d.fields.lookup "selected" = none)
  | list (ks : List Token)

/-- A single value as the API shows it; no bcrypt hash. -/
inductive ValueShape where
  | text (v : String) (hplain : isHash v = false)
  | flag (b : Bool)
  | choice (v : String) (hplain : isHash v = false)

/-- A field shown in some shape, and the text that declares it. -/
inductive Comparison where
  | choices (shape : ChoiceShape) (declared : List Token) (nodup : declared.Nodup)
  | value (shape : ValueShape) (declared : String)

namespace Comparison

def shown : Comparison → Json
  | choices (.options d _) _ _ => .obj d.fields
  | choices (.list ks) _ _ => .arr (ks.map fun k => .str k.text)
  | value (.text v _) _ => .str v
  | value (.flag b) _ => .bool b
  | value (.choice v _) _ => .obj [("selected", .str v)]

def declared : Comparison → String
  | choices _ ks _ => Token.csv ks
  | value _ d => d

/-- The declared tokens are those selected, the declared value is the shown one. -/
def SameMeaning : Comparison → Prop
  | choices (.options d _) ks _ => Token.texts ks = Token.texts d.selected
  | choices (.list xs) ks _ => Token.texts ks = Token.texts xs
  | value (.text v _) d => d = v
  | value (.flag b) d => d = if b then "1" else "0"
  | value (.choice v _) d => d = v

/-- The shapes the diff takes for a text of their own: a dict without options and a list. -/
def Misread : Comparison → Prop
  | choices (.options d _) ks _ => d.options = [] ∧ (ks = [] ∨ Token.texts ks = {"\x7b\x7d"})
  | choices (.list xs) ks _ =>
    Token.texts ks = Token.texts xs ∨ Token.csv ks = pyStr (.arr (xs.map fun k => .str k.text))
  | value _ _ => False

variable {e : DiffEngine} {key : String}

theorem computeDiff_eq_none_iff_agrees (hkey : isWriteOnlyKey key = false) (shown : Json)
    (d : String) : computeDiff e [(key, shown)] [(key, .str d)] = none ↔
      Agrees e shown (.str d) := by
  have hlookup : List.lookup key [(key, shown)] = some shown := by simp
  have hblank : writeOnlyBlank key shown (.str d) = false := by
    unfold writeOnlyBlank
    split
    · rw [hkey, Bool.and_false]
    · rfl
  rw [computeDiff_eq_none_iff, ← valueDrifts_eq_false_iff]
  simp only [List.mem_singleton, forall_eq]
  rw [fieldDrifts_of_value e hlookup hblank (Or.inr rfl)]

theorem agrees_csv_iff {shown : Json} {xs ks : List Token}
    (hnormal : normalizeValue shown = Token.csv xs)
    (hsame : sameOptions shown (Token.csv xs) (Token.csv ks) = true ↔
      ',' ∈ (Token.csv xs ++ Token.csv ks).toList ∧
        csvSet (Token.csv xs) = csvSet (Token.csv ks)) :
    Agrees e shown (.str (Token.csv ks)) ↔ Token.texts ks = Token.texts xs := by
  simp only [Agrees, hnormal, pyStr_str, hsame, hashMatches, Token.isHash_csv, Bool.false_and,
    Bool.false_eq_true, or_false, Token.csvSet_csv]
  constructor
  · rintro (heq | ⟨-, hset⟩)
    · rw [← Token.csvSet_csv, ← heq, Token.csvSet_csv]
    · exact hset.symm
  · intro hset
    by_cases hcomma : ',' ∈ (Token.csv xs ++ Token.csv ks).toList
    · exact Or.inr ⟨hcomma, hset.symm⟩
    · -- without a comma there is at most one key on either side
      rw [String.toList_append, List.mem_append, not_or] at hcomma
      left
      rw [Token.csv_eq_iff_of_short xs ks (Token.length_le_one_of_comma xs hcomma.1)
        (Token.length_le_one_of_comma ks hcomma.2), hset]

/-- An option dict is read as its selected keys. -/
theorem agrees_options_iff (d : OptionDict) (hplain : ¬ d.multiSelect.Odd) (ks : List Token) :
    Agrees e (.obj d.fields) (.str (Token.csv ks)) ↔
      Token.texts ks = Token.texts d.selected := by
  have htext : d.multiSelect.itemText = Token.csv d.selected := by
    rw [d.multiSelect.itemText_of_not_odd hplain, d.csv_multiSelect]
  apply agrees_csv_iff
  · rw [← htext]
    exact d.multiSelect.normalizeValue_fields
  · rw [← htext]
    refine (d.multiSelect.sameOptions_fields _).trans ?_
    rw [MultiSelect.SameKeys, and_iff_right (not_not.mp (not_or.mp hplain).2)]

/-- Without options it is read as its Python text, which could be a token. -/
theorem agrees_noOptions_iff (ks : List Token) :
    Agrees e (.obj []) (.str (Token.csv ks)) ↔ Token.texts ks = {"\x7b\x7d"} := by
  have htexts : Token.texts [Token.emptyDict] = {"\x7b\x7d"} := rfl
  have hcsv : Token.csv [Token.emptyDict] = "\x7b\x7d" := rfl
  rw [← htexts]
  apply agrees_csv_iff
  · rw [hcsv]
    rfl
  · simp [sameOptions, Obj.has]

/-- So is a list. -/
theorem agrees_list_iff (xs : List Json) (d : String) :
    Agrees e (.arr xs) (.str d) ↔ d = pyStr (.arr xs) := by
  have hsame : sameOptions (.arr xs) (normalizeValue (.arr xs)) d = false := rfl
  have hplain : isHash (normalizeValue (.arr xs)) = false := isHash_pyStr_arr xs
  simp only [Agrees, pyStr_str, hsame, hashMatches, hplain, Bool.false_and, Bool.false_eq_true,
    or_false]
  exact eq_comm

theorem agrees_value_iff {shown : Json} {v d : String} (hnormal : normalizeValue shown = v)
    (hplain : isHash v = false) (hsame : sameOptions shown v d = false) :
    Agrees e shown (.str d) ↔ d = v := by
  simp only [Agrees, hnormal, pyStr_str, hsame, hashMatches, hplain, Bool.false_and,
    Bool.false_eq_true, or_false]
  exact eq_comm

end Comparison
end Opnsense
