import Opnsense.FieldShapes
import Opnsense.SettingsConvergence
import Opnsense.SettingsManagers

namespace Opnsense
open Interaction DiffEngine

namespace Token

variable {ks ks' : List Token}

/-- The tokens can be read off their text again. -/
theorem csv_injective (h : csv ks = csv ks') : ks = ks' := by
  have hread : ∀ ks : List Token,
      (splitComma (csv ks)).filter (fun cs => !cs.isEmpty) = ks.map fun k => k.text.toList := by
    intro ks
    cases ks with
    | nil => rfl
    | cons k rest =>
      have hnone : ∀ cs ∈ (k :: rest).map fun k => k.text.toList, ',' ∉ cs := by
        intro cs hcs
        obtain ⟨k', -, rfl⟩ := List.mem_map.mp hcs
        exact k'.comma_notMem
      have hsplit : splitComma (csv (k :: rest)) = (k :: rest).map fun k => k.text.toList := by
        rw [splitComma, csv, String.toList_intercalate, List.map_map]
        exact List.splitOn_intercalate ',' hnone (by simp)
      rw [hsplit, List.filter_eq_self]
      intro cs hcs
      obtain ⟨k', -, rfl⟩ := List.mem_map.mp hcs
      simpa using k'.text_ne
  have hmap : (ks.map fun k => k.text.toList) = ks'.map fun k => k.text.toList := by
    rw [← hread ks, ← hread ks', h]
  refine List.map_injective_iff.mpr (fun k k' hk => ?_) hmap
  exact text_injective (String.toList_inj.mp hk)

/-- An order does not change what is selected. -/
theorem texts_perm (h : ks.Perm ks') : texts ks = texts ks' :=
  (texts_eq_iff ks ks').mpr fun _ => h.mem_iff

theorem length_csv (ks : List Token) :
    (csv ks).length = (ks.map fun k => k.text.length + 1).sum - 1 := by
  induction ks with
  | nil => rfl
  | cons k rest ih =>
    cases rest with
    | nil => simp [csv]
    | cons k' rest =>
      rw [← String.length_toList, toList_csv_cons_cons, List.length_append, List.length_cons,
        String.length_toList, String.length_toList, ih]
      simp only [List.map_cons, List.sum_cons]
      omega

/-- Nor how long its text is. -/
theorem length_csv_perm (h : ks.Perm ks') : (csv ks).length = (csv ks').length := by
  rw [length_csv, length_csv, (h.map _).sum_eq]

/-- Slot ids as a list, and as the text it is brought into. -/
def asList (ks : List Token) : Json := .arr (ks.map fun k => .str k.text)

def asCsv (ks : List Token) : Json := .str (csv ks)

theorem normalizeMultiSelect_asList (ks : List Token) :
    normalizeMultiSelect (asList ks) = csv ks := by
  have htexts : (ks.map fun k => Json.str k.text).map pyStr = ks.map text := by
    rw [List.map_map]
    rfl
  rw [asList, normalizeMultiSelect, htexts, csv]

theorem asCsv_injective (h : asCsv ks = asCsv ks') : ks = ks' := by
  rw [asCsv, asCsv, Json.str.injEq] at h
  exact csv_injective h

end Token

section Normal

variable {block : Option String} {fields : List String} {o : Obj} {key : String}

/-- `prepare` of all these managers: the multi-selects of the parameters, or of a block of them. -/
def normalizeIn : Option String → List String → Obj → Obj
  | none, fields, params => normalizeFields fields params
  | some block, fields, params =>
    match params.getD block .null with
    | .obj inner => params.set block (.obj (normalizeFields fields inner))
    | _ => params

/-- What becomes of the value of one key. -/
def normalAt : Option String → List String → String → Json → Json
  | none, fields, key, v => if key ∈ fields then .str (normalizeMultiSelect v) else v
  | some block, fields, key, v =>
    match v with
    | .obj inner => if key = block then .obj (normalizeFields fields inner) else v
    | v => v

theorem keys_normalizeField (o : Obj) (field : String) :
    (normalizeField o field).map (·.1) = o.map (·.1) := by
  unfold normalizeField
  split
  · rename_i hhas
    rw [Obj.keys_set, if_pos hhas]
  · rfl

theorem lookup_normalizeField (o : Obj) (field key : String) :
    (normalizeField o field).lookup key = (o.lookup key).map (normalAt none [field] key) := by
  unfold normalizeField
  by_cases hkey : key = field
  · subst hkey
    rcases hlookup : o.lookup key with _ | v
    · have hhas : o.has key = false := Obj.has_eq_false_iff.mpr hlookup
      simp [hhas, hlookup]
    · have hhas : o.has key = true := Obj.has_iff.mpr ⟨v, hlookup⟩
      simp [hhas, Obj.getD_of_lookup hlookup, normalAt]
  · have hsame : normalAt none [field] key = id := by
      funext v
      simp [normalAt, hkey]
    rw [hsame, Option.map_id, id_eq]
    split
    · rw [Obj.lookup_set_of_ne _ hkey]
    · rfl

theorem keys_normalizeFields (fields : List String) (o : Obj) :
    (normalizeFields fields o).map (·.1) = o.map (·.1) := by
  unfold normalizeFields
  induction fields generalizing o with
  | nil => rfl
  | cons field rest ih => rw [List.foldl_cons, ih, keys_normalizeField]

theorem lookup_normalizeFields (fields : List String) (o : Obj) (key : String) :
    (normalizeFields fields o).lookup key = (o.lookup key).map (normalAt none fields key) := by
  unfold normalizeFields
  induction fields generalizing o with
  | nil =>
    have hsame : normalAt none [] key = id := by
      funext v
      simp [normalAt]
    rw [List.foldl_nil, hsame, Option.map_id, id_eq]
  | cons field rest ih =>
    -- a text stays as it is when it is brought into shape once more
    have htwice : normalAt none rest key ∘ normalAt none [field] key =
        normalAt none (field :: rest) key := by
      funext v
      by_cases hkey : key = field
      · by_cases hrest : key ∈ rest <;> simp [normalAt, hkey, normalizeMultiSelect]
      · simp [normalAt, hkey]
    rw [List.foldl_cons, ih, lookup_normalizeField, Option.map_map, htwice]

theorem normalizeIn_of_block {block : String} {inner : Obj}
    (h : o.lookup block = some (.obj inner)) (fields : List String) :
    normalizeIn (some block) fields o = o.set block (.obj (normalizeFields fields inner)) := by
  simp only [normalizeIn, Obj.getD_of_lookup h]

theorem normalizeIn_of_flat {block : String} (h : ∀ inner, o.lookup block ≠ some (.obj inner))
    (fields : List String) : normalizeIn (some block) fields o = o := by
  simp only [normalizeIn, Obj.getD]
  rcases hlookup : o.lookup block with _ | v
  · rfl
  · cases v with
    | obj inner => exact absurd hlookup (h inner)
    | _ => rfl

theorem keys_normalizeIn (block : Option String) (fields : List String) (o : Obj) :
    (normalizeIn block fields o).map (·.1) = o.map (·.1) := by
  cases block with
  | none => exact keys_normalizeFields fields o
  | some block =>
    by_cases hblock : ∃ inner, o.lookup block = some (.obj inner)
    · obtain ⟨inner, hinner⟩ := hblock
      rw [normalizeIn_of_block hinner, Obj.keys_set, if_pos (Obj.has_iff.mpr ⟨_, hinner⟩)]
    · rw [normalizeIn_of_flat (not_exists.mp hblock)]

theorem lookup_normalizeIn (block : Option String) (fields : List String) (o : Obj)
    (key : String) :
    (normalizeIn block fields o).lookup key = (o.lookup key).map (normalAt block fields key) := by
  cases block with
  | none => exact lookup_normalizeFields fields o key
  | some block =>
    by_cases hblock : ∃ inner, o.lookup block = some (.obj inner)
    · obtain ⟨inner, hinner⟩ := hblock
      rw [normalizeIn_of_block hinner]
      by_cases hkey : key = block
      · subst hkey
        simp [hinner, normalAt]
      · have hsame : normalAt (some block) fields key = id := by
          funext v
          cases v <;> simp [normalAt, hkey]
        rw [Obj.lookup_set_of_ne _ hkey, hsame, Option.map_id, id_eq]
    · rw [normalizeIn_of_flat (not_exists.mp hblock)]
      rcases hlookup : o.lookup key with _ | v
      · rfl
      · cases v with
        | obj inner =>
          have hkey : key ≠ block := fun heq => hblock ⟨inner, heq ▸ hlookup⟩
          simp [normalAt, hkey]
        | _ => rfl

end Normal

/-- Two blocks with the same keys, each named once, and values related key by key. -/
structure AlikeIn (R : String → Json → Json → Prop) (o o' : Obj) : Prop where
  nodup : (o.map (·.1)).Nodup
  nodup' : (o'.map (·.1)).Nodup
  keys : ∀ key, o.lookup key = none ↔ o'.lookup key = none
  values : ∀ key v v', o.lookup key = some v → o'.lookup key = some v' → R key v v'

/-- The same slot ids, written in two orders. -/
def SameSlots (write : List Token → Json) (v v' : Json) : Prop :=
  ∃ ks ks', ks.Perm ks' ∧ v = write ks ∧ v' = write ks'

/-- Multi-selects in two orders; a field that is none is the same text, or block of texts. -/
def InTwoOrders (write : List Token → Json) (fields : List String) (key : String)
    (v v' : Json) : Prop :=
  (key ∈ fields ∧ SameSlots write v v') ∨ (key ∉ fields ∧ v' = v ∧ IsText v)

/-- Parameters that differ in the order of their slot ids alone. -/
def SameButOrder (write : List Token → Json) : Option String → List String → Obj → Obj → Prop
  | none, fields, params, params' => AlikeIn (InTwoOrders write fields) params params'
  | some block, fields, params, params' =>
    AlikeIn (fun key v v' =>
      (key = block ∧ ∃ inner inner', v = .obj inner ∧ v' = .obj inner' ∧
        AlikeIn (InTwoOrders write fields) inner inner') ∨
      (key ≠ block ∧ v' = v ∧ IsText v)) params params'

/-- Where the multi-selects are. -/
def slotPaths (block : Option String) (fields : List String) : List (List String) :=
  fields.map fun field => block.toList ++ [field]

/-- What two such parameters have under a path: nothing, a multi-select in two orders, the same
value, or the blocks the multi-selects are in. -/
inductive SameAt (write : List Token → Json) (multi above : Prop) :
    Option Json → Option Json → Prop
  | missing : SameAt write multi above none none
  | slots (ks ks' : List Token) (hmulti : multi) (hperm : ks.Perm ks') :
    SameAt write multi above (some (write ks)) (some (write ks'))
  | same (v : Json) (hmulti : ¬ multi) (htext : IsText v) :
    SameAt write multi above (some v) (some v)
  | block (fields fields' : Obj) (habove : above) :
    SameAt write multi above (some (.obj fields)) (some (.obj fields'))

section Orders

variable {write : List Token → Json} {R R' : String → Json → Json → Prop}
  {block : Option String} {fields : List String} {o o' : Obj} {key : String} {path : List String}

theorem AlikeIn.map {f : Obj → Obj} {g : String → Json → Json}
    (hkeys : ∀ o, (f o).map (·.1) = o.map (·.1))
    (hvalues : ∀ o key, (f o).lookup key = (o.lookup key).map (g key))
    (hrelated : ∀ key v v', R key v v' → R' key (g key v) (g key v')) (h : AlikeIn R o o') :
    AlikeIn R' (f o) (f o') where
  nodup := by
    rw [hkeys]
    exact h.nodup
  nodup' := by
    rw [hkeys]
    exact h.nodup'
  keys key := by rw [hvalues, hvalues, Option.map_eq_none_iff, Option.map_eq_none_iff, h.keys]
  values key v v' hv hv' := by
    rw [hvalues, Option.map_eq_some_iff] at hv hv'
    obtain ⟨w, hw, rfl⟩ := hv
    obtain ⟨w', hw', rfl⟩ := hv'
    exact hrelated key w w' (h.values key w w' hw hw')

/-- Lists are brought into texts, in their order. -/
theorem InTwoOrders.normal {v v' : Json} (h : InTwoOrders Token.asList fields key v v') :
    InTwoOrders Token.asCsv fields key (normalAt none fields key v)
      (normalAt none fields key v') := by
  rcases h with ⟨hkey, ks, ks', hperm, rfl, rfl⟩ | ⟨hkey, rfl, htext⟩
  · refine Or.inl ⟨hkey, ks, ks', hperm, ?_, ?_⟩
    · simp only [normalAt, if_pos hkey, Token.normalizeMultiSelect_asList, Token.asCsv]
    · simp only [normalAt, if_pos hkey, Token.normalizeMultiSelect_asList, Token.asCsv]
  · simp only [normalAt, if_neg hkey]
    exact Or.inr ⟨hkey, rfl, htext⟩

theorem AlikeIn.normal (h : AlikeIn (InTwoOrders Token.asList fields) o o') :
    AlikeIn (InTwoOrders Token.asCsv fields) (normalizeFields fields o)
      (normalizeFields fields o') :=
  h.map (keys_normalizeFields fields) (lookup_normalizeFields fields) fun _ _ _ => .normal

theorem SameButOrder.normal (h : SameButOrder Token.asList block fields o o') :
    SameButOrder Token.asCsv block fields (normalizeIn block fields o)
      (normalizeIn block fields o') := by
  cases block with
  | none => exact AlikeIn.normal h
  | some block =>
    refine AlikeIn.map (keys_normalizeIn _ fields) (lookup_normalizeIn _ fields) ?_ h
    rintro key v v' (⟨rfl, inner, inner', rfl, rfl, hinner⟩ | ⟨hkey, rfl, htext⟩)
    · have hblock : ∀ inner, normalAt (some key) fields key (.obj inner) =
          .obj (normalizeFields fields inner) := fun inner => if_pos rfl
      rw [hblock, hblock]
      exact Or.inl ⟨rfl, _, _, rfl, rfl, hinner.normal⟩
    · have hsame : normalAt (some block) fields key v' = v' := by
        cases v' <;> simp [normalAt, hkey]
      rw [hsame]
      exact Or.inr ⟨hkey, rfl, htext⟩

theorem isText_obj (hnodup : (o.map (·.1)).Nodup)
    (h : ∀ key v, o.lookup key = some v → IsText v) : IsText (.obj o) := by
  have hall : ∀ fields : List (String × Json), (∀ kv ∈ fields, IsText kv.2) → AllText fields := by
    intro fields hfields
    induction fields with
    | nil => trivial
    | cons kv rest ih =>
      have hrest := ih fun kv hkv => hfields kv (List.mem_cons_of_mem _ hkv)
      exact ⟨hfields kv List.mem_cons_self, hrest⟩
  exact ⟨hnodup, hall o fun kv hkv => h kv.1 kv.2 (Obj.lookup_of_mem hnodup hkv)⟩

/-- Blocks whose related values are texts are texts. -/
theorem AlikeIn.isText (h : AlikeIn R o o')
    (htext : ∀ key v v', R key v v' → IsText v ∧ IsText v') :
    IsText (.obj o) ∧ IsText (.obj o') := by
  constructor
  · refine isText_obj h.nodup fun key v hv => ?_
    obtain ⟨v', hv'⟩ := exists_of_missing_iff (h.keys key) hv
    exact (htext key v v' (h.values key v v' hv hv')).1
  · refine isText_obj h.nodup' fun key v' hv' => ?_
    obtain ⟨v, hv⟩ := exists_of_missing_iff (h.keys key).symm hv'
    exact (htext key v v' (h.values key v v' hv hv')).2

theorem InTwoOrders.isText {v v' : Json} (h : InTwoOrders Token.asCsv fields key v v') :
    IsText v ∧ IsText v' := by
  rcases h with ⟨-, ks, ks', -, rfl, rfl⟩ | ⟨-, rfl, htext⟩
  · exact ⟨trivial, trivial⟩
  · exact ⟨htext, htext⟩

theorem SameButOrder.isText (h : SameButOrder Token.asCsv block fields o o') :
    IsText (.obj o) ∧ IsText (.obj o') := by
  cases block with
  | none => exact AlikeIn.isText h fun _ _ _ => InTwoOrders.isText
  | some block =>
    refine AlikeIn.isText h ?_
    rintro key v v' (⟨-, inner, inner', rfl, rfl, hinner⟩ | ⟨-, rfl, htext⟩)
    · exact hinner.isText fun _ _ _ => InTwoOrders.isText
    · exact ⟨htext, htext⟩

theorem mem_slotPaths_none : key :: path ∈ slotPaths none fields ↔ path = [] ∧ key ∈ fields := by
  simp [slotPaths, eq_comm, and_comm]

theorem mem_slotPaths_some {block : String} :
    key :: path ∈ slotPaths (some block) fields ↔ key = block ∧ path ∈ slotPaths none fields := by
  simp only [slotPaths, Option.toList_some, Option.toList_none, List.nil_append,
    List.singleton_append, List.mem_map, List.cons.injEq]
  constructor
  · rintro ⟨field, hfield, hkey, hpath⟩
    exact ⟨hkey.symm, field, hfield, hpath⟩
  · rintro ⟨hkey, field, hfield, hpath⟩
    exact ⟨field, hfield, hkey.symm, hpath⟩

theorem nil_notMem_slotPaths : [] ∉ slotPaths block fields := by
  simp [slotPaths]

/-- A multi-select is below the block. -/
theorem not_above_of_mem (h : path ∈ slotPaths block fields) : ¬ path <+: block.toList := by
  intro habove
  obtain ⟨field, -, rfl⟩ := List.mem_map.mp h
  have hlength := habove.length_le
  simp at hlength

/-- The same value stands below the same value. -/
theorem sameAt_of_same {multi above : Prop} (hmulti : ¬ multi) {v : Json} (htext : IsText v) :
    SameAt write multi above (valueAt path v) (valueAt path v) := by
  rcases hvalue : valueAt path v with _ | w
  · exact .missing
  · exact .same w hmulti (isText_valueAt htext hvalue)

theorem AlikeIn.sameAt (hflat : ∀ ks, (write ks).isDict = false)
    (h : AlikeIn (InTwoOrders write fields) o o') (path : List String) :
    SameAt write (path ∈ slotPaths none fields) (path = []) (valueAt path (.obj o))
      (valueAt path (.obj o')) := by
  cases path with
  | nil => exact .block o o' rfl
  | cons key path =>
    rw [valueAt_cons_obj, valueAt_cons_obj, mem_slotPaths_none]
    rcases hv : o.lookup key with _ | v
    · rw [(h.keys key).mp hv]
      exact .missing
    · obtain ⟨v', hv'⟩ := exists_of_missing_iff (h.keys key) hv
      rw [hv', Option.bind_some, Option.bind_some]
      rcases h.values key v v' hv hv' with ⟨hkey, ks, ks', hperm, rfl, rfl⟩ | ⟨hkey, rfl, htext⟩
      · -- nothing stands below slot ids, whether they are a list or a text
        cases path with
        | nil =>
          rw [valueAt_nil, valueAt_nil]
          exact .slots ks ks' ⟨rfl, hkey⟩ hperm
        | cons key' path =>
          rw [valueAt_cons_of_flat (hflat ks), valueAt_cons_of_flat (hflat ks')]
          exact .missing
      · exact sameAt_of_same (fun hmulti => hkey hmulti.2) htext

theorem SameButOrder.sameAt (hflat : ∀ ks, (write ks).isDict = false)
    (h : SameButOrder write block fields o o') (path : List String) :
    SameAt write (path ∈ slotPaths block fields) (path <+: block.toList) (valueAt path (.obj o))
      (valueAt path (.obj o')) := by
  cases block with
  | none => simpa using AlikeIn.sameAt hflat h path
  | some block =>
    cases path with
    | nil => exact .block o o' List.nil_prefix
    | cons key path =>
      rw [valueAt_cons_obj, valueAt_cons_obj, mem_slotPaths_some]
      rcases hv : o.lookup key with _ | v
      · rw [(AlikeIn.keys h key).mp hv]
        exact .missing
      · obtain ⟨v', hv'⟩ := exists_of_missing_iff (AlikeIn.keys h key) hv
        rw [hv', Option.bind_some, Option.bind_some]
        rcases AlikeIn.values h key v v' hv hv' with
          ⟨rfl, inner, inner', rfl, rfl, hinner⟩ | ⟨hkey, rfl, htext⟩
        · simpa only [true_and, Option.toList_some, List.cons_prefix_cons, List.prefix_nil] using
            hinner.sameAt hflat path
        · exact sameAt_of_same (fun hmulti => hkey hmulti.1) htext

/-- A multi-select is brought into shape where it is. -/
theorem valueAt_normalizeIn (o : Obj) (h : path ∈ slotPaths block fields) :
    valueAt path (.obj (normalizeIn block fields o)) =
      (valueAt path (.obj o)).map fun v => .str (normalizeMultiSelect v) := by
  have hfield : ∀ o : Obj, ∀ field ∈ fields, valueAt [field] (.obj (normalizeFields fields o)) =
      (valueAt [field] (.obj o)).map fun v => .str (normalizeMultiSelect v) := by
    intro o field hfield
    rw [valueAt_cons_obj, valueAt_cons_obj, lookup_normalizeFields]
    cases o.lookup field with
    | none => rfl
    | some v => simp [normalAt, hfield]
  cases block with
  | none =>
    obtain ⟨field, hmem, rfl⟩ := List.mem_map.mp h
    exact hfield o field hmem
  | some block =>
    obtain ⟨field, hmem, rfl⟩ := List.mem_map.mp h
    simp only [Option.toList_some, List.singleton_append]
    rw [valueAt_cons_obj, valueAt_cons_obj, lookup_normalizeIn]
    rcases o.lookup block with _ | v
    · rfl
    · cases v with
      | obj inner =>
        rw [Option.map_some, Option.bind_some, Option.bind_some, normalAt, if_pos rfl]
        exact hfield inner field hmem
      | _ => rfl

/-- A rule that looks at a multi-select's length alone. -/
def acceptsSlots : FieldSpec → Bool
  | .rule r => r.type == "str" && r.regex.isNone
  | .dict .. => false

/-- The rules of the multi-selects among those of a manager. -/
def acceptsSlotsIn : Option String → List String → List (String × FieldSpec) → Bool
  | none, fields, specs => specs.all fun fs => !fields.contains fs.1 || acceptsSlots fs.2
  | some block, fields, specs => specs.all fun fs => fs.1 != block ||
    match fs.2 with
    | .dict _ inner => inner.all fun fs => !fields.contains fs.1 || acceptsSlots fs.2
    | .rule _ => false

theorem validateField_slots {spec : FieldSpec} (hspec : acceptsSlots spec = true)
    {text text' : String} (hlength : text.length = text'.length)
    (hv : o.lookup key = some (.str text)) (hv' : o'.lookup key = some (.str text'))
    (h : validatorRegistry.validateField o key spec = .ok ()) :
    validatorRegistry.validateField o' key spec = .ok () := by
  cases spec with
  | dict required inner => cases hspec
  | rule r =>
    rw [acceptsSlots, Bool.and_eq_true, beq_iff_eq, Option.isNone_iff_eq_none] at hspec
    obtain ⟨htype, hregex⟩ := hspec
    by_cases hempty : text = ""
    · -- nothing is selected either way
      have hempty' : text' = "" := by
        rw [hempty, String.length_empty] at hlength
        exact String.length_eq_zero_iff.mp hlength.symm
      have hsame : o.lookup key = o'.lookup key := by rw [hv, hv', hempty, hempty']
      rwa [← ValidatorRegistry.validateField_congr hsame]
    · have hempty' : text' ≠ "" := by
        rintro rfl
        rw [String.length_empty] at hlength
        exact hempty (String.length_eq_zero_iff.mp hlength)
      have hstr : validatorRegistry.get r.type = some validateStr := by rw [htype]; rfl
      have hchecked : ∀ {o : Obj} {text : String}, text ≠ "" → o.lookup key = some (.str text) →
          (validatorRegistry.validateField o key (.rule r) = .ok () ↔
            text.length ≤ r.maxLength.getD 255) := by
        intro o text hne hlookup
        have hset : isUnset (.str text) = false := by simpa [isUnset] using hne
        simp only [ValidatorRegistry.validateField, Obj.getD_of_lookup hlookup, hset, hstr,
          validateStr, hregex, pyStr_str]
        by_cases hlong : text.length > r.maxLength.getD 255
        · have hnot : ¬ text.length ≤ r.maxLength.getD 255 := by omega
          simp [hlong, hnot, Except.mapError]
        · have hle : text.length ≤ r.maxLength.getD 255 := by omega
          simp [hlong, hle, Except.mapError]
      rw [hchecked hempty' hv', ← hlength]
      exact (hchecked hempty hv).mp h

/-- Related blocks are accepted alike when their related values are. -/
theorem AlikeIn.validateParams {specs : List (String × FieldSpec)} (h : AlikeIn R o o')
    (hfields : ∀ fs ∈ specs, ∀ v v', o.lookup fs.1 = some v → o'.lookup fs.1 = some v' →
      R fs.1 v v' → validatorRegistry.validateField o fs.1 fs.2 = .ok () →
      validatorRegistry.validateField o' fs.1 fs.2 = .ok ())
    (hok : validatorRegistry.validateParams o specs = .ok ()) :
    validatorRegistry.validateParams o' specs = .ok () := by
  rw [ValidatorRegistry.validateParams_eq_ok] at hok ⊢
  intro fs hfs
  rcases hv : o.lookup fs.1 with _ | v
  · have hsame : o.lookup fs.1 = o'.lookup fs.1 := hv.trans ((h.keys fs.1).mp hv).symm
    rw [← ValidatorRegistry.validateField_congr hsame]
    exact hok fs hfs
  · obtain ⟨v', hv'⟩ := exists_of_missing_iff (h.keys fs.1) hv
    exact hfields fs hfs v v' hv hv' (h.values fs.1 v v' hv hv') (hok fs hfs)

theorem validateParams_slots {specs : List (String × FieldSpec)}
    (hspecs : acceptsSlotsIn none fields specs = true)
    (h : AlikeIn (InTwoOrders Token.asCsv fields) o o')
    (hok : validatorRegistry.validateParams o specs = .ok ()) :
    validatorRegistry.validateParams o' specs = .ok () := by
  refine h.validateParams (fun fs hfs v v' hv hv' hvalues hfield => ?_) hok
  rcases hvalues with ⟨hmem, ks, ks', hperm, rfl, rfl⟩ | ⟨-, rfl, -⟩
  · have hspec : acceptsSlots fs.2 = true := by
      have hall := List.all_eq_true.mp hspecs fs hfs
      simpa [hmem] using hall
    exact validateField_slots hspec (Token.length_csv_perm hperm) hv hv' hfield
  · rwa [← ValidatorRegistry.validateField_congr (hv.trans hv'.symm)]

/-- What is accepted in one order is accepted in the other. -/
theorem SameButOrder.validateParams {specs : List (String × FieldSpec)}
    (hspecs : acceptsSlotsIn block fields specs = true)
    (h : SameButOrder Token.asCsv block fields o o')
    (hok : validatorRegistry.validateParams o specs = .ok ()) :
    validatorRegistry.validateParams o' specs = .ok () := by
  cases block with
  | none => exact validateParams_slots hspecs h hok
  | some block =>
    refine AlikeIn.validateParams h (fun fs hfs v v' hv hv' hvalues hfield => ?_) hok
    rcases hvalues with ⟨hkey, inner, inner', rfl, rfl, hinner⟩ | ⟨-, rfl, -⟩
    · -- the block is checked by rules of its own
      have hspec := List.all_eq_true.mp hspecs fs hfs
      obtain ⟨key, spec⟩ := fs
      obtain rfl : key = block := hkey
      cases spec with
      | rule r => simp at hspec
      | dict required specs =>
        simp only [ValidatorRegistry.validateField, Obj.getD_of_lookup hv,
          Obj.getD_of_lookup hv', isUnset] at hfield ⊢
        refine validateParams_slots ?_ hinner hfield
        simpa [acceptsSlotsIn] using hspec
    · rwa [← ValidatorRegistry.validateField_congr (hv.trans hv'.symm)]

end Orders

/-- The settings managers that call `normalize_multi_select`. -/
inductive MultiSelectClass where
  | ub | dnscryptProxyGeneral | kea4 | kea6 | ids | chronyGeneral | lldpdGeneral | mdnsRepeater
  | qemuGuestAgent | dnsmasq | netflow

namespace MultiSelectClass

def settings (diffEngine : DiffEngine) : MultiSelectClass → SettingsManager
  | ub => UbSettingsManager diffEngine
  | dnscryptProxyGeneral => DnscryptProxyGeneralManager diffEngine
  | kea4 => Kea4SettingsManager diffEngine
  | kea6 => Kea6SettingsManager diffEngine
  | ids => IdsSettingsManager diffEngine
  | chronyGeneral => ChronyGeneralManager diffEngine
  | lldpdGeneral => LldpdGeneralManager diffEngine
  | mdnsRepeater => MdnsRepeaterSettingsManager diffEngine
  | qemuGuestAgent => QemuGuestAgentSettingsManager diffEngine
  | dnsmasq => DnsmasqSettingsManager diffEngine
  | netflow => NetflowSettingsManager diffEngine

/-- The block of the parameters that has the multi-selects. -/
def block : MultiSelectClass → Option String
  | netflow => some "capture"
  | _ => none

/-- `_MULTI_SELECT_FIELDS` -/
def fields : MultiSelectClass → List String
  | ub => ["active_interface", "outgoing_interface"]
  | dnscryptProxyGeneral => ["listen_addresses", "serverlist", "disabled_serverlist", "relaylist"]
  | kea4 => ["interfaces", "compatibility"]
  | kea6 => ["interfaces", "mac_sources"]
  | ids => ["interfaces", "homenet", "eveLog"]
  | chronyGeneral => ["peers", "allowednetworks"]
  | lldpdGeneral => ["interface"]
  | mdnsRepeater => ["interfaces", "blocklist"]
  | qemuGuestAgent => ["DisabledRPCs"]
  | dnsmasq => ["interface", "dhcp"]
  | netflow => ["interfaces", "egress_only", "targets"]

/-- Where they are among the parameters. -/
def paths (c : MultiSelectClass) : List (List String) := slotPaths c.block c.fields

variable (diffEngine : DiffEngine) (c : MultiSelectClass)

theorem prepare_present (params : Obj) :
    (c.settings diffEngine).prepare "present" params = normalizeIn c.block c.fields params := by
  cases c <;> rfl

theorem registry_eq : (c.settings diffEngine).manager.registry = validatorRegistry := by
  cases c <;> rfl

theorem engine_eq : (c.settings diffEngine).manager.diffEngine = diffEngine := by
  cases c <;> rfl

theorem fields_ne : c.fields ≠ [] := by
  cases c <;> simp [fields]

/-- Each multi-select is checked for its length alone. -/
theorem acceptsSlotsIn_validators :
    acceptsSlotsIn c.block c.fields (c.settings diffEngine).manager.validators = true := by
  cases c <;> rfl

/-- None of them is taken for a field the API never returns. -/
theorem not_isWriteOnlyKey {path : List String} (h : path ∈ c.paths) :
    isWriteOnlyKey (path.getLastD "") = false := by
  have hall : (c.paths.all fun path => !isWriteOnlyKey (path.getLastD "")) = true := by
    cases c <;> decide
  simpa using List.all_eq_true.mp hall path h

end MultiSelectClass
end Opnsense
