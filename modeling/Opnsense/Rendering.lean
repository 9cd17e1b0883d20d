import Opnsense.Csv
import Opnsense.DiffSoundness

/-! Two renderings of one resource. A search row spells a multi-select as joined keys,
the full item as an option dict; the diff treats the two shapes differently. -/
namespace Opnsense
open DiffEngine

/-- A multi-select: key, label and `selected` flag of each option. -/
structure MultiSelect where
  options : List (String × Json × Json)

namespace MultiSelect

variable (ms : MultiSelect)

def fields : Obj :=
  ms.options.map fun o => (o.1, .obj [("value", o.2.1), ("selected", o.2.2)])

def selected : List String := (ms.options.filter fun o => isSelected o.2.2).map (·.1)

/-- The selected keys, joined in the order of the options. -/
def csv : String := ",".intercalate ms.selected

theorem selectedKeys_fields : selectedKeys ms.fields = ms.selected := by
  simp only [selectedKeys, fields, selected, List.filterMap_map]
  induction ms.options with
  | nil => rfl
  | cons o rest ih =>
    have hflag : Obj.getD [("value", o.2.1), ("selected", o.2.2)] "selected" .null = o.2.2 := rfl
    cases hsel : isSelected o.2.2 with
    | true => simpa [hflag, hsel] using ih
    | false => simpa [hflag, hsel] using ih

/-- Without options the dict is empty, and an option called `selected` makes it look like a
wrapped value. -/
def Odd : Prop := ms.options = [] ∨ ms.fields.lookup "selected" ≠ none

/-- The text the diff compares: the selected keys, except for an odd dict. -/
def itemText : String :=
  match ms.fields.lookup "selected" with
  | some option => pyStr option
  | none => if ms.options = [] then "\x7b\x7d" else ms.csv

theorem itemText_of_not_odd (h : ¬ ms.Odd) : ms.itemText = ms.csv := by
  rw [Odd, not_or, not_not] at h
  rw [itemText, h.2]
  exact if_neg h.1

theorem normalizeValue_fields : normalizeValue (.obj ms.fields) = ms.itemText := by
  have hdicts : ms.fields.all (fun kv => kv.2.isDict) = true := by
    simp [fields, Json.isDict]
  unfold itemText
  cases hselected : ms.fields.lookup "selected" with
  | some option => simp [normalizeValue, hselected]
  | none =>
    by_cases hnone : ms.options = []
    · simp [fields, hnone]
      rfl
    · have hne : ms.fields.isEmpty = false := by
        simpa [fields] using hnone
      simp [normalizeValue, hselected, hne, hdicts, selectedKeys_fields, csv, hnone]

theorem fields_injective {ms ms' : MultiSelect} (h : ms.fields = ms'.fields) : ms = ms' := by
  have hinj : Function.Injective fun o : String × Json × Json =>
      (o.1, Json.obj [("value", o.2.1), ("selected", o.2.2)]) := by
    rintro ⟨key, label, mark⟩ ⟨key', label', mark'⟩ h
    simpa using h
  cases ms
  cases ms'
  exact congrArg MultiSelect.mk (List.map_injective_iff.mpr hinj h)

/-- The text of an odd dict starts with a brace. -/
theorem isHash_itemText_of_odd (h : ms.Odd) : isHash ms.itemText = false := by
  have hbrace : ∀ fs : Obj, isHash (pyStr (.obj fs)) = false := by
    intro fs
    simp only [isHash, pyStr, pyRepr, String.toList_append]
    rfl
  unfold itemText
  cases hselected : ms.fields.lookup "selected" with
  | none =>
    have hnone : ms.options = [] := h.resolve_right fun hne => hne hselected
    simp only [hnone, if_true]
    decide
  | some option =>
    obtain ⟨o, -, ho⟩ := List.mem_map.mp (Obj.mem_of_lookup hselected)
    rw [← (Prod.mk.inj ho).2]
    exact hbrace _

/-- The option dict counts as the desired text as a set of keys. -/
def SameKeys (d : String) : Prop :=
  ms.fields.lookup "selected" = none ∧ ',' ∈ (ms.itemText ++ d).toList ∧
    csvSet ms.itemText = csvSet d

theorem sameOptions_fields (d : String) :
    sameOptions (.obj ms.fields) ms.itemText d = true ↔ ms.SameKeys d := by
  simp [sameOptions, Obj.has_eq_false_iff, SameKeys, and_assoc]

/-- The desired text in the row's order is the desired set, or the order of the options. -/
theorem spelling_reads (hplain : ¬ ms.Odd) {keys : List String} {d : String}
    (hkeys : keys.Perm ms.selected) (h : ",".intercalate keys = d) :
    ms.SameKeys d ∨ ms.itemText = d := by
  have htext := ms.itemText_of_not_odd hplain
  rw [Odd, not_or, not_not] at hplain
  by_cases heq : ",".intercalate keys = ms.csv
  · exact Or.inr (htext.trans (heq.symm.trans h))
  · left
    refine ⟨hplain.2, ?_, ?_⟩
    · have hcomma := comma_mem_of_join_ne hkeys heq
      rw [htext, String.toList_append]
      exact List.mem_append_left _ hcomma
    · rw [htext, ← h]
      exact (csvSet_join_perm hkeys).symm

end MultiSelect

/-- A stored field: a text, or the options of a multi-select. -/
inductive Stored where
  | text (v : String)
  | choice (ms : MultiSelect)

/-- How a search row shows a stored field. -/
inductive RowShows : Stored → Json → Prop
  | text (v : String) : RowShows (.text v) (.str v)
  | native (b : Bool) : RowShows (.text (if b then "1" else "0")) (.bool b)
  | choice (ms : MultiSelect) {keys : List String} (hkeys : keys.Perm ms.selected) :
    RowShows (.choice ms) (.str (",".intercalate keys))

/-- How the full item shows it. -/
inductive ItemShows : Stored → Json → Prop
  | text (v : String) : ItemShows (.text v) (.str v)
  | selected (v : String) : ItemShows (.text v) (.obj [("selected", .str v)])
  | choice (ms : MultiSelect) : ItemShows (.choice ms) (.obj ms.fields)

/-- A text is taken for the desired one: the same, or its hash. -/
def Reads (e : DiffEngine) (text d : String) : Prop := text = d ∨ hashMatches e text d = true

/-- A blank under a write-only name, which says nothing about a desired text. -/
def Blank (key text d : String) : Prop := text = "" ∧ d ≠ "" ∧ isWriteOnlyKey key = true

/-- A multi-select that the row spells differently from the desired text while the
option dict counts as it. -/
def Respelt (e : DiffEngine) (key : String) (r : Json) (d : String) : Stored → Prop
  | .text _ => False
  | .choice ms =>
    ¬ Blank key (normalizeValue r) d ∧ ¬ Reads e (normalizeValue r) d ∧
      (ms.SameKeys d ∨ Reads e ms.itemText d)

/-- A value the row passes over while the item shows a difference: a write-only blank
that the item wraps in a dict, keys whose spelling alone is a hash of the desired text, or
the desired text itself beside an odd dict. -/
def Veiled (e : DiffEngine) (key : String) (r i : Json) (d : String) : Stored → Prop
  | .text v => Blank key v d ∧ i.isDict = true
  | .choice ms =>
    ¬ ms.SameKeys d ∧ ¬ Reads e ms.itemText d ∧
      (Blank key (normalizeValue r) d ∨ hashMatches e (normalizeValue r) d = true ∨
        (ms.Odd ∧ normalizeValue r = d))

/-- A value that is not the desired one in either rendering. -/
def Differs (e : DiffEngine) (key : String) (r : Json) (d : String) : Stored → Prop
  | .text v => ¬ Blank key v d ∧ ¬ Reads e v d
  | .choice ms =>
    ¬ Blank key (normalizeValue r) d ∧ ¬ Reads e (normalizeValue r) d ∧
      ¬ ms.SameKeys d ∧ ¬ Reads e ms.itemText d

variable {e : DiffEngine} {current : Obj} {key : String} {dv : Json}

theorem writeOnlyBlank_str {v : String} :
    writeOnlyBlank key (.str v) dv = true ↔ Blank key v (pyStr dv) := by
  unfold writeOnlyBlank Blank
  split
  · rename_i heq
    cases heq
    simp
  · rename_i hne
    have hv : v ≠ "" := fun h => hne (by rw [h])
    simp [hv]

theorem valueDrifts_iff {cv : Json} :
    valueDrifts e cv dv = true ↔
      ¬ sameOptions cv (normalizeValue cv) (pyStr dv) = true ∧
        ¬ Reads e (normalizeValue cv) (pyStr dv) := by
  rw [← not_iff_not, Bool.not_eq_true, valueDrifts_eq_false_iff, Agrees, Reads]
  tauto

/-- A plain text drifts when it is neither a blank nor read as the desired one. -/
theorem str_drifts_iff {v : String} (h : current.lookup key = some (.str v)) :
    fieldDrifts e current key dv = true ↔
      ¬ Blank key v (pyStr dv) ∧ ¬ Reads e v (pyStr dv) := by
  by_cases hb : writeOnlyBlank key (.str v) dv = true
  · simp [fieldDrifts_of_blank e h hb, writeOnlyBlank_str.mp hb]
  · have hb' : writeOnlyBlank key (.str v) dv = false := by simpa using hb
    have hnb : ¬ Blank key v (pyStr dv) := fun hblank => hb (writeOnlyBlank_str.mpr hblank)
    have hsame : sameOptions (.str v) (normalizeValue (.str v)) (pyStr dv) = false := rfl
    rw [fieldDrifts_of_value e h hb' (Or.inl rfl), valueDrifts_iff, hsame]
    simp [hnb, normalizeValue]

theorem dict_drifts_iff {fs : Obj} (h : current.lookup key = some (.obj fs))
    (hdv : dv.isDict = false) :
    fieldDrifts e current key dv = true ↔
      ¬ sameOptions (.obj fs) (normalizeValue (.obj fs)) (pyStr dv) = true ∧
        ¬ Reads e (normalizeValue (.obj fs)) (pyStr dv) := by
  rw [fieldDrifts_of_value e h rfl (Or.inr hdv), valueDrifts_iff]

theorem not_reads_of_blank {v d : String} (h : Blank key v d) : ¬ Reads e v d := by
  obtain ⟨rfl, hd, -⟩ := h
  rintro (heq | hhash)
  · exact hd heq.symm
  · have hprefix : isHash "" = false := by decide
    simp [hashMatches, hprefix] at hhash

theorem row_drifts_iff {sv : Stored} {r : Json} (hrow : current.lookup key = some r)
    (hshows : RowShows sv r) :
    fieldDrifts e current key dv = true ↔
      Respelt e key r (pyStr dv) sv ∨ Differs e key r (pyStr dv) sv := by
  cases hshows with
  | text v => simp [str_drifts_iff hrow, Respelt, Differs]
  | native b =>
    have hb : writeOnlyBlank key (.bool b) dv = false := rfl
    have hsame : sameOptions (.bool b) (normalizeValue (.bool b)) (pyStr dv) = false := rfl
    have hnb : ¬ Blank key (if b then "1" else "0") (pyStr dv) := by
      cases b <;> simp [Blank]
    rw [fieldDrifts_of_value e hrow hb (Or.inl rfl), valueDrifts_iff, hsame]
    simp only [Respelt, Differs, normalizeValue, hnb]
    simp
  | choice ms hkeys =>
    rw [str_drifts_iff hrow]
    simp only [Respelt, Differs, normalizeValue, pyStr_str]
    tauto

theorem item_drifts_iff {sv : Stored} {r i : Json} (hitem : current.lookup key = some i)
    (hrow : RowShows sv r) (hshows : ItemShows sv i) (hdv : dv.isDict = false) :
    fieldDrifts e current key dv = true ↔
      Veiled e key r i (pyStr dv) sv ∨ Differs e key r (pyStr dv) sv := by
  cases hshows with
  | text v => simp [str_drifts_iff hitem, Veiled, Differs, Json.isDict]
  | selected v =>
    have hsame : sameOptions (.obj [("selected", .str v)])
        (normalizeValue (.obj [("selected", .str v)])) (pyStr dv) = false := rfl
    have hnorm : normalizeValue (.obj [("selected", .str v)]) = v := rfl
    have hblank := @not_reads_of_blank e key v (pyStr dv)
    rw [dict_drifts_iff hitem hdv, hsame, hnorm]
    simp only [Veiled, Differs, Json.isDict]
    tauto
  | choice ms =>
    cases hrow with
    | @choice _ keys hkeys =>
      rw [dict_drifts_iff hitem hdv, ms.normalizeValue_fields, ms.sameOptions_fields]
      simp only [Veiled, Differs, normalizeValue, pyStr_str]
      constructor
      · rintro ⟨hsame, hreads⟩
        by_cases hblank : Blank key (",".intercalate keys) (pyStr dv)
        · exact Or.inl ⟨hsame, hreads, Or.inl hblank⟩
        by_cases hrow : Reads e (",".intercalate keys) (pyStr dv)
        · -- the row reads as declared: as a spelling of the same options, or as a hash
          refine Or.inl ⟨hsame, hreads, Or.inr ?_⟩
          rcases hrow with heq | hhash
          · by_cases hodd : ms.Odd
            · exact Or.inr ⟨hodd, heq⟩
            · rcases ms.spelling_reads hodd hkeys heq with hkeep | htext
              · exact absurd hkeep hsame
              · exact absurd (Or.inl htext) hreads
          · exact Or.inl hhash
        · exact Or.inr ⟨hblank, hrow, hsame, hreads⟩
      · rintro (⟨hsame, hreads, -⟩ | ⟨-, -, hsame, hreads⟩)
        · exact ⟨hsame, hreads⟩
        · exact ⟨hsame, hreads⟩

end Opnsense
