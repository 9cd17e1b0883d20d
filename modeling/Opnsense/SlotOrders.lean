import Opnsense.MultiSelects

namespace Opnsense
open Interaction DiffEngine

namespace BaseSingletonManager

variable {m : BaseSingletonManager} {σ : Type} {serve : Appliance σ} {stored view : σ → Obj}
  {s : σ} {params : Obj}

theorem returns_validate_present : (m.validate "present" params).Returns serve s () s [] ↔
    m.registry.validateParams params m.validators = .ok () := by
  unfold validate
  rw [if_neg (by simp)]
  split
  · rw [returns_logError, Prog.returns_ofExcept]
    simp
  · rename_i hnone
    rw [not_not.mp hnone]
    exact iff_of_true (Prog.returns_ret.mpr ⟨rfl, rfl, rfl⟩) rfl

/-- Once a call gets past the checks, it has nothing to do when nothing drifted. -/
theorem ServedBy.ensure_noop_iff (api : m.ServedBy serve stored view) {state : String}
    (hvalid : ∀ s₁, (m.validate state params).Returns serve s₁ () s₁ []) :
    (∃ r t, (m.ensure state params).Returns serve s r s t ∧ r.changed = false ∧
      r.action = .noop ∧ OnlyReads t) ↔
      m.diffEngine.computeDiff (m.ownFields (view s)) params = none := by
  constructor
  · rintro ⟨r, t, hret, hchanged, -, -⟩
    by_contra hdiff
    obtain ⟨u, s₁, t₁, t₂, hval, hset, rfl⟩ := Prog.returns_bind.mp hret
    obtain ⟨rfl, -⟩ := returns_validate hval
    have hupdated := (api.returns_set_drifted hdiff hset).2.1
    rw [hchanged] at hupdated
    cases hupdated
  · exact api.ensure_settled hvalid

end BaseSingletonManager

/-- How stored slot ids are shown: as the text that is stored, or where the API lists the options
as a dict of these; an odd dict shows nothing of them. -/
inductive ShowsSlots (listed : Prop) (ks : List Token) : Json → Prop
  | text (hlisted : ¬ listed) : ShowsSlots listed ks (Token.asCsv ks)
  | options (hlisted : listed) (d : OptionDict) (hplain : ¬ d.multiSelect.Odd)
      (hselected : Token.texts ks = Token.texts d.selected) : ShowsSlots listed ks (.obj d.fields)
  | odd (hlisted : listed) (ms : MultiSelect) (hodd : ms.Odd) : ShowsSlots listed ks (.obj ms.fields)

/-- How a stored field is shown: slot ids in their way, another value as it is, blanked under a
write-only name or by the options it is made of, and a block as a block. -/
inductive ShowsField (multi listed : Prop) (key : String) : Json → Json → Prop
  | slots (ks : List Token) (shown : Json) (hmulti : multi) (h : ShowsSlots listed ks shown) :
    ShowsField multi listed key (Token.asCsv ks) shown
  | value (v shown : Json) (hmulti : ¬ multi) (hflat : v.isDict = false)
      (h : Displays (fun key => isWriteOnlyKey key = true) key v shown) :
    ShowsField multi listed key v shown
  | options (text : String) (ms : MultiSelect) (hmulti : ¬ multi)
      (h : ms.Odd ∨ ms.SameKeys text ∨ ms.csv = text) :
    ShowsField multi listed key (.str text) (.obj ms.fields)
  | block (fields shown : Obj) (hmulti : ¬ multi) :
    ShowsField multi listed key (.obj fields) (.obj shown)

/-- A server of the settings with multi-selects: it has all of these, and shows some of them by
their options. -/
structure MultiSelectServer (diffEngine : DiffEngine) (c : MultiSelectClass) (σ : Type) where
  serve : Appliance σ
  stored : σ → Obj
  view : σ → Obj
  served : (c.settings diffEngine).manager.ServedBy serve stored view
  listed : List String → Prop
  has_slots : ∀ s, ∀ path ∈ c.paths,
    valueAt path (.obj ((c.settings diffEngine).manager.ownFields (stored s))) ≠ none
  shows : ∀ s path v,
    valueAt path (.obj ((c.settings diffEngine).manager.ownFields (stored s))) = some v →
    ∃ shown, valueAt path (.obj ((c.settings diffEngine).manager.ownFields (view s))) =
        some shown ∧ ShowsField (path ∈ c.paths) (listed path) (path.getLastD "") v shown

section Slots

variable {e : DiffEngine} {listed : Prop} {ks ks' : List Token} {shown : Json} {key : String}

theorem settled_asCsv_iff (hkey : isWriteOnlyKey key = false) :
    Settled e key shown (Token.asCsv ks) ↔ Agrees e shown (.str (Token.csv ks)) := by
  have hblank : writeOnlyBlank key shown (.str (Token.csv ks)) = false := by
    unfold writeOnlyBlank
    split
    · rw [hkey, Bool.and_false]
    · rfl
  simp [Settled, Token.asCsv, Json.isDict, hblank]

/-- An odd dict counts as a text of its own. -/
theorem settled_odd_iff {ms : MultiSelect} (hodd : ms.Odd) {text : String} :
    Settled e key (.obj ms.fields) (.str text) ↔ ms.SameKeys text ∨ ms.itemText = text := by
  have hblank : writeOnlyBlank key (.obj ms.fields) (.str text) = false := rfl
  simp only [Settled, Json.isDict, hblank, Agrees, ms.normalizeValue_fields, pyStr_str,
    ms.sameOptions_fields, hashMatches, ms.isHash_itemText_of_odd hodd, Bool.false_and,
    Bool.false_eq_true, false_and, false_or, or_false]
  exact or_comm

/-- A text counts as the odd dict it is shown as, if it is shown as one. -/
def MeetsOdd (shown : Json) (text : String) : Prop :=
  ∀ ms : MultiSelect, shown = .obj ms.fields → ms.Odd → ms.SameKeys text ∨ ms.itemText = text

theorem meetsOdd_of_not_odd {ms : MultiSelect} (hplain : ¬ ms.Odd) (text : String) :
    MeetsOdd (.obj ms.fields) text := by
  intro ms' hfields hodd
  rw [Json.obj.injEq] at hfields
  rw [← MultiSelect.fields_injective hfields] at hodd
  exact absurd hodd hplain

theorem meetsOdd_odd_iff {ms : MultiSelect} (hodd : ms.Odd) {text : String} :
    MeetsOdd (.obj ms.fields) text ↔ ms.SameKeys text ∨ ms.itemText = text := by
  constructor
  · exact fun h => h ms rfl hodd
  · intro h ms' hfields _
    rw [Json.obj.injEq] at hfields
    rwa [← MultiSelect.fields_injective hfields]

theorem agrees_asCsv_iff :
    Agrees e (Token.asCsv ks) (.str (Token.csv ks')) ↔ Token.csv ks' = Token.csv ks :=
  Comparison.agrees_value_iff rfl (Token.isHash_csv ks) rfl

/-- Slot ids that a shown multi-select counts as are shown by it. -/
theorem ShowsSlots.of_settled (hkey : isWriteOnlyKey key = false) (h : ShowsSlots listed ks shown)
    (hsettled : Settled e key shown (Token.asCsv ks')) : ShowsSlots listed ks' shown := by
  rw [settled_asCsv_iff hkey] at hsettled
  cases h with
  | text hlisted =>
    rw [← Token.csv_injective (agrees_asCsv_iff.mp hsettled)]
    exact .text hlisted
  | options hlisted d hplain hselected =>
    exact .options hlisted d hplain ((Comparison.agrees_options_iff d hplain ks').mp hsettled)
  | odd hlisted ms hodd => exact .odd hlisted ms hodd

/-- Another order of what is shown counts as it where the options are listed, unless by an odd
dict, and as a text only if it is the same order. -/
theorem settled_perm_iff (hkey : isWriteOnlyKey key = false) (h : ShowsSlots listed ks shown)
    (hperm : ks.Perm ks') :
    Settled e key shown (Token.asCsv ks') ↔
      (¬ listed → ks' = ks) ∧ MeetsOdd shown (Token.csv ks') := by
  cases h with
  | text hlisted =>
    have hmeets : MeetsOdd (Token.asCsv ks) (Token.csv ks') := by
      intro ms hfields
      cases hfields
    rw [settled_asCsv_iff hkey, agrees_asCsv_iff, and_iff_left hmeets]
    constructor
    · exact fun hcsv _ => Token.csv_injective hcsv
    · intro horder
      rw [horder hlisted]
  | options hlisted d hplain hselected =>
    rw [settled_asCsv_iff hkey, Comparison.agrees_options_iff d hplain, ← Token.texts_perm hperm]
    exact iff_of_true hselected
      ⟨fun hnot => absurd hlisted hnot, meetsOdd_of_not_odd hplain (Token.csv ks')⟩
  | odd hlisted ms hodd =>
    rw [Token.asCsv, settled_odd_iff hodd, meetsOdd_odd_iff hodd]
    exact (and_iff_right fun hnot => absurd hlisted hnot).symm

end Slots

namespace MultiSelectServer

variable {e : DiffEngine} {c : MultiSelectClass} {σ : Type} (api : MultiSelectServer e c σ)
  {s s' : σ} {params params' : Obj} {r : EnsureResult} {t : List (Request × Reply)}

/-- The block of the manager as it is stored, and as it is shown. -/
def block (s : σ) : Obj := (c.settings e).manager.ownFields (api.stored s)

def shownBlock (s : σ) : Obj := (c.settings e).manager.ownFields (api.view s)

theorem exists_shown {path : List String} {v : Json}
    (h : valueAt path (.obj (api.block s)) = some v) :
    ∃ shown, valueAt path (.obj (api.shownBlock s)) = some shown ∧
      ShowsField (path ∈ c.paths) (api.listed path) (path.getLastD "") v shown :=
  api.shows s path v h

/-- Stored slot ids are shown as such. -/
theorem slots_of_showsField {multi listed : Prop} {key : String} {v shown : Json}
    (h : ShowsField multi listed key v shown) (hmulti : multi) :
    ∃ ks, v = Token.asCsv ks ∧ ShowsSlots listed ks shown := by
  cases h with
  | slots ks shown _ h => exact ⟨ks, rfl, h⟩
  | value v shown hnot hflat h => exact absurd hmulti hnot
  | options text ms hnot h => exact absurd hmulti hnot
  | block fields shown hnot => exact absurd hmulti hnot

/-- What was merged counts as declared in the way it is shown, unless by an odd dict. -/
theorem settled_of_showsField {multi listed : Prop} {key : String} {v shown : Json}
    {old : Option Json} (htext : IsText v) (hmulti : ¬ multi)
    (h : ShowsField multi listed key (mergeValue old v) shown) :
    Settled e key shown v ∨ ∃ ms : MultiSelect, shown = .obj ms.fields ∧ ms.Odd := by
  by_cases hflat : v.isDict = false
  · obtain ⟨text, rfl⟩ := text_of_isText htext hflat
    rw [mergeValue_of_flat hflat] at h
    generalize hv : Json.str text = v at h
    cases h with
    | slots ks shown h _ => exact absurd h hmulti
    | value v shown _ _ h =>
      rw [← hv] at h ⊢
      exact Or.inl (settled_of_displays (fun _ hkey => hkey) h)
    | options held ms _ h =>
      cases hv
      by_cases hodd : ms.Odd
      · exact Or.inr ⟨ms, rfl, hodd⟩
      · left
        right
        right
        rcases h.resolve_left hodd with hsame | hcsv
        · refine Or.inr (Or.inl ?_)
          rw [ms.normalizeValue_fields]
          exact (ms.sameOptions_fields _).mpr hsame
        · exact Or.inl (by rw [ms.normalizeValue_fields, ms.itemText_of_not_odd hodd, hcsv]; rfl)
    | block fields shown _ => cases hv
  · cases v with
    | obj fields =>
      rw [mergeValue_obj] at h
      generalize hv : Json.obj (mergeFields (fieldsOf old) fields) = v at h
      cases h with
      | slots ks shown h _ => exact absurd h hmulti
      | value v shown _ hvalue _ =>
        rw [← hv] at hvalue
        cases hvalue
      | options text ms _ _ => cases hv
      | block fields shown _ => exact Or.inl (Or.inl ⟨rfl, rfl⟩)
    | _ => exact absurd rfl hflat

/-- What holds of the settings when a call has returned: the slot ids it was given are shown, and
the other fields count as declared, unless they are shown by odd dicts. -/
structure Settles (s : σ) (params : Obj) : Prop where
  slots : ∀ path ∈ c.paths, ∀ ks, valueAt path (.obj params) = some (Token.asCsv ks) →
    ∃ shown, valueAt path (.obj (api.shownBlock s)) = some shown ∧
      ShowsSlots (api.listed path) ks shown
  others : ∀ key path v shown, key :: path ∉ c.paths →
    valueAt (key :: path) (.obj params) = some v →
    valueAt (key :: path) (.obj (api.shownBlock s)) = some shown →
    Settled e (path.getLastD key) shown v ∨ ∃ ms : MultiSelect, shown = .obj ms.fields ∧ ms.Odd

/-- A call that found nothing to do leaves them so. -/
theorem settles_of_computeDiff (htext : IsText (.obj params))
    (h : e.computeDiff (api.shownBlock s) params = none) : api.Settles s params where
  slots path hpath ks hks := by
    have hall := (computeDiff_eq_none_iff_allSettled (keyed_of_isText htext)).mp h
    obtain ⟨v, hv⟩ := Option.ne_none_iff_exists'.mp (api.has_slots s path hpath)
    obtain ⟨shown, hshown, hfield⟩ := api.exists_shown hv
    -- other slot ids may be stored, but what is shown counts as those given
    obtain ⟨js, -, hslots⟩ := slots_of_showsField hfield hpath
    refine ⟨shown, hshown, ?_⟩
    have hkey := c.not_isWriteOnlyKey hpath
    cases path with
    | nil => exact absurd hpath nil_notMem_slotPaths
    | cons key path =>
      rw [List.getLastD_cons] at hkey
      exact hslots.of_settled hkey (hall key path _ shown hks hshown)
  others key path v shown _ hv hshown := Or.inl
    ((computeDiff_eq_none_iff_allSettled (keyed_of_isText htext)).mp h key path v shown hv hshown)

/-- So does one that merged what it was given. -/
theorem settles_of_merged (htext : IsText (.obj params)) {old : Obj}
    (h : api.block s = mergeFields old params) : api.Settles s params where
  slots path hpath ks hks := by
    have hstored : valueAt path (.obj (api.block s)) = some (Token.asCsv ks) := by
      rw [h, valueAt_mergeFields_of_named (keyed_of_isText htext) hks, mergeValue_of_flat rfl]
    obtain ⟨shown, hshown, hfield⟩ := api.exists_shown hstored
    -- the slot ids stored are those sent, since their text tells them
    obtain ⟨js, hjs, hslots⟩ := slots_of_showsField hfield hpath
    rw [← Token.asCsv_injective hjs] at hslots
    exact ⟨shown, hshown, hslots⟩
  others key path v shown hpath hv hshown := by
    have hstored : valueAt (key :: path) (.obj (api.block s)) =
        some (mergeValue (valueAt (key :: path) (.obj old)) v) := by
      rw [h, valueAt_mergeFields_of_named (keyed_of_isText htext) hv]
    obtain ⟨w, hw, hfield⟩ := api.exists_shown hstored
    rw [hshown, Option.some.injEq] at hw
    rw [← hw, List.getLastD_cons] at hfield
    exact settled_of_showsField (isText_valueAt htext hv) hpath hfield

theorem settles_of_returns (htext : IsText (.obj params))
    (h : ((c.settings e).manager.ensure "present" params).Returns api.serve s r s' t) :
    api.Settles s' params := by
  rcases (api.served.returns_ensure h).2 with ⟨hdiff, rfl⟩ | ⟨-, -, hmerged⟩
  · rw [c.engine_eq] at hdiff
    exact api.settles_of_computeDiff htext hdiff
  · exact api.settles_of_merged htext hmerged

/-- The block that has the multi-selects is shown as one. -/
theorem isDict_above {key : String} {path : List String} {shown : Json}
    (habove : key :: path <+: c.block.toList)
    (h : valueAt (key :: path) (.obj (api.shownBlock s)) = some shown) : shown.isDict = true := by
  rcases hblock : c.block with _ | block
  · rw [hblock] at habove
    simp at habove
  · rw [hblock, Option.toList_some, List.cons_prefix_cons, List.prefix_nil] at habove
    obtain ⟨rfl, rfl⟩ := habove
    obtain ⟨field, hfield⟩ := List.exists_mem_of_ne_nil _ c.fields_ne
    have hpath : [key, field] ∈ c.paths := by
      rw [MultiSelectClass.paths, hblock]
      exact mem_slotPaths_some.mpr ⟨rfl, mem_slotPaths_none.mpr ⟨rfl, hfield⟩⟩
    -- there is a multi-select below it
    obtain ⟨v, hv⟩ := Option.ne_none_iff_exists'.mp (api.has_slots s _ hpath)
    obtain ⟨w, hw, -⟩ := api.exists_shown hv
    by_contra hflat
    rw [valueAt_cons_obj, Option.bind_eq_some_iff] at h hw
    obtain ⟨u, hu, h⟩ := h
    obtain ⟨u', hu', hw⟩ := hw
    rw [hu, Option.some.injEq] at hu'
    rw [valueAt_nil, Option.some.injEq] at h
    rw [← hu', h, valueAt_cons_of_flat (by simpa using hflat)] at hw
    cases hw

/-- What is given as the text of a field, a multi-select or another, meets the odd dict it is shown
as, if it is shown as one. -/
def MeetsShown (s : σ) (params : Obj) : Prop :=
  ∀ path text shown, valueAt path (.obj params) = some (.str text) →
    valueAt path (.obj (api.shownBlock s)) = some shown → MeetsOdd shown text

/-- A multi-select shown as a text settles only what is given in its order. -/
theorem same_order_of_settled (hsame : SameButOrder Token.asCsv c.block c.fields params params')
    (h : api.Settles s params) (hall : AllSettled e (api.shownBlock s) params')
    {path : List String} (hpath : path ∈ c.paths) (hlisted : ¬ api.listed path) :
    valueAt path (.obj params') = valueAt path (.obj params) := by
  have hkey := c.not_isWriteOnlyKey hpath
  have hpair := hsame.sameAt (fun _ => rfl) path
  generalize hv : valueAt path (.obj params) = v at hpair
  generalize hv' : valueAt path (.obj params') = v' at hpair
  cases hpair with
  | missing => rfl
  | slots ks ks' _ hperm =>
    obtain ⟨shown, hshown, hslots⟩ := h.slots path hpath ks hv
    cases path with
    | nil => exact absurd hpath nil_notMem_slotPaths
    | cons key path =>
      rw [List.getLastD_cons] at hkey
      have hsettled := hall key path _ shown hv' hshown
      rw [((settled_perm_iff hkey hslots hperm).mp hsettled).1 hlisted]
  | same v hmulti htext => rfl
  | block fields fields' habove => exact absurd habove (not_above_of_mem hpath)

/-- What the second call declares is what the first did, or slot ids, or the block of these. -/
theorem allSettled_second (hsame : SameButOrder Token.asCsv c.block c.fields params params')
    (h : api.Settles s params) (horders : ∀ path ∈ c.paths, ¬ api.listed path →
      valueAt path (.obj params') = valueAt path (.obj params))
    (hmeets : api.MeetsShown s params') : AllSettled e (api.shownBlock s) params' := by
  intro key path declared shown hdeclared hshown
  have hpair := hsame.sameAt (fun _ => rfl) (key :: path)
  rw [hdeclared] at hpair
  generalize hv : valueAt (key :: path) (.obj params) = v at hpair
  generalize hv' : some declared = v' at hpair
  cases hpair with
  | missing => cases hv'
  | slots ks ks' hpath hperm =>
    rw [Option.some.injEq] at hv'
    obtain ⟨w, hw, hslots⟩ := h.slots _ hpath ks hv
    rw [hshown, Option.some.injEq] at hw
    rw [← hw] at hslots
    have hkey := c.not_isWriteOnlyKey hpath
    rw [List.getLastD_cons] at hkey
    rw [hv'] at hdeclared ⊢
    rw [settled_perm_iff hkey hslots hperm]
    refine ⟨fun hlisted => ?_, hmeets _ _ _ hdeclared hshown⟩
    have horder := horders _ hpath hlisted
    rw [hdeclared, hv, Option.some.injEq] at horder
    exact Token.asCsv_injective horder
  | same v hpath htext =>
    rw [Option.some.injEq] at hv'
    rw [hv'] at hdeclared ⊢
    rcases h.others key path v shown hpath hv hshown with hsettled | ⟨ms, rfl, hodd⟩
    · exact hsettled
    · by_cases hflat : v.isDict = false
      · obtain ⟨text, rfl⟩ := text_of_isText htext hflat
        exact (settled_odd_iff hodd).mpr (hmeets _ _ _ hdeclared hshown ms rfl hodd)
      · exact Or.inl ⟨by simpa using hflat, rfl⟩
  | block fields fields' habove =>
    rw [Option.some.injEq] at hv'
    exact Or.inl ⟨by rw [hv']; rfl, api.isDict_above habove hshown⟩

/-- After the first order nothing of the second drifts exactly when the multi-selects that are
shown as texts are given in one order, and no odd dict is in the way. -/
theorem computeDiff_second_iff (hsame : SameButOrder Token.asCsv c.block c.fields params params')
    (h : api.Settles s params) :
    e.computeDiff (api.shownBlock s) params' = none ↔
      (∀ path ∈ c.paths, ¬ api.listed path →
        valueAt path (.obj params') = valueAt path (.obj params)) ∧
      api.MeetsShown s params' := by
  rw [computeDiff_eq_none_iff_allSettled (keyed_of_isText hsame.isText.2)]
  constructor
  · intro hall
    refine ⟨fun path hpath => api.same_order_of_settled hsame h hall hpath, ?_⟩
    intro path text shown htext hshown
    cases path with
    | nil => cases htext
    | cons key path =>
      have hsettled := hall key path _ shown htext hshown
      rintro ms rfl hodd
      exact (settled_odd_iff hodd).mp hsettled
  · exact fun hboth => api.allSettled_second hsame h hboth.1 hboth.2

end MultiSelectServer

/-- Two slots, of which none or both are selected, in one order or the other. -/
inductive TwoSlots where
  | neither | forwards | backwards

namespace TwoSlots

/-- A class whose only multi-select is no part of a block, and the slots it is about. -/
structure Choice where
  kind : MultiSelectClass
  field : String
  first : Token
  second : Token
  listed : Bool
  block_eq : kind.block = none
  fields_eq : kind.fields = [field]
  key_ne : first.text ≠ "selected" ∧ second.text ≠ "selected"

variable (x : Choice)

def slots : TwoSlots → List Token
  | neither => []
  | forwards => [x.first, x.second]
  | backwards => [x.second, x.first]

def isChosen : TwoSlots → Bool
  | neither => false
  | _ => true

/-- Each of them is selected or not, as its mark says. -/
def option (key : Token) (label : String) : Bool → ShownOption
  | true => .chosen key (.str label) (.bool true) rfl
  | false => .other key.text (.str label) (.bool false) rfl

def options (sel : TwoSlots) : OptionDict where
  options := [option x.first "first" sel.isChosen, option x.second "second" sel.isChosen]

theorem not_odd (sel : TwoSlots) : ¬ (sel.options x).multiSelect.Odd := by
  rintro (hnone | hnamed)
  · cases hnone
  · have hfirst : ("selected" == x.first.text) = false := by simpa using x.key_ne.1.symm
    have hsecond : ("selected" == x.second.text) = false := by simpa using x.key_ne.2.symm
    cases sel <;>
      exact hnamed (by simp [options, option, isChosen, OptionDict.multiSelect, MultiSelect.fields,
        ShownOption.shown, List.lookup_cons, hfirst, hsecond])

theorem texts_slots (sel : TwoSlots) :
    Token.texts (sel.slots x) = Token.texts (sel.options x).selected := by
  cases sel with
  | neither => rfl
  | forwards => rfl
  | backwards => exact Token.texts_perm (List.Perm.swap ..)

def manager : BaseSingletonManager := (x.kind.settings ⟨fun _ _ => false⟩).manager

def stored (sel : TwoSlots) : Obj := (manager x).sent [(x.field, Token.asCsv (sel.slots x))]

def view (sel : TwoSlots) : Obj :=
  (manager x).sent [(x.field,
    if x.listed then .obj (sel.options x).fields else Token.asCsv (sel.slots x))]

/-- What is selected by the fields of the block. -/
def chosen : Obj → Option TwoSlots
  | [(field, .str text)] =>
    if field ≠ x.field then none
    else if text = Token.csv (slots x forwards) then some forwards
    else if text = Token.csv (slots x backwards) then some backwards
    else none
  | _ => none

/-- The block in a document that has nothing else. -/
def received (doc : Obj) : Option Obj :=
  match (manager x).sectionKey, doc with
  | none, doc => some doc
  | some key, [(key', .obj fields)] => if key' = key then some fields else none
  | some _, _ => none

def serve : Appliance TwoSlots
  | .get .., sel => (.ok (.obj [((manager x).payloadKey, .obj (view x sel))]), sel)
  | .post _ [(_, .obj doc)] _, sel =>
    match (received x doc).bind (chosen x) with
    | some sel' => (.ok (.obj [("result", .str "saved")]), sel')
    | none => (.error (.valueError "not a slot"), sel)
  | .reconfigure .., sel => (.ok (.obj [("status", .str "ok")]), sel)
  | _, sel => (.error (.valueError "not found"), sel)

theorem sent_of_received {doc fields : Obj} (h : received x doc = some fields) :
    doc = (manager x).sent fields := by
  unfold received at h
  unfold BaseSingletonManager.sent
  split at h
  · rename_i hsection
    rw [hsection]
    exact Option.some.inj h
  · rename_i key key' fields' hsection
    rw [hsection]
    split at h
    · rename_i hkey
      rw [hkey, Option.some.inj h]
    · cases h
  · cases h

theorem slots_of_chosen {fields : Obj} {sel : TwoSlots} (h : chosen x fields = some sel) :
    fields = [(x.field, Token.asCsv (sel.slots x))] := by
  unfold chosen at h
  split at h
  · rename_i field text
    by_cases hfield : field = x.field
    · rw [if_neg (not_not.mpr hfield)] at h
      split at h
      · rename_i htext
        rw [← Option.some.inj h, hfield, htext, Token.asCsv]
      · split at h
        · rename_i htext
          rw [← Option.some.inj h, hfield, htext, Token.asCsv]
        · cases h
    · rw [if_pos hfield] at h
      cases h
  · cases h

theorem served : (manager x).ServedBy (serve x) (stored x) (view x) where
  get_view _ := rfl
  set_merges doc sel v sel' h := by
    simp only [serve] at h
    split at h
    · rename_i sel'' hchosen
      obtain ⟨fields, hreceived, hchosen⟩ := Option.bind_eq_some_iff.mp hchosen
      have hstate : sel'' = sel' := congrArg Prod.snd h
      rw [sent_of_received x hreceived, slots_of_chosen x hchosen, hstate]
      exact ((manager x).mergeFields_sent _ _ _).symm
    · cases h
  apply_keeps ep opts sel v sel' h := by
    have hstate : sel = sel' := congrArg Prod.snd h
    rw [hstate]

theorem mem_paths {path : List String} : path ∈ x.kind.paths ↔ path = [x.field] := by
  rw [MultiSelectClass.paths, x.block_eq, x.fields_eq]
  simp [slotPaths]

theorem showsSlots (sel : TwoSlots) : ShowsSlots (x.listed = true) (sel.slots x)
    (if x.listed then .obj (sel.options x).fields else Token.asCsv (sel.slots x)) := by
  by_cases hlisted : x.listed = true
  · rw [if_pos hlisted]
    exact .options hlisted (sel.options x) (not_odd x sel) (texts_slots x sel)
  · rw [if_neg hlisted]
    exact .text hlisted

/-- A server of the class. -/
def server : MultiSelectServer ⟨fun _ _ => false⟩ x.kind TwoSlots where
  serve := serve x
  stored := stored x
  view := view x
  served := served x
  listed _ := x.listed = true
  has_slots sel path hpath := by
    rw [mem_paths] at hpath
    have hstored : (manager x).ownFields (stored x sel) = _ := (manager x).ownFields_sent _
    rw [hpath]
    change valueAt [x.field] (.obj ((manager x).ownFields (stored x sel))) ≠ none
    simp [hstored]
  shows sel path v h := by
    have hstored : (manager x).ownFields (stored x sel) = _ := (manager x).ownFields_sent _
    have hview : (manager x).ownFields (view x sel) = _ := (manager x).ownFields_sent _
    change valueAt path (.obj ((manager x).ownFields (stored x sel))) = some v at h
    change ∃ shown, valueAt path (.obj ((manager x).ownFields (view x sel))) = some shown ∧ _
    rw [hstored] at h
    rw [hview, mem_paths]
    cases path with
    | nil =>
      cases h
      exact ⟨_, rfl, .block _ _ (by simp)⟩
    | cons key path =>
      by_cases hkey : key = x.field
      · subst hkey
        rw [valueAt_cons_obj, List.lookup_cons_self, Option.bind_some] at h ⊢
        cases path with
        | nil =>
          cases h
          exact ⟨_, valueAt_nil _, .slots _ _ rfl (showsSlots x sel)⟩
        | cons key path => cases h
      · have hmissing : List.lookup key [(x.field, Token.asCsv (sel.slots x))] = none := by
          simpa using hkey
        rw [valueAt_cons_obj, hmissing] at h
        cases h

/-- No text given for the field is shown as an odd dict. -/
theorem meetsShown (sel : TwoSlots) (given : String) :
    (server x).MeetsShown sel [(x.field, .str given)] := by
  intro path text shown htext hshown
  have hview : (manager x).ownFields (view x sel) = _ := (manager x).ownFields_sent _
  change valueAt path (.obj ((manager x).ownFields (view x sel))) = some shown at hshown
  rw [hview] at hshown
  cases path with
  | nil => cases htext
  | cons key path =>
    by_cases hkey : key = x.field
    · subst hkey
      rw [valueAt_cons_obj, List.lookup_cons_self, Option.bind_some] at htext hshown
      cases path with
      | nil =>
        rw [valueAt_nil, Option.some.injEq] at hshown
        rw [← hshown]
        by_cases hlisted : x.listed = true
        · rw [if_pos hlisted]
          exact meetsOdd_of_not_odd (not_odd x sel) text
        · rw [if_neg hlisted]
          intro ms hfields
          cases hfields
      | cons key path => cases htext
    · have hmissing : List.lookup key [(x.field, Json.str given)] = none := by
        simpa using hkey
      rw [valueAt_cons_obj, hmissing] at htext
      cases htext

/-- The guest agent, whose disabled calls are listed with all there are. -/
def guestAgent : Choice where
  kind := .qemuGuestAgent
  field := "DisabledRPCs"
  first := ⟨"guest-exec", by decide, by decide, not_isSpace_of_all rfl, by decide⟩
  second := ⟨"guest-info", by decide, by decide, not_isSpace_of_all rfl, by decide⟩
  listed := true
  block_eq := rfl
  fields_eq := rfl
  key_ne := by decide

/-- LLDP, whose interfaces are a text. -/
def lldpd : Choice where
  kind := .lldpdGeneral
  field := "interface"
  first := ⟨"lan", by decide, by decide, not_isSpace_of_all rfl, by decide⟩
  second := ⟨"wan", by decide, by decide, not_isSpace_of_all rfl, by decide⟩
  listed := false
  block_eq := rfl
  fields_eq := rfl
  key_ne := by decide

/-- The two slots in an order, as parameters. -/
def given (sel : TwoSlots) : Obj := [(x.field, Token.asList (sel.slots x))]

theorem sameButOrder_given : SameButOrder Token.asList x.kind.block x.kind.fields
    (given x forwards) (given x backwards) := by
  rw [x.block_eq, x.fields_eq]
  refine ⟨by simp [given], by simp [given], fun key => by simp [given], ?_⟩
  intro key v v' hv hv'
  have hmem := Obj.mem_of_lookup hv
  have hmem' := Obj.mem_of_lookup hv'
  simp only [given, List.mem_singleton, Prod.mk.injEq] at hmem hmem'
  exact Or.inl ⟨by simp [hmem.1], _, _, List.Perm.swap .., hmem.2, hmem'.2⟩

def ensure (sel : TwoSlots) : M EnsureResult :=
  (x.kind.settings ⟨fun _ _ => false⟩).ensure "present" (given x sel)

end TwoSlots
end Opnsense
