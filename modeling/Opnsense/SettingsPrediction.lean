import Opnsense.Redactor
import Opnsense.SettingsSecret

namespace Opnsense
open Interaction DiffEngine

/-- Two values read alike: two dicts key by key, anything else by its normalised text. -/
inductive ReadsAlike : Json → Json → Prop
  | value (v w : Json) (hflat : v.isDict = false ∨ w.isDict = false)
      (h : normalizeValue v = normalizeValue w) : ReadsAlike v w
  | block (c d : Obj) (hkeys : ∀ k, c.lookup k = none ↔ d.lookup k = none)
      (hfields : ∀ k v w, c.lookup k = some v → d.lookup k = some w → ReadsAlike v w) :
      ReadsAlike (.obj c) (.obj d)

theorem ReadsAlike.refl (v : Json) : ReadsAlike v v := by
  cases v with
  | obj fields =>
    refine .block fields fields (fun _ => Iff.rfl) fun k v w hv hw => ?_
    have hmem := Obj.mem_of_lookup hv
    rw [hv, Option.some.injEq] at hw
    rw [← hw]
    exact ReadsAlike.refl v
  | _ => exact .value _ _ (Or.inl rfl) rfl
termination_by sizeOf v
decreasing_by
  have hlt := List.sizeOf_lt_of_mem hmem
  simp only [Json.obj.sizeOf_spec, Prod.mk.sizeOf_spec] at hlt ⊢
  omega

theorem readsAlike_obj_iff {c d : Obj} : ReadsAlike (.obj c) (.obj d) ↔
    (∀ k, c.lookup k = none ↔ d.lookup k = none) ∧
      ∀ k v w, c.lookup k = some v → d.lookup k = some w → ReadsAlike v w := by
  constructor
  · intro h
    cases h with
    | value v w hflat h => simp [Json.isDict] at hflat
    | block c d hkeys hfields => exact ⟨hkeys, hfields⟩
  · exact fun h => .block c d h.1 h.2

/-- How a stored value is shown under a path. Where the menu has options, it is the option dict of
what is stored; elsewhere the value as it is, a flag as a native bool or a choice wrapped in
`selected`. A block is shown with all its fields. -/
inductive Renders (menu : List String → Option (Json → Obj)) : List String → Json → Json → Prop
  | plain (path : List String) (v : Json) (hflat : v.isDict = false) (hmenu : menu path = none) :
    Renders menu path v v
  | flag (path : List String) (b : Bool) (hmenu : menu path = none) :
    Renders menu path (.str (if b then "1" else "0")) (.bool b)
  | choice (path : List String) (s : String) (hmenu : menu path = none) :
    Renders menu path (.str s) (.obj [("selected", .str s)])
  | options (path : List String) (v : Json) (hflat : v.isDict = false) (options : Json → Obj)
      (hmenu : menu path = some options) : Renders menu path v (.obj (options v))
  | block (path : List String) (stored shown : Obj)
      (hkeys : ∀ k, stored.lookup k = none ↔ shown.lookup k = none)
      (hfields : ∀ k v w, stored.lookup k = some v → shown.lookup k = some w →
        Renders menu (path ++ [k]) v w) :
      Renders menu path (.obj stored) (.obj shown)

mutual
/-- A document as a server shows it that has nothing but the options of the menu. -/
def renderValue (menu : List String → Option (Json → Obj)) (path : List String) : Json → Json
  | .obj fields => .obj (renderFields menu path fields)
  | v =>
    match menu path with
    | some options => .obj (options v)
    | none => v

def renderFields (menu : List String → Option (Json → Obj)) (path : List String) :
    List (String × Json) → Obj
  | [] => []
  | (key, v) :: rest => (key, renderValue menu (path ++ [key]) v) :: renderFields menu path rest
end

section Renderings

variable {menu : List String → Option (Json → Obj)} {path : List String} {v w w' : Json}

theorem Renders.fields {c d : Obj} (h : Renders menu path (.obj c) (.obj d)) :
    (∀ k, c.lookup k = none ↔ d.lookup k = none) ∧
      ∀ k v w, c.lookup k = some v → d.lookup k = some w → Renders menu (path ++ [k]) v w := by
  cases h with
  | plain _ _ hflat => cases hflat
  | options _ _ hflat => cases hflat
  | block _ _ _ hkeys hfields => exact ⟨hkeys, hfields⟩

theorem Renders.isDict_of_block {c : Obj} (h : Renders menu path (.obj c) w) :
    ∃ d, w = .obj d ∧ Renders menu path (.obj c) (.obj d) := by
  cases h with
  | plain _ _ hflat => cases hflat
  | options _ _ hflat => cases hflat
  | block _ _ shown hkeys hfields => exact ⟨shown, rfl, .block _ _ _ hkeys hfields⟩

theorem lookup_renderFields {fields : Obj} {k : String} :
    (renderFields menu path fields).lookup k =
      (fields.lookup k).map (renderValue menu (path ++ [k])) := by
  induction fields with
  | nil => rfl
  | cons kv rest ih =>
    obtain ⟨key, v⟩ := kv
    rw [renderFields, List.lookup_cons, List.lookup_cons]
    by_cases hk : k = key
    · rw [hk, beq_self_eq_true]
      rfl
    · rw [beq_false_of_ne hk]
      exact ih

theorem renders_flat {v : Json} (path : List String) (hflat : v.isDict = false) :
    Renders menu path v (renderValue menu path v) := by
  rcases hmenu : menu path with _ | options
  · have hself : renderValue menu path v = v := by cases v <;> simp_all [renderValue, Json.isDict]
    rw [hself]
    exact .plain _ _ hflat hmenu
  · have hdict : renderValue menu path v = .obj (options v) := by
      cases v <;> simp_all [renderValue, Json.isDict]
    rw [hdict]
    exact .options _ _ hflat options hmenu

theorem renders_renderValue (path : List String) (v : Json) :
    Renders menu path v (renderValue menu path v) := by
  cases v with
  | obj fields =>
    rw [renderValue]
    refine .block path fields _ (fun k => ?_) fun k v w hv hw => ?_
    · rw [lookup_renderFields, Option.map_eq_none_iff]
    · have hmem := Obj.mem_of_lookup hv
      rw [lookup_renderFields, hv, Option.map_some, Option.some.injEq] at hw
      rw [← hw]
      exact renders_renderValue _ v
  | _ => exact renders_flat path rfl
termination_by sizeOf v
decreasing_by
  have hlt := List.sizeOf_lt_of_mem hmem
  simp only [Json.obj.sizeOf_spec, Prod.mk.sizeOf_spec] at hlt ⊢
  omega

/-- Without options every rendering keeps what the value says. -/
theorem normalizeValue_of_renders (hflat : v.isDict = false) (hmenu : menu path = none)
    (h : Renders menu path v w) : normalizeValue w = normalizeValue v := by
  cases h with
  | plain => rfl
  | flag _ b => cases b <;> rfl
  | choice => rfl
  | options _ _ _ _ hoptions =>
    rw [hmenu] at hoptions
    cases hoptions
  | block => cases hflat

/-- A stored value reads alike whenever it is shown. -/
theorem readsAlike_of_renders (h : Renders menu path v w) (h' : Renders menu path v w') :
    ReadsAlike w w' := by
  induction h generalizing w' with
  | plain path v hflat hmenu =>
    exact .value _ _ (Or.inl hflat) (normalizeValue_of_renders hflat hmenu h').symm
  | flag path b hmenu =>
    refine .value _ _ (Or.inl rfl) ?_
    rw [normalizeValue_of_renders rfl hmenu h',
      normalizeValue_of_renders rfl hmenu (.flag path b hmenu)]
  | choice path s hmenu =>
    have hreads := normalizeValue_of_renders rfl hmenu h'
    cases h' with
    | plain _ _ _ _ => exact .value _ _ (Or.inr rfl) rfl
    | flag _ b _ => exact .value _ _ (Or.inr rfl) hreads.symm
    | choice _ _ _ => exact .refl _
    | options _ _ _ _ hoptions =>
      rw [hmenu] at hoptions
      cases hoptions
  | options path v hflat options hmenu =>
    have hnone : menu path ≠ none := by simp [hmenu]
    cases h' with
    | plain _ _ _ hmenu' => exact absurd hmenu' hnone
    | flag _ _ hmenu' => exact absurd hmenu' hnone
    | choice _ _ hmenu' => exact absurd hmenu' hnone
    | options _ _ _ options' hmenu' =>
      rw [hmenu, Option.some.injEq] at hmenu'
      rw [hmenu']
      exact .refl _
    | block => cases hflat
  | block path stored shown hkeys hfields ih =>
    cases h' with
    | plain _ _ hflat => cases hflat
    | options _ _ hflat => cases hflat
    | block _ _ shown' hkeys' hfields' =>
      refine .block shown shown' (fun k => (hkeys k).symm.trans (hkeys' k)) ?_
      intro k w w' hw hw'
      obtain ⟨v, hv⟩ := exists_of_missing_iff (hkeys k).symm hw
      exact ih k v w hv hw (hfields' k v w' hv hw')

end Renderings

/-- The sent block names every field the stored one has, and so does every block in it. -/
def NamesWhole (stored : Option Json) (sent : Json) : Prop :=
  ∀ path fields k, valueAt path sent = some (.obj fields) →
    stored.bind (valueAt (path ++ [k])) ≠ none → fields.lookup k ≠ none

theorem bind_valueAt_singleton (stored : Option Json) (k : String) :
    stored.bind (valueAt [k]) = (fieldsOf stored).lookup k := by
  rw [bind_valueAt_cons]
  cases (fieldsOf stored).lookup k with
  | none => rfl
  | some v => exact valueAt_nil v

theorem namesWhole_of_flat {stored : Option Json} {v : Json} (h : v.isDict = false) :
    NamesWhole stored v := by
  intro path fields k hfields
  have hv := eq_of_valueAt_flat h hfields
  rw [← hv] at h
  cases h

theorem namesWhole_obj_iff {stored : Option Json} {d : Obj} : NamesWhole stored (.obj d) ↔
    (∀ k, d.lookup k = none → (fieldsOf stored).lookup k = none) ∧
      ∀ k v, d.lookup k = some v → NamesWhole ((fieldsOf stored).lookup k) v := by
  constructor
  · intro h
    refine ⟨fun k hk => ?_, fun k v hv path fields k' hfields hne => ?_⟩
    · by_contra hne
      apply h [] d k (valueAt_nil _) _ hk
      rwa [List.nil_append, bind_valueAt_singleton]
    · apply h (k :: path) fields k'
      · rw [valueAt_cons_obj, hv]
        exact hfields
      · rwa [List.cons_append, bind_valueAt_cons]
  · rintro ⟨hhere, hbelow⟩ path fields k hfields hne hk
    cases path with
    | nil =>
      rw [valueAt_nil, Option.some.injEq, Json.obj.injEq] at hfields
      rw [← hfields] at hk
      rw [List.nil_append, bind_valueAt_singleton] at hne
      exact hne (hhere k hk)
    | cons key path =>
      rw [valueAt_cons_obj, Option.bind_eq_some_iff] at hfields
      obtain ⟨v, hv, hfields⟩ := hfields
      rw [List.cons_append, bind_valueAt_cons] at hne
      exact hbelow key v hv path fields k hfields hne hk

theorem lookup_mergeFields_eq_none_iff {c d : Obj} {k : String} (hnodup : (d.map (·.1)).Nodup) :
    (mergeFields c d).lookup k = none ↔ d.lookup k = none ∧ c.lookup k = none := by
  rcases hd : d.lookup k with _ | v
  · rw [lookup_mergeFields_of_notMem (notMem_of_lookup_eq_none hd)]
    simp
  · rw [lookup_mergeFields hnodup hd]
    simp

/-- What is sent for a field that is shown by an option dict is what that dict reads as. -/
def ReadsBack (menu : List String → Option (Json → Obj)) (path : List String) (sent : Json) :
    Prop :=
  ∀ rest v options, valueAt rest sent = some v → v.isDict = false →
    menu (path ++ rest) = some options → normalizeValue (.obj (options v)) = normalizeValue v

section Merged

variable {menu : List String → Option (Json → Obj)}

theorem readsBack_of_flat_iff {path : List String} {v : Json} (hflat : v.isDict = false) :
    ReadsBack menu path v ↔
      ∀ options, menu path = some options → normalizeValue (.obj (options v)) = normalizeValue v := by
  constructor
  · intro h options hmenu
    exact h [] v options (valueAt_nil v) hflat (by rwa [List.append_nil])
  · intro h rest w options hw hwflat hmenu
    cases rest with
    | nil =>
      rw [valueAt_nil, Option.some.injEq] at hw
      rw [List.append_nil] at hmenu
      rw [← hw]
      exact h options hmenu
    | cons k rest =>
      rw [valueAt_cons_of_flat hflat] at hw
      cases hw

theorem readsBack_obj_iff {path : List String} {d : Obj} : ReadsBack menu path (.obj d) ↔
    ∀ k v, d.lookup k = some v → ReadsBack menu (path ++ [k]) v := by
  constructor
  · intro h k v hv rest w options hw hflat hmenu
    rw [List.append_assoc] at hmenu
    refine h (k :: rest) w options ?_ hflat hmenu
    rw [valueAt_cons_obj, hv]
    exact hw
  · intro h rest w options hw hflat hmenu
    cases rest with
    | nil =>
      rw [valueAt_nil, Option.some.injEq] at hw
      rw [← hw] at hflat
      cases hflat
    | cons k rest =>
      rw [valueAt_cons_obj, Option.bind_eq_some_iff] at hw
      obtain ⟨v, hv, hw⟩ := hw
      refine h k v hv rest w options hw hflat ?_
      rwa [List.append_assoc]

/-- What is sent for one field reads like what is shown of it then, unless by options that read
otherwise. -/
theorem readsAlike_flat_iff {path : List String} {v w : Json} (hflat : v.isDict = false)
    (h : Renders menu path v w) : ReadsAlike v w ↔ ReadsBack menu path v := by
  have hvalue : ReadsAlike v w ↔ normalizeValue w = normalizeValue v := by
    constructor
    · intro halike
      cases halike with
      | value _ _ _ heq => exact heq.symm
      | block => cases hflat
    · exact fun heq => .value _ _ (Or.inl hflat) heq.symm
  rw [hvalue, readsBack_of_flat_iff hflat]
  rcases hmenu : menu path with _ | options
  · refine iff_of_true (normalizeValue_of_renders hflat hmenu h) ?_
    intro options hoptions
    cases hoptions
  · cases h with
    | plain _ _ _ hnone => cases hmenu.symm.trans hnone
    | flag _ _ hnone => cases hmenu.symm.trans hnone
    | choice _ _ hnone => cases hmenu.symm.trans hnone
    | options _ _ _ options' hsome =>
      cases hmenu.symm.trans hsome
      simp
    | block => cases hflat

/-- What is sent reads like what is shown after the merge exactly when no stored field is kept
beside it, and what option dicts are shown of it read back. -/
theorem readsAlike_merged_iff {path : List String} {stored : Option Json} {sent w : Json}
    (hkeyed : Keyed sent) (h : Renders menu path (mergeValue stored sent) w) :
    ReadsAlike sent w ↔ NamesWhole stored sent ∧ ReadsBack menu path sent := by
  by_cases hflat : sent.isDict = false
  · rw [mergeValue_of_flat hflat] at h
    rw [readsAlike_flat_iff hflat h, and_iff_right (namesWhole_of_flat hflat)]
  · match sent with
    | .obj d =>
      rw [mergeValue_obj] at h
      obtain ⟨shown, rfl, hblock⟩ := h.isDict_of_block
      obtain ⟨hkeys, hfields⟩ := hblock.fields
      rw [readsAlike_obj_iff, namesWhole_obj_iff, readsBack_obj_iff, and_assoc]
      refine and_congr (forall_congr' fun k => ?_) ?_
      · rw [← hkeys, lookup_mergeFields_eq_none_iff hkeyed.nodup]
        tauto
      · -- field by field
        have hone : ∀ k v, d.lookup k = some v → ∃ w', shown.lookup k = some w' ∧
            (ReadsAlike v w' ↔
              NamesWhole ((fieldsOf stored).lookup k) v ∧ ReadsBack menu (path ++ [k]) v) := by
          intro k v hv
          have hmem := Obj.mem_of_lookup hv
          have hmerged := @lookup_mergeFields d (fieldsOf stored) k v hkeyed.nodup hv
          obtain ⟨w', hw'⟩ := exists_of_missing_iff (hkeys k) hmerged
          -- the recursion: a block in the block is smaller
          exact ⟨w', hw', readsAlike_merged_iff (hkeyed.lookup hv) (hfields k _ w' hmerged hw')⟩
        constructor
        · intro hall
          refine ⟨fun k v hv => ?_, fun k v hv => ?_⟩
          · obtain ⟨w', hw', hiff⟩ := hone k v hv
            exact (hiff.mp (hall k v w' hv hw')).1
          · obtain ⟨w', hw', hiff⟩ := hone k v hv
            exact (hiff.mp (hall k v w' hv hw')).2
        · rintro ⟨hwhole, hback⟩ k v w hv hw
          obtain ⟨w', hw', hiff⟩ := hone k v hv
          rw [hw, Option.some.injEq] at hw'
          rw [hw']
          exact hiff.mpr ⟨hwhole k v hv, hback k v hv⟩
    | .null | .bool _ | .int _ | .float _ | .str _ | .arr _ => exact absurd rfl hflat
termination_by sizeOf sent
decreasing_by
  have hlt := List.sizeOf_lt_of_mem hmem
  simp only [Json.obj.sizeOf_spec, Prod.mk.sizeOf_spec] at hlt ⊢
  omega

end Merged

section Overlay

variable {o o' : Obj} {k : String}

theorem lookup_eq_none_of_notMem (h : k ∉ o.map (·.1)) : o.lookup k = none := by
  rw [List.lookup_eq_none_iff]
  intro kv hkv
  simpa using fun heq : k = kv.1 => h (heq ▸ List.mem_map_of_mem hkv)

/-- The second dict goes first. -/
theorem lookup_overlay (hnodup : (o'.map (·.1)).Nodup) :
    (o.overlay o').lookup k = (o'.lookup k).or (o.lookup k) := by
  induction o' generalizing o with
  | nil => rfl
  | cons kv rest ih =>
    obtain ⟨key, v⟩ := kv
    obtain ⟨hnot, hrest⟩ := List.nodup_cons.mp hnodup
    have hstep : (o.overlay ((key, v) :: rest)).lookup k =
        (rest.lookup k).or ((o.set key v).lookup k) := ih hrest
    rw [hstep]
    by_cases hk : k = key
    · subst hk
      rw [lookup_eq_none_of_notMem hnot, Obj.lookup_set_self, List.lookup_cons_self]
      rfl
    · rw [Obj.lookup_set_of_ne _ hk, List.lookup_cons, beq_false_of_ne hk]

/-- A redacted block has the fields it had, those to redact with the marker for a value. -/
theorem lookup_redacted {fields : List String} {doc : Obj} {shown : Json}
    (h : redactDict fields (.obj doc) = .ok shown) : ∃ out, shown = .obj out ∧
      ∀ k, out.lookup k = if k ∈ fields then (doc.lookup k).map (fun _ => redacted k)
        else doc.lookup k := by
  cases h
  refine ⟨_, rfl, ?_⟩
  intro k
  induction fields generalizing doc with
  | nil => simp
  | cons key rest ih =>
    rw [List.foldl_cons, ih]
    -- after one field, and then after the rest
    have hone : (if doc.has key then doc.set key (redacted key) else doc).lookup k =
        if k = key then (doc.lookup k).map (fun _ => redacted k) else doc.lookup k := by
      by_cases hk : k = key
      · subst hk
        rcases hlookup : doc.lookup k with _ | v
        · simp [Obj.has, hlookup]
        · simp [Obj.has, hlookup]
      · split
        · rw [Obj.lookup_set_of_ne _ hk]
        · rfl
    have hone' : (if doc.has key then doc.set key (.str ("<REDACTED:" ++ key ++ ">")) else
        doc).lookup k = _ := hone
    rw [hone']
    by_cases hk : k = key
    · subst hk
      cases doc.lookup k <;> simp
    · simp [hk]

end Overlay

/-- Two blocks that are redacted alike read alike by the fields that are not. -/
theorem readsAlike_redacted_iff {fields : List String} {c d : Obj} {v w : Json}
    (hv : redactDict fields (.obj c) = .ok v) (hw : redactDict fields (.obj d) = .ok w) :
    ReadsAlike v w ↔ (∀ k, c.lookup k = none ↔ d.lookup k = none) ∧
      ∀ k a b, k ∉ fields → c.lookup k = some a → d.lookup k = some b → ReadsAlike a b := by
  obtain ⟨c', rfl, hc⟩ := lookup_redacted hv
  obtain ⟨d', rfl, hd⟩ := lookup_redacted hw
  have hnone : ∀ k, (c'.lookup k = none ↔ c.lookup k = none) ∧
      (d'.lookup k = none ↔ d.lookup k = none) := by
    intro k
    rw [hc, hd]
    split <;> simp
  rw [readsAlike_obj_iff]
  refine and_congr (forall_congr' fun k => by rw [(hnone k).1, (hnone k).2]) ?_
  constructor
  · intro h k a b hk ha hb
    apply h k
    · rwa [hc, if_neg hk]
    · rwa [hd, if_neg hk]
  · intro h k a b ha hb
    rw [hc] at ha
    rw [hd] at hb
    by_cases hk : k ∈ fields
    · -- both show the marker
      rw [if_pos hk, Option.map_eq_some_iff] at ha hb
      obtain ⟨-, -, rfl⟩ := ha
      obtain ⟨-, -, rfl⟩ := hb
      exact .refl _
    · rw [if_neg hk] at ha hb
      exact h k a b hk ha hb

/-- A server of the settings of a manager that renders what it stores, some fields by the options
there are for them; the block of the manager is not one of those. -/
structure RenderedSettings (m : BaseSingletonManager) (σ : Type) where
  serve : Appliance σ
  stored : σ → Obj
  view : σ → Obj
  served : m.ServedBy serve stored view
  menu : List String → Option (Json → Obj)
  menu_block : menu m.sectionKey.toList = none
  renders : ∀ s, Renders menu [] (.obj (stored s)) (.obj (view s))

namespace RenderedSettings

variable {m : BaseSingletonManager} {σ : Type} (api : RenderedSettings m σ) {s s' s₁ : σ}
  {params : Obj} {r r' : EnsureResult} {t t' : List (Request × Reply)}

/-- The block of the manager as it is stored, and as it is shown. -/
def block (s : σ) : Obj := m.ownFields (api.stored s)

def shownBlock (s : σ) : Obj := m.ownFields (api.view s)

/-- The block is rendered field by field. -/
theorem renders_block (h : m.HasBlock (api.stored s)) :
    Renders api.menu m.sectionKey.toList (.obj (api.block s)) (.obj (api.shownBlock s)) := by
  unfold block shownBlock BaseSingletonManager.ownFields
  cases hsection : m.sectionKey with
  | none => exact api.renders s
  | some key =>
    obtain ⟨fields, hfields⟩ := h key hsection
    obtain ⟨hkeys, hrenders⟩ := (api.renders s).fields
    obtain ⟨w, hw⟩ := exists_of_missing_iff (hkeys key) hfields
    obtain ⟨shown, rfl, hblock⟩ := (hrenders key _ w hfields hw).isDict_of_block
    simp only [hfields, hw, fieldsOf]
    exact hblock

theorem block_of_not_hasBlock (h : ¬ m.HasBlock (api.stored s)) : api.block s = [] := by
  simp only [BaseSingletonManager.HasBlock, not_forall, not_exists] at h
  obtain ⟨key, hsection, hnone⟩ := h
  simp only [block, BaseSingletonManager.ownFields, hsection]
  cases hlookup : (api.stored s).lookup key with
  | none => rfl
  | some v =>
    cases v with
    | obj fields => exact absurd hlookup (hnone fields)
    | _ => rfl

/-- Where no block is stored at the place of the section, no more than one wrapped text is shown. -/
theorem selected_of_not_hasBlock (h : ¬ m.HasBlock (api.stored s)) {k : String} {w : Json}
    (hw : (api.shownBlock s).lookup k = some w) : k = "selected" := by
  simp only [BaseSingletonManager.HasBlock, not_forall, not_exists] at h
  obtain ⟨key, hsection, hnone⟩ := h
  have hmenu := api.menu_block
  rw [hsection, Option.toList_some] at hmenu
  obtain ⟨hkeys, hfields⟩ := (api.renders s).fields
  simp only [shownBlock, BaseSingletonManager.ownFields, hsection] at hw
  rcases hshown : (api.view s).lookup key with _ | shown
  · rw [hshown] at hw
    cases hw
  · obtain ⟨v, hv⟩ := exists_of_missing_iff (hkeys key).symm hshown
    rw [hshown] at hw
    cases hfields key v shown hv hshown with
    | plain _ _ hflat _ =>
      cases shown with
      | obj fields => cases hflat
      | _ => cases hw
    | flag _ b _ => cases hw
    | choice _ text _ =>
      have hw' : List.lookup k [("selected", Json.str text)] = some w := hw
      have hmem := Obj.mem_of_lookup hw'
      rw [List.mem_singleton, Prod.mk.injEq] at hmem
      exact hmem.1
    | options _ _ _ _ hoptions =>
      rw [List.nil_append, hmenu] at hoptions
      cases hoptions
    | block _ stored _ _ _ => exact absurd hv (hnone stored)

/-- What a drifting call does not name is shown as it is stored. -/
theorem renders_unnamed (hdiff : m.diffEngine.computeDiff (api.shownBlock s) params ≠ none)
    (hkeyed : Keyed (.obj params)) {k : String} (hk : params.lookup k = none) :
    ((api.block s).lookup k = none ↔ (api.shownBlock s).lookup k = none) ∧
      ∀ v w, (api.block s).lookup k = some v → (api.shownBlock s).lookup k = some w →
        Renders api.menu (m.sectionKey.toList ++ [k]) v w := by
  by_cases hhas : m.HasBlock (api.stored s)
  · obtain ⟨hkeys, hfields⟩ := (api.renders_block hhas).fields
    exact ⟨hkeys k, hfields k⟩
  · have hnone : (api.shownBlock s).lookup k = none := by
      by_contra hne
      obtain ⟨w, hw⟩ := Option.ne_none_iff_exists'.mp hne
      -- the drift is at the one field that is shown, so that field is named
      obtain ⟨path, declared, shown, hdeclared, hshown, hsettled⟩ :=
        (computeDiff_ne_none_iff hkeyed).mp hdiff
      cases path with
      | nil =>
        rw [valueAt_nil, Option.some.injEq] at hdeclared hshown
        rw [← hdeclared, ← hshown] at hsettled
        exact hsettled (Or.inl ⟨rfl, rfl⟩)
      | cons key path =>
        rw [valueAt_cons_obj, Option.bind_eq_some_iff] at hdeclared hshown
        obtain ⟨v, hv, -⟩ := hdeclared
        obtain ⟨w', hw', -⟩ := hshown
        rw [api.selected_of_not_hasBlock hhas hw'] at hv
        rw [api.selected_of_not_hasBlock hhas hw, hv] at hk
        cases hk
    rw [api.block_of_not_hasBlock hhas, hnone]
    simp

/-- Every block the parameters name at a key that is not redacted is named with all its stored
fields, and so are the blocks in it. -/
def NamesWholeBlocks (s : σ) (params : Obj) : Prop :=
  ∀ key v, key ∉ m.redactFields → params.lookup key = some v →
    NamesWhole ((api.block s).lookup key) v

/-- Every value named at such a key for a field with options is what the option dict of it reads
as: its selected keys, in the order of the options. -/
def NamesAsRead (params : Obj) : Prop :=
  ∀ key v, key ∉ m.redactFields → params.lookup key = some v →
    ReadsBack api.menu (m.sectionKey.toList ++ [key]) v

/-- What is not named is shown before the change as it is after it. -/
theorem readsAlike_unnamed (hkeyed : Keyed (.obj params))
    (hdiff : m.diffEngine.computeDiff (api.shownBlock s) params ≠ none)
    (hrenders : Renders api.menu m.sectionKey.toList (.obj (mergeFields (api.block s) params))
      (.obj (api.shownBlock s'))) {k : String} {a b : Json} (hk : params.lookup k = none)
    (ha : (api.shownBlock s).lookup k = some a) (hb : (api.shownBlock s').lookup k = some b) :
    ReadsAlike a b := by
  obtain ⟨hmissing, hshows⟩ := api.renders_unnamed hdiff hkeyed hk
  obtain ⟨v, hv⟩ := exists_of_missing_iff hmissing.symm ha
  have hmerged : (mergeFields (api.block s) params).lookup k = some v := by
    rw [lookup_mergeFields_of_notMem (notMem_of_lookup_eq_none hk), hv]
  exact readsAlike_of_renders (hshows v a hv ha) (hrenders.fields.2 k v b hmerged hb)

/-- What is named reads like what is shown of it then, where it is named whole and as it is read. -/
theorem readsAlike_named (hkeyed : Keyed (.obj params))
    (hrenders : Renders api.menu m.sectionKey.toList (.obj (mergeFields (api.block s) params))
      (.obj (api.shownBlock s'))) {k : String} {v : Json} (hk : params.lookup k = some v) :
    ∃ w, (api.shownBlock s').lookup k = some w ∧
      (ReadsAlike v w ↔ NamesWhole ((api.block s).lookup k) v ∧
        ReadsBack api.menu (m.sectionKey.toList ++ [k]) v) := by
  obtain ⟨hkeys, hfields⟩ := hrenders.fields
  have hmerged := @lookup_mergeFields params (api.block s) k v hkeyed.nodup hk
  obtain ⟨w, hw⟩ := exists_of_missing_iff (hkeys k) hmerged
  exact ⟨w, hw, readsAlike_merged_iff (hkeyed.lookup hk) (hfields k _ w hmerged hw)⟩

/-- After a drift the projected block reads like the one the server shows then exactly when every
block is named whole, and what is named for fields with options as it is read. -/
theorem readsAlike_projected_iff (hkeyed : Keyed (.obj params))
    (hdiff : m.diffEngine.computeDiff (api.shownBlock s) params ≠ none)
    (hblock : api.block s' = mergeFields (api.block s) params)
    (hhas : m.HasBlock (api.stored s')) {after after' : Json}
    (hafter : redactDict m.redactFields (.obj ((api.shownBlock s).overlay params)) = .ok after)
    (hafter' : redactDict m.redactFields (.obj (api.shownBlock s')) = .ok after') :
    ReadsAlike after after' ↔ api.NamesWholeBlocks s params ∧ api.NamesAsRead params := by
  have hrenders := api.renders_block hhas
  rw [hblock] at hrenders
  obtain ⟨hkeys, -⟩ := hrenders.fields
  have hoverlay : ∀ k, ((api.shownBlock s).overlay params).lookup k =
      (params.lookup k).or ((api.shownBlock s).lookup k) := fun k => lookup_overlay hkeyed.nodup
  rw [readsAlike_redacted_iff hafter hafter']
  -- the two blocks have the same fields, at the top
  have hsame : ∀ k, ((api.shownBlock s).overlay params).lookup k = none ↔
      (api.shownBlock s').lookup k = none := by
    intro k
    rw [hoverlay, ← hkeys, lookup_mergeFields_eq_none_iff hkeyed.nodup]
    rcases hk : params.lookup k with _ | v
    · simpa using (api.renders_unnamed hdiff hkeyed hk).1.symm
    · simp
  rw [and_iff_right hsame]
  constructor
  · intro h
    have hboth : ∀ k v, k ∉ m.redactFields → params.lookup k = some v →
        NamesWhole ((api.block s).lookup k) v ∧
          ReadsBack api.menu (m.sectionKey.toList ++ [k]) v := by
      intro k v hredact hk
      obtain ⟨w, hw, hiff⟩ := api.readsAlike_named hkeyed hrenders hk
      have hsent : ((api.shownBlock s).overlay params).lookup k = some v := by
        rw [hoverlay, hk, Option.some_or]
      exact hiff.mp (h k v w hredact hsent hw)
    exact ⟨fun k v hredact hk => (hboth k v hredact hk).1,
      fun k v hredact hk => (hboth k v hredact hk).2⟩
  · rintro ⟨hwhole, hread⟩ k a b hredact ha hb
    rw [hoverlay] at ha
    rcases hk : params.lookup k with _ | v
    · rw [hk, Option.none_or] at ha
      exact api.readsAlike_unnamed hkeyed hdiff hrenders hk ha hb
    · obtain ⟨w, hw, hiff⟩ := api.readsAlike_named hkeyed hrenders hk
      rw [hk, Option.some_or, Option.some.injEq] at ha
      rw [hb, Option.some.injEq] at hw
      rw [← ha, hw]
      exact hiff.mpr ⟨hwhole k v hredact hk, hread k v hredact hk⟩

/-- The prediction and the change report blocks that read alike exactly when nothing drifts, or
every block is named whole and every field with options as it is read. -/
theorem prediction_right_iff (hkeyed : Keyed (.obj params))
    (hcheck : (m.set params true).Returns api.serve s r s₁ t)
    (hreal : (m.set params false).Returns api.serve s r' s' t') :
    (∃ after after', r.after = some after ∧ r'.after = some after' ∧ ReadsAlike after after') ↔
      (∀ path, ¬ m.diffEngine.DriftsAt (api.shownBlock s) params path) ∨
        (api.NamesWholeBlocks s params ∧ api.NamesAsRead params) := by
  rw [← not_exists, ← computeDiff_ne_none_iff hkeyed, not_not]
  by_cases hdiff : m.diffEngine.computeDiff (api.shownBlock s) params = none
  · -- both report the block as it is shown
    refine iff_of_true ?_ (Or.inl hdiff)
    obtain ⟨shown, hshown, hrun, -⟩ := api.served.run_set_settled true hdiff
    obtain ⟨shown', hshown', hrun', -⟩ := api.served.run_set_settled false hdiff
    have hresult := hcheck.1.symm.trans hrun
    have hresult' := hreal.1.symm.trans hrun'
    rw [hshown, Except.ok.injEq] at hshown'
    rw [Prod.mk.injEq, Except.ok.injEq] at hresult hresult'
    refine ⟨shown, shown, ?_, ?_, .refl shown⟩
    · rw [hresult.1]
    · rw [hresult'.1, hshown']
  · obtain ⟨shown, after, -, hafter, hrun⟩ := api.served.run_set_check hdiff
    obtain ⟨hstored, -, -, after', hafter', hreported⟩ := api.served.returns_set_drifted hdiff hreal
    have hresult := hcheck.1.symm.trans hrun
    rw [Prod.mk.injEq, Except.ok.injEq] at hresult
    have hhas : m.HasBlock (api.stored s') := by
      rw [hstored]
      exact m.hasBlock_mergeFields _ _
    have hmerged := api.served.block_of_drifted hdiff hreal
    have hiff := api.readsAlike_projected_iff hkeyed hdiff hmerged hhas hafter hafter'
    rw [or_iff_right hdiff, ← hiff, hresult.1, hreported]
    constructor
    · rintro ⟨a, a', ha, ha', halike⟩
      rw [Option.some.injEq] at ha ha'
      rwa [ha, ha']
    · intro halike
      exact ⟨after, after', rfl, rfl, halike⟩

end RenderedSettings

/-- A server that shows a document by its menu alone. -/
def renderedServer (m : BaseSingletonManager) (menu : List String → Option (Json → Obj))
    (hblock : menu m.sectionKey.toList = none) : RenderedSettings m Obj where
  serve
    | .get .., doc => (.ok (.obj [(m.payloadKey, .obj (renderFields menu [] doc))]), doc)
    | .post _ data _, doc =>
      (.ok (.obj [("result", .str "saved")]), mergeFields doc (postedFields m.payloadKey data))
    | _, doc => (.ok (.obj [("status", .str "ok")]), doc)
  stored doc := doc
  view doc := renderFields menu [] doc
  served :=
    { get_view := fun _ => rfl
      set_merges := fun doc s v s' h => by
        have hstate : mergeFields s (postedFields m.payloadKey [(m.payloadKey, .obj doc)]) = s' :=
          congrArg Prod.snd h
        rw [← hstate, postedFields_self]
      apply_keeps := fun ep opts s v s' h => (congrArg Prod.snd h).symm }
  menu := menu
  menu_block := hblock
  renders doc := renders_renderValue [] (.obj doc)

namespace NetflowSettingsManager

def netflow : BaseSingletonManager := (NetflowSettingsManager ⟨fun _ _ => false⟩).manager

def server : RenderedSettings netflow Obj := renderedServer netflow (fun _ => none) rfl

/-- What is captured, and in which version. -/
def captured (version : String) : Obj :=
  [("capture", .obj [("interfaces", .str "lan"), ("version", .str version)])]

/-- A capture that is named whole is predicted. -/
theorem prediction_right_whole : ∃ r r' s' t t',
    (netflow.set (captured "v5") true).Returns server.serve (captured "v9") r (captured "v9") t ∧
    (netflow.set (captured "v5") false).Returns server.serve (captured "v9") r' s' t' ∧
    ∃ after after', r.after = some after ∧ r'.after = some after' ∧ ReadsAlike after after' := by
  have hcheck : ∃ r t, (netflow.set (captured "v5") true).Returns server.serve (captured "v9") r
      (captured "v9") t := ⟨_, _, rfl, rfl⟩
  have hreal : ∃ r' s' t', (netflow.set (captured "v5") false).Returns server.serve
      (captured "v9") r' s' t' := ⟨_, _, _, rfl, rfl⟩
  obtain ⟨r, t, hcheck⟩ := hcheck
  obtain ⟨r', s', t', hreal⟩ := hreal
  have hkeyed : Keyed (.obj (captured "v5")) :=
    keyed_of_isText (by simp [captured, IsText, AllText])
  refine ⟨r, r', s', t, t', hcheck, hreal, ?_⟩
  apply (server.prediction_right_iff hkeyed hcheck hreal).mpr
  right
  refine ⟨?_, fun key v _ _ rest w options _ _ hmenu => by cases hmenu⟩
  intro key v _ hv
  have hmem := Obj.mem_of_lookup hv
  simp only [captured, List.mem_singleton, Prod.mk.injEq] at hmem
  obtain ⟨rfl, rfl⟩ := hmem
  refine namesWhole_obj_iff.mpr ⟨fun k hk => ?_, fun k v hv => ?_⟩
  · have hstored : fieldsOf ((server.block (captured "v9")).lookup "capture") =
        [("interfaces", .str "lan"), ("version", .str "v9")] := rfl
    rw [List.lookup_eq_none_iff] at hk
    rw [hstored, List.lookup_eq_none_iff]
    simpa using hk
  have hmem := Obj.mem_of_lookup hv
  apply namesWhole_of_flat
  simp only [List.mem_cons, Prod.mk.injEq, List.not_mem_nil, or_false] at hmem
  rcases hmem with ⟨-, rfl⟩ | ⟨-, rfl⟩
  · rfl
  · rfl

/-- A new version alone predicts a capture without its interfaces, which the server keeps. -/
theorem prediction_drops_interfaces : ∃ r r' s' t t' after after',
    (netflow.set [("capture", .obj [("version", .str "v5")])] true).Returns server.serve
      (captured "v9") r (captured "v9") t ∧
    (netflow.set [("capture", .obj [("version", .str "v5")])] false).Returns server.serve
      (captured "v9") r' s' t' ∧
    r.after = some after ∧ r'.after = some after' ∧
    valueAt ["capture", "interfaces"] after = none ∧
    valueAt ["capture", "interfaces"] after' = some (.str "lan") ∧ ¬ ReadsAlike after after' := by
  refine ⟨_, _, _, _, _, _, _, ⟨rfl, rfl⟩, ⟨rfl, rfl⟩, rfl, rfl, rfl, rfl, ?_⟩
  intro h
  have hcapture := (readsAlike_obj_iff.mp h).2 "capture" _ _ rfl rfl
  have hinterfaces := (readsAlike_obj_iff.mp hcapture).1 "interfaces"
  cases hinterfaces.mp rfl

/-- The interfaces there are to capture on. -/
def interfaceOptions (stored : Json) : Obj :=
  ["lan", "opt1"].map fun name =>
    (name, .obj [("selected", .bool (((pyStr stored).toList.splitOn ',').contains name.toList))])

def interfacesMenu : List String → Option (Json → Obj)
  | ["capture", "interfaces"] => some interfaceOptions
  | _ => none

-- Named whole, but not in the order of the options.
example : ∃ r r' s' t t' after after',
    let server := renderedServer netflow interfacesMenu rfl
    let params := [("capture", .obj [("interfaces", .str "opt1,lan"), ("version", .str "v5")])]
    (netflow.set params true).Returns server.serve (captured "v9") r (captured "v9") t ∧
    (netflow.set params false).Returns server.serve (captured "v9") r' s' t' ∧
    r.after = some after ∧ r'.after = some after' ∧
    (valueAt ["capture", "interfaces"] after).map normalizeValue = some "opt1,lan" ∧
    (valueAt ["capture", "interfaces"] after').map normalizeValue = some "lan,opt1" :=
  ⟨_, _, _, _, _, _, _, ⟨rfl, rfl⟩, ⟨rfl, rfl⟩, rfl, rfl, rfl, rfl⟩

end NetflowSettingsManager
end Opnsense
