import Opnsense.SettingsServer

namespace Opnsense
open Interaction DiffEngine

theorem isText_of_allText {fields : List (String × Json)} (h : AllText fields) {key : String}
    {v : Json} (hmem : (key, v) ∈ fields) : IsText v := by
  induction fields with
  | nil => cases hmem
  | cons kw rest ih =>
    rcases List.mem_cons.mp hmem with rfl | hrest
    · exact h.1
    · exact ih h.2 hrest

theorem isText_valueAt {path : List String} {v w : Json} (h : IsText v)
    (hw : valueAt path v = some w) : IsText w := by
  induction path generalizing v with
  | nil =>
    rw [valueAt_nil, Option.some.injEq] at hw
    rwa [← hw]
  | cons key path ih =>
    cases v with
    | obj fields =>
      rw [valueAt_cons_obj, Option.bind_eq_some_iff] at hw
      obtain ⟨field, hfield, hw⟩ := hw
      exact ih (isText_of_allText h.2 (Obj.mem_of_lookup hfield)) hw
    | _ => cases hw

theorem keyed_of_isText {v : Json} (h : IsText v) : Keyed v := by
  intro path fields hfields
  exact (isText_valueAt h hfields).1

theorem text_of_isText {v : Json} (h : IsText v) (hflat : v.isDict = false) :
    ∃ text, v = .str text := by
  cases v with
  | str text => exact ⟨text, rfl⟩
  | obj fields => cases hflat
  | _ => exact h.elim

section Texts

variable {hidden : String → Prop} (hhidden : ∀ key, hidden key → isWriteOnlyKey key = true)
  {e : DiffEngine} {key held text : String} {shown : Json}

include hhidden

/-- A stored text counts as declared, however it is shown. -/
theorem settled_of_displays (h : Displays hidden key (.str text) shown) :
    Settled e key shown (.str text) := by
  have hsame : ∀ v, normalizeValue v = text → Settled e key v (.str text) := fun v hv =>
    Or.inr (Or.inr (Or.inl (by rw [hv, pyStr_str])))
  cases h with
  | plain key v hflat => exact hsame _ rfl
  | flag key b => exact hsame _ rfl
  | choice key s => exact hsame _ rfl
  | blank key v hflat hkey =>
    by_cases hempty : text = ""
    · exact hsame _ hempty.symm
    · exact Or.inr (Or.inl (by simp [writeOnlyBlank, hempty, hhidden key hkey]))

/-- What is shown of a stored text counts as a declared one only if it is that text or a hash of
it, except under a write-only name. -/
theorem held_of_settled (hkey : isWriteOnlyKey key = false)
    (h : Displays hidden key (.str held) shown) (hsettled : Settled e key shown (.str text)) :
    held = text ∨ e.hashMatches held text = true := by
  -- a name that is not write-only shows the text in one of three ways
  have hnormal : normalizeValue shown = held := by
    cases h with
    | plain key v hflat => rfl
    | flag key b => rfl
    | choice key s => rfl
    | blank key v hflat hhides => exact absurd ((hhidden key hhides).symm.trans hkey) (by simp)
  have hsame : sameOptions shown held text = false := by
    cases h with
    | plain key v hflat => rfl
    | flag key b => rfl
    | choice key s => rfl
    | blank key v hflat hhides => rfl
  rcases hsettled with hdicts | hblank | hequal | hoptions | hhash
  · cases hdicts.1
  · -- only a write-only name is passed over
    exfalso
    unfold writeOnlyBlank at hblank
    split at hblank
    · rw [hkey, Bool.and_false] at hblank
      cases hblank
    · cases hblank
  · exact Or.inl (by rw [← hnormal, hequal, pyStr_str])
  · rw [hnormal, pyStr_str, hsame] at hoptions
    cases hoptions
  · rw [hnormal, pyStr_str] at hhash
    exact Or.inr hhash

end Texts

namespace BaseSingletonManager

variable {m : BaseSingletonManager} {σ : Type} {srv : Appliance σ} {s s' : σ} {params : Obj}
  {u : Unit} {t : List (Request × Reply)}

/-- The checks depend on the arguments alone. -/
theorem returns_validate {state : String} (h : (m.validate state params).Returns srv s u s' t) :
    s' = s ∧ ∀ s₁, (m.validate state params).Returns srv s₁ () s₁ [] := by
  unfold validate at h ⊢
  split at h
  · cases h.1
  · rename_i hstate
    split at h
    · rename_i hvalidators
      obtain ⟨hok, rfl, -⟩ := Prog.returns_ofExcept.mp (returns_logError.mp h)
      refine ⟨rfl, fun s₁ => ?_⟩
      rw [if_neg hstate, if_pos hvalidators, returns_logError, Prog.returns_ofExcept]
      exact ⟨hok, rfl, rfl⟩
    · rename_i hvalidators
      obtain ⟨-, rfl, -⟩ := Prog.returns_ret.mp h
      refine ⟨rfl, fun s₁ => ?_⟩
      rw [if_neg hstate, if_neg hvalidators]
      exact Prog.returns_ret.mpr ⟨rfl, rfl, rfl⟩

namespace ServedBy

variable {serve : Appliance σ} {stored view : σ → Obj} (api : m.ServedBy serve stored view)
  {r : EnsureResult}

include api

/-- Once a call got past the checks, a settled block is reported and left alone. -/
theorem ensure_settled {state : String}
    (hvalid : ∀ s₁, (m.validate state params).Returns serve s₁ () s₁ [])
    (h : m.diffEngine.computeDiff (m.ownFields (view s)) params = none) :
    ∃ r t, (m.ensure state params).Returns serve s r s t ∧ r.changed = false ∧
      r.action = .noop ∧ OnlyReads t := by
  obtain ⟨shown, -, hrun, hreads⟩ := api.run_set_settled false h
  refine ⟨{ changed := false, action := .noop, before := some shown, after := some shown }, _, ?_,
    rfl, rfl, hreads⟩
  exact Prog.returns_bind.mpr ⟨(), s, [], _, hvalid s, ⟨hrun, rfl⟩, rfl⟩

/-- A call that returned found nothing to change, or merged its parameters. -/
theorem returns_ensure {state : String} (h : (m.ensure state params).Returns serve s r s' t) :
    (∀ s₁, (m.validate state params).Returns serve s₁ () s₁ []) ∧
      ((m.diffEngine.computeDiff (m.ownFields (view s)) params = none ∧ s' = s) ∨
        (m.diffEngine.computeDiff (m.ownFields (view s)) params ≠ none ∧
          stored s' = mergeFields (stored s) (m.sent params) ∧
          m.ownFields (stored s') = mergeFields (m.ownFields (stored s)) params)) := by
  obtain ⟨u, s₁, t₁, t₂, hval, hset, rfl⟩ := Prog.returns_bind.mp h
  obtain ⟨rfl, hvalid⟩ := BaseSingletonManager.returns_validate hval
  refine ⟨hvalid, ?_⟩
  by_cases hdiff : m.diffEngine.computeDiff (m.ownFields (view s₁)) params = none
  · obtain ⟨shown, -, hrun, -⟩ := api.run_set_settled false hdiff
    have hstate := hset.1
    rw [hrun] at hstate
    cases hstate
    exact Or.inl ⟨hdiff, rfl⟩
  · exact Or.inr ⟨hdiff, (api.returns_set_drifted hdiff hset).1, api.block_of_drifted hdiff hset⟩

end ServedBy
end BaseSingletonManager

namespace SettingsServer

variable {m : BaseSingletonManager} {hidden : String → Prop} {σ : Type}
  (api : SettingsServer m hidden σ) {s s' : σ} {params : Obj} {r : EnsureResult}
  {t : List (Request × Reply)}

/-- Everything sent is shown as declared by the server that merged it. -/
theorem computeDiff_of_merged (hhidden : ∀ key, hidden key → isWriteOnlyKey key = true)
    (htext : IsText (.obj params)) {old : Obj} (hblock : api.block s = mergeFields old params)
    (hhas : m.HasBlock (api.stored s)) :
    m.diffEngine.computeDiff (api.shownBlock s) params = none := by
  have hkeyed := keyed_of_isText htext
  rw [computeDiff_eq_none_iff_allSettled hkeyed]
  intro key path declared shown hdeclared hshown
  -- what the block has there is what was sent, merged with what it had before
  have hmerged := @valueAt_mergeFields_of_named _ _ _ old hkeyed hdeclared
  rw [← hblock] at hmerged
  obtain ⟨w, hw, hdisplays⟩ := (api.displays_block hhas).shown hmerged
  rw [hshown, Option.some.injEq] at hw
  rw [← hw, List.getLastD_cons] at hdisplays
  by_cases hflat : declared.isDict = false
  · obtain ⟨text, rfl⟩ := text_of_isText (isText_valueAt htext hdeclared) hflat
    rw [mergeValue_of_flat rfl] at hdisplays
    exact settled_of_displays hhidden hdisplays
  · cases declared with
    | obj fields =>
      rw [mergeValue_obj] at hdisplays
      obtain ⟨fields', rfl, -⟩ := hdisplays.isDict_of_block
      exact Or.inl ⟨rfl, rfl⟩
    | _ => exact absurd rfl hflat

/-- The payload overwrites no block when the parameters overwrite none in their own. -/
theorem keepsBlocks_sent (h : KeepsBlocks (some (.obj (api.block s))) (.obj params)) :
    KeepsBlocks (some (.obj (api.stored s))) (.obj (m.sent params)) := by
  unfold block BaseSingletonManager.ownFields at h
  unfold BaseSingletonManager.sent
  cases hsection : m.sectionKey with
  | none => simpa only [hsection] using h
  | some key =>
    simp only [hsection] at h
    apply keepsBlocks_obj
    intro kv hkv
    rw [List.mem_singleton] at hkv
    subst hkv
    exact keepsBlocks_of_fieldsOf h

theorem hasBlock_of_valueAt {key : String} {path : List String} {v : Json}
    (h : valueAt (key :: path) (.obj (api.block s)) = some v) : m.HasBlock (api.stored s) := by
  by_contra hnone
  rw [api.block_of_not_hasBlock hnone] at h
  cases h

/-- A field that the block had is held as declared, or as a hash of what is declared. -/
theorem held_of_returns (hhidden : ∀ key, hidden key → isWriteOnlyKey key = true)
    (htext : IsText (.obj params)) (hstored : IsText (.obj (api.block s)))
    (hblocks : KeepsBlocks (some (.obj (api.block s))) (.obj params))
    (h : (m.ensure "present" params).Returns api.serve s r s' t) {path : List String}
    {text : String} (hpath : valueAt path (.obj params) = some (.str text))
    (hhad : valueAt path (.obj (api.block s)) ≠ none)
    (hname : isWriteOnlyKey (path.getLastD "") = false) :
    ∃ held, valueAt path (.obj (api.block s')) = some (.str held) ∧
      (held = text ∨ m.diffEngine.hashMatches held text = true) := by
  have hkeyed := keyed_of_isText htext
  obtain ⟨w, hw⟩ := Option.ne_none_iff_exists'.mp hhad
  cases path with
  | nil => cases hpath
  | cons key path =>
    rcases (api.served.returns_ensure h).2 with ⟨hdiff, rfl⟩ | ⟨-, -, hmerged⟩
    · -- nothing had drifted: the stored text was shown and counted as the declared one
      have hflat : w.isDict = false := by
        have hdict := hblocks (key :: path) (.str text) w hpath hw
        simpa [Json.isDict] using hdict
      obtain ⟨held, rfl⟩ := text_of_isText (isText_valueAt hstored hw) hflat
      obtain ⟨shown, hshown, hdisplays⟩ :=
        (api.displays_block (api.hasBlock_of_valueAt hw)).shown hw
      rw [List.getLastD_cons] at hdisplays hname
      have hsettled := (computeDiff_eq_none_iff_allSettled hkeyed).mp hdiff key path _ shown hpath
        hshown
      exact ⟨held, hw, held_of_settled hhidden hname hdisplays hsettled⟩
    · refine ⟨text, ?_, Or.inl rfl⟩
      rw [block, hmerged, valueAt_mergeFields_of_named hkeyed hpath, mergeValue_of_flat rfl]

theorem keyed_sent (h : Keyed (.obj params)) : Keyed (.obj (m.sent params)) := by
  unfold BaseSingletonManager.sent
  cases m.sectionKey with
  | none => exact h
  | some section_ =>
    intro path fields hfields
    cases path with
    | nil =>
      rw [valueAt_nil, Option.some.injEq, Json.obj.injEq] at hfields
      rw [← hfields]
      simp
    | cons key path =>
      rw [valueAt_cons_obj, Option.bind_eq_some_iff] at hfields
      obtain ⟨v, hv, hfields⟩ := hfields
      have hmem := Obj.mem_of_lookup hv
      rw [List.mem_singleton, Prod.mk.injEq] at hmem
      rw [hmem.2] at hfields
      exact h path fields hfields

/-- One call settles the document: the same call again reports nothing to do and sends nothing,
every field the block had and the parameters name is held as declared, or as a hash of it, unless
its name is write-only, and what the payload does not name, at any depth, is as it was. -/
theorem ensure_settles (hhidden : ∀ key, hidden key → isWriteOnlyKey key = true)
    (htext : IsText (.obj params)) (hstored : IsText (.obj (api.block s)))
    (hblocks : KeepsBlocks (some (.obj (api.block s))) (.obj params))
    (h : (m.ensure "present" params).Returns api.serve s r s' t) :
    (∃ r' t', (m.ensure "present" params).Returns api.serve s' r' s' t' ∧ r'.changed = false ∧
      r'.action = .noop ∧ OnlyReads t') ∧
    (∀ path text, valueAt path (.obj params) = some (.str text) →
      valueAt path (.obj (api.block s)) ≠ none → isWriteOnlyKey (path.getLastD "") = false →
      ∃ held, valueAt path (.obj (api.block s')) = some (.str held) ∧
        (held = text ∨ m.diffEngine.hashMatches held text = true)) ∧
    ∀ path, valueAt path (.obj (m.sent params)) = none →
      valueAt path (.obj (api.stored s')) = valueAt path (.obj (api.stored s)) := by
  have hkeyed := keyed_of_isText htext
  obtain ⟨hvalid, hcases⟩ := api.served.returns_ensure h
  refine ⟨?_, fun path text hpath hhad hname =>
    api.held_of_returns hhidden htext hstored hblocks h hpath hhad hname, ?_⟩
  · -- settled already, or settled by the merge
    apply api.served.ensure_settled hvalid
    rcases hcases with ⟨hdiff, rfl⟩ | ⟨-, hdoc, hmerged⟩
    · exact hdiff
    · apply api.computeDiff_of_merged hhidden htext hmerged
      rw [hdoc]
      exact m.hasBlock_mergeFields _ _
  · intro path hpath
    rcases hcases with ⟨-, rfl⟩ | ⟨-, hdoc, -⟩
    · rfl
    · rw [hdoc]
      exact valueAt_mergeFields_of_unnamed (keyed_sent hkeyed) (api.keepsBlocks_sent hblocks) hpath

end SettingsServer

/-- A server that shows the document as it stores it. -/
def plainSettings (m : BaseSingletonManager) (hidden : String → Prop) :
    SettingsServer m hidden Obj where
  serve
    | .get .., doc => (.ok (.obj [(m.payloadKey, .obj doc)]), doc)
    | .post _ data _, doc =>
      (.ok (.obj [("result", .str "saved")]), mergeFields doc (postedFields m.payloadKey data))
    | _, doc => (.ok (.obj [("status", .str "ok")]), doc)
  stored doc := doc
  view doc := doc
  displays doc := .refl hidden "" _
  get_view _ := rfl
  set_merges doc s v s' h := by
    have hstate : mergeFields s (postedFields m.payloadKey [(m.payloadKey, .obj doc)]) = s' :=
      congrArg Prod.snd h
    rw [← hstate, postedFields_self]
  apply_keeps ep opts s v s' h := (congrArg Prod.snd h).symm

/-- The sample manager as the owner of one section. -/
def sectionSettings : BaseSingletonManager := { sampleSettings with sectionKey := some "general" }

theorem ensure_settles_section :
    let api := plainSettings sectionSettings fun _ => False
    let doc : Obj :=
      [("general", .obj [("enabled", .str "0"), ("log", .obj [("level", .str "3"),
        ("path", .str "/var/log")])]), ("other", .obj [("enabled", .str "1")])]
    let params : Obj := [("enabled", .str "1"), ("log", .obj [("level", .str "5")])]
    let doc' := mergeFields doc [("general", .obj params)]
    (∃ r t, (sectionSettings.ensure "present" params).Returns api.serve doc' r doc' t ∧
      r.changed = false ∧ r.action = .noop ∧ OnlyReads t) ∧
    valueAt ["general", "log", "path"] (.obj doc') =
      valueAt ["general", "log", "path"] (.obj doc) := by
  intro api doc params doc'
  have htext : IsText (.obj params) := by simp [params, IsText, AllText]
  have hstored : IsText (.obj (api.block doc)) := by
    simp [api, doc, SettingsServer.block, plainSettings, BaseSingletonManager.ownFields,
      sectionSettings, fieldsOf, IsText, AllText]
  have hblocks : KeepsBlocks (some (.obj (api.block doc))) (.obj params) := by
    apply keepsBlocks_obj
    intro kv hkv
    simp only [params, List.mem_cons, List.not_mem_nil, or_false] at hkv
    rcases hkv with rfl | rfl
    · apply keepsBlocks_of_flat
      intro w hw
      cases hw
      rfl
    · apply keepsBlocks_obj
      intro kv hkv
      rw [List.mem_singleton] at hkv
      subst hkv
      apply keepsBlocks_of_flat
      intro w hw
      cases hw
      rfl
  have hret : ∃ r t, (sectionSettings.ensure "present" params).Returns api.serve doc r doc' t :=
    ⟨_, _, rfl, rfl⟩
  obtain ⟨r, t, hret⟩ := hret
  obtain ⟨hagain, -, hkept⟩ := api.ensure_settles (by simp) htext hstored hblocks hret
  exact ⟨hagain, hkept ["general", "log", "path"] rfl⟩

/-- A bcrypt hash of the text `abc`. -/
def storedHash : String := "$2y$06$If6bvum7DFjUnE9p2uDeDu0YHzrHM6tf.iqN8.yx.jNN1ILEf7h0i"

/-- A hash of what is declared is left in its place, and a text declared where a block is stored
replaces the block with all its fields. -/
theorem hash_left_and_block_replaced :
    let m : BaseSingletonManager := { sampleSettings with
      diffEngine := ⟨fun password hash => decide (password = "abc" ∧ hash = storedHash)⟩ }
    let api := plainSettings m fun _ => False
    let hashed : Obj := [("pin", .str storedHash)]
    let nested : Obj := [("log", .obj [("level", .str "3")])]
    (∃ r t, (m.ensure "present" [("pin", .str "abc")]).Returns api.serve hashed r hashed t ∧
      r.action = .noop ∧ valueAt ["pin"] (.obj hashed) ≠ some (.str "abc")) ∧
    ∃ r s' t, (m.ensure "present" [("log", .str "off")]).Returns api.serve nested r s' t ∧
      valueAt ["log", "level"] (.obj [("log", .str "off")]) = none ∧
      valueAt ["log", "level"] (.obj (api.stored s')) ≠
        valueAt ["log", "level"] (.obj (api.stored nested)) := by
  intro m api hashed nested
  refine ⟨⟨_, _, ⟨rfl, rfl⟩, rfl, ?_⟩, _, _, _, ⟨rfl, rfl⟩, rfl, ?_⟩
  · intro h
    have htext : storedHash = "abc" := by simpa [hashed] using h
    revert htext
    decide
  · intro h
    cases h

end Opnsense
