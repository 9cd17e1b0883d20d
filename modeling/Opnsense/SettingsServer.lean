import Opnsense.Paths
import Opnsense.PendingApply
import Opnsense.Settling

namespace Opnsense
open Interaction DiffEngine

/-- How a stored value is shown under a key: as it is, a flag as a native bool, a choice wrapped in
`selected`, under a `hidden` key as nothing, and a block with all its fields. -/
inductive Displays (hidden : String → Prop) : String → Json → Json → Prop
  | plain (key : String) (v : Json) (hflat : v.isDict = false) : Displays hidden key v v
  | flag (key : String) (b : Bool) : Displays hidden key (.str (if b then "1" else "0")) (.bool b)
  | choice (key s : String) : Displays hidden key (.str s) (.obj [("selected", .str s)])
  | blank (key : String) (v : Json) (hflat : v.isDict = false) (hkey : hidden key) :
    Displays hidden key v (.str "")
  | block (key : String) (stored shown : Obj)
      (hkeys : ∀ k, stored.lookup k = none ↔ shown.lookup k = none)
      (hfields : ∀ k v w, stored.lookup k = some v → shown.lookup k = some w →
        Displays hidden k v w) :
      Displays hidden key (.obj stored) (.obj shown)

namespace BaseSingletonManager

variable (m : BaseSingletonManager)

def getEndpoint : Endpoint := { action := m.endpoint ++ "/" ++ m.getAction }

/-- The fields of the block the manager owns in a document. -/
def ownFields (doc : Obj) : Obj :=
  match m.sectionKey with
  | none => doc
  | some key => fieldsOf (doc.lookup key)

/-- The document has that block. -/
def HasBlock (doc : Obj) : Prop :=
  ∀ key, m.sectionKey = some key → ∃ fields, doc.lookup key = some (.obj fields)

/-- The document a set request carries under the payload key. -/
def sent (params : Obj) : Obj :=
  match m.sectionKey with
  | some key => [(key, .obj params)]
  | none => params

/-- What a server answers a manager: `get` shows a whole document, a set request merges what it
carries into the stored one, and an apply leaves it alone. -/
structure ServedBy {σ : Type} (serve : Appliance σ) (stored view : σ → Obj) : Prop where
  get_view : ∀ s, serve (.get m.getEndpoint) s = (.ok (.obj [(m.payloadKey, .obj (view s))]), s)
  set_merges : ∀ doc s v s',
    serve (.post m.setEndpoint [(m.payloadKey, .obj doc)]) s = (.ok v, s') →
    stored s' = mergeFields (stored s) doc
  apply_keeps : ∀ ep opts s v s', serve (.reconfigure ep opts) s = (.ok v, s') →
    stored s' = stored s

end BaseSingletonManager

/-- A server of the settings of a manager: `get` shows the whole document, a set request merges
what it carries into the stored one, and an apply leaves it alone. -/
structure SettingsServer (m : BaseSingletonManager) (hidden : String → Prop) (σ : Type) where
  serve : Appliance σ
  stored : σ → Obj
  view : σ → Obj
  displays : ∀ s, Displays hidden "" (.obj (stored s)) (.obj (view s))
  get_view : ∀ s, serve (.get m.getEndpoint) s = (.ok (.obj [(m.payloadKey, .obj (view s))]), s)
  set_merges : ∀ doc s v s',
    serve (.post m.setEndpoint [(m.payloadKey, .obj doc)]) s = (.ok v, s') →
    stored s' = mergeFields (stored s) doc
  apply_keeps : ∀ ep opts s v s', serve (.reconfigure ep opts) s = (.ok v, s') →
    stored s' = stored s

variable {hidden : String → Prop} {key : String} {v w : Json}

/-- Of two values that are missing together one is there when the other is. -/
theorem exists_of_missing_iff {a b : Option Json} (h : a = none ↔ b = none) (ha : a = some v) :
    ∃ w, b = some w := by
  rw [← Option.ne_none_iff_exists', ne_eq, ← h, ha]
  exact Option.some_ne_none v

/-- What is stored under a path is shown there. -/
theorem Displays.shown (h : Displays hidden key v w) {path : List String} {v' : Json}
    (hv : valueAt path v = some v') :
    ∃ w', valueAt path w = some w' ∧ Displays hidden (path.getLastD key) v' w' := by
  induction path generalizing key v w with
  | nil =>
    rw [valueAt_nil, Option.some.injEq] at hv
    exact ⟨w, valueAt_nil _, by rwa [← hv]⟩
  | cons k path ih =>
    cases h with
    | plain key v hflat =>
      rw [valueAt_cons_of_flat hflat] at hv
      cases hv
    | flag key b => cases hv
    | choice key s => cases hv
    | blank key v hflat hkey =>
      rw [valueAt_cons_of_flat hflat] at hv
      cases hv
    | block key stored shown hkeys hfields =>
      rw [valueAt_cons_obj, Option.bind_eq_some_iff] at hv
      obtain ⟨field, hfield, hv⟩ := hv
      obtain ⟨w', hw'⟩ := exists_of_missing_iff (hkeys k) hfield
      obtain ⟨w'', hlast, hdisplays⟩ := ih (hfields k field w' hfield hw') hv
      refine ⟨w'', ?_, by rwa [List.getLastD_cons]⟩
      rw [valueAt_cons_obj, hw']
      exact hlast

theorem Displays.isDict_of_block {fields : Obj} (h : Displays hidden key (.obj fields) w) :
    ∃ shown, w = .obj shown ∧ Displays hidden "" (.obj fields) (.obj shown) := by
  cases h with
  | plain key v hflat => cases hflat
  | blank key v hflat hkey => cases hflat
  | block key stored shown hkeys hfields => exact ⟨shown, rfl, .block "" _ _ hkeys hfields⟩

theorem Displays.fields {c d : Obj} (h : Displays hidden key (.obj c) (.obj d)) :
    (∀ k, c.lookup k = none ↔ d.lookup k = none) ∧
      ∀ k v w, c.lookup k = some v → d.lookup k = some w → Displays hidden k v w := by
  cases h with
  | plain key v hflat => cases hflat
  | block key stored shown hkeys hfields => exact ⟨hkeys, hfields⟩

/-- A document shown as it is. -/
theorem Displays.refl (hidden : String → Prop) (key : String) (v : Json) :
    Displays hidden key v v := by
  cases v with
  | obj fields =>
    refine .block key fields fields (fun _ => Iff.rfl) fun k v w hv hw => ?_
    have hmem := Obj.mem_of_lookup hv
    rw [hv, Option.some.injEq] at hw
    rw [← hw]
    exact Displays.refl hidden k v
  | _ => exact .plain key _ rfl
termination_by sizeOf v
decreasing_by
  have hlt := List.sizeOf_lt_of_mem hmem
  simp only [Json.obj.sizeOf_spec, Prod.mk.sizeOf_spec] at hlt ⊢
  omega

namespace BaseSingletonManager

variable (m : BaseSingletonManager)

theorem ownSection_obj (doc : Obj) :
    m.ownSection (.obj doc) = .obj (m.ownFields doc) := by
  unfold ownSection ownFields
  cases m.sectionKey with
  | none => rfl
  | some key =>
    simp only [Obj.getD]
    cases doc.lookup key with
    | none => rfl
    | some v => cases v <;> rfl

theorem payload_eq (params : Obj) :
    m.payload params = [(m.payloadKey, .obj (m.sent params))] := by
  unfold payload sent
  cases m.sectionKey <;> rfl

theorem lookup_sent {key : String} (h : m.sectionKey = some key) (doc params : Obj) :
    (mergeFields doc (m.sent params)).lookup key =
      some (.obj (mergeFields (fieldsOf (doc.lookup key)) params)) := by
  have hsent : m.sent params = [(key, .obj params)] := by
    simp only [sent, h]
  rw [hsent, ← mergeValue_obj]
  exact lookup_mergeFields (by simp) (by simp)

/-- The section is merged as the document is. -/
theorem ownFields_mergeFields (doc params : Obj) :
    m.ownFields (mergeFields doc (m.sent params)) = mergeFields (m.ownFields doc) params := by
  cases hsection : m.sectionKey with
  | none => simp only [ownFields, sent, hsection]
  | some key =>
    simp only [ownFields, hsection, m.lookup_sent hsection, fieldsOf]

theorem hasBlock_mergeFields (doc params : Obj) :
    m.HasBlock (mergeFields doc (m.sent params)) :=
  fun _ hsection => ⟨_, m.lookup_sent hsection doc params⟩

theorem ownFields_sent (fields : Obj) : m.ownFields (m.sent fields) = fields := by
  unfold ownFields sent
  cases m.sectionKey with
  | none => rfl
  | some key => simp [fieldsOf]

/-- A text of one key replaces the one it had. -/
theorem mergeFields_sent (field text text' : String) :
    mergeFields (m.sent [(field, .str text)]) (m.sent [(field, .str text')]) =
      m.sent [(field, .str text')] := by
  have hone : ∀ key v w, mergeFields [(key, v)] [(key, w)] = [(key, mergeValue (some v) w)] := by
    intro key v w
    simp [mergeFields, Obj.set]
  unfold sent
  cases m.sectionKey with
  | none => rw [hone, mergeValue_of_flat rfl]
  | some key => rw [hone, mergeValue_obj, fieldsOf, hone, mergeValue_of_flat rfl]

theorem run_diff {σ : Type} (serve : Appliance σ) (s : σ) (current params : Obj) :
    (m.diff (.obj current) params).run serve s =
      (.ok (m.diffEngine.computeDiff current params), s) := by
  simp [diff]

theorem run_redact {σ : Type} (serve : Appliance σ) (s : σ) {fields : List String}
    {v shown : Json} (h : redactDict fields v = .ok shown) :
    (Prog.ofExcept (redactDict fields v) : M Json).run serve s = (.ok shown, s) := by
  rw [Prog.run_ofExcept, h]

namespace ServedBy

variable {m : BaseSingletonManager} {σ : Type} {serve : Appliance σ} {stored view : σ → Obj}
  (api : m.ServedBy serve stored view) {s s' : σ} {params : Obj} {r : EnsureResult}
  {t : List (Request × Reply)}

include api

theorem run_get (s : σ) : m.get.run serve s = (.ok (.obj (m.ownFields (view s))), s) := by
  have hreply : (await (.get m.getEndpoint)).run serve s =
      (.ok (.obj [(m.payloadKey, .obj (view s))]), s) := by
    rw [run_await, api.get_view]
  have hunwrap : unwrap m.payloadKey (.obj [(m.payloadKey, .obj (view s))]) =
      .ok (.obj (view s)) := by
    simp [unwrap, Obj.getD]
  unfold BaseSingletonManager.get
  rw [Prog.run_bind_of_ok (by rw [run_logError]; exact hreply), hunwrap]
  exact congrArg (fun v => (Except.ok v, s)) (ownSection_obj m _)

/-- A settled block is reported as it is, in check mode and outside, and nothing is sent. -/
theorem run_set_settled (check : Bool)
    (h : m.diffEngine.computeDiff (m.ownFields (view s)) params = none) :
    ∃ shown, redactDict m.redactFields (.obj (m.ownFields (view s))) = .ok shown ∧
      (m.set params check).run serve s =
        (.ok { changed := false, action := .noop, before := some shown, after := some shown }, s) ∧
      OnlyReads ((m.set params check).trace serve s) := by
  obtain ⟨fields, hshown⟩ := redactDict_obj m.redactFields (m.ownFields (view s))
  have hget := api.run_get s
  have hdiff := m.run_diff serve s (m.ownFields (view s)) params
  have hredact := run_redact serve s hshown
  rw [h] at hdiff
  refine ⟨_, hshown, ?_, ?_⟩
  · rw [BaseSingletonManager.set, Prog.run_bind_of_ok hget, Prog.run_bind_of_ok hdiff,
      Prog.run_bind_of_ok hredact]
    rfl
  · have hreads : OnlyReads (m.get.trace serve s) := fun qr hqr =>
      BaseSingletonManager.asks_get.of_mem_trace hqr
    have hquiet : (m.diff (.obj (m.ownFields (view s))) params).trace serve s = [] := by
      rw [BaseSingletonManager.diff, trace_logError, Prog.trace_ofExcept]
    rw [BaseSingletonManager.set, Prog.trace_bind_of_ok hget, Prog.trace_bind_of_ok hdiff,
      Prog.trace_bind_of_ok hredact, hquiet, Prog.trace_ofExcept]
    exact onlyReads_append hreads fun qr hqr => by cases hqr

/-- In check mode a drift is reported with the parameters laid over the shown block. -/
theorem run_set_check (h : m.diffEngine.computeDiff (m.ownFields (view s)) params ≠ none) :
    ∃ shown after, redactDict m.redactFields (.obj (m.ownFields (view s))) = .ok shown ∧
      redactDict m.redactFields (.obj ((m.ownFields (view s)).overlay params)) = .ok after ∧
      (m.set params true).run serve s =
        (.ok { changed := true, action := .updated, before := some shown, after := some after },
          s) := by
  obtain ⟨fields, hshown⟩ := redactDict_obj m.redactFields (m.ownFields (view s))
  obtain ⟨fields', hafter⟩ :=
    redactDict_obj m.redactFields ((m.ownFields (view s)).overlay params)
  obtain ⟨drift, hdrift⟩ := Option.ne_none_iff_exists'.mp h
  have hget := api.run_get s
  have hdiff := m.run_diff serve s (m.ownFields (view s)) params
  rw [hdrift] at hdiff
  refine ⟨_, _, hshown, hafter, ?_⟩
  rw [BaseSingletonManager.set, Prog.run_bind_of_ok hget, Prog.run_bind_of_ok hdiff,
    Prog.run_bind_of_ok (run_redact serve s hshown)]
  have hspread : (Prog.ofExcept (spread (.obj (m.ownFields (view s)))) : M Obj).run serve s =
      (.ok (m.ownFields (view s)), s) := rfl
  simp only [Option.isNone_some, Bool.false_eq_true, if_false, if_true]
  rw [Prog.run_bind_of_ok hspread, Prog.run_bind_of_ok (run_redact serve s hafter)]
  rfl

theorem returns_get {before : Json} (h : m.get.Returns serve s before s' t) :
    before = .obj (m.ownFields (view s)) ∧ s' = s := by
  have hrun := h.1
  rw [api.run_get] at hrun
  cases hrun
  exact ⟨rfl, rfl⟩

theorem apply_keeps_stored {u : Unit} (h : m.apply.Returns serve s u s' t) :
    stored s' = stored s := by
  unfold BaseSingletonManager.apply at h
  split at h
  · obtain ⟨-, rfl, -⟩ := Prog.returns_ret.mp h
    rfl
  · simp only [Prog.returns_bind, returns_logError, returns_await, Prog.pure_eq_ret,
      Prog.returns_ret] at h
    obtain ⟨v, s₁, _, _, ⟨hq, rfl⟩, ⟨-, rfl, rfl⟩, rfl⟩ := h
    exact api.apply_keeps _ _ _ _ _ hq

/-- Outside check mode it is sent, and what the server then shows is reported. -/
theorem returns_set_drifted (h : m.diffEngine.computeDiff (m.ownFields (view s)) params ≠ none)
    (hret : (m.set params false).Returns serve s r s' t) :
    stored s' = mergeFields (stored s) (m.sent params) ∧
      r.changed = true ∧ r.action = .updated ∧
      ∃ after, redactDict m.redactFields (.obj (m.ownFields (view s'))) = .ok after ∧
        r.after = some after := by
  obtain ⟨before, s₁, t₁, t₂, diff, shown, hget, hdiff, -, -, hset⟩ :=
    BaseSingletonManager.returns_set hret
  obtain ⟨rfl, rfl⟩ := api.returns_get hget
  have hsame := hdiff.1
  rw [m.run_diff] at hsame
  cases hsame
  rcases hset with ⟨hnone, -⟩ |
    ⟨-, v, s₂, s₃, t₃, t₄, actual, after, hpost, happly, hreget, hafter, -, rfl⟩
  · exact absurd hnone h
  · obtain ⟨rfl, rfl⟩ := api.returns_get hreget
    rw [payload_eq] at hpost
    refine ⟨?_, rfl, rfl, after, hafter, rfl⟩
    rw [api.apply_keeps_stored happly, api.set_merges _ _ _ _ hpost]

theorem block_of_drifted (h : m.diffEngine.computeDiff (m.ownFields (view s)) params ≠ none)
    (hret : (m.set params false).Returns serve s r s' t) :
    m.ownFields (stored s') = mergeFields (m.ownFields (stored s)) params := by
  calc m.ownFields (stored s') = m.ownFields (mergeFields (stored s) (m.sent params)) :=
        congrArg m.ownFields (api.returns_set_drifted h hret).1
    _ = mergeFields (m.ownFields (stored s)) params := ownFields_mergeFields m _ _

end ServedBy
end BaseSingletonManager

namespace SettingsServer

variable {m : BaseSingletonManager} {σ : Type} (api : SettingsServer m hidden σ) {s s' : σ}

/-- The block of the manager as it is stored, and as it is shown. -/
def block (s : σ) : Obj := m.ownFields (api.stored s)

def shownBlock (s : σ) : Obj := m.ownFields (api.view s)

theorem served : m.ServedBy api.serve api.stored api.view :=
  ⟨api.get_view, api.set_merges, api.apply_keeps⟩

/-- The block is shown field by field. -/
theorem displays_block (h : m.HasBlock (api.stored s)) :
    Displays hidden "" (.obj (api.block s)) (.obj (api.shownBlock s)) := by
  unfold block shownBlock BaseSingletonManager.ownFields
  cases hsection : m.sectionKey with
  | none => exact api.displays s
  | some key =>
    obtain ⟨fields, hfields⟩ := h key hsection
    have hat : valueAt [key] (.obj (api.stored s)) = some (.obj fields) := by
      rw [valueAt_cons_obj, hfields]
      exact valueAt_nil _
    obtain ⟨w, hw, hdisplays⟩ := (api.displays s).shown hat
    obtain ⟨shown, rfl, hshown⟩ := hdisplays.isDict_of_block
    rw [valueAt_cons_obj, Option.bind_eq_some_iff] at hw
    obtain ⟨w', hlookup, hw'⟩ := hw
    rw [valueAt_nil, Option.some.injEq] at hw'
    simp only [hfields, hlookup, hw']
    exact hshown

theorem block_of_not_hasBlock (h : ¬ m.HasBlock (api.stored s)) : api.block s = [] := by
  simp only [BaseSingletonManager.HasBlock, not_forall, not_exists] at h
  obtain ⟨key, hsection, hnone⟩ := h
  simp only [block, BaseSingletonManager.ownFields, hsection]
  rcases hlookup : (api.stored s).lookup key with _ | v
  · rfl
  · cases v with
    | obj fields => exact absurd hlookup (hnone fields)
    | _ => rfl

end SettingsServer
end Opnsense
