import Opnsense.BadInput
import Opnsense.Verdict
import Opnsense.WriteTargets

namespace Opnsense
namespace BaseManager
open Interaction DiffEngine

variable {m : BaseManager} {a : Arguments} {reply : Reply} {σ : Type} {srv : Appliance σ}
  {s s' : σ} {t : List (Request × Reply)}

def call (m : BaseManager) (a : Arguments) : M EnsureResult :=
  m.ensure a.state a.params a.checkMode a.uuid a.dedupe a.forceUpdate

/-- A uuid that is not empty, and is that of a matching row or the one passed by the caller. -/
def Known (m : BaseManager) (a : Arguments) (reply : Reply) (uuid : String) : Prop :=
  uuid ≠ "" ∧ (a.uuid = some uuid ∨ ∃ row ∈ m.matched a.params reply, rowUuid row = uuid)

/-- Set and del requests go to known uuids, and a matching row without one makes the call raise
before any write. -/
structure Addressed (m : BaseManager) (a : Arguments) (reply : Reply)
    (r : Except Exc EnsureResult) (t : List (Request × Reply)) : Prop where
  named : ∀ qr ∈ t, Aims (m.Known a reply) qr.1
  refused : a.uuid = none → (∃ row ∈ m.matched a.params reply, rowUuid row = "") →
    (∃ e, r = .error e) ∧ ¬ Writes t

/-- Every run of the call in which the search gets this reply is addressed. -/
def WritesAddressed (m : BaseManager) (a : Arguments) (reply : Reply) : Prop :=
  ∀ (σ : Type) (srv : Appliance σ) (s : σ),
    (srv (m.listRequest (m.identity.searchPhrase a.params)) s).1 = reply →
    m.Addressed a reply ((m.call a).run srv s).1 ((m.call a).trace srv s)

/-- The call gets past its own checks. -/
def Proceeds (m : BaseManager) (a : Arguments) : Prop :=
  a.state = "present" ∧ m.accepts a.params ∨ a.state = "absent"

/-- Nothing is sent, or nothing can drift from a document that has an empty uuid. -/
def ChangesNothing (a : Arguments) : Prop :=
  a.checkMode = true ∨ a.state = "present" ∧ a.forceUpdate = false ∧
    ∀ kv ∈ a.params, kv.1 = "uuid" ∧ pyStr kv.2 = ""

/-- Several rows are an error without `dedupe`; otherwise all that match have a uuid. -/
def Identified (m : BaseManager) (a : Arguments) (reply : Reply) : Prop :=
  match a.uuid with
  | none => a.dedupe = false ∧ 2 ≤ (m.matched a.params reply).length ∨
      ∀ row ∈ m.matched a.params reply, rowUuid row ≠ ""
  | some uuid => uuid = "" → ChangesNothing a

theorem run_validate_of_proceeds (h : m.Proceeds a) :
    (m.validate a.state a.params).run srv s = (.ok (), s) := by
  rcases h with ⟨hstate, haccepts⟩ | hstate
  · rw [hstate]
    exact run_validate_of_accepts haccepts
  · rw [hstate]
    simp [validate]

theorem proceeds_of_run_validate
    (h : (m.validate a.state a.params).run srv s = (.ok (), s')) : m.Proceeds a := by
  by_cases hpresent : a.state = "present"
  · rw [hpresent] at h
    exact Or.inl ⟨hpresent, accepts_of_run_validate h⟩
  · by_cases habsent : a.state = "absent"
    · exact Or.inr habsent
    · rw [validate, if_pos ⟨hpresent, habsent⟩] at h
      cases h

/-- A call that does not get past its checks raises without any request. -/
theorem addressed_of_not_proceeds (h : ¬ m.Proceeds a) :
    m.Addressed a reply ((m.call a).run srv s).1 ((m.call a).trace srv s) := by
  rcases hval : (m.validate a.state a.params).run srv s with ⟨e | ⟨⟩, s₁⟩
  · have htrace : (m.call a).trace srv s = (m.validate a.state a.params).trace srv s :=
      Prog.trace_bind_of_error hval _
    have hrun : (m.call a).run srv s = (.error e, s₁) := Prog.run_bind_of_error hval _
    have hreads := @asks_validate m a.params a.state
    rw [htrace, hrun]
    exact ⟨fun qr hqr => aims_of_read _ (hreads.of_mem_trace hqr),
      fun _ _ => ⟨⟨e, rfl⟩, not_writes_of_asks hreads⟩⟩
  · exact absurd (proceeds_of_run_validate hval) h

theorem trace_validate : (m.validate a.state a.params).trace srv s = [] :=
  List.eq_nil_iff_forall_not_mem.mpr fun _ hqr => (quiet_validate a.state).of_mem_trace hqr

/-- Behind the checks: the lookup, and what is made of what it found. -/
def resolveAndConverge (m : BaseManager) (a : Arguments) : M EnsureResult := do
  let (existing, deduped) ← m.resolve a.params a.checkMode a.uuid a.dedupe
  let result ← m.converge a.state a.params a.checkMode a.forceUpdate existing
  return withDedupe result deduped

theorem call_of_proceeds (h : m.Proceeds a) :
    (m.call a).run srv s = (m.resolveAndConverge a).run srv s ∧
      (m.call a).trace srv s = (m.resolveAndConverge a).trace srv s := by
  have hval := @run_validate_of_proceeds m a σ srv s h
  refine ⟨Prog.run_bind_of_ok hval _, ?_⟩
  have htrace : (m.call a).trace srv s = (m.validate a.state a.params).trace srv s ++
      (m.resolveAndConverge a).trace srv s := Prog.trace_bind_of_ok hval _
  rw [htrace, trace_validate, List.nil_append]

/-- What is looked up bears a known uuid, once all matching rows do. -/
theorem known_of_returns_resolve (hnone : a.uuid = none)
    (hreply : (srv (m.listRequest (m.identity.searchPhrase a.params)) s).1 = reply)
    (hall : ∀ row ∈ m.matched a.params reply, rowUuid row ≠ "") {existing : Option Obj}
    {deduped : List String}
    (h : (m.resolve a.params a.checkMode a.uuid a.dedupe).Returns srv s (existing, deduped) s' t) :
    ∀ fields, existing = some fields → m.Known a reply (fields.text "uuid") := by
  intro fields hfields
  rw [hnone] at h
  obtain ⟨found, s₁, t₁, t₂, hlook, hhyd, -⟩ := returns_resolve h
  have hfound := found_of_returns_lookup hreply hlook
  rcases hhead : (m.matched a.params reply).head? with _ | row
  · rw [hfound, hhead] at hhyd
    obtain ⟨hexisting, -, -⟩ := Prog.returns_ret.mp hhyd
    rw [hexisting] at hfields
    cases hfields
  · rw [hfound, hhead] at hhyd
    have hmem : row ∈ m.matched a.params reply := List.mem_of_head? hhead
    obtain ⟨fields', hexisting, htext⟩ := text_of_returns_hydrateNested (hall row hmem) hhyd
    rw [hfields, Option.some.injEq] at hexisting
    rw [hexisting, htext]
    exact ⟨hall row hmem, Or.inr ⟨row, hmem, rfl⟩⟩

/-- With uuids in all matching rows every write is addressed. -/
theorem addressed_of_uuids (hnone : a.uuid = none)
    (hreply : (srv (m.listRequest (m.identity.searchPhrase a.params)) s).1 = reply)
    (hall : ∀ row ∈ m.matched a.params reply, rowUuid row ≠ "") :
    ∀ qr ∈ (m.resolveAndConverge a).trace srv s, Aims (m.Known a reply) qr.1 := by
  intro qr hqr
  rcases Prog.mem_trace_bind hqr with hresolve | ⟨⟨existing, deduped⟩, s₁, hresolve, hrest⟩
  · rw [hnone] at hresolve
    rcases Prog.mem_trace_bind hresolve with hlook | ⟨⟨found, removed⟩, s₂, hlook, hhyd⟩
    · have htail : ∀ row ∈ (m.matched a.params reply).tail,
          m.Known a reply (row.text "uuid") := by
        intro row hrow
        have hmem := List.mem_of_mem_tail hrow
        rw [← rowUuid_eq_text (hall row hmem)]
        exact ⟨hall row hmem, Or.inr ⟨row, hmem, rfl⟩⟩
      exact aims_of_mem_trace_lookup hreply htail hlook
    · have hreads : (m.hydrateNested found a.params >>= fun existing =>
          (pure (existing, removed) : M (Option Obj × List String))).Asks ReadOnly :=
        Prog.asks_bind (asks_hydrateNested found) fun _ => trivial
      exact aims_of_read _ (hreads.of_mem_trace hhyd)
  · have hknown := known_of_returns_resolve hnone hreply hall (Prog.returns_of_run hresolve)
    have hasks : (m.converge a.state a.params a.checkMode a.forceUpdate existing >>= fun result =>
        (pure (withDedupe result deduped) : M EnsureResult)).Asks (Aims (m.Known a reply)) :=
      Prog.asks_bind (asks_converge_aims a.state hknown) fun _ => trivial
    exact hasks.of_mem_trace hrest

/-- Several rows without `dedupe` are an error, raised before any write. -/
theorem addressed_of_many (hnone : a.uuid = none)
    (hreply : (srv (m.listRequest (m.identity.searchPhrase a.params)) s).1 = reply)
    (hdedupe : a.dedupe = false) (hmany : 2 ≤ (m.matched a.params reply).length) :
    m.Addressed a reply ((m.resolveAndConverge a).run srv s).1
      ((m.resolveAndConverge a).trace srv s) := by
  have hreads : (m.resolve a.params a.checkMode a.uuid a.dedupe).Asks ReadOnly :=
    asks_resolve (Or.inr hdedupe)
  rcases hresolve : (m.resolve a.params a.checkMode a.uuid a.dedupe).run srv s with
    ⟨e | ⟨existing, deduped⟩, s₁⟩
  · have htrace : (m.resolveAndConverge a).trace srv s = _ :=
      Prog.trace_bind_of_error hresolve _
    have hrun : (m.resolveAndConverge a).run srv s = (.error e, s₁) :=
      Prog.run_bind_of_error hresolve _
    rw [htrace, hrun]
    exact ⟨fun qr hqr => aims_of_read _ (hreads.of_mem_trace hqr),
      fun _ _ => ⟨⟨e, rfl⟩, not_writes_of_asks hreads⟩⟩
  · -- a lookup that returned has found one row at most
    rw [hnone, hdedupe] at hresolve
    obtain ⟨found, s₂, t₁, t₂, hlook, -, -⟩ := returns_resolve (Prog.returns_of_run hresolve)
    obtain ⟨found', s₃, t₃, t₄, hfind, -, -⟩ := Prog.returns_bind.mp hlook
    obtain ⟨rows, hrows, hlen, -⟩ := returns_findExisting hfind
    rw [matched_of_returns_findMatching hreply hrows] at hlen
    omega

/-- A document with an empty uuid does not drift from one. -/
theorem computeDiff_of_uuids (e : DiffEngine) {current params : Obj}
    (huuid : current.lookup "uuid" = some (.str ""))
    (hparams : ∀ kv ∈ params, kv.1 = "uuid" ∧ pyStr kv.2 = "") :
    e.computeDiff current params = none := by
  apply computeDiff_eq_none_iff.mpr
  intro kv hkv
  obtain ⟨hkey, htext⟩ := hparams kv hkv
  have hblank : writeOnlyBlank "uuid" (.str "") kv.2 = false := by simp [writeOnlyBlank, htext]
  rw [hkey, fieldDrifts_of_value e huuid hblank (Or.inl rfl)]
  simp [valueDrifts, sameOptions, normalizeValue, htext]

theorem asks_converge_settled {existing : Obj}
    (hdiff : m.diffEngine.computeDiff existing a.params = none) :
    (m.converge "present" a.params a.checkMode false (some existing)).Asks ReadOnly := by
  have hnoop : ((m.diffEngine.computeDiff existing a.params).isNone && !false) = true := by
    rw [hdiff]
    rfl
  unfold converge
  rw [if_pos rfl]
  dsimp only
  rw [if_pos hnoop]
  exact Prog.asks_bind (asks_log ..) fun _ => trivial

section Caller

variable {uuid : String} (hsome : a.uuid = some uuid)

include hsome

theorem asks_resolve_some :
    (m.resolve a.params a.checkMode a.uuid a.dedupe).Asks ReadOnly := by
  rw [hsome]
  exact Prog.asks_bind (asks_get _) fun _ => Prog.asks_bind (Prog.asks_ofExcept _) fun _ => trivial

theorem lookup_of_run_resolve_some {existing : Option Obj} {deduped : List String}
    (h : (m.resolve a.params a.checkMode a.uuid a.dedupe).Returns srv s (existing, deduped) s' t) :
    ∃ fields, existing = some fields ∧ fields.lookup "uuid" = some (.str uuid) := by
  rw [hsome] at h
  obtain ⟨item, s₁, t₁, t₂, -, hrest, -⟩ := Prog.returns_bind.mp h
  obtain ⟨fields, s₂, t₃, t₄, hset, hret, -⟩ := Prog.returns_bind.mp hrest
  obtain ⟨hitem, -, -⟩ := Prog.returns_ofExcept.mp hset
  obtain ⟨heq, -, -⟩ := Prog.returns_ret.mp hret
  rw [Prod.mk.injEq] at heq
  exact ⟨fields, heq.1, lookup_of_setItem hitem⟩

/-- What is changed is the resource of the caller's uuid, and nothing is if that is empty. -/
theorem asks_converge_caller (huuid : uuid = "" → ChangesNothing a) {fields : Obj}
    (hlookup : fields.lookup "uuid" = some (.str uuid)) :
    (m.converge a.state a.params a.checkMode a.forceUpdate (some fields)).Asks
      (Aims (m.Known a reply)) := by
  by_cases hempty : uuid = ""
  · rcases huuid hempty with hcheck | ⟨hpresent, hforce, hparams⟩
    · rw [hcheck]
      exact Prog.asks_mono aims_of_read (asks_converge_check a.state _)
    · rw [hempty] at hlookup
      rw [hpresent, hforce]
      exact Prog.asks_mono aims_of_read
        (asks_converge_settled (computeDiff_of_uuids _ hlookup hparams))
  · apply asks_converge_aims
    intro row hrow
    rw [← Option.some.inj hrow, Obj.text_of_lookup hlookup, pyStr_str]
    exact ⟨hempty, Or.inl hsome⟩

theorem addressed_of_caller (huuid : uuid = "" → ChangesNothing a) :
    m.Addressed a reply ((m.resolveAndConverge a).run srv s).1
      ((m.resolveAndConverge a).trace srv s) := by
  refine ⟨fun qr hqr => ?_, fun hnone => ?_⟩
  · rcases Prog.mem_trace_bind hqr with hresolve | ⟨⟨existing, deduped⟩, s₁, hresolve, hrest⟩
    · exact aims_of_read _ ((asks_resolve_some hsome).of_mem_trace hresolve)
    · obtain ⟨fields, rfl, hlookup⟩ :=
        lookup_of_run_resolve_some hsome (Prog.returns_of_run hresolve)
      have hasks : (m.converge a.state a.params a.checkMode a.forceUpdate (some fields) >>=
          fun result => (pure (withDedupe result deduped) : M EnsureResult)).Asks
            (Aims (m.Known a reply)) :=
        Prog.asks_bind (asks_converge_caller hsome huuid hlookup) fun _ => trivial
      exact hasks.of_mem_trace hrest
  · rw [hsome] at hnone
    cases hnone

end Caller

/-- Identified calls are addressed. -/
theorem writesAddressed_of_identified (h : m.Proceeds a → m.Identified a reply) :
    m.WritesAddressed a reply := by
  intro σ srv s hreply
  by_cases hproceeds : m.Proceeds a
  · obtain ⟨hrun, htrace⟩ := @call_of_proceeds m a σ srv s hproceeds
    have hidentified := h hproceeds
    rw [hrun, htrace]
    unfold Identified at hidentified
    rcases huuid : a.uuid with _ | uuid
    · rw [huuid] at hidentified
      rcases hidentified with ⟨hdedupe, hmany⟩ | hall
      · exact addressed_of_many huuid hreply hdedupe hmany
      · refine ⟨addressed_of_uuids huuid hreply hall, fun _ hbare => ?_⟩
        obtain ⟨row, hrow, hnone⟩ := hbare
        exact absurd hnone (hall row hrow)
    · rw [huuid] at hidentified
      exact addressed_of_caller huuid hidentified
  · exact addressed_of_not_proceeds hproceeds

/-- An appliance that refuses nothing; its items are `item`. -/
def obliging (m : BaseManager) (reply : Reply) (item : Obj) : Appliance Unit
  | .get .., _ => (.ok (.obj [(m.config.payloadKey, .obj item)]), ())
  | .search .., _ => (reply, ())
  | _, _ => (.ok (.obj []), ())

section Obliging

variable {item params : Obj} {check dedupe force : Bool} {uuid : Json}

theorem run_get_obliging (uuid : Json) :
    (m.get uuid).run (m.obliging reply item) () = (.ok (.obj item), ()) := by
  have hunwrap : unwrap m.config.payloadKey (.obj [(m.config.payloadKey, .obj item)]) =
      .ok (.obj item) := by
    simp [unwrap, Obj.getD]
  have hreply : (await (.get (m.config.get uuid))).run (m.obliging reply item) () =
      (.ok (.obj [(m.config.payloadKey, .obj item)]), ()) := rfl
  rw [get, Prog.run_bind_of_ok (by rw [run_logError]; exact hreply), hunwrap]
  rfl

theorem run_apply_obliging : m.apply.run (m.obliging reply item) () = (.ok (), ()) := by
  unfold apply
  split
  · rfl
  · rfl

theorem run_create_obliging :
    ∃ r, (m.create params check).run (m.obliging reply item) () = (.ok r, ()) := by
  obtain ⟨after, hafter⟩ := redactDict_obj m.redactFields params
  cases check with
  | true => exact ⟨_, by simp [create, Prog.run_bind, hafter]; rfl⟩
  | false =>
    exact ⟨_, by simp [create, Prog.run_bind, hafter, obliging, run_apply_obliging]; rfl⟩

theorem run_update_obliging :
    ∃ r, (m.update uuid params check).run (m.obliging reply item) () = (.ok r, ()) := by
  obtain ⟨before, hbefore⟩ := redactDict_obj m.redactFields item
  obtain ⟨after, hafter⟩ := redactDict_obj m.redactFields params
  cases check with
  | true => exact ⟨_, by simp [update, Prog.run_bind, run_get_obliging, hbefore, hafter]; rfl⟩
  | false =>
    exact ⟨_, by
      simp [update, Prog.run_bind, run_get_obliging, hbefore, hafter, obliging,
        run_apply_obliging]; rfl⟩

theorem run_delete_obliging :
    ∃ r, (m.delete uuid check).run (m.obliging reply item) () = (.ok r, ()) := by
  obtain ⟨before, hbefore⟩ := redactDict_obj m.redactFields item
  cases check with
  | true => exact ⟨_, by simp [delete, Prog.run_bind, run_get_obliging, asDict, hbefore]; rfl⟩
  | false =>
    exact ⟨_, by
      simp [delete, Prog.run_bind, run_get_obliging, asDict, hbefore, obliging,
        run_apply_obliging]; rfl⟩

theorem run_deleteAll_obliging (uuids : List String) :
    (m.deleteAll uuids).run (m.obliging reply item) () = (.ok (), ()) := by
  induction uuids with
  | nil => rfl
  | cons uuid rest ih =>
    obtain ⟨r, hdelete⟩ := @run_delete_obliging m reply item false (.str uuid)
    rw [deleteAll, Prog.run_bind_of_ok hdelete, ih]

theorem run_hydrateNested_obliging (found : Option Obj) : ∃ existing,
    (m.hydrateNested found params).run (m.obliging reply item) () = (.ok existing, ()) := by
  cases found with
  | none => exact ⟨none, rfl⟩
  | some row =>
    unfold hydrateNested
    dsimp only
    split
    · rw [Prog.run_bind_of_ok (run_get_obliging _)]
      exact ⟨_, rfl⟩
    · exact ⟨_, rfl⟩

/-- A reply with a matching row is a list of rows. -/
theorem reply_of_matched (hrow : m.matched params reply ≠ []) : ∃ rows : List Obj,
    reply = .ok (.arr (rows.map .obj)) ∧
      m.matched params reply = matchingRows m.matchKeys params rows := by
  unfold matched at hrow ⊢
  rcases hrows : rowsOf reply with e | rows
  · rw [hrows] at hrow
    exact absurd rfl hrow
  · rw [hrows] at hrow
    have hne : rows ≠ [] := by
      rintro rfl
      exact hrow rfl
    rcases reply with e | v
    · cases hrows
    · have hread : (iterate v >>= asRows) = .ok rows := hrows
      rcases hitems : iterate v with e | items
      · rw [hitems] at hread
        cases hread
      · rw [hitems] at hread
        have hobjs := asRows_eq_ok hread
        rw [hobjs] at hitems
        exact ⟨rows, by rw [iterate_eq_rows hitems hne], rfl⟩

/-- One row, or more of them and `dedupe`, and the lookup returns. -/
theorem run_lookup_obliging (hrow : m.matched params reply ≠ [])
    (hone : dedupe = true ∨ (m.matched params reply).length ≤ 1) : ∃ found,
    (m.lookup params check dedupe).run (m.obliging reply item) () = (.ok found, ()) := by
  obtain ⟨rows, hreply, hmatched⟩ := reply_of_matched hrow
  have hlist : (m.list (m.identity.searchPhrase params)).run (m.obliging reply item) () =
      (.ok (.arr (rows.map .obj)), ()) := by
    rw [run_list_eq, ← hreply]
    rfl
  by_cases hlen : (matchingRows m.matchKeys params rows).length ≤ 1
  · exact ⟨_, run_lookup_of_list hlist hlen⟩
  · rw [← hmatched] at hlen
    rw [hone.resolve_right hlen]
    have hfind := run_findMatching_of_list params none hlist
    simp only [lookup, if_true, collapseDuplicates, Prog.run_bind_of_ok hfind, ← hmatched]
    rcases hcase : m.matched params reply with _ | ⟨survivor, _ | ⟨row, rest⟩⟩
    · exact absurd hcase hrow
    · exact ⟨_, rfl⟩
    · cases check with
      | true => exact ⟨_, rfl⟩
      | false =>
        refine ⟨(some survivor, (row :: rest).map (·.text "uuid")), ?_⟩
        simp only [Bool.false_eq_true, if_false]
        rw [Prog.run_bind_of_ok (run_log ..), Prog.run_bind_of_ok (run_deleteAll_obliging _)]
        rfl

theorem run_converge_obliging (state : String) (existing : Option Obj) : ∃ r,
    (m.converge state params check force existing).run (m.obliging reply item) () =
      (.ok r, ()) := by
  unfold converge
  split
  · split
    · exact run_create_obliging
    · dsimp only
      split
      · exact ⟨_, rfl⟩
      · exact run_update_obliging
  · split
    · exact ⟨_, rfl⟩
    · exact run_delete_obliging

/-- A text that is shown drifts from every value that is not written so. -/
theorem valueDrifts_text (e : DiffEngine) {text : String} {v : Json} (hne : text ≠ pyStr v)
    (hhash : isHash text = false) : e.valueDrifts (.str text) v = true := by
  have hnormal : normalizeValue (.str text) = text := rfl
  simp [valueDrifts, sameOptions, hnormal, hne, hashMatches, hhash]

/-- Anything but an empty uuid drifts from some document. -/
theorem exists_drift (e : DiffEngine) {kv : String × Json} (hkv : kv ∈ params)
    (hother : ¬ (kv.1 = "uuid" ∧ pyStr kv.2 = "")) :
    ∃ item : Obj, e.computeDiff (item.set "uuid" (.str "")) params ≠ none := by
  have hdrift : ∀ (item : Obj) (text : String),
      (item.set "uuid" (.str "")).lookup kv.1 = some (.str text) → text ≠ pyStr kv.2 →
      isHash text = false → writeOnlyBlank kv.1 (.str text) kv.2 = false →
      e.computeDiff (item.set "uuid" (.str "")) params ≠ none := by
    intro item text hlookup hne hhash hblank hnone
    have hsame := computeDiff_eq_none_iff.mp hnone kv hkv
    rw [fieldDrifts_of_value e hlookup hblank (Or.inl rfl), valueDrifts_text e hne hhash] at hsame
    cases hsame
  by_cases hkey : kv.1 = "uuid"
  · have hne : "" ≠ pyStr kv.2 := fun heq => hother ⟨hkey, heq.symm⟩
    refine ⟨[], hdrift [] "" ?_ hne rfl ?_⟩
    · rw [hkey]
      exact Obj.lookup_set_self _ _ _
    · have hname : isWriteOnlyKey "uuid" = false := by decide
      rw [hkey]
      simp [writeOnlyBlank, hname]
  · -- one of two texts is not the one declared
    by_cases hx : "x" = pyStr kv.2
    · have hne : "y" ≠ pyStr kv.2 := by
        rw [← hx]
        decide
      refine ⟨[(kv.1, .str "y")], hdrift _ "y" ?_ hne (by decide) rfl⟩
      rw [Obj.lookup_set_of_ne _ hkey]
      exact List.lookup_cons_self
    · refine ⟨[(kv.1, .str "x")], hdrift _ "x" ?_ hx (by decide) rfl⟩
      rw [Obj.lookup_set_of_ne _ hkey]
      exact List.lookup_cons_self

/-- A request for the empty uuid is on the trace. -/
def SendsEmpty (t : List (Request × Reply)) : Prop := ∃ qr ∈ t, qr.1.target = some ""

theorem sendsEmpty_of_performed {q : Request} {v : Option Json}
    (hq : q.target = some "") (h : Performed srv m q false s v s' t) : SendsEmpty t := by
  cases h with
  | sent hreply happly => exact ⟨_, List.mem_cons_self .., hq⟩

theorem sendsEmpty_append {t' : List (Request × Reply)} (h : SendsEmpty t') :
    SendsEmpty (t ++ t') := by
  obtain ⟨qr, hqr, htarget⟩ := h
  exact ⟨qr, List.mem_append_right _ hqr, htarget⟩

theorem sendsEmpty_update :
    SendsEmpty ((m.update (.str "") params false).trace (m.obliging reply item) ()) := by
  obtain ⟨r, hrun⟩ := @run_update_obliging m reply item params false (.str "")
  obtain ⟨before, s₁, t₁, t₂, v, -, hperf, htrace, -⟩ := returns_update (Prog.returns_of_run hrun)
  rw [htrace]
  exact sendsEmpty_append (sendsEmpty_of_performed rfl hperf)

theorem sendsEmpty_delete :
    SendsEmpty ((m.delete (.str "") false).trace (m.obliging reply item) ()) := by
  obtain ⟨r, hrun⟩ := @run_delete_obliging m reply item false (.str "")
  obtain ⟨before, s₁, t₁, t₂, v, -, hperf, htrace, -⟩ := returns_delete (Prog.returns_of_run hrun)
  rw [htrace]
  exact sendsEmpty_append (sendsEmpty_of_performed rfl hperf)

theorem sendsEmpty_of_converge (hsome : a.uuid = some "")
    (h : SendsEmpty ((m.converge a.state a.params a.checkMode a.forceUpdate
      (some (item.set "uuid" (.str "")))).trace (m.obliging reply item) ())) :
    SendsEmpty ((m.resolveAndConverge a).trace (m.obliging reply item) ()) := by
  have hresolve : (m.resolve a.params a.checkMode a.uuid a.dedupe).run (m.obliging reply item) () =
      (.ok (some (item.set "uuid" (.str "")), []), ()) := by
    rw [hsome, resolve, Prog.run_bind_of_ok (run_get_obliging _)]
    rfl
  rw [resolveAndConverge, Prog.trace_bind_of_ok hresolve]
  apply sendsEmpty_append
  rw [Prog.trace_bind]
  obtain ⟨qr, hqr, htarget⟩ := h
  exact ⟨qr, List.mem_append_left _ hqr, htarget⟩

/-- An empty uuid of the caller is sent to some appliance, unless it leads to no change. -/
theorem sendsEmpty_of_caller (hsome : a.uuid = some "") (hchanges : ¬ ChangesNothing a) :
    ∃ item, SendsEmpty ((m.resolveAndConverge a).trace (m.obliging reply item) ()) := by
  unfold ChangesNothing at hchanges
  rw [not_or] at hchanges
  obtain ⟨hcheck, hdrift⟩ := hchanges
  rw [Bool.not_eq_true] at hcheck
  -- the document that is fetched takes the uuid of the caller
  have huuid : ∀ item : Obj, (item.set "uuid" (.str "")).getD "uuid" (.str "") = .str "" :=
    fun item => Obj.getD_of_lookup (Obj.lookup_set_self _ _ _) _
  by_cases hpresent : a.state = "present"
  · -- forced, or with a document that drifts
    have hitem : ∃ item : Obj, ¬ ((m.diffEngine.computeDiff (item.set "uuid" (.str ""))
        a.params).isNone && !a.forceUpdate) = true := by
      by_cases hforce : a.forceUpdate = true
      · exact ⟨[], by simp [hforce]⟩
      · rw [Bool.not_eq_true] at hforce
        have hother : ∃ kv ∈ a.params, ¬ (kv.1 = "uuid" ∧ pyStr kv.2 = "") := by
          by_contra hnone
          push Not at hnone
          exact hdrift ⟨hpresent, hforce, hnone⟩
        obtain ⟨kv, hkv, hother⟩ := hother
        obtain ⟨item, hdiff⟩ := exists_drift m.diffEngine hkv hother
        exact ⟨item, by simpa [hforce] using hdiff⟩
    obtain ⟨item, hupdate⟩ := hitem
    refine ⟨item, sendsEmpty_of_converge hsome ?_⟩
    unfold converge
    rw [if_pos hpresent]
    dsimp only
    rw [if_neg hupdate, huuid, hcheck]
    exact sendsEmpty_update
  · refine ⟨[], sendsEmpty_of_converge hsome ?_⟩
    unfold converge
    rw [if_neg hpresent]
    dsimp only
    rw [huuid, hcheck]
    exact sendsEmpty_delete

/-- A call that is not addressed by its rows returns there. -/
theorem run_resolveAndConverge_obliging (hnone : a.uuid = none)
    (hrow : m.matched a.params reply ≠ [])
    (hone : a.dedupe = true ∨ (m.matched a.params reply).length ≤ 1) : ∃ r,
    (m.resolveAndConverge a).run (m.obliging reply item) () = (.ok r, ()) := by
  obtain ⟨⟨found, deduped⟩, hlook⟩ := @run_lookup_obliging m reply item a.params a.checkMode
    a.dedupe hrow hone
  obtain ⟨existing, hhyd⟩ := @run_hydrateNested_obliging m reply item a.params found
  have hresolve : (m.resolve a.params a.checkMode a.uuid a.dedupe).run (m.obliging reply item) () =
      (.ok (existing, deduped), ()) := by
    rw [hnone, resolve, Prog.run_bind_of_ok hlook, Prog.run_bind_of_ok hhyd]
    rfl
  obtain ⟨r, hconverge⟩ := @run_converge_obliging m reply item a.params a.checkMode
    a.forceUpdate a.state existing
  refine ⟨withDedupe r deduped, ?_⟩
  rw [resolveAndConverge, Prog.run_bind_of_ok hresolve, Prog.run_bind_of_ok hconverge]
  rfl

end Obliging

/-- Whatever else the appliance answers, the writes of a call are addressed exactly when the call
is refused by its own checks or is identified. -/
theorem writesAddressed_iff (m : BaseManager) (a : Arguments) (reply : Reply) :
    m.WritesAddressed a reply ↔ (m.Proceeds a → m.Identified a reply) := by
  refine ⟨fun h hproceeds => ?_, writesAddressed_of_identified⟩
  unfold Identified
  rcases huuid : a.uuid with _ | uuid
  · by_contra hidentified
    rw [not_or] at hidentified
    obtain ⟨hmany, hbare⟩ := hidentified
    push Not at hbare
    obtain ⟨row, hrow, hnone⟩ := hbare
    have hone : a.dedupe = true ∨ (m.matched a.params reply).length ≤ 1 := by
      by_contra hnot
      rw [not_or, Bool.not_eq_true] at hnot
      exact hmany ⟨hnot.1, by omega⟩
    obtain ⟨r, hrun⟩ := @run_resolveAndConverge_obliging m a reply [] huuid
      (List.ne_nil_of_mem hrow) hone
    obtain ⟨⟨e, herror⟩, -⟩ := (h Unit (m.obliging reply []) () rfl).refused huuid
      ⟨row, hrow, hnone⟩
    rw [(call_of_proceeds hproceeds).1, hrun] at herror
    cases herror
  · rintro rfl
    by_contra hchanges
    obtain ⟨item, qr, hqr, htarget⟩ := @sendsEmpty_of_caller m a reply huuid hchanges
    rw [← (call_of_proceeds hproceeds).2] at hqr
    exact ((h Unit (m.obliging reply item) () rfl).named qr hqr "" htarget).1 rfl

/-- A row without a uuid sends the del request to the collection. -/
theorem bare_row_deletes :
    let a : Arguments := { state := "absent", params := [("name", .str "web")] }
    let reply : Reply := .ok (.arr [.obj [("name", .str "web")]])
    SendsEmpty ((sampleManager.call a).trace (sampleManager.obliging reply []) ()) ∧
      ¬ sampleManager.WritesAddressed a reply := by
  intro a reply
  have hsends : SendsEmpty ((sampleManager.call a).trace (sampleManager.obliging reply []) ()) :=
    ⟨_, List.mem_cons_of_mem _ (List.mem_cons_of_mem _ (List.mem_cons_self ..)), rfl⟩
  refine ⟨hsends, fun h => ?_⟩
  obtain ⟨qr, hqr, htarget⟩ := hsends
  exact ((h Unit (sampleManager.obliging reply []) () rfl).named qr hqr "" htarget).1 rfl

end BaseManager
end Opnsense
