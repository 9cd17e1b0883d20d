import Opnsense.BaseManager
import Opnsense.Interaction.Twins
import Opnsense.Redactor

namespace Opnsense
open Interaction

/-- The rows of the reply to a search. -/
def rowsIn (reply : Reply) : Except Exc (List Obj) := do
  let body ← reply
  let items ← iterate body
  asRows items

namespace ValidatorRegistry

variable (reg : ValidatorRegistry)

/-- What the check of a field says of a value that it rejects. -/
def complaint (field : String) (spec : FieldSpec) (value : Json) : Option String :=
  match reg.validateField [(field, value)] field spec with
  | .error exc => some exc.text
  | .ok () => none

/-- A check reads the value of its own field only. -/
theorem validateField_eq (params : Obj) (field : String) (spec : FieldSpec) :
    reg.validateField params field spec =
      reg.validateField [(field, params.getD field .null)] field spec := by
  have hget : Obj.getD [(field, params.getD field .null)] field .null =
      params.getD field .null := by
    simp [Obj.getD]
  cases spec with
  | dict required fields => simp only [validateField, hget]
  | rule r => simp only [validateField, hget]

/-- The first field of the specification whose check fails. -/
def rejectedAt (params : Obj) (specs : List (String × FieldSpec)) : Option (String × FieldSpec) :=
  specs.find? fun fs => (reg.complaint fs.1 fs.2 (params.getD fs.1 .null)).isSome

theorem complaint_of_ok {params : Obj} {field : String} {spec : FieldSpec}
    (h : reg.validateField params field spec = .ok ()) :
    reg.complaint field spec (params.getD field .null) = none := by
  rw [complaint, ← validateField_eq, h]

theorem complaint_of_error {params : Obj} {field : String} {spec : FieldSpec} {exc : Exc}
    (h : reg.validateField params field spec = .error exc) :
    reg.complaint field spec (params.getD field .null) = some exc.text := by
  rw [complaint, ← validateField_eq, h]

/-- The error of the parameters is that of the first field whose check fails. -/
theorem validateParams_eq (params : Obj) (specs : List (String × FieldSpec)) :
    match reg.rejectedAt params specs with
    | none => reg.validateParams params specs = .ok ()
    | some (field, spec) => ∃ exc, reg.validateParams params specs = .error exc ∧
        reg.complaint field spec (params.getD field .null) = some exc.text := by
  induction specs with
  | nil => simp [rejectedAt, validateParams]
  | cons fs rest ih =>
    obtain ⟨field, spec⟩ := fs
    cases hcheck : reg.validateField params field spec with
    | error exc =>
      have hsaid := reg.complaint_of_error hcheck
      have hfirst : reg.rejectedAt params ((field, spec) :: rest) = some (field, spec) := by
        simp [rejectedAt, hsaid]
      rw [hfirst]
      exact ⟨exc, by simp [validateParams, hcheck], hsaid⟩
    | ok u =>
      -- a field that passes leaves both to the fields behind it
      have hlater : reg.rejectedAt params ((field, spec) :: rest) = reg.rejectedAt params rest := by
        simp [rejectedAt, reg.complaint_of_ok hcheck]
      have hrest : reg.validateParams params ((field, spec) :: rest) =
          reg.validateParams params rest := by
        simp [validateParams, hcheck]
      rw [hlater, hrest]
      exact ih

end ValidatorRegistry

namespace BaseManager

variable {m : BaseManager} {params params' : Obj} {replies : ℕ → Reply} {n : ℕ}
  {checkMode dedupe forceUpdate : Bool}

/-- The appliance shows no row of the identity. -/
def Missing (m : BaseManager) (params : Obj) (reply : Reply) : Prop :=
  ∀ rows, rowsIn reply = .ok rows → ∀ row ∈ rows, sameIdentity m.matchKeys params row = false

section Lookup

theorem run_list (phrase : String) :
    (m.list phrase).run (replaying replies) n = (replies n, n + 1) := by
  cases haction : m.listAction <;> simp [list, haction, replaying]

theorem twins_list (phrase phrase' : String) :
    Prog.Twins (replaying replies) n (m.list phrase) (m.list phrase') := by
  cases haction : m.listAction with
  | some action =>
    simp only [list, haction]
    exact Prog.twins_call replies n _ _ (Prog.Twins.refl _)
  | none =>
    simp only [list, haction]
    exact Prog.twins_onError (Prog.twins_call replies n _ _ (Prog.Twins.refl _)) _

theorem matchingRows_of_missing {rows : List Obj} (h : Missing m params (replies n))
    (hrows : rowsIn (replies n) = .ok rows) : matchingRows m.matchKeys params rows = [] := by
  refine List.eq_nil_iff_forall_not_mem.mpr fun row hrow => ?_
  obtain ⟨hmem, hsame⟩ := mem_matchingRows.mp hrow
  rw [h rows hrows row hmem] at hsame
  cases hsame

/-- Both searches find nothing, or fail alike. -/
theorem twins_findMatching (phrase phrase' : Option String) (h : Missing m params (replies n))
    (h' : Missing m params' (replies n)) :
    Prog.Twins (replaying replies) n (m.identity.findMatching params m.list phrase)
      (m.identity.findMatching params' m.list phrase') := by
  refine Prog.twins_bind (twins_list _ _) fun v s' hlist => ?_
  obtain ⟨hbody, rfl⟩ := Prod.mk.inj ((run_list _).symm.trans hlist)
  refine Prog.twins_bind (Prog.Twins.refl _) fun items s' hiterate => ?_
  obtain ⟨hitems, rfl⟩ := Prod.mk.inj ((Prog.run_ofExcept _).symm.trans hiterate)
  refine Prog.twins_bind (Prog.Twins.refl _) fun rows s' hasRows => ?_
  obtain ⟨hrows, rfl⟩ := Prod.mk.inj ((Prog.run_ofExcept _).symm.trans hasRows)
  have hall : rowsIn (replies n) = .ok rows := by
    rw [rowsIn, hbody]
    exact (congrArg (Except.bind · asRows) hitems).trans hrows
  have hkeys : m.identity.matchKeys = m.matchKeys := rfl
  -- the same rows were read, and neither identity is among them
  rw [hkeys, matchingRows_of_missing h hall, matchingRows_of_missing h' hall]
  exact Prog.Twins.refl _

theorem run_findMatching_of_missing (phrase : Option String) (h : Missing m params (replies n)) :
    (m.identity.findMatching params m.list phrase).run (replaying replies) n =
      ((rowsIn (replies n)).map fun _ => [], n + 1) := by
  rw [IdentityResolver.findMatching, Prog.run_bind, run_list]
  cases hreply : replies n with
  | error exc => rfl
  | ok body =>
    have hall : rowsIn (.ok body) = (iterate body).bind asRows := rfl
    cases hitems : iterate body with
    | error exc => simp [hall, hitems, Prog.run_bind, Except.bind, Except.map]
    | ok items =>
      cases hrows : asRows items with
      | error exc => simp [hall, hitems, hrows, Prog.run_bind, Except.bind, Except.map]
      | ok rows =>
        have hlisted : rowsIn (replies n) = .ok rows := by
          rw [hreply, hall, hitems]
          exact hrows
        have hnone : matchingRows m.identity.matchKeys params rows = [] :=
          matchingRows_of_missing h hlisted
        simp [hall, hitems, hrows, hnone, Prog.run_bind, Except.bind, Except.map]

theorem found_of_missing {phrase : Option String} {found : List Obj} {s' : ℕ}
    (h : Missing m params (replies n))
    (hrun : (m.identity.findMatching params m.list phrase).run (replaying replies) n =
      (.ok found, s')) : found = [] ∧ ∃ rows, rowsIn (replies n) = .ok rows := by
  rw [run_findMatching_of_missing phrase h] at hrun
  obtain ⟨hfound, -⟩ := Prod.mk.inj hrun
  cases hrows : rowsIn (replies n) with
  | error exc =>
    rw [hrows] at hfound
    cases hfound
  | ok rows =>
    rw [hrows] at hfound
    cases hfound
    exact ⟨rfl, rows, rfl⟩

theorem twins_lookup (h : Missing m params (replies n)) (h' : Missing m params' (replies n)) :
    Prog.Twins (replaying replies) n (m.lookup params checkMode dedupe)
      (m.lookup params' checkMode dedupe) := by
  cases dedupe with
  | true =>
    refine Prog.twins_bind (twins_findMatching _ _ h h') fun found s' hrun => ?_
    obtain ⟨rfl, -⟩ := found_of_missing h hrun
    exact Prog.Twins.refl _
  | false =>
    refine Prog.twins_bind ?_ fun _ _ _ => Prog.Twins.refl _
    have hfind : Prog.Twins (replaying replies) n
        (do
          let found ← m.identity.findMatching params m.list (some (m.identity.searchPhrase params))
          let uuids ← .ofExcept (if found.length ≤ 1 then .ok [] else found.mapM uuidOf)
          return (found, uuids))
        (do
          let found ← m.identity.findMatching params' m.list
            (some (m.identity.searchPhrase params'))
          let uuids ← .ofExcept (if found.length ≤ 1 then .ok [] else found.mapM uuidOf)
          return (found, uuids)) :=
      Prog.twins_bind (twins_findMatching _ _ h h') fun _ _ _ => Prog.Twins.refl _
    refine Prog.twins_bind (Prog.twins_rescue hfind _) fun ⟨found, uuids⟩ s' hrun => ?_
    obtain ⟨found', s₁, hrows, huuids⟩ :=
      Prog.run_bind_eq_ok.mp ((run_logErrorUnless _ _ _ _).symm.trans hrun)
    obtain ⟨rfl, -⟩ := found_of_missing h hrows
    cases huuids
    exact Prog.Twins.refl _

/-- A lookup that returns has read the rows, and found none. -/
theorem lookup_of_missing {x : Option Obj × List String} {s' : ℕ}
    (h : Missing m params (replies n))
    (hrun : (m.lookup params checkMode dedupe).run (replaying replies) n = (.ok x, s')) :
    x = (none, []) ∧ ∃ rows, rowsIn (replies n) = .ok rows := by
  cases dedupe with
  | true =>
    obtain ⟨found, s₁, hfind, hrest⟩ := Prog.run_bind_eq_ok.mp hrun
    obtain ⟨rfl, hrows⟩ := found_of_missing h hfind
    obtain ⟨hx, -⟩ := Prod.mk.inj hrest
    exact ⟨(Except.ok.inj hx).symm, hrows⟩
  | false =>
    obtain ⟨existing, s₁, hexisting, hrest⟩ := Prog.run_bind_eq_ok.mp hrun
    obtain ⟨⟨found, uuids⟩, s₂, hlogged, hmatch⟩ := Prog.run_bind_eq_ok.mp hexisting
    obtain ⟨found', s₃, hfind, huuids⟩ :=
      Prog.run_bind_eq_ok.mp ((run_logErrorUnless _ _ _ _).symm.trans hlogged)
    obtain ⟨rfl, hrows⟩ := found_of_missing h hfind
    cases huuids
    cases hmatch
    cases hrest
    exact ⟨rfl, hrows⟩

theorem run_lookup_of_missing (h : Missing m params (replies n)) {rows : List Obj}
    (hrows : rowsIn (replies n) = .ok rows) :
    ∃ s', (m.lookup params checkMode dedupe).run (replaying replies) n = (.ok (none, []), s') := by
  have hfind : ∀ phrase, (m.identity.findMatching params m.list phrase).run
      (replaying replies) n = (.ok [], n + 1) := by
    intro phrase
    rw [run_findMatching_of_missing phrase h, hrows]
    rfl
  cases dedupe with
  | true => exact ⟨n + 1, Prog.run_bind_of_ok (hfind _) _⟩
  | false =>
    have hexisting : (m.identity.findExisting params m.list).run (replaying replies) n =
        (.ok none, n + 1) := by
      refine (Prog.run_bind_of_ok (a := (([], []) : List Obj × List Json)) ?_ _).trans rfl
      rw [run_logErrorUnless, Prog.run_bind_of_ok (hfind _)]
      rfl
    exact ⟨n + 1, Prog.run_bind_of_ok hexisting _⟩

end Lookup

section Create

theorem lookup_matchKeys_buildExtra (action : String) (r : IdentityResolver) (x : LogExtra) :
    (buildExtra action (r.matchLogFields params) x).lookup "match_keys" =
      some (.obj (r.matchVals params)) := by
  obtain ⟨uuid, before, after, changed, checkMode, error⟩ := x
  cases checkMode <;> cases changed <;> cases uuid <;>
    simp [buildExtra, IdentityResolver.matchLogFields, List.lookup_cons]

/-- The last record carries the match keys `vals`. -/
def LastNames (vals : Obj) (events : List Event) : Prop :=
  ∃ record, events.getLast? = some (.log record) ∧
    record.extra.lookup "match_keys" = some (.obj vals)

theorem lastNames_append {vals : Obj} {before events : List Event} (h : LastNames vals events) :
    LastNames vals (before ++ events) := by
  obtain ⟨record, hlast, hvals⟩ := h
  exact ⟨record, by rw [List.getLast?_append, hlast]; rfl, hvals⟩

theorem lastNames_logError {σ α β : Type} {srv : Appliance σ} {s : σ} {vals : Obj} {p : M α}
    {message : Exc → String} {extra : Exc → Obj} {f : α → M β}
    (hextra : ∀ exc, (extra exc).lookup "match_keys" = some (.obj vals))
    (hf : ∀ a s', LastNames vals ((f a).events srv s')) :
    LastNames vals ((logError p message extra >>= f).events srv s) := by
  rcases hrun : p.run srv s with ⟨exc | a, s'⟩
  -- a failure is the last thing logged, otherwise what follows is
  · have hlogged : (logError p message extra).run srv s = (.error exc, s') := by
      rw [run_logError, hrun]
    rw [Prog.events_bind_of_error hlogged, logError, Prog.events_onError_of_error hrun]
    exact ⟨_, List.getLast?_concat, hextra exc⟩
  · have hlogged : (logError p message extra).run srv s = (.ok a, s') := by
      rw [run_logError, hrun]
    rw [Prog.events_bind_of_ok hlogged]
    exact lastNames_append (hf a s')

/-- The last record of a creation carries the texts of its match keys, whatever it comes to. -/
theorem create_names_matchVals {σ : Type} (srv : Appliance σ) (s : σ) :
    LastNames (m.identity.matchVals params) ((m.create params checkMode).events srv s) := by
  cases checkMode with
  | true => exact ⟨_, rfl, lookup_matchKeys_buildExtra ..⟩
  | false =>
    refine lastNames_logError (fun exc => lookup_matchKeys_buildExtra ..) fun uuid s' => ?_
    exact ⟨_, rfl, lookup_matchKeys_buildExtra ..⟩

/-- Creations whose match keys have the same texts differ in the request only. -/
theorem twins_create (hafter : redactDict m.redactFields (.obj params) =
      redactDict m.redactFields (.obj params'))
    (htexts : ∀ k ∈ m.matchKeys, params.text k = params'.text k) :
    Prog.Twins (replaying replies) n (m.create params checkMode) (m.create params' checkMode) := by
  have hvals : m.identity.matchVals params = m.identity.matchVals params' := by
    refine List.map_congr_left fun k hk => ?_
    rw [htexts k hk]
  have hlabel : m.identity.matchLabel params = m.identity.matchLabel params' := by
    refine congrArg (" ".intercalate ·) (List.map_congr_left fun k hk => ?_)
    rw [htexts k hk]
  have hfields : m.identity.matchLogFields params = m.identity.matchLogFields params' := by
    rw [IdentityResolver.matchLogFields, hvals]
    rfl
  unfold create
  rw [hafter, hlabel, hfields]
  refine Prog.twins_bind (Prog.Twins.refl _) fun after s' hredact => ?_
  cases checkMode with
  | true => exact Prog.Twins.refl _
  | false =>
    -- the payloads may differ, but the replies do not depend on them
    refine Prog.twins_bind (Prog.twins_onError ?_ _) fun uuid s' _ => Prog.Twins.refl _
    obtain ⟨-, rfl⟩ := Prod.mk.inj ((Prog.run_ofExcept _).symm.trans hredact)
    exact Prog.twins_call replies n _ _ (Prog.Twins.refl _)

end Create

section Validate

theorem run_validate_of_accepted (h : m.registry.rejectedAt params m.validators = none)
    {σ : Type} (srv : Appliance σ) (s : σ) :
    (m.validate "present" params).run srv s = (.ok (), s) ∧
      (m.validate "present" params).events srv s = [] := by
  have hparams := m.registry.validateParams_eq params m.validators
  rw [h] at hparams
  by_cases hvalidators : m.validators = []
  · simp [validate, hvalidators]
  · simp [validate, hvalidators, hparams, logError, Prog.ofExcept, Prog.onError, Prog.rescue]

theorem run_validate_of_rejected {field : String} {spec : FieldSpec}
    (h : m.registry.rejectedAt params m.validators = some (field, spec))
    {σ : Type} (srv : Appliance σ) (s : σ) :
    ∃ exc, m.registry.complaint field spec (params.getD field .null) = some exc.text ∧
      (m.validate "present" params).run srv s = (.error exc, s) ∧
      (m.validate "present" params).events srv s =
        [.log ⟨.error, s!"validation failed {m.className}: {exc.text}",
          [("action", .str "validation_failed"), ("endpoint", .str m.config.base),
            ("error", .str exc.text)]⟩] := by
  have hparams := m.registry.validateParams_eq params m.validators
  rw [h] at hparams
  obtain ⟨exc, herr, hsaid⟩ := hparams
  have hvalidators : m.validators ≠ [] := by
    intro hnil
    simp [hnil, ValidatorRegistry.rejectedAt] at h
  refine ⟨exc, hsaid, ?_, ?_⟩
  · simp [validate, hvalidators, herr]
  · simp [validate, hvalidators, herr, logError, Prog.ofExcept, Prog.onError, Prog.rescue]

end Validate

end BaseManager

section SameOutside

variable {hidden : String → Prop} {d d' : Obj}

theorem keys_eq_of_sameOutside (h : SameOutside hidden d d') : d.map (·.1) = d'.map (·.1) := by
  induction h with
  | nil => rfl
  | cons hkv _ ih => rw [List.map_cons, List.map_cons, hkv.1, ih]

theorem getD_of_sameOutside (h : SameOutside hidden d d') {key : String} (hkey : ¬ hidden key)
    (default : Json) : d.getD key default = d'.getD key default := by
  have hlookup : d.lookup key = d'.lookup key := by
    induction h with
    | nil => rfl
    | @cons kv kv' rest rest' hkv _ ih =>
      obtain ⟨k, v⟩ := kv
      obtain ⟨k', v'⟩ := kv'
      obtain ⟨rfl, hvalue⟩ := hkv
      rw [List.lookup_cons, List.lookup_cons, ih]
      by_cases hk : key = k
      · subst hk
        obtain rfl : v = v' := hvalue.resolve_left hkey
        rfl
      · simp only [beq_false_of_ne hk]
  rw [Obj.getD, Obj.getD, hlookup]

/-- Redacting the fields leaves nothing of what two dicts differ in. -/
theorem redactDict_of_sameOutside {fields : List String} (hnodup : (d.map (·.1)).Nodup)
    (h : SameOutside (· ∈ fields) d d') :
    redactDict fields (.obj d) = redactDict fields (.obj d') := by
  rw [redactDict_eq_map fields hnodup,
    redactDict_eq_map fields (keys_eq_of_sameOutside h ▸ hnodup)]
  have hmap : d.map (fun kv => (kv.1, if kv.1 ∈ fields then redacted kv.1 else kv.2)) =
      d'.map (fun kv => (kv.1, if kv.1 ∈ fields then redacted kv.1 else kv.2)) := by
    clear hnodup
    induction h with
    | nil => rfl
    | @cons kv kv' rest rest' hkv _ ih =>
      obtain ⟨hkey, hvalue⟩ := hkv
      rw [List.map_cons, List.map_cons, ih, ← hkey]
      by_cases hk : kv.1 ∈ fields
      · rw [if_pos hk, if_pos hk]
      · rw [if_neg hk, if_neg hk, hvalue.resolve_left hk]
  rw [hmap]

end SameOutside

/-- What a call leaves to be seen: its result, if it returns one, and its log records. -/
def shown (replies : ℕ → Reply) (p : M EnsureResult) : Option EnsureResult × List Event :=
  ((p.run (replaying replies) 0).1.toOption, p.events (replaying replies) 0)

namespace BaseManager

variable {m : BaseManager} {params params' : Obj} {replies : ℕ → Reply}
  {checkMode dedupe forceUpdate : Bool}

/-- Neither call shows a redacted field: the field they are rejected at is none, or its check says
the same of both values; the match keys among the redacted fields have the same texts, unless the
search comes to nothing. -/
def Hidden (m : BaseManager) (params params' : Obj) (reply : Reply) : Prop :=
  match m.registry.rejectedAt params m.validators with
  | some (field, spec) => field ∈ m.redactFields →
      m.registry.complaint field spec (params.getD field .null) =
        m.registry.complaint field spec (params'.getD field .null)
  | none => (∃ rows, rowsIn reply = .ok rows) →
      ∀ k ∈ m.matchKeys, k ∈ m.redactFields → params.text k = params'.text k

theorem shown_of_rejected {field : String} {spec : FieldSpec}
    (h : m.registry.rejectedAt params m.validators = some (field, spec)) :
    ∃ text, m.registry.complaint field spec (params.getD field .null) = some text ∧
      shown replies (m.ensure "present" params checkMode none dedupe forceUpdate) =
        (none, [.log ⟨.error, s!"validation failed {m.className}: {text}",
          [("action", .str "validation_failed"), ("endpoint", .str m.config.base),
            ("error", .str text)]⟩]) := by
  obtain ⟨exc, hsaid, hrun, hevents⟩ := run_validate_of_rejected h (replaying replies) 0
  refine ⟨exc.text, hsaid, ?_⟩
  rw [shown, ensure, Prog.run_bind_of_error hrun, Prog.events_bind_of_error hrun, hevents]
  rfl

/-- A call that passes the validators goes on with the lookup. -/
theorem shown_of_accepted (h : m.registry.rejectedAt params m.validators = none) :
    shown replies (m.ensure "present" params checkMode none dedupe forceUpdate) =
      shown replies (do
        let (existing, deduped) ← m.resolve params checkMode none dedupe
        let result ← m.converge "present" params checkMode forceUpdate existing
        return withDedupe result deduped) := by
  obtain ⟨hrun, hevents⟩ := run_validate_of_accepted h (replaying replies) 0
  rw [shown, ensure, Prog.run_bind_of_ok hrun, Prog.events_bind_of_ok hrun, hevents]
  rfl

theorem shown_eq_of_twins {p p' : M EnsureResult} (h : Prog.Twins (replaying replies) 0 p p') :
    shown replies p = shown replies p' := by
  rw [shown, shown, h.1, h.2]

/-- The last record of a call that found the rows, and none of the identity. -/
theorem accepted_names_matchVals (h : Missing m params (replies 0)) {rows : List Obj}
    (hrows : rowsIn (replies 0) = .ok rows) :
    LastNames (m.identity.matchVals params) (Prog.events (replaying replies) (do
        let (existing, deduped) ← m.resolve params checkMode none dedupe
        let result ← m.converge "present" params checkMode forceUpdate existing
        return withDedupe result deduped) 0) := by
  obtain ⟨s', hlookup⟩ := @run_lookup_of_missing m params replies 0 checkMode dedupe h _ hrows
  have hresolve : (m.resolve params checkMode none dedupe).run (replaying replies) 0 =
      (.ok (none, []), s') := Prog.run_bind_of_ok hlookup _
  rw [Prog.events_bind_of_ok hresolve]
  refine lastNames_append ?_
  have hcreate : LastNames (m.identity.matchVals params)
      ((m.create params checkMode).events (replaying replies) s') := create_names_matchVals _ _
  have hreturn : (m.create params checkMode >>= fun result =>
      (return withDedupe result [] : M EnsureResult)).events (replaying replies) s' =
        (m.create params checkMode).events (replaying replies) s' := by
    rw [Prog.events_bind]
    rcases (m.create params checkMode).run (replaying replies) s' with ⟨exc | result, s''⟩ <;>
      simp
  exact hreturn ▸ hcreate

theorem lastNames_inj {vals vals' : Obj} {events events' : List Event} (heq : events = events')
    (h : LastNames vals events) (h' : LastNames vals' events') : vals = vals' := by
  subst heq
  obtain ⟨record, hlast, hvals⟩ := h
  obtain ⟨record', hlast', hvals'⟩ := h'
  cases hlast.symm.trans hlast'
  cases hvals.symm.trans hvals'
  rfl

/-- Creations behind the same search: equal to an observer when their match keys are. -/
theorem shown_eq_iff_of_accepted (hnodup : (params.map (·.1)).Nodup)
    (hsecret : SameOutside (· ∈ m.redactFields) params params')
    (h : Missing m params (replies 0)) (h' : Missing m params' (replies 0))
    (haccept : m.registry.rejectedAt params m.validators = none)
    (haccept' : m.registry.rejectedAt params' m.validators = none) :
    shown replies (m.ensure "present" params checkMode none dedupe forceUpdate) =
        shown replies (m.ensure "present" params' checkMode none dedupe forceUpdate) ↔
      ((∃ rows, rowsIn (replies 0) = .ok rows) →
        ∀ k ∈ m.matchKeys, k ∈ m.redactFields → params.text k = params'.text k) := by
  rw [shown_of_accepted haccept, shown_of_accepted haccept']
  constructor
  · rintro hshown ⟨rows, hrows⟩ k hk -
    -- the last record of each call names its match keys
    have hevents := congrArg Prod.snd hshown
    have hnames := @accepted_names_matchVals m params replies checkMode dedupe
      forceUpdate h _ hrows
    have hnames' := @accepted_names_matchVals m params' replies checkMode dedupe
      forceUpdate h' _ hrows
    have hvals : m.identity.matchVals params = m.identity.matchVals params' :=
      lastNames_inj hevents hnames hnames'
    have htext := List.map_inj_left.mp hvals k hk
    simpa using htext
  · intro htexts
    refine shown_eq_of_twins ?_
    refine Prog.twins_bind
      (Prog.twins_bind (twins_lookup h h') fun ⟨existing, deduped⟩ s' hrun => ?_)
      fun ⟨existing, deduped⟩ s' hrun => ?_
    · obtain ⟨hnone, -⟩ := lookup_of_missing h hrun
      cases hnone
      exact Prog.Twins.refl _
    · obtain ⟨⟨found, removed⟩, s₁, hlookup, hhydrate⟩ := Prog.run_bind_eq_ok.mp hrun
      obtain ⟨hnone, hrows⟩ := lookup_of_missing h hlookup
      cases hnone
      cases hhydrate
      refine Prog.twins_bind ?_ fun _ _ _ => Prog.Twins.refl _
      refine twins_create (redactDict_of_sameOutside hnodup hsecret) fun k hk => ?_
      -- a match key that is not redacted has one value in both calls
      by_cases hredact : k ∈ m.redactFields
      · exact htexts hrows k hk hredact
      · rw [Obj.text, Obj.text, getD_of_sameOutside hsecret hredact]

end BaseManager

end Opnsense
