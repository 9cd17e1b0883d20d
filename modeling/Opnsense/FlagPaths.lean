import Opnsense.BadInput
import Opnsense.OwnRequests

namespace Opnsense
open Interaction

/-- What a request stores is of this kind. -/
def Stores (kind : Obj → Prop) : Request → Prop
  | .create _ _ params => kind params
  | .update _ _ _ params => kind params
  | _ => True

theorem stores_of_read {kind : Obj → Prop} (q : Request) (h : q.isRead = true) :
    Stores kind q := by
  cases q with
  | create | update => cases h
  | _ => trivial

theorem stores_mono {kind kind' : Obj → Prop} (h : ∀ p, kind p → kind' p) (q : Request)
    (hq : Stores kind q) : Stores kind' q := by
  cases q with
  | create | update => exact h _ hq
  | _ => trivial

namespace BaseManager

/-- The methods of a subclass that the inherited `ensure` calls. -/
structure Overrides where
  create : Obj → Bool → M EnsureResult
  update : Json → Obj → Bool → M EnsureResult

/-- `converge` of a subclass. -/
def convergeBy (m : BaseManager) (o : Overrides) (state : String) (params : Obj)
    (checkMode forceUpdate : Bool) (existing : Option Obj) : M EnsureResult :=
  let label := m.identity.matchLabel params
  let matchFields := m.identity.matchLogFields params
  if state = "present" then
    match existing with
    | none => o.create params checkMode
    | some existing =>
      let uuid := existing.getD "uuid" (.str "")
      if (m.diffEngine.computeDiff existing params).isNone && !forceUpdate then do
        let id := pyStr uuid
        log .debug s!"noop {label} uuid={id} — state matches"
          (buildExtra "noop" matchFields { uuid := some uuid, changed := some false })
        return { changed := false, action := .noop, uuid := some uuid }
      else o.update uuid params checkMode
  else
    match existing with
    | none => do
      log .debug s!"noop {label} — already absent"
        (buildExtra "noop" matchFields { changed := some false })
      return { changed := false, action := .noop }
    | some existing => m.delete (existing.getD "uuid" (.str "")) checkMode

/-- `super().ensure` of a subclass: `create` and `update` are its own. -/
def ensureBy (m : BaseManager) (o : Overrides) (a : Arguments) : M EnsureResult := do
  m.validate a.state a.params
  let (existing, deduped) ← m.resolve a.params a.checkMode a.uuid a.dedupe
  let result ← m.convergeBy o a.state a.params a.checkMode a.forceUpdate existing
  return withDedupe result deduped

variable {m : BaseManager} {params : Obj} {check dedupe force : Bool}

/-- Overrides that do on these parameters what the base class does make no difference. -/
theorem ensureBy_eq {o : Overrides} {a : Arguments}
    (hcreate : ∀ check, o.create a.params check = m.create a.params check)
    (hupdate : ∀ uuid check, o.update uuid a.params check = m.update uuid a.params check) :
    m.ensureBy o a = m.ensure a.state a.params a.checkMode a.uuid a.dedupe a.forceUpdate := by
  have hconverge : ∀ existing,
      m.convergeBy o a.state a.params a.checkMode a.forceUpdate existing =
        m.converge a.state a.params a.checkMode a.forceUpdate existing := by
    intro existing
    cases existing with
    | none => simp only [convergeBy, converge, hcreate]
    | some row => simp only [convergeBy, converge, hupdate]
  simp only [ensureBy, ensure, hconverge]

theorem asks_apply_stores {kind : Obj → Prop} : m.apply.Asks (Stores kind) :=
  asks_apply_within fun _ _ => trivial

theorem asks_create_stores : (m.create params check).Asks (Stores (· = params)) :=
  asks_create_within stores_of_read asks_apply_stores fun _ => rfl

/-- Outside check mode the add request is the first thing `create` sends. -/
theorem mem_trace_create {σ : Type} {srv : Appliance σ} {s : σ} :
    .create m.config.add m.config.payloadKey params ∈
      ((m.create params false).trace srv s).map (·.1) := by
  obtain ⟨after, hafter⟩ := redactDict_obj m.redactFields params
  simp [create, hafter, Prog.trace_bind, Prog.run_bind, Prog.ofExcept]

theorem asks_update_stores (uuid : Json) :
    (m.update uuid params check).Asks (Stores (· = params)) :=
  asks_update_within stores_of_read asks_apply_stores fun _ => rfl

theorem asks_lookup_stores {kind : Obj → Prop} :
    (m.lookup params check dedupe).Asks (Stores kind) := by
  cases dedupe with
  | false =>
    exact Prog.asks_bind (Prog.asks_mono stores_of_read asks_findExisting) fun _ => trivial
  | true =>
    cases check with
    | true => exact Prog.asks_mono stores_of_read (asks_collapseDuplicates_check _)
    | false =>
      apply Prog.asks_bind (Prog.asks_mono stores_of_read (asks_findMatching none))
      intro found
      rcases found with _ | ⟨row, _ | ⟨row', rest⟩⟩
      · trivial
      · trivial
      · apply Prog.asks_bind (asks_log ..)
        intro _
        have hdelete := @asks_deleteAll_within m _ stores_of_read (@asks_apply_stores m kind)
          ((row' :: rest).map (·.text "uuid")) fun _ _ => trivial
        exact Prog.asks_bind hdelete fun _ => trivial

theorem asks_ensure_stores (state : String) (uuid : Option String) :
    (m.ensure state params check uuid dedupe force).Asks (Stores (· = params)) := by
  apply Prog.asks_bind (Prog.asks_mono stores_of_read (asks_validate state))
  intro _
  have hresolve : (m.resolve params check uuid dedupe).Asks (Stores (· = params)) := by
    cases uuid with
    | some uuid =>
      apply Prog.asks_bind (Prog.asks_mono stores_of_read (asks_get _))
      exact fun _ => Prog.asks_bind (by simp) fun _ => trivial
    | none =>
      apply Prog.asks_bind asks_lookup_stores
      rintro ⟨existing, deduped⟩
      exact Prog.asks_bind (Prog.asks_mono stores_of_read (asks_hydrateNested existing))
        fun _ => trivial
  apply Prog.asks_bind hresolve
  rintro ⟨existing, deduped⟩
  have hconverge : (m.converge state params check force existing).Asks (Stores (· = params)) :=
    asks_converge_within stores_of_read asks_apply_stores state (fun _ _ => rfl)
      (fun _ _ _ => rfl) fun _ _ _ _ => trivial
  exact Prog.asks_bind hconverge fun _ => trivial

end BaseManager

/-- A flag is given, and every flag given says whether the resource is on. -/
structure Declares (params : Obj) (isOn : Bool) : Prop where
  given : params.has "disabled" = true ∨ params.has "enabled" = true
  disabled : ∀ v, params.lookup "disabled" = some v → v = flagOf (!isOn)
  enabled : ∀ v, params.lookup "enabled" = some v → v = flagOf isOn

/-- Both flags are given, and they say opposite things. -/
def Contradicts (params : Obj) : Prop :=
  ∃ v w, params.lookup "disabled" = some v ∧ params.lookup "enabled" = some w ∧
    isTrue v = isTrue w

/-- The payload has the flag `field` alone, set as declared, and every other field as it was. -/
structure Sets (field : String) (isOn : Bool) (params payload : Obj) : Prop where
  flag : payload.lookup field = some (flagOf (if field = "enabled" then isOn else !isOn))
  alone : ∀ other ∈ RtRouteManager.flagKeys, other ≠ field → payload.has other = false
  others : without RtRouteManager.flagKeys payload = without RtRouteManager.flagKeys params

/-- One call of a public method that stores something. -/
inductive FlagCall where
  | ensure (a : Arguments)
  | create (params : Obj) (checkMode : Bool := false)
  | update (uuid : Json) (params : Obj) (checkMode : Bool := false)

def FlagCall.params : FlagCall → Obj
  | ensure a => a.params
  | create params _ => params
  | update _ params _ => params

theorem without_cons (keys : List String) (kv : String × Json) (rest : Obj) :
    without keys (kv :: rest) =
      if kv.1 ∈ keys then without keys rest else kv :: without keys rest := by
  by_cases hkey : kv.1 ∈ keys
  · rw [if_pos hkey, without, List.filter_cons_of_neg (by simpa using hkey), without]
  · rw [if_neg hkey, without, List.filter_cons_of_pos (by simpa using hkey), without]

theorem without_set {keys : List String} {key : String} (h : key ∈ keys) (o : Obj) (v : Json) :
    without keys (o.set key v) = without keys o := by
  induction o with
  | nil => simp [Obj.set, without, h]
  | cons kv rest ih =>
    obtain ⟨k, w⟩ := kv
    by_cases hk : k = key
    · rw [Obj.set, if_pos hk, without_cons, without_cons, if_pos (hk ▸ h), if_pos (hk ▸ h)]
    · rw [Obj.set, if_neg hk, without_cons, without_cons, ih]

theorem without_without {keys keys' : List String} (h : keys' ⊆ keys) (o : Obj) :
    without keys (without keys' o) = without keys o := by
  unfold without
  rw [List.filter_filter]
  apply List.filter_congr
  intro kv _
  by_cases hkey : kv.1 ∈ keys
  · simp [hkey]
  · have hkey' : kv.1 ∉ keys' := fun hmem => hkey (h hmem)
    simp [hkey, hkey']

theorem lookup_without_of_not_mem {keys : List String} {key : String} (h : key ∉ keys)
    (params : Obj) : (without keys params).lookup key = params.lookup key := by
  induction params with
  | nil => rfl
  | cons kv rest ih =>
    obtain ⟨k, w⟩ := kv
    rw [without_cons]
    by_cases hmem : k ∈ keys
    · have hne : (key == k) = false := beq_false_of_ne fun heq => h (heq ▸ hmem)
      rw [if_pos hmem, ih, List.lookup_cons, hne]
    · rw [if_neg hmem, List.lookup_cons, List.lookup_cons, ih]

namespace Declares

variable {params : Obj} {isOn : Bool}

theorem isTrue_disabled (h : Declares params isOn) (hhas : params.has "disabled" = true) :
    isTrue (params.getD "disabled" .null) = !isOn := by
  obtain ⟨v, hv⟩ := Obj.has_iff.mp hhas
  rw [Obj.getD_of_lookup hv, h.disabled v hv, RtRouteManager.isTrue_flagOf]

theorem isTrue_enabled (h : Declares params isOn) (hhas : params.has "enabled" = true) :
    isTrue (params.getD "enabled" .null) = isOn := by
  obtain ⟨v, hv⟩ := Obj.has_iff.mp hhas
  rw [Obj.getD_of_lookup hv, h.enabled v hv, RtRouteManager.isTrue_flagOf]

end Declares

namespace RtRouteManager

variable {diffEngine : DiffEngine} {known : Option String} {params : Obj} {field : String}
  {isOn : Bool} {σ : Type} {srv : Appliance σ} {s s' : σ}

/-- `_device_enable_flag`, with the `_enable_field` it leaves. -/
def deviceFlag (diffEngine : DiffEngine) (known : Option String) (params : Obj) :
    M (Obj × Option String) :=
  if !hasFlag params then return (params, known)
  else if contradicts params then .raise (contradiction "route")
  else
    match known with
    | some field => return (translated field params, some field)
    | none => do
      let schema ← (RtRouteManager diffEngine).getSchema
      return (translated (fieldOf schema) params, some (fieldOf schema))

def create (diffEngine : DiffEngine) (known : Option String) (params : Obj)
    (checkMode : Bool) : M EnsureResult := do
  let (params, _) ← deviceFlag diffEngine known params
  (RtRouteManager diffEngine).create params checkMode

def update (diffEngine : DiffEngine) (known : Option String) (uuid : Json) (params : Obj)
    (checkMode : Bool) : M EnsureResult := do
  let (params, _) ← deviceFlag diffEngine known params
  (RtRouteManager diffEngine).update uuid params checkMode

/-- `ensure` whose `create` and `update` are the translating ones of this class. -/
def dispatchedEnsure (diffEngine : DiffEngine) (known : Option String) (a : Arguments) :
    M EnsureResult := do
  let (params, known) ← deviceFlag diffEngine known a.params
  (RtRouteManager diffEngine).ensureBy
    ⟨RtRouteManager.create diffEngine known, RtRouteManager.update diffEngine known⟩
    { a with params := params }

def program (diffEngine : DiffEngine) (known : Option String) : FlagCall → M EnsureResult
  | .ensure a => dispatchedEnsure diffEngine known a
  | .create params checkMode => RtRouteManager.create diffEngine known params checkMode
  | .update uuid params checkMode =>
    RtRouteManager.update diffEngine known uuid params checkMode

/-- The `_enable_field` a call leaves; a failed detection leaves it as it was. -/
def learned (diffEngine : DiffEngine) (known : Option String) (c : FlagCall) (srv : Appliance σ)
    (s : σ) : Option String :=
  match ((deviceFlag diffEngine known c.params).run srv s).1 with
  | .ok (_, known') => known'
  | .error _ => known

/-- Calls on one object, each with the requests it made; in between anything may happen to
the appliance. -/
inductive Session (diffEngine : DiffEngine) (srv : Appliance σ) :
    Option String → List (FlagCall × List (Request × Reply)) → Prop
  | nil (known : Option String) : Session diffEngine srv known []
  | cons {known : Option String} (c : FlagCall) (s : σ)
      {rest : List (FlagCall × List (Request × Reply))}
      (h : Session diffEngine srv (learned diffEngine known c srv s) rest) :
      Session diffEngine srv known ((c, (program diffEngine known c).trace srv s) :: rest)

/-- Whenever the appliance shows the schema, `field` is the flag in it. -/
def ShowsFlag (srv : Appliance σ) (field : String) : Prop :=
  ∀ s body, (srv (.get ((RtRouteManager ⟨fun _ _ => false⟩).config.get (.str ""))) s).1 = .ok body →
    ∃ schema, unwrap "route" body = .ok (.obj schema) ∧ Obj.has schema field = true ∧
      ∀ other ∈ flagKeys, other ≠ field → Obj.has schema other = false

/-- What an object knows of the flag is right. -/
def Knows (field : String) (known : Option String) : Prop := known = none ∨ known = some field

theorem deviceFlag_fst (diffEngine : DiffEngine) (known : Option String) (params : Obj) :
    Prod.fst <$> deviceFlag diffEngine known params =
      deviceEnableFlag diffEngine known params := by
  unfold deviceFlag deviceEnableFlag
  split
  · rfl
  · split
    · rfl
    · cases known with
      | some field => rfl
      | none => simp only [map_bind]; rfl

theorem asks_getSchema : ((RtRouteManager diffEngine).getSchema).Asks BaseManager.ReadOnly := by
  have hread : BaseManager.ReadOnly (.get ((RtRouteManager diffEngine).config.get (.str ""))) :=
    rfl
  apply Prog.asks_bind (asks_logError ((asks_await _).mpr hread) _ _)
  exact fun _ => by simp

theorem asks_deviceFlag : (deviceFlag diffEngine known params).Asks BaseManager.ReadOnly := by
  unfold deviceFlag
  split
  · trivial
  · split
    · trivial
    · cases known with
      | some field => trivial
      | none => exact Prog.asks_bind asks_getSchema fun _ => trivial

theorem fieldOf_schema (hfield : field ∈ flagKeys) {schema : Obj}
    (hhas : Obj.has schema field = true)
    (hother : ∀ other ∈ flagKeys, other ≠ field → Obj.has schema other = false) :
    fieldOf (.obj schema) = field := by
  rcases List.mem_pair.mp hfield with rfl | rfl
  · simp [fieldOf, hother "enabled" (by decide) (by decide)]
  · simp [fieldOf, hhas]

theorem fieldOf_of_run_getSchema (hshows : ShowsFlag srv field) (hfield : field ∈ flagKeys)
    {schema : Json} (h : ((RtRouteManager diffEngine).getSchema).run srv s = (.ok schema, s')) :
    fieldOf schema = field := by
  obtain ⟨body, s₁, hbody, hunwrap⟩ := Prog.run_bind_eq_ok.mp h
  rw [run_logError, run_await, Prod.mk.injEq] at hbody
  obtain ⟨schema', hunwrap', hhas, hother⟩ := hshows s body hbody.1
  rw [Prog.run_ofExcept, Prod.mk.injEq] at hunwrap
  have heq : (.ok (.obj schema') : Except Exc Json) = .ok schema :=
    hunwrap'.symm.trans hunwrap.1
  cases heq
  exact fieldOf_schema hfield hhas hother

/-- What a translation that returned did: nothing without a flag, otherwise the field of the
appliance. -/
theorem run_deviceFlag (hshows : ShowsFlag srv field) (hfield : field ∈ flagKeys)
    (hknown : Knows field known) {out : Obj} {known' : Option String}
    (h : (deviceFlag diffEngine known params).run srv s = (.ok (out, known'), s')) :
    (hasFlag params = false ∧ out = params ∧ known' = known) ∨
      (hasFlag params = true ∧ contradicts params = false ∧ out = translated field params ∧
        known' = some field) := by
  unfold deviceFlag at h
  cases hflag : hasFlag params with
  | false =>
    rw [hflag] at h
    cases h
    exact Or.inl ⟨rfl, rfl, rfl⟩
  | true =>
    cases hagree : contradicts params with
    | true =>
      rw [hflag, hagree] at h
      cases h
    | false =>
      rw [hflag, hagree] at h
      right
      -- the field is read off the schema, or known from an earlier call
      rcases hknown with rfl | rfl
      · obtain ⟨schema, s₁, hschema, hret⟩ := Prog.run_bind_eq_ok.mp h
        rw [fieldOf_of_run_getSchema hshows hfield hschema] at hret
        cases hret
        exact ⟨rfl, rfl, rfl, rfl⟩
      · cases h
        exact ⟨rfl, rfl, rfl, rfl⟩

theorem knows_learned (hshows : ShowsFlag srv field) (hfield : field ∈ flagKeys)
    (hknown : Knows field known) (c : FlagCall) (s : σ) :
    Knows field (learned diffEngine known c srv s) := by
  unfold learned
  rcases hrun : (deviceFlag diffEngine known c.params).run srv s with ⟨e | ⟨out, known'⟩, s'⟩
  · exact hknown
  · rcases run_deviceFlag hshows hfield hknown hrun with ⟨-, -, rfl⟩ | ⟨-, -, -, rfl⟩
    · exact hknown
    · exact Or.inr rfl

theorem deviceFlag_of_not_hasFlag (diffEngine : DiffEngine) (known : Option String)
    (h : hasFlag params = false) : deviceFlag diffEngine known params = .ret (params, known) := by
  simp [deviceFlag, h]

theorem deviceFlag_known (diffEngine : DiffEngine) (field : String) (params : Obj) :
    deviceFlag diffEngine (some field) params =
      (·, some field) <$> deviceEnableFlag diffEngine (some field) params := by
  unfold deviceFlag deviceEnableFlag
  split
  · rfl
  · split
    · rfl
    · rfl

theorem deviceFlag_translated (diffEngine : DiffEngine) (field : String) (params : Obj) :
    deviceFlag diffEngine (some field) (translated field params) =
      .ret (translated field params, some field) := by
  rw [deviceFlag_known, deviceEnableFlag_translated]
  rfl

/-- `create` and `update` behind `ensure` translate nothing: the class could as well have
inherited them. -/
theorem dispatchedEnsure_eq (diffEngine : DiffEngine) (known : Option String) (a : Arguments) :
    dispatchedEnsure diffEngine known a =
      RtRouteManager.ensure diffEngine known a.state a.params a.checkMode a.uuid a.dedupe
        a.forceUpdate := by
  have hafter : ∀ out known', deviceFlag diffEngine known' out = .ret (out, known') →
      (RtRouteManager diffEngine).ensureBy
          ⟨RtRouteManager.create diffEngine known', RtRouteManager.update diffEngine known'⟩
          { a with params := out } =
        (RtRouteManager diffEngine).ensure a.state out a.checkMode a.uuid a.dedupe
          a.forceUpdate := by
    intro out known' hagain
    apply BaseManager.ensureBy_eq
    · intro check
      simp [RtRouteManager.create, hagain]
    · intro uuid check
      simp [RtRouteManager.update, hagain]
  unfold dispatchedEnsure RtRouteManager.ensure
  cases hflag : hasFlag a.params with
  | false =>
    have hnone := deviceFlag_of_not_hasFlag diffEngine known hflag
    rw [← deviceFlag_fst, hnone]
    exact hafter _ _ hnone
  | true =>
    cases hagree : contradicts a.params with
    | true => simp [deviceFlag, deviceEnableFlag, hflag, hagree]
    | false =>
      cases known with
      | some field =>
        simp only [deviceFlag, deviceEnableFlag, hflag, hagree]
        exact hafter _ _ (deviceFlag_translated diffEngine field a.params)
      | none =>
        simp only [deviceFlag, deviceEnableFlag, hflag, hagree, Bool.not_true,
          Bool.false_eq_true, if_false, bind_assoc, pure_bind]
        congr 1
        funext schema
        exact hafter _ _ (deviceFlag_translated diffEngine (fieldOf schema) a.params)

theorem Declares.hasFlag (h : Declares params isOn) : hasFlag params = true := by
  rcases h.given with h | h <;> simp [RtRouteManager.hasFlag, h]

theorem Declares.wantsEnabled (h : Declares params isOn) : wantsEnabled params = isOn := by
  unfold RtRouteManager.wantsEnabled
  cases henabled : params.has "enabled" with
  | true => rw [if_pos rfl, h.isTrue_enabled henabled]
  | false =>
    have hdisabled : params.has "disabled" = true := by simpa [henabled] using h.given
    rw [if_neg Bool.false_ne_true, h.isTrue_disabled hdisabled, Bool.not_not]

theorem sets_translated (hfield : field ∈ flagKeys) (h : Declares params isOn) :
    Sets field isOn params (translated field params) := by
  have hname : flagName field = field := by
    rcases List.mem_pair.mp hfield with rfl | rfl <;> rfl
  refine ⟨?_, fun other hmem hne => ?_, ?_⟩
  · rw [lookup_translated, hname, if_pos rfl, flagValue, Declares.wantsEnabled h]
  · rw [Obj.has_eq_false_iff, lookup_translated, hname, if_neg hne,
      lookup_without_of_mem params hmem]
  · unfold translated
    split <;> rw [without_set (by decide), without_without (fun _ hkey => hkey)]

/-- The base class behind a translation stores the translated parameters. -/
theorem asks_rest (c : FlagCall) {kind : Obj → Prop} {p : Obj × Option String → M EnsureResult}
    (hp : ∀ out known, (p (out, known)).Asks (Stores (· = out)))
    (hshows : ShowsFlag srv field) (hfield : field ∈ flagKeys) (hknown : Knows field known)
    (hkind : kind (translated field c.params)) (hflag : hasFlag c.params = true)
    {qr : Request × Reply} (hqr : qr ∈ (deviceFlag diffEngine known c.params >>= p).trace srv s) :
    Stores kind qr.1 := by
  rcases Prog.mem_trace_bind hqr with hqr | ⟨⟨out, known'⟩, s₁, hrun, hqr⟩
  · exact stores_of_read _ (asks_deviceFlag.of_mem_trace hqr)
  · rcases run_deviceFlag hshows hfield hknown hrun with ⟨hnone, -, -⟩ | ⟨-, -, rfl, -⟩
    · exact absurd (hnone.symm.trans hflag) Bool.false_ne_true
    · refine stores_mono ?_ _ ((hp _ _).of_mem_trace hqr)
      rintro _ rfl
      exact hkind

/-- Every payload of one call. -/
theorem stores_program (hshows : ShowsFlag srv field) (hfield : field ∈ flagKeys)
    (hknown : Knows field known) {c : FlagCall} (hdeclares : Declares c.params isOn)
    {qr : Request × Reply} (hqr : qr ∈ (program diffEngine known c).trace srv s) :
    Stores (Sets field isOn c.params) qr.1 := by
  have hsets := sets_translated hfield hdeclares
  have hflag := Declares.hasFlag hdeclares
  cases c with
  | ensure a =>
    rw [program, dispatchedEnsure_eq, RtRouteManager.ensure, ← deviceFlag_fst] at hqr
    simp only [map_eq_pure_bind, bind_assoc, pure_bind] at hqr
    exact asks_rest (.ensure a) (fun _ _ => BaseManager.asks_ensure_stores _ _) hshows hfield
      hknown hsets hflag hqr
  | create params check =>
    exact asks_rest (.create params check) (fun _ _ => BaseManager.asks_create_stores) hshows
      hfield hknown hsets hflag hqr
  | update uuid params check =>
    exact asks_rest (.update uuid params check) (fun _ _ => BaseManager.asks_update_stores _)
      hshows hfield hknown hsets hflag hqr

/-- Every payload of every call on one object: by induction on the calls, what the object knows
of the flag stays right. -/
theorem stores_session (hshows : ShowsFlag srv field) (hfield : field ∈ flagKeys)
    (hknown : Knows field known) {run : List (FlagCall × List (Request × Reply))}
    (hrun : Session diffEngine srv known run) {c : FlagCall} {t : List (Request × Reply)}
    (hct : (c, t) ∈ run) (hdeclares : Declares c.params isOn) {qr : Request × Reply}
    (hqr : qr ∈ t) : Stores (Sets field isOn c.params) qr.1 := by
  induction hrun with
  | nil => cases hct
  | cons c' s' hrest ih =>
    rcases List.mem_cons.mp hct with heq | hct
    · cases heq
      exact stores_program hshows hfield hknown hdeclares hqr
    · exact ih (knows_learned hshows hfield hknown c' s') hct

theorem contradicts_of_contradicts (h : Contradicts params) :
    hasFlag params = true ∧ contradicts params = true := by
  obtain ⟨v, w, hv, hw, heq⟩ := h
  have hdisabled : params.has "disabled" = true := Obj.has_iff.mpr ⟨v, hv⟩
  have henabled : params.has "enabled" = true := Obj.has_iff.mpr ⟨w, hw⟩
  have hsame : (isTrue v == isTrue w) = true := by simp [heq]
  refine ⟨by simp [hasFlag, hdisabled], ?_⟩
  rw [contradicts, hdisabled, henabled, Obj.getD_of_lookup hv, Obj.getD_of_lookup hw, hsame]
  rfl

theorem program_of_contradicts {c : FlagCall} (h : Contradicts c.params) :
    program diffEngine known c = .raise (contradiction "route") := by
  obtain ⟨hflag, hagree⟩ := contradicts_of_contradicts h
  have hraise : deviceFlag diffEngine known c.params = .raise (contradiction "route") := by
    simp [deviceFlag, hflag, hagree]
  cases c with
  | ensure a => exact congrArg (· >>= _) hraise
  | create params check => exact congrArg (· >>= _) hraise
  | update uuid params check => exact congrArg (· >>= _) hraise

end RtRouteManager

namespace FwOneToOneManager

variable {diffEngine : DiffEngine} {params out : Obj} {isOn : Bool} {σ : Type}
  {srv : Appliance σ} {s : σ}

def create (diffEngine : DiffEngine) (params : Obj) (checkMode : Bool) : M EnsureResult := do
  let params ← .ofExcept (apiEnableFlag params)
  (FwOneToOneManager diffEngine).create params checkMode

def update (diffEngine : DiffEngine) (uuid : Json) (params : Obj) (checkMode : Bool) :
    M EnsureResult := do
  let params ← .ofExcept (apiEnableFlag params)
  (FwOneToOneManager diffEngine).update uuid params checkMode

/-- `ensure` whose `create` and `update` are the translating ones of this class. -/
def dispatchedEnsure (diffEngine : DiffEngine) (a : Arguments) : M EnsureResult := do
  let params ← .ofExcept (apiEnableFlag a.params)
  (FwOneToOneManager diffEngine).ensureBy
    ⟨FwOneToOneManager.create diffEngine, FwOneToOneManager.update diffEngine⟩
    { a with params := params }

def program (diffEngine : DiffEngine) : FlagCall → M EnsureResult
  | .ensure a => dispatchedEnsure diffEngine a
  | .create params checkMode => FwOneToOneManager.create diffEngine params checkMode
  | .update uuid params checkMode => FwOneToOneManager.update diffEngine uuid params checkMode

/-- What a translation that returned leaves has no `disabled`, so the next one changes nothing. -/
theorem apiEnableFlag_again (h : apiEnableFlag params = .ok out) : apiEnableFlag out = .ok out := by
  have hnone : out.has "disabled" = false := by
    unfold apiEnableFlag at h
    split at h
    · dsimp only at h
      split at h
      · cases h
      · cases h
        rw [Obj.has_eq_false_iff, Obj.lookup_set_of_ne _ (by decide),
          RtRouteManager.lookup_without_of_mem params (by decide)]
    · rename_i hdisabled
      cases h
      simpa using hdisabled
  rw [apiEnableFlag, hnone]
  rfl

theorem dispatchedEnsure_eq (diffEngine : DiffEngine) (a : Arguments) :
    dispatchedEnsure diffEngine a =
      FwOneToOneManager.ensure diffEngine a.state a.params a.checkMode a.uuid a.dedupe
        a.forceUpdate := by
  unfold dispatchedEnsure FwOneToOneManager.ensure
  rcases hflag : apiEnableFlag a.params with e | out
  · rfl
  · have hagain := apiEnableFlag_again hflag
    apply BaseManager.ensureBy_eq
    · intro check
      simp [FwOneToOneManager.create, hagain, Prog.ofExcept]
    · intro uuid check
      simp [FwOneToOneManager.update, hagain, Prog.ofExcept]

theorem sets_apiEnableFlag (h : Declares params isOn) (hout : apiEnableFlag params = .ok out) :
    Sets "enabled" isOn params out := by
  unfold apiEnableFlag at hout
  cases hdisabled : params.has "disabled" with
  | true =>
    rw [hdisabled] at hout
    dsimp only at hout
    rw [if_pos rfl] at hout
    split at hout
    · cases hout
    · cases hout
      refine ⟨?_, fun other hmem hne => ?_, ?_⟩
      · rw [Obj.lookup_set_self, h.isTrue_disabled hdisabled, Bool.not_not]
        rfl
      · obtain rfl : other = "disabled" := by
          rcases List.mem_pair.mp hmem with rfl | rfl
          · rfl
          · exact absurd rfl hne
        rw [Obj.has_eq_false_iff, Obj.lookup_set_of_ne _ hne,
          RtRouteManager.lookup_without_of_mem params (by decide)]
      · rw [without_set (by decide), without_without (by decide)]
  | false =>
    rw [hdisabled] at hout
    cases hout
    have henabled : params.has "enabled" = true := by simpa [hdisabled] using h.given
    obtain ⟨v, hv⟩ := Obj.has_iff.mp henabled
    refine ⟨?_, fun other hmem hne => ?_, rfl⟩
    · rw [hv, h.enabled v hv]
      rfl
    · rcases List.mem_pair.mp hmem with rfl | rfl
      · exact hdisabled
      · exact absurd rfl hne

theorem asks_rest {kind : Obj → Prop} {p : Obj → M EnsureResult}
    (hp : ∀ out, (p out).Asks (Stores (· = out)))
    (hkind : ∀ out, apiEnableFlag params = .ok out → kind out) {qr : Request × Reply}
    (hqr : qr ∈ (Prog.ofExcept (apiEnableFlag params) >>= p).trace srv s) :
    Stores kind qr.1 := by
  rcases hflag : apiEnableFlag params with e | out
  · rw [hflag] at hqr
    cases hqr
  · rw [hflag] at hqr
    refine stores_mono ?_ _ ((hp out).of_mem_trace hqr)
    rintro _ rfl
    exact hkind _ hflag

theorem stores_program {c : FlagCall} (hdeclares : Declares c.params isOn) {qr : Request × Reply}
    (hqr : qr ∈ (program diffEngine c).trace srv s) :
    Stores (Sets "enabled" isOn c.params) qr.1 := by
  cases c with
  | ensure a =>
    rw [program, dispatchedEnsure_eq] at hqr
    exact asks_rest (fun _ => BaseManager.asks_ensure_stores _ _)
      (fun _ => sets_apiEnableFlag hdeclares) hqr
  | create params check =>
    exact asks_rest (fun _ => BaseManager.asks_create_stores)
      (fun _ => sets_apiEnableFlag hdeclares) hqr
  | update uuid params check =>
    exact asks_rest (fun _ => BaseManager.asks_update_stores _)
      (fun _ => sets_apiEnableFlag hdeclares) hqr

theorem program_of_contradicts {c : FlagCall} (h : Contradicts c.params) :
    program diffEngine c = .raise (contradiction "one_to_one") := by
  obtain ⟨v, w, hv, hw, heq⟩ := h
  have hdisabled : c.params.has "disabled" = true := Obj.has_iff.mpr ⟨v, hv⟩
  have henabled : c.params.has "enabled" = true := Obj.has_iff.mpr ⟨w, hw⟩
  have hraise : apiEnableFlag c.params = .error (contradiction "one_to_one") := by
    simp [apiEnableFlag, hdisabled, henabled, Obj.getD_of_lookup hv, Obj.getD_of_lookup hw, heq]
  have hprog : (Prog.ofExcept (apiEnableFlag c.params) : M Obj) =
      .raise (contradiction "one_to_one") := by
    rw [hraise]
    rfl
  cases c with
  | ensure a => exact congrArg (· >>= _) hprog
  | create params check => exact congrArg (· >>= _) hprog
  | update uuid params check => exact congrArg (· >>= _) hprog

end FwOneToOneManager

/-- The flag a call declares reaches the appliance under the name it has there: on every call of
one object, on either firmware; translating again changes nothing; and flags that contradict each
other are refused before any request. -/
theorem flag_keeps_meaning (diffEngine : DiffEngine) :
    (∀ (σ : Type) (srv : Appliance σ) (field : String), field ∈ RtRouteManager.flagKeys →
      RtRouteManager.ShowsFlag srv field → ∀ run, RtRouteManager.Session diffEngine srv none run →
      ∀ c t isOn, (c, t) ∈ run → Declares c.params isOn →
      ∀ qr ∈ t, Stores (Sets field isOn c.params) qr.1) ∧
    (∀ (σ : Type) (srv : Appliance σ) s c isOn, Declares c.params isOn →
      ∀ qr ∈ (FwOneToOneManager.program diffEngine c).trace srv s,
        Stores (Sets "enabled" isOn c.params) qr.1) ∧
    ((∀ field params, RtRouteManager.translated field (RtRouteManager.translated field params) =
        RtRouteManager.translated field params) ∧
      (∀ params out, FwOneToOneManager.apiEnableFlag params = .ok out →
        FwOneToOneManager.apiEnableFlag out = .ok out) ∧
      (∀ known a, RtRouteManager.dispatchedEnsure diffEngine known a =
        RtRouteManager.ensure diffEngine known a.state a.params a.checkMode a.uuid a.dedupe
          a.forceUpdate) ∧
      ∀ a, FwOneToOneManager.dispatchedEnsure diffEngine a =
        FwOneToOneManager.ensure diffEngine a.state a.params a.checkMode a.uuid a.dedupe
          a.forceUpdate) ∧
    ∀ c, Contradicts c.params →
      (∀ known, RtRouteManager.program diffEngine known c = .raise (contradiction "route")) ∧
      FwOneToOneManager.program diffEngine c = .raise (contradiction "one_to_one") := by
  refine ⟨fun σ srv field hfield hshows run hrun c t isOn hct hdeclares qr hqr => ?_,
    fun σ srv s c isOn hdeclares qr hqr => ?_, ⟨?_, ?_, ?_, ?_⟩, fun c hcontra => ⟨?_, ?_⟩⟩
  · exact RtRouteManager.stores_session hshows hfield (Or.inl rfl) hrun hct hdeclares hqr
  · exact FwOneToOneManager.stores_program hdeclares hqr
  · exact RtRouteManager.translated_translated
  · exact fun _ _ => FwOneToOneManager.apiEnableFlag_again
  · exact RtRouteManager.dispatchedEnsure_eq diffEngine
  · exact FwOneToOneManager.dispatchedEnsure_eq diffEngine
  · exact fun _ => RtRouteManager.program_of_contradicts hcontra
  · exact FwOneToOneManager.program_of_contradicts hcontra

/-- An appliance whose routes have the flag `enabled`. -/
def enabledFirmware : Appliance Unit
  | .get .., s => (.ok (.obj [("route", .obj [("network", .str ""), ("enabled", .str "1")])]), s)
  | .create .., s => (.ok (.str "b7a6"), s)
  | _, s => (.ok (.obj []), s)

theorem enabledFirmware_shows : RtRouteManager.ShowsFlag enabledFirmware "enabled" := by
  intro s body hbody
  cases hbody
  exact ⟨_, rfl, rfl, by decide⟩

def disabledRoute : Obj := [("network", .str "10.99.0.0/24"), ("disabled", .str "1")]

theorem disabledRoute_declares : Declares disabledRoute false := by
  refine ⟨Or.inl rfl, fun v hv => ?_, fun v hv => ?_⟩
  · cases hv
    rfl
  · cases hv

/-- A route declared disabled: the add request has `enabled` off. -/
theorem flag_keeps_meaning_disabled :
    ∃ payload, Request.create (RtRouteManager ⟨fun _ _ => false⟩).config.add "route" payload ∈
        ((RtRouteManager.program ⟨fun _ _ => false⟩ none (.create disabledRoute)).trace
          enabledFirmware ()).map (·.1) ∧
      Sets "enabled" false disabledRoute payload := by
  have hrun : RtRouteManager.Session ⟨fun _ _ => false⟩ enabledFirmware none
      [(.create disabledRoute, (RtRouteManager.program ⟨fun _ _ => false⟩ none
        (.create disabledRoute)).trace enabledFirmware ())] :=
    .cons (.create disabledRoute) () (.nil _)
  have hflag : (RtRouteManager.deviceFlag ⟨fun _ _ => false⟩ none disabledRoute).run
      enabledFirmware () =
        (.ok ([("network", .str "10.99.0.0/24"), ("enabled", .str "0")], some "enabled"), ()) :=
    rfl
  have hmem : Request.create (RtRouteManager ⟨fun _ _ => false⟩).config.add "route"
      [("network", .str "10.99.0.0/24"), ("enabled", .str "0")] ∈
      ((RtRouteManager.program ⟨fun _ _ => false⟩ none (.create disabledRoute)).trace
        enabledFirmware ()).map (·.1) := by
    rw [RtRouteManager.program, RtRouteManager.create, Prog.trace_bind_of_ok hflag,
      List.map_append, List.mem_append]
    exact Or.inr BaseManager.mem_trace_create
  obtain ⟨qr, hqr, heq⟩ := List.mem_map.mp hmem
  have hsets := (flag_keeps_meaning ⟨fun _ _ => false⟩).1 Unit enabledFirmware "enabled"
    (by decide) enabledFirmware_shows _ hrun _ _ false (List.mem_cons_self ..)
    disabledRoute_declares qr hqr
  rw [heq] at hsets
  exact ⟨_, hmem, hsets⟩

end Opnsense
