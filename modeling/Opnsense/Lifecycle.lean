import Opnsense.BaseManager

namespace Opnsense
namespace BaseManager
open Interaction

variable {σ : Type} {srv : Appliance σ} {m : BaseManager} {s s' : σ}
  {t : List (Request × Reply)} {params : Obj} {check dedupe force : Bool}

/-- One change: skipped in check mode, else sent, answered and applied. -/
inductive Performed (srv : Appliance σ) (m : BaseManager) (q : Request) :
    Bool → σ → Option Json → σ → List (Request × Reply) → Prop
  | skipped (s : σ) : Performed srv m q true s none s []
  | sent {s s₁ s' : σ} {v : Json} {t : List (Request × Reply)} (hq : srv q s = (.ok v, s₁))
      (happly : m.apply.Returns srv s₁ () s' t) :
      Performed srv m q false s (some v) s' ((q, .ok v) :: t)

theorem returns_get {uuid v : Json} :
    (m.get uuid).Returns srv s v s' t ↔
      ∃ body, srv (.get (m.config.get uuid)) s = (.ok body, s') ∧
        unwrap m.config.payloadKey body = .ok v ∧ t = [(.get (m.config.get uuid), .ok body)] := by
  simp only [get, Prog.returns_bind, returns_logError, returns_await, Prog.returns_ofExcept]
  constructor
  · rintro ⟨body, s₁, _, _, ⟨hq, rfl⟩, ⟨hv, rfl, rfl⟩, rfl⟩
    exact ⟨body, hq, hv, rfl⟩
  · rintro ⟨body, hq, hv, rfl⟩
    exact ⟨body, s', _, _, ⟨hq, rfl⟩, ⟨hv, rfl, rfl⟩, rfl⟩

theorem returns_apply_of_none (hep : m.config.apply = none) {u : Unit} :
    m.apply.Returns srv s u s' t ↔ s' = s ∧ t = [] := by
  simp [apply, hep]

theorem returns_apply_of_some {ep : String} (hep : m.config.apply = some ep) {u : Unit} :
    m.apply.Returns srv s u s' t ↔
      ∃ v, srv (.reconfigure ep { timeout := m.applyTimeout }) s = (.ok v, s') ∧
        t = [(.reconfigure ep { timeout := m.applyTimeout }, .ok v)] := by
  simp only [apply, hep, Prog.returns_bind, returns_logError, returns_await, Prog.pure_eq_ret,
    Prog.returns_ret]
  constructor
  · rintro ⟨v, s₁, _, _, ⟨hq, rfl⟩, ⟨-, rfl, rfl⟩, rfl⟩
    exact ⟨v, hq, rfl⟩
  · rintro ⟨v, hq, rfl⟩
    exact ⟨v, s', _, _, ⟨hq, rfl⟩, ⟨trivial, rfl, rfl⟩, rfl⟩

/-- The one request of `list`. -/
def listRequest (m : BaseManager) (phrase : String) : Request :=
  .search (m.listAction.getD m.config.search) phrase defaultRowCount

theorem run_list_eq (phrase : String) :
    (m.list phrase).run srv s = srv (m.listRequest phrase) s := by
  unfold list listRequest
  cases m.listAction <;> simp

theorem returns_create {r : EnsureResult} (h : (m.create params check).Returns srv s r s' t) :
    Performed srv m (.create m.config.add m.config.payloadKey params) check s r.uuid s' t ∧
      r.changed = true ∧ r.action = .created ∧ r.deduped = [] := by
  obtain ⟨after, _, _, t₂, ⟨-, rfl, rfl⟩, h, rfl⟩ := by
    simpa only [create, Prog.returns_bind, Prog.returns_ofExcept] using h
  cases check with
  | true =>
    obtain ⟨⟨rfl, rfl⟩, rfl⟩ := by simpa [Prog.returns_bind] using h
    exact ⟨.skipped _, rfl, rfl, rfl⟩
  | false =>
    simp only [Bool.false_eq_true, ↓reduceIte, Prog.returns_bind, returns_logError,
      returns_await, returns_log, Prog.pure_eq_ret, Prog.returns_ret] at h
    obtain ⟨uuid, s₁, _, _, ⟨_, s₂, _, _, ⟨hq, rfl⟩, ⟨u, s₃, t₃, _, happly, ⟨rfl, rfl, rfl⟩, rfl⟩,
      rfl⟩, ⟨_, _, _, _, ⟨rfl, rfl⟩, ⟨rfl, rfl, rfl⟩, rfl⟩, rfl⟩ := h
    refine ⟨?_, rfl, rfl, rfl⟩
    simpa using Performed.sent hq happly

theorem returns_update {uuid : Json} {r : EnsureResult}
    (h : (m.update uuid params check).Returns srv s r s' t) :
    ∃ before s₁ t₁ t₂ v, (m.get uuid).Returns srv s before s₁ t₁ ∧
      Performed srv m (.update m.config.set (pyStr uuid) m.config.payloadKey params) check
        s₁ v s' t₂ ∧
      t = t₁ ++ t₂ ∧ r.changed = true ∧ r.action = .updated ∧ r.uuid = some uuid ∧
      r.deduped = [] := by
  simp only [update, Prog.returns_bind, Prog.returns_ofExcept] at h
  obtain ⟨before, s₁, t₁, _, hget, ⟨_, _, _, _, ⟨-, rfl, rfl⟩,
    ⟨after, _, _, _, ⟨-, rfl, rfl⟩, h, rfl⟩, rfl⟩, rfl⟩ := h
  cases check with
  | true =>
    obtain ⟨⟨rfl, rfl⟩, rfl⟩ := by simpa [Prog.returns_bind] using h
    exact ⟨before, _, t₁, [], none, hget, .skipped _, by simp, rfl, rfl, rfl, rfl⟩
  | false =>
    simp only [Bool.false_eq_true, ↓reduceIte, Prog.returns_bind, returns_logError,
      returns_await, returns_log, Prog.pure_eq_ret, Prog.returns_ret] at h
    obtain ⟨_, _, _, _, ⟨v, s₂, _, t₂, ⟨hq, rfl⟩, happly, rfl⟩,
      ⟨_, _, _, _, ⟨rfl, rfl⟩, ⟨rfl, rfl, rfl⟩, rfl⟩, rfl⟩ := h
    exact ⟨before, _, t₁, _, some v, hget, .sent hq happly, by simp, rfl, rfl, rfl, rfl⟩

theorem returns_delete {uuid : Json} {r : EnsureResult}
    (h : (m.delete uuid check).Returns srv s r s' t) :
    ∃ item s₁ t₁ t₂ v, (m.get uuid).Returns srv s item s₁ t₁ ∧
      Performed srv m (.delete m.config.delete (pyStr uuid)) check s₁ v s' t₂ ∧
      t = t₁ ++ t₂ ∧ r.changed = true ∧ r.action = .deleted ∧ r.uuid = some uuid ∧
      r.deduped = [] := by
  simp only [delete, Prog.returns_bind, Prog.returns_ofExcept] at h
  obtain ⟨item, s₁, t₁, _, hget, ⟨_, _, _, _, ⟨-, rfl, rfl⟩,
    ⟨before, _, _, _, ⟨-, rfl, rfl⟩, h, rfl⟩, rfl⟩, rfl⟩ := h
  cases check with
  | true =>
    obtain ⟨⟨rfl, rfl⟩, rfl⟩ := by simpa [Prog.returns_bind] using h
    exact ⟨item, _, t₁, [], none, hget, .skipped _, by simp, rfl, rfl, rfl, rfl⟩
  | false =>
    simp only [Bool.false_eq_true, ↓reduceIte, Prog.returns_bind, returns_logError,
      returns_await, returns_log, Prog.pure_eq_ret, Prog.returns_ret] at h
    obtain ⟨_, _, _, _, ⟨v, s₂, _, t₂, ⟨hq, rfl⟩, happly, rfl⟩,
      ⟨_, _, _, _, ⟨rfl, rfl⟩, ⟨rfl, rfl, rfl⟩, rfl⟩, rfl⟩ := h
    exact ⟨item, _, t₁, _, some v, hget, .sent hq happly, by simp, rfl, rfl, rfl, rfl⟩

/-! What each method can ask. Only the second half of `create`, `update` and `delete`
and the removal of duplicates leave the read-only requests. -/

abbrev ReadOnly : Request → Prop := fun q => q.isRead = true

theorem asks_get (uuid : Json) : (m.get uuid).Asks ReadOnly := by
  apply Prog.asks_bind
  · apply asks_logError
    exact (asks_await _).mpr rfl
  · intro body
    simp

theorem asks_list (phrase : String) : (m.list phrase).Asks ReadOnly := by
  unfold list
  split
  · exact (asks_await _).mpr rfl
  · apply asks_logError
    exact (asks_await _).mpr rfl

theorem asks_findMatching (phrase : Option String) :
    (m.identity.findMatching params m.list phrase).Asks ReadOnly := by
  apply Prog.asks_bind (asks_list _)
  intro rows
  apply Prog.asks_bind (by simp)
  intro items
  exact Prog.asks_bind (by simp) (fun _ => trivial)

theorem asks_findExisting : (m.identity.findExisting params m.list).Asks ReadOnly := by
  apply Prog.asks_bind
  · apply asks_logErrorUnless
    apply Prog.asks_bind (asks_findMatching _)
    intro found
    exact Prog.asks_bind (by simp) (fun _ => trivial)
  · rintro ⟨found, uuids⟩
    rcases found with _ | ⟨row, _ | ⟨row', rest⟩⟩
    · trivial
    · trivial
    · exact Prog.asks_bind (asks_log ..) (fun _ => trivial)

theorem asks_hydrateNested (existing : Option Obj) :
    (m.hydrateNested existing params).Asks ReadOnly := by
  unfold hydrateNested
  split
  · trivial
  · split
    · apply Prog.asks_bind (asks_get _)
      intro full
      exact Prog.asks_bind (by simp) (fun _ => trivial)
    · trivial

theorem asks_create_check : (m.create params true).Asks ReadOnly := by
  apply Prog.asks_bind (by simp)
  intro after
  exact Prog.asks_bind (asks_log ..) (fun _ => trivial)

theorem asks_update_check (uuid : Json) : (m.update uuid params true).Asks ReadOnly := by
  apply Prog.asks_bind (asks_get _)
  intro before
  apply Prog.asks_bind (by simp)
  intro before
  apply Prog.asks_bind (by simp)
  intro after
  exact Prog.asks_bind (asks_log ..) (fun _ => trivial)

theorem asks_delete_check (uuid : Json) : (m.delete uuid true).Asks ReadOnly := by
  apply Prog.asks_bind (asks_get _)
  intro item
  apply Prog.asks_bind (by simp)
  intro fields
  apply Prog.asks_bind (by simp)
  intro before
  exact Prog.asks_bind (asks_log ..) (fun _ => trivial)

theorem asks_collapseDuplicates_check (label : String) :
    (m.collapseDuplicates params true label).Asks ReadOnly := by
  apply Prog.asks_bind (asks_findMatching _)
  intro found
  rcases found with _ | ⟨row, _ | ⟨row', rest⟩⟩
  · trivial
  · trivial
  · exact Prog.asks_bind (asks_log ..) (fun _ => trivial)

/-- Resolving only reads, except that removing duplicates outside check mode deletes. -/
theorem asks_resolve {uuid : Option String} (h : check = true ∨ dedupe = false) :
    (m.resolve params check uuid dedupe).Asks ReadOnly := by
  cases uuid with
  | some uuid =>
    apply Prog.asks_bind (asks_get _)
    intro existing
    exact Prog.asks_bind (by simp) (fun _ => trivial)
  | none =>
    have hfind : (m.lookup params check dedupe).Asks ReadOnly := by
      cases dedupe with
      | false => exact Prog.asks_bind asks_findExisting (fun _ => trivial)
      | true =>
        obtain rfl : check = true := by simpa using h
        exact asks_collapseDuplicates_check _
    refine Prog.asks_bind hfind ?_
    rintro ⟨existing, deduped⟩
    exact Prog.asks_bind (asks_hydrateNested existing) (fun _ => trivial)

theorem asks_converge_check (state : String) (existing : Option Obj) :
    (m.converge state params true force existing).Asks ReadOnly := by
  unfold converge
  split
  · split
    · exact asks_create_check
    · split
      · exact Prog.asks_bind (asks_log ..) (fun _ => trivial)
      · exact asks_update_check _
  · split
    · exact Prog.asks_bind (asks_log ..) (fun _ => trivial)
    · exact asks_delete_check _

theorem asks_validate (state : String) : (m.validate state params).Asks ReadOnly := by
  unfold validate
  split
  · trivial
  · split
    · exact asks_logError (by simp) _ _
    · trivial

theorem asks_ensure_check (state : String) (uuid : Option String) :
    (m.ensure state params true uuid dedupe force).Asks ReadOnly := by
  apply Prog.asks_bind (asks_validate state)
  intro _
  apply Prog.asks_bind (asks_resolve (Or.inl rfl))
  rintro ⟨existing, deduped⟩
  exact Prog.asks_bind (asks_converge_check state existing) (fun _ => trivial)

section Within

variable {allowed : Request → Prop}

theorem asks_apply_within (h : ∀ ep, m.config.apply = some ep →
    allowed (.reconfigure ep { timeout := m.applyTimeout })) : m.apply.Asks allowed := by
  unfold apply
  split
  · trivial
  · rename_i ep hep
    exact Prog.asks_bind (asks_logError ((asks_await _).mpr (h ep hep)) _ _) fun _ => trivial

variable (hread : ∀ q, q.isRead = true → allowed q) (happly : m.apply.Asks allowed)

include hread happly

theorem asks_create_within
    (hcreate : check = false → allowed (.create m.config.add m.config.payloadKey params)) :
    (m.create params check).Asks allowed := by
  cases check with
  | true => exact Prog.asks_mono hread asks_create_check
  | false =>
    apply Prog.asks_bind (by simp)
    intro after
    have hsend : (do
        let uuid ← await (.create m.config.add m.config.payloadKey params)
        m.apply
        return uuid : M Json).Asks allowed := by
      refine Prog.asks_bind ((asks_await _).mpr (hcreate rfl)) fun uuid => ?_
      exact Prog.asks_bind happly fun _ => trivial
    exact Prog.asks_bind (asks_logError hsend _ _) fun _ => trivial

theorem asks_update_within {uuid : Json} (hupdate : check = false →
      allowed (.update m.config.set (pyStr uuid) m.config.payloadKey params)) :
    (m.update uuid params check).Asks allowed := by
  cases check with
  | true => exact Prog.asks_mono hread (asks_update_check uuid)
  | false =>
    apply Prog.asks_bind (Prog.asks_mono hread (asks_get _))
    intro before
    apply Prog.asks_bind (by simp)
    intro before
    apply Prog.asks_bind (by simp)
    intro after
    refine Prog.asks_bind (asks_logError ?_ _ _) fun _ => trivial
    exact Prog.asks_bind ((asks_await _).mpr (hupdate rfl)) fun _ => happly

theorem asks_delete_within {uuid : Json}
    (hdelete : check = false → allowed (.delete m.config.delete (pyStr uuid))) :
    (m.delete uuid check).Asks allowed := by
  cases check with
  | true => exact Prog.asks_mono hread (asks_delete_check uuid)
  | false =>
    apply Prog.asks_bind (Prog.asks_mono hread (asks_get _))
    intro item
    apply Prog.asks_bind (by simp)
    intro fields
    apply Prog.asks_bind (by simp)
    intro before
    refine Prog.asks_bind (asks_logError ?_ _ _) fun _ => trivial
    exact Prog.asks_bind ((asks_await _).mpr (hdelete rfl)) fun _ => happly

theorem asks_deleteAll_within {uuids : List String}
    (hdelete : ∀ uuid ∈ uuids, allowed (.delete m.config.delete uuid)) :
    (m.deleteAll uuids).Asks allowed := by
  induction uuids with
  | nil => trivial
  | cons uuid rest ih =>
    obtain ⟨huuid, hrest⟩ := List.forall_mem_cons.mp hdelete
    exact Prog.asks_bind (asks_delete_within hread happly fun _ => huuid) fun _ => ih hrest

/-- What exists is changed or deleted under the uuid it bears. -/
theorem asks_converge_within (state : String) {existing : Option Obj}
    (hcreate : existing = none → check = false →
      allowed (.create m.config.add m.config.payloadKey params))
    (hupdate : ∀ row, existing = some row → check = false →
      allowed (.update m.config.set (row.text "uuid") m.config.payloadKey params))
    (hdelete : state ≠ "present" → ∀ row, existing = some row → check = false →
      allowed (.delete m.config.delete (row.text "uuid"))) :
    (m.converge state params check force existing).Asks allowed := by
  unfold converge
  split
  · split
    · exact asks_create_within hread happly (hcreate rfl)
    · rename_i row
      split
      · exact Prog.asks_bind (asks_log ..) fun _ => trivial
      · exact asks_update_within hread happly (hupdate row rfl)
  · rename_i hstate
    split
    · exact Prog.asks_bind (asks_log ..) fun _ => trivial
    · rename_i row
      exact asks_delete_within hread happly (hdelete hstate row rfl)

end Within

/-- The client-side checks make no request. -/
theorem run_validate_snd (state : String) : ((m.validate state params).run srv s).2 = s := by
  unfold validate
  split
  · rfl
  · split
    · simp
    · rfl

/-- `ensure` returned: it validated, resolved, converged and folded the duplicates in. -/
theorem returns_ensure {state : String} {uuid : Option String} {r : EnsureResult}
    (h : (m.ensure state params check uuid dedupe force).Returns srv s r s' t) :
    ∃ existing deduped s₁ t₁ t₂ r₀,
      (m.resolve params check uuid dedupe).Returns srv s (existing, deduped) s₁ t₁ ∧
      (m.converge state params check force existing).Returns srv s₁ r₀ s' t₂ ∧
      t = t₁ ++ t₂ ∧ r = withDedupe r₀ deduped := by
  simp only [ensure, Prog.returns_bind, Prog.pure_eq_ret] at h
  obtain ⟨⟨⟩, s₀, t₀, _, hval, ⟨⟨existing, deduped⟩, s₁, t₁, _, hres, ⟨r₀, _, t₂, _, hconv,
    hret, rfl⟩, rfl⟩, rfl⟩ := h
  obtain ⟨rfl, rfl, rfl⟩ := Prog.returns_ret.mp hret
  have hval' : s₀ = s ∧ t₀ = [] := by
    unfold validate at hval
    split at hval
    · simp at hval
    · split at hval
      · simp only [returns_logError, Prog.returns_ofExcept] at hval
        exact hval.2
      · simp only [Prog.pure_eq_ret, Prog.returns_ret] at hval
        exact hval.2
  obtain ⟨rfl, rfl⟩ := hval'
  exact ⟨existing, deduped, s₁, t₁, t₂, r₀, hres, hconv, by simp, rfl⟩

/-- The validators let the parameters pass. -/
def accepts (m : BaseManager) (params : Obj) : Prop :=
  m.validators = [] ∨ m.registry.validateParams params m.validators = .ok ()

theorem accepts_of_toBool
    (h : (m.registry.validateParams params m.validators).toBool = true) : m.accepts params := by
  rcases hres : m.registry.validateParams params m.validators with e | ⟨⟩
  · rw [hres] at h
    cases h
  · exact Or.inr hres

theorem run_validate_of_accepts (h : m.accepts params) :
    (m.validate "present" params).run srv s = (.ok (), s) := by
  unfold validate
  rcases h with h | h
  · simp [h]
  · by_cases hnil : m.validators = []
    · simp [hnil]
    · simp [hnil, h]

theorem accepts_of_run_validate
    (h : (m.validate "present" params).run srv s = (.ok (), s')) : m.accepts params := by
  by_cases hnil : m.validators = []
  · exact Or.inl hnil
  · right
    have hrun : (m.registry.validateParams params m.validators, s) = (.ok (), s') := by
      simpa [validate, hnil] using h
    exact congrArg Prod.fst hrun

/-- The same forwards. -/
theorem run_ensure {state : String} {uuid : Option String} {existing : Option Obj}
    {deduped : List String} {s₁ : σ} {r : EnsureResult}
    (hvalid : (m.validate state params).run srv s = (.ok (), s))
    (hres : (m.resolve params check uuid dedupe).run srv s = (.ok (existing, deduped), s₁))
    (hconv : (m.converge state params check force existing).run srv s₁ = (.ok r, s')) :
    (m.ensure state params check uuid dedupe force).run srv s =
      (.ok (withDedupe r deduped), s') := by
  rw [ensure, Prog.run_bind_of_ok hvalid, Prog.run_bind_of_ok hres, Prog.run_bind_of_ok hconv]
  rfl

/-- A state without drift is left alone. -/
theorem run_converge_noop {current : Obj}
    (hdiff : m.diffEngine.computeDiff current params = none) :
    (m.converge "present" params check false (some current)).run srv s =
      (.ok { changed := false, action := .noop,
             uuid := some (current.getD "uuid" (.str "")) }, s) := by
  simp [converge, hdiff, Prog.run_bind]

end BaseManager
end Opnsense
