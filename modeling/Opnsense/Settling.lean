import Opnsense.Singleton

namespace Opnsense
open Interaction BaseManager

structure Accounted (changed : Bool) (t : List (Request × Reply)) : Prop where
  reads : changed = false → ∀ qr ∈ t, qr.1.isRead = true
  writes : changed = true → Writes t
  applied : FollowedBy (fun qr => qr.1.isWrite = true) Applied t

abbrev OnlyReads (t : List (Request × Reply)) : Prop := ∀ qr ∈ t, qr.1.isRead = true

variable {σ : Type} {srv : Appliance σ} {s s' : σ} {t t' : List (Request × Reply)}
  {params : Obj} {dedupe force : Bool}

theorem not_writes_of_onlyReads (h : OnlyReads t) : ¬ Writes t := by
  rintro ⟨⟨q, reply⟩, hmem, hw⟩
  have hread : q.isRead = true := h _ hmem
  cases q <;> simp [Request.isRead, Request.isWrite] at hread hw

theorem onlyReads_append (h : OnlyReads t) (h' : OnlyReads t') : OnlyReads (t ++ t') := by
  intro qr hqr
  rcases List.mem_append.mp hqr with hqr | hqr
  · exact h qr hqr
  · exact h' qr hqr

theorem onlyReads_of_asks {α : Type} {p : M α} {a : α} (hp : p.Asks ReadOnly)
    (h : p.Returns srv s a s' t) : OnlyReads t := by
  obtain ⟨-, rfl⟩ := h
  exact fun qr hqr => hp.of_mem_trace hqr

theorem followedBy_of_onlyReads (h : OnlyReads t) :
    FollowedBy (fun qr => qr.1.isWrite = true) Applied t :=
  followedBy_of_forall_not fun qr hqr hw => not_writes_of_onlyReads h ⟨qr, hqr, hw⟩

theorem accounted_of_onlyReads (h : OnlyReads t) : Accounted false t where
  reads _ := h
  writes hc := by cases hc
  applied := followedBy_of_onlyReads h

theorem Accounted.append_reads {c : Bool} (h : Accounted c t) (h' : OnlyReads t') :
    Accounted c (t ++ t') where
  reads hc := onlyReads_append (h.reads hc) h'
  writes hc := writes_append.mpr (Or.inl (h.writes hc))
  applied := followedBy_append h.applied (followedBy_of_onlyReads h')

theorem Accounted.reads_append {c : Bool} (h : OnlyReads t) (h' : Accounted c t') :
    Accounted c (t ++ t') where
  reads hc := onlyReads_append h (h'.reads hc)
  writes hc := writes_append.mpr (Or.inr (h'.writes hc))
  applied := followedBy_append (followedBy_of_onlyReads h) h'.applied

/-- A change that was reported has an apply on the trace. -/
theorem Accounted.exists_applied (h : Accounted true t) : ∃ qr ∈ t, Applied qr := by
  obtain ⟨qr, hmem, hw⟩ := h.writes rfl
  obtain ⟨before, after, rfl⟩ := List.append_of_mem hmem
  obtain ⟨a, ha, happlied⟩ := followedBy_iff.mp h.applied before qr after rfl hw
  exact ⟨a, List.mem_append_right _ (List.mem_cons_of_mem _ ha), happlied⟩

theorem not_isWrite_of_applied {qr : Request × Reply} (h : Applied qr) :
    ¬ qr.1.isWrite = true := by
  obtain ⟨⟨q, reply⟩, hap, -⟩ := qr, h
  cases q <;> simp [Request.isApply, Request.isWrite] at hap ⊢

/-- Writes and one apply behind them. -/
theorem accounted_of_applied {ws : List (Request × Reply)} {qr : Request × Reply}
    (hw : Writes ws) (hqr : Applied qr) : Accounted true (ws ++ [qr]) where
  reads hc := by cases hc
  writes _ := writes_append.mpr (Or.inl hw)
  applied := by
    clear hw
    induction ws with
    | nil => exact ⟨fun hw => absurd hw (not_isWrite_of_applied hqr), trivial⟩
    | cons w rest ih =>
      refine ⟨fun _ => ⟨qr, ?_, hqr⟩, ih⟩
      exact List.mem_append_right _ (List.mem_singleton_self qr)

namespace BaseManager

variable {m : BaseManager} {uuid : Option String}

/-- A lookup that removed nothing only read. -/
theorem onlyReads_lookup {existing : Option Obj}
    (h : (m.lookup params false dedupe).Returns srv s (existing, []) s' t) : OnlyReads t := by
  cases dedupe with
  | false =>
    refine onlyReads_of_asks ?_ h
    exact Prog.asks_bind asks_findExisting fun _ => trivial
  | true =>
    obtain ⟨found, s₁, t₁, t₂, hfind, rfl, -, -, hdel⟩ := returns_collapseDuplicates h
    obtain ⟨-, rfl⟩ : s' = s₁ ∧ t₂ = [] := by simpa [deleteAll] using hdel
    rw [List.append_nil]
    exact onlyReads_of_asks (asks_findMatching none) hfind

theorem onlyReads_resolve {existing : Option Obj}
    (h : (m.resolve params false uuid dedupe).Returns srv s (existing, []) s' t) :
    OnlyReads t := by
  cases uuid with
  | some uuid =>
    refine onlyReads_of_asks ?_ h
    exact Prog.asks_bind (asks_get _) fun _ => Prog.asks_bind (by simp) fun _ => trivial
  | none =>
    obtain ⟨found, s₁, t₁, t₂, hlook, hhyd, rfl⟩ := returns_resolve h
    exact onlyReads_append (onlyReads_lookup hlook)
      (onlyReads_of_asks (asks_hydrateNested found) hhyd)

/-- The second half of an `ensure` that reports no change made no request. -/
theorem trace_converge_of_unchanged {state : String} {existing : Option Obj} {r : EnsureResult}
    (h : (m.converge state params false force existing).Returns srv s r s' t)
    (hr : r.changed = false) : t = [] := by
  unfold converge at h
  split at h
  · split at h
    · rw [(returns_create h).2.1] at hr
      cases hr
    · split at h
      · obtain ⟨u, s₁, t₁, t₂, hlog, hret, rfl⟩ := Prog.returns_bind.mp h
        rw [((returns_log ..).mp hlog).2, (Prog.returns_ret.mp hret).2.2, List.append_nil]
      · obtain ⟨before, s₁, t₁, t₂, v, -, -, -, hc, -⟩ := returns_update h
        rw [hc] at hr
        cases hr
  · split at h
    · obtain ⟨u, s₁, t₁, t₂, hlog, hret, rfl⟩ := Prog.returns_bind.mp h
      rw [((returns_log ..).mp hlog).2, (Prog.returns_ret.mp hret).2.2, List.append_nil]
    · obtain ⟨item, s₁, t₁, t₂, v, -, -, -, hc, -⟩ := returns_delete h
      rw [hc] at hr
      cases hr

theorem ensure_accounted {state : String} {r : EnsureResult} (hep : m.config.apply ≠ none)
    (h : (m.ensure state params false uuid dedupe force).Returns srv s r s' t) :
    Accounted r.changed t := by
  obtain ⟨hwrites, happlied⟩ := ensure_changed_iff_writes h
  refine ⟨fun hr => ?_, fun hr => ?_, happlied hep⟩
  · obtain ⟨existing, deduped, s₁, t₁, t₂, r₀, hres, hconv, rfl, rfl⟩ := returns_ensure h
    -- a removed duplicate would have been reported as a change
    have hparts : deduped = [] ∧ r₀.changed = false := by
      unfold withDedupe at hr
      split at hr
      · rename_i hempty
        exact ⟨by simpa using hempty, hr⟩
      · cases hr
    obtain ⟨rfl, hr₀⟩ := hparts
    rw [trace_converge_of_unchanged hconv hr₀, List.append_nil]
    exact onlyReads_resolve hres
  · by_contra hnot
    rw [hwrites.mpr hnot] at hr
    cases hr

end BaseManager

namespace BaseSingletonManager

variable {m : BaseSingletonManager}

theorem strict_apply : m.apply.Strict IsError := by
  unfold apply
  split
  · trivial
  · exact Prog.strict_bind (strict_logError (strict_await _)) fun _ => trivial

theorem strict_get : m.get.Strict IsError :=
  Prog.strict_bind (strict_logError (strict_await _)) fun _ =>
    Prog.strict_bind (Prog.strict_ofExcept _) fun _ => trivial

theorem strict_set : (m.set params false).Strict IsError := by
  apply Prog.strict_bind strict_get
  intro before
  apply Prog.strict_bind (strict_logError (Prog.strict_ofExcept _))
  intro diff
  apply Prog.strict_bind (Prog.strict_ofExcept _)
  intro redactedBefore
  cases hdiff : diff.isNone with
  | true => exact Prog.strict_bind (Prog.strict_tell _) fun _ => trivial
  | false =>
    apply Prog.strict_bind (Prog.strict_ofExcept _)
    intro current
    apply Prog.strict_bind (Prog.strict_ofExcept _)
    intro redactedAfter
    have hsend : (do
        let _ ← await (.post m.setEndpoint (m.payload params))
        m.apply).Strict IsError :=
      Prog.strict_bind (strict_await _) fun _ => strict_apply
    apply Prog.strict_bind (strict_logError hsend)
    intro _
    apply Prog.strict_bind strict_get
    intro actualAfter
    apply Prog.strict_bind (Prog.strict_ofExcept _)
    intro redactedActual
    exact Prog.strict_bind (Prog.strict_tell _) fun _ => trivial

theorem strict_validate (state : String) : (m.validate state params).Strict IsError := by
  unfold validate
  split
  · trivial
  · split
    · exact strict_logError (Prog.strict_ofExcept _)
    · trivial

theorem strict_ensure (state : String) : (m.ensure state params).Strict IsError :=
  Prog.strict_bind (strict_validate state) fun _ => strict_set

theorem asks_get : m.get.Asks ReadOnly := by
  apply Prog.asks_bind
  · apply asks_logError
    exact (asks_await _).mpr rfl
  · intro body
    exact Prog.asks_bind (by simp) fun _ => trivial

theorem asks_validate (state : String) : (m.validate state params).Asks ReadOnly := by
  unfold validate
  split
  · trivial
  · split
    · exact asks_logError (by simp) _ _
    · trivial

/-- With an endpoint set, the apply was answered, and that is its only request. -/
theorem returns_apply {u : Unit} (hep : m.applyEndpoint ≠ none)
    (h : m.apply.Returns srv s u s' t) : ∃ qr, t = [qr] ∧ Applied qr := by
  obtain ⟨ep, hep⟩ := Option.ne_none_iff_exists'.mp hep
  simp only [apply, hep, Prog.returns_bind, returns_logError, returns_await, Prog.pure_eq_ret,
    Prog.returns_ret] at h
  obtain ⟨v, s₁, _, _, ⟨hq, rfl⟩, ⟨-, rfl, rfl⟩, rfl⟩ := h
  exact ⟨_, rfl, rfl, v, rfl⟩

/-- What a set outside check mode did if it returned: it read and found the settings in place, or
it posted them, applied them and read them again. -/
theorem returns_set {r : EnsureResult} (h : (m.set params false).Returns srv s r s' t) :
    ∃ before s₁ t₁ t₂ diff shown, m.get.Returns srv s before s₁ t₁ ∧
      (m.diff before params).Returns srv s₁ diff s₁ [] ∧
      redactDict m.redactFields before = .ok shown ∧ t = t₁ ++ t₂ ∧
      ((diff = none ∧ s' = s₁ ∧ t₂ = [] ∧
          r = { changed := false, action := .noop, before := some shown, after := some shown }) ∨
        (diff ≠ none ∧ ∃ v s₂ s₃ t₃ t₄ actual after,
          srv (.post m.setEndpoint (m.payload params)) s₁ = (.ok v, s₂) ∧
          m.apply.Returns srv s₂ () s₃ t₃ ∧ m.get.Returns srv s₃ actual s' t₄ ∧
          redactDict m.redactFields actual = .ok after ∧
          t₂ = (.post m.setEndpoint (m.payload params), .ok v) :: t₃ ++ t₄ ∧
          r = { changed := true, action := .updated, before := some shown,
                after := some after })) := by
  obtain ⟨before, s₁, t₁, _, hget, h₁, rfl⟩ := Prog.returns_bind.mp h
  obtain ⟨diff, _, _, _, hdiff, h₂, rfl⟩ := Prog.returns_bind.mp h₁
  obtain ⟨-, rfl, rfl⟩ := Prog.returns_ofExcept.mp (returns_logError.mp hdiff)
  obtain ⟨shown, _, _, t₂, hredact, h₃, rfl⟩ := Prog.returns_bind.mp h₂
  obtain ⟨hshown, rfl, rfl⟩ := Prog.returns_ofExcept.mp hredact
  refine ⟨before, _, t₁, t₂, diff, shown, hget, hdiff, hshown, rfl, ?_⟩
  clear hget hdiff h h₁ h₂
  cases diff with
  | none =>
    obtain ⟨_, _, _, _, hlog, hret, rfl⟩ := Prog.returns_bind.mp h₃
    obtain ⟨rfl, rfl⟩ := (returns_log ..).mp hlog
    obtain ⟨rfl, rfl, rfl⟩ := Prog.returns_ret.mp hret
    exact Or.inl ⟨rfl, rfl, rfl, rfl⟩
  | some drift =>
    -- what a check would report is worked out here as well, and put aside
    obtain ⟨current, _, _, _, hcurrent, h₄, rfl⟩ := Prog.returns_bind.mp h₃
    obtain ⟨-, rfl, rfl⟩ := Prog.returns_ofExcept.mp hcurrent
    obtain ⟨projected, _, _, _, hprojected, h₅, rfl⟩ := Prog.returns_bind.mp h₄
    obtain ⟨-, rfl, rfl⟩ := Prog.returns_ofExcept.mp hprojected
    obtain ⟨_, s₃, _, _, hsend, h₆, rfl⟩ := Prog.returns_bind.mp h₅
    obtain ⟨v, s₂, _, t₃, hpost, happly, rfl⟩ := Prog.returns_bind.mp (returns_logError.mp hsend)
    obtain ⟨hanswer, rfl⟩ := (returns_await _).mp hpost
    obtain ⟨actual, _, t₄, _, hreget, h₇, rfl⟩ := Prog.returns_bind.mp h₆
    obtain ⟨after, _, _, _, hredact', h₈, rfl⟩ := Prog.returns_bind.mp h₇
    obtain ⟨hafter, rfl, rfl⟩ := Prog.returns_ofExcept.mp hredact'
    obtain ⟨_, _, _, _, hlog, hret, rfl⟩ := Prog.returns_bind.mp h₈
    obtain ⟨rfl, rfl⟩ := (returns_log ..).mp hlog
    obtain ⟨rfl, rfl, rfl⟩ := Prog.returns_ret.mp hret
    exact Or.inr ⟨Option.some_ne_none drift, v, s₂, s₃, t₃, t₄, actual, after, hanswer, happly,
      hreget, hafter, by simp, rfl⟩

theorem set_accounted {r : EnsureResult} (hep : m.applyEndpoint ≠ none)
    (h : (m.set params false).Returns srv s r s' t) : Accounted r.changed t := by
  obtain ⟨before, s₁, t₁, t₂, diff, shown, hget, -, -, rfl, hset⟩ := returns_set h
  have hbefore := onlyReads_of_asks asks_get hget
  rcases hset with ⟨-, -, rfl, rfl⟩ |
    ⟨-, v, s₂, s₃, t₃, t₄, actual, after, -, happly, hreget, -, rfl, rfl⟩
  · exact accounted_of_onlyReads (by simpa using hbefore)
  · obtain ⟨qr, rfl, happlied⟩ := returns_apply hep happly
    have hafter := onlyReads_of_asks asks_get hreget
    have hwrites : Writes [(Request.post m.setEndpoint (m.payload params), Except.ok v)] :=
      ⟨_, List.mem_cons_self .., rfl⟩
    have hsent := accounted_of_applied hwrites happlied
    exact (hsent.append_reads hafter).reads_append hbefore

theorem ensure_accounted {state : String} {r : EnsureResult} (hep : m.applyEndpoint ≠ none)
    (h : (m.ensure state params).Returns srv s r s' t) : Accounted r.changed t := by
  obtain ⟨u, s₁, t₁, t₂, hval, hset, rfl⟩ := Prog.returns_bind.mp h
  have hvalid := onlyReads_of_asks (asks_validate state) hval
  exact (set_accounted hep hset).reads_append hvalid

end BaseSingletonManager
end Opnsense
