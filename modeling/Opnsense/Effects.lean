import Opnsense.Lookup

namespace Opnsense
namespace BaseManager
open Interaction

variable {σ : Type} {srv : Appliance σ} {m : BaseManager} {s s' : σ}
  {t t' : List (Request × Reply)} {params : Obj} {check dedupe force : Bool} {uuid : Option String}

/-- Some add, set or del request is on the trace. -/
def Writes (t : List (Request × Reply)) : Prop := ∃ qr ∈ t, qr.1.isWrite = true

/-- An apply the server answered. -/
def Applied (qr : Request × Reply) : Prop := qr.1.isApply = true ∧ ∃ v, qr.2 = .ok v

/-- With an apply endpoint set, an apply comes after every write. -/
def AppliesWrites (m : BaseManager) (t : List (Request × Reply)) : Prop :=
  m.config.apply ≠ none → FollowedBy (fun qr => qr.1.isWrite = true) Applied t

theorem writes_append : Writes (t ++ t') ↔ Writes t ∨ Writes t' := by
  simp [Writes, or_and_right, exists_or]

theorem appliesWrites_append (h : m.AppliesWrites t) (h' : m.AppliesWrites t') :
    m.AppliesWrites (t ++ t') :=
  fun hep => followedBy_append (h hep) (h' hep)

/-- A read-only program leaves a trace without writes. -/
theorem not_writes_of_asks {α : Type} {p : M α} (hp : p.Asks ReadOnly) :
    ¬ Writes (p.trace srv s) := by
  rintro ⟨⟨q, reply⟩, hmem, hw⟩
  have hread : q.isRead = true := hp.of_mem_trace hmem
  cases q <;> simp [Request.isRead, Request.isWrite] at hread hw

theorem appliesWrites_of_not_writes (h : ¬ Writes t) : m.AppliesWrites t := by
  intro _
  apply followedBy_of_forall_not
  intro qr hqr hw
  exact h ⟨qr, hqr, hw⟩

theorem not_writes_of_returns {α : Type} {p : M α} {a : α} (hp : p.Asks ReadOnly)
    (h : p.Returns srv s a s' t) : ¬ Writes t := by
  rw [← h.2]
  exact not_writes_of_asks hp

/-- An apply writes nothing itself, and with an endpoint set it is answered. -/
theorem returns_apply_trace (h : m.apply.Returns srv s () s' t) :
    ¬ Writes t ∧ (m.config.apply ≠ none → ∃ qr ∈ t, Applied qr) := by
  cases hep : m.config.apply with
  | none =>
    obtain ⟨rfl, rfl⟩ := (returns_apply_of_none hep).mp h
    exact ⟨by simp [Writes], fun hne => absurd rfl hne⟩
  | some ep =>
    obtain ⟨v, hq, rfl⟩ := (returns_apply_of_some hep).mp h
    refine ⟨by simp [Writes, Request.isWrite], fun _ => ?_⟩
    exact ⟨_, List.mem_singleton.mpr rfl, rfl, v, rfl⟩

/-- A change is sent exactly outside check mode, and applied. -/
theorem Performed.effects {q : Request} {v : Option Json} (hw : q.isWrite = true)
    (h : Performed srv m q check s v s' t) : (Writes t ↔ check = false) ∧ m.AppliesWrites t := by
  cases h with
  | skipped =>
    have hnone : ¬ Writes [] := by simp [Writes]
    exact ⟨by simpa using hnone, appliesWrites_of_not_writes hnone⟩
  | sent hq happly =>
    obtain ⟨hread, happlied⟩ := returns_apply_trace happly
    refine ⟨⟨fun _ => rfl, fun _ => ⟨_, List.mem_cons_self .., hw⟩⟩, fun hep => ?_⟩
    exact ⟨fun _ => happlied hep, appliesWrites_of_not_writes hread hep⟩

/-- A read before a change adds no write. -/
theorem effects_read_append {p : Prop} {α : Type} {program : M α} {a : α} {s₁ : σ}
    (hp : program.Asks ReadOnly) (hread : program.Returns srv s a s₁ t)
    (h : (Writes t' ↔ p) ∧ m.AppliesWrites t') :
    (Writes (t ++ t') ↔ p) ∧ m.AppliesWrites (t ++ t') := by
  have hnone := not_writes_of_returns hp hread
  refine ⟨?_, appliesWrites_append (appliesWrites_of_not_writes hnone) h.2⟩
  rw [writes_append, h.1]
  exact or_iff_right hnone

theorem returns_deleteAll_effects {uuids : List String} {u : Unit}
    (h : (m.deleteAll uuids).Returns srv s u s' t) :
    (Writes t ↔ uuids ≠ []) ∧ m.AppliesWrites t := by
  induction uuids generalizing s t with
  | nil =>
    obtain ⟨-, -, rfl⟩ := Prog.returns_ret.mp h
    have hnone : ¬ Writes [] := by simp [Writes]
    exact ⟨by simpa using hnone, appliesWrites_of_not_writes hnone⟩
  | cons uuid rest ih =>
    obtain ⟨r, s₁, t₁, t₂, hdel, hrest, rfl⟩ := Prog.returns_bind.mp h
    obtain ⟨item, s₂, t₃, t₄, v, hget, hperf, rfl, -⟩ := returns_delete hdel
    have heff := effects_read_append (asks_get _) hget (hperf.effects rfl)
    obtain ⟨-, happlied⟩ := ih hrest
    refine ⟨?_, appliesWrites_append heff.2 happlied⟩
    rw [writes_append]
    simp [heff.1]

/-- Resolving writes exactly when duplicates were removed outside check mode. -/
theorem returns_lookup_effects {existing : Option Obj} {deduped : List String}
    (h : (m.lookup params check dedupe).Returns srv s (existing, deduped) s' t) :
    (Writes t ↔ check = false ∧ deduped ≠ []) ∧ m.AppliesWrites t := by
  cases dedupe with
  | false =>
    obtain ⟨found, s₁, t₁, _, hfind, hret, rfl⟩ := Prog.returns_bind.mp h
    obtain ⟨heq, rfl, rfl⟩ := Prog.returns_ret.mp hret
    cases heq
    have hnone := not_writes_of_returns asks_findExisting hfind
    rw [List.append_nil]
    exact ⟨by simpa using hnone, appliesWrites_of_not_writes hnone⟩
  | true =>
    obtain ⟨found, s₁, t₁, t₂, hfind, rfl, -, -, hdel⟩ := returns_collapseDuplicates h
    apply effects_read_append (asks_findMatching none) hfind
    cases check with
    | true =>
      obtain ⟨rfl, rfl⟩ := by simpa using hdel
      have hnone : ¬ Writes [] := by simp [Writes]
      exact ⟨by simpa using hnone, appliesWrites_of_not_writes hnone⟩
    | false =>
      have heff := returns_deleteAll_effects (by simpa using hdel)
      exact ⟨by simpa using heff.1, heff.2⟩

theorem returns_resolve_effects {existing : Option Obj} {deduped : List String}
    (h : (m.resolve params check uuid dedupe).Returns srv s (existing, deduped) s' t) :
    (Writes t ↔ check = false ∧ deduped ≠ []) ∧ m.AppliesWrites t := by
  cases uuid with
  | some uuid =>
    have hnone : ¬ Writes t := by
      refine not_writes_of_returns ?_ h
      apply Prog.asks_bind (asks_get _)
      intro item
      exact Prog.asks_bind (by simp) (fun _ => trivial)
    obtain ⟨item, s₁, t₁, _, -, hrest, -⟩ := Prog.returns_bind.mp h
    obtain ⟨row, s₂, t₂, _, -, hret, -⟩ := Prog.returns_bind.mp hrest
    cases (Prog.returns_ret.mp hret).1
    exact ⟨by simpa using hnone, appliesWrites_of_not_writes hnone⟩
  | none =>
    obtain ⟨found, s₁, t₁, t₂, hlook, hhyd, rfl⟩ := returns_resolve h
    obtain ⟨hw, happlied⟩ := returns_lookup_effects hlook
    have hnone := not_writes_of_returns (asks_hydrateNested found) hhyd
    refine ⟨?_, appliesWrites_append happlied (appliesWrites_of_not_writes hnone)⟩
    rw [writes_append, ← hw]
    exact or_iff_left hnone

/-- What the second half of `ensure` reports, decided by the compared state alone. -/
def verdict (m : BaseManager) (state : String) (params : Obj) (force : Bool) :
    Option Obj → Bool × Action
  | none => if state = "present" then (true, .created) else (false, .noop)
  | some existing =>
    if state = "present" then
      if (m.diffEngine.computeDiff existing params).isNone && !force then (false, .noop)
      else (true, .updated)
    else (true, .deleted)

theorem returns_converge {state : String} {existing : Option Obj} {r : EnsureResult}
    (h : (m.converge state params check force existing).Returns srv s r s' t) :
    (r.changed, r.action) = m.verdict state params force existing ∧ r.deduped = [] ∧
      (Writes t ↔ check = false ∧ r.changed = true) ∧ m.AppliesWrites t := by
  -- a noop leaves the trace empty
  have hnone : ¬ Writes [] := by simp [Writes]
  unfold converge at h
  split at h
  · rename_i hstate
    split at h
    · obtain ⟨hperf, hc, ha, hd⟩ := returns_create h
      obtain ⟨hw, happlied⟩ := hperf.effects rfl
      exact ⟨by simp [verdict, hstate, hc, ha], hd, by simp [hw, hc], happlied⟩
    · rename_i row
      split at h
      · rename_i hdiff
        simp only [Prog.returns_bind, returns_log, Prog.pure_eq_ret, Prog.returns_ret] at h
        obtain ⟨u, _, _, _, ⟨rfl, rfl⟩, ⟨rfl, rfl, rfl⟩, rfl⟩ := h
        refine ⟨?_, rfl, by simpa using hnone, appliesWrites_of_not_writes hnone⟩
        simp only [verdict, if_pos hstate, if_pos hdiff]
      · rename_i hdiff
        obtain ⟨before, s₁, t₁, t₂, v, hget, hperf, rfl, hc, ha, -, hd⟩ := returns_update h
        obtain ⟨hw, happlied⟩ := effects_read_append (asks_get _) hget (hperf.effects rfl)
        refine ⟨?_, hd, by simp [hw, hc], happlied⟩
        simp only [verdict, if_pos hstate, if_neg hdiff, hc, ha]
  · rename_i hstate
    split at h
    · simp only [Prog.returns_bind, returns_log, Prog.pure_eq_ret, Prog.returns_ret] at h
      obtain ⟨u, _, _, _, ⟨rfl, rfl⟩, ⟨rfl, rfl, rfl⟩, rfl⟩ := h
      exact ⟨by simp [verdict, hstate], rfl, by simpa using hnone,
        appliesWrites_of_not_writes hnone⟩
    · obtain ⟨item, s₁, t₁, t₂, v, hget, hperf, rfl, hc, ha, -, hd⟩ := returns_delete h
      obtain ⟨hw, happlied⟩ := effects_read_append (asks_get _) hget (hperf.effects rfl)
      exact ⟨by simp [verdict, hstate, hc, ha], hd, by simp [hw, hc], happlied⟩

/-- Outside check mode a returning call reports a change exactly when it wrote. -/
theorem ensure_changed_iff_writes {state : String} {r : EnsureResult}
    (h : (m.ensure state params false uuid dedupe force).Returns srv s r s' t) :
    (r.changed = false ↔ ¬ Writes t) ∧ m.AppliesWrites t := by
  obtain ⟨e, d, s₁, t₁, t₂, r₀, hres, hconv, rfl, rfl⟩ := returns_ensure h
  obtain ⟨hw, happlied⟩ := returns_resolve_effects hres
  obtain ⟨-, -, hw', happlied'⟩ := returns_converge hconv
  refine ⟨?_, appliesWrites_append happlied happlied'⟩
  rw [writes_append, hw, hw']
  unfold withDedupe
  split
  · rename_i hd
    have hnil : d = [] := by simpa using hd
    simp [hnil]
  · rename_i hd
    have hne : d ≠ [] := by simpa using hd
    simp [hne]

end BaseManager
end Opnsense
