import Mathlib.Data.Set.Basic
import Opnsense.OwnRequests

namespace Opnsense
open Interaction BaseManager

/-- Writes change the saved configuration within their reach; an apply copies the part in
its scope to the running one, or refuses and leaves it. Nothing else changes either. -/
structure StagedServer (σ ι C : Type) where
  serve : Appliance σ
  saved : σ → ι → C
  running : σ → ι → C
  reach : Request → Set ι
  scope : String → Set ι
  read_saved : ∀ q s, q.isRead = true → saved (serve q s).2 = saved s
  read_running : ∀ q s, q.isRead = true → running (serve q s).2 = running s
  write_saved : ∀ q s i, q.isWrite = true → i ∉ reach q → saved (serve q s).2 i = saved s i
  write_running : ∀ q s, q.isWrite = true → running (serve q s).2 = running s
  apply_saved : ∀ ep opts s, saved (serve (.reconfigure ep opts) s).2 = saved s
  apply_running : ∀ ep opts s i, i ∈ scope ep →
    running (serve (.reconfigure ep opts) s).2 i = saved s i ∨
      running (serve (.reconfigure ep opts) s).2 i = running s i ∧
        ∃ e, (serve (.reconfigure ep opts) s).1 = .error e
  apply_other : ∀ ep opts s i, i ∉ scope ep →
    running (serve (.reconfigure ep opts) s).2 i = running s i

/-- A call of one of the three lifecycles, outside check mode. -/
inductive Call where
  | ensure (m : BaseManager) (state : String) (params : Obj) (uuid : Option String)
      (dedupe force : Bool)
  | singleton (m : BaseSingletonManager) (state : String) (params : Obj)
  | rulesets (desired : List (String × Bool))

namespace Call

def program : Call → M EnsureResult
  | ensure m state params uuid dedupe force => m.ensure state params false uuid dedupe force
  | singleton m state params => m.ensure state params
  | rulesets desired => IdsRulesetManager.ensureMany desired

def applyEndpoint : Call → Option String
  | ensure m .. => m.config.apply
  | singleton m .. => m.applyEndpoint
  | rulesets _ => some IdsRulesetManager.applyEndpoint

def ownWrite : Call → Request → Prop
  | ensure m .. => m.ownWrite
  | singleton m .. => m.ownWrite
  | rulesets _ => IdsRulesetManager.ownWrite

theorem asks_program (c : Call) : c.program.Asks (Among c.ownWrite c.applyEndpoint) := by
  cases c with
  | ensure m state params uuid dedupe force => exact asks_ensure_own state uuid
  | singleton m state params => exact BaseSingletonManager.asks_ensure_own state
  | rulesets desired => exact IdsRulesetManager.asks_ensureMany_own desired

theorem strict_program (c : Call) : c.program.Strict IsError := by
  cases c with
  | ensure m state params uuid dedupe force => exact strict_ensure state uuid
  | singleton m state params => exact BaseSingletonManager.strict_ensure state
  | rulesets desired => exact IdsRulesetManager.strict_ensureMany

theorem program_accounted {σ : Type} {srv : Appliance σ} {s s' : σ} {r : EnsureResult}
    {t : List (Request × Reply)} (c : Call) (hep : c.applyEndpoint ≠ none)
    (h : c.program.Returns srv s r s' t) : Accounted r.changed t := by
  cases c with
  | ensure m state params uuid dedupe force => exact ensure_accounted hep h
  | singleton m state params => exact BaseSingletonManager.ensure_accounted hep h
  | rulesets desired => exact IdsRulesetManager.ensureMany_accounted h

end Call

namespace StagedServer

variable {σ ι C F : Type} (api : StagedServer σ ι C)

/-- What runs is what was saved. -/
def Synced (i : ι) (s : σ) : Prop := api.running s i = api.saved s i

/-- What a call is about: the part of the configuration its apply endpoint activates. -/
def about (c : Call) : Set ι := {i | ∃ ep, c.applyEndpoint = some ep ∧ i ∈ api.scope ep}

/-- The manager has an apply endpoint, and it activates whatever the manager saves. -/
structure Fits (c : Call) : Prop where
  applies : c.applyEndpoint ≠ none
  covered : ∀ q, q.isWrite = true → c.ownWrite q → api.reach q ⊆ api.about c

/-- The appliance behind a schedule of failing requests. -/
abbrev behind (failure : F → Exc) : Appliance (σ × List (Fault F)) :=
  faulty (fun e => .error (failure e)) api.serve

variable {api} {failure : F → Exc} {c : Call} {i : ι} {s : σ} {S S' : σ × List (Fault F)}

theorem synced_congr {s' : σ} (hsaved : api.saved s' i = api.saved s i)
    (hrunning : api.running s' i = api.running s i) : api.Synced i s' ↔ api.Synced i s := by
  rw [Synced, Synced, hsaved, hrunning]

theorem synced_read {q : Request} (hq : q.isRead = true) :
    api.Synced i (api.serve q s).2 ↔ api.Synced i s :=
  synced_congr (by rw [api.read_saved q s hq]) (by rw [api.read_running q s hq])

/-- An answered apply activates its scope, a refused one loses nothing. -/
theorem synced_apply {ep : String} (opts : CallOptions) (s : σ) (hi : i ∈ api.scope ep) :
    api.Synced i (api.serve (.reconfigure ep opts) s).2 ∨
      (api.Synced i (api.serve (.reconfigure ep opts) s).2 ↔ api.Synced i s) ∧
        ∃ e, (api.serve (.reconfigure ep opts) s).1 = .error e := by
  have hsaved := congrFun (api.apply_saved ep opts s) i
  rcases api.apply_running ep opts s i hi with hrunning | ⟨hrunning, herror⟩
  · exact Or.inl (hrunning.trans hsaved.symm)
  · exact Or.inr ⟨synced_congr hsaved hrunning, herror⟩

/-- Only a write takes the two configurations apart. -/
theorem synced_of_not_write {q : Request} (hq : ¬ q.isWrite = true) (hs : api.Synced i s) :
    api.Synced i (api.serve q s).2 := by
  rcases isRead_or_isWrite_or_apply q with hread | hwrite | ⟨ep, opts, rfl⟩
  · exact (synced_read hread).mpr hs
  · exact absurd hwrite hq
  · by_cases hi : i ∈ api.scope ep
    · rcases synced_apply opts s hi with hsynced | ⟨hsame, -⟩
      · exact hsynced
      · exact hsame.mpr hs
    · have hsame : api.Synced i (api.serve (.reconfigure ep opts) s).2 ↔ api.Synced i s :=
        synced_congr (by rw [api.apply_saved]) (api.apply_other ep opts s i hi)
      exact hsame.mpr hs

/-- A request of a call leaves alone what the call is not about. -/
theorem synced_unrelated (hfits : api.Fits c) (hi : i ∉ api.about c) {q : Request}
    (hq : Among c.ownWrite c.applyEndpoint q) :
    api.Synced i (api.serve q s).2 ↔ api.Synced i s := by
  rcases isRead_or_isWrite_or_apply q with hread | hwrite | ⟨ep, opts, rfl⟩
  · exact synced_read hread
  · have hout : i ∉ api.reach q := by
      intro hin
      exact hi (hfits.covered q hwrite (ownWrite_of_among hq hwrite) hin)
    exact synced_congr (api.write_saved q s i hwrite hout)
      (by rw [api.write_running q s hwrite])
  · have hout : i ∉ api.scope ep := fun hin => hi ⟨ep, hq, hin⟩
    exact synced_congr (by rw [api.apply_saved]) (api.apply_other ep opts s i hout)

theorem call_unrelated (hfits : api.Fits c) (hi : i ∉ api.about c) :
    api.Synced i (c.program.run (api.behind failure) S).2.1 ↔ api.Synced i S.1 := by
  let same : σ × List (Fault F) → Prop := fun S' => api.Synced i S'.1 ↔ api.Synced i S.1
  have hsame : same S := Iff.rfl
  refine c.asks_program.run_preserves same ?_ hsame
  intro q S' hq hS'
  have hstep : ∀ s, (api.Synced i s ↔ api.Synced i S.1) →
      (api.Synced i (api.serve q s).2 ↔ api.Synced i S.1) :=
    fun s hs => (synced_unrelated hfits hi hq).trans hs
  exact faulty_preserves hstep S' hS'

/-- A call that returned behind a schedule of failures met none of them. -/
theorem returns_of_behind {r : EnsureResult}
    (h : c.program.run (api.behind failure) S = (.ok r, S')) :
    ∃ t, c.program.Returns api.serve S.1 r S'.1 t := by
  refine ⟨_, c.strict_program.returns_of_faulty ?_ (Prog.returns_of_run h)⟩
  intro e
  exact ⟨failure e, rfl⟩

theorem call_unchanged {r : EnsureResult} (hfits : api.Fits c)
    (h : c.program.run (api.behind failure) S = (.ok r, S')) (hr : r.changed = false) :
    api.Synced i S'.1 ↔ api.Synced i S.1 := by
  obtain ⟨t, hret⟩ := returns_of_behind h
  have hreads := (c.program_accounted hfits.applies hret).reads hr
  exact hret.preserves hreads (fun s => api.Synced i s ↔ api.Synced i S.1)
    (fun q s hq hs => (synced_read hq).trans hs) Iff.rfl

/-- A call that reports a change leaves what it is about applied, whatever it found. -/
theorem call_changed {r : EnsureResult} (hfits : api.Fits c) (hi : i ∈ api.about c)
    (h : c.program.run (api.behind failure) S = (.ok r, S')) (hr : r.changed = true) :
    api.Synced i S'.1 := by
  obtain ⟨t, hret⟩ := returns_of_behind h
  have haccounted := c.program_accounted hfits.applies hret
  obtain ⟨ep, hep, hscope⟩ := hi
  have hown : ∀ {ep' opts}, Among c.ownWrite c.applyEndpoint (.reconfigure ep' opts) →
      i ∈ api.scope ep' := by
    intro ep' opts hq
    obtain rfl : ep = ep' := Option.some_inj.mp (hep.symm.trans hq)
    exact hscope
  refine hret.settles c.asks_program (api.Synced i) ?_ ?_ haccounted.applied
    (Or.inr (Accounted.exists_applied (hr ▸ haccounted)))
  · rintro q s hq ⟨happly, v, hv⟩
    obtain ⟨ep', opts, rfl⟩ := eq_reconfigure_of_isApply happly
    rcases synced_apply opts s (hown hq) with hsynced | ⟨-, e, he⟩
    · exact hsynced
    · cases he.symm.trans hv
  · exact fun q s _ hnot hs => synced_of_not_write hnot hs

end StagedServer
end Opnsense
