import Opnsense.Raises

namespace Opnsense
namespace BaseManager
open Interaction

variable {σ : Type} {srv : Appliance σ} {m : BaseManager} {s s' : σ}
  {t t' : List (Request × Reply)} {params : Obj} {check dedupe force : Bool} {uuid : Option String}

abbrev Unambiguous : Exc → Prop := fun e => e.isAmbiguous = false

/-- The client never raises an ambiguous match: only the identity lookup does. -/
def NeverAmbiguous (srv : Appliance σ) : Prop :=
  ∀ q s e, (srv q s).1 = .error e → e.isAmbiguous = false

abbrev ClientReply : Reply → Prop := fun reply => ∀ e, reply = .error e → e.isAmbiguous = false

theorem unambiguous_of_python (e : Exc) (h : e.isPython = true) : Unambiguous e := by
  cases e with
  | opnsense e => cases h
  | _ => rfl

/-- Two rows of the identity are an error, an ambiguous match once they all bear a uuid. -/
theorem run_findExisting_of_two {rows : List Obj} {s₁ : σ}
    (hlist : (m.list (m.identity.searchPhrase params)).run srv s =
      (.ok (.arr (rows.map .obj)), s₁))
    (hlen : 2 ≤ (matchingRows m.matchKeys params rows).length) :
    ∃ e, (m.identity.findExisting params m.list).run srv s = (.error e, s₁) ∧
      (e.isAmbiguous = true ↔
        ∀ row ∈ matchingRows m.matchKeys params rows, row.has "uuid" = true) := by
  have hfind := run_findMatching_of_list params (some (m.identity.searchPhrase params)) hlist
  have hmany : ¬ (matchingRows m.matchKeys params rows).length ≤ 1 := by omega
  rw [IdentityResolver.findExisting, Prog.run_bind, run_logErrorUnless,
    Prog.run_bind_of_ok hfind]
  simp only [hmany, if_false]
  cases huuids : (matchingRows m.matchKeys params rows).mapM uuidOf with
  | error e =>
    refine ⟨e, by simp [Prog.run_bind], iff_of_false ?_ fun hall => ?_⟩
    · simp [unambiguous_of_python _ (mapM_uuidOf_python huuids)]
    · obtain ⟨uuids, hok, -⟩ := IdentityResolver.mapM_uuidOf hall
      rw [huuids] at hok
      cases hok
  | ok uuids =>
    refine ⟨m.identity.ambiguousMatch params (matchingRows m.matchKeys params rows).length uuids,
      ?_, iff_of_true rfl (IdentityResolver.has_of_mapM_uuidOf huuids)⟩
    rcases hfound : matchingRows m.matchKeys params rows with _ | ⟨row, _ | ⟨row', rest⟩⟩
    · simp [hfound] at hlen
    · simp [hfound] at hlen
    · simp [Prog.run_bind]

/-- A call that ends in an ambiguous match has written nothing. -/
theorem ensure_ambiguous_writes_nothing (hsrv : NeverAmbiguous srv) {state : String} {e : Exc}
    (h : (m.ensure state params check uuid dedupe force).run srv s = (.error e, s'))
    (he : e.isAmbiguous = true) :
    ¬ Writes ((m.ensure state params check uuid dedupe force).trace srv s) := by
  have hclient : ∀ q s, ClientReply (srv q s).1 := fun q s => hsrv q s
  rcases Prog.run_bind_eq_error.mp h with hval | ⟨_, s₀, hval, hrest⟩
  · rw [ensure, Prog.trace_bind_of_error hval]
    exact not_writes_of_asks (asks_validate state)
  rw [ensure, Prog.trace_bind_of_ok hval, writes_append, not_or]
  refine ⟨not_writes_of_asks (asks_validate state), ?_⟩
  rcases Prog.run_bind_eq_error.mp hrest with hres | ⟨⟨existing, deduped⟩, s₁, hres, hconv⟩
  · rw [Prog.trace_bind_of_error hres]
    by_cases hcase : uuid ≠ none ∨ dedupe = true
    · have hfine := (raises_resolve unambiguous_of_python hcase).run_error hclient hres
      exact absurd (he.symm.trans hfine) (by simp)
    · have hdedupe : dedupe = false := by
        cases dedupe <;> simp at hcase ⊢
      exact not_writes_of_asks (asks_resolve (Or.inr hdedupe))
  · have hraises : (do
        let result ← m.converge state params check force existing
        return withDedupe result deduped : M EnsureResult).RaisesOnly ClientReply Unambiguous :=
      Prog.raisesOnly_bind (raises_converge unambiguous_of_python state existing) fun _ => trivial
    exact absurd (he.symm.trans (hraises.run_error hclient hconv)) (by simp)

end BaseManager
end Opnsense
