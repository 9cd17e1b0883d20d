import Opnsense.Ambiguity
import Opnsense.CheckMode
import Opnsense.PlainServer

namespace Opnsense
namespace BaseManager
open Interaction

/-- Check mode only reads and predicts the verdict; a returning call outside check mode
reports a change exactly when it wrote, and applies what it writes; an ambiguous match
has written nothing. -/
theorem ensure_verdict_matches_effects {σ : Type} {srv : Appliance σ} {m : BaseManager}
    (hframe : Framed srv m) (hclient : NeverAmbiguous srv) (s : σ) (state : String)
    (params : Obj) (uuid : Option String) (dedupe force : Bool) :
    (∀ qr ∈ (m.ensure state params true uuid dedupe force).trace srv s,
      qr.1.isRead = true) ∧
    (∀ r s₁ r' s₂, (m.ensure state params true uuid dedupe force).run srv s = (.ok r, s₁) →
      (m.ensure state params false uuid dedupe force).run srv s = (.ok r', s₂) →
      r.changed = r'.changed ∧ r.action = r'.action ∧ r.deduped = r'.deduped) ∧
    (∀ r s', (m.ensure state params false uuid dedupe force).run srv s = (.ok r, s') →
      (r.changed = false ↔ ∀ qr ∈ (m.ensure state params false uuid dedupe force).trace srv s,
        qr.1.isWrite = false) ∧
      (m.config.apply ≠ none → ∀ before qr after,
        (m.ensure state params false uuid dedupe force).trace srv s = before ++ qr :: after →
        qr.1.isWrite = true → ∃ a ∈ after, a.1.isApply = true)) ∧
    (∀ check e s', (m.ensure state params check uuid dedupe force).run srv s = (.error e, s') →
      e.isAmbiguous = true →
      ∀ qr ∈ (m.ensure state params check uuid dedupe force).trace srv s,
        qr.1.isWrite = false) := by
  have hunwritten : ∀ t : List (Request × Reply),
      ¬ Writes t ↔ ∀ qr ∈ t, qr.1.isWrite = false := by
    intro t
    simp [Writes]
  refine ⟨?_, ?_, ?_, ?_⟩
  · intro qr hqr
    exact (asks_ensure_check state uuid).of_mem_trace hqr
  · intro r s₁ r' s₂ h h'
    have heq := ensure_check_predicts hframe (Prog.returns_of_run h) (Prog.returns_of_run h')
    simpa using heq
  · intro r s' h
    obtain ⟨hchanged, happlied⟩ := ensure_changed_iff_writes (Prog.returns_of_run h)
    refine ⟨hchanged.trans (hunwritten _), ?_⟩
    intro hep before qr after htrace hw
    obtain ⟨a, ha, hap⟩ := followedBy_iff.mp (happlied hep) before qr after htrace hw
    exact ⟨a, ha, hap.1⟩
  · intro check e s' h he
    exact (hunwritten _).mp (ensure_ambiguous_writes_nothing hclient h he)

/-- A manager of a small table, one match key and an apply endpoint. -/
def sampleManager : BaseManager where
  className := "SampleManager"
  config :=
    { base := "sample/settings", payloadKey := "item", applyEndpoint := some "sample/apply" }
  matchKeys := ["name"]
  matchKeys_ne := nameKey_ne
  diffEngine := { checkpw := fun _ _ => false }
  registry := { get := fun _ => none }

theorem plainServer_neverAmbiguous (defaults : Obj) (payloadKey : String) :
    NeverAmbiguous ((plainServer defaults).serve payloadKey) := by
  intro q T e h
  cases q with
  | get ep opts =>
    simp only [TableServer.serve, TableServer.itemOf] at h
    split at h
    · cases h
    · cases h
  | _ => cases h

theorem ensure_verdict_matches_effects_plain :
    let srv := (plainServer []).serve "item"
    let T : Table := ⟨⟨[⟨"u1", [("name", .str "a")], by decide⟩], by simp⟩, 0⟩
    let params : Obj := [("name", .str "a"), ("descr", .str "x")]
    ∀ qr ∈ (sampleManager.ensure "present" params true).trace srv T, qr.1.isRead = true :=
  (ensure_verdict_matches_effects
    (TableServer.serve_framed (plainServer []) sampleManager)
    (plainServer_neverAmbiguous [] "item") _ "present" _ none false false).1

end BaseManager
end Opnsense
