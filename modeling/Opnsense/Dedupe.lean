import Opnsense.DedupeFaults
import Opnsense.Fatal
import Opnsense.PlainServer
import Opnsense.TableTotal
import Opnsense.Verdict

namespace Opnsense
namespace TableServer
open Interaction BaseManager

variable {F : Type} {failure : F → Exc} {api : TableServer} {m : BaseManager} {params : Obj}
  {T : Table} {force : Bool}

/-- The same de-duplicating call over and over, each time behind another schedule. -/
def reruns (api : TableServer) (m : BaseManager) (failure : F → Exc) (state : String)
    (params : Obj) (force : Bool) (T : Table) (schedules : List (List (Fault F))) : Table :=
  schedules.foldl (fun S fs => ((m.ensure state params false none true force).run
    (api.faultyServe m.config.payloadKey failure) (S, fs)).2.1) T

theorem reruns_kept (hfaith : Faithful api m params)
    (hkeys : ∀ k ∈ m.matchKeys, params.has k = true) (schedules : List (List (Fault F))) :
    Kept api m params T (reruns api m failure "present" params force T schedules) := by
  induction schedules generalizing T with
  | nil => exact Kept.of_resources rfl
  | cons fs rest ih =>
    have hsame : Same T (T, fs) := rfl
    have hcall := Prog.Triple.final (fun S => Kept api m params T S.1) (T, fs)
      (@triple_present F failure api m params T force hfaith hkeys) hsame
    exact Kept.trans hcall ih

theorem reruns_shrunk (hfaith : Faithful api m params) (schedules : List (List (Fault F))) :
    Shrunk api m params T (reruns api m failure "absent" params force T schedules) := by
  induction schedules generalizing T with
  | nil => exact Shrunk.of_resources rfl
  | cons fs rest ih =>
    have hsame : Same T (T, fs) := rfl
    have hcall := Prog.Triple.final (fun S => Shrunk api m params T S.1) (T, fs)
      (@triple_absent F failure api m params T force hfaith) hsame
    exact Shrunk.trans hcall ih

/-- A returning call with state present leaves exactly one owner: the least there was. -/
theorem returns_present_owner (hfaith : Faithful api m params)
    (hkeys : ∀ k ∈ m.matchKeys, params.has k = true) {r : EnsureResult} {T' : Table}
    {t : List (Request × Reply)}
    (h : (m.ensure "present" params false none true force).Returns
      (api.serve m.config.payloadKey) T r T' t) :
    api.others m params T' = api.others m params T ∧
      ∃ u, api.owners m params T' = [u] ∧
        (api.owners m params T ≠ [] → api.sortedOwners m params T = u :: r.deduped) ∧
        (api.owners m params T = [] → r.deduped = []) := by
  rcases returns_present_table hfaith h with
    ⟨T₁, hsorted, hsame, hadd, -, hdeduped⟩ | ⟨u, T₁, hsorted, howners, hothers, -, -, hstate⟩
  · have hnil := sortedOwners_eq_nil.mp hsorted
    refine ⟨?_, (api.added params T₁).uuid, ?_, fun hne => absurd hnil hne, fun _ => hdeduped⟩
    · calc api.others m params T' = api.others m params (api.add params T₁) := others_congr hadd
        _ = api.others m params T₁ := others_add hfaith hkeys
        _ = api.others m params T := others_congr hsame
    · calc api.owners m params T' = api.owners m params (api.add params T₁) := owners_congr hadd
        _ = api.owners m params T₁ ++ [(api.added params T₁).uuid] := owners_add hfaith hkeys
        _ = [(api.added params T₁).uuid] := by rw [owners_congr hsame, hnil, List.nil_append]
  · have hmem : u ∈ api.owners m params T₁ := by
      rw [howners]
      exact List.mem_singleton_self u
    have hne : api.owners m params T ≠ [] :=
      List.ne_nil_of_mem (isLeast_of_sortedOwners hsorted).1
    rcases hstate with hstate | hstate
    · exact ⟨(others_congr hstate).trans hothers, u, (owners_congr hstate).trans howners,
        fun _ => hsorted, fun hnil => absurd hnil hne⟩
    · refine ⟨?_, u, ?_, fun _ => hsorted, fun hnil => absurd hnil hne⟩
      · calc api.others m params T' = api.others m params (api.set u params T₁) :=
              others_congr hstate
          _ = api.others m params T₁ := others_set hfaith hkeys hmem
          _ = api.others m params T := hothers
      · calc api.owners m params T' = api.owners m params (api.set u params T₁) :=
              owners_congr hstate
          _ = api.owners m params T₁ := owners_set hfaith hkeys hmem
          _ = [u] := howners

/-- However many runs failed, and wherever: resources of another identity are as they
were and the least owner is still there. A run that returns leaves that owner alone in
its class and names the others in their order; a run without faults returns. With state
absent a run that returns leaves none. -/
theorem ensure_dedupe_keeps_least (hfaith : Faithful api m params)
    (hkeys : ∀ k ∈ m.matchKeys, params.has k = true) (failure : F → Exc) (force : Bool)
    (T : Table) (schedules : List (List (Fault F))) :
    (let T₁ := reruns api m failure "present" params force T schedules;
      api.others m params T₁ = api.others m params T ∧
      (∀ u, IsLeast {v | v ∈ api.owners m params T} u → u ∈ api.owners m params T₁) ∧
      (∀ fs r S, (m.ensure "present" params false none true force).run
          (api.faultyServe m.config.payloadKey failure) (T₁, fs) = (.ok r, S) →
        api.others m params S.1 = api.others m params T ∧
        ∃ u, api.owners m params S.1 = [u] ∧
          (∀ v, IsLeast {w | w ∈ api.owners m params T} v → u = v) ∧
          (api.owners m params T₁ ≠ [] → api.sortedOwners m params T₁ = u :: r.deduped) ∧
          (api.owners m params T₁ = [] → r.deduped = [])) ∧
      (m.accepts params → ∃ r T₂, (m.ensure "present" params false none true force).run
        (api.serve m.config.payloadKey) T₁ = (.ok r, T₂))) ∧
    (let T₁ := reruns api m failure "absent" params force T schedules;
      api.others m params T₁ = api.others m params T ∧
      ∀ fs r S, (m.ensure "absent" params false none true force).run
          (api.faultyServe m.config.payloadKey failure) (T₁, fs) = (.ok r, S) →
        api.owners m params S.1 = [] ∧ api.others m params S.1 = api.others m params T) := by
  have hkept := @reruns_kept F failure api m params T force hfaith hkeys schedules
  have hshrunk := @reruns_shrunk F failure api m params T force hfaith schedules
  refine ⟨⟨hkept.others_eq, hkept.least_mem, ?_, fun hvalid => ?_⟩, hshrunk.others_eq, ?_⟩
  · intro fs r S hrun
    -- a call that returned met no fault
    have hplain := returns_ensure_of_faulty failure (Prog.returns_of_run hrun)
    obtain ⟨hothers, u, howner, hsorted, hnone⟩ := returns_present_owner hfaith hkeys hplain
    refine ⟨hothers.trans hkept.others_eq, u, howner, fun v hv => ?_, hsorted, hnone⟩
    have hleast := hkept.least hv
    have hne := List.ne_nil_of_mem hleast.1
    exact (isLeast_of_sortedOwners (hsorted hne)).unique hleast
  · exact run_present_table hfaith hvalid (Or.inl rfl)
  · intro fs r S hrun
    have hplain := returns_ensure_of_faulty failure (Prog.returns_of_run hrun)
    obtain ⟨hnone, hothers, -⟩ := returns_absent_table hfaith hplain
    exact ⟨hnone, hothers.trans hshrunk.others_eq⟩

/-- Two copies and a bystander. -/
def copies : Table where
  resources :=
    { entries := [⟨"u2", [("name", .str "a")], by decide⟩, ⟨"u3", [("name", .str "b")], by decide⟩,
        ⟨"u1", [("name", .str "a")], by decide⟩]
      nodup := by simp }
  clock := 0

def timedOut (_ : Unit) : Exc := .opnsense { cls := .timeout, message := "timed out" }

theorem ensure_dedupe_keeps_least_copies :
    let T₁ := reruns (plainServer []) sampleManager timedOut "present" [("name", .str "a")]
      false copies [[.served, .served, .cut ()], [.lost ()]]
    "u1" ∈ (plainServer []).owners sampleManager [("name", .str "a")] T₁ ∧
      ∃ r T₂, (sampleManager.ensure "present" [("name", .str "a")] false none true).run
        ((plainServer []).serve "item") T₁ = (.ok r, T₂) := by
  have hfaith : Faithful (plainServer []) sampleManager [("name", .str "a")] := by
    apply plainServer_faithful
    · decide
    · decide
    · simp [sampleManager, Json.isDict]
  have hleast : IsLeast {v | v ∈ (plainServer []).owners sampleManager [("name", .str "a")]
      copies} "u1" := by
    have howners : (plainServer []).owners sampleManager [("name", .str "a")] copies =
        ["u2", "u1"] := by decide
    rw [howners]
    refine ⟨by decide, fun v hv => ?_⟩
    have hv' : v = "u2" ∨ v = "u1" := by simpa using hv
    rcases hv' with rfl | rfl <;> decide
  have h := (ensure_dedupe_keeps_least hfaith (by decide) timedOut false copies
    [[.served, .served, .cut ()], [.lost ()]]).1
  exact ⟨h.2.1 "u1" hleast, h.2.2.2 (Or.inl rfl)⟩

end TableServer
end Opnsense
