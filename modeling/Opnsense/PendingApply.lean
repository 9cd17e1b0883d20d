import Opnsense.Staged

/-! Runs of calls: what a failed call saved and did not apply stays so until a later call
about it changes something again. -/
namespace Opnsense
open Interaction

/-- One call of a run: how it ended, and the state it left. -/
structure CallRecord (S : Type) where
  call : Call
  outcome : Except Exc EnsureResult
  left : S

section

variable {S : Type} (srv : Appliance S)

def recordOf (c : Call) (s : S) : CallRecord S :=
  ⟨c, (c.program.run srv s).1, (c.program.run srv s).2⟩

/-- The calls of a run one after the other; one that raises does not end it. -/
def history : List Call → S → List (CallRecord S)
  | [], _ => []
  | c :: rest, s => recordOf srv c s :: history rest (recordOf srv c s).left

def stateAfter : List Call → S → S
  | [], s => s
  | c :: rest, s => stateAfter rest (recordOf srv c s).left

theorem stateAfter_concat (calls : List Call) (c : Call) (s : S) :
    stateAfter srv (calls ++ [c]) s = (recordOf srv c (stateAfter srv calls s)).left := by
  induction calls generalizing s with
  | nil => rfl
  | cons c' rest ih => exact ih _

end

namespace StagedServer

variable {σ ι C F : Type} (api : StagedServer σ ι C)

/-- The call raised and left something it is about saved but not running. -/
structure LeftUnapplied (i : ι) (record : CallRecord (σ × List (Fault F))) : Prop where
  raised : ∃ e, record.outcome = .error e
  mem_about : i ∈ api.about record.call
  not_synced : ¬ api.Synced i record.left.1

/-- A call about `i` returned and reported no change. -/
def Idle (i : ι) (record : CallRecord (σ × List (Fault F))) : Prop :=
  i ∈ api.about record.call → ∃ r, record.outcome = .ok r ∧ r.changed = false

/-- Some call of the run left `i` unapplied, and every call since then was idle about it. -/
def Abandoned (i : ι) (records : List (CallRecord (σ × List (Fault F)))) : Prop :=
  ∃ before record after, records = before ++ record :: after ∧ api.LeftUnapplied i record ∧
    ∀ later ∈ after, api.Idle i later

variable {api} {failure : F → Exc} {i : ι} {S S' : σ × List (Fault F)}

theorem abandoned_nil : ¬ api.Abandoned i ([] : List (CallRecord (σ × List (Fault F)))) := by
  rintro ⟨before, record, after, h, -⟩
  simp at h

theorem abandoned_cons {record : CallRecord (σ × List (Fault F))}
    {records : List (CallRecord (σ × List (Fault F)))} :
    api.Abandoned i (record :: records) ↔
      (api.LeftUnapplied i record ∧ ∀ later ∈ records, api.Idle i later) ∨
        api.Abandoned i records := by
  constructor
  · rintro ⟨before, record', after, h, hleft, hidle⟩
    rcases before with _ | ⟨first, before⟩
    · obtain ⟨rfl, rfl⟩ := List.cons.inj h
      exact Or.inl ⟨hleft, hidle⟩
    · obtain ⟨rfl, rfl⟩ := List.cons.inj h
      exact Or.inr ⟨before, record', after, rfl, hleft, hidle⟩
  · rintro (⟨hleft, hidle⟩ | ⟨before, record', after, rfl, hleft, hidle⟩)
    · exact ⟨[], record, records, rfl, hleft, hidle⟩
    · exact ⟨record :: before, record', after, rfl, hleft, hidle⟩

/-- One call: it leaves `i` out of step exactly when it raised and did so itself, or found
it so and was idle about it. -/
theorem call_not_synced_iff {c : Call} (hfits : api.Fits c) (failure : F → Exc)
    (S : σ × List (Fault F)) :
    ¬ api.Synced i (recordOf (api.behind failure) c S).left.1 ↔
      api.LeftUnapplied i (recordOf (api.behind failure) c S) ∨
        (¬ api.Synced i S.1 ∧ api.Idle i (recordOf (api.behind failure) c S)) := by
  by_cases hi : i ∈ api.about c
  · rcases hrun : c.program.run (api.behind failure) S with ⟨e | r, S'⟩
    · have hrecord : recordOf (api.behind failure) c S = ⟨c, .error e, S'⟩ := by
        rw [recordOf, hrun]
      rw [hrecord]
      constructor
      · exact fun hnot => Or.inl ⟨⟨e, rfl⟩, hi, hnot⟩
      · rintro (hleft | ⟨-, hidle⟩)
        · exact hleft.not_synced
        · obtain ⟨r, hr, -⟩ := hidle hi
          cases hr
    · have hrecord : recordOf (api.behind failure) c S = ⟨c, .ok r, S'⟩ := by
        rw [recordOf, hrun]
      rw [hrecord]
      -- a call that returned has left nothing of its own unapplied
      have hnotLeft : ¬ api.LeftUnapplied i (⟨c, .ok r, S'⟩ : CallRecord _) := by
        rintro ⟨⟨e, he⟩, -, -⟩
        cases he
      rw [or_iff_right hnotLeft]
      cases hr : r.changed with
      | true =>
        have hsynced := call_changed hfits hi hrun hr
        have hbusy : ¬ api.Idle i (⟨c, .ok r, S'⟩ : CallRecord _) := by
          intro hidle
          obtain ⟨r', hr', hchanged⟩ := hidle hi
          cases hr'
          rw [hr] at hchanged
          cases hchanged
        exact ⟨fun hnot => absurd hsynced hnot, fun h => absurd h.2 hbusy⟩
      | false =>
        have hsame : api.Synced i S'.1 ↔ api.Synced i S.1 := call_unchanged hfits hrun hr
        rw [hsame]
        exact ⟨fun hnot => ⟨hnot, fun _ => ⟨r, rfl, hr⟩⟩, And.left⟩
  · -- a call about other things leaves this one as it was
    have hsame : api.Synced i (recordOf (api.behind failure) c S).left.1 ↔ api.Synced i S.1 :=
      call_unrelated hfits hi
    have hnotLeft : ¬ api.LeftUnapplied i (recordOf (api.behind failure) c S) :=
      fun hleft => hi hleft.mem_about
    rw [or_iff_right hnotLeft, hsame]
    exact ⟨fun hnot => ⟨hnot, fun hin => absurd hin hi⟩, And.left⟩

/-- A whole run, from any state. -/
theorem not_synced_stateAfter_iff {calls : List Call} (hfits : ∀ c ∈ calls, api.Fits c) :
    ¬ api.Synced i (stateAfter (api.behind failure) calls S).1 ↔
      api.Abandoned i (history (api.behind failure) calls S) ∨
        (¬ api.Synced i S.1 ∧
          ∀ record ∈ history (api.behind failure) calls S, api.Idle i record) := by
  induction calls generalizing S with
  | nil =>
    rw [stateAfter, history, or_iff_right abandoned_nil]
    simp
  | cons c rest ih =>
    obtain ⟨hc, hrest⟩ := List.forall_mem_cons.mp hfits
    have hcall : ¬ api.Synced i (recordOf (api.behind failure) c S).left.1 ↔ _ :=
      call_not_synced_iff hc failure S
    rw [stateAfter, ih hrest, history, abandoned_cons, List.forall_mem_cons, hcall]
    tauto

/-- A call that raised before it sent a write left nothing unapplied. -/
theorem call_keeps_synced {c : Call}
    (hunwritten : ¬ BaseManager.Writes (c.program.trace (api.behind failure) S))
    (hs : api.Synced i S.1) : api.Synced i (recordOf (api.behind failure) c S).left.1 := by
  let synced : σ × List (Fault F) → Prop := fun S' => api.Synced i S'.1
  let unwriting : Request → Prop := fun q => ¬ q.isWrite = true
  have htrace : ∀ qr ∈ c.program.trace (api.behind failure) S, unwriting qr.1 :=
    fun qr hqr hw => hunwritten ⟨qr, hqr, hw⟩
  refine Prog.run_preserves_of_trace htrace synced ?_ hs
  intro q S' hq hS'
  exact faulty_preserves (fun s hs => synced_of_not_write hq hs) S' hS'

/-- In every run from an agreed configuration, whatever requests fail on the way: a call that
returns and reports a change leaves what it is about applied; one that returns leaves it
applied in any case, unless an earlier call that raised left it unapplied and every call
about it since then, this one included, reported no change. -/
theorem returned_synced_iff (api : StagedServer σ ι C) (failure : F → Exc) {calls : List Call}
    {c : Call} (hfits : ∀ c' ∈ calls ++ [c], api.Fits c') {s : σ} (hstart : ∀ i, api.Synced i s)
    (faults : List (Fault F)) {r : EnsureResult}
    (hr : (recordOf (api.behind failure) c
      (stateAfter (api.behind failure) calls (s, faults))).outcome = .ok r)
    {i : ι} (hi : i ∈ api.about c) :
    let left := (recordOf (api.behind failure) c
      (stateAfter (api.behind failure) calls (s, faults))).left
    (r.changed = true → api.Synced i left.1) ∧
      (api.Synced i left.1 ↔
        ¬ api.Abandoned i (history (api.behind failure) (calls ++ [c]) (s, faults))) := by
  intro left
  have hc : api.Fits c := hfits c (List.mem_append_right _ (List.mem_singleton_self c))
  have hrun : c.program.run (api.behind failure)
      (stateAfter (api.behind failure) calls (s, faults)) = (.ok r, left) := Prod.ext hr rfl
  have hlast := @not_synced_stateAfter_iff _ _ _ _ api failure i (s, faults) _ hfits
  rw [stateAfter_concat, or_iff_left fun h => h.1 (hstart i)] at hlast
  exact ⟨call_changed hc hi hrun, (not_iff_comm.mp hlast).symm⟩

end StagedServer

/-- The fields of a set request for the document. -/
def postedFields (payloadKey : String) (data : Obj) : Obj :=
  match data.lookup payloadKey with
  | some (.obj fields) => fields
  | _ => []

@[simp] theorem postedFields_self (payloadKey : String) (doc : Obj) :
    postedFields payloadKey [(payloadKey, .obj doc)] = doc := by
  simp [postedFields]

def documentServer (payloadKey : String) : StagedServer (Obj × Obj) Unit Obj where
  serve
    | .get .., (saved, running) => (.ok (.obj [(payloadKey, .obj saved)]), saved, running)
    | .search .., state => (.ok (.obj []), state)
    | .reconfigure .., (saved, _) => (.ok (.obj [("status", .str "ok")]), saved, saved)
    | .post _ data _, (saved, running) =>
      (.ok (.obj [("result", .str "saved")]), saved.overlay (postedFields payloadKey data), running)
    | _, state => (.ok (.obj [("result", .str "saved")]), state)
  saved state _ := state.1
  running state _ := state.2
  reach _ := Set.univ
  scope _ := Set.univ
  read_saved q s hq := by
    cases q <;> first | rfl | cases hq
  read_running q s hq := by
    cases q <;> first | rfl | cases hq
  write_saved q s i _ hi := absurd (Set.mem_univ i) hi
  write_running q s hq := by
    cases q <;> first | rfl | cases hq
  apply_saved _ _ _ := rfl
  apply_running _ _ _ _ _ := Or.inl rfl
  apply_other _ _ _ i hi := absurd (Set.mem_univ i) hi

def sampleSettings : BaseSingletonManager where
  className := "SampleSettingsManager"
  endpoint := "sample/settings"
  payloadKey := "sample"
  applyEndpoint := some "sample/service/reconfigure"
  diffEngine := { checkpw := fun _ _ => false }
  registry := { get := fun _ => none }

def enableSample : Call := .singleton sampleSettings "present" [("enable", .str "1")]

theorem documentServer_fits : (documentServer "sample").Fits enableSample where
  applies := by simp [enableSample, Call.applyEndpoint, sampleSettings]
  covered _ _ _ _ _ := ⟨_, rfl, Set.mem_univ _⟩

def unavailable (_ : Unit) : Exc :=
  .opnsense { cls := .server, message := "HTTP 500", statusCode := some 500 }

/-- The apply of the first call fails after its write was saved; the second call finds the
saved document as wanted and returns, and the old one goes on running. -/
theorem noop_leaves_unapplied :
    let api := documentServer "sample"
    let srv := api.behind unavailable
    let start : (Obj × Obj) × List (Fault Unit) :=
      (([("enable", .str "0")], [("enable", .str "0")]), [.served, .served, .lost ()])
    (∀ c ∈ [enableSample, enableSample], api.Fits c) ∧ (∀ i, api.Synced i start.1) ∧
      (∃ e, (recordOf srv enableSample start).outcome = .error e) ∧
      ∃ r, (recordOf srv enableSample (stateAfter srv [enableSample] start)).outcome = .ok r ∧
        r.action = .noop ∧ () ∈ api.about enableSample ∧
        ¬ api.Synced ()
          (recordOf srv enableSample (stateAfter srv [enableSample] start)).left.1 := by
  intro api srv start
  refine ⟨?_, fun _ => rfl, ⟨_, rfl⟩, _, rfl, rfl, ⟨_, rfl, Set.mem_univ _⟩, ?_⟩
  · simp [documentServer_fits, api]
  · intro hsynced
    have htext := congrArg (fun o => Obj.text o "enable") hsynced
    revert htext
    decide

theorem returned_synced_iff_enabled :
    let api := documentServer "sample"
    let srv := api.behind unavailable
    let start : (Obj × Obj) × List (Fault Unit) :=
      (([("enable", .str "0")], [("enable", .str "0")]), [.served, .served, .lost ()])
    let left := (recordOf srv enableSample (stateAfter srv [enableSample] start)).left
    api.Synced () left.1 ↔
      ¬ api.Abandoned () (history srv ([enableSample] ++ [enableSample]) start) := by
  intro api srv start left
  have hfits : ∀ c ∈ [enableSample] ++ [enableSample], api.Fits c := by
    simp [documentServer_fits, api]
  have hstart : ∀ i, api.Synced i start.1 := fun _ => rfl
  obtain ⟨-, hiff⟩ := StagedServer.returned_synced_iff api unavailable hfits hstart
    [.served, .served, .lost ()] rfl ⟨_, rfl, Set.mem_univ _⟩
  exact hiff

end Opnsense
