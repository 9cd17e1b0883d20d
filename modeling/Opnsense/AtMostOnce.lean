import Opnsense.EnsureDelivery
import Opnsense.Firmware
import Opnsense.Repetition
import Opnsense.TableWeb
import Opnsense.Verdict

namespace Opnsense
open Interaction BaseManager OpnsenseClient TableServer

section Acted

variable {σ : Type} (client : OpnsenseClient) (web : Server HttpRequest HttpReply σ) (s : σ)
  (fs : List (Fault NetFailure))

/-- The server acts on a create as often as on its one HTTP request. -/
theorem acted_create (endpoint payloadKey : String) (params : Obj) (opts : CallOptions) :
    let h := client.attempt .post endpoint [(payloadKey, .obj params)] opts
    ((client.create endpoint payloadKey params opts).run (lossy (recording web))
      ((s, []), fs)).2.1.2 =
      List.replicate (executions web HttpReply.retryable h (client.effectiveRetries opts) s fs)
        h := by
  intro h
  obtain ⟨o, S, hrun, hstate, -⟩ := @run_request _ client (recording web) .post endpoint
    [(payloadKey, .obj params)] opts (s, []) fs
  have hacted := @iterate_recording _ _ _ web h s
    (executions web HttpReply.retryable h (client.effectiveRetries opts) s fs) []
  rw [run_create_snd, hrun, hstate, executions_recording]
  exact congrArg Prod.snd hacted

/-- The same for any call of a manager. -/
theorem acted_call (q : Request) :
    (client.appliance (lossy (recording web)) q ((s, []), fs)).2.1.2 =
      List.replicate (client.executionsOf web q s fs) (client.http q) := by
  have hacted := @iterate_recording _ _ _ web (client.http q) s
    (client.executionsOf web q s fs) []
  rw [appliance_state, executionsOf, executions_recording]
  exact congrArg Prod.snd hacted

/-- A create that may be attempted once only is executed once at most. -/
theorem acted_create_of_one_attempt (endpoint payloadKey : String) (params : Obj)
    (opts : CallOptions) (hretries : opts.maxRetries.getD client.maxRetries ≤ 1) :
    ((client.create endpoint payloadKey params opts).run (lossy (recording web))
      ((s, []), fs)).2.1.2.length ≤ 1 := by
  have hbudget : client.effectiveRetries opts = 1 := by
    rw [effectiveRetries, max_eq_left hretries]
    rfl
  rw [acted_create, List.length_replicate, hbudget]
  exact executions_le

theorem acted_fire (verb : String) :
    ((FirmwareManager.fire verb).run (client.appliance (lossy (recording web)))
      ((s, []), fs)).2.1.2 =
      List.replicate (client.executionsOf web (FirmwareManager.fireRequest verb) s fs)
        (client.http (FirmwareManager.fireRequest verb)) := by
  rw [FirmwareManager.run_fire_snd]
  exact acted_call client web s fs _

end Acted

section Creates

variable {client : OpnsenseClient} {web : Server HttpRequest HttpReply Table} {api : TableServer}
  {m : BaseManager} {params : Obj} {T : Table} {S : Table × List (Fault NetFailure)}
  {force : Bool}

/-- Every execution of the add stores one more resource. -/
theorem uuids_executed_add (hweb : Speaks client web api m) (k : ℕ) :
    ∃ us, uuids (executed web (client.http (.create m.config.add m.config.payloadKey params)) k T) =
      uuids T ++ us ∧ us.length = k := by
  induction k with
  | zero => exact ⟨[], (List.append_nil _).symm, rfl⟩
  | succ k ih =>
    obtain ⟨us, huuids, hlen⟩ := ih
    let before := executed web
      (client.http (.create m.config.add m.config.payloadKey params)) k T
    refine ⟨us ++ [(api.added params before).uuid], ?_, by simp [hlen]⟩
    rw [executed, Function.iterate_succ_apply', uuids_congr (hweb.add params _), uuids_add,
      huuids, List.append_assoc]

/-- The resources `ensure` creates, by how far it got. -/
theorem ensure_over_created (hweb : Speaks client web api m) :
    let left := ((m.ensure "present" params false none false force).run
      (client.appliance (lossy web)) S).2.1
    (∃ S', ReachesAdd (client.appliance (lossy web)) m params S S' ∧
      (created S.1 left).length = client.executionsOf web
        (.create m.config.add m.config.payloadKey params) S'.1 S'.2) ∨
    (∀ S', ¬ ReachesAdd (client.appliance (lossy web)) m params S S') ∧ created S.1 left = [] := by
  intro left
  have hnone : uuids left = uuids S.1 → created S.1 left = [] := by
    intro hleft
    exact created_of_append (hleft.trans (List.append_nil _).symm)
  rcases @ensure_over_cases client web api m params S force hweb with
    ⟨hleft, hnot⟩ | ⟨S', hadd, hsame, hleft⟩ | ⟨fields, S', hres, hsame, hleft⟩
  · -- the call did not get to its add
    exact Or.inr ⟨hnot, hnone (uuids_congr hleft)⟩
  · left
    refine ⟨S', hadd, ?_⟩
    obtain ⟨us, huuids, hlen⟩ := @uuids_executed_add client web api m params S'.1 hweb
      (client.executionsOf web (.create m.config.add m.config.payloadKey params) S'.1 S'.2)
    have hall : uuids left = uuids S.1 ++ us := by
      calc uuids left = _ := uuids_congr hleft
        _ = uuids (executed web (client.http (.create m.config.add m.config.payloadKey params))
              _ S'.1) := by rw [appliance_state]
        _ = uuids S'.1 ++ us := huuids
        _ = uuids S.1 ++ us := by rw [uuids_congr hsame]
    rw [created_of_append hall, hlen]
  · right
    -- it found the resource, and what follows creates none
    refine ⟨fun S'' hadd => ?_, hnone ?_⟩
    · cases hres.symm.trans hadd.2
    · rw [show left = _ from hleft]
      exact converge_over_preserves hweb (fun T => uuids T = uuids S.1) rfl
        (fun T T' hcongr hT => (uuids_congr hcongr).trans hT)
        (fun T hT => (uuids_set _).trans hT) (uuids_congr hsame)

/-- The count of what a call left is at most one exactly when its add, if it got so far, was
not repeated. -/
theorem count_le_one_iff {left : ℕ}
    (h : (∃ S', ReachesAdd (client.appliance (lossy web)) m params S S' ∧
      left = client.executionsOf web
        (.create m.config.add m.config.payloadKey params) S'.1 S'.2) ∨
      (∀ S', ¬ ReachesAdd (client.appliance (lossy web)) m params S S') ∧ left ≤ 1) :
    left ≤ 1 ↔ ∀ S', ReachesAdd (client.appliance (lossy web)) m params S S' →
      client.Unrepeated web (.create m.config.add m.config.payloadKey params) S'.1 S'.2 := by
  rcases h with ⟨S', hadd, rfl⟩ | ⟨hnot, hle⟩
  · rw [executionsOf, executions_le_one_iff]
    constructor
    · intro honce S'' hadd'
      -- the call reaches its add in one state only
      rw [reachesAdd_unique hadd' hadd]
      exact honce
    · exact fun h => h S' hadd
  · exact ⟨fun _ S' hadd => absurd hadd (hnot S'), fun _ => hle⟩

end Creates

section Samples

def sampleParams : Obj := [("name", .str "lan")]

def sampleWeb : Server HttpRequest HttpReply Table := web (plainServer []) sampleManager.config

theorem sampleParams_faithful : Faithful (plainServer []) sampleManager sampleParams :=
  plainServer_faithful (by decide) (by decide) (by decide)

theorem sampleWeb_speaks : Speaks defaultClient sampleWeb (plainServer []) sampleManager := by
  apply web_speaks
  · decide
  · decide
  · intro ep hep
    cases hep
    decide

/-- After an execution whose reply was lost the next attempt is executed too. -/
theorem sampleWeb_executions (h : HttpRequest) (T : Table) (e : NetFailure) :
    executions sampleWeb HttpReply.retryable h (defaultClient.effectiveRetries {}) T
      [.cut e] = 2 := by
  have hbudget : defaultClient.effectiveRetries {} = 1 + 2 := by decide
  rw [hbudget]
  simp [executions, faultAt, sampleWeb, web_final]

/-- A create and a firmware job: the server acts on them at most as often as the budget
allows, and at most once exactly when they are not repeated. An `ensure`: it creates at most
one resource, and leaves at most one of the identity, exactly when its add is not. -/
theorem acts_at_most_once_iff {σ : Type} (client : OpnsenseClient)
    (web : Server HttpRequest HttpReply σ) (s : σ) (fs : List (Fault NetFailure))
    (endpoint payloadKey : String) (body : Obj) (opts : CallOptions) (verb : String)
    {tableWeb : Server HttpRequest HttpReply Table} {api : TableServer} {m : BaseManager}
    (hweb : Speaks client tableWeb api m) (params : Obj) (force : Bool)
    (S : Table × List (Fault NetFailure)) :
    let creates := ((client.create endpoint payloadKey body opts).run (lossy (recording web))
      ((s, []), fs)).2.1.2
    let jobs := ((FirmwareManager.fire verb).run (client.appliance (lossy (recording web)))
      ((s, []), fs)).2.1.2
    let job := FirmwareManager.fireRequest verb
    let srv := client.appliance (lossy tableWeb)
    let left := ((m.ensure "present" params false none false force).run srv S).2.1
    let addOnce := ∀ S', ReachesAdd srv m params S S' →
      client.Unrepeated tableWeb (.create m.config.add m.config.payloadKey params) S'.1 S'.2
    (creates.length ≤ client.effectiveRetries opts ∧ (creates.length ≤ 1 ↔
      AnsweredOrAlone web HttpReply.retryable
        (client.attempt .post endpoint [(payloadKey, .obj body)] opts)
        (client.effectiveRetries opts) s fs)) ∧
    (jobs.length ≤ client.budget job ∧ (jobs.length ≤ 1 ↔ client.Unrepeated web job s fs)) ∧
    ((created S.1 left).length ≤ 1 ↔ addOnce) ∧
    (Faithful api m params → (∀ k ∈ m.matchKeys, params.has k = true) →
      (api.owners m params S.1).length ≤ 1 →
      ((api.owners m params left).length ≤ 1 ↔ addOnce)) := by
  intro creates jobs job srv left addOnce
  refine ⟨?_, ?_, ?_, ?_⟩
  · -- an add, and below a job: acted on as often as an attempt is executed
    have hlen : creates.length = executions web HttpReply.retryable
        (client.attempt .post endpoint [(payloadKey, .obj body)] opts)
        (client.effectiveRetries opts) s fs := by
      rw [show creates = _ from acted_create client web s fs endpoint payloadKey body opts]
      exact List.length_replicate
    rw [hlen]
    exact ⟨executions_le, executions_le_one_iff⟩
  · have hlen : jobs.length = client.executionsOf web job s fs := by
      rw [show jobs = _ from acted_fire client web s fs verb]
      exact List.length_replicate
    rw [hlen]
    exact ⟨executions_le, executions_le_one_iff⟩
  · apply count_le_one_iff
    rcases @ensure_over_created client tableWeb api m params S force hweb with h | ⟨hnot, hnil⟩
    · exact Or.inl h
    · refine Or.inr ⟨hnot, ?_⟩
      rw [show created S.1 left = [] from hnil]
      exact Nat.zero_le 1
  · intro hfaith hkeys hone
    exact count_le_one_iff (ensure_over_owners hweb hfaith hkeys hone)

theorem acts_at_most_once_iff_sample :
    ((plainServer []).owners sampleManager sampleParams
      ((sampleManager.ensure "present" sampleParams).run (defaultClient.appliance (lossy sampleWeb))
        (emptyTable, [])).2.1).length ≤ 1 ↔
      ∀ S', ReachesAdd (defaultClient.appliance (lossy sampleWeb)) sampleManager sampleParams
        (emptyTable, []) S' → defaultClient.Unrepeated sampleWeb (.create sampleManager.config.add
          sampleManager.config.payloadKey sampleParams) S'.1 S'.2 := by
  obtain ⟨-, -, -, howners⟩ := acts_at_most_once_iff defaultClient sampleWeb emptyTable []
    "sample/settings/addItem" "item" sampleParams {} "upgrade" sampleWeb_speaks sampleParams false
    (emptyTable, [])
  exact howners sampleParams_faithful (by decide) (Nat.zero_le 1)

/-- The reply of the first execution times out, and within the three attempts of the default
the server acts twice: on a create, on an upgrade, and on the add of an `ensure`, which
leaves two resources of one identity where there was none. -/
theorem resent_acts_twice :
    let timeout : NetFailure := ⟨.timeout, rfl⟩
    let left := ((sampleManager.ensure "present" sampleParams).run
      (defaultClient.appliance (lossy sampleWeb))
      (emptyTable, [.served, .cut timeout])).2.1
    ((defaultClient.create "sample/settings/addItem" "item" sampleParams {}).run
      (lossy (recording sampleWeb)) ((emptyTable, []), [.cut timeout])).2.1.2.length = 2 ∧
    ((FirmwareManager.fire "upgrade").run (defaultClient.appliance (lossy (recording sampleWeb)))
      ((emptyTable, []), [.cut timeout])).2.1.2.length = 2 ∧
    ((plainServer []).owners sampleManager sampleParams emptyTable).length = 0 ∧
    ((plainServer []).owners sampleManager sampleParams left).length = 2 := by
  intro timeout left
  refine ⟨?_, ?_, rfl, ?_⟩
  · rw [acted_create, sampleWeb_executions]
    rfl
  · have htwice : defaultClient.executionsOf sampleWeb (FirmwareManager.fireRequest "upgrade")
        emptyTable [.cut timeout] = 2 := sampleWeb_executions ..
    rw [acted_fire, htwice]
    rfl
  · have hreach : ReachesAdd (defaultClient.appliance (lossy sampleWeb)) sampleManager
        sampleParams (emptyTable, [.served, .cut timeout]) (emptyTable.tick, [.cut timeout]) :=
      ⟨accepts_of_toBool (by decide), rfl⟩
    rcases @ensure_over_owners defaultClient sampleWeb (plainServer []) sampleManager sampleParams
      (emptyTable, [.served, .cut timeout]) false sampleWeb_speaks sampleParams_faithful
      (by decide) (Nat.zero_le 1) with ⟨S', hadd, hlen⟩ | ⟨hnot, -⟩
    · obtain rfl := reachesAdd_unique hadd hreach
      have htwice : defaultClient.executionsOf sampleWeb (.create sampleManager.config.add
          sampleManager.config.payloadKey sampleParams) emptyTable.tick [.cut timeout] = 2 :=
        sampleWeb_executions ..
      exact hlen.trans htwice
    · exact absurd hreach (hnot _)

end Samples

end Opnsense
