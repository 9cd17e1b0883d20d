import Opnsense.EnsureDelivery
import Opnsense.Interaction.Interleave
import Opnsense.Repetition
import Opnsense.Verdict

namespace Opnsense
open Interaction

namespace BaseManager
open TableServer

variable {m : BaseManager} {params : Obj} {dedupe force : Bool}

section Tree

theorem next_list (phrase : String) : ∃ action k,
    (m.list phrase).next = .inr (.search action phrase defaultRowCount, k) ∧
      ∀ v, k (.ok v) = .ret v := by
  cases haction : m.listAction with
  | some action =>
    simp only [list, haction]
    exact ⟨_, _, rfl, fun _ => rfl⟩
  | none =>
    simp only [list, haction]
    exact ⟨_, _, rfl, fun _ => rfl⟩

theorem next_findMatching (phrase : Option String) : ∃ action k,
    (m.identity.findMatching params m.list phrase).next =
        .inr (.search action (phrase.getD (m.identity.searchPhrase params)) defaultRowCount, k) ∧
      ∀ rows : List Obj, k (.ok (.arr (rows.map .obj))) =
        .ret (matchingRows m.matchKeys params rows) := by
  obtain ⟨action, k, hnext, hk⟩ := @next_list m (phrase.getD (m.identity.searchPhrase params))
  refine ⟨action, _, Prog.next_bind_of_call hnext _, fun rows => ?_⟩
  simp [hk, iterate, Prog.ofExcept, identity]

/-- A lookup asks one question, and finds at most one row if that is what there is. -/
theorem next_lookup : ∃ action k,
    (m.lookup params false dedupe).next =
        .inr (.search action (m.identity.searchPhrase params) defaultRowCount, k) ∧
      ∀ rows : List Obj, (matchingRows m.matchKeys params rows).length ≤ 1 →
        k (.ok (.arr (rows.map .obj))) =
          .ret ((matchingRows m.matchKeys params rows).head?, []) := by
  cases dedupe with
  | true =>
    obtain ⟨action, k, hnext, hk⟩ := @next_findMatching m params none
    refine ⟨action, _, Prog.next_bind_of_call hnext _, fun rows hlen => ?_⟩
    rw [hk]
    rcases hfound : matchingRows m.matchKeys params rows with _ | ⟨row, _ | ⟨row', rest⟩⟩
    · rfl
    · rfl
    · rw [hfound] at hlen
      simp at hlen
  | false =>
    obtain ⟨action, k, hnext, hk⟩ :=
      @next_findMatching m params (some (m.identity.searchPhrase params))
    refine ⟨action, _, Prog.next_bind_of_call (Prog.next_bind_of_call (Prog.next_rescue_of_call
      (Prog.next_bind_of_call hnext _) _) _) _, fun rows hlen => ?_⟩
    rw [hk]
    rcases hfound : matchingRows m.matchKeys params rows with _ | ⟨row, _ | ⟨row', rest⟩⟩
    · rfl
    · rfl
    · rw [hfound] at hlen
      simp at hlen

/-- What follows on a lookup that found at most one row. -/
def resume (m : BaseManager) (params : Obj) (force : Bool) (found : Option Obj) :
    M EnsureResult := do
  let existing ← m.hydrateNested found params
  let result ← m.converge "present" params false force existing
  return withDedupe result []

theorem next_validate (hvalid : m.accepts params) :
    (m.validate "present" params).next = .inl (.ok ()) := by
  rcases hvalid with hnil | hok
  · simp [validate, hnil]
  · by_cases hnil : m.validators = []
    · simp [validate, hnil]
    · simp [validate, hnil, hok, logError, Prog.onError, Prog.rescue, Prog.ofExcept]

/-- A call that passes the validators asks for the rows first. -/
theorem next_ensure (hvalid : m.accepts params) : ∃ action k,
    (m.ensure "present" params false none dedupe force).next =
        .inr (.search action (m.identity.searchPhrase params) defaultRowCount, k) ∧
      ∀ rows : List Obj, (matchingRows m.matchKeys params rows).length ≤ 1 →
        k (.ok (.arr (rows.map .obj))) =
          resume m params force (matchingRows m.matchKeys params rows).head? := by
  obtain ⟨action, k, hnext, hk⟩ := @next_lookup m params dedupe
  refine ⟨action, _, (Prog.next_bind_of_ok (next_validate hvalid) _).trans
    (Prog.next_bind_of_call (Prog.next_bind_of_call hnext _) _), fun rows hlen => ?_⟩
  rw [hk rows hlen]
  simp [resume]

/-- The apply of a manager, and nothing else. -/
def Applies : Request → Prop
  | .reconfigure .. => True
  | _ => False

theorem asks_apply_applies : m.apply.Asks Applies := asks_apply_within fun _ _ => trivial

/-- A lookup that found nothing goes on with the add request, and behind that with the apply. -/
theorem next_resume_none : ∃ k, (resume m params force none).next =
      .inr (.create m.config.add m.config.payloadKey params, k) ∧
    ∀ r, (k r).Asks Applies := by
  obtain ⟨after, hafter⟩ := redactDict_obj m.redactFields params
  have hcreate : ∃ k, (m.create params false).next =
      .inr (.create m.config.add m.config.payloadKey params, k) ∧ ∀ r, (k r).Asks Applies := by
    unfold create
    rw [hafter]
    refine ⟨_, Prog.next_bind_of_call (Prog.next_rescue_of_call
      (Prog.next_bind_of_call (Prog.next_call _ _) _) _) _, fun r => ?_⟩
    refine Prog.asks_bind (Prog.asks_rescue ?_ fun _ => trivial) fun _ => trivial
    exact Prog.asks_bind (Prog.asks_ofExcept _) fun _ =>
      Prog.asks_bind asks_apply_applies fun _ => trivial
  obtain ⟨k, hnext, hk⟩ := hcreate
  exact ⟨_, Prog.next_bind_of_call hnext _, fun r => Prog.asks_bind (hk r) fun _ => trivial⟩

/-- A lookup that found a row goes on with that resource, and asks for no other. -/
theorem asks_resume_some {row : Obj} {u : String} (hu : u ≠ "")
    (huuid : row.lookup "uuid" = some (.str u)) :
    (resume m params force (some row)).Asks (Updates m params u) := by
  have htext : ∀ fields : Obj, fields.lookup "uuid" = some (.str u) →
      pyStr (fields.getD "uuid" (.str "")) = u := by
    intro fields hfields
    rw [Obj.getD_of_lookup hfields, pyStr_str]
  have hrow : rowUuid row = u := by
    simp [rowUuid, Obj.getD_of_lookup huuid, Json.truthy, hu]
  -- fetched in full or not, the row goes on under the same uuid
  have hconverge : ∀ fields : Obj, fields.lookup "uuid" = some (.str u) →
      (m.converge "present" params false force (some fields) >>= fun result =>
        (return withDedupe result [] : M EnsureResult)).Asks (Updates m params u) := by
    intro fields hfields
    have hasks := @asks_converge_updates m params force fields
    rw [htext fields hfields] at hasks
    exact Prog.asks_bind hasks fun _ => trivial
  unfold resume hydrateNested
  dsimp only
  split
  · rw [hrow]
    have hget : (m.get (.str u)).Asks (Updates m params u) :=
      Prog.asks_mono updates_of_read (asks_get _)
    rw [Prog.bind_bind_eq]
    refine Prog.asks_bind hget fun full => ?_
    cases hset : setItem "uuid" (.str u) full with
    | error exc => trivial
    | ok fields => exact hconverge fields (lookup_of_setItem hset)
  · exact hconverge row huuid

end Tree

end BaseManager

def Request.looksUp : Request → Prop
  | .search .. => True
  | _ => False

def Request.adds : Request → Prop
  | .create .. => True
  | _ => False

namespace TableServer
open BaseManager

section Clients

variable (api : TableServer) (m : BaseManager) (params : Client → Obj)
  (dedupe force : Client → Bool)

/-- The call of one client. -/
def declare (i : Client) : M EnsureResult :=
  m.ensure "present" (params i) false none (dedupe i) (force i)

/-- Both calls begin on one table. -/
def together (T : Table) : Pool Client Request Reply Event Exc EnsureResult Table where
  progs := declare m params dedupe force
  state := T

/-- Client `i` looked for the resource after the other one had added it. -/
abbrev LookedAfter (i : Client) (history : List (Client × Request)) : Prop :=
  i.After Request.adds Request.looksUp history

/-- How far a client has come. -/
inductive Phase where
  | before | adding | added | found
  deriving DecidableEq

/-- How many clients have added the resource. -/
def tally (phase : Client → Phase) : ℕ :=
  (if phase .first = .added then 1 else 0) + if phase .second = .added then 1 else 0

theorem tally_eq (phase : Client → Phase) (i : Client) : tally phase =
    (if phase i = .added then 1 else 0) + if phase i.other = .added then 1 else 0 := by
  cases i with
  | first => rfl
  | second => exact Nat.add_comm ..

/-- The owners, which both clients agree on. -/
def shared (T : Table) : List String := api.owners m (params .first) T

/-- What holds of a client in its phase. -/
def Stage (i : Client) (c : Pool Client Request Reply Event Exc EnsureResult Table) :
    Phase → Prop
  | .before => c.progs i = declare m params dedupe force i ∧ ∀ q, (i, q) ∉ c.history
  | .adding => (∃ k, (c.progs i).next =
        .inr (.create m.config.add m.config.payloadKey (params i), k) ∧ ∀ r, (k r).Asks Applies) ∧
      (∀ q, (i, q) ∈ c.history → ¬ q.adds) ∧ ¬ LookedAfter i c.history
  | .added => (c.progs i).Asks Applies ∧ (∃ q, (i, q) ∈ c.history ∧ q.adds) ∧
      ¬ LookedAfter i c.history
  | .found => (∃ u ∈ shared api m params c.state, (c.progs i).Asks (Updates m (params i) u)) ∧
      LookedAfter i c.history

/-- One resource of the identity for each client that has added it; who found it found that of
the other client. -/
structure Declared (c : Pool Client Request Reply Event Exc EnsureResult Table)
    (phase : Client → Phase) : Prop where
  stage : ∀ i, Stage api m params dedupe force i c (phase i)
  peer : ∀ i, phase i = .found → phase i.other = .added
  count : (shared api m params c.state).length = tally phase

end Clients

section Steps

variable {api : TableServer} {m : BaseManager} {params : Client → Obj}
  {dedupe force : Client → Bool} {T : Table}
  {c : Pool Client Request Reply Event Exc EnsureResult Table} {phase : Client → Phase}
  {i : Client} {q : Request} {k : Reply → M EnsureResult}

/-- The turn of one client leaves the other one where it is. -/
theorem stage_other {j : Client} (hne : i ≠ j) {ph : Phase}
    (h : Stage api m params dedupe force j c ph)
    (hshared : ∀ u ∈ shared api m params c.state,
      u ∈ shared api m params (api.serve m.config.payloadKey q c.state).2) :
    Stage api m params dedupe force j (c.answer (api.serve m.config.payloadKey) i q k) ph := by
  -- its program and its part of the history are as they were
  have hprogs : (c.answer (api.serve m.config.payloadKey) i q k).progs j = c.progs j :=
    Pool.answer_progs_of_ne (Ne.symm hne) ..
  have hmem : ∀ q', (j, q') ∈ (c.answer (api.serve m.config.payloadKey) i q k).history ↔
      (j, q') ∈ c.history := fun _ => Pool.mem_history_answer_of_ne (Ne.symm hne)
  have hafter : LookedAfter j (c.answer (api.serve m.config.payloadKey) i q k).history ↔
      LookedAfter j c.history := Client.after_concat_of_ne hne
  cases ph with
  | before =>
    obtain ⟨hdeclare, hnone⟩ := h
    exact ⟨hprogs.trans hdeclare, fun q' hq' => hnone q' ((hmem q').mp hq')⟩
  | adding =>
    obtain ⟨hnext, hadds, hlooked⟩ := h
    exact ⟨by rw [hprogs]; exact hnext, fun q' hq' => hadds q' ((hmem q').mp hq'),
      fun hlooked' => hlooked (hafter.mp hlooked')⟩
  | added =>
    obtain ⟨hasks, ⟨q', hq', hadds⟩, hlooked⟩ := h
    exact ⟨by rw [hprogs]; exact hasks, ⟨q', (hmem q').mpr hq', hadds⟩,
      fun hlooked' => hlooked (hafter.mp hlooked')⟩
  | found =>
    obtain ⟨⟨u, hu, hasks⟩, hlooked⟩ := h
    exact ⟨⟨u, hshared u hu, by rw [hprogs]; exact hasks⟩, hafter.mpr hlooked⟩

/-- The turn of one client takes it to its next phase. -/
theorem declared_turn (h : Declared api m params dedupe force c phase) {p : Phase}
    (hstage : Stage api m params dedupe force i
      (c.answer (api.serve m.config.payloadKey) i q k) p)
    (hshared : ∀ u ∈ shared api m params c.state,
      u ∈ shared api m params (api.serve m.config.payloadKey q c.state).2)
    (hfound : p = .found → phase i.other = .added)
    (hpeer : phase i.other = .found → p = .added)
    (hcount : (shared api m params (api.serve m.config.payloadKey q c.state).2).length +
        (if phase i = .added then 1 else 0) =
      (shared api m params c.state).length + if p = .added then 1 else 0) :
    Declared api m params dedupe force (c.answer (api.serve m.config.payloadKey) i q k)
      (Function.update phase i p) := by
  have hself : Function.update phase i p i = p := Function.update_self ..
  have hother : Function.update phase i p i.other = phase i.other :=
    Function.update_of_ne (Client.other_ne i) ..
  refine ⟨?_, fun j hj => ?_, ?_⟩
  · rw [Function.forall_update_iff phase fun j p => Stage api m params dedupe force j
      (c.answer (api.serve m.config.payloadKey) i q k) p]
    exact ⟨hstage, fun j hji => stage_other (Ne.symm hji) (h.stage j) hshared⟩
  · by_cases hji : j = i
    · subst hji
      rw [hself] at hj
      rw [hother]
      exact hfound hj
    · rw [Client.eq_other_of_ne hji, hother] at hj
      rw [Client.eq_other_of_ne hji, Client.other_other, hself]
      exact hpeer hj
  · -- there is one owner more exactly when this client has added
    have hbefore := h.count
    rw [tally_eq phase i] at hbefore
    rw [tally_eq _ i, hself, hother]
    change (shared api m params (api.serve m.config.payloadKey q c.state).2).length = _
    omega

/-- The class of a client's parameters is the shared one. -/
theorem owners_eq_shared
    (hsame : ∀ i, ∀ k ∈ m.matchKeys, (params i).text k = (params .first).text k) (i : Client)
    (T : Table) : api.owners m (params i) T = shared api m params T := by
  have hident : api.hasIdentity m (params i) = api.hasIdentity m (params .first) := by
    funext r
    rw [Bool.eq_iff_iff, hasIdentity, hasIdentity, sameIdentity_iff, sameIdentity_iff]
    constructor
    · intro h k hk
      rw [h k hk, hsame i k hk]
    · intro h k hk
      rw [h k hk, hsame i k hk]
  rw [shared, owners, owners, hident]

/-- A request of a client that found the resource keeps the class. -/
theorem owners_updates (hfaith : ∀ i, Faithful api m (params i))
    (hkeys : ∀ i, ∀ k ∈ m.matchKeys, (params i).has k = true) {u : String} {T : Table}
    (hu : u ∈ api.owners m (params i) T) (hq : Updates m (params i) u q) :
    api.owners m (params i) (api.serve m.config.payloadKey q T).2 =
      api.owners m (params i) T := by
  rcases hq with hquiet | rfl
  · cases q with
    | get => exact owners_congr rfl
    | search => exact owners_congr rfl
    | reconfigure => exact owners_congr rfl
    | post => exact owners_congr rfl
    | create => exact (hquiet rfl).elim
    | update => exact (hquiet rfl).elim
    | delete => exact (hquiet rfl).elim
  · exact owners_set (hfaith i) (hkeys i) hu

/-- As many rows are found as the class has owners. -/
theorem length_found (hfaith : Faithful api m (params i)) (T : Table) :
    (matchingRows m.matchKeys (params i)
      (api.rows (m.identity.searchPhrase (params i)) T)).length =
        (api.owners m (params i) T).length := by
  rw [(found_perm hfaith).length_eq, List.length_map, owners, List.length_map]

/-- A client that has not written leaves at most the resource of the other one. -/
theorem length_shared_le (h : Declared api m params dedupe force c phase)
    (hphase : phase i ≠ .added) :
    (shared api m params c.state).length = if phase i.other = .added then 1 else 0 := by
  rw [h.count, tally_eq phase i, if_neg hphase, Nat.zero_add]

/-- Nobody finds what has not been added. -/
theorem Declared.peer_ne_found (h : Declared api m params dedupe force c phase)
    (hphase : phase i ≠ .added) : phase i.other ≠ .found := by
  intro hfound
  have hadded := h.peer i.other hfound
  rw [Client.other_other] at hadded
  exact hphase hadded

/-- While a client has not come as far as an add, none is in the history. -/
theorem not_adds_of_stage {j : Client} {ph : Phase} (h : Stage api m params dedupe force j c ph)
    (hadded : ph ≠ .added) (hfound : ph ≠ .found) {q : Request} (hq : (j, q) ∈ c.history) :
    ¬ q.adds := by
  cases ph with
  | before => exact absurd hq (h.2 q)
  | adding => exact h.2.1 q hq
  | added => exact absurd rfl hadded
  | found => exact absurd rfl hfound

section Turns

variable (hfaith : ∀ i, Faithful api m (params i))
  (hkeys : ∀ i, ∀ k ∈ m.matchKeys, (params i).has k = true)
  (hvalid : ∀ i, m.accepts (params i))
  (hsame : ∀ i, ∀ k ∈ m.matchKeys, (params i).text k = (params .first).text k)

include hfaith hsame in
/-- A client that has not written finds what the other one has added, if it has. -/
theorem rows_found (h : Declared api m params dedupe force c phase) (hphase : phase i ≠ .added) :
    (phase i.other = .added → ∃ r : Resource, r.uuid ∈ shared api m params c.state ∧
      matchingRows m.matchKeys (params i) (api.rows (m.identity.searchPhrase (params i)) c.state) =
        [api.row r]) ∧
    (phase i.other ≠ .added → matchingRows m.matchKeys (params i)
      (api.rows (m.identity.searchPhrase (params i)) c.state) = []) := by
  have hlength := length_found (hfaith i) c.state
  rw [owners_eq_shared hsame, length_shared_le h hphase] at hlength
  constructor
  · intro hother
    rw [if_pos hother] at hlength
    obtain ⟨row, hrow⟩ := List.length_eq_one_iff.mp hlength
    obtain ⟨r, hr, hident, rfl⟩ := @found_row _ _ _ c.state (hfaith i) row (by rw [hrow]; simp)
    refine ⟨r, ?_, hrow⟩
    rw [← owners_eq_shared hsame i]
    exact mem_owners.mpr ⟨r, hr, hident, rfl⟩
  · intro hother
    rw [if_neg hother] at hlength
    exact List.length_eq_zero_iff.mp hlength

include hfaith hvalid hsame in
/-- A client looks for the resource. -/
theorem declared_before (h : Declared api m params dedupe force c phase)
    (hphase : phase i = .before) (hnext : (c.progs i).next = .inr (q, k)) :
    ∃ phase', Declared api m params dedupe force
      (c.answer (api.serve m.config.payloadKey) i q k) phase' := by
  have hstage := h.stage i
  rw [hphase] at hstage
  obtain ⟨hdeclare, hnone⟩ := hstage
  obtain ⟨action, k', hnext', hk⟩ :=
    @next_ensure m (params i) (dedupe i) (force i) (hvalid i)
  rw [hdeclare, declare, hnext'] at hnext
  cases hnext
  have hbefore : phase i ≠ .added := by simp [hphase]
  obtain ⟨hone, hnil⟩ := rows_found hfaith hsame h hbefore
  by_cases hother : phase i.other = .added
  · -- the other one has added the resource, and this look shows it
    obtain ⟨r, hu, hrow⟩ := hone hother
    have hadded := h.stage i.other
    rw [hother] at hadded
    obtain ⟨-, hadds, -⟩ := hadded
    refine ⟨_, declared_turn (p := .found) h ⟨⟨r.uuid, hu, ?_⟩, ?_⟩ (fun _ hmem => hmem)
      (fun _ => hother) (fun hfound => ?_) ?_⟩
    · rw [Pool.answer_progs_self]
      refine (hk _ (by rw [hrow]; simp)).symm ▸ ?_
      rw [hrow]
      exact asks_resume_some r.uuid_ne (api.row_uuid r)
    · exact Client.after_concat.mpr (Or.inr ⟨rfl, trivial, hadds⟩)
    · rw [hother] at hfound
      cases hfound
    · rw [hphase]
      rfl
  · -- nobody has added the resource yet, and nobody can have found it
    have hpeer : phase i.other ≠ .found := h.peer_ne_found hbefore
    refine ⟨_, declared_turn (p := .adding) h ⟨?_, ?_, ?_⟩ (fun _ hmem => hmem)
      (by simp) (fun hfound => absurd hfound hpeer) ?_⟩
    · rw [Pool.answer_progs_self]
      refine (hk _ (by rw [hnil hother]; simp)).symm ▸ ?_
      rw [hnil hother]
      exact next_resume_none
    · intro q' hq'
      rcases Pool.mem_history_answer.mp hq' with hq' | ⟨-, rfl⟩
      · exact absurd hq' (hnone q')
      · exact id
    · intro hlooked
      rcases Client.after_concat.mp hlooked with hlooked | ⟨-, -, q', hq', hadds⟩
      · exact Client.not_after_of_fresh hnone hlooked
      · exact not_adds_of_stage (h.stage i.other) hother hpeer hq' hadds
    · rw [hphase]
      rfl

include hfaith hkeys hsame in
/-- A client that found nothing adds the resource. -/
theorem declared_adding (h : Declared api m params dedupe force c phase)
    (hphase : phase i = .adding) (hnext : (c.progs i).next = .inr (q, k)) :
    ∃ phase', Declared api m params dedupe force
      (c.answer (api.serve m.config.payloadKey) i q k) phase' := by
  have hstage := h.stage i
  rw [hphase] at hstage
  obtain ⟨⟨k', hnext', hrest⟩, -, hlooked⟩ := hstage
  rw [hnext'] at hnext
  cases hnext
  have hadd : shared api m params (api.serve m.config.payloadKey (.create m.config.add
      m.config.payloadKey (params i)) c.state).2 =
        shared api m params c.state ++ [(api.added (params i) c.state).uuid] := by
    rw [← owners_eq_shared hsame i, ← owners_eq_shared hsame i]
    exact owners_add (hfaith i) (hkeys i)
  -- the other one cannot have found what is not there yet
  have hpeer : phase i.other ≠ .found := h.peer_ne_found (by rw [hphase]; decide)
  refine ⟨_, declared_turn (p := .added) h ⟨?_, ⟨.create m.config.add m.config.payloadKey
    (params i), ?_, trivial⟩, ?_⟩ (fun u hu => ?_)
    (by simp) (fun hfound => absurd hfound hpeer) ?_⟩
  · rw [Pool.answer_progs_self]
    exact hrest _
  · exact List.mem_append_right _ (List.mem_singleton_self _)
  · intro hlooked'
    rcases Client.after_concat.mp hlooked' with hlooked' | ⟨-, hlooks, -⟩
    · exact hlooked hlooked'
    · exact hlooks
  · rw [hadd]
    exact List.mem_append_left _ hu
  · rw [hadd, hphase, List.length_append]
    rfl

/-- A client that has added the resource applies it. -/
theorem declared_added (h : Declared api m params dedupe force c phase)
    (hphase : phase i = .added) (hnext : (c.progs i).next = .inr (q, k)) :
    ∃ phase', Declared api m params dedupe force
      (c.answer (api.serve m.config.payloadKey) i q k) phase' := by
  have hstage := h.stage i
  rw [hphase] at hstage
  obtain ⟨hasks, ⟨q', hq', hadds⟩, hlooked⟩ := hstage
  obtain ⟨happlies, hrest⟩ := hasks.of_next hnext
  obtain ⟨ep, opts, rfl⟩ : ∃ ep opts, q = .reconfigure ep opts := by
    cases q with
    | reconfigure ep opts => exact ⟨ep, opts, rfl⟩
    | _ => exact happlies.elim
  refine ⟨_, declared_turn (p := .added) h ⟨?_, ⟨q', ?_, hadds⟩, ?_⟩ (fun _ hu => hu)
    (by simp) (fun _ => rfl) ?_⟩
  · rw [Pool.answer_progs_self]
    exact hrest _
  · exact List.mem_append_left _ hq'
  · intro hlooked'
    rcases Client.after_concat.mp hlooked' with hlooked' | ⟨-, hlooks, -⟩
    · exact hlooked hlooked'
    · exact hlooks
  · rw [hphase]
    rfl

include hfaith hkeys hsame in
/-- A client that found the resource reads and updates it. -/
theorem declared_found (h : Declared api m params dedupe force c phase)
    (hphase : phase i = .found) (hnext : (c.progs i).next = .inr (q, k)) :
    ∃ phase', Declared api m params dedupe force
      (c.answer (api.serve m.config.payloadKey) i q k) phase' := by
  have hstage := h.stage i
  rw [hphase] at hstage
  obtain ⟨⟨u, hu, hasks⟩, hlooked⟩ := hstage
  obtain ⟨hupdates, hrest⟩ := hasks.of_next hnext
  have hkept : shared api m params (api.serve m.config.payloadKey q c.state).2 =
      shared api m params c.state := by
    rw [← owners_eq_shared hsame i, ← owners_eq_shared hsame i]
    exact owners_updates hfaith hkeys (by rw [owners_eq_shared hsame]; exact hu) hupdates
  refine ⟨_, declared_turn (p := .found) h ⟨⟨u, ?_, ?_⟩, ?_⟩ (fun v hv => ?_)
    (fun _ => h.peer i hphase) (fun hfound => ?_) ?_⟩
  · exact hkept.symm ▸ hu
  · rw [Pool.answer_progs_self]
    exact hrest _
  · exact Client.after_concat.mpr (Or.inl hlooked)
  · exact hkept.symm ▸ hv
  · -- the other client added what this one found
    rw [h.peer i hphase] at hfound
    cases hfound
  · rw [hkept, hphase]

include hfaith hkeys hvalid hsame in
theorem declared_schedule (hempty : api.owners m (params .first) T = []) (turns : List Client) :
    ∃ phase, Declared api m params dedupe force
      (Pool.schedule (api.serve m.config.payloadKey) turns (together m params dedupe force T))
      phase := by
  have hstart : ∃ phase, Declared api m params dedupe force (together m params dedupe force T)
      phase := by
    refine ⟨fun _ => .before, fun i => ⟨rfl, by simp [together]⟩, fun i hi => ?_, ?_⟩
    · cases hi
    · rw [shared, together, hempty]
      rfl
  refine Pool.schedule_invariant (fun c => ∃ phase, Declared api m params dedupe force c phase)
    ?_ turns hstart
  rintro c i q k ⟨phase, h⟩ hnext
  rcases hphase : phase i with _ | _ | _ | _
  · exact declared_before hfaith hvalid hsame h hphase hnext
  · exact declared_adding hfaith hkeys hsame h hphase hnext
  · exact declared_added h hphase hnext
  · exact declared_found hfaith hkeys hsame h hphase hnext

include hvalid in
/-- A client that has finished has added the resource or found it. -/
theorem added_or_found (h : Declared api m params dedupe force c phase) (hfinished : c.Finished)
    (i : Client) : phase i = .added ∧ ¬ LookedAfter i c.history ∨
      phase i = .found ∧ LookedAfter i c.history := by
  have hstage := h.stage i
  obtain ⟨o, ho⟩ := hfinished i
  rcases hphase : phase i with _ | _ | _ | _
  · rw [hphase] at hstage
    obtain ⟨action, k, hnext, -⟩ := @next_ensure m (params i) (dedupe i) (force i) (hvalid i)
    rw [hstage.1, declare, hnext] at ho
    cases ho
  · rw [hphase] at hstage
    obtain ⟨⟨k, hnext, -⟩, -⟩ := hstage
    rw [hnext] at ho
    cases ho
  · rw [hphase] at hstage
    exact Or.inl ⟨rfl, hstage.2.2⟩
  · rw [hphase] at hstage
    exact Or.inr ⟨rfl, hstage.2⟩

end Turns

end Steps

/-- Two clients that declare one resource leave it once if one of them looks for it after the other
has added it, and twice otherwise. -/
theorem declared_together (api : TableServer) (m : BaseManager) (params : Client → Obj)
    (dedupe force : Client → Bool) (T : Table) (turns : List Client)
    (hfaith : ∀ i, Faithful api m (params i))
    (hkeys : ∀ i, ∀ k ∈ m.matchKeys, (params i).has k = true)
    (hvalid : ∀ i, m.accepts (params i))
    (hsame : ∀ i, ∀ k ∈ m.matchKeys, (params i).text k = (params .first).text k)
    (hempty : api.owners m (params .first) T = [])
    (hfinished : (Pool.schedule (api.serve m.config.payloadKey) turns
      (together m params dedupe force T)).Finished) :
    let c := Pool.schedule (api.serve m.config.payloadKey) turns (together m params dedupe force T)
    (api.owners m (params .first) c.state).length = 1 ∧ (∃ i, LookedAfter i c.history) ∨
      (api.owners m (params .first) c.state).length = 2 ∧ ∀ i, ¬ LookedAfter i c.history := by
  intro c
  obtain ⟨phase, hdeclared⟩ : ∃ phase, Declared api m params dedupe force c phase :=
    declared_schedule hfaith hkeys hvalid hsame hempty turns
  have hdone := added_or_found hvalid hdeclared hfinished
  -- one resource for each client that has added it
  have hcount : (api.owners m (params .first) c.state).length = tally phase := hdeclared.count
  rw [hcount, tally]
  rcases hdone .first with ⟨hfirst, hnot⟩ | ⟨hfirst, hlooked⟩
  · rcases hdone .second with ⟨hsecond, hnot'⟩ | ⟨hsecond, hlooked'⟩
    · refine Or.inr ⟨by rw [hfirst, hsecond]; rfl, fun i => ?_⟩
      cases i with
      | first => exact hnot
      | second => exact hnot'
    · exact Or.inl ⟨by rw [hfirst, hsecond]; rfl, .second, hlooked'⟩
  · have hsecond : phase .second = .added := hdeclared.peer .first hfirst
    exact Or.inl ⟨by rw [hfirst, hsecond]; rfl, .first, hlooked⟩

def sampleDeclaration : Obj := [("name", .str "web")]

theorem sampleDeclaration_faithful :
    Faithful (plainServer []) sampleManager sampleDeclaration := by
  have hflat : ∀ kv ∈ sampleDeclaration, kv.2.isDict = false := by decide
  apply plainServer_faithful
  · decide
  · decide
  · exact fun k _ v hv => hflat (k, v) (Obj.mem_of_lookup hv)

/-- Both clients declare the sample, in the given order of turns. -/
def sampleRun (turns : List Client) : Pool Client Request Reply Event Exc EnsureResult Table :=
  Pool.schedule ((plainServer []).serve "item") turns
    (together sampleManager (fun _ => sampleDeclaration) (fun _ => false) (fun _ => false)
      emptyTable)

theorem declared_together_sample :
    let c := sampleRun [.first, .first, .first, .second, .second]
    ((plainServer []).owners sampleManager sampleDeclaration c.state).length = 1 ∧
        (∃ i, LookedAfter i c.history) ∨
      ((plainServer []).owners sampleManager sampleDeclaration c.state).length = 2 ∧
        ∀ i, ¬ LookedAfter i c.history :=
  declared_together (plainServer []) sampleManager (fun _ => sampleDeclaration) _ _ emptyTable _
    (fun _ => sampleDeclaration_faithful) (fun _ => by decide) (fun _ => Or.inl rfl)
    (fun _ _ _ => rfl) rfl (fun i => by cases i <;> exact ⟨_, rfl⟩)

/-- Both clients look before either has written: the resource is there twice in the end. -/
theorem declared_twice :
    let c := sampleRun [.first, .second, .first, .second, .first, .second]
    (plainServer []).owners sampleManager sampleDeclaration emptyTable = [] ∧ c.Finished ∧
      ((plainServer []).owners sampleManager sampleDeclaration c.state).length = 2 := by
  intro c
  refine ⟨rfl, fun i => ?_, by decide +kernel⟩
  cases i <;> exact ⟨_, rfl⟩

end TableServer
end Opnsense
