import Mathlib.Data.Finset.Basic
import Opnsense.PrivServer

/-! Two clients that change the assignment of one privilege at the same time: each posts the set it
computed from what it has read, over whatever was posted in between. -/
namespace Opnsense
namespace AuthPriv
namespace PrivServer
open Interaction

/-- Changes of different targets commute. -/
theorem applied_comm {state state' uuid uuid' : String} (h : uuid ≠ uuid')
    (assigned : Finset String) : applied state uuid (applied state' uuid' assigned) =
      applied state' uuid' (applied state uuid assigned) := by
  unfold applied
  split <;> split
  · exact Finset.insert_comm ..
  · exact (Finset.erase_insert_of_ne h).symm
  · exact Finset.erase_insert_of_ne (Ne.symm h)
  · exact Finset.erase_right_comm

/-- The change of another target is no change of this one. -/
theorem mem_applied_of_ne {state uuid uuid' : String} (h : uuid ≠ uuid')
    {assigned : Finset String} :
    uuid ∈ applied state uuid' assigned ↔ uuid ∈ assigned := by
  unfold applied
  split
  · simp [h]
  · simp [h]

theorem mem_applied_self {state uuid : String} {assigned : Finset String} :
    uuid ∈ applied state uuid assigned ↔ state = "present" := by
  unfold applied
  split
  · rename_i hpresent
    simp [hpresent]
  · rename_i habsent
    simp [habsent]

def reads : Request → Prop
  | .get .. => True
  | _ => False

def posts : Request → Prop
  | .post .. => True
  | _ => False

section Clients

variable (api : PrivServer) (target : Client → Target) (state : Client → String)
  (initial : Finset String)

/-- The call of one client. -/
def request (i : Client) : M EnsureResult :=
  ensure api.privId api.targetType (target i).name (state i) false

/-- Both calls begin on one assignment. -/
def together : Pool Client Request Reply Event Exc EnsureResult (Finset String) where
  progs := request api target state
  state := initial

/-- The change that a client asks for. -/
def change (i : Client) (assigned : Finset String) : Finset String :=
  applied (state i) (target i).uuid assigned

/-- Client `i` read the assignment after the other one had posted its change. -/
abbrev ReadAfter (i : Client) (history : List (Client × Request)) : Prop :=
  i.After posts reads history

/-- How far a client has come; one that is about to post has computed the set from `read`. -/
inductive Progress where
  | before
  | posting (read : Finset String)
  | wrote
  | met

/-- What holds of a client in its phase. -/
def At (i : Client) (c : Pool Client Request Reply Event Exc EnsureResult (Finset String)) :
    Progress → Prop
  | .before => c.progs i = request api target state i ∧ ∀ q, (i, q) ∉ c.history
  | .posting read => (∃ k, (c.progs i).next =
        .inr (api.setItem (posted (api.assignees read).targets (target i).name (state i)),
          k) ∧ ∀ r, ∃ o, (k r).next = .inl o) ∧
      (∀ q, (i, q) ∈ c.history → ¬ posts q) ∧ Needs (state i) (target i).uuid initial
  | .wrote => (∃ o, (c.progs i).next = .inl o) ∧ (∃ q, (i, q) ∈ c.history ∧ posts q) ∧
      Needs (state i) (target i).uuid initial
  | .met => (∃ o, (c.progs i).next = .inl o) ∧ (∀ q, (i, q) ∈ c.history → ¬ posts q) ∧
      ¬ Needs (state i) (target i).uuid initial

/-- The stored assignment is the initial one with the changes posted so far, unless both clients
have posted what they computed from the initial one. -/
structure Tracked (c : Pool Client Request Reply Event Exc EnsureResult (Finset String))
    (progress : Client → Progress) : Prop where
  at_progress : ∀ i, At api target state initial i c (progress i)
  read : ∀ i R, progress i = .posting R → R = initial ∧ ¬ ReadAfter i c.history ∨
    R = change target state i.other initial ∧ ReadAfter i c.history ∧ progress i.other = .wrote
  none : (∀ i, progress i ≠ .wrote) → c.state = initial
  one : ∀ i, progress i = .wrote → progress i.other ≠ .wrote →
    c.state = change target state i initial ∧ ¬ ReadAfter i c.history
  both : (∀ i, progress i = .wrote) →
    (∃ i, ReadAfter i c.history) ∧
        c.state = change target state .first (change target state .second initial) ∨
      (∀ i, ¬ ReadAfter i c.history) ∧ ∃ i, c.state = change target state i initial

end Clients

section Turns

variable {api : PrivServer} {target : Client → Target} {state : Client → String}
  {initial : Finset String} {progress : Client → Progress}
  {c : Pool Client Request Reply Event Exc EnsureResult (Finset String)} {i : Client}
  {q : Request} {k : Reply → M EnsureResult}

/-- The turn of one client leaves the other one where it is. -/
theorem at_other {j : Client} (hne : i ≠ j) {p : Progress}
    (h : At api target state initial j c p) :
    At api target state initial j (c.answer api.serve i q k) p := by
  have hprogs : (c.answer api.serve i q k).progs j = c.progs j :=
    Pool.answer_progs_of_ne (Ne.symm hne) ..
  have hmem : ∀ q', (j, q') ∈ (c.answer api.serve i q k).history ↔ (j, q') ∈ c.history :=
    fun _ => Pool.mem_history_answer_of_ne (Ne.symm hne)
  cases p with
  | before =>
    obtain ⟨hrequest, hnone⟩ := h
    exact ⟨hprogs.trans hrequest, fun q' hq' => hnone q' ((hmem q').mp hq')⟩
  | posting read =>
    obtain ⟨hnext, hposts, hneeds⟩ := h
    exact ⟨by rw [hprogs]; exact hnext, fun q' hq' => hposts q' ((hmem q').mp hq'), hneeds⟩
  | wrote =>
    obtain ⟨hdone, ⟨q', hq', hposts⟩, hneeds⟩ := h
    exact ⟨by rw [hprogs]; exact hdone, ⟨q', (hmem q').mpr hq', hposts⟩, hneeds⟩
  | met =>
    obtain ⟨hdone, hposts, hmet⟩ := h
    exact ⟨by rw [hprogs]; exact hdone, fun q' hq' => hposts q' ((hmem q').mp hq'), hmet⟩

theorem at_turn (h : ∀ j, At api target state initial j c (progress j)) {p : Progress}
    (hself : At api target state initial i (c.answer api.serve i q k) p) :
    ∀ j, At api target state initial j (c.answer api.serve i q k)
      (Function.update progress i p j) := by
  rw [Function.forall_update_iff progress
    fun j p => At api target state initial j (c.answer api.serve i q k) p]
  exact ⟨hself, fun j hji => at_other (Ne.symm hji) (h j)⟩

/-- The assignment that a client reads, whether the other one has posted or not. -/
theorem state_of_tracked (h : Tracked api target state initial c progress)
    (hprogress : progress i = .before) :
    c.state = initial ∧ progress i.other ≠ .wrote ∨
      c.state = change target state i.other initial ∧ progress i.other = .wrote := by
  have hself : progress i ≠ .wrote := by
    simp [hprogress]
  by_cases hother : progress i.other = .wrote
  · have hstate := (h.one i.other hother (by rw [Client.other_other]; exact hself)).1
    exact Or.inr ⟨hstate, hother⟩
  · refine Or.inl ⟨h.none fun j => ?_, hother⟩
    by_cases hji : j = i
    · exact hji ▸ hself
    · exact Client.eq_other_of_ne hji ▸ hother

/-- Only a client that has posted has a post in the history. -/
theorem posts_iff_wrote (h : Tracked api target state initial c progress) (j : Client) :
    (∃ q, (j, q) ∈ c.history ∧ posts q) ↔ progress j = .wrote := by
  have hat := h.at_progress j
  cases hprogress : progress j with
  | before =>
    rw [hprogress] at hat
    simp [hat.2]
  | posting read =>
    rw [hprogress] at hat
    simpa using hat.2.1
  | wrote =>
    rw [hprogress] at hat
    exact iff_of_true hat.2.1 rfl
  | met =>
    rw [hprogress] at hat
    simpa using hat.2.1

/-- The first read of a client is behind the post of the other one exactly if there is one. -/
theorem readAfter_of_reads (h : Tracked api target state initial c progress)
    (hprogress : progress i = .before) (hq : reads q) :
    ReadAfter i (c.answer api.serve i q k).history ↔ progress i.other = .wrote := by
  rw [← posts_iff_wrote h]
  refine Client.after_concat.trans ⟨?_, fun hposted => Or.inr ⟨rfl, hq, hposted⟩⟩
  rintro (hlater | ⟨-, -, hposted⟩)
  · have hat := h.at_progress i
    rw [hprogress] at hat
    exact absurd hlater (Client.not_after_of_fresh hat.2)
  · exact hposted

/-- A post is no read. -/
theorem readAfter_of_posts (hq : posts q) (j : Client) :
    ReadAfter j (c.answer api.serve i q k).history ↔ ReadAfter j c.history := by
  refine Client.after_concat.trans (or_iff_left ?_)
  rintro ⟨-, hreads, -⟩
  cases q with
  | post => exact hreads
  | _ => exact hq

/-- A client that reads does so after the other one has posted, or before. -/
theorem tracked_read (h : Tracked api target state initial c progress)
    (hprogress : progress i = .before) {p : Progress} (hp : p ≠ .wrote) (hq : reads q)
    (hserve : (api.serve q c.state).2 = c.state)
    (hself : At api target state initial i (c.answer api.serve i q k) p)
    (hread : ∀ R, p = .posting R → R = c.state) :
    Tracked api target state initial (c.answer api.serve i q k)
      (Function.update progress i p) := by
  have hupdate : Function.update progress i p i = p := Function.update_self ..
  have hother : Function.update progress i p i.other = progress i.other :=
    Function.update_of_ne (Client.other_ne i) ..
  have hbefore : progress i ≠ .wrote := by
    simp [hprogress]
  have hsame : (c.answer api.serve i q k).state = c.state := hserve
  have hafter : ReadAfter i.other (c.answer api.serve i q k).history ↔
      ReadAfter i.other c.history := Client.after_concat_of_ne (Ne.symm (Client.other_ne i))
  have hnow : ReadAfter i (c.answer api.serve i q k).history ↔ progress i.other = .wrote :=
    readAfter_of_reads h hprogress hq
  refine ⟨at_turn h.at_progress hself, fun j R hj => ?_, fun hnone => ?_, fun j hj hj' => ?_,
    fun hall => ?_⟩
  · by_cases hji : j = i
    · subst hji
      rw [hupdate] at hj
      rw [hread R hj, hother, hnow]
      -- it reads the start, or what the other one has left
      rcases state_of_tracked h hprogress with ⟨hstate, hnot⟩ | ⟨hstate, hwrote⟩
      · exact Or.inl ⟨hstate, hnot⟩
      · exact Or.inr ⟨hstate, hwrote, hwrote⟩
    · obtain rfl := Client.eq_other_of_ne hji
      rw [hother] at hj
      -- the other one has its read already, and this one has not posted since
      rcases h.read i.other R hj with ⟨hR, hnot⟩ | ⟨-, -, hwrote⟩
      · exact Or.inl ⟨hR, fun hlater => hnot (hafter.mp hlater)⟩
      · rw [Client.other_other] at hwrote
        exact absurd hwrote hbefore
  · rw [hsame]
    refine h.none fun j => ?_
    by_cases hji : j = i
    · exact hji ▸ hbefore
    · have hj := hnone j
      rwa [Function.update_of_ne hji] at hj
  · have hji : j ≠ i := by
      rintro rfl
      exact hp (hupdate.symm.trans hj)
    obtain rfl := Client.eq_other_of_ne hji
    rw [hother] at hj
    obtain ⟨hstate, hnot⟩ := h.one i.other hj (by rw [Client.other_other]; exact hbefore)
    exact ⟨hsame.trans hstate, fun hlater => hnot (hafter.mp hlater)⟩
  · exact absurd (hupdate.symm.trans (hall i)) hp

variable (htarget : ∀ i, target i ∈ api.known)
  (hstate : ∀ i, state i = "present" ∨ state i = "absent")
  (htype : api.targetType = "user" ∨ api.targetType = "group")
  (hdistinct : (target .first).uuid ≠ (target .second).uuid)

include hdistinct in
theorem uuid_ne_other (i : Client) : (target i).uuid ≠ (target i.other).uuid := by
  cases i with
  | first => exact hdistinct
  | second => exact Ne.symm hdistinct

include htarget hstate htype hdistinct in
/-- A client reads the assignment. -/
theorem tracked_before (h : Tracked api target state initial c progress)
    (hprogress : progress i = .before) (hnext : (c.progs i).next = .inr (q, k)) :
    ∃ progress', Tracked api target state initial (c.answer api.serve i q k) progress' := by
  have hat := h.at_progress i
  rw [hprogress] at hat
  obtain ⟨hrequest, hfresh⟩ := hat
  obtain ⟨k', hnext', hk⟩ := next_ensure (htarget i) (hstate i) htype
  rw [hrequest, request, hnext'] at hnext
  cases hnext
  obtain ⟨hmet, hneeds⟩ := hk c.state
  have hprogs : (c.answer api.serve i api.getItem k).progs i =
      k (.ok (.obj (api.body c.state))) := by
    rw [Pool.answer_progs_self]
    simp [serve, getItem]
  -- the change of the other client does not decide whether this one has something to change
  have hsame : Needs (state i) (target i).uuid c.state ↔
      Needs (state i) (target i).uuid initial := by
    rcases state_of_tracked h hprogress with ⟨hinitial, -⟩ | ⟨hchanged, -⟩
    · rw [hinitial]
    · rw [hchanged, Needs, Needs, change, mem_applied_of_ne (uuid_ne_other hdistinct i)]
  have hposts : ∀ q, (i, q) ∈ (c.answer api.serve i api.getItem k).history → ¬ posts q := by
    intro q hq
    rcases Pool.mem_history_answer.mp hq with hq | ⟨-, rfl⟩
    · exact absurd hq (hfresh q)
    · exact id
  by_cases hchange : Needs (state i) (target i).uuid c.state
  -- it goes on to post, or is finished
  · obtain ⟨k', hpost, hdone⟩ := hneeds hchange
    refine ⟨_, tracked_read (p := .posting c.state) h hprogress (by simp) trivial rfl
      ⟨⟨k', hprogs ▸ hpost, hdone⟩, hposts, hsame.mp hchange⟩ fun R hR => ?_⟩
    cases hR
    rfl
  · refine ⟨_, tracked_read (p := .met) h hprogress (by simp) trivial rfl
      ⟨hprogs ▸ hmet hchange, hposts, fun hneeded => hchange (hsame.mpr hneeded)⟩ fun R hR => ?_⟩
    cases hR

include hdistinct in
theorem change_comm (i : Client) : change target state i (change target state i.other initial) =
    change target state .first (change target state .second initial) := by
  cases i with
  | first => rfl
  | second => exact applied_comm (Ne.symm hdistinct) initial

include htarget hstate hdistinct in
/-- A client posts the change of what it has read. -/
theorem tracked_posting (hknown : api.Known initial)
    (h : Tracked api target state initial c progress) {R : Finset String}
    (hprogress : progress i = .posting R) (hnext : (c.progs i).next = .inr (q, k)) :
    ∃ progress', Tracked api target state initial (c.answer api.serve i q k) progress' := by
  have hat := h.at_progress i
  rw [hprogress] at hat
  obtain ⟨⟨k', hnext', hdone⟩, -, hneeds⟩ := hat
  rw [hnext'] at hnext
  cases hnext
  have hread := h.read i R hprogress
  have hR : api.Known R := by
    rcases hread with ⟨rfl, -⟩ | ⟨rfl, -, -⟩
    · exact hknown
    · exact known_applied hknown (htarget i.other)
  have hbefore : progress i ≠ .wrote := by
    simp [hprogress]
  let q := api.setItem (posted (api.assignees R).targets (target i).name (state i))
  have hchanged : (c.answer api.serve i q k).state = change target state i R :=
    serve_setItem hR (htarget i) (hstate i) c.state
  have hupdate : Function.update progress i .wrote i = .wrote := Function.update_self ..
  have hother : Function.update progress i .wrote i.other = progress i.other :=
    Function.update_of_ne (Client.other_ne i) ..
  have hafter : ∀ j, ReadAfter j (c.answer api.serve i q k).history ↔ ReadAfter j c.history :=
    readAfter_of_posts trivial
  -- its own post is in the history now, and nothing follows it
  have hself : At api target state initial i (c.answer api.serve i q k) .wrote := by
    refine ⟨?_, ⟨q, List.mem_append_right _ (List.mem_singleton_self _), trivial⟩, hneeds⟩
    rw [Pool.answer_progs_self]
    exact hdone _
  refine ⟨_, at_turn h.at_progress hself, fun j R' hj => ?_, fun hnone => ?_, fun j hj hj' => ?_,
    fun hall => ?_⟩
  · have hji : j ≠ i := by
      rintro rfl
      rw [hupdate] at hj
      cases hj
    obtain rfl := Client.eq_other_of_ne hji
    rw [hother] at hj
    rcases h.read i.other R' hj with ⟨hR', hnot⟩ | ⟨-, -, hwrote⟩
    · exact Or.inl ⟨hR', fun hlater => hnot ((hafter _).mp hlater)⟩
    · rw [Client.other_other] at hwrote
      exact absurd hwrote hbefore
  · exact absurd hupdate (hnone i)
  · by_cases hji : j = i
    · subst hji
      rw [hother] at hj'
      rcases hread with ⟨rfl, hnot⟩ | ⟨-, -, hwrote⟩
      · exact ⟨hchanged, fun hlater => hnot ((hafter j).mp hlater)⟩
      · exact absurd hwrote hj'
    · obtain rfl := Client.eq_other_of_ne hji
      rw [Client.other_other] at hj'
      exact absurd hupdate hj'
  · have hwrote : progress i.other = .wrote := hother.symm.trans (hall i.other)
    rcases hread with ⟨rfl, hnot⟩ | ⟨rfl, hlater, -⟩
    · -- the other client had posted without this one being aware of it
      obtain ⟨-, hnot'⟩ := h.one i.other hwrote (by rw [Client.other_other]; exact hbefore)
      refine Or.inr ⟨fun j hlater => ?_, i, hchanged⟩
      by_cases hji : j = i
      · exact hnot (hji ▸ (hafter j).mp hlater)
      · exact hnot' (Client.eq_other_of_ne hji ▸ (hafter j).mp hlater)
    · exact Or.inl ⟨⟨i, (hafter i).mpr hlater⟩, hchanged.trans (change_comm hdistinct i)⟩

include htarget hstate htype hdistinct in
theorem tracked_schedule (hknown : api.Known initial) (turns : List Client) :
    ∃ progress, Tracked api target state initial
      (Pool.schedule api.serve turns (together api target state initial)) progress := by
  have hstart : ∃ progress, Tracked api target state initial (together api target state initial)
      progress := by
    refine ⟨fun _ => .before, fun i => ⟨rfl, by simp [together]⟩, fun i R hR => ?_, fun _ => rfl,
      fun i hi => ?_, fun hall => ?_⟩
    · cases hR
    · cases hi
    · cases hall .first
  refine Pool.schedule_invariant
    (fun c => ∃ progress, Tracked api target state initial c progress) ?_ turns hstart
  rintro c i q k ⟨progress, h⟩ hnext
  have hat := h.at_progress i
  rcases hprogress : progress i with _ | R | _ | _
  · exact tracked_before htarget hstate htype hdistinct h hprogress hnext
  · exact tracked_posting htarget hstate hdistinct hknown h hprogress hnext
  · rw [hprogress] at hat
    obtain ⟨⟨o, ho⟩, -⟩ := hat
    rw [ho] at hnext
    cases hnext
  · rw [hprogress] at hat
    obtain ⟨⟨o, ho⟩, -⟩ := hat
    rw [ho] at hnext
    cases hnext

include htarget hstate htype in
/-- A client that has finished has posted its change, or had none to make. -/
theorem wrote_or_met (h : Tracked api target state initial c progress) (hfinished : c.Finished)
    (i : Client) : progress i = .wrote ∧ Needs (state i) (target i).uuid initial ∨
      progress i = .met ∧ ¬ Needs (state i) (target i).uuid initial := by
  have hat := h.at_progress i
  obtain ⟨o, ho⟩ := hfinished i
  rcases hprogress : progress i with _ | R | _ | _
  · rw [hprogress] at hat
    obtain ⟨k, hnext, -⟩ := next_ensure (htarget i) (hstate i) htype
    rw [hat.1, request, hnext] at ho
    cases ho
  · rw [hprogress] at hat
    obtain ⟨⟨k, hnext, -⟩, -⟩ := hat
    rw [hnext] at ho
    cases ho
  · rw [hprogress] at hat
    exact Or.inl ⟨rfl, hat.2.2⟩
  · rw [hprogress] at hat
    exact Or.inr ⟨rfl, hat.2.2⟩

include hdistinct in
/-- If one call has nothing to change, the assignment is what the other one makes of it. -/
theorem both_of_met (h : Tracked api target state initial c progress)
    (hdone : ∀ i, progress i = .wrote ∧ Needs (state i) (target i).uuid initial ∨
      progress i = .met ∧ ¬ Needs (state i) (target i).uuid initial)
    (hmet : ¬ Needs (state i) (target i).uuid initial) :
    c.state = change target state .first (change target state .second initial) := by
  have hsame : change target state i initial = initial := applied_of_not_needs hmet
  have hself : progress i ≠ .wrote := by
    rcases hdone i with ⟨-, hneeds⟩ | ⟨hself, -⟩
    · exact absurd hneeds hmet
    · simp [hself]
  rw [← change_comm hdistinct i.other, Client.other_other, hsame]
  rcases hdone i.other with ⟨hwrote, -⟩ | ⟨hother, hmet'⟩
  · exact (h.one i.other hwrote (by rw [Client.other_other]; exact hself)).1
  · have hsame' : change target state i.other initial = initial := applied_of_not_needs hmet'
    rw [hsame']
    refine h.none fun j => ?_
    by_cases hji : j = i
    · exact hji ▸ hself
    · simp [Client.eq_other_of_ne hji, hother]

include hdistinct in
/-- Where the other call has something to change, its change shows. -/
theorem change_ne_both (hneeds : Needs (state i.other) (target i.other).uuid initial) :
    change target state i initial ≠
      change target state .first (change target state .second initial) := by
  intro heq
  rw [← change_comm hdistinct i.other, Client.other_other] at heq
  have hmem : (target i.other).uuid ∈ initial ↔ state i.other = "present" :=
    calc (target i.other).uuid ∈ initial
        ↔ (target i.other).uuid ∈ change target state i initial :=
          (mem_applied_of_ne (Ne.symm (uuid_ne_other hdistinct i))).symm
      _ ↔ (target i.other).uuid ∈ change target state i.other (change target state i initial) := by
          rw [← heq]
      _ ↔ state i.other = "present" := mem_applied_self
  exact hneeds hmem

end Turns

/-- Two calls that change the assignment of one privilege, for different targets, leave it with
both changes if one of them has nothing to change, or reads the assignment after the other one has
posted; otherwise the change of the one that posts first is lost. -/
theorem both_applied_iff (api : PrivServer) (target : Client → Target) (state : Client → String)
    (initial : Finset String) (turns : List Client) (hknown : api.Known initial)
    (htarget : ∀ i, target i ∈ api.known)
    (hstate : ∀ i, state i = "present" ∨ state i = "absent")
    (htype : api.targetType = "user" ∨ api.targetType = "group")
    (hdistinct : (target .first).uuid ≠ (target .second).uuid)
    (hfinished : (Pool.schedule api.serve turns (together api target state initial)).Finished) :
    let c := Pool.schedule api.serve turns (together api target state initial)
    (c.state = change target state .first (change target state .second initial) ↔
      (∃ i, ¬ Needs (state i) (target i).uuid initial) ∨ ∃ i, ReadAfter i c.history) ∧
    (c.state = change target state .first (change target state .second initial) ∨
      ∃ i, c.state = change target state i initial) := by
  intro c
  obtain ⟨progress, htracked⟩ := tracked_schedule htarget hstate htype hdistinct hknown turns
  have hdone := wrote_or_met htarget hstate htype htracked hfinished
  -- a call that has nothing to change posts nothing that could undo the other's change
  by_cases hmet : ∃ i, ¬ Needs (state i) (target i).uuid initial
  · obtain ⟨i, hi⟩ := hmet
    have hfinal : c.state = change target state .first (change target state .second initial) :=
      both_of_met hdistinct htracked hdone hi
    exact ⟨iff_of_true hfinal (Or.inl ⟨i, hi⟩), Or.inl hfinal⟩
  · have hneeds : ∀ i, Needs (state i) (target i).uuid initial :=
      fun i => not_not.mp fun hi => hmet ⟨i, hi⟩
    have hwrote : ∀ i, progress i = .wrote := by
      intro i
      rcases hdone i with ⟨hwrote, -⟩ | ⟨-, hnone⟩
      · exact hwrote
      · exact absurd (hneeds i) hnone
    rcases htracked.both hwrote with ⟨hlater, hfinal⟩ | ⟨hnever, i, hfinal⟩
    · exact ⟨iff_of_true hfinal (Or.inr hlater), Or.inl hfinal⟩
    · -- neither has seen the other's post, and each had a change to make
      have hlost : c.state ≠ change target state .first (change target state .second initial) :=
        hfinal ▸ change_ne_both hdistinct (hneeds i.other)
      refine ⟨iff_of_false hlost ?_, Or.inr ⟨i, hfinal⟩⟩
      rintro (hmet' | ⟨j, hj⟩)
      · exact hmet hmet'
      · exact hnever j hj

def samplePriv : PrivServer where
  privId := "page-all"
  targetType := "user"
  known := [⟨"u1", "alice"⟩, ⟨"u2", "bob"⟩]
  uuid_nodup := by decide
  name_nodup := by decide
  plain := by decide

def sampleTarget : Client → Target
  | .first => ⟨"u1", "alice"⟩
  | .second => ⟨"u2", "bob"⟩

/-- The calls assign the privilege to two users that do not have it, in the given turns. -/
def sampleAssigning (turns : List Client) :
    Pool Client Request Reply Event Exc EnsureResult (Finset String) :=
  Pool.schedule samplePriv.serve turns (together samplePriv sampleTarget (fun _ => "present") ∅)

theorem both_applied_iff_sample :
    let c := sampleAssigning [.first, .first, .second, .second]
    (c.state = {"u1", "u2"} ↔ (∃ i, ¬ Needs "present" (sampleTarget i).uuid ∅) ∨
        ∃ i, ReadAfter i c.history) ∧
      (c.state = {"u1", "u2"} ∨ ∃ i, c.state = {(sampleTarget i).uuid}) :=
  both_applied_iff samplePriv sampleTarget (fun _ => "present") ∅ [.first, .first, .second, .second]
    (fun _ hu => absurd hu (Finset.notMem_empty _)) (fun i => by cases i <;> decide)
    (fun _ => Or.inl rfl) (Or.inl rfl) (by decide) (fun i => by cases i <;> exact ⟨_, rfl⟩)

/-- Both calls read before either has posted: the privilege is left to one of the two users. -/
theorem change_lost :
    let c := sampleAssigning [.first, .second, .first, .second]
    c.Finished ∧ c.state ≠ change sampleTarget (fun _ => "present") .first
      (change sampleTarget (fun _ => "present") .second ∅) := by
  intro c
  refine ⟨fun i => ?_, by decide +kernel⟩
  cases i <;> exact ⟨_, rfl⟩

end PrivServer
end AuthPriv
end Opnsense
