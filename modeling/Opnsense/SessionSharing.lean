import Opnsense.Sessions

namespace Opnsense
open Interaction

namespace OpnsenseClient

variable {α β S : Type} {id : ℕ}

/-- The coroutine asks over the session `id`, or the one of the moment, what `p` asks the
network. -/
def Carries (id : ℕ) : Coroutine α → H α → Prop
  | .ret a, .ret b => a = b
  | .raise (.raised e), .raise e' => e = e'
  | .emit v p, .emit v' p' => v = v' ∧ Carries id p p'
  | .call (.send http q) k, .call q' k' =>
    q = q' ∧ (∀ id' ∈ http, id' = id) ∧ ∀ r, Carries id (k (.replied id r)) (k' r)
  | _, _ => False

theorem carries_call {http : Option ℕ} {q q' : HttpRequest} {k : SessionReply → Coroutine α}
    {k' : HttpReply → H α} :
    Carries id (.call (.send http q) k) (.call q' k') ↔
      q = q' ∧ (∀ id' ∈ http, id' = id) ∧ ∀ r, Carries id (k (.replied id r)) (k' r) := Iff.rfl

theorem carries_onSession {http : Option ℕ} (hhttp : ∀ id' ∈ http, id' = id) (p : H α) :
    Carries id (onSession http p) p := by
  induction p generalizing http with
  | ret a => rfl
  | raise e => rfl
  | emit v p ih => exact ⟨rfl, ih hhttp⟩
  | call q k ih =>
    have hnext : ∀ r, Carries id (onSession (some id) (k r)) (k r) := fun r => by
      refine ih r fun id' h => ?_
      cases h
      rfl
    exact carries_call.mpr ⟨rfl, hhttp, hnext⟩

theorem carries_settle {p : Coroutine β} {p' : H β}
    {f : Except SessionError β → Coroutine α} {f' : Except Exc β → H α} (h : Carries id p p')
    (hf : ∀ r, Carries id (f (r.mapError .raised)) (f' r)) :
    Carries id (p.settle f) (p'.settle f') := by
  induction p generalizing p' with
  | ret b =>
    cases p' with
    | ret b' =>
      obtain rfl : b = b' := h
      exact hf (.ok b)
    | raise | emit | call => exact h.elim
  | raise e =>
    cases p' with
    | raise e' =>
      cases e with
      | raised e =>
        obtain rfl : e = e' := h
        exact hf (.error e)
      | clientClosed => exact h.elim
    | ret | emit | call => cases e <;> exact h.elim
  | emit v p ih =>
    cases p' with
    | emit v' p' => exact ⟨h.1, ih h.2⟩
    | ret | raise | call => exact h.elim
  | call q k ih =>
    cases p' with
    | call q' k' =>
      cases q with
      | send http q =>
        obtain ⟨rfl, hhttp, hk⟩ := h
        exact ⟨rfl, hhttp, fun r => ih _ (hk r)⟩
      | ensureHttp | beginClose | endClose => exact h.elim
    | ret | raise | emit => cases q <;> exact h.elim

theorem carries_overSession (client : OpnsenseClient) (p : M α) :
    Carries id (client.overSession p) (client.overNetwork p) := by
  induction p with
  | ret a => rfl
  | raise e => rfl
  | emit v p ih => exact ⟨rfl, ih⟩
  | call q k ih =>
    have hcall : Carries id (onSession none (client.call q)) (client.call q) :=
      carries_onSession (fun id' h => by cases h) (client.call q)
    refine carries_settle hcall fun r => ?_
    cases r with
    | error e => exact ih (.error e)
    | ok v => exact ih (.ok v)

/-- Against sessions of which one is in use, a coroutine goes on as over the network alone. -/
theorem inStep_of_carries (net : Server HttpRequest HttpReply S) {s : Sessions}
    (hlive : s.live = some id) (p : Coroutine α) (p' : H α) (S' : Sessions × S) (n : S)
    (hp : Carries id p p') (hS : S' = (s, n)) :
    Pool.InStep (Sessions.serve net) net (Carries id) (fun S' n => S' = (s, n))
      (fun o o' => o = o'.mapError .raised) p p' S' n := by
  have hopen : s.IsOpen id := Sessions.isOpen_of_live hlive
  have hensure : s.ensureHttp = (id, s) := by rw [Sessions.ensureHttp, hlive]
  subst hS
  induction p generalizing p' with
  | ret a =>
    cases p' with
    | ret b =>
      obtain rfl : a = b := hp
      rfl
    | raise | emit | call => exact hp.elim
  | raise e =>
    cases p' with
    | raise e' =>
      cases e with
      | raised e =>
        obtain rfl : e = e' := hp
        rfl
      | clientClosed => exact hp.elim
    | ret | emit | call => cases e <;> exact hp.elim
  | emit v p ih =>
    cases p' with
    | emit v' p' => exact ih p' hp.2
    | ret | raise | call => exact hp.elim
  | call q k =>
    cases p' with
    | call q' k' =>
      cases q with
      | send http q =>
        obtain ⟨rfl, hhttp, hk⟩ := hp
        have hserve : Sessions.serve net (.send http q) (s, n) =
            (.replied id (net q n).1, (s, (net q n).2)) := by
          cases http with
          | none => simp [Sessions.serve, Sessions.step, hensure]
          | some id' =>
            obtain rfl := hhttp id' rfl
            simp [Sessions.serve, hopen]
        refine ⟨?_, ?_⟩
        · rw [hserve]
          exact hk _
        · rw [hserve]
      | ensureHttp | beginClose | endClose => exact hp.elim
    | ret | raise | emit => cases q <;> exact hp.elim

variable {ι : Type} [DecidableEq ι]

/-- Inside `async with`, coroutines that share the session come in every order of their
requests to what they come to without it; it is one session, and it is closed in the end. -/
theorem async_with (client : OpnsenseClient) (net : Server HttpRequest HttpReply S)
    (coroutines : ι → M α) (n : S) (turns : List ι) :
    let entered := (aenter.run (Sessions.serve net) (Sessions.initial, n)).2
    let shared := Pool.schedule (Sessions.serve net) turns
      { progs := fun i => client.overSession (coroutines i), state := entered }
    let alone := Pool.schedule net turns
      { progs := fun i => client.overNetwork (coroutines i), state := n }
    let left := (aexit.run (Sessions.serve net) shared.state).2
    (∀ i, (shared.progs i).outcome =
        (alone.progs i).outcome.map (Except.mapError .raised)) ∧
      left.2 = alone.state ∧ left.1.opened = 1 ∧ left.1.http = none ∧ ∀ id, ¬ left.1.IsOpen id := by
  intro entered shared alone left
  have hentered : entered = (Sessions.initial.openNew, n) := rfl
  have hlive : Sessions.initial.openNew.live = some 0 := by decide
  obtain ⟨hprogs, hstate⟩ := Pool.schedule_in_step
    (c := ⟨fun i => client.overSession (coroutines i), entered, []⟩)
    (d := ⟨fun i => client.overNetwork (coroutines i), n, []⟩)
    (inStep_of_carries net hlive) turns (fun i => carries_overSession client (coroutines i)) hentered
  change shared.state = (Sessions.initial.openNew, alone.state) at hstate
  refine ⟨fun i => ?_, ?_⟩
  · exact (inStep_of_carries net hlive _ _ _ _ (hprogs i) hstate).outcome
  · have hleft : left = ((Sessions.initial.openNew.markClosed 0 (by decide)).forget,
        alone.state) := by
      change (aexit.run (Sessions.serve net) shared.state).2 = _
      rw [hstate]
      rfl
    rw [hleft]
    refine ⟨rfl, rfl, rfl, fun id hopen => ?_⟩
    obtain ⟨hlt, hnot⟩ := hopen
    change id < 1 at hlt
    obtain rfl : id = 0 := by omega
    exact hnot (Finset.mem_insert_self _ _)

end OpnsenseClient

namespace SessionRequest

/-- The start of a request, or of the `async with` block. -/
def Opens : SessionRequest → Prop
  | .ensureHttp | .send none _ => True
  | _ => False

/-- A retry, which has its session. -/
def Holds : SessionRequest → Prop
  | .send (some _) _ => True
  | _ => False

end SessionRequest

namespace Sessions

variable {s : Sessions} {q : SessionRequest} {qs : List SessionRequest}

/-- Some session is open, and `close` will not find it. -/
def LeftOpen (s : Sessions) : Prop := ∃ id, s.IsOpen id ∧ s.http ≠ some id

/-- What a sequence of steps makes of the sessions. -/
def after (qs : List SessionRequest) : Sessions := qs.foldl (fun s q => s.step q) initial

theorem after_concat (qs : List SessionRequest) (q : SessionRequest) :
    after (qs ++ [q]) = (after qs).step q := by
  simp [after]

theorem live_openNew (s : Sessions) : s.openNew.live = some s.opened :=
  live_eq_some.mpr ⟨rfl, fun h => Nat.lt_irrefl _ (s.made _ h)⟩

theorem live_ensureHttp (s : Sessions) : s.ensureHttp.2.live = some s.ensureHttp.1 := by
  unfold ensureHttp
  split
  · assumption
  · exact live_openNew s

/-- The step of `close` that waits leaves nothing in use. -/
theorem live_beginClose (s : Sessions) : (s.step .beginClose).live = none := by
  rw [Option.eq_none_iff_forall_ne_some]
  intro id hlive
  obtain ⟨hhttp, hnot⟩ := live_eq_some.mp hlive
  cases hs : s.http with
  | none =>
    simp only [step, hs] at hhttp
    cases hhttp
  | some id' =>
    by_cases hopen : s.IsOpen id'
    · simp only [step, hs, hopen, dite_true] at hhttp hnot
      obtain rfl : id' = id := Option.some.inj (hs.symm.trans hhttp)
      exact hnot (Finset.mem_insert_self _ _)
    · simp only [step, hs, hopen, dite_false] at hhttp hnot
      obtain rfl : id' = id := Option.some.inj hhttp
      exact hopen ⟨s.known id' hs, hnot⟩

/-- The last step that was no retry tells whether a session is in use. -/
theorem live_step : (s.step q).live.isSome ↔ q.Opens ∨ q.Holds ∧ s.live.isSome := by
  cases q with
  | ensureHttp => simp [step, SessionRequest.Opens, live_ensureHttp]
  | send http q =>
    cases http with
    | none => simp [step, SessionRequest.Opens, live_ensureHttp]
    | some id => simp [step, SessionRequest.Opens, SessionRequest.Holds]
  | beginClose => simp [live_beginClose, SessionRequest.Opens, SessionRequest.Holds]
  | endClose => simp [step, forget, live, SessionRequest.Opens, SessionRequest.Holds]

theorem leftOpen_ensureHttp : s.ensureHttp.2.LeftOpen ↔ s.LeftOpen := by
  unfold ensureHttp
  cases hlive : s.live with
  | some id => rfl
  | none =>
    -- what is replaced was closed, and the new one is found
    constructor
    · rintro ⟨id, ⟨hlt, hnot⟩, hhttp⟩
      have hne : id ≠ s.opened := fun h => hhttp (congrArg some h.symm)
      have hlt' : id < s.opened := by
        change id < s.opened + 1 at hlt
        omega
      refine ⟨id, ⟨hlt', hnot⟩, fun h => ?_⟩
      rw [live_eq_some.mpr ⟨h, hnot⟩] at hlive
      cases hlive
    · rintro ⟨id, ⟨hlt, hnot⟩, -⟩
      refine ⟨id, ⟨Nat.lt_succ_of_lt hlt, hnot⟩, fun h => ?_⟩
      obtain rfl : s.opened = id := Option.some.inj h
      exact Nat.lt_irrefl _ hlt

theorem leftOpen_beginClose : (s.step .beginClose).LeftOpen ↔ s.LeftOpen := by
  cases hs : s.http with
  | none => simp only [step, hs]
  | some id =>
    by_cases hopen : s.IsOpen id
    · simp only [step, hs, hopen, dite_true]
      constructor
      · rintro ⟨id', ⟨hlt, hnot⟩, hhttp⟩
        exact ⟨id', ⟨hlt, fun h => hnot (Finset.mem_insert_of_mem h)⟩, hhttp⟩
      · rintro ⟨id', ⟨hlt, hnot⟩, hhttp⟩
        refine ⟨id', ⟨hlt, fun h => ?_⟩, hhttp⟩
        rcases Finset.mem_insert.mp h with rfl | h
        · exact hhttp hs
        · exact hnot h
    · simp only [step, hs, hopen, dite_false]

theorem leftOpen_forget : s.forget.LeftOpen ↔ s.LeftOpen ∨ s.live.isSome := by
  constructor
  · rintro ⟨id, hopen, -⟩
    by_cases hhttp : s.http = some id
    · refine Or.inr ?_
      rw [live_eq_some.mpr ⟨hhttp, hopen.2⟩]
      rfl
    · exact Or.inl ⟨id, hopen, hhttp⟩
  · rintro (⟨id, hopen, -⟩ | hlive)
    · exact ⟨id, hopen, fun h => by cases h⟩
    · obtain ⟨id, hid⟩ := Option.isSome_iff_exists.mp hlive
      have hopen : s.IsOpen id := isOpen_of_live hid
      exact ⟨id, hopen, fun h => by cases h⟩

/-- Only the end of a `close` can leave a session behind: one in use. -/
theorem leftOpen_step :
    (s.step q).LeftOpen ↔ s.LeftOpen ∨ q = .endClose ∧ s.live.isSome := by
  cases q with
  | ensureHttp => simp [step, leftOpen_ensureHttp]
  | send http q =>
    cases http with
    | none => simp [step, leftOpen_ensureHttp]
    | some id => simp [step]
  | beginClose => simp [leftOpen_beginClose]
  | endClose => simp [step, leftOpen_forget]

theorem live_after : (after qs).live.isSome ↔
    ∃ pre q mid, qs = pre ++ q :: mid ∧ q.Opens ∧ ∀ q' ∈ mid, q'.Holds := by
  induction qs using List.reverseRecOn with
  | nil => simp [after, initial, live]
  | append_singleton qs last ih =>
    rw [after_concat, live_step, ih]
    constructor
    · rintro (hopens | ⟨hholds, pre, q, mid, rfl, hq, hmid⟩)
      · exact ⟨qs, last, [], rfl, hopens, by simp⟩
      · refine ⟨pre, q, mid ++ [last], by simp, hq, fun q' hq' => ?_⟩
        rcases List.mem_append.mp hq' with hq' | hq'
        · exact hmid q' hq'
        · rwa [List.mem_singleton.mp hq']
    · rintro ⟨pre, q, mid, hsplit, hq, hmid⟩
      rcases List.eq_nil_or_concat mid with rfl | ⟨mid, q', rfl⟩
      · obtain ⟨-, hlast⟩ := List.append_inj' hsplit rfl
        rw [List.singleton_inj.mp hlast]
        exact Or.inl hq
      · rw [List.concat_eq_append] at hsplit hmid
        rw [← List.cons_append, ← List.append_assoc] at hsplit
        obtain ⟨hqs, hlast⟩ := List.append_inj' hsplit rfl
        rw [List.singleton_inj.mp hlast]
        exact Or.inr ⟨hmid q' (by simp), pre, q, mid, hqs, hq, fun q'' hq'' =>
          hmid q'' (List.mem_append_left _ hq'')⟩

theorem leftOpen_after : (after qs).LeftOpen ↔ ∃ pre q mid post,
    qs = pre ++ q :: mid ++ .endClose :: post ∧ q.Opens ∧ ∀ q' ∈ mid, q'.Holds := by
  induction qs using List.reverseRecOn with
  | nil => simp [after, initial, LeftOpen, IsOpen]
  | append_singleton qs last ih =>
    rw [after_concat, leftOpen_step, ih, live_after]
    constructor
    · rintro (⟨pre, q, mid, post, rfl, hq, hmid⟩ | ⟨rfl, pre, q, mid, rfl, hq, hmid⟩)
      · exact ⟨pre, q, mid, post ++ [last], by simp, hq, hmid⟩
      · exact ⟨pre, q, mid, [], rfl, hq, hmid⟩
    · rintro ⟨pre, q, mid, post, hsplit, hq, hmid⟩
      rcases List.eq_nil_or_concat post with rfl | ⟨post, q', rfl⟩
      · obtain ⟨hqs, hlast⟩ := List.append_inj' hsplit rfl
        exact Or.inr ⟨List.singleton_inj.mp hlast, pre, q, mid, hqs, hq, hmid⟩
      · rw [List.concat_eq_append, ← List.cons_append, ← List.append_assoc] at hsplit
        obtain ⟨hqs, -⟩ := List.append_inj' hsplit rfl
        exact Or.inl ⟨pre, q, mid, post, hqs, hq, hmid⟩

end Sessions

namespace OpnsenseClient

variable {ι α S : Type} [DecidableEq ι]

/-- The sessions are what the steps made of them, whoever took them. -/
theorem sessions_of_history (net : Server HttpRequest HttpReply S) (coroutines : ι → Coroutine α)
    (n : S) (turns : List ι) :
    let c := Pool.schedule (Sessions.serve net) turns
      { progs := coroutines, state := (Sessions.initial, n) }
    c.state.1 = Sessions.after (c.history.map Prod.snd) := by
  refine Pool.schedule_invariant
    (fun c : Pool ι SessionRequest SessionReply Event SessionError α (Sessions × S) =>
      c.state.1 = Sessions.after (c.history.map Prod.snd)) (fun c i q k hc _ => ?_) turns rfl
  have hstep : (Sessions.serve net q c.state).2.1 = c.state.1.step q := by
    obtain ⟨s, n'⟩ := c.state
    cases q with
    | ensureHttp | beginClose | endClose => rfl
    | send http q =>
      cases http with
      | none => rfl
      | some id =>
        simp only [Sessions.serve]
        split <;> rfl
  rw [Pool.answer, List.map_append, List.map_singleton, Sessions.after_concat, ← hc]
  exact hstep

/-- In every order of their steps, coroutines leave a session open that no `close` will find if
and only if one of them started a request, and then, retries apart, the next step of all was the
end of another's `close`. -/
theorem session_left_open_iff (net : Server HttpRequest HttpReply S)
    (coroutines : ι → Coroutine α) (n : S) (turns : List ι) :
    let c := Pool.schedule (Sessions.serve net) turns
      { progs := coroutines, state := (Sessions.initial, n) }
    c.state.1.LeftOpen ↔ ∃ pre q mid post,
      c.history.map Prod.snd = pre ++ q :: mid ++ .endClose :: post ∧ q.Opens ∧
        ∀ q' ∈ mid, q'.Holds := by
  intro c
  rw [sessions_of_history net coroutines n turns]
  exact Sessions.leftOpen_after

/-- A block that ends while another coroutine asks for the status. -/
def blockAndStatus : Client → Coroutine Unit
  | .first => aenter >>= fun _ => aexit
  | .second => defaultClient.overSession (await (.get { action := "status" }) >>= fun _ => pure ())

example : (Pool.schedule (Sessions.serve fun _ n => (.timeout, n)) [.first, .first, .second, .first]
    { progs := blockAndStatus, state := (Sessions.initial, ()) }).state.1.LeftOpen :=
  ⟨1, by decide, by decide⟩

/-- The session is closed under a request that is tried again. -/
example : ((Pool.schedule (Sessions.serve fun _ n => (.timeout, n))
    [.first, .second, .first, .second] { progs := blockAndStatus, state := (Sessions.initial, ()) }
      ).progs .second).outcome = some (.error .clientClosed) := rfl

end OpnsenseClient
end Opnsense
