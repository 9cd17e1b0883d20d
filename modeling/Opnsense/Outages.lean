import Mathlib.Data.Rat.Cast.Order
import Mathlib.Tactic.Ring
import Opnsense.RebootWait

namespace Opnsense
open Interaction OpnsenseClient

namespace HttpReply

/-- The end of a poll on an appliance that is down: a timeout, a transport error or any 5xx. -/
def Outage : HttpReply → Prop
  | response status _ => 500 ≤ status ∧ status ≤ 599
  | _ => True

/-- A 5xx other than 500, as a gateway answers for a server behind it. -/
def GatewayError : HttpReply → Prop
  | response status _ => 500 < status ∧ status ≤ 599
  | _ => False

/-- What the `except` clauses of the waits swallow. -/
def swallowed : HttpReply → Bool
  | response status _ => status == 500
  | _ => true

theorem outage_iff {r : HttpReply} : r.Outage ↔ r.swallowed = true ∨ r.GatewayError := by
  cases r with
  | response status body =>
    simp only [Outage, swallowed, GatewayError, beq_iff_eq]
    omega
  | _ => simp [Outage, swallowed]

theorem not_gatewayError_of_swallowed {r : HttpReply} (h : r.swallowed = true) :
    ¬ r.GatewayError := by
  cases r with
  | response status body =>
    have hstatus : status = 500 := by simpa [swallowed] using h
    simp only [GatewayError]
    omega
  | _ => simp [GatewayError]

theorem reading_of_swallowed {r : HttpReply} (h : r.swallowed = true) : r.reading = .refused := by
  cases r with
  | response status body =>
    have hstatus : status = 500 := by simpa [swallowed] using h
    simp [reading, hstatus]
  | _ => rfl

theorem reading_of_gatewayError {r : HttpReply} (h : r.GatewayError) : r.reading = .refused := by
  cases r with
  | response status body =>
    have hstatus : 500 ≤ status := h.1.le
    simp [reading, hstatus]
  | _ => cases h

end HttpReply

namespace OpnsenseClient

variable {S : Type} {client : OpnsenseClient} {net : Server HttpRequest HttpReply S} {x x' : S}
  {method : Method} {endpoint : String} {data : Obj} {opts : CallOptions}

theorem isTransient_errorForStatus (status : ℕ) (body : HttpBody) (endpoint : String) :
    isTransient (client.errorForStatus status body endpoint) = (status == 500) := by
  by_cases hserver : status = 500
  · subst hserver
    rfl
  · rw [beq_false_of_ne hserver]
    unfold errorForStatus
    split
    -- the other classes are not swallowed
    case h_5 => exact absurd rfl hserver
    all_goals rfl

theorem run_finish_error {timeout : ℕ} {earlier : List HttpReply} {r : HttpReply} {exc : Exc}
    {status : Option ℕ}
    (h : (client.finish method endpoint timeout earlier r).run net x = (.error (exc, status), x')) :
    isTransient exc = r.swallowed := by
  cases r with
  | timeout =>
    cases h
    rfl
  | transportError text =>
    cases h
    rfl
  | response code body =>
    simp only [finish] at h
    split at h
    · cases h
      exact isTransient_errorForStatus _ _ _
    · rename_i hcode
      -- a body that cannot be read is no server error
      have hother : (code == 500) = false := by
        simp only [not_or] at hcode
        simp only [beq_eq_false_iff_ne]
        omega
      rw [HttpReply.swallowed, hother]
      split at h
      · cases h
        rfl
      · split at h
        · cases h
          rfl
        · cases h

/-- The error of a request is transient exactly when its final reply is swallowed. -/
theorem run_request_error {exc : Exc}
    (h : (client.request method endpoint data opts).run net x = (.error exc, x')) :
    isTransient exc =
      (client.finalReply net (client.attempt method endpoint data opts) opts x).1.swallowed := by
  obtain ⟨earlier, hrun⟩ := @run_request_finish _ client net method endpoint data opts x
  rw [h] at hrun
  rcases hfinish : (client.finish method endpoint (opts.timeout.getD client.timeout) earlier
    (client.finalReply net (client.attempt method endpoint data opts) opts x).1).run net
    (client.finalReply net (client.attempt method endpoint data opts) opts x).2
    with ⟨⟨exc', status⟩ | v, x''⟩
  · rw [hfinish] at hrun
    obtain rfl : exc = exc' := by simpa [Except.mapError] using congrArg Prod.fst hrun
    exact run_finish_error hfinish
  · rw [hfinish] at hrun
    simp [Except.mapError] at hrun

/-- The network as a loop of polls sees it: one reply for each request, the final one. -/
def polled (client : OpnsenseClient) (net : Server HttpRequest HttpReply S) (opts : CallOptions) :
    Server HttpRequest HttpReply S :=
  fun h x => client.finalReply net h opts x

end OpnsenseClient

namespace RebootWait

variable {S τ α : Type} (w : RebootWait τ α) (client : OpnsenseClient)
  (net : Server HttpRequest HttpReply S) (x : S)

def attempt : HttpRequest := client.attempt .get (Endpoint.url { action := w.endpoint }) [] w.opts

/-- The reply that the poll number `n` ends with, from zero on, and the state behind it. -/
def nthPoll (n : ℕ) : HttpReply × S :=
  Prog.nth (client.polled net w.opts) (w.attempt client) n x

/-- The poll number `n` is within the budget of the wait. -/
def InTime (n : ℕ) : Prop :=
  (∀ j ≤ n, w.opens (j * w.interval) = true) ∧ ∀ j < n, w.lasts (j * w.interval) = true

/-- The reply the wait waits for. -/
def Ready (r : HttpReply) (a : α) : Prop :=
  ∃ body, r.reading = .body body ∧ w.judge body = .ok (.inr a)

/-- A reply the wait goes on after: a body that is not ready, or a failure it swallows. -/
def GoesOn (r : HttpReply) : Prop :=
  r.swallowed = true ∨ ∃ body last, r.reading = .body body ∧ w.judge body = .ok (.inl last)

/-- The poll number `n` takes place. -/
def Reached (n : ℕ) : Prop :=
  w.InTime n ∧ ∀ j < n, w.GoesOn (w.nthPoll client net x j).1

/-- A reply the wait makes nothing of: a failure it does not swallow, or a body it cannot judge. -/
def Raises (r : HttpReply) : Prop :=
  r.swallowed = false ∧ ¬ ∃ body v, r.reading = .body body ∧ w.judge body = .ok v

/-- A reply that ends a wait too early: a 5xx other than 500, or one that is no HTTP error and
that it makes nothing of. -/
def EndsEarly (r : HttpReply) : Prop :=
  r.GatewayError ∨ ∃ status body, r = .response status body ∧ status < 400 ∧ w.Raises r

/-- No poll that takes place ends with such a reply. -/
def EndsNowhereEarly : Prop :=
  ∀ n, w.Reached client net x n → ¬ w.EndsEarly (w.nthPoll client net x n).1

/-- What a wait promises. After any outages, a ready reply within the budget is what it returns;
an error other than its timeout is raised behind an HTTP error that is no 5xx. -/
structure Outlasts : Prop where
  returns : ∀ n a, (∀ j < n, (w.nthPoll client net x j).1.Outage) → w.InTime n →
    w.Ready (w.nthPoll client net x n).1 a → ∀ rounds, n < rounds →
    (w.program client rounds).run net x = (.ok (some a), (w.nthPoll client net x n).2)
  aborts : ∀ rounds e, ((w.program client rounds).run net x).1 = .error e →
    isTimeoutError e = false → ∃ h status body,
      ((w.program client rounds).trace net x).getLast? = some (h, .response status body) ∧
        400 ≤ status ∧ ¬ (500 ≤ status ∧ status ≤ 599)

section Poll

variable {w client net x}

theorem nthPoll_succ (n : ℕ) :
    w.nthPoll client net x (n + 1) = w.nthPoll client net (w.nthPoll client net x 0).2 n :=
  Prog.nth_succ _ _ _ _

/-- What a poll makes of the reply it ends with; `none` when it raises. -/
def outcome (w : RebootWait τ α) (last : τ) (r : HttpReply) : Option (τ ⊕ α) :=
  if r.swallowed then some (.inl last)
  else match r.reading with
    | .body body => (w.judge body).toOption
    | _ => none

theorem outcome_eq_inr_iff {last : τ} {r : HttpReply} {a : α} :
    w.outcome last r = some (.inr a) ↔ w.Ready r a := by
  unfold outcome Ready
  by_cases hswallowed : r.swallowed = true
  · simp [hswallowed, HttpReply.reading_of_swallowed hswallowed]
  · cases hreading : r.reading with
    | body body => cases hjudge : w.judge body <;> simp [hswallowed, hjudge, Except.toOption]
    | _ => simp [hswallowed]

theorem goesOn_iff {last : τ} {r : HttpReply} :
    w.GoesOn r ↔ ∃ last', w.outcome last r = some (.inl last') := by
  unfold outcome GoesOn
  by_cases hswallowed : r.swallowed = true
  · simp [hswallowed]
  · cases hreading : r.reading with
    | body body => cases hjudge : w.judge body <;> simp [hswallowed, hjudge, Except.toOption]
    | _ => simp [hswallowed]

theorem outcome_eq_none_iff {last : τ} {r : HttpReply} :
    w.outcome last r = none ↔ w.Raises r := by
  unfold outcome Raises
  by_cases hswallowed : r.swallowed = true
  · simp [hswallowed]
  · cases hreading : r.reading with
    | body body =>
      cases hjudge : w.judge body with
      | error e => simp [hswallowed, hjudge, Except.toOption]
      | ok v => cases v <;> simp [hswallowed, hjudge, Except.toOption]
    | _ => simp [hswallowed]

theorem raises_of_gatewayError {r : HttpReply} (h : r.GatewayError) : w.Raises r := by
  refine ⟨?_, fun ⟨body, v, hreading, _⟩ => ?_⟩
  · by_contra hne
    exact HttpReply.not_gatewayError_of_swallowed (by simpa using hne) h
  · rw [HttpReply.reading_of_gatewayError h] at hreading
    cases hreading

@[simp] theorem run_reports {β : Type} (events : List Event) (p : H β) :
    (reports events p).run net x = p.run net x :=
  Prog.run_foldr_emit _ _ _

@[simp] theorem trace_reports {β : Type} (events : List Event) (p : H β) :
    (reports events p).trace net x = p.trace net x :=
  Prog.trace_foldr_emit _ _ _

/-- A poll ends as the reply it gets at last says, and raises no transient error. -/
theorem run_poll (last : τ) :
    match w.outcome last (w.nthPoll client net x 0).1 with
    | some v => (w.poll client last).run net x = (.ok v, (w.nthPoll client net x 0).2)
    | none => ∃ e, (w.poll client last).run net x = (.error e, (w.nthPoll client net x 0).2) ∧
        isTransient e = false := by
  obtain ⟨o, hrun, hreads⟩ := @run_request_reads _ client net .get
    (Endpoint.url { action := w.endpoint }) [] w.opts x
  have hget : (client.get { action := w.endpoint } w.opts).run net x =
      (o, (w.nthPoll client net x 0).2) := hrun
  have hreads' : OpnsenseClient.Reads (w.nthPoll client net x 0).1.reading o := hreads
  unfold outcome
  cases o with
  | ok body =>
    -- a body was read: nothing was swallowed, and the poll judges it
    have hreading : (w.nthPoll client net x 0).1.reading = .body body := by
      cases hr : (w.nthPoll client net x 0).1.reading with
      | body v =>
        rw [hr] at hreads'
        exact congrArg _ (Except.ok.inj hreads').symm
      | undecodable message =>
        rw [hr] at hreads'
        cases hreads'
      | refused =>
        rw [hr] at hreads'
        obtain ⟨e, he⟩ := hreads'
        cases he
    have hswallowed : (w.nthPoll client net x 0).1.swallowed = false := by
      by_contra hne
      rw [HttpReply.reading_of_swallowed (by simpa using hne)] at hreading
      cases hreading
    rw [if_neg (by simp [hswallowed])]
    simp only [hreading, poll, Prog.run_rescue, Prog.run_bind, hget, Prog.run_ofExcept]
    cases hjudge : w.judge body with
    | error e =>
      have hlasting := w.judge_fails body e hjudge
      exact ⟨e, by simp [hlasting], hlasting⟩
    | ok verdict => cases verdict <;> simp [Except.toOption]
  | error exc =>
    -- what was raised is transient exactly when the reply is one that is swallowed
    have htransient : isTransient exc = (w.nthPoll client net x 0).1.swallowed :=
      run_request_error hrun
    cases hswallowed : (w.nthPoll client net x 0).1.swallowed with
    | true =>
      rw [hswallowed] at htransient
      simp [poll, Prog.run_rescue, Prog.run_bind, hget, htransient]
    | false =>
      rw [hswallowed] at htransient
      have hnone : (match (w.nthPoll client net x 0).1.reading with
          | .body body => (w.judge body).toOption
          | _ => none) = none := by
        cases hr : (w.nthPoll client net x 0).1.reading with
        | body v =>
          rw [hr] at hreads'
          cases hreads'
        | _ => rfl
      rw [if_neg (by simp), hnone]
      exact ⟨exc, by simp [poll, Prog.run_rescue, Prog.run_bind, hget, htransient], htransient⟩

/-- All that a poll asks is its request. -/
theorem trace_poll (last : τ) : (w.poll client last).trace net x =
    (client.get { action := w.endpoint } w.opts).trace net x := by
  rw [poll, Prog.trace_rescue, Prog.run_bind, Prog.trace_bind]
  rcases (client.get { action := w.endpoint } w.opts).run net x with ⟨e | body, x'⟩
  · cases htransient : isTransient e <;> simp [htransient]
  · simp only [Prog.run_bind, Prog.trace_bind, Prog.run_ofExcept, Prog.trace_ofExcept]
    cases hjudge : w.judge body with
    | error e =>
      have hlasting := w.judge_fails body e hjudge
      simp [hlasting]
    | ok verdict => cases verdict <;> simp

theorem getLast?_trace_poll (last : τ) : ((w.poll client last).trace net x).getLast? =
    some (w.attempt client, (w.nthPoll client net x 0).1) := by
  rw [trace_poll]
  exact getLast?_trace_request _ _ _ _ _

end Poll

section Round

variable {w client net x}

theorem run_giveUp {β : Type} (last : τ) :
    (w.giveUp last : H β).run net x = (.error (w.expired last), x) := by
  rw [giveUp, run_reports]
  rfl

/-- A round goes on when its poll does and there is time before and behind it. -/
theorem run_round_of_goesOn {waited : ℚ} (last : τ) (hopens : w.opens waited = true)
    (hlasts : w.lasts waited = true) (hgoes : w.GoesOn (w.nthPoll client net x 0).1) :
    ∃ last', (w.round client (waited, last)).run net x =
      (.ok (.inl (waited + w.interval, last')), (w.nthPoll client net x 0).2) := by
  obtain ⟨last', houtcome⟩ : ∃ last', w.outcome last _ = some (.inl last') := goesOn_iff.mp hgoes
  have hpoll := @run_poll _ _ _ w client net x last
  rw [houtcome] at hpoll
  refine ⟨last', ?_⟩
  simp [round, hopens, hlasts, Prog.run_bind, show (w.poll client last).run net x = _ from hpoll]

theorem run_round_of_ready {waited : ℚ} {a : α} (last : τ) (hopens : w.opens waited = true)
    (hready : w.Ready (w.nthPoll client net x 0).1 a) :
    (w.round client (waited, last)).run net x =
      (.ok (.inr a), (w.nthPoll client net x 0).2) := by
  have hpoll := @run_poll _ _ _ w client net x last
  rw [outcome_eq_inr_iff.mpr hready] at hpoll
  simp [round, hopens, Prog.run_bind, show (w.poll client last).run net x = _ from hpoll]

/-- Behind a reply it makes nothing of a round raises, and nothing has been asked since. -/
theorem run_round_of_raises {waited : ℚ} (last : τ) (hopens : w.opens waited = true)
    (hraises : w.Raises (w.nthPoll client net x 0).1) : ∃ e,
    (w.round client (waited, last)).run net x = (.error e, (w.nthPoll client net x 0).2) ∧
      isTransient e = false ∧
      ((w.round client (waited, last)).trace net x).getLast? =
        some (w.attempt client, (w.nthPoll client net x 0).1) := by
  have hpoll := @run_poll _ _ _ w client net x last
  rw [outcome_eq_none_iff.mpr hraises] at hpoll
  obtain ⟨e, hrun, hlasting⟩ := hpoll
  refine ⟨e, ?_, hlasting, ?_⟩
  · simp [round, hopens, Prog.run_bind, hrun]
  · rw [round, if_pos hopens, Prog.trace_bind_of_error hrun]
    exact getLast?_trace_poll last

/-- What a round that goes on has seen. -/
theorem goesOn_of_run_round {waited : ℚ} {last : τ} {t' : ℚ × τ} {x' : S}
    (h : (w.round client (waited, last)).run net x = (.ok (.inl t'), x')) :
    w.opens waited = true ∧ w.lasts waited = true ∧ w.GoesOn (w.nthPoll client net x 0).1 ∧
      t'.1 = waited + w.interval ∧ x' = (w.nthPoll client net x 0).2 := by
  have hpoll := @run_poll _ _ _ w client net x last
  simp only [round] at h
  split at h
  · rename_i hopens
    cases houtcome : w.outcome last (w.nthPoll client net x 0).1 with
    | none =>
      rw [houtcome] at hpoll
      -- the poll raised, and so did the round
      obtain ⟨e, hrun, -⟩ := hpoll
      rw [Prog.run_bind_of_error hrun] at h
      cases h
    | some verdict =>
      rw [houtcome] at hpoll
      rw [Prog.run_bind_of_ok (show (w.poll client last).run net x = _ from hpoll)] at h
      cases verdict with
      | inr a => cases h
      | inl last' =>
        simp only at h
        split at h
        · rename_i hlasts
          cases h
          exact ⟨hopens, hlasts, goesOn_iff.mpr ⟨last', houtcome⟩, rfl, rfl⟩
        · rw [run_giveUp] at h
          cases h
  · rw [run_giveUp] at h
    cases h

/-- A round raises the timeout of the wait, or what the reply it asked for last stands for. -/
theorem error_of_run_round {waited : ℚ} {last : τ} {e : Exc} {x' : S}
    (h : (w.round client (waited, last)).run net x = (.error e, x'))
    (htimeout : isTimeoutError e = false) : w.opens waited = true ∧
      w.outcome last (w.nthPoll client net x 0).1 = none ∧
      ((w.round client (waited, last)).trace net x).getLast? =
        some (w.attempt client, (w.nthPoll client net x 0).1) := by
  -- giving up raises the timeout, which this error is not
  have hexpired : ∀ last' x'', ((w.giveUp last' : H ((ℚ × τ) ⊕ α)).run net x'').1 ≠ .error e := by
    intro last' x'' hrun
    rw [run_giveUp] at hrun
    cases hrun
    rw [w.expired_timeout] at htimeout
    cases htimeout
  have hpoll := @run_poll _ _ _ w client net x last
  by_cases hopens : w.opens waited = true
  · cases houtcome : w.outcome last (w.nthPoll client net x 0).1 with
    | none =>
      rw [houtcome] at hpoll
      obtain ⟨e', hrun, -⟩ := hpoll
      refine ⟨hopens, rfl, ?_⟩
      rw [round, if_pos hopens, Prog.trace_bind_of_error hrun]
      exact getLast?_trace_poll last
    | some verdict =>
      rw [houtcome] at hpoll
      rw [round, if_pos hopens,
        Prog.run_bind_of_ok (show (w.poll client last).run net x = _ from hpoll)] at h
      cases verdict with
      | inr a => cases h
      | inl last' =>
        simp only at h
        split at h
        · cases h
        · exact absurd (congrArg Prod.fst h) (hexpired _ _)
  · rw [round, if_neg hopens] at h
    exact absurd (congrArg Prod.fst h) (hexpired _ _)

end Round

section Rounds

variable {w client net x}

/-- Time goes on by the interval. -/
theorem waited_succ (waited interval : ℚ) (j : ℕ) :
    waited + ((j + 1 : ℕ) : ℚ) * interval = waited + interval + (j : ℚ) * interval := by
  push_cast
  ring

/-- As long as the polls go on and there is time, so do the rounds. -/
theorem rounds_of_goesOn {n : ℕ} {waited : ℚ} (last : τ)
    (hopens : ∀ j < n, w.opens (waited + j * w.interval) = true)
    (hlasts : ∀ j < n, w.lasts (waited + j * w.interval) = true)
    (hgoes : ∀ j < n, w.GoesOn (w.nthPoll client net x j).1) : ∃ last',
    Prog.Rounds net (w.round client) n (waited, last) x (waited + n * w.interval, last')
      ((fun x => (client.polled net w.opts (w.attempt client) x).2)^[n] x) := by
  induction n generalizing waited last x with
  | zero => exact ⟨last, by simp, rfl⟩
  | succ n ih =>
    have hzero : waited + ((0 : ℕ) : ℚ) * w.interval = waited := by simp
    obtain ⟨last₁, hround⟩ := run_round_of_goesOn last
      (hzero ▸ hopens 0 (Nat.succ_pos n)) (hzero ▸ hlasts 0 (Nat.succ_pos n))
      (hgoes 0 (Nat.succ_pos n))
    obtain ⟨last', hrounds⟩ := @ih (w.nthPoll client net x 0).2 (waited + w.interval) last₁
      (fun j hj => waited_succ waited w.interval j ▸ hopens (j + 1) (by omega))
      (fun j hj => waited_succ waited w.interval j ▸ hlasts (j + 1) (by omega))
      (fun j hj => nthPoll_succ (w := w) j ▸ hgoes (j + 1) (by omega))
    rw [waited_succ]
    exact ⟨last', _, _, hround, hrounds⟩

/-- Rounds that went on are polls that went on in time. -/
theorem goesOn_of_rounds {n : ℕ} {waited : ℚ} {last : τ} {t' : ℚ × τ} {x' : S}
    (h : Prog.Rounds net (w.round client) n (waited, last) x t' x') :
    (∀ j < n, w.opens (waited + j * w.interval) = true ∧
      w.lasts (waited + j * w.interval) = true ∧ w.GoesOn (w.nthPoll client net x j).1) ∧
    t'.1 = waited + n * w.interval ∧
    x' = (fun x => (client.polled net w.opts (w.attempt client) x).2)^[n] x := by
  induction n generalizing waited last x with
  | zero =>
    obtain ⟨rfl, rfl⟩ := h
    refine ⟨fun j hj => absurd hj (Nat.not_lt_zero j), by simp, rfl⟩
  | succ n ih =>
    obtain ⟨⟨waited₁, last₁⟩, x₁, hround, hrest⟩ := h
    obtain ⟨hopens, hlasts, hgoes, rfl, rfl⟩ := goesOn_of_run_round hround
    obtain ⟨hall, htime, hstate⟩ := ih hrest
    refine ⟨fun j hj => ?_, ?_, hstate⟩
    · rcases j with _ | j
      · simpa using ⟨hopens, hlasts, hgoes⟩
      · rw [waited_succ, nthPoll_succ]
        exact hall j (by omega)
    · rw [htime, waited_succ]

/-- A poll that is reached is the first one of what is left of the loop. -/
theorem rounds_of_reached {n : ℕ} (h : w.Reached client net x n) : ∃ last,
    Prog.Rounds net (w.round client) n (0, w.start) x (n * w.interval, last)
      ((fun x => (client.polled net w.opts (w.attempt client) x).2)^[n] x) := by
  obtain ⟨⟨hopens, hlasts⟩, hgoes⟩ := h
  have hrounds := @rounds_of_goesOn _ _ _ w client net x n 0 w.start
    (fun j hj => by simpa using hopens j hj.le) (fun j hj => by simpa using hlasts j hj) hgoes
  simpa using hrounds

end Rounds

section Wait

variable {w client net x}

/-- The first reply it makes nothing of ends the wait with an error that is no timeout. -/
theorem aborts_of_raises {n : ℕ} (hreached : w.Reached client net x n)
    (hraises : w.Raises (w.nthPoll client net x n).1) : ∃ rounds e,
    ((w.program client rounds).run net x).1 = .error e ∧ isTimeoutError e = false ∧
      ((w.program client rounds).trace net x).getLast? =
        some (w.attempt client, (w.nthPoll client net x n).1) := by
  obtain ⟨last, hrounds⟩ := rounds_of_reached hreached
  obtain ⟨before, hloop⟩ := Prog.loop_of_rounds hrounds
  obtain ⟨hrun, htrace⟩ := hloop 1
  obtain ⟨e, hfails, hlasting, hlast⟩ := run_round_of_raises last (hreached.1.1 n le_rfl) hraises
  rw [Prog.run_loop_of_fails hfails] at hrun
  rw [Prog.trace_loop_of_fails hfails] at htrace
  have htimeout : isTimeoutError e = false := by
    cases e with
    | opnsense e =>
      have hclass : (e.cls == .connection || e.cls == .timeout || e.cls == .server) = false :=
        hlasting
      simp only [Bool.or_eq_false_iff] at hclass
      exact hclass.1.2
    | _ => rfl
  refine ⟨n + 1, e, congrArg Prod.fst hrun, htimeout, ?_⟩
  rw [program, htrace, List.getLast?_append, hlast]
  rfl

/-- While every poll before is an outage and none is a gateway error, the polls are reached. -/
theorem goesOn_of_outages {n : ℕ} (hseen : w.EndsNowhereEarly client net x) (htime : w.InTime n)
    (houtages : ∀ j < n, (w.nthPoll client net x j).1.Outage) :
    ∀ j < n, w.GoesOn (w.nthPoll client net x j).1 := by
  intro j
  induction j using Nat.strong_induction_on with
  | _ j ih =>
    intro hj
    have hreached : w.Reached client net x j :=
      ⟨⟨fun i hi => htime.1 i (by omega), fun i hi => htime.2 i (by omega)⟩,
        fun i hi => ih i hi (by omega)⟩
    have hout := HttpReply.outage_iff.mp (houtages j hj)
    exact Or.inl (hout.resolve_right fun hgateway => hseen j hreached (Or.inl hgateway))

theorem returns_of_ready {n : ℕ} {a : α} (hreached : w.Reached client net x n)
    (hready : w.Ready (w.nthPoll client net x n).1 a) {rounds : ℕ} (hrounds : n < rounds) :
    (w.program client rounds).run net x = (.ok (some a), (w.nthPoll client net x n).2) := by
  obtain ⟨last, hreach⟩ := rounds_of_reached hreached
  obtain ⟨before, hloop⟩ := Prog.loop_of_rounds hreach
  obtain ⟨hrun, -⟩ := hloop (rounds - n - 1 + 1)
  have hround := run_round_of_ready (x := _) last (hreached.1.1 n le_rfl) hready
  rw [Prog.run_loop_of_ends hround] at hrun
  rw [program, show rounds = n + (rounds - n - 1 + 1) by omega]
  exact hrun

/-- An error that is not the timeout was raised for the reply of a poll that took place. -/
theorem aborts_at {rounds : ℕ} {e : Exc}
    (herror : ((w.program client rounds).run net x).1 = .error e)
    (htimeout : isTimeoutError e = false) : ∃ n last, w.Reached client net x n ∧
      w.outcome last (w.nthPoll client net x n).1 = none ∧
      ((w.program client rounds).trace net x).getLast? =
        some (w.attempt client, (w.nthPoll client net x n).1) := by
  have hfailed : (w.program client rounds).run net x =
      (.error e, ((w.program client rounds).run net x).2) := by
    rw [← herror]
  obtain ⟨n, ⟨waited, last⟩, x', before, hrounds, hround, htrace⟩ := Prog.loop_eq_error hfailed
  obtain ⟨hall, rfl, rfl⟩ := goesOn_of_rounds hrounds
  obtain ⟨hopens, houtcome, hlast⟩ := error_of_run_round hround htimeout
  refine ⟨n, last, ⟨⟨fun j hj => ?_, fun j hj => ?_⟩, fun j hj => (hall j hj).2.2⟩, houtcome, ?_⟩
  · rcases Nat.lt_or_eq_of_le hj with hj | rfl
    · simpa using (hall j hj).1
    · simpa using hopens
  · simpa using (hall j hj).2.1
  · rw [program, htrace, List.getLast?_append, hlast]
    rfl

/-- A wait lives through the outages of the appliance exactly when no poll that takes place ends
with a 5xx other than 500, since the client makes a server error of a 500 only, or with an answer
that is no error and that the wait makes nothing of. -/
theorem outlasts_iff : w.Outlasts client net x ↔ w.EndsNowhereEarly client net x := by
  constructor
  · intro hpromise n hreached hends
    have hraises : w.Raises (w.nthPoll client net x n).1 := by
      rcases hends with hgateway | ⟨status, body, -, -, hraises⟩
      · exact raises_of_gatewayError hgateway
      · exact hraises
    obtain ⟨rounds, e, herror, htimeout, hlast⟩ := aborts_of_raises hreached hraises
    obtain ⟨h, status, body, hlast', herrs, hother⟩ := hpromise.aborts rounds e herror htimeout
    rw [hlast] at hlast'
    have hreply : (w.nthPoll client net x n).1 = .response status body := by
      simpa using congrArg (Option.map Prod.snd) hlast'
    rw [hreply] at hends
    rcases hends with hgateway | ⟨status', body', heq, hfine, -⟩
    · exact hother ⟨hgateway.1.le, hgateway.2⟩
    · cases heq
      omega
  · intro hseen
    constructor
    · intro n a houtages htime hready rounds hrounds
      exact returns_of_ready ⟨htime, goesOn_of_outages hseen htime houtages⟩ hready hrounds
    · intro rounds e herror htimeout
      obtain ⟨n, last, hreached, houtcome, hlast⟩ := aborts_at herror htimeout
      have hlate := hseen n hreached
      have hraises : w.Raises (w.nthPoll client net x n).1 := outcome_eq_none_iff.mp houtcome
      rw [hlast]
      cases hreply : (w.nthPoll client net x n).1 with
      | response status body =>
        rw [hreply] at hlate hraises
        refine ⟨w.attempt client, status, body, rfl, ?_, fun hserver => ?_⟩
        · by_contra hfine
          exact hlate (Or.inr ⟨status, body, rfl, by omega, hraises⟩)
        · -- a 500 is swallowed, and any other 5xx has not been seen
          have hstatus : status = 500 := by
            by_contra hne
            exact hlate (Or.inl ⟨by omega, hserver.2⟩)
          simp [Raises, HttpReply.swallowed, hstatus] at hraises
      | _ =>
        rw [hreply] at hraises
        simp [Raises, HttpReply.swallowed] at hraises

end Wait

/-- Time only goes on, so the budget of a wait that looks before each poll is the last look. -/
theorem inTime_waitForReady_iff (asyncTimeout : Seconds) (checkEndpoint : String)
    (timeout : Option Seconds) {interval : ℚ} (hinterval : 0 ≤ interval) (n : ℕ) :
    (waitForReady asyncTimeout checkEndpoint timeout interval).InTime n ↔
      n * interval < (timeout.getD asyncTimeout).value := by
  simp only [InTime, waitForReady, decide_eq_true_eq, implies_true, and_true]
  refine ⟨fun h => h n le_rfl, fun h j hj => ?_⟩
  have hle : (j : ℚ) * interval ≤ n * interval := by gcongr
  exact hle.trans_lt h

/-- The firmware waits look at the time behind a poll. -/
theorem inTime_succ_iff {w : RebootWait τ α} {timeout : ℚ}
    (hopens : ∀ waited, w.opens waited = true)
    (hlasts : ∀ waited, w.lasts waited = true ↔ waited < timeout) (hinterval : 0 ≤ w.interval)
    (n : ℕ) : w.InTime (n + 1) ↔ n * w.interval < timeout := by
  simp only [InTime, hopens, hlasts, implies_true, true_and]
  refine ⟨fun h => h n (Nat.lt_succ_self n), fun h j hj => ?_⟩
  have hle : (j : ℚ) * w.interval ≤ n * w.interval := by
    have hj' : j ≤ n := by omega
    gcongr
  exact hle.trans_lt h

theorem inTime_waitForVersion_iff (target : String) (timeout : ℤ) {interval : ℚ}
    (hinterval : 0 ≤ interval) (n : ℕ) :
    (FirmwareManager.waitForVersion target timeout interval).InTime (n + 1) ↔
      n * interval < timeout :=
  inTime_succ_iff (fun _ => rfl) (fun _ => decide_eq_true_iff) hinterval n

theorem inTime_waitForIdle_iff (timeout : ℤ) {interval : ℚ} (hinterval : 0 ≤ interval) (n : ℕ) :
    (FirmwareManager.waitForIdle timeout interval).InTime (n + 1) ↔ n * interval < timeout :=
  inTime_succ_iff (fun _ => rfl) (fun _ => decide_eq_true_iff) hinterval n

end RebootWait

/-- The waits of the client and of the firmware manager live through outages on a network exactly
when it shows them no 5xx other than 500, and no answer without an error that they make nothing
of. -/
theorem reboot_waits_outlast_iff {S : Type} (client : OpnsenseClient)
    (net : Server HttpRequest HttpReply S) (x : S) :
    (∀ asyncTimeout checkEndpoint timeout interval,
      (waitForReady asyncTimeout checkEndpoint timeout interval).Outlasts client net x ↔
        (waitForReady asyncTimeout checkEndpoint timeout interval).EndsNowhereEarly
          client net x) ∧
    (∀ target timeout interval,
      (FirmwareManager.waitForVersion target timeout interval).Outlasts client net x ↔
        (FirmwareManager.waitForVersion target timeout interval).EndsNowhereEarly
          client net x) ∧
    ∀ timeout interval,
      (FirmwareManager.waitForIdle timeout interval).Outlasts client net x ↔
        (FirmwareManager.waitForIdle timeout interval).EndsNowhereEarly client net x :=
  ⟨fun _ _ _ _ => RebootWait.outlasts_iff, fun _ _ _ => RebootWait.outlasts_iff,
    fun _ _ => RebootWait.outlasts_iff⟩

theorem forall_lt_one {P : ℕ → Prop} (h : P 0) : ∀ j < 1, P j := by
  intro j hj
  obtain rfl : j = 0 := by omega
  exact h

/-- A network that answers a number of attempts with 503 and all later ones with one body. -/
def rebooting (outages : ℕ) (fields : Obj) : Server HttpRequest HttpReply ℕ := fun _ n =>
  (if n < outages then .response 503 ⟨"", .error "Expecting value"⟩
    else .response 200 ⟨"", .ok (.obj fields)⟩, n + 1)

/-- The web server of an appliance that boots answers 503 until its backend is up. -/
theorem unavailable_not_outlasted :
    ¬ (waitForReady ⟨300, "300"⟩ "core/firmware/status" none 3).Outlasts defaultClient
      (rebooting 3 [("status", .str "done")]) 0 ∧
    ¬ (FirmwareManager.waitForVersion "26.7.3" 1500 30).Outlasts defaultClient
      (rebooting 1 [("product_version", .str "26.7.3")]) 0 ∧
    ¬ (FirmwareManager.waitForIdle 300 5).Outlasts defaultClient
      (rebooting 1 [("status", .str "ready")]) 0 := by
  -- the poll number one is ready in time, and never made
  refine ⟨fun h => ?_, fun h => ?_, fun h => ?_⟩
  · have hreturns := h.returns 1 (.obj [("status", .str "done")])
      (forall_lt_one ⟨by decide, by decide⟩)
      ((RebootWait.inTime_waitForReady_iff _ _ _ (by norm_num) 1).mpr (by norm_num))
      ⟨_, rfl, rfl⟩ 2 (by omega)
    cases congrArg Prod.fst hreturns
  · have hreturns := h.returns 1 "26.7.3" (forall_lt_one ⟨by decide, by decide⟩)
      ((RebootWait.inTime_waitForVersion_iff _ _ (by norm_num) 0).mpr (by norm_num))
      ⟨_, rfl, rfl⟩ 2 (by omega)
    cases congrArg Prod.fst hreturns
  · have hreturns := h.returns 1 () (forall_lt_one ⟨by decide, by decide⟩)
      ((RebootWait.inTime_waitForIdle_iff _ (by norm_num) 0).mpr (by norm_num))
      ⟨_, rfl, rfl⟩ 2 (by omega)
    cases congrArg Prod.fst hreturns

end Opnsense
