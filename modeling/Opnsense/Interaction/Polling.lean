import Opnsense.Interaction.Loop
import Opnsense.Interaction.Twins

namespace Interaction
namespace Prog

variable {Q R V E α τ : Type}

/-- So many exchanges of one question with a recording, from the `n`-th reply on. -/
def exchanges (q : Q) (replies : ℕ → R) (n count : ℕ) : List (Q × R) :=
  (List.range' n count).map fun j => (q, replies j)

@[simp] theorem exchanges_zero (q : Q) (replies : ℕ → R) (n : ℕ) :
    exchanges q replies n 0 = [] := rfl

@[simp] theorem exchanges_succ (q : Q) (replies : ℕ → R) (n count : ℕ) :
    exchanges q replies n (count + 1) = (q, replies n) :: exchanges q replies (n + 1) count := rfl

/-- The `n`-th reply is accepted, and no earlier one. -/
def FirstAccepted (accepts : R → Option α) (replies : ℕ → R) (n : ℕ) (a : α) : Prop :=
  accepts (replies n) = some a ∧ ∀ j < n, accepts (replies j) = none

/-- The result of polling: what the first accepted of the allowed replies gives, or an error when
none of them is accepted. -/
def Settles (accepts : R → Option α) (replies : ℕ → R) (allowed : ℕ) (expires : E → Prop)
    (result : Except E (Option α)) (polls : ℕ) : Prop :=
  (∃ n a, polls = n + 1 ∧ n < allowed ∧ FirstAccepted accepts replies n a ∧
    result = .ok (some a)) ∨
  ∃ e, polls = allowed ∧ (∀ n < allowed, accepts (replies n) = none) ∧ expires e ∧
    result = .error e

/-- The end of a program that may poll a recording `allowed` times. -/
structure PollsOut (q : Q) (accepts : R → Option α) (replies : ℕ → R) (allowed : ℕ)
    (expires : E → Prop) (p : Prog Q R V E (Option α)) (polls : ℕ) : Prop where
  bounded : polls ≤ allowed
  polled : trace (replaying replies) p 0 = exchanges q replies 0 polls
  ended : (∃ a, (run (replaying replies) p 0).1 = .ok (some a)) ∨
    ∃ e, (run (replaying replies) p 0).1 = .error e ∧ expires e
  returned : ∀ a, (run (replaying replies) p 0).1 = .ok (some a) ↔
    ∃ n, polls = n + 1 ∧ FirstAccepted accepts replies n a
  raised : (∃ e, (run (replaying replies) p 0).1 = .error e ∧ expires e) ↔
    ∀ n < allowed, accepts (replies n) = none
  patient : ∀ e, (run (replaying replies) p 0).1 = .error e → polls = allowed

/-- The body of a poll loop; `At n` holds of the loop states in front of the `n`-th poll. -/
structure PollBody (q : Q) (accepts : R → Option α) (replies : ℕ → R) (allowed : ℕ)
    (expires : E → Prop) (body : τ → Prog Q R V E (τ ⊕ α)) (At : ℕ → τ → Prop) : Prop where
  polls : ∀ n t, At n t → n < allowed →
    trace (replaying replies) (body t) n = [(q, replies n)]
  hit : ∀ n t a, At n t → n < allowed → accepts (replies n) = some a →
    run (replaying replies) (body t) n = (.ok (.inr a), n + 1)
  miss : ∀ n t, At n t → n < allowed → accepts (replies n) = none →
    (∃ t', At (n + 1) t' ∧ run (replaying replies) (body t) n = (.ok (.inl t'), n + 1)) ∨
    n + 1 = allowed ∧ ∃ e, expires e ∧ run (replaying replies) (body t) n = (.error e, n + 1)
  closed : ∀ t, At allowed t → trace (replaying replies) (body t) allowed = [] ∧
    ∃ e, expires e ∧ run (replaying replies) (body t) allowed = (.error e, allowed)

variable {q : Q} {accepts : R → Option α} {replies : ℕ → R} {allowed : ℕ} {expires : E → Prop}
  {body : τ → Prog Q R V E (τ ⊕ α)} {At : ℕ → τ → Prop} {p : Prog Q R V E (Option α)}

/-- With a round for each poll that is left and one more, a poll loop settles. -/
theorem PollBody.loop_settles (h : PollBody q accepts replies allowed expires body At)
    {rounds n : ℕ} {t : τ} (hat : At n t) (hn : n ≤ allowed) (hrounds : allowed - n < rounds)
    (hbefore : ∀ j < n, accepts (replies j) = none) :
    ∃ count result, n + count ≤ allowed ∧
      trace (replaying replies) (loop body rounds t) n = exchanges q replies n count ∧
      run (replaying replies) (loop body rounds t) n = (result, n + count) ∧
      Settles accepts replies allowed expires result (n + count) := by
  induction rounds generalizing n t with
  | zero => omega
  | succ rounds ih =>
    rcases Nat.eq_or_lt_of_le hn with rfl | hlt
    · obtain ⟨htrace, e, he, hrun⟩ := h.closed t hat
      refine ⟨0, .error e, Nat.le_refl _, ?_, run_loop_of_fails hrun rounds, ?_⟩
      · rw [trace_loop_of_fails hrun, htrace, exchanges_zero]
      · exact Or.inr ⟨e, rfl, hbefore, he, rfl⟩
    · have htrace := h.polls n t hat hlt
      cases haccepts : accepts (replies n) with
      | some a =>
        have hrun := h.hit n t a hat hlt haccepts
        refine ⟨1, .ok (some a), hlt, ?_, run_loop_of_ends hrun rounds, ?_⟩
        · rw [loop, trace_bind_of_ok hrun, htrace]
          rfl
        · exact Or.inl ⟨n, a, rfl, hlt, ⟨haccepts, hbefore⟩, rfl⟩
      | none =>
        have hbefore' : ∀ j < n + 1, accepts (replies j) = none := by
          intro j hj
          rcases Nat.lt_succ_iff_lt_or_eq.mp hj with hj | rfl
          · exact hbefore j hj
          · exact haccepts
        rcases h.miss n t hat hlt haccepts with ⟨t', hat', hrun⟩ | ⟨rfl, e, he, hrun⟩
        · obtain ⟨count, result, hcount, htrace', hrun', hsettles⟩ :=
            ih hat' hlt (by omega) hbefore'
          have hshift : n + (count + 1) = n + 1 + count := by omega
          refine ⟨count + 1, result, hshift ▸ hcount, ?_, ?_, hshift ▸ hsettles⟩
          · rw [loop, trace_bind_of_ok hrun, htrace, exchanges_succ, ← htrace']
            rfl
          · rw [loop, run_bind_of_ok hrun, hshift]
            exact hrun'
        · refine ⟨1, .error e, Nat.le_refl _, ?_, run_loop_of_fails hrun rounds, ?_⟩
          · rw [trace_loop_of_fails hrun, htrace]
            rfl
          · exact Or.inr ⟨e, rfl, hbefore', he, rfl⟩

theorem pollsOut_of_settles {result : Except E (Option α)} {polls : ℕ} (hbounded : polls ≤ allowed)
    (hpolled : trace (replaying replies) p 0 = exchanges q replies 0 polls)
    (hrun : (run (replaying replies) p 0).1 = result)
    (hsettles : Settles accepts replies allowed expires result polls) :
    PollsOut q accepts replies allowed expires p polls := by
  rcases hsettles with ⟨n, a, rfl, hn, hfirst, rfl⟩ | ⟨e, rfl, hnone, he, rfl⟩
  · refine ⟨hbounded, hpolled, Or.inl ⟨a, hrun⟩, fun a' => ?_, ?_, fun e he => ?_⟩
    · rw [hrun]
      constructor
      · intro heq
        cases heq
        exact ⟨n, rfl, hfirst⟩
      · rintro ⟨m, hm, hfirst'⟩
        obtain rfl : n = m := by omega
        have haa : some a = some a' := hfirst.1.symm.trans hfirst'.1
        rw [haa]
    · rw [hrun]
      constructor
      · rintro ⟨e, he, -⟩
        cases he
      · intro hnone
        cases (hnone n hn).symm.trans hfirst.1
    · cases hrun.symm.trans he
  · refine ⟨hbounded, hpolled, Or.inr ⟨e, hrun, he⟩, fun a => ?_, ?_, fun _ _ => rfl⟩
    · rw [hrun]
      constructor
      · intro heq
        cases heq
      · rintro ⟨n, rfl, hfirst⟩
        cases (hnone n (Nat.lt_succ_self n)).symm.trans hfirst.1
    · exact ⟨fun _ => hnone, fun _ => ⟨e, hrun, he⟩⟩

/-- A poll loop ends as its program is allowed to. -/
theorem PollBody.pollsOut (h : PollBody q accepts replies allowed expires body At) {rounds : ℕ}
    {t : τ} (hat : At 0 t) (hrounds : allowed < rounds) :
    ∃ polls, PollsOut q accepts replies allowed expires (loop body rounds t) polls := by
  obtain ⟨count, result, hcount, htrace, hrun, hsettles⟩ :=
    h.loop_settles hat (Nat.zero_le _) (by omega) (fun j hj => absurd hj (Nat.not_lt_zero j))
  rw [Nat.zero_add] at hcount hrun hsettles
  exact ⟨count, pollsOut_of_settles hcount htrace (by rw [hrun]) hsettles⟩

/-- A poll loop that may ask at all does ask. -/
theorem PollsOut.pos {polls : ℕ} (h : PollsOut q accepts replies allowed expires p polls)
    (hallowed : 0 < allowed) : 0 < polls := by
  rcases h.ended with ⟨a, ha⟩ | ⟨e, he, -⟩
  · obtain ⟨n, rfl, -⟩ := (h.returned a).mp ha
    exact Nat.succ_pos n
  · rw [h.patient e he]
    exact hallowed

end Prog
end Interaction
