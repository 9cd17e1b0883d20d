import Opnsense.Interaction.Interleave

namespace Interaction

variable {ι Q Q' R R' V E E' F α β σ τ : Type}

namespace Prog

/-- Go on with what `p` comes to, a value or an error. -/
def settle : Prog Q R V F β → (Except F β → Prog Q R V E α) → Prog Q R V E α
  | ret b, f => f (.ok b)
  | raise e, f => f (.error e)
  | emit v p, f => emit v (settle p f)
  | call q k, f => call q fun r => settle (k r) f

/-- Have each question answered by the program that stands for it. -/
def implement (impl : Q → Prog Q' R' V F β) :
    Prog Q (Except F β) V E α → Prog Q' R' V E α
  | ret a => ret a
  | raise e => raise e
  | emit v p => emit v (implement impl p)
  | call q k => settle (impl q) fun r => implement impl (k r)

theorem run_settle {srv : Server Q R σ} (p : Prog Q R V F β)
    (f : Except F β → Prog Q R V E α) (s : σ) :
    run srv (settle p f) s = run srv (f (run srv p s).1) (run srv p s).2 := by
  induction p generalizing s with
  | ret b => rfl
  | raise e => rfl
  | emit v p ih => exact ih s
  | call q k ih => exact ih (srv q s).1 (srv q s).2

/-- To the upper program the lower ones, run to their end, are a server. -/
theorem run_implement {srv : Server Q' R' σ} (impl : Q → Prog Q' R' V F β)
    (p : Prog Q (Except F β) V E α) (s : σ) :
    run srv (implement impl p) s = run (fun q s => run srv (impl q) s) p s := by
  induction p generalizing s with
  | ret a => rfl
  | raise e => rfl
  | emit v p ih => exact ih s
  | call q k ih =>
    rw [implement, run_settle]
    exact ih _ _

/-- What a program has come to, once nothing is left to ask. -/
def outcome (p : Prog Q R V E α) : Option (Except E α) := p.next.getLeft?

section Outcome

variable {p : Prog Q R V F β} {e : F} {b : β}

theorem outcome_bind_of_ok (h : p.outcome = some (.ok b)) (f : β → Prog Q R V F α) :
    (p >>= f).outcome = (f b).outcome := by
  induction p with
  | ret b =>
    cases h
    rfl
  | raise e => cases h
  | emit v p ih => exact ih h
  | call q k => cases h

theorem outcome_bind_of_error (h : p.outcome = some (.error e)) (f : β → Prog Q R V F α) :
    (p >>= f).outcome = some (.error e) := by
  induction p with
  | ret b => cases h
  | raise e =>
    cases h
    rfl
  | emit v p ih => exact ih h
  | call q k => cases h

theorem outcome_rescue_of_ok (h : p.outcome = some (.ok b)) (handler : F → Prog Q R V E β) :
    (rescue p handler).outcome = some (.ok b) := by
  induction p with
  | ret b =>
    cases h
    rfl
  | raise e => cases h
  | emit v p ih => exact ih h
  | call q k => cases h

theorem outcome_rescue_of_error (h : p.outcome = some (.error e))
    (handler : F → Prog Q R V E β) : (rescue p handler).outcome = (handler e).outcome := by
  induction p with
  | ret b => cases h
  | raise e =>
    cases h
    rfl
  | emit v p ih => exact ih h
  | call q k => cases h

/-- What was settled goes on from its outcome. -/
theorem next_settle_of_outcome {o : Except F β} (h : p.outcome = some o)
    (f : Except F β → Prog Q R V E α) : (p.settle f).next = (f o).next := by
  induction p with
  | ret b =>
    cases h
    rfl
  | raise e =>
    cases h
    rfl
  | emit v p ih => exact ih h
  | call q k => cases h

end Outcome

end Prog

namespace Pool

variable [DecidableEq ι] {srv : Server Q R σ} {srv' : Server Q' R' τ}

/-- Two clients in step: both are over and came to the same, or both have a question, and the
answers leave them in step. -/
def InStep (srv : Server Q R σ) (srv' : Server Q' R' τ)
    (rel : Prog Q R V E α → Prog Q' R' V E' α → Prop) (states : σ → τ → Prop)
    (same : Except E α → Except E' α → Prop) (p : Prog Q R V E α) (p' : Prog Q' R' V E' α)
    (s : σ) (t : τ) : Prop :=
  match p.next, p'.next with
  | .inl o, .inl o' => same o o'
  | .inr (q, k), .inr (q', k') =>
    rel (k (srv q s).1) (k' (srv' q' t).1) ∧ states (srv q s).2 (srv' q' t).2
  | _, _ => False

variable {rel : Prog Q R V E α → Prog Q' R' V E' α → Prop} {states : σ → τ → Prop}
  {same : Except E α → Except E' α → Prop}

theorem turn_in_step
    (hstep : ∀ p p' s t, rel p p' → states s t → InStep srv srv' rel states same p p' s t)
    {c : Pool ι Q R V E α σ} {d : Pool ι Q' R' V E' α τ}
    (hprogs : ∀ i, rel (c.progs i) (d.progs i)) (hstates : states c.state d.state) (i : ι) :
    (∀ j, rel ((turn srv c i).progs j) ((turn srv' d i).progs j)) ∧
      states (turn srv c i).state (turn srv' d i).state := by
  have hturn := hstep _ _ _ _ (hprogs i) hstates
  unfold InStep at hturn
  unfold turn
  rcases hnext : (c.progs i).next with o | ⟨q, k⟩ <;>
    rcases hnext' : (d.progs i).next with o' | ⟨q', k'⟩ <;> rw [hnext, hnext'] at hturn
  · exact ⟨hprogs, hstates⟩
  · exact hturn.elim
  · exact hturn.elim
  · refine ⟨fun j => ?_, hturn.2⟩
    by_cases hj : j = i
    · rw [hj, answer_progs_self, answer_progs_self]
      exact hturn.1
    · rw [answer_progs_of_ne hj, answer_progs_of_ne hj]
      exact hprogs j

/-- Clients that stay in step, turn by turn, stay so in every order of turns. -/
theorem schedule_in_step
    (hstep : ∀ p p' s t, rel p p' → states s t → InStep srv srv' rel states same p p' s t)
    (turns : List ι) {c : Pool ι Q R V E α σ} {d : Pool ι Q' R' V E' α τ}
    (hprogs : ∀ i, rel (c.progs i) (d.progs i)) (hstates : states c.state d.state) :
    (∀ i, rel ((schedule srv turns c).progs i) ((schedule srv' turns d).progs i)) ∧
      states (schedule srv turns c).state (schedule srv' turns d).state := by
  induction turns generalizing c d with
  | nil => exact ⟨hprogs, hstates⟩
  | cons i turns ih =>
    obtain ⟨hprogs', hstates'⟩ := turn_in_step hstep hprogs hstates i
    exact ih hprogs' hstates'

/-- Clients in step are over together, and came to the same. -/
theorem InStep.outcome {p : Prog Q R V E α} {p' : Prog Q' R' V E' α} {s : σ} {t : τ}
    {f : E' → E}
    (h : InStep srv srv' rel states (fun o o' => o = o'.mapError f) p p' s t) :
    p.outcome = p'.outcome.map (Except.mapError f) := by
  unfold InStep at h
  unfold Prog.outcome
  rcases hnext : p.next with o | qk <;> rcases hnext' : p'.next with o' | qk' <;>
    rw [hnext, hnext'] at h
  · exact congrArg some h
  · exact h.elim
  · exact h.elim
  · rfl

end Pool
end Interaction
