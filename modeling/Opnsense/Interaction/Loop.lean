import Opnsense.Interaction.Invariant

namespace Interaction
namespace Prog

variable {Q R V E α σ τ : Type}

/-- `while True: body`, for at most so many rounds; `none` is a loop that goes on behind them. -/
def loop (body : τ → Prog Q R V E (τ ⊕ α)) : ℕ → τ → Prog Q R V E (Option α)
  | 0, _ => ret none
  | rounds + 1, t => do
    let step ← body t
    match step with
    | .inl t => loop body rounds t
    | .inr a => return some a

variable {srv : Server Q R σ} {body : τ → Prog Q R V E (τ ⊕ α)} {t t' : τ} {s s' s'' : σ}
  {n k : ℕ} {e : E}

/-- `k` rounds that each go on lead from one loop state to another. -/
def Rounds (srv : Server Q R σ) (body : τ → Prog Q R V E (τ ⊕ α)) : ℕ → τ → σ → τ → σ → Prop
  | 0, t, s, t', s' => t' = t ∧ s' = s
  | k + 1, t, s, t', s' =>
    ∃ t₁ s₁, run srv (body t) s = (.ok (.inl t₁), s₁) ∧ Rounds srv body k t₁ s₁ t' s'

theorem run_loop_of_ends {a : α} (h : run srv (body t) s = (.ok (.inr a), s')) (n : ℕ) :
    run srv (loop body (n + 1) t) s = (.ok (some a), s') := by
  rw [loop, run_bind_of_ok h]
  rfl

theorem run_loop_of_fails (h : run srv (body t) s = (.error e, s')) (n : ℕ) :
    run srv (loop body (n + 1) t) s = (.error e, s') := by
  rw [loop, run_bind_of_error h]

theorem trace_loop_of_fails (h : run srv (body t) s = (.error e, s')) (n : ℕ) :
    trace srv (loop body (n + 1) t) s = trace srv (body t) s := by
  rw [loop, trace_bind_of_error h]

/-- The rounds that went on are behind the loop: what is left is the loop from there. -/
theorem loop_of_rounds (h : Rounds srv body k t s t' s') : ∃ before, ∀ n,
    run srv (loop body (k + n) t) s = run srv (loop body n t') s' ∧
      trace srv (loop body (k + n) t) s = before ++ trace srv (loop body n t') s' := by
  induction k generalizing t s with
  | zero =>
    obtain ⟨rfl, rfl⟩ := h
    refine ⟨[], fun n => ?_⟩
    simp
  | succ k ih =>
    obtain ⟨t₁, s₁, hround, hrest⟩ := h
    obtain ⟨before, hloop⟩ := ih hrest
    refine ⟨trace srv (body t) s ++ before, fun n => ?_⟩
    obtain ⟨hrun, htrace⟩ := hloop n
    rw [show k + 1 + n = (k + n) + 1 by omega, loop, run_bind_of_ok hround,
      trace_bind_of_ok hround, List.append_assoc]
    exact ⟨hrun, congrArg _ htrace⟩

/-- A loop fails in the first round that does, behind rounds that went on. -/
theorem loop_eq_error (h : run srv (loop body n t) s = (.error e, s'')) :
    ∃ k t' s' before, Rounds srv body k t s t' s' ∧ run srv (body t') s' = (.error e, s'') ∧
      trace srv (loop body n t) s = before ++ trace srv (body t') s' := by
  induction n generalizing t s with
  | zero => simp [loop] at h
  | succ n ih =>
    rcases hround : run srv (body t) s with ⟨e' | t₁ | a, s₁⟩
    · rw [run_loop_of_fails hround] at h
      obtain ⟨rfl, rfl⟩ : e' = e ∧ s₁ = s'' := by simpa using h
      exact ⟨0, t, s, [], ⟨rfl, rfl⟩, hround, by rw [trace_loop_of_fails hround]; rfl⟩
    · rw [loop, run_bind_of_ok hround] at h
      obtain ⟨k, t', s', before, hrounds, hfails, htrace⟩ := ih h
      refine ⟨k + 1, t', s', trace srv (body t) s ++ before, ⟨t₁, s₁, hround, hrounds⟩, hfails, ?_⟩
      rw [loop, trace_bind_of_ok hround, List.append_assoc]
      exact congrArg _ htrace
    · rw [run_loop_of_ends hround] at h
      cases h

theorem asks_loop {allowed : Q → Prop} (h : ∀ t, (body t).Asks allowed) (n : ℕ) (t : τ) :
    (loop body n t).Asks allowed := by
  induction n generalizing t with
  | zero => trivial
  | succ n ih =>
    apply asks_bind (h t)
    intro step
    cases step with
    | inl t' => exact ih t'
    | inr a => trivial

section Stops

variable {β : Type} {accept : Q × R → α → Prop}

/-- The first exchange that gives a result is the last one, and what it gives is returned. -/
def StopsAt (accept : Q × R → α → Prop) (result : β → Option α) (srv : Server Q R σ)
    (p : Prog Q R V E β) (s : σ) : Prop :=
  (∃ b a s' before qr, run srv p s = (.ok b, s') ∧ result b = some a ∧
    trace srv p s = before ++ [qr] ∧ accept qr a ∧ ∀ qr' ∈ before, ∀ a', ¬ accept qr' a') ∨
  (∀ b s', run srv p s = (.ok b, s') → result b = none) ∧
    ∀ qr ∈ trace srv p s, ∀ a, ¬ accept qr a

theorem stopsAt_of_silent {result : β → Option α} {p : Prog Q R V E β} (htrace : trace srv p s = [])
    (hnone : ∀ b s', run srv p s = (.ok b, s') → result b = none) :
    StopsAt accept result srv p s := by
  refine Or.inr ⟨hnone, ?_⟩
  rw [htrace]
  exact fun qr hqr => nomatch hqr

/-- A program that stopped hands its result on, and one that did not is followed by the next. -/
theorem StopsAt.bind {γ : Type} {result : β → Option α} {result' : γ → Option α}
    {p : Prog Q R V E β} {f : β → Prog Q R V E γ} (hp : StopsAt accept result srv p s)
    (hdone : ∀ b a s, result b = some a → ∃ c, run srv (f b) s = (.ok c, s) ∧ result' c = some a ∧
      trace srv (f b) s = [])
    (hnext : ∀ b s, result b = none → StopsAt accept result' srv (f b) s) :
    StopsAt accept result' srv (p >>= f) s := by
  rcases hp with ⟨b, a, s₁, before, qr, hrun, hb, htrace, haccept, hbefore⟩ | ⟨hnone, htrace⟩
  · obtain ⟨c, hc, hresult, hsilent⟩ := hdone b a s₁ hb
    refine Or.inl ⟨c, a, s₁, before, qr, ?_, hresult, ?_, haccept, hbefore⟩
    · rw [run_bind_of_ok hrun, hc]
    · rw [trace_bind_of_ok hrun, htrace, hsilent, List.append_nil]
  · rcases hrun : run srv p s with ⟨e | b, s₁⟩
    · refine Or.inr ⟨?_, ?_⟩
      · intro c s' hc
        rw [run_bind_of_error hrun] at hc
        cases hc
      · rw [trace_bind_of_error hrun]
        exact htrace
    · rw [StopsAt, run_bind_of_ok hrun, trace_bind_of_ok hrun]
      rcases hnext b s₁ (hnone b s₁ hrun) with
        ⟨c, a, s', before, qr, hc, hresult, hlast, haccept, hbefore⟩ | ⟨hnone', hrest⟩
      · refine Or.inl ⟨c, a, s', trace srv p s ++ before, qr, hc, hresult, ?_, haccept, ?_⟩
        · rw [hlast, List.append_assoc]
        · intro qr' hqr'
          rcases List.mem_append.mp hqr' with h | h
          · exact htrace qr' h
          · exact hbefore qr' h
      · refine Or.inr ⟨hnone', ?_⟩
        intro qr' hqr'
        rcases List.mem_append.mp hqr' with h | h
        · exact htrace qr' h
        · exact hrest qr' h

/-- A loop stops at the exchange its body stops at. -/
theorem stopsAt_loop
    (hbody : ∀ t s, StopsAt accept Sum.getRight? srv (body t) s) (n : ℕ) (t : τ) (s : σ) :
    StopsAt accept id srv (loop body n t) s := by
  induction n generalizing t s with
  | zero =>
    apply stopsAt_of_silent rfl
    intro b s' hrun
    cases hrun
    rfl
  | succ n ih =>
    apply StopsAt.bind (hbody t s)
    · intro b a s hb
      cases b with
      | inl t' => cases hb
      | inr a' =>
        cases hb
        exact ⟨some a, rfl, rfl, rfl⟩
    · intro b s hb
      cases b with
      | inl t' => exact ih t' s
      | inr a => cases hb

/-- An accepted exchange on the trace is the one the program stops at. -/
theorem StopsAt.returned {result : β → Option α} {p : Prog Q R V E β}
    (h : StopsAt accept result srv p s) {qr : Q × R} {a : α} (hqr : qr ∈ trace srv p s)
    (haccept : accept qr a) : ∃ b a' s' before, run srv p s = (.ok b, s') ∧ result b = some a' ∧
      trace srv p s = before ++ [qr] ∧ accept qr a' := by
  rcases h with ⟨b, a', s', before, last, hrun, hb, htrace, hlast, hbefore⟩ | ⟨-, hnone⟩
  · rw [htrace] at hqr
    rcases List.mem_append.mp hqr with hearlier | hlast'
    · exact absurd haccept (hbefore qr hearlier a)
    · obtain rfl := List.mem_singleton.mp hlast'
      exact ⟨b, a', s', before, hrun, hb, htrace, hlast⟩
  · exact absurd haccept (hnone qr hqr a)

/-- Two loops whose bodies come to the same on two servers come to the same. -/
theorem run_loop_congr {Q' R' V' : Type} {srv' : Server Q' R' σ}
    {body' : τ → Prog Q' R' V' E (τ ⊕ α)} (h : ∀ t s, run srv (body t) s = run srv' (body' t) s)
    (n : ℕ) (t : τ) (s : σ) : run srv (loop body n t) s = run srv' (loop body' n t) s := by
  induction n generalizing t s with
  | zero => rfl
  | succ n ih =>
    rw [loop, loop, run_bind, run_bind, h]
    rcases run srv' (body' t) s with ⟨e | t₁ | a, s₁⟩
    · rfl
    · exact ih t₁ s₁
    · rfl

end Stops

end Prog
end Interaction
