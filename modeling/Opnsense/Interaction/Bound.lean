import Opnsense.Interaction.Interleave

namespace Interaction

variable {ι Q R V E F α β σ : Type}

namespace Prog

/-- On no path more than `n` questions. -/
def AsksAtMost : Prog Q R V E α → ℕ → Prop
  | ret _, _ => True
  | raise _, _ => True
  | emit _ p, n => AsksAtMost p n
  | call _ _, 0 => False
  | call _ k, n + 1 => ∀ r, AsksAtMost (k r) n

theorem asksAtMost_ofExcept (x : Except E α) (n : ℕ) :
    AsksAtMost (ofExcept x : Prog Q R V E α) n := by
  cases x <;> trivial

theorem asksAtMost_mono {p : Prog Q R V E α} {m n : ℕ} (h : AsksAtMost p m) (hle : m ≤ n) :
    AsksAtMost p n := by
  induction p generalizing m n with
  | ret a => trivial
  | raise e => trivial
  | emit v p ih => exact ih h hle
  | call q k ih =>
    cases m with
    | zero => exact h.elim
    | succ m =>
      cases n with
      | zero => omega
      | succ n => exact fun r => ih r (h r) (by omega)

theorem asksAtMost_bind {p : Prog Q R V E β} {f : β → Prog Q R V E α} {m n : ℕ}
    (hp : AsksAtMost p m) (hf : ∀ b, AsksAtMost (f b) n) : AsksAtMost (p >>= f) (m + n) := by
  induction p generalizing m with
  | ret b => exact asksAtMost_mono (hf b) (by omega)
  | raise e => trivial
  | emit v p ih => exact ih hp
  | call q k ih =>
    cases m with
    | zero => exact hp.elim
    | succ m =>
      rw [show m + 1 + n = m + n + 1 by omega]
      exact fun r => ih r (hp r)

/-- What asks nothing is added at the front or at the end for nothing. -/
theorem asksAtMost_ofExcept_bind {x : Except E β} {f : β → Prog Q R V E α} {n : ℕ}
    (hf : ∀ b, AsksAtMost (f b) n) : AsksAtMost (ofExcept x >>= f) n := by
  cases x with
  | error e => trivial
  | ok b => exact hf b

theorem asksAtMost_bind_quiet {p : Prog Q R V E β} {f : β → Prog Q R V E α} {n : ℕ}
    (hp : AsksAtMost p n) (hf : ∀ b, AsksAtMost (f b) 0) : AsksAtMost (p >>= f) n :=
  asksAtMost_bind hp hf

/-- A handler that asks nothing adds nothing. -/
theorem asksAtMost_rescue {p : Prog Q R V F α} {handler : F → Prog Q R V E α} {n : ℕ}
    (hp : AsksAtMost p n) (hh : ∀ e m, AsksAtMost (handler e) m) :
    AsksAtMost (rescue p handler) n := by
  induction p generalizing n with
  | ret a => trivial
  | raise e => exact hh e n
  | emit v p ih => exact ih hp
  | call q k ih =>
    cases n with
    | zero => exact hp.elim
    | succ n => exact fun r => ih r (hp r)

/-- A question that is asked is one question less to ask. -/
theorem AsksAtMost.of_next {p : Prog Q R V E α} {n : ℕ} (h : AsksAtMost p n) {q : Q}
    {k : R → Prog Q R V E α} (hnext : next p = .inr (q, k)) :
    ∃ m, n = m + 1 ∧ ∀ r, AsksAtMost (k r) m := by
  induction p with
  | ret a => cases hnext
  | raise e => cases hnext
  | emit v p ih => exact ih h hnext
  | call q' k' =>
    cases hnext
    cases n with
    | zero => exact h.elim
    | succ n => exact ⟨n, rfl, h⟩

/-- A program that is over asks nothing. -/
theorem asksAtMost_of_over {p : Prog Q R V E α} {o : Except E α} (hnext : next p = .inl o)
    (n : ℕ) : AsksAtMost p n := by
  induction p with
  | ret a => trivial
  | raise e => trivial
  | emit v p ih => exact ih hnext
  | call q k => cases hnext

end Prog

namespace Pool

variable [DecidableEq ι] {srv : Server Q R σ}

/-- Every turn of a client brings it one question nearer to its end. -/
theorem asksAtMost_schedule {i : ι} {n : ℕ} {turns : List ι} {c : Pool ι Q R V E α σ}
    (h : (c.progs i).AsksAtMost n) :
    ((schedule srv turns c).progs i).AsksAtMost (n - turns.count i) := by
  induction turns generalizing c n with
  | nil => simpa [schedule] using h
  | cons j turns ih =>
    change ((schedule srv turns (turn srv c j)).progs i).AsksAtMost _
    by_cases hji : j = i
    · subst hji
      rw [List.count_cons_self]
      unfold turn
      rcases hnext : (c.progs j).next with o | ⟨q, k⟩
      · exact Prog.asksAtMost_mono (ih (Prog.asksAtMost_of_over hnext 0)) (by omega)
      · obtain ⟨m, rfl, hk⟩ := h.of_next hnext
        have hturn : ((c.answer srv j q k).progs j).AsksAtMost m := by
          rw [answer_progs_self]
          exact hk _
        exact Prog.asksAtMost_mono (ih hturn) (by omega)
    · rw [List.count_cons_of_ne hji]
      apply ih
      unfold turn
      rcases hnext : (c.progs j).next with o | ⟨q, k⟩
      · exact h
      · rw [answer_progs_of_ne (Ne.symm hji)]
        exact h

/-- A client is over once it had as many turns as it has questions. -/
theorem over_of_turns {i : ι} {n : ℕ} {turns : List ι} {c : Pool ι Q R V E α σ}
    (h : (c.progs i).AsksAtMost n) (hturns : n ≤ turns.count i) :
    ∃ o, ((schedule srv turns c).progs i).next = .inl o := by
  have hend : ((schedule srv turns c).progs i).AsksAtMost 0 :=
    Prog.asksAtMost_mono (asksAtMost_schedule h) (by omega)
  rcases hnext : ((schedule srv turns c).progs i).next with o | ⟨q, k⟩
  · exact ⟨o, rfl⟩
  · obtain ⟨m, hm, -⟩ := hend.of_next hnext
    omega

end Pool
end Interaction
