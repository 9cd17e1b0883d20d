import Mathlib.Logic.Function.Basic
import Opnsense.Interaction.Invariant

namespace Interaction

variable {ι Q R V E F α β σ : Type}

namespace Prog

/-- What a program comes to before its next question, or that question and what follows. -/
def next : Prog Q R V E α → Except E α ⊕ Q × (R → Prog Q R V E α)
  | ret a => .inl (.ok a)
  | raise e => .inl (.error e)
  | emit _ p => next p
  | call q k => .inr (q, k)

@[simp] theorem next_ret (a : α) : next (ret a : Prog Q R V E α) = .inl (.ok a) := rfl
@[simp] theorem next_raise (e : E) : next (raise e : Prog Q R V E α) = .inl (.error e) := rfl
@[simp] theorem next_emit (v : V) (p : Prog Q R V E α) : next (emit v p) = next p := rfl
@[simp] theorem next_call (q : Q) (k : R → Prog Q R V E α) : next (call q k) = .inr (q, k) := rfl

theorem next_bind_of_ok {p : Prog Q R V E α} {a : α} (h : next p = .inl (.ok a))
    (f : α → Prog Q R V E β) : next (p >>= f) = next (f a) := by
  induction p with
  | ret b =>
    cases h
    rfl
  | raise e => cases h
  | emit v p ih => exact ih h
  | call q k => cases h

theorem next_bind_of_call {p : Prog Q R V E α} {q : Q} {k : R → Prog Q R V E α}
    (h : next p = .inr (q, k)) (f : α → Prog Q R V E β) :
    next (p >>= f) = .inr (q, fun r => k r >>= f) := by
  induction p with
  | ret b => cases h
  | raise e => cases h
  | emit v p ih => exact ih h
  | call q' k' =>
    cases h
    rfl

theorem next_rescue_of_call {p : Prog Q R V F α} {q : Q} {k : R → Prog Q R V F α}
    (h : next p = .inr (q, k)) (handler : F → Prog Q R V E α) :
    next (rescue p handler) = .inr (q, fun r => rescue (k r) handler) := by
  induction p with
  | ret b => cases h
  | raise e => cases h
  | emit v p ih => exact ih h
  | call q' k' =>
    cases h
    rfl

/-- What a program can ask includes its next question and those behind it. -/
theorem Asks.of_next {allowed : Q → Prop} {p : Prog Q R V E α} (hp : Asks allowed p) {q : Q}
    {k : R → Prog Q R V E α} (h : next p = .inr (q, k)) :
    allowed q ∧ ∀ r, Asks allowed (k r) := by
  induction p with
  | ret b => cases h
  | raise e => cases h
  | emit v p ih => exact ih hp h
  | call q' k' =>
    cases h
    exact hp

end Prog

/-- The programs of the clients, the state of the server, and what was asked so far. -/
structure Pool (ι Q R V E α σ : Type) where
  progs : ι → Prog Q R V E α
  state : σ
  history : List (ι × Q) := []

namespace Pool

variable [DecidableEq ι] {srv : Server Q R σ}

/-- The question `q` of client `i` is answered, which goes on with `k`. -/
def answer (srv : Server Q R σ) (c : Pool ι Q R V E α σ) (i : ι) (q : Q)
    (k : R → Prog Q R V E α) : Pool ι Q R V E α σ where
  progs := Function.update c.progs i (k (srv q c.state).1)
  state := (srv q c.state).2
  history := c.history ++ [(i, q)]

/-- The turn of client `i`; one that has finished does nothing. -/
def turn (srv : Server Q R σ) (c : Pool ι Q R V E α σ) (i : ι) : Pool ι Q R V E α σ :=
  match (c.progs i).next with
  | .inl _ => c
  | .inr (q, k) => c.answer srv i q k

/-- The turns of a schedule, one after the other. -/
def schedule (srv : Server Q R σ) (turns : List ι) (c : Pool ι Q R V E α σ) :
    Pool ι Q R V E α σ :=
  turns.foldl (turn srv) c

/-- Client `i` has nothing left to ask. -/
def Finished (c : Pool ι Q R V E α σ) : Prop := ∀ i, ∃ o, (c.progs i).next = .inl o

/-- What every answer preserves holds after any schedule. -/
theorem schedule_invariant (J : Pool ι Q R V E α σ → Prop)
    (hstep : ∀ c i q k, J c → (c.progs i).next = .inr (q, k) → J (c.answer srv i q k))
    (turns : List ι) {c : Pool ι Q R V E α σ} (hc : J c) : J (schedule srv turns c) := by
  induction turns generalizing c with
  | nil => exact hc
  | cons i turns ih =>
    refine ih ?_
    unfold turn
    rcases hnext : (c.progs i).next with o | ⟨q, k⟩
    · exact hc
    · exact hstep c i q k hc hnext

theorem answer_progs_self (c : Pool ι Q R V E α σ) (i : ι) (q : Q) (k : R → Prog Q R V E α) :
    (c.answer srv i q k).progs i = k (srv q c.state).1 := Function.update_self ..

theorem answer_progs_of_ne {i j : ι} (h : j ≠ i) (c : Pool ι Q R V E α σ) (q : Q)
    (k : R → Prog Q R V E α) : (c.answer srv i q k).progs j = c.progs j :=
  Function.update_of_ne h ..

theorem mem_history_answer {c : Pool ι Q R V E α σ} {i j : ι} {q q' : Q}
    {k : R → Prog Q R V E α} :
    (j, q') ∈ (c.answer srv i q k).history ↔ (j, q') ∈ c.history ∨ j = i ∧ q' = q := by
  simp [answer]

theorem mem_history_answer_of_ne {c : Pool ι Q R V E α σ} {i j : ι} (h : j ≠ i) {q q' : Q}
    {k : R → Prog Q R V E α} :
    (j, q') ∈ (c.answer srv i q k).history ↔ (j, q') ∈ c.history := by
  rw [mem_history_answer]
  exact or_iff_left fun hnow => h hnow.1

end Pool

/-- One of two clients. -/
inductive Client where
  | first | second
  deriving DecidableEq, Repr

namespace Client

def other : Client → Client
  | first => second
  | second => first

@[simp] theorem other_other (i : Client) : i.other.other = i := by cases i <;> rfl
@[simp] theorem other_ne (i : Client) : i.other ≠ i := by cases i <;> decide
theorem eq_other_of_ne {i j : Client} (h : j ≠ i) : j = i.other := by
  cases i <;> cases j <;> first | rfl | exact absurd rfl h

/-- Client `i` asked one of the `later` questions after its peer had asked one of the `earlier`. -/
def After (i : Client) (earlier later : Q → Prop) (history : List (Client × Q)) : Prop :=
  ∃ before behind, history = before ++ behind ∧ (∃ q, (i.other, q) ∈ before ∧ earlier q) ∧
    ∃ q, (i, q) ∈ behind ∧ later q

theorem after_concat {i j : Client} {earlier later : Q → Prop} {history : List (Client × Q)}
    {q : Q} : After i earlier later (history ++ [(j, q)]) ↔ After i earlier later history ∨
      j = i ∧ later q ∧ ∃ q', (i.other, q') ∈ history ∧ earlier q' := by
  constructor
  · rintro ⟨before, behind, hsplit, ⟨q', hmem', hearlier⟩, q'', hmem, hlater⟩
    rcases List.eq_nil_or_concat behind with rfl | ⟨behind, e, rfl⟩
    · cases hmem
    · rw [List.concat_eq_append] at hsplit hmem
      rw [← List.append_assoc] at hsplit
      obtain ⟨hhistory, hlast⟩ := List.append_inj' hsplit rfl
      obtain rfl : (j, q) = e := List.singleton_inj.mp hlast
      rcases List.mem_append.mp hmem with hmem | hmem
      · exact Or.inl ⟨before, behind, hhistory, ⟨q', hmem', hearlier⟩, q'', hmem, hlater⟩
      · obtain ⟨rfl, rfl⟩ := Prod.mk.inj (List.mem_singleton.mp hmem)
        refine Or.inr ⟨rfl, hlater, q', ?_, hearlier⟩
        rw [hhistory]
        exact List.mem_append_left _ hmem'
  · rintro (⟨before, behind, rfl, hearlier, q', hmem, hlater⟩ | ⟨rfl, hlater, hearlier⟩)
    · exact ⟨before, behind ++ [(j, q)], List.append_assoc .., hearlier, q',
        List.mem_append_left _ hmem, hlater⟩
    · exact ⟨history, [(j, q)], rfl, hearlier, q, List.mem_singleton_self _, hlater⟩

/-- A client that has asked nothing so far has not asked later than its peer. -/
theorem not_after_of_fresh {i : Client} {earlier later : Q → Prop} {history : List (Client × Q)}
    (h : ∀ q, (i, q) ∉ history) : ¬ After i earlier later history := by
  rintro ⟨before, behind, hsplit, -, q, hq, -⟩
  have hmem : (i, q) ∈ history := by
    rw [hsplit]
    exact List.mem_append_right _ hq
  exact h q hmem

/-- What the peer asks does not make it so. -/
theorem after_concat_of_ne {i j : Client} (h : j ≠ i) {earlier later : Q → Prop}
    {history : List (Client × Q)} {q : Q} :
    After i earlier later (history ++ [(j, q)]) ↔ After i earlier later history := by
  rw [after_concat]
  exact or_iff_left fun hnow => h hnow.1

end Client
end Interaction
