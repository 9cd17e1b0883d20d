import Opnsense.Interaction.Faults
import Opnsense.Interaction.Layers

/-! Programs that do below, in several turns, what one question does above. Where all turns but
the last leave the state as it was, the question can be taken to be asked at the last one, and
every order of turns below is one above. -/
namespace Interaction

variable {ι Q Q' R' V E F G α β σ τ : Type}

namespace Prog

/-- Whatever the server below makes of a question, the state above is as it was and the program
goes on so, or the program is over and has done what the server above does with `q`. -/
def Lands (low : Server Q' R' τ) (inv : τ → Prop) (view : τ → σ) (failure : G → Except F β)
    (srv : Server Q (Except F β) σ) (q : Q) : Prog Q' R' V F β → Prop
  | ret _ => False
  | raise _ => False
  | emit _ p => Lands low inv view failure srv q p
  | call q' k => ∀ t, inv t →
      (view (low q' t).2 = view t ∧ Lands low inv view failure srv q (k (low q' t).1)) ∨
      ∃ o f, (k (low q' t).1).outcome = some o ∧
        ∀ fs, faulty failure srv q (view t, f :: fs) = (o, view (low q' t).2, fs)

variable {low : Server Q' R' τ} {inv : τ → Prop} {view : τ → σ} {failure : G → Except F β}
  {srv : Server Q (Except F β) σ} {q : Q}

/-- On its way through a question a program has one to ask itself. -/
theorem Lands.settle_next {p : Prog Q' R' V F β} (h : Lands low inv view failure srv q p)
    (f : Except F β → Prog Q' R' V E α) :
    ∃ q' k, (p.settle f).next = .inr (q', fun r => (k r).settle f) ∧
      Lands low inv view failure srv q (call q' k : Prog Q' R' V F β) := by
  induction p with
  | ret b => exact h.elim
  | raise e => exact h.elim
  | emit v p ih => exact ih h
  | call q' k => exact ⟨q', k, rfl, h⟩

/-- The program below is where the one above is, or on its way through its next question. -/
def Abreast (low : Server Q' R' τ) (inv : τ → Prop) (view : τ → σ) (failure : G → Except F β)
    (srv : Server Q (Except F β) σ) (impl : Q → Prog Q' R' V F β) (allowed : Q → Prop)
    (lower : Prog Q' R' V E α) (upper : Prog Q (Except F β) V E α) : Prop :=
  (∃ o, lower.next = .inl o ∧ upper.next = .inl o) ∨
    ∃ q k p, upper.next = .inr (q, k) ∧ (∀ r, (k r).Asks allowed) ∧
      lower.next = (p.settle fun o => (k o).implement impl).next ∧
      Lands low inv view failure srv q p

variable {impl : Q → Prog Q' R' V F β} {allowed : Q → Prop}

theorem Abreast.congr {lower lower' : Prog Q' R' V E α} {upper : Prog Q (Except F β) V E α}
    (h : Abreast low inv view failure srv impl allowed lower upper)
    (hnext : lower'.next = lower.next) :
    Abreast low inv view failure srv impl allowed lower' upper := by
  unfold Abreast
  rw [hnext]
  exact h

theorem Abreast.outcome_eq {lower : Prog Q' R' V E α} {upper : Prog Q (Except F β) V E α}
    (h : Abreast low inv view failure srv impl allowed lower upper) :
    lower.outcome = upper.outcome := by
  unfold outcome
  rcases h with ⟨o, hlower, hupper⟩ | ⟨q, k, p, hupper, -, hlower, hlands⟩
  · rw [hlower, hupper]
    rfl
  · obtain ⟨q', k', hnext, -⟩ := hlands.settle_next fun o => (k o).implement impl
    rw [hlower, hupper, hnext]
    rfl

/-- A program that has yet to ask its next question. -/
theorem abreast_implement
    (himpl : ∀ q, allowed q → Lands low inv view failure srv q (impl q))
    {p : Prog Q (Except F β) V E α} (hp : p.Asks allowed) :
    Abreast low inv view failure srv impl allowed (p.implement impl) p := by
  induction p with
  | ret a => exact Or.inl ⟨_, rfl, rfl⟩
  | raise e => exact Or.inl ⟨_, rfl, rfl⟩
  | emit v p ih => exact ih hp
  | call q k => exact Or.inr ⟨q, k, impl q, rfl, hp.2, rfl, himpl q hp.1⟩

end Prog

namespace Pool
open Prog

variable [DecidableEq ι] {low : Server Q' R' τ} {inv : τ → Prop} {view : τ → σ}
  {failure : G → Except F β} {srv : Server Q (Except F β) σ} {impl : ι → Q → Prog Q' R' V F β}
  {allowed : Q → Prop}

/-- A turn below is no turn above, or one with some fault. -/
theorem turn_abreast
    (himpl : ∀ i q, allowed q → Lands low inv view failure srv q (impl i q))
    {c : Pool ι Q' R' V E α τ} (hinv : inv c.state) {progs : ι → Prog Q (Except F β) V E α}
    (h : ∀ i, Abreast low inv view failure srv (impl i) allowed (c.progs i) (progs i)) (i : ι) :
    (view (turn low c i).state = view c.state ∧ ∀ j, Abreast low inv view failure srv (impl j)
      allowed ((turn low c i).progs j) (progs j)) ∨
    ∃ q k o f, (progs i).next = .inr (q, k) ∧
      (∀ fs, faulty failure srv q (view c.state, f :: fs) = (o, view (turn low c i).state, fs)) ∧
      ∀ j, Abreast low inv view failure srv (impl j) allowed ((turn low c i).progs j)
        (Function.update progs i (k o) j) := by
  rcases h i with ⟨o, hlower, -⟩ | ⟨q, k, p, hupper, hasks, hlower, hlands⟩
  · have hidle : turn low c i = c := by
      unfold turn
      rw [hlower]
    rw [hidle]
    exact Or.inl ⟨rfl, h⟩
  · obtain ⟨q', k', hnext, hcall⟩ := hlands.settle_next fun o => (k o).implement (impl i)
    have hturn : turn low c i =
        c.answer low i q' fun r => (k' r).settle fun o => (k o).implement (impl i) := by
      unfold turn
      rw [hlower, hnext]
    rw [hturn]
    rcases hcall c.state hinv with ⟨hview, hgoes⟩ | ⟨o, f, hover, hdone⟩
    · refine Or.inl ⟨hview, fun j => ?_⟩
      by_cases hj : j = i
      · subst hj
        rw [answer_progs_self]
        exact Or.inr ⟨q, k, _, hupper, hasks, rfl, hgoes⟩
      · rw [answer_progs_of_ne hj]
        exact h j
    · refine Or.inr ⟨q, k, o, f, hupper, hdone, fun j => ?_⟩
      by_cases hj : j = i
      · subst hj
        rw [answer_progs_self, Function.update_self]
        exact (abreast_implement (himpl j) (hasks o)).congr (next_settle_of_outcome hover _)
      · rw [answer_progs_of_ne hj, Function.update_of_ne hj]
        exact h j

/-- A run below is a run above: its turns are some of those below, under some faults. -/
theorem schedule_abreast
    (himpl : ∀ i q, allowed q → Lands low inv view failure srv q (impl i q))
    (hlow : ∀ q t, inv t → inv (low q t).2) (turns : List ι) {c : Pool ι Q' R' V E α τ}
    (hinv : inv c.state) {progs : ι → Prog Q (Except F β) V E α}
    (h : ∀ i, Abreast low inv view failure srv (impl i) allowed (c.progs i) (progs i)) :
    ∃ turns' faults, turns'.Sublist turns ∧ ∀ rest (d : Pool ι Q (Except F β) V E α _),
      d.progs = progs → d.state = (view c.state, faults ++ rest) →
      (schedule (faulty failure srv) turns' d).state = (view (schedule low turns c).state, rest) ∧
      ∀ i, Abreast low inv view failure srv (impl i) allowed ((schedule low turns c).progs i)
        ((schedule (faulty failure srv) turns' d).progs i) := by
  induction turns generalizing c progs with
  | nil =>
    refine ⟨[], [], List.Sublist.refl _, fun rest d hprogs hstate => ⟨hstate, fun i => ?_⟩⟩
    rw [← hprogs] at h
    exact h i
  | cons i turns ih =>
    have hinv' : inv (turn low c i).state := by
      unfold turn
      split
      · exact hinv
      · exact hlow _ _ hinv
    rcases turn_abreast himpl hinv h i with ⟨hview, h'⟩ | ⟨q, k, o, f, hupper, hdone, h'⟩
    · obtain ⟨turns', faults, hsub, hrun⟩ := ih hinv' h'
      rw [hview] at hrun
      exact ⟨turns', faults, hsub.cons i, hrun⟩
    · obtain ⟨turns', faults, hsub, hrun⟩ := ih hinv' h'
      refine ⟨i :: turns', f :: faults, hsub.cons_cons i, fun rest d hprogs hstate => ?_⟩
      have hanswer : faulty failure srv q d.state =
          (o, view (turn low c i).state, faults ++ rest) := by
        rw [hstate]
        exact hdone _
      have hturn : turn (faulty failure srv) d i = d.answer (faulty failure srv) i q k := by
        unfold turn
        rw [hprogs, hupper]
      refine hrun rest (turn (faulty failure srv) d i) ?_ ?_
      · rw [hturn, ← hprogs]
        change Function.update d.progs i (k (faulty failure srv q d.state).1) = _
        rw [hanswer]
      · rw [hturn]
        change (faulty failure srv q d.state).2 = _
        rw [hanswer]

end Pool
end Interaction
