import Mathlib.Data.List.Induction
import Mathlib.Logic.Function.Basic

namespace Interaction

section Runs

variable {τ κ W O : Type} [DecidableEq κ] (key : τ → κ) (step : τ → W → W → O → Prop)

/-- The tasks one after the other: each takes its cell where its step may take it. -/
inductive Runs : List τ → (κ → W) → (κ → W) → List O → Prop
  | nil (v : κ → W) : Runs [] v v []
  | cons {t : τ} {ts : List τ} {v w : κ → W} {x : W} {o : O} {os : List O} :
      step t (v (key t)) x o → Runs ts (Function.update v (key t) x) w os →
        Runs (t :: ts) v w (o :: os)

/-- Tasks that all act on one cell. -/
inductive CellRuns : List τ → W → W → Prop
  | nil (x : W) : CellRuns [] x x
  | cons {t : τ} {ts : List τ} {x y z : W} {o : O} :
      step t x y o → CellRuns ts y z → CellRuns (t :: ts) x z

end Runs

variable {τ κ W O : Type} [DecidableEq κ] {key : τ → κ} {step : τ → W → W → O → Prop}
  {ts us : List τ} {v w : κ → W} {os os' : List O}

/-- The tasks of one key. -/
def ofKey (key : τ → κ) (k : κ) (ts : List τ) : List τ := ts.filter fun t => key t = k

theorem ofKey_cons_self (t : τ) (ts : List τ) :
    ofKey key (key t) (t :: ts) = t :: ofKey key (key t) ts := by
  simp [ofKey]

theorem ofKey_cons_of_ne {t : τ} {k : κ} (h : k ≠ key t) (ts : List τ) :
    ofKey key k (t :: ts) = ofKey key k ts := by
  simp [ofKey, Ne.symm h]

theorem ofKey_eq_nil {k : κ} (h : ∀ t ∈ ts, key t ≠ k) : ofKey key k ts = [] := by
  rw [ofKey, List.filter_eq_nil_iff]
  intro t ht
  simpa using h t ht

theorem cellRuns_nil {x y : W} : CellRuns step [] x y ↔ y = x := by
  constructor
  · intro h
    cases h
    rfl
  · rintro rfl
    exact CellRuns.nil _

theorem Runs.of_append {us' : List τ} (h : Runs key step (us ++ us') v w os) :
    ∃ v' os₁ os₂, Runs key step us v v' os₁ ∧ Runs key step us' v' w os₂ ∧ os = os₁ ++ os₂ := by
  induction us generalizing v os with
  | nil => exact ⟨v, [], os, Runs.nil v, h, rfl⟩
  | cons t us ih =>
    cases h with
    | cons hstep hrest =>
      obtain ⟨v', os₁, os₂, h₁, h₂, rfl⟩ := ih hrest
      exact ⟨v', _ :: os₁, os₂, Runs.cons hstep h₁, h₂, rfl⟩

/-- Each task reports once. -/
theorem Runs.length_eq (h : Runs key step ts v w os) : os.length = ts.length := by
  induction h with
  | nil v => rfl
  | cons _ _ ih => rw [List.length_cons, List.length_cons, ih]

/-- Every cell goes the way of its own tasks, in their order. -/
theorem Runs.cell (h : Runs key step ts v w os) (k : κ) :
    CellRuns step (ofKey key k ts) (v k) (w k) := by
  induction h with
  | nil v => exact CellRuns.nil _
  | @cons t ts v w x o os hstep _ ih =>
    by_cases hk : k = key t
    · subst hk
      rw [ofKey_cons_self]
      rw [Function.update_self] at ih
      exact CellRuns.cons hstep ih
    · rw [ofKey_cons_of_ne hk]
      rwa [Function.update_of_ne hk] at ih

/-- And every choice of such ways, one for each cell, is a run of the whole list. -/
theorem runs_of_cells (h : ∀ k, CellRuns step (ofKey key k ts) (v k) (w k)) :
    ∃ os, Runs key step ts v w os := by
  induction ts generalizing v with
  | nil =>
    obtain rfl : v = w := by
      funext k
      exact (cellRuns_nil.mp (h k)).symm
    exact ⟨[], Runs.nil v⟩
  | cons t ts ih =>
    have hself := h (key t)
    rw [ofKey_cons_self] at hself
    generalize hx : v (key t) = x at hself
    cases hself with
    | @cons _ _ _ y _ o hstep hrest =>
      obtain ⟨os, hos⟩ : ∃ os, Runs key step ts (Function.update v (key t) y) w os := by
        apply ih
        intro k
        by_cases hk : k = key t
        · subst hk
          rwa [Function.update_self]
        · have hother := h k
          rwa [ofKey_cons_of_ne hk, ← Function.update_of_ne hk y v] at hother
      rw [← hx] at hstep
      exact ⟨o :: os, Runs.cons hstep hos⟩

/-- A cell that no task is about stays. -/
theorem Runs.untouched (h : Runs key step ts v w os) {k : κ} (hk : ∀ t ∈ ts, key t ≠ k) :
    w k = v k := by
  have hcell := h.cell k
  rw [ofKey_eq_nil hk] at hcell
  exact cellRuns_nil.mp hcell

/-- Where some task has a property, there is a last one that has it. -/
theorem exists_last {p : τ → Prop} (h : ∃ t ∈ ts, p t) :
    ∃ front t back, ts = front ++ t :: back ∧ p t ∧ ∀ t' ∈ back, ¬ p t' := by
  induction ts using List.reverseRecOn with
  | nil =>
    obtain ⟨t, ht, -⟩ := h
    cases ht
  | append_singleton ts t ih =>
    by_cases hp : p t
    · exact ⟨ts, t, [], rfl, hp, fun t' ht' => by cases ht'⟩
    · have hfront : ∃ t' ∈ ts, p t' := by
        obtain ⟨t', ht', hp'⟩ := h
        rcases List.mem_append.mp ht' with ht' | ht'
        · exact ⟨t', ht', hp'⟩
        · rw [List.mem_singleton.mp ht'] at hp'
          exact absurd hp' hp
      obtain ⟨front, t', back, rfl, hp', hback⟩ := ih hfront
      refine ⟨front, t', back ++ [t], by simp, hp', fun t'' ht'' => ?_⟩
      rcases List.mem_append.mp ht'' with ht'' | ht''
      · exact hback t'' ht''
      · rw [List.mem_singleton.mp ht'']
        exact hp

section Met

variable {met : τ → W → Prop} {quiet : O → Prop}

/-- The last task of a key has the last word. -/
theorem Runs.last_met {t : τ} {us' : List τ} (hmet : ∀ x y o, step t x y o → met t y)
    (h : Runs key step (us ++ t :: us') v w os) (hlast : ∀ t' ∈ us', key t' ≠ key t) :
    met t (w (key t)) := by
  obtain ⟨v', os₁, os₂, -, hrest, -⟩ := h.of_append
  cases hrest with
  | @cons _ _ _ _ x o _ hstep hbehind =>
    rw [hbehind.untouched hlast, Function.update_self]
    exact hmet _ _ _ hstep

/-- Tasks that are met where they start change nothing. -/
theorem Runs.of_met (hquiet : ∀ t ∈ ts, ∀ x y o, met t x → step t x y o → y = x ∧ quiet o)
    (h : Runs key step ts v w os) (hall : ∀ t ∈ ts, met t (v (key t))) :
    w = v ∧ ∀ o ∈ os, quiet o := by
  induction h with
  | nil v => exact ⟨rfl, fun o ho => by cases ho⟩
  | @cons t ts v w x o os hstep _ ih =>
    have ht : t ∈ t :: ts := List.mem_cons_self ..
    obtain ⟨rfl, ho⟩ := hquiet t ht _ _ _ (hall t ht) hstep
    rw [Function.update_eq_self] at ih
    obtain ⟨hw, hos⟩ := ih (fun t' ht' => hquiet t' (List.mem_cons_of_mem _ ht'))
      fun t' ht' => hall t' (List.mem_cons_of_mem _ ht')
    refine ⟨hw, fun o' ho' => ?_⟩
    rcases List.mem_cons.mp ho' with rfl | ho'
    · exact ho
    · exact hos o' ho'

/-- Where the tasks of one key agree on what they want, a run leaves all of them met. -/
theorem Runs.all_met (hmet : ∀ t ∈ ts, ∀ x y o, step t x y o → met t y)
    (hagree : ∀ t ∈ ts, ∀ t' ∈ ts, key t = key t' → ∀ x, met t' x → met t x)
    (h : Runs key step ts v w os) : ∀ t ∈ ts, met t (w (key t)) := by
  intro t ht
  -- some task is the last one of this key, and it wants the same
  obtain ⟨front, t', back, rfl, hkey, hlast⟩ :=
    exists_last (p := fun t' => key t' = key t) ⟨t, ht, rfl⟩
  have ht' : t' ∈ front ++ t' :: back := List.mem_append_right _ (List.mem_cons_self ..)
  have hmet' := h.last_met (hmet t' ht') fun t'' ht'' => by
    rw [hkey]
    exact hlast t'' ht''
  rw [hkey] at hmet'
  exact hagree t ht t' ht' hkey.symm _ hmet'

/-- Run again, such tasks leave the store alone. -/
theorem Runs.again (quiet : O → Prop) (hmet : ∀ t ∈ ts, ∀ x y o, step t x y o → met t y)
    (hquiet : ∀ t ∈ ts, ∀ x y o, met t x → step t x y o → y = x ∧ quiet o)
    (hagree : ∀ t ∈ ts, ∀ t' ∈ ts, key t = key t' → ∀ x, met t' x → met t x)
    (h : Runs key step ts v w os) {w' : κ → W} (h' : Runs key step ts w w' os') :
    w' = w ∧ ∀ o ∈ os', quiet o :=
  h'.of_met hquiet (h.all_met hmet hagree)

end Met
end Interaction
