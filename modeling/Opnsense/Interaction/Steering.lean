import Opnsense.Interaction.Returned

/-! Steering: a value is read, an action follows when it is not the wanted one, and the value is
read again. What the last reading of such a run can be. -/
namespace Interaction

variable {Q R V E α β γ σ : Type}

section LastReading

variable {reading : Q × R → Option β} {t t' : List (Q × R)} {b : β}

/-- The last value that was read on a trace. -/
def lastReading (reading : Q × R → Option β) (t : List (Q × R)) : Option β :=
  (t.filterMap reading).getLast?

/-- A later part of a trace in which something was read decides. -/
theorem lastReading_append (h : lastReading reading t' = some b) :
    lastReading reading (t ++ t') = some b := by
  rw [lastReading, List.filterMap_append, List.getLast?_append]
  rw [lastReading] at h
  rw [h]
  rfl

end LastReading

namespace Prog

variable {srv : Server Q R σ} {s s' s₁ s₂ : σ} {reading : Q × R → Option β} {reached : β → Prop}

/-- What `read` returns is the last reading of its run. -/
def Reads (reading : Q × R → Option β) (srv : Server Q R σ) (read : Prog Q R V E β) : Prop :=
  ∀ s b s' t, Returns srv read s b s' t → lastReading reading t = some b

/-- A program that returns something, and asks nothing. -/
def Silent (srv : Server Q R σ) (p : Prog Q R V E α) : Prop :=
  ∀ s, ∃ a, Returns srv p s a s []

/-- The run fails, or the last value that was read is a wanted one. -/
def EndsIn (reading : Q × R → Option β) (reached : β → Prop) (srv : Server Q R σ)
    (p : Prog Q R V E α) (s : σ) : Prop :=
  (∃ e, (run srv p s).1 = .error e) ∨ ∃ b, lastReading reading (trace srv p s) = some b ∧ reached b

theorem endsIn_of_error {p : Prog Q R V E α} {e : E} (h : run srv p s = (.error e, s')) :
    EndsIn reading reached srv p s :=
  Or.inl ⟨e, congrArg Prod.fst h⟩

/-- A run that returns ends as its last reading does. -/
theorem endsIn_iff_of_returns {p : Prog Q R V E α} {a : α} {t : List (Q × R)} {b : β}
    (h : Returns srv p s a s' t) (hlast : lastReading reading t = some b) :
    EndsIn reading reached srv p s ↔ reached b := by
  obtain ⟨hrun, rfl⟩ := h
  rw [EndsIn, hrun, hlast]
  constructor
  · rintro (⟨e, he⟩ | ⟨b', hb', hreached⟩)
    · cases he
    · cases hb'
      exact hreached
  · intro hreached
    exact Or.inr ⟨b, rfl, hreached⟩

section Steer

variable {read : Prog Q R V E β} [DecidablePred reached] {idle : β → Prog Q R V E α}
  {act : β → Prog Q R V E γ} {report : γ → β → Prog Q R V E α} {before after : β} {c : γ}

def steer (read : Prog Q R V E β) (reached : β → Prop) [DecidablePred reached]
    (idle : β → Prog Q R V E α) (act : β → Prog Q R V E γ) (report : γ → β → Prog Q R V E α) :
    Prog Q R V E α :=
  read >>= fun before =>
    if reached before then idle before
    else act before >>= fun c => read >>= fun after => report c after

/-- The action was taken and did not fail; `s'` is the state behind it. -/
def ActedIn (srv : Server Q R σ) (read : Prog Q R V E β) (reached : β → Prop)
    (act : β → Prog Q R V E γ) (s s' : σ) : Prop :=
  ∃ before s₁ c, run srv read s = (.ok before, s₁) ∧ ¬ reached before ∧
    run srv (act before) s₁ = (.ok c, s')

omit [DecidablePred reached] in
theorem actedIn_iff (hfirst : run srv read s = (.ok before, s₁)) (hnot : ¬ reached before)
    (hact : run srv (act before) s₁ = (.ok c, s₂)) :
    ActedIn srv read reached act s s' ↔ s' = s₂ := by
  constructor
  · rintro ⟨b, s₃, c', hb, -, hc⟩
    cases hfirst.symm.trans hb
    cases hact.symm.trans hc
    rfl
  · rintro rfl
    exact ⟨before, s₁, c, hfirst, hnot, hact⟩

/-- A wanted value at the first reading is the last one. -/
theorem endsIn_steer_of_reached (hread : Reads reading srv read)
    (hidle : ∀ b, Silent srv (idle b)) (hfirst : run srv read s = (.ok before, s₁))
    (hreached : reached before) :
    EndsIn reading reached srv (steer read reached idle act report) s := by
  obtain ⟨a, ha⟩ := hidle before s₁
  have hreturns : Returns srv (steer read reached idle act report) s a s₁
      (trace srv read s ++ []) := by
    refine returns_bind.mpr ⟨before, s₁, _, [], returns_of_run hfirst, ?_, rfl⟩
    rw [if_pos hreached]
    exact ha
  rw [List.append_nil] at hreturns
  exact (endsIn_iff_of_returns hreturns (hread s before s₁ _ (returns_of_run hfirst))).mpr hreached

theorem run_steer_of_not_reached (hfirst : run srv read s = (.ok before, s₁))
    (hnot : ¬ reached before) : run srv (steer read reached idle act report) s =
      run srv (act before >>= fun c => read >>= fun after => report c after) s₁ := by
  rw [steer, run_bind_of_ok hfirst, if_neg hnot]

/-- Behind an action the value read last decides. -/
theorem endsIn_steer_of_acted (hread : Reads reading srv read)
    (hreport : ∀ c b, Silent srv (report c b)) (hfirst : run srv read s = (.ok before, s₁))
    (hnot : ¬ reached before) (hact : run srv (act before) s₁ = (.ok c, s₂))
    (hlast : run srv read s₂ = (.ok after, s')) :
    EndsIn reading reached srv (steer read reached idle act report) s ↔ reached after := by
  obtain ⟨a, ha⟩ := hreport c after s'
  have hreturns : Returns srv (steer read reached idle act report) s a s'
      (trace srv read s ++ (trace srv (act before) s₁ ++ (trace srv read s₂ ++ []))) := by
    refine returns_bind.mpr ⟨before, s₁, _, _, returns_of_run hfirst, ?_, rfl⟩
    rw [if_neg hnot]
    refine returns_bind.mpr ⟨c, s₂, _, _, returns_of_run hact, ?_, rfl⟩
    exact returns_bind.mpr ⟨after, s', _, _, returns_of_run hlast, ha, rfl⟩
  rw [List.append_nil] at hreturns
  have hafter := hread s₂ after s' _ (returns_of_run hlast)
  exact endsIn_iff_of_returns hreturns (lastReading_append (lastReading_append hafter))

/-- Steering ends where it should exactly when what is read behind the action is wanted: nothing
looks at that value. -/
theorem endsIn_steer_iff (hread : Reads reading srv read) (hidle : ∀ b, Silent srv (idle b))
    (hreport : ∀ c b, Silent srv (report c b)) :
    EndsIn reading reached srv (steer read reached idle act report) s ↔
      ∀ s', ActedIn srv read reached act s s' → ∀ after s'', run srv read s' = (.ok after, s'') →
        reached after := by
  rcases hfirst : run srv read s with ⟨e | before, s₁⟩
  · -- nothing is done when the first reading fails
    refine iff_of_true (endsIn_of_error (run_bind_of_error hfirst _)) ?_
    rintro s' ⟨b, s₂, c, hb, -⟩
    cases hfirst.symm.trans hb
  by_cases hreached : reached before
  · refine iff_of_true (endsIn_steer_of_reached hread hidle hfirst hreached) ?_
    rintro s' ⟨b, s₂, c, hb, hnot, -⟩
    cases hfirst.symm.trans hb
    exact absurd hreached hnot
  rcases hact : run srv (act before) s₁ with ⟨e | c, s₂⟩
  · have hrun := @run_steer_of_not_reached _ _ _ _ _ _ _ _ srv s s₁ reached read _ idle act report
      before hfirst hreached
    refine iff_of_true (endsIn_of_error (hrun.trans (run_bind_of_error hact _))) ?_
    rintro s' ⟨b, s₃, c, hb, -, hc⟩
    cases hfirst.symm.trans hb
    cases hact.symm.trans hc
  simp only [actedIn_iff hfirst hreached hact, forall_eq]
  rcases hlast : run srv read s₂ with ⟨e | after, s₃⟩
  · have hrun : run srv (steer read reached idle act report) s = (.error e, s₃) := by
      rw [run_steer_of_not_reached hfirst hreached, run_bind_of_ok hact, run_bind_of_error hlast]
    refine iff_of_true (endsIn_of_error hrun) ?_
    intro after s'' hafter
    cases hafter
  · rw [endsIn_steer_of_acted hread hreport hfirst hreached hact hlast]
    constructor
    · intro h after' s'' heq
      cases heq
      exact h
    · intro h
      exact h after s₃ rfl

end Steer

end Prog
end Interaction
