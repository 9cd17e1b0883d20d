import Opnsense.Interaction.Invariant

/-! Fault injection. A schedule decides, question by question, whether the server
answers, never sees the question, or acts on it and loses the reply. -/
namespace Interaction

variable {Q R V E F α σ : Type}

/-- What happens to one question; `lost` and `cut` carry the error the asker sees. -/
inductive Fault (F : Type) where
  | served
  | lost (e : F)
  | cut (e : F)
  deriving DecidableEq, Repr

/-- A server behind a schedule of faults; once the schedule is used up every question
is served. -/
def faulty (failure : F → R) (srv : Server Q R σ) : Server Q R (σ × List (Fault F))
  | q, (s, []) => ((srv q s).1, (srv q s).2, [])
  | q, (s, .served :: fs) => ((srv q s).1, (srv q s).2, fs)
  | _, (s, .lost e :: fs) => (failure e, s, fs)
  | q, (s, .cut e :: fs) => (failure e, (srv q s).2, fs)

/-- One question to a faulty server: it was answered, or it failed with the state
untouched or moved. -/
theorem faulty_cases (failure : F → R) (srv : Server Q R σ) (q : Q) (s : σ)
    (fs : List (Fault F)) :
    ((faulty failure srv q (s, fs)).1 = (srv q s).1 ∧
      (faulty failure srv q (s, fs)).2.1 = (srv q s).2) ∨
    ∃ e, (faulty failure srv q (s, fs)).1 = failure e ∧
      ((faulty failure srv q (s, fs)).2.1 = s ∨
        (faulty failure srv q (s, fs)).2.1 = (srv q s).2) := by
  rcases fs with _ | ⟨f, fs⟩
  · exact Or.inl ⟨rfl, rfl⟩
  · cases f with
    | served => exact Or.inl ⟨rfl, rfl⟩
    | lost e => exact Or.inr ⟨e, rfl, Or.inl rfl⟩
    | cut e => exact Or.inr ⟨e, rfl, Or.inr rfl⟩

/-- The same with the outcome named. -/
theorem faulty_eq (failure : F → R) (srv : Server Q R σ) (q : Q) (s : σ) (fs : List (Fault F)) :
    ∃ s', (faulty failure srv q (s, fs) = ((srv q s).1, s') ∧ s'.1 = (srv q s).2) ∨
      ∃ e, faulty failure srv q (s, fs) = (failure e, s') ∧ (s'.1 = s ∨ s'.1 = (srv q s).2) := by
  refine ⟨(faulty failure srv q (s, fs)).2, ?_⟩
  rcases faulty_cases failure srv q s fs with ⟨hreply, hstate⟩ | ⟨e, hreply, hstate⟩
  · exact Or.inl ⟨Prod.ext hreply rfl, hstate⟩
  · exact Or.inr ⟨e, Prod.ext hreply rfl, hstate⟩

/-- What every question preserves on the plain server is preserved under every schedule. -/
theorem faulty_preserves {failure : F → R} {srv : Server Q R σ} {I : σ → Prop} {q : Q}
    (hstep : ∀ s, I s → I (srv q s).2) (s : σ × List (Fault F)) (hs : I s.1) :
    I (faulty failure srv q s).2.1 := by
  obtain ⟨s, fs⟩ := s
  rcases faulty_cases failure srv q s fs with ⟨_, h⟩ | ⟨_, _, h | h⟩
  · rw [h]
    exact hstep s hs
  · rw [h]
    exact hs
  · rw [h]
    exact hstep s hs

end Interaction
