import Opnsense.Interaction.Faults

namespace Interaction
namespace Prog

variable {Q R V E F α β σ : Type} {srv : Server Q R σ}

/-- From every state with `pre`, `p` returns into `post` or fails into `fail`. -/
def Triple (srv : Server Q R σ) (pre : σ → Prop) (p : Prog Q R V E α) (post : α → σ → Prop)
    (fail : σ → Prop) : Prop :=
  ∀ s, pre s → match run srv p s with
    | (.ok a, s') => post a s'
    | (.error _, s') => fail s'

variable {pre pre' : σ → Prop} {post post' : α → σ → Prop} {fail fail' : σ → Prop}

theorem triple_ret {a : α} (h : ∀ s, pre s → post a s) :
    Triple srv pre (ret a : Prog Q R V E α) post fail :=
  h

theorem triple_emit {v : V} {p : Prog Q R V E α} (h : Triple srv pre p post fail) :
    Triple srv pre (emit v p) post fail :=
  h

theorem triple_ofExcept {x : Except E α} (hok : ∀ a s, x = .ok a → pre s → post a s)
    (herr : ∀ s, pre s → fail s) : Triple srv pre (ofExcept x : Prog Q R V E α) post fail := by
  cases x with
  | error e => exact herr
  | ok a => exact fun s hs => hok a s rfl hs

/-- A question, given what every reply makes of the precondition. -/
theorem triple_call {q : Q} {k : R → Prog Q R V E α} {mid : R → σ → Prop}
    (hq : ∀ s, pre s → mid (srv q s).1 (srv q s).2)
    (hk : ∀ r, Triple srv (mid r) (k r) post fail) : Triple srv pre (call q k) post fail :=
  fun s hs => hk _ _ (hq s hs)

theorem triple_bind {p : Prog Q R V E α} {f : α → Prog Q R V E β} {after : β → σ → Prop}
    (hp : Triple srv pre p post fail) (hf : ∀ a, Triple srv (post a) (f a) after fail) :
    Triple srv pre (p >>= f) after fail := by
  intro s hs
  have hrun := hp s hs
  rw [run_bind]
  rcases heq : run srv p s with ⟨e | a, s'⟩
  · rw [heq] at hrun
    exact hrun
  · rw [heq] at hrun
    exact hf a s' hrun

theorem triple_onError {p : Prog Q R V E α} {report : E → V}
    (h : Triple srv pre p post fail) : Triple srv pre (onError p report) post fail := by
  intro s hs
  rw [run_onError]
  exact h s hs

theorem triple_mono {p : Prog Q R V E α} (h : Triple srv pre p post fail)
    (hpre : ∀ s, pre' s → pre s) (hpost : ∀ a s, post a s → post' a s)
    (hfail : ∀ s, fail s → fail' s) : Triple srv pre' p post' fail' := by
  intro s hs
  have hrun := h s (hpre s hs)
  split at hrun
  · exact hpost _ _ hrun
  · exact hfail _ hrun

/-- A choice known from the precondition. -/
theorem triple_of_forall {p : Prog Q R V E α} {φ : Prop} (hφ : ∀ s, pre s → φ)
    (h : φ → Triple srv pre p post fail) : Triple srv pre p post fail :=
  fun s hs => h (hφ s hs) s hs

/-- A program that asks what an invariant survives keeps it, however it ends. -/
theorem triple_of_asks {allowed : Q → Prop} {p : Prog Q R V E α} {I : σ → Prop}
    (hp : Asks allowed p) (hstep : ∀ q s, allowed q → I s → I (srv q s).2) :
    Triple srv I p (fun _ => I) I := by
  intro s hs
  have hrun := hp.run_preserves I hstep hs
  rcases heq : run srv p s with ⟨e | a, s'⟩ <;> rwa [heq] at hrun

/-- What holds however the program ends. -/
theorem Triple.final {p : Prog Q R V E α} (I : σ → Prop) (s : σ)
    (h : Triple srv pre p (fun _ => I) I) (hs : pre s) : I (run srv p s).2 := by
  have hrun := h s hs
  rcases heq : run srv p s with ⟨e | a, s'⟩
  · rw [heq] at hrun
    exact hrun
  · rw [heq] at hrun
    exact hrun

end Prog
end Interaction
