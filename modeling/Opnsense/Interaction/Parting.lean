import Opnsense.Interaction.Relay

/-! Two programs that go the same way until a reply parts them. The first cannot read that reply
and raises, the second takes it for something else and returns. -/
namespace Interaction
namespace Prog

variable {Q R V E α β σ : Type} {bad : Q → R → Prop} {good : α → Prop} {good' : β → Prop}

/-- Without another question the program returns a value of `good`. -/
def Gives (good : α → Prop) : Prog Q R V E α → Prop
  | ret a => good a
  | raise _ => False
  | emit _ p => Gives good p
  | call _ _ => False

theorem Gives.bind {p : Prog Q R V E α} {f : α → Prog Q R V E β} (hp : Gives good p)
    (hf : ∀ a, good a → Gives good' (f a)) : Gives good' (p >>= f) := by
  induction p with
  | ret a => exact hf a hp
  | raise e => exact hp.elim
  | emit v p ih => exact ih hp
  | call q k ih => exact hp.elim

theorem Raises.bind {e : E} {p : Prog Q R V E α} (hp : Raises e p) (f : α → Prog Q R V E β) :
    Raises e (p >>= f) := by
  induction p with
  | ret a => exact hp.elim
  | raise e' => exact hp
  | emit v p ih => exact ih hp
  | call q k ih => exact hp.elim

/-- The same questions in the same order, until a bad reply. -/
inductive Parting (bad : Q → R → Prop) (good : α → Prop) :
    Prog Q R V E α → Prog Q R V E α → Prop
  | ret (a : α) : Parting bad good (.ret a) (.ret a)
  | raise (e : E) : Parting bad good (.raise e) (.raise e)
  | emit (v : V) (p p' : Prog Q R V E α) (h : Parting bad good p p') :
      Parting bad good (.emit v p) (.emit v p')
  | call (q : Q) (k k' : R → Prog Q R V E α)
      (hfine : ∀ r, ¬ bad q r → Parting bad good (k r) (k' r))
      (hbad : ∀ r, bad q r → (∃ e, Raises e (k r)) ∧ Gives good (k' r)) :
      Parting bad good (.call q k) (.call q k')

theorem parting_refl {p : Prog Q R V E α} (hp : Asks (fun q => ∀ r, ¬ bad q r) p) :
    Parting bad good p p := by
  induction p with
  | ret a => exact .ret a
  | raise e => exact .raise e
  | emit v p ih => exact .emit v p p (ih hp)
  | call q k ih => exact .call q k k (fun r _ => ih r (hp.2 r)) fun r hr => absurd hr (hp.1 r)

/-- What is given after a bad reply has to be given on. -/
theorem Parting.bind {p p' : Prog Q R V E α} {f f' : α → Prog Q R V E β}
    (hp : Parting bad good p p') (hf : ∀ a, Parting bad good' (f a) (f' a))
    (hgives : ∀ a, good a → Gives good' (f' a)) : Parting bad good' (p >>= f) (p' >>= f') := by
  induction hp with
  | ret a => exact hf a
  | raise e => exact .raise e
  | emit v p p' _ ih => exact .emit v _ _ ih
  | call q k k' _ hbad ih =>
    refine .call q _ _ ih fun r hr => ?_
    obtain ⟨⟨e, hraises⟩, hk'⟩ := hbad r hr
    exact ⟨⟨e, hraises.bind f⟩, hk'.bind hgives⟩

theorem parting_bind_same {p : Prog Q R V E α} {f f' : α → Prog Q R V E β}
    (hp : Asks (fun q => ∀ r, ¬ bad q r) p) (hf : ∀ a, Parting bad good' (f a) (f' a)) :
    Parting bad good' (p >>= f) (p >>= f') := by
  have hnone : ∀ a : α, False → Gives good' (f' a) := fun _ h => h.elim
  exact Parting.bind (parting_refl hp) hf hnone

/-- The same result, the same questions and the same end. -/
def SameRun (srv : Server Q R σ) (s : σ) (p p' : Prog Q R V E α) : Prop :=
  run srv p s = run srv p' s ∧ trace srv p s = trace srv p' s

theorem Raises.run_error {e : E} {p : Prog Q R V E α} (hp : Raises e p) (srv : Server Q R σ)
    (s : σ) : run srv p s = (.error e, s) := by
  induction p with
  | ret a => exact hp.elim
  | raise e' => exact congrArg (fun x => (Except.error x, s)) hp
  | emit v p ih => exact ih hp
  | call q k ih => exact hp.elim

theorem Gives.run_ok {p : Prog Q R V E α} (hp : Gives good p) (srv : Server Q R σ) (s : σ) :
    ∃ a, run srv p s = (.ok a, s) := by
  induction p with
  | ret a => exact ⟨a, rfl⟩
  | raise e => exact hp.elim
  | emit v p ih => exact ih hp
  | call q k ih => exact hp.elim

/-- They run alike exactly where the second meets no bad reply. -/
theorem Parting.sameRun_iff {p p' : Prog Q R V E α} (h : Parting bad good p p')
    (srv : Server Q R σ) (s : σ) :
    SameRun srv s p p' ↔ ∀ qr ∈ trace srv p' s, ¬ bad qr.1 qr.2 := by
  induction h generalizing s with
  | ret a => exact iff_of_true ⟨rfl, rfl⟩ (by simp)
  | raise e => exact iff_of_true ⟨rfl, rfl⟩ (by simp)
  | emit v p p' _ ih => exact ih s
  | call q k k' _ hbad ih =>
    rw [trace_call, List.forall_mem_cons]
    by_cases hr : bad q (srv q s).1
    · -- one run ends with an error, the other with a value
      refine iff_of_false ?_ fun hall => hall.1 hr
      rintro ⟨hrun, -⟩
      obtain ⟨⟨e, hraises⟩, hgives⟩ := hbad _ hr
      obtain ⟨a, hok⟩ := hgives.run_ok srv (srv q s).2
      rw [run_call, run_call, hraises.run_error, hok] at hrun
      cases hrun
    · rw [and_iff_right hr, ← ih _ hr, SameRun, SameRun, trace_call, trace_call, run_call,
        run_call, List.cons.injEq, and_iff_right rfl]

end Prog
end Interaction
