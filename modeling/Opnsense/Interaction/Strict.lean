import Opnsense.Interaction.Faults
import Opnsense.Interaction.Returned

/-! Strict programs: a bad reply is never survived. Behind a faulty server such a
program either fails or runs as it does against the plain server. -/
namespace Interaction
namespace Prog

variable {Q R V E F G α β σ : Type} {srv : Server Q R σ} {bad : R → Prop}

/-- No path of the program ends with a value. -/
def NoReturn : Prog Q R V E α → Prop
  | ret _ => False
  | raise _ => True
  | emit _ p => NoReturn p
  | call _ k => ∀ r, NoReturn (k r)

/-- After a bad reply no path ends with a value. -/
def Strict (bad : R → Prop) : Prog Q R V E α → Prop
  | ret _ => True
  | raise _ => True
  | emit _ p => Strict bad p
  | call _ k => ∀ r, Strict bad (k r) ∧ (bad r → NoReturn (k r))

@[simp] theorem strict_ret (a : α) : Strict bad (ret a : Prog Q R V E α) := trivial
@[simp] theorem strict_raise (e : E) : Strict bad (raise e : Prog Q R V E α) := trivial
@[simp] theorem strict_emit (v : V) (p : Prog Q R V E α) :
    Strict bad (emit v p) ↔ Strict bad p := Iff.rfl
@[simp] theorem strict_tell (v : V) : Strict bad (tell v : Prog Q R V E Unit) := trivial
@[simp] theorem strict_ofExcept (x : Except E α) :
    Strict bad (ofExcept x : Prog Q R V E α) := by
  cases x <;> trivial

theorem noReturn_bind {p : Prog Q R V E α} (hp : NoReturn p) (f : α → Prog Q R V E β) :
    NoReturn (p >>= f) := by
  induction p with
  | ret a => exact hp.elim
  | raise e => trivial
  | emit v p ih => exact ih hp
  | call q k ih => exact fun r => ih r (hp r)

theorem noReturn_rescue {p : Prog Q R V F α} {h : F → Prog Q R V E α} (hp : NoReturn p)
    (hh : ∀ e, NoReturn (h e)) : NoReturn (rescue p h) := by
  induction p with
  | ret a => exact hp.elim
  | raise e => exact hh e
  | emit v p ih => exact ih hp
  | call q k ih => exact fun r => ih r (hp r)

theorem strict_bind {p : Prog Q R V E α} {f : α → Prog Q R V E β} (hp : Strict bad p)
    (hf : ∀ a, Strict bad (f a)) : Strict bad (p >>= f) := by
  induction p with
  | ret a => exact hf a
  | raise e => trivial
  | emit v p ih => exact ih hp
  | call q k ih => exact fun r => ⟨ih r (hp r).1, fun hr => noReturn_bind ((hp r).2 hr) f⟩

theorem strict_rescue {p : Prog Q R V F α} {h : F → Prog Q R V E α} (hp : Strict bad p)
    (hh : ∀ e, Strict bad (h e) ∧ NoReturn (h e)) : Strict bad (rescue p h) := by
  induction p with
  | ret a => trivial
  | raise e => exact (hh e).1
  | emit v p ih => exact ih hp
  | call q k ih =>
    exact fun r => ⟨ih r (hp r).1, fun hr => noReturn_rescue ((hp r).2 hr) fun e => (hh e).2⟩

theorem strict_onError {p : Prog Q R V E α} (hp : Strict bad p) (report : E → V) :
    Strict bad (onError p report) :=
  strict_rescue hp fun _ => ⟨trivial, trivial⟩

theorem NoReturn.run_ne_ok {p : Prog Q R V E α} (hp : NoReturn p) {s s' : σ} {a : α} :
    run srv p s ≠ (.ok a, s') := by
  induction p generalizing s with
  | ret a => exact hp.elim
  | raise e => simp
  | emit v p ih => exact ih hp
  | call q k ih => exact ih _ (hp _)

/-- A strict program that returned behind a faulty server met no fault on the way: it
ran as it does against the plain server. -/
theorem Strict.returns_of_faulty {failure : G → R} (hfail : ∀ e, bad (failure e))
    {p : Prog Q R V E α} (hp : Strict bad p) {s : σ} {fs : List (Fault G)} {a : α}
    {s' : σ × List (Fault G)} {t : List (Q × R)}
    (h : Returns (faulty failure srv) p (s, fs) a s' t) : Returns srv p s a s'.1 t := by
  induction p generalizing s fs t with
  | ret b =>
    obtain ⟨rfl, rfl, rfl⟩ := returns_ret.mp h
    exact returns_ret.mpr ⟨rfl, rfl, rfl⟩
  | raise e => exact (returns_raise h).elim
  | emit v p ih => exact ih hp h
  | call q k ih =>
    obtain ⟨hrun, rfl⟩ := h
    rw [run_call] at hrun
    have hserved : (faulty failure srv q (s, fs)).1 = (srv q s).1 ∧
        (faulty failure srv q (s, fs)).2.1 = (srv q s).2 := by
      rcases faulty_cases failure srv q s fs with hserved | ⟨e, he, -⟩
      · exact hserved
      · rw [he] at hrun
        exact absurd hrun (NoReturn.run_ne_ok ((hp (failure e)).2 (hfail e)))
    obtain ⟨hreply, hstate⟩ := hserved
    rcases hf : faulty failure srv q (s, fs) with ⟨r, s₁, fs₁⟩
    rw [hf] at hrun hreply hstate
    obtain ⟨hrun', htrace⟩ := ih r (hp r).1 ⟨hrun, rfl⟩
    dsimp only at hreply hstate
    subst hreply hstate
    refine ⟨hrun', ?_⟩
    rw [trace_call, trace_call, hf, htrace]

end Prog
end Interaction
