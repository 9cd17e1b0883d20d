import Opnsense.Interaction.Prog

namespace Interaction
namespace Prog

variable {Q R V E F α β σ : Type} {srv : Server Q R σ} {allowed : Q → Prop}

/-- Every question the program can ask, whatever the replies, is allowed. -/
def Asks (allowed : Q → Prop) : Prog Q R V E α → Prop
  | ret _ => True
  | raise _ => True
  | emit _ p => Asks allowed p
  | call q k => allowed q ∧ ∀ r, Asks allowed (k r)

@[simp] theorem asks_ret (a : α) : Asks allowed (ret a : Prog Q R V E α) := trivial
@[simp] theorem asks_raise (e : E) : Asks allowed (raise e : Prog Q R V E α) := trivial
@[simp] theorem asks_emit (v : V) (p : Prog Q R V E α) :
    Asks allowed (emit v p) ↔ Asks allowed p := Iff.rfl
@[simp] theorem asks_call (q : Q) (k : R → Prog Q R V E α) :
    Asks allowed (call q k) ↔ allowed q ∧ ∀ r, Asks allowed (k r) := Iff.rfl
@[simp] theorem asks_tell (v : V) : Asks allowed (tell v : Prog Q R V E Unit) := trivial
@[simp] theorem asks_ask (q : Q) : Asks allowed (ask q : Prog Q R V E R) ↔ allowed q :=
  ⟨fun h => h.1, fun h => ⟨h, fun _ => trivial⟩⟩
@[simp] theorem asks_ofExcept (x : Except E α) :
    Asks allowed (ofExcept x : Prog Q R V E α) := by
  cases x <;> trivial

@[simp] theorem asks_foldr_emit (vs : List V) (p : Prog Q R V E α) :
    Asks allowed (vs.foldr emit p) ↔ Asks allowed p := by
  induction vs with
  | nil => rfl
  | cons v vs ih => exact ih

theorem asks_bind {p : Prog Q R V E α} {f : α → Prog Q R V E β}
    (hp : Asks allowed p) (hf : ∀ a, Asks allowed (f a)) : Asks allowed (p >>= f) := by
  induction p with
  | ret a => exact hf a
  | raise e => trivial
  | emit v p ih => exact ih hp
  | call q k ih => exact ⟨hp.1, fun r => ih r (hp.2 r)⟩

theorem asks_rescue {p : Prog Q R V F α} {h : F → Prog Q R V E α}
    (hp : Asks allowed p) (hh : ∀ e, Asks allowed (h e)) : Asks allowed (rescue p h) := by
  induction p with
  | ret a => trivial
  | raise e => exact hh e
  | emit v p ih => exact ih hp
  | call q k ih => exact ⟨hp.1, fun r => ih r (hp.2 r)⟩

theorem asks_onError {p : Prog Q R V E α} (hp : Asks allowed p) (report : E → V) :
    Asks allowed (onError p report) :=
  asks_rescue hp (fun _ => trivial)

theorem asks_mono {allowed' : Q → Prop} (himp : ∀ q, allowed q → allowed' q)
    {p : Prog Q R V E α} (hp : Asks allowed p) : Asks allowed' p := by
  induction p with
  | ret a => trivial
  | raise e => trivial
  | emit v p ih => exact ih hp
  | call q k ih => exact ⟨himp q hp.1, fun r => ih r (hp.2 r)⟩

/-- The questions on a trace are among those the program can ask. -/
theorem Asks.of_mem_trace {p : Prog Q R V E α} (hp : Asks allowed p) {s : σ} {qr : Q × R}
    (hmem : qr ∈ trace srv p s) : allowed qr.1 := by
  induction p generalizing s with
  | ret a => simp at hmem
  | raise e => simp at hmem
  | emit v p ih => exact ih hp hmem
  | call q k ih =>
    rcases List.mem_cons.mp hmem with rfl | htail
    · exact hp.1
    · exact ih _ (hp.2 _) htail

/-- An invariant every allowed question preserves survives the whole run, however it ends. -/
theorem Asks.run_preserves {p : Prog Q R V E α} (hp : Asks allowed p) (I : σ → Prop)
    (hstep : ∀ q s, allowed q → I s → I (srv q s).2) {s : σ} (hs : I s) :
    I (run srv p s).2 := by
  induction p generalizing s with
  | ret a => exact hs
  | raise e => exact hs
  | emit v p ih => exact ih hp hs
  | call q k ih => exact ih _ (hp.2 _) (hstep q s hp.1 hs)

/-- As long as the replies are among the `good`, only `fine` errors are raised. -/
def RaisesOnly (good : R → Prop) (fine : E → Prop) : Prog Q R V E α → Prop
  | ret _ => True
  | raise e => fine e
  | emit _ p => RaisesOnly good fine p
  | call _ k => ∀ r, good r → RaisesOnly good fine (k r)

section RaisesOnly

variable {good : R → Prop} {fine : E → Prop}

@[simp] theorem raisesOnly_ret (a : α) :
    RaisesOnly good fine (ret a : Prog Q R V E α) := trivial
@[simp] theorem raisesOnly_raise (e : E) :
    RaisesOnly good fine (raise e : Prog Q R V E α) ↔ fine e := Iff.rfl
@[simp] theorem raisesOnly_emit (v : V) (p : Prog Q R V E α) :
    RaisesOnly good fine (emit v p) ↔ RaisesOnly good fine p := Iff.rfl
@[simp] theorem raisesOnly_tell (v : V) :
    RaisesOnly good fine (tell v : Prog Q R V E Unit) := trivial

theorem raisesOnly_ofExcept {x : Except E α} (h : ∀ e, x = .error e → fine e) :
    RaisesOnly good fine (ofExcept x : Prog Q R V E α) := by
  cases x with
  | error e => exact h e rfl
  | ok a => trivial

theorem raisesOnly_bind {p : Prog Q R V E α} {f : α → Prog Q R V E β}
    (hp : RaisesOnly good fine p) (hf : ∀ a, RaisesOnly good fine (f a)) :
    RaisesOnly good fine (p >>= f) := by
  induction p with
  | ret a => exact hf a
  | raise e => exact hp
  | emit v p ih => exact ih hp
  | call q k ih => exact fun r hr => ih r (hp r hr)

theorem raisesOnly_rescue {p : Prog Q R V F α} {h : F → Prog Q R V E α} {fineF : F → Prop}
    (hp : RaisesOnly good fineF p) (hh : ∀ e, fineF e → RaisesOnly good fine (h e)) :
    RaisesOnly good fine (rescue p h) := by
  induction p with
  | ret a => trivial
  | raise e => exact hh e hp
  | emit v p ih => exact ih hp
  | call q k ih => exact fun r hr => ih r (hp r hr)

theorem raisesOnly_onError {p : Prog Q R V E α} (hp : RaisesOnly good fine p)
    (report : E → V) : RaisesOnly good fine (onError p report) :=
  raisesOnly_rescue hp (fun _ he => he)

/-- Against a server whose replies are good, a run that fails does so with a fine error. -/
theorem RaisesOnly.run_error {p : Prog Q R V E α} (hp : RaisesOnly good fine p)
    (hsrv : ∀ q s, good (srv q s).1) {s s' : σ} {e : E} (h : run srv p s = (.error e, s')) :
    fine e := by
  induction p generalizing s with
  | ret a => cases h
  | raise e' =>
    cases h
    exact hp
  | emit v p ih => exact ih hp h
  | call q k ih => exact ih _ (hp _ (hsrv q s)) h

end RaisesOnly

/-- What is not fine is raised before the first question, as long as the replies are `good`. -/
def Upfront (good : R → Prop) (fine : E → Prop) : Prog Q R V E α → Prop
  | ret _ => True
  | raise _ => True
  | emit _ p => Upfront good fine p
  | call _ k => ∀ r, good r → RaisesOnly good fine (k r)

section Upfront

variable {good : R → Prop} {fine : E → Prop}

theorem RaisesOnly.upfront {p : Prog Q R V E α} (hp : RaisesOnly good fine p) :
    Upfront good fine p := by
  induction p with
  | ret a => trivial
  | raise e => trivial
  | emit v p ih => exact ih hp
  | call q k _ => exact hp

/-- Behind a program that asks nothing, the second one still starts without a question. -/
theorem upfront_bind_of_quiet {p : Prog Q R V E α} {f : α → Prog Q R V E β}
    (hp : Asks (fun _ => False) p) (hf : ∀ a, Upfront good fine (f a)) :
    Upfront good fine (p >>= f) := by
  induction p with
  | ret a => exact hf a
  | raise e => trivial
  | emit v p ih => exact ih hp
  | call q k _ => exact hp.1.elim

theorem Upfront.bind {p : Prog Q R V E α} {f : α → Prog Q R V E β}
    (hp : Upfront good fine p) (hf : ∀ a, RaisesOnly good fine (f a)) :
    Upfront good fine (p >>= f) := by
  induction p with
  | ret a => exact (hf a).upfront
  | raise e => trivial
  | emit v p ih => exact ih hp
  | call q k _ => exact fun r hr => raisesOnly_bind (hp r hr) hf

/-- A run that ends in such an error has asked nothing. -/
theorem Upfront.trace_of_error {p : Prog Q R V E α} (hp : Upfront good fine p)
    (hsrv : ∀ q s, good (srv q s).1) {s s' : σ} {e : E} (h : run srv p s = (.error e, s'))
    (he : ¬ fine e) : trace srv p s = [] := by
  induction p generalizing s with
  | ret a => rfl
  | raise e' => rfl
  | emit v p ih => exact ih hp h
  | call q k _ =>
    -- behind a question only fine errors are left
    have hfine : fine e := (hp _ (hsrv q s)).run_error hsrv h
    exact absurd hfine he

end Upfront

theorem run_preserves (p : Prog Q R V E α) (I : σ → Prop)
    (hstep : ∀ q s, I s → I (srv q s).2) {s : σ} (hs : I s) : I (run srv p s).2 := by
  induction p generalizing s with
  | ret a => exact hs
  | raise e => exact hs
  | emit v p ih => exact ih hs
  | call q k ih => exact ih _ (hstep q s hs)

end Prog
end Interaction
