import Mathlib.Tactic.Common

/-! Programs that question a server one call at a time. A program is a tree: it
ends with a value or an error, reports an event, or asks a question and goes on
with the reply. Every server, every reply sequence and every failure is a way of
walking that tree. -/
namespace Interaction

/-- Questions `Q`, replies `R`, reported events `V`, errors `E`. -/
inductive Prog (Q R V E α : Type) where
  | ret (a : α)
  | raise (e : E)
  | emit (v : V) (next : Prog Q R V E α)
  | call (q : Q) (next : R → Prog Q R V E α)

/-- A server answers a question from its state and moves to the next state. -/
abbrev Server (Q R σ : Type) := Q → σ → R × σ

variable {Q R V E F α β γ σ τ : Type}

namespace Prog

def bind : Prog Q R V E α → (α → Prog Q R V E β) → Prog Q R V E β
  | ret a, f => f a
  | raise e, _ => raise e
  | emit v p, f => emit v (bind p f)
  | call q k, f => call q (fun r => bind (k r) f)

instance : Monad (Prog Q R V E) where
  pure := ret
  bind := bind

@[simp] theorem pure_eq_ret (a : α) : (pure a : Prog Q R V E α) = ret a := rfl
@[simp] theorem ret_bind (a : α) (f : α → Prog Q R V E β) : ret a >>= f = f a := rfl
@[simp] theorem raise_bind (e : E) (f : α → Prog Q R V E β) : raise e >>= f = raise e := rfl
@[simp] theorem emit_bind (v : V) (p : Prog Q R V E α) (f : α → Prog Q R V E β) :
    emit v p >>= f = emit v (p >>= f) := rfl
@[simp] theorem call_bind (q : Q) (k : R → Prog Q R V E α) (f : α → Prog Q R V E β) :
    call q k >>= f = call q (fun r => k r >>= f) := rfl

theorem bind_ret_eq (p : Prog Q R V E α) : p >>= ret = p := by
  change bind p ret = p
  induction p with
  | ret a => rfl
  | raise e => rfl
  | emit v p ih => exact congrArg (emit v) ih
  | call q k ih => exact congrArg (call q) (funext ih)

theorem bind_bind_eq (p : Prog Q R V E α) (f : α → Prog Q R V E β) (g : β → Prog Q R V E γ) :
    p >>= f >>= g = p >>= fun a => f a >>= g := by
  change bind (bind p f) g = bind p (fun a => bind (f a) g)
  induction p with
  | ret a => rfl
  | raise e => rfl
  | emit v p ih => exact congrArg (emit v) ih
  | call q k ih => exact congrArg (call q) (funext ih)

instance : LawfulMonad (Prog Q R V E) :=
  LawfulMonad.mk' _ bind_ret_eq (fun _ _ => rfl) bind_bind_eq

/-- Ask one question and return the reply as it is. -/
def ask (q : Q) : Prog Q R V E R := call q ret

def tell (v : V) : Prog Q R V E Unit := emit v (ret ())

def ofExcept : Except E α → Prog Q R V E α
  | .ok a => ret a
  | .error e => raise e

/-- One exception-raising computation behind another is one. -/
theorem ofExcept_bind_ofExcept (x : Except E α) (f : α → Except E β) :
    (ofExcept x >>= fun a => (ofExcept (f a) : Prog Q R V E β)) = ofExcept (x >>= f) := by
  cases x <;> rfl

/-- Hand the error of `p`, of whatever type, to `h`. -/
def rescue : Prog Q R V F α → (F → Prog Q R V E α) → Prog Q R V E α
  | ret a, _ => ret a
  | raise e, h => h e
  | emit v p, h => emit v (rescue p h)
  | call q k, h => call q (fun r => rescue (k r) h)

/-- Report the error of `p` and raise it again. -/
def onError (p : Prog Q R V E α) (report : E → V) : Prog Q R V E α :=
  rescue p (fun e => emit (report e) (raise e))

/-- Run `p` against a server. Events do not reach the server. -/
def run (srv : Server Q R σ) : Prog Q R V E α → σ → Except E α × σ
  | ret a, s => (.ok a, s)
  | raise e, s => (.error e, s)
  | emit _ p, s => run srv p s
  | call q k, s => run srv (k (srv q s).1) (srv q s).2

/-- The questions asked on the way and the replies they got. -/
def trace (srv : Server Q R σ) : Prog Q R V E α → σ → List (Q × R)
  | ret _, _ => []
  | raise _, _ => []
  | emit _ p, s => trace srv p s
  | call q k, s => (q, (srv q s).1) :: trace srv (k (srv q s).1) (srv q s).2

variable {srv : Server Q R σ} {s s' s'' : σ}

@[simp] theorem run_ret (a : α) : run srv (ret a : Prog Q R V E α) s = (.ok a, s) := rfl
@[simp] theorem run_raise (e : E) : run srv (raise e : Prog Q R V E α) s = (.error e, s) := rfl
@[simp] theorem run_emit (v : V) (p : Prog Q R V E α) : run srv (emit v p) s = run srv p s := rfl
@[simp] theorem run_call (q : Q) (k : R → Prog Q R V E α) :
    run srv (call q k) s = run srv (k (srv q s).1) (srv q s).2 := rfl
@[simp] theorem run_ask (q : Q) :
    run srv (ask q : Prog Q R V E R) s = (.ok (srv q s).1, (srv q s).2) := rfl
@[simp] theorem run_tell (v : V) : run srv (tell v : Prog Q R V E Unit) s = (.ok (), s) := rfl
@[simp] theorem run_ofExcept (x : Except E α) :
    run srv (ofExcept x : Prog Q R V E α) s = (x, s) := by
  cases x <;> rfl

@[simp] theorem trace_ret (a : α) : trace srv (ret a : Prog Q R V E α) s = [] := rfl
@[simp] theorem trace_raise (e : E) : trace srv (raise e : Prog Q R V E α) s = [] := rfl
@[simp] theorem trace_emit (v : V) (p : Prog Q R V E α) :
    trace srv (emit v p) s = trace srv p s := rfl
@[simp] theorem trace_call (q : Q) (k : R → Prog Q R V E α) :
    trace srv (call q k) s =
      (q, (srv q s).1) :: trace srv (k (srv q s).1) (srv q s).2 := rfl
@[simp] theorem trace_ask (q : Q) :
    trace srv (ask q : Prog Q R V E R) s = [(q, (srv q s).1)] := rfl
@[simp] theorem trace_tell (v : V) : trace srv (tell v : Prog Q R V E Unit) s = [] := rfl
@[simp] theorem trace_ofExcept (x : Except E α) :
    trace srv (ofExcept x : Prog Q R V E α) s = [] := by
  cases x <;> rfl

/-- Sequencing runs the second program only after the first returned. -/
theorem run_bind (p : Prog Q R V E α) (f : α → Prog Q R V E β) (s : σ) :
    run srv (p >>= f) s = match run srv p s with
      | (.ok a, s') => run srv (f a) s'
      | (.error e, s') => (.error e, s') := by
  induction p generalizing s with
  | ret a => rfl
  | raise e => rfl
  | emit v p ih => exact ih s
  | call q k ih => exact ih (srv q s).1 (srv q s).2

theorem trace_bind (p : Prog Q R V E α) (f : α → Prog Q R V E β) (s : σ) :
    trace srv (p >>= f) s = trace srv p s ++ match run srv p s with
      | (.ok a, s') => trace srv (f a) s'
      | (.error _, _) => [] := by
  induction p generalizing s with
  | ret a => rfl
  | raise e => rfl
  | emit v p ih => exact ih s
  | call q k ih => exact congrArg (List.cons (q, (srv q s).1)) (ih (srv q s).1 (srv q s).2)

theorem run_bind_of_ok {p : Prog Q R V E α} {a : α} (h : run srv p s = (.ok a, s'))
    (f : α → Prog Q R V E β) : run srv (p >>= f) s = run srv (f a) s' := by
  rw [run_bind, h]

theorem run_bind_of_error {p : Prog Q R V E α} {e : E} (h : run srv p s = (.error e, s'))
    (f : α → Prog Q R V E β) : run srv (p >>= f) s = (.error e, s') := by
  rw [run_bind, h]

theorem trace_bind_of_ok {p : Prog Q R V E α} {a : α} (h : run srv p s = (.ok a, s'))
    (f : α → Prog Q R V E β) :
    trace srv (p >>= f) s = trace srv p s ++ trace srv (f a) s' := by
  rw [trace_bind, h]

theorem trace_bind_of_error {p : Prog Q R V E α} {e : E} (h : run srv p s = (.error e, s'))
    (f : α → Prog Q R V E β) : trace srv (p >>= f) s = trace srv p s := by
  rw [trace_bind, h, List.append_nil]

theorem trace_bind_of_quiet {p : Prog Q R V E α} {f : α → Prog Q R V E β}
    (hquiet : ∀ a s, trace srv (f a) s = []) (s : σ) : trace srv (p >>= f) s = trace srv p s := by
  rw [trace_bind]
  split
  · rw [hquiet, List.append_nil]
  · exact List.append_nil _

/-- Every reply on a trace was given by the server, in some state. -/
theorem reply_of_mem_trace {p : Prog Q R V E α} {qr : Q × R} (h : qr ∈ trace srv p s) :
    ∃ s', qr.2 = (srv qr.1 s').1 := by
  induction p generalizing s with
  | ret a => cases h
  | raise e => cases h
  | emit v p ih => exact ih h
  | call q k ih =>
    rcases List.mem_cons.mp h with rfl | h
    · exact ⟨s, rfl⟩
    · exact ih _ h

/-- A question of a sequence was asked by the first program, or by the second after the
first returned. -/
theorem mem_trace_bind {p : Prog Q R V E α} {f : α → Prog Q R V E β} {qr : Q × R}
    (h : qr ∈ trace srv (p >>= f) s) :
    qr ∈ trace srv p s ∨ ∃ a s', run srv p s = (.ok a, s') ∧ qr ∈ trace srv (f a) s' := by
  rcases hp : run srv p s with ⟨e | a, s'⟩
  · rw [trace_bind_of_error hp] at h
    exact Or.inl h
  · rw [trace_bind_of_ok hp] at h
    rcases List.mem_append.mp h with h | h
    · exact Or.inl h
    · exact Or.inr ⟨a, s', rfl, h⟩

/-- A sequence that returned: the first program returned, then the second did. -/
theorem run_bind_eq_ok {p : Prog Q R V E α} {f : α → Prog Q R V E β} {b : β} :
    run srv (p >>= f) s = (.ok b, s'') ↔
      ∃ a s', run srv p s = (.ok a, s') ∧ run srv (f a) s' = (.ok b, s'') := by
  constructor
  · intro h
    rcases hp : run srv p s with ⟨a | a, s'⟩
    · rw [run_bind_of_error hp] at h
      cases h
    · exact ⟨a, s', rfl, by rwa [run_bind_of_ok hp] at h⟩
  · rintro ⟨a, s', hp, hf⟩
    rw [run_bind_of_ok hp, hf]

/-- A sequence that raised: the first program did, or it returned and the second did. -/
theorem run_bind_eq_error {p : Prog Q R V E α} {f : α → Prog Q R V E β} {e : E} :
    run srv (p >>= f) s = (.error e, s'') ↔
      run srv p s = (.error e, s'') ∨
        ∃ a s', run srv p s = (.ok a, s') ∧ run srv (f a) s' = (.error e, s'') := by
  rcases hp : run srv p s with ⟨a | a, s'⟩
  · rw [run_bind_of_error hp]
    simp
  · rw [run_bind_of_ok hp]
    simp

theorem run_rescue (p : Prog Q R V F α) (h : F → Prog Q R V E α) (s : σ) :
    run srv (rescue p h) s = match run srv p s with
      | (.ok a, s') => (.ok a, s')
      | (.error e, s') => run srv (h e) s' := by
  induction p generalizing s with
  | ret a => rfl
  | raise e => rfl
  | emit v p ih => exact ih s
  | call q k ih => exact ih (srv q s).1 (srv q s).2

theorem trace_rescue (p : Prog Q R V F α) (h : F → Prog Q R V E α) (s : σ) :
    trace srv (rescue p h) s = trace srv p s ++ match run srv p s with
      | (.ok _, _) => []
      | (.error e, s') => trace srv (h e) s' := by
  induction p generalizing s with
  | ret a => rfl
  | raise e => rfl
  | emit v p ih => exact ih s
  | call q k ih => exact congrArg (List.cons (q, (srv q s).1)) (ih (srv q s).1 (srv q s).2)

/-- Reporting an error changes neither the outcome nor the state. -/
@[simp] theorem run_onError (p : Prog Q R V E α) (report : E → V) (s : σ) :
    run srv (onError p report) s = run srv p s := by
  rw [onError, run_rescue]
  rcases run srv p s with ⟨a | a, s'⟩ <;> rfl

@[simp] theorem trace_onError (p : Prog Q R V E α) (report : E → V) (s : σ) :
    trace srv (onError p report) s = trace srv p s := by
  rw [onError, trace_rescue]
  rcases run srv p s with ⟨a | a, s'⟩ <;> simp

end Prog
end Interaction
