import Opnsense.Interaction.Invariant

namespace Interaction
namespace Prog

variable {Q R V E F G α β σ : Type} {srv : Server Q R σ} {s s' : σ} {acts : Q → Prop}
  {failure : G → R}

/-- The questions asked on the way and the states they were asked in. -/
def visits (srv : Server Q R σ) : Prog Q R V E α → σ → List (Q × σ)
  | ret _, _ => []
  | raise _, _ => []
  | emit _ p, s => visits srv p s
  | call q k, s => (q, s) :: visits srv (k (srv q s).1) (srv q s).2

theorem visits_bind (p : Prog Q R V E α) (f : α → Prog Q R V E β) (s : σ) :
    visits srv (p >>= f) s = visits srv p s ++ match run srv p s with
      | (.ok a, s') => visits srv (f a) s'
      | (.error _, _) => [] := by
  induction p generalizing s with
  | ret a => rfl
  | raise e => rfl
  | emit v p ih => exact ih s
  | call q k ih => exact congrArg (List.cons (q, s)) (ih (srv q s).1 (srv q s).2)

theorem visits_rescue (p : Prog Q R V F α) (h : F → Prog Q R V E α) (s : σ) :
    visits srv (rescue p h) s = visits srv p s ++ match run srv p s with
      | (.ok _, _) => []
      | (.error e, s') => visits srv (h e) s' := by
  induction p generalizing s with
  | ret a => rfl
  | raise e => rfl
  | emit v p ih => exact ih s
  | call q k ih => exact congrArg (List.cons (q, s)) (ih (srv q s).1 (srv q s).2)

theorem visits_onError (p : Prog Q R V E α) (report : E → V) (s : σ) :
    visits srv (onError p report) s = visits srv p s := by
  rw [onError, visits_rescue]
  rcases run srv p s with ⟨a | a, s'⟩ <;> exact List.append_nil _

/-- A question of a sequence was asked by the first program, or by the second after the
first returned. -/
theorem mem_visits_bind {p : Prog Q R V E α} {f : α → Prog Q R V E β} {qs : Q × σ}
    (h : qs ∈ visits srv (p >>= f) s) : qs ∈ visits srv p s ∨
      ∃ a s', run srv p s = (.ok a, s') ∧ qs ∈ visits srv (f a) s' := by
  rw [visits_bind] at h
  rcases List.mem_append.mp h with h | h
  · exact Or.inl h
  · rcases hp : run srv p s with ⟨e | a, s'⟩
    · rw [hp] at h
      cases h
    · rw [hp] at h
      exact Or.inr ⟨a, s', rfl, h⟩

theorem Asks.of_mem_visits {allowed : Q → Prop} {p : Prog Q R V E α} (hp : Asks allowed p)
    {qs : Q × σ} (h : qs ∈ visits srv p s) : allowed qs.1 := by
  induction p generalizing s with
  | ret a => cases h
  | raise e => cases h
  | emit v p ih => exact ih hp h
  | call q k ih =>
    rcases List.mem_cons.mp h with rfl | h
    · exact hp.1
    · exact ih _ (hp.2 _) h

/-- Without another question the program raises `e`. -/
def Raises (e : E) : Prog Q R V E α → Prop
  | ret _ => False
  | raise e' => e' = e
  | emit _ p => Raises e p
  | call _ _ => False

/-- An error in the reply to a question of `acts` is raised, as `f` makes of it. -/
def Relays (acts : Q → Prop) (failure : G → R) (f : G → E) : Prog Q R V E α → Prop
  | ret _ => True
  | raise _ => True
  | emit _ p => Relays acts failure f p
  | call q k => (∀ r, Relays acts failure f (k r)) ∧
      (acts q → ∀ e, Raises (f e) (k (failure e)))

theorem Raises.run_eq {p : Prog Q R V E α} {e : E} (hp : Raises e p) :
    run srv p s = (.error e, s) := by
  induction p with
  | ret a => exact hp.elim
  | raise e' => rw [show e' = e from hp, run_raise]
  | emit v p ih => exact ih hp
  | call q k => exact hp.elim

theorem raises_bind {p : Prog Q R V E α} {e : E} (hp : Raises e p) (f : α → Prog Q R V E β) :
    Raises e (p >>= f) := by
  induction p with
  | ret a => exact hp.elim
  | raise e' => exact hp
  | emit v p ih => exact ih hp
  | call q k => exact hp.elim

theorem raises_rescue {p : Prog Q R V F α} {h : F → Prog Q R V E α} {g : F → E} {e : F}
    (hp : Raises e p) (hh : ∀ e, Raises (g e) (h e)) : Raises (g e) (rescue p h) := by
  induction p with
  | ret a => exact hp.elim
  | raise e' =>
    obtain rfl : e' = e := hp
    exact hh e'
  | emit v p ih => exact ih hp
  | call q k => exact hp.elim

variable {f : G → E}

/-- A program without such a question has nothing to relay. -/
theorem relays_of_asks {p : Prog Q R V E α} (hp : Asks (fun q => ¬ acts q) p) :
    Relays acts failure f p := by
  induction p with
  | ret a => trivial
  | raise e => trivial
  | emit v p ih => exact ih hp
  | call q k ih => exact ⟨fun r => ih r (hp.2 r), fun hq => absurd hq hp.1⟩

theorem relays_ofExcept (x : Except E α) :
    Relays acts failure f (ofExcept x : Prog Q R V E α) := by
  cases x <;> trivial

theorem relays_bind {p : Prog Q R V E α} {k : α → Prog Q R V E β} (hp : Relays acts failure f p)
    (hk : ∀ a, Relays acts failure f (k a)) : Relays acts failure f (p >>= k) := by
  induction p with
  | ret a => exact hk a
  | raise e => trivial
  | emit v p ih => exact ih hp
  | call q k' ih =>
    exact ⟨fun r => ih r (hp.1 r), fun hq e => raises_bind (hp.2 hq e) k⟩

theorem relays_rescue {p : Prog Q R V F α} {h : F → Prog Q R V E α} {g : F → E} {f : G → F}
    (hp : Relays acts failure f p) (hh : ∀ e, Raises (g e) (h e)) :
    Relays acts failure (fun e => g (f e)) (rescue p h) := by
  -- a handler that raises asks nothing, so it has nothing to relay itself
  have hrelays : ∀ e, Relays acts failure (fun e => g (f e)) (h e) := by
    intro e
    have hraises := hh e
    generalize h e = q at hraises
    induction q with
    | ret a => trivial
    | raise e => trivial
    | emit v q ih => exact ih hraises
    | call q k => exact hraises.elim
  induction p with
  | ret a => trivial
  | raise e => exact hrelays e
  | emit v p ih => exact ih hp
  | call q k ih => exact ⟨fun r => ih r (hp.1 r), fun hq e => raises_rescue (hp.2 hq e) hh⟩

theorem relays_onError {p : Prog Q R V E α} (hp : Relays acts failure f p) (report : E → V) :
    Relays acts failure f (onError p report) :=
  relays_rescue (g := fun e => e) hp fun _ => rfl

/-- A run in which such a question failed ended with what is made of the error. -/
theorem Relays.run_error {p : Prog Q R V E α} (hp : Relays acts failure f p) {q : Q} {e : G}
    (hvisit : (q, s') ∈ visits srv p s) (hq : acts q) (hreply : (srv q s').1 = failure e) :
    (run srv p s).1 = .error (f e) := by
  induction p generalizing s with
  | ret a => cases hvisit
  | raise e' => cases hvisit
  | emit v p ih => exact ih hp hvisit
  | call q' k ih =>
    -- the question that failed is this one, or one of those behind its reply
    rcases List.mem_cons.mp hvisit with heq | hvisit
    · cases heq
      rw [run_call, hreply, (hp.2 hq e).run_eq]
    · exact ih _ (hp.1 _) hvisit

end Prog
end Interaction
