import Opnsense.Interaction.Prog

namespace Interaction

variable {Q R V E F α β σ : Type} {srv : Server Q R σ} {s s' : σ}

/-- The replies of a recording, one after the other. -/
def replaying (replies : ℕ → R) : Server Q R ℕ := fun _ n => (replies n, n + 1)

namespace Prog

/-- The events reported on the way. -/
def events (srv : Server Q R σ) : Prog Q R V E α → σ → List V
  | ret _, _ => []
  | raise _, _ => []
  | emit v p, s => v :: events srv p s
  | call q k, s => events srv (k (srv q s).1) (srv q s).2

@[simp] theorem events_ret (a : α) : events srv (ret a : Prog Q R V E α) s = [] := rfl
@[simp] theorem events_raise (e : E) : events srv (raise e : Prog Q R V E α) s = [] := rfl
@[simp] theorem events_emit (v : V) (p : Prog Q R V E α) :
    events srv (emit v p) s = v :: events srv p s := rfl
@[simp] theorem events_call (q : Q) (k : R → Prog Q R V E α) :
    events srv (call q k) s = events srv (k (srv q s).1) (srv q s).2 := rfl
@[simp] theorem events_tell (v : V) : events srv (tell v : Prog Q R V E Unit) s = [v] := rfl
@[simp] theorem events_ofExcept (x : Except E α) :
    events srv (ofExcept x : Prog Q R V E α) s = [] := by
  cases x <;> rfl

theorem events_bind (p : Prog Q R V E α) (f : α → Prog Q R V E β) (s : σ) :
    events srv (p >>= f) s = events srv p s ++ match run srv p s with
      | (.ok a, s') => events srv (f a) s'
      | (.error _, _) => [] := by
  induction p generalizing s with
  | ret a => rfl
  | raise e => rfl
  | emit v p ih => exact congrArg (List.cons v) (ih s)
  | call q k ih => exact ih (srv q s).1 (srv q s).2

theorem events_bind_of_ok {p : Prog Q R V E α} {a : α} (h : run srv p s = (.ok a, s'))
    (f : α → Prog Q R V E β) :
    events srv (p >>= f) s = events srv p s ++ events srv (f a) s' := by
  rw [events_bind, h]

theorem events_bind_of_error {p : Prog Q R V E α} {e : E} (h : run srv p s = (.error e, s'))
    (f : α → Prog Q R V E β) : events srv (p >>= f) s = events srv p s := by
  rw [events_bind, h, List.append_nil]

theorem events_rescue (p : Prog Q R V F α) (h : F → Prog Q R V E α) (s : σ) :
    events srv (rescue p h) s = events srv p s ++ match run srv p s with
      | (.ok _, _) => []
      | (.error e, s') => events srv (h e) s' := by
  induction p generalizing s with
  | ret a => rfl
  | raise e => rfl
  | emit v p ih => exact congrArg (List.cons v) (ih s)
  | call q k ih => exact ih (srv q s).1 (srv q s).2

theorem events_onError_of_error {p : Prog Q R V E α} {e : E} (h : run srv p s = (.error e, s'))
    (report : E → V) : events srv (onError p report) s = events srv p s ++ [report e] := by
  rw [onError, events_rescue, h]
  rfl

/-- Two programs that come to the same from `s`, and report the same on the way. -/
def Twins (srv : Server Q R σ) (s : σ) (p p' : Prog Q R V E α) : Prop :=
  run srv p s = run srv p' s ∧ events srv p s = events srv p' s

theorem Twins.refl (p : Prog Q R V E α) : Twins srv s p p := ⟨rfl, rfl⟩

/-- Twins go on as twins when what follows the value they agree on does. -/
theorem twins_bind {p p' : Prog Q R V E α} {f f' : α → Prog Q R V E β} (hp : Twins srv s p p')
    (hf : ∀ a s', run srv p s = (.ok a, s') → Twins srv s' (f a) (f' a)) :
    Twins srv s (p >>= f) (p' >>= f') := by
  obtain ⟨hrun, hevents⟩ := hp
  rcases hpa : run srv p s with ⟨e | a, s'⟩
  · have hpa' : run srv p' s = (.error e, s') := hrun ▸ hpa
    refine ⟨by rw [run_bind_of_error hpa, run_bind_of_error hpa'], ?_⟩
    rw [events_bind_of_error hpa, events_bind_of_error hpa', hevents]
  · have hpa' : run srv p' s = (.ok a, s') := hrun ▸ hpa
    obtain ⟨hrun', hevents'⟩ := hf a s' hpa
    refine ⟨by rw [run_bind_of_ok hpa, run_bind_of_ok hpa', hrun'], ?_⟩
    rw [events_bind_of_ok hpa, events_bind_of_ok hpa', hevents, hevents']

theorem twins_rescue {p p' : Prog Q R V F α} (hp : Twins srv s p p')
    (h : F → Prog Q R V E α) : Twins srv s (rescue p h) (rescue p' h) := by
  obtain ⟨hrun, hevents⟩ := hp
  exact ⟨by rw [run_rescue, run_rescue, hrun], by rw [events_rescue, events_rescue, hrun, hevents]⟩

theorem twins_onError {p p' : Prog Q R V E α} (hp : Twins srv s p p') (report : E → V) :
    Twins srv s (onError p report) (onError p' report) :=
  twins_rescue hp _

/-- A recording answers every question alike. -/
theorem twins_call (replies : ℕ → R) (n : ℕ) (q q' : Q) {k k' : R → Prog Q R V E α}
    (hk : Twins (replaying replies) (n + 1) (k (replies n)) (k' (replies n))) :
    Twins (replaying replies) n (call q k) (call q' k') := hk

end Prog
end Interaction
