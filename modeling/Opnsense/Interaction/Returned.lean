import Opnsense.Interaction.Invariant

namespace Interaction

/-- Every element with `P` has one with `Q` somewhere behind it. -/
def FollowedBy {α : Type} (P Q : α → Prop) : List α → Prop
  | [] => True
  | x :: rest => (P x → ∃ y ∈ rest, Q y) ∧ FollowedBy P Q rest

section FollowedBy

variable {α : Type} {P Q : α → Prop}

@[simp] theorem followedBy_nil : FollowedBy P Q [] := trivial

@[simp] theorem followedBy_cons {x : α} {rest : List α} :
    FollowedBy P Q (x :: rest) ↔ (P x → ∃ y ∈ rest, Q y) ∧ FollowedBy P Q rest := Iff.rfl

theorem followedBy_append {l l' : List α} (h : FollowedBy P Q l) (h' : FollowedBy P Q l') :
    FollowedBy P Q (l ++ l') := by
  induction l with
  | nil => exact h'
  | cons x rest ih =>
    refine ⟨fun hx => ?_, ih h.2⟩
    obtain ⟨y, hy, hq⟩ := h.1 hx
    exact ⟨y, List.mem_append_left _ hy, hq⟩

theorem followedBy_of_forall_not {l : List α} (h : ∀ x ∈ l, ¬ P x) : FollowedBy P Q l := by
  induction l with
  | nil => trivial
  | cons x rest ih =>
    refine ⟨fun hx => absurd hx (h x (List.mem_cons_self ..)), ih fun y hy => ?_⟩
    exact h y (List.mem_cons_of_mem _ hy)

/-- The definition, with the position of the element written out. -/
theorem followedBy_iff {l : List α} :
    FollowedBy P Q l ↔ ∀ before x after, l = before ++ x :: after → P x → ∃ y ∈ after, Q y := by
  constructor
  · intro h before x after hl
    subst hl
    induction before with
    | nil => exact h.1
    | cons b before ih => exact ih h.2
  · intro h
    induction l with
    | nil => trivial
    | cons x rest ih =>
      refine ⟨h [] x rest rfl, ih fun before y after hrest => ?_⟩
      exact h (x :: before) y after (by rw [hrest, List.cons_append])

end FollowedBy

namespace Prog

variable {Q R V E F α β σ : Type} {srv : Server Q R σ} {s s' : σ} {t : List (Q × R)}

/-- `p` returns `a` from `s`, ending in `s'` after the questions `t`. -/
def Returns (srv : Server Q R σ) (p : Prog Q R V E α) (s : σ) (a : α) (s' : σ)
    (t : List (Q × R)) : Prop :=
  run srv p s = (.ok a, s') ∧ trace srv p s = t

theorem returns_of_run {p : Prog Q R V E α} {a : α} (h : run srv p s = (.ok a, s')) :
    Returns srv p s a s' (trace srv p s) :=
  ⟨h, rfl⟩

@[simp] theorem returns_ret {a b : α} :
    Returns srv (ret a : Prog Q R V E α) s b s' t ↔ b = a ∧ s' = s ∧ t = [] := by
  simp only [Returns, run_ret, trace_ret, Prod.mk.injEq, Except.ok.injEq, and_assoc]
  exact ⟨fun ⟨h, h', h''⟩ => ⟨h.symm, h'.symm, h''.symm⟩,
    fun ⟨h, h', h''⟩ => ⟨h.symm, h'.symm, h''.symm⟩⟩

@[simp] theorem returns_raise {e : E} {b : α} :
    ¬ Returns srv (raise e : Prog Q R V E α) s b s' t := by
  simp [Returns]

@[simp] theorem returns_emit {v : V} {p : Prog Q R V E α} {b : α} :
    Returns srv (emit v p) s b s' t ↔ Returns srv p s b s' t := Iff.rfl

@[simp] theorem returns_ofExcept {x : Except E α} {b : α} :
    Returns srv (ofExcept x : Prog Q R V E α) s b s' t ↔ x = .ok b ∧ s' = s ∧ t = [] := by
  cases x with
  | error e => simp [ofExcept]
  | ok a => simp [ofExcept, eq_comm]

@[simp] theorem returns_onError {p : Prog Q R V E α} {report : E → V} {b : α} :
    Returns srv (onError p report) s b s' t ↔ Returns srv p s b s' t := by
  simp [Returns]

/-- A handler that always raises again is not what returned. -/
theorem returns_of_rescue {p : Prog Q R V F α} {report : F → V} {e : F → E} {b : α}
    (h : Returns srv (rescue p fun f => emit (report f) (raise (e f))) s b s' t) :
    Returns srv p s b s' t := by
  obtain ⟨hrun, rfl⟩ := h
  rw [run_rescue] at hrun
  rw [trace_rescue]
  rcases hp : run srv p s with ⟨f | a, s₁⟩
  · simp [hp] at hrun
  · rw [hp] at hrun
    obtain ⟨rfl, rfl⟩ : a = b ∧ s₁ = s' := by simpa using hrun
    exact ⟨hp, by simp⟩

/-- A sequence returns when its parts do, one after the other. -/
theorem returns_bind {p : Prog Q R V E α} {f : α → Prog Q R V E β} {b : β} :
    Returns srv (p >>= f) s b s' t ↔
      ∃ a s₁ t₁ t₂, Returns srv p s a s₁ t₁ ∧ Returns srv (f a) s₁ b s' t₂ ∧ t = t₁ ++ t₂ := by
  constructor
  · rintro ⟨hrun, rfl⟩
    obtain ⟨a, s₁, hp, hf⟩ := run_bind_eq_ok.mp hrun
    exact ⟨a, s₁, _, _, returns_of_run hp, returns_of_run hf, trace_bind_of_ok hp f⟩
  · rintro ⟨a, s₁, _, _, ⟨hp, rfl⟩, ⟨hf, rfl⟩, rfl⟩
    exact ⟨run_bind_eq_ok.mpr ⟨a, s₁, hp, hf⟩, trace_bind_of_ok hp f⟩

/-- Two returning runs of one program from one state agree. -/
theorem Returns.unique {p : Prog Q R V E α} {a b : α} {s'' : σ} {t' : List (Q × R)}
    (h : Returns srv p s a s' t) (h' : Returns srv p s b s'' t') :
    a = b ∧ s' = s'' ∧ t = t' := by
  have hrun := h.1.symm.trans h'.1
  simp only [Prod.mk.injEq, Except.ok.injEq] at hrun
  exact ⟨hrun.1, hrun.2, h.2.symm.trans h'.2⟩

/-- What every question on the trace keeps is kept by the run, however it ends. -/
theorem run_preserves_of_trace {p : Prog Q R V E α} {allowed : Q → Prop}
    (ht : ∀ qr ∈ trace srv p s, allowed qr.1) (I : σ → Prop)
    (hstep : ∀ q s, allowed q → I s → I (srv q s).2) (hs : I s) : I (run srv p s).2 := by
  induction p generalizing s with
  | ret b => exact hs
  | raise e => exact hs
  | emit v p ih => exact ih ht hs
  | call q k ih =>
    obtain ⟨hq, htail⟩ := List.forall_mem_cons.mp ht
    exact ih _ htail (hstep q s hq hs)

theorem Returns.preserves {p : Prog Q R V E α} {a : α} {allowed : Q → Prop}
    (h : Returns srv p s a s' t) (ht : ∀ qr ∈ t, allowed qr.1) (I : σ → Prop)
    (hstep : ∀ q s, allowed q → I s → I (srv q s).2) (hs : I s) : I s' := by
  obtain ⟨hrun, rfl⟩ := h
  have hfinal := run_preserves_of_trace ht I hstep hs
  rwa [hrun] at hfinal

/-- If a `good` question establishes `I`, only a `bad` one breaks it and every bad one has a
good one behind it, then a returning run ends with `I`, provided it began with it or met a
good question at all. -/
theorem Returns.settles {p : Prog Q R V E α} {a : α} {allowed : Q → Prop}
    {bad good : Q × R → Prop} (hp : Asks allowed p) (h : Returns srv p s a s' t) (I : σ → Prop)
    (hgood : ∀ q s, allowed q → good (q, (srv q s).1) → I (srv q s).2)
    (hkeep : ∀ q s, allowed q → ¬ bad (q, (srv q s).1) → I s → I (srv q s).2)
    (hfollow : FollowedBy bad good t) (hs : I s ∨ ∃ qr ∈ t, good qr) : I s' := by
  induction p generalizing s t with
  | ret b =>
    obtain ⟨-, rfl, rfl⟩ := returns_ret.mp h
    simpa using hs
  | raise e => exact (returns_raise h).elim
  | emit v p ih => exact ih hp h hfollow hs
  | call q k ih =>
    obtain ⟨hrun, rfl⟩ := h
    obtain ⟨hhead, htail⟩ := hfollow
    refine ih _ (hp.2 _) (returns_of_run hrun) htail ?_
    by_cases hg : good (q, (srv q s).1)
    · exact Or.inl (hgood q s hp.1 hg)
    · by_cases hb : bad (q, (srv q s).1)
      · exact Or.inr (hhead hb)
      · rcases hs with hs | ⟨qr, hmem, hqr⟩
        · exact Or.inl (hkeep q s hp.1 hb hs)
        · rcases List.mem_cons.mp hmem with rfl | hmem
          · exact absurd hqr hg
          · exact Or.inr ⟨qr, hmem, hqr⟩

end Prog
end Interaction
