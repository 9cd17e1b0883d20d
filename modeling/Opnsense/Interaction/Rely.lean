import Opnsense.Interaction.Faults
import Opnsense.Interaction.Interleave

/-! Programs that share a server. A client promises what each of its questions makes of the
state and relies on what the questions of the others make of it in between; what it comes
to under that reliance it comes to in every order of turns. -/
namespace Interaction

variable {ι Q R V E F G α β σ : Type}

/-- What the others may do leaves `P` standing. -/
def Stable (rely : σ → σ → Prop) (P : σ → Prop) : Prop := ∀ s s', rely s s' → P s → P s'

namespace Prog

/-- Begun where `pre` holds, `p` keeps its promise with every question and ends where `post`
holds, whatever the others do between its questions. -/
def Secures (srv : Server Q R σ) (rely guar : σ → σ → Prop) (post : Except E α → σ → Prop) :
    Prog Q R V E α → (σ → Prop) → Prop
  | ret a, pre => ∀ s, pre s → post (.ok a) s
  | raise e, pre => ∀ s, pre s → post (.error e) s
  | emit _ p, pre => Secures srv rely guar post p pre
  | call q k, pre => ∃ mid : R → σ → Prop, (∀ r, Stable rely (mid r)) ∧
      (∀ s, pre s → guar s (srv q s).2 ∧ mid (srv q s).1 (srv q s).2) ∧
      ∀ r, Secures srv rely guar post (k r) (mid r)

variable {srv : Server Q R σ} {rely guar : σ → σ → Prop} {pre pre' : σ → Prop}
  {post post' : Except E α → σ → Prop}

theorem secures_mono {p : Prog Q R V E α} (h : Secures srv rely guar post p pre)
    (hpre : ∀ s, pre' s → pre s) (hpost : ∀ o s, post o s → post' o s) :
    Secures srv rely guar post' p pre' := by
  induction p generalizing pre pre' with
  | ret a => exact fun s hs => hpost _ s (h s (hpre s hs))
  | raise e => exact fun s hs => hpost _ s (h s (hpre s hs))
  | emit v p ih => exact ih h hpre
  | call q k ih =>
    obtain ⟨mid, hstable, hq, hk⟩ := h
    exact ⟨mid, hstable, fun s hs => hq s (hpre s hs), fun r => ih r (hk r) fun _ hs => hs⟩

theorem secures_ofExcept {x : Except E α} (h : ∀ s, pre s → post x s) :
    Secures srv rely guar post (ofExcept x : Prog Q R V E α) pre := by
  cases x with
  | error e => exact h
  | ok a => exact h

/-- The second program takes over where the first returned. -/
theorem secures_bind {p : Prog Q R V E β} {f : β → Prog Q R V E α}
    (mid : Except E β → σ → Prop) (hp : Secures srv rely guar mid p pre)
    (hok : ∀ b, Secures srv rely guar post (f b) (mid (.ok b)))
    (herr : ∀ e s, mid (.error e) s → post (.error e) s) :
    Secures srv rely guar post (p >>= f) pre := by
  induction p generalizing pre with
  | ret b => exact secures_mono (hok b) hp fun _ _ h => h
  | raise e => exact fun s hs => herr e s (hp s hs)
  | emit v p ih => exact ih hp
  | call q k ih =>
    obtain ⟨after, hstable, hq, hk⟩ := hp
    exact ⟨after, hstable, hq, fun r => ih r (hk r)⟩

/-- The handler takes over where the program failed. -/
theorem secures_rescue {p : Prog Q R V F α} {handler : F → Prog Q R V E α}
    {mid : Except F α → σ → Prop} (hp : Secures srv rely guar mid p pre)
    (hok : ∀ a s, mid (.ok a) s → post (.ok a) s)
    (herr : ∀ e, Secures srv rely guar post (handler e) (mid (.error e))) :
    Secures srv rely guar post (rescue p handler) pre := by
  induction p generalizing pre with
  | ret a => exact fun s hs => hok a s (hp s hs)
  | raise e => exact secures_mono (herr e) hp fun _ _ h => h
  | emit v p ih => exact ih hp
  | call q k ih =>
    obtain ⟨after, hstable, hq, hk⟩ := hp
    exact ⟨after, hstable, hq, fun r => ih r (hk r)⟩

theorem secures_onError {p : Prog Q R V E α} {report : E → V}
    (hp : Secures srv rely guar post p pre) : Secures srv rely guar post (onError p report) pre :=
  secures_rescue hp (fun _ _ h => h) fun _ _ h => h

/-- A choice known from the precondition. -/
theorem secures_of_forall {p : Prog Q R V E α} (φ : Prop) (hφ : ∀ s, pre s → φ)
    (h : φ → Secures srv rely guar post p pre) : Secures srv rely guar post p pre := by
  by_cases hyp : φ
  · exact h hyp
  · -- nothing begins here
    have hnone : ∀ s, ¬ pre s := fun s hs => hyp (hφ s hs)
    clear h
    induction p generalizing pre with
    | ret a => exact fun s hs => absurd hs (hnone s)
    | raise e => exact fun s hs => absurd hs (hnone s)
    | emit v p ih => exact ih hφ hnone
    | call q k ih =>
      exact ⟨fun _ _ => False, fun _ _ _ _ hs => hs, fun s hs => absurd hs (hnone s),
        fun r => ih r (fun _ hs => hs.elim) fun _ hs => hs⟩

/-- A program is secured from every state of a union if it is from each part. -/
theorem secures_exists {κ : Type} {p : Prog Q R V E α} {pres : κ → σ → Prop}
    (h : ∀ x, Secures srv rely guar post p (pres x)) :
    Secures srv rely guar post p fun s => ∃ x, pres x s := by
  induction p generalizing pres with
  | ret a => exact fun s ⟨x, hs⟩ => h x s hs
  | raise e => exact fun s ⟨x, hs⟩ => h x s hs
  | emit v p ih => exact ih h
  | call q k ih =>
    choose mid hstable hq hk using h
    refine ⟨fun r s => ∃ x, mid x r s, ?_, ?_, fun r => ih r fun x => hk x r⟩
    · rintro r s s' hrely ⟨x, hs⟩
      exact ⟨x, hstable x r s s' hrely hs⟩
    · rintro s ⟨x, hs⟩
      exact ⟨(hq x s hs).1, x, (hq x s hs).2⟩

/-- A program whose questions all keep what the others do not break. -/
theorem secures_of_asks {allowed : Q → Prop} {p : Prog Q R V E α} (hp : Asks allowed p)
    (hstable : Stable rely pre)
    (hstep : ∀ q s, allowed q → pre s → guar s (srv q s).2 ∧ pre (srv q s).2) :
    Secures srv rely guar (fun _ => pre) p pre := by
  induction p with
  | ret a => exact fun _ hs => hs
  | raise e => exact fun _ hs => hs
  | emit v p ih => exact ih hp
  | call q k ih =>
    exact ⟨fun _ => pre, fun _ => hstable, fun s hs => hstep q s hp.1 hs, fun r => ih r (hp.2 r)⟩

/-- What a client has secured before its next question. -/
theorem Secures.done {p : Prog Q R V E α} (h : Secures srv rely guar post p pre)
    {o : Except E α} (hnext : p.next = .inl o) {s : σ} (hs : pre s) : post o s := by
  induction p generalizing pre with
  | ret a =>
    cases hnext
    exact h s hs
  | raise e =>
    cases hnext
    exact h s hs
  | emit v p ih => exact ih h hnext hs
  | call q k => cases hnext

/-- What it promises of its next question, and has secured behind it. -/
theorem Secures.asked {p : Prog Q R V E α} (h : Secures srv rely guar post p pre) {q : Q}
    {k : R → Prog Q R V E α} (hnext : p.next = .inr (q, k)) {s : σ} (hs : pre s) :
    guar s (srv q s).2 ∧ ∃ pre', Stable rely pre' ∧ pre' (srv q s).2 ∧
      Secures srv rely guar post (k (srv q s).1) pre' := by
  induction p generalizing pre with
  | ret a => cases hnext
  | raise e => cases hnext
  | emit v p ih => exact ih h hnext hs
  | call q' k' =>
    cases hnext
    obtain ⟨mid, hstable, hq, hk⟩ := h
    exact ⟨(hq s hs).1, _, hstable _, (hq s hs).2, hk _⟩

end Prog

namespace Pool
open Prog

variable [DecidableEq ι] {srv : Server Q R σ} {rely guar : ι → σ → σ → Prop}
  {post : ι → Except E α → σ → Prop}

/-- Every client has secured its outcome from the state as it is. -/
def Secured (srv : Server Q R σ) (rely guar : ι → σ → σ → Prop)
    (post : ι → Except E α → σ → Prop) (c : Pool ι Q R V E α σ) : Prop :=
  ∀ i, ∃ pre, Stable (rely i) pre ∧ pre c.state ∧
    Secures srv (rely i) (guar i) (post i) (c.progs i) pre

/-- The promise of one client is what the others rely on, so a turn takes nothing from them. -/
theorem Secured.answer (hcompat : ∀ i j, i ≠ j → ∀ s s', guar i s s' → rely j s s')
    {c : Pool ι Q R V E α σ} (h : c.Secured srv rely guar post) {i : ι} {q : Q}
    {k : R → Prog Q R V E α} (hnext : (c.progs i).next = .inr (q, k)) :
    guar i c.state (srv q c.state).2 ∧ (c.answer srv i q k).Secured srv rely guar post := by
  obtain ⟨pre, -, hpre, hsec⟩ := h i
  obtain ⟨hguar, pre', hstable', hpre', hsec'⟩ := hsec.asked hnext hpre
  refine ⟨hguar, fun j => ?_⟩
  by_cases hji : j = i
  · subst hji
    refine ⟨pre', hstable', hpre', ?_⟩
    rw [answer_progs_self]
    exact hsec'
  · obtain ⟨pre'', hstable'', hpre'', hsec''⟩ := h j
    refine ⟨pre'', hstable'', ?_, ?_⟩
    · exact hstable'' _ _ (hcompat i j (Ne.symm hji) _ _ hguar) hpre''
    · rw [answer_progs_of_ne hji]
      exact hsec''

/-- In every order of turns each client comes to what it has secured, and what no promise
breaks holds in the end. -/
theorem Secured.in_every_order (hcompat : ∀ i j, i ≠ j → ∀ s s', guar i s s' → rely j s s')
    {c : Pool ι Q R V E α σ} (h : c.Secured srv rely guar post) (J : σ → Prop)
    (hJ : ∀ i s s', guar i s s' → J s → J s') (hc : J c.state) (turns : List ι) :
    J (schedule srv turns c).state ∧
      ∀ i o, ((schedule srv turns c).progs i).next = .inl o →
        post i o (schedule srv turns c).state := by
  have hend : J (schedule srv turns c).state ∧
      (schedule srv turns c).Secured srv rely guar post := by
    refine schedule_invariant (fun c => J c.state ∧ c.Secured srv rely guar post)
      ?_ turns ⟨hc, h⟩
    rintro c i q k ⟨hc, h⟩ hnext
    obtain ⟨hguar, hsec⟩ := h.answer hcompat hnext
    exact ⟨hJ i _ _ hguar hc, hsec⟩
  refine ⟨hend.1, fun i o hnext => ?_⟩
  obtain ⟨pre, -, hpre, hsec⟩ := hend.2 i
  exact hsec.done hnext hpre

end Pool

section Faulty
open Prog

variable {srv : Server Q R σ} {failure : G → R}

/-- No question that is left will fail. -/
def Calm (s : σ × List (Fault G)) : Prop := ∀ f ∈ s.2, f = .served

/-- A question to a server with faults: answered, or failed with the state as it was or moved,
and it does not fail in the calm. -/
theorem faulty_calm (q : Q) (s : σ × List (Fault G)) :
    (Calm s → Calm (faulty failure srv q s).2) ∧
      ((faulty failure srv q s).1 = (srv q s.1).1 ∧ (faulty failure srv q s).2.1 = (srv q s.1).2 ∨
        ¬ Calm s ∧ ∃ e, (faulty failure srv q s).1 = failure e ∧
          ((faulty failure srv q s).2.1 = s.1 ∨ (faulty failure srv q s).2.1 = (srv q s.1).2)) := by
  obtain ⟨s, fs⟩ := s
  rcases fs with _ | ⟨f, fs⟩
  · exact ⟨fun h => h, Or.inl ⟨rfl, rfl⟩⟩
  · have htail : Calm (s, f :: fs) → ∀ g ∈ fs, g = .served :=
      fun h g hg => h g (List.mem_cons_of_mem _ hg)
    cases f with
    | served => exact ⟨htail, Or.inl ⟨rfl, rfl⟩⟩
    | lost e =>
      refine ⟨htail, Or.inr ⟨fun h => ?_, e, rfl, Or.inl rfl⟩⟩
      cases h _ (List.mem_cons_self ..)
    | cut e =>
      refine ⟨htail, Or.inr ⟨fun h => ?_, e, rfl, Or.inr rfl⟩⟩
      cases h _ (List.mem_cons_self ..)

end Faulty
end Interaction
