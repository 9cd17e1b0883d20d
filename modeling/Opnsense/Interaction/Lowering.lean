import Opnsense.Interaction.Layers
import Opnsense.Interaction.Rely
import Opnsense.Interaction.Retry

namespace Interaction
namespace Prog

variable {Q Q' R R' V E F α β σ τ : Type}

/-- The program puts one question, again as long as the reply calls for it, and is over with
the first reply that does not; a value it returns was read off its last reply. -/
def Resends (q : Q) (again : R → Bool) (read : R → α → Prop) : Prog Q R V E α → Prop
  | ret _ => False
  | raise _ => False
  | emit _ p => Resends q again read p
  | call q' k => q' = q ∧ ∀ r, (again r = true ∧ Resends q again read (k r)) ∨
      ∃ o, (k r).outcome = some o ∧ ∀ a, o = .ok a → read r a

section Resends

variable {q : Q} {again : R → Bool} {read : R → α → Prop}

theorem resends_foldr_emit {vs : List V} {p : Prog Q R V E α} :
    Resends q again read (vs.foldr emit p) ↔ Resends q again read p := by
  induction vs with
  | nil => rfl
  | cons v vs ih => exact ih

theorem resends_mono {read' : R → α → Prop} {p : Prog Q R V E α}
    (h : Resends q again read p) (hread : ∀ r a, read r a → read' r a) :
    Resends q again read' p := by
  induction p with
  | ret a => exact h
  | raise e => exact h
  | emit v p ih => exact ih h
  | call q' k ih =>
    refine ⟨h.1, fun r => (h.2 r).imp (fun hr => ⟨hr.1, ih r hr.2⟩) ?_⟩
    rintro ⟨o, ho, hok⟩
    exact ⟨o, ho, fun a ha => hread r a (hok a ha)⟩

/-- What decodes the value asks nothing, and reads it off the same reply. -/
theorem resends_bind {read : R → β → Prop} {read' : R → α → Prop} {p : Prog Q R V E β}
    {f : β → Prog Q R V E α} (h : Resends q again read p)
    (hf : ∀ r b, read r b → ∃ o, (f b).outcome = some o ∧ ∀ a, o = .ok a → read' r a) :
    Resends q again read' (p >>= f) := by
  induction p with
  | ret b => exact h.elim
  | raise e => exact h.elim
  | emit v p ih => exact ih h
  | call q' k ih =>
    refine ⟨h.1, fun r => (h.2 r).imp (fun hr => ⟨hr.1, ih r hr.2⟩) ?_⟩
    rintro ⟨o, ho, hok⟩
    change ∃ o', (k r >>= f).outcome = some o' ∧ _
    cases o with
    | ok b =>
      rw [outcome_bind_of_ok ho]
      exact hf r b (hok b rfl)
    | error e =>
      rw [outcome_bind_of_error ho]
      exact ⟨_, rfl, fun a ha => by cases ha⟩

/-- A handler that only raises. -/
theorem resends_rescue {p : Prog Q R V F α} {handler : F → Prog Q R V E α}
    (h : Resends q again read p) (hh : ∀ e, ∃ e', (handler e).outcome = some (.error e')) :
    Resends q again read (rescue p handler) := by
  induction p with
  | ret b => exact h.elim
  | raise e => exact h.elim
  | emit v p ih => exact ih h
  | call q' k ih =>
    refine ⟨h.1, fun r => (h.2 r).imp (fun hr => ⟨hr.1, ih r hr.2⟩) ?_⟩
    rintro ⟨o, ho, hok⟩
    change ∃ o', (rescue (k r) handler).outcome = some o' ∧ _
    cases o with
    | ok a =>
      rw [outcome_rescue_of_ok ho]
      exact ⟨_, rfl, fun a' ha => hok a' (congrArg Except.ok (Except.ok.inj ha))⟩
    | error e =>
      obtain ⟨e', he'⟩ := hh e
      rw [outcome_rescue_of_error ho, he']
      exact ⟨_, rfl, fun a ha => by cases ha⟩

theorem resends_retry {report : List R → R → List V} {finish : List R → R → Prog Q R V E α}
    (hfinish : ∀ earlier r, ∃ o, (finish earlier r).outcome = some o ∧
      ∀ a, o = .ok a → read r a) (left : ℕ) (earlier : List R) :
    Resends q again read (retry q again report finish left earlier) := by
  induction left generalizing earlier with
  | zero => exact ⟨rfl, fun r => Or.inr (hfinish earlier r)⟩
  | succ left ih =>
    refine ⟨rfl, fun r => ?_⟩
    dsimp only
    split
    · next hagain => exact Or.inl ⟨hagain, resends_foldr_emit.mpr (ih _)⟩
    · exact Or.inr (hfinish earlier r)

theorem secures_of_outcome {srv : Server Q R σ} {rely guar : σ → σ → Prop} {pre : σ → Prop}
    {post : Except E α → σ → Prop} {p : Prog Q R V E α} {o : Except E α}
    (h : p.outcome = some o) (hpost : ∀ s, pre s → post o s) :
    p.Secures srv rely guar post pre := by
  induction p with
  | ret a =>
    cases h
    exact hpost
  | raise e =>
    cases h
    exact hpost
  | emit v p ih => exact ih h
  | call q k => cases h

/-- One question asked again and again: every time it is answered the invariant is kept, and
what the last reply tells is known in the end. -/
theorem secures_of_resends {srv : Server Q R σ} {rely guar : σ → σ → Prop}
    {post : Except E α → σ → Prop} {I : σ → Prop} {told : R → σ → Prop} {p : Prog Q R V E α}
    (h : Resends q again read p) (hI : Stable rely I) (htold : ∀ r, Stable rely (told r))
    (hstep : ∀ s, I s → guar s (srv q s).2 ∧ I (srv q s).2 ∧ told (srv q s).1 (srv q s).2)
    (hok : ∀ r a s, told r s → read r a → post (.ok a) s)
    (herr : ∀ e s, I s → post (.error e) s) : p.Secures srv rely guar post I := by
  induction p with
  | ret a => exact h.elim
  | raise e => exact h.elim
  | emit v p ih => exact ih h
  | call q' k ih =>
    obtain ⟨rfl, hk⟩ := h
    refine ⟨fun r s => I s ∧ told r s, fun r s s' hrely hs => ?_, hstep, fun r => ?_⟩
    · exact ⟨hI s s' hrely hs.1, htold r s s' hrely hs.2⟩
    · rcases hk r with ⟨-, hagain⟩ | ⟨o, ho, hread⟩
      · exact secures_mono (ih r hagain) (fun _ hs => hs.1) fun _ _ hs => hs
      · refine secures_of_outcome ho fun s hs => ?_
        cases o with
        | ok a => exact hok r a s hs.2 (hread a rfl)
        | error e => exact herr e s hs.1

end Resends

theorem secures_settle {srv : Server Q R σ} {rely guar : σ → σ → Prop} {pre : σ → Prop}
    {post : Except E α → σ → Prop} {p : Prog Q R V F β} {f : Except F β → Prog Q R V E α}
    (mid : Except F β → σ → Prop) (hp : p.Secures srv rely guar mid pre)
    (hf : ∀ o, (f o).Secures srv rely guar post (mid o)) :
    (p.settle f).Secures srv rely guar post pre := by
  induction p generalizing pre with
  | ret b => exact secures_mono (hf (.ok b)) hp fun _ _ h => h
  | raise e => exact secures_mono (hf (.error e)) hp fun _ _ h => h
  | emit v p ih => exact ih hp
  | call q k ih =>
    obtain ⟨after, hstable, hq, hk⟩ := hp
    exact ⟨after, hstable, hq, fun r => ih r (hk r)⟩

/-- What a program secures it secures below, with its assertions carried down, if the program
behind each of its questions secures there what the question does here. -/
theorem secures_implement {upper : Server Q (Except F β) σ} {lower : Server Q' R' τ}
    {rely guar : σ → σ → Prop} {rely' guar' : τ → τ → Prop} {impl : Q → Prog Q' R' V F β}
    {post : Except E α → σ → Prop} {allowed : Q → Prop} (carry : (σ → Prop) → τ → Prop)
    (himpl : ∀ q pre (mid : Except F β → σ → Prop), allowed q → Stable rely pre →
      (∀ r, Stable rely (mid r)) →
      (∀ s, pre s → guar s (upper q s).2 ∧ mid (upper q s).1 (upper q s).2) →
      (impl q).Secures lower rely' guar' (fun r => carry (mid r)) (carry pre))
    (hcarry : ∀ P P' : σ → Prop, (∀ s, P s → P' s) → ∀ t, carry P t → carry P' t)
    {p : Prog Q (Except F β) V E α} (hasks : p.Asks allowed) {pre : σ → Prop}
    (hstable : Stable rely pre) (hp : p.Secures upper rely guar post pre) :
    (p.implement impl).Secures lower rely' guar' (fun o => carry (post o)) (carry pre) := by
  induction p generalizing pre with
  | ret a => exact fun t ht => hcarry _ _ hp t ht
  | raise e => exact fun t ht => hcarry _ _ hp t ht
  | emit v p ih => exact ih hasks hstable hp
  | call q k ih =>
    obtain ⟨mid, hmid, hq, hk⟩ := hp
    exact secures_settle _ (himpl q pre mid hasks.1 hstable hmid hq) fun r =>
      ih r (hasks.2 r) (hmid r) (hk r)

end Prog
end Interaction
