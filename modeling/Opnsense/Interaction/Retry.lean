import Mathlib.Logic.Function.Iterate
import Opnsense.Interaction.Faults

/-! Asking again until the reply will do. The asker sees one reply to the end; the server
may have acted on the question at every attempt before it. -/
namespace Interaction

variable {Q R V E F α σ : Type}

/-- Whether the server acts on the question. -/
def Fault.executes : Fault F → Bool
  | served => true
  | lost _ => false
  | cut _ => true

/-- A server that keeps a record of the questions it acted on. -/
def recording (srv : Server Q R σ) : Server Q R (σ × List Q)
  | q, (s, acted) => ((srv q s).1, (srv q s).2, acted ++ [q])

/-- What happens to the attempt number `k` of a schedule. -/
def faultAt (fs : List (Fault F)) (k : ℕ) : Fault F := fs.getD k .served

theorem faultAt_succ (fs : List (Fault F)) (k : ℕ) : faultAt fs (k + 1) = faultAt fs.tail k := by
  cases fs <;> rfl

theorem faulty_eq_faultAt (failure : F → R) (srv : Server Q R σ) (q : Q) (s : σ)
    (fs : List (Fault F)) : faulty failure srv q (s, fs) = match faultAt fs 0 with
      | .served => ((srv q s).1, (srv q s).2, fs.tail)
      | .lost e => (failure e, s, fs.tail)
      | .cut e => (failure e, (srv q s).2, fs.tail) := by
  rcases fs with _ | ⟨f, fs⟩
  · rfl
  · cases f <;> rfl

/-- How often the server acts on a question that is asked up to `n` times, again after every
fault and after every reply of its own that is to be retried. -/
def executions (srv : Server Q R σ) (again : R → Bool) (q : Q) :
    ℕ → σ → List (Fault F) → ℕ
  | 0, _, _ => 0
  | n + 1, s, fs =>
    match faultAt fs 0 with
    | .lost _ => executions srv again q n s fs.tail
    | .cut _ => executions srv again q n (srv q s).2 fs.tail + 1
    | .served =>
      if again (srv q s).1 then executions srv again q n (srv q s).2 fs.tail + 1 else 1

/-- The first attempt the server acts on is answered for good, or no later attempt within
the budget reaches the server. -/
def AnsweredOrAlone (srv : Server Q R σ) (again : R → Bool) (q : Q) (n : ℕ) (s : σ)
    (fs : List (Fault F)) : Prop :=
  ∀ k < n, (∀ j < k, (faultAt fs j).executes = false) → (faultAt fs k).executes = true →
    (faultAt fs k = .served ∧ again (srv q s).1 = false) ∨
      ∀ j, k < j → j < n → (faultAt fs j).executes = false

section Counting

variable {srv : Server Q R σ} {again : R → Bool} {q : Q} {n : ℕ} {s : σ} {fs : List (Fault F)}

theorem executions_le : executions srv again q n s fs ≤ n := by
  induction n generalizing s fs with
  | zero => exact Nat.le_refl 0
  | succ n ih =>
    unfold executions
    split
    · exact Nat.le_succ_of_le ih
    · exact Nat.succ_le_succ ih
    · split
      · exact Nat.succ_le_succ ih
      · omega

/-- The server never acts exactly when every attempt is lost on the way. -/
theorem executions_eq_zero_iff :
    executions srv again q n s fs = 0 ↔ ∀ j < n, (faultAt fs j).executes = false := by
  induction n generalizing s fs with
  | zero => simp [executions]
  | succ n ih =>
    have hsplit : (∀ j < n + 1, (faultAt fs j).executes = false) ↔
        (faultAt fs 0).executes = false ∧ ∀ j < n, (faultAt fs.tail j).executes = false := by
      constructor
      · intro h
        refine ⟨h 0 (Nat.succ_pos n), fun j hj => ?_⟩
        rw [← faultAt_succ]
        exact h (j + 1) (Nat.succ_lt_succ hj)
      · rintro ⟨hzero, hsucc⟩ j hj
        rcases j with _ | j
        · exact hzero
        · rw [faultAt_succ]
          exact hsucc j (Nat.lt_of_succ_lt_succ hj)
    rw [hsplit]
    unfold executions
    cases hf : faultAt fs 0 with
    | lost e => simpa [Fault.executes] using ih
    | cut e => simp [Fault.executes]
    | served =>
      by_cases hagain : again (srv q s).1 = true <;> simp [Fault.executes, hagain]

/-- After a first attempt that the server acted on, only the others matter. -/
theorem answeredOrAlone_of_executes (hf : (faultAt fs 0).executes = true) :
    AnsweredOrAlone srv again q (n + 1) s fs ↔
      (faultAt fs 0 = .served ∧ again (srv q s).1 = false) ∨
        ∀ j < n, (faultAt fs.tail j).executes = false := by
  constructor
  · intro h
    rcases h 0 (Nat.succ_pos n) (fun j hj => absurd hj (Nat.not_lt_zero j)) hf with h | h
    · exact Or.inl h
    · refine Or.inr fun j hj => ?_
      rw [← faultAt_succ]
      exact h (j + 1) (Nat.succ_pos j) (Nat.succ_lt_succ hj)
  · intro h k hk hbefore _
    rcases k with _ | k
    · refine h.imp_right fun hlost j hj hjn => ?_
      obtain ⟨i, rfl⟩ : ∃ i, j = i + 1 := ⟨j - 1, by omega⟩
      rw [faultAt_succ]
      exact hlost i (by omega)
    · rw [hbefore 0 (Nat.succ_pos k)] at hf
      cases hf

/-- A first attempt lost on the way takes one off the budget. -/
theorem answeredOrAlone_of_lost (hf : (faultAt fs 0).executes = false) :
    AnsweredOrAlone srv again q (n + 1) s fs ↔ AnsweredOrAlone srv again q n s fs.tail := by
  constructor
  · intro h k hk hbefore hexec
    have hall : ∀ j < k + 1, (faultAt fs j).executes = false := by
      intro j hj
      rcases j with _ | j
      · exact hf
      · rw [faultAt_succ]
        exact hbefore j (Nat.lt_of_succ_lt_succ hj)
    rw [← faultAt_succ] at hexec
    have hk' := h (k + 1) (Nat.succ_lt_succ hk) hall hexec
    rw [faultAt_succ] at hk'
    refine hk'.imp_right fun hlost j hj hjn => ?_
    rw [← faultAt_succ]
    exact hlost (j + 1) (Nat.succ_lt_succ hj) (Nat.succ_lt_succ hjn)
  · intro h k hk hbefore hexec
    rcases k with _ | k
    · rw [hf] at hexec
      cases hexec
    · rw [faultAt_succ] at hexec ⊢
      have hall : ∀ j < k, (faultAt fs.tail j).executes = false := by
        intro j hj
        rw [← faultAt_succ]
        exact hbefore (j + 1) (Nat.succ_lt_succ hj)
      refine (h k (Nat.lt_of_succ_lt_succ hk) hall hexec).imp_right fun hlost j hj hjn => ?_
      obtain ⟨i, rfl⟩ : ∃ i, j = i + 1 := ⟨j - 1, by omega⟩
      rw [faultAt_succ]
      exact hlost i (by omega) (by omega)

theorem executions_le_one_iff :
    executions srv again q n s fs ≤ 1 ↔ AnsweredOrAlone srv again q n s fs := by
  induction n generalizing s fs with
  | zero =>
    refine ⟨fun _ k hk => absurd hk (Nat.not_lt_zero k), fun _ => Nat.zero_le 1⟩
  | succ n ih =>
    cases hf : faultAt fs 0 with
    | lost e =>
      rw [answeredOrAlone_of_lost (by rw [hf]; rfl), ← ih, executions, hf]
    | cut e =>
      rw [answeredOrAlone_of_executes (by rw [hf]; rfl), hf,
        ← @executions_eq_zero_iff _ _ _ _ srv again q n (srv q s).2, executions, hf]
      simp
    | served =>
      rw [answeredOrAlone_of_executes (by rw [hf]; rfl), hf,
        ← @executions_eq_zero_iff _ _ _ _ srv again q n (srv q s).2, executions, hf]
      by_cases hagain : again (srv q s).1 = true <;> simp [hagain]

/-- What the server acted on, in the order it did. -/
theorem iterate_recording (k : ℕ) (acted : List Q) :
    (fun s => (recording srv q s).2)^[k] (s, acted) =
      ((fun s => (srv q s).2)^[k] s, acted ++ List.replicate k q) := by
  induction k generalizing s acted with
  | zero => simp
  | succ k ih =>
    rw [Function.iterate_succ_apply, Function.iterate_succ_apply, List.replicate_succ]
    exact (ih _).trans (by rw [List.append_assoc, List.singleton_append])

theorem executions_recording (acted : List Q) :
    executions (recording srv) again q n (s, acted) fs = executions srv again q n s fs := by
  induction n generalizing s acted fs with
  | zero => rfl
  | succ n ih =>
    rw [executions, executions]
    cases hf : faultAt fs 0 with
    | lost e => exact ih acted
    | cut e => exact congrArg (· + 1) (ih _)
    | served =>
      have hreply : (recording srv q (s, acted)).1 = (srv q s).1 := rfl
      rw [hreply]
      by_cases hagain : again (srv q s).1 = true
      · simp only [if_pos hagain]
        exact congrArg (· + 1) (ih _)
      · simp only [if_neg hagain]

end Counting

namespace Prog

/-- Ask `q`, and again while the reply is one to retry and attempts are left. What to report
before the next attempt and how to finish may depend on the earlier replies. -/
def retry (q : Q) (again : R → Bool) (report : List R → R → List V)
    (finish : List R → R → Prog Q R V E α) : ℕ → List R → Prog Q R V E α
  | 0, earlier => call q (finish earlier)
  | left + 1, earlier => call q fun r =>
    if again r then
      (report earlier r).foldr emit (retry q again report finish left (earlier ++ [r]))
    else finish earlier r

/-- The reply that asking ends with, and the state behind it: the first one not to be retried,
or the one after `left` retries. -/
def settled (srv : Server Q R σ) (again : R → Bool) (q : Q) : ℕ → σ → R × σ
  | 0, s => srv q s
  | left + 1, s => if again (srv q s).1 then settled srv again q left (srv q s).2 else srv q s

@[simp] theorem run_foldr_emit {srv : Server Q R σ} (vs : List V) (p : Prog Q R V E α) (s : σ) :
    run srv (vs.foldr emit p) s = run srv p s := by
  induction vs with
  | nil => rfl
  | cons v vs ih => exact ih

@[simp] theorem trace_foldr_emit {srv : Server Q R σ} (vs : List V) (p : Prog Q R V E α) (s : σ) :
    trace srv (vs.foldr emit p) s = trace srv p s := by
  induction vs with
  | nil => rfl
  | cons v vs ih => exact ih

/-- Asking again finishes with the reply it settles for. -/
theorem run_retry_settled (srv : Server Q R σ) (again : R → Bool) (q : Q)
    (report : List R → R → List V) (finish : List R → R → Prog Q R V E α) (left : ℕ)
    (earlier : List R) (s : σ) :
    ∃ earlier', run srv (retry q again report finish left earlier) s =
      run srv (finish earlier' (settled srv again q left s).1) (settled srv again q left s).2 := by
  induction left generalizing earlier s with
  | zero => exact ⟨earlier, rfl⟩
  | succ left ih =>
    by_cases hagain : again (srv q s).1 = true
    · obtain ⟨earlier', hrun⟩ := ih (earlier ++ [(srv q s).1]) (srv q s).2
      refine ⟨earlier', ?_⟩
      simpa only [retry, settled, run_call, if_pos hagain, run_foldr_emit] using hrun
    · exact ⟨earlier, by simp only [retry, settled, run_call, if_neg hagain]⟩

/-- An asking that finishes without a question asks nothing but `q`, and got the reply it
settled for last. -/
theorem trace_retry_settled (srv : Server Q R σ) (again : R → Bool) (q : Q)
    (report : List R → R → List V) (finish : List R → R → Prog Q R V E α)
    (hquiet : ∀ earlier r s, trace srv (finish earlier r) s = []) (left : ℕ) (earlier : List R)
    (s : σ) : ∃ before, trace srv (retry q again report finish left earlier) s =
      before ++ [(q, (settled srv again q left s).1)] ∧ ∀ qr ∈ before, qr.1 = q := by
  induction left generalizing earlier s with
  | zero => exact ⟨[], by simp [retry, settled, hquiet]⟩
  | succ left ih =>
    by_cases hagain : again (srv q s).1 = true
    · obtain ⟨before, htrace, hsame⟩ := ih (earlier ++ [(srv q s).1]) (srv q s).2
      refine ⟨(q, (srv q s).1) :: before, ?_, List.forall_mem_cons.mpr ⟨rfl, hsame⟩⟩
      simp only [retry, settled, trace_call, if_pos hagain, trace_foldr_emit, htrace]
      rfl
    · refine ⟨[], ?_, by simp⟩
      simp only [retry, settled, trace_call, if_neg hagain, hquiet]
      rfl

/-- The reply to the question when it is asked for the `k`-th time in a row, from zero on, and
the state behind it. -/
def nth (srv : Server Q R σ) (q : Q) (k : ℕ) (s : σ) : R × σ :=
  srv q ((fun s => (srv q s).2)^[k] s)

theorem nth_succ (srv : Server Q R σ) (q : Q) (k : ℕ) (s : σ) :
    nth srv q (k + 1) s = nth srv q k (srv q s).2 := rfl

/-- While every reply is to be retried, asking uses its budget up. -/
theorem settled_of_again {srv : Server Q R σ} {again : R → Bool} {q : Q} {left : ℕ} {s : σ}
    (h : ∀ k < left, again (nth srv q k s).1 = true) :
    settled srv again q left s = nth srv q left s := by
  induction left generalizing s with
  | zero => rfl
  | succ left ih =>
    rw [settled, if_pos (show again (srv q s).1 = true from h 0 (Nat.succ_pos left)), nth_succ]
    exact ih fun k hk => h (k + 1) (Nat.succ_lt_succ hk)

/-- Asking ends with a reply to retry exactly when the budget was used up on such replies. -/
theorem again_settled_iff {srv : Server Q R σ} {again : R → Bool} {q : Q} {left : ℕ} {s : σ} :
    again (settled srv again q left s).1 = true ↔
      ∀ k ≤ left, again (nth srv q k s).1 = true := by
  constructor
  · intro h
    induction left generalizing s with
    | zero =>
      intro k hk
      obtain rfl : k = 0 := by omega
      exact h
    | succ left ih =>
      by_cases hagain : again (srv q s).1 = true
      · rw [settled, if_pos hagain] at h
        intro k hk
        rcases k with _ | k
        · exact hagain
        · rw [nth_succ]
          exact ih h k (by omega)
      · rw [settled, if_neg hagain] at h
        exact absurd h hagain
  · intro h
    rw [settled_of_again fun k hk => h k (by omega)]
    exact h left (Nat.le_refl left)

/-- A retried question behind a faulty server: the server acted on it `executions` times, and
the reply finished with is one to retry still or an answer of the server. -/
theorem run_retry {failure : F → R} {again : R → Bool} (hfail : ∀ e, again (failure e) = true)
    (srv : Server Q R σ) (q : Q) (report : List R → R → List V)
    (finish : List R → R → Prog Q R V E α) (left : ℕ) (earlier : List R) (s : σ)
    (fs : List (Fault F)) :
    ∃ earlier' r S,
      run (faulty failure srv) (retry q again report finish left earlier) (s, fs) =
        run (faulty failure srv) (finish earlier' r) S ∧
      S.1 = (fun s => (srv q s).2)^[executions srv again q (left + 1) s fs] s ∧
      (again r = true ∨ ∃ k, r = (srv q ((fun s => (srv q s).2)^[k] s)).1) := by
  let step : σ → σ := fun s => (srv q s).2
  induction left generalizing earlier s fs with
  | zero =>
    refine ⟨earlier, (faulty failure srv q (s, fs)).1, (faulty failure srv q (s, fs)).2, rfl, ?_⟩
    rw [faulty_eq_faultAt, executions]
    cases hf : faultAt fs 0 with
    | lost e => exact ⟨rfl, Or.inl (hfail e)⟩
    | cut e => exact ⟨rfl, Or.inl (hfail e)⟩
    | served =>
      refine ⟨?_, Or.inr ⟨0, rfl⟩⟩
      by_cases hagain : again (srv q s).1 = true <;> simp [hagain, executions]
  | succ left ih =>
    have hnet := faulty_eq_faultAt failure srv q s fs
    rw [retry, run_call, executions]
    cases hf : faultAt fs 0 with
    | lost e =>
      -- nothing has reached the server
      rw [hf] at hnet
      simp only [hnet, if_pos (hfail e), run_foldr_emit]
      exact ih _ s fs.tail
    | cut e =>
      -- the server has acted, and its reply was lost
      rw [hf] at hnet
      simp only [hnet, if_pos (hfail e), run_foldr_emit]
      obtain ⟨earlier', r, S, hrun, hstate, hreply⟩ := ih (earlier ++ [failure e]) (step s) fs.tail
      refine ⟨earlier', r, S, hrun, hstate, hreply.imp_right ?_⟩
      exact fun ⟨k, hk⟩ => ⟨k + 1, hk⟩
    | served =>
      rw [hf] at hnet
      by_cases hagain : again (srv q s).1 = true
      · simp only [hnet, if_pos hagain, run_foldr_emit]
        obtain ⟨earlier', r, S, hrun, hstate, hreply⟩ :=
          ih (earlier ++ [(srv q s).1]) (step s) fs.tail
        refine ⟨earlier', r, S, hrun, hstate, hreply.imp_right ?_⟩
        exact fun ⟨k, hk⟩ => ⟨k + 1, hk⟩
      · simp only [hnet, if_neg hagain]
        exact ⟨earlier, _, _, rfl, rfl, Or.inr ⟨0, rfl⟩⟩

end Prog
end Interaction
