import Opnsense.Interaction.Retry
import Opnsense.Interaction.Twins

namespace Interaction

variable {Q R V E F α σ : Type}

namespace Prog

/-- The questions asked and the events reported, in order. -/
def history (srv : Server Q R σ) : Prog Q R V E α → σ → List (Q ⊕ V)
  | ret _, _ => []
  | raise _, _ => []
  | emit v p, s => .inr v :: history srv p s
  | call q k, s => .inl q :: history srv (k (srv q s).1) (srv q s).2

variable {srv : Server Q R σ} {s : σ}

@[simp] theorem history_ret (a : α) : history srv (ret a : Prog Q R V E α) s = [] := rfl
@[simp] theorem history_raise (e : E) : history srv (raise e : Prog Q R V E α) s = [] := rfl
@[simp] theorem history_emit (v : V) (p : Prog Q R V E α) :
    history srv (emit v p) s = .inr v :: history srv p s := rfl
@[simp] theorem history_call (q : Q) (k : R → Prog Q R V E α) :
    history srv (call q k) s = .inl q :: history srv (k (srv q s).1) (srv q s).2 := rfl

@[simp] theorem history_foldr_emit (vs : List V) (p : Prog Q R V E α) :
    history srv (vs.foldr emit p) s = vs.map .inr ++ history srv p s := by
  induction vs with
  | nil => rfl
  | cons v vs ih => exact congrArg (List.cons (.inr v)) ih

theorem history_rescue (p : Prog Q R V F α) (h : F → Prog Q R V E α) (s : σ) :
    history srv (rescue p h) s = history srv p s ++ match run srv p s with
      | (.ok _, _) => []
      | (.error e, s') => history srv (h e) s' := by
  induction p generalizing s with
  | ret a => rfl
  | raise e => rfl
  | emit v p ih => exact congrArg (List.cons (.inr v)) (ih s)
  | call q k ih => exact congrArg (List.cons (.inl q)) (ih (srv q s).1 (srv q s).2)

end Prog

section Attempts

variable {again : R → Bool} {replies : ℕ → R} {left n : ℕ}

/-- The number of attempts made with `left` retries, the first answered by reply number `n`. -/
def attempts (again : R → Bool) (replies : ℕ → R) : ℕ → ℕ → ℕ
  | 0, _ => 1
  | left + 1, n => if again (replies n) then attempts again replies left (n + 1) + 1 else 1

theorem attempts_pos : 0 < attempts again replies left n := by
  cases left with
  | zero => exact Nat.one_pos
  | succ left =>
    rw [attempts]
    split
    · exact Nat.succ_pos _
    · exact Nat.one_pos

/-- The first reply that is final ends the attempts, or the budget does. -/
theorem attempts_eq_min {i : ℕ} (hbefore : ∀ j < i, again (replies (n + j)) = true)
    (hfinal : again (replies (n + i)) = false) :
    attempts again replies left n = min (i + 1) (left + 1) := by
  induction left generalizing n i with
  | zero => rw [attempts]; omega
  | succ left ih =>
    rw [attempts]
    rcases i with _ | i
    · rw [if_neg (by simpa using hfinal)]
      omega
    · have hrest : attempts again replies left (n + 1) = min (i + 1) (left + 1) := by
        apply ih
        · intro j hj
          rw [show n + 1 + j = n + (j + 1) by omega]
          exact hbefore (j + 1) (by omega)
        · rwa [show n + 1 + i = n + (i + 1) by omega]
      have hfirst : again (replies n) = true := hbefore 0 (by omega)
      rw [if_pos hfirst, hrest]
      omega

theorem attempts_of_always (h : ∀ j, again (replies (n + j)) = true) :
    attempts again replies left n = left + 1 := by
  induction left generalizing n with
  | zero => rfl
  | succ left ih =>
    have hrest : attempts again replies left (n + 1) = left + 1 := by
      apply ih
      intro j
      rw [show n + 1 + j = n + (j + 1) by omega]
      exact h (j + 1)
    have hfirst : again (replies n) = true := h 0
    rw [attempts, if_pos hfirst, hrest]

/-- The attempts before the last are all tried again; the last is final, or uses the budget up. -/
theorem attempts_spec :
    let count := attempts again replies left n
    count ≤ left + 1 ∧ (∀ j, j + 1 < count → again (replies (n + j)) = true) ∧
      (count = left + 1 ∨ again (replies (n + (count - 1))) = false) := by
  induction left generalizing n with
  | zero => exact ⟨Nat.le_refl 1, fun j hj => absurd hj (by simp [attempts]), Or.inl rfl⟩
  | succ left ih =>
    intro count
    by_cases hagain : again (replies n) = true
    · obtain ⟨hle, hbefore, hend⟩ := @ih (n + 1)
      have hpos := @attempts_pos _ again replies left (n + 1)
      have hcount : count = attempts again replies left (n + 1) + 1 := if_pos hagain
      rw [hcount]
      refine ⟨by omega, fun j hj => ?_, ?_⟩
      · rcases j with _ | j
        · exact hagain
        · rw [show n + (j + 1) = n + 1 + j by omega]
          exact hbefore j (by omega)
      · rw [show n + (attempts again replies left (n + 1) + 1 - 1) =
          n + 1 + (attempts again replies left (n + 1) - 1) by omega]
        exact hend.imp_left fun h => by omega
    · have hcount : count = 1 := if_neg hagain
      rw [hcount]
      refine ⟨by omega, fun j hj => by omega, Or.inr ?_⟩
      simpa using hagain

/-- An attempt before the last is tried again. -/
theorem again_of_lt_attempts {a : ℕ} (ha : n ≤ a)
    (hlt : a + 1 < n + attempts again replies left n) : again (replies a) = true := by
  obtain ⟨-, hbefore, -⟩ := @attempts_spec _ again replies left n
  have hagain := hbefore (a - n) (show a - n + 1 < attempts again replies left n by omega)
  rwa [show n + (a - n) = a by omega] at hagain

/-- A last attempt that would be tried again used the budget up. -/
theorem attempts_eq_of_again
    (h : again (replies (n + (attempts again replies left n - 1))) = true) :
    attempts again replies left n = left + 1 := by
  obtain ⟨-, -, hend⟩ := @attempts_spec _ again replies left n
  rcases hend with hcount | hfinal
  · exact hcount
  · rw [h] at hfinal
    cases hfinal

end Attempts

namespace Prog

variable {again : R → Bool} {replies : ℕ → R} {q : Q} {report : List R → R → List V}
  {finish : List R → R → Prog Q R V E α}

/-- The replies before the last one. -/
def earlierReplies (again : R → Bool) (replies : ℕ → R) (left n : ℕ) : List R :=
  (List.range (attempts again replies left n - 1)).map fun j => replies (n + j)

theorem mem_earlierReplies {left n : ℕ} {r : R} : r ∈ earlierReplies again replies left n ↔
    ∃ a, n ≤ a ∧ a + 1 < n + attempts again replies left n ∧ replies a = r := by
  simp only [earlierReplies, List.mem_map, List.mem_range]
  constructor
  · rintro ⟨j, hj, hr⟩
    exact ⟨n + j, by omega, by omega, hr⟩
  · rintro ⟨a, ha, hlt, hr⟩
    exact ⟨a - n, by omega, by rwa [show n + (a - n) = a by omega]⟩

theorem earlierReplies_again {left n : ℕ} (hagain : again (replies n) = true) :
    earlierReplies again replies (left + 1) n =
      replies n :: earlierReplies again replies left (n + 1) := by
  have hcount : attempts again replies (left + 1) n - 1 =
      attempts again replies left (n + 1) - 1 + 1 := by
    have hpos := @attempts_pos _ again replies left (n + 1)
    rw [attempts, if_pos hagain]
    omega
  rw [earlierReplies, hcount, List.range_succ_eq_map, List.map_cons, List.map_map]
  refine congrArg (List.cons _) (List.map_congr_left fun j _ => ?_)
  exact congrArg replies (by simp only [Nat.succ_eq_add_one]; omega)

theorem earlierReplies_final {left n : ℕ} (hagain : again (replies n) = false) :
    earlierReplies again replies (left + 1) n = [] := by
  rw [earlierReplies, attempts, if_neg (by simp [hagain])]
  rfl

/-- The reports between the attempts. -/
def reports (q : Q) (report : List R → R → List V) : List R → List R → List (Q ⊕ V)
  | _, [] => []
  | earlier, r :: rest =>
    .inl q :: ((report earlier r).map .inr ++ reports q report (earlier ++ [r]) rest)

/-- Against a recording, a retried question gets one reply after the other, reports after every
one but the last, and finishes with that. -/
theorem retry_replaying (left n : ℕ) (earlier : List R) :
    let before := earlierReplies again replies left n
    let last := replies (n + (attempts again replies left n - 1))
    run (replaying replies) (retry q again report finish left earlier) n =
        run (replaying replies) (finish (earlier ++ before) last)
          (n + attempts again replies left n) ∧
      history (replaying replies) (retry q again report finish left earlier) n =
        reports q report earlier before ++ .inl q ::
          history (replaying replies) (finish (earlier ++ before) last)
            (n + attempts again replies left n) := by
  induction left generalizing n earlier with
  | zero =>
    intro before last
    have hbefore : before = [] := rfl
    rw [hbefore, List.append_nil]
    exact ⟨rfl, rfl⟩
  | succ left ih =>
    intro before last
    cases hagain : again (replies n) with
    | false =>
      have hcount : attempts again replies (left + 1) n = 1 := by
        rw [attempts, if_neg (by simp [hagain])]
      have hbefore : before = [] := earlierReplies_final hagain
      have hlast : last = replies n := by simp only [last, hcount, Nat.sub_self, Nat.add_zero]
      rw [hbefore, hlast, hcount, List.append_nil]
      have hstop : retry q again report finish (left + 1) earlier =
          call q fun r => if again r then
            (report earlier r).foldr emit (retry q again report finish left (earlier ++ [r]))
          else finish earlier r := rfl
      rw [hstop, run_call, history_call]
      simp [replaying, hagain, reports]
    | true =>
      obtain ⟨hrun, hhistory⟩ := ih (n + 1) (earlier ++ [replies n])
      have hpos := @attempts_pos _ again replies left (n + 1)
      have hcount : attempts again replies (left + 1) n =
          attempts again replies left (n + 1) + 1 := by
        rw [attempts, if_pos hagain]
      have hbefore : before = replies n :: earlierReplies again replies left (n + 1) :=
        earlierReplies_again hagain
      have hlast : last = replies (n + 1 + (attempts again replies left (n + 1) - 1)) := by
        simp only [last, hcount]
        exact congrArg replies (by omega)
      have hend : n + attempts again replies (left + 1) n =
          n + 1 + attempts again replies left (n + 1) := by omega
      have hstep : retry q again report finish (left + 1) earlier =
          call q fun r => if again r then
            (report earlier r).foldr emit (retry q again report finish left (earlier ++ [r]))
          else finish earlier r := rfl
      rw [List.append_assoc, List.singleton_append, ← hbefore, ← hlast, ← hend] at hrun hhistory
      rw [hstep, run_call, history_call]
      simp only [replaying, hagain, if_true, run_foldr_emit, history_foldr_emit]
      refine ⟨hrun, ?_⟩
      rw [hhistory, hbefore, reports]
      simp

/-- Against a recording the asking settles for the reply of its last attempt. -/
theorem settled_replaying (left n : ℕ) : settled (replaying replies) again q left n =
    (replies (n + (attempts again replies left n - 1)), n + attempts again replies left n) := by
  induction left generalizing n with
  | zero => rfl
  | succ left ih =>
    have hfirst : replaying replies q n = (replies n, n + 1) := rfl
    rw [settled, hfirst, attempts]
    by_cases hagain : again (replies n) = true
    · have hpos := @attempts_pos _ again replies left (n + 1)
      have hrest := ih (n + 1)
      rw [if_pos hagain, if_pos hagain, hrest]
      refine Prod.ext (congrArg replies ?_) ?_
      · omega
      · exact Nat.add_right_comm n 1 _
    · rw [if_neg hagain, if_neg hagain]
      rfl

end Prog
end Interaction
