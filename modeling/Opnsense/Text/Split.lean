import Mathlib.Data.List.Basic

namespace Text

variable {α : Type} [DecidableEq α] {x : α} {cs piece : List α}

/-- What is between the separators is the text without them. -/
theorem flatten_splitOn (x : α) (cs : List α) : (cs.splitOn x).flatten = cs.filter (· ≠ x) := by
  induction cs with
  | nil => rfl
  | cons c cs ih =>
    rw [List.splitOn_cons_eq_if_modifyHead]
    by_cases hc : c = x
    · rw [if_pos (by simpa using hc), List.flatten_cons, List.nil_append, ih,
        List.filter_cons_of_neg (by simpa using hc)]
    · obtain ⟨g, groups, hgroups⟩ := List.exists_cons_of_ne_nil (List.splitOn_ne_nil x cs)
      rw [if_neg (by simpa using hc), List.filter_cons_of_pos (by simpa using hc), ← ih, hgroups,
        List.modifyHead_cons, List.flatten_cons, List.flatten_cons, List.cons_append]

theorem sublist_filter_of_mem_splitOn (h : piece ∈ cs.splitOn x) :
    piece.Sublist (cs.filter (· ≠ x)) :=
  flatten_splitOn x cs ▸ List.sublist_flatten_of_mem h

theorem sublist_of_mem_splitOn (h : piece ∈ cs.splitOn x) : piece.Sublist cs :=
  (sublist_filter_of_mem_splitOn h).trans List.filter_sublist

theorem notMem_of_mem_splitOn (h : piece ∈ cs.splitOn x) : x ∉ piece := by
  intro hx
  have hmem := (sublist_filter_of_mem_splitOn h).subset hx
  rw [List.mem_filter] at hmem
  simp at hmem

/-- A text is split at its last separator in one way. -/
theorem last_split_unique {front front' back back' : List α} (h : x ∉ back) (h' : x ∉ back')
    (heq : front ++ x :: back = front' ++ x :: back') : front = front' ∧ back = back' := by
  -- read backwards, what comes before the first separator is the last piece
  have htake : ∀ {front back : List α}, x ∉ back →
      ((front ++ x :: back).reverse.takeWhile (· ≠ x)).reverse = back := by
    intro front back hback
    have hall : ∀ y ∈ back.reverse, decide (y ≠ x) = true := by
      intro y hy
      have hne : y ≠ x := fun heq => hback (heq ▸ List.mem_reverse.mp hy)
      simpa using hne
    rw [List.reverse_append, List.reverse_cons, List.append_assoc, List.singleton_append,
      List.takeWhile_append_of_pos hall]
    simp
  have hback : back = back' := by rw [← htake h, heq, htake h']
  subst hback
  exact ⟨List.append_cancel_right heq, rfl⟩

end Text
