import Mathlib.Data.List.Basic
import Mathlib.Data.List.TakeWhile

/-! Regular expressions over character classes, a backtracking matcher that tries greedy choices
first, and an anchored search whose `$` also matches before a newline at the end. -/
namespace Text

inductive Regex where
  | empty
  | cls (p : Char → Bool)
  | cat (r r' : Regex)
  | opt (r : Regex)
  | rep (p : Char → Bool) (lo : ℕ) (hi : Option ℕ)
  | group (r : Regex)

namespace Regex

/-- `r` so many times. -/
def times (r : Regex) : ℕ → Regex
  | 0 => empty
  | n + 1 => cat r (times r n)

/-- The text is matched as a whole, with these texts for the groups. -/
inductive Matches : Regex → List Char → List (List Char) → Prop where
  | empty : Matches empty [] []
  | cls {p : Char → Bool} {c : Char} (hc : p c = true) : Matches (cls p) [c] []
  | cat {r r' : Regex} {u v : List Char} {gs gs' : List (List Char)} (hu : Matches r u gs)
      (hv : Matches r' v gs') : Matches (cat r r') (u ++ v) (gs ++ gs')
  | skip {r : Regex} : Matches (opt r) [] []
  | opt {r : Regex} {u : List Char} {gs : List (List Char)} (hu : Matches r u gs) :
      Matches (opt r) u gs
  | rep {p : Char → Bool} {lo : ℕ} {hi : Option ℕ} {u : List Char} (hu : ∀ c ∈ u, p c = true)
      (hlo : lo ≤ u.length) (hhi : ∀ n, hi = some n → u.length ≤ n) : Matches (rep p lo hi) u []
  | group {r : Regex} {u : List Char} {gs : List (List Char)} (hu : Matches r u gs) :
      Matches (group r) u (u :: gs)

/-- The language of an expression. -/
def Lang (r : Regex) (u : List Char) : Prop := ∃ gs, Matches r u gs

/-- The longest run of a class that a repetition may take. -/
def longest (p : Char → Bool) (hi : Option ℕ) (cs : List Char) : ℕ :=
  match hi with
  | none => (cs.takeWhile p).length
  | some n => min (cs.takeWhile p).length n

/-- The ways to match at the start of a text, in the order they are tried: the texts of the
groups, and what is left. -/
def ends : Regex → List Char → List (List (List Char) × List Char)
  | empty, cs => [([], cs)]
  | cls _, [] => []
  | cls p, c :: cs => if p c then [([], cs)] else []
  | cat r r', cs => (ends r cs).flatMap fun m => (ends r' m.2).map fun m' => (m.1 ++ m'.1, m'.2)
  | opt r, cs => ends r cs ++ [([], cs)]
  | rep p lo hi, cs => (List.range (longest p hi cs + 1 - lo)).map fun i =>
      ([], cs.drop (longest p hi cs - i))
  | group r, cs => (ends r cs).map fun m => (cs.take (cs.length - m.2.length) :: m.1, m.2)

/-- Where `$` matches: at the end, and before a newline that is the end. -/
def atEnd (rest : List Char) : Bool := rest == [] || rest == ['\n']

/-- `re.match` for `^r$`: the texts of the groups of the first match. -/
def search (r : Regex) (cs : List Char) : Option (List (List Char)) :=
  ((ends r cs).find? fun m => atEnd m.2).map Prod.fst

section Matcher

variable {p : Char → Bool} {lo : ℕ} {hi : Option ℕ} {cs u rest : List Char} {r : Regex}
  {gs : List (List Char)}

theorem le_longest (h : ∀ c ∈ u, p c = true) (hhi : ∀ n, hi = some n → u.length ≤ n) :
    u.length ≤ longest p hi (u ++ rest) := by
  have hrun : u.length ≤ ((u ++ rest).takeWhile p).length := by
    rw [List.takeWhile_append_of_pos h, List.length_append]
    exact Nat.le_add_right _ _
  cases hi with
  | none => exact hrun
  | some n => exact le_min hrun (hhi n rfl)

theorem longest_le_takeWhile : longest p hi cs ≤ (cs.takeWhile p).length := by
  cases hi with
  | none => exact le_rfl
  | some n => exact min_le_left _ _

/-- Up to the longest run there are characters of the class only. -/
theorem mem_take_of_le_longest {k : ℕ} (hk : k ≤ longest p hi cs) :
    ∀ c ∈ cs.take k, p c = true := by
  intro c hc
  have hbegins : cs.take k <+: cs.takeWhile p := by
    refine List.prefix_of_prefix_length_le (List.take_prefix k cs) (List.takeWhile_prefix p) ?_
    exact (List.length_take_le k cs).trans (hk.trans longest_le_takeWhile)
  exact List.mem_takeWhile_imp (hbegins.subset hc)

theorem mem_ends_rep : (gs, rest) ∈ ends (rep p lo hi) cs ↔
    ∃ u, cs = u ++ rest ∧ Matches (rep p lo hi) u gs := by
  have hlen : (cs.takeWhile p).length ≤ cs.length := (List.takeWhile_prefix p).length_le
  constructor
  · intro h
    -- `i` characters of the longest run are given back
    obtain ⟨i, hi', heq⟩ := List.mem_map.mp h
    cases heq
    have hi' := List.mem_range.mp hi'
    let k := longest p hi cs - i
    have hk : k ≤ longest p hi cs := Nat.sub_le _ _
    have hlength : (cs.take k).length = k := by
      rw [List.length_take]
      have hle : longest p hi cs ≤ (cs.takeWhile p).length := longest_le_takeWhile
      omega
    refine ⟨cs.take k, (List.take_append_drop k cs).symm, ?_⟩
    refine Matches.rep (mem_take_of_le_longest hk) ?_ ?_
    · rw [hlength]
      omega
    · rintro n rfl
      rw [hlength]
      exact hk.trans (min_le_right _ _)
  · rintro ⟨u, rfl, hu⟩
    cases hu with
    | rep hu hlo hhi =>
      have hle : u.length ≤ longest p hi (u ++ rest) := le_longest hu hhi
      refine List.mem_map.mpr ⟨longest p hi (u ++ rest) - u.length, ?_, ?_⟩
      · rw [List.mem_range]
        omega
      · rw [Nat.sub_sub_self hle, List.drop_left]

/-- The matcher finds the ways to split a text into a match and a rest. -/
theorem mem_ends : (gs, rest) ∈ ends r cs ↔ ∃ u, cs = u ++ rest ∧ Matches r u gs := by
  induction r generalizing cs gs rest with
  | empty =>
    constructor
    · intro h
      cases List.mem_singleton.mp h
      exact ⟨[], rfl, .empty⟩
    · rintro ⟨u, rfl, hu⟩
      cases hu
      exact List.mem_singleton.mpr rfl
  | cls p =>
    constructor
    · intro h
      cases cs with
      | nil => cases h
      | cons c cs =>
        by_cases hc : p c = true
        · rw [ends, if_pos hc] at h
          cases List.mem_singleton.mp h
          exact ⟨[c], rfl, .cls hc⟩
        · rw [ends, if_neg hc] at h
          cases h
    · rintro ⟨u, rfl, hu⟩
      cases hu with
      | cls hc =>
        rw [List.singleton_append, ends, if_pos hc]
        exact List.mem_singleton.mpr rfl
  | cat r r' ih ih' =>
    rw [ends, List.mem_flatMap]
    constructor
    · rintro ⟨⟨gs₁, mid⟩, hfirst, hthen⟩
      obtain ⟨⟨gs₂, rest'⟩, hsecond, heq⟩ := List.mem_map.mp hthen
      cases heq
      obtain ⟨u, rfl, hu⟩ := ih.mp hfirst
      obtain ⟨v, rfl, hv⟩ := ih'.mp hsecond
      exact ⟨u ++ v, (List.append_assoc ..).symm, .cat hu hv⟩
    · rintro ⟨w, rfl, hw⟩
      cases hw with
      | @cat _ _ u v gs₁ gs₂ hu hv =>
        refine ⟨(gs₁, v ++ rest), ih.mpr ⟨u, List.append_assoc .., hu⟩, ?_⟩
        exact List.mem_map.mpr ⟨(gs₂, rest), ih'.mpr ⟨v, rfl, hv⟩, rfl⟩
  | opt r ih =>
    rw [ends, List.mem_append, List.mem_singleton]
    constructor
    · rintro (h | h)
      · obtain ⟨u, rfl, hu⟩ := ih.mp h
        exact ⟨u, rfl, .opt hu⟩
      · cases h
        exact ⟨[], rfl, .skip⟩
    · rintro ⟨u, rfl, hu⟩
      cases hu with
      | skip => exact Or.inr rfl
      | opt hu => exact Or.inl (ih.mpr ⟨u, rfl, hu⟩)
  | rep p lo hi => exact mem_ends_rep
  | group r ih =>
    rw [ends, List.mem_map]
    constructor
    · rintro ⟨⟨gs', rest'⟩, h, heq⟩
      obtain ⟨u, rfl, hu⟩ := ih.mp h
      -- the group is what the rest leaves of the text
      have htaken : (u ++ rest').take ((u ++ rest').length - rest'.length) = u := by
        rw [List.length_append, Nat.add_sub_cancel, List.take_left]
      cases heq
      exact ⟨u, rfl, htaken.symm ▸ .group hu⟩
    · rintro ⟨u, rfl, hu⟩
      cases hu with
      | @group _ _ gs' hu =>
        refine ⟨(gs', rest), ih.mpr ⟨u, rfl, hu⟩, ?_⟩
        rw [List.length_append, Nat.add_sub_cancel, List.take_left]

theorem atEnd_iff : atEnd rest = true ↔ rest = [] ∨ rest = ['\n'] := by
  rw [atEnd, Bool.or_eq_true, beq_iff_eq, beq_iff_eq]

/-- A text that is in the language, or is with the newline at its end left out. -/
def LangOrNewline (r : Regex) (cs : List Char) : Prop :=
  r.Lang cs ∨ ∃ u, cs = u ++ ['\n'] ∧ r.Lang u

/-- The groups that a search returns are those of a match. -/
theorem matches_of_search (h : search r cs = some gs) :
    ∃ u, (cs = u ∨ cs = u ++ ['\n']) ∧ Matches r u gs := by
  rw [search, Option.map_eq_some_iff] at h
  obtain ⟨⟨gs', rest⟩, hfind, rfl⟩ := h
  obtain ⟨u, rfl, hu⟩ := mem_ends.mp (List.mem_of_find?_eq_some hfind)
  refine ⟨u, ?_, hu⟩
  rcases atEnd_iff.mp (by simpa using List.find?_some hfind) with rfl | rfl
  · exact Or.inl (List.append_nil u)
  · exact Or.inr rfl

/-- An anchored search accepts the language, and one newline more. -/
theorem isSome_search_iff : (search r cs).isSome = true ↔ r.LangOrNewline cs := by
  constructor
  · intro h
    obtain ⟨gs, hgs⟩ := Option.isSome_iff_exists.mp h
    obtain ⟨u, rfl | rfl, hu⟩ := matches_of_search hgs
    · exact Or.inl ⟨gs, hu⟩
    · exact Or.inr ⟨u, rfl, gs, hu⟩
  · have hfound : ∀ u rest gs, cs = u ++ rest → Matches r u gs → atEnd rest = true →
        (search r cs).isSome = true := by
      intro u rest gs hcs hu hend
      rw [search, Option.isSome_map, List.find?_isSome]
      exact ⟨(gs, rest), mem_ends.mpr ⟨u, hcs, hu⟩, hend⟩
    rintro (⟨gs, hu⟩ | ⟨u, hcs, gs, hu⟩)
    · exact hfound cs [] gs (List.append_nil cs).symm hu rfl
    · exact hfound u ['\n'] gs hcs hu rfl

end Matcher

/-- No class of the expression has the character. -/
def Avoids (c : Char) : Regex → Prop
  | empty => True
  | cls p => p c = false
  | cat r r' => Avoids c r ∧ Avoids c r'
  | opt r => Avoids c r
  | rep p _ _ => p c = false
  | group r => Avoids c r

theorem avoids_times {c : Char} {r : Regex} (h : r.Avoids c) (n : ℕ) : (r.times n).Avoids c := by
  induction n with
  | zero => trivial
  | succ n ih => exact ⟨h, ih⟩

theorem notMem_of_avoids {c : Char} {r : Regex} {u : List Char} {gs : List (List Char)}
    (hu : Matches r u gs) (h : r.Avoids c) : c ∉ u := by
  induction hu with
  | empty => exact List.not_mem_nil
  | cls hd =>
    intro hc
    obtain rfl := List.mem_singleton.mp hc
    exact absurd hd (by simp [show _ = false from h])
  | cat _ _ ih ih' =>
    intro hc
    rcases List.mem_append.mp hc with hc | hc
    · exact ih h.1 hc
    · exact ih' h.2 hc
  | skip => exact List.not_mem_nil
  | opt _ ih => exact ih h
  | rep hd =>
    intro hc
    exact absurd (hd c hc) (by simp [show _ = false from h])
  | group _ ih => exact ih h

/-- Every class of the expression is part of one class. -/
def Within (p : Char → Bool) : Regex → Prop
  | empty => True
  | cls q => ∀ c, q c = true → p c = true
  | cat r r' => Within p r ∧ Within p r'
  | opt r => Within p r
  | rep q _ _ => ∀ c, q c = true → p c = true
  | group r => Within p r

theorem mem_of_within {p : Char → Bool} {r : Regex} {u : List Char} (hu : r.Lang u)
    (h : r.Within p) {c : Char} (hc : c ∈ u) : p c = true := by
  obtain ⟨gs, hu⟩ := hu
  induction hu with
  | empty => cases hc
  | cls hd =>
    rw [List.mem_singleton.mp hc]
    exact h _ hd
  | cat _ _ ih ih' =>
    rcases List.mem_append.mp hc with hc | hc
    · exact ih h.1 hc
    · exact ih' h.2 hc
  | skip => cases hc
  | opt _ ih => exact ih h hc
  | rep hd => exact h c (hd c hc)
  | group _ ih => exact ih h hc

/-- An anchored search keeps to the language exactly where no newline is left over. -/
theorem isSome_search_iff_lang {r : Regex} {cs : List Char} (h : r.Avoids '\n') :
    ((search r cs).isSome = true ↔ r.Lang cs) ↔ ¬ ∃ u, cs = u ++ ['\n'] ∧ r.Lang u := by
  rw [isSome_search_iff, LangOrNewline]
  constructor
  · rintro hkeeps ⟨u, rfl, hu⟩
    obtain ⟨gs, hgs⟩ := hkeeps.mp (Or.inr ⟨u, rfl, hu⟩)
    exact notMem_of_avoids hgs h (by simp)
  · intro hnone
    exact or_iff_left hnone

end Regex
end Text
