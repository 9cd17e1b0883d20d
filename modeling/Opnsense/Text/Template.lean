import Opnsense.Text.Replace

namespace Text

/-- A text with holes; `none` is a hole. -/
abbrev Template := List (Option Char)

namespace Template

/-- The text with `s` in the holes. -/
def fill (s : List Char) (T : Template) : List Char :=
  T.flatMap fun piece => match piece with
    | some c => [c]
    | none => s

/-- A text without holes. -/
def lit (cs : List Char) : Template := cs.map some

@[simp] theorem fill_nil (s : List Char) : fill s [] = [] := rfl

@[simp] theorem fill_some (s : List Char) (c : Char) (T : Template) :
    fill s (some c :: T) = c :: fill s T := rfl

@[simp] theorem fill_none (s : List Char) (T : Template) :
    fill s (none :: T) = s ++ fill s T := rfl

@[simp] theorem fill_append (s : List Char) (T T' : Template) :
    fill s (T ++ T') = fill s T ++ fill s T' := List.flatMap_append

@[simp] theorem fill_lit (s cs : List Char) : fill s (lit cs) = cs := by
  induction cs with
  | nil => rfl
  | cons c cs ih => exact congrArg (c :: ·) ih

variable {s s' new : List Char} {T : Template}

/-- No occurrence of `s` begins at a character of the template itself. -/
def QuotedOnly (s : List Char) : Template → Prop
  | [] => True
  | some c :: T => ¬ s <+: c :: fill s T ∧ QuotedOnly s T
  | none :: T => QuotedOnly s T

instance decidableQuotedOnly (s : List Char) : (T : Template) → Decidable (QuotedOnly s T)
  | [] => .isTrue trivial
  | some _ :: T => @instDecidableAnd _ _ _ (decidableQuotedOnly s T)
  | none :: T => decidableQuotedOnly s T

/-- A text that lacks the first character of `s` has no occurrence of it. -/
theorem quotedOnly_of_head {c : Char} (hT : some c ∉ T) : QuotedOnly (c :: s) T := by
  induction T with
  | nil => trivial
  | cons piece T ih =>
    have hrest := ih fun hmem => hT (List.mem_cons_of_mem _ hmem)
    cases piece with
    | none => exact hrest
    | some d =>
      refine ⟨fun hbegins => ?_, hrest⟩
      obtain ⟨rfl, -⟩ := List.cons_prefix_cons.mp hbegins
      exact hT List.mem_cons_self

/-- The first `n` characters, for a filling of length `len`: the template of what is left whole,
and how many characters of a hole that is cut follow. -/
def cut (len : ℕ) : ℕ → Template → Template × ℕ
  | 0, _ => ([], 0)
  | _ + 1, [] => ([], 0)
  | n + 1, some c :: T => (some c :: (cut len n T).1, (cut len n T).2)
  | n + 1, none :: T =>
    if len ≤ n + 1 then (none :: (cut len (n + 1 - len) T).1, (cut len (n + 1 - len) T).2)
    else ([], n + 1)

theorem take_fill (n : ℕ) (T : Template) :
    (fill s T).take n = fill s (cut s.length n T).1 ++ s.take (cut s.length n T).2 := by
  induction T generalizing n with
  | nil => cases n <;> simp [cut]
  | cons piece T ih =>
    cases n with
    | zero => simp [cut]
    | succ n =>
      cases piece with
      | some c => simp [cut, ih]
      | none =>
        rw [fill_none, cut, List.take_append]
        by_cases hlen : s.length ≤ n + 1
        · rw [if_pos hlen, ih, List.take_of_length_le hlen, fill_none, List.append_assoc]
        · rw [if_neg hlen, Nat.sub_eq_zero_of_le (not_le.mp hlen).le, List.take_zero]
          simp

theorem replaced_of_short {t : List Char} (ht : t.length < s.length) : Replaced s new t t := by
  induction t with
  | nil => exact .nil
  | cons c t ih =>
    refine .miss (fun hbegins => ?_) (ih (Nat.lt_of_succ_lt ht))
    exact absurd hbegins.length_le (not_le.mpr ht)

/-- Replacing what is quoted, in a text that may be cut within a quote. -/
theorem replaced_take (h : QuotedOnly s T) (n : ℕ) :
    Replaced s new ((fill s T).take n)
      (fill new (cut s.length n T).1 ++ s.take (cut s.length n T).2) := by
  induction T generalizing n with
  | nil => cases n <;> exact .nil
  | cons piece T ih =>
    cases n with
    | zero => exact .nil
    | succ n =>
      cases piece with
      | some c =>
        refine .miss (fun hbegins => h.1 (hbegins.trans ?_)) (ih h.2 n)
        exact List.take_prefix (n + 1) (c :: fill s T)
      | none =>
        rw [fill_none, cut, List.take_append]
        by_cases hlen : s.length ≤ n + 1
        · rw [if_pos hlen, List.take_of_length_le hlen, fill_none, List.append_assoc]
          exact .hit (ih h _)
        · have hshort := not_le.mp hlen
          rw [if_neg hlen, Nat.sub_eq_zero_of_le hshort.le, List.take_zero, List.append_nil]
          refine replaced_of_short ?_
          rw [List.length_take]
          omega

theorem replaced_fill (h : QuotedOnly s T) : Replaced s new (fill s T) (fill new T) := by
  induction T with
  | nil => exact .nil
  | cons piece T ih =>
    cases piece with
    | some c => exact .miss h.1 (ih h.2)
    | none => exact .hit (ih h)

/-- Two fillings of one length differ exactly if they are put into some hole. -/
theorem fill_inj (hlength : s.length = s'.length) :
    fill s T = fill s' T ↔ (none ∈ T → s = s') := by
  induction T with
  | nil => simp
  | cons piece T ih =>
    cases piece with
    | some c => simp [ih]
    | none =>
      rw [fill_none, fill_none]
      constructor
      · intro h _
        exact (List.append_inj h hlength).1
      · intro h
        rw [h List.mem_cons_self]

theorem length_fill (hlength : s.length = s'.length) : (fill s T).length = (fill s' T).length := by
  induction T with
  | nil => rfl
  | cons piece T ih =>
    cases piece with
    | some c => rw [fill_some, fill_some, List.length_cons, List.length_cons, ih]
    | none => rw [fill_none, fill_none, List.length_append, List.length_append, ih, hlength]

/-- A text shorter than the filling is got without holes only. -/
theorem fill_eq_iff {cs : List Char} (hcs : cs.length < s.length) :
    fill s T = cs ↔ T = lit cs := by
  induction T generalizing cs with
  | nil => cases cs <;> simp [lit]
  | cons piece T ih =>
    cases piece with
    | some c =>
      cases cs with
      | nil => simp [lit]
      | cons d cs =>
        have hrest := ih (Nat.lt_of_succ_lt hcs)
        simp only [fill_some, lit, List.map_cons, List.cons.injEq, Option.some.injEq, hrest]
    | none =>
      constructor
      · intro h
        have hlength := congrArg List.length h
        rw [fill_none, List.length_append] at hlength
        omega
      · intro h
        cases cs <;> cases h

theorem mem_fill_iff {x : Char} (hx : x ∉ s) : x ∈ fill s T ↔ some x ∈ T := by
  induction T with
  | nil => simp
  | cons piece T ih =>
    cases piece with
    | some c => simp [ih]
    | none => simp [ih, hx]

/-- Each character of the template itself replaced by a text. -/
def mapChars (f : Char → List Char) (T : Template) : Template :=
  T.flatMap fun piece => match piece with
    | some c => lit (f c)
    | none => [none]

/-- A map of the characters that keeps those of the filling goes into the template. -/
theorem flatMap_fill {f : Char → List Char} (hf : ∀ c ∈ s, f c = [c]) :
    (fill s T).flatMap f = fill s (T.mapChars f) := by
  have hs : s.flatMap f = s := by
    rw [List.flatMap_congr hf]
    exact List.flatMap_singleton' s
  induction T with
  | nil => rfl
  | cons piece T ih =>
    cases piece with
    | some c =>
      rw [fill_some, List.flatMap_cons, mapChars, List.flatMap_cons, fill_append, fill_lit, ih]
      rfl
    | none =>
      have hhole : fill s [none] = s := List.append_nil s
      rw [fill_none, List.flatMap_append, mapChars, List.flatMap_cons, fill_append, hs, ih, hhole]
      rfl

theorem fill_intercalate {sep : List Char} {Ts : List Template} :
    fill s ((lit sep).intercalate Ts) = sep.intercalate (Ts.map (fill s)) := by
  induction Ts with
  | nil => rfl
  | cons T Ts ih =>
    cases Ts with
    | nil => simp
    | cons T' Ts =>
      rw [List.intercalate_cons_cons, fill_append, fill_append, ih, fill_lit]
      exact List.intercalate_cons_cons.symm

theorem fill_eq_nil_iff (hs : s ≠ []) : fill s T = [] ↔ T = [] := by
  have hlength : ([] : List Char).length < s.length := List.length_pos_of_ne_nil hs
  exact fill_eq_iff hlength

end Template
end Text
