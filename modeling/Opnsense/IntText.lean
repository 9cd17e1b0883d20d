import Opnsense.FieldTypes
import Opnsense.Text.Split
import Mathlib.Data.List.Forall2

namespace Opnsense

/-- Digits, at least one, with the number that they denote. -/
def Numeral (decimal : Char → Option ℕ) (cs : List Char) (n : ℕ) : Prop :=
  cs ≠ [] ∧ ∃ ds, List.Forall₂ (fun c d => decimal c = some d) cs ds ∧ valueOf ds = n

/-- Groups of digits with single underscores between them. -/
def Grouped (decimal : Char → Option ℕ) (cs : List Char) (n : ℕ) : Prop :=
  ∃ groups : List (List Char), groups ≠ [] ∧ (∀ g ∈ groups, g ≠ []) ∧
    cs = ['_'].intercalate groups ∧ Numeral decimal groups.flatten n

inductive Signed (P : List Char → ℕ → Prop) : List Char → ℤ → Prop
  | bare {cs : List Char} {n : ℕ} (h : P cs n) : Signed P cs n
  | plus {cs : List Char} {n : ℕ} (h : P cs n) : Signed P ('+' :: cs) n
  | minus {cs : List Char} {n : ℕ} (h : P cs n) : Signed P ('-' :: cs) (-n)

/-- What `int` reads: blanks around it, underscores in it, and any decimal digits. -/
def IntLiteral (decimal : Char → Option ℕ) (cs : List Char) (n : ℤ) : Prop :=
  ∃ before body after : List Char, cs = before ++ body ++ after ∧
    (∀ c ∈ before, isIntSpace c = true) ∧ (∀ c ∈ after, isIntSpace c = true) ∧
    Signed (Grouped decimal) body n

def isAsciiDigit (c : Char) : Bool := 0x30 ≤ c.toNat && c.toNat ≤ 0x39

def asciiDecimal (c : Char) : Option ℕ := if isAsciiDigit c then some (c.toNat - 0x30) else none

/-- An optionally signed decimal integer in ASCII. -/
def PlainInt : List Char → ℤ → Prop := Signed (Numeral asciiDecimal)

def isPlainIntChar (c : Char) : Bool := isAsciiDigit c || c == '+' || c == '-'

section Strip

variable {p : Char → Bool} {cs before body after : List Char}

theorem exists_around_strip (p : Char → Bool) (cs : List Char) : ∃ before after,
    cs = before ++ (cs.dropWhile p).rdropWhile p ++ after ∧
      (∀ c ∈ before, p c = true) ∧ ∀ c ∈ after, p c = true := by
  let mid := cs.dropWhile p
  refine ⟨cs.takeWhile p, mid.rtakeWhile p, ?_, ?_, ?_⟩
  · have hmid : mid.rdropWhile p ++ mid.rtakeWhile p = mid := by
      rw [List.rdropWhile, List.rtakeWhile, ← List.reverse_append, List.takeWhile_append_dropWhile,
        List.reverse_reverse]
    rw [List.append_assoc, hmid]
    exact List.takeWhile_append_dropWhile.symm
  · exact fun c hc => List.mem_takeWhile_imp hc
  · intro c hc
    rw [List.rtakeWhile, List.mem_reverse] at hc
    exact List.mem_takeWhile_imp hc

/-- Blanks around a text without blanks are what stripping removes. -/
theorem strip_around (hbefore : ∀ c ∈ before, p c = true) (hafter : ∀ c ∈ after, p c = true)
    (hbody : ∀ c ∈ body, p c = false) (hne : body ≠ []) :
    ((before ++ body ++ after).dropWhile p).rdropWhile p = body := by
  have hkeep : ∀ cs : List Char, (∀ c ∈ cs, p c = false) → cs ≠ [] → ∀ rest,
      (cs ++ rest).dropWhile p = cs ++ rest := by
    intro cs hcs hne rest
    obtain ⟨c, cs, rfl⟩ := List.exists_cons_of_ne_nil hne
    rw [List.cons_append, List.dropWhile_cons_of_neg]
    simp [hcs c List.mem_cons_self]
  have hfront : (before ++ body ++ after).dropWhile p = body ++ after := by
    rw [List.append_assoc, List.dropWhile_append_of_pos hbefore]
    exact hkeep body hbody hne after
  have hback : (after.reverse ++ body.reverse).dropWhile p = body.reverse := by
    rw [List.dropWhile_append_of_pos (by simpa using hafter)]
    simpa using hkeep body.reverse (by simpa using hbody) (by simpa using hne) []
  rw [hfront, List.rdropWhile, List.reverse_append, hback, List.reverse_reverse]

end Strip

section Numerals

variable {py : Interpreter} {decimal decimal' : Char → Option ℕ} {cs : List Char} {n : ℕ}

theorem Numeral.isSome_of_mem (h : Numeral decimal cs n) {c : Char} (hc : c ∈ cs) :
    (decimal c).isSome = true := by
  obtain ⟨-, ds, hds, -⟩ := h
  obtain ⟨i, hi, rfl⟩ := List.getElem_of_mem hc
  have := hds.get hi (hds.length_eq ▸ hi)
  exact Option.isSome_iff_exists.mpr ⟨_, this⟩

/-- A numeral is one under any reading that agrees on its characters. -/
theorem Numeral.congr (h : ∀ c ∈ cs, decimal c = decimal' c) :
    Numeral decimal cs n ↔ Numeral decimal' cs n := by
  have hall : ∀ ds, List.Forall₂ (fun c d => decimal c = some d) cs ds ↔
      List.Forall₂ (fun c d => decimal' c = some d) cs ds := by
    intro ds
    induction cs generalizing ds with
    | nil => rw [List.forall₂_nil_left_iff, List.forall₂_nil_left_iff]
    | cons c cs ih =>
      cases ds with
      | nil => simp
      | cons d ds =>
        rw [List.forall₂_cons, List.forall₂_cons, h c List.mem_cons_self,
          ih (fun c hc => h c (List.mem_cons_of_mem _ hc)) ds]
  rw [Numeral, Numeral]
  exact and_congr_right fun _ => exists_congr fun ds => and_congr_left fun _ => hall ds

theorem mapM_eq_some_iff {f : Char → Option ℕ} {ds : List ℕ} :
    cs.mapM f = some ds ↔ List.Forall₂ (fun c d => f c = some d) cs ds := by
  induction cs generalizing ds with
  | nil =>
    rw [List.forall₂_nil_left_iff, List.mapM_nil]
    exact ⟨fun h => (Option.some.inj h).symm, fun h => h ▸ rfl⟩
  | cons c cs ih =>
    rw [List.mapM_cons, List.forall₂_cons_left_iff]
    constructor
    · intro h
      obtain ⟨d, hd, hrest⟩ := Option.bind_eq_some_iff.mp h
      obtain ⟨ds', hds', heq⟩ := Option.bind_eq_some_iff.mp hrest
      exact ⟨d, ds', hd, ih.mp hds', (Option.some.inj heq).symm⟩
    · rintro ⟨d, ds', hd, hds', rfl⟩
      rw [hd, ih.mpr hds']
      rfl

theorem digitsOf_eq_some_iff : digitsOf py cs = some n ↔
    Numeral py.decimal cs n ∧ ¬ (0 < py.maxStrDigits ∧ py.maxStrDigits < cs.length) := by
  rw [digitsOf, Numeral]
  by_cases hrefused : cs.isEmpty ∨ 0 < py.maxStrDigits ∧ py.maxStrDigits < cs.length
  · rw [if_pos hrefused]
    constructor
    · intro h
      cases h
    · rintro ⟨⟨hne, -⟩, hshort⟩
      rcases hrefused with hempty | hlong
      · exact absurd (List.isEmpty_iff.mp hempty) hne
      · exact absurd hlong hshort
  · rw [if_neg hrefused, Option.map_eq_some_iff]
    obtain ⟨hne, hshort⟩ := not_or.mp hrefused
    have hne : cs ≠ [] := fun h => hne (List.isEmpty_iff.mpr h)
    constructor
    · rintro ⟨ds, hds, hn⟩
      exact ⟨⟨hne, ds, mapM_eq_some_iff.mp hds, hn⟩, hshort⟩
    · rintro ⟨⟨-, ds, hds, hn⟩, -⟩
      exact ⟨ds, mapM_eq_some_iff.mpr hds, hn⟩

end Numerals

section Literals

variable {py : Interpreter} {cs : List Char} {n : ℕ}

/-- More digits than `int` reads. -/
def TooLong (py : Interpreter) (cs : List Char) : Prop :=
  0 < py.maxStrDigits ∧ py.maxStrDigits < cs.countP fun c => (py.decimal c).isSome

theorem decimal_eq_asciiDecimal {c : Char} (hc : c.toNat < 0x80) :
    py.decimal c = asciiDecimal c := by
  rw [py.decimal_ascii c hc, asciiDecimal]
  exact if_congr (by simp [isAsciiDigit]) rfl rfl

theorem decimal_of_isAsciiDigit {c : Char} (hc : isAsciiDigit c = true) :
    py.decimal c = asciiDecimal c := by
  simp only [isAsciiDigit, Bool.and_eq_true, decide_eq_true_eq] at hc
  exact decimal_eq_asciiDecimal (by omega)

theorem decimal_underscore : py.decimal '_' = none := decimal_eq_asciiDecimal (by decide)

theorem decimal_plus : py.decimal '+' = none := decimal_eq_asciiDecimal (by decide)

theorem decimal_minus : py.decimal '-' = none := decimal_eq_asciiDecimal (by decide)

theorem isIntSpace_of_decimal {c : Char} (hc : (py.decimal c).isSome = true) :
    isIntSpace c = false := by
  obtain ⟨d, hd⟩ := Option.isSome_iff_exists.mp hc
  rw [isIntSpace, py.decimal_isSpace c d hd, Bool.false_and]

/-- The digits of a text with underscores are those that are left without them. -/
theorem countP_decimal (h : ∀ c ∈ cs.filter (· ≠ '_'), (py.decimal c).isSome = true) :
    (cs.countP fun c => (py.decimal c).isSome) = (cs.filter (· ≠ '_')).length := by
  rw [List.countP_eq_length_filter]
  have hfilter : (cs.filter fun c => (py.decimal c).isSome) = cs.filter (· ≠ '_') := by
    apply List.filter_congr
    intro c hc
    by_cases hunderscore : c = '_'
    · rw [hunderscore, decimal_underscore]
      rfl
    · rw [h c (List.mem_filter.mpr ⟨hc, by simpa using hunderscore⟩)]
      simpa using hunderscore
  rw [hfilter]

/-- The groups of a text are those between its underscores. -/
theorem grouped_iff : Grouped py.decimal cs n ↔
    (∀ g ∈ cs.splitOn '_', g ≠ []) ∧ Numeral py.decimal (cs.filter (· ≠ '_')) n := by
  constructor
  · rintro ⟨groups, hne, hgroups, rfl, hnumeral⟩
    -- an underscore in a group would be a digit
    have hdigits : ∀ g ∈ groups, '_' ∉ g := by
      intro g hg hunderscore
      have := hnumeral.isSome_of_mem (List.mem_flatten.mpr ⟨g, hg, hunderscore⟩)
      rw [decimal_underscore] at this
      cases this
    rw [← Text.flatten_splitOn, List.splitOn_intercalate '_' hdigits hne]
    exact ⟨hgroups, hnumeral⟩
  · rintro ⟨hgroups, hnumeral⟩
    refine ⟨cs.splitOn '_', List.splitOn_ne_nil '_' cs, hgroups, ?_, ?_⟩
    · exact (List.intercalate_splitOn '_').symm
    · rwa [Text.flatten_splitOn]

theorem unsignedOf_eq_some_iff :
    unsignedOf py cs = some n ↔ Grouped py.decimal cs n ∧ ¬ TooLong py cs := by
  rw [unsignedOf, grouped_iff]
  by_cases hany : (cs.splitOn '_').any List.isEmpty = true
  · rw [if_pos hany]
    constructor
    · intro h
      cases h
    · rintro ⟨⟨hgroups, -⟩, -⟩
      obtain ⟨g, hg, hempty⟩ := List.any_eq_true.mp hany
      exact absurd (List.isEmpty_iff.mp hempty) (hgroups g hg)
  · have hgroups : ∀ g ∈ cs.splitOn '_', g ≠ [] := by
      intro g hg hempty
      exact hany (List.any_eq_true.mpr ⟨g, hg, List.isEmpty_iff.mpr hempty⟩)
    rw [if_neg hany, digitsOf_eq_some_iff, TooLong]
    constructor
    · rintro ⟨hnumeral, hshort⟩
      rw [countP_decimal fun c hc => hnumeral.isSome_of_mem hc]
      exact ⟨⟨hgroups, hnumeral⟩, hshort⟩
    · rintro ⟨⟨-, hnumeral⟩, hshort⟩
      rw [countP_decimal fun c hc => hnumeral.isSome_of_mem hc] at hshort
      exact ⟨hnumeral, hshort⟩

/-- A text of digits and underscores begins with no sign, and has no blank. -/
theorem Grouped.mem (h : Grouped py.decimal cs n) {c : Char} (hc : c ∈ cs) :
    c = '_' ∨ (py.decimal c).isSome = true := by
  by_cases hunderscore : c = '_'
  · exact Or.inl hunderscore
  · have hkept : c ∈ cs.filter (· ≠ '_') := List.mem_filter.mpr ⟨hc, by simpa using hunderscore⟩
    exact Or.inr ((grouped_iff.mp h).2.isSome_of_mem hkept)

theorem Grouped.ne_nil (h : Grouped py.decimal cs n) : cs ≠ [] := by
  rintro rfl
  exact (grouped_iff.mp h).2.1 rfl

theorem Grouped.not_sign {c : Char} (h : Grouped py.decimal (c :: cs) n) : c ≠ '+' ∧ c ≠ '-' := by
  constructor
  · rintro rfl
    rcases h.mem List.mem_cons_self with hunderscore | hdecimal
    · exact absurd hunderscore (by decide)
    · rw [decimal_plus] at hdecimal
      cases hdecimal
  · rintro rfl
    rcases h.mem List.mem_cons_self with hunderscore | hdecimal
    · exact absurd hunderscore (by decide)
    · rw [decimal_minus] at hdecimal
      cases hdecimal

/-- The case distinction on the sign. -/
theorem signed_iff {body : List Char} {z : ℤ} :
    (match body with
      | '-' :: cs => (unsignedOf py cs).map fun n : ℕ => -(n : ℤ)
      | '+' :: cs => (unsignedOf py cs).map fun n : ℕ => (n : ℤ)
      | cs => (unsignedOf py cs).map fun n : ℕ => (n : ℤ)) = some z ↔
      Signed (Grouped py.decimal) body z ∧ ¬ TooLong py body := by
  have hcount : ∀ c cs, py.decimal c = none → (TooLong py (c :: cs) ↔ TooLong py cs) := by
    intro c cs hc
    rw [TooLong, TooLong, List.countP_cons_of_neg (by simp [hc])]
  split
  · rename_i cs
    rw [Option.map_eq_some_iff, hcount _ _ decimal_minus]
    constructor
    · rintro ⟨n, hn, rfl⟩
      obtain ⟨hgrouped, hshort⟩ := unsignedOf_eq_some_iff.mp hn
      exact ⟨.minus hgrouped, hshort⟩
    · rintro ⟨hsigned, hshort⟩
      cases hsigned with
      | bare h => exact absurd rfl h.not_sign.2
      | minus h => exact ⟨_, unsignedOf_eq_some_iff.mpr ⟨h, hshort⟩, rfl⟩
  · rename_i cs
    rw [Option.map_eq_some_iff, hcount _ _ decimal_plus]
    constructor
    · rintro ⟨n, hn, rfl⟩
      obtain ⟨hgrouped, hshort⟩ := unsignedOf_eq_some_iff.mp hn
      exact ⟨.plus hgrouped, hshort⟩
    · rintro ⟨hsigned, hshort⟩
      cases hsigned with
      | bare h => exact absurd rfl h.not_sign.1
      | plus h => exact ⟨_, unsignedOf_eq_some_iff.mpr ⟨h, hshort⟩, rfl⟩
  -- no sign
  · rename_i hminus hplus
    rw [Option.map_eq_some_iff]
    constructor
    · rintro ⟨n, hn, rfl⟩
      obtain ⟨hgrouped, hshort⟩ := unsignedOf_eq_some_iff.mp hn
      exact ⟨.bare hgrouped, hshort⟩
    · rintro ⟨hsigned, hshort⟩
      cases hsigned with
      | bare h => exact ⟨_, unsignedOf_eq_some_iff.mpr ⟨h, hshort⟩, rfl⟩
      | plus h => exact absurd rfl (hplus _)
      | minus h => exact absurd rfl (hminus _)

theorem Signed.mem {body : List Char} {z : ℤ} (h : Signed (Grouped py.decimal) body z) {c : Char}
    (hc : c ∈ body) : c = '+' ∨ c = '-' ∨ c = '_' ∨ (py.decimal c).isSome = true := by
  cases h with
  | bare h => exact Or.inr (Or.inr (h.mem hc))
  | plus h =>
    rcases List.mem_cons.mp hc with rfl | hc
    · exact Or.inl rfl
    · exact Or.inr (Or.inr (h.mem hc))
  | minus h =>
    rcases List.mem_cons.mp hc with rfl | hc
    · exact Or.inr (Or.inl rfl)
    · exact Or.inr (Or.inr (h.mem hc))

theorem Signed.not_space {body : List Char} {z : ℤ} (h : Signed (Grouped py.decimal) body z) :
    ∀ c ∈ body, isIntSpace c = false := by
  intro c hc
  rcases h.mem hc with rfl | rfl | rfl | hdecimal
  · decide
  · decide
  · decide
  · exact isIntSpace_of_decimal hdecimal

theorem Signed.ne_nil {body : List Char} {z : ℤ} (h : Signed (Grouped py.decimal) body z) :
    body ≠ [] := by
  cases h with
  | bare h => exact h.ne_nil
  | plus h => exact List.cons_ne_nil _ _
  | minus h => exact List.cons_ne_nil _ _

/-- Blanks count for no digits. -/
theorem tooLong_around {before body after : List Char}
    (hbefore : ∀ c ∈ before, isIntSpace c = true) (hafter : ∀ c ∈ after, isIntSpace c = true) :
    TooLong py (before ++ body ++ after) ↔ TooLong py body := by
  have hblank : ∀ cs : List Char, (∀ c ∈ cs, isIntSpace c = true) →
      (cs.countP fun c => (py.decimal c).isSome) = 0 := by
    intro cs hcs
    rw [List.countP_eq_zero]
    intro c hc hdecimal
    have hspace := hcs c hc
    rw [isIntSpace_of_decimal hdecimal] at hspace
    cases hspace
  rw [TooLong, TooLong, List.countP_append, List.countP_append, hblank before hbefore,
    hblank after hafter, Nat.zero_add, Nat.add_zero]

/-- `int` reads the literals of its grammar, but for those with too many digits. -/
theorem pyInt_eq_some_iff {s : String} {z : ℤ} :
    pyInt py s = some z ↔ IntLiteral py.decimal s.toList z ∧ ¬ TooLong py s.toList := by
  rw [pyInt]
  constructor
  · intro h
    obtain ⟨hsigned, hshort⟩ := signed_iff.mp h
    obtain ⟨before, after, heq, hbefore, hafter⟩ := exists_around_strip isIntSpace s.toList
    refine ⟨⟨before, intStrip s.toList, after, heq, hbefore, hafter, hsigned⟩, ?_⟩
    rw [heq, tooLong_around hbefore hafter]
    exact hshort
  · rintro ⟨⟨before, body, after, heq, hbefore, hafter, hsigned⟩, hshort⟩
    have hbody : intStrip s.toList = body := by
      rw [heq, intStrip]
      exact strip_around hbefore hafter hsigned.not_space hsigned.ne_nil
    rw [heq, tooLong_around hbefore hafter] at hshort
    rw [hbody]
    exact signed_iff.mpr ⟨hsigned, hshort⟩

variable (py) in
/-- A numeral in ASCII is one group of digits. -/
theorem numeral_ascii_iff : Numeral asciiDecimal cs n ↔
    Grouped py.decimal cs n ∧ ∀ c ∈ cs, isAsciiDigit c = true := by
  have hagree : (∀ c ∈ cs, isAsciiDigit c = true) →
      (Numeral asciiDecimal cs n ↔ Numeral py.decimal cs n) := by
    intro hascii
    exact Numeral.congr fun c hc => (decimal_of_isAsciiDigit (hascii c hc)).symm
  constructor
  · intro h
    have hascii : ∀ c ∈ cs, isAsciiDigit c = true := by
      intro c hc
      have hsome := h.isSome_of_mem hc
      rw [asciiDecimal] at hsome
      by_contra hdigit
      rw [if_neg hdigit] at hsome
      cases hsome
    refine ⟨⟨[cs], List.cons_ne_nil _ _, ?_, List.intercalate_singleton.symm, ?_⟩, hascii⟩
    · intro g hg
      rw [List.mem_singleton.mp hg]
      exact h.1
    · rw [List.flatten_singleton]
      exact (hagree hascii).mp h
  · rintro ⟨hgrouped, hascii⟩
    have hkept : cs.filter (· ≠ '_') = cs := by
      rw [List.filter_eq_self]
      intro c hc
      have hne : c ≠ '_' := by
        rintro rfl
        exact absurd (hascii _ hc) (by decide)
      simpa using hne
    have hnumeral := (grouped_iff.mp hgrouped).2
    rw [hkept] at hnumeral
    exact (hagree hascii).mpr hnumeral

theorem isAsciiDigit_of_plain {c : Char} (hplain : isPlainIntChar c = true)
    (hc : c = '_' ∨ (py.decimal c).isSome = true) : isAsciiDigit c = true := by
  rw [isPlainIntChar, Bool.or_eq_true, Bool.or_eq_true, beq_iff_eq, beq_iff_eq] at hplain
  rcases hplain with (hdigit | rfl) | rfl
  · exact hdigit
  · rw [decimal_plus] at hc
    exact absurd hc (by decide)
  · rw [decimal_minus] at hc
    exact absurd hc (by decide)

theorem plain_of_digits (h : ∀ c ∈ cs, isAsciiDigit c = true) :
    ∀ c ∈ cs, isPlainIntChar c = true := by
  intro c hc
  rw [isPlainIntChar, h c hc]
  rfl

variable (py) in
theorem plain_signed_iff {z : ℤ} : PlainInt cs z ↔
    Signed (Grouped py.decimal) cs z ∧ ∀ c ∈ cs, isPlainIntChar c = true := by
  have hdigits : ∀ cs n, Grouped py.decimal cs n → (∀ c ∈ cs, isPlainIntChar c = true) →
      Numeral asciiDecimal cs n := by
    intro cs n h hplain
    refine (numeral_ascii_iff py).mpr ⟨h, fun c hc => ?_⟩
    exact isAsciiDigit_of_plain (hplain c hc) (h.mem hc)
  constructor
  · intro h
    cases h with
    | bare h =>
      obtain ⟨hgrouped, hascii⟩ := (numeral_ascii_iff py).mp h
      exact ⟨.bare hgrouped, plain_of_digits hascii⟩
    | plus h =>
      obtain ⟨hgrouped, hascii⟩ := (numeral_ascii_iff py).mp h
      exact ⟨.plus hgrouped, List.forall_mem_cons.mpr ⟨rfl, plain_of_digits hascii⟩⟩
    | minus h =>
      obtain ⟨hgrouped, hascii⟩ := (numeral_ascii_iff py).mp h
      exact ⟨.minus hgrouped, List.forall_mem_cons.mpr ⟨rfl, plain_of_digits hascii⟩⟩
  · rintro ⟨hsigned, hplain⟩
    cases hsigned with
    | bare h => exact .bare (hdigits _ _ h hplain)
    | plus h => exact .plus (hdigits _ _ h fun c hc => hplain c (List.mem_cons_of_mem _ hc))
    | minus h => exact .minus (hdigits _ _ h fun c hc => hplain c (List.mem_cons_of_mem _ hc))

theorem isIntSpace_of_plain {c : Char} (h : isPlainIntChar c = true) : isIntSpace c = false := by
  rw [isPlainIntChar, Bool.or_eq_true, Bool.or_eq_true, beq_iff_eq, beq_iff_eq] at h
  rcases h with (hdigit | rfl) | rfl
  · have hsome : (interpreter.decimal c).isSome = true := by
      rw [decimal_of_isAsciiDigit hdigit, asciiDecimal, if_pos hdigit]
      rfl
    exact isIntSpace_of_decimal hsome
  · decide
  · decide

variable (py) in
/-- The plain integers are the literals of plain characters. -/
theorem plainInt_iff {z : ℤ} : PlainInt cs z ↔
    IntLiteral py.decimal cs z ∧ ∀ c ∈ cs, isPlainIntChar c = true := by
  rw [plain_signed_iff py]
  apply and_congr_left
  intro hplain
  constructor
  · intro h
    refine ⟨[], cs, [], ?_, ?_, ?_, h⟩
    · rw [List.nil_append, List.append_nil]
    · exact List.forall_mem_nil _
    · exact List.forall_mem_nil _
  · rintro ⟨before, body, after, rfl, hbefore, hafter, hsigned⟩
    -- blanks are not plain, so there are none
    have hnone : ∀ cs : List Char, (∀ c ∈ cs, isIntSpace c = true) →
        (∀ c ∈ cs, isPlainIntChar c = true) → cs = [] := by
      intro cs hspace hplain
      rw [List.eq_nil_iff_forall_not_mem]
      intro c hc
      have hblank := isIntSpace_of_plain (hplain c hc)
      rw [hspace c hc] at hblank
      cases hblank
    have hbefore : before = [] := hnone before hbefore fun c hc => hplain c (by simp [hc])
    have hafter : after = [] := hnone after hafter fun c hc => hplain c (by simp [hc])
    rw [hbefore, hafter, List.nil_append, List.append_nil]
    exact hsigned

end Literals
end Opnsense
