import Opnsense.TextFields

namespace Opnsense
open Text

/-- A number from 1 to 65535, of at most five digits. -/
def PortNumber (decimal : Char → Option ℕ) (cs : List Char) : Prop :=
  cs.length ≤ 5 ∧ ∃ n, Numeral decimal cs n ∧ 1 ≤ n ∧ n ≤ 65535

/-- A port, or two with a colon between them. -/
def PortText (decimal : Char → Option ℕ) (cs : List Char) : Prop :=
  PortNumber decimal cs ∨ ∃ a b, cs = a ++ ':' :: b ∧ PortNumber decimal a ∧ PortNumber decimal b

/-- An identifier in ASCII. -/
def Identifier (cs : List Char) : Prop :=
  ∃ c rest, cs = c :: rest ∧ isAliasStart c = true ∧ ∀ d ∈ rest, isAliasRest d = true

def InRange (r : FieldRule) (n : ℤ) : Prop :=
  (∀ lo, r.min = some lo → lo ≤ n) ∧ ∀ hi, r.max = some hi → n ≤ hi

/-- A text with the property, and a newline behind it. -/
def NewlineAfter (P : List Char → Prop) (cs : List Char) : Prop := ∃ u, cs = u ++ ['\n'] ∧ P u

section Newline

variable {P : List Char → Prop} {cs u v : List Char}

/-- A text is what is left of at most one text by taking off a newline. -/
theorem eq_of_or_newline (hu : cs = u ∨ cs = u ++ ['\n']) (hv : cs = v ∨ cs = v ++ ['\n'])
    (hnu : '\n' ∉ u) (hnv : '\n' ∉ v) : u = v := by
  rcases hu with rfl | rfl
  · rcases hv with hv | rfl
    · exact hv
    · exact absurd (List.mem_append_right v (List.mem_singleton_self _)) hnu
  · rcases hv with rfl | hv
    · exact absurd (List.mem_append_right u (List.mem_singleton_self _)) hnv
    · exact List.append_cancel_right hv

theorem or_newlineAfter_iff :
    P cs ∨ NewlineAfter P cs ↔ ∃ u, (cs = u ∨ cs = u ++ ['\n']) ∧ P u := by
  constructor
  · rintro (h | ⟨u, hu, h⟩)
    · exact ⟨cs, Or.inl rfl, h⟩
    · exact ⟨u, Or.inr hu, h⟩
  · rintro ⟨u, rfl | hu, h⟩
    · exact Or.inl h
    · exact Or.inr ⟨u, hu, h⟩

/-- What is accepted beside a grammar: the odd texts of a wider one, and a newline behind it. -/
theorem keeps_iff {accepted narrow odd : Prop} (hnewline : ∀ u, P u → '\n' ∉ u)
    (hodd : odd → P cs) (hnarrow : narrow ↔ P cs ∧ ¬ odd)
    (haccepted : accepted ↔ P cs ∨ NewlineAfter P cs) :
    (accepted ↔ narrow) ↔ ¬ NewlineAfter P cs ∧ ¬ odd := by
  rw [haccepted, hnarrow]
  constructor
  · intro hkeeps
    constructor
    · rintro ⟨u, rfl, hu⟩
      have hwhole := (hkeeps.mp (Or.inr ⟨u, rfl, hu⟩)).1
      exact hnewline _ hwhole (List.mem_append_right u (List.mem_singleton_self _))
    · intro h
      exact (hkeeps.mp (Or.inl (hodd h))).2 h
  · rintro ⟨hnone, hplain⟩
    constructor
    · intro h
      exact ⟨h.resolve_right hnone, hplain⟩
    · exact fun h => Or.inl h.1

end Newline

section Patterns

variable {pattern : Pattern} {rule field value : String} {r : FieldRule} {cs : List Char}

theorem validatePattern_eq_ok_iff : validatePattern pattern rule field value r = .ok () ↔
    (pattern.body.search value.toList).isSome = true := by
  rw [validatePattern]
  by_cases h : (pattern.body.search value.toList).isSome = true
  · rw [if_pos h]
    exact iff_of_true rfl h
  · rw [if_neg h]
    exact iff_of_false (by simp) h

/-- A validator that is a search keeps to its pattern exactly where no newline is left over. -/
theorem validatePattern_keeps_iff (h : pattern.body.Avoids '\n') :
    (validatePattern pattern rule field value r = .ok () ↔ pattern.body.Lang value.toList) ↔
      ¬ NewlineAfter pattern.body.Lang value.toList := by
  rw [validatePattern_eq_ok_iff]
  exact Regex.isSome_search_iff_lang h

theorem macRe_avoids_newline : macRe.body.Avoids '\n' := by
  have hpair : (Regex.cat (.rep isHexDigit 2 (some 2)) (.cls isColon)).Avoids '\n' := ⟨rfl, rfl⟩
  exact ⟨Regex.avoids_times hpair 5, rfl⟩

theorem lang_aliasRe_iff : aliasRe.body.Lang cs ↔ Identifier cs := by
  constructor
  · rintro ⟨gs, h⟩
    cases h with
    | cat hstart hrest =>
      cases hstart with
      | cls hc =>
        cases hrest with
        | rep hrest => exact ⟨_, _, rfl, hc, hrest⟩
  · rintro ⟨c, rest, rfl, hc, hrest⟩
    refine ⟨[], ?_⟩
    exact .cat (.cls hc) (.rep hrest (Nat.zero_le _) (by simp))

theorem notMem_of_identifier (h : Identifier cs) : '\n' ∉ cs := by
  obtain ⟨gs, hgs⟩ := lang_aliasRe_iff.mpr h
  exact Regex.notMem_of_avoids hgs ⟨rfl, rfl⟩

end Patterns

section Integers

variable {py : Interpreter} {field value : String} {r : FieldRule}

theorem validateInt_eq_ok_iff : validateInt py field value r = .ok () ↔
    ∃ n, pyInt py value = some n ∧ InRange r n := by
  rw [validateInt]
  cases hint : pyInt py value with
  | none => simp
  | some n =>
    have hlow : r.min.filter (n < ·) = none ↔ ∀ lo, r.min = some lo → lo ≤ n := by
      simp only [Option.filter_eq_none_iff, decide_eq_true_eq, not_lt]
    have hhigh : r.max.filter (· < n) = none ↔ ∀ hi, r.max = some hi → n ≤ hi := by
      simp only [Option.filter_eq_none_iff, decide_eq_true_eq, not_lt]
    simp only [Option.some.injEq, exists_eq_left', InRange]
    rw [← hlow, ← hhigh]
    split
    · rename_i hlo
      simp [hlo]
    · rename_i hlo hhi
      simp [hhi]
    · rename_i hlo hhi
      exact iff_of_true rfl ⟨hlo, hhi⟩

theorem two_limits_iff {P Q R : Prop} :
    (P ∧ ¬ Q ↔ P ∧ ¬ R) ↔ ¬ (P ∧ ¬ Q ∧ R) ∧ ¬ ((P ∧ ¬ R) ∧ Q) := by
  tauto

/-- Integers are accepted exactly in their plain form, but for those that are read in another, and
for those that are not read. -/
theorem validateInt_keeps_iff :
    (validateInt py field value r = .ok () ↔ ∃ n, PlainInt value.toList n ∧ InRange r n) ↔
      ¬ ((∃ n, IntLiteral py.decimal value.toList n ∧ InRange r n) ∧ ¬ TooLong py value.toList ∧
        ∃ c ∈ value.toList, isPlainIntChar c = false) ∧
      ¬ ((∃ n, PlainInt value.toList n ∧ InRange r n) ∧ TooLong py value.toList) := by
  have hcode : validateInt py field value r = .ok () ↔
      (∃ n, IntLiteral py.decimal value.toList n ∧ InRange r n) ∧ ¬ TooLong py value.toList := by
    rw [validateInt_eq_ok_iff]
    constructor
    · rintro ⟨n, hn, hrange⟩
      obtain ⟨hliteral, hshort⟩ := pyInt_eq_some_iff.mp hn
      exact ⟨⟨n, hliteral, hrange⟩, hshort⟩
    · rintro ⟨⟨n, hliteral, hrange⟩, hshort⟩
      exact ⟨n, pyInt_eq_some_iff.mpr ⟨hliteral, hshort⟩, hrange⟩
  have hplain : (∃ n, PlainInt value.toList n ∧ InRange r n) ↔
      (∃ n, IntLiteral py.decimal value.toList n ∧ InRange r n) ∧
        ¬ ∃ c ∈ value.toList, isPlainIntChar c = false := by
    have hchars : (∀ c ∈ value.toList, isPlainIntChar c = true) ↔
        ¬ ∃ c ∈ value.toList, isPlainIntChar c = false := by
      simp
    rw [← hchars]
    constructor
    · rintro ⟨n, hn, hrange⟩
      obtain ⟨hliteral, hall⟩ := (plainInt_iff py).mp hn
      exact ⟨⟨n, hliteral, hrange⟩, hall⟩
    · rintro ⟨⟨n, hliteral, hrange⟩, hall⟩
      exact ⟨n, (plainInt_iff py).mpr ⟨hliteral, hall⟩, hrange⟩
  rw [hcode, hplain]
  exact two_limits_iff

end Integers

section PortGrammar

variable {py : Interpreter} {field value : String} {r : FieldRule} {cs u rest : List Char} {n : ℕ}

theorem Numeral.unique {decimal : Char → Option ℕ} {m : ℕ} (hn : Numeral decimal cs n)
    (hm : Numeral decimal cs m) : n = m := by
  obtain ⟨-, ds, hds, rfl⟩ := hn
  obtain ⟨-, ds', hds', rfl⟩ := hm
  have hsome := mapM_eq_some_iff.mpr hds
  rw [mapM_eq_some_iff.mpr hds'] at hsome
  rw [Option.some.inj hsome]

theorem exists_numeral (hne : cs ≠ []) (h : ∀ c ∈ cs, isDecimal py c = true) :
    ∃ n, Numeral py.decimal cs n := by
  suffices hall : ∃ ds, List.Forall₂ (fun c d => py.decimal c = some d) cs ds by
    obtain ⟨ds, hds⟩ := hall
    exact ⟨valueOf ds, hne, ds, hds, rfl⟩
  clear hne
  induction cs with
  | nil => exact ⟨[], .nil⟩
  | cons c cs ih =>
    obtain ⟨ds, hds⟩ := ih fun c hc => h c (List.mem_cons_of_mem _ hc)
    obtain ⟨d, hd⟩ := Option.isSome_iff_exists.mp (h c List.mem_cons_self)
    exact ⟨d :: ds, .cons hd hds⟩

/-- Up to five digits. -/
def ShortDigits (py : Interpreter) (cs : List Char) : Prop :=
  1 ≤ cs.length ∧ cs.length ≤ 5 ∧ ∀ c ∈ cs, isDecimal py c = true

theorem matches_digits_iff {gs : List (List Char)} :
    Regex.Matches (.rep (isDecimal py) 1 (some 5)) cs gs ↔ ShortDigits py cs ∧ gs = [] := by
  constructor
  · intro h
    cases h with
    | rep hall hlo hhi => exact ⟨⟨hlo, hhi 5 rfl, hall⟩, rfl⟩
  · rintro ⟨⟨hlo, hhi, hall⟩, rfl⟩
    refine .rep hall hlo ?_
    rintro n hn
    cases hn
    exact hhi

theorem PortNumber.shortDigits (h : PortNumber py.decimal cs) : ShortDigits py cs := by
  obtain ⟨hshort, n, hnumeral, -⟩ := h
  have hne := List.length_pos_of_ne_nil hnumeral.1
  exact ⟨hne, hshort, fun c hc => hnumeral.isSome_of_mem hc⟩

/-- A run of digits with a newline or nothing behind it is read as its number. -/
theorem pyInt_digits (hnumeral : Numeral py.decimal cs n) (hshort : cs.length ≤ 5)
    (hrest : rest = [] ∨ rest = ['\n']) : pyInt py (String.ofList (cs ++ rest)) = some (n : ℤ) := by
  have hblank : ∀ c ∈ rest, isIntSpace c = true := by
    rcases hrest with rfl | rfl
    · exact List.forall_mem_nil _
    · exact List.forall_mem_singleton.mpr rfl
  have hgrouped : Grouped py.decimal cs n := by
    refine ⟨[cs], List.cons_ne_nil _ _, ?_, List.intercalate_singleton.symm, ?_⟩
    · intro g hg
      rw [List.mem_singleton.mp hg]
      exact hnumeral.1
    · rwa [List.flatten_singleton]
  rw [pyInt_eq_some_iff, String.toList_ofList]
  constructor
  · exact ⟨[], cs, rest, rfl, List.forall_mem_nil _, hblank, .bare hgrouped⟩
  · have hlength : (cs ++ rest).length ≤ 6 := by
      rw [List.length_append]
      rcases hrest with rfl | rfl
      · exact hshort.trans (by decide)
      · exact Nat.succ_le_succ hshort
    rintro ⟨hpos, hlong⟩
    have hcount := hlong.trans_le (List.countP_le_length.trans hlength)
    rcases py.maxStrDigits_min with hzero | hmin
    · omega
    · omega

/-- `_check_port_in_range` on digits, with a newline behind them or not. -/
theorem checkPortInRange_eq_ok_iff (hdigits : ShortDigits py cs)
    (hrest : rest = [] ∨ rest = ['\n']) :
    checkPortInRange py field value (cs ++ rest) = .ok () ↔ PortNumber py.decimal cs := by
  obtain ⟨hpos, hshort, hall⟩ := hdigits
  obtain ⟨n, hnumeral⟩ := exists_numeral (List.ne_nil_of_length_pos hpos) hall
  have hnumber : PortNumber py.decimal cs ↔ 1 ≤ (n : ℤ) ∧ (n : ℤ) ≤ 65535 := by
    constructor
    · rintro ⟨-, m, hm, hlo, hhi⟩
      rw [hnumeral.unique hm]
      omega
    · rintro ⟨hlo, hhi⟩
      exact ⟨hshort, n, hnumeral, by omega, by omega⟩
  rw [hnumber, checkPortInRange, pyInt_digits hnumeral hshort hrest]
  by_cases hrange : 1 ≤ (n : ℤ) ∧ (n : ℤ) ≤ 65535
  · simp only [if_pos hrange]
    exact iff_of_true trivial hrange
  · simp only [if_neg hrange]
    exact iff_of_false (by simp) hrange

/-- A range is matched with its two ends as the groups. -/
theorem matches_range_iff {gs : List (List Char)} :
    Regex.Matches (portRangeRe py).body cs gs ↔
      ∃ a b, cs = a ++ ':' :: b ∧ ShortDigits py a ∧ ShortDigits py b ∧ gs = [a, b] := by
  constructor
  · intro h
    cases h with
    | cat hfirst hthen =>
      cases hfirst with
      | group hfirst =>
        cases hthen with
        | cat hcolon hsecond =>
          cases hcolon with
          | @cls _ c hc =>
            cases hsecond with
            | group hsecond =>
              obtain ⟨ha, rfl⟩ := matches_digits_iff.mp hfirst
              obtain ⟨hb, rfl⟩ := matches_digits_iff.mp hsecond
              have hcolon : c = ':' := Char.toNat_inj.mp (beq_iff_eq.mp hc)
              exact ⟨_, _, by rw [hcolon]; rfl, ha, hb, rfl⟩
  · rintro ⟨a, b, rfl, ha, hb, rfl⟩
    have hsecond : Regex.Matches (.group (.rep (isDecimal py) 1 (some 5))) b [b] :=
      .group (matches_digits_iff.mpr ⟨hb, rfl⟩)
    have hcolon : Regex.Matches (.cls isColon) [':'] [] := .cls rfl
    exact .cat (.group (matches_digits_iff.mpr ⟨ha, rfl⟩)) (.cat hcolon hsecond)

theorem not_decimal {c : Char} (hc : c.toNat < 0x80) (h : isAsciiDigit c = false) :
    isDecimal py c = false := by
  rw [isDecimal, decimal_eq_asciiDecimal hc, asciiDecimal, h]
  rfl

theorem ShortDigits.notMem {c : Char} (h : ShortDigits py cs) (hc : c.toNat < 0x80)
    (hdigit : isAsciiDigit c = false) : c ∉ cs := by
  intro hmem
  have hsome := h.2.2 c hmem
  rw [not_decimal hc hdigit] at hsome
  cases hsome

/-- The texts with the form of a port or of a range, their numbers in range or not. -/
def PortShape (py : Interpreter) (cs : List Char) : Prop :=
  ShortDigits py cs ∨ ∃ a b, cs = a ++ ':' :: b ∧ ShortDigits py a ∧ ShortDigits py b

theorem PortText.shape (h : PortText py.decimal cs) : PortShape py cs := by
  rcases h with h | ⟨a, b, heq, ha, hb⟩
  · exact Or.inl h.shortDigits
  · exact Or.inr ⟨a, b, heq, ha.shortDigits, hb.shortDigits⟩

theorem PortShape.notMem_newline (h : PortShape py cs) : '\n' ∉ cs := by
  rcases h with h | ⟨a, b, rfl, ha, hb⟩
  · exact h.notMem (by decide) rfl
  · intro hmem
    rcases List.mem_append.mp hmem with hmem | hmem
    · exact ha.notMem (by decide) rfl hmem
    · rcases List.mem_cons.mp hmem with hcolon | hmem
      · exact absurd hcolon (by decide)
      · exact hb.notMem (by decide) rfl hmem

/-- The first character of a port or a range is a digit. -/
theorem PortShape.head (h : PortShape py cs) :
    ∃ c rest, cs = c :: rest ∧ isDecimal py c = true := by
  have hdigits : ∀ cs, ShortDigits py cs → ∃ c rest, cs = c :: rest ∧ isDecimal py c = true := by
    rintro cs ⟨hpos, -, hall⟩
    obtain ⟨c, rest, rfl⟩ := List.exists_cons_of_length_pos hpos
    exact ⟨c, rest, rfl, hall c List.mem_cons_self⟩
  rcases h with h | ⟨a, b, rfl, ha, -⟩
  · exact hdigits cs h
  · obtain ⟨c, rest, rfl, hc⟩ := hdigits a ha
    exact ⟨c, rest ++ ':' :: b, rfl, hc⟩

theorem portText_range_iff {a b : List Char} (ha : ShortDigits py a) (hb : ShortDigits py b) :
    PortText py.decimal (a ++ ':' :: b) ↔ PortNumber py.decimal a ∧ PortNumber py.decimal b := by
  have hcolon : ∀ {cs}, ShortDigits py cs → ':' ∉ cs := fun h => h.notMem (by decide) rfl
  constructor
  · rintro (h | ⟨a', b', heq, ha', hb'⟩)
    · exact absurd (List.mem_append_right a List.mem_cons_self) (hcolon h.shortDigits)
    · obtain ⟨rfl, -, rfl⟩ := (List.append_cons_inj_of_notMem (hcolon ha) (hcolon hb)).mp heq
      exact ⟨ha', hb'⟩
  · rintro ⟨ha, hb⟩
    exact Or.inr ⟨a, b, rfl, ha, hb⟩

theorem portText_single_iff (h : ShortDigits py cs) :
    PortText py.decimal cs ↔ PortNumber py.decimal cs := by
  constructor
  · rintro (h' | ⟨a, b, rfl, -⟩)
    · exact h'
    · exact absurd (List.mem_append_right a List.mem_cons_self) (h.notMem (by decide) rfl)
  · exact Or.inl

/-- A text of that form is decided by the numbers in it. -/
theorem validatePortOr_of_shape {otherwise : FieldValidator} (hu : PortShape py u)
    (hvalue : value.toList = u ∨ value.toList = u ++ ['\n']) :
    validatePortOr py otherwise field value r = .ok () ↔ PortText py.decimal u := by
  have hrest : ∃ rest, value.toList = u ++ rest ∧ (rest = [] ∨ rest = ['\n']) := by
    rcases hvalue with h | h
    · exact ⟨[], by rw [h, List.append_nil], Or.inl rfl⟩
    · exact ⟨['\n'], h, Or.inr rfl⟩
  rw [validatePortOr]
  cases hsearch : (portRangeRe py).body.search value.toList with
  | some groups =>
    obtain ⟨u', hu', hmatches⟩ := Regex.matches_of_search hsearch
    obtain ⟨a, b, hrange, ha, hb, rfl⟩ := matches_range_iff.mp hmatches
    have hshape : PortShape py u' := Or.inr ⟨a, b, hrange, ha, hb⟩
    have hsame : u = u' :=
      eq_of_or_newline hvalue hu' hu.notMem_newline hshape.notMem_newline
    rw [hsame, hrange, portText_range_iff ha hb]
    have hcheck : ∀ cs, ShortDigits py cs →
        (checkPortInRange py field value cs = .ok () ↔ PortNumber py.decimal cs) := by
      intro cs hcs
      rw [← checkPortInRange_eq_ok_iff hcs (Or.inl rfl), List.append_nil]
    rw [← hcheck a ha, ← hcheck b hb]
    change (checkPortInRange py field value a >>= fun _ => checkPortInRange py field value b) =
      .ok () ↔ _
    cases hfirst : checkPortInRange py field value a with
    | error e => exact iff_of_false (by simp [bind, Except.bind]) (by simp)
    | ok _ => exact ⟨fun h => ⟨rfl, h⟩, fun h => h.2⟩
  | none =>
    have hdigits : ShortDigits py u := by
      rcases hu with hu | ⟨a, b, hrange, ha, hb⟩
      · exact hu
      · have hlang : (portRangeRe py).body.Lang u :=
          ⟨[a, b], matches_range_iff.mpr ⟨a, b, hrange, ha, hb, rfl⟩⟩
        have hsome := Regex.isSome_search_iff.mpr (or_newlineAfter_iff.mpr ⟨u, hvalue, hlang⟩)
        rw [hsearch] at hsome
        cases hsome
    have hlang : (portSingleRe py).body.Lang u := ⟨[], matches_digits_iff.mpr ⟨hdigits, rfl⟩⟩
    have hsingle := Regex.isSome_search_iff.mpr (or_newlineAfter_iff.mpr ⟨u, hvalue, hlang⟩)
    obtain ⟨rest, heq, hrest⟩ := hrest
    simp only
    rw [if_pos hsingle, portText_single_iff hdigits, heq]
    exact checkPortInRange_eq_ok_iff hdigits hrest

/-- A text of another form goes to the other validator. -/
theorem validatePortOr_of_not_shape {otherwise : FieldValidator}
    (h : ∀ u, (value.toList = u ∨ value.toList = u ++ ['\n']) → ¬ PortShape py u) :
    validatePortOr py otherwise field value r = otherwise field value r := by
  have hrange : (portRangeRe py).body.search value.toList = none := by
    rw [Option.eq_none_iff_forall_ne_some]
    intro groups hgroups
    obtain ⟨u, hu, hmatches⟩ := Regex.matches_of_search hgroups
    obtain ⟨a, b, heq, ha, hb, -⟩ := matches_range_iff.mp hmatches
    exact h u hu (Or.inr ⟨a, b, heq, ha, hb⟩)
  have hsingle : ¬ ((portSingleRe py).body.search value.toList).isSome = true := by
    intro hsome
    obtain ⟨groups, hgroups⟩ := Option.isSome_iff_exists.mp hsome
    obtain ⟨u, hu, hmatches⟩ := Regex.matches_of_search hgroups
    exact h u hu (Or.inl (matches_digits_iff.mp hmatches).1)
  rw [validatePortOr, hrange]
  exact if_neg hsingle

/-- Ports, and beside them what the other validator accepts, if that has the form of no port. -/
theorem validatePortOr_eq_ok_iff {otherwise : FieldValidator} {P : List Char → Prop}
    (hotherwise : otherwise field value r = .ok () ↔ P value.toList ∨ NewlineAfter P value.toList)
    (hnewline : ∀ u, P u → '\n' ∉ u) (hshape : ∀ u, P u → ¬ PortShape py u) :
    validatePortOr py otherwise field value r = .ok () ↔
      ∃ u, (value.toList = u ∨ value.toList = u ++ ['\n']) ∧ (PortText py.decimal u ∨ P u) := by
  by_cases h : ∃ u, (value.toList = u ∨ value.toList = u ++ ['\n']) ∧ PortShape py u
  · obtain ⟨u, hvalue, hu⟩ := h
    -- what has the shape of a port is checked as one, and is nothing else
    rw [validatePortOr_of_shape hu hvalue]
    constructor
    · intro hport
      exact ⟨u, hvalue, Or.inl hport⟩
    · rintro ⟨u', hvalue', hport | hother⟩
      · have hsame : u = u' := eq_of_or_newline hvalue hvalue' hu.notMem_newline
          hport.shape.notMem_newline
        rwa [hsame]
      · have hsame : u = u' := eq_of_or_newline hvalue hvalue' hu.notMem_newline
          (hnewline u' hother)
        exact absurd (hsame ▸ hu) (hshape u' hother)
  · have hnone : ∀ u, (value.toList = u ∨ value.toList = u ++ ['\n']) → ¬ PortShape py u :=
      fun u hu hshape => h ⟨u, hu, hshape⟩
    -- all other texts are left to `otherwise`
    rw [validatePortOr_of_not_shape hnone, hotherwise, or_newlineAfter_iff]
    apply exists_congr
    intro u
    apply and_congr_right
    intro hu
    exact ⟨Or.inr, fun h => h.resolve_left fun hport => hnone u hu hport.shape⟩

theorem isAscii_of_portText (h : PortText asciiDecimal cs) : ∀ c ∈ cs, c.toNat < 0x80 := by
  have hdigits : ∀ cs, PortNumber asciiDecimal cs → ∀ c ∈ cs, c.toNat < 0x80 := by
    rintro cs ⟨-, n, hnumeral, -⟩ c hc
    have hascii := ((numeral_ascii_iff interpreter).mp hnumeral).2 c hc
    simp only [isAsciiDigit, Bool.and_eq_true, decide_eq_true_eq] at hascii
    omega
  rcases h with h | ⟨a, b, rfl, ha, hb⟩
  · exact hdigits cs h
  · intro c hc
    rcases List.mem_append.mp hc with hc | hc
    · exact hdigits a ha c hc
    · rcases List.mem_cons.mp hc with rfl | hc
      · decide
      · exact hdigits b hb c hc

/-- On texts in ASCII the decimal digits are the ones of ASCII. -/
theorem portText_congr (h : ∀ c ∈ cs, c.toNat < 0x80) :
    PortText asciiDecimal cs ↔ PortText py.decimal cs := by
  have hnumber : ∀ cs : List Char, (∀ c ∈ cs, c.toNat < 0x80) →
      (PortNumber asciiDecimal cs ↔ PortNumber py.decimal cs) := by
    intro cs hcs
    apply and_congr_right'
    refine exists_congr fun n => and_congr_left' ?_
    exact Numeral.congr fun c hc => (decimal_eq_asciiDecimal (hcs c hc)).symm
  apply or_congr (hnumber cs h)
  refine exists_congr fun a => exists_congr fun b => and_congr_right fun heq => ?_
  rw [heq] at h
  apply and_congr
  · exact hnumber a fun c hc => h c (List.mem_append_left _ hc)
  · exact hnumber b fun c hc => h c (List.mem_append_right _ (List.mem_cons_of_mem _ hc))

variable (py) in
/-- The ports in ASCII are the ports without a character of another alphabet. -/
theorem portText_ascii_iff : PortText asciiDecimal cs ↔
    PortText py.decimal cs ∧ ¬ ∃ c ∈ cs, 0x80 ≤ c.toNat := by
  have hchars : (∀ c ∈ cs, c.toNat < 0x80) ↔ ¬ ∃ c ∈ cs, 0x80 ≤ c.toNat := by
    simp only [not_exists, not_and, not_le]
  rw [← hchars]
  constructor
  · intro h
    have hascii := isAscii_of_portText h
    exact ⟨(portText_congr hascii).mp h, hascii⟩
  · rintro ⟨h, hascii⟩
    exact (portText_congr hascii).mpr h

/-- The port validator keeps to ports in ASCII exactly where no newline is left over, and no digit
of another alphabet is read. -/
theorem validatePort_keeps_iff :
    (validatePort py field value r = .ok () ↔ PortText asciiDecimal value.toList) ↔
      ¬ NewlineAfter (PortText py.decimal) value.toList ∧
      ¬ (PortText py.decimal value.toList ∧ ∃ c ∈ value.toList, 0x80 ≤ c.toNat) := by
  have hcode : validatePort py field value r = .ok () ↔
      PortText py.decimal value.toList ∨ NewlineAfter (PortText py.decimal) value.toList := by
    rw [or_newlineAfter_iff, validatePort, validatePortOr_eq_ok_iff (P := fun _ => False)]
    · simp only [or_false]
    · simp [NewlineAfter]
    · exact fun _ h => h.elim
    · exact fun _ h => h.elim
  refine keeps_iff (fun u hu => hu.shape.notMem_newline) And.left ?_ hcode
  rw [portText_ascii_iff py]
  exact and_congr_right fun hport => not_congr (and_iff_right hport).symm

theorem identifier_not_shape (h : Identifier cs) : ¬ PortShape py cs := by
  rintro hshape
  obtain ⟨c, rest, rfl, hstart, -⟩ := h
  obtain ⟨c', rest', heq, hdecimal⟩ := hshape.head
  obtain ⟨rfl, -⟩ := List.cons.inj heq
  have hascii : c.toNat < 0x80 ∧ isAsciiDigit c = false := by
    simp only [isAliasStart, isAsciiLetter, isAsciiDigit, Bool.or_eq_true, Bool.and_eq_true,
      decide_eq_true_eq, beq_iff_eq, Bool.and_eq_false_iff, decide_eq_false_iff_not] at hstart ⊢
    rcases hstart with hletter | rfl
    · omega
    · decide
  rw [not_decimal hascii.1 hascii.2] at hdecimal
  cases hdecimal

/-- The validator of ports and aliases accepts the identifiers beside them, with the deviations of
both. -/
theorem validatePortOrAlias_keeps_iff :
    (validatePortOrAlias py field value r = .ok () ↔
      PortText asciiDecimal value.toList ∨ Identifier value.toList) ↔
      ¬ NewlineAfter (fun u => PortText py.decimal u ∨ Identifier u) value.toList ∧
      ¬ (PortText py.decimal value.toList ∧ ∃ c ∈ value.toList, 0x80 ≤ c.toNat) := by
  have hcode : validatePortOrAlias py field value r = .ok () ↔
      (PortText py.decimal value.toList ∨ Identifier value.toList) ∨
        NewlineAfter (fun u => PortText py.decimal u ∨ Identifier u) value.toList := by
    rw [@or_newlineAfter_iff (fun u => PortText py.decimal u ∨ Identifier u), validatePortOrAlias]
    apply validatePortOr_eq_ok_iff
    · rw [validatePattern_eq_ok_iff, Regex.isSome_search_iff, Regex.LangOrNewline, NewlineAfter]
      simp only [lang_aliasRe_iff]
    · exact fun u hu => notMem_of_identifier hu
    · exact fun u hu => identifier_not_shape hu
  have hwide : ∀ u, PortText py.decimal u ∨ Identifier u → '\n' ∉ u := by
    rintro u (hu | hu)
    · exact hu.shape.notMem_newline
    · exact notMem_of_identifier hu
  -- a letter or an underscore at the start tells the two apart
  have hexclusive : Identifier value.toList → ¬ PortText py.decimal value.toList :=
    fun hidentifier hport => identifier_not_shape hidentifier hport.shape
  refine keeps_iff hwide (fun h => Or.inl h.1) ?_ hcode
  rw [portText_ascii_iff py]
  constructor
  · rintro (⟨hport, hascii⟩ | hidentifier)
    · exact ⟨Or.inl hport, fun h => hascii h.2⟩
    · exact ⟨Or.inr hidentifier, fun h => hexclusive hidentifier h.1⟩
  · rintro ⟨hport | hidentifier, hascii⟩
    · exact Or.inl ⟨hport, fun h => hascii ⟨hport, h⟩⟩
    · exact Or.inr hidentifier

end PortGrammar

section Strings

variable {field value : String} {r : FieldRule}

theorem validateStr_eq_ok_iff {pattern : Pattern} (h : r.regex = some pattern) :
    validateStr field value r = .ok () ↔ value.length ≤ r.maxLength.getD 255 ∧
      (pattern.body.search value.toList).isSome = true := by
  simp only [validateStr, h]
  by_cases hlength : value.length > r.maxLength.getD 255
  · rw [if_pos hlength]
    exact iff_of_false (by simp) fun h => absurd h.1 (not_le.mpr hlength)
  · rw [if_neg hlength]
    by_cases hsearch : (pattern.body.search value.toList).isSome = true
    · rw [if_pos hsearch]
      exact iff_of_true rfl ⟨not_lt.mp hlength, hsearch⟩
    · rw [if_neg hsearch]
      exact iff_of_false (by simp) fun h => hsearch h.2

/-- With a pattern of one class, the characters outside the class that pass are newlines at the
end. -/
theorem validateStr_keeps_iff {pattern : Pattern} {p : Char → Bool} (h : r.regex = some pattern)
    (hwithin : pattern.body.Within p) :
    (validateStr field value r = .ok () → ∀ c ∈ value.toList, p c = true) ↔
      ¬ (value.length ≤ r.maxLength.getD 255 ∧ NewlineAfter pattern.body.Lang value.toList ∧
        p '\n' = false) := by
  rw [validateStr_eq_ok_iff h, Regex.isSome_search_iff]
  constructor
  · rintro hkeeps ⟨hlength, ⟨u, hu, hlang⟩, hnewline⟩
    have hclass := hkeeps ⟨hlength, Or.inr ⟨u, hu, hlang⟩⟩ '\n' (by simp [hu])
    rw [hnewline] at hclass
    cases hclass
  · rintro hnone ⟨hlength, hlang | ⟨u, hu, hlang⟩⟩ c hc
    · exact Regex.mem_of_within hlang hwithin hc
    · rw [hu] at hc
      rcases List.mem_append.mp hc with hc | hc
      · exact Regex.mem_of_within hlang hwithin hc
      · rw [List.mem_singleton.mp hc]
        by_contra hnewline
        exact hnone ⟨hlength, ⟨u, hu, hlang⟩, Bool.eq_false_iff.mpr hnewline⟩

end Strings

/-- Each validator of texts keeps to its grammar on exactly the texts without the odd character
that it lets through: a newline at the end, a digit of another alphabet, a blank or an underscore in
a number. Of the integers it refuses those that are too long to be read. -/
theorem text_validators_keep_grammar_iff (py : Interpreter) (field value : String)
    (r : FieldRule) :
    ((validatePort py field value r = .ok () ↔ PortText asciiDecimal value.toList) ↔
      ¬ NewlineAfter (PortText py.decimal) value.toList ∧
      ¬ (PortText py.decimal value.toList ∧ ∃ c ∈ value.toList, 0x80 ≤ c.toNat)) ∧
    ((validatePortOrAlias py field value r = .ok () ↔
        PortText asciiDecimal value.toList ∨ Identifier value.toList) ↔
      ¬ NewlineAfter (fun u => PortText py.decimal u ∨ Identifier u) value.toList ∧
      ¬ (PortText py.decimal value.toList ∧ ∃ c ∈ value.toList, 0x80 ≤ c.toNat)) ∧
    ((validateMac field value r = .ok () ↔ macRe.body.Lang value.toList) ↔
      ¬ NewlineAfter macRe.body.Lang value.toList) ∧
    ((validateColor field value r = .ok () ↔ colorRe.body.Lang value.toList) ↔
      ¬ NewlineAfter colorRe.body.Lang value.toList) ∧
    ((validateHostname field value r = .ok () ↔ hostnameRe.body.Lang value.toList) ↔
      ¬ NewlineAfter hostnameRe.body.Lang value.toList) ∧
    ((validateInt py field value r = .ok () ↔ ∃ n, PlainInt value.toList n ∧ InRange r n) ↔
      ¬ ((∃ n, IntLiteral py.decimal value.toList n ∧ InRange r n) ∧ ¬ TooLong py value.toList ∧
        ∃ c ∈ value.toList, isPlainIntChar c = false) ∧
      ¬ ((∃ n, PlainInt value.toList n ∧ InRange r n) ∧ TooLong py value.toList)) ∧
    ∀ (source : String) (p : Char → Bool) (body : { body : Regex // body.Within p }),
      (validateStr field value { r with regex := some ⟨source, body⟩ } = .ok () →
        ∀ c ∈ value.toList, p c = true) ↔
      ¬ (value.length ≤ r.maxLength.getD 255 ∧ NewlineAfter body.val.Lang value.toList ∧
        p '\n' = false) := by
  refine ⟨validatePort_keeps_iff, validatePortOrAlias_keeps_iff, ?_, ?_, ?_, validateInt_keeps_iff,
    ?_⟩
  · exact validatePattern_keeps_iff macRe_avoids_newline
  · exact validatePattern_keeps_iff rfl
  · exact validatePattern_keeps_iff ⟨rfl, rfl, rfl⟩
  · intro source p body
    exact @validateStr_keeps_iff field value _ ⟨source, body⟩ p rfl body.property

theorem eq_ok_of_isOk {checked : Except Exc Unit} (h : checked.isOk = true) : checked = .ok () := by
  cases checked with
  | error e => cases h
  | ok result => rfl

/-- A pattern of lower-case letters. -/
def lowerCase : FieldRule where
  type := "str"
  regex := some ⟨"^[a-z]+$", .rep (fun c => 0x61 ≤ c.toNat && c.toNat ≤ 0x7a) 1 none⟩

/-- A newline behind a text of the grammar passes, as do Arabic digits and an underscore. -/
theorem odd_texts_accepted :
    (∀ value ∈ ["443\n", "80:443\n", "٤٤٣"],
      validatePort interpreter "port" value { type := "port" } = .ok () ∧
      ¬ PortText asciiDecimal value.toList) ∧
    (∀ value ∈ ["443\n", "web\n", "٤٤٣"],
      validatePortOrAlias interpreter "port" value { type := "port_or_alias" } = .ok () ∧
      ¬ (PortText asciiDecimal value.toList ∨ Identifier value.toList)) ∧
    (validateMac "mac" "00:11:22:aa:bb:cc\n" { type := "mac" } = .ok () ∧
      ¬ macRe.body.Lang "00:11:22:aa:bb:cc\n".toList) ∧
    (validateColor "color" "00ff00\n" { type := "color" } = .ok () ∧
      ¬ colorRe.body.Lang "00ff00\n".toList) ∧
    (validateHostname "host" "web-1\n" { type := "hostname" } = .ok () ∧
      ¬ hostnameRe.body.Lang "web-1\n".toList) ∧
    (∀ value ∈ [" 5 ", "1_0", "٥"], validateInt interpreter "mtu" value { type := "int" } = .ok () ∧
      ¬ ∃ n, PlainInt value.toList n ∧ InRange { type := "int" } n) ∧
    (validateStr "name" "web\n" lowerCase = .ok () ∧ '\n' ∈ "web\n".toList) := by
  have hshape : ∀ {cs}, PortText asciiDecimal cs → PortShape interpreter cs :=
    fun h => ((portText_ascii_iff interpreter).mp h).1.shape
  have hforeign : ¬ PortText asciiDecimal "٤٤٣".toList :=
    fun h => ((portText_ascii_iff interpreter).mp h).2 ⟨'٤', by decide, by decide⟩
  have hline : ∀ {cs}, '\n' ∈ cs → ¬ PortText asciiDecimal cs :=
    fun hmem h => (hshape h).notMem_newline hmem
  have hname : ¬ Identifier "٤٤٣".toList := by
    rintro ⟨c, rest, heq, hc, -⟩
    cases heq
    exact absurd hc (by decide)
  have hint : ∀ {cs : List Char}, (∃ c ∈ cs, isPlainIntChar c = false) →
      ¬ ∃ n, PlainInt cs n ∧ InRange { type := "int" } n := by
    rintro cs ⟨c, hc, hodd⟩ ⟨n, hn, -⟩
    rw [((plainInt_iff interpreter).mp hn).2 c hc] at hodd
    cases hodd
  refine ⟨?_, ?_, ?_, ?_, ?_, ?_, eq_ok_of_isOk (by decide), by decide⟩
  · simp only [List.forall_mem_cons, List.not_mem_nil, false_imp_iff, implies_true, and_true]
    exact ⟨⟨eq_ok_of_isOk (by decide), hline (by decide)⟩,
      ⟨eq_ok_of_isOk (by decide), hline (by decide)⟩, eq_ok_of_isOk (by decide), hforeign⟩
  · simp only [List.forall_mem_cons, List.not_mem_nil, false_imp_iff, implies_true, and_true]
    refine ⟨⟨eq_ok_of_isOk (by decide), ?_⟩, ⟨eq_ok_of_isOk (by decide), ?_⟩,
      eq_ok_of_isOk (by decide), ?_⟩
    · exact fun h => h.elim (hline (by decide)) fun h => notMem_of_identifier h (by decide)
    · exact fun h => h.elim (hline (by decide)) fun h => notMem_of_identifier h (by decide)
    · exact fun h => h.elim hforeign hname
  · refine ⟨eq_ok_of_isOk (by decide), ?_⟩
    rintro ⟨gs, h⟩
    exact Regex.notMem_of_avoids h macRe_avoids_newline (by decide)
  · refine ⟨eq_ok_of_isOk (by decide), ?_⟩
    rintro ⟨gs, h⟩
    exact Regex.notMem_of_avoids h (c := '\n') rfl (by decide)
  · refine ⟨eq_ok_of_isOk (by decide), ?_⟩
    rintro ⟨gs, h⟩
    exact Regex.notMem_of_avoids h (c := '\n') ⟨rfl, rfl, rfl⟩ (by decide)
  · simp only [List.forall_mem_cons, List.not_mem_nil, false_imp_iff, implies_true, and_true]
    exact ⟨⟨eq_ok_of_isOk (by decide), hint ⟨' ', by decide, rfl⟩⟩,
      ⟨eq_ok_of_isOk (by decide), hint ⟨'_', by decide, rfl⟩⟩,
      eq_ok_of_isOk (by decide), hint ⟨'٥', by decide, rfl⟩⟩

end Opnsense
