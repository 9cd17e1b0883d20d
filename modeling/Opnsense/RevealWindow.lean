import Mathlib.Data.List.MinMax
import Opnsense.Redactor

namespace Opnsense

namespace RedactRule

variable (rule : RedactRule)

/-- Two texts that agree where the rule shows them. -/
def AgreeOnWindow (s s' : String) : Prop :=
  s.toList.take rule.revealStart = s'.toList.take rule.revealStart ∧
    s.toList.drop (s.length - rule.revealEnd) = s'.toList.drop (s'.length - rule.revealEnd)

/-- `t` shows the two windows of `s`, and a character of the mask for each of the others, of
which there is one at least. -/
def PartlyShows (s t : String) : Prop :=
  ∃ start rest fin : List Char, s.toList = start ++ rest ++ fin ∧
    start.length = rule.revealStart ∧ rest ≠ [] ∧ fin.length = rule.revealEnd ∧
    t.toList = start ++ (List.replicate rest.length rule.maskChar.toList).flatten ++ fin

/-- With a mask of one character nothing changes in length. -/
theorem length_of_partlyShows {rule : RedactRule} {s t : String} (h : rule.PartlyShows s t)
    (hmask : rule.maskChar.length = 1) : t.length = s.length := by
  obtain ⟨start, rest, fin, hs, -, -, -, ht⟩ := h
  obtain ⟨c, hc⟩ := List.length_eq_one_iff.mp (String.length_toList.trans hmask)
  have hblock : ((List.replicate rest.length rule.maskChar.toList).flatten).length =
      rest.length := by
    rw [hc, List.flatten_replicate_singleton, List.length_replicate]
  calc t.length = t.toList.length := (String.length_toList).symm
    _ = start.length + rest.length + fin.length := by
        rw [ht, List.length_append, List.length_append, hblock]
    _ = s.toList.length := by rw [hs, List.length_append, List.length_append]
    _ = s.length := String.length_toList

theorem toList_mask (s : String) :
    (rule.mask s).toList = s.toList.take rule.revealStart ++
        (List.replicate (s.length - rule.revealStart - rule.revealEnd)
          rule.maskChar.toList).flatten ++
        s.toList.drop (s.length - rule.revealEnd) := by
  have hjoin : ∀ n, (List.replicate n rule.maskChar).flatMap String.toList =
      (List.replicate n rule.maskChar.toList).flatten := by
    intro n
    rw [List.flatMap_def, List.map_replicate]
  simp [mask, hjoin, String.length_toList]

/-- A text longer than the windows is shown in them, and masked in between. -/
theorem partlyShows_mask {s : String} (hlong : rule.revealStart + rule.revealEnd < s.length) :
    rule.PartlyShows s (rule.mask s) := by
  have hlen : s.toList.length = s.length := String.length_toList
  let tail := s.toList.drop rule.revealStart
  have htail : tail.length = s.length - rule.revealStart := by
    rw [List.length_drop, hlen]
  let rest := tail.take (tail.length - rule.revealEnd)
  have hrest : rest.length = s.length - rule.revealStart - rule.revealEnd := by
    rw [List.length_take, htail]
    omega
  have hfin : tail.drop (tail.length - rule.revealEnd) =
      s.toList.drop (s.length - rule.revealEnd) := by
    rw [List.drop_drop, htail]
    congr 1
    omega
  refine ⟨s.toList.take rule.revealStart, rest, s.toList.drop (s.length - rule.revealEnd),
    ?_, ?_, ?_, ?_, ?_⟩
  · rw [List.append_assoc, ← hfin, List.take_append_drop, List.take_append_drop]
  · rw [List.length_take, hlen]
    omega
  · rw [← List.length_pos_iff_ne_nil, hrest]
    omega
  · rw [List.length_drop, hlen]
    omega
  · rw [toList_mask, hrest]

/-- Of two texts of one length only the windows are shown. -/
theorem mask_eq_of_agree {s s' : String} (hlen : s.length = s'.length)
    (hagree : rule.AgreeOnWindow s s') : rule.mask s = rule.mask s' := by
  apply String.toList_injective
  rw [toList_mask, toList_mask, hagree.1, hagree.2, hlen]

end RedactRule

namespace Redactor

section Selection

variable (text : List Char) (rules : List (String × RedactRule)) (r : Redactor) (key : String)

/-- The entries a name can be matched by: the pattern is in it, and is not empty. -/
def candidates : List (String × RedactRule) :=
  rules.filter fun entry => decide (entry.1.toList <:+: text) && decide (0 < entry.1.length)

/-- The best entry so far, as the loop carries it. -/
def best : Option (String × RedactRule) → Option RedactRule × ℕ
  | none => (none, 0)
  | some entry => (some entry.2, entry.1.length)

/-- The loop over the table looks for the longest pattern, and keeps the first it finds. -/
theorem foldl_eq_argmax :
    rules.foldl (fun best (pattern, rule) =>
      if decide (pattern.toList <:+: text) && decide (best.2 < pattern.length) then
        (some rule, pattern.length)
      else best) ((none, 0) : Option RedactRule × ℕ) =
    best ((candidates text rules).argmax fun entry => entry.1.length) := by
  induction rules using List.reverseRecOn with
  | nil => rfl
  | append_singleton rules entry ih =>
    obtain ⟨pattern, rule⟩ := entry
    rw [List.foldl_append, ih]
    have hsplit : candidates text (rules ++ [(pattern, rule)]) =
        candidates text rules ++ candidates text [(pattern, rule)] := List.filter_append ..
    rw [hsplit]
    by_cases hin : pattern.toList <:+: text
    · by_cases hpos : 0 < pattern.length
      · -- one more candidate, to be compared with the best of those before it
        have hone : candidates text [(pattern, rule)] = [(pattern, rule)] := by
          simp [candidates, hin, hpos]
        rw [hone, List.argmax_concat]
        cases (candidates text rules).argmax fun entry => entry.1.length with
        | none => simp [best, hin, hpos]
        | some found =>
          by_cases hlonger : found.1.length < pattern.length
          · simp [best, hin, hlonger]
          · simp [best, hin, hlonger]
      · -- no pattern is shorter than what the loop starts with
        have hnone : ∀ n, ¬ n < pattern.length := by
          intro n
          omega
        have hskip : candidates text [(pattern, rule)] = [] := by
          simp [candidates, hpos]
        rw [hskip, List.append_nil]
        simp [hnone]
    · have hskip : candidates text [(pattern, rule)] = [] := by
        simp [candidates, hin]
      rw [hskip, List.append_nil]
      simp [hin]

theorem matchedRule_eq_argmax :
    r.matchedRule key =
      ((candidates (r.lower key).toList r.rules).argmax fun entry => entry.1.length).map (·.2) := by
  rw [matchedRule, foldl_eq_argmax]
  cases (candidates (r.lower key).toList r.rules).argmax fun entry => entry.1.length with
  | none => rfl
  | some => rfl

/-- The entry is in the table, its pattern is in the lower-cased key, and no longer pattern of
the table is. -/
structure Longest (entry : String × RedactRule) : Prop where
  inTable : entry ∈ r.rules
  inKey : entry.1.toList <:+: (r.lower key).toList
  longest : ∀ other ∈ r.rules, other.1.toList <:+: (r.lower key).toList →
    other.1.length ≤ entry.1.length

variable {r key}

theorem longest_of_argmax {entry : String × RedactRule}
    (h : entry ∈ (candidates (r.lower key).toList r.rules).argmax fun entry => entry.1.length) :
    r.Longest key entry := by
  have hmem := List.mem_filter.mp (List.argmax_mem h)
  have hin : entry.1.toList <:+: (r.lower key).toList := by
    have hboth := hmem.2
    rw [Bool.and_eq_true] at hboth
    exact of_decide_eq_true hboth.1
  refine ⟨hmem.1, hin, ?_⟩
  intro other hother hotherin
  by_cases hpos : 0 < other.1.length
  · have hcandidate : other ∈ candidates (r.lower key).toList r.rules := by
      rw [candidates, List.mem_filter]
      exact ⟨hother, by simp [hotherin, hpos]⟩
    exact List.le_of_mem_argmax (f := fun entry => entry.1.length) hcandidate h
  · omega

theorem longest_of_matchedRule {rule : RedactRule} (hrule : r.matchedRule key = some rule) :
    ∃ pattern, r.Longest key (pattern, rule) := by
  rw [matchedRule_eq_argmax, Option.map_eq_some_iff] at hrule
  obtain ⟨⟨pattern, rule'⟩, hbest, rfl⟩ := hrule
  exact ⟨pattern, longest_of_argmax hbest⟩

/-- A rule is selected when a pattern that is not empty is in the key. -/
theorem matchedRule_eq_none_iff : r.matchedRule key = none ↔
    ∀ entry ∈ r.rules, entry.1.toList <:+: (r.lower key).toList → entry.1 = "" := by
  rw [matchedRule_eq_argmax, Option.map_eq_none_iff, List.argmax_eq_none, candidates,
    List.filter_eq_nil_iff]
  refine forall₂_congr fun entry _ => ?_
  rw [Bool.and_eq_true, decide_eq_true_eq, decide_eq_true_eq, not_and, Nat.pos_iff_ne_zero,
    not_ne_iff, String.length_eq_zero_iff]

end Selection

/-- Two keys that differ in case only. -/
def SameButCase (r : Redactor) (key key' : String) : Prop := r.lower key = r.lower key'

/-- If every table takes the same of its rules for two keys, one lower-cased key is in the
other. -/
theorem infix_of_same_rules {lower : String → String} {key key' : String}
    (h : ∀ rules, (Redactor.mk rules lower).matchedRule key =
      (Redactor.mk rules lower).matchedRule key') :
    (lower key).toList <:+: (lower key').toList := by
  by_cases hempty : lower key = ""
  · rw [hempty]
    exact List.nil_infix
  · -- a table with this one name in it
    let r : Redactor := ⟨[(lower key, ⟨0, 0, "*"⟩)], lower⟩
    by_contra hnot
    have hnone : r.matchedRule key' = none := by
      rw [matchedRule_eq_none_iff]
      intro entry hentry hin
      obtain rfl := List.mem_singleton.mp hentry
      exact absurd hin hnot
    have hsome : r.matchedRule key ≠ none := by
      rw [Ne, matchedRule_eq_none_iff]
      intro hall
      exact hempty (hall _ (List.mem_singleton.mpr rfl) List.infix_rfl)
    exact hsome ((h r.rules).trans hnone)

/-- The keys for which every table takes the same rule are those that differ in case only. -/
theorem sameButCase_iff {lower : String → String} {key key' : String} :
    lower key = lower key' ↔ ∀ rules, (Redactor.mk rules lower).matchedRule key =
      (Redactor.mk rules lower).matchedRule key' := by
  constructor
  · intro hlower rules
    rw [matchedRule_eq_argmax, matchedRule_eq_argmax]
    show ((candidates (lower key).toList rules).argmax _).map _ =
      ((candidates (lower key').toList rules).argmax _).map _
    rw [hlower]
  · intro h
    have hle := infix_of_same_rules h
    have hge := infix_of_same_rules fun rules => (h rules).symm
    have hlength : (lower key).toList.length = (lower key').toList.length :=
      le_antisymm hle.length_le hge.length_le
    exact String.toList_injective (hle.eq_of_length hlength)

section Value

variable {r : Redactor} {key s s' : String} {rule : RedactRule}

/-- What is made of a text under a rule: hidden as a whole, or shown in part. -/
theorem redactValue_str (hrule : r.matchedRule key = some rule) (s : String) :
    r.redactValue key (.str s) = redacted key ∨
      ∃ t, r.redactValue key (.str s) = .str t ∧ rule.PartlyShows s t := by
  by_cases hhidden : s = "" ∨ rule.isFull = true ∨ s.length ≤ rule.revealStart + rule.revealEnd
  · left
    simp only [redactValue, hrule, hhidden, if_true]
  · right
    have hlong : rule.revealStart + rule.revealEnd < s.length := by
      by_contra hnot
      exact hhidden (Or.inr (Or.inr (not_lt.mp hnot)))
    exact ⟨rule.mask s, by simp only [redactValue, hrule, hhidden, if_false],
      rule.partlyShows_mask hlong⟩

/-- Whether a text is hidden as a whole turns on its length. -/
theorem redactValue_eq_of_agree (hrule : r.matchedRule key = some rule)
    (hlen : s.length = s'.length) (hagree : rule.AgreeOnWindow s s') :
    r.redactValue key (.str s) = r.redactValue key (.str s') := by
  have hempty : s = "" ↔ s' = "" := by
    rw [← String.length_eq_zero_iff, hlen, String.length_eq_zero_iff]
  simp only [redactValue, hrule]
  rw [rule.mask_eq_of_agree hlen hagree, hlen]
  simp only [hempty]

end Value

/-- The redactor shows no more of a text than the windows of its rule, which is one of those with
the longest pattern in the lower-cased key, and one for all keys that differ in case only. -/
theorem reveals_only_window (r : Redactor) (key : String)
    (hmask : ∀ entry ∈ r.rules, entry.2.maskChar.length = 1) :
    (∀ rule, r.matchedRule key = some rule →
      (∀ s s' : String, s.length = s'.length → rule.AgreeOnWindow s s' →
        r.redactValue key (.str s) = r.redactValue key (.str s')) ∧
      (∀ s : String, r.redactValue key (.str s) = redacted key ∨
        ∃ t, r.redactValue key (.str s) = .str t ∧ rule.PartlyShows s t ∧ t.length = s.length) ∧
      ∃ pattern, r.Longest key (pattern, rule)) ∧
    ∀ key', r.SameButCase key key' ↔ ∀ rules, (Redactor.mk rules r.lower).matchedRule key =
      (Redactor.mk rules r.lower).matchedRule key' := by
  refine ⟨fun rule hrule => ⟨?_, ?_, ?_⟩, fun key' => sameButCase_iff⟩
  · intro s s' hlen hagree
    exact redactValue_eq_of_agree hrule hlen hagree
  · intro s
    rcases redactValue_str hrule s with hhidden | ⟨t, ht, hpartly⟩
    · exact Or.inl hhidden
    · obtain ⟨pattern, hlongest⟩ := longest_of_matchedRule hrule
      exact Or.inr ⟨t, ht, hpartly,
        RedactRule.length_of_partlyShows hpartly (hmask _ hlongest.inTable)⟩
  · exact longest_of_matchedRule hrule

theorem reveals_only_window_apiKey :
    sampleRedactor.redactValue "API_Key" (.str "gTCJ-one-igCn") =
        sampleRedactor.redactValue "API_Key" (.str "gTCJ-two-igCn") ∧
      ∃ pattern, sampleRedactor.Longest "API_Key" (pattern, ⟨4, 4, "*"⟩) :=
  have h := (reveals_only_window sampleRedactor "API_Key" (by decide)).1 ⟨4, 4, "*"⟩ rfl
  ⟨h.1 _ _ (by decide) ⟨by decide, by decide⟩, h.2.2⟩

end Redactor

/-- `key` is in `authorizedkeys` as well, and the longer of the two patterns is taken. -/
example : sampleRedactor.redactValue "AuthorizedKeys" (.str "ssh-ed25519") =
    .str "ssh-ed25***" := rfl

end Opnsense
