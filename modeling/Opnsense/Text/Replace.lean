import Mathlib.Data.List.Basic
import Mathlib.Data.List.Infix

namespace Text
open String.Slice String.Slice.Pattern.Model

/-- `old` replaced by `new` from the left, where it is met. -/
inductive Replaced (old new : List Char) : List Char → List Char → Prop
  | nil : Replaced old new [] []
  | hit {rest out : List Char} (h : Replaced old new rest out) :
    Replaced old new (old ++ rest) (new ++ out)
  | miss {c : Char} {rest out : List Char} (hc : ¬ old <+: c :: rest)
      (h : Replaced old new rest out) : Replaced old new (c :: rest) (c :: out)

section Replace

variable {old new : String} {s : String.Slice}

theorem splits_lt {start stop : s.Pos} {t₁ t₂ v : String} {c : Char} {u : List Char}
    (hstart : start.Splits t₁ t₂) (hstop : stop.Splits (t₁ ++ String.ofList (c :: u)) v) :
    start < stop := by
  have hpos : 0 < (String.ofList (c :: u)).utf8ByteSize := by
    rw [Nat.pos_iff_ne_zero]
    intro h
    rw [String.utf8ByteSize_eq_zero_iff] at h
    have hlist := congrArg String.toList h
    rw [String.toList_ofList] at hlist
    cases hlist
  rw [String.Slice.Pos.lt_iff, hstart.offset_eq_rawEndPos, hstop.offset_eq_rawEndPos,
    String.Pos.Raw.lt_iff, String.byteIdx_rawEndPos, String.byteIdx_rawEndPos,
    String.utf8ByteSize_append]
  omega

/-- A stretch without a match is kept. -/
theorem replaced_of_rejected {u : List Char} {v t₁ : String} {out : List Char}
    {start stop : s.Pos} (hstart : start.Splits t₁ (String.ofList u ++ v))
    (hstop : stop.Splits (t₁ ++ String.ofList u) v)
    (hnone : ∀ pos, start ≤ pos → pos < stop → ¬ MatchesAt old pos)
    (h : Replaced old.toList new.toList v.toList out) :
    Replaced old.toList new.toList (u ++ v.toList) (u ++ out) := by
  induction u generalizing t₁ start with
  | nil => exact h
  | cons c u ih =>
    have hsplit : start.Splits t₁ (String.singleton c ++ (String.ofList u ++ v)) :=
      hstart.of_eq rfl (String.toList_injective (by simp))
    have hnext := hsplit.next
    have hstop' : stop.Splits (t₁ ++ String.singleton c ++ String.ofList u) v :=
      hstop.of_eq (String.toList_injective (by simp)) rfl
    refine .miss ?_ (ih hnext hstop' fun pos hle hlt => ?_)
    · rintro ⟨t, ht⟩
      refine hnone start (String.Slice.Pos.le_refl _) (splits_lt hstart hstop) ?_
      rw [Pattern.Model.ForwardStringSearcher.matchesAt_iff_splits]
      refine ⟨t₁, String.ofList t, hstart.of_eq rfl (String.toList_injective ?_)⟩
      simpa using ht.symm
    · refine hnone pos (Std.le_trans ?_ hle) hlt
      exact Std.le_of_lt String.Slice.Pos.lt_next

def replaceStep (new : String) : String → Pattern.SearchStep s → String
  | sofar, .matched .. => sofar ++ String.ToSlice.toSlice new
  | sofar, .rejected start stop => sofar ++ s.slice! start stop

theorem splits_slice {start stop : s.Pos} (h : start ≤ stop) :
    start.Splits (s.sliceTo start).copy
        ((s.slice start stop h).copy ++ (s.sliceFrom stop).copy) ∧
      stop.Splits ((s.sliceTo start).copy ++ (s.slice start stop h).copy)
        (s.sliceFrom stop).copy := by
  have hwhole : s.copy = (s.sliceTo start).copy ++ (s.slice start stop h).copy ++
      (s.sliceFrom stop).copy := copy_eq_copy_slice
  constructor
  · exact ⟨by rw [hwhole, String.append_assoc], start.splits.offset_eq_rawEndPos⟩
  · have hto : (s.sliceTo stop).copy = (s.sliceTo start).copy ++ (s.slice start stop h).copy := by
      apply String.toList_injective
      have hlists := congrArg String.toList (stop.splits.eq_append.symm.trans hwhole)
      rw [String.toList_append, String.toList_append] at hlists
      exact List.append_cancel_right hlists
    exact stop.splits.of_eq hto rfl

/-- A search replaces from where it starts. -/
theorem replaced_of_search {start : s.Pos} {steps : List (Pattern.SearchStep s)}
    (h : IsValidSearchFrom old start steps) (sofar : String) :
    ∃ out, steps.foldl (replaceStep new) sofar = sofar ++ out ∧
      Replaced old.toList new.toList (s.sliceFrom start).copy.toList out.toList := by
  induction h generalizing sofar with
  | endPos =>
    refine ⟨"", by simp, ?_⟩
    simpa using Replaced.nil
  | @matched steps start stop hmatch hrest ih =>
    obtain ⟨out, hfold, hout⟩ := ih (sofar ++ new)
    obtain ⟨t₁, t₂, hstart, hstop⟩ := ForwardStringSearcher.isLongestMatchAt_iff_splits.mp hmatch
    refine ⟨new ++ out, ?_, ?_⟩
    · have hstep : replaceStep new sofar (.matched start stop) = sofar ++ new := by
        rw [replaceStep, String.appendSlice_eq]
        exact congrArg (sofar ++ ·) String.copy_toSlice
      rw [List.foldl_cons, hstep, hfold, String.append_assoc]
    · rw [stop.splits.eq_right hstop] at hout
      rw [start.splits.eq_right hstart, String.toList_append, String.toList_append]
      exact .hit hout
  | @mismatched steps start stop hlt hnone hrest ih =>
    have hle : start ≤ stop := Std.le_of_lt hlt
    let kept := (s.slice start stop hle).copy
    obtain ⟨out, hfold, hout⟩ := ih (sofar ++ kept)
    refine ⟨kept ++ out, ?_, ?_⟩
    · have hstep : replaceStep new sofar (.rejected start stop) = sofar ++ kept := by
        rw [replaceStep, ← slice_eq_slice! (h := hle)]
        rfl
      rw [List.foldl_cons, hstep, hfold, String.append_assoc]
    · obtain ⟨hstart, hstop⟩ := splits_slice hle
      rw [start.splits.eq_right hstart, String.toList_append, String.toList_append]
      exact replaced_of_rejected (by rwa [String.ofList_toList]) (by rwa [String.ofList_toList])
        hnone hout

/-- `replace` replaces from the left. -/
theorem replaced_replace (hold : old ≠ "") (text : String) :
    Replaced old.toList new.toList text.toList (text.replace old new).toList := by
  have hlawful := ForwardStringSearcher.lawfulToForwardSearcherModel hold
  have hsearch := hlawful.isValidSearchFrom_toList text.toSlice
  obtain ⟨out, hfold, hout⟩ := @replaced_of_search old new _ _ _ hsearch ""
  have hreplace : text.replace old new = out := by
    rw [String.replace, String.Slice.replace, ← Std.Iter.foldl_toList]
    exact hfold.trans String.empty_append
  rw [hreplace]
  simpa using hout

end Replace

section Unique

variable {old new t out out' : List Char}

/-- There is one way to replace. -/
theorem Replaced.unique (hold : old ≠ []) (h : Replaced old new t out)
    (h' : Replaced old new t out') : out = out' := by
  induction h generalizing out' with
  | nil =>
    generalize ht : ([] : List Char) = t at h'
    cases h' with
    | nil => rfl
    | hit => exact absurd (List.append_eq_nil_iff.mp ht.symm).1 hold
    | miss => cases ht
  | @hit rest out h ih =>
    generalize ht : old ++ rest = t at h'
    cases h' with
    | nil => exact absurd (List.append_eq_nil_iff.mp ht).1 hold
    | hit h' =>
      obtain rfl := List.append_cancel_left ht
      rw [ih h']
    | miss hc => exact absurd ⟨rest, ht⟩ hc
  | @miss c rest out hc h ih =>
    generalize ht : c :: rest = t at h'
    cases h' with
    | nil => cases ht
    | @hit rest' => exact absurd ⟨rest', ht.symm⟩ hc
    | miss hc' h' =>
      cases ht
      rw [ih h']

/-- What is put in has a character that the outcome lacks: nothing was replaced. -/
theorem Replaced.eq_of_notMem_out {x : Char} (hx : x ∈ new) (h : Replaced old new t out)
    (hout : x ∉ out) : out = t := by
  induction h with
  | nil => rfl
  | hit h ih => exact absurd (List.mem_append_left _ hx) hout
  | miss hc h ih => rw [ih fun hmem => hout (List.mem_cons_of_mem _ hmem)]

/-- What is looked for has a character that the text lacks: nothing is replaced. -/
theorem Replaced.eq_of_notMem {x : Char} (hx : x ∈ old) (h : Replaced old new t out)
    (ht : x ∉ t) : out = t := by
  induction h with
  | nil => rfl
  | hit h ih => exact absurd (List.mem_append_left _ hx) ht
  | miss hc h ih => rw [ih fun hmem => ht (List.mem_cons_of_mem _ hmem)]

theorem Replaced.of_prefix {rest : List Char} (hold : old ≠ [])
    (h : Replaced old new (old ++ rest) out) :
    ∃ out', out = new ++ out' ∧ Replaced old new rest out' := by
  generalize ht : old ++ rest = t at h
  cases h with
  | nil => exact absurd (List.append_eq_nil_iff.mp ht).1 hold
  | hit h =>
    obtain rfl := List.append_cancel_left ht
    exact ⟨_, rfl, h⟩
  | miss hc => exact absurd ⟨rest, ht⟩ hc

theorem Replaced.of_not_prefix {c : Char} {rest : List Char} (hc : ¬ old <+: c :: rest)
    (h : Replaced old new (c :: rest) out) :
    ∃ out', out = c :: out' ∧ Replaced old new rest out' := by
  generalize ht : c :: rest = t at h
  cases h with
  | nil => cases ht
  | @hit rest' => exact absurd ⟨rest', ht.symm⟩ hc
  | miss _ h =>
    cases ht
    exact ⟨_, rfl, h⟩

/-- Where no match begins, the text is kept. -/
theorem Replaced.append_left {u : List Char} (h : Replaced old new t out)
    (hu : ∀ v w, u = v ++ w → w ≠ [] → ¬ old <+: w ++ t) :
    Replaced old new (u ++ t) (u ++ out) := by
  induction u with
  | nil => exact h
  | cons c u ih =>
    refine .miss (hu [] (c :: u) rfl (List.cons_ne_nil _ _)) (ih fun v w huv hw => ?_)
    exact hu (c :: v) w (by rw [huv]; rfl) hw

/-- What lacks the separator is found on one side of it. -/
theorem infix_append_cons {s a b : List Char} {x : Char} (hx : x ∉ s)
    (h : s <:+: a ++ x :: b) : s <:+: a ∨ s <:+: b := by
  obtain ⟨before, after, heq⟩ := h
  rw [List.append_assoc] at heq
  rcases List.append_eq_append_iff.mp heq with ⟨w, rfl, hright⟩ | ⟨w, rfl, hright⟩
  · rcases List.append_eq_append_iff.mp hright with ⟨z, rfl, -⟩ | ⟨z, rfl, hz⟩
    · exact Or.inl ⟨before, z, List.append_assoc ..⟩
    · cases z with
      | nil => exact Or.inl ⟨before, [], by simp⟩
      | cons y z =>
        obtain ⟨rfl, -⟩ := List.cons.inj hz
        exact absurd (List.mem_append_right w List.mem_cons_self) hx
  · cases w with
    | nil =>
      cases s with
      | nil => exact Or.inl List.nil_infix
      | cons y s =>
        obtain ⟨rfl, -⟩ := List.cons.inj hright
        exact absurd List.mem_cons_self hx
    | cons y w =>
      obtain ⟨-, rfl⟩ := List.cons.inj hright
      exact Or.inr ⟨w, after, List.append_assoc ..⟩

end Unique

section Tails

variable {old new A P Q o : List Char} {first last : Char} {mid : List Char}

/-- What reaches beyond a start has its last character behind it. -/
theorem last_mem_of_append_eq {B R : List Char} (hends : new.getLast? = some last)
    (h : new ++ R = B ++ Q) (hlong : B.length < new.length) : last ∈ Q := by
  have hfront : new <+: B ++ Q := h ▸ List.prefix_append new R
  obtain ⟨z, rfl⟩ := List.prefix_of_prefix_length_le (List.prefix_append B Q) hfront hlong.le
  have hz : z ≠ [] := by
    rintro rfl
    rw [List.append_nil] at hlong
    omega
  have hQ : Q = z ++ R := by
    rw [List.append_assoc] at h
    exact (List.append_cancel_left h).symm
  rw [List.getLast?_append_of_ne_nil _ hz] at hends
  exact hQ ▸ List.mem_append_left R (List.mem_of_getLast? hends)

/-- Replacement that takes in some of the one tail, at a place where the other text has no match,
ends in another text. -/
theorem Replaced.not_mixed (hold : old ≠ []) (hnew : new = first :: mid ++ [last])
    (honce : first ∉ mid ++ [last]) (hP : first ∉ P) (hQ : first ∉ Q) (hlast : last ∉ Q)
    (hlength : P.length = Q.length) (hbegins : old <+: A ++ P) (hnone : ¬ old <+: A ++ Q)
    (h : Replaced old new (A ++ P) o) : ¬ Replaced old new (A ++ Q) o := by
  intro h'
  have hlong : A.length < old.length := by
    by_contra hshort
    have hinside : old <+: A := List.prefix_of_prefix_length_le hbegins (List.prefix_append A P)
      (not_lt.mp hshort)
    exact hnone (hinside.trans (List.prefix_append A Q))
  -- the match takes in all of `A` and the piece `w` of the tail
  obtain ⟨w, rfl⟩ := List.prefix_of_prefix_length_le (List.prefix_append A P) hbegins hlong.le
  obtain ⟨R, rfl⟩ := (List.prefix_append_right_inj A).mp hbegins
  have hw : 0 < w.length := by
    rw [List.length_append] at hlong
    omega
  rw [← List.append_assoc] at h
  obtain ⟨o₁, rfl, hrest⟩ := h.of_prefix hold
  rw [hnew] at h'
  cases A with
  | nil =>
    cases Q with
    | nil =>
      rw [List.length_append, List.length_nil] at hlength
      omega
    | cons q Q =>
      obtain ⟨o', heq, -⟩ := h'.of_not_prefix hnone
      obtain ⟨rfl, -⟩ := List.cons.inj heq
      exact hQ List.mem_cons_self
  | cons a A =>
    -- the other text keeps its first character, so that is the one `new` begins with
    obtain ⟨o₂, heq, hthen⟩ := h'.of_not_prefix hnone
    obtain ⟨rfl, ho₂⟩ := List.cons.inj heq
    have hR : first ∉ R := fun hmem => hP (List.mem_append_right w hmem)
    have ho₁ : o₁ = R := hrest.eq_of_notMem List.mem_cons_self hR
    have hout : first ∉ o₂ := by
      rw [← ho₂, ho₁]
      intro hmem
      rcases List.mem_append.mp hmem with hmem | hmem
      · exact honce hmem
      · exact hR hmem
    have hkept : o₂ = A ++ Q := hthen.eq_of_notMem_out List.mem_cons_self hout
    have hmid : mid ++ [last] ++ R = A ++ Q := by
      rw [← hkept, ← ho₂, ho₁]
      rfl
    have hsame : new ++ R = first :: A ++ Q := by
      rw [hnew]
      exact congrArg (first :: ·) hmid
    have hlengths := congrArg List.length hsame
    rw [List.length_append, List.length_append] at hlengths
    rw [List.length_append] at hlength
    have hends : new.getLast? = some last := by rw [hnew, List.getLast?_concat]
    exact hlast (last_mem_of_append_eq hends hsame (by omega))

/-- Texts with a common start and tails of one length are kept apart, whatever is replaced, when
what is put in begins with a character of its own and ends with one, and neither is in a tail. -/
theorem Replaced.tail_inj (hold : old ≠ []) (hnew : new = first :: mid ++ [last])
    (honce : first ∉ mid ++ [last]) (hP : first ∉ P) (hQ : first ∉ Q) (hlastP : last ∉ P)
    (hlastQ : last ∉ Q) (hlength : P.length = Q.length) (h : Replaced old new (A ++ P) o)
    (h' : Replaced old new (A ++ Q) o) : P = Q := by
  generalize hn : (A ++ P).length = n
  induction n using Nat.strong_induction_on generalizing A P Q o with
  | _ n ih =>
    -- one step takes a match off both texts, or a character
    by_cases hpre : old <+: A ++ P
    · by_cases hpre' : old <+: A ++ Q
      · have hpos : 0 < old.length := List.length_pos_of_ne_nil hold
        -- the match ends in the common start, or takes in the same of both tails
        by_cases hinside : old.length ≤ A.length
        · obtain ⟨A, rfl⟩ :=
            List.prefix_of_prefix_length_le hpre (List.prefix_append A P) hinside
          rw [List.append_assoc] at h h'
          obtain ⟨o₁, rfl, hrest⟩ := h.of_prefix hold
          obtain ⟨o₂, heq, hrest'⟩ := h'.of_prefix hold
          obtain rfl := List.append_cancel_left heq
          refine ih (A ++ P).length ?_ hP hQ hlastP hlastQ hlength hrest hrest' rfl
          rw [← hn]
          simp only [List.length_append]
          omega
        · obtain ⟨w, rfl⟩ := List.prefix_of_prefix_length_le (List.prefix_append A P) hpre
            (not_le.mp hinside).le
          obtain ⟨R, rfl⟩ := (List.prefix_append_right_inj A).mp hpre
          obtain ⟨R', rfl⟩ := (List.prefix_append_right_inj A).mp hpre'
          rw [← List.append_assoc] at h h'
          obtain ⟨o₁, rfl, hrest⟩ := h.of_prefix hold
          obtain ⟨o₂, heq, hrest'⟩ := h'.of_prefix hold
          obtain rfl := List.append_cancel_left heq
          have hsame : R = R' := by
            refine @ih R.length ?_ [] R R' o₁ (fun hmem => hP (List.mem_append_right w hmem))
              (fun hmem => hQ (List.mem_append_right w hmem))
              (fun hmem => hlastP (List.mem_append_right w hmem))
              (fun hmem => hlastQ (List.mem_append_right w hmem)) ?_ hrest hrest' rfl
            · rw [← hn, ← List.append_assoc, List.length_append]
              omega
            · rw [List.length_append, List.length_append] at hlength
              omega
          rw [hsame]
      · exact absurd h' (h.not_mixed hold hnew honce hP hQ hlastQ hlength hpre hpre')
    · by_cases hpre' : old <+: A ++ Q
      · exact absurd h (h'.not_mixed hold hnew honce hQ hP hlastP hlength.symm hpre' hpre)
      · cases A with
        | cons a A =>
          obtain ⟨o₁, rfl, hrest⟩ := h.of_not_prefix hpre
          obtain ⟨o₂, heq, hrest'⟩ := h'.of_not_prefix hpre'
          obtain rfl := (List.cons.inj heq).2
          refine ih (A ++ P).length ?_ hP hQ hlastP hlastQ hlength hrest hrest' rfl
          rw [← hn]
          exact Nat.lt_succ_self _
        | nil =>
          cases P with
          | nil => exact (List.length_eq_zero_iff.mp hlength.symm).symm
          | cons p P =>
            cases Q with
            | nil => cases hlength
            | cons q Q =>
              obtain ⟨o₁, rfl, hrest⟩ := h.of_not_prefix hpre
              obtain ⟨o₂, heq, hrest'⟩ := h'.of_not_prefix hpre'
              obtain ⟨rfl, rfl⟩ := List.cons.inj heq
              have hsame : P = Q := by
                refine @ih P.length ?_ [] P Q o₁ (fun hmem => hP (List.mem_cons_of_mem _ hmem))
                  (fun hmem => hQ (List.mem_cons_of_mem _ hmem))
                  (fun hmem => hlastP (List.mem_cons_of_mem _ hmem))
                  (fun hmem => hlastQ (List.mem_cons_of_mem _ hmem)) (Nat.succ.inj hlength) hrest
                  hrest' rfl
                rw [← hn]
                exact Nat.lt_succ_self _
              rw [hsame]

end Tails
end Text
