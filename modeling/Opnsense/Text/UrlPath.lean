import Opnsense.Text.Split

namespace Text

/-- What is in front of a query and of a fragment. -/
def cutPath (url : List Char) : List Char := url.takeWhile fun c => c ≠ '?' ∧ c ≠ '#'

/-- One more segment; `.` stays where it is and `..` goes up, the root excepted. -/
def push (out : List (List Char)) (segment : List Char) : List (List Char) :=
  if segment = ['.'] then out
  else if segment = ['.', '.'] then if out = [[]] then out else out.dropLast
  else out ++ [segment]

/-- The segments of a path, with the relative ones resolved. -/
def segments (url : List Char) : List (List Char) := ((cutPath url).splitOn '/').foldl push []

def utf8 (cs : List Char) : List UInt8 := cs.flatMap String.utf8EncodeChar

def hexValue (c : Char) : Option ℕ :=
  if '0' ≤ c ∧ c ≤ '9' then some (c.toNat - 48)
  else if 'a' ≤ c ∧ c ≤ 'f' then some (c.toNat - 87)
  else if 'A' ≤ c ∧ c ≤ 'F' then some (c.toNat - 55)
  else none

/-- The byte that `%ab` stands for. -/
def escaped (c a b : Char) : Option UInt8 :=
  if c = '%' then do
    let high ← hexValue a
    let low ← hexValue b
    return UInt8.ofNat (16 * high + low)
  else none

/-- The bytes that a segment stands for: those of the escapes, and the UTF-8 of the rest. -/
def decode : List Char → List UInt8
  | c :: a :: b :: rest =>
    match escaped c a b with
    | some byte => byte :: decode rest
    | none => String.utf8EncodeChar c ++ decode (a :: b :: rest)
  | cs => utf8 cs

/-- Some `%` is the start of an escape. -/
def HasEscape : List Char → Prop
  | c :: a :: b :: rest => (escaped c a b).isSome = true ∨ HasEscape (a :: b :: rest)
  | _ => False

instance decidableHasEscape : (cs : List Char) → Decidable (HasEscape cs)
  | _ :: a :: b :: rest => @instDecidableOr _ _ _ (decidableHasEscape (a :: b :: rest))
  | [] => .isFalse id
  | [_] => .isFalse id
  | [_, _] => .isFalse id

/-- A text that a path may hold as one segment. -/
structure IsSegment (cs : List Char) : Prop where
  slash : '/' ∉ cs
  query : '?' ∉ cs
  fragment : '#' ∉ cs
  here : cs ≠ ['.']
  up : cs ≠ ['.', '.']
  escape : ¬ HasEscape cs

instance decidableIsSegment (cs : List Char) : Decidable (IsSegment cs) :=
  decidable_of_iff ('/' ∉ cs ∧ '?' ∉ cs ∧ '#' ∉ cs ∧ cs ≠ ['.'] ∧ cs ≠ ['.', '.'] ∧
      ¬ HasEscape cs)
    ⟨fun ⟨slash, query, fragment, here, up, escape⟩ =>
      ⟨slash, query, fragment, here, up, escape⟩,
      fun h => ⟨h.slash, h.query, h.fragment, h.here, h.up, h.escape⟩⟩

example : segments "/a/../b/./c?d/e".toList = [[], ['b'], ['c']] := by decide

variable {cs seg before ident tail : List Char} {out comps : List (List Char)}

@[simp] theorem utf8_nil : utf8 [] = [] := rfl

@[simp] theorem utf8_cons (c : Char) (cs : List Char) :
    utf8 (c :: cs) = String.utf8EncodeChar c ++ utf8 cs := rfl

theorem length_utf8EncodeChar_pos (c : Char) : 0 < (String.utf8EncodeChar c).length :=
  List.length_pos_iff.mpr String.utf8EncodeChar_ne_nil

theorem length_utf8_le (h : seg.Sublist cs) : (utf8 seg).length ≤ (utf8 cs).length := by
  induction h with
  | slnil => exact Nat.le_refl _
  | cons c _ ih =>
    rw [utf8_cons, List.length_append]
    omega
  | cons_cons c _ ih =>
    rw [utf8_cons, utf8_cons, List.length_append, List.length_append]
    omega

/-- A part of a text with as many bytes is the whole text. -/
theorem eq_of_sublist_of_length (h : seg.Sublist cs)
    (hlength : (utf8 cs).length ≤ (utf8 seg).length) : seg = cs := by
  induction h with
  | slnil => rfl
  | cons c hsub ih =>
    have hle := length_utf8_le hsub
    have hpos := length_utf8EncodeChar_pos c
    rw [utf8_cons, List.length_append] at hlength
    omega
  | cons_cons c _ ih =>
    rw [utf8_cons, utf8_cons, List.length_append, List.length_append] at hlength
    rw [ih (by omega)]

/-- Each escape costs two bytes. -/
theorem decode_spec (cs : List Char) :
    (decode cs).length ≤ (utf8 cs).length ∧ (decode cs = utf8 cs ↔ ¬ HasEscape cs) := by
  fun_induction decode cs with
  | case1 c a b rest byte hbyte ih =>
    have hc := length_utf8EncodeChar_pos c
    have ha := length_utf8EncodeChar_pos a
    have hlength : (byte :: decode rest).length < (utf8 (c :: a :: b :: rest)).length := by
      simp only [utf8_cons, List.length_append, List.length_cons]
      omega
    refine ⟨Nat.le_of_lt hlength, fun heq => ?_, fun hnone => ?_⟩
    · rw [heq] at hlength
      exact absurd hlength (Nat.lt_irrefl _)
    · exact absurd (Or.inl (by rw [hbyte]; rfl)) hnone
  | case2 c a b rest hnone ih =>
    obtain ⟨hle, hiff⟩ := ih
    rw [utf8_cons, List.length_append, List.length_append]
    refine ⟨Nat.add_le_add_left hle _, ?_⟩
    rw [List.append_cancel_left_eq, hiff, HasEscape, hnone]
    simp
  | case3 cs hshort =>
    refine ⟨Nat.le_refl _, fun _ hescape => ?_, fun _ => rfl⟩
    rcases cs with _ | ⟨c, _ | ⟨a, _ | ⟨b, rest⟩⟩⟩
    · exact hescape
    · exact hescape
    · exact hescape
    · exact hshort c a b rest rfl

/-- What is pushed comes behind what is left of the segments that were there. -/
theorem foldl_push (out comps : List (List Char)) :
    ∃ left pushed, left <+: out ∧ comps.foldl push out = left ++ pushed ∧
      ∀ segment ∈ pushed, segment ∈ comps := by
  induction comps generalizing out with
  | nil => exact ⟨out, [], List.prefix_refl out, (List.append_nil out).symm, by simp⟩
  | cons comp comps ih =>
    obtain ⟨left, pushed, hleft, hfold, hmem⟩ := ih (push out comp)
    have hmem' : ∀ segment ∈ pushed, segment ∈ comp :: comps :=
      fun segment h => List.mem_cons_of_mem _ (hmem segment h)
    rw [List.foldl_cons, hfold]
    by_cases hstart : left <+: out
    · exact ⟨left, pushed, hstart, rfl, hmem'⟩
    · -- only a segment that was appended makes the stack longer
      have hpush : push out comp = out ++ [comp] := by
        unfold push at hleft ⊢
        split
        · rename_i hdot
          rw [if_pos hdot] at hleft
          exact absurd hleft hstart
        · rename_i hdot
          rw [if_neg hdot] at hleft
          split
          · rename_i hup
            rw [if_pos hup] at hleft
            split at hleft
            · exact absurd hleft hstart
            · exact absurd (hleft.trans (List.dropLast_prefix out)) hstart
          · rfl
      rw [hpush] at hleft
      rcases List.prefix_concat_iff.mp hleft with rfl | h
      · refine ⟨out, comp :: pushed, List.prefix_refl out, by simp, ?_⟩
        intro segment h
        rcases List.mem_cons.mp h with rfl | h
        · exact List.mem_cons_self
        · exact hmem' segment h
      · exact absurd h hstart

/-- A segment behind those that were there was pushed. -/
theorem mem_of_foldl_push {rest : List (List Char)}
    (h : comps.foldl push out = out ++ seg :: rest) : seg ∈ comps := by
  obtain ⟨left, pushed, ⟨gone, rfl⟩, hfold, hmem⟩ := foldl_push out comps
  rw [hfold, List.append_assoc, List.append_cancel_left_eq] at h
  apply hmem
  rw [h]
  simp

/-- A text without the start of a query or of a fragment. -/
def Uncut (cs : List Char) : Prop := ∀ c ∈ cs, c ≠ '?' ∧ c ≠ '#'

theorem uncut_iff : Uncut cs ↔ '?' ∉ cs ∧ '#' ∉ cs :=
  ⟨fun h => ⟨fun hc => (h _ hc).1 rfl, fun hc => (h _ hc).2 rfl⟩,
    fun h _ hc => ⟨fun heq => h.1 (heq ▸ hc), fun heq => h.2 (heq ▸ hc)⟩⟩

theorem uncut_append_slash : Uncut (before ++ '/' :: cs) ↔ Uncut before ∧ Uncut cs := by
  rw [Uncut, List.forall_mem_append, List.forall_mem_cons]
  exact and_congr_right fun _ => and_iff_right ⟨by decide, by decide⟩

theorem cutPath_append (h : Uncut before) (cs : List Char) :
    cutPath (before ++ cs) = before ++ cutPath cs :=
  List.takeWhile_append_of_pos fun c hc => decide_eq_true (h c hc)

theorem cutPath_of_uncut (h : Uncut cs) : cutPath cs = cs := by
  simpa [cutPath] using cutPath_append h []

theorem uncut_cutPath (cs : List Char) : Uncut (cutPath cs) := by
  have hall : (cutPath cs).all _ = true := List.all_takeWhile
  intro c hc
  simpa using List.all_eq_true.mp hall c hc

/-- Behind a query or a fragment there is no path. -/
theorem cutPath_append_of_cut (h : ¬ Uncut before) (cs : List Char) :
    cutPath (before ++ cs) = cutPath before := by
  rw [cutPath, List.takeWhile_append, if_neg]
  · rfl
  · intro hlength
    have heq : cutPath before = before := (List.takeWhile_sublist _).eq_of_length hlength
    exact h (heq ▸ uncut_cutPath before)

theorem segments_append_slash (h : Uncut before) (cs : List Char) :
    segments (before ++ '/' :: cs) = ((cutPath cs).splitOn '/').foldl push (segments before) := by
  have hslash : cutPath ('/' :: cs) = '/' :: cutPath cs := rfl
  rw [segments, cutPath_append h, hslash, List.splitOn_append_cons_self, List.foldl_append,
    segments, cutPath_of_uncut h]

theorem segments_append_of_cut (h : ¬ Uncut before) (cs : List Char) :
    segments (before ++ cs) = segments before := by
  rw [segments, cutPath_append_of_cut h, segments]

theorem IsSegment.uncut (h : IsSegment cs) : Uncut cs := uncut_iff.mpr ⟨h.query, h.fragment⟩

theorem IsSegment.push (h : IsSegment cs) (out : List (List Char)) :
    push out cs = out ++ [cs] := by
  rw [Text.push, if_neg h.here, if_neg h.up]

theorem IsSegment.segments_append (h : IsSegment cs) (hbefore : Uncut before) :
    segments (before ++ '/' :: cs) = segments before ++ [cs] := by
  rw [segments_append_slash hbefore, cutPath_of_uncut h.uncut, List.splitOn_eq_singleton h.slash,
    List.foldl_cons, List.foldl_nil, h.push]

/-- The texts, each behind a slash. -/
def slashed (after : List (List Char)) : List Char := after.flatMap fun cs => '/' :: cs

theorem segments_append_slashed {after : List (List Char)} (hafter : ∀ cs ∈ after, IsSegment cs)
    (hbefore : Uncut before) : segments (before ++ slashed after) = segments before ++ after := by
  induction after generalizing before with
  | nil => simp [slashed]
  | cons cs after ih =>
    obtain ⟨hcs, hafter⟩ := List.forall_mem_cons.mp hafter
    have hsplit : before ++ slashed (cs :: after) = (before ++ '/' :: cs) ++ slashed after := by
      simp [slashed]
    rw [hsplit, ih hafter (uncut_append_slash.mpr ⟨hbefore, hcs.uncut⟩),
      hcs.segments_append hbefore, List.append_assoc, List.singleton_append]

/-- The path of `url` is that of `before`, one segment that decodes to `ident`, and `after`. -/
def OneSegment (before ident : List Char) (after : List (List Char)) (url : List Char) : Prop :=
  ∃ seg, segments url = segments before ++ seg :: after ∧ decode seg = utf8 ident

/-- What is put between slashes is read back as one segment exactly if it is a segment. -/
theorem oneSegment_iff {after : List (List Char)} (hafter : ∀ cs ∈ after, IsSegment cs) :
    OneSegment before ident after (before ++ '/' :: ident ++ slashed after) ↔
      Uncut before ∧ IsSegment ident := by
  constructor
  · rintro ⟨seg, hsegments, hdecode⟩
    have hbefore : Uncut before := by
      by_contra hcut
      rw [List.append_assoc, segments_append_of_cut hcut] at hsegments
      simp at hsegments
    have hpushed : ∃ rest, ((cutPath ident).splitOn '/').foldl push (segments before) =
        segments before ++ seg :: rest := by
      rw [← segments_append_slash hbefore]
      by_cases hident : Uncut ident
      · rw [segments_append_slashed hafter (uncut_append_slash.mpr ⟨hbefore, hident⟩),
          List.append_cons (segments before), List.append_cancel_right_eq] at hsegments
        exact ⟨[], hsegments⟩
      · have hcut : ¬ Uncut (before ++ '/' :: ident) :=
          fun h => hident (uncut_append_slash.mp h).2
        rw [segments_append_of_cut hcut] at hsegments
        exact ⟨after, hsegments⟩
    obtain ⟨rest, hpushed⟩ := hpushed
    have hmem := mem_of_foldl_push hpushed
    -- a segment has the bytes of `ident` only if it is all of it
    have hlength : (utf8 ident).length ≤ (utf8 seg).length :=
      hdecode ▸ (decode_spec seg).1
    have hsub : seg.Sublist (cutPath ident) := sublist_of_mem_splitOn hmem
    obtain rfl := eq_of_sublist_of_length (hsub.trans (List.takeWhile_sublist _)) hlength
    have huncut : Uncut seg := fun c hc => uncut_cutPath seg c (hsub.subset hc)
    have hslash : '/' ∉ seg := notMem_of_mem_splitOn hmem
    rw [cutPath_of_uncut huncut, List.splitOn_eq_singleton hslash, List.foldl_cons,
      List.foldl_nil] at hpushed
    refine ⟨hbefore, hslash, (uncut_iff.mp huncut).1, (uncut_iff.mp huncut).2, ?_, ?_,
      (decode_spec seg).2.mp hdecode⟩
    · rintro rfl
      simp [push] at hpushed
    · rintro rfl
      have hlonger := congrArg List.length hpushed
      have hpush : (push (segments before) ['.', '.']).length ≤ (segments before).length := by
        unfold push
        split
        · exact Nat.le_refl _
        · split
          · split
            · exact Nat.le_refl _
            · rw [List.length_dropLast]
              omega
          · contradiction
      rw [List.length_append, List.length_cons] at hlonger
      omega
  · rintro ⟨hbefore, hident⟩
    refine ⟨ident, ?_, (decode_spec ident).2.mpr hident.escape⟩
    rw [segments_append_slashed hafter (uncut_append_slash.mpr ⟨hbefore, hident.uncut⟩),
      hident.segments_append hbefore, List.append_assoc, List.singleton_append]

theorem utf8_injective {cs' : List Char} (h : utf8 cs = utf8 cs') : cs = cs' := by
  have hbytes : cs.utf8Encode = cs'.utf8Encode := congrArg List.toByteArray h
  exact String.ofList_injective (String.toByteArray_inj.mp hbytes)

/-- A path has one segment for one text only. -/
theorem OneSegment.unique {ident' url : List Char} {after : List (List Char)}
    (h : OneSegment before ident after url) (h' : OneSegment before ident' after url) :
    ident = ident' := by
  obtain ⟨seg, hsegments, hdecode⟩ := h
  obtain ⟨seg', hsegments', hdecode'⟩ := h'
  rw [hsegments, List.append_cancel_left_eq, List.cons.injEq] at hsegments'
  obtain ⟨rfl, -⟩ := hsegments'
  exact utf8_injective (hdecode.symm.trans hdecode')

end Text
