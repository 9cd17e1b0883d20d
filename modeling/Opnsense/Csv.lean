import Mathlib.Data.List.Perm.Basic
import Opnsense.DiffEngine

namespace Opnsense
namespace DiffEngine

theorem mem_csvSet {x value : String} :
    x ∈ csvSet value ↔ ∃ token ∈ splitComma value, strip token ≠ [] ∧
      String.ofList (strip token) = x := by
  simp only [csvSet, Finset.mem_image, List.mem_toFinset, List.mem_filter, List.mem_map]
  constructor
  · rintro ⟨_, ⟨⟨token, htoken, rfl⟩, hne⟩, rfl⟩
    exact ⟨token, htoken, by simpa using hne, rfl⟩
  · rintro ⟨token, htoken, hne, rfl⟩
    exact ⟨strip token, ⟨⟨token, htoken, rfl⟩, by simpa using hne⟩, rfl⟩

theorem toList_join_cons_cons (k k' : String) (ks : List String) :
    (",".intercalate (k :: k' :: ks)).toList =
      k.toList ++ ',' :: (",".intercalate (k' :: ks)).toList := by
  simp [String.toList_intercalate, List.intercalate]

/-- Splitting joined keys splits every key. -/
theorem splitComma_join (k : String) (ks : List String) :
    splitComma (",".intercalate (k :: ks)) = (k :: ks).flatMap splitComma := by
  induction ks generalizing k with
  | nil => simp [splitComma]
  | cons k' ks ih =>
    have hsplit : splitComma (",".intercalate (k :: k' :: ks)) =
        splitComma k ++ splitComma (",".intercalate (k' :: ks)) := by
      rw [splitComma, toList_join_cons_cons, List.splitOn_append_cons_self]
      rfl
    rw [hsplit, ih]
    rfl

theorem mem_csvSet_join {x : String} {ks : List String} :
    x ∈ csvSet (",".intercalate ks) ↔ ∃ k ∈ ks, x ∈ csvSet k := by
  cases ks with
  | nil =>
    have hempty : csvSet "" = ∅ := by decide
    simp [hempty]
  | cons k ks =>
    simp only [mem_csvSet, splitComma_join, List.mem_flatMap]
    constructor
    · rintro ⟨token, ⟨k', hk', htoken⟩, hne, hx⟩
      exact ⟨k', hk', token, htoken, hne, hx⟩
    · rintro ⟨k', hk', token, htoken, hne, hx⟩
      exact ⟨token, ⟨k', hk', htoken⟩, hne, hx⟩

theorem csvSet_join_perm {ks ks' : List String} (h : ks.Perm ks') :
    csvSet (",".intercalate ks) = csvSet (",".intercalate ks') := by
  ext x
  simp only [mem_csvSet_join, h.mem_iff]

/-- Two or more keys are joined by a comma. -/
theorem comma_mem_join {ks : List String} (h : 2 ≤ ks.length) :
    ',' ∈ (",".intercalate ks).toList := by
  obtain ⟨k, k', rest, rfl⟩ : ∃ k k' rest, ks = k :: k' :: rest := by
    rcases ks with _ | ⟨k, _ | ⟨k', rest⟩⟩
    · simp at h
    · simp at h
    · exact ⟨k, k', rest, rfl⟩
  rw [toList_join_cons_cons]
  simp

/-- A reordering that changes the text has at least two keys. -/
theorem comma_mem_of_join_ne {ks ks' : List String} (hperm : ks.Perm ks')
    (h : ",".intercalate ks ≠ ",".intercalate ks') :
    ',' ∈ (",".intercalate ks').toList := by
  apply comma_mem_join
  by_contra hlen
  have hlen' : ks'.length ≤ 1 := by omega
  rcases ks' with _ | ⟨k, _ | ⟨k', rest⟩⟩
  · exact h (by rw [List.perm_nil.mp hperm])
  · exact h (by rw [List.perm_singleton.mp hperm])
  · simp at hlen'

end DiffEngine
end Opnsense
