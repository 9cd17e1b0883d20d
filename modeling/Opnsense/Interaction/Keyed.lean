import Mathlib.Data.List.Nodup

namespace Interaction

structure Keyed {α κ : Type} (key : α → κ) where
  entries : List α
  nodup : (entries.map key).Nodup

namespace Keyed

variable {α κ : Type} [DecidableEq κ] {key : α → κ}

def find (t : Keyed key) (k : κ) : Option α := t.entries.find? fun a => key a = k

def insert (t : Keyed key) (a : α) (h : ∀ b ∈ t.entries, key b ≠ key a) : Keyed key where
  entries := t.entries ++ [a]
  nodup := by
    rw [List.map_append, List.nodup_append]
    refine ⟨t.nodup, List.nodup_singleton _, ?_⟩
    intro k hk k' hk'
    obtain ⟨b, hb, rfl⟩ := List.mem_map.mp hk
    rw [List.map_singleton, List.mem_singleton] at hk'
    exact hk' ▸ h b hb

def modify (t : Keyed key) (k : κ) (f : α → α) (hf : ∀ a, key (f a) = key a) : Keyed key where
  entries := t.entries.map fun a => if key a = k then f a else a
  nodup := by
    have hkey : key ∘ (fun a => if key a = k then f a else a) = key := by
      funext a
      by_cases h : key a = k
      · simp [h, hf]
      · simp [h]
    rw [List.map_map, hkey]
    exact t.nodup

def erase (t : Keyed key) (k : κ) : Keyed key where
  entries := t.entries.filter fun a => key a ≠ k
  nodup := t.nodup.sublist (List.filter_sublist.map key)

theorem find_eq_some_iff {t : Keyed key} {k : κ} {a : α} :
    t.find k = some a ↔ a ∈ t.entries ∧ key a = k := by
  constructor
  · intro h
    exact ⟨List.mem_of_find?_eq_some h, by simpa using List.find?_some h⟩
  · rintro ⟨ha, rfl⟩
    cases hfind : t.find (key a) with
    | none =>
      have hno := List.find?_eq_none.mp hfind a ha
      simp at hno
    | some b =>
      have hb := List.mem_of_find?_eq_some hfind
      have hkey : key b = key a := by simpa using List.find?_some hfind
      rw [List.inj_on_of_nodup_map t.nodup hb ha hkey]

theorem find_erase_of_ne {t : Keyed key} {k k' : κ} (h : k ≠ k') :
    (t.erase k').find k = t.find k := by
  rw [find, erase, List.find?_filter, find]
  congr 1
  funext a
  by_cases hk : key a = k
  · simp [hk, h]
  · simp [hk]

variable (p : α → Bool)

omit [DecidableEq κ] in
theorem filter_insert_of_true {t : Keyed key} {a : α} (h : ∀ b ∈ t.entries, key b ≠ key a)
    (hp : p a = true) : (t.insert a h).entries.filter p = t.entries.filter p ++ [a] := by
  simp [insert, List.filter_append, hp]

omit [DecidableEq κ] in
theorem filter_insert_of_false {t : Keyed key} {a : α} (h : ∀ b ∈ t.entries, key b ≠ key a)
    (hp : p a = false) : (t.insert a h).entries.filter p = t.entries.filter p := by
  simp [insert, List.filter_append, hp]

/-- Modifying an entry outside the class, and keeping it outside, leaves the class alone. -/
theorem filter_modify_of_false {t : Keyed key} {k : κ} {f : α → α}
    (hf : ∀ a, key (f a) = key a)
    (h : ∀ a ∈ t.entries, key a = k → p a = false ∧ p (f a) = false) :
    (t.modify k f hf).entries.filter p = t.entries.filter p := by
  change (t.entries.map _).filter p = _
  generalize t.entries = entries at h ⊢
  induction entries with
  | nil => rfl
  | cons a rest ih =>
    have hrest := ih fun b hb => h b (List.mem_cons_of_mem _ hb)
    by_cases hk : key a = k
    · obtain ⟨hpa, hpf⟩ := h a (List.mem_cons_self ..) hk
      simp only [List.map_cons, if_pos hk, List.filter_cons, hpa, hpf]
      simpa using hrest
    · simp only [List.map_cons, if_neg hk, List.filter_cons, hrest]

/-- A modification that keeps every entry in its class keeps the keys of the class. -/
theorem keys_filter_modify {t : Keyed key} {k : κ} {f : α → α} (hf : ∀ a, key (f a) = key a)
    (h : ∀ a ∈ t.entries, key a = k → p (f a) = p a) :
    ((t.modify k f hf).entries.filter p).map key = (t.entries.filter p).map key := by
  change ((t.entries.map _).filter p).map key = _
  generalize t.entries = entries at h ⊢
  induction entries with
  | nil => rfl
  | cons a rest ih =>
    have hrest := ih fun b hb => h b (List.mem_cons_of_mem _ hb)
    by_cases hk : key a = k
    · have hpa := h a (List.mem_cons_self ..) hk
      simp only [List.map_cons, if_pos hk, List.filter_cons, hpa]
      cases p a with
      | true => simpa [hf] using hrest
      | false => simpa using hrest
    · simp only [List.map_cons, if_neg hk, List.filter_cons]
      cases p a with
      | true => simpa using hrest
      | false => simpa using hrest

/-- A class that a modification keeps is modified where its entry is. -/
theorem filter_modify {t : Keyed key} {k : κ} {f : α → α} (hf : ∀ a, key (f a) = key a)
    (h : ∀ a ∈ t.entries, key a = k → p (f a) = p a) :
    (t.modify k f hf).entries.filter p =
      (t.entries.filter p).map fun a => if key a = k then f a else a := by
  change (t.entries.map _).filter p = _
  rw [List.filter_map]
  congr 1
  apply List.filter_congr
  intro a ha
  by_cases hk : key a = k
  · simp [hk, h a ha hk]
  · simp [hk]

theorem filter_erase_of_false {t : Keyed key} {k : κ}
    (h : ∀ a ∈ t.entries, key a = k → p a = false) :
    (t.erase k).entries.filter p = t.entries.filter p := by
  change (t.entries.filter _).filter p = _
  rw [List.filter_filter]
  apply List.filter_congr
  intro a ha
  by_cases hk : key a = k
  · simp [hk, h a ha hk]
  · simp [hk]

/-- An erased class loses the entry of the key. -/
theorem filter_erase (t : Keyed key) (k : κ) :
    (t.erase k).entries.filter p = (t.entries.filter p).filter fun a => key a ≠ k := by
  change (t.entries.filter _).filter p = _
  rw [List.filter_filter, List.filter_filter]
  apply List.filter_congr
  intro a _
  rw [Bool.and_comm]

theorem keys_filter_erase (t : Keyed key) (k : κ) :
    ((t.erase k).entries.filter p).map key = ((t.entries.filter p).map key).filter (· ≠ k) := by
  change ((t.entries.filter _).filter p).map key = _
  rw [List.filter_map, List.filter_filter, List.filter_filter]
  congr 1
  apply List.filter_congr
  intro a _
  simp [Bool.and_comm]

end Keyed
end Interaction
