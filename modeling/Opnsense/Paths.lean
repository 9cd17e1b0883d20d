import Opnsense.DiffSoundness
import Opnsense.PlainServer

namespace Opnsense
open DiffEngine

/-- The value a path of keys leads to. -/
def valueAt : List String → Json → Option Json
  | [], v => some v
  | key :: path, .obj fields => (fields.lookup key).bind (valueAt path)
  | _ :: _, _ => none

@[simp] theorem valueAt_nil (v : Json) : valueAt [] v = some v := by
  cases v <;> rfl

@[simp] theorem valueAt_cons_obj (key : String) (path : List String) (fields : Obj) :
    valueAt (key :: path) (.obj fields) = (fields.lookup key).bind (valueAt path) := rfl

theorem valueAt_cons_of_flat {v : Json} (h : v.isDict = false) (key : String)
    (path : List String) : valueAt (key :: path) v = none := by
  cases v with
  | obj fields => cases h
  | _ => rfl

theorem eq_of_valueAt_flat {v w : Json} {path : List String} (h : v.isDict = false)
    (hw : valueAt path v = some w) : w = v := by
  cases path with
  | nil => exact (Option.some.inj ((valueAt_nil v).symm.trans hw)).symm
  | cons key path =>
    rw [valueAt_cons_of_flat h] at hw
    cases hw

/-- The fields of a stored value, when it is a block. -/
def fieldsOf : Option Json → Obj
  | some (.obj fields) => fields
  | _ => []

theorem bind_valueAt_cons (stored : Option Json) (key : String) (path : List String) :
    stored.bind (valueAt (key :: path)) =
      ((fieldsOf stored).lookup key).bind (valueAt path) := by
  cases stored with
  | none => rfl
  | some v => cases v <;> rfl

/-- Every block of a value, at any depth, names each key once. -/
def Keyed (v : Json) : Prop :=
  ∀ path fields, valueAt path v = some (.obj fields) → (fields.map (·.1)).Nodup

/-- Nowhere is a stored block overwritten by a value that is none. -/
def KeepsBlocks (stored : Option Json) (sent : Json) : Prop :=
  ∀ path v w, valueAt path sent = some v → stored.bind (valueAt path) = some w →
    w.isDict = true → v.isDict = true

section Merge

variable {stored : Option Json} {sent : Json} {fields : Obj} {key : String}
  {path : List String} {v : Json}

theorem Keyed.nodup (h : Keyed (.obj fields)) : (fields.map (·.1)).Nodup :=
  h [] fields (valueAt_nil _)

theorem Keyed.lookup (h : Keyed (.obj fields)) (hv : fields.lookup key = some v) : Keyed v := by
  intro path inner hinner
  apply h (key :: path) inner
  rw [valueAt_cons_obj, hv]
  exact hinner

theorem KeepsBlocks.lookup (h : KeepsBlocks stored (.obj fields))
    (hv : fields.lookup key = some v) : KeepsBlocks ((fieldsOf stored).lookup key) v := by
  intro path v' w hv' hw
  apply h (key :: path) v' w
  · rw [valueAt_cons_obj, hv]
    exact hv'
  · rw [bind_valueAt_cons]
    exact hw

/-- Field by field; what is stored besides does not matter. -/
theorem keepsBlocks_obj (h : ∀ kv ∈ fields, KeepsBlocks ((fieldsOf stored).lookup kv.1) kv.2) :
    KeepsBlocks stored (.obj fields) := by
  intro path v w hv hw hdict
  cases path with
  | nil =>
    rw [valueAt_nil, Option.some.injEq] at hv
    rw [← hv]
    rfl
  | cons key path =>
    rw [valueAt_cons_obj, Option.bind_eq_some_iff] at hv
    obtain ⟨field, hfield, hv⟩ := hv
    rw [bind_valueAt_cons] at hw
    exact h (key, field) (Obj.mem_of_lookup hfield) path v w hv hw hdict

/-- Over a stored value that is no block there is nothing to keep. -/
theorem keepsBlocks_of_fieldsOf (h : KeepsBlocks (some (.obj (fieldsOf stored))) (.obj fields)) :
    KeepsBlocks stored (.obj fields) := by
  intro path v w hv hw hdict
  cases path with
  | nil =>
    rw [valueAt_nil, Option.some.injEq] at hv
    rw [← hv]
    rfl
  | cons key path =>
    apply h (key :: path) v w hv _ hdict
    rw [bind_valueAt_cons] at hw ⊢
    exact hw

theorem keepsBlocks_of_flat (h : ∀ w, stored = some w → w.isDict = false) :
    KeepsBlocks stored sent := by
  intro path v w hv hw hdict
  cases stored with
  | none => cases hw
  | some stored =>
    have hflat := h stored rfl
    cases path with
    | nil =>
      rw [Option.bind_some, valueAt_nil, Option.some.injEq] at hw
      rw [hw, hdict] at hflat
      cases hflat
    | cons key path =>
      rw [Option.bind_some, valueAt_cons_of_flat hflat] at hw
      cases hw

theorem mergeValue_obj (stored : Option Json) (fields : Obj) :
    mergeValue stored (.obj fields) = .obj (mergeFields (fieldsOf stored) fields) := by
  cases stored with
  | none => simp [mergeValue, fieldsOf]
  | some v => cases v <;> simp [mergeValue, fieldsOf]

theorem notMem_of_lookup_eq_none (h : fields.lookup key = none) :
    key ∉ fields.map (·.1) := by
  intro hmem
  obtain ⟨kv, hkv, rfl⟩ := List.mem_map.mp hmem
  have hne : (kv.1 == kv.1) = false := by simpa using List.lookup_eq_none_iff.mp h kv hkv
  simp at hne

/-- What is sent under a path is merged with what was stored there. -/
theorem valueAt_mergeValue_of_named (hkeyed : Keyed sent) (h : valueAt path sent = some v) :
    valueAt path (mergeValue stored sent) =
      some (mergeValue (stored.bind (valueAt path)) v) := by
  induction path generalizing stored sent with
  | nil =>
    rw [valueAt_nil, Option.some.injEq] at h
    rw [valueAt_nil, h]
    cases stored <;> simp
  | cons key path ih =>
    cases sent with
    | obj fields =>
      rw [valueAt_cons_obj, Option.bind_eq_some_iff] at h
      obtain ⟨field, hfield, hv⟩ := h
      have hmerged : valueAt path (mergeValue ((fieldsOf stored).lookup key) field) = _ :=
        ih (hkeyed.lookup hfield) hv
      rw [mergeValue_obj, valueAt_cons_obj, lookup_mergeFields hkeyed.nodup hfield,
        bind_valueAt_cons]
      exact hmerged
    | _ => cases h

/-- What is sent nowhere is kept. -/
theorem valueAt_mergeValue_of_unnamed (hkeyed : Keyed sent) (hblocks : KeepsBlocks stored sent)
    (h : valueAt path sent = none) :
    valueAt path (mergeValue stored sent) = stored.bind (valueAt path) := by
  induction path generalizing stored sent with
  | nil => simp at h
  | cons key path ih =>
    by_cases hdict : sent.isDict = false
    · -- a value over a value: there is nothing below either
      have hstored : stored.bind (valueAt (key :: path)) = none := by
        cases stored with
        | none => rfl
        | some w =>
          have hw : w.isDict = true → sent.isDict = true :=
            hblocks [] sent w (valueAt_nil _) (valueAt_nil _)
          exact valueAt_cons_of_flat (by simpa [hdict] using hw) key path
      rw [mergeValue_of_flat hdict, hstored]
      exact valueAt_cons_of_flat hdict key path
    · cases sent with
      | obj fields =>
        rw [mergeValue_obj, valueAt_cons_obj, bind_valueAt_cons]
        rcases hfield : fields.lookup key with _ | field
        · rw [lookup_mergeFields_of_notMem (notMem_of_lookup_eq_none hfield)]
        · rw [lookup_mergeFields hkeyed.nodup hfield]
          apply ih (hkeyed.lookup hfield) (hblocks.lookup hfield)
          rwa [valueAt_cons_obj, hfield] at h
      | _ => exact absurd rfl hdict

theorem valueAt_mergeFields_of_named {old : Obj} (hkeyed : Keyed (.obj fields))
    (h : valueAt path (.obj fields) = some v) :
    valueAt path (.obj (mergeFields old fields)) =
      some (mergeValue (valueAt path (.obj old)) v) := by
  have hmerged := @valueAt_mergeValue_of_named (some (.obj old)) _ path v hkeyed h
  rwa [mergeValue_obj] at hmerged

theorem valueAt_mergeFields_of_unnamed {old : Obj} (hkeyed : Keyed (.obj fields))
    (hblocks : KeepsBlocks (some (.obj old)) (.obj fields))
    (h : valueAt path (.obj fields) = none) :
    valueAt path (.obj (mergeFields old fields)) = valueAt path (.obj old) := by
  have hmerged := valueAt_mergeValue_of_unnamed hkeyed hblocks h
  rwa [mergeValue_obj] at hmerged

end Merge

/-- A value shown under a key counts as the declared one: two blocks, whose fields are looked at
on their own, a blank of a write-only field, or values that agree. -/
def Settled (e : DiffEngine) (key : String) (shown declared : Json) : Prop :=
  (declared.isDict = true ∧ shown.isDict = true) ∨ writeOnlyBlank key shown declared = true ∨
    Agrees e shown declared

/-- What is declared under a key, at any depth, counts as declared wherever it is shown. -/
def SettledUnder (e : DiffEngine) (current : Obj) (key : String) (dv : Json) : Prop :=
  ∀ path declared shown, valueAt path dv = some declared →
    (current.lookup key).bind (valueAt path) = some shown →
    Settled e (path.getLastD key) shown declared

/-- The same of every field of a block. -/
def AllSettled (e : DiffEngine) (current desired : Obj) : Prop :=
  ∀ key path declared shown, valueAt (key :: path) (.obj desired) = some declared →
    valueAt (key :: path) (.obj current) = some shown →
    Settled e (path.getLastD key) shown declared

section Drift

variable {e : DiffEngine} {current desired : Obj} {key : String} {dv : Json}

theorem allSettled_iff (hkeyed : Keyed (.obj desired)) :
    AllSettled e current desired ↔ ∀ kv ∈ desired, SettledUnder e current kv.1 kv.2 := by
  constructor
  · intro h kv hkv path declared shown hdeclared hshown
    have hdv : desired.lookup kv.1 = some kv.2 := Obj.lookup_of_mem hkeyed.nodup hkv
    apply h kv.1 path declared shown _ hshown
    rw [valueAt_cons_obj, hdv]
    exact hdeclared
  · intro h key path declared shown hdeclared hshown
    rw [valueAt_cons_obj, Option.bind_eq_some_iff] at hdeclared
    obtain ⟨dv, hdv, hdeclared⟩ := hdeclared
    exact h (key, dv) (Obj.mem_of_lookup hdv) path declared shown hdeclared hshown

/-- A value that is no block, or is shown as none, is compared as a whole. -/
theorem settledUnder_value_iff {cv : Json} (h : current.lookup key = some cv)
    (hflat : cv.isDict = false ∨ dv.isDict = false) :
    SettledUnder e current key dv ↔ fieldDrifts e current key dv = false := by
  rw [← fieldMet_value_iff e h dv hflat]
  constructor
  · intro hsettled
    rcases hsettled [] dv cv (valueAt_nil _) (by rw [h]; exact valueAt_nil _) with hdicts | hmet
    · rcases hflat with hcv | hdv
      · exact absurd (hdicts.2.symm.trans hcv) (by simp)
      · exact absurd (hdicts.1.symm.trans hdv) (by simp)
    · exact hmet
  · intro hmet path declared shown hdeclared hshown
    rw [h] at hshown
    cases path with
    | nil =>
      rw [valueAt_nil, Option.some.injEq] at hdeclared
      rw [Option.bind_some, valueAt_nil, Option.some.injEq] at hshown
      rw [← hdeclared, ← hshown]
      exact Or.inr hmet
    | cons key' path =>
      -- one of the two has nothing below
      rcases hflat with hcv | hdv
      · rw [Option.bind_some, valueAt_cons_of_flat hcv] at hshown
        cases hshown
      · rw [valueAt_cons_of_flat hdv] at hdeclared
        cases hdeclared

theorem settledUnder_blocks_iff {c d : Obj} (h : current.lookup key = some (.obj c)) :
    SettledUnder e current key (.obj d) ↔ AllSettled e c d := by
  constructor
  · intro hsettled key' path declared shown hdeclared hshown
    have hlast := hsettled (key' :: path) declared shown hdeclared (by rw [h]; exact hshown)
    rwa [List.getLastD_cons] at hlast
  · intro hall path declared shown hdeclared hshown
    rw [h] at hshown
    cases path with
    | nil =>
      rw [valueAt_nil, Option.some.injEq] at hdeclared
      rw [Option.bind_some, valueAt_nil, Option.some.injEq] at hshown
      rw [← hdeclared, ← hshown]
      exact Or.inl ⟨rfl, rfl⟩
    | cons key' path =>
      rw [List.getLastD_cons]
      exact hall key' path declared shown hdeclared hshown

theorem settledUnder_of_missing (h : current.lookup key = none) :
    SettledUnder e current key dv := by
  intro path declared shown _ hshown
  rw [h] at hshown
  cases hshown

/-- A field does not drift when everything below it counts as declared. -/
theorem fieldDrifts_eq_false_iff (e : DiffEngine) (current : Obj) (key : String) (dv : Json)
    (hkeyed : Keyed dv) :
    fieldDrifts e current key dv = false ↔ SettledUnder e current key dv := by
  rcases hcv : current.lookup key with _ | cv
  · exact iff_of_true (fieldDrifts_of_missing e hcv dv) (settledUnder_of_missing hcv)
  · by_cases hflat : cv.isDict = false ∨ dv.isDict = false
    · exact (settledUnder_value_iff hcv hflat).symm
    · match dv, cv with
      | .obj d, .obj c =>
        -- the recursion: the fields of the declared block are smaller
        have hfields : ∀ kv ∈ d, fieldDrifts e c kv.1 kv.2 = false ↔
            SettledUnder e c kv.1 kv.2 := by
          intro kv hkv
          have hlookup : d.lookup kv.1 = some kv.2 := Obj.lookup_of_mem hkeyed.nodup hkv
          exact fieldDrifts_eq_false_iff e c kv.1 kv.2 (hkeyed.lookup hlookup)
        rw [settledUnder_blocks_iff hcv, allSettled_iff hkeyed, fieldDrifts_of_blocks e hcv,
          Option.isSome_eq_false_iff, Option.isNone_iff_eq_none, computeDiff_eq_none_iff]
        exact forall₂_congr hfields
      | .obj d, .null => simp [Json.isDict] at hflat
      | .obj d, .bool b => simp [Json.isDict] at hflat
      | .obj d, .int n => simp [Json.isDict] at hflat
      | .obj d, .float r => simp [Json.isDict] at hflat
      | .obj d, .str s => simp [Json.isDict] at hflat
      | .obj d, .arr xs => simp [Json.isDict] at hflat
      | .null, cv => simp [Json.isDict] at hflat
      | .bool b, cv => simp [Json.isDict] at hflat
      | .int n, cv => simp [Json.isDict] at hflat
      | .float r, cv => simp [Json.isDict] at hflat
      | .str s, cv => simp [Json.isDict] at hflat
      | .arr xs, cv => simp [Json.isDict] at hflat
termination_by sizeOf dv
decreasing_by
  have hlt := List.sizeOf_lt_of_mem hkv
  have hpair : sizeOf kv = 1 + sizeOf kv.1 + sizeOf kv.2 := by cases kv; rfl
  simp only [Json.obj.sizeOf_spec]
  omega

/-- There is no diff exactly when everything declared counts as declared where it is shown. -/
theorem computeDiff_eq_none_iff_allSettled (hkeyed : Keyed (.obj desired)) :
    computeDiff e current desired = none ↔ AllSettled e current desired := by
  rw [computeDiff_eq_none_iff, allSettled_iff hkeyed]
  apply forall₂_congr
  intro kv hkv
  have hlookup : desired.lookup kv.1 = some kv.2 := Obj.lookup_of_mem hkeyed.nodup hkv
  exact fieldDrifts_eq_false_iff e current kv.1 kv.2 (hkeyed.lookup hlookup)

end Drift

section Itself

/-- A value counts as itself, unless it is a native bool: the current side is normalised to the
text of a write, the declared one is not. -/
theorem settled_self_iff (e : DiffEngine) (key : String) (v : Json) :
    Settled e key v v ↔ ∀ b, v ≠ .bool b := by
  cases v with
  | bool b =>
    refine iff_of_false ?_ fun h => h b rfl
    rintro (⟨h, -⟩ | h | h | h | h)
    · cases h
    · cases h
    · cases b <;> exact absurd h (by decide)
    · cases h
    · have hplain : isHash (normalizeValue (.bool b)) = false := by cases b <;> decide
      rw [hashMatches, hplain] at h
      cases h
  | obj fields => exact iff_of_true (Or.inl ⟨rfl, rfl⟩) fun b h => by cases h
  | null => exact iff_of_true (Or.inr (Or.inr (Or.inl rfl))) fun b h => by cases h
  | int n => exact iff_of_true (Or.inr (Or.inr (Or.inl rfl))) fun b h => by cases h
  | float r => exact iff_of_true (Or.inr (Or.inr (Or.inl rfl))) fun b h => by cases h
  | str s => exact iff_of_true (Or.inr (Or.inr (Or.inl rfl))) fun b h => by cases h
  | arr xs => exact iff_of_true (Or.inr (Or.inr (Or.inl rfl))) fun b h => by cases h

/-- A resource does not drift from itself exactly when it holds no native bool, at its top or in a
nested block; what an array holds does not matter. -/
theorem computeDiff_self_iff (e : DiffEngine) {x : Obj} (hkeyed : Keyed (.obj x)) :
    computeDiff e x x = none ↔ ∀ path b, valueAt path (.obj x) ≠ some (.bool b) := by
  rw [computeDiff_eq_none_iff_allSettled hkeyed]
  constructor
  · intro h path b hb
    cases path with
    | nil => cases hb
    | cons key path =>
      exact (settled_self_iff e _ _).mp (h key path _ _ hb hb) b rfl
  · intro h key path declared shown hdeclared hshown
    obtain rfl : declared = shown := Option.some.inj (hdeclared.symm.trans hshown)
    rw [settled_self_iff]
    rintro b rfl
    exact h (key :: path) b hdeclared

/-- A search row with a flag in it. -/
theorem computeDiff_self_flag :
    computeDiff ⟨fun _ _ => false⟩ [("enabled", .bool true)] [("enabled", .bool true)] ≠ none := by
  decide

theorem computeDiff_self_sample :
    let x : Obj := [("port", .int 443), ("peers", .arr [.bool true])]
    computeDiff ⟨fun _ _ => false⟩ x x = none := by
  intro x
  -- the row is flat: a path leads to the row, to its port or to its peers
  have hvalues : ∀ path v, valueAt path (.obj x) = some v →
      v = .obj x ∨ v = .int 443 ∨ v = .arr [.bool true] := by
    intro path v hv
    cases path with
    | nil => exact Or.inl (Option.some.inj ((valueAt_nil _).symm.trans hv)).symm
    | cons key path =>
      rw [valueAt_cons_obj, Option.bind_eq_some_iff] at hv
      obtain ⟨field, hfield, hv⟩ := hv
      have hmem := Obj.mem_of_lookup hfield
      simp only [x, List.mem_cons, Prod.mk.injEq, List.not_mem_nil, or_false] at hmem
      rcases hmem with ⟨-, rfl⟩ | ⟨-, rfl⟩
      · exact Or.inr (Or.inl (eq_of_valueAt_flat rfl hv))
      · exact Or.inr (Or.inr (eq_of_valueAt_flat rfl hv))
  have hkeyed : Keyed (.obj x) := by
    intro path fields hfields
    rcases hvalues path _ hfields with h | h | h
    · obtain rfl : fields = x := Json.obj.inj h
      simp [x]
    · cases h
    · cases h
  refine (computeDiff_self_iff ⟨fun _ _ => false⟩ hkeyed).mpr ?_
  intro path b hb
  rcases hvalues path _ hb with h | h | h <;> cases h

end Itself
end Opnsense
