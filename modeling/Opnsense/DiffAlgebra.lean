import Opnsense.SettingsConvergence

namespace Opnsense
open DiffEngine

/-- What is left of a block when keys are deleted, from it or from blocks within it. -/
inductive Pruned : Obj → Obj → Prop
  | nil : Pruned [] []
  | drop {fields' fields} (kv) (h : Pruned fields' fields) : Pruned fields' (kv :: fields)
  | keep {fields' fields} (kv) (h : Pruned fields' fields) : Pruned (kv :: fields') (kv :: fields)
  | inside {inner' inner fields' fields} (key) (hinner : Pruned inner' inner)
      (h : Pruned fields' fields) :
      Pruned ((key, .obj inner') :: fields') ((key, .obj inner) :: fields)

/-- Where a block is desired under a key that the current state has, it has a block there. -/
def BlocksShown (current desired : Obj) : Prop :=
  ∀ path fields w, valueAt path (.obj desired) = some (.obj fields) →
    valueAt path (.obj current) = some w → w.isDict = true

/-- The union of two diffs, where no diff stands for the empty one. -/
def unionDiff : Option (List (String × String)) → Option (List (String × String)) →
    Option (List (String × String))
  | none, diff => diff
  | diff, none => diff
  | some diff₁, some diff₂ => some (diff₁ ++ diff₂)

variable {e : DiffEngine} {current desired : Obj}

/-- What was merged in is shown as desired. -/
theorem computeDiff_mergeFields (e : DiffEngine) (current : Obj) (h : IsText (.obj desired)) :
    computeDiff e (mergeFields current desired) desired = none := by
  have hkeyed := keyed_of_isText h
  rw [computeDiff_eq_none_iff_allSettled hkeyed]
  intro key path declared shown hdeclared hshown
  have hmerged := @valueAt_mergeFields_of_named _ _ _ current hkeyed hdeclared
  rw [hshown, Option.some.injEq] at hmerged
  rw [hmerged]
  by_cases hflat : declared.isDict = false
  · obtain ⟨text, rfl⟩ := text_of_isText (isText_valueAt h hdeclared) hflat
    rw [mergeValue_of_flat rfl]
    exact Or.inr (Or.inr (Or.inl rfl))
  · cases declared with
    | obj fields =>
      rw [mergeValue_obj]
      exact Or.inl ⟨rfl, rfl⟩
    | _ => exact absurd rfl hflat

section Prune

variable {desired' : Obj} {key : String}

theorem Keyed.tail {kv : String × Json} (h : Keyed (.obj (kv :: desired))) :
    Keyed (.obj desired) := by
  intro path fields hfields
  cases path with
  | nil =>
    rw [valueAt_nil, Option.some.injEq, Json.obj.injEq] at hfields
    rw [← hfields]
    exact (List.nodup_cons.mp h.nodup).2
  | cons key path =>
    rw [valueAt_cons_obj, Option.bind_eq_some_iff] at hfields
    obtain ⟨v, hv, hfields⟩ := hfields
    have hmem : (key, v) ∈ kv :: desired := List.mem_cons_of_mem _ (Obj.mem_of_lookup hv)
    exact h.lookup (Obj.lookup_of_mem h.nodup hmem) path fields hfields

theorem BlocksShown.lookup {fields shown : Obj} (hkeyed : Keyed (.obj desired))
    (h : BlocksShown current desired) (hmem : (key, .obj fields) ∈ desired)
    (hshown : current.lookup key = some (.obj shown)) : BlocksShown shown fields := by
  intro path inner w hinner hw
  have hlookup := Obj.lookup_of_mem hkeyed.nodup hmem
  apply h (key :: path) inner w
  · rw [valueAt_cons_obj, hlookup]
    exact hinner
  · rw [valueAt_cons_obj, hshown]
    exact hw

theorem BlocksShown.tail {kv : String × Json} (hkeyed : Keyed (.obj (kv :: desired)))
    (h : BlocksShown current (kv :: desired)) : BlocksShown current desired := by
  intro path fields w hfields hw
  cases path with
  | nil =>
    rw [valueAt_nil, Option.some.injEq] at hw
    rw [← hw]
    rfl
  | cons key path =>
    apply h (key :: path) fields w _ hw
    rw [valueAt_cons_obj, Option.bind_eq_some_iff] at hfields ⊢
    obtain ⟨v, hv, hfields⟩ := hfields
    have hmem : (key, v) ∈ kv :: desired := List.mem_cons_of_mem _ (Obj.mem_of_lookup hv)
    exact ⟨v, Obj.lookup_of_mem hkeyed.nodup hmem, hfields⟩

/-- Deleting keys brings no diff: by induction on what was deleted, and where a block lost some
of its fields, for the block shown under its key. -/
theorem computeDiff_pruned (h : Pruned desired' desired) (hkeyed : Keyed (.obj desired))
    (hblocks : BlocksShown current desired) (hnone : computeDiff e current desired = none) :
    computeDiff e current desired' = none := by
  induction h generalizing current with
  | nil => exact hnone
  | drop kv _ ih =>
    rw [computeDiff_eq_none_iff, List.forall_mem_cons] at hnone
    exact ih hkeyed.tail (hblocks.tail hkeyed) (computeDiff_eq_none_iff.mpr hnone.2)
  | keep kv _ ih =>
    rw [computeDiff_eq_none_iff, List.forall_mem_cons] at hnone ⊢
    have hrest := ih hkeyed.tail (hblocks.tail hkeyed) (computeDiff_eq_none_iff.mpr hnone.2)
    exact ⟨hnone.1, computeDiff_eq_none_iff.mp hrest⟩
  | @inside inner' inner fields' fields key _ _ ihinner ih =>
    rw [computeDiff_eq_none_iff, List.forall_mem_cons] at hnone ⊢
    have hrest := ih hkeyed.tail (hblocks.tail hkeyed) (computeDiff_eq_none_iff.mpr hnone.2)
    refine ⟨?_, computeDiff_eq_none_iff.mp hrest⟩
    have hmem : (key, Json.obj inner) ∈ (key, Json.obj inner) :: fields := List.mem_cons_self
    rcases hshown : current.lookup key with _ | w
    · exact fieldDrifts_of_missing e hshown _
    · have hdict : w.isDict = true := by
        apply hblocks [key] inner w
        · rw [valueAt_cons_obj, List.lookup_cons_self]
          exact valueAt_nil _
        · rw [valueAt_cons_obj, hshown]
          exact valueAt_nil _
      cases w with
      | obj shown =>
        have hfield := hnone.1
        rw [fieldDrifts_of_blocks e hshown, Option.isSome_eq_false_iff,
          Option.isNone_iff_eq_none] at hfield ⊢
        exact ihinner (hkeyed.lookup (Obj.lookup_of_mem hkeyed.nodup hmem))
          (hblocks.lookup hkeyed hmem hshown) hfield
      | _ => cases hdict

end Prune

section Union

variable {desired₁ desired₂ : Obj}

theorem set_of_notMem {o : Obj} {key : String} (h : key ∉ o.map (·.1)) (v : Json) :
    o.set key v = o ++ [(key, v)] := by
  induction o with
  | nil => rfl
  | cons kw rest ih =>
    obtain ⟨k, w⟩ := kw
    rw [List.map_cons, List.mem_cons, not_or] at h
    rw [Obj.set, if_neg fun heq => h.1 heq.symm, ih h.2]
    rfl

/-- Key by key, what is new comes behind what is there. -/
theorem overlay_of_disjoint (hdisjoint : (desired₁.map (·.1)).Disjoint (desired₂.map (·.1)))
    (hnodup : (desired₂.map (·.1)).Nodup) : desired₁.overlay desired₂ = desired₁ ++ desired₂ := by
  induction desired₂ generalizing desired₁ with
  | nil => exact (List.append_nil _).symm
  | cons kv rest ih =>
    obtain ⟨hnot, hrest⟩ := List.nodup_cons.mp hnodup
    have hnew : kv.1 ∉ desired₁.map (·.1) := fun hmem => hdisjoint hmem List.mem_cons_self
    have hstep : desired₁.overlay (kv :: rest) = (desired₁ ++ [kv]).overlay rest :=
      congrArg (fun o => Obj.overlay o rest) (set_of_notMem hnew kv.2)
    have hlater : ((desired₁ ++ [kv]).map (·.1)).Disjoint (rest.map (·.1)) := by
      intro key hkey hmem
      rw [List.map_append, List.mem_append] at hkey
      rcases hkey with hold | hone
      · exact hdisjoint hold (List.mem_cons_of_mem _ hmem)
      · rw [List.map_singleton, List.mem_singleton] at hone
        rw [hone] at hmem
        exact hnot hmem
    rw [hstep, ih hlater hrest, List.append_assoc]
    rfl

theorem diffFields_append (e : DiffEngine) (current desired₁ desired₂ : Obj) :
    diffFields e current (desired₁ ++ desired₂) =
      diffFields e current desired₁ ++ diffFields e current desired₂ := by
  induction desired₁ with
  | nil => rfl
  | cons kv rest ih =>
    obtain ⟨key, dv⟩ := kv
    rw [List.cons_append, diffFields, diffFields, ih]
    split <;> rfl

theorem diffFields_keys (e : DiffEngine) (current desired : Obj) :
    ((diffFields e current desired).map (·.1)).Sublist (desired.map (·.1)) := by
  induction desired with
  | nil => exact List.Sublist.slnil
  | cons kv rest ih =>
    obtain ⟨key, dv⟩ := kv
    rw [diffFields]
    split
    · exact ih.cons_cons key
    · exact ih.cons key

/-- The diff is taken key by key, in the order of the desired state. -/
theorem computeDiff_append (e : DiffEngine) (current desired₁ desired₂ : Obj) :
    computeDiff e current (desired₁ ++ desired₂) =
      unionDiff (computeDiff e current desired₁) (computeDiff e current desired₂) := by
  rw [computeDiff, computeDiff, computeDiff, diffFields_append]
  cases diffFields e current desired₁ with
  | nil =>
    simp only [List.nil_append, List.isEmpty_nil, if_true, unionDiff]
  | cons kv diff₁ =>
    cases diffFields e current desired₂ with
    | nil => simp [unionDiff]
    | cons kv diff₂ => simp [unionDiff]

theorem keys_of_computeDiff {diff : List (String × String)}
    (h : computeDiff e current desired = some diff) :
    (diff.map (·.1)).Sublist (desired.map (·.1)) := by
  have hkeys := diffFields_keys e current desired
  rw [computeDiff] at h
  split at h
  · cases h
  · cases h
    exact hkeys

end Union

/-- The diff vanishes after its own update; where there is none, there is none for less; and the
diff of a disjoint union is the disjoint union of the diffs. -/
theorem computeDiff_laws (e : DiffEngine) (current desired : Obj) (h : IsText (.obj desired)) :
    computeDiff e (mergeFields current desired) desired = none ∧
    (computeDiff e current desired = none → BlocksShown current desired →
      ∀ desired', Pruned desired' desired → computeDiff e current desired' = none) ∧
    ∀ desired₁ desired₂ : Obj, IsText (.obj desired₁) → IsText (.obj desired₂) →
      (desired₁.map (·.1)).Disjoint (desired₂.map (·.1)) →
      computeDiff e current (desired₁.overlay desired₂) =
        unionDiff (computeDiff e current desired₁) (computeDiff e current desired₂) ∧
      ∀ diff₁ diff₂, computeDiff e current desired₁ = some diff₁ →
        computeDiff e current desired₂ = some diff₂ →
        (diff₁.map (·.1)).Disjoint (diff₂.map (·.1)) := by
  refine ⟨computeDiff_mergeFields e current h, fun hnone hblocks desired' hpruned =>
    computeDiff_pruned hpruned (keyed_of_isText h) hblocks hnone, ?_⟩
  intro desired₁ desired₂ _ htext₂ hdisjoint
  refine ⟨?_, fun diff₁ diff₂ hdiff₁ hdiff₂ => ?_⟩
  · rw [overlay_of_disjoint hdisjoint htext₂.1]
    exact computeDiff_append e current desired₁ desired₂
  · have hkeys₁ := (keys_of_computeDiff hdiff₁).subset
    have hkeys₂ := (keys_of_computeDiff hdiff₂).subset
    intro key hkey₁ hkey₂
    exact hdisjoint (hkeys₁ hkey₁) (hkeys₂ hkey₂)

/-- A document that names its own fields in full: less of it drifts no more, and two drifting
fields are told apart. -/
theorem computeDiff_laws_nested :
    let e : DiffEngine := ⟨fun _ _ => false⟩
    let current : Obj := [("name", .str "lan"), ("options", .obj [("dns", .str "10.0.0.1"),
      ("router", .str "10.0.0.1")])]
    let pruned : Obj := [("options", .obj [("router", .str "10.0.0.1")])]
    computeDiff e current current = none ∧ computeDiff e current pruned = none ∧
      computeDiff e current [("name", .str "wan"), ("options", .obj [("dns", .str "")])] =
        some [("name", "wan"), ("options", "\x7b'dns': ''\x7d")] := by
  intro e current pruned
  have htext : IsText (.obj current) := by simp [current, IsText, AllText]
  obtain ⟨hmerged, hpruned, hunion⟩ := computeDiff_laws e current current htext
  have hnone : computeDiff e current current = none := hmerged
  have hblocks : BlocksShown current current := by
    intro path fields w hfields hw
    rw [hfields, Option.some.injEq] at hw
    rw [← hw]
    rfl
  refine ⟨hnone, hpruned hnone hblocks pruned ?_, ?_⟩
  · exact .drop _ (.inside _ (.drop _ (.keep _ .nil)) .nil)
  · have hname : IsText (.obj [("name", .str "wan")]) := by simp [IsText, AllText]
    have hoptions : IsText (.obj [("options", .obj [("dns", .str "")])]) := by
      simp [IsText, AllText]
    exact (hunion _ _ hname hoptions (by simp)).1

end Opnsense
