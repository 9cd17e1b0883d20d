import Opnsense.AuthPriv
import Opnsense.Csv

namespace Opnsense
namespace AuthPriv

/-- One option of the dict shape. -/
structure TargetOption where
  uuid : String
  value : Json
  selected : Json

namespace TargetOption

def name (o : TargetOption) : String := pyStr o.value

def isSelected (o : TargetOption) : Bool := Opnsense.isSelected o.selected

def field (o : TargetOption) : String × Json :=
  (o.uuid, .obj [("selected", o.selected), ("value", o.value)])

end TargetOption

/-- The assignees a reply shows, in one of its three shapes. -/
inductive Assignees where
  | options (os : List TargetOption) (nodup : (os.map (·.uuid)).Nodup)
  | names (ns : List String)
  | csv (ns : List String) (plain : ∀ n ∈ ns, n ≠ "" ∧ ',' ∉ n.toList)

namespace Assignees

def raw : Assignees → Json
  | options os _ => .obj (os.map TargetOption.field)
  | names ns => .arr (ns.map .str)
  | csv ns _ => .str (",".intercalate ns)

/-- The targets assigned: uuids where the reply has them, else names. -/
def current : Assignees → Finset String
  | options os _ => ((os.filter (·.isSelected)).map (·.uuid)).toFinset
  | names ns => ns.toFinset
  | csv ns _ => ns.toFinset

/-- `t` is a target of that name; a name the reply does not know stands for itself. -/
def Denotes (targetName t : String) : Assignees → Prop
  | options os _ =>
    (∃ o ∈ os, o.name = targetName ∧ o.uuid = t) ∨
      ((∀ o ∈ os, o.name ≠ targetName) ∧ t = targetName)
  | _ => t = targetName

/-- The posted set is the current one plus, or minus, exactly one target of that name. -/
def Exactly (a : Assignees) (targetName state : String) (posted : Finset String) : Prop :=
  ∃ t, a.Denotes targetName t ∧
    posted = if state = "present" then insert t a.current else a.current.erase t

def targets : Assignees → Targets
  | options os _ => os.foldl (fun acc o => addOption acc o.field) {}
  | names ns => { assigned := ns }
  | csv ns _ => { assigned := ns }

end Assignees

/-- The reply carries the assignees, with or without the `priv` wrapper. -/
def Carries (body : Obj) (targetType : String) (raw : Json) : Prop :=
  (∃ data, body.lookup "priv" = some (.obj data) ∧
      List.lookup (targetType ++ "s") data = some raw) ∨
    (body.lookup "priv" = none ∧ body.lookup (targetType ++ "s") = some raw)

theorem hashable_strings (ns : List String) : hashable (ns.map .str) = .ok ns := by
  induction ns with
  | nil => rfl
  | cons n rest ih => simp [hashable, ih, Except.map]

/-- A joined list of plain names splits into the names. -/
theorem splitComma_names {ns : List String} (hne : ns ≠ [])
    (hplain : ∀ n ∈ ns, n ≠ "" ∧ ',' ∉ n.toList) :
    (splitComma (",".intercalate ns)).map String.ofList = ns := by
  obtain ⟨n, rest, rfl⟩ := List.exists_cons_of_ne_nil hne
  have hone : ∀ k ∈ n :: rest, splitComma k = [k.toList] := by
    intro k hk
    exact List.splitOn_eq_singleton (hplain k hk).2
  rw [DiffEngine.splitComma_join, List.flatMap_congr hone, ← List.map_eq_flatMap, List.map_map]
  simp

theorem join_eq_empty {ns : List String} (hplain : ∀ n ∈ ns, n ≠ "" ∧ ',' ∉ n.toList)
    (h : ",".intercalate ns = "") : ns = [] := by
  by_contra hne
  have hsplit := splitComma_names hne hplain
  rw [h] at hsplit
  have hempty : ns = [""] := hsplit.symm
  exact (hplain "" (by simp [hempty])).1 rfl

theorem extractTargets_of_carries {body : Obj} {targetType : String} {a : Assignees}
    (h : Carries body targetType a.raw) :
    extractTargets (.obj body) targetType = .ok a.targets := by
  have hraw : ∃ data, Obj.getD body "priv" (.obj body) = .obj data ∧
      Obj.getD data (targetType ++ "s") (.str "") = a.raw := by
    rcases h with ⟨data, hpriv, hkey⟩ | ⟨hpriv, hkey⟩
    · exact ⟨data, Obj.getD_of_lookup hpriv _, Obj.getD_of_lookup hkey _⟩
    · exact ⟨body, by simp [Obj.getD, hpriv], Obj.getD_of_lookup hkey _⟩
  obtain ⟨data, hdata, hraw⟩ := hraw
  simp only [extractTargets, hdata, hraw]
  cases a with
  | options os nodup =>
    simp only [Assignees.raw, Assignees.targets, List.foldl_map]
  | names ns => simp [Assignees.raw, Assignees.targets, hashable_strings, Except.map]
  | csv ns plain =>
    simp only [Assignees.raw, Assignees.targets]
    split
    · rename_i hempty
      rw [join_eq_empty plain hempty]
    · rename_i hne
      have hns : ns ≠ [] := by
        rintro rfl
        exact hne rfl
      rw [splitComma_names hns plain]

section Options

variable {os : List TargetOption}

theorem addOption_field (acc : Targets) (o : TargetOption) :
    addOption acc o.field =
      { nameToUuid := (o.name, o.uuid) :: acc.nameToUuid
        assigned := if o.isSelected then o.name :: acc.assigned else acc.assigned } := rfl

/-- The map of the dict shape: the last option of a name is found first. -/
theorem nameToUuid_options (acc : Targets) :
    (os.foldl (fun acc o => addOption acc o.field) acc).nameToUuid =
      (os.map fun o => (o.name, o.uuid)).reverse ++ acc.nameToUuid := by
  induction os generalizing acc with
  | nil => rfl
  | cons o rest ih =>
    rw [List.foldl_cons, ih, addOption_field]
    simp

theorem mem_assigned_options {acc : Targets} {n : String} :
    n ∈ (os.foldl (fun acc o => addOption acc o.field) acc).assigned ↔
      (∃ o ∈ os, o.isSelected = true ∧ o.name = n) ∨ n ∈ acc.assigned := by
  induction os generalizing acc with
  | nil => simp
  | cons o rest ih =>
    rw [List.foldl_cons, ih, addOption_field]
    cases hsel : o.isSelected with
    | true =>
      simp only [if_true, List.mem_cons, exists_eq_or_imp, hsel, true_and, @eq_comm _ n]
      rw [or_left_comm, ← or_assoc]
    | false => simp [hsel]

/-- The uuid a name leads to. -/
def leadsTo (os : List TargetOption) (n : String) : Option String :=
  (os.map fun o => (o.name, o.uuid)).reverse.lookup n

theorem leadsTo_eq_some {n u : String} (h : leadsTo os n = some u) :
    ∃ o ∈ os, o.name = n ∧ o.uuid = u := by
  obtain ⟨l₁, l₂, heq, -⟩ := List.lookup_eq_some_iff.mp h
  have hmem : (n, u) ∈ (os.map fun o => (o.name, o.uuid)).reverse := by
    rw [heq]
    simp
  rw [List.mem_reverse, List.mem_map] at hmem
  obtain ⟨o, ho, hpair⟩ := hmem
  exact ⟨o, ho, congrArg Prod.fst hpair, congrArg Prod.snd hpair⟩

theorem leadsTo_isSome {o : TargetOption} (ho : o ∈ os) : ∃ u, leadsTo os o.name = some u := by
  rw [← Option.isSome_iff_exists, ← Option.ne_none_iff_isSome]
  intro hnone
  have hno := List.lookup_eq_none_iff.mp hnone (o.name, o.uuid)
    (List.mem_reverse.mpr (List.mem_map.mpr ⟨o, ho, rfl⟩))
  simp at hno

/-- The name of the option leads back to it. -/
def Kept (os : List TargetOption) (o : TargetOption) : Prop :=
  leadsTo os o.name = some o.uuid ∧ o.uuid ≠ ""

theorem mem_current_options {nodup : (os.map (·.uuid)).Nodup} {u : String} :
    u ∈ (Assignees.options os nodup).current ↔ ∃ o ∈ os, o.isSelected = true ∧ o.uuid = u := by
  simp [Assignees.current, and_assoc]

theorem mem_selectedUuids_options {nodup : (os.map (·.uuid)).Nodup} {u : String} :
    u ∈ selectedUuids (Assignees.options os nodup).targets ↔
      u ≠ "" ∧ ∃ o ∈ os, o.isSelected = true ∧ leadsTo os o.name = some u := by
  simp only [selectedUuids, Assignees.targets, List.mem_filter, List.mem_filterMap,
    mem_assigned_options, nameToUuid_options, leadsTo]
  simp
  tauto

theorem eq_of_uuid_eq (nodup : (os.map (·.uuid)).Nodup) {o o' : TargetOption} (ho : o ∈ os)
    (ho' : o' ∈ os) (h : o.uuid = o'.uuid) : o = o' :=
  List.inj_on_of_nodup_map nodup ho ho' h

/-- Only the name of an option leads to it. -/
theorem name_of_leadsTo (nodup : (os.map (·.uuid)).Nodup) {o : TargetOption} (ho : o ∈ os)
    {n : String} (h : leadsTo os n = some o.uuid) : n = o.name := by
  obtain ⟨o', ho', hname, huuid⟩ := leadsTo_eq_some h
  have hsame : o' = o := eq_of_uuid_eq nodup ho' ho huuid
  rw [← hname, hsame]

/-- Each assigned option, other than the target itself, is kept; a target posted by its
raw uuid may be shadowed, as long as the shadowing option is assigned too. -/
def KeptBesides (os : List TargetOption) (t : String) (o : TargetOption) : Prop :=
  Kept os o ∨ (o.uuid = t ∧ ∀ u, leadsTo os o.name = some u → u ≠ "" → u ≠ t →
    ∃ o' ∈ os, o'.isSelected = true ∧ o'.uuid = u)

variable {nodup : (os.map (·.uuid)).Nodup} {targetName : String}

theorem targetUuid_options :
    targetUuid (Assignees.options os nodup).targets targetName =
      (leadsTo os targetName).getD targetName := by
  simp [targetUuid, Assignees.targets, nameToUuid_options, leadsTo]

theorem denotes_targetUuid :
    (Assignees.options os nodup).Denotes targetName
      (targetUuid (Assignees.options os nodup).targets targetName) := by
  rw [targetUuid_options]
  cases hlead : leadsTo os targetName with
  | some u =>
    obtain ⟨o, ho, hname, huuid⟩ := leadsTo_eq_some hlead
    exact Or.inl ⟨o, ho, hname, huuid⟩
  | none =>
    refine Or.inr ⟨fun o ho hname => ?_, rfl⟩
    obtain ⟨u, hu⟩ := leadsTo_isSome ho
    rw [hname, hlead] at hu
    cases hu

/-- A target of an unassigned name is not among the assigned ones, unless it is a name
the reply does not know. -/
theorem denotes_unassigned (hun : ∀ o ∈ os, o.isSelected = true → o.name ≠ targetName)
    {t t' : String} (ht : (Assignees.options os nodup).Denotes targetName t)
    (ht' : (Assignees.options os nodup).Denotes targetName t')
    (hmem : t ∈ insert t' (Assignees.options os nodup).current) : t = t' := by
  rcases Finset.mem_insert.mp hmem with h | h
  · exact h
  obtain ⟨o, ho, hsel, huuid⟩ := mem_current_options.mp h
  rcases ht with ⟨o₁, ho₁, hname, huuid₁⟩ | ⟨hnone, rfl⟩
  · have heq : o = o₁ := eq_of_uuid_eq nodup ho ho₁ (huuid.trans huuid₁.symm)
    exact absurd (heq ▸ hname) (hun o ho hsel)
  · rcases ht' with ⟨o₁, ho₁, hname, -⟩ | ⟨-, rfl⟩
    · exact absurd hname (hnone o₁ ho₁)
    · rfl

theorem mem_posted_present {u : String} :
    u ∈ (posted (Assignees.options os nodup).targets targetName "present").toFinset ↔
      u = targetUuid (Assignees.options os nodup).targets targetName ∨
        u ≠ "" ∧ ∃ o ∈ os, o.isSelected = true ∧ leadsTo os o.name = some u := by
  rw [← @mem_selectedUuids_options os nodup]
  simp [posted]

theorem posted_present_options (hun : ∀ o ∈ os, o.isSelected = true → o.name ≠ targetName) :
    (Assignees.options os nodup).Exactly targetName "present"
        (posted (Assignees.options os nodup).targets targetName "present").toFinset ↔
      ∀ o ∈ os, o.isSelected = true →
        KeptBesides os ((leadsTo os targetName).getD targetName) o := by
  rw [← @targetUuid_options _ nodup]
  generalize ht : targetUuid (Assignees.options os nodup).targets targetName = t
  have hdenotes : (Assignees.options os nodup).Denotes targetName t := ht ▸ denotes_targetUuid
  have hposted : ∀ u, u ∈ (posted (Assignees.options os nodup).targets targetName
      "present").toFinset ↔ u = t ∨ u ≠ "" ∧
        ∃ o ∈ os, o.isSelected = true ∧ leadsTo os o.name = some u := by
    intro u
    rw [mem_posted_present, ht]
  constructor
  · rintro ⟨t', ht', heq⟩ o ho hsel
    rw [if_pos rfl] at heq
    -- the target that is meant is the one that was looked up
    have htt' : t = t' := by
      apply denotes_unassigned hun hdenotes ht'
      rw [← heq]
      exact (hposted t).mpr (Or.inl rfl)
    subst htt'
    have hmem : o.uuid ∈ (posted (Assignees.options os nodup).targets targetName
        "present").toFinset := by
      rw [heq]
      exact Finset.mem_insert_of_mem (mem_current_options.mpr ⟨o, ho, hsel, rfl⟩)
    -- it is posted as the target, or because its name leads back to it
    rcases (hposted _).mp hmem with htarget | ⟨hne, o', ho', -, hlead⟩
    · refine Or.inr ⟨htarget, fun u hu hne hut => ?_⟩
      have hmemu := (hposted u).mpr (Or.inr ⟨hne, o, ho, hsel, hu⟩)
      rw [heq] at hmemu
      rcases Finset.mem_insert.mp hmemu with h | h
      · exact absurd h hut
      · exact mem_current_options.mp h
    · rw [name_of_leadsTo nodup ho hlead] at hlead
      exact Or.inl ⟨hlead, hne⟩
  · intro hkept
    -- nobody else is lost, and nobody comes on top
    refine ⟨t, hdenotes, ?_⟩
    rw [if_pos rfl]
    ext u
    rw [hposted, Finset.mem_insert, mem_current_options]
    constructor
    · rintro (h | ⟨hne, o, ho, hsel, hlead⟩)
      · exact Or.inl h
      · rcases hkept o ho hsel with ⟨hback, -⟩ | ⟨-, hshadow⟩
        · have huuid : o.uuid = u := Option.some.inj (hback.symm.trans hlead)
          exact Or.inr ⟨o, ho, hsel, huuid⟩
        · by_cases hut : u = t
          · exact Or.inl hut
          · exact Or.inr (hshadow u hlead hne hut)
    · rintro (h | ⟨o, ho, hsel, rfl⟩)
      · exact Or.inl h
      · rcases hkept o ho hsel with ⟨hback, hne⟩ | ⟨htarget, -⟩
        · exact Or.inr ⟨hne, o, ho, hsel, hback⟩
        · exact Or.inl htarget

/-- Whatever bears the name of the target is left out. -/
theorem mem_posted_absent {t u : String} (ht : leadsTo os targetName = some t) :
    u ∈ (posted (Assignees.options os nodup).targets targetName "absent").toFinset ↔ u ≠ "" ∧
      ∃ o ∈ os, o.isSelected = true ∧ leadsTo os o.name = some u ∧ o.name ≠ targetName := by
  have habsent : ¬ ("absent" = "present") := by decide
  have htarget : targetUuid (Assignees.options os nodup).targets targetName = t := by
    rw [targetUuid_options, ht, Option.getD_some]
  simp only [posted, if_neg habsent, List.mem_toFinset, List.mem_filter, htarget,
    mem_selectedUuids_options, bne_iff_ne]
  constructor
  · rintro ⟨⟨hne, o, ho, hsel, hlead⟩, hut⟩
    refine ⟨hne, o, ho, hsel, hlead, fun hname => hut ?_⟩
    rw [hname, ht] at hlead
    exact (Option.some.inj hlead).symm
  · rintro ⟨hne, o, ho, hsel, hlead, hname⟩
    refine ⟨⟨hne, o, ho, hsel, hlead⟩, fun hut => hname ?_⟩
    -- both names lead to the option that bears the target's uuid
    obtain ⟨o', ho', hname', huuid⟩ := leadsTo_eq_some ht
    rw [hut, ← huuid] at hlead
    rw [name_of_leadsTo nodup ho' hlead, hname']

theorem posted_absent_options {o₀ : TargetOption} (ho₀ : o₀ ∈ os)
    (hsel₀ : o₀.isSelected = true) (hname₀ : o₀.name = targetName) :
    (Assignees.options os nodup).Exactly targetName "absent"
        (posted (Assignees.options os nodup).targets targetName "absent").toFinset ↔
      (∀ o ∈ os, o.isSelected = true → o.name = targetName → o = o₀) ∧
        ∀ o ∈ os, o.isSelected = true → o.name ≠ targetName → Kept os o := by
  obtain ⟨t, ht⟩ : ∃ t, leadsTo os targetName = some t := by
    rw [← hname₀]
    exact leadsTo_isSome ho₀
  have habsent : ¬ ("absent" = "present") := by decide
  have hposted : ∀ u, u ∈ (posted (Assignees.options os nodup).targets targetName
      "absent").toFinset ↔ u ≠ "" ∧
        ∃ o ∈ os, o.isSelected = true ∧ leadsTo os o.name = some u ∧ o.name ≠ targetName :=
    fun _ => mem_posted_absent ht
  constructor
  · rintro ⟨t', ht', heq⟩
    rw [if_neg habsent] at heq
    have hkept : ∀ o ∈ os, o.isSelected = true → o.uuid ≠ t' →
        o.uuid ≠ "" ∧ leadsTo os o.name = some o.uuid ∧ o.name ≠ targetName := by
      intro o ho hsel hne
      have hmem : o.uuid ∈ (posted (Assignees.options os nodup).targets targetName
          "absent").toFinset := by
        rw [heq]
        exact Finset.mem_erase.mpr ⟨hne, mem_current_options.mpr ⟨o, ho, hsel, rfl⟩⟩
      obtain ⟨hne', o', -, -, hlead, hname⟩ := (hposted _).mp hmem
      have hsame : o'.name = o.name := name_of_leadsTo nodup ho hlead
      rw [hsame] at hlead hname
      exact ⟨hne', hlead, hname⟩
    -- whoever bears the name is not posted, so it is the one target taken away
    have hgone : ∀ o ∈ os, o.isSelected = true → o.name = targetName → o.uuid = t' := by
      intro o ho hsel hname
      by_contra hne
      exact (hkept o ho hsel hne).2.2 hname
    refine ⟨fun o ho hsel hname => ?_, fun o ho hsel hname => ?_⟩
    · have huuid := (hgone o ho hsel hname).trans (hgone o₀ ho₀ hsel₀ hname₀).symm
      exact eq_of_uuid_eq nodup ho ho₀ huuid
    · have hne : o.uuid ≠ t' := by
        intro huuid
        have hsame := eq_of_uuid_eq nodup ho ho₀
          (huuid.trans (hgone o₀ ho₀ hsel₀ hname₀).symm)
        exact hname (hsame ▸ hname₀)
      obtain ⟨hne', hlead, -⟩ := hkept o ho hsel hne
      exact ⟨hlead, hne'⟩
  · rintro ⟨honly, hkept⟩
    refine ⟨o₀.uuid, Or.inl ⟨o₀, ho₀, hname₀, rfl⟩, ?_⟩
    rw [if_neg habsent]
    ext u
    rw [hposted, Finset.mem_erase, mem_current_options]
    constructor
    · rintro ⟨-, o, ho, hsel, hlead, hname⟩
      have huuid : o.uuid = u := Option.some.inj ((hkept o ho hsel hname).1.symm.trans hlead)
      refine ⟨fun hu => ?_, o, ho, hsel, huuid⟩
      have hsame := eq_of_uuid_eq nodup ho ho₀ (huuid.trans hu)
      exact hname (hsame ▸ hname₀)
    · rintro ⟨hne, o, ho, hsel, rfl⟩
      have hname : o.name ≠ targetName := fun hname => hne (by rw [honly o ho hsel hname])
      obtain ⟨hback, hne'⟩ := hkept o ho hsel hname
      exact ⟨hne', o, ho, hsel, hback, hname⟩

end Options

end AuthPriv
end Opnsense
