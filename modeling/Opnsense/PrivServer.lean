import Opnsense.Interaction.Interleave
import Opnsense.PrivAssignment

namespace Opnsense
namespace AuthPriv
open Interaction

/-- A user or a group, as the appliance lists it. -/
structure Target where
  uuid : String
  name : String
  deriving DecidableEq

/-- The targets of the appliance bear different uuids and different names. -/
structure PrivServer where
  privId : String
  targetType : String
  known : List Target
  uuid_nodup : (known.map (·.uuid)).Nodup
  name_nodup : (known.map (·.name)).Nodup
  plain : ∀ t ∈ known, t.uuid ≠ "" ∧ ',' ∉ t.uuid.toList

/-- The uuids that a change names, in place of those there were. -/
def storedTargets (targetType : String) (data : Obj) : Finset String :=
  match data.getD "priv" .null with
  | .obj priv =>
    match Obj.getD priv (targetType ++ "s") .null with
    | .str raw => if raw = "" then ∅ else ((splitComma raw).map String.ofList).toFinset
    | _ => ∅
  | _ => ∅

/-- The assignment with the target brought into the wanted state. -/
def applied (state uuid : String) (assigned : Finset String) : Finset String :=
  if state = "present" then insert uuid assigned else assigned.erase uuid

namespace PrivServer

variable (api : PrivServer)

def options (assigned : Finset String) : List TargetOption :=
  api.known.map fun t => ⟨t.uuid, .str t.name, .int (if t.uuid ∈ assigned then 1 else 0)⟩

theorem options_nodup (assigned : Finset String) :
    ((api.options assigned).map (·.uuid)).Nodup := by
  rw [options, List.map_map]
  exact api.uuid_nodup

def assignees (assigned : Finset String) : Assignees :=
  .options (api.options assigned) (api.options_nodup assigned)

def body (assigned : Finset String) : Obj :=
  [("priv", .obj [(api.targetType ++ "s", (api.assignees assigned).raw)])]

def getItem : Request := .get { action := "auth/priv/get_item/" ++ api.privId }

def setItem (uuids : List String) : Request :=
  .post { action := "auth/priv/set_item/" ++ api.privId } (payload api.targetType uuids)

def serve : Appliance (Finset String)
  | .get e _, assigned =>
    (.ok (.obj (if e.action = "auth/priv/get_item/" ++ api.privId then api.body assigned else [])),
      assigned)
  | .post e data _, assigned =>
    (.ok (.obj [("result", .str "saved")]),
      if e.action = "auth/priv/set_item/" ++ api.privId then storedTargets api.targetType data
      else assigned)
  | _, assigned => (.ok (.obj []), assigned)

/-- Only targets of the appliance are assigned. -/
def Known (assigned : Finset String) : Prop := ∀ u ∈ assigned, ∃ t ∈ api.known, t.uuid = u

variable {api} {assigned : Finset String} {t : Target} {state : String}

theorem carries_body : Carries (api.body assigned) api.targetType (api.assignees assigned).raw :=
  Or.inl ⟨_, rfl, List.lookup_cons_self⟩

theorem mem_options {o : TargetOption} : o ∈ api.options assigned ↔ ∃ t ∈ api.known,
    o = ⟨t.uuid, .str t.name, .int (if t.uuid ∈ assigned then 1 else 0)⟩ := by
  simp [options, eq_comm]

theorem isSelected_option (t : Target) : TargetOption.isSelected
    ⟨t.uuid, .str t.name, .int (if t.uuid ∈ assigned then 1 else 0)⟩ = true ↔
      t.uuid ∈ assigned := by
  by_cases h : t.uuid ∈ assigned <;> simp [TargetOption.isSelected, Opnsense.isSelected, h]

theorem eq_of_name {t t' : Target} (ht : t ∈ api.known) (ht' : t' ∈ api.known)
    (h : t.name = t'.name) : t = t' :=
  List.inj_on_of_nodup_map api.name_nodup ht ht' h

/-- A name leads to the one target that bears it. -/
theorem leadsTo_options (ht : t ∈ api.known) :
    leadsTo (api.options assigned) t.name = some t.uuid := by
  obtain ⟨u, hu⟩ := leadsTo_isSome (mem_options.mpr ⟨t, ht, rfl⟩ : _ ∈ api.options assigned)
  have hname : TargetOption.name ⟨t.uuid, .str t.name,
      .int (if t.uuid ∈ assigned then 1 else 0)⟩ = t.name := rfl
  rw [hname] at hu
  obtain ⟨o, ho, hname', rfl⟩ := leadsTo_eq_some hu
  obtain ⟨t', ht', rfl⟩ := mem_options.mp ho
  obtain rfl := eq_of_name ht' ht hname'
  exact hu

theorem mem_assigned (ht : t ∈ api.known) :
    t.name ∈ (api.assignees assigned).assigned ↔ t.uuid ∈ assigned := by
  simp only [assignees, Assignees.assigned, List.mem_map, List.mem_filter]
  constructor
  · rintro ⟨o, ⟨ho, hsel⟩, hname⟩
    obtain ⟨t', ht', rfl⟩ := mem_options.mp ho
    obtain rfl := eq_of_name ht' ht hname
    exact (isSelected_option t').mp hsel
  · intro hu
    exact ⟨_, ⟨mem_options.mpr ⟨t, ht, rfl⟩, (isSelected_option t).mpr hu⟩, rfl⟩

/-- The posted set is the assignment that was read, with the target brought into its state. -/
theorem posted_assignees (hknown : api.Known assigned) (ht : t ∈ api.known)
    (hstate : state = "present" ∨ state = "absent") :
    (posted (api.assignees assigned).targets t.name state).toFinset =
      applied state t.uuid assigned := by
  ext u
  have htarget : targetUuid (api.assignees assigned).targets t.name = t.uuid := by
    rw [assignees, targetUuid_options, leadsTo_options ht, Option.getD_some]
  have hselected : u ∈ selectedUuids (api.assignees assigned).targets ↔ u ∈ assigned := by
    rw [assignees, mem_selectedUuids_options]
    constructor
    · rintro ⟨-, o, ho, hsel, hlead⟩
      obtain ⟨t', ht', rfl⟩ := mem_options.mp ho
      obtain rfl := Option.some.inj ((leadsTo_options ht').symm.trans hlead)
      exact (isSelected_option t').mp hsel
    · intro hu
      obtain ⟨t', ht', rfl⟩ := hknown u hu
      exact ⟨(api.plain t' ht').1, _, mem_options.mpr ⟨t', ht', rfl⟩,
        (isSelected_option t').mpr hu, leadsTo_options ht'⟩
  rcases hstate with rfl | rfl
  · simp [posted, applied, htarget, hselected]
  · simp [posted, applied, htarget, hselected, and_comm]

theorem plain_of_known (hknown : api.Known assigned) {u : String} (hu : u ∈ assigned) :
    u ≠ "" ∧ ',' ∉ u.toList := by
  obtain ⟨t, ht, rfl⟩ := hknown u hu
  exact api.plain t ht

theorem known_applied (hknown : api.Known assigned) (ht : t ∈ api.known) :
    api.Known (applied state t.uuid assigned) := by
  intro u hu
  unfold applied at hu
  split at hu
  · rcases Finset.mem_insert.mp hu with rfl | hu
    · exact ⟨t, ht, rfl⟩
    · exact hknown u hu
  · exact hknown u (Finset.mem_of_mem_erase hu)

/-- What is stored of a posted set is the set. -/
theorem storedTargets_payload {uuids : List String}
    (hplain : ∀ u ∈ uuids, u ≠ "" ∧ ',' ∉ u.toList) :
    storedTargets api.targetType (payload api.targetType uuids) = uuids.toFinset := by
  have hsorted : ∀ u, u ∈ (uuids.dedup).insertionSort (· ≤ ·) ↔ u ∈ uuids := by
    intro u
    rw [(List.perm_insertionSort _ _).mem_iff, List.mem_dedup]
  have hplain' : ∀ u ∈ (uuids.dedup).insertionSort (· ≤ ·), u ≠ "" ∧ ',' ∉ u.toList :=
    fun u hu => hplain u ((hsorted u).mp hu)
  have hstored : storedTargets api.targetType (payload api.targetType uuids) =
      if joinSorted uuids = "" then ∅
      else ((splitComma (joinSorted uuids)).map String.ofList).toFinset := by
    simp [storedTargets, payload, Obj.getD]
  rw [hstored]
  ext u
  rw [List.mem_toFinset, ← hsorted u]
  by_cases hempty : joinSorted uuids = ""
  · rw [if_pos hempty, join_eq_empty hplain' hempty]
    simp
  · have hne : (uuids.dedup).insertionSort (· ≤ ·) ≠ [] := by
      intro hnil
      exact hempty (by rw [joinSorted, hnil]; rfl)
    rw [if_neg hempty, joinSorted, splitComma_names hne hplain', List.mem_toFinset]

/-- Posting the set computed from one assignment stores that assignment with the target brought
into its state, whatever was stored before. -/
theorem serve_setItem {read : Finset String} (hknown : api.Known read) (ht : t ∈ api.known)
    (hstate : state = "present" ∨ state = "absent") (stored : Finset String) :
    (api.serve (api.setItem (posted (api.assignees read).targets t.name state)) stored).2 =
      applied state t.uuid read := by
  have hset := posted_assignees hknown ht hstate
  have hplain : ∀ u ∈ posted (api.assignees read).targets t.name state,
      u ≠ "" ∧ ',' ∉ u.toList := by
    intro u hu
    have hmem : u ∈ applied state t.uuid read := by
      rw [← hset]
      exact List.mem_toFinset.mpr hu
    exact plain_of_known (known_applied hknown ht) hmem
  change (if _ then _ else _) = _
  rw [if_pos rfl, storedTargets_payload hplain, hset]

/-- The target is not yet in the wanted state. -/
def Needs (state uuid : String) (assigned : Finset String) : Prop :=
  ¬ (uuid ∈ assigned ↔ state = "present")

theorem applied_of_not_needs {uuid : String} (h : ¬ Needs state uuid assigned) :
    applied state uuid assigned = assigned := by
  have hiff := not_not.mp h
  unfold applied
  split
  · rename_i hpresent
    exact Finset.insert_eq_self.mpr (hiff.mpr hpresent)
  · rename_i habsent
    exact Finset.erase_eq_of_notMem fun hu => habsent (hiff.mp hu)

theorem next_postTargets (privId targetType targetName state : String) (targets : Targets) :
    ∃ k, (postTargets privId targetType targetName state targets).next =
        .inr (.post { action := "auth/priv/set_item/" ++ privId }
          (payload targetType (posted targets targetName state)), k) ∧
      ∀ r, ∃ o, (k r).next = .inl o := by
  refine ⟨_, Prog.next_bind_of_call (Prog.next_rescue_of_call rfl _) _, fun r => ?_⟩
  cases r with
  | error exc => exact ⟨_, rfl⟩
  | ok v => exact ⟨_, rfl⟩

/-- A call reads the assignment, and then posts the change of it if there is one to make. -/
theorem next_ensure (ht : t ∈ api.known) (hstate : state = "present" ∨ state = "absent")
    (htype : api.targetType = "user" ∨ api.targetType = "group") :
    ∃ k, (ensure api.privId api.targetType t.name state false).next = .inr (api.getItem, k) ∧
      ∀ read, (¬ Needs state t.uuid read → ∃ o, (k (.ok (.obj (api.body read)))).next = .inl o) ∧
        (Needs state t.uuid read → ∃ k', (k (.ok (.obj (api.body read)))).next =
            .inr (api.setItem (posted (api.assignees read).targets t.name state), k') ∧
          ∀ r, ∃ o, (k' r).next = .inl o) := by
  have htype' : ¬ (api.targetType ≠ "user" ∧ api.targetType ≠ "group") := by tauto
  have hstate' : ¬ (state ≠ "present" ∧ state ≠ "absent") := by tauto
  unfold ensure
  rw [if_neg htype', if_neg hstate']
  refine ⟨_, Prog.next_bind_of_call rfl _, fun read => ?_⟩
  have hassigned : (api.assignees read).targets.assigned.contains t.name = true ↔
      t.uuid ∈ read := by
    rw [List.contains_iff_mem, mem_targets_assigned, mem_assigned ht]
  have hextract := extractTargets_of_carries (@carries_body api read)
  simp only [Prog.ofExcept, Prog.ret_bind, hextract]
  generalize (api.assignees read).targets.assigned.contains t.name = assigned at hassigned
  by_cases hpresent : state = "present"
  · subst hpresent
    cases assigned with
    -- a target that is there already is left alone, and so is an absent one below
    | true =>
      have hmet : ¬ Needs "present" t.uuid read := by simp [Needs, hassigned.mp rfl]
      exact ⟨fun _ => ⟨_, rfl⟩, fun hneeds => absurd hneeds hmet⟩
    | false =>
      have hneeds : Needs "present" t.uuid read := by simpa [Needs] using hassigned
      exact ⟨fun hmet => absurd hneeds hmet, fun _ => next_postTargets ..⟩
  · obtain rfl : state = "absent" := hstate.resolve_left hpresent
    cases assigned with
    | true =>
      have hneeds : Needs "absent" t.uuid read := by simp [Needs, hassigned.mp rfl]
      exact ⟨fun hmet => absurd hneeds hmet, fun _ => next_postTargets ..⟩
    | false =>
      have hmet : ¬ Needs "absent" t.uuid read := by simpa [Needs] using hassigned
      exact ⟨fun _ => ⟨_, rfl⟩, fun hneeds => absurd hneeds hmet⟩

end PrivServer

end AuthPriv
end Opnsense
