import Opnsense.Interaction.Keyed

/-! Boot environments: the machine runs one of them and has one marked for its next boot. A
change of configuration is made in the running one, and the others stand still. -/
namespace Opnsense
open Interaction

structure BootEnv (γ : Type) where
  uuid : String
  name : String
  config : γ

structure Machine (γ : Type) where
  envs : Keyed (BootEnv.uuid (γ := γ))
  running : String
  next : String
  named : (envs.entries.map BootEnv.name).Nodup
  runs : running ∈ envs.entries.map BootEnv.uuid
  boots : next ∈ envs.entries.map BootEnv.uuid

/-- What befalls a machine; `checkMode` calls only look. -/
inductive Happening (γ : Type) where
  | isSupported
  | ensure (state name : String) (checkMode : Bool)
  | activate (name : String) (checkMode : Bool)
  | configure (change : γ → γ)
  | reboot

namespace Machine

variable {γ : Type}

theorem find_running (m : Machine γ) : (m.envs.find m.running).isSome := by
  obtain ⟨e, he, huuid⟩ := List.mem_map.mp m.runs
  rw [Option.isSome_iff_exists]
  exact ⟨e, Keyed.find_eq_some_iff.mpr ⟨he, huuid⟩⟩

/-- The configuration the machine runs with. -/
def live (m : Machine γ) : γ := ((m.envs.find m.running).get m.find_running).config

theorem live_eq {m : Machine γ} {e : BootEnv γ} (he : e ∈ m.envs.entries)
    (huuid : e.uuid = m.running) : m.live = e.config := by
  have hfind : m.envs.find m.running = some e := Keyed.find_eq_some_iff.mpr ⟨he, huuid⟩
  simp [live, hfind]

theorem entry_of_name {m : Machine γ} {e e' : BootEnv γ} (he : e ∈ m.envs.entries)
    (he' : e' ∈ m.envs.entries) (h : e.name = e'.name) : e = e' :=
  List.inj_on_of_nodup_map m.named he he' h

theorem entry_of_uuid {m : Machine γ} {e e' : BootEnv γ} (he : e ∈ m.envs.entries)
    (he' : e' ∈ m.envs.entries) (h : e.uuid = e'.uuid) : e = e' :=
  List.inj_on_of_nodup_map m.envs.nodup he he' h

def configure (change : γ → γ) (m : Machine γ) : Machine γ :=
  let change' (e : BootEnv γ) : BootEnv γ := { e with config := change e.config }
  have hname : BootEnv.name ∘ (fun e => if e.uuid = m.running then change' e else e) =
      BootEnv.name := by
    funext e
    by_cases h : e.uuid = m.running <;> simp [change', h]
  have huuid : BootEnv.uuid ∘ (fun e => if e.uuid = m.running then change' e else e) =
      BootEnv.uuid := by
    funext e
    by_cases h : e.uuid = m.running <;> simp [change', h]
  { m with
    envs := m.envs.modify m.running change' fun _ => rfl
    named := by
      rw [Keyed.modify, List.map_map, hname]
      exact m.named
    runs := by
      rw [Keyed.modify, List.map_map, huuid]
      exact m.runs
    boots := by
      rw [Keyed.modify, List.map_map, huuid]
      exact m.boots }

def reboot (m : Machine γ) : Machine γ := { m with running := m.next, runs := m.boots }

/-- The new environment is a copy of the running one. -/
def create (m : Machine γ) (name uuid : String) (hname : ∀ e ∈ m.envs.entries, e.name ≠ name)
    (huuid : ∀ e ∈ m.envs.entries, e.uuid ≠ uuid) : Machine γ where
  envs := m.envs.insert ⟨uuid, name, m.live⟩ huuid
  running := m.running
  next := m.next
  named := by
    rw [Keyed.insert, List.map_append, List.nodup_append]
    refine ⟨m.named, List.nodup_singleton _, ?_⟩
    intro n hn n' hn'
    obtain ⟨e, he, rfl⟩ := List.mem_map.mp hn
    rw [List.map_singleton, List.mem_singleton] at hn'
    exact hn' ▸ hname e he
  runs := by
    rw [Keyed.insert, List.map_append]
    exact List.mem_append_left _ m.runs
  boots := by
    rw [Keyed.insert, List.map_append]
    exact List.mem_append_left _ m.boots

theorem mem_erase_uuids {m : Machine γ} {u v : String}
    (hv : v ∈ m.envs.entries.map BootEnv.uuid) (hne : u ≠ v) :
    v ∈ (m.envs.erase u).entries.map BootEnv.uuid := by
  obtain ⟨e, he, rfl⟩ := List.mem_map.mp hv
  exact List.mem_map_of_mem (List.mem_filter.mpr ⟨he, by simpa using Ne.symm hne⟩)

/-- What runs, or is to be booted, is never destroyed. -/
def destroy (m : Machine γ) (u : String) (hrunning : u ≠ m.running) (hnext : u ≠ m.next) :
    Machine γ where
  envs := m.envs.erase u
  running := m.running
  next := m.next
  named := m.named.sublist (List.filter_sublist.map _)
  runs := mem_erase_uuids m.runs hrunning
  boots := mem_erase_uuids m.boots hnext

def stage (m : Machine γ) (u : String) (hu : u ∈ m.envs.entries.map BootEnv.uuid) : Machine γ :=
  { m with next := u, boots := hu }

def Created (name : String) (m m' : Machine γ) : Prop :=
  ∃ u hname hu, m' = m.create name u hname hu

def Destroyed (name : String) (m m' : Machine γ) : Prop :=
  ∃ e ∈ m.envs.entries, e.name = name ∧ ∃ hrunning hnext, m' = m.destroy e.uuid hrunning hnext

def Activated (name : String) (m m' : Machine γ) : Prop :=
  ∃ e ∈ m.envs.entries, e.name = name ∧ ∃ hu, m' = m.stage e.uuid hu

end Machine

namespace Happening

variable {γ : Type}

/-- What a happening may make of the machine. A command can fail, and then may have worked
or not. -/
def Allows : Happening γ → Machine γ → Machine γ → Prop
  | isSupported, m, m' => m' = m
  | ensure state name checkMode, m, m' => m' = m ∨ checkMode = false ∧
      (state = "present" ∧ m.Created name m' ∨ state = "absent" ∧ m.Destroyed name m')
  | activate name checkMode, m, m' => m' = m ∨ checkMode = false ∧ m.Activated name m'
  | configure change, m, m' => m' = m.configure change
  | reboot, m, m' => m' = m.reboot

/-- Calls that would destroy the environment of that name, or boot into it. -/
def Touches (name : String) : Happening γ → Prop
  | ensure state name' checkMode => checkMode = false ∧ state = "absent" ∧ name' = name
  | activate name' checkMode => checkMode = false ∧ name' = name
  | _ => False

/-- What would have the machine boot something else, or boots it. -/
def Diverts (name : String) : Happening γ → Prop
  | activate name' checkMode => checkMode = false ∧ name' ≠ name
  | reboot => True
  | _ => False

end Happening

namespace Machine

variable {γ : Type} {name : String} {c : γ} {m m' : Machine γ} {h : Happening γ}

/-- The environment of that name holds `c`, and the machine neither runs nor boots it. -/
def Aside (name : String) (c : γ) (m : Machine γ) : Prop :=
  ∃ e ∈ m.envs.entries, e.name = name ∧ e.config = c ∧ e.uuid ≠ m.running ∧ e.uuid ≠ m.next

/-- The machine runs another environment and boots this one next. -/
def Staged (name : String) (c : γ) (m : Machine γ) : Prop :=
  ∃ e ∈ m.envs.entries, e.name = name ∧ e.config = c ∧ e.uuid ≠ m.running ∧ e.uuid = m.next

theorem Created.aside (h : m.Created name m') : m'.Aside name m.live := by
  obtain ⟨u, hname, hu, rfl⟩ := h
  have hused : ∀ v ∈ m.envs.entries.map BootEnv.uuid, u ≠ v := by
    intro v hv
    obtain ⟨e, he, rfl⟩ := List.mem_map.mp hv
    exact (hu e he).symm
  refine ⟨⟨u, name, m.live⟩, ?_, rfl, rfl, hused _ m.runs, hused _ m.boots⟩
  simp [create, Keyed.insert]

/-- An environment that is not running is not changed by a change of configuration. -/
theorem mem_configure {change : γ → γ} {e : BootEnv γ} (he : e ∈ m.envs.entries)
    (hne : e.uuid ≠ m.running) : e ∈ (m.configure change).envs.entries :=
  List.mem_map.mpr ⟨e, he, if_neg hne⟩

theorem mem_create {e : BootEnv γ} {u : String} {hname hu} (he : e ∈ m.envs.entries) :
    e ∈ (m.create name u hname hu).envs.entries :=
  List.mem_append_left _ he

theorem mem_destroy {e : BootEnv γ} {u : String} {hrunning hnext} (he : e ∈ m.envs.entries)
    (hne : e.uuid ≠ u) : e ∈ (m.destroy u hrunning hnext).envs.entries :=
  List.mem_filter.mpr ⟨he, by simpa using hne⟩

theorem Aside.of_allows (hm : m.Aside name c) (hallow : h.Allows m m')
    (huntouched : ¬ h.Touches name) : m'.Aside name c := by
  obtain ⟨e, he, hname, hconfig, hrunning, hnext⟩ := hm
  cases h with
  | isSupported =>
    obtain rfl := hallow
    exact ⟨e, he, hname, hconfig, hrunning, hnext⟩
  | ensure state name' checkMode =>
    rcases hallow with rfl | ⟨hcheck, ⟨-, u, hnew, hu, rfl⟩ | ⟨habsent, e', he', hname', -, -, rfl⟩⟩
    · exact ⟨e, he, hname, hconfig, hrunning, hnext⟩
    · exact ⟨e, mem_create he, hname, hconfig, hrunning, hnext⟩
    · have hne : e.uuid ≠ e'.uuid := by
        intro huuid
        obtain rfl := entry_of_uuid he he' huuid
        exact huntouched ⟨hcheck, habsent, hname'.symm.trans hname⟩
      exact ⟨e, mem_destroy he hne, hname, hconfig, hrunning, hnext⟩
  | activate name' checkMode =>
    rcases hallow with rfl | ⟨hcheck, e', he', hname', -, rfl⟩
    · exact ⟨e, he, hname, hconfig, hrunning, hnext⟩
    · refine ⟨e, he, hname, hconfig, hrunning, fun huuid => huntouched ⟨hcheck, ?_⟩⟩
      obtain rfl := entry_of_uuid he he' huuid
      exact hname'.symm.trans hname
  | configure change =>
    obtain rfl := hallow
    exact ⟨e, mem_configure he hrunning, hname, hconfig, hrunning, hnext⟩
  | reboot =>
    obtain rfl := hallow
    exact ⟨e, he, hname, hconfig, hnext, hnext⟩

theorem Activated.staged (hact : m.Activated name m') (hm : m.Aside name c) :
    m'.Staged name c := by
  obtain ⟨e, he, hname, hconfig, hrunning, -⟩ := hm
  obtain ⟨e', he', hname', -, rfl⟩ := hact
  obtain rfl := entry_of_name he he' (hname.trans hname'.symm)
  exact ⟨e, he, hname, hconfig, hrunning, rfl⟩

theorem Staged.of_allows (hm : m.Staged name c) (hallow : h.Allows m m')
    (hkept : ¬ h.Diverts name) : m'.Staged name c := by
  obtain ⟨e, he, hname, hconfig, hrunning, hnext⟩ := hm
  cases h with
  | isSupported =>
    obtain rfl := hallow
    exact ⟨e, he, hname, hconfig, hrunning, hnext⟩
  | ensure state name' checkMode =>
    rcases hallow with rfl | ⟨-, ⟨-, u, hnew, hu, rfl⟩ | ⟨-, e', -, -, -, hnot, rfl⟩⟩
    · exact ⟨e, he, hname, hconfig, hrunning, hnext⟩
    · exact ⟨e, mem_create he, hname, hconfig, hrunning, hnext⟩
    · -- the next to boot is never the one destroyed
      have hne : e.uuid ≠ e'.uuid := hnext ▸ Ne.symm hnot
      exact ⟨e, mem_destroy he hne, hname, hconfig, hrunning, hnext⟩
  | activate name' checkMode =>
    rcases hallow with rfl | ⟨hcheck, e', he', hname', -, rfl⟩
    · exact ⟨e, he, hname, hconfig, hrunning, hnext⟩
    · have hsame : name' = name := by
        by_contra hne
        exact hkept ⟨hcheck, hne⟩
      obtain rfl := entry_of_name he he' (hname.trans (hname'.trans hsame).symm)
      exact ⟨e, he, hname, hconfig, hrunning, rfl⟩
  | configure change =>
    obtain rfl := hallow
    exact ⟨e, mem_configure he hrunning, hname, hconfig, hrunning, hnext⟩
  | reboot => exact absurd trivial hkept

theorem Staged.live_reboot (hm : m.Staged name c) : m.reboot.live = c := by
  obtain ⟨e, he, -, hconfig, -, hnext⟩ := hm
  rw [← hconfig]
  exact live_eq he hnext

end Machine
end Opnsense
