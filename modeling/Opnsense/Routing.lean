import Opnsense.OwnRequests
import Opnsense.Site
import Opnsense.Text.Split

namespace Opnsense
open Interaction

namespace EndpointConfig

variable (config : EndpointConfig)

/-- An action of the resource: `{base}/{verb}{suffix}`. -/
def path (verb suffix : String) : String := config.base ++ "/" ++ verb ++ suffix

variable {config} {config' : EndpointConfig}

theorem toList_path (verb suffix : String) : (config.path verb suffix).toList =
    config.base.toList ++ '/' :: (verb.toList ++ suffix.toList) := by
  simp [path]

/-- The last slash of an action separates the base path from the verb. -/
theorem path_inj {verb verb' suffix suffix' : String} (hverb : '/' ∉ verb.toList)
    (hverb' : '/' ∉ verb'.toList) (hsuffix : '/' ∉ suffix.toList) (hsuffix' : '/' ∉ suffix'.toList)
    (h : config.path verb suffix = config'.path verb' suffix') :
    config.base = config'.base ∧ verb ++ suffix = verb' ++ suffix' := by
  have hlists := congrArg String.toList h
  rw [toList_path, toList_path] at hlists
  obtain ⟨hbase, hback⟩ := Text.last_split_unique (by simp [hverb, hsuffix])
    (by simp [hverb', hsuffix']) hlists
  refine ⟨String.toList_injective hbase, String.toList_injective ?_⟩
  rw [String.toList_append, String.toList_append, hback]

end EndpointConfig

namespace BaseManager

def verbs : List String := ["search", "get", "add", "set", "update", "del"]

/-- No verb begins another one. -/
theorem verbs_prefix_free :
    ∀ v ∈ verbs, ∀ v' ∈ verbs, v.toList <+: v'.toList → v = v' := by
  simp [verbs]

theorem verb_slash_free : ∀ v ∈ verbs, '/' ∉ v.toList := by
  simp [verbs]

/-- So the text of an action shows where its suffix begins. -/
theorem verb_inj {verb verb' suffix suffix' : String} (hverb : verb ∈ verbs)
    (hverb' : verb' ∈ verbs) (h : verb ++ suffix = verb' ++ suffix') :
    verb = verb' ∧ suffix = suffix' := by
  have hlists := congrArg String.toList h
  rw [String.toList_append, String.toList_append] at hlists
  have hfirst : verb.toList <+: verb'.toList ++ suffix'.toList := ⟨suffix.toList, hlists⟩
  have heq : verb = verb' := by
    rcases List.prefix_or_prefix_of_prefix hfirst (List.prefix_append ..) with hpre | hpre
    · exact verbs_prefix_free verb hverb verb' hverb' hpre
    · exact (verbs_prefix_free verb' hverb' verb hverb hpre).symm
  subst heq
  exact ⟨rfl, String.toList_injective (List.append_cancel_left hlists)⟩

/-- The suffixes of a manager hold no slash; it updates with the verb of the core models or
with that of the plugins, and may search under a suffix of its own. -/
structure Conventional (m : BaseManager) (listed : String) : Prop where
  suffix_slash : '/' ∉ m.config.suffix.toList
  listed_slash : '/' ∉ listed.toList
  search : m.searchAction = m.config.path "search" listed
  update : m.config.updateAction = "set" ∨ m.config.updateAction = "update"

/-- The suffix behind a verb. -/
def suffixOf (m : BaseManager) (listed verb : String) : String :=
  if verb = "search" then listed else m.config.suffix

/-- The verbs a manager uses. -/
def ownVerbs (m : BaseManager) : List String :=
  ["search", "get", "add", m.config.updateAction, "del"]

variable {m m' : BaseManager} {listed listed' : String}

theorem Conventional.update_mem (h : m.Conventional listed) :
    m.config.updateAction ∈ verbs ∧ m.config.updateAction ≠ "search" := by
  rcases h.update with hset | hupdate
  · rw [hset]
    decide
  · rw [hupdate]
    decide

theorem ownVerbs_subset (h : m.Conventional listed) : ∀ v ∈ m.ownVerbs, v ∈ verbs := by
  intro v hv
  simp only [ownVerbs, List.mem_cons, List.not_mem_nil, or_false] at hv
  rcases hv with rfl | rfl | rfl | rfl | rfl
  · decide
  · decide
  · decide
  · exact h.update_mem.1
  · decide

theorem suffixOf_slash_free (h : m.Conventional listed) (v : String) :
    '/' ∉ (m.suffixOf listed v).toList := by
  unfold suffixOf
  split
  · exact h.listed_slash
  · exact h.suffix_slash

theorem actions_eq (h : m.Conventional listed) :
    m.actions = m.ownVerbs.map fun v => m.config.path v (m.suffixOf listed v) := by
  have hupdate := h.update_mem.2
  simp only [actions, ownVerbs, List.map_cons, List.map_nil, h.search, suffixOf, if_true,
    if_neg hupdate, if_neg (show ("get" : String) ≠ "search" by decide),
    if_neg (show ("add" : String) ≠ "search" by decide),
    if_neg (show ("del" : String) ≠ "search" by decide)]
  simp only [itemAction, EndpointConfig.get, EndpointConfig.add, EndpointConfig.set,
    EndpointConfig.delete, EndpointConfig.path, String.append_assoc]
  rfl

/-- Two managers share an endpoint exactly when they have the base path in common, and the
suffix behind a verb that both use. -/
theorem shared_iff (h : m.Conventional listed) (h' : m'.Conventional listed') :
    (∃ a ∈ m.actions, a ∈ m'.actions) ↔ m.config.base = m'.config.base ∧
      (listed = listed' ∨ m.config.suffix = m'.config.suffix) := by
  rw [actions_eq h, actions_eq h']
  constructor
  · rintro ⟨a, ha, ha'⟩
    obtain ⟨v, hv, rfl⟩ := List.mem_map.mp ha
    obtain ⟨v', hv', heq⟩ := List.mem_map.mp ha'
    have hmem := ownVerbs_subset h v hv
    have hmem' := ownVerbs_subset h' v' hv'
    obtain ⟨hbase, hback⟩ := EndpointConfig.path_inj (verb_slash_free v hmem)
      (verb_slash_free v' hmem') (suffixOf_slash_free h v) (suffixOf_slash_free h' v') heq.symm
    obtain ⟨rfl, hsuffix⟩ := verb_inj hmem hmem' hback
    refine ⟨hbase, ?_⟩
    -- the common verb is a search, or one of the verbs on the resource itself
    unfold suffixOf at hsuffix
    split at hsuffix
    · exact Or.inl hsuffix
    · exact Or.inr hsuffix
  · rintro ⟨hbase, hlisted | hsuffix⟩
    · refine ⟨m.config.path "search" listed, List.mem_map.mpr ⟨"search", ?_, ?_⟩,
        List.mem_map.mpr ⟨"search", ?_, ?_⟩⟩
      · exact List.mem_cons_self ..
      · rfl
      · exact List.mem_cons_self ..
      · simp [EndpointConfig.path, suffixOf, hbase, hlisted]
    · refine ⟨m.config.path "get" m.config.suffix, List.mem_map.mpr ⟨"get", ?_, ?_⟩,
        List.mem_map.mpr ⟨"get", ?_, ?_⟩⟩
      · simp [ownVerbs]
      · rfl
      · simp [ownVerbs]
      · simp [EndpointConfig.path, suffixOf, hbase, hsuffix]

/-- Managers of which any two differ so have an endpoint each to themselves. -/
theorem apart_of_conventional {I : Type} {manager : I → BaseManager} {listed : I → String}
    (h : ∀ i, (manager i).Conventional (listed i))
    (hne : ∀ i j, i ≠ j → (manager i).config.base ≠ (manager j).config.base ∨
      listed i ≠ listed j ∧ (manager i).config.suffix ≠ (manager j).config.suffix) :
    ∀ i j, i ≠ j → ∀ a ∈ (manager i).actions, a ∉ (manager j).actions := by
  intro i j hij a ha ha'
  obtain ⟨hbase, hsuffix⟩ := (shared_iff (h i) (h j)).mp ⟨a, ha, ha'⟩
  rcases hne i j hij with hne | ⟨hlisted, hne⟩
  · exact hne hbase
  · rcases hsuffix with hsuffix | hsuffix
    · exact hlisted hsuffix
    · exact hne hsuffix

theorem action_of_ownWrite {q : Request} (h : m.ownWrite q) :
    ∃ a ∈ m.actions, q.action = some a := by
  cases q with
  | create action => exact ⟨action, by rw [show action = _ from h]; simp [actions], rfl⟩
  | update action => exact ⟨action, by rw [show action = _ from h]; simp [actions], rfl⟩
  | delete action => exact ⟨action, by rw [show action = _ from h]; simp [actions], rfl⟩
  | _ => exact h.elim

/-- The managers of dnsmasq tags and hosts: one base path, two suffixes. -/
def dnsmasqTags : BaseManager where
  className := "DnsmasqTagManager"
  config :=
    { base := "dnsmasq/settings", payloadKey := "tag", entitySuffix := some "Tag",
      applyEndpoint := some "dnsmasq/service/reconfigure" }
  matchKeys := ["tag"]
  matchKeys_ne := List.cons_ne_nil _ _
  diffEngine := { checkpw := fun _ _ => false }
  registry := { get := fun _ => none }

def dnsmasqHosts : BaseManager :=
  { dnsmasqTags with
    className := "DnsmasqHostManager"
    config :=
      { base := "dnsmasq/settings", payloadKey := "host", entitySuffix := some "Host",
        applyEndpoint := some "dnsmasq/service/reconfigure" }
    matchKeys := ["host", "domain"]
    matchKeys_ne := List.cons_ne_nil _ _ }

theorem dnsmasqTags_conventional : dnsmasqTags.Conventional "Tag" where
  suffix_slash := by simp [dnsmasqTags, EndpointConfig.suffix]
  listed_slash := by simp
  search := rfl
  update := Or.inl rfl

theorem dnsmasqHosts_conventional : dnsmasqHosts.Conventional "Host" where
  suffix_slash := by simp [dnsmasqHosts, EndpointConfig.suffix]
  listed_slash := by simp
  search := rfl
  update := Or.inl rfl

end BaseManager
end Opnsense
