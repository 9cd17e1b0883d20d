import Opnsense.OptionalKeys
import Opnsense.PlainServer
import Opnsense.TableTotal

/-! One declaration made over and over. A match key it leaves out reads as the empty
text, while the server stores a default; whether the second call recognises the resource
of the first one hangs on that default. -/
namespace Opnsense
namespace TableServer
open Interaction BaseManager

variable {api : TableServer} {m : BaseManager} {params : Obj} {defaults : String → String}
  {T T₀ : Table} {n : ℕ}

/-- Match keys that are not sent get a default on add and are left alone on set. -/
structure Defaulting (api : TableServer) (m : BaseManager) (params : Obj)
    (defaults : String → String) : Prop where
  faithful : Faithful api m params
  fill_unsent : ∀ k ∈ m.matchKeys, params.has k = false → (api.fill params).text k = defaults k
  merge_unsent : ∀ stored, ∀ k ∈ m.matchKeys, params.has k = false →
    (api.merge stored params).text k = stored.text k

/-- The added resource is recognised when every default it got reads as the empty text. -/
theorem hasIdentity_added_iff (h : Defaulting api m params defaults) :
    api.hasIdentity m params (api.added params T) = true ↔
      ∀ k ∈ m.matchKeys, params.has k = false → defaults k = "" := by
  have hrow : ∀ k ∈ m.matchKeys, (api.row (api.added params T)).text k = (api.fill params).text k :=
    fun k hk => h.faithful.row_text _ k hk
  rw [hasIdentity, sameIdentity_iff]
  constructor
  · intro hident k hk hunsent
    have htext := hident k hk
    rw [hrow k hk, h.fill_unsent k hk hunsent, Obj.text_of_not_has hunsent] at htext
    exact htext
  · intro hempty k hk
    rw [hrow k hk]
    cases hsent : params.has k with
    | true => exact h.faithful.fill_text k hk hsent
    | false => rw [h.fill_unsent k hk hsent, hempty k hk hsent, Obj.text_of_not_has hsent]

theorem hasIdentity_changed_unsent (h : Defaulting api m params defaults) (r : Resource)
    (hident : api.hasIdentity m params r = true) :
    api.hasIdentity m params (api.changed params r) = true := by
  have hsame := sameIdentity_iff.mp hident
  apply sameIdentity_iff.mpr
  intro k hk
  have hold := hsame k hk
  rw [h.faithful.row_text _ k hk] at hold ⊢
  cases hsent : params.has k with
  | true => exact h.faithful.merge_text r.fields k hk hsent
  | false => exact (h.merge_unsent r.fields k hk hsent).trans hold

def uuids (T : Table) : List String := T.resources.entries.map (·.uuid)

theorem uuids_congr {T' : Table} (h : T'.resources = T.resources) : uuids T' = uuids T := by
  rw [uuids, uuids, h]

theorem uuids_add : uuids (api.add params T) = uuids T ++ [(api.added params T).uuid] :=
  List.map_append

/-- The resources that were not there at the start. -/
def created (T₀ T : Table) : List String := (uuids T).filter (· ∉ uuids T₀)

theorem created_of_append {us : List String} (h : uuids T = uuids T₀ ++ us) :
    created T₀ T = us := by
  have hnodup : (uuids T₀ ++ us).Nodup := by
    rw [← h]
    exact T.resources.nodup
  have hdisjoint := (List.nodup_append.mp hnodup).2.2
  have hold : (uuids T₀).filter (· ∉ uuids T₀) = [] := by
    rw [List.filter_eq_nil_iff]
    intro u hu
    simp [hu]
  have hnew : us.filter (· ∉ uuids T₀) = us := by
    rw [List.filter_eq_self]
    intro u hu
    simpa using fun hmem => hdisjoint u hmem u hu rfl
  rw [created, h, List.filter_append, hold, hnew, List.nil_append]

theorem uuids_set (u : String) : uuids (api.set u params T) = uuids T := by
  have hkey : (fun r : Resource => r.uuid) ∘
      (fun r => if r.uuid = u then api.changed params r else r) = fun r => r.uuid := by
    funext r
    by_cases h : r.uuid = u <;> simp [h, changed]
  exact (List.map_map ..).trans (by rw [hkey]; rfl)

/-- `n` calls with the same parameters, one after the other. -/
def repeated (api : TableServer) (m : BaseManager) (params : Obj) (n : ℕ) (T : Table) : Table :=
  (fun S => ((m.ensure "present" params).run (api.serve m.config.payloadKey) S).2)^[n] T

theorem repeated_succ : repeated api m params (n + 1) T =
    ((m.ensure "present" params).run (api.serve m.config.payloadKey)
      (repeated api m params n T)).2 :=
  Function.iterate_succ_apply' _ n T

/-- A call on a table without the identity adds one resource. -/
theorem call_creates (h : Defaulting api m params defaults) (hvalid : m.accepts params)
    (hnil : api.owners m params T = []) :
    ∃ T₁ : Table, T₁.resources = T.resources ∧
      ((m.ensure "present" params).run (api.serve m.config.payloadKey) T).2.resources =
        (api.add params T₁).resources := by
  have hsorted := sortedOwners_eq_nil.mpr hnil
  obtain ⟨r, T', hrun⟩ := @run_present_table api m params T false false h.faithful hvalid
    (Or.inr (by rw [hsorted]; exact Nat.zero_le 1))
  rw [hrun]
  rcases returns_present_table h.faithful (Prog.returns_of_run hrun) with
    ⟨T₁, -, hsame, hadd, -, -⟩ | ⟨u, T₁, hsorted', -, -, -, -, -⟩
  · exact ⟨T₁, hsame, hadd⟩
  · rw [hsorted] at hsorted'
    cases hsorted'

/-- A call that recognises one resource adds none and keeps the class. -/
theorem call_recognises (h : Defaulting api m params defaults) (hvalid : m.accepts params)
    {u : String} (howners : api.owners m params T = [u]) :
    let T' := ((m.ensure "present" params).run (api.serve m.config.payloadKey) T).2
    api.owners m params T' = [u] ∧ uuids T' = uuids T := by
  have hsorted : api.sortedOwners m params T = [u] := by
    rw [sortedOwners, howners]
    rfl
  obtain ⟨r, T', hrun⟩ := @run_present_table api m params T false false h.faithful hvalid
    (Or.inr (by rw [hsorted]; exact le_refl 1))
  rw [hrun]
  rcases returns_present_table h.faithful (Prog.returns_of_run hrun) with
    ⟨T₁, hnil, -, -, -, -⟩ | ⟨v, T₁, hsorted', -, -, hsame, -, hstate⟩
  · rw [hsorted] at hnil
    cases hnil
  · rw [hsorted, List.cons.injEq] at hsorted'
    obtain ⟨rfl, hdeduped⟩ := hsorted'
    have hsame' := hsame hdeduped.symm
    have howners₁ : api.owners m params T₁ = [u] := (owners_congr hsame').trans howners
    have huuids₁ := uuids_congr hsame'
    rcases hstate with hstate | hstate
    · exact ⟨(owners_congr hstate).trans howners₁, (uuids_congr hstate).trans huuids₁⟩
    · have hmem : u ∈ api.owners m params T₁ := by
        rw [howners₁]
        exact List.mem_singleton_self u
      constructor
      · calc api.owners m params T' = api.owners m params (api.set u params T₁) :=
              owners_congr hstate
          _ = api.owners m params T₁ := owners_set_of hmem (hasIdentity_changed_unsent h)
          _ = [u] := howners₁
      · calc uuids T' = uuids (api.set u params T₁) := uuids_congr hstate
          _ = uuids T₁ := uuids_set u
          _ = uuids T := huuids₁

/-- A default that reads otherwise is never recognised: every call creates. -/
theorem repeated_creates_each (h : Defaulting api m params defaults) (hvalid : m.accepts params)
    (hnil : api.owners m params T = [])
    (hmissed : ∃ k ∈ m.matchKeys, params.has k = false ∧ defaults k ≠ "") (n : ℕ) :
    (created T (repeated api m params n T)).length = n := by
  have hnot : ∀ S : Table, api.hasIdentity m params (api.added params S) = false := by
    intro S
    obtain ⟨k, hk, hunsent, hne⟩ := hmissed
    by_contra hident
    exact hne ((hasIdentity_added_iff h).mp (by simpa using hident) k hk hunsent)
  have hrun : api.owners m params (repeated api m params n T) = [] ∧
      ∃ us, uuids (repeated api m params n T) = uuids T ++ us ∧ us.length = n := by
    induction n with
    | zero => exact ⟨hnil, [], (List.append_nil _).symm, rfl⟩
    | succ n ih =>
      obtain ⟨hempty, us, huuids, hlen⟩ := ih
      obtain ⟨T₁, hsame, hadd⟩ := call_creates h hvalid hempty
      rw [← repeated_succ] at hadd
      constructor
      · calc api.owners m params (repeated api m params (n + 1) T)
            = api.owners m params (api.add params T₁) := owners_congr hadd
          _ = api.owners m params T₁ := owners_add_of_false (hnot T₁)
          _ = api.owners m params (repeated api m params n T) := owners_congr hsame
          _ = [] := hempty
      · refine ⟨us ++ [(api.added params T₁).uuid], ?_, by simp [hlen]⟩
        calc uuids (repeated api m params (n + 1) T) = uuids (api.add params T₁) :=
              uuids_congr hadd
          _ = uuids T₁ ++ [(api.added params T₁).uuid] := uuids_add
          _ = uuids (repeated api m params n T) ++ [(api.added params T₁).uuid] := by
              rw [uuids_congr hsame]
          _ = uuids T ++ (us ++ [(api.added params T₁).uuid]) := by
              rw [huuids, List.append_assoc]
  obtain ⟨-, us, huuids, hlen⟩ := hrun
  rw [created_of_append huuids, hlen]

/-- Empty defaults are recognised: only the first call creates. -/
theorem repeated_creates_once (h : Defaulting api m params defaults) (hvalid : m.accepts params)
    (hnil : api.owners m params T = [])
    (hempty : ∀ k ∈ m.matchKeys, params.has k = false → defaults k = "") (n : ℕ) :
    (created T (repeated api m params (n + 1) T)).length = 1 := by
  have hrun : ∃ u, api.owners m params (repeated api m params (n + 1) T) = [u] ∧
      uuids (repeated api m params (n + 1) T) = uuids T ++ [u] := by
    induction n with
    | zero =>
      obtain ⟨T₁, hsame, hadd⟩ := call_creates h hvalid hnil
      refine ⟨(api.added params T₁).uuid, ?_, ?_⟩
      · have howners := owners_add_of_true ((hasIdentity_added_iff (T := T₁) h).mpr hempty)
        rw [owners_congr hsame, hnil, List.nil_append] at howners
        exact (owners_congr hadd).trans howners
      · rw [← uuids_congr hsame, ← uuids_add]
        exact uuids_congr hadd
    | succ n ih =>
      obtain ⟨u, howners, huuids⟩ := ih
      obtain ⟨howners', huuids'⟩ := call_recognises h hvalid howners
      rw [← repeated_succ] at howners' huuids'
      exact ⟨u, howners', huuids'.trans huuids⟩
  obtain ⟨u, -, huuids⟩ := hrun
  rw [created_of_append huuids]
  rfl

/-- Any number of calls with a validated declaration leaves one resource exactly when the
server's default for each match key it leaves out reads as the empty text. -/
theorem repeated_creates_one_iff (h : Defaulting api m params defaults)
    (hvalid : m.accepts params) (hnil : api.owners m params T = []) :
    (∀ n, 1 ≤ n → (created T (repeated api m params n T)).length = 1) ↔
      ∀ k ∈ m.matchKeys, params.has k = false → defaults k = "" := by
  constructor
  · intro hone k hk hunsent
    by_contra hne
    have htwo := repeated_creates_each h hvalid hnil ⟨k, hk, hunsent, hne⟩ 2
    have hone' := hone 2 (by omega)
    omega
  · intro hempty n hn
    obtain ⟨i, rfl⟩ : ∃ i, n = i + 1 := ⟨n - 1, by omega⟩
    exact repeated_creates_once h hvalid hnil hempty i

theorem plainServer_defaulting {d : Obj} (huuid : "uuid" ∉ m.matchKeys)
    (hnodup : (params.map (·.1)).Nodup)
    (hflat : ∀ k ∈ m.matchKeys, ∀ v, params.lookup k = some v → v.isDict = false) :
    Defaulting (plainServer d) m params d.text := by
  have hnotMem : ∀ k, params.has k = false → k ∉ params.map (·.1) := by
    intro k hunsent hmem
    obtain ⟨kv, hkv, rfl⟩ := List.mem_map.mp hmem
    have hnone := List.lookup_eq_none_iff.mp (Obj.has_eq_false_iff.mp hunsent) kv hkv
    simp at hnone
  refine ⟨plainServer_faithful huuid hnodup hflat, fun k _ hunsent => ?_,
    fun stored k _ hunsent => ?_⟩
  · exact Obj.text_congr (lookup_mergeFields_of_notMem (hnotMem k hunsent))
  · exact Obj.text_congr (lookup_mergeFields_of_notMem (hnotMem k hunsent))

def noPassword : DiffEngine := ⟨fun _ _ => false⟩

def emptyTable : Table := ⟨⟨[], List.nodup_nil⟩, 0⟩

/-- A rule without direction and protocol, on a server that stores them as `in` and
`any`: two calls create two rules. -/
theorem repeated_creates_two :
    let m := FwFilterManager noPassword
    let params : Obj := [("description", .str "Allow HTTPS"), ("action", .str "pass"),
      ("interface", .str "lan")]
    let api := plainServer [("direction", .str "in"), ("protocol", .str "any")]
    m.accepts params ∧ api.owners m params emptyTable = [] ∧
      Defaulting api m params (Obj.text [("direction", .str "in"), ("protocol", .str "any")]) ∧
      ¬ ∀ n, 1 ≤ n → (created emptyTable (repeated api m params n emptyTable)).length = 1 := by
  intro m params api
  have hvalid : m.accepts params := accepts_of_toBool (by decide)
  have hflat : ∀ kv ∈ params, kv.2.isDict = false := by decide
  have hserver : Defaulting api m params
      (Obj.text [("direction", .str "in"), ("protocol", .str "any")]) := by
    apply plainServer_defaulting
    · decide
    · decide
    · exact fun k _ v hv => hflat (k, v) (Obj.mem_of_lookup hv)
  refine ⟨hvalid, rfl, hserver, fun hone => ?_⟩
  have hnil : api.owners m params emptyTable = [] := rfl
  have htwo := repeated_creates_each hserver hvalid hnil
    ⟨"protocol", by decide, rfl, by decide⟩ 2
  have hone' := hone 2 (by omega)
  omega

theorem repeated_creates_one_iff_server :
    let m := UbDotManager noPassword
    let params : Obj := [("server", .str "1.1.1.1")]
    let api := plainServer [("port", .str "")]
    (∀ n, 1 ≤ n → (created emptyTable (repeated api m params n emptyTable)).length = 1) ↔
      ∀ k ∈ m.matchKeys, params.has k = false → Obj.text [("port", .str "")] k = "" := by
  intro m params api
  have hflat : ∀ kv ∈ params, kv.2.isDict = false := by decide
  have hserver : Defaulting api m params (Obj.text [("port", .str "")]) := by
    apply plainServer_defaulting
    · decide
    · decide
    · exact fun k _ v hv => hflat (k, v) (Obj.mem_of_lookup hv)
  exact repeated_creates_one_iff hserver (accepts_of_toBool (by decide)) rfl

end TableServer
end Opnsense
