import Opnsense.IdentityClass

namespace Opnsense
namespace TableServer
open Interaction BaseManager

variable {api : TableServer} {m : BaseManager} {params : Obj} {T T' : Table}
  {t : List (Request × Reply)} {dedupe force : Bool}

theorem returns_get_table {uuid v : Json}
    (h : (m.get uuid).Returns (api.serve m.config.payloadKey) T v T' t) :
    T'.resources = T.resources := by
  obtain ⟨body, hq, -, -⟩ := returns_get.mp h
  have hstate : T.tick = T' := congrArg Prod.snd hq
  rw [← hstate, Table.tick_resources]

theorem returns_apply_table {u : Unit}
    (h : m.apply.Returns (api.serve m.config.payloadKey) T u T' t) :
    T'.resources = T.resources := by
  obtain ⟨T₁, hrun, hres⟩ := @run_apply api m.config.payloadKey m T
  have heq := h.1.symm.trans hrun
  rw [Prod.mk.injEq] at heq
  rw [heq.2, hres]

theorem returns_delete_table {u : String} {r : EnsureResult}
    (h : (m.delete (.str u) false).Returns (api.serve m.config.payloadKey) T r T' t) :
    T'.resources = T.resources.erase u := by
  obtain ⟨item, T₁, t₁, t₂, v, hget, hperf, -⟩ := returns_delete h
  have hread := returns_get_table hget
  cases hperf with
  | sent hq happly =>
    rename_i T₂ _ _
    have hdel : T₁.del u = T₂ := congrArg Prod.snd hq
    rw [returns_apply_table happly, ← hdel, Table.del, hread]

/-- Deleting owners removes them from the class and leaves the others alone. -/
theorem returns_deleteAll_table {us : List String} {u : Unit}
    (hown : ∀ u ∈ us, ∀ r ∈ T.resources.entries, r.uuid = u → api.hasIdentity m params r = true)
    (h : (m.deleteAll us).Returns (api.serve m.config.payloadKey) T u T' t) :
    api.owners m params T' = (api.owners m params T).filter (· ∉ us) ∧
      api.others m params T' = api.others m params T := by
  induction us generalizing T t with
  | nil =>
    obtain ⟨-, rfl, -⟩ := Prog.returns_ret.mp h
    simp
  | cons u rest ih =>
    obtain ⟨r, T₁, t₁, t₂, hdel, hrest, -⟩ := Prog.returns_bind.mp h
    have hres : T₁.resources = (T.del u).resources := returns_delete_table hdel
    -- no entry comes on top, so what was known of the owners is still true
    have hentries : ∀ r ∈ T₁.resources.entries, r ∈ T.resources.entries := by
      intro r hr
      rw [hres] at hr
      exact List.mem_of_mem_filter hr
    have hown' : ∀ v ∈ rest, ∀ r ∈ T₁.resources.entries, r.uuid = v →
        api.hasIdentity m params r = true :=
      fun v hv r hr => hown v (List.mem_cons_of_mem _ hv) r (hentries r hr)
    obtain ⟨howners, hothers⟩ := ih hown' hrest
    constructor
    · rw [howners, owners_congr hres, owners_del, List.filter_filter]
      apply List.filter_congr
      intro v _
      by_cases hv : v = u <;> simp [hv]
    · rw [hothers, others_congr hres]
      exact others_del (hown u (List.mem_cons_self ..))

/-- Taking away all but the smallest owner leaves the smallest. -/
theorem owners_filter_eq {u : String} {us : List String}
    (hsorted : api.sortedOwners m params T = u :: us) :
    (api.owners m params T).filter (· ∉ us) = [u] := by
  have hperm : (api.owners m params T).Perm (u :: us) := by
    rw [← hsorted]
    exact (List.perm_insertionSort _ _).symm
  have hnodup : (u :: us).Nodup := hperm.nodup_iff.mp owners_nodup
  have hnot : u ∉ us := (List.nodup_cons.mp hnodup).1
  have hrest : us.filter (· ∉ us) = [] := by
    rw [List.filter_eq_nil_iff]
    intro v hv
    simp [hv]
  have hfilter := hperm.filter (fun v => decide (v ∉ us))
  rw [List.filter_cons_of_pos (by simpa using hnot), hrest] at hfilter
  exact List.perm_singleton.mp hfilter

/-- The first row found is the one of the smallest owner. -/
theorem found_head (hfaith : Faithful api m params) {u : String} {us : List String}
    (hsorted : api.sortedOwners m params T = u :: us) :
    ∃ r ∈ T.resources.entries, r.uuid = u ∧ api.hasIdentity m params r = true ∧
      ∃ rest, matchingRows m.matchKeys params (api.rows (m.identity.searchPhrase params) T) =
        api.row r :: rest ∧ rest.map (·.text "uuid") = us := by
  have huuids := @found_uuids api m params T hfaith
  rw [hsorted] at huuids
  rcases hfound : matchingRows m.matchKeys params (api.rows (m.identity.searchPhrase params) T)
    with _ | ⟨row, rest⟩
  · rw [hfound] at huuids
    cases huuids
  · rw [hfound, List.map_cons, List.cons.injEq] at huuids
    have hmem : row ∈ matchingRows m.matchKeys params
        (api.rows (m.identity.searchPhrase params) T) := by
      rw [hfound]
      exact List.mem_cons_self ..
    obtain ⟨r, hr, hident, rfl⟩ := found_row hfaith hmem
    rw [row_text_uuid] at huuids
    exact ⟨r, hr, huuids.1, hident, rest, rfl, huuids.2⟩

theorem found_nil (hfaith : Faithful api m params) (hsorted : api.sortedOwners m params T = []) :
    matchingRows m.matchKeys params (api.rows (m.identity.searchPhrase params) T) = [] := by
  have huuids := @found_uuids api m params T hfaith
  rw [hsorted] at huuids
  exact List.map_eq_nil_iff.mp huuids

/-- A lookup that leaves duplicates alone returns for one owner at most. -/
theorem returns_find_table (hfaith : Faithful api m params) {existing : Option Obj}
    {deduped : List String}
    (h : (m.lookup params false false).Returns (api.serve m.config.payloadKey) T
      (existing, deduped) T' t) :
    deduped = [] ∧ T'.resources = T.resources ∧
      (api.sortedOwners m params T = [] ∧ existing = none ∨
        ∃ r, api.sortedOwners m params T = [r.uuid] ∧ r ∈ T.resources.entries ∧
          existing = some (api.row r)) := by
  obtain ⟨found, T₁, t₁, t₂, hfound, hret, -⟩ := Prog.returns_bind.mp h
  obtain ⟨heq, rfl, -⟩ := Prog.returns_ret.mp hret
  cases heq
  obtain ⟨found', hmatch, hlen, rfl⟩ := returns_findExisting hfound
  have hrun := hmatch.1.symm.trans
    (@run_findMatching api m.config.payloadKey m T params (some (m.identity.searchPhrase params)))
  rw [Prod.mk.injEq, Except.ok.injEq, Option.getD_some] at hrun
  obtain ⟨rfl, rfl⟩ := hrun
  refine ⟨rfl, rfl, ?_⟩
  rcases hsorted : api.sortedOwners m params T with _ | ⟨u, us⟩
  · exact Or.inl ⟨rfl, by rw [found_nil hfaith hsorted]; rfl⟩
  · obtain ⟨r, hr, rfl, -, rest, hrows, hus⟩ := found_head hfaith hsorted
    have hrest : rest = [] := by
      rw [hrows] at hlen
      simpa using hlen
    rw [hrest, List.map_nil] at hus
    exact Or.inr ⟨r, by rw [hus], hr, by rw [hrows]; rfl⟩

/-- A lookup that collapses duplicates leaves the owner of the least uuid. -/
theorem returns_collapse_table (hfaith : Faithful api m params) {existing : Option Obj}
    {deduped : List String}
    (h : (m.lookup params false true).Returns (api.serve m.config.payloadKey) T
      (existing, deduped) T' t) :
    (api.sortedOwners m params T = [] ∧ existing = none ∧ deduped = [] ∧
      T'.resources = T.resources) ∨
    ∃ u r, api.sortedOwners m params T = u :: deduped ∧ r ∈ T.resources.entries ∧ r.uuid = u ∧
      existing = some (api.row r) ∧ api.owners m params T' = [u] ∧
      api.others m params T' = api.others m params T ∧
      (deduped = [] → T'.resources = T.resources) := by
  obtain ⟨found, T₁, t₁, t₂, hmatch, -, rfl, rfl, hdel⟩ := returns_collapseDuplicates h
  have hfind := @run_findMatching api m.config.payloadKey m T params none
  rw [Option.getD_none] at hfind
  have hrun := hmatch.1.symm.trans hfind
  rw [Prod.mk.injEq, Except.ok.injEq] at hrun
  obtain ⟨rfl, rfl⟩ := hrun
  replace hdel := by simpa only [Bool.false_eq_true, if_false] using hdel
  rcases hsorted : api.sortedOwners m params T with _ | ⟨u, us⟩
  · rw [found_nil hfaith hsorted] at hdel ⊢
    obtain ⟨-, rfl, -⟩ := Prog.returns_ret.mp hdel
    exact Or.inl ⟨rfl, rfl, rfl, rfl⟩
  · obtain ⟨r, hr, huuid, -, rest, hrows, rfl⟩ := found_head hfaith hsorted
    rw [hrows] at hdel ⊢
    simp only [List.tail_cons] at hdel ⊢
    -- all rows behind the first are of the class
    have hown : ∀ v ∈ rest.map (·.text "uuid"), ∀ r ∈ T.tick.resources.entries, r.uuid = v →
        api.hasIdentity m params r = true := by
      intro v hv r hr huuid
      have howner : v ∈ api.owners m params T.tick := by
        rw [owners_congr (Table.tick_resources T), ← mem_sortedOwners, hsorted]
        exact List.mem_cons_of_mem _ hv
      exact hasIdentity_of_owner howner hr huuid
    obtain ⟨howners, hothers⟩ := returns_deleteAll_table hown hdel
    refine Or.inr ⟨u, r, rfl, hr, huuid, rfl, ?_, ?_, fun hnil => ?_⟩
    · rw [howners, owners_congr (Table.tick_resources T)]
      exact owners_filter_eq hsorted
    · rw [hothers, others_congr (Table.tick_resources T)]
    · rw [hnil] at hdel
      obtain ⟨-, rfl, -⟩ := Prog.returns_ret.mp hdel
      rfl

/-- A lookup that returned: nobody has the identity, or the smallest owner was found and
is the only one left. -/
theorem returns_lookup_table (hfaith : Faithful api m params) {existing : Option Obj}
    {deduped : List String}
    (h : (m.lookup params false dedupe).Returns (api.serve m.config.payloadKey) T
      (existing, deduped) T' t) :
    (api.sortedOwners m params T = [] ∧ existing = none ∧ deduped = [] ∧
      T'.resources = T.resources) ∨
    ∃ u r, api.sortedOwners m params T = u :: deduped ∧ r ∈ T.resources.entries ∧ r.uuid = u ∧
      existing = some (api.row r) ∧ api.owners m params T' = [u] ∧
      api.others m params T' = api.others m params T ∧
      (deduped = [] → T'.resources = T.resources) := by
  cases dedupe with
  | true => exact returns_collapse_table hfaith h
  | false =>
    obtain ⟨rfl, hsame, ⟨hnil, hnone⟩ | ⟨r, hsorted, hr, hrow⟩⟩ := returns_find_table hfaith h
    · exact Or.inl ⟨hnil, hnone, rfl, hsame⟩
    · refine Or.inr ⟨r.uuid, r, hsorted, hr, rfl, hrow, ?_, others_congr hsame, fun _ => hsame⟩
      rw [owners_congr hsame]
      exact owners_of_sortedOwners hsorted

/-- The hydrated row keeps the uuid of the row, whatever the appliance answers. -/
theorem uuid_of_returns_hydrateNested {σ : Type} {srv : Appliance σ} {s s' : σ} {r : Resource}
    {existing : Option Obj}
    (h : (m.hydrateNested (some (api.row r)) params).Returns srv s existing s' t) :
    ∃ fields, existing = some fields ∧ fields.lookup "uuid" = some (.str r.uuid) := by
  have hreturns := returns_hydrateNested.mp h
  split at hreturns
  · obtain ⟨item, fields, -, hitem, rfl⟩ := hreturns
    refine ⟨fields, rfl, ?_⟩
    rw [lookup_of_setItem hitem, rowUuid_row]
  · obtain ⟨rfl, -, -⟩ := hreturns
    exact ⟨_, rfl, api.row_uuid r⟩

/-- The compared state bears the uuid of the row it came from, and reading it changed
nothing. -/
theorem returns_hydrate_table {r : Resource} {existing : Option Obj}
    (h : (m.hydrateNested (some (api.row r)) params).Returns
      (api.serve m.config.payloadKey) T existing T' t) :
    ∃ fields, existing = some fields ∧ fields.lookup "uuid" = some (.str r.uuid) ∧
      T'.resources = T.resources := by
  obtain ⟨fields, hfields, huuid⟩ := uuid_of_returns_hydrateNested h
  refine ⟨fields, hfields, huuid, ?_⟩
  -- it reads the item at most
  have hreturns := returns_hydrateNested.mp h
  split at hreturns
  · obtain ⟨item, full, hget, -, -⟩ := hreturns
    exact returns_get_table hget
  · obtain ⟨-, rfl, -⟩ := hreturns
    rfl

theorem returns_create_table {r : EnsureResult}
    (h : (m.create params false).Returns (api.serve m.config.payloadKey) T r T' t) :
    T'.resources = (api.add params T).resources ∧
      r.uuid = some (.str (api.added params T).uuid) ∧ r.deduped = [] := by
  obtain ⟨hperf, -, -, hdeduped⟩ := returns_create h
  generalize huuid : r.uuid = v at hperf
  cases hperf with
  | sent hq happly =>
    rename_i T₁ v _
    have hreply : (.ok (.str (api.added params T).uuid) : Reply) = .ok v := congrArg Prod.fst hq
    have hstate : api.add params T = T₁ := congrArg Prod.snd hq
    cases hreply
    exact ⟨by rw [returns_apply_table happly, hstate], rfl, hdeduped⟩

theorem returns_update_table {u : String} {r : EnsureResult}
    (h : (m.update (.str u) params false).Returns (api.serve m.config.payloadKey) T r T' t) :
    T'.resources = T.resources.modify u (api.changed params) (api.changed_uuid params) ∧
      r.uuid = some (.str u) ∧ r.deduped = [] := by
  obtain ⟨before, T₁, t₁, t₂, v, hget, hperf, -, -, -, huuid, hdeduped⟩ := returns_update h
  have hread := returns_get_table hget
  cases hperf with
  | sent hq happly =>
    rename_i T₂ _ _
    have hstate : api.set u params T₁ = T₂ := congrArg Prod.snd hq
    refine ⟨?_, huuid, hdeduped⟩
    rw [returns_apply_table happly, ← hstate, set, hread]

/-- What a returning `ensure` with state present did: it added a resource to a table
without the identity, or kept the smallest owner and at most changed it. -/
theorem returns_present_table (hfaith : Faithful api m params) {r : EnsureResult}
    (h : (m.ensure "present" params false none dedupe force).Returns
      (api.serve m.config.payloadKey) T r T' t) :
    (∃ T₁, api.sortedOwners m params T = [] ∧ T₁.resources = T.resources ∧
      T'.resources = (api.add params T₁).resources ∧
      r.uuid = some (.str (api.added params T₁).uuid) ∧ r.deduped = []) ∨
    ∃ u T₁, api.sortedOwners m params T = u :: r.deduped ∧ api.owners m params T₁ = [u] ∧
      api.others m params T₁ = api.others m params T ∧
      (r.deduped = [] → T₁.resources = T.resources) ∧ r.uuid = some (.str u) ∧
      (T'.resources = T₁.resources ∨ T'.resources = (api.set u params T₁).resources) := by
  obtain ⟨existing, deduped, T₁, t₁, t₂, r₀, hres, hconv, -, rfl⟩ := returns_ensure h
  obtain ⟨found, T₂, t₃, t₄, hlook, hhyd, -⟩ := returns_resolve hres
  rcases returns_lookup_table hfaith hlook with
    ⟨hsorted, rfl, rfl, hsame⟩ | ⟨u, row, hsorted, -, rfl, rfl, howners, hothers, hsame⟩
  · obtain ⟨rfl, rfl, -⟩ := Prog.returns_ret.mp hhyd
    obtain ⟨hadd, huuid, hdeduped⟩ := returns_create_table (by simpa [converge] using hconv)
    exact Or.inl ⟨T₁, hsorted, hsame, hadd, huuid, hdeduped⟩
  · obtain ⟨fields, rfl, hlookup, hread⟩ := returns_hydrate_table hhyd
    have huuid : fields.getD "uuid" (.str "") = .str row.uuid := Obj.getD_of_lookup hlookup _
    -- the removed duplicates change neither the uuid that is reported nor the state
    have hfolded : (withDedupe r₀ deduped).uuid = r₀.uuid := by
      unfold withDedupe
      split <;> rfl
    -- a noop, or one set of the survivor
    have hcase : r₀.uuid = some (.str row.uuid) ∧ r₀.deduped = [] ∧
        (T'.resources = T₁.resources ∨
          T'.resources = (api.set row.uuid params T₁).resources) := by
      simp only [converge, if_true, huuid] at hconv
      split at hconv
      · obtain ⟨u, T₃, t₅, t₆, hlog, hret, -⟩ := Prog.returns_bind.mp hconv
        obtain ⟨rfl, -⟩ := (returns_log ..).mp hlog
        obtain ⟨rfl, rfl, -⟩ := Prog.returns_ret.mp hret
        exact ⟨rfl, rfl, Or.inl rfl⟩
      · obtain ⟨hset, huuid', hdeduped⟩ := returns_update_table hconv
        exact ⟨huuid', hdeduped, Or.inr hset⟩
    obtain ⟨huuid', hdeduped, hstate⟩ := hcase
    have hremoved : (withDedupe r₀ deduped).deduped = deduped := by
      unfold withDedupe
      split
      · rename_i hnil
        rw [hdeduped]
        exact (List.isEmpty_iff.mp hnil).symm
      · rfl
    refine Or.inr ⟨row.uuid, T₁, ?_, ?_, ?_, ?_, ?_, hstate⟩
    · rw [hremoved, hsorted]
    · rw [owners_congr hread, howners]
    · rw [others_congr hread, hothers]
    · rw [hremoved, hread]
      exact hsame
    · rw [hfolded, huuid']

/-- What a returning `ensure` with state absent did: it took the class away. -/
theorem returns_absent_table (hfaith : Faithful api m params) {r : EnsureResult}
    (h : (m.ensure "absent" params false none dedupe force).Returns
      (api.serve m.config.payloadKey) T r T' t) :
    api.owners m params T' = [] ∧ api.others m params T' = api.others m params T ∧
      (api.sortedOwners m params T = [] → T'.resources = T.resources) := by
  obtain ⟨existing, deduped, T₁, t₁, t₂, r₀, hres, hconv, -, rfl⟩ := returns_ensure h
  obtain ⟨found, T₂, t₃, t₄, hlook, hhyd, -⟩ := returns_resolve hres
  rcases returns_lookup_table hfaith hlook with
    ⟨hsorted, rfl, rfl, hsame⟩ | ⟨u, row, hsorted, -, rfl, rfl, howners, hothers, -⟩
  · obtain ⟨rfl, rfl, -⟩ := Prog.returns_ret.mp hhyd
    obtain ⟨u, T₃, t₅, t₆, hlog, hret, -⟩ := Prog.returns_bind.mp hconv
    obtain ⟨rfl, -⟩ := (returns_log ..).mp hlog
    obtain ⟨rfl, rfl, -⟩ := Prog.returns_ret.mp hret
    have hnil : api.owners m params T = [] := sortedOwners_eq_nil.mp hsorted
    exact ⟨by rw [owners_congr hsame, hnil], others_congr hsame, fun _ => hsame⟩
  · obtain ⟨fields, rfl, hlookup, hread⟩ := returns_hydrate_table hhyd
    have huuid : fields.getD "uuid" (.str "") = .str row.uuid := Obj.getD_of_lookup hlookup _
    have hne : ("absent" = "present") = False := by simp
    simp only [converge, hne, if_false, huuid] at hconv
    -- the survivor of the lookup is the one that goes
    have herase : T'.resources = (T₁.del row.uuid).resources := returns_delete_table hconv
    have howner : row.uuid ∈ api.owners m params T₁ := by
      rw [owners_congr hread, howners]
      exact List.mem_singleton_self _
    refine ⟨?_, ?_, fun hnil => ?_⟩
    · rw [owners_congr herase, owners_del, owners_congr hread, howners]
      simp
    · calc api.others m params T' = api.others m params (T₁.del row.uuid) := others_congr herase
        _ = api.others m params T₁ :=
            others_del fun r hr huuid => hasIdentity_of_owner howner hr huuid
        _ = _ := others_congr hread
        _ = api.others m params T := hothers
    · rw [hnil] at hsorted
      cases hsorted

end TableServer
end Opnsense
