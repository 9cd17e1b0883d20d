import Opnsense.TableRuns

namespace Opnsense
namespace TableServer
open Interaction BaseManager

variable {api : TableServer} {m : BaseManager} {params : Obj} {T : Table}
  {dedupe force : Bool}

theorem run_create_table :
    ∃ r T', (m.create params false).run (api.serve m.config.payloadKey) T = (.ok r, T') := by
  obtain ⟨after, hafter⟩ := redactDict_obj m.redactFields params
  obtain ⟨T', happly, -⟩ := @run_apply api m.config.payloadKey m (api.add params T)
  exact ⟨_, T', by simp [BaseManager.create, Prog.run_bind, hafter, serve, happly]; rfl⟩

theorem run_update_table {r : Resource} (hr : r ∈ T.resources.entries) :
    ∃ res T', (m.update (.str r.uuid) params false).run (api.serve m.config.payloadKey) T =
      (.ok res, T') := by
  obtain ⟨before, hbefore⟩ := redactDict_obj m.redactFields (api.item r)
  obtain ⟨after, hafter⟩ := redactDict_obj m.redactFields params
  obtain ⟨T', happly, -⟩ := @run_apply api m.config.payloadKey m (api.set r.uuid params T.tick)
  exact ⟨_, T', by
    simp [BaseManager.update, Prog.run_bind, run_get hr, hbefore, hafter, serve, happly]; rfl⟩

theorem run_delete_table {r : Resource} (hr : r ∈ T.resources.entries) :
    ∃ res T', (m.delete (.str r.uuid) false).run (api.serve m.config.payloadKey) T =
      (.ok res, T') := by
  obtain ⟨before, hbefore⟩ := redactDict_obj m.redactFields (api.item r)
  obtain ⟨T', happly, -⟩ := @run_apply api m.config.payloadKey m (T.tick.del r.uuid)
  exact ⟨_, T', by
    simp [BaseManager.delete, Prog.run_bind, run_get hr, asDict, hbefore, serve, happly]; rfl⟩

theorem run_deleteAll_table {us : List String} (hnodup : us.Nodup)
    (hmem : ∀ u ∈ us, ∃ r ∈ T.resources.entries, r.uuid = u) :
    ∃ T', (m.deleteAll us).run (api.serve m.config.payloadKey) T = (.ok (), T') := by
  induction us generalizing T with
  | nil => exact ⟨T, rfl⟩
  | cons u rest ih =>
    obtain ⟨hnot, hrest⟩ := List.nodup_cons.mp hnodup
    obtain ⟨r, hr, rfl⟩ := hmem u (List.mem_cons_self ..)
    obtain ⟨res, T₁, hdel⟩ := @run_delete_table api m T r hr
    have herase := returns_delete_table (Prog.returns_of_run hdel)
    -- the later duplicates are still there
    have hmem' : ∀ v ∈ rest, ∃ r' ∈ T₁.resources.entries, r'.uuid = v := by
      intro v hv
      obtain ⟨r', hr', rfl⟩ := hmem v (List.mem_cons_of_mem _ hv)
      refine ⟨r', ?_, rfl⟩
      rw [herase]
      have hne : r'.uuid ≠ r.uuid := fun heq => hnot (heq ▸ hv)
      exact List.mem_filter.mpr ⟨hr', by simpa using hne⟩
    obtain ⟨T', hrun⟩ := ih hrest hmem'
    exact ⟨T', by rw [deleteAll, Prog.run_bind_of_ok hdel, hrun]⟩

/-- The full item of a row can be read as long as some resource bears its uuid. -/
theorem run_hydrate_table {r r' : Resource} (hr : r' ∈ T.resources.entries)
    (huuid : r'.uuid = r.uuid) :
    ∃ existing T', (m.hydrateNested (some (api.row r)) params).run
      (api.serve m.config.payloadKey) T = (.ok existing, T') := by
  unfold hydrateNested
  dsimp only
  split
  · rw [rowUuid_row, ← huuid, Prog.run_bind_of_ok (run_get hr)]
    exact ⟨_, _, by simp [setItem, Prog.run_bind]; exact ⟨rfl, rfl⟩⟩
  · exact ⟨_, _, rfl⟩

/-- Several resources of the identity are no obstacle to a de-duplicating lookup. -/
theorem run_lookup_table (hfaith : Faithful api m params)
    (hclass : dedupe = true ∨ (api.sortedOwners m params T).length ≤ 1) :
    ∃ found T', (m.lookup params false dedupe).run (api.serve m.config.payloadKey) T =
      (.ok found, T') := by
  have huuids := @found_uuids api m params T hfaith
  have hlist := @run_list api m.config.payloadKey m T (m.identity.searchPhrase params)
  by_cases hlen : (api.sortedOwners m params T).length ≤ 1
  · rw [← huuids, List.length_map] at hlen
    exact ⟨_, _, run_lookup_of_list hlist hlen⟩
  · -- of several owners those behind the first are deleted, and each is there
    obtain rfl := hclass.resolve_right hlen
    have hfind := @run_findMatching api m.config.payloadKey m T params none
    rw [Option.getD_none] at hfind
    rcases hsorted : api.sortedOwners m params T with _ | ⟨u, us⟩
    · rw [hsorted] at hlen
      simp at hlen
    · obtain ⟨r, hr, huuid, -, rest, hrows, rfl⟩ := found_head hfaith hsorted
      have hnodup : (u :: rest.map (·.text "uuid")).Nodup := by
        rw [← hsorted]
        exact (List.perm_insertionSort _ _).nodup_iff.mpr owners_nodup
      have hmem : ∀ v ∈ rest.map (·.text "uuid"),
          ∃ r ∈ T.tick.resources.entries, r.uuid = v := by
        intro v hv
        have howner : v ∈ api.sortedOwners m params T := by
          rw [hsorted]
          exact List.mem_cons_of_mem _ hv
        obtain ⟨r', hr', -, huuid'⟩ := mem_owners.mp (mem_sortedOwners.mp howner)
        exact ⟨r', hr', huuid'⟩
      obtain ⟨T', hdel⟩ := @run_deleteAll_table api m T.tick _ (List.nodup_cons.mp hnodup).2 hmem
      simp only [lookup, if_true, collapseDuplicates, Prog.run_bind_of_ok hfind, hrows]
      cases rest with
      | nil => exact ⟨_, _, rfl⟩
      | cons row rest =>
        refine ⟨(some (api.row r), (row :: rest).map (·.text "uuid")), T', ?_⟩
        simp only [Bool.false_eq_true, if_false]
        rw [Prog.run_bind_of_ok (run_log ..), Prog.run_bind_of_ok hdel]
        rfl

/-- A call with state present returns once the parameters pass the validators. -/
theorem run_present_table (hfaith : Faithful api m params) (hvalid : m.accepts params)
    (hclass : dedupe = true ∨ (api.sortedOwners m params T).length ≤ 1) :
    ∃ r T', (m.ensure "present" params false none dedupe force).run
      (api.serve m.config.payloadKey) T = (.ok r, T') := by
  obtain ⟨⟨existing, deduped⟩, T₁, hlook⟩ := run_lookup_table hfaith hclass
  rcases returns_lookup_table hfaith (Prog.returns_of_run hlook) with
    ⟨-, rfl, rfl, hsame⟩ | ⟨u, r, -, -, rfl, rfl, howners, -, -⟩
  · have hres : (m.resolve params false none dedupe).run (api.serve m.config.payloadKey) T =
        (.ok (none, []), T₁) := by
      rw [resolve, Prog.run_bind_of_ok hlook]
      rfl
    obtain ⟨r, T', hcreate⟩ := @run_create_table api m params T₁
    have hconv : (m.converge "present" params false force none).run
        (api.serve m.config.payloadKey) T₁ = (.ok r, T') := by
      simpa [converge] using hcreate
    exact ⟨_, _, run_ensure (run_validate_of_accepts hvalid) hres hconv⟩
  · -- the survivor is still there to be read and changed
    have hmem : r.uuid ∈ api.owners m params T₁ := by
      rw [howners]
      exact List.mem_singleton_self _
    obtain ⟨r', hr', -, huuid'⟩ := mem_owners.mp hmem
    obtain ⟨existing, T₂, hhyd⟩ := @run_hydrate_table api m params T₁ r r' hr' huuid'
    obtain ⟨fields, rfl, hlookup, hread⟩ := returns_hydrate_table (Prog.returns_of_run hhyd)
    have hres : (m.resolve params false none dedupe).run (api.serve m.config.payloadKey) T =
        (.ok (some fields, deduped), T₂) := by
      rw [resolve, Prog.run_bind_of_ok hlook, Prog.run_bind_of_ok hhyd]
      rfl
    rw [← hread] at hr'
    obtain ⟨res, T₃, hupdate⟩ := @run_update_table api m params T₂ r' hr'
    have huuid : fields.getD "uuid" (.str "") = .str r'.uuid := by
      rw [Obj.getD_of_lookup hlookup, huuid']
    have hconv : ∃ res T', (m.converge "present" params false force (some fields)).run
        (api.serve m.config.payloadKey) T₂ = (.ok res, T') := by
      simp only [converge, if_true, huuid]
      split
      · exact ⟨_, _, rfl⟩
      · exact ⟨res, T₃, hupdate⟩
    obtain ⟨res', T', hconv⟩ := hconv
    exact ⟨_, _, run_ensure (run_validate_of_accepts hvalid) hres hconv⟩

end TableServer
end Opnsense
