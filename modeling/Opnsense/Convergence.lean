import Opnsense.Effects
import Opnsense.PlainServer
import Opnsense.Readback
import Opnsense.TableTotal
import Opnsense.Verdict

namespace Opnsense
namespace TableServer
open Interaction BaseManager

variable {api : TableServer} {m : BaseManager} {params : Obj} {T T' : Table}
  {t : List (Request × Reply)}

/-- The server holds what it is sent and shows what it holds: match keys in rows as plain
texts, any other field in one of the renderings of its value or not at all. -/
structure Transparent (api : TableServer) (m : BaseManager) : Prop where
  fill_holds : ∀ params, IsText (.obj params) → HoldsAll (api.fill params) params
  merge_holds : ∀ stored params, IsText (.obj params) → HoldsAll (api.merge stored params) params
  row_match : ∀ r, ∀ k ∈ m.matchKeys, (api.row r).lookup k = some (.str (r.fields.text k))
  row_shows : ∀ r k, k ∉ m.matchKeys → k ≠ "uuid" → ShowsAt r.fields (api.row r) k
  item_shows : ∀ r k, k ≠ "uuid" → ShowsAt r.fields (api.item r) k
  keep_match : ∀ phrase r k, k ∈ m.matchKeys →
    phrase.toList <:+: ((api.row r).text k).toList → api.keep phrase r = true

/-- Texts and blocks of texts that name every match key by a text, and no uuid. -/
structure Declares (m : BaseManager) (params : Obj) : Prop where
  text : IsText (.obj params)
  keys : ∀ k ∈ m.matchKeys, ∃ s, params.lookup k = some (.str s)
  uuid : params.lookup "uuid" = none

theorem Declares.has (h : Declares m params) : ∀ k ∈ m.matchKeys, params.has k = true := by
  intro k hk
  obtain ⟨s, hs⟩ := h.keys k hk
  exact Obj.has_iff.mpr ⟨_, hs⟩

/-- A state that holds the parameters has their texts at the match keys. -/
theorem Declares.text_eq (h : Declares m params) {stored : Obj} (hold : HoldsAll stored params)
    {k : String} (hk : k ∈ m.matchKeys) : stored.text k = params.text k := by
  obtain ⟨s, hs⟩ := h.keys k hk
  have hstored : stored.lookup k = some (.str s) := holds_of_holdsAll hold (Obj.mem_of_lookup hs)
  rw [Obj.text_of_lookup hs, Obj.text_of_lookup hstored]

theorem Transparent.faithful (htrans : Transparent api m) (h : Declares m params) :
    Faithful api m params where
  fill_text k hk _ := h.text_eq (htrans.fill_holds params h.text) hk
  merge_text stored k hk _ := h.text_eq (htrans.merge_holds stored params h.text) hk
  row_text r k hk := by rw [Obj.text_of_lookup (htrans.row_match r k hk), pyStr_str]
  keep_match := htrans.keep_match

/-- What `ensure` compares the parameters with: the row, or the full item. -/
def compared (api : TableServer) (params : Obj) (r : Resource) : Obj :=
  if needsFullItem (api.row r) params then (api.item r).set "uuid" (.str r.uuid) else api.row r

theorem compared_uuid (r : Resource) :
    (api.compared params r).getD "uuid" (.str "") = .str r.uuid := by
  unfold compared
  split
  · exact Obj.getD_of_lookup (Obj.lookup_set_self _ _ _) _
  · exact Obj.getD_of_lookup (api.row_uuid r) _

/-- A resource that holds the parameters is compared without drift. -/
theorem computeDiff_compared (htrans : Transparent api m) (h : Declares m params) {r : Resource}
    (hold : HoldsAll r.fields params) (e : DiffEngine) :
    e.computeDiff (api.compared params r) params = none := by
  apply computeDiff_of_holds_except e hold
  intro kv hkv
  have hne : kv.1 ≠ "uuid" := by
    intro heq
    have hnone := List.lookup_eq_none_iff.mp h.uuid kv hkv
    simp [heq] at hnone
  unfold compared
  split
  · left
    intro w hw
    rw [Obj.lookup_set_of_ne _ hne] at hw
    exact htrans.item_shows r kv.1 hne w hw
  · by_cases hk : kv.1 ∈ m.matchKeys
    · right
      obtain ⟨s, hs⟩ := h.keys kv.1 hk
      have hvalue : params.lookup kv.1 = some kv.2 := Obj.lookup_of_mem h.text.1 hkv
      rw [hs, Option.some.injEq] at hvalue
      refine ⟨s, hvalue.symm, ?_⟩
      rw [htrans.row_match r kv.1 hk, h.text_eq hold hk, Obj.text_of_lookup hs, pyStr_str]
    · exact Or.inl (htrans.row_shows r kv.1 hk hne)

/-- With one owner the first half of `ensure` ends with what there is to compare. -/
theorem run_resolve_table (hfaith : Faithful api m params) {r : Resource}
    (hr : r ∈ T.resources.entries) (howners : api.owners m params T = [r.uuid]) :
    ∃ T₁, (m.resolve params false none false).run (api.serve m.config.payloadKey) T =
      (.ok (some (api.compared params r), []), T₁) ∧ T₁.resources = T.resources := by
  have hsorted : api.sortedOwners m params T = [r.uuid] := by
    rw [sortedOwners, howners]
    rfl
  obtain ⟨r', hr', huuid, -, rest, hrows, hrest⟩ := found_head hfaith hsorted
  obtain rfl : r' = r := List.inj_on_of_nodup_map T.resources.nodup hr' hr huuid
  obtain rfl : rest = [] := List.map_eq_nil_iff.mp hrest
  have hlook := @run_lookup_of_list _ (api.serve m.config.payloadKey) m T _ params false false _
    (run_list (m.identity.searchPhrase params)) (by rw [hrows]; exact le_refl 1)
  rw [hrows] at hlook
  have hne : (rowUuid (api.row r') != "") = true := by
    rw [rowUuid_row]
    simpa using r'.uuid_ne
  rw [resolve, Prog.run_bind_of_ok hlook]
  simp only [List.head?_cons, hydrateNested, hne, Bool.and_true, compared]
  split
  · have hr₁ : r' ∈ T.tick.resources.entries := hr
    rw [rowUuid_row]
    refine ⟨T.tick.tick, ?_, rfl⟩
    simp [Prog.run_bind, run_get hr₁, setItem]
  · exact ⟨T.tick, rfl, rfl⟩

/-- Where the owner compares without drift, a call leaves everything alone. -/
theorem run_noop_table (hfaith : Faithful api m params) (hvalid : m.accepts params) {r : Resource}
    (hr : r ∈ T.resources.entries) (howners : api.owners m params T = [r.uuid])
    (hdiff : m.diffEngine.computeDiff (api.compared params r) params = none) :
    ∃ res T', (m.ensure "present" params).run (api.serve m.config.payloadKey) T = (.ok res, T') ∧
      res.changed = false ∧ res.action = .noop ∧ res.uuid = some (.str r.uuid) := by
  obtain ⟨T₁, hres, -⟩ := run_resolve_table hfaith hr howners
  have hconv := @run_converge_noop _ (api.serve m.config.payloadKey) m T₁ params false _ hdiff
  refine ⟨_, T₁, run_ensure (run_validate_of_accepts hvalid) hres hconv, rfl, rfl, ?_⟩
  rw [compared_uuid]
  rfl

/-- A returning call leaves one owner that compares without drift. -/
theorem returns_present_settled (htrans : Transparent api m) (hparams : Declares m params)
    {res : EnsureResult} (h : (m.ensure "present" params).Returns
      (api.serve m.config.payloadKey) T res T' t) :
    ∃ r ∈ T'.resources.entries, api.owners m params T' = [r.uuid] ∧
      m.diffEngine.computeDiff (api.compared params r) params = none ∧
      res.uuid = some (.str r.uuid) := by
  have hfaith := htrans.faithful hparams
  obtain ⟨existing, deduped, T₁, t₁, t₂, res₀, hres, hconv, -, rfl⟩ := returns_ensure h
  obtain ⟨found, T₂, t₃, t₄, hlook, hhyd, -⟩ := returns_resolve hres
  obtain rfl := deduped_of_returns_lookup hlook
  change ∃ r ∈ T'.resources.entries, api.owners m params T' = [r.uuid] ∧
    m.diffEngine.computeDiff (api.compared params r) params = none ∧
    res₀.uuid = some (.str r.uuid)
  rcases returns_lookup_table hfaith hlook with
    ⟨hsorted, rfl, -, hsame⟩ | ⟨u, r, hsorted, hr, rfl, -, -, -, -⟩
  · -- the resource is new
    obtain ⟨rfl, rfl, -⟩ := Prog.returns_ret.mp hhyd
    obtain ⟨hadd, huuid, -⟩ := returns_create_table (by simpa [converge] using hconv)
    refine ⟨api.added params T₁, ?_, ?_, ?_, huuid⟩
    · rw [hadd]
      exact List.mem_append_right _ (List.mem_singleton_self _)
    · calc api.owners m params T' = api.owners m params (api.add params T₁) := owners_congr hadd
        _ = api.owners m params T₁ ++ [(api.added params T₁).uuid] :=
            owners_add hfaith hparams.has
        _ = api.owners m params T ++ [(api.added params T₁).uuid] := by rw [owners_congr hsame]
        _ = [(api.added params T₁).uuid] := by
            rw [sortedOwners_eq_nil.mp hsorted, List.nil_append]
    · exact computeDiff_compared htrans hparams (htrans.fill_holds params hparams.text) _
  · -- somebody was found: the rerun of the lookup shows what the diff has compared
    have howners := owners_of_sortedOwners hsorted
    obtain ⟨T₃, hrun, hsame⟩ := run_resolve_table hfaith hr howners
    obtain ⟨heq, rfl, -⟩ := (Prog.returns_of_run hrun).unique hres
    obtain rfl : some (api.compared params r) = existing := congrArg Prod.fst heq
    simp only [converge, if_true, compared_uuid] at hconv
    split at hconv
    · -- it was met already
      rename_i hdiff
      obtain ⟨u, T₄, t₅, t₆, hlog, hret, -⟩ := Prog.returns_bind.mp hconv
      obtain ⟨rfl, -⟩ := (returns_log ..).mp hlog
      obtain ⟨rfl, rfl, -⟩ := Prog.returns_ret.mp hret
      refine ⟨r, ?_, ?_, by simpa using hdiff, rfl⟩
      · rw [hsame]
        exact hr
      · rw [owners_congr hsame, howners]
    · -- it was changed
      obtain ⟨hset, huuid, -⟩ := returns_update_table hconv
      have hstate : T'.resources = (api.set r.uuid params T₃).resources := hset
      have howner : r.uuid ∈ api.owners m params T₃ := by
        rw [owners_congr hsame, howners]
        exact List.mem_singleton_self _
      refine ⟨api.changed params r, ?_, ?_, ?_, huuid⟩
      · rw [hset]
        refine List.mem_map.mpr ⟨r, by rw [hsame]; exact hr, ?_⟩
        rw [if_pos rfl]
      · calc api.owners m params T' = api.owners m params (api.set r.uuid params T₃) :=
              owners_congr hstate
          _ = api.owners m params T₃ := owners_set hfaith hparams.has howner
          _ = api.owners m params T := owners_congr hsame
          _ = [r.uuid] := howners
      · exact computeDiff_compared htrans hparams (htrans.merge_holds _ params hparams.text) _

/-- A table without the identity is left alone by state absent. -/
theorem run_absent_table (hfaith : Faithful api m params)
    (hnil : api.owners m params T = []) :
    ∃ res T', (m.ensure "absent" params).run (api.serve m.config.payloadKey) T = (.ok res, T') ∧
      res.changed = false ∧ res.action = .noop ∧ res.uuid = none := by
  have hrows := found_nil hfaith (sortedOwners_eq_nil.mpr hnil)
  have hlook := @run_lookup_of_list _ (api.serve m.config.payloadKey) m T _ params false false _
    (run_list (m.identity.searchPhrase params)) (by rw [hrows]; exact Nat.zero_le 1)
  rw [hrows] at hlook
  have hres : (m.resolve params false none false).run (api.serve m.config.payloadKey) T =
      (.ok (none, []), T.tick) := by
    rw [resolve, Prog.run_bind_of_ok hlook]
    rfl
  have hvalid : (m.validate "absent" params).run (api.serve m.config.payloadKey) T =
      (.ok (), T) := by
    simp [validate]
  have hconv : (m.converge "absent" params false false none).run
      (api.serve m.config.payloadKey) T.tick =
      (.ok { changed := false, action := .noop }, T.tick) := by
    simp [converge, Prog.run_bind]
  exact ⟨_, _, run_ensure hvalid hres hconv, rfl, rfl, rfl⟩

/-- A call that returned is not to be made again: the same call changes nothing, names
the same resource and writes nothing. -/
theorem ensure_again_is_noop (htrans : Transparent api m) (hparams : Declares m params)
    (T : Table) :
    (∀ r T', (m.ensure "present" params).run (api.serve m.config.payloadKey) T = (.ok r, T') →
      ∃ r' T'', (m.ensure "present" params).run (api.serve m.config.payloadKey) T' =
          (.ok r', T'') ∧
        r'.changed = false ∧ r'.action = .noop ∧ r'.uuid = r.uuid ∧
        ∀ qr ∈ (m.ensure "present" params).trace (api.serve m.config.payloadKey) T',
          qr.1.isWrite = false) ∧
    (∀ r T', (m.ensure "absent" params).run (api.serve m.config.payloadKey) T = (.ok r, T') →
      ∃ r' T'', (m.ensure "absent" params).run (api.serve m.config.payloadKey) T' =
          (.ok r', T'') ∧
        r'.changed = false ∧ r'.action = .noop ∧ r'.uuid = none ∧
        ∀ qr ∈ (m.ensure "absent" params).trace (api.serve m.config.payloadKey) T',
          qr.1.isWrite = false) := by
  have hfaith := htrans.faithful hparams
  -- what reports no change has written nothing
  have hunwritten : ∀ state r (T₁ T₂ : Table), (m.ensure state params).run
      (api.serve m.config.payloadKey) T₁ = (.ok r, T₂) → r.changed = false →
      ∀ qr ∈ (m.ensure state params).trace (api.serve m.config.payloadKey) T₁,
        qr.1.isWrite = false := by
    intro state r T₁ T₂ hrun hchanged qr hqr
    have hnone := (ensure_changed_iff_writes (Prog.returns_of_run hrun)).1.mp hchanged
    by_contra hw
    exact hnone ⟨qr, hqr, by simpa using hw⟩
  constructor
  · intro res T' hrun
    have hvalid : m.accepts params := by
      obtain ⟨⟨⟩, T₁, hval, -⟩ := Prog.run_bind_eq_ok.mp hrun
      exact accepts_of_run_validate hval
    obtain ⟨r, hr, howners, hdiff, huuid⟩ :=
      returns_present_settled htrans hparams (Prog.returns_of_run hrun)
    obtain ⟨res', T'', hagain, hchanged, hnoop, huuid'⟩ :=
      run_noop_table hfaith hvalid hr howners hdiff
    exact ⟨res', T'', hagain, hchanged, hnoop, huuid'.trans huuid.symm,
      hunwritten "present" res' T' T'' hagain hchanged⟩
  · intro res T' hrun
    obtain ⟨hnil, -, -⟩ := returns_absent_table hfaith (Prog.returns_of_run hrun)
    obtain ⟨res', T'', hagain, hchanged, hnoop, huuid⟩ := run_absent_table hfaith hnil
    exact ⟨res', T'', hagain, hchanged, hnoop, huuid,
      hunwritten "absent" res' T' T'' hagain hchanged⟩

/-- The named field, its text wrapped as a choice. -/
def wrapped (fields : Obj) (key : String) : Obj :=
  match fields.lookup key with
  | some (.str s) => [(key, .obj [("selected", .str s)])]
  | _ => []

/-- The named block with one of its texts. -/
def block (fields : Obj) (key inner : String) : Obj :=
  match fields.lookup key with
  | some (.obj c) => [(key, .obj (wrapped c inner))]
  | _ => []

theorem showsAt_wrapped (fields : Obj) (key k : String) :
    ShowsAt fields (wrapped fields key) k := by
  intro w hw
  unfold wrapped at hw
  split at hw
  · rename_i s hs
    obtain ⟨rfl, rfl⟩ : k = key ∧ Json.obj [("selected", .str s)] = w := by
      by_cases hk : k = key
      · simpa [hk] using hw
      · have hk' : (k == key) = false := by simpa using hk
        simp [List.lookup_cons, hk'] at hw
    exact ⟨_, hs, .choice k s⟩
  · cases hw

theorem showsAt_block (fields : Obj) (key inner k : String) :
    ShowsAt fields (block fields key inner) k := by
  intro w hw
  unfold block at hw
  split at hw
  · rename_i c hc
    obtain ⟨rfl, rfl⟩ : k = key ∧ Json.obj (wrapped c inner) = w := by
      by_cases hk : k = key
      · simpa [hk] using hw
      · have hk' : (k == key) = false := by simpa using hk
        simp [List.lookup_cons, hk'] at hw
    refine ⟨_, hc, .block k c _ (fun k' w' hw' => ?_) fun k' v w' hv hw' => ?_⟩
    · obtain ⟨v, hv, -⟩ := showsAt_wrapped c inner k' w' hw'
      exact ⟨v, hv⟩
    · obtain ⟨v', hv', hshows⟩ := showsAt_wrapped c inner k' w' hw'
      rw [hv, Option.some.injEq] at hv'
      exact hv' ▸ hshows
  · cases hw

/-- A server whose rows show the name only, and whose items wrap a description and show
one block. -/
def wrappingServer : TableServer :=
  let row (r : Resource) : Obj := [("uuid", .str r.uuid), ("name", .str (r.fields.text "name"))]
  { plainServer [("descr", .str "")] with
    row := row
    item := fun r => wrapped r.fields "descr" ++ block r.fields "opts" "ntp"
    keep := fun phrase r => containsPhrase phrase (row r)
    row_uuid := fun _ => rfl }

theorem wrappingServer_transparent : Transparent wrappingServer sampleManager where
  fill_holds _ h := holdsAll_mergeFields h
  merge_holds _ _ h := holdsAll_mergeFields h
  row_match r k hk := by
    obtain rfl : k = "name" := List.mem_singleton.mp hk
    simp [wrappingServer, List.lookup_cons]
  row_shows r k hk huuid w hw := by
    have hname : (k == "name") = false := by
      simpa using fun heq => hk (List.mem_singleton.mpr heq)
    have huuid' : (k == "uuid") = false := by simpa using huuid
    simp [wrappingServer, List.lookup_cons, hname, huuid'] at hw
  item_shows r k _ w hw := by
    change (wrapped r.fields "descr" ++ block r.fields "opts" "ntp").lookup k = some w at hw
    rw [List.lookup_append, Option.or_eq_some_iff] at hw
    rcases hw with hw | ⟨-, hw⟩
    · exact showsAt_wrapped r.fields "descr" k w hw
    · exact showsAt_block r.fields "opts" "ntp" k w hw
  keep_match phrase r k hk h := by
    have hrow : wrappingServer.keep phrase r = containsPhrase phrase (wrappingServer.row r) := rfl
    rw [hrow]
    exact containsPhrase_of_text h

theorem ensure_again_is_noop_wrapping :
    let params : Obj :=
      [("name", .str "a"), ("descr", .str "x"), ("opts", .obj [("ntp", .str "t")])]
    let T : Table := ⟨⟨
      [⟨"u1", [("name", .str "a"), ("opts", .obj [("dns", .str "d")])], by decide⟩],
      by simp⟩, 0⟩
    ∃ r T', (sampleManager.ensure "present" params).run (wrappingServer.serve "item") T =
        (.ok r, T') ∧
      ∃ r' T'', (sampleManager.ensure "present" params).run (wrappingServer.serve "item") T' =
          (.ok r', T'') ∧
        r'.changed = false ∧ r'.action = .noop ∧ r'.uuid = r.uuid ∧
        ∀ qr ∈ (sampleManager.ensure "present" params).trace (wrappingServer.serve "item") T',
          qr.1.isWrite = false := by
  intro params T
  have hparams : Declares sampleManager params := by
    refine ⟨by simp [params, IsText, AllText], ?_, rfl⟩
    intro k hk
    obtain rfl : k = "name" := List.mem_singleton.mp hk
    exact ⟨"a", rfl⟩
  have hlen : (wrappingServer.sortedOwners sampleManager params T).length ≤ 1 := by
    rw [sortedOwners, List.length_insertionSort, owners, List.length_map]
    exact List.length_filter_le _ T.resources.entries
  obtain ⟨r, T', hrun⟩ := @run_present_table wrappingServer sampleManager params T false false
    (wrappingServer_transparent.faithful hparams) (Or.inl rfl) (Or.inr hlen)
  exact ⟨r, T', hrun, (ensure_again_is_noop wrappingServer_transparent hparams T).1 r T' hrun⟩

end TableServer
end Opnsense
