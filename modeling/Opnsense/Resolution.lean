import Opnsense.Identity

namespace Opnsense

/-- Each row bears a uuid of its own. -/
structure DistinctUuids (rows : List Obj) : Prop where
  nodup : (rows.map (·.text "uuid")).Nodup
  ne : ∀ row ∈ rows, row.text "uuid" ≠ ""

/-- A server-side filter that keeps a row when a match key of it contains the phrase. -/
def KeepsSubstrings (keys : List String) (keep : String → Obj → Bool) : Prop :=
  ∀ phrase row, ∀ k ∈ keys, phrase.toList <:+: (row.text k).toList → keep phrase row = true

instance : IsTrans Obj byUuid := ⟨fun _ _ _ h h' => le_trans h h'⟩

instance : Std.Total byUuid := ⟨fun a b => le_total (a.text "uuid") (b.text "uuid")⟩

variable {keys : List String} {params : Obj} {rows answer : List Obj}

theorem matchingRows_pairwise (keys : List String) (params : Obj) (rows : List Obj) :
    (matchingRows keys params rows).Pairwise byUuid :=
  List.pairwise_insertionSort byUuid _

namespace DistinctUuids

theorem has (h : DistinctUuids rows) {row : Obj} (hrow : row ∈ rows) : row.has "uuid" = true := by
  by_contra hnot
  exact h.ne row hrow (Obj.text_of_not_has (by simpa using hnot))

theorem perm (h : DistinctUuids rows) (hperm : answer.Perm rows) : DistinctUuids answer where
  nodup := (hperm.map _).nodup_iff.mpr h.nodup
  ne row hrow := h.ne row (hperm.subset hrow)

theorem filter (h : DistinctUuids rows) (p : Obj → Bool) : DistinctUuids (rows.filter p) where
  nodup := h.nodup.sublist (List.filter_sublist.map _)
  ne row hrow := h.ne row (List.mem_of_mem_filter hrow)

theorem matchingRows (h : DistinctUuids rows) : DistinctUuids (matchingRows keys params rows) :=
  (h.filter (sameIdentity keys params)).perm (matchingRows_perm keys params rows)

end DistinctUuids

/-- The uuids increase strictly, so no row is found twice. -/
theorem matchingRows_strict (h : DistinctUuids rows) :
    ((matchingRows keys params rows).map (·.text "uuid")).Pairwise (· < ·) := by
  have hsorted : ((matchingRows keys params rows).map (·.text "uuid")).Pairwise (· ≤ ·) :=
    List.pairwise_map.mpr (matchingRows_pairwise keys params rows)
  have hnodup : ((matchingRows keys params rows).map (·.text "uuid")).Pairwise (· ≠ ·) :=
    h.matchingRows.nodup
  exact (hsorted.and hnodup).imp fun hle => lt_of_le_of_ne hle.1 hle.2

/-- Two rows of one table with the same uuid are one row, so only one order is sorted. -/
theorem matchingRows_eq_of_perm (h : DistinctUuids rows) {rows' : List Obj}
    (hperm : (rows'.filter (sameIdentity keys params)).Perm
      (rows.filter (sameIdentity keys params))) :
    matchingRows keys params rows' = matchingRows keys params rows := by
  have hfound : (matchingRows keys params rows').Perm (matchingRows keys params rows) :=
    (matchingRows_perm _ _ _).trans (hperm.trans (matchingRows_perm _ _ _).symm)
  refine List.Perm.eq_of_pairwise ?_ (matchingRows_pairwise _ _ _)
    (matchingRows_pairwise _ _ _) hfound
  intro a b ha hb hab hba
  have ha' : a ∈ matchingRows keys params rows := hfound.subset ha
  exact List.inj_on_of_nodup_map h.matchingRows.nodup ha' hb (le_antisymm hab hba)

namespace IdentityResolver
open Interaction

variable {σ : Type} {srv : Appliance σ} {s s' : σ} {r : IdentityResolver}
  {listFn : String → M Json}

theorem searchPhrase_infix (r : IdentityResolver) (params : Obj) :
    ∃ k ∈ r.matchKeys, (r.searchPhrase params).toList <:+: (params.text k).toList := by
  unfold searchPhrase
  rcases hfind : (r.matchKeys.map params.text).find? (· != "") with _ | v
  · obtain ⟨k, hk⟩ := List.exists_mem_of_ne_nil _ r.matchKeys_ne
    exact ⟨k, hk, List.nil_infix⟩
  · obtain ⟨k, hk, rfl⟩ := List.mem_map.mp (List.mem_of_find?_eq_some hfind)
    exact ⟨k, hk, List.infix_rfl⟩

theorem keep_searchPhrase {keep : String → Obj → Bool} (hkeep : KeepsSubstrings r.matchKeys keep)
    {row : Obj} (hsame : sameIdentity r.matchKeys params row = true) :
    keep (r.searchPhrase params) row = true := by
  obtain ⟨k, hk, hinfix⟩ := r.searchPhrase_infix params
  apply hkeep _ row k hk
  rwa [sameIdentity_iff.mp hsame k hk]

/-- What the endpoint leaves out was no match. -/
theorem filter_keep {keep : String → Obj → Bool} (hkeep : KeepsSubstrings r.matchKeys keep) :
    (rows.filter (keep (r.searchPhrase params))).filter (sameIdentity r.matchKeys params) =
      rows.filter (sameIdentity r.matchKeys params) := by
  rw [List.filter_filter]
  apply List.filter_congr
  intro row _
  cases hsame : sameIdentity r.matchKeys params row with
  | false => simp
  | true => simp [keep_searchPhrase hkeep hsame]

theorem run_findMatching (phrase : Option String)
    (hlist : (listFn (phrase.getD (r.searchPhrase params))).run srv s =
      (.ok (.arr (rows.map .obj)), s')) :
    (r.findMatching params listFn phrase).run srv s =
      (.ok (matchingRows r.matchKeys params rows), s') := by
  rw [findMatching, Prog.run_bind_of_ok hlist]
  simp [iterate, Prog.run_bind]

/-- The uuids of rows that have one, as they came. -/
theorem mapM_uuidOf {found : List Obj} (h : ∀ row ∈ found, row.has "uuid" = true) :
    ∃ uuids, found.mapM uuidOf = .ok uuids ∧ uuids.map some = found.map (·.lookup "uuid") := by
  induction found with
  | nil => exact ⟨[], rfl, rfl⟩
  | cons row rest ih =>
    obtain ⟨u, hu⟩ := Obj.has_iff.mp (h row (List.mem_cons_self ..))
    obtain ⟨us, hus, hmap⟩ := ih fun row' hrow' => h row' (List.mem_cons_of_mem _ hrow')
    refine ⟨u :: us, ?_, by simp [hu, hmap]⟩
    simp [List.mapM_cons, uuidOf, hu, hus, bind, Except.bind, pure, Except.pure]

/-- A row without one stops the reading. -/
theorem has_of_mapM_uuidOf {found : List Obj} {uuids : List Json}
    (h : found.mapM uuidOf = .ok uuids) : ∀ row ∈ found, row.has "uuid" = true := by
  induction found generalizing uuids with
  | nil => simp
  | cons row rest ih =>
    rw [List.mapM_cons] at h
    cases hrow : uuidOf row with
    | error e =>
      rw [hrow] at h
      cases h
    | ok u =>
      cases hrest : rest.mapM uuidOf with
      | error e =>
        rw [hrow, hrest] at h
        cases h
      | ok us =>
        rw [List.forall_mem_cons]
        refine ⟨?_, ih hrest⟩
        cases hlookup : row.lookup "uuid" with
        | none => simp [uuidOf, hlookup] at hrow
        | some v => simp [Obj.has, hlookup]

/-- What a lookup of the single resource makes of the rows found. -/
def single (r : IdentityResolver) (params : Obj) (found : List Obj) (uuids : List Json) :
    Except Exc (Option Obj) :=
  match found with
  | [] => .ok none
  | [row] => .ok (some row)
  | _ => .error (r.ambiguousMatch params found.length uuids)

theorem run_findExisting (huuid : ∀ row ∈ rows, row.has "uuid" = true)
    (hlist : (listFn (r.searchPhrase params)).run srv s = (.ok (.arr (rows.map .obj)), s')) :
    ∃ uuids, uuids.map some = (matchingRows r.matchKeys params rows).map (·.lookup "uuid") ∧
      (r.findExisting params listFn).run srv s =
        (r.single params (matchingRows r.matchKeys params rows) uuids, s') := by
  have hfind : (r.findMatching params listFn (some (r.searchPhrase params))).run srv s =
      (.ok (matchingRows r.matchKeys params rows), s') := run_findMatching _ hlist
  obtain ⟨uuids, hmap, hids⟩ := @mapM_uuidOf (matchingRows r.matchKeys params rows)
    fun row hrow => huuid row (mem_matchingRows.mp hrow).1
  refine ⟨uuids, hids, ?_⟩
  rw [findExisting, Prog.run_bind, run_logErrorUnless, Prog.run_bind_of_ok hfind]
  rcases hfound : matchingRows r.matchKeys params rows with _ | ⟨row, _ | ⟨row', rest⟩⟩
  · simp [Prog.run_bind, single]
  · simp [Prog.run_bind, single]
  · rw [hfound] at hmap
    simp [Prog.run_bind, hmap, single]

/-- Both lookups over these rows: the matching ones are `found`, and the single resource is
none, the row found, or an error that names the uuids found. -/
def ResolvesTo (r : IdentityResolver) (params : Obj) (found answer : List Obj) : Prop :=
  ∀ (σ : Type) (srv : Appliance σ) (listFn : String → M Json) (s s' : σ),
    (listFn (r.searchPhrase params)).run srv s = (.ok (.arr (answer.map .obj)), s') →
    (r.findMatching params listFn).run srv s = (.ok found, s') ∧
    (found = [] → (r.findExisting params listFn).run srv s = (.ok none, s')) ∧
    (∀ row, found = [row] → (r.findExisting params listFn).run srv s = (.ok (some row), s')) ∧
    (2 ≤ found.length → ∃ uuids, uuids.map some = found.map (·.lookup "uuid") ∧
      (r.findExisting params listFn).run srv s =
        (.error (r.ambiguousMatch params found.length uuids), s'))

theorem resolvesTo_matchingRows (h : DistinctUuids answer) :
    r.ResolvesTo params (matchingRows r.matchKeys params answer) answer := by
  intro σ srv listFn s s' hlist
  obtain ⟨uuids, hids, hrun⟩ := run_findExisting (fun _ => h.has) hlist
  refine ⟨run_findMatching none hlist, fun hnil => ?_, fun row hone => ?_, fun hmany => ?_⟩
  · rw [hrun, hnil]
    rfl
  · rw [hrun, hone]
    rfl
  · refine ⟨uuids, hids, ?_⟩
    rw [hrun]
    rcases hfound : matchingRows r.matchKeys params answer with _ | ⟨row, _ | ⟨row', rest⟩⟩
    · simp [hfound] at hmany
    · simp [hfound] at hmany
    · rfl

/-- Resolution finds exactly the rows of the identity, once each and ordered by uuid, from
any arrangement of the rows and behind any filter by substring. -/
theorem resolution_exact (r : IdentityResolver) (params : Obj) (rows : List Obj)
    (hrows : DistinctUuids rows) :
    ∃ found,
      (∀ row, row ∈ found ↔ row ∈ rows ∧ ∀ k ∈ r.matchKeys, row.text k = params.text k) ∧
      (found.map (·.text "uuid")).Pairwise (· < ·) ∧
      (∀ answer, answer.Perm rows → r.ResolvesTo params found answer) ∧
      (∀ keep, KeepsSubstrings r.matchKeys keep → ∀ answer,
        answer.Perm (rows.filter (keep (r.searchPhrase params))) →
        r.ResolvesTo params found answer) := by
  refine ⟨matchingRows r.matchKeys params rows, fun row => ?_, matchingRows_strict hrows,
    fun answer hperm => ?_, fun keep hkeep answer hperm => ?_⟩
  · rw [mem_matchingRows, sameIdentity_iff]
  · have hfilter := hperm.filter (sameIdentity r.matchKeys params)
    rw [← matchingRows_eq_of_perm hrows hfilter]
    exact resolvesTo_matchingRows (hrows.perm hperm)
  · have hfilter := hperm.filter (sameIdentity r.matchKeys params)
    rw [filter_keep hkeep] at hfilter
    rw [← matchingRows_eq_of_perm hrows hfilter]
    exact resolvesTo_matchingRows ((hrows.filter _).perm hperm)

/-- Hosts of a domain: the first match key is missing from the parameters, and two rows
share the identity. -/
def domainResolver : IdentityResolver where
  matchKeys := ["hostname", "domain"]
  endpoint := "unbound/settings/searchHostOverride"
  managerName := "UbHostOverride"
  matchKeys_ne := by simp

def domainRows : List Obj :=
  [[("uuid", .str "c"), ("domain", .str "lan")],
    [("uuid", .str "b"), ("hostname", .str "web"), ("domain", .str "lan")],
    [("uuid", .str "a"), ("hostname", .str ""), ("domain", .str "lan")]]

theorem domainRows_distinct : DistinctUuids domainRows where
  nodup := by decide
  ne := by decide

example : (matchingRows domainResolver.matchKeys [("domain", .str "lan")] domainRows).map
    (·.text "uuid") = ["a", "c"] := by decide

theorem resolution_exact_domain :
    ∃ found,
      (∀ row, row ∈ found ↔ row ∈ domainRows ∧
        ∀ k ∈ domainResolver.matchKeys, row.text k = Obj.text [("domain", .str "lan")] k) ∧
      (found.map (·.text "uuid")).Pairwise (· < ·) ∧
      (∀ answer, answer.Perm domainRows →
        domainResolver.ResolvesTo [("domain", .str "lan")] found answer) ∧
      (∀ keep, KeepsSubstrings domainResolver.matchKeys keep → ∀ answer,
        answer.Perm (domainRows.filter
          (keep (domainResolver.searchPhrase [("domain", .str "lan")]))) →
        domainResolver.ResolvesTo [("domain", .str "lan")] found answer) :=
  resolution_exact domainResolver [("domain", .str "lan")] domainRows domainRows_distinct

end IdentityResolver
end Opnsense
