import Opnsense.Ambiguity
import Opnsense.Snapshots
import Opnsense.Verdict

/-! Identity lookup against a table of any size. A search answers one page, and the
managers ask for the first one only. -/
namespace Opnsense
open Interaction

/-- Page `current` of the rows, counting from one. -/
def page {α : Type} (rows : List α) (rowCount current : ℕ) : List α :=
  (rows.drop ((current - 1) * rowCount)).take rowCount

theorem page_one {α : Type} (rows : List α) (rowCount : ℕ) :
    page rows rowCount 1 = rows.take rowCount := by
  simp [page]

/-- What a search sees of the table: the first page of the rows the phrase keeps. -/
def seen (keep : String → Obj → Bool) (table : List Obj) (phrase : String) : List Obj :=
  page (table.filter (keep phrase)) defaultRowCount 1

theorem seen_sublist (keep : String → Obj → Bool) (table : List Obj) (phrase : String) :
    (seen keep table phrase).Sublist table := by
  rw [seen, page_one]
  exact (List.take_sublist _ _).trans List.filter_sublist

/-- At this moment the appliance answers searches of the table page by page. -/
def Paged {σ : Type} (srv : Appliance σ) (s : σ) (keep : String → Obj → Bool)
    (table : List Obj) : Prop :=
  ∀ action phrase rowCount, ∃ s', srv (.search action phrase rowCount) s =
    (.ok (.arr ((page (table.filter (keep phrase)) rowCount 1).map .obj)), s')

namespace BaseManager

variable {σ : Type} {srv : Appliance σ} {m : BaseManager} {s s' : σ} {params : Obj}
  {keep : String → Obj → Bool} {table : List Obj} {state : String}

/-- The rows of the identity among those seen, in the order of the lookup. -/
def seenOwners (m : BaseManager) (params : Obj) (keep : String → Obj → Bool)
    (table : List Obj) : List Obj :=
  matchingRows m.matchKeys params (seen keep table (m.identity.searchPhrase params))

/-- The rows of the identity in the whole table. -/
def tableOwners (m : BaseManager) (params : Obj) (table : List Obj) : List Obj :=
  table.filter (sameIdentity m.matchKeys params)

theorem seenOwners_length_le :
    (m.seenOwners params keep table).length ≤ (m.tableOwners params table).length := by
  rw [seenOwners, (matchingRows_perm _ _ _).length_eq]
  exact ((seen_sublist keep table _).filter _).length_le

theorem run_list_paged (hpaged : Paged srv s keep table) :
    ∃ s₁, (m.list (m.identity.searchPhrase params)).run srv s =
      (.ok (.arr ((seen keep table (m.identity.searchPhrase params)).map .obj)), s₁) := by
  obtain ⟨s₁, hs₁⟩ := hpaged (m.listAction.getD m.config.search)
    (m.identity.searchPhrase params) defaultRowCount
  exact ⟨s₁, (run_list_eq _).trans hs₁⟩

/-- What a lookup that saw the whole table guarantees. -/
structure SeesTable (srv : Appliance σ) (s : σ) (m : BaseManager) (params : Obj)
    (table : List Obj) : Prop where
  create_only : ∀ action key sent reply,
    (.create action key sent, reply) ∈ (m.ensure "present" params).trace srv s →
    m.tableOwners params table = []
  noop_only : ∀ r s', (m.ensure "absent" params).run srv s = (.ok r, s') → r.action = .noop →
    m.tableOwners params table = []
  ambiguous : ∀ state, state = "present" ∧ m.accepts params ∨ state = "absent" →
    2 ≤ (m.tableOwners params table).length →
    ∃ e s', (m.ensure state params).run srv s = (.error e, s') ∧ e.isAmbiguous = true

/-- Any request but an add. -/
def NoCreate : Request → Prop
  | .create .. => False
  | _ => True

theorem noCreate_of_read (q : Request) (h : q.isRead = true) : NoCreate q := by
  cases q with
  | create => cases h
  | _ => trivial

theorem asks_update_noCreate (uuid : Json) :
    (m.update uuid params false).Asks NoCreate :=
  asks_update_within noCreate_of_read (asks_apply_within fun _ _ => trivial) fun _ => trivial

/-- An add is sent only when the lookup found nothing. -/
theorem seenOwners_of_create (hpaged : Paged srv s keep table) {action key : String} {sent : Obj}
    {reply : Reply}
    (h : (.create action key sent, reply) ∈ (m.ensure "present" params).trace srv s) :
    m.seenOwners params keep table = [] := by
  -- reads are no adds
  have hunread : ∀ {α : Type} {p : M α} {s₁ : σ}, p.Asks ReadOnly →
      (Request.create action key sent, reply) ∉ p.trace srv s₁ :=
    fun hp hmem => absurd (hp.of_mem_trace hmem) (by simp [Request.isRead])
  rcases Prog.mem_trace_bind h with hval | ⟨⟨⟩, s₀, hval, hrest⟩
  · exact (hunread (asks_validate _) hval).elim
  · have hstart : s₀ = s := by
      rw [← @run_validate_snd _ srv m s params "present", hval]
    subst hstart
    rcases Prog.mem_trace_bind hrest with hres | ⟨⟨existing, deduped⟩, s₁, hres, hrest⟩
    · exact (hunread (asks_resolve (Or.inr rfl)) hres).elim
    · cases existing with
      | some existing =>
        have hasks : (m.converge "present" params false false (some existing) >>= fun r =>
            (pure (withDedupe r deduped) : M EnsureResult)).Asks NoCreate := by
          refine Prog.asks_bind ?_ fun _ => trivial
          simp only [converge, if_true]
          split
          · trivial
          · exact asks_update_noCreate _
        exact (hasks.of_mem_trace hrest).elim
      | none =>
        obtain ⟨found, s₂, t₁, t₂, hlook, hhyd, -⟩ := returns_resolve (Prog.returns_of_run hres)
        obtain rfl := found_of_returns_hydrateNested hhyd
        obtain ⟨s₃, hlist⟩ := @run_list_paged _ srv m s₀ params keep table hpaged
        obtain ⟨-, hhead⟩ := returns_lookup_of_list hlist hlook
        exact List.head?_eq_none_iff.mp hhead.symm

/-- A noop with state absent found nothing. -/
theorem seenOwners_of_noop (hpaged : Paged srv s keep table) {r : EnsureResult}
    (h : (m.ensure "absent" params).run srv s = (.ok r, s')) (hnoop : r.action = .noop) :
    m.seenOwners params keep table = [] := by
  obtain ⟨existing, deduped, s₁, t₁, t₂, r₀, hres, hconv, -, rfl⟩ :=
    returns_ensure (Prog.returns_of_run h)
  obtain ⟨found, s₂, t₃, t₄, hlook, hhyd, -⟩ := returns_resolve hres
  obtain rfl := deduped_of_returns_lookup hlook
  have hverdict := (returns_converge hconv).1
  have hnoop₀ : r₀.action = .noop := hnoop
  have hne : ("absent" = "present") = False := by simp
  cases existing with
  | some existing =>
    simp only [verdict, hne, if_false, Prod.mk.injEq, hnoop₀] at hverdict
    cases hverdict.2
  | none =>
    obtain rfl := found_of_returns_hydrateNested hhyd
    obtain ⟨s₃, hlist⟩ := @run_list_paged _ srv m s params keep table hpaged
    obtain ⟨-, hhead⟩ := returns_lookup_of_list hlist hlook
    exact List.head?_eq_none_iff.mp hhead.symm

/-- Nothing found is a noop with state absent. -/
theorem run_absent_unseen (hpaged : Paged srv s keep table)
    (hunseen : m.seenOwners params keep table = []) :
    ∃ r s', (m.ensure "absent" params).run srv s = (.ok r, s') ∧ r.action = .noop := by
  obtain ⟨s₁, hlist⟩ := @run_list_paged _ srv m s params keep table hpaged
  have hrows : matchingRows m.matchKeys params
      (seen keep table (m.identity.searchPhrase params)) = [] := hunseen
  have hlook := @run_lookup_of_list _ srv m s s₁ params false false _ hlist
    (by rw [hrows]; exact Nat.zero_le 1)
  rw [hrows] at hlook
  have hres : (m.resolve params false none false).run srv s = (.ok (none, []), s₁) := by
    rw [resolve, Prog.run_bind_of_ok hlook]
    rfl
  have hvalid : (m.validate "absent" params).run srv s = (.ok (), s) := by simp [validate]
  have hconv : (m.converge "absent" params false false none).run srv s₁ =
      (.ok { changed := false, action := .noop }, s₁) := by
    simp [converge, Prog.run_bind]
  exact ⟨_, _, run_ensure hvalid hres hconv, rfl⟩

/-- Two rows seen are an error, an ambiguous match once they all bear a uuid. -/
theorem run_ensure_of_two (hpaged : Paged srv s keep table)
    (hvalid : state = "present" ∧ m.accepts params ∨ state = "absent")
    (hlen : 2 ≤ (m.seenOwners params keep table).length) :
    ∃ e s', (m.ensure state params).run srv s = (.error e, s') ∧
      (e.isAmbiguous = true ↔
        ∀ row ∈ m.seenOwners params keep table, row.has "uuid" = true) := by
  obtain ⟨s₁, hlist⟩ := @run_list_paged _ srv m s params keep table hpaged
  obtain ⟨e, hfind, he⟩ := run_findExisting_of_two hlist hlen
  have hval : (m.validate state params).run srv s = (.ok (), s) := by
    rcases hvalid with ⟨rfl, hvalid⟩ | rfl
    · exact run_validate_of_accepts hvalid
    · simp [validate]
  have hlook : (m.lookup params false false).run srv s = (.error e, s₁) := by
    simp [lookup, Prog.run_bind_of_error hfind]
  have hres : (m.resolve params false none false).run srv s = (.error e, s₁) := by
    rw [resolve, Prog.run_bind_of_error hlook]
  exact ⟨e, s₁, by rw [ensure, Prog.run_bind_of_ok hval, Prog.run_bind_of_error hres], he⟩

/-- One row seen, or none, is not ambiguous, whatever the other replies are. -/
theorem seen_two_of_ambiguous (hpaged : Paged srv s keep table) (hclient : NeverAmbiguous srv)
    {e : Exc} (h : (m.ensure "absent" params).run srv s = (.error e, s'))
    (he : e.isAmbiguous = true) : 2 ≤ (m.seenOwners params keep table).length := by
  by_contra hlen
  have hunambiguous : ∀ {α : Type} {p : M α} {s₁ s₂ : σ},
      p.RaisesOnly ClientReply Unambiguous → p.run srv s₁ ≠ (.error e, s₂) := by
    intro α p s₁ s₂ hp hrun
    have hfine : e.isAmbiguous = false := hp.run_error (fun q s e' => hclient q s e') hrun
    rw [he] at hfine
    cases hfine
  obtain ⟨s₁, hlist⟩ := @run_list_paged _ srv m s params keep table hpaged
  have hfew : (matchingRows m.matchKeys params
      (seen keep table (m.identity.searchPhrase params))).length ≤ 1 := by
    change (m.seenOwners params keep table).length ≤ 1
    omega
  have hlook := @run_lookup_of_list _ srv m s s₁ params false false _ hlist hfew
  have hval : (m.validate "absent" params).run srv s = (.ok (), s) := by simp [validate]
  rw [ensure, Prog.run_bind_of_ok hval] at h
  rcases Prog.run_bind_eq_error.mp h with hres | ⟨⟨existing, deduped⟩, s₂, -, hconv⟩
  · rw [resolve, Prog.run_bind_of_ok hlook] at hres
    refine hunambiguous (Prog.raisesOnly_bind (raises_hydrateNested unambiguous_of_python _)
      fun _ => ?_) hres
    trivial
  · refine hunambiguous (Prog.raisesOnly_bind (raises_converge unambiguous_of_python _ _)
      fun _ => ?_) hconv
    trivial

/-- The first page of the kept rows shows as many owners of the identity as the table has, counted
up to two, and if it shows two they all bear a uuid. -/
def OwnersShown (m : BaseManager) (params : Obj) (keep : String → Obj → Bool)
    (table : List Obj) : Prop :=
  min 2 (m.seenOwners params keep table).length = min 2 (m.tableOwners params table).length ∧
    (2 ≤ (m.seenOwners params keep table).length →
      ∀ row ∈ m.seenOwners params keep table, row.has "uuid" = true)

/-- The lookup sees the whole table exactly when the first page of the kept rows shows enough. -/
theorem seesTable_iff (hpaged : Paged srv s keep table) (hclient : NeverAmbiguous srv) :
    SeesTable srv s m params table ↔ m.OwnersShown params keep table := by
  have hle := @seenOwners_length_le m params keep table
  constructor
  · intro hsees
    refine ⟨?_, fun htwo => ?_⟩
    · by_contra hne
      -- the page shows nobody though somebody is there, or one of several
      have hcases : (m.seenOwners params keep table).length = 0 ∧
            1 ≤ (m.tableOwners params table).length ∨
          (m.seenOwners params keep table).length = 1 ∧
            2 ≤ (m.tableOwners params table).length := by omega
      rcases hcases with ⟨hzero, hone⟩ | ⟨hone, htwo⟩
      · obtain ⟨r, s', hrun, hnoop⟩ :=
          run_absent_unseen hpaged (List.length_eq_zero_iff.mp hzero)
        rw [hsees.noop_only r s' hrun hnoop] at hone
        simp at hone
      · obtain ⟨e, s', hrun, he⟩ := hsees.ambiguous "absent" (Or.inr rfl) htwo
        have hseen := seen_two_of_ambiguous hpaged hclient hrun he
        omega
    · obtain ⟨e, s₁, hrun, he⟩ := hsees.ambiguous "absent" (Or.inr rfl) (htwo.trans hle)
      obtain ⟨e', s₂, hrun', hiff⟩ := run_ensure_of_two hpaged (Or.inr rfl) htwo
      rw [hrun, Prod.mk.injEq, Except.error.injEq] at hrun'
      exact hiff.mp (hrun'.1 ▸ he)
  · rintro ⟨hmin, huuid⟩
    have hempty : m.seenOwners params keep table = [] → m.tableOwners params table = [] := by
      intro hnil
      rw [hnil, List.length_nil] at hmin
      apply List.length_eq_zero_iff.mp
      omega
    refine ⟨fun action key sent reply hmem => ?_, fun r s' hrun hnoop => ?_,
      fun state hvalid hlen => ?_⟩
    · exact hempty (seenOwners_of_create hpaged hmem)
    · exact hempty (seenOwners_of_noop hpaged hrun hnoop)
    · have htwo : 2 ≤ (m.seenOwners params keep table).length := by omega
      obtain ⟨e, s', hrun, hiff⟩ := run_ensure_of_two hpaged hvalid htwo
      exact ⟨e, s', hrun, hiff.mpr (huuid htwo)⟩

end BaseManager

namespace CoreSnapshotManager

variable {σ : Type} {srv : Appliance σ} {s : σ} {keep : String → Obj → Bool} {table : List Obj}
  {name : String}

/-- `_find` returns nothing only if no snapshot has the name. -/
def FindSees (srv : Appliance σ) (s : σ) (name : String) (table : List Obj) : Prop :=
  ∀ s', (find name).run srv s = (.ok none, s') → ∀ row ∈ table, isNamed name row = false

theorem findSees_iff (hpaged : Paged srv s keep table) :
    FindSees srv s name table ↔
      ((∃ row ∈ table, isNamed name row = true) →
        ∃ row ∈ seen keep table "", isNamed name row = true) := by
  obtain ⟨s₁, hsearch⟩ := hpaged "core/snapshots/search" "" defaultRowCount
  have hrun : (find name).run srv s =
      (.ok ((seen keep table "").find? (isNamed name)), s₁) := run_find hsearch
  constructor
  · rintro hsees ⟨row, hrow, hnamed⟩
    rcases hfind : (seen keep table "").find? (isNamed name) with _ | row'
    · rw [hfind] at hrun
      rw [hsees s₁ hrun row hrow] at hnamed
      cases hnamed
    · exact ⟨row', List.mem_of_find?_eq_some hfind, List.find?_some hfind⟩
  · intro hshown s' hnone row hrow
    by_contra hnamed
    obtain ⟨row', hrow', hnamed'⟩ := hshown ⟨row, hrow, by simpa using hnamed⟩
    rw [hrun, Prod.mk.injEq, Except.ok.injEq] at hnone
    exact List.find?_eq_none.mp hnone.1 row' hrow' hnamed'

end CoreSnapshotManager

/-- Both lookups see the whole table exactly when its first page shows enough of it: as
many owners of the identity as there are, counted up to two, with their uuids if there are two; a
snapshot of the name, if there is one. -/
theorem lookup_sees_table_iff {σ τ : Type} {srv : Appliance σ} {s : σ} {srv' : Appliance τ}
    {s' : τ} {keep keep' : String → Obj → Bool} {table snapshots : List Obj}
    (m : BaseManager) (params : Obj) (name : String) (hpaged : Paged srv s keep table)
    (hclient : BaseManager.NeverAmbiguous srv) (hpaged' : Paged srv' s' keep' snapshots) :
    (BaseManager.SeesTable srv s m params table ↔ m.OwnersShown params keep table) ∧
    (CoreSnapshotManager.FindSees srv' s' name snapshots ↔
      ((∃ row ∈ snapshots, CoreSnapshotManager.isNamed name row = true) →
        ∃ row ∈ seen keep' snapshots "", CoreSnapshotManager.isNamed name row = true)) :=
  ⟨BaseManager.seesTable_iff hpaged hclient, CoreSnapshotManager.findSees_iff hpaged'⟩

/-- A table behind a search by phrase; other requests are acknowledged. -/
def pagedServer (keep : String → Obj → Bool) (table : List Obj) : Appliance Unit
  | .search _ phrase rowCount, _ =>
    (.ok (.arr ((page (table.filter (keep phrase)) rowCount 1).map .obj)), ())
  | _, _ => (.ok (.obj []), ())

theorem pagedServer_paged (keep : String → Obj → Bool) (table : List Obj) :
    Paged (pagedServer keep table) () keep table :=
  fun _ _ _ => ⟨(), rfl⟩

theorem pagedServer_neverAmbiguous (keep : String → Obj → Bool) (table : List Obj) :
    BaseManager.NeverAmbiguous (pagedServer keep table) := by
  intro q s e h
  cases q <;> cases h

/-- Fifty resources whose names contain the wanted name stand before the one that has it. -/
def longTable : List Obj :=
  (List.range 50).map (fun i => [("uuid", .str (toString i)), ("name", .str ("web" ++ toString i))])
    ++ [[("uuid", .str "wanted"), ("name", .str "web")]]

theorem longTable_not_seen :
    ¬ BaseManager.SeesTable (pagedServer containsPhrase longTable) () BaseManager.sampleManager
      [("name", .str "web")] longTable ∧
    ¬ CoreSnapshotManager.FindSees (pagedServer containsPhrase longTable) () "web" longTable := by
  have hpaged := pagedServer_paged containsPhrase longTable
  have hunseen : (BaseManager.sampleManager.seenOwners [("name", .str "web")] containsPhrase
      longTable).length = 0 := by decide +kernel
  have hone : (BaseManager.sampleManager.tableOwners [("name", .str "web")] longTable).length =
      1 := by decide +kernel
  have hnone : (seen containsPhrase longTable "").all
      (fun row => !CoreSnapshotManager.isNamed "web" row) = true := by decide +kernel
  constructor
  · intro hsees
    obtain ⟨r, s', hrun, hnoop⟩ :=
      BaseManager.run_absent_unseen hpaged (List.length_eq_zero_iff.mp hunseen)
    rw [hsees.noop_only r s' hrun hnoop] at hone
    cases hone
  · intro hsees
    have hlast : [("uuid", .str "wanted"), ("name", .str "web")] ∈ longTable :=
      List.mem_append_right _ (List.mem_singleton_self _)
    obtain ⟨row, hrow, hnamed⟩ :=
      (CoreSnapshotManager.findSees_iff hpaged).mp hsees ⟨_, hlast, rfl⟩
    have hnot := List.all_eq_true.mp hnone row hrow
    rw [hnamed] at hnot
    cases hnot

/-- Where the row that has the name comes first, the other fifty do not hide it. -/
theorem lookup_sees_table_iff_first :
    BaseManager.SeesTable (pagedServer containsPhrase longTable.reverse) ()
      BaseManager.sampleManager [("name", .str "web")] longTable.reverse ∧
    CoreSnapshotManager.FindSees (pagedServer containsPhrase longTable.reverse) () "web"
      longTable.reverse := by
  have hpaged := pagedServer_paged containsPhrase longTable.reverse
  have hone : (BaseManager.sampleManager.seenOwners [("name", .str "web")] containsPhrase
      longTable.reverse).length = 1 := by decide +kernel
  have howner : (BaseManager.sampleManager.tableOwners [("name", .str "web")]
      longTable.reverse).length = 1 := by decide +kernel
  have h := lookup_sees_table_iff BaseManager.sampleManager [("name", .str "web")] "web" hpaged
    (pagedServer_neverAmbiguous _ _) hpaged
  refine ⟨h.1.mpr ⟨by rw [hone, howner], fun htwo => ?_⟩, h.2.mpr fun _ => ?_⟩
  · rw [hone] at htwo
    omega
  · have hshown : (seen containsPhrase longTable.reverse "").any
        (CoreSnapshotManager.isNamed "web") = true := by decide +kernel
    exact List.any_eq_true.mp hshown

end Opnsense
