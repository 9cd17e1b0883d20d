import Opnsense.Interaction.Triple
import Opnsense.Survivor

namespace Opnsense
namespace TableServer
open Interaction BaseManager

variable {F : Type} {failure : F → Exc} {api : TableServer} {m : BaseManager} {params : Obj}
  {T : Table} {force : Bool}

/-- The table behind a schedule of faults. -/
abbrev faultyServe (api : TableServer) (payloadKey : String) (failure : F → Exc) :
    Appliance (Table × List (Fault F)) :=
  faulty (fun e => .error (failure e)) (api.serve payloadKey)

/-- The resources are those of `T`. -/
abbrev Same (T : Table) (S : Table × List (Fault F)) : Prop := S.1.resources = T.resources

theorem triple_await {σ : Type} {srv : Appliance σ} {pre J : σ → Prop} (q : Request)
    (h : ∀ s, pre s → J (srv q s).2) : Prog.Triple srv pre (await q) (fun _ => J) J := by
  have hk : ∀ reply : Reply, Prog.Triple srv J (.ofExcept reply : M Json) (fun _ => J) J :=
    fun reply => Prog.triple_ofExcept (fun _ _ _ hs => hs) fun _ hs => hs
  exact @Prog.triple_call _ _ _ _ _ _ _ _ _ _ _ _ (fun _ => J) h hk

/-- What careful requests preserve, they preserve behind every fault schedule. -/
theorem triple_careful {α : Type} {p : M α} (I : Table → Prop) {allowed : Request → Prop}
    (hp : p.Asks allowed)
    (hstep : ∀ q S, allowed q → I S → I (api.serve m.config.payloadKey q S).2) :
    Prog.Triple (api.faultyServe m.config.payloadKey failure) (fun S => I S.1) p
      (fun _ S => I S.1) (fun S => I S.1) :=
  Prog.triple_of_asks hp fun q S hq hS => faulty_preserves (fun s hs => hstep q s hq hs) S hS

theorem triple_reads {α : Type} {p : M α} (hp : p.Asks ReadOnly) :
    Prog.Triple (api.faultyServe m.config.payloadKey failure) (Same T) p
      (fun _ => Same T) (Same T) := by
  apply triple_careful (fun S => S.resources = T.resources) hp
  intro q S hq hS
  cases q <;> first | exact hS | cases hq

/-- The search of the lookup either failed or found the rows of the class. -/
theorem triple_findMatching (hfaith : Faithful api m params) :
    Prog.Triple (api.faultyServe m.config.payloadKey failure) (Same T)
      (m.identity.findMatching params m.list)
      (fun found S => Same T S ∧ found.map (·.text "uuid") = api.sortedOwners m params T ∧
        ∀ row ∈ found, ∃ r, api.row r = row) (Same T) := by
  rintro ⟨S, fs⟩ hS
  have hS' : S.resources = T.resources := hS
  let q := m.listRequest (m.identity.searchPhrase params)
  have hlist := @run_list_eq _ (api.faultyServe m.config.payloadKey failure) m (S, fs)
    (m.identity.searchPhrase params)
  -- the search was answered, or it failed
  obtain ⟨S₁, ⟨hq, hstate⟩ | ⟨e, hq, hstate⟩⟩ :=
    faulty_eq (fun e => .error (failure e)) (api.serve m.config.payloadKey) q S fs
  · rw [run_findMatching_of_list params none (hlist.trans hq)]
    have hsame : S₁.1.resources = T.resources := by
      rw [hstate]
      exact hS'
    refine ⟨hsame, ?_, fun row hrow => ?_⟩
    · rw [← sortedOwners_congr hS', ← found_uuids hfaith]
    · obtain ⟨r, -, -, hr⟩ := found_row hfaith hrow
      exact ⟨r, hr⟩
  · rw [IdentityResolver.findMatching, Option.getD_none, Prog.run_bind_of_error (hlist.trans hq)]
    change S₁.1.resources = T.resources
    rcases hstate with hstate | hstate
    · rw [hstate]
      exact hS'
    · rw [hstate]
      exact hS'

/-- The single add of a class without owners: nothing was stored, or one owner. -/
theorem triple_create (hfaith : Faithful api m params)
    (hkeys : ∀ k ∈ m.matchKeys, params.has k = true) (hnil : api.owners m params T = []) :
    Prog.Triple (api.faultyServe m.config.payloadKey failure) (Same T) (m.create params false)
      (fun _ S => Kept api m params T S.1) (fun S => Kept api m params T S.1) := by
  have hsame : ∀ S : Table × List (Fault F), Same T S → Kept api m params T S.1 :=
    fun S hS => Kept.of_resources hS
  have hadd : ∀ S : Table, S.resources = T.resources → Kept api m params T (api.add params S) := by
    intro S hS
    have howners := @owners_add api m params S hfaith hkeys
    have hothers := @others_add api m params S hfaith hkeys
    rw [owners_congr hS, hnil, List.nil_append] at howners
    refine ⟨hothers.trans (others_congr hS), ?_, fun hne => absurd hnil hne, fun _ => ?_⟩
    · intro u hu
      have hmem := hu.1
      rw [hnil] at hmem
      cases hmem
    · rw [howners]
      exact le_refl 1
  apply Prog.triple_bind (Prog.triple_ofExcept (fun _ _ _ hS => hS) hsame)
  intro after
  -- around the add there are reads and applies alone
  have hrest : ∀ {α : Type} {p : M α}, p.Asks (Careful params none []) →
      Prog.Triple (api.faultyServe m.config.payloadKey failure)
        (fun S => Kept api m params T S.1) p
        (fun _ S => Kept api m params T S.1) (fun S => Kept api m params T S.1) := by
    intro α p hp
    apply triple_careful (Kept api m params T) hp
    intro q S hq hS
    cases q with
    | get => exact hS.trans (Kept.of_resources rfl)
    | search => exact hS.trans (Kept.of_resources rfl)
    | reconfigure => exact hS.trans (Kept.of_resources rfl)
    | delete => cases hq
    | update => cases hq.1
    | post => exact hq.elim
    | create => exact hq.elim
  have hcreate : Prog.Triple (api.faultyServe m.config.payloadKey failure) (Same T)
      (await (.create m.config.add m.config.payloadKey params))
      (fun _ S => Kept api m params T S.1) (fun S => Kept api m params T S.1) := by
    apply triple_await
    rintro ⟨S, fs⟩ hS
    -- an add that failed may have been carried out all the same
    obtain ⟨S₁, ⟨hq, hstate⟩ | ⟨e, hq, hstate | hstate⟩⟩ :=
      faulty_eq (fun e => .error (failure e)) (api.serve m.config.payloadKey)
        (.create m.config.add m.config.payloadKey params) S fs
    · rw [show api.faultyServe m.config.payloadKey failure _ (S, fs) = _ from hq, hstate]
      exact hadd S hS
    · rw [show api.faultyServe m.config.payloadKey failure _ (S, fs) = _ from hq, hstate]
      exact Kept.of_resources hS
    · rw [show api.faultyServe m.config.payloadKey failure _ (S, fs) = _ from hq, hstate]
      exact hadd S hS
  refine Prog.triple_bind (Prog.triple_onError (Prog.triple_bind hcreate fun uuid =>
    hrest ?_)) fun uuid => hrest ?_
  · exact Prog.asks_bind asks_apply_careful fun _ => trivial
  · trivial

/-- What the lookup leads to: no owner, or the row of the least one, with `I` kept while
the duplicates went. -/
def LookedUp (api : TableServer) (m : BaseManager) (params : Obj) (T : Table) (I : Table → Prop)
    (found : Option Obj) (S : Table × List (Fault F)) : Prop :=
  (api.owners m params T = [] ∧ found = none ∧ Same T S) ∨
    ∃ u us fields, api.sortedOwners m params T = u :: us ∧ found = some fields ∧
      fields.lookup "uuid" = some (.str u) ∧ I S.1

section Invariant

variable {I : Table → Prop} (hsame : ∀ S : Table, S.resources = T.resources → I S)
  (hstep : ∀ u us, api.sortedOwners m params T = u :: us → ∀ q S, Careful params none us q →
    I S → I (api.serve m.config.payloadKey q S).2)
include hsame hstep

theorem triple_lookup (hfaith : Faithful api m params) :
    Prog.Triple (api.faultyServe m.config.payloadKey failure) (Same T)
      (m.lookup params false true)
      (fun res S => LookedUp api m params T I res.1 S) (fun S => I S.1) := by
  apply Prog.triple_bind (Prog.triple_mono (triple_findMatching hfaith) (fun _ h => h)
    (fun _ _ h => h) fun S hS => hsame S.1 hS)
  intro found
  -- the rows name the sorted owners, so the first one names the least
  rcases found with _ | ⟨row, rest⟩
  · apply Prog.triple_ret
    rintro S ⟨hS, huuids, -⟩
    exact Or.inl ⟨sortedOwners_eq_nil.mp huuids.symm, rfl, hS⟩
  · have hknown : ∀ S : Table × List (Fault F), (Same T S ∧
        (row :: rest).map (·.text "uuid") = api.sortedOwners m params T ∧
        ∀ row' ∈ row :: rest, ∃ r, api.row r = row') →
        ∃ r, api.row r = row ∧
          api.sortedOwners m params T = r.uuid :: rest.map (·.text "uuid") := by
      rintro S ⟨-, huuids, hrows⟩
      obtain ⟨r, rfl⟩ := hrows row (List.mem_cons_self ..)
      refine ⟨r, rfl, ?_⟩
      rw [← huuids, List.map_cons, row_text_uuid]
    apply Prog.triple_of_forall hknown
    rintro ⟨r, rfl, hsorted⟩
    have hpost : ∀ S : Table × List (Fault F), I S.1 →
        LookedUp api m params T I (some (api.row r)) S :=
      fun S hS => Or.inr ⟨_, _, _, hsorted, rfl, api.row_uuid r, hS⟩
    cases rest with
    | nil => exact Prog.triple_ret fun S hS => hpost S (hsame S.1 hS.1)
    | cons row' rest =>
      have hdelete : Prog.Triple (api.faultyServe m.config.payloadKey failure)
          (fun S => I S.1) (m.deleteAll ((row' :: rest).map (·.text "uuid")))
          (fun _ S => I S.1) (fun S => I S.1) :=
        triple_careful I (asks_deleteAll_careful (List.Subset.refl _))
          (hstep _ _ hsorted)
      apply Prog.triple_emit
      apply Prog.triple_bind (Prog.triple_mono hdelete (fun S hS => hsame S.1 hS.1)
        (fun _ _ h => h) fun _ h => h)
      intro _
      exact Prog.triple_ret hpost

theorem triple_resolve (hfaith : Faithful api m params) :
    Prog.Triple (api.faultyServe m.config.payloadKey failure) (Same T)
      (m.resolve params false none true)
      (fun res S => LookedUp api m params T I res.1 S) (fun S => I S.1) := by
  apply Prog.triple_bind (triple_lookup hsame hstep hfaith)
  rintro ⟨found, deduped⟩
  refine Prog.triple_bind ?_ fun existing => Prog.triple_ret fun S hS => hS
  unfold hydrateNested
  split
  · exact Prog.triple_ret fun S hS => hS
  · rename_i row
    split
    · rename_i hfull
      -- the row that is fetched in full is that of the least owner
      have hknown : ∀ S : Table × List (Fault F), LookedUp api m params T I (some row) S →
          ∃ u us, api.sortedOwners m params T = u :: us ∧ rowUuid row = u := by
        rintro S (⟨-, hnone, -⟩ | ⟨u, us, fields, hsorted, hsome, hlookup, -⟩)
        · cases hnone
        · cases hsome
          have hne : rowUuid row ≠ "" := by
            rw [Bool.and_eq_true, bne_iff_ne] at hfull
            exact hfull.2
          exact ⟨u, us, hsorted, by rw [rowUuid_eq_text hne, Obj.text_of_lookup hlookup]; rfl⟩
      apply Prog.triple_of_forall hknown
      rintro ⟨u, us, hsorted, rfl⟩
      have hget : Prog.Triple (api.faultyServe m.config.payloadKey failure)
          (fun S => I S.1) (m.get (.str (rowUuid row))) (fun _ S => I S.1) (fun S => I S.1) :=
        triple_careful I (Prog.asks_mono careful_of_read (asks_get _)) (hstep _ _ hsorted)
      have hkept : ∀ S : Table × List (Fault F), LookedUp api m params T I (some row) S →
          I S.1 := by
        rintro S (⟨-, hnone, -⟩ | ⟨-, -, -, -, -, -, hS⟩)
        · cases hnone
        · exact hS
      apply Prog.triple_bind (Prog.triple_mono hget hkept (fun _ _ h => h) fun _ h => h)
      intro full
      have hset : Prog.Triple (api.faultyServe m.config.payloadKey failure)
          (fun S => I S.1) (.ofExcept (setItem "uuid" (.str (rowUuid row)) full) : M Obj)
          (fun item S => LookedUp api m params T I (some item) S) (fun S => I S.1) :=
        Prog.triple_ofExcept (fun item S hitem hS => Or.inr ⟨_, us, item, hsorted, rfl,
          lookup_of_setItem hitem, hS⟩) fun S hS => hS
      exact Prog.triple_bind hset fun item => Prog.triple_ret fun S hS => hS
    · exact Prog.triple_ret fun S hS => hS

theorem triple_ensure (hfaith : Faithful api m params) {state : String}
    (hconv : ∀ existing, Prog.Triple (api.faultyServe m.config.payloadKey failure)
      (LookedUp api m params T I existing) (m.converge state params false force existing)
      (fun _ S => I S.1) (fun S => I S.1)) :
    Prog.Triple (api.faultyServe m.config.payloadKey failure) (Same T)
      (m.ensure state params false none true force) (fun _ S => I S.1) (fun S => I S.1) := by
  apply Prog.triple_bind (Prog.triple_mono (triple_reads (asks_validate state)) (fun _ h => h)
    (fun _ _ h => h) fun S hS => hsame S.1 hS)
  intro _
  apply Prog.triple_bind (triple_resolve hsame hstep hfaith)
  rintro ⟨existing, deduped⟩
  exact Prog.triple_bind (hconv existing) fun r => Prog.triple_ret fun S hS => hS

end Invariant

/-- A de-duplicating `ensure` with state present keeps the least owner, whatever fails. -/
theorem triple_present (hfaith : Faithful api m params)
    (hkeys : ∀ k ∈ m.matchKeys, params.has k = true) :
    Prog.Triple (api.faultyServe m.config.payloadKey failure) (Same T)
      (m.ensure "present" params false none true force)
      (fun _ S => Kept api m params T S.1) (fun S => Kept api m params T S.1) := by
  have hgone : ∀ u us, ∀ q : Request, Careful params none us q → Careful params (some u) us q := by
    intro u us q hq
    cases q <;> first | exact hq | cases hq.1
  apply triple_ensure (fun S hS => Kept.of_resources hS)
    (fun u us hsorted q S hq hS => careful_keeps hfaith hkeys hsorted (hgone u us q hq) hS) hfaith
  intro existing
  cases existing with
  | none =>
    -- nobody was found: the class is empty, and the add follows
    have hempty : ∀ S : Table × List (Fault F),
        LookedUp api m params T (Kept api m params T) none S →
        api.owners m params T = [] ∧ Same T S := by
      rintro S (⟨hnil, -, hS⟩ | ⟨u, us, fields, -, hsome, -⟩)
      · exact ⟨hnil, hS⟩
      · cases hsome
    apply Prog.triple_of_forall fun S hS => (hempty S hS).1
    intro hnil
    exact Prog.triple_mono (triple_create hfaith hkeys hnil) (fun S hS => (hempty S hS).2)
      (fun _ _ h => h) fun _ h => h
  | some fields =>
    -- the least owner was found, and only it may be updated
    have hfull : ∀ S : Table × List (Fault F),
        LookedUp api m params T (Kept api m params T) (some fields) S →
        (∃ u us, api.sortedOwners m params T = u :: us ∧
          fields.getD "uuid" (.str "") = .str u) ∧ Kept api m params T S.1 := by
      rintro S (⟨-, hnone, -⟩ | ⟨u, us, fields, hsorted, hsome, hlookup, hS⟩)
      · cases hnone
      · cases hsome
        exact ⟨⟨u, us, hsorted, Obj.getD_of_lookup hlookup _⟩, hS⟩
    apply Prog.triple_of_forall fun S hS => (hfull S hS).1
    rintro ⟨u, us, hsorted, huuid⟩
    have hasks : (m.converge "present" params false force (some fields)).Asks
        (Careful params (some u) us) := by
      simp only [converge, if_true, huuid]
      split
      · trivial
      · exact asks_update_careful
    exact Prog.triple_mono (triple_careful (Kept api m params T) hasks
      fun q S hq hS => careful_keeps hfaith hkeys hsorted hq hS) (fun S hS => (hfull S hS).2)
      (fun _ _ h => h) fun _ h => h

/-- With state absent it only shrinks the class, whatever fails. -/
theorem triple_absent (hfaith : Faithful api m params) :
    Prog.Triple (api.faultyServe m.config.payloadKey failure) (Same T)
      (m.ensure "absent" params false none true force)
      (fun _ S => Shrunk api m params T S.1) (fun S => Shrunk api m params T S.1) := by
  apply triple_ensure (fun S hS => Shrunk.of_resources hS)
    (fun u us hsorted q S hq hS => careful_shrinks (sortedOwners_split hsorted).2 hq hS) hfaith
  intro existing
  have hne : ("absent" = "present") = False := by simp
  have hshrunk : ∀ S : Table × List (Fault F),
      LookedUp api m params T (Shrunk api m params T) existing S →
      Shrunk api m params T S.1 := by
    rintro S (⟨-, -, hS⟩ | ⟨-, -, -, -, -, -, hS⟩)
    · exact Shrunk.of_resources hS
    · exact hS
  simp only [converge, hne, if_false]
  cases existing with
  | none => exact Prog.triple_emit (Prog.triple_ret hshrunk)
  | some fields =>
    -- what is deleted is an owner
    have hfull : ∀ S : Table × List (Fault F),
        LookedUp api m params T (Shrunk api m params T) (some fields) S →
        ∃ u, u ∈ api.owners m params T ∧ fields.getD "uuid" (.str "") = .str u := by
      rintro S (⟨-, hnone, -⟩ | ⟨u, us, fields, hsorted, hsome, hlookup, -⟩)
      · cases hnone
      · cases hsome
        exact ⟨u, (isLeast_of_sortedOwners hsorted).1, Obj.getD_of_lookup hlookup _⟩
    apply Prog.triple_of_forall hfull
    rintro ⟨u, hu, huuid⟩
    dsimp only
    rw [huuid]
    have hasks : (m.delete (.str u) false).Asks (Careful params none [u]) :=
      asks_delete_careful (List.mem_singleton_self u)
    exact Prog.triple_mono (triple_careful (Shrunk api m params T) hasks
      fun q S hq hS => careful_shrinks (List.cons_subset.mpr ⟨hu, List.nil_subset _⟩) hq hS) hshrunk
      (fun _ _ h => h) fun _ h => h

end TableServer
end Opnsense
