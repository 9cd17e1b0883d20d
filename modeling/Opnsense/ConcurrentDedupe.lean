import Opnsense.Dedupe
import Opnsense.Site

/-! Clients that declare one identity at once while it has copies, de-duplicating or not. Each
deletes what it once saw behind the least copy, and in no order of the requests does that copy
go: whoever returns has left it alone in its class. -/
namespace Opnsense
namespace TableServer
open Interaction BaseManager

section Identity

variable {api : TableServer} {m : BaseManager} {params p : Obj}
  (h : identityOf m.matchKeys params = identityOf m.matchKeys p)
include h

/-- Parameters of one identity have one class. -/
theorem hasIdentity_of_identity : api.hasIdentity m params = api.hasIdentity m p := by
  funext r
  rw [Bool.eq_iff_iff, hasIdentity, hasIdentity, sameIdentity_iff_identityOf,
    sameIdentity_iff_identityOf, h]

theorem owners_of_identity (T : Table) : api.owners m params T = api.owners m p T := by
  rw [owners, owners, hasIdentity_of_identity h]

theorem others_of_identity (T : Table) : api.others m params T = api.others m p T := by
  rw [others, others, hasIdentity_of_identity h]

theorem Kept.of_identity {T T' : Table} (hkept : Kept api m p T T') : Kept api m params T T' where
  others_eq := by
    rw [others_of_identity h, others_of_identity h]
    exact hkept.others_eq
  least_mem := by
    rw [owners_of_identity h, owners_of_identity h]
    exact hkept.least_mem
  subset := by
    rw [owners_of_identity h, owners_of_identity h]
    exact hkept.subset
  length_le := by
    rw [owners_of_identity h, owners_of_identity h]
    exact hkept.length_le

end Identity

theorem kept_iff_of_identity {api : TableServer} {m : BaseManager} {params p : Obj} {T T' : Table}
    (h : identityOf m.matchKeys params = identityOf m.matchKeys p) :
    Kept api m params T T' ↔ Kept api m p T T' :=
  ⟨Kept.of_identity h.symm, Kept.of_identity h⟩

section Client

variable {F : Type} {failure : F → Exc} (api : TableServer) (m : BaseManager) (params : Obj)
  (T₀ : Table) (u : String)

/-- A request of a client: nothing but copies behind the least one goes. -/
def Moves (S S' : Table × List (Fault F)) : Prop :=
  Kept api m params T₀ S.1 →
    Kept api m params T₀ S'.1 ∧ api.owners m params S'.1 ⊆ api.owners m params S.1

/-- Besides the least copy no more than `rem` is left of the class. -/
def Left (rem : List String) (S : Table) : Prop :=
  Kept api m params T₀ S ∧ api.owners m params S ⊆ u :: rem

/-- Behind a program that returned no more than `rem` is left; one that failed took nothing
that it should not. -/
def Behind {α : Type} (rem : List String) (ok : α → Prop) :
    Except Exc α → Table × List (Fault F) → Prop
  | .ok a, S => ok a ∧ Left api m params T₀ u rem S.1
  | .error _, S => Kept api m params T₀ S.1

/-- The rows found show the least copy first, behind it copies that were there from the start,
and there are no others. -/
def Found (us₀ : List String) (found : List Obj) (S : Table) : Prop :=
  ∃ us, found.map (·.text "uuid") = u :: us ∧ us ⊆ us₀ ∧
    (∀ row ∈ found, ∃ r, api.row r = row) ∧ Left api m params T₀ u us S

/-- What a search, or what reads the rows off its reply, comes to. -/
def FoundBy (us₀ : List String) : Except Exc (List Obj) → Table × List (Fault F) → Prop
  | .ok found, S => Found api m params T₀ u us₀ found S.1
  | .error _, S => Kept api m params T₀ S.1

variable {api m params T₀ u} {us₀ rem : List String} {α β : Type}

theorem stable_kept : Stable (Moves api m params T₀)
    fun S : Table × List (Fault F) => Kept api m params T₀ S.1 :=
  fun _ _ hmoves hS => (hmoves hS).1

theorem stable_left : Stable (Moves api m params T₀)
    fun S : Table × List (Fault F) => Left api m params T₀ u rem S.1 := by
  rintro S S' hmoves ⟨hkept, hsub⟩
  obtain ⟨hkept', hshrunk⟩ := hmoves hkept
  exact ⟨hkept', List.Subset.trans hshrunk hsub⟩

theorem stable_behind {ok : α → Prop} (o : Except Exc α) :
    Stable (Moves api m params T₀) (Behind (F := F) api m params T₀ u rem ok o) := by
  cases o with
  | error e => exact stable_kept
  | ok a => exact fun S S' hmoves hS => ⟨hS.1, stable_left S S' hmoves hS.2⟩

/-- What moves a class as one client sees it moves it as every client of the identity does. -/
theorem moves_of_identity {p : Obj} (h : identityOf m.matchKeys params = identityOf m.matchKeys p)
    {S S' : Table × List (Fault F)} (hmoves : Moves api m params T₀ S S') :
    Moves api m p T₀ S S' := by
  intro hS
  obtain ⟨hkept, hsub⟩ := hmoves ((kept_iff_of_identity h).mpr hS)
  rw [owners_of_identity h, owners_of_identity h] at hsub
  exact ⟨(kept_iff_of_identity h).mp hkept, hsub⟩

/-- What is seen of a class that has a least copy. -/
theorem sortedOwners_of_least {p : Obj}
    (h : identityOf m.matchKeys params = identityOf m.matchKeys p)
    (hu : IsLeast {v | v ∈ api.owners m p T₀} u) :
    ∃ us, api.sortedOwners m params T₀ = u :: us := by
  rw [← owners_of_identity h] at hu
  rcases hseen : api.sortedOwners m params T₀ with _ | ⟨u', us⟩
  · rw [sortedOwners_eq_nil] at hseen
    exact absurd hseen (List.ne_nil_of_mem hu.1)
  · obtain rfl := (isLeast_of_sortedOwners hseen).unique hu
    exact ⟨us, rfl⟩

/-- Behind a client that returned the least copy is alone. -/
theorem Left.alone (hu : IsLeast {v | v ∈ api.owners m params T₀} u) {S : Table}
    (hS : Left api m params T₀ u [] S) : api.owners m params S = [u] := by
  obtain ⟨hkept, hleft⟩ := hS
  have hperm : (api.owners m params S).Perm [u] := by
    refine (List.perm_ext_iff_of_nodup owners_nodup (List.nodup_singleton u)).mpr fun v => ?_
    refine ⟨fun hv => hleft hv, fun hv => ?_⟩
    rw [List.mem_singleton.mp hv]
    exact hkept.least_mem u hu
  exact List.perm_singleton.mp hperm

/-- The class as it is seen at any moment: the least copy first, and of the others none that
was not there at the start. -/
theorem sortedOwners_of_kept (hsorted : api.sortedOwners m params T₀ = u :: us₀) {S : Table}
    (hS : Kept api m params T₀ S) :
    ∃ us, api.sortedOwners m params S = u :: us ∧ us ⊆ us₀ := by
  have hleast := isLeast_of_sortedOwners hsorted
  have hnow := hS.least hleast
  rcases hseen : api.sortedOwners m params S with _ | ⟨u', us⟩
  · rw [sortedOwners_eq_nil] at hseen
    exact absurd hseen (List.ne_nil_of_mem hnow.1)
  · obtain rfl := (isLeast_of_sortedOwners hseen).unique hnow
    refine ⟨us, rfl, fun v hv => ?_⟩
    obtain ⟨hnot, hus⟩ := sortedOwners_split hseen
    have hmem : v ∈ api.sortedOwners m params T₀ :=
      mem_sortedOwners.mpr (hS.subset (List.ne_nil_of_mem hleast.1) (hus hv))
    rw [hsorted] at hmem
    rcases List.mem_cons.mp hmem with rfl | hmem
    · exact absurd hv hnot
    · exact hmem

theorem stable_foundBy (o : Except Exc (List Obj)) :
    Stable (Moves api m params T₀) (FoundBy (F := F) api m params T₀ u us₀ o) := by
  cases o with
  | error e => exact stable_kept
  | ok found =>
    rintro S S' hmoves ⟨us, huuids, hus, hrows, hleft⟩
    exact ⟨us, huuids, hus, hrows, stable_left S S' hmoves hleft⟩

/-- The rows found are those of the least copy and of some that are left behind it. -/
theorem secures_found {found : List Obj} {p : M α}
    {post : Except Exc α → Table × List (Fault F) → Prop} {srv : Appliance (Table × List (Fault F))}
    {rely guar : Table × List (Fault F) → Table × List (Fault F) → Prop}
    (hp : ∀ r rest, found = api.row r :: rest → r.uuid = u → rest.map (·.text "uuid") ⊆ us₀ →
      p.Secures srv rely guar post
        fun S => Left api m params T₀ u (rest.map (·.text "uuid")) S.1) :
    p.Secures srv rely guar post fun S => Found api m params T₀ u us₀ found S.1 := by
  refine Prog.secures_of_forall (∃ us, found.map (·.text "uuid") = u :: us ∧ us ⊆ us₀ ∧
    ∀ row ∈ found, ∃ r, api.row r = row) (fun S hS => ?_) ?_
  · obtain ⟨us, huuids, hus, hrows, -⟩ := hS
    exact ⟨us, huuids, hus, hrows⟩
  · rintro ⟨us, huuids, hus, hrows⟩
    rcases found with _ | ⟨row, rest⟩
    · cases huuids
    · obtain ⟨r, rfl⟩ := hrows row (List.mem_cons_self ..)
      rw [List.map_cons, row_text_uuid, List.cons.injEq] at huuids
      obtain ⟨huuid, rfl⟩ := huuids
      refine Prog.secures_mono (hp r rest rfl huuid hus) (fun S hS => ?_) fun _ _ hS => hS
      obtain ⟨us, huuids, -, -, hleft⟩ := hS
      rw [List.map_cons, List.cons.injEq] at huuids
      rw [huuids.2]
      exact hleft

section Requests

variable (hfaith : Faithful api m params) (hkeys : ∀ k ∈ m.matchKeys, params.has k = true)
  (hsorted : api.sortedOwners m params T₀ = u :: us₀)
include hfaith hkeys hsorted

theorem careful_moves {q : Request} {S : Table} (hq : Careful params (some u) us₀ q)
    (hS : Kept api m params T₀ S) :
    Kept api m params T₀ (api.serve m.config.payloadKey q S).2 ∧
      api.owners m params (api.serve m.config.payloadKey q S).2 ⊆ api.owners m params S := by
  refine ⟨careful_keeps hfaith hkeys hsorted hq hS, ?_⟩
  cases q with
  | get => exact List.Subset.refl _
  | search => exact List.Subset.refl _
  | reconfigure => exact List.Subset.refl _
  | post => exact hq.elim
  | create => exact hq.elim
  | update action v payloadKey sent =>
    obtain ⟨hv, rfl⟩ := hq
    cases hv
    have hmem := hS.least_mem u (isLeast_of_sortedOwners hsorted)
    change api.owners m sent (api.set u sent S) ⊆ _
    rw [owners_set hfaith hkeys hmem]
    exact List.Subset.refl _
  | delete action v =>
    intro w hw
    change w ∈ api.owners m params (S.del v) at hw
    rw [owners_del] at hw
    exact List.mem_of_mem_filter hw

/-- The same behind a schedule of faults. -/
theorem faulty_moves {q : Request} {S : Table × List (Fault F)}
    (hq : Careful params (some u) us₀ q) :
    Moves api m params T₀ S (api.faultyServe m.config.payloadKey failure q S).2 := by
  intro hS
  obtain ⟨S, fs⟩ := S
  have hmoves := careful_moves hfaith hkeys hsorted hq hS
  rcases faulty_cases (fun e => .error (failure e)) (api.serve m.config.payloadKey) q S fs with
    ⟨-, hstate⟩ | ⟨e, -, hstate | hstate⟩
  · rw [hstate]
    exact hmoves
  · rw [hstate]
    exact ⟨hS, List.Subset.refl _⟩
  · rw [hstate]
    exact hmoves

/-- Careful requests do not bring a copy back. -/
theorem secures_careful {p : M α} (hp : p.Asks (Careful params (some u) us₀)) :
    p.Secures (api.faultyServe m.config.payloadKey failure) (Moves api m params T₀)
      (Moves api m params T₀) (fun _ S => Left api m params T₀ u rem S.1)
      fun S => Left api m params T₀ u rem S.1 := by
  refine Prog.secures_of_asks hp stable_left fun q S hq hS => ?_
  have hmoves : Moves api m params T₀ S
      (api.faultyServe m.config.payloadKey failure q S).2 :=
    faulty_moves hfaith hkeys hsorted hq
  exact ⟨hmoves, stable_left _ _ hmoves hS⟩

/-- What a search finds: the least copy, and behind it what is left of the others. -/
theorem secures_findMatching {phrase : Option String}
    (hphrase : phrase.getD (m.identity.searchPhrase params) = m.identity.searchPhrase params) :
    (m.identity.findMatching params m.list phrase).Secures
      (api.faultyServe m.config.payloadKey failure) (Moves api m params T₀)
      (Moves api m params T₀) (FoundBy api m params T₀ u us₀)
      fun S => Kept api m params T₀ S.1 := by
  -- what is found is known with the reply
  let told : Reply → Table × List (Fault F) → Prop := fun reply =>
    FoundBy api m params T₀ u us₀ (reply >>= fun w => iterate w >>= fun items =>
      asRows items >>= fun rows => .ok (matchingRows m.matchKeys params rows))
  have hsearch : ∀ action, (await (.search action (m.identity.searchPhrase params)
      defaultRowCount)).Secures (api.faultyServe m.config.payloadKey failure)
      (Moves api m params T₀) (Moves api m params T₀) told
      fun S => Kept api m params T₀ S.1 := by
    intro action
    refine secures_await _ (fun r => stable_foundBy _) ?_
    rintro ⟨S, fs⟩ hS
    have hkept : Kept api m params T₀ S.tick := hS.trans (Kept.of_resources rfl)
    refine ⟨faulty_moves hfaith hkeys hsorted trivial, ?_⟩
    obtain ⟨⟨S₁, fs₁⟩, ⟨hq, hstate⟩ | ⟨e, hq, hstate⟩⟩ :=
      faulty_eq (fun e => .error (failure e)) (api.serve m.config.payloadKey)
        (.search action (m.identity.searchPhrase params) defaultRowCount) S fs
    · rw [show api.faultyServe m.config.payloadKey failure _ (S, fs) = _ from hq]
      obtain rfl : S₁ = S.tick := hstate
      obtain ⟨us, hseen, hus⟩ := sortedOwners_of_kept hsorted hS
      change FoundBy api m params T₀ u us₀ (asRows ((api.rows
        (m.identity.searchPhrase params) S).map .obj) >>= fun rows =>
          .ok (matchingRows m.matchKeys params rows)) (S.tick, fs₁)
      rw [asRows_map_obj]
      refine ⟨us, ?_, hus, fun row hrow => ?_, hkept, fun v hv => ?_⟩
      · rw [found_uuids hfaith, hseen]
      · obtain ⟨r, -, -, hr⟩ := found_row hfaith hrow
        exact ⟨r, hr⟩
      · rw [← hseen]
        exact mem_sortedOwners.mpr hv
    · rw [show api.faultyServe m.config.payloadKey failure _ (S, fs) = _ from hq]
      change Kept api m params T₀ S₁
      rcases hstate with hstate | hstate
      · obtain rfl : S₁ = S := hstate
        exact hS
      · obtain rfl : S₁ = S.tick := hstate
        exact hkept
  have hlist : (m.list (m.identity.searchPhrase params)).Secures
      (api.faultyServe m.config.payloadKey failure) (Moves api m params T₀)
      (Moves api m params T₀) told fun S => Kept api m params T₀ S.1 := by
    unfold list
    split
    · exact hsearch _
    · exact Prog.secures_onError (hsearch _)
  unfold IdentityResolver.findMatching
  rw [hphrase]
  refine Prog.secures_bind _ hlist (fun w => ?_) fun e S hS => hS
  have hread : (do
      let items ← Prog.ofExcept (iterate w)
      let rows ← Prog.ofExcept (asRows items)
      return matchingRows m.identity.matchKeys params rows : M (List Obj)) =
      .ofExcept (iterate w >>= fun items => asRows items >>= fun rows =>
        .ok (matchingRows m.identity.matchKeys params rows)) := by
    rw [← Prog.ofExcept_bind_ofExcept]
    refine congrArg (Prog.ofExcept (iterate w) >>= ·) (funext fun items => ?_)
    exact Prog.ofExcept_bind_ofExcept _ fun rows =>
      .ok (matchingRows m.identity.matchKeys params rows)
  rw [hread]
  exact Prog.secures_ofExcept fun S hS => hS

/-- Once the delete request is answered its copy is gone, whoever deleted it. -/
theorem secures_delete {v : String} (hv : v ∈ us₀) :
    (m.delete (.str v) false).Secures (api.faultyServe m.config.payloadKey failure)
      (Moves api m params T₀) (Moves api m params T₀)
      (Behind api m params T₀ u rem fun _ => True)
      fun S => Left api m params T₀ u (v :: rem) S.1 := by
  have hdelete : (await (.delete m.config.delete v)).Secures
      (api.faultyServe m.config.payloadKey failure) (Moves api m params T₀)
      (Moves api m params T₀) (Behind api m params T₀ u rem fun _ => True)
      fun S => Left api m params T₀ u (v :: rem) S.1 := by
    refine secures_await _ stable_behind ?_
    rintro ⟨S, fs⟩ ⟨hS, hleft⟩
    have hgone := careful_moves (q := .delete m.config.delete v) hfaith hkeys hsorted hv hS
    refine ⟨faulty_moves hfaith hkeys hsorted hv, ?_⟩
    obtain ⟨S₁, ⟨hq, hstate⟩ | ⟨e, hq, hstate⟩⟩ :=
      faulty_eq (fun e => .error (failure e)) (api.serve m.config.payloadKey)
        (.delete m.config.delete v) S fs
    · rw [show api.faultyServe m.config.payloadKey failure _ (S, fs) = _ from hq]
      obtain ⟨S₁, fs₁⟩ := S₁
      obtain rfl : S₁ = S.del v := hstate
      refine ⟨trivial, hgone.1, fun w hw => ?_⟩
      rw [owners_del, List.mem_filter, decide_eq_true_iff] at hw
      have hmem := hleft hw.1
      simp only [List.mem_cons] at hmem ⊢
      rcases hmem with hmem | hmem | hmem
      · exact Or.inl hmem
      · exact absurd hmem hw.2
      · exact Or.inr hmem
    · rw [show api.faultyServe m.config.payloadKey failure _ (S, fs) = _ from hq]
      change Kept api m params T₀ S₁.1
      rcases hstate with hstate | hstate
      · rw [hstate]
        exact hS
      · rw [hstate]
        exact hgone.1
  unfold delete
  refine Prog.secures_bind _ (secures_careful hfaith hkeys hsorted
    (Prog.asks_mono careful_of_read (asks_get _))) (fun item => ?_) fun e S hS => hS.1
  refine Prog.secures_bind (fun _ S => Left api m params T₀ u (v :: rem) S.1)
    (Prog.secures_ofExcept fun _ hS => hS) (fun fields => ?_) fun e S hS => hS.1
  refine Prog.secures_bind (fun _ S => Left api m params T₀ u (v :: rem) S.1)
    (Prog.secures_ofExcept fun _ hS => hS) (fun before => ?_) fun e S hS => hS.1
  have hsent : (await (.delete m.config.delete v) >>= fun _ => m.apply).Secures
      (api.faultyServe m.config.payloadKey failure) (Moves api m params T₀)
      (Moves api m params T₀) (Behind api m params T₀ u rem fun _ => True)
      fun S => Left api m params T₀ u (v :: rem) S.1 := by
    refine Prog.secures_bind _ hdelete (fun w => ?_) fun e S hS => hS
    refine Prog.secures_mono (secures_careful hfaith hkeys hsorted asks_apply_careful)
      (fun _ hS => hS.2) fun o S hS => ?_
    cases o with
    | ok a => exact ⟨trivial, hS⟩
    | error e => exact hS.1
  exact Prog.secures_bind _ (Prog.secures_onError hsent) (fun _ => fun _ hS => hS)
    fun e S hS => hS

/-- The copies seen are deleted one after the other. -/
theorem secures_deleteAll {us : List String} (hus : us ⊆ us₀) :
    (m.deleteAll us).Secures (api.faultyServe m.config.payloadKey failure)
      (Moves api m params T₀) (Moves api m params T₀)
      (Behind api m params T₀ u [] fun _ => True)
      fun S => Left api m params T₀ u us S.1 := by
  induction us with
  | nil => exact fun S hS => ⟨trivial, hS⟩
  | cons v rest ih =>
    refine Prog.secures_bind _ (secures_delete hfaith hkeys hsorted
      (hus (List.mem_cons_self ..))) (fun _ => ?_) fun e S hS => hS
    exact Prog.secures_mono (ih fun w hw => hus (List.mem_cons_of_mem _ hw))
      (fun _ hS => hS.2) fun _ _ hS => hS

/-- The lookup comes to the least copy, with the others gone. -/
theorem secures_lookup {dedupe : Bool} :
    (m.lookup params false dedupe).Secures (api.faultyServe m.config.payloadKey failure)
      (Moves api m params T₀) (Moves api m params T₀)
      (Behind api m params T₀ u [] fun res => ∃ r, r.uuid = u ∧ res.1 = some (api.row r))
      fun S => Kept api m params T₀ S.1 := by
  cases dedupe with
  | true =>
    simp only [lookup, if_true]
    refine Prog.secures_bind _ (secures_findMatching hfaith hkeys hsorted rfl)
      (fun found => secures_found ?_) fun e S hS => hS
    rintro r rest rfl huuid hrest
    rcases rest with _ | ⟨row, rest⟩
    · exact fun S hS => ⟨⟨r, huuid, rfl⟩, hS⟩
    · simp only [Bool.false_eq_true, if_false]
      refine Prog.secures_bind (fun _ S => Left api m params T₀ u
        ((row :: rest).map (·.text "uuid")) S.1) (fun _ hS => hS) (fun _ => ?_) fun e S hS => hS.1
      exact Prog.secures_bind _ (secures_deleteAll hfaith hkeys hsorted hrest)
        (fun _ => fun S hS => ⟨⟨r, huuid, rfl⟩, hS.2⟩) fun e S hS => hS
  | false =>
    -- several copies are an error, and a single one is the least
    simp only [lookup, Bool.false_eq_true, if_false]
    have hfind : (m.identity.findExisting params m.list).Secures
        (api.faultyServe m.config.payloadKey failure) (Moves api m params T₀)
        (Moves api m params T₀)
        (Behind api m params T₀ u [] fun found => ∃ r, r.uuid = u ∧ found = some (api.row r))
        fun S => Kept api m params T₀ S.1 := by
      unfold IdentityResolver.findExisting
      refine Prog.secures_bind (fun o => FoundBy api m params T₀ u us₀ (o.map (·.1))) ?_
        (fun found => secures_found ?_) fun e S hS => hS
      · refine secures_logErrorUnless (Prog.secures_bind _
          (secures_findMatching hfaith hkeys hsorted rfl) (fun found => ?_) fun e S hS => hS)
        refine Prog.secures_bind (fun _ S => FoundBy api m params T₀ u us₀ (.ok found) S)
          (Prog.secures_ofExcept fun _ hS => hS) (fun uuids => fun S hS => hS) ?_
        rintro e S ⟨us, -, -, -, hS, -⟩
        exact hS
      · obtain ⟨found, uuids⟩ := found
        rintro r rest rfl huuid hrest
        rcases rest with _ | ⟨row, rest⟩
        · exact fun S hS => ⟨⟨r, huuid, rfl⟩, hS⟩
        · exact fun S hS => hS.1
    exact Prog.secures_bind _ hfind (fun found => fun S hS => hS) fun e S hS => hS

/-- A step whose requests are careful, with what may raise before the next one. -/
theorem secures_step {p : M β} {f : β → M α} {ok : α → Prop}
    (hp : p.Asks (Careful params (some u) us₀))
    (hf : ∀ b, (f b).Secures (api.faultyServe m.config.payloadKey failure)
      (Moves api m params T₀) (Moves api m params T₀) (Behind api m params T₀ u rem ok)
      fun S => Left api m params T₀ u rem S.1) :
    (p >>= f).Secures (api.faultyServe m.config.payloadKey failure) (Moves api m params T₀)
      (Moves api m params T₀) (Behind api m params T₀ u rem ok)
      fun S => Left api m params T₀ u rem S.1 :=
  Prog.secures_bind _ (secures_careful hfaith hkeys hsorted hp) hf fun _ _ hS => hS.1

theorem secures_hydrateNested {r : Resource} (huuid : r.uuid = u) :
    (m.hydrateNested (some (api.row r)) params).Secures
      (api.faultyServe m.config.payloadKey failure) (Moves api m params T₀)
      (Moves api m params T₀) (Behind api m params T₀ u [] fun existing =>
        ∃ fields : Obj, existing = some fields ∧ fields.lookup "uuid" = some (.str u))
      fun S => Left api m params T₀ u [] S.1 := by
  unfold hydrateNested
  dsimp only
  split
  · refine secures_step hfaith hkeys hsorted
      (Prog.asks_mono careful_of_read (asks_get _)) fun full => ?_
    rw [rowUuid_row, huuid]
    cases hset : setItem "uuid" (.str u) full with
    | error e => exact fun S hS => hS.1
    | ok fields => exact fun S hS => ⟨⟨fields, rfl, lookup_of_setItem hset⟩, hS⟩
  · exact fun S hS => ⟨⟨_, rfl, by rw [api.row_uuid, huuid]⟩, hS⟩

/-- The least copy is left as it is or updated, and reported. -/
theorem secures_converge {force : Bool} {fields : Obj}
    (huuid : fields.lookup "uuid" = some (.str u)) :
    (m.converge "present" params false force (some fields)).Secures
      (api.faultyServe m.config.payloadKey failure) (Moves api m params T₀)
      (Moves api m params T₀) (Behind api m params T₀ u [] fun res => res.uuid = some (.str u))
      fun S => Left api m params T₀ u [] S.1 := by
  have hu : fields.getD "uuid" (.str "") = .str u := Obj.getD_of_lookup huuid _
  simp only [converge, if_true, hu]
  split
  · exact fun S hS => ⟨rfl, hS⟩
  · unfold update
    refine secures_step hfaith hkeys hsorted
      (Prog.asks_mono careful_of_read (asks_get _)) fun before => ?_
    refine secures_step hfaith hkeys hsorted (Prog.asks_ofExcept _) fun before => ?_
    refine secures_step hfaith hkeys hsorted (Prog.asks_ofExcept _) fun after => ?_
    have hsent : (await (.update m.config.set u m.config.payloadKey params) >>=
        fun _ => m.apply).Asks (Careful params (some u) us₀) :=
      Prog.asks_bind ((asks_await _).mpr ⟨rfl, rfl⟩) fun _ => asks_apply_careful
    exact secures_step hfaith hkeys hsorted (asks_logError hsent _ _)
      fun _ => fun S hS => ⟨rfl, hS⟩

/-- A call that returns has left the least copy alone in its class, and reports it. -/
theorem secures_ensure {dedupe force : Bool} :
    (m.ensure "present" params false none dedupe force).Secures
      (api.faultyServe m.config.payloadKey failure) (Moves api m params T₀)
      (Moves api m params T₀) (Behind api m params T₀ u [] fun res => res.uuid = some (.str u))
      fun S => Kept api m params T₀ S.1 := by
  have hvalid : (m.validate "present" params).Secures
      (api.faultyServe m.config.payloadKey failure) (Moves api m params T₀)
      (Moves api m params T₀) (fun _ S => Kept api m params T₀ S.1)
      fun S => Kept api m params T₀ S.1 := by
    have hasks : (m.validate "present" params).Asks (Careful params (some u) us₀) :=
      Prog.asks_mono careful_of_read (asks_validate _)
    refine Prog.secures_of_asks hasks stable_kept fun q S hq hS => ?_
    have hmoves : Moves api m params T₀ S (api.faultyServe m.config.payloadKey failure q S).2 :=
      faulty_moves hfaith hkeys hsorted hq
    exact ⟨hmoves, (hmoves hS).1⟩
  unfold ensure
  refine Prog.secures_bind _ hvalid (fun _ => ?_) fun e S hS => hS
  refine Prog.secures_bind (Behind api m params T₀ u [] fun found => ∃ fields : Obj,
    found.1 = some fields ∧ fields.lookup "uuid" = some (.str u)) ?_ (fun found => ?_)
    fun e S hS => hS
  · refine Prog.secures_bind _ (secures_lookup hfaith hkeys hsorted) (fun found => ?_)
      fun e S hS => hS
    refine Prog.secures_of_forall (∃ r : Resource, r.uuid = u ∧ found.1 = some (api.row r))
      (fun S hS => hS.1) ?_
    obtain ⟨found, deduped⟩ := found
    rintro ⟨r, huuid, rfl⟩
    refine Prog.secures_bind _ (Prog.secures_mono (secures_hydrateNested hfaith hkeys hsorted
      huuid) (fun S hS => hS.2) fun _ _ hS => hS) (fun existing => fun S hS => hS)
      fun e S hS => hS
  · refine Prog.secures_of_forall (∃ fields : Obj, found.1 = some fields ∧
      fields.lookup "uuid" = some (.str u)) (fun S hS => hS.1) ?_
    obtain ⟨found, deduped⟩ := found
    rintro ⟨fields, rfl, huuid⟩
    refine Prog.secures_bind _ (Prog.secures_mono (secures_converge hfaith hkeys hsorted huuid)
      (fun S hS => hS.2) fun _ _ hS => hS) (fun res => fun S hS => ⟨?_, hS.2⟩) fun e S hS => hS
    have hreport : (withDedupe res deduped).uuid = res.uuid := by
      unfold withDedupe
      split <;> rfl
    exact hreport.trans hS.1

end Requests
end Client

variable {F ι : Type} [DecidableEq ι]

/-- Clients that declare their parameters on one table, each with flags of its own. -/
def declaring (m : BaseManager) (params : ι → Obj) (dedupe force : ι → Bool)
    (S : Table × List (Fault F)) :
    Pool ι Request Reply Event Exc EnsureResult (Table × List (Fault F)) where
  progs i := m.ensure "present" (params i) false none (dedupe i) (force i)
  state := S

section Sample

def raceParams : Client → Obj
  | .first => [("name", .str "a")]
  | .second => [("name", .str "a"), ("descr", .str "x")]

/-- The second client lists the copies before the first one collapses them. -/
def raceTurns : List Client := [.second, .first, .first, .first, .first, .second, .second]

theorem raceParams_faithful (i : Client) :
    Faithful (plainServer []) sampleManager (raceParams i) := by
  cases i with
  | first =>
    apply plainServer_faithful
    · decide
    · decide
    · simp [sampleManager, raceParams, Json.isDict]
  | second =>
    apply plainServer_faithful
    · decide
    · decide
    · simp [sampleManager, raceParams, Json.isDict]

theorem copies_least : IsLeast {v | v ∈ (plainServer []).owners sampleManager
    [("name", .str "a")] copies} "u1" := by
  have howners : (plainServer []).owners sampleManager [("name", .str "a")] copies =
      ["u2", "u1"] := by decide
  rw [howners]
  refine ⟨by decide, fun v hv => ?_⟩
  have hv' : v = "u2" ∨ v = "u1" := by simpa using hv
  rcases hv' with rfl | rfl <;> decide

/-- No request fails here, but the second client asks for a copy that is gone by then. -/
example : ∃ e, ((Pool.schedule ((plainServer []).faultyServe "item" timedOut) raceTurns
    (declaring sampleManager raceParams (fun _ => true) (fun _ => false)
      (copies, []))).progs .second).next = .inl (.error e) := ⟨_, rfl⟩

end Sample

end TableServer
end Opnsense
