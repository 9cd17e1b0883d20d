import Opnsense.ApiKey
import Opnsense.Text.UrlPath
import Opnsense.WholeTable

namespace Opnsense
namespace AuthApiKeyManager
open Interaction

/-- The ids of the keys that have one. -/
def idsOf (keys : List Obj) : List String := (keys.filter hasId).map (·.text "id")

/-- The stored keys; an id names one of them. -/
structure KeyTable where
  keys : List Obj
  ids_nodup : (idsOf keys).Nodup

/-- What is left without the keys of some ids. -/
def KeyTable.without (T : KeyTable) (ids : List String) : KeyTable where
  keys := T.keys.filter fun key => !(hasId key && ids.contains (key.text "id"))
  ids_nodup := T.ids_nodup.sublist ((List.filter_sublist.filter _).map _)

/-- A server of the keys: a search that succeeds shows a page of them all, a del that succeeds
removes the key of the id, if that is one segment of the path; the id that is left of another one
names no key. -/
structure KeyServer (σ : Type) where
  serve : Appliance σ
  table : σ → KeyTable
  search_page : ∀ phrase rowCount s v s',
    serve (.search searchAction phrase rowCount) s = (.ok v, s') →
      v = .arr ((page (table s).keys rowCount 1).map .obj) ∧ table s' = table s
  del_key : ∀ keyId s v s', serve (.post (delKey keyId) []) s = (.ok v, s') →
    table s' = if Text.IsSegment keyId.toList then (table s).without [keyId] else table s

/-- The key has an id that is one segment of a path. -/
def isNamed (key : Obj) : Bool := hasId key && decide (Text.IsSegment (key.text "id").toList)

section Table

variable {T : KeyTable} {keys : List Obj} {key : Obj} {ids : List String}

theorem mem_idsOf (hmem : key ∈ keys) (hid : hasId key = true) : key.text "id" ∈ idsOf keys :=
  List.mem_map_of_mem (List.mem_filter.mpr ⟨hmem, hid⟩)

theorem mem_without : key ∈ (T.without ids).keys ↔
    key ∈ T.keys ∧ ¬ (hasId key = true ∧ key.text "id" ∈ ids) := by
  rw [KeyTable.without, List.mem_filter, Bool.not_eq_true', ← Bool.not_eq_true,
    Bool.and_eq_true, List.contains_iff_mem]

theorem without_nil : T.without [] = T := by
  simp [KeyTable.without]

theorem without_cons (keyId : String) :
    (T.without [keyId]).without ids = T.without (keyId :: ids) := by
  simp only [KeyTable.without, List.filter_filter, KeyTable.mk.injEq]
  apply List.filter_congr
  intro key _
  cases hasId key with
  | false => rfl
  | true => simp [Bool.and_comm]

/-- Two stored keys with one id are the same. -/
theorem eq_of_id {key' : Obj} (hkey : key ∈ T.keys) (hkey' : key' ∈ T.keys)
    (hid : hasId key = true) (hid' : hasId key' = true) (heq : key.text "id" = key'.text "id") :
    key = key' :=
  List.inj_on_of_nodup_map T.ids_nodup (List.mem_filter.mpr ⟨hkey, hid⟩)
    (List.mem_filter.mpr ⟨hkey', hid'⟩) heq

/-- Among stored keys, those without the ids of some are those that were not picked. -/
theorem mem_without_idsOf (hpicked : keys ⊆ T.keys) : key ∈ (T.without (idsOf keys)).keys ↔
    key ∈ T.keys ∧ ¬ (hasId key = true ∧ key ∈ keys) := by
  rw [mem_without]
  refine and_congr_right fun hkey => not_congr (and_congr_right fun hid => ?_)
  constructor
  · intro hmem
    obtain ⟨key', hkey', heq⟩ := List.mem_map.mp hmem
    obtain ⟨hmem', hid'⟩ := List.mem_filter.mp hkey'
    rwa [eq_of_id hkey (hpicked hmem') hid hid' heq.symm]
  · exact fun hmem => mem_idsOf hmem hid

/-- As many keys are missing as ids were picked. -/
theorem length_without_idsOf (hpicked : keys.Sublist T.keys) :
    (T.without (idsOf keys)).keys.length + (idsOf keys).length = T.keys.length := by
  have hsub : (idsOf keys).Sublist (idsOf T.keys) := (hpicked.filter _).map _
  have hperm : ((idsOf T.keys).filter fun keyId => (idsOf keys).contains keyId).Perm
      (idsOf keys) := by
    apply (List.perm_ext_iff_of_nodup (T.ids_nodup.filter _) (T.ids_nodup.sublist hsub)).mpr
    intro keyId
    rw [List.mem_filter, List.contains_iff_mem]
    exact and_iff_right_of_imp fun hmem => hsub.subset hmem
  have hgone : (T.keys.filter fun key =>
      hasId key && (idsOf keys).contains (key.text "id")).length = (idsOf keys).length := by
    have hids : idsOf T.keys = (T.keys.filter hasId).map (·.text "id") := rfl
    rw [← hperm.length_eq, hids, List.filter_map, List.length_map, List.filter_filter]
    exact congrArg _ (List.filter_congr fun key _ => Bool.and_comm _ _)
  have hsplit := List.length_eq_length_filter_add
    (l := T.keys) (fun key => hasId key && (idsOf keys).contains (key.text "id"))
  rw [hgone] at hsplit
  have hleft : (T.without (idsOf keys)).keys = T.keys.filter fun key =>
      !(hasId key && (idsOf keys).contains (key.text "id")) := rfl
  rw [hleft]
  omega

end Table

/-- A count that is reported is the number of the keys that are gone. -/
def Counted (keys keys' : List Obj) (r : EnsureResult) : Prop :=
  ∀ fields n, r.before = some (.obj fields) → fields.lookup "key_count" = some (.int n) →
    n + keys'.length = keys.length

/-- No key of the user with an id is left, none of another user is gone, and the count is right. -/
structure DeletesOwn (username : String) (keys keys' : List Obj) (r : EnsureResult) : Prop where
  none_left : ∀ key ∈ keys', isOwned username key = true → hasId key = false
  others_kept : ∀ key ∈ keys, isOwned username key = false → key ∈ keys'
  counted : Counted keys keys' r

/-- The first page shows every key of the user that has an id, every key it shows of the user has
one that is one segment of a path, and for the empty name it shows keys of no other user. -/
structure OnFirstPage (username : String) (keys : List Obj) : Prop where
  shown : ∀ key ∈ keys, isOwned username key = true → hasId key = true →
    key ∈ page keys defaultRowCount 1
  ids : ∀ key ∈ page keys defaultRowCount 1, isOwned username key = true → isNamed key = true
  unnamed : username = "" → ∀ key ∈ page keys defaultRowCount 1, isOwned username key = true

namespace KeyServer

variable {σ : Type} (api : KeyServer σ) {s s' : σ} {username : String} {r : EnsureResult}
  {t : List (Request × Reply)}

theorem hasId_of_isNamed {key : Obj} (h : isNamed key = true) : hasId key = true :=
  (Bool.and_eq_true_iff.mp h).1

theorem idsOf_named_cons_of_pos {key : Obj} (rest : List Obj) (h : isNamed key = true) :
    idsOf ((key :: rest).filter isNamed) = key.text "id" :: idsOf (rest.filter isNamed) := by
  rw [List.filter_cons_of_pos h, idsOf, List.filter_cons_of_pos (hasId_of_isNamed h)]
  rfl

/-- The loop takes away the keys it is given, by their ids. -/
theorem returns_deleteEach {keys : List Obj} {u : Unit}
    (h : (deleteEach (keys.map .obj)).Returns api.serve s u s' t) :
    api.table s' = (api.table s).without (idsOf (keys.filter isNamed)) := by
  induction keys generalizing s t with
  | nil =>
    obtain ⟨-, rfl, -⟩ := Prog.returns_ret.mp h
    exact without_nil.symm
  | cons key rest ih =>
    obtain ⟨key', s₁, t₁, t₂, hkey, hrest, -⟩ := Prog.returns_bind.mp h
    obtain ⟨hdict, rfl, -⟩ := Prog.returns_ofExcept.mp hkey
    obtain rfl : key = key' := Except.ok.inj hdict
    by_cases hid : hasId key = true
    · rw [if_pos hid] at hrest
      obtain ⟨v, s₂, t₃, t₄, hpost, hloop, -⟩ := Prog.returns_bind.mp hrest
      have hdel := api.del_key _ _ _ _ ((returns_await _).mp hpost).1
      by_cases hsegment : Text.IsSegment (key.text "id").toList
      · rw [if_pos hsegment] at hdel
        have hnamed : isNamed key = true := by simp [isNamed, hid, hsegment]
        rw [ih hloop, hdel, without_cons, ← idsOf_named_cons_of_pos rest hnamed]
      · rw [if_neg hsegment] at hdel
        have hnamed : ¬ isNamed key = true := by simp [isNamed, hsegment]
        rw [ih hloop, hdel, List.filter_cons_of_neg hnamed]
    · rw [if_neg hid] at hrest
      have hnamed : ¬ isNamed key = true := fun h => hid (hasId_of_isNamed h)
      rw [ih hrest, List.filter_cons_of_neg hnamed]

/-- The keys that a listing of one page shows of those to delete. -/
def picked (username : String) (keys : List Obj) : List Obj :=
  if username ≠ "" then (page keys defaultRowCount 1).filter (isOwned username)
  else page keys defaultRowCount 1

theorem picked_sublist (username : String) (keys : List Obj) :
    (picked username keys).Sublist keys := by
  have hpage : (page keys defaultRowCount 1).Sublist keys := by
    rw [page_one]
    exact List.take_sublist _ _
  unfold picked
  split
  · exact List.filter_sublist.trans hpage
  · exact hpage

theorem named_sublist (username : String) (keys : List Obj) :
    ((picked username keys).filter isNamed).Sublist keys :=
  List.filter_sublist.trans (picked_sublist username keys)

theorem returns_listKeys {v : Json}
    (h : (listKeys (some username)).Returns api.serve s v s' t) :
    v = .arr ((picked username (api.table s).keys).map .obj) ∧ api.table s' = api.table s := by
  obtain ⟨rows, s₁, t₁, t₂, hsearch, hrest, -⟩ := Prog.returns_bind.mp h
  obtain ⟨rfl, htable⟩ := api.search_page _ _ _ _ _ ((returns_await _).mp hsearch).1
  unfold picked
  by_cases hname : username ≠ ""
  · have hname' : (some username).getD "" ≠ "" := hname
    rw [if_pos hname'] at hrest
    obtain ⟨items, s₂, t₃, t₄, hiterate, hrows, -⟩ := Prog.returns_bind.mp hrest
    obtain ⟨hitems, rfl, -⟩ := Prog.returns_ofExcept.mp hiterate
    obtain ⟨keys, s₃, t₅, t₆, hread, hfilter, -⟩ := Prog.returns_bind.mp hrows
    obtain ⟨hkeys, rfl, -⟩ := Prog.returns_ofExcept.mp hread
    obtain ⟨rfl, rfl, -⟩ := Prog.returns_ret.mp hfilter
    rw [← Except.ok.inj hitems, asRows_map_obj, Except.ok.injEq] at hkeys
    rw [if_pos hname, ← hkeys]
    exact ⟨rfl, htable⟩
  · have hname' : ¬ (some username).getD "" ≠ "" := hname
    rw [if_neg hname'] at hrest
    obtain ⟨rfl, rfl, -⟩ := Prog.returns_ret.mp hrest
    rw [if_neg hname]
    exact ⟨rfl, htable⟩

/-- Nothing is picked and nothing done, or all that is picked and has an id is gone. -/
theorem returns_deleteAllKeys (h : (deleteAllKeys username).Returns api.serve s r s' t) :
    (picked username (api.table s).keys = [] ∧ r.before = none ∧ api.table s' = api.table s) ∨
      (api.table s' = (api.table s).without
          (idsOf ((picked username (api.table s).keys).filter isNamed)) ∧
        r.before = some (.obj [("username", .str username),
          ("key_count", .int (picked username (api.table s).keys).length)])) := by
  obtain ⟨keys, s₁, t₁, t₂, hlist, hrest, -⟩ := Prog.returns_bind.mp h
  obtain ⟨rfl, htable⟩ := api.returns_listKeys hlist
  rcases hpicked : picked username (api.table s).keys with _ | ⟨key, rest⟩
  · rw [hpicked] at hrest
    obtain ⟨rfl, rfl, -⟩ := Prog.returns_ret.mp hrest
    exact Or.inl ⟨rfl, rfl, htable⟩
  · right
    rw [hpicked] at hrest
    obtain ⟨items, s₂, t₃, t₄, hiterate, hdelete, -⟩ := Prog.returns_bind.mp hrest
    obtain ⟨hitems, rfl, -⟩ := Prog.returns_ofExcept.mp hiterate
    obtain ⟨u, s₃, t₅, t₆, hloop, hreport, -⟩ := Prog.returns_bind.mp hdelete
    obtain ⟨count, s₄, t₇, t₈, hlen, hresult, -⟩ := Prog.returns_bind.mp hreport
    obtain ⟨hcount, rfl, -⟩ := Prog.returns_ofExcept.mp hlen
    obtain ⟨rfl, rfl, -⟩ := Prog.returns_ret.mp hresult
    rw [← Except.ok.inj hitems] at hloop
    rw [api.returns_deleteEach hloop, htable]
    refine ⟨rfl, ?_⟩
    rw [← Except.ok.inj hcount, List.length_map]

theorem mem_picked {keys : List Obj} {key : Obj} : key ∈ picked username keys ↔
    key ∈ page keys defaultRowCount 1 ∧ (isOwned username key = true ∨ username = "") := by
  unfold picked
  split
  · rename_i hname
    rw [List.mem_filter, or_iff_left hname]
  · rename_i hname
    rw [and_iff_left (Or.inr (not_not.mp hname))]

theorem mem_table_of_deleteAllKeys (h : (deleteAllKeys username).Returns api.serve s r s' t)
    (key : Obj) : key ∈ (api.table s').keys ↔ key ∈ (api.table s).keys ∧
      ¬ (isNamed key = true ∧ key ∈ picked username (api.table s).keys) := by
  rcases api.returns_deleteAllKeys h with ⟨hnone, -, htable⟩ | ⟨htable, -⟩
  · rw [htable, hnone]
    simp
  · rw [htable, mem_without_idsOf (named_sublist username _).subset, List.mem_filter]
    refine and_congr_right fun _ => not_congr ?_
    constructor
    · rintro ⟨-, hpicked, hnamed⟩
      exact ⟨hnamed, hpicked⟩
    · rintro ⟨hnamed, hpicked⟩
      exact ⟨hasId_of_isNamed hnamed, hpicked, hnamed⟩

/-- The count is that of the keys picked, so it is right when a del removes each of them. -/
theorem counted_iff (h : (deleteAllKeys username).Returns api.serve s r s' t) :
    Counted (api.table s).keys (api.table s').keys r ↔
      ∀ key ∈ picked username (api.table s).keys, isNamed key = true := by
  rcases api.returns_deleteAllKeys h with ⟨hnone, hbefore, -⟩ | ⟨htable, hbefore⟩
  · rw [hnone]
    refine iff_of_true ?_ (by simp)
    intro fields n hfields
    rw [hbefore] at hfields
    cases hfields
  · have hlength := length_without_idsOf (named_sublist username (api.table s).keys)
    have hids : (idsOf ((picked username (api.table s).keys).filter isNamed)).length =
        ((picked username (api.table s).keys).filter isNamed).length := by
      rw [idsOf, List.length_map, List.filter_filter]
      congr 1
      apply List.filter_congr
      intro key _
      simp [isNamed]
    rw [← htable, hids] at hlength
    rw [← List.length_filter_eq_length_iff]
    constructor
    · intro hcounted
      have hcount := hcounted _ _ hbefore rfl
      omega
    · intro hall fields n hfields hn
      rw [hbefore, Option.some.injEq, Json.obj.injEq] at hfields
      rw [← hfields] at hn
      have hcount : (.int (picked username (api.table s).keys).length : Json) = .int n :=
        Option.some.inj hn
      rw [Json.int.injEq] at hcount
      omega

/-- Exactly the keys of the user are deleted, and counted, exactly when the first page will do. -/
theorem deletesOwn_iff (h : (deleteAllKeys username).Returns api.serve s r s' t) :
    DeletesOwn username (api.table s).keys (api.table s').keys r ↔
      OnFirstPage username (api.table s).keys := by
  have hmem := api.mem_table_of_deleteAllKeys h
  have hcounted := api.counted_iff h
  have hpage : ∀ key ∈ page (api.table s).keys defaultRowCount 1, key ∈ (api.table s).keys := by
    intro key hkey
    rw [page_one] at hkey
    exact List.mem_of_mem_take hkey
  constructor
  · intro hown
    have hids := hcounted.mp hown.counted
    refine ⟨fun key hkey howned hid => ?_, fun key hkey howned => ?_, fun hname key hkey => ?_⟩
    · -- a key that is not shown is left
      by_contra hnot
      have hleft : key ∈ (api.table s').keys :=
        (hmem key).mpr ⟨hkey, fun hgone => hnot (mem_picked.mp hgone.2).1⟩
      rw [hown.none_left key hleft howned] at hid
      cases hid
    · exact hids key (mem_picked.mpr ⟨hkey, Or.inl howned⟩)
    · have hpicked := mem_picked.mpr ⟨hkey, Or.inr hname⟩
      by_contra hother
      have hkept := hown.others_kept key (hpage key hkey) (Bool.eq_false_iff.mpr hother)
      exact ((hmem key).mp hkept).2 ⟨hids key hpicked, hpicked⟩
  · intro hfirst
    refine ⟨fun key hkey howned => ?_, fun key hkey hother => ?_, hcounted.mpr ?_⟩
    · obtain ⟨hstored, hleft⟩ := (hmem key).mp hkey
      by_contra hid
      have hid' : hasId key = true := by simpa using hid
      have hshown := hfirst.shown key hstored howned hid'
      exact hleft ⟨hfirst.ids key hshown howned, mem_picked.mpr ⟨hshown, Or.inl howned⟩⟩
    · refine (hmem key).mpr ⟨hkey, ?_⟩
      rintro ⟨-, hpicked⟩
      obtain ⟨hshown, howned | hname⟩ := mem_picked.mp hpicked
      · rw [hother] at howned
        cases howned
      · rw [hfirst.unnamed hname key hshown] at hother
        cases hother
    · intro key hpicked
      obtain ⟨hshown, howned | hname⟩ := mem_picked.mp hpicked
      · exact hfirst.ids key hshown howned
      · exact hfirst.ids key hshown (hfirst.unnamed hname key hshown)

end KeyServer

/-- A server of the keys alone. -/
def keyServer : KeyServer KeyTable where
  serve
    | .search _ _ rowCount, T => (.ok (.arr ((page T.keys rowCount 1).map .obj)), T)
    | .post ep .., T => (.ok (.obj [("result", .str "deleted")]),
        if ep.action = "auth/user/del_api_key" then
          match ep.ident with
          | some keyId => if Text.IsSegment keyId.toList then T.without [keyId] else T
          | none => T
        else T)
    | _, T => (.ok (.obj []), T)
  table T := T
  search_page phrase rowCount T v T' h := by
    cases h
    exact ⟨rfl, rfl⟩
  del_key keyId T v T' h := by
    cases h
    rfl

/-- One key of `alice` and one of `bob`. -/
def twoUsers : KeyTable where
  keys := [[("username", .str "alice"), ("id", .str "Zm9v")],
    [("username", .str "bob"), ("id", .str "YmFy")]]
  ids_nodup := by decide

theorem deletesOwn_bob : ∃ r T t, (deleteAllKeys "bob").Returns keyServer.serve twoUsers r T t ∧
    DeletesOwn "bob" twoUsers.keys T.keys r := by
  have hret : ∃ r T t, (deleteAllKeys "bob").Returns keyServer.serve twoUsers r T t :=
    ⟨_, _, _, rfl, rfl⟩
  obtain ⟨r, T, t, hret⟩ := hret
  refine ⟨r, T, t, hret, (keyServer.deletesOwn_iff hret).mpr ⟨?_, ?_, ?_⟩⟩
  · exact fun key hkey _ _ => hkey
  · intro key hkey _
    have hmem : key ∈ twoUsers.keys := hkey
    simp only [twoUsers, List.mem_cons, List.not_mem_nil, or_false] at hmem
    rcases hmem with rfl | rfl
    · rfl
    · rfl
  · intro hname
    exact absurd hname (by decide)

/-- With the empty name the keys of both users are deleted. -/
theorem deletes_all_users : ∃ r T t,
    (deleteAllKeys "").Returns keyServer.serve twoUsers r T t ∧ T.keys = [] ∧
      ¬ DeletesOwn "" twoUsers.keys T.keys r := by
  refine ⟨_, _, _, ⟨rfl, rfl⟩, rfl, ?_⟩
  intro hown
  have hkept := hown.others_kept [("username", .str "alice"), ("id", .str "Zm9v")]
    (List.mem_cons_self ..) rfl
  cases hkept

end AuthApiKeyManager
end Opnsense
