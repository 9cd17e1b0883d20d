import Opnsense.Lifecycle
import Opnsense.Resolution

namespace Opnsense
namespace BaseManager
open Interaction

variable {σ : Type} {srv : Appliance σ} {m : BaseManager} {s s' s₁ : σ}
  {t : List (Request × Reply)} {params : Obj} {check dedupe : Bool} {rows : List Obj}

theorem rowUuid_eq_text {row : Obj} (h : rowUuid row ≠ "") : rowUuid row = row.text "uuid" := by
  cases htruthy : (row.getD "uuid" (.str "")).truthy with
  | true => simp [rowUuid, htruthy, Obj.text]
  | false => exact absurd (by simp [rowUuid, htruthy]) h

theorem lookup_of_setItem {key : String} {v item : Json} {fields : Obj}
    (h : setItem key v item = .ok fields) : fields.lookup key = some v := by
  cases item with
  | obj fs =>
    cases h
    exact Obj.lookup_set_self fs key v
  | _ => cases h

/-- The rows found are the matching ones of the list reply. -/
theorem returns_findMatching {phrase : Option String} {found : List Obj}
    (h : (m.identity.findMatching params m.list phrase).Returns srv s found s' t) :
    ∃ v rows, (m.list (phrase.getD (m.identity.searchPhrase params))).Returns srv s v s' t ∧
      found = matchingRows m.matchKeys params rows ∧ (rows ≠ [] → v = .arr (rows.map .obj)) := by
  simp only [IdentityResolver.findMatching, Prog.returns_bind, Prog.returns_ofExcept,
    Prog.pure_eq_ret, Prog.returns_ret] at h
  obtain ⟨v, _, t₁, _, hlist, ⟨items, _, _, _, ⟨hitems, rfl, rfl⟩, ⟨rows, _, _, _,
    ⟨hrows, rfl, rfl⟩, ⟨rfl, rfl, rfl⟩, rfl⟩, rfl⟩, rfl⟩ := h
  refine ⟨v, rows, by simpa using hlist, rfl, fun hne => ?_⟩
  obtain rfl := asRows_eq_ok hrows
  exact iterate_eq_rows hitems hne

/-- A lookup that returned found at most one row. -/
theorem returns_findExisting {existing : Option Obj}
    (h : (m.identity.findExisting params m.list).Returns srv s existing s' t) :
    ∃ found, (m.identity.findMatching params m.list (some (m.identity.searchPhrase params))).Returns
      srv s found s' t ∧ found.length ≤ 1 ∧ existing = found.head? := by
  simp only [IdentityResolver.findExisting, Prog.returns_bind, returns_logErrorUnless] at h
  obtain ⟨⟨found, uuids⟩, s₁, t₁, t₂, ⟨found', s₂, t₃, t₄, hfind, ⟨uuids', s₃, t₅, t₆, hids, hpair,
    rfl⟩, rfl⟩, hrest, rfl⟩ := h
  obtain ⟨-, rfl, rfl⟩ := Prog.returns_ofExcept.mp hids
  obtain ⟨heq, rfl, rfl⟩ := Prog.returns_ret.mp hpair
  cases heq
  refine ⟨found, ?_⟩
  rcases found with _ | ⟨row, _ | ⟨row', rest⟩⟩
  · obtain ⟨rfl, rfl, rfl⟩ := Prog.returns_ret.mp hrest
    exact ⟨by simpa using hfind, by simp, rfl⟩
  · obtain ⟨rfl, rfl, rfl⟩ := Prog.returns_ret.mp hrest
    exact ⟨by simpa using hfind, by simp, rfl⟩
  · obtain ⟨_, _, _, _, -, hraise, -⟩ := Prog.returns_bind.mp hrest
    exact (Prog.returns_raise hraise).elim

/-- The rows found decide what a collapse returns; in check mode nothing is deleted. -/
theorem returns_collapseDuplicates {label : String} {existing : Option Obj}
    {deduped : List String}
    (h : (m.collapseDuplicates params check label).Returns srv s (existing, deduped) s' t) :
    ∃ found s₁ t₁ t₂,
      (m.identity.findMatching params m.list).Returns srv s found s₁ t₁ ∧ t = t₁ ++ t₂ ∧
      existing = found.head? ∧ deduped = found.tail.map (·.text "uuid") ∧
      if check then s' = s₁ ∧ t₂ = [] else (m.deleteAll deduped).Returns srv s₁ () s' t₂ := by
  obtain ⟨found, s₁, t₁, t₂, hfind, h, rfl⟩ := Prog.returns_bind.mp h
  refine ⟨found, s₁, t₁, t₂, hfind, rfl, ?_⟩
  rcases found with _ | ⟨survivor, _ | ⟨row, rest⟩⟩
  · obtain ⟨hret, rfl, rfl⟩ := Prog.returns_ret.mp h
    cases hret
    cases check <;> simp [deleteAll]
  · obtain ⟨hret, rfl, rfl⟩ := Prog.returns_ret.mp h
    cases hret
    cases check <;> simp [deleteAll]
  · simp only [Prog.returns_bind, returns_log] at h
    obtain ⟨u, _, _, t₃, ⟨rfl, rfl⟩, h, rfl⟩ := h
    cases check with
    | true =>
      obtain ⟨hret, rfl, rfl⟩ := Prog.returns_ret.mp h
      cases hret
      simp
    | false =>
      obtain ⟨u', s₂, t₄, _, hdel, hret, rfl⟩ := Prog.returns_bind.mp h
      obtain ⟨heq, rfl, rfl⟩ := Prog.returns_ret.mp hret
      cases heq
      simpa using hdel

theorem returns_resolve {existing : Option Obj} {deduped : List String}
    (h : (m.resolve params check none dedupe).Returns srv s (existing, deduped) s' t) :
    ∃ found s₁ t₁ t₂, (m.lookup params check dedupe).Returns srv s (found, deduped) s₁ t₁ ∧
      (m.hydrateNested found params).Returns srv s₁ existing s' t₂ ∧ t = t₁ ++ t₂ := by
  obtain ⟨⟨found, removed⟩, s₁, t₁, _, hlook, hrest, rfl⟩ := Prog.returns_bind.mp h
  obtain ⟨hydrated, s₂, t₂, _, hhyd, hret, rfl⟩ := Prog.returns_bind.mp hrest
  obtain ⟨heq, rfl, rfl⟩ := Prog.returns_ret.mp hret
  cases heq
  exact ⟨found, s₁, t₁, t₂, hlook, hhyd, by simp⟩

theorem deduped_of_returns_lookup {existing : Option Obj} {deduped : List String}
    (h : (m.lookup params check false).Returns srv s (existing, deduped) s' t) :
    deduped = [] := by
  obtain ⟨found, s₁, t₁, t₂, -, hret, -⟩ := Prog.returns_bind.mp h
  obtain ⟨heq, -, -⟩ := Prog.returns_ret.mp hret
  exact congrArg Prod.snd heq

/-- Without duplicates removed, the row looked up is the only matching one. -/
theorem returns_lookup {existing : Option Obj}
    (h : (m.lookup params check dedupe).Returns srv s (existing, []) s' t) :
    ∃ v rows s₁ t₁ t₂, (m.list (m.identity.searchPhrase params)).Returns srv s v s₁ t₁ ∧
      (rows ≠ [] → v = .arr (rows.map .obj)) ∧
      (matchingRows m.matchKeys params rows).length ≤ 1 ∧
      existing = (matchingRows m.matchKeys params rows).head? ∧ t = t₁ ++ t₂ := by
  cases dedupe with
  | false =>
    obtain ⟨found, s₁, t₁, t₂, hfind, hret, rfl⟩ := Prog.returns_bind.mp h
    obtain ⟨heq, rfl, rfl⟩ := Prog.returns_ret.mp hret
    cases heq
    obtain ⟨found', hfind', hlen, rfl⟩ := returns_findExisting hfind
    obtain ⟨v, rows, hlist, rfl, hv⟩ := returns_findMatching hfind'
    exact ⟨v, rows, _, _, _, hlist, hv, hlen, rfl, rfl⟩
  | true =>
    obtain ⟨found, s₁, t₁, t₂, hfind, rfl, rfl, hnil, -⟩ := returns_collapseDuplicates h
    obtain ⟨v, rows, hlist, rfl, hv⟩ := returns_findMatching hfind
    refine ⟨v, rows, _, _, _, hlist, hv, ?_, rfl, rfl⟩
    have hlen := congrArg List.length hnil
    rw [List.length_map, List.length_tail, List.length_nil] at hlen
    omega

theorem run_findMatching_of_list (params : Obj) (phrase : Option String)
    (hlist : (m.list (phrase.getD (m.identity.searchPhrase params))).run srv s =
      (.ok (.arr (rows.map .obj)), s₁)) :
    (m.identity.findMatching params m.list phrase).run srv s =
      (.ok (matchingRows m.matchKeys params rows), s₁) :=
  IdentityResolver.run_findMatching phrase hlist

theorem run_findExisting_of_list
    (hlist : (m.list (m.identity.searchPhrase params)).run srv s =
      (.ok (.arr (rows.map .obj)), s₁))
    (hlen : (matchingRows m.matchKeys params rows).length ≤ 1) :
    (m.identity.findExisting params m.list).run srv s =
      (.ok (matchingRows m.matchKeys params rows).head?, s₁) := by
  have hfind := run_findMatching_of_list params (some (m.identity.searchPhrase params)) hlist
  rw [IdentityResolver.findExisting, Prog.run_bind, run_logErrorUnless,
    Prog.run_bind_of_ok hfind]
  rcases hfound : matchingRows m.matchKeys params rows with _ | ⟨row, _ | ⟨row', rest⟩⟩
  · simp [Prog.run_bind]
  · simp [Prog.run_bind]
  · rw [hfound] at hlen
    simp at hlen

theorem run_lookup_of_list
    (hlist : (m.list (m.identity.searchPhrase params)).run srv s =
      (.ok (.arr (rows.map .obj)), s₁))
    (hlen : (matchingRows m.matchKeys params rows).length ≤ 1) :
    (m.lookup params check dedupe).run srv s =
      (.ok ((matchingRows m.matchKeys params rows).head?, []), s₁) := by
  cases dedupe with
  | false =>
    have hfind := run_findExisting_of_list hlist hlen
    simp [lookup, Prog.run_bind_of_ok hfind]
  | true =>
    have hfind := run_findMatching_of_list params none hlist
    simp only [lookup, collapseDuplicates, if_true, Prog.run_bind_of_ok hfind]
    rcases hfound : matchingRows m.matchKeys params rows with _ | ⟨row, _ | ⟨row', rest⟩⟩
    · simp
    · simp
    · rw [hfound] at hlen
      simp at hlen

/-- A lookup that returned after these rows found the only matching one, if any. -/
theorem returns_lookup_of_list {existing : Option Obj} {deduped : List String}
    (hlist : (m.list (m.identity.searchPhrase params)).run srv s =
      (.ok (.arr (rows.map .obj)), s₁))
    (h : (m.lookup params check false).Returns srv s (existing, deduped) s' t) :
    (matchingRows m.matchKeys params rows).length ≤ 1 ∧
      existing = (matchingRows m.matchKeys params rows).head? := by
  obtain ⟨found, s₂, t₁, t₂, hfind, hret, -⟩ := Prog.returns_bind.mp h
  obtain ⟨heq, -, -⟩ := Prog.returns_ret.mp hret
  obtain ⟨found', hmatch, hlen, hhead⟩ := returns_findExisting hfind
  have hrun := hmatch.1.symm.trans
    (run_findMatching_of_list params (some (m.identity.searchPhrase params)) hlist)
  rw [Prod.mk.injEq, Except.ok.injEq] at hrun
  rw [← hrun.1]
  exact ⟨hlen, (congrArg Prod.fst heq).trans hhead⟩

/-- What hydration makes of a row: its item under the uuid of the row, or the row itself. -/
theorem returns_hydrateNested {row : Obj} {existing : Option Obj} :
    (m.hydrateNested (some row) params).Returns srv s existing s' t ↔
      if needsFullItem row params && rowUuid row != "" then
        ∃ item fields, (m.get (.str (rowUuid row))).Returns srv s item s' t ∧
          setItem "uuid" (.str (rowUuid row)) item = .ok fields ∧ existing = some fields
      else existing = some row ∧ s' = s ∧ t = [] := by
  unfold hydrateNested
  dsimp only
  split
  · constructor
    · intro h
      obtain ⟨item, s₁, t₁, t₂, hget, hrest, rfl⟩ := Prog.returns_bind.mp h
      obtain ⟨fields, s₂, t₃, t₄, hset, hret, rfl⟩ := Prog.returns_bind.mp hrest
      obtain ⟨hitem, rfl, rfl⟩ := Prog.returns_ofExcept.mp hset
      obtain ⟨rfl, rfl, rfl⟩ := Prog.returns_ret.mp hret
      refine ⟨item, fields, ?_, hitem, rfl⟩
      rwa [List.append_nil, List.append_nil]
    · rintro ⟨item, fields, hget, hitem, rfl⟩
      refine Prog.returns_bind.mpr ⟨item, s', t, [], hget, ?_, (List.append_nil t).symm⟩
      refine Prog.returns_bind.mpr ⟨fields, s', [], [], ?_, ?_, rfl⟩
      · exact Prog.returns_ofExcept.mpr ⟨hitem, rfl, rfl⟩
      · exact Prog.returns_ret.mpr ⟨rfl, rfl, rfl⟩
  · exact Prog.returns_ret

/-- Something is compared whenever a row was found. -/
theorem found_of_returns_hydrateNested {found : Option Obj}
    (h : (m.hydrateNested found params).Returns srv s none s' t) : found = none := by
  cases found with
  | none => rfl
  | some row =>
    have hrow := returns_hydrateNested.mp h
    split at hrow
    · obtain ⟨item, fields, -, -, hnone⟩ := hrow
      cases hnone
    · cases hrow.1

end BaseManager
end Opnsense
