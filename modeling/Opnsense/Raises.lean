import Opnsense.Effects

namespace Opnsense
open Interaction

/-- The errors of a reply handled as what it is not. -/
def Exc.isPython : Exc → Bool
  | .typeError _ => true
  | .attributeError _ => true
  | .keyError _ => true
  | _ => false

/-- A reply whose error, if any, is among these. -/
abbrev RepliesIn (F : Exc → Prop) : Reply → Prop := fun reply => ∀ e, reply = .error e → F e

theorem noItemAssignment_python (v : Json) : (Exc.noItemAssignment v).isPython = true := by
  cases v <;> rfl

theorem unwrap_python {key : String} {v : Json} {e : Exc} (h : unwrap key v = .error e) :
    e.isPython = true := by
  cases v <;> cases h <;> rfl

theorem setItem_python {key : String} {value v : Json} {e : Exc}
    (h : setItem key value v = .error e) : e.isPython = true := by
  cases v <;> cases h <;> exact noItemAssignment_python _

theorem asDict_python {v : Json} {e : Exc} (h : asDict v = .error e) : e.isPython = true := by
  cases v <;> cases h <;> rfl

theorem iterate_python {v : Json} {e : Exc} (h : iterate v = .error e) : e.isPython = true := by
  cases v <;> cases h <;> rfl

theorem asRows_python {items : List Json} {e : Exc} (h : asRows items = .error e) :
    e.isPython = true := by
  induction items generalizing e with
  | nil => cases h
  | cons v rest ih =>
    cases v with
    | obj row =>
      rcases hrest : asRows rest with e' | rows
      · simp only [asRows, hrest, Except.map, Except.error.injEq] at h
        rw [← h]
        exact ih hrest
      · simp [asRows, hrest, Except.map] at h
    | _ => cases h; rfl

theorem redactDict_python {fields : List String} {v : Json} {e : Exc}
    (h : redactDict fields v = .error e) : e.isPython = true := by
  unfold redactDict at h
  split at h
  · cases h
  · split at h
    · cases h
      exact noItemAssignment_python _
    · cases h
  · split at h
    · cases h
      exact noItemAssignment_python _
    · cases h
  · split at h
    · cases h
    · cases h
      rfl

theorem uuidOf_python {row : Obj} {e : Exc} (h : uuidOf row = .error e) : e.isPython = true := by
  unfold uuidOf at h
  split at h
  · cases h
  · cases h
    rfl

theorem mapM_uuidOf_python {rows : List Obj} {e : Exc} (h : rows.mapM uuidOf = .error e) :
    e.isPython = true := by
  induction rows with
  | nil => cases h
  | cons row rest ih =>
    rw [List.mapM_cons] at h
    cases hrow : uuidOf row with
    | error e' =>
      rw [hrow] at h
      cases h
      exact uuidOf_python hrow
    | ok u =>
      cases hrest : rest.mapM uuidOf with
      | error e' =>
        rw [hrow, hrest] at h
        cases h
        exact ih hrest
      | ok us =>
        rw [hrow, hrest] at h
        cases h

section Parts

variable {F : Exc → Prop} {α : Type}

theorem raises_await (q : Request) : (await q).RaisesOnly (RepliesIn F) F :=
  fun _ hr => Prog.raisesOnly_ofExcept hr

theorem raises_logError {p : M α} {message : Exc → String} {extra : Exc → Obj}
    (hp : p.RaisesOnly (RepliesIn F) F) :
    (logError p message extra).RaisesOnly (RepliesIn F) F :=
  Prog.raisesOnly_onError hp _

theorem raises_logErrorUnless {skip : Exc → Bool} {p : M α} {message : Exc → String}
    {extra : Exc → Obj} (hp : p.RaisesOnly (RepliesIn F) F) :
    (logErrorUnless skip p message extra).RaisesOnly (RepliesIn F) F := by
  apply Prog.raisesOnly_rescue hp
  intro e he
  cases skip e <;> exact he

end Parts

namespace BaseManager

variable {m : BaseManager} {params : Obj} {check dedupe force : Bool} {uuid : Option String}
  {F : Exc → Prop} (hpython : ∀ e : Exc, e.isPython = true → F e)

include hpython

theorem raises_get (uuid : Json) : (m.get uuid).RaisesOnly (RepliesIn F) F := by
  apply Prog.raisesOnly_bind (raises_logError (raises_await _))
  intro body
  exact Prog.raisesOnly_ofExcept fun e he => hpython e (unwrap_python he)

omit hpython in
theorem raises_list (phrase : String) : (m.list phrase).RaisesOnly (RepliesIn F) F := by
  unfold list
  split
  · exact raises_await _
  · exact raises_logError (raises_await _)

omit hpython in
theorem raises_apply : m.apply.RaisesOnly (RepliesIn F) F := by
  unfold apply
  split
  · trivial
  · exact Prog.raisesOnly_bind (raises_logError (raises_await _)) (fun _ => trivial)

theorem raises_redact (fields : List String) (v : Json) :
    (Prog.ofExcept (redactDict fields v) : M Json).RaisesOnly (RepliesIn F) F :=
  Prog.raisesOnly_ofExcept fun e he => hpython e (redactDict_python he)

theorem raises_create : (m.create params check).RaisesOnly (RepliesIn F) F := by
  apply Prog.raisesOnly_bind (raises_redact hpython _ _)
  intro after
  cases check with
  | true => trivial
  | false =>
    refine Prog.raisesOnly_bind (raises_logError ?_) (fun _ => trivial)
    exact Prog.raisesOnly_bind (raises_await _) fun _ =>
      Prog.raisesOnly_bind raises_apply fun _ => trivial

theorem raises_update (uuid : Json) :
    (m.update uuid params check).RaisesOnly (RepliesIn F) F := by
  apply Prog.raisesOnly_bind (raises_get hpython _)
  intro before
  apply Prog.raisesOnly_bind (raises_redact hpython _ _)
  intro before
  apply Prog.raisesOnly_bind (raises_redact hpython _ _)
  intro after
  cases check with
  | true => trivial
  | false =>
    refine Prog.raisesOnly_bind (raises_logError ?_) (fun _ => trivial)
    exact Prog.raisesOnly_bind (raises_await _) fun _ => raises_apply

theorem raises_delete (uuid : Json) :
    (m.delete uuid check).RaisesOnly (RepliesIn F) F := by
  apply Prog.raisesOnly_bind (raises_get hpython _)
  intro item
  apply Prog.raisesOnly_bind (Prog.raisesOnly_ofExcept fun e he => hpython e (asDict_python he))
  intro fields
  apply Prog.raisesOnly_bind (raises_redact hpython _ _)
  intro before
  cases check with
  | true => trivial
  | false =>
    refine Prog.raisesOnly_bind (raises_logError ?_) (fun _ => trivial)
    exact Prog.raisesOnly_bind (raises_await _) fun _ => raises_apply

theorem raises_deleteAll (uuids : List String) :
    (m.deleteAll uuids).RaisesOnly (RepliesIn F) F := by
  induction uuids with
  | nil => trivial
  | cons uuid rest ih => exact Prog.raisesOnly_bind (raises_delete hpython _) fun _ => ih

theorem raises_findMatching (phrase : Option String) :
    (m.identity.findMatching params m.list phrase).RaisesOnly (RepliesIn F) F := by
  apply Prog.raisesOnly_bind (raises_list _)
  intro v
  apply Prog.raisesOnly_bind (Prog.raisesOnly_ofExcept fun e he => hpython e (iterate_python he))
  intro items
  refine Prog.raisesOnly_bind (Prog.raisesOnly_ofExcept fun e he => ?_) fun _ => trivial
  exact hpython e (asRows_python he)

theorem raises_collapseDuplicates (label : String) :
    (m.collapseDuplicates params check label).RaisesOnly (RepliesIn F) F := by
  apply Prog.raisesOnly_bind (raises_findMatching hpython _)
  intro found
  rcases found with _ | ⟨row, _ | ⟨row', rest⟩⟩
  · trivial
  · trivial
  · cases check with
    | true => trivial
    | false =>
      apply Prog.raisesOnly_bind (Prog.raisesOnly_tell _)
      intro _
      exact Prog.raisesOnly_bind (raises_deleteAll hpython _) fun _ => trivial

theorem raises_hydrateNested (existing : Option Obj) :
    (m.hydrateNested existing params).RaisesOnly (RepliesIn F) F := by
  unfold hydrateNested
  split
  · trivial
  · split
    · apply Prog.raisesOnly_bind (raises_get hpython _)
      intro full
      refine Prog.raisesOnly_bind (Prog.raisesOnly_ofExcept fun e he => ?_) fun _ => trivial
      exact hpython e (setItem_python he)
    · trivial

theorem raises_converge (state : String) (existing : Option Obj) :
    (m.converge state params check force existing).RaisesOnly (RepliesIn F) F := by
  unfold converge
  split
  · split
    · exact raises_create hpython
    · split
      · trivial
      · exact raises_update hpython _
  · split
    · trivial
    · exact raises_delete hpython _

/-- Resolving with a uuid or collapsing duplicates raises no error of its own. -/
theorem raises_resolve (h : uuid ≠ none ∨ dedupe = true) :
    (m.resolve params check uuid dedupe).RaisesOnly (RepliesIn F) F := by
  cases uuid with
  | some uuid =>
    apply Prog.raisesOnly_bind (raises_get hpython _)
    intro item
    refine Prog.raisesOnly_bind (Prog.raisesOnly_ofExcept fun e he => ?_) fun _ => trivial
    exact hpython e (setItem_python he)
  | none =>
    obtain rfl : dedupe = true := by simpa using h
    apply Prog.raisesOnly_bind (raises_collapseDuplicates hpython _)
    rintro ⟨existing, deduped⟩
    exact Prog.raisesOnly_bind (raises_hydrateNested hpython _) fun _ => trivial

/-- The lookup may find several resources; their error is the only one `ensure` adds. -/
theorem raises_findExisting (hambiguous : ∀ count uuids, F (m.identity.ambiguousMatch params count
    uuids)) : (m.identity.findExisting params m.list).RaisesOnly (RepliesIn F) F := by
  have hfound : (do
      let found ← m.identity.findMatching params m.list (some (m.identity.searchPhrase params))
      let uuids ← .ofExcept (if found.length ≤ 1 then .ok [] else found.mapM uuidOf)
      return (found, uuids) : M (List Obj × List Json)).RaisesOnly (RepliesIn F) F := by
    apply Prog.raisesOnly_bind (raises_findMatching hpython _)
    intro found
    refine Prog.raisesOnly_bind (Prog.raisesOnly_ofExcept fun e he => ?_) fun _ => trivial
    split at he
    · cases he
    · exact hpython e (mapM_uuidOf_python he)
  apply Prog.raisesOnly_bind (raises_logErrorUnless hfound)
  rintro ⟨found, uuids⟩
  rcases found with _ | ⟨row, _ | ⟨row', rest⟩⟩
  · trivial
  · trivial
  · exact hambiguous _ _

theorem raises_lookup (hambiguous : ∀ count uuids, F (m.identity.ambiguousMatch params count
    uuids)) : (m.lookup params check dedupe).RaisesOnly (RepliesIn F) F := by
  unfold lookup
  split
  · exact raises_collapseDuplicates hpython _
  · exact Prog.raisesOnly_bind (raises_findExisting hpython hambiguous) fun _ => trivial

/-- What `ensure` does behind its checks. -/
theorem raises_resolve_of_ambiguous (hambiguous : ∀ count uuids, F (m.identity.ambiguousMatch
    params count uuids)) : (m.resolve params check uuid dedupe).RaisesOnly (RepliesIn F) F := by
  cases uuid with
  | some uuid => exact raises_resolve hpython (Or.inl (by simp))
  | none =>
    apply Prog.raisesOnly_bind (raises_lookup hpython hambiguous)
    rintro ⟨existing, deduped⟩
    exact Prog.raisesOnly_bind (raises_hydrateNested hpython _) fun _ => trivial

end BaseManager
end Opnsense
