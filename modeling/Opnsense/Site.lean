import Opnsense.Convergence

/-! One appliance with a table for each manager. A request goes to the table of the manager
whose endpoint it names; seen from outside, the tables are cells of resources, one for each
manager and identity. -/
namespace Opnsense
open Interaction

/-- The texts at the match keys. -/
def identityOf (keys : List String) (row : Obj) : List String := keys.map row.text

theorem sameIdentity_iff_identityOf {keys : List String} {params row : Obj} :
    sameIdentity keys params row = true ↔ identityOf keys row = identityOf keys params := by
  rw [sameIdentity_iff, identityOf, identityOf, List.map_inj_left]

/-- The endpoint action a table answers under. -/
def Request.action : Request → Option String
  | .get ep _ => some ep.action
  | .search action .. => some action
  | .create action .. => some action
  | .update action .. => some action
  | .delete action _ => some action
  | .post .. => none
  | .reconfigure .. => none

namespace BaseManager

def searchAction (m : BaseManager) : String := m.listAction.getD m.config.search

def itemAction (m : BaseManager) : String := (m.config.get (.str "")).action

/-- The endpoints of the resource itself; the apply endpoint may be shared. -/
def actions (m : BaseManager) : List String :=
  [m.searchAction, m.itemAction, m.config.add, m.config.set, m.config.delete]

end BaseManager

structure Site (I : Type) where
  manager : I → BaseManager
  api : I → TableServer
  indices : List I
  complete : ∀ i, i ∈ indices
  apart : ∀ i j, i ≠ j → ∀ a ∈ (manager i).actions, a ∉ (manager j).actions
  ack : Json
  unknown : Reply

namespace Site

variable {I : Type} (site : Site I)

def owner (action : String) : Option I :=
  site.indices.find? fun i => (site.manager i).actions.contains action

/-- A read or write goes to the table it names; an apply concerns no table. -/
def serve [DecidableEq I] : Appliance (I → Table) := fun q T =>
  match q.action with
  | none => (.ok site.ack, T)
  | some action =>
    match site.owner action with
    | none => (site.unknown, T)
    | some i =>
      let answer := (site.api i).serve (site.manager i).config.payloadKey q (T i)
      (answer.1, Function.update T i answer.2)

/-- A manager and an identity. -/
abbrev Key (I : Type) := I × List String

/-- The resources of one identity in the table of one manager. -/
def cell (T : I → Table) (k : Key I) : List Resource :=
  (T k.1).resources.entries.filter fun r =>
    identityOf (site.manager k.1).matchKeys ((site.api k.1).row r) = k.2

def keyOf (i : I) (params : Obj) : Key I := (i, identityOf (site.manager i).matchKeys params)

variable {site} {i : I} {params : Obj} {T T' : I → Table}

theorem owner_eq {action : String} (h : action ∈ (site.manager i).actions) :
    site.owner action = some i := by
  cases hfind : site.owner action with
  | none =>
    have hno := List.find?_eq_none.mp hfind i (site.complete i)
    simp [h] at hno
  | some j =>
    have hj : action ∈ (site.manager j).actions := by
      simpa using List.find?_some hfind
    by_contra hne
    exact site.apart j i (fun heq => hne (congrArg some heq)) action hj h

section Answers

variable [DecidableEq I]

theorem serve_eq {q : Request} {action : String} (hq : q.action = some action)
    (h : action ∈ (site.manager i).actions) :
    site.serve q T =
      (((site.api i).serve (site.manager i).config.payloadKey q (T i)).1,
        Function.update T i
          ((site.api i).serve (site.manager i).config.payloadKey q (T i)).2) := by
  simp [serve, hq, owner_eq h]

end Answers

/-- The cell of the parameters holds the resources the lookup is after. -/
theorem cell_keyOf : site.cell T (site.keyOf i params) =
    (T i).resources.entries.filter ((site.api i).hasIdentity (site.manager i) params) := by
  apply List.filter_congr
  intro r _
  rw [Bool.eq_iff_iff, decide_eq_true_iff, TableServer.hasIdentity, sameIdentity_iff_identityOf]
  rfl

theorem mem_cell {k : Key I} {r : Resource} : r ∈ site.cell T k ↔
    r ∈ (T k.1).resources.entries ∧
      identityOf (site.manager k.1).matchKeys ((site.api k.1).row r) = k.2 := by
  simp [cell]

/-- The cells of a table that stands as it was. -/
theorem cell_congr {k : Key I} (h : (T' k.1).resources = (T k.1).resources) :
    site.cell T' k = site.cell T k := by
  rw [cell, cell, h]

/-- An entry with the uuid of the one resource of a cell is that resource, of that cell. -/
theorem identity_of_uuid {r r' : Resource} (hcell : site.cell T (site.keyOf i params) = [r])
    (hr' : r' ∈ (T i).resources.entries) (huuid : r'.uuid = r.uuid) :
    identityOf (site.manager i).matchKeys ((site.api i).row r') =
      identityOf (site.manager i).matchKeys params := by
  have hr : r ∈ site.cell T (site.keyOf i params) := by
    rw [hcell]
    exact List.mem_singleton_self _
  obtain ⟨hmem, hident⟩ := mem_cell.mp hr
  have heq : r' = r := List.inj_on_of_nodup_map (T i).resources.nodup hr' hmem huuid
  rw [heq]
  exact hident

section Writes

variable [DecidableEq I]

/-- `T'` shows the cells of `T`, but for the cell `k`, which shows `content`. -/
def Shows (site : Site I) (T T' : I → Table) (k : Key I) (content : List Resource) : Prop :=
  site.cell T' = Function.update (site.cell T) k content

/-- A table that only ticked shows the same cells. -/
theorem cell_tick (i : I) : site.cell (Function.update T i (T i).tick) = site.cell T := by
  funext k
  apply cell_congr
  by_cases hk : k.1 = i
  · subst hk
    rw [Function.update_self, Table.tick_resources]
  · rw [Function.update_of_ne hk]

/-- A write to one table, told by what it does to the class of each identity. -/
theorem shows_of_table {i : I} {ident : List String} {t : Table} {content : List Resource}
    (hself : t.resources.entries.filter (fun r =>
      identityOf (site.manager i).matchKeys ((site.api i).row r) = ident) = content)
    (hother : ∀ ident' ≠ ident, t.resources.entries.filter (fun r =>
      identityOf (site.manager i).matchKeys ((site.api i).row r) = ident') =
        site.cell T (i, ident')) :
    Shows site T (Function.update T i t) (i, ident) content := by
  funext k'
  by_cases hk : k'.1 = i
  · subst hk
    rw [cell, Function.update_self]
    by_cases hident : k'.2 = ident
    · subst hident
      rw [Function.update_self, ← hself]
    · rw [hother _ hident, Function.update_of_ne]
      exact fun heq => hident (congrArg Prod.snd heq)
  · rw [Function.update_of_ne fun heq => hk (congrArg Prod.fst heq)]
    apply cell_congr
    rw [Function.update_of_ne hk]

section Kept

variable (hfaith : TableServer.Faithful (site.api i) (site.manager i) params)
  (hkeys : ∀ k ∈ (site.manager i).matchKeys, params.has k = true)
include hfaith hkeys

theorem shows_add : Shows site T (Function.update T i ((site.api i).add params (T i)))
    (site.keyOf i params)
    (site.cell T (site.keyOf i params) ++ [(site.api i).added params (T i)]) := by
  have hident := TableServer.hasIdentity_added (T := T i) hfaith hkeys
  rw [TableServer.hasIdentity, sameIdentity_iff_identityOf] at hident
  apply shows_of_table
  · exact Keyed.filter_insert_of_true _ ((site.api i).fresh_new _ _)
      (decide_eq_true_iff.mpr hident)
  · intro ident' hne
    apply Keyed.filter_insert_of_false _ ((site.api i).fresh_new _ _)
    rw [decide_eq_false_iff_not, hident]
    exact Ne.symm hne

theorem shows_set {r : Resource} (hcell : site.cell T (site.keyOf i params) = [r]) :
    Shows site T (Function.update T i ((site.api i).set r.uuid params (T i)))
      (site.keyOf i params) [(site.api i).changed params r] := by
  -- the changed entry was of the cell, and still is
  have hstays : ∀ r', identityOf (site.manager i).matchKeys
      ((site.api i).row ((site.api i).changed params r')) =
        identityOf (site.manager i).matchKeys params := fun r' =>
    sameIdentity_iff_identityOf.mp (TableServer.hasIdentity_changed hfaith hkeys r')
  apply shows_of_table
  · have hmap := Keyed.filter_modify (t := (T i).resources) (k := r.uuid) (fun r' =>
      decide (identityOf (site.manager i).matchKeys ((site.api i).row r') =
        identityOf (site.manager i).matchKeys params)) ((site.api i).changed_uuid params)
      fun r' hr' huuid => by rw [hstays, identity_of_uuid hcell hr' huuid]
    refine hmap.trans ?_
    have hclass : (T i).resources.entries.filter (fun r' => decide (identityOf
        (site.manager i).matchKeys ((site.api i).row r') =
          identityOf (site.manager i).matchKeys params)) = [r] := hcell
    rw [hclass, List.map_singleton, if_pos rfl]
  · intro ident' hne
    apply Keyed.filter_modify_of_false _ ((site.api i).changed_uuid params)
    intro r' hr' huuid
    rw [identity_of_uuid hcell hr' huuid, hstays]
    exact ⟨decide_eq_false_iff_not.mpr (Ne.symm hne), decide_eq_false_iff_not.mpr (Ne.symm hne)⟩

end Kept

theorem shows_del {r : Resource} (hcell : site.cell T (site.keyOf i params) = [r]) :
    Shows site T (Function.update T i ((T i).del r.uuid)) (site.keyOf i params) [] := by
  apply shows_of_table
  · have hclass : (T i).resources.entries.filter (fun r' => decide (identityOf
        (site.manager i).matchKeys ((site.api i).row r') =
          identityOf (site.manager i).matchKeys params)) = [r] := hcell
    refine (Keyed.filter_erase _ (T i).resources r.uuid).trans ?_
    rw [hclass]
    simp
  · intro ident' hne
    apply Keyed.filter_erase_of_false
    intro r' hr' huuid
    rw [identity_of_uuid hcell hr' huuid]
    exact decide_eq_false_iff_not.mpr (Ne.symm hne)

end Writes

end Site
end Opnsense
