import Opnsense.BaseManager

namespace Opnsense
open Interaction

namespace CoreSnapshotManager

/-- Some builds answer the bare GET with an error; a search that works will do as well. -/
def isSupported : M Bool := do
  let probe : M (Option Json) := do
    let body ← await (.get { action := "core/snapshots/isSupported" })
    return some body
  match ← probe.rescue fun _ => pure none with
  | none =>
    let listed : M Bool := do
      let _ ← await (.search "core/snapshots/search" "" defaultRowCount)
      return true
    listed.rescue fun _ => pure false
  | some body =>
    let fields ← .ofExcept (asDict body)
    -- beside the letters of ASCII only the Kelvin sign has one of them for lower case
    let lower (c : Char) : Char := if c = '\u212a' then 'k' else c.toLower
    let status := (fields.text "status").toList.map lower
    return (["ok", "1", "true"].map String.toList).contains status ||
      (fields.getD "supported" .null).truthy

/-- `row.get("name") == name` -/
def isNamed (name : String) (row : Obj) : Bool :=
  match row.getD "name" .null with
  | .str s => s == name
  | _ => false

/-- `row["uuid"]` in an endpoint. -/
def uuidText (row : Obj) : Except Exc String := (uuidOf row).map pyStr

def list : M Json := await (.search "core/snapshots/search" "" defaultRowCount)

/-- The loop over the rows stops at the first match. -/
def firstNamed (name : String) : List Json → Except Exc (Option Obj)
  | [] => .ok none
  | .obj row :: rest => if isNamed name row then .ok (some row) else firstNamed name rest
  | v :: _ => .error (Exc.noAttribute v "get")

/-- `_find` -/
def find (name : String) : M (Option Obj) := do
  let rows ← list
  let items ← .ofExcept (iterate rows)
  .ofExcept (firstNamed name items)

def create (name : String) : M EnsureResult := do
  let extra : Obj := [("action", .str "created"), ("changed", .bool true), ("snapshot", .str name)]
  let _ ← logError (await (.post { action := "core/snapshots/add" } [("name", .str name)]))
    (fun _ => s!"snapshot create failed name={name}") (fun _ => extra)
  let row ← find name
  log .info s!"snapshot created name={name}" extra
  let after := row.getD [("name", .str name)]
  return { changed := true, action := .created, uuid := row.bind (·.lookup "uuid"),
           after := some (.obj after) }

def delete (name : String) (existing : Obj) : M EnsureResult := do
  let extra : Obj := [("action", .str "deleted"), ("changed", .bool true), ("snapshot", .str name)]
  let uuid := pyStr (existing.getD "uuid" .null)
  let _ ← logError
    (do
      let id ← .ofExcept (uuidText existing)
      await (.post { action := "core/snapshots/del", ident := some id } []))
    (fun _ => s!"snapshot delete failed name={name} uuid={uuid}") (fun _ => extra)
  log .warning s!"snapshot deleted name={name} uuid={uuid}" extra
  return { changed := true, action := .deleted, uuid := existing.lookup "uuid",
           before := some (.obj existing) }

def ensure (state name : String) (checkMode : Bool := false) : M EnsureResult := do
  if state ≠ "present" ∧ state ≠ "absent" then
    let got := reprStr state
    .raise (.valueError s!"state must be 'present' or 'absent', got {got}")
  else
    let existing ← find name
    if state = "present" then
      match existing with
      | some row => return { changed := false, action := .noop, uuid := row.lookup "uuid" }
      | none =>
        if checkMode then
          return { changed := true, action := .created, after := some (.obj [("name", .str name)]) }
        else create name
    else
      match existing with
      | none => return { changed := false, action := .noop }
      | some row =>
        if checkMode then
          return { changed := true, action := .deleted, uuid := row.lookup "uuid",
                   before := some (.obj row) }
        else delete name row

/-- Activate a snapshot for the next boot. -/
def activate (name : String) (checkMode : Bool := false) : M EnsureResult := do
  match ← find name with
  | none =>
    let quoted := reprStr name
    .raise (.keyError s!"no snapshot named {quoted}")
  | some row =>
    if (pyStr (row.getD "active" (.str ""))).toList.contains 'N' then
      return { changed := false, action := .noop, uuid := row.lookup "uuid" }
    else if checkMode then
      let uuid ← .ofExcept (uuidOf row)
      return { changed := true, action := .updated, uuid := some uuid }
    else
      let _ ← logError
        (do
          let id ← .ofExcept (uuidText row)
          await (.post { action := "core/snapshots/activate", ident := some id } []))
        (fun _ => s!"snapshot activate failed name={name}") (fun _ => [("snapshot", .str name)])
      log .info s!"snapshot activated name={name}"
        [("action", .str "updated"), ("changed", .bool true), ("snapshot", .str name)]
      let uuid ← .ofExcept (uuidOf row)
      return { changed := true, action := .updated, uuid := some uuid }

/-- Among dicts the first match is the one `find?` finds. -/
theorem firstNamed_rows (name : String) (rows : List Obj) :
    firstNamed name (rows.map .obj) = .ok (rows.find? (isNamed name)) := by
  induction rows with
  | nil => rfl
  | cons row rest ih =>
    cases hnamed : isNamed name row with
    | true => simp [firstNamed, hnamed]
    | false => simp [firstNamed, hnamed, ih]

variable {σ : Type} {srv : Appliance σ} {s s' : σ}

theorem run_find {name : String} {rows : List Obj}
    (h : srv (.search "core/snapshots/search" "" defaultRowCount) s =
      (.ok (.arr (rows.map .obj)), s')) :
    (find name).run srv s = (.ok (rows.find? (isNamed name)), s') := by
  simp [find, list, Prog.run_bind, h, iterate, firstNamed_rows]

end CoreSnapshotManager
end Opnsense
