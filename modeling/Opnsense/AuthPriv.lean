import Mathlib.Data.List.Dedup
import Mathlib.Data.List.Sort
import Mathlib.Data.String.Basic
import Opnsense.DiffEngine
import Opnsense.Redaction
import Opnsense.Wire

namespace Opnsense
open Interaction

/-- The targets of one privilege: the uuid of each name, a later name shadowing an
earlier one, and the names assigned. -/
structure Targets where
  nameToUuid : List (String × String) := []
  assigned : List String := []

namespace AuthPriv

/-- One option of the dict shape; an option that is no dict is skipped. -/
def addOption (acc : Targets) : String × Json → Targets
  | (uuid, .obj v) =>
    let name := pyStr (Obj.getD v "value" (Obj.getD v "name" (.str uuid)))
    { nameToUuid := (name, uuid) :: acc.nameToUuid
      assigned :=
        if isSelected (Obj.getD v "selected" .null) then name :: acc.assigned else acc.assigned }
  | _ => acc

/-- `set(raw)`: a dict or list among the elements cannot be hashed. Elements that are no
strings name no target. -/
def hashable : List Json → Except Exc (List String)
  | [] => .ok []
  | .str s :: rest => (hashable rest).map (s :: ·)
  | .obj _ :: _ => .error (.typeError "unhashable type: 'dict'")
  | .arr _ :: _ => .error (.typeError "unhashable type: 'list'")
  | _ :: rest => hashable rest

/-- `_extract_targets` -/
def extractTargets (assignment : Json) (targetType : String) : Except Exc Targets :=
  match assignment with
  | .obj body =>
    match Obj.getD body "priv" (.obj body) with
    | .obj data =>
      match Obj.getD data (targetType ++ "s") (.str "") with
      | .obj options => .ok (options.foldl addOption {})
      | .arr names => (hashable names).map fun assigned => { assigned }
      | .str raw =>
        if raw = "" then .ok {}
        else .ok { assigned := (splitComma raw).map String.ofList }
      | _ => .ok {}
    | v => .error (Exc.noAttribute v "get")
  | v => .error (Exc.noAttribute v "get")

/-- The uuids of the assigned names that have one. -/
def selectedUuids (targets : Targets) : List String :=
  (targets.assigned.filterMap fun name => targets.nameToUuid.lookup name).filter (· != "")

/-- The uuid a name stands for, or the name itself. -/
def targetUuid (targets : Targets) (targetName : String) : String :=
  (targets.nameToUuid.lookup targetName).getD targetName

/-- The set that is posted, before it is sorted and joined. -/
def posted (targets : Targets) (targetName state : String) : List String :=
  if state = "present" then targetUuid targets targetName :: selectedUuids targets
  else (selectedUuids targets).filter (· != targetUuid targets targetName)

/-- `",".join(sorted(uuids))` for a set. -/
def joinSorted (uuids : List String) : String :=
  ",".intercalate ((uuids.dedup).insertionSort (· ≤ ·))

def payload (targetType : String) (uuids : List String) : Obj :=
  [("priv", .obj [(targetType ++ "s", .str (joinSorted uuids))])]

def after (privId targetType targetName state : String) : Json :=
  .obj [("priv_id", .str privId), ("target_type", .str targetType),
    ("target_name", .str targetName), ("state", .str state)]

def result (privId targetType targetName state : String) : EnsureResult where
  changed := true
  action := if state = "present" then .created else .deleted
  after := some (after privId targetType targetName state)

/-- The end of `ensure`: post the new set. -/
def postTargets (privId targetType targetName state : String) (targets : Targets) :
    M EnsureResult := do
  let result := result privId targetType targetName state
  let verb := if state = "present" then "assign" else "unassign"
  let _ ← logError
    (await (.post { action := "auth/priv/set_item/" ++ privId }
      (payload targetType (posted targets targetName state))))
    (fun exc => s!"privilege {verb} failed: {privId} {targetType}={targetName}: {exc.text}")
    (fun exc => [("action", .str "priv_failed"), ("priv_id", .str privId),
      ("target_type", .str targetType), ("target_name", .str targetName),
      ("error", .str exc.text)])
  let action := result.action.text
  log (if state = "present" then .info else .warning)
    s!"privilege {action}: {privId} {targetType}={targetName}"
    [("action", .str action), ("changed", .bool true), ("priv_id", .str privId),
      ("target_type", .str targetType), ("target_name", .str targetName),
      ("state", .str state)]
  return result

/-- Ensure a privilege is assigned to, or unassigned from, a target. -/
def ensure (privId targetType targetName state : String) (checkMode : Bool) :
    M EnsureResult := do
  if targetType ≠ "user" ∧ targetType ≠ "group" then
    .raise (.valueError s!"Invalid target_type '{targetType}'. Use 'user' or 'group'.")
  else if state ≠ "present" ∧ state ≠ "absent" then
    .raise (.valueError s!"Invalid state '{state}'. Use 'present' or 'absent'.")
  else
    let assignment ← await (.get { action := "auth/priv/get_item/" ++ privId })
    let targets ← .ofExcept (extractTargets assignment targetType)
    let isAssigned := targets.assigned.contains targetName
    if state = "present" ∧ isAssigned then return { changed := false, action := .noop }
    if state = "absent" ∧ !isAssigned then return { changed := false, action := .noop }
    if checkMode then return result privId targetType targetName state
    postTargets privId targetType targetName state targets

end AuthPriv
end Opnsense
