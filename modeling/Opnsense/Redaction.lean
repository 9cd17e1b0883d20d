import Opnsense.DiffEngine
import Opnsense.Errors

namespace Opnsense

/-- `redact_dict(data, redact_fields=…)`: the named top-level fields are replaced. On a
value that is no dict the membership test or the assignment fails as Python's does. -/
def redactDict (redactFields : List String) : Json → Except Exc Json
  | .obj fs => .ok (.obj (redactFields.foldl
      (fun (o : Obj) key =>
        if o.has key then o.set key (.str ("<REDACTED:" ++ key ++ ">")) else o) fs))
  | .arr xs =>
    if redactFields.any (fun key => xs.any fun v => match v with | .str s => s == key | _ => false)
    then .error (Exc.noItemAssignment (.arr xs)) else .ok (.arr xs)
  | .str s =>
    if redactFields.any (fun key => decide (key.toList <:+: s.toList))
    then .error (Exc.noItemAssignment (.str s)) else .ok (.str s)
  | v =>
    if redactFields.isEmpty then .ok v
    else .error (.typeError ("argument of type '" ++ v.typeName ++ "' is not iterable"))

theorem redactDict_obj (redactFields : List String) (fs : Obj) :
    ∃ fs', redactDict redactFields (.obj fs) = .ok (.obj fs') :=
  ⟨_, rfl⟩

inductive Action where
  | created | updated | deleted | noop | deduped
  | issued | renewed | wouldIssued | wouldRenewed
  | signed | revoked | keyRemoved | automationRun | imported
  | started | stopped | restarted | reconfigured
  | installed | removed
  | registered | wouldRegister | cronCreated
  | upgraded
  deriving DecidableEq, Repr

def Action.text : Action → String
  | created => "created"
  | updated => "updated"
  | deleted => "deleted"
  | noop => "noop"
  | deduped => "deduped"
  | issued => "issued"
  | renewed => "renewed"
  | wouldIssued => "would_issued"
  | wouldRenewed => "would_renewed"
  | signed => "signed"
  | revoked => "revoked"
  | keyRemoved => "key_removed"
  | automationRun => "automation_run"
  | imported => "imported"
  | started => "started"
  | stopped => "stopped"
  | restarted => "restarted"
  | reconfigured => "reconfigured"
  | installed => "installed"
  | removed => "removed"
  | registered => "registered"
  | wouldRegister => "would_register"
  | cronCreated => "cron_created"
  | upgraded => "upgraded"

/-- The result of an `ensure` call; the `uuid` is whatever value the reply carried. -/
structure EnsureResult where
  changed : Bool
  action : Action
  uuid : Option Json := none
  before : Option Json := none
  after : Option Json := none
  deduped : List String := []

/-- The `uuid` unless it is `None`, which is also what a row with a null for it gives. -/
def EnsureResult.givenUuid (r : EnsureResult) : Option Json :=
  match r.uuid with
  | some .null => none
  | uuid => uuid

/-- The optional parts of a manager's log record. -/
structure LogExtra where
  uuid : Option Json := none
  before : Option Json := none
  after : Option Json := none
  changed : Option Bool := none
  checkMode : Option Bool := none
  error : Option String := none

/-- `ManagerLogBuilder.build_extra`, without the elapsed time. -/
def buildExtra (action : String) (matchFields : Obj) (x : LogExtra) : Obj :=
  [("action", .str action)]
    ++ (x.checkMode.map fun b => ("check_mode", .bool b)).toList
    ++ (x.changed.map fun b => ("changed", .bool b)).toList
    ++ (x.uuid.map fun u => ("uuid", u)).toList
    ++ matchFields
    ++ (x.before.map fun b => ("before", b)).toList
    ++ (x.after.map fun a => ("after", a)).toList
    ++ (x.error.map fun e => ("error", .str e)).toList

end Opnsense
