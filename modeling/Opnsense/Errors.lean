import Opnsense.Json

namespace Opnsense

/-- The classes of the `OpnsenseError` hierarchy. -/
inductive ErrorClass where
  | base | auth | permission | endpointMissing | validation | server | timeout | connection
  | ambiguousMatch
  deriving DecidableEq, Repr

/-- The `validations` are a dict, as the API answers them: where a body has another value there that
is not empty, not even `str` makes a text of the error. -/
structure OpnsenseError where
  cls : ErrorClass
  message : String
  statusCode : Option ℕ := none
  endpoint : Option String := none
  validations : Obj := []
  matchKeys : Obj := []
  uuids : List Json := []

inductive Exc where
  | opnsense (e : OpnsenseError)
  | fieldValidation (field : String) (value : Json) (rule : String)
  | valueError (message : String)
  | typeError (message : String)
  | attributeError (message : String)
  | keyError (key : String)
  | jsonDecodeError (message : String)

namespace OpnsenseError

/-- `OpnsenseError.__str__`: the context in brackets when there is any. -/
def baseText (e : OpnsenseError) : String :=
  match e.statusCode, e.endpoint with
  | none, none => e.message
  | some c, none => s!"{e.message} [{c}]"
  | none, some ep => s!"{e.message} [{ep}]"
  | some c, some ep => s!"{e.message} [{c} {ep}]"

/-- `str(exc)`; a validation error lists its fields. -/
def text (e : OpnsenseError) : String :=
  if e.validations.isEmpty then e.baseText
  else
    let fields := "; ".intercalate (e.validations.map fun kv => kv.1 ++ ": " ++ pyStr kv.2)
    s!"{e.baseText} — {fields}"

end OpnsenseError

namespace Exc

/-- `str(exc)` -/
def text : Exc → String
  | opnsense e => e.text
  | fieldValidation field value rule =>
    let got := pyRepr value
    s!"Invalid field '{field}': {rule} (got: {got})"
  | valueError m => m
  | typeError m => m
  | attributeError m => m
  | keyError k => reprStr k
  | jsonDecodeError m => m

/-- The error is an `AmbiguousMatchError`. -/
def isAmbiguous : Exc → Bool
  | opnsense e => e.cls == .ambiguousMatch
  | _ => false

/-- `v.name` on a value without that attribute. -/
def noAttribute (v : Json) (name : String) : Exc :=
  .attributeError ("'" ++ v.typeName ++ "' object has no attribute '" ++ name ++ "'")

/-- `v[key] = …` on a value that is no dict. -/
def noItemAssignment : Json → Exc
  | .arr _ => .typeError "list indices must be integers or slices, not str"
  | v => .typeError ("'" ++ v.typeName ++ "' object does not support item assignment")

end Exc
end Opnsense
