import Opnsense.Errors
import Opnsense.Text.Regex

namespace Opnsense

/-- A pattern anchored at both ends, `^body$`, with its source text. -/
structure Pattern where
  source : String
  body : Text.Regex

/-- The rule of one field that is no dict. -/
structure FieldRule where
  type : String
  required : Bool := false
  maxLength : Option ℕ := none
  values : List String := []
  min : Option Int := none
  max : Option Int := none
  regex : Option Pattern := none
  version : Option ℕ := none
  scope : Option String := none
  maxItems : Option ℕ := none

/-- A field specification; a dict field has specifications of its own. -/
inductive FieldSpec where
  | rule (r : FieldRule)
  | dict (required : Bool) (fields : List (String × FieldSpec))

/-- A validator gets the field name, the text of the value and the rule. -/
abbrev FieldValidator := String → String → FieldRule → Except Exc Unit

structure ValidatorRegistry where
  get : String → Option FieldValidator

/-- `value is None or value == ""` for the value `params.get(field)`. -/
def isUnset : Json → Bool
  | .null => true
  | .str s => s == ""
  | _ => false

/-- An error of a validator that is no `FieldValidationError` is wrapped in one. -/
def wrapValidatorError (field valueStr : String) : Exc → Exc
  | .fieldValidation f v r => .fieldValidation f v r
  | e => .fieldValidation field (.str valueStr) ("validation error: " ++ e.text)

def missingOrEmpty (field : String) (value : Json) (required : Bool) : Except Exc Unit :=
  if required then .error (.fieldValidation field value "required field is missing or empty")
  else .ok ()

namespace ValidatorRegistry

mutual
/-- One field of the specification against the parameters. -/
def validateField (reg : ValidatorRegistry) (params : Obj) (field : String) :
    FieldSpec → Except Exc Unit
  | .dict required fields =>
    let value := params.getD field .null
    if isUnset value then missingOrEmpty field value required
    else
      match value with
      | .obj v => validateParams reg v fields
      | v => .error (.fieldValidation field v "must be a dict")
  | .rule r =>
    let value := params.getD field .null
    if isUnset value then missingOrEmpty field value r.required
    else
      match reg.get r.type with
      | none => .ok ()
      | some validator =>
        (validator field (pyStr value) r).mapError (wrapValidatorError field (pyStr value))

/-- `validate_params`: the fields of the specification, in its order. -/
def validateParams (reg : ValidatorRegistry) (params : Obj) :
    List (String × FieldSpec) → Except Exc Unit
  | [] => .ok ()
  | (field, spec) :: rest =>
    match validateField reg params field spec with
    | .error e => .error e
    | .ok () => validateParams reg params rest
end

section Fields

variable {reg : ValidatorRegistry} {params params' : Obj} {specs : List (String × FieldSpec)}

theorem validateField_congr {key : String} (h : params.lookup key = params'.lookup key)
    (spec : FieldSpec) :
    reg.validateField params key spec = reg.validateField params' key spec := by
  have hget : params.getD key .null = params'.getD key .null := by rw [Obj.getD, Obj.getD, h]
  cases spec with
  | rule r => simp only [validateField, hget]
  | dict required fields => simp only [validateField, hget]

theorem validateParams_congr (h : ∀ fs ∈ specs,
    reg.validateField params fs.1 fs.2 = reg.validateField params' fs.1 fs.2) :
    reg.validateParams params specs = reg.validateParams params' specs := by
  induction specs with
  | nil => rfl
  | cons fs rest ih =>
    obtain ⟨field, spec⟩ := fs
    have hfield := h _ List.mem_cons_self
    have hrest := ih fun fs hfs => h fs (List.mem_cons_of_mem _ hfs)
    simp only [validateParams, hfield, hrest]

theorem validateParams_eq_ok : reg.validateParams params specs = .ok () ↔
    ∀ fs ∈ specs, reg.validateField params fs.1 fs.2 = .ok () := by
  induction specs with
  | nil => simp [validateParams]
  | cons fs rest ih =>
    obtain ⟨field, spec⟩ := fs
    rcases hfield : reg.validateField params field spec with e | ⟨⟩
    · simp [validateParams, hfield]
    · simp [validateParams, hfield, ih]

end Fields

end ValidatorRegistry
end Opnsense
