import Mathlib.Algebra.Ring.Int.Defs
import Mathlib.Algebra.Ring.Nat
import Opnsense.FieldTypes

/-! `validate_params` to its full depth, against what a specification asks of every path it names.
Here `str` has the limit that `int` has: an integer of more digits has no text. -/
namespace Opnsense

namespace Interpreter

mutual
/-- `str(v)` and `repr(v)` raise nothing. -/
def writes (py : Interpreter) : Json → Bool
  | .int n => py.maxStrDigits == 0 || decide (n.natAbs < 10 ^ py.maxStrDigits)
  | .arr vs => py.writesItems vs
  | .obj fs => py.writesFields fs
  | _ => true

def writesItems (py : Interpreter) : List Json → Bool
  | [] => true
  | v :: vs => py.writes v && py.writesItems vs

def writesFields (py : Interpreter) : List (String × Json) → Bool
  | [] => true
  | (_, v) :: fs => py.writes v && py.writesFields fs
end

section Validate

variable (py : Interpreter) (reg : ValidatorRegistry)

/-- What `str` raises past its limit. -/
def tooManyDigits : Exc :=
  let limit := py.maxStrDigits
  .valueError (s!"Exceeds the limit ({limit} digits) for integer string conversion; " ++
    "use sys.set_int_max_str_digits() to increase the limit")

/-- `FieldValidationError(field, value, rule)`: its message shows the value. -/
def fieldValidationError (field : String) (value : Json) (rule : String) : Exc :=
  if py.writes value then .fieldValidation field value rule else py.tooManyDigits

mutual
/-- One field of the specification; `str` stands before the `try` around the validator. -/
def validateField (params : Obj) (field : String) : FieldSpec → Except Exc Unit
  | .dict required fields =>
    let value := params.getD field .null
    if isUnset value then missingOrEmpty field value required
    else
      match value with
      | .obj v => validateParams v fields
      | v => .error (py.fieldValidationError field v "must be a dict")
  | .rule r =>
    let value := params.getD field .null
    if isUnset value then missingOrEmpty field value r.required
    else if py.writes value then
      match reg.get r.type with
      | none => .ok ()
      | some validator =>
        (validator field (pyStr value) r).mapError (wrapValidatorError field (pyStr value))
    else .error py.tooManyDigits

/-- `validate_params` -/
def validateParams (params : Obj) : List (String × FieldSpec) → Except Exc Unit
  | [] => .ok ()
  | (field, spec) :: rest =>
    match validateField params field spec with
    | .error e => .error e
    | .ok () => validateParams params rest
end

end Validate

theorem writes_getD {py : Interpreter} {params : Obj} (h : py.writesFields params = true)
    (field : String) : py.writes (params.getD field .null) = true := by
  induction params with
  | nil => rfl
  | cons kv rest ih =>
    obtain ⟨key, v⟩ := kv
    simp only [writesFields, Bool.and_eq_true] at h
    have hrest := ih h.2
    by_cases hkey : field = key
    · subst hkey
      simpa [Obj.getD] using h.1
    · have hskip : Obj.getD ((key, v) :: rest) field .null = Obj.getD rest field .null := by
        simp [Obj.getD, List.lookup_cons, beq_eq_false_iff_ne.mpr hkey]
      rw [hskip]
      exact hrest

mutual
theorem validateField_eq {py : Interpreter} {reg : ValidatorRegistry} {params : Obj}
    (h : py.writesFields params = true) (field : String) (spec : FieldSpec) :
    py.validateField reg params field spec = reg.validateField params field spec := by
  have hvalue := writes_getD h field
  cases spec with
  | rule r =>
    -- with or without a validator
    cases hget : reg.get r.type with
    | none => simp only [validateField, ValidatorRegistry.validateField, hvalue, hget, if_true]
    | some validator =>
      simp only [validateField, ValidatorRegistry.validateField, hvalue, hget, if_true]
  | dict required fields =>
    simp only [validateField, ValidatorRegistry.validateField]
    split
    · rfl
    · generalize hgiven : params.getD field .null = value
      rw [hgiven] at hvalue
      cases value with
      | obj v => exact validateParams_eq hvalue fields
      | _ => simp only [fieldValidationError, hvalue, if_true]

/-- Where every integer of the parameters has a text, the limit makes no difference. -/
theorem validateParams_eq {py : Interpreter} {reg : ValidatorRegistry} {params : Obj}
    (h : py.writesFields params = true) (specs : List (String × FieldSpec)) :
    py.validateParams reg params specs = reg.validateParams params specs := by
  rcases specs with _ | ⟨⟨field, spec⟩, rest⟩
  · rfl
  · have hfield := @validateField_eq py reg params h field spec
    have hrest := @validateParams_eq py reg params h rest
    rw [validateParams, ValidatorRegistry.validateParams, hfield]
    rcases reg.validateField params field spec with e | ⟨⟩
    · rfl
    · exact hrest
end

end Interpreter

section Paths

/-- A specification asks of `scope` that its value `field` satisfy a rule: at the top, or within
the dict that a path leads to. -/
inductive Asks : Obj → List (String × FieldSpec) → Obj → String → FieldSpec → Prop
  | here {params specs field spec} (hmem : (field, spec) ∈ specs) :
      Asks params specs params field spec
  | inside {params specs field required fields v scope f spec}
      (hmem : (field, .dict required fields) ∈ specs) (hv : params.getD field .null = .obj v)
      (hasks : Asks v fields scope f spec) : Asks params specs scope f spec

/-- The types that the rules of a specification name. -/
inductive NamesType : List (String × FieldSpec) → String → Prop
  | here {specs field r} (hmem : (field, .rule r) ∈ specs) : NamesType specs r.type
  | inside {specs field required fields type} (hmem : (field, .dict required fields) ∈ specs)
      (hnames : NamesType fields type) : NamesType specs type

variable (py : Interpreter) (reg : ValidatorRegistry)

def Registered (specs : List (String × FieldSpec)) : Prop :=
  ∀ type, NamesType specs type → (reg.get type).isSome

/-- The rule of one path: only what is not required is unset, a dict is a dict, and any other
value has a text that the validator of its type accepts. -/
def Meets (scope : Obj) (field : String) : FieldSpec → Prop
  | .rule r =>
    let value := scope.getD field .null
    if isUnset value then r.required = false
    else py.writes value = true ∧
      ∃ validator, reg.get r.type = some validator ∧ validator field (pyStr value) r = .ok ()
  | .dict required _ =>
    let value := scope.getD field .null
    if isUnset value then required = false else value.isDict = true

def Satisfied (params : Obj) (specs : List (String × FieldSpec)) : Prop :=
  ∀ scope field spec, Asks params specs scope field spec → Meets py reg scope field spec

/-- The specifications agree but for the order of their fields, at any depth. -/
inductive Reordered : List (String × FieldSpec) → List (String × FieldSpec) → Prop
  | perm {specs specs'} (h : specs.Perm specs') : Reordered specs specs'
  | inside {fields fields'} (before after field required) (h : Reordered fields fields') :
      Reordered (before ++ (field, .dict required fields) :: after)
        (before ++ (field, .dict required fields') :: after)
  | trans {specs specs' specs''} (h : Reordered specs specs') (h' : Reordered specs' specs'') :
      Reordered specs specs''

/-- The parameters agree on every path that the specification names. -/
inductive SameNamed : List (String × FieldSpec) → Obj → Obj → Prop
  | nil (params params') : SameNamed [] params params'
  | same {field spec rest params params'} (hv : params.lookup field = params'.lookup field)
      (h : SameNamed rest params params') : SameNamed ((field, spec) :: rest) params params'
  | dict {field required fields rest params params' v v'}
      (hv : params.lookup field = some (.obj v)) (hv' : params'.lookup field = some (.obj v'))
      (hfields : SameNamed fields v v') (h : SameNamed rest params params') :
      SameNamed ((field, .dict required fields) :: rest) params params'

/-- The value has no text, and the check of its field is going to need it. -/
def Wordless (scope : Obj) (field : String) (spec : FieldSpec) : Prop :=
  let value := scope.getD field .null
  py.writes value = false ∧ ∀ required fields, spec = .dict required fields → value.isDict = false

/-- In the order of the specification, a value without a text comes before any path that does not
satisfy its rule. -/
inductive Stuck : Obj → List (String × FieldSpec) → Prop
  | here {params field spec rest} (h : Wordless py params field spec) :
      Stuck params ((field, spec) :: rest)
  | inside {params field required fields rest v} (hv : params.getD field .null = .obj v)
      (h : Stuck v fields) : Stuck params ((field, .dict required fields) :: rest)
  | later {params field spec rest} (hfirst : Satisfied py reg params [(field, spec)])
      (h : Stuck params rest) : Stuck params ((field, spec) :: rest)

/-- The validation is complete: it returns exactly when every path satisfies its rule, it raises
nothing but `FieldValidationError`, and its verdict is one for all orders of the specification and
for whatever else the parameters hold. -/
def ValidatesCompletely (specs : List (String × FieldSpec)) (params : Obj) : Prop :=
  (py.validateParams reg params specs = .ok () ↔ Satisfied py reg params specs) ∧
  (∀ e, py.validateParams reg params specs = .error e →
    ∃ field value rule, e = .fieldValidation field value rule) ∧
  ∀ specs' params', Reordered specs specs' → SameNamed specs params params' →
    (py.validateParams reg params' specs' = .ok () ↔ py.validateParams reg params specs = .ok ())

end Paths

section Asks

variable {py : Interpreter} {reg : ValidatorRegistry} {params : Obj} {field : String}
  {spec : FieldSpec} {rest specs : List (String × FieldSpec)}

theorem Asks.mono {specs' : List (String × FieldSpec)} {scope : Obj} {f : String}
    {s : FieldSpec} (h : Asks params specs scope f s) (hsub : ∀ fs ∈ specs, fs ∈ specs') :
    Asks params specs' scope f s := by
  cases h with
  | here hmem => exact .here (hsub _ hmem)
  | inside hmem hv hasks => exact .inside (hsub _ hmem) hv hasks

theorem NamesType.mono {specs' : List (String × FieldSpec)} {type : String}
    (h : NamesType specs type) (hsub : ∀ fs ∈ specs, fs ∈ specs') : NamesType specs' type := by
  cases h with
  | here hmem => exact .here (hsub _ hmem)
  | inside hmem hnames => exact .inside (hsub _ hmem) hnames

/-- A path belongs to one field. -/
theorem Asks.of_field {scope : Obj} {f : String} {s : FieldSpec}
    (h : Asks params specs scope f s) : ∃ fs ∈ specs, Asks params [fs] scope f s := by
  cases h with
  | here hmem => exact ⟨_, hmem, .here (List.mem_singleton_self _)⟩
  | inside hmem hv hasks => exact ⟨_, hmem, .inside (List.mem_singleton_self _) hv hasks⟩

theorem satisfied_iff_forall : Satisfied py reg params specs ↔
    ∀ fs ∈ specs, Satisfied py reg params [fs] := by
  constructor
  · intro h fs hfs scope f s hasks
    refine h scope f s (hasks.mono fun x hx => ?_)
    rwa [List.mem_singleton.mp hx]
  · intro h scope f s hasks
    obtain ⟨fs, hfs, hone⟩ := hasks.of_field
    exact h fs hfs scope f s hone

theorem satisfied_cons : Satisfied py reg params ((field, spec) :: rest) ↔
    Satisfied py reg params [(field, spec)] ∧ Satisfied py reg params rest := by
  rw [satisfied_iff_forall, List.forall_mem_cons, ← satisfied_iff_forall]

theorem satisfied_rule {r : FieldRule} : Satisfied py reg params [(field, .rule r)] ↔
    Meets py reg params field (.rule r) := by
  constructor
  · intro h
    exact h params field _ (.here (List.mem_singleton_self _))
  · intro h scope f s hasks
    cases hasks with
    | here hmem => cases List.mem_singleton.mp hmem; exact h
    | inside hmem hv hasks => cases List.mem_singleton.mp hmem

theorem satisfied_dict {required : Bool} {fields : List (String × FieldSpec)} :
    Satisfied py reg params [(field, .dict required fields)] ↔
      Meets py reg params field (.dict required fields) ∧
        ∀ v, params.getD field .null = .obj v → Satisfied py reg v fields := by
  constructor
  · intro h
    refine ⟨h params field _ (.here (List.mem_singleton_self _)), fun v hv scope f s hasks => ?_⟩
    exact h scope f s (.inside (List.mem_singleton_self _) hv hasks)
  · rintro ⟨hmeets, hfields⟩ scope f s hasks
    cases hasks with
    | here hmem => cases List.mem_singleton.mp hmem; exact hmeets
    | inside hmem hv hasks => cases List.mem_singleton.mp hmem; exact hfields _ hv scope f s hasks

end Asks

section Walk

variable {py : Interpreter} {reg : ValidatorRegistry}

/-- The outcomes of the walk, and what each of them says of the parameters. -/
inductive Outcome (py : Interpreter) (reg : ValidatorRegistry) (params : Obj)
    (specs : List (String × FieldSpec)) : Except Exc Unit → Prop
  | accepted (h : Satisfied py reg params specs) : Outcome py reg params specs (.ok ())
  | refused (field value rule) (h : ¬ Satisfied py reg params specs)
      (hwords : ¬ Stuck py reg params specs) :
      Outcome py reg params specs (.error (.fieldValidation field value rule))
  | stuck (h : Stuck py reg params specs) :
      Outcome py reg params specs (.error py.tooManyDigits)

theorem not_satisfied_of_wordless {params : Obj} {field : String} {spec : FieldSpec}
    (h : Wordless py params field spec) : ¬ Meets py reg params field spec := by
  obtain ⟨hwrites, hdict⟩ := h
  have hset : isUnset (params.getD field .null) = false := by
    generalize params.getD field .null = value at hwrites ⊢
    cases value with
    | null => cases hwrites
    | str s => cases hwrites
    | _ => rfl
  intro hmeets
  cases spec with
  | rule r =>
    simp only [Meets, hset, Bool.false_eq_true, if_false, hwrites, false_and] at hmeets
  | dict required fields =>
    simp only [Meets, hset, Bool.false_eq_true, if_false, hdict required fields rfl] at hmeets

/-- What stops the walk does not satisfy the specification. -/
theorem Stuck.not_satisfied {params : Obj} {specs : List (String × FieldSpec)}
    (h : Stuck py reg params specs) : ¬ Satisfied py reg params specs := by
  induction h with
  | here hwordless =>
    exact fun hall => not_satisfied_of_wordless hwordless
      (hall _ _ _ (.here List.mem_cons_self))
  | inside hv _ ih =>
    exact fun hall => ih fun scope f s hasks => hall scope f s (.inside List.mem_cons_self hv hasks)
  | later _ _ ih => exact fun hall => ih (satisfied_cons.mp hall).2

section Field

variable {params : Obj} {field : String} {spec : FieldSpec}
  {rest fields : List (String × FieldSpec)} {r : FieldRule} {required : Bool}

theorem not_stuck_nil : ¬ Stuck py reg params [] := by
  intro h
  cases h

theorem stuck_cons : Stuck py reg params ((field, spec) :: rest) ↔
    Stuck py reg params [(field, spec)] ∨
      Satisfied py reg params [(field, spec)] ∧ Stuck py reg params rest := by
  constructor
  · intro h
    cases h with
    | here hwordless => exact Or.inl (.here hwordless)
    | inside hv hfields => exact Or.inl (.inside hv hfields)
    | later hfirst hrest => exact Or.inr ⟨hfirst, hrest⟩
  · rintro (h | ⟨hfirst, hrest⟩)
    · cases h with
      | here hwordless => exact .here hwordless
      | inside hv hfields => exact .inside hv hfields
      | later hfirst hrest => exact absurd hrest not_stuck_nil
    · exact .later hfirst hrest

theorem stuck_rule : Stuck py reg params [(field, .rule r)] ↔
    py.writes (params.getD field .null) = false := by
  constructor
  · intro h
    cases h with
    | here hwordless => exact hwordless.1
    | later hfirst hrest => exact absurd hrest not_stuck_nil
  · intro h
    refine .here ⟨h, fun required fields hspec => ?_⟩
    cases hspec

theorem stuck_dict : Stuck py reg params [(field, .dict required fields)] ↔
    Wordless py params field (.dict required fields) ∨
      ∃ v, params.getD field .null = .obj v ∧ Stuck py reg v fields := by
  constructor
  · intro h
    cases h with
    | here hwordless => exact Or.inl hwordless
    | inside hv hfields => exact Or.inr ⟨_, hv, hfields⟩
    | later hfirst hrest => exact absurd hrest not_stuck_nil
  · rintro (h | ⟨v, hv, hfields⟩)
    · exact .here h
    · exact .inside hv hfields

theorem wrapValidatorError_eq (valueStr : String) (e : Exc) :
    ∃ f value rule, wrapValidatorError field valueStr e = .fieldValidation f value rule := by
  cases e <;> exact ⟨_, _, _, rfl⟩

/-- A value that is not a dict has the check of a dict field fail. -/
theorem outcome_notDict (hset : isUnset (params.getD field .null) = false)
    (hdict : (params.getD field .null).isDict = false) :
    Outcome py reg params [(field, .dict required fields)]
      (.error (py.fieldValidationError field (params.getD field .null) "must be a dict")) := by
  have hmeets : ¬ Meets py reg params field (.dict required fields) := by
    simp only [Meets, hset, hdict, Bool.false_eq_true, if_false, not_false_eq_true]
  by_cases hwrites : py.writes (params.getD field .null) = true
  · rw [Interpreter.fieldValidationError, if_pos hwrites]
    refine .refused _ _ _ (fun h => hmeets (satisfied_dict.mp h).1) fun h => ?_
    rcases stuck_dict.mp h with hwordless | ⟨v, hv, -⟩
    · rw [hwordless.1] at hwrites
      cases hwrites
    · rw [hv] at hdict
      cases hdict
  · rw [Interpreter.fieldValidationError, if_neg hwrites]
    refine .stuck (stuck_dict.mpr (Or.inl ⟨?_, fun _ _ _ => hdict⟩))
    simpa using hwrites

/-- An unset value has a text, and is no dict. -/
theorem of_isUnset {value : Json} (h : isUnset value = true) :
    py.writes value = true ∧ value.isDict = false := by
  cases value with
  | null => exact ⟨rfl, rfl⟩
  | str s => exact ⟨rfl, rfl⟩
  | _ => cases h

theorem outcome_unset {specRequired : Bool} (hunset : isUnset (params.getD field .null) = true)
    (hmeets : Meets py reg params field spec ↔ specRequired = false) :
    Outcome py reg params [(field, spec)]
      (missingOrEmpty field (params.getD field .null) specRequired) := by
  obtain ⟨hwrites, hdict⟩ := @of_isUnset py _ hunset
  have hnotDict : ∀ v, params.getD field .null ≠ .obj v := by
    intro v hv
    rw [hv] at hdict
    cases hdict
  have hwords : ¬ Stuck py reg params [(field, spec)] := by
    intro h
    cases h with
    | here hwordless =>
      rw [hwordless.1] at hwrites
      cases hwrites
    | inside hv hfields => exact hnotDict _ hv
    | later hfirst hrest => exact not_stuck_nil hrest
  have hsatisfied : Satisfied py reg params [(field, spec)] ↔ Meets py reg params field spec := by
    cases spec with
    | rule r => exact satisfied_rule
    | dict required fields =>
      exact satisfied_dict.trans (and_iff_left fun v hv => absurd hv (hnotDict v))
  cases specRequired with
  | true => exact .refused _ _ _ (fun h => by simpa using hmeets.mp (hsatisfied.mp h)) hwords
  | false => exact .accepted (hsatisfied.mpr (hmeets.mpr rfl))

theorem outcome_rule (hreg : (reg.get r.type).isSome) :
    Outcome py reg params [(field, .rule r)] (py.validateField reg params field (.rule r)) := by
  obtain ⟨validator, hvalidator⟩ := Option.isSome_iff_exists.mp hreg
  rw [Interpreter.validateField]
  by_cases hunset : isUnset (params.getD field .null) = true
  · rw [if_pos hunset]
    exact outcome_unset hunset (by simp only [Meets, hunset, if_true])
  · by_cases hwrites : py.writes (params.getD field .null) = true
    · simp only [if_neg hunset, if_pos hwrites, hvalidator]
      have hmeets : Meets py reg params field (.rule r) ↔
          validator field (pyStr (params.getD field .null)) r = .ok () := by
        simp only [Meets, if_neg hunset, hwrites, true_and, hvalidator, Option.some.injEq,
          exists_eq_left']
      rcases hcheck : validator field (pyStr (params.getD field .null)) r with e | ⟨⟩
      · obtain ⟨f, value, rule, hwrap⟩ := @wrapValidatorError_eq field
          (pyStr (params.getD field .null)) e
        rw [Except.mapError, hwrap]
        refine .refused _ _ _ (fun h => ?_) fun h => ?_
        · rw [satisfied_rule, hmeets, hcheck] at h
          cases h
        · rw [stuck_rule, hwrites] at h
          cases h
      · exact .accepted (satisfied_rule.mpr (hmeets.mpr hcheck))
    · simp only [if_neg hunset, if_neg hwrites]
      exact .stuck (stuck_rule.mpr (by simpa using hwrites))

/-- The check of a dict field is that of its own fields. -/
theorem outcome_inside {v : Obj} {o : Except Exc Unit} (hv : params.getD field .null = .obj v)
    (h : Outcome py reg v fields o) : Outcome py reg params [(field, .dict required fields)] o := by
  have hmeets : Meets py reg params field (.dict required fields) := by
    simp only [Meets, hv, isUnset, Json.isDict, Bool.false_eq_true, if_false]
  have hsatisfied : Satisfied py reg params [(field, .dict required fields)] ↔
      Satisfied py reg v fields := by
    rw [satisfied_dict, and_iff_right hmeets, hv]
    exact ⟨fun h => h v rfl, fun h w hw => Json.obj.inj hw ▸ h⟩
  cases h with
  | accepted h => exact .accepted (hsatisfied.mpr h)
  | refused f value rule h hwords =>
    refine .refused f value rule (fun hall => h (hsatisfied.mp hall)) fun hstuck => ?_
    rcases stuck_dict.mp hstuck with hwordless | ⟨w, hw, hfields⟩
    · exact not_satisfied_of_wordless hwordless hmeets
    · rw [hv] at hw
      cases hw
      exact hwords hfields
  | stuck h => exact .stuck (.inside hv h)

/-- The first field whose check fails decides. -/
theorem outcome_cons (hfirst : Outcome py reg params [(field, spec)]
      (py.validateField reg params field spec))
    (hrest : Outcome py reg params rest (py.validateParams reg params rest)) :
    Outcome py reg params ((field, spec) :: rest)
      (py.validateParams reg params ((field, spec) :: rest)) := by
  rw [Interpreter.validateParams]
  generalize py.validateField reg params field spec = o at hfirst
  cases hfirst with
  | accepted hfield =>
    generalize py.validateParams reg params rest = o at hrest
    cases hrest with
    | accepted h => exact .accepted (satisfied_cons.mpr ⟨hfield, h⟩)
    | refused f value rule h hwords =>
      refine .refused f value rule (fun hall => h (satisfied_cons.mp hall).2) fun hstuck => ?_
      rcases stuck_cons.mp hstuck with hone | ⟨-, hlater⟩
      · exact hone.not_satisfied hfield
      · exact hwords hlater
    | stuck h => exact .stuck (.later hfield h)
  | refused f value rule h hwords =>
    refine .refused f value rule (fun hall => h (satisfied_cons.mp hall).1) fun hstuck => ?_
    rcases stuck_cons.mp hstuck with hone | ⟨hfield, -⟩
    · exact hwords hone
    · exact h hfield
  | stuck h => exact .stuck (stuck_cons.mpr (Or.inl h))

end Field

mutual
theorem outcome_field {params : Obj} {field : String} (spec : FieldSpec)
    (hreg : Registered reg [(field, spec)]) :
    Outcome py reg params [(field, spec)] (py.validateField reg params field spec) := by
  cases spec with
  | rule r => exact outcome_rule (hreg _ (.here (List.mem_singleton_self _)))
  | dict required fields =>
    rw [Interpreter.validateField]
    by_cases hunset : isUnset (params.getD field .null) = true
    · rw [if_pos hunset]
      exact outcome_unset hunset (by simp only [Meets, hunset, if_true])
    · have hset : isUnset (params.getD field .null) = false := by simpa using hunset
      simp only [if_neg hunset]
      cases hvalue : params.getD field .null with
      | obj v =>
        have hfields : Outcome py reg v fields (py.validateParams reg v fields) :=
          outcome_params fields fun type hnames =>
            hreg type (.inside (List.mem_singleton_self _) hnames)
        exact outcome_inside hvalue hfields
      | _ =>
        have hnot := @outcome_notDict py reg params field fields required hset (by rw [hvalue]; rfl)
        rwa [hvalue] at hnot

/-- The walk accepts what satisfies the specification, and stops at the first path that does not. -/
theorem outcome_params {params : Obj} (specs : List (String × FieldSpec))
    (hreg : Registered reg specs) :
    Outcome py reg params specs (py.validateParams reg params specs) := by
  rcases specs with _ | ⟨⟨field, spec⟩, rest⟩
  · refine .accepted fun scope f s hasks => ?_
    obtain ⟨fs, hfs, -⟩ := hasks.of_field
    cases hfs
  · have hfirst : Registered reg [(field, spec)] := fun type hnames => hreg type
      (hnames.mono fun fs hfs => List.mem_singleton.mp hfs ▸ List.mem_cons_self)
    have hrest : Registered reg rest := fun type hnames => hreg type
      (hnames.mono fun fs hfs => List.mem_cons_of_mem _ hfs)
    exact outcome_cons (outcome_field spec hfirst) (outcome_params rest hrest)
end

end Walk

section Verdict

variable {py : Interpreter} {reg : ValidatorRegistry} {params params' : Obj} {field : String}
  {required : Bool} {specs specs' fields fields' : List (String × FieldSpec)}

theorem validateParams_eq_ok : py.validateParams reg params specs = .ok () ↔
    ∀ fs ∈ specs, py.validateField reg params fs.1 fs.2 = .ok () := by
  induction specs with
  | nil => simp [Interpreter.validateParams]
  | cons fs rest ih =>
    obtain ⟨field, spec⟩ := fs
    rcases hfield : py.validateField reg params field spec with e | ⟨⟩
    · simp [Interpreter.validateParams, hfield]
    · simp [Interpreter.validateParams, hfield, ih]

theorem validateField_dict {v : Obj} (hv : params.getD field .null = .obj v) :
    py.validateField reg params field (.dict required fields) =
      py.validateParams reg v fields := by
  simp only [Interpreter.validateField, hv, isUnset, Bool.false_eq_true, if_false]

/-- Only the dict of a dict field meets its fields. -/
theorem validateField_dict_congr (h : ∀ v, py.validateParams reg v fields = .ok () ↔
      py.validateParams reg v fields' = .ok ()) :
    py.validateField reg params field (.dict required fields) = .ok () ↔
      py.validateField reg params field (.dict required fields') = .ok () := by
  cases hvalue : params.getD field .null with
  | obj v => rw [validateField_dict hvalue, validateField_dict hvalue, h v]
  | _ => simp only [Interpreter.validateField, hvalue]

theorem Reordered.verdict (h : Reordered specs specs') (params : Obj) :
    py.validateParams reg params specs = .ok () ↔ py.validateParams reg params specs' = .ok () := by
  induction h generalizing params with
  | perm h =>
    rw [validateParams_eq_ok, validateParams_eq_ok]
    exact ⟨fun hall fs hfs => hall fs (h.mem_iff.mpr hfs),
      fun hall fs hfs => hall fs (h.mem_iff.mp hfs)⟩
  | inside before after field required h ih =>
    have hone := @validateField_dict_congr py reg params field required _ _ ih
    simp only [validateParams_eq_ok, List.forall_mem_append, List.forall_mem_cons, hone]
  | trans h h' ih ih' => exact (ih params).trans (ih' params)

theorem SameNamed.verdict (h : SameNamed specs params params') :
    py.validateParams reg params specs = .ok () ↔ py.validateParams reg params' specs = .ok () := by
  induction h with
  | nil params params' => exact Iff.rfl
  | @same field spec rest params params' hv _ ih =>
    have hfield : py.validateField reg params field spec =
        py.validateField reg params' field spec := by
      have hget : params.getD field .null = params'.getD field .null := by
        rw [Obj.getD, Obj.getD, hv]
      cases spec with
      | rule r => simp only [Interpreter.validateField, hget]
      | dict required fields => simp only [Interpreter.validateField, hget]
    rw [validateParams_eq_ok, validateParams_eq_ok] at ih ⊢
    simp only [List.forall_mem_cons, hfield, ih]
  | @dict field required fields rest params params' v v' hv hv' _ _ ihfields ih =>
    rw [validateParams_eq_ok, validateParams_eq_ok] at ih ⊢
    simp only [List.forall_mem_cons, validateField_dict (Obj.getD_of_lookup hv _),
      validateField_dict (Obj.getD_of_lookup hv' _), ihfields, ih]

/-- For every interpreter, registry, specification and parameters the validation is complete
unless the walk comes upon a value without a text. -/
theorem validatesCompletely_iff (py : Interpreter) (reg : ValidatorRegistry)
    (specs : List (String × FieldSpec)) (params : Obj) (hreg : Registered reg specs) :
    ValidatesCompletely py reg specs params ↔ ¬ Stuck py reg params specs := by
  have hverdict : ∀ specs' params', Reordered specs specs' → SameNamed specs params params' →
      (py.validateParams reg params' specs' = .ok () ↔
        py.validateParams reg params specs = .ok ()) := by
    intro specs' params' hreordered hsame
    exact (hreordered.verdict params').symm.trans hsame.verdict.symm
  have houtcome := @outcome_params py reg params specs hreg
  rw [ValidatesCompletely]
  generalize py.validateParams reg params specs = o at houtcome hverdict ⊢
  cases houtcome with
  | accepted h =>
    refine ⟨fun _ hstuck => hstuck.not_satisfied h, fun _ => ⟨by simp [h], ?_, hverdict⟩⟩
    intro e he
    cases he
  | refused f value rule h hwords =>
    refine ⟨fun _ => hwords, fun _ => ⟨by simp [h], ?_, hverdict⟩⟩
    intro e he
    cases he
    exact ⟨f, value, rule, rfl⟩
  | stuck h =>
    refine ⟨fun hcomplete => ?_, fun hnot => absurd h hnot⟩
    obtain ⟨f, value, rule, he⟩ := hcomplete.2.1 _ rfl
    cases he

/-- A required dict with a field of its own. -/
def optionsSpec : List (String × FieldSpec) :=
  [("options", .dict true [("enabled", .rule { type := "bool_str" })])]

theorem registered_optionsSpec : Registered validatorRegistry optionsSpec := by
  intro type hnames
  cases hnames with
  | here hmem => cases List.mem_singleton.mp hmem
  | inside hmem hnames =>
    cases List.mem_singleton.mp hmem
    cases hnames with
    | here hmem => cases List.mem_singleton.mp hmem; rfl
    | inside hmem hnames => cases List.mem_singleton.mp hmem

/-- Switched-on options pass, and their validation is complete. -/
theorem options_validatesCompletely :
    let params : Obj := [("options", .obj [("enabled", .str "1")])]
    Registered validatorRegistry optionsSpec ∧
      ValidatesCompletely interpreter validatorRegistry optionsSpec params := by
  intro params
  refine ⟨registered_optionsSpec, (validatesCompletely_iff interpreter validatorRegistry
    optionsSpec params registered_optionsSpec).mpr ?_⟩
  intro hstuck
  rcases stuck_dict.mp hstuck with hwordless | ⟨v, hv, hfields⟩
  · cases hwordless.1
  · cases hv
    cases stuck_rule.mp hfields

theorem writes_power {py : Interpreter} (hlimit : py.maxStrDigits ≠ 0) :
    py.writes (.int (10 ^ py.maxStrDigits)) = false := by
  have hdigits : ((10 : ℤ) ^ py.maxStrDigits).natAbs = 10 ^ py.maxStrDigits :=
    Int.natAbs_pow 10 py.maxStrDigits
  simp only [Interpreter.writes, hdigits, Nat.lt_irrefl, decide_false, Bool.or_false,
    beq_eq_false_iff_ne]
  exact hlimit

theorem validateParams_of_not_writes {n : ℤ} (h : py.writes (.int n) = false) (r : FieldRule) :
    py.validateParams reg [(field, .int n)] [(field, .rule r)] = .error py.tooManyDigits := by
  have hget : Obj.getD [(field, .int n)] field .null = .int n := by simp [Obj.getD]
  simp only [Interpreter.validateParams, Interpreter.validateField, hget, isUnset, h,
    Bool.false_eq_true, if_false]

/-- An integer past the limit of `str` has the walk raise another error. -/
theorem long_integer_stops :
    ¬ ValidatesCompletely interpreter validatorRegistry [("count", .rule { type := "int" })]
      [("count", .int (10 ^ 4300))] := by
  intro hcomplete
  have hwrites : interpreter.writes (.int (10 ^ 4300)) = false :=
    @writes_power interpreter (Nat.succ_ne_zero 4299)
  obtain ⟨f, value, rule, he⟩ := hcomplete.2.1 _ (validateParams_of_not_writes hwrites _)
  cases he

end Verdict
end Opnsense
