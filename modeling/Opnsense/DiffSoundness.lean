import Opnsense.DiffEngine

/-! What the absence of a diff means. A desired field is met when the current state
carries it and agrees; the diff itself skips the fields the state does not carry. -/
namespace Opnsense

/-- The current value is the desired one after normalisation: the same text, the same
set of options, or a hash of the desired text. -/
def Agrees (e : DiffEngine) (current desired : Json) : Prop :=
  let normalized := DiffEngine.normalizeValue current
  normalized = pyStr desired ∨ DiffEngine.sameOptions current normalized (pyStr desired) = true ∨
    DiffEngine.hashMatches e normalized (pyStr desired) = true

theorem valueDrifts_eq_false_iff {e : DiffEngine} {current desired : Json} :
    DiffEngine.valueDrifts e current desired = false ↔ Agrees e current desired := by
  simp only [DiffEngine.valueDrifts, Agrees]
  by_cases hs : DiffEngine.sameOptions current (DiffEngine.normalizeValue current)
      (pyStr desired) = true
  · simp [hs]
  · simp [hs, or_iff_not_imp_left]

mutual
/-- The field is present, and its value is a blank of a write-only field, agrees with
the desired one, or is a block that meets the desired block. -/
def FieldMet (e : DiffEngine) (current : Obj) (key : String) : Json → Prop
  | .obj d =>
    match current.lookup key with
    | none => False
    | some (.obj c) => FieldsMet e c d
    | some cv => DiffEngine.writeOnlyBlank key cv (.obj d) = true ∨ Agrees e cv (.obj d)
  | dv =>
    match current.lookup key with
    | none => False
    | some cv => DiffEngine.writeOnlyBlank key cv dv = true ∨ Agrees e cv dv

def FieldsMet (e : DiffEngine) (current : Obj) : List (String × Json) → Prop
  | [] => True
  | (key, dv) :: rest => FieldMet e current key dv ∧ FieldsMet e current rest
end

mutual
/-- The field is present, and so is every field of the desired block in it. -/
def fieldCarried (current : Obj) (key : String) : Json → Bool
  | .obj d =>
    match current.lookup key with
    | none => false
    | some (.obj c) => fieldsCarried c d
    | some _ => true
  | _ => current.has key

def fieldsCarried (current : Obj) : List (String × Json) → Bool
  | [] => true
  | (key, dv) :: rest => fieldCarried current key dv && fieldsCarried current rest
end

theorem fieldMet_value_iff (e : DiffEngine) {current : Obj} {key : String} {cv : Json}
    (h : current.lookup key = some cv) (dv : Json) (hn : cv.isDict = false ∨ dv.isDict = false) :
    (DiffEngine.writeOnlyBlank key cv dv = true ∨ Agrees e cv dv) ↔
      DiffEngine.fieldDrifts e current key dv = false := by
  by_cases hb : DiffEngine.writeOnlyBlank key cv dv = true
  · simp [hb, DiffEngine.fieldDrifts_of_blank e h hb]
  · have hb' : DiffEngine.writeOnlyBlank key cv dv = false := by simpa using hb
    rw [DiffEngine.fieldDrifts_of_value e h hb' hn, valueDrifts_eq_false_iff]
    simp [hb']

theorem fieldMet_iff_of_value (e : DiffEngine) (current : Obj) (key : String) {dv : Json}
    (hdv : dv.isDict = false) :
    FieldMet e current key dv ↔
      fieldCarried current key dv = true ∧ DiffEngine.fieldDrifts e current key dv = false := by
  cases hcv : current.lookup key with
  | none => cases dv <;> simp [FieldMet, fieldCarried, Obj.has, hcv]
  | some cv =>
    have hvalue := fieldMet_value_iff e hcv dv (Or.inr hdv)
    cases dv with
    | obj d => cases hdv
    | _ => simpa [FieldMet, fieldCarried, Obj.has, hcv] using hvalue

mutual
/-- Met is carried without drift, by recursion on the desired value. -/
theorem fieldMet_iff (e : DiffEngine) (current : Obj) (key : String) (dv : Json) :
    FieldMet e current key dv ↔
      fieldCarried current key dv = true ∧ DiffEngine.fieldDrifts e current key dv = false := by
  match dv with
  | .obj d =>
    cases hcv : current.lookup key with
    | none => simp [FieldMet, fieldCarried, hcv]
    | some cv =>
      by_cases hdict : cv.isDict = false
      · have hvalue := fieldMet_value_iff e hcv (.obj d) (Or.inl hdict)
        cases cv with
        | obj c => cases hdict
        | _ => simpa [FieldMet, fieldCarried, hcv] using hvalue
      · cases cv with
        | obj c =>
          have hblock := fieldsMet_iff e c d
          have hdrift : DiffEngine.fieldDrifts e current key (.obj d) = false ↔
              DiffEngine.computeDiff e c d = none := by
            rw [DiffEngine.fieldDrifts_of_blocks e hcv]
            simp
          rw [hdrift]
          simpa [FieldMet, fieldCarried, hcv] using hblock
        | _ => exact absurd rfl hdict
  | .null => exact fieldMet_iff_of_value e current key rfl
  | .bool b => exact fieldMet_iff_of_value e current key rfl
  | .int n => exact fieldMet_iff_of_value e current key rfl
  | .float r => exact fieldMet_iff_of_value e current key rfl
  | .str s => exact fieldMet_iff_of_value e current key rfl
  | .arr xs => exact fieldMet_iff_of_value e current key rfl

theorem fieldsMet_iff (e : DiffEngine) (current : Obj) (desired : List (String × Json)) :
    FieldsMet e current desired ↔
      fieldsCarried current desired = true ∧ DiffEngine.computeDiff e current desired = none := by
  match desired with
  | [] => simp [FieldsMet, fieldsCarried, DiffEngine.computeDiff_eq_none_iff]
  | (key, dv) :: rest =>
    have hfield := fieldMet_iff e current key dv
    have hrest := fieldsMet_iff e current rest
    simp only [DiffEngine.computeDiff_eq_none_iff] at hrest ⊢
    simp only [FieldsMet, fieldsCarried, hfield, hrest, Bool.and_eq_true, List.forall_mem_cons]
    tauto
end

end Opnsense
