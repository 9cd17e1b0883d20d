import Opnsense.DiffEngine
import Opnsense.Validation

namespace Opnsense

/-- What one interpreter differs from another in: the decimal digits of its Unicode database, and
the most digits that `int` reads, 0 for any number. -/
structure Interpreter where
  decimal : Char → Option ℕ
  maxStrDigits : ℕ
  decimal_ascii : ∀ c, c.toNat < 0x80 →
    decimal c = if 0x30 ≤ c.toNat ∧ c.toNat ≤ 0x39 then some (c.toNat - 0x30) else none
  decimal_lt : ∀ c d, decimal c = some d → d < 10
  decimal_isSpace : ∀ c d, decimal c = some d → isSpace c = false
  maxStrDigits_min : maxStrDigits = 0 ∨ 640 ≤ maxStrDigits

/-- The zeros of the decimal digits in Unicode 14, each with the nine others behind it. -/
def decimalZeros : List ℕ :=
  [0x30, 0x660, 0x6f0, 0x7c0, 0x966, 0x9e6, 0xa66, 0xae6, 0xb66, 0xbe6, 0xc66, 0xce6, 0xd66,
    0xde6, 0xe50, 0xed0, 0xf20, 0x1040, 0x1090, 0x17e0, 0x1810, 0x1946, 0x19d0, 0x1a80, 0x1a90,
    0x1b50, 0x1bb0, 0x1c40, 0x1c50, 0xa620, 0xa8d0, 0xa900, 0xa9d0, 0xa9f0, 0xaa50, 0xabf0,
    0xff10, 0x104a0, 0x10d30, 0x11066, 0x110f0, 0x11136, 0x111d0, 0x112f0, 0x11450, 0x114d0,
    0x11650, 0x116c0, 0x11730, 0x118e0, 0x11950, 0x11c50, 0x11d50, 0x11da0, 0x16a60, 0x16ac0,
    0x16b50, 0x1d7ce, 0x1d7d8, 0x1d7e2, 0x1d7ec, 0x1d7f6, 0x1e140, 0x1e2f0, 0x1e950, 0x1fbf0]

def zeroOf (n : ℕ) : Option ℕ := decimalZeros.find? fun start => start ≤ n && n < start + 10

theorem zeroOf_bounds {n start : ℕ} (h : zeroOf n = some start) : start ≤ n ∧ n < start + 10 := by
  simpa using List.find?_some h

/-- A character of the first block is no digit of a later one. -/
theorem zeroOf_ascii {n : ℕ} (h : n < 0x80) :
    zeroOf n = if 0x30 ≤ n ∧ n ≤ 0x39 then some 0x30 else none := by
  have hlater : decimalZeros.tail.find? (fun start => start ≤ n && n < start + 10) = none := by
    rw [List.find?_eq_none]
    intro start hstart
    have hlarge : ∀ start ∈ decimalZeros.tail, 0x80 ≤ start := by decide
    have := hlarge start hstart
    simp only [Bool.and_eq_true, decide_eq_true_eq, not_and]
    omega
  rw [zeroOf, show decimalZeros = 0x30 :: decimalZeros.tail from rfl, List.find?_cons, hlater]
  by_cases hdigit : 0x30 ≤ n ∧ n ≤ 0x39
  · have hin : (decide (0x30 ≤ n) && decide (n < 0x30 + 10)) = true := by
      simp only [Bool.and_eq_true, decide_eq_true_eq]
      omega
    rw [hin, if_pos hdigit]
  · have hout : (decide (0x30 ≤ n) && decide (n < 0x30 + 10)) = false := by
      simp only [Bool.and_eq_false_iff, decide_eq_false_iff_not]
      omega
    rw [hout, if_neg hdigit]

/-- No block of digits has a blank in it. -/
theorem isSpace_of_zeroOf {c : Char} {start : ℕ} (h : zeroOf c.toNat = some start) :
    isSpace c = false := by
  obtain ⟨hlow, hhigh⟩ := zeroOf_bounds h
  have hblock : ∀ start ∈ decimalZeros, 0x21 ≤ start ∧ (start + 9 < 0x85 ∨ 0xa1 ≤ start) ∧
      (start + 9 < 0x1680 ∨ 0x1681 ≤ start) ∧ (start + 9 < 0x2000 ∨ 0x3001 ≤ start) := by decide
  have hstart := hblock start (List.mem_of_find?_eq_some h)
  simp only [isSpace, Bool.or_eq_false_iff, Bool.and_eq_false_iff, decide_eq_false_iff_not,
    beq_eq_false_iff_ne]
  omega

/-- An interpreter with Unicode 14 and the default limit. -/
def interpreter : Interpreter where
  decimal c := (zeroOf c.toNat).map (c.toNat - ·)
  maxStrDigits := 4300
  decimal_ascii c hc := by
    rw [zeroOf_ascii hc]
    split <;> rfl
  decimal_lt c d hd := by
    obtain ⟨start, hstart, rfl⟩ := Option.map_eq_some_iff.mp hd
    have := zeroOf_bounds hstart
    omega
  decimal_isSpace c d hd := by
    obtain ⟨start, hstart, -⟩ := Option.map_eq_some_iff.mp hd
    exact isSpace_of_zeroOf hstart
  maxStrDigits_min := Or.inr (by decide)

/-- The number that decimal digits denote. -/
def valueOf (ds : List ℕ) : ℕ := ds.foldl (fun n d => 10 * n + d) 0

section Int

variable (py : Interpreter)

/-- A run of decimal digits, at least one, and no more than are read. -/
def digitsOf (cs : List Char) : Option ℕ :=
  if cs.isEmpty ∨ 0 < py.maxStrDigits ∧ py.maxStrDigits < cs.length then none
  else (cs.mapM py.decimal).map valueOf

/-- Single underscores may stand between digits. -/
def unsignedOf (cs : List Char) : Option ℕ :=
  if (cs.splitOn '_').any List.isEmpty then none else digitsOf py (cs.filter (· ≠ '_'))

/-- The blanks that `int` passes over: the separators of ASCII are not among them. -/
def isIntSpace (c : Char) : Bool := isSpace c && !(0x1c ≤ c.toNat && c.toNat ≤ 0x1f)

def intStrip (cs : List Char) : List Char := (cs.dropWhile isIntSpace).rdropWhile isIntSpace

/-- `int(s)` -/
def pyInt (s : String) : Option ℤ :=
  match intStrip s.toList with
  | '-' :: cs => (unsignedOf py cs).map fun n : ℕ => -(n : ℤ)
  | '+' :: cs => (unsignedOf py cs).map fun n : ℕ => (n : ℤ)
  | cs => (unsignedOf py cs).map fun n : ℕ => (n : ℤ)

end Int

example : [" 42 ", "-1_000", "٤٢", "1__0", "x", ""].map (pyInt interpreter) =
    [some 42, some (-1000), some 42, none, none, none] := by decide

def validateStr : FieldValidator := fun field value r =>
  let maxLength := r.maxLength.getD 255
  if value.length > maxLength then
    .error (.fieldValidation field (.str value) s!"max length {maxLength}, got {value.length}")
  else
    match r.regex with
    | none => .ok ()
    | some pattern =>
      if (pattern.body.search value.toList).isSome then .ok ()
      else .error (.fieldValidation field (.str value) s!"must match pattern {pattern.source}")

def validateEnum : FieldValidator := fun field value r =>
  if value ∈ r.values then .ok ()
  else
    let values := pyStr (.arr (r.values.map .str))
    .error (.fieldValidation field (.str value) s!"must be one of {values}")

def validateInt (py : Interpreter) : FieldValidator := fun field value r =>
  match pyInt py value with
  | none => .error (.fieldValidation field (.str value) "must be an integer")
  | some num =>
    match r.min.filter (num < ·), r.max.filter (· < num) with
    | some lo, _ => .error (.fieldValidation field (.str value) s!"minimum {lo}")
    | none, some hi => .error (.fieldValidation field (.str value) s!"maximum {hi}")
    | none, none => .ok ()

def validateBoolStr : FieldValidator := fun field value _ =>
  if value ∈ ["0", "1"] then .ok ()
  else .error (.fieldValidation field (.str value) "must be '0' or '1'")

/-- The registry, as far as these types go. -/
def validatorRegistry : ValidatorRegistry where
  get
    | "str" => some validateStr
    | "enum" => some validateEnum
    | "int" => some (validateInt interpreter)
    | "bool_str" => some validateBoolStr
    | _ => none

/-- An error of a built-in validator names the field it checked. -/
theorem validator_error_field {type : String} {validator : FieldValidator}
    (h : validatorRegistry.get type = some validator) {field value : String} {r : FieldRule}
    {e : Exc} (herr : validator field value r = .error e) :
    ∃ rule, e = .fieldValidation field (.str value) rule := by
  simp only [validatorRegistry] at h
  split at h
  · cases h
    simp only [validateStr] at herr
    split at herr
    · cases herr
      exact ⟨_, rfl⟩
    · split at herr
      · cases herr
      · split at herr <;> cases herr
        exact ⟨_, rfl⟩
  · cases h
    unfold validateEnum at herr
    split at herr <;> cases herr
    exact ⟨_, rfl⟩
  · cases h
    simp only [validateInt] at herr
    split at herr
    · cases herr
      exact ⟨_, rfl⟩
    · split at herr <;> cases herr
      · exact ⟨_, rfl⟩
      · exact ⟨_, rfl⟩
  · cases h
    unfold validateBoolStr at herr
    split at herr <;> cases herr
    exact ⟨_, rfl⟩
  · cases h

end Opnsense
