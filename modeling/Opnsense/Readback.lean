import Opnsense.DiffEngine

namespace Opnsense
open DiffEngine

mutual
/-- Leaves are texts, and blocks name each key once. -/
def IsText : Json → Prop
  | .str _ => True
  | .obj fs => (fs.map (·.1)).Nodup ∧ AllText fs
  | _ => False

def AllText : List (String × Json) → Prop
  | [] => True
  | (_, v) :: rest => IsText v ∧ AllText rest
end

mutual
/-- The stored state has the desired text, or a block that has every desired field. -/
def Holds (stored : Obj) (key : String) : Json → Prop
  | .str s => stored.lookup key = some (.str s)
  | .obj d => ∃ c, stored.lookup key = some (.obj c) ∧ HoldsAll c d
  | _ => False

def HoldsAll (stored : Obj) : List (String × Json) → Prop
  | [] => True
  | (key, v) :: rest => Holds stored key v ∧ HoldsAll stored rest
end

/-- How a stored value is shown under a key: a text as it is, a flag as a native bool, a
choice wrapped in `selected`, a write-only field blank, a block field by field, where
fields may be left out. -/
inductive Shows : String → Json → Json → Prop
  | text (key s : String) : Shows key (.str s) (.str s)
  | flag (key : String) (b : Bool) : Shows key (.str (if b then "1" else "0")) (.bool b)
  | choice (key s : String) : Shows key (.str s) (.obj [("selected", .str s)])
  | blank (key : String) (v : Json) (hkey : isWriteOnlyKey key = true) : Shows key v (.str "")
  | block (key : String) (stored shown : Obj)
      (hstored : ∀ k w, shown.lookup k = some w → ∃ v, stored.lookup k = some v)
      (hfields : ∀ k v w, stored.lookup k = some v → shown.lookup k = some w → Shows k v w) :
      Shows key (.obj stored) (.obj shown)

/-- What is shown under the key, if anything, is the stored value. -/
def ShowsAt (stored shown : Obj) (key : String) : Prop :=
  ∀ w, shown.lookup key = some w → ∃ v, stored.lookup key = some v ∧ Shows key v w

theorem valueDrifts_of_normalized {e : DiffEngine} {current desired : Json}
    (h : normalizeValue current = pyStr desired) : valueDrifts e current desired = false := by
  simp [valueDrifts, h]

/-- A text that is stored is not seen to drift. -/
theorem fieldDrifts_text (e : DiffEngine) {stored shown : Obj} {key s : String}
    (hshow : ShowsAt stored shown key) (hold : stored.lookup key = some (.str s)) :
    fieldDrifts e shown key (.str s) = false := by
  rcases hlookup : shown.lookup key with _ | w
  · exact fieldDrifts_of_missing e hlookup _
  · obtain ⟨v, hv, hshows⟩ := hshow w hlookup
    rw [hold, Option.some.injEq] at hv
    subst hv
    by_cases hb : writeOnlyBlank key w (.str s) = true
    · exact fieldDrifts_of_blank e hlookup hb
    · rw [fieldDrifts_of_value e hlookup (by simpa using hb) (Or.inr rfl)]
      apply valueDrifts_of_normalized
      cases hshows with
      | text => simp [normalizeValue]
      | flag key b => cases b <;> rfl
      | choice => simp [normalizeValue]
      | blank key v hkey =>
        -- only an empty desired text is compared with a blank
        have hempty : s = "" := by simpa [writeOnlyBlank, hkey] using hb
        rw [hempty]
        rfl

mutual
/-- A stored field is not seen to drift, by recursion on the desired value. -/
theorem fieldDrifts_of_holds (e : DiffEngine) {stored shown : Obj} {key : String}
    (hshow : ShowsAt stored shown key) (dv : Json) (hold : Holds stored key dv) :
    fieldDrifts e shown key dv = false := by
  match dv with
  | .str s => exact fieldDrifts_text e hshow hold
  | .obj d =>
    obtain ⟨c, hc, hall⟩ := hold
    rcases hlookup : shown.lookup key with _ | w
    · exact fieldDrifts_of_missing e hlookup _
    · obtain ⟨v, hv, hshows⟩ := hshow w hlookup
      rw [hc, Option.some.injEq] at hv
      subst hv
      cases hshows with
      | blank key v hkey =>
        have hne := pyStr_obj_ne_empty d
        exact fieldDrifts_of_blank e hlookup (by simp [writeOnlyBlank, hkey, hne])
      | block key stored shown hstored hfields =>
        -- below a block every field is shown as it is stored
        have hblock : ∀ k, ShowsAt c shown k := by
          intro k w hw
          obtain ⟨v, hv⟩ := hstored k w hw
          exact ⟨v, hv, hfields k v w hv hw⟩
        rw [fieldDrifts_of_blocks e hlookup, computeDiff_of_holds e hblock d hall]
        rfl
  | .null => exact hold.elim
  | .bool b => exact hold.elim
  | .int n => exact hold.elim
  | .float r => exact hold.elim
  | .arr xs => exact hold.elim

/-- A state that holds every desired field has no diff. -/
theorem computeDiff_of_holds (e : DiffEngine) {stored shown : Obj}
    (hshow : ∀ key, ShowsAt stored shown key) (desired : List (String × Json))
    (hold : HoldsAll stored desired) : computeDiff e shown desired = none := by
  match desired with
  | [] => rfl
  | (key, dv) :: rest =>
    have hrest := computeDiff_of_holds e hshow rest hold.2
    rw [computeDiff_eq_none_iff] at hrest ⊢
    intro kv hkv
    rcases List.mem_cons.mp hkv with rfl | hmem
    · exact fieldDrifts_of_holds e (hshow key) dv hold.1
    · exact hrest kv hmem
end

theorem holds_of_holdsAll {stored : Obj} {desired : List (String × Json)}
    (h : HoldsAll stored desired) {key : String} {v : Json} (hmem : (key, v) ∈ desired) :
    Holds stored key v := by
  induction desired with
  | nil => cases hmem
  | cons kw rest ih =>
    rcases List.mem_cons.mp hmem with rfl | hrest
    · exact h.1
    · exact ih h.2 hrest

/-- The same where some keys are known to show their text. -/
theorem computeDiff_of_holds_except (e : DiffEngine) {stored shown desired : Obj}
    (hold : HoldsAll stored desired)
    (hshow : ∀ kv ∈ desired, ShowsAt stored shown kv.1 ∨
      ∃ s, kv.2 = .str s ∧ shown.lookup kv.1 = some (.str s)) :
    computeDiff e shown desired = none := by
  rw [computeDiff_eq_none_iff]
  intro kv hkv
  rcases hshow kv hkv with hshow | ⟨s, hs, hlookup⟩
  · exact fieldDrifts_of_holds e hshow kv.2 (holds_of_holdsAll hold hkv)
  · have hself : ShowsAt shown shown kv.1 := by
      intro w hw
      rw [hlookup, Option.some.injEq] at hw
      subst hw
      exact ⟨_, hlookup, .text kv.1 s⟩
    rw [hs]
    exact fieldDrifts_text e hself hlookup

end Opnsense
