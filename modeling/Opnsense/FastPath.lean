import Opnsense.Rendering
import Opnsense.SilentNoop

namespace Opnsense
open Interaction DiffEngine

/-- A resource in its two renderings; the row may leave fields out. -/
structure Rendered where
  stored : String → Option Stored
  row : Obj
  item : Obj
  row_shows : ∀ key r, row.lookup key = some r → ∃ sv, stored key = some sv ∧ RowShows sv r
  item_shows : ∀ key sv, stored key = some sv →
    ∃ i, item.lookup key = some i ∧ ItemShows sv i

/-- A field of the parameters in both renderings of the resource. -/
def Rendered.Field (R : Rendered) (key : String) (r i : Json) (sv : Stored) : Prop :=
  R.row.lookup key = some r ∧ R.item.lookup key = some i ∧ RowShows sv r ∧ ItemShows sv i

variable {e : DiffEngine}

theorem computeDiff_isSome_iff {current desired : Obj} :
    (computeDiff e current desired).isSome = true ↔
      ∃ kv ∈ desired, fieldDrifts e current kv.1 kv.2 = true := by
  rw [← not_iff_not, Bool.not_eq_true, Option.isSome_eq_false_iff, Option.isNone_iff_eq_none,
    computeDiff_eq_none_iff]
  simp

section Verdicts

variable (R : Rendered) {params : Obj}

/-- Some field of the parameters, in both renderings, is of the given kind. -/
def Rendered.Some (params : Obj)
    (kind : String → Json → Json → String → Stored → Prop) : Prop :=
  ∃ kv ∈ params, ∃ r i sv, R.Field kv.1 r i sv ∧ kind kv.1 r i (pyStr kv.2) sv

theorem Rendered.exists_field (hcarried : ∀ kv ∈ params, R.row.has kv.1 = true)
    {kv : String × Json} (hkv : kv ∈ params) : ∃ r i sv, R.Field kv.1 r i sv := by
  obtain ⟨r, hr⟩ := Obj.has_iff.mp (hcarried kv hkv)
  obtain ⟨sv, hsv, hrow⟩ := R.row_shows _ _ hr
  obtain ⟨i, hi, hitem⟩ := R.item_shows _ _ hsv
  exact ⟨r, i, sv, hr, hi, hrow, hitem⟩

theorem Rendered.row_drifts_iff (hcarried : ∀ kv ∈ params, R.row.has kv.1 = true) :
    (computeDiff e R.row params).isSome = true ↔
      R.Some params (fun key r _ => Respelt e key r) ∨
        R.Some params (fun key r _ => Differs e key r) := by
  rw [computeDiff_isSome_iff]
  constructor
  · rintro ⟨kv, hkv, hdrift⟩
    obtain ⟨r, i, sv, hfield⟩ := R.exists_field hcarried hkv
    rcases (Opnsense.row_drifts_iff hfield.1 hfield.2.2.1).mp hdrift with h | h
    · exact Or.inl ⟨kv, hkv, r, i, sv, hfield, h⟩
    · exact Or.inr ⟨kv, hkv, r, i, sv, hfield, h⟩
  · rintro (⟨kv, hkv, r, i, sv, hfield, h⟩ | ⟨kv, hkv, r, i, sv, hfield, h⟩)
    · exact ⟨kv, hkv, (Opnsense.row_drifts_iff hfield.1 hfield.2.2.1).mpr (Or.inl h)⟩
    · exact ⟨kv, hkv, (Opnsense.row_drifts_iff hfield.1 hfield.2.2.1).mpr (Or.inr h)⟩

theorem Rendered.item_drifts_iff (hcarried : ∀ kv ∈ params, R.row.has kv.1 = true)
    (hflat : ∀ kv ∈ params, kv.2.isDict = false) :
    (computeDiff e R.item params).isSome = true ↔
      R.Some params (Veiled e) ∨ R.Some params (fun key r _ => Differs e key r) := by
  rw [computeDiff_isSome_iff]
  have hstep : ∀ kv ∈ params, ∀ r i sv, R.Field kv.1 r i sv →
      (fieldDrifts e R.item kv.1 kv.2 = true ↔
        Veiled e kv.1 r i (pyStr kv.2) sv ∨ Differs e kv.1 r (pyStr kv.2) sv) :=
    fun kv hkv r i sv hfield =>
      Opnsense.item_drifts_iff hfield.2.1 hfield.2.2.1 hfield.2.2.2 (hflat kv hkv)
  constructor
  · rintro ⟨kv, hkv, hdrift⟩
    obtain ⟨r, i, sv, hfield⟩ := R.exists_field hcarried hkv
    rcases (hstep kv hkv r i sv hfield).mp hdrift with h | h
    · exact Or.inl ⟨kv, hkv, r, i, sv, hfield, h⟩
    · exact Or.inr ⟨kv, hkv, r, i, sv, hfield, h⟩
  · rintro (⟨kv, hkv, r, i, sv, hfield, h⟩ | ⟨kv, hkv, r, i, sv, hfield, h⟩)
    · exact ⟨kv, hkv, (hstep kv hkv r i sv hfield).mpr (Or.inl h)⟩
    · exact ⟨kv, hkv, (hstep kv hkv r i sv hfield).mpr (Or.inr h)⟩

end Verdicts

namespace BaseManager

/-- On flat parameters whose keys the row carries, `ensure` compares the row, and it
finds drift there exactly when the item shows drift, unless a re-spelt multi-select or a
veiled value tips one side alone. -/
theorem row_verdict_eq_item_verdict_iff (m : BaseManager) (R : Rendered) (params : Obj)
    (item : Endpoint → Reply) (ack : Request → Reply) (check dedupe : Bool)
    (hflat : ∀ kv ∈ params, kv.2.isDict = false)
    (hcarried : ∀ kv ∈ params, R.row.has kv.1 = true)
    (hmatch : sameIdentity m.matchKeys params R.row = true) :
    (m.resolve params check none dedupe).run (answers [R.row] item ack) () =
        (.ok (some R.row, []), ()) ∧
    ((m.diffEngine.computeDiff R.row params).isSome =
        (m.diffEngine.computeDiff R.item params).isSome ↔
      R.Some params (fun key r _ => Differs m.diffEngine key r) ∨
        (R.Some params (fun key r _ => Respelt m.diffEngine key r) ↔
          R.Some params (Veiled m.diffEngine))) := by
  constructor
  · have hflat' : params.any (fun kv => kv.2.isDict) = false := by simpa using hflat
    have hcarried' : (params.any fun kv => !R.row.has kv.1) = false := by simpa using hcarried
    have hneed : needsFullItem R.row params = false := by simp [needsFullItem, hflat', hcarried']
    apply run_resolve_compared
    simp [comparedState, matchingRows, hmatch, hneed]
  · rw [Bool.eq_iff_iff, R.row_drifts_iff hcarried, R.item_drifts_iff hcarried hflat]
    tauto

/-- Both options chosen, in this order. -/
def sampleSelect : MultiSelect where
  options := [("a", .str "A", .int 1), ("b", .str "B", .int 1)]

/-- A resource whose row lists the chosen options the other way round. -/
def sampleRendered : Rendered where
  stored key :=
    if key = "name" then some (.text "lan")
    else if key = "ports" then some (.choice sampleSelect) else none
  row := [("name", .str "lan"), ("ports", .str "b,a")]
  item := [("name", .str "lan"), ("ports", .obj sampleSelect.fields)]
  row_shows key r h := by
    by_cases hname : key = "name"
    · subst hname
      cases h
      exact ⟨_, rfl, .text _⟩
    by_cases hports : key = "ports"
    · subst hports
      cases h
      exact ⟨_, rfl, @RowShows.choice sampleSelect ["b", "a"] (by decide)⟩
    · have hname' : (key == "name") = false := by simpa using hname
      have hports' : (key == "ports") = false := by simpa using hports
      simp [List.lookup_cons, hname', hports'] at h
  item_shows key sv h := by
    by_cases hname : key = "name"
    · subst hname
      cases h
      exact ⟨_, rfl, .text _⟩
    by_cases hports : key = "ports"
    · subst hports
      cases h
      exact ⟨_, rfl, .choice sampleSelect⟩
    · simp [hname, hports] at h

theorem row_verdict_eq_item_verdict_iff_sample :
    let params : Obj := [("name", .str "lan"), ("ports", .str "a,b")]
    let e := sampleManager.diffEngine
    (e.computeDiff sampleRendered.row params).isSome =
        (e.computeDiff sampleRendered.item params).isSome ↔
      sampleRendered.Some params (fun key r _ => Differs e key r) ∨
        (sampleRendered.Some params (fun key r _ => Respelt e key r) ↔
          sampleRendered.Some params (Veiled e)) :=
  (row_verdict_eq_item_verdict_iff sampleManager sampleRendered _ (fun _ => .ok .null)
    (fun _ => .ok .null) false false (by simp [Json.isDict]) (by simp [sampleRendered, Obj.has])
    (by decide)).2

/-- The row `b,a` drifts from the desired `a,b`; the option dict does not. -/
theorem row_verdict_ne_item_verdict :
    let params : Obj := [("name", .str "lan"), ("ports", .str "a,b")]
    (∀ kv ∈ params, kv.2.isDict = false) ∧
    (∀ kv ∈ params, sampleRendered.row.has kv.1 = true) ∧
    sameIdentity sampleManager.matchKeys params sampleRendered.row = true ∧
    (sampleManager.diffEngine.computeDiff sampleRendered.row params).isSome = true ∧
    (sampleManager.diffEngine.computeDiff sampleRendered.item params).isSome = false := by
  refine ⟨by simp [Json.isDict], by simp [sampleRendered, Obj.has], by decide, by decide, by decide⟩

end BaseManager
end Opnsense
