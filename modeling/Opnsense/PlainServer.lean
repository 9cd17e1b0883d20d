import Mathlib.Algebra.GroupWithZero.Nat
import Mathlib.Algebra.Order.BigOperators.Group.List
import Opnsense.IdentityClass
import Opnsense.Readback

namespace Opnsense
open Interaction

mutual
/-- A sent value over the stored one: two blocks merge, anything else is replaced. -/
def mergeValue (stored : Option Json) : Json → Json
  | .obj sent =>
    match stored with
    | some (.obj fields) => .obj (mergeFields fields sent)
    | _ => .obj (mergeFields [] sent)
  | v => v

def mergeFields (stored : Obj) : List (String × Json) → Obj
  | [] => stored
  | (key, v) :: rest =>
    mergeFields (Obj.set stored key (mergeValue (stored.lookup key) v)) rest
end

/-- A uuid longer than every one in use. -/
def longerUuid (rs : List Resource) : String :=
  String.ofList (List.replicate ((rs.map fun r => r.uuid.length).sum + 1) 'x')

theorem longerUuid_length (rs : List Resource) :
    (longerUuid rs).length = (rs.map fun r => r.uuid.length).sum + 1 := by
  simp [longerUuid]

/-- Whether some field of the row contains the phrase. -/
def containsPhrase (phrase : String) (row : Obj) : Bool :=
  decide (phrase = "") || row.any fun kv => decide (phrase.toList <:+: (pyStr kv.2).toList)

def plainServer (defaults : Obj) : TableServer where
  row r := r.fields.set "uuid" (.str r.uuid)
  item r := r.fields
  keep phrase r := containsPhrase phrase r.fields
  arrange _ rows := rows
  fill := mergeFields defaults
  merge := mergeFields
  fresh _ rs := longerUuid rs
  missing := .ok (.arr [])
  ack := .obj [("result", .str "saved"), ("status", .str "ok")]
  row_uuid r := Obj.lookup_set_self _ _ _
  arrange_perm _ rows := List.Perm.refl rows
  fresh_ne _ rs h := by
    have hlen := longerUuid_length rs
    rw [h] at hlen
    simp at hlen
  fresh_new _ rs r hr h := by
    have hlen := longerUuid_length rs
    have hle : r.uuid.length ≤ (rs.map fun r => r.uuid.length).sum :=
      List.single_le_sum (by simp) _ (List.mem_map_of_mem hr)
    rw [← h] at hlen
    omega

variable {defaults params stored : Obj} {m : BaseManager}

theorem lookup_mergeFields_of_notMem {key : String} (h : key ∉ params.map (·.1)) :
    (mergeFields stored params).lookup key = stored.lookup key := by
  induction params generalizing stored with
  | nil => rfl
  | cons kv rest ih =>
    obtain ⟨k, v⟩ := kv
    rw [List.map_cons, List.mem_cons, not_or] at h
    rw [mergeFields, ih h.2, Obj.lookup_set_of_ne _ h.1]

/-- A field sent once is stored merged with what was there. -/
theorem lookup_mergeFields {key : String} {v : Json} (hnodup : (params.map (·.1)).Nodup)
    (h : params.lookup key = some v) :
    (mergeFields stored params).lookup key = some (mergeValue (stored.lookup key) v) := by
  induction params generalizing stored with
  | nil => cases h
  | cons kw rest ih =>
    obtain ⟨k, w⟩ := kw
    obtain ⟨hnot, hrest⟩ := List.nodup_cons.mp hnodup
    by_cases hk : key = k
    · subst hk
      rw [List.lookup_cons_self, Option.some.injEq] at h
      rw [mergeFields, lookup_mergeFields_of_notMem hnot, Obj.lookup_set_self, h]
    · have hk' : (key == k) = false := by simpa using hk
      rw [List.lookup_cons, hk'] at h
      rw [mergeFields, ih hrest h, Obj.lookup_set_of_ne _ hk]

theorem mergeValue_of_flat {old : Option Json} {v : Json} (h : v.isDict = false) :
    mergeValue old v = v := by
  cases v with
  | obj fs => cases h
  | _ => simp [mergeValue]

mutual
/-- A merged text or block is held. -/
theorem holds_mergeValue (v : Json) (hv : IsText v) {stored : Obj} {key : String}
    {old : Option Json} (h : stored.lookup key = some (mergeValue old v)) :
    Holds stored key v := by
  match v with
  | .str s =>
    rw [Holds, h]
    simp [mergeValue]
  | .obj d =>
    have hblock : ∃ c, mergeValue old (.obj d) = .obj (mergeFields c d) := by
      unfold mergeValue
      split
      · exact ⟨_, rfl⟩
      · exact ⟨_, rfl⟩
    obtain ⟨c, hc⟩ := hblock
    refine ⟨mergeFields c d, by rw [h, hc], holdsAll_merged d hv.2 ?_⟩
    intro kv hkv
    exact ⟨_, lookup_mergeFields hv.1 (Obj.lookup_of_mem hv.1 hkv)⟩
  | .null => exact hv.elim
  | .bool b => exact hv.elim
  | .int n => exact hv.elim
  | .float r => exact hv.elim
  | .arr xs => exact hv.elim

theorem holdsAll_merged (desired : List (String × Json)) (hd : AllText desired) {stored : Obj}
    (h : ∀ kv ∈ desired, ∃ old, stored.lookup kv.1 = some (mergeValue old kv.2)) :
    HoldsAll stored desired := by
  match desired with
  | [] => trivial
  | (key, v) :: rest =>
    obtain ⟨old, hold⟩ := h (key, v) (List.mem_cons_self ..)
    exact ⟨holds_mergeValue v hd.1 hold,
      holdsAll_merged rest hd.2 fun kv hkv => h kv (List.mem_cons_of_mem _ hkv)⟩
end

theorem holdsAll_mergeFields (h : IsText (.obj params)) :
    HoldsAll (mergeFields stored params) params :=
  holdsAll_merged params h.2 fun _ hkv =>
    ⟨_, lookup_mergeFields h.1 (Obj.lookup_of_mem h.1 hkv)⟩

/-- A row of which one field contains the phrase is kept. -/
theorem containsPhrase_of_text {phrase key : String} {row : Obj}
    (h : phrase.toList <:+: (row.text key).toList) : containsPhrase phrase row = true := by
  unfold containsPhrase
  rw [Bool.or_eq_true]
  rcases hlookup : row.lookup key with _ | v
  · -- a field the row lacks reads as the empty text
    left
    have htext : row.text key = "" := by simp [Obj.text, Obj.getD, hlookup]
    rw [htext] at h
    have hnil : phrase.toList = [] := List.eq_nil_of_infix_nil h
    simpa using hnil
  · right
    rw [Obj.text_of_lookup hlookup] at h
    have hmem : (key, v) ∈ row := Obj.mem_of_lookup hlookup
    exact List.any_eq_true.mpr ⟨(key, v), hmem, by simpa using h⟩

theorem plainServer_row_text (r : Resource) {key : String} (h : key ≠ "uuid") :
    ((plainServer defaults).row r).text key = r.fields.text key :=
  Obj.text_congr (Obj.lookup_set_of_ne r.fields h _)

/-- Match keys that are sent once, and not as blocks, are stored and shown as sent. -/
theorem plainServer_faithful (huuid : "uuid" ∉ m.matchKeys) (hnodup : (params.map (·.1)).Nodup)
    (hflat : ∀ k ∈ m.matchKeys, ∀ v, params.lookup k = some v → v.isDict = false) :
    TableServer.Faithful (plainServer defaults) m params where
  fill_text k hk hhas := by
    obtain ⟨v, hv⟩ := Obj.has_iff.mp hhas
    rw [Obj.text_of_lookup hv]
    have hlookup := @lookup_mergeFields params defaults k v hnodup hv
    rw [mergeValue_of_flat (hflat k hk v hv)] at hlookup
    exact Obj.text_of_lookup hlookup
  merge_text stored k hk hhas := by
    obtain ⟨v, hv⟩ := Obj.has_iff.mp hhas
    rw [Obj.text_of_lookup hv]
    have hlookup := @lookup_mergeFields params stored k v hnodup hv
    rw [mergeValue_of_flat (hflat k hk v hv)] at hlookup
    exact Obj.text_of_lookup hlookup
  row_text r k hk := plainServer_row_text r fun heq => huuid (heq ▸ hk)
  keep_match phrase r k hk h := by
    rw [plainServer_row_text r fun heq => huuid (heq ▸ hk)] at h
    exact containsPhrase_of_text h

end Opnsense
