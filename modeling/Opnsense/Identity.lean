import Mathlib.Data.List.Sort
import Mathlib.Data.String.Basic
import Opnsense.Wire

namespace Opnsense
open Interaction

/-- `for x in v` -/
def iterate : Json → Except Exc (List Json)
  | .arr xs => .ok xs
  | .obj fs => .ok (fs.map fun kv => .str kv.1)
  | .str s => .ok (s.toList.map fun c => .str (String.ofList [c]))
  | v => .error (.typeError ("'" ++ v.typeName ++ "' object is not iterable"))

/-- `row["uuid"]` -/
def uuidOf (row : Obj) : Except Exc Json :=
  match row.lookup "uuid" with
  | some u => .ok u
  | none => .error (.keyError "uuid")

structure IdentityResolver where
  matchKeys : List String
  endpoint : String
  managerName : String
  matchKeys_ne : matchKeys ≠ []

/-- All match keys carry the same text. -/
def sameIdentity (keys : List String) (params row : Obj) : Bool :=
  keys.all fun k => row.text k == params.text k

/-- The sort key of a row. -/
def byUuid (r r' : Obj) : Prop := r.text "uuid" ≤ r'.text "uuid"

instance : DecidableRel byUuid := fun r r' =>
  inferInstanceAs (Decidable (r.text "uuid" ≤ r'.text "uuid"))

/-- The rows with the identity of the parameters, ordered by uuid. -/
def matchingRows (keys : List String) (params : Obj) (rows : List Obj) : List Obj :=
  (rows.filter (sameIdentity keys params)).insertionSort byUuid

/-- Every row must be a dict for `row.get`. -/
def asRows : List Json → Except Exc (List Obj)
  | [] => .ok []
  | .obj row :: rest => (asRows rest).map (row :: ·)
  | v :: _ => .error (Exc.noAttribute v "get")

namespace IdentityResolver

variable (r : IdentityResolver)

/-- Human-readable label `key1=val1 key2=val2`. -/
def matchLabel (params : Obj) : String :=
  " ".intercalate (r.matchKeys.map fun k => k ++ "=" ++ params.text k)

/-- The match keys with their texts. -/
def matchVals (params : Obj) : Obj := r.matchKeys.map fun k => (k, .str (params.text k))

def matchLogFields (params : Obj) : Obj :=
  [("match_keys", .obj (r.matchVals params)), ("endpoint", .str r.endpoint)]

/-- The first non-empty match key; empty when every key is. -/
def searchPhrase (params : Obj) : String :=
  ((r.matchKeys.map params.text).find? (· != "")).getD ""

/-- Every resource matching the composite match keys, ordered by uuid. -/
def findMatching (params : Obj) (listFn : String → M Json)
    (searchPhrase : Option String := none) : M (List Obj) := do
  let rows ← listFn (searchPhrase.getD (r.searchPhrase params))
  let items ← .ofExcept (iterate rows)
  let rows ← .ofExcept (asRows items)
  return matchingRows r.matchKeys params rows

/-- The error raised when several resources share the identity. -/
def ambiguousMatch (params : Obj) (count : ℕ) (uuids : List Json) : Exc :=
  let vals := pyStr (.obj (r.matchVals params))
  let ids := pyStr (.arr uuids)
  .opnsense
    { cls := .ambiguousMatch
      message := s!"{r.managerName}: {count} resources match {vals}. UUIDs: {ids}. " ++
        "Deduplicate manually or pass uuid= to ensure()."
      matchKeys := r.matchVals params
      uuids := uuids
      endpoint := some r.endpoint }

/-- The single resource with the identity, if any; more than one raise. -/
def findExisting (params : Obj) (listFn : String → M Json) : M (Option Obj) := do
  let (found, uuids) ← logErrorUnless Exc.isAmbiguous
    (do
      let found ← r.findMatching params listFn (some (r.searchPhrase params))
      let uuids ← .ofExcept (if found.length ≤ 1 then .ok [] else found.mapM uuidOf)
      return (found, uuids))
    (fun exc => s!"find_existing failed {r.managerName}: {exc.text}")
    (fun exc => [("action", .str "find_existing_failed"), ("endpoint", .str r.endpoint),
      ("error", .str exc.text)])
  match found with
  | [] => return none
  | [row] => return some row
  | _ =>
    let vals := pyStr (.obj (r.matchVals params))
    let ids := pyStr (.arr uuids)
    log .error
      s!"ambiguous match {r.managerName}: {found.length} resources match {vals} — UUIDs: {ids}"
      [("action", .str "ambiguous_match"), ("match_keys", .obj (r.matchVals params)),
        ("uuids", .arr uuids), ("count", .int found.length), ("endpoint", .str r.endpoint)]
    .raise (r.ambiguousMatch params found.length uuids)

end IdentityResolver

@[simp] theorem asRows_map_obj (rows : List Obj) : asRows (rows.map .obj) = .ok rows := by
  induction rows with
  | nil => rfl
  | cons row rest ih => simp [asRows, ih, Except.map]

theorem asRows_eq_ok {items : List Json} {rows : List Obj} (h : asRows items = .ok rows) :
    items = rows.map .obj := by
  induction items generalizing rows with
  | nil =>
    cases h
    rfl
  | cons v rest ih =>
    cases v with
    | obj row =>
      rcases hrest : asRows rest with e | rows'
      · simp [asRows, hrest, Except.map] at h
      · simp only [asRows, hrest, Except.map, Except.ok.injEq] at h
        rw [← h, List.map_cons, ih hrest]
    | _ => cases h

/-- Only a list iterates over dicts. -/
theorem iterate_eq_rows {v : Json} {rows : List Obj} (h : iterate v = .ok (rows.map .obj))
    (hne : rows ≠ []) : v = .arr (rows.map .obj) := by
  obtain ⟨row, rest, rfl⟩ := List.exists_cons_of_ne_nil hne
  cases v with
  | arr xs =>
    cases h
    rfl
  | obj fs => cases fs <;> simp [iterate] at h
  | str s => cases hs : s.toList <;> simp [iterate, hs] at h
  | _ => cases h

theorem sameIdentity_iff {keys : List String} {params row : Obj} :
    sameIdentity keys params row = true ↔ ∀ k ∈ keys, row.text k = params.text k := by
  simp [sameIdentity]

theorem matchingRows_perm (keys : List String) (params : Obj) (rows : List Obj) :
    (matchingRows keys params rows).Perm (rows.filter (sameIdentity keys params)) :=
  List.perm_insertionSort _ _

theorem mem_matchingRows {keys : List String} {params row : Obj} {rows : List Obj} :
    row ∈ matchingRows keys params rows ↔ row ∈ rows ∧ sameIdentity keys params row = true := by
  rw [(matchingRows_perm keys params rows).mem_iff, List.mem_filter]

end Opnsense
