import Opnsense.Effects

namespace Opnsense
open Interaction

/-- `len(v)` -/
def pyLen : Json → Except Exc ℕ
  | .arr xs => .ok xs.length
  | .obj fs => .ok fs.length
  | .str s => .ok s.length
  | v => .error (.typeError ("object of type '" ++ v.typeName ++ "' has no len()"))

namespace AuthApiKeyManager

def searchAction : String := "auth/user/search_api_key/all"

def addKey (username : String) : Endpoint :=
  { action := "auth/user/add_api_key", ident := some username }

def delKey (keyId : String) : Endpoint :=
  { action := "auth/user/del_api_key", ident := some keyId }

/-- `r.get("username") == username` -/
def isOwned (username : String) (key : Obj) : Bool :=
  match key.lookup "username" with
  | some (.str name) => name == username
  | _ => false

/-- `list_keys`: an empty name counts as none. -/
def listKeys (username : Option String := none) : M Json := do
  let rows ← await (.search searchAction "" defaultRowCount)
  let name := username.getD ""
  if name ≠ "" then
    let items ← .ofExcept (iterate rows)
    let keys ← .ofExcept (asRows items)
    return .arr ((keys.filter (isOwned name)).map .obj)
  else return rows

def redactedKey (username : String) : Obj :=
  [("username", .str username), ("key", .str "<REDACTED:key>"),
    ("secret", .str "<REDACTED:secret>")]

/-- `body.get("result") not in ("ok", "saved")` -/
def refused (body : Obj) : Bool :=
  match body.lookup "result" with
  | some (.str result) => result != "ok" && result != "saved"
  | _ => true

/-- `create_key` -/
def createKey (username : String) (checkMode : Bool) : M EnsureResult := do
  if checkMode then
    return { changed := true, action := .created, after := some (.obj (redactedKey username)) }
  let body ← await (.post (addKey username) [])
  let body ← .ofExcept (asDict body)
  if refused body then
    .raise (.opnsense
      { cls := .base, message := s!"Failed to create API key for user '{username}'"
        endpoint := some (addKey username).url })
  else
    log .info s!"api_key created for user={username}"
      ([("action", .str "created"), ("changed", .bool true)] ++ redactedKey username)
    return { changed := true, action := .created,
             after := some (.obj [("username", .str username), ("key", body.getD "key" (.str "")),
               ("secret", body.getD "secret" (.str ""))]) }

/-- `delete_key` -/
def deleteKey (keyId : String) (checkMode : Bool) : M EnsureResult := do
  let result : EnsureResult :=
    { changed := true, action := .deleted, before := some (.obj [("key_id", .str keyId)]) }
  if checkMode then return result
  let _ ← await (.post (delKey keyId) [])
  let shown := String.ofList (keyId.toList.take 8) ++ "..."
  log .warning s!"api_key deleted key_id={shown}"
    [("action", .str "deleted"), ("changed", .bool true), ("key_id", .str "<REDACTED:key_id>")]
  return result

/-- The value under `id` counts as an id. -/
def hasId (key : Obj) : Bool := (key.getD "id" (.str "")).truthy

/-- One key after the other; one without an id is passed over. -/
def deleteEach : List Json → M Unit
  | [] => return ()
  | v :: rest => do
    let key ← .ofExcept (asDict v)
    if hasId key then
      let _ ← await (.post (delKey (key.text "id")) [])
      deleteEach rest
    else deleteEach rest

/-- `delete_all_keys` -/
def deleteAllKeys (username : String) (checkMode : Bool := false) : M EnsureResult := do
  let keys ← listKeys (some username)
  if !keys.truthy then return { changed := false, action := .noop }
  if !checkMode then
    let items ← .ofExcept (iterate keys)
    deleteEach items
  let count ← .ofExcept (pyLen keys)
  return { changed := true, action := .deleted,
           before := some (.obj [("username", .str username), ("key_count", .int count)]) }

open BaseManager (ReadOnly)

theorem asks_listKeys (username : Option String) : (listKeys username).Asks ReadOnly := by
  refine Prog.asks_bind ((asks_await _).mpr rfl) fun rows => ?_
  by_cases hname : username.getD "" ≠ ""
  · rw [if_pos hname]
    exact Prog.asks_bind (Prog.asks_ofExcept _) fun _ =>
      Prog.asks_bind (Prog.asks_ofExcept _) fun _ => trivial
  · rw [if_neg hname]
    trivial

/-- In check mode no key is created or deleted. -/
theorem asks_check (username keyId : String) : (createKey username true).Asks ReadOnly ∧
    (deleteKey keyId true).Asks ReadOnly ∧ (deleteAllKeys username true).Asks ReadOnly := by
  refine ⟨trivial, trivial, Prog.asks_bind (asks_listKeys _) fun keys => ?_⟩
  by_cases hkeys : keys.truthy = true
  · rw [hkeys]
    exact Prog.asks_bind (Prog.asks_ofExcept _) fun _ => trivial
  · rw [Bool.not_eq_true] at hkeys
    rw [hkeys]
    trivial

end AuthApiKeyManager
end Opnsense
