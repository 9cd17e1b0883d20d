import Opnsense.Settling

namespace Opnsense
open Interaction BaseManager

namespace IdsRulesetManager

def endpoint : String := "ids/settings"

def applyEndpoint : String := "ids/service/reconfigure"

def isObj : Json → Option Obj
  | .obj fs => some fs
  | _ => none

/-- The catalogue rows; what is no dict is passed over. -/
def list : M (List Obj) := do
  let body ← await (.get { action := endpoint ++ "/listRulesets" })
  let rows := match body with
    | .obj fs => Obj.getD fs "rows" (.arr [])
    | _ => .arr []
  let items ← .ofExcept (iterate rows)
  return items.filterMap isObj

/-- `{row.get("filename"): str(row.get("enabled", "0"))}`: a later row wins, and a filename
that is no text is never asked for. -/
def states : List Obj → Obj → Except Exc Obj
  | [], acc => .ok acc
  | row :: rest, acc =>
    let enabled := pyStr (row.getD "enabled" (.str "0"))
    match row.getD "filename" .null with
    | .str filename => states rest (acc.set filename (.str enabled))
    | .arr _ => .error (.typeError "unhashable type: 'list'")
    | .obj _ => .error (.typeError "unhashable type: 'dict'")
    | _ => states rest acc

def flag (want : Bool) : String := if want then "1" else "0"

/-- The filenames whose state is not the wanted one, with the flag to set. -/
def todo (rows : Obj) (desired : List (String × Bool)) : List (String × String) :=
  (desired.map fun fw => (fw.1, flag fw.2)).filter fun ff => rows.text ff.1 != ff.2

def toggleEndpoint (filename flag : String) : Endpoint where
  action := endpoint ++ "/toggleRuleset/" ++ filename
  ident := some flag

def toggleAll : List (String × String) → M Unit
  | [] => return ()
  | (filename, flag) :: rest => do
    let _ ← await (.post (toggleEndpoint filename flag) [])
    toggleAll rest

/-- `except OpnsenseServerError`: the error is raised again with a hint at the usual cause. -/
def hint (exc : Exc) : Exc :=
  match exc with
  | .opnsense e =>
    if e.cls = .server then
      .opnsense
        { cls := .server
          message := s!"{exc.text} — the IDS model may be invalid as stored (e.g. " ++
            "general.interfaces='wan' on a fresh device): apply IdsSettingsManager " ++
            "(interfaces/homenet) BEFORE toggling rulesets"
          statusCode := some 500 }
    else exc
  | exc => exc

/-- The toggles one by one and the apply, with every error logged. -/
def send (todo : List (String × String)) (applies : Bool) : M Unit :=
  Prog.rescue
    (do
      toggleAll todo
      if applies then
        let _ ← await (.reconfigure applyEndpoint { timeout := some 120 })
      else return ())
    (fun exc => .emit (.log ⟨.error, s!"ids ruleset toggle failed: {exc.text}",
      [("action", .str "update_failed"), ("error", .str exc.text)]⟩) (.raise (hint exc)))

/-- `[f for f in desired if f not in rows]` -/
def unknown (rows : Obj) (desired : List (String × Bool)) : List String :=
  (desired.map (·.1)).filter fun filename => !rows.has filename

/-- The second half of `ensureMany`: every filename is in the catalogue. -/
def converge (rows : Obj) (desired : List (String × Bool)) (checkMode applies : Bool) :
    M EnsureResult :=
  let before : Obj := desired.map fun fw => (fw.1, .str (rows.text fw.1))
  let toggles : Obj := (todo rows desired).map fun ff => (ff.1, .str ff.2)
  let result : EnsureResult :=
    { changed := true, action := .updated, before := some (.obj before),
      after := some (.obj (before.overlay toggles)) }
  if (todo rows desired).isEmpty then do
    log .debug s!"noop ids rulesets — {desired.length} already match"
      [("action", .str "noop"), ("count", .int desired.length)]
    return { changed := false, action := .noop, before := some (.obj before),
             after := some (.obj before) }
  else if checkMode then do
    log .info s!"ids rulesets check_mode=True: {(todo rows desired).length} toggle(s)"
      [("action", .str "updated"), ("check_mode", .bool true),
        ("toggles", .arr ((todo rows desired).map fun ff => .str ff.1))]
    return result
  else do
    send (todo rows desired) applies
    let set := pyStr (.obj toggles)
    log .info s!"ids rulesets updated: {set}"
      [("action", .str "updated"), ("toggles", .obj toggles)]
    return result

/-- `ensure_many`; `applies` is the argument `apply`. -/
def ensureMany (desired : List (String × Bool)) (checkMode : Bool := false)
    (applies : Bool := true) : M EnsureResult := do
  let catalogue ← list
  let rows ← .ofExcept (states catalogue [])
  if unknown rows desired ≠ [] then
    let names := pyStr (.arr ((unknown rows desired).map .str))
    .raise (.valueError s!"IdsRulesetManager: unknown ruleset(s) {names} — see list()")
  else converge rows desired checkMode applies

variable {σ : Type} {srv : Appliance σ} {s s' : σ} {t : List (Request × Reply)}
  {desired : List (String × Bool)}

theorem asks_list : list.Asks ReadOnly :=
  Prog.asks_bind ((asks_await _).mpr rfl) fun _ => Prog.asks_bind (by simp) fun _ => trivial

theorem strict_list : list.Strict IsError :=
  Prog.strict_bind (strict_await _) fun _ =>
    Prog.strict_bind (Prog.strict_ofExcept _) fun _ => trivial

theorem strict_toggleAll (todo : List (String × String)) : (toggleAll todo).Strict IsError := by
  induction todo with
  | nil => trivial
  | cons ff rest ih => exact Prog.strict_bind (strict_await _) fun _ => ih

theorem strict_send (todo : List (String × String)) : (send todo true).Strict IsError := by
  apply Prog.strict_rescue
  · apply Prog.strict_bind (strict_toggleAll todo)
    intro _
    exact Prog.strict_bind (strict_await _) fun _ => trivial
  · exact fun _ => ⟨trivial, trivial⟩

theorem strict_converge (rows : Obj) : (converge rows desired false true).Strict IsError := by
  unfold converge
  split
  · exact Prog.strict_bind (Prog.strict_tell _) fun _ => trivial
  · apply Prog.strict_bind (strict_send _)
    intro _
    exact Prog.strict_bind (Prog.strict_tell _) fun _ => trivial

theorem strict_ensureMany : (ensureMany desired).Strict IsError := by
  apply Prog.strict_bind strict_list
  intro catalogue
  apply Prog.strict_bind (Prog.strict_ofExcept _)
  intro rows
  split
  · trivial
  · exact strict_converge rows

/-- Every toggle was answered, so the first one is on the trace. -/
theorem returns_toggleAll {todo : List (String × String)} {u : Unit} (hne : todo ≠ [])
    (h : (toggleAll todo).Returns srv s u s' t) : Writes t := by
  obtain ⟨ff, rest, rfl⟩ := List.exists_cons_of_ne_nil hne
  obtain ⟨v, s₁, t₁, t₂, hpost, -, rfl⟩ := Prog.returns_bind.mp h
  obtain ⟨-, rfl⟩ := (returns_await _).mp hpost
  exact writes_append.mpr (Or.inl ⟨_, List.mem_singleton_self _, rfl⟩)

theorem returns_send {todo : List (String × String)} {u : Unit} (hne : todo ≠ [])
    (h : (send todo true).Returns srv s u s' t) : Accounted true t := by
  have hbody := Prog.returns_of_rescue h
  obtain ⟨u', s₁, t₁, t₂, htoggles, hrest, rfl⟩ := Prog.returns_bind.mp hbody
  obtain ⟨v, s₂, t₃, t₄, happly, hret, rfl⟩ := Prog.returns_bind.mp hrest
  obtain ⟨hq, rfl⟩ := (returns_await _).mp happly
  obtain ⟨-, -, rfl⟩ := Prog.returns_ret.mp hret
  exact accounted_of_applied (returns_toggleAll hne htoggles) ⟨rfl, v, rfl⟩

theorem ensureMany_accounted {r : EnsureResult} (h : (ensureMany desired).Returns srv s r s' t) :
    Accounted r.changed t := by
  obtain ⟨catalogue, s₁, t₁, _, hlist, h₁, rfl⟩ := Prog.returns_bind.mp h
  obtain ⟨rows, _, _, t₂, hrows, h₂, rfl⟩ := Prog.returns_bind.mp h₁
  obtain ⟨-, rfl, rfl⟩ := Prog.returns_ofExcept.mp hrows
  rw [List.nil_append]
  apply Accounted.reads_append (onlyReads_of_asks asks_list hlist)
  split at h₂
  · exact (Prog.returns_raise h₂).elim
  · unfold converge at h₂
    split at h₂
    · simp only [Prog.returns_bind, returns_log, Prog.pure_eq_ret, Prog.returns_ret] at h₂
      obtain ⟨u, _, _, _, ⟨rfl, rfl⟩, ⟨rfl, rfl, rfl⟩, rfl⟩ := h₂
      exact accounted_of_onlyReads (by simp)
    · rename_i hempty
      have hne : todo rows desired ≠ [] := by simpa using hempty
      obtain ⟨u, s₂, t₃, t₄, hsend, hrest, rfl⟩ := Prog.returns_bind.mp h₂
      simp only [Prog.returns_bind, returns_log, Prog.pure_eq_ret, Prog.returns_ret] at hrest
      obtain ⟨_, _, _, _, ⟨rfl, rfl⟩, ⟨rfl, rfl, rfl⟩, rfl⟩ := hrest
      simpa using returns_send hne hsend

end IdsRulesetManager
end Opnsense
