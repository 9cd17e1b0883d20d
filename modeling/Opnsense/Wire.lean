import Mathlib.Data.Rat.Defs
import Opnsense.Errors
import Opnsense.Interaction.Bound
import Opnsense.Interaction.Rely
import Opnsense.Interaction.Returned

/-! What a manager exchanges with the client: one `Request` is one call of a public
method of `OpnsenseClient`, answered by a decoded value or an exception. -/
namespace Opnsense
open Interaction

/-- An API path; `ident` is the identifier appended as a last segment. -/
structure Endpoint where
  action : String
  ident : Option String := none
  deriving DecidableEq, Repr

def Endpoint.url (ep : Endpoint) : String :=
  match ep.ident with
  | none => ep.action
  | some u => ep.action ++ "/" ++ u

/-- The per-call overrides every client method accepts. -/
structure CallOptions where
  timeout : Option ℕ := none
  maxRetries : Option ℤ := none
  deriving DecidableEq, Repr

inductive Request where
  | get (ep : Endpoint) (opts : CallOptions := {})
  | post (ep : Endpoint) (data : Obj) (opts : CallOptions := {})
  | search (action phrase : String) (rowCount : ℕ)
  | create (action payloadKey : String) (params : Obj)
  | update (action uuid payloadKey : String) (params : Obj)
  | delete (action uuid : String)
  | reconfigure (action : String) (opts : CallOptions := {})

namespace Request

/-- Requests that only read. -/
def isRead : Request → Bool
  | get .. => true
  | search .. => true
  | _ => false

/-- An add, set or del request, or another POST that saves configuration. -/
def isWrite : Request → Bool
  | post .. => true
  | create .. => true
  | update .. => true
  | delete .. => true
  | _ => false

def isApply : Request → Bool
  | reconfigure .. => true
  | _ => false

end Request

abbrev Reply := Except Exc Json

inductive LogLevel where
  | debug | info | warning | error
  deriving DecidableEq, Repr

/-- A log record; `extra` is the structured part. -/
structure LogRecord where
  level : LogLevel
  message : String
  extra : Obj

inductive Event where
  | log (record : LogRecord)
  | sleep (seconds : ℚ)

/-- A coroutine of the library. -/
abbrev M := Prog Request Reply Event Exc

abbrev Appliance (σ : Type) := Server Request Reply σ

/-- Await one client call. -/
def await (q : Request) : M Json := .call q .ofExcept

def log (level : LogLevel) (message : String) (extra : Obj) : M Unit :=
  .tell (.log ⟨level, message, extra⟩)

/-- `try: … except Exception: logger.error(…); raise` -/
def logError {α : Type} (p : M α) (message : Exc → String) (extra : Exc → Obj) : M α :=
  p.onError fun e => .log ⟨.error, message e, extra e⟩

/-- The same with an `except` clause before it that lets some errors pass unlogged. -/
def logErrorUnless {α : Type} (skip : Exc → Bool) (p : M α) (message : Exc → String)
    (extra : Exc → Obj) : M α :=
  p.rescue fun e =>
    if skip e then .raise e else .emit (.log ⟨.error, message e, extra e⟩) (.raise e)

variable {σ α : Type} {srv : Appliance σ} {s : σ}

@[simp] theorem run_await (q : Request) :
    (await q).run srv s = ((srv q s).1, (srv q s).2) := by
  simp [await]

@[simp] theorem trace_await (q : Request) : (await q).trace srv s = [(q, (srv q s).1)] := by
  simp [await]

@[simp] theorem returns_await (q : Request) {v : Json} {s' : σ} {t : List (Request × Reply)} :
    (await q).Returns srv s v s' t ↔ srv q s = (.ok v, s') ∧ t = [(q, .ok v)] := by
  simp only [Prog.Returns, run_await, trace_await, Prod.mk.injEq]
  constructor
  · rintro ⟨⟨hv, hs⟩, rfl⟩
    exact ⟨by rw [← hv, ← hs], by rw [hv]⟩
  · rintro ⟨h, rfl⟩
    simp [h]

@[simp] theorem asks_await {allowed : Request → Prop} (q : Request) :
    (await q).Asks allowed ↔ allowed q := by
  simp [await]

@[simp] theorem run_log (level : LogLevel) (message : String) (extra : Obj) :
    (log level message extra).run srv s = (.ok (), s) := rfl

@[simp] theorem trace_log (level : LogLevel) (message : String) (extra : Obj) :
    (log level message extra).trace srv s = [] := rfl

@[simp] theorem returns_log (level : LogLevel) (message : String) (extra : Obj) {u : Unit}
    {s' : σ} {t : List (Request × Reply)} :
    (log level message extra).Returns srv s u s' t ↔ s' = s ∧ t = [] := by
  simp [log, Prog.tell]

@[simp] theorem asks_log {allowed : Request → Prop} (level : LogLevel) (message : String)
    (extra : Obj) : (log level message extra).Asks allowed := trivial

@[simp] theorem run_logError (p : M α) (message : Exc → String) (extra : Exc → Obj) :
    (logError p message extra).run srv s = p.run srv s := by
  simp [logError]

@[simp] theorem trace_logError (p : M α) (message : Exc → String) (extra : Exc → Obj) :
    (logError p message extra).trace srv s = p.trace srv s := by
  simp [logError]

@[simp] theorem returns_logError {p : M α} {message : Exc → String} {extra : Exc → Obj} {a : α}
    {s' : σ} {t : List (Request × Reply)} :
    (logError p message extra).Returns srv s a s' t ↔ p.Returns srv s a s' t := by
  simp [Prog.Returns]

theorem asks_logError {allowed : Request → Prop} {p : M α} (hp : p.Asks allowed)
    (message : Exc → String) (extra : Exc → Obj) : (logError p message extra).Asks allowed :=
  Prog.asks_onError hp _

@[simp] theorem run_logErrorUnless (skip : Exc → Bool) (p : M α) (message : Exc → String)
    (extra : Exc → Obj) : (logErrorUnless skip p message extra).run srv s = p.run srv s := by
  rw [logErrorUnless, Prog.run_rescue]
  rcases p.run srv s with ⟨e | a, s'⟩
  · cases hskip : skip e <;> simp [hskip]
  · rfl

@[simp] theorem trace_logErrorUnless (skip : Exc → Bool) (p : M α) (message : Exc → String)
    (extra : Exc → Obj) : (logErrorUnless skip p message extra).trace srv s = p.trace srv s := by
  rw [logErrorUnless, Prog.trace_rescue]
  rcases p.run srv s with ⟨e | a, s'⟩
  · cases hskip : skip e <;> simp [hskip]
  · simp

@[simp] theorem returns_logErrorUnless {skip : Exc → Bool} {p : M α} {message : Exc → String}
    {extra : Exc → Obj} {a : α} {s' : σ} {t : List (Request × Reply)} :
    (logErrorUnless skip p message extra).Returns srv s a s' t ↔ p.Returns srv s a s' t := by
  simp [Prog.Returns]

theorem asks_logErrorUnless {allowed : Request → Prop} {p : M α} (hp : p.Asks allowed)
    (skip : Exc → Bool) (message : Exc → String) (extra : Exc → Obj) :
    (logErrorUnless skip p message extra).Asks allowed := by
  apply Prog.asks_rescue hp
  intro e
  cases skip e <;> simp

/-- One request among other clients: `told` is what its reply says, as long as it holds. -/
theorem secures_await {rely guar : σ → σ → Prop} {pre : σ → Prop} {q : Request}
    (told : Reply → σ → Prop) (hstable : ∀ r, Stable rely (told r))
    (hq : ∀ s, pre s → guar s (srv q s).2 ∧ told (srv q s).1 (srv q s).2) :
    (await q).Secures srv rely guar told pre :=
  ⟨told, hstable, hq, fun _ => Prog.secures_ofExcept fun _ h => h⟩

theorem secures_logErrorUnless {rely guar : σ → σ → Prop} {pre : σ → Prop}
    {post : Except Exc α → σ → Prop} {skip : Exc → Bool} {p : M α} {message : Exc → String}
    {extra : Exc → Obj} (h : p.Secures srv rely guar post pre) :
    (logErrorUnless skip p message extra).Secures srv rely guar post pre := by
  refine Prog.secures_rescue h (fun _ _ h => h) fun e => ?_
  split
  · exact fun _ h => h
  · exact fun _ h => h

theorem asksAtMost_await (q : Request) : (await q).AsksAtMost 1 :=
  fun _ => Prog.asksAtMost_ofExcept _ 0

theorem asksAtMost_logError {p : M α} {n : ℕ} {message : Exc → String} {extra : Exc → Obj}
    (h : p.AsksAtMost n) : (logError p message extra).AsksAtMost n :=
  Prog.asksAtMost_rescue h fun _ _ => trivial

end Opnsense
