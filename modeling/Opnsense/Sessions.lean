import Mathlib.Data.Finset.Insert
import Opnsense.Client
import Opnsense.Interaction.Layers

/-! The HTTP session of a client, which its coroutines share. What a coroutine does between two
suspensions is one question: the start of a request looks the session up or opens one, its
retries keep to the session they started with, and `close` gives way once, after it has marked
the session closed and before it forgets it. -/
namespace Opnsense
open Interaction

/-- The `httpx` clients made so far, those closed of them, and `self._http`. -/
structure Sessions where
  opened : ℕ
  closed : Finset ℕ
  http : Option ℕ
  known : ∀ id ∈ http, id < opened
  made : ∀ id ∈ closed, id < opened

namespace Sessions

/-- A client that was just made. -/
def initial : Sessions where
  opened := 0
  closed := ∅
  http := none
  known _ h := by cases h
  made _ h := by cases h

def IsOpen (s : Sessions) (id : ℕ) : Prop := id < s.opened ∧ id ∉ s.closed

instance (s : Sessions) (id : ℕ) : Decidable (s.IsOpen id) := by
  unfold IsOpen
  infer_instance

/-- `self._http` is a session that can be used. -/
def live (s : Sessions) : Option ℕ := s.http.filter fun id => id ∉ s.closed

theorem live_eq_some {s : Sessions} {id : ℕ} :
    s.live = some id ↔ s.http = some id ∧ id ∉ s.closed := by
  simp [live, Option.filter_eq_some_iff]

theorem isOpen_of_live {s : Sessions} {id : ℕ} (h : s.live = some id) : s.IsOpen id := by
  obtain ⟨hhttp, hnot⟩ := live_eq_some.mp h
  exact ⟨s.known id hhttp, hnot⟩

def openNew (s : Sessions) : Sessions where
  opened := s.opened + 1
  closed := s.closed
  http := some s.opened
  known id h := by
    cases h
    exact Nat.lt_succ_self _
  made id h := Nat.lt_succ_of_lt (s.made id h)

/-- `_ensure_http` -/
def ensureHttp (s : Sessions) : ℕ × Sessions :=
  match s.live with
  | some id => (id, s)
  | none => (s.opened, s.openNew)

/-- `aclose` marks the session closed before it waits for the transport. -/
def markClosed (s : Sessions) (id : ℕ) (h : id < s.opened) : Sessions where
  opened := s.opened
  closed := insert id s.closed
  http := s.http
  known := s.known
  made id' h' := by
    rcases Finset.mem_insert.mp h' with rfl | h'
    · exact h
    · exact s.made id' h'

/-- `self._http = None` -/
def forget (s : Sessions) : Sessions where
  opened := s.opened
  closed := s.closed
  http := none
  known _ h := by cases h
  made := s.made

end Sessions

/-- The steps of the coroutines; `send` carries the session a request holds, if it has begun. -/
inductive SessionRequest where
  | ensureHttp
  | send (http : Option ℕ) (request : HttpRequest)
  | beginClose
  | endClose

inductive SessionReply where
  | session (id : ℕ)
  | replied (id : ℕ) (reply : HttpReply)
  | clientClosed
  | closing (wait : Bool)
  | done

/-- An exception of the client, or the `RuntimeError` of a session that was closed. -/
inductive SessionError where
  | raised (e : Exc)
  | clientClosed

/-- Go on with the reply of the network, unless the session was closed. -/
def SessionReply.resume {β : Type} (r : SessionReply) (answered : ℕ → HttpReply → β)
    (otherwise : β) : β :=
  match r with
  | .replied id reply => answered id reply
  | _ => otherwise

/-- Go on with what a method of the client comes to, unless the session was closed. -/
def SessionError.handBack {β : Type} (r : Except SessionError Json) (handed : Reply → β)
    (otherwise : β) : β :=
  match r with
  | .ok v => handed (.ok v)
  | .error (.raised e) => handed (.error e)
  | .error .clientClosed => otherwise

/-- A coroutine that uses the client. -/
abbrev Coroutine := Prog SessionRequest SessionReply Event SessionError

namespace Sessions

/-- What a step makes of the sessions. -/
def step (q : SessionRequest) (s : Sessions) : Sessions :=
  match q with
  | .ensureHttp | .send none _ => s.ensureHttp.2
  | .send (some _) _ => s
  | .beginClose =>
    match s.http with
    | some id => if h : s.IsOpen id then s.markClosed id h.1 else s
    | none => s
  | .endClose => s.forget

variable {S : Type}

def serve (net : Server HttpRequest HttpReply S) :
    Server SessionRequest SessionReply (Sessions × S)
  | .ensureHttp, (s, n) => (.session s.ensureHttp.1, (s.step .ensureHttp, n))
  | .send none q, (s, n) =>
    (.replied s.ensureHttp.1 (net q n).1, (s.step (.send none q), (net q n).2))
  | .send (some id) q, (s, n) =>
    if s.IsOpen id then (.replied id (net q n).1, (s, (net q n).2)) else (.clientClosed, (s, n))
  | .beginClose, (s, n) => (.closing s.live.isSome, (s.step .beginClose, n))
  | .endClose, (s, n) => (.done, (s.step .endClose, n))

end Sessions

namespace OpnsenseClient

/-- `__aenter__` -/
def aenter : Coroutine Unit := .call .ensureHttp fun _ => .ret ()

def close : Coroutine Unit :=
  .call .beginClose fun
    | .closing true => .call .endClose fun _ => .ret ()
    | _ => .ret ()

/-- `__aexit__` -/
def aexit : Coroutine Unit := close

/-- The attempts of one request: the first takes the session of the moment, the others the one
it took. -/
def onSession {α : Type} : Option ℕ → H α → Coroutine α
  | _, .ret a => .ret a
  | _, .raise e => .raise (.raised e)
  | http, .emit v p => .emit v (onSession http p)
  | http, .call q k => .call (.send http q) fun r =>
    r.resume (fun id reply => onSession (some id) (k reply)) (.raise .clientClosed)

/-- Code over the public methods, each of which is a request of its own. Errors of the client
are handed back to that code; a `RuntimeError` ends it. -/
def overSession {α : Type} (client : OpnsenseClient) : M α → Coroutine α
  | .ret a => .ret a
  | .raise e => .raise (.raised e)
  | .emit v p => .emit v (overSession client p)
  | .call q k => (onSession none (client.call q)).settle fun r =>
    SessionError.handBack r (fun reply => overSession client (k reply)) (.raise .clientClosed)

/-- The same code with nothing between it and the network. -/
def overNetwork {α : Type} (client : OpnsenseClient) (p : M α) : H α := p.implement client.call

theorem run_overNetwork {α S : Type} (client : OpnsenseClient)
    (net : Server HttpRequest HttpReply S) (p : M α) (n : S) :
    (client.overNetwork p).run net n = p.run (client.appliance net) n :=
  Prog.run_implement client.call p n

end OpnsenseClient
end Opnsense
