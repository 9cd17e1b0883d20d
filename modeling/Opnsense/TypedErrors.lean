import Opnsense.FinalReply

namespace Opnsense
open Interaction OpnsenseClient

inductive PublicCall where
  | get (ep : Endpoint) (opts : CallOptions)
  | post (ep : Endpoint) (data : Obj) (opts : CallOptions)
  | search (endpoint phrase : String) (rowCount : ℕ) (opts : CallOptions)
  | create (endpoint payloadKey : String) (params : Obj) (opts : CallOptions)
  | reconfigure (endpoint : String) (opts : CallOptions)

namespace PublicCall

def program (client : OpnsenseClient) : PublicCall → H Json
  | get ep opts => client.get ep opts
  | post ep data opts => client.post ep data opts
  | search endpoint phrase rowCount opts => client.search endpoint phrase rowCount opts
  | create endpoint payloadKey params opts => client.create endpoint payloadKey params opts
  | reconfigure endpoint opts => client.reconfigure endpoint opts

/-- The type a method declares: `dict[str, Any]`, `list[dict[str, Any]]` or `str`. -/
def Declares : PublicCall → Json → Prop
  | get .., v => v.isDict = true
  | post .., v => v.isDict = true
  | search .., v => ∃ rows : List Obj, v = .arr (rows.map .obj)
  | create .., v => ∃ uuid, v = .str uuid
  | reconfigure .., v => v.isDict = true

/-- A value of the declared type, or an `OpnsenseError`. -/
def Typed (c : PublicCall) : Except Exc Json → Prop
  | .ok v => c.Declares v
  | .error exc => ∃ e, exc = .opnsense e

/-- The bodies a method can do its work with: an object, for `search` one whose `rows`, if
any, are a list of objects, for `create` one whose `uuid`, if any, is a string. -/
def Fits : PublicCall → Json → Prop
  | search .., v => ∃ fs, v = .obj fs ∧ ∃ rows : List Obj,
      Obj.getD fs "rows" (.arr []) = .arr (rows.map .obj)
  | create .., v => ∃ fs, v = .obj fs ∧
      ((Obj.getD fs "uuid" .null).truthy = true → ∃ uuid, Obj.getD fs "uuid" .null = .str uuid)
  | _, v => v.isDict = true

/-- The request behind a method. -/
def attempt (client : OpnsenseClient) : PublicCall → HttpRequest
  | get ep opts => client.attempt .get ep.url [] opts
  | post ep data opts => client.attempt .post ep.url data opts
  | search endpoint phrase rowCount opts => client.attempt .post endpoint
      [("searchPhrase", .str phrase), ("rowCount", .int rowCount), ("current", .int 1)] opts
  | create endpoint payloadKey params opts =>
      client.attempt .post endpoint [(payloadKey, .obj params)] opts
  | reconfigure endpoint opts => client.attempt .post endpoint [] opts

def opts : PublicCall → CallOptions
  | get _ opts => opts
  | post _ _ opts => opts
  | search _ _ _ opts => opts
  | create _ _ _ opts => opts
  | reconfigure _ opts => opts

variable {S : Type} {client : OpnsenseClient} {net : Server HttpRequest HttpReply S} {x : S}

theorem typed_noAttribute (c : PublicCall) (v : Json) (name : String) :
    ¬ c.Typed (.error (Exc.noAttribute v name)) := by
  rintro ⟨e, h⟩
  cases h

theorem typed_undecodable (c : PublicCall) (message : String) :
    ¬ c.Typed (.error (.jsonDecodeError message)) := by
  rintro ⟨e, h⟩
  cases h

theorem typed_rows {endpoint phrase : String} {rowCount : ℕ} {opts : CallOptions} (v : Json) :
    (search endpoint phrase rowCount opts).Typed (match v with
      | .obj fs => .ok (Obj.getD fs "rows" (.arr []))
      | v => .error (Exc.noAttribute v "get")) ↔ (search endpoint phrase rowCount opts).Fits v := by
  cases v with
  | obj fs => simp [Typed, Fits, Declares]
  | _ =>
    refine iff_of_false (typed_noAttribute _ _ _) ?_
    rintro ⟨fs, h, -⟩
    cases h

theorem typed_createdUuid {endpoint payloadKey : String} {params : Obj} {opts : CallOptions}
    (v : Json) : (create endpoint payloadKey params opts).Typed (createdUuid endpoint v) ↔
      (create endpoint payloadKey params opts).Fits v := by
  cases v with
  | obj fs =>
    cases htruthy : (Obj.getD fs "uuid" .null).truthy with
    | true => simp [Typed, Fits, Declares, createdUuid, htruthy]
    | false => simp [Typed, Fits, createdUuid, htruthy]
  | _ =>
    refine iff_of_false (typed_noAttribute _ _ _) ?_
    rintro ⟨fs, h, -⟩
    cases h

theorem isDict_of_refusal {v : Json} {message : String} (h : refusal v = some message) :
    v.isDict = true := by
  cases v with
  | obj fs => rfl
  | _ => cases h

/-- What a reading says of the outcome of a method. -/
def Judged (c : PublicCall) (o : Except Exc Json) : Reading → Prop
  | .body v => c.Typed o ↔ c.Fits v
  | .undecodable _ => ¬ c.Typed o
  | .refused => c.Typed o

/-- A method that goes on from its body without another request. -/
theorem judged_bind (c : PublicCall) {r : Reading} {p : H Json} {f : Json → H Json}
    {o : Except Exc Json} {x' : S} (hp : p.run net x = (o, x')) (hreads : OpnsenseClient.Reads r o)
    (hf : ∀ v, c.Typed ((f v).run net x').1 ↔ c.Fits v) :
    c.Judged ((p >>= f).run net x).1 r := by
  rw [Prog.run_bind, hp]
  cases r with
  | body v =>
    rw [show o = .ok v from hreads]
    exact hf v
  | undecodable message =>
    rw [show o = _ from hreads]
    exact typed_undecodable c message
  | refused =>
    obtain ⟨e, rfl⟩ := hreads
    exact ⟨e, rfl⟩

theorem judged_program (client : OpnsenseClient) (net : Server HttpRequest HttpReply S) (x : S)
    (c : PublicCall) : c.Judged ((c.program client).run net x).1
      (client.finalReply net (c.attempt client) c.opts x).1.reading := by
  -- a method that returns the body itself, put as one that goes on with `ret`
  have hself : ∀ (method : Method) (endpoint : String) (data : Obj) (opts : CallOptions),
      (∀ v, c.Fits v ↔ c.Declares v) →
        c.Judged ((client.request method endpoint data opts).run net x).1
          (client.finalReply net (client.attempt method endpoint data opts) opts x).1.reading := by
    intro method endpoint data opts hfits
    obtain ⟨o, hrun, hreads⟩ := @run_request_reads _ client net method endpoint data opts x
    have hjudged : c.Judged ((client.request method endpoint data opts >>= pure).run net x).1 _ :=
      judged_bind c hrun hreads fun v => (hfits v).symm
    rwa [bind_pure] at hjudged
  cases c with
  | get ep opts => exact hself _ _ _ _ fun v => Iff.rfl
  | post ep data opts => exact hself _ _ _ _ fun v => Iff.rfl
  | search endpoint phrase rowCount opts =>
    obtain ⟨o, hrun, hreads⟩ := @run_request_reads _ client net .post endpoint
      [("searchPhrase", .str phrase), ("rowCount", .int rowCount), ("current", .int 1)] opts x
    refine judged_bind _ hrun hreads fun v => ?_
    rw [Prog.run_ofExcept]
    exact typed_rows v
  | create endpoint payloadKey params opts =>
    obtain ⟨o, hrun, hreads⟩ := @run_request_reads _ client net .post endpoint
      [(payloadKey, .obj params)] opts x
    refine judged_bind _ hrun hreads fun v => ?_
    rw [Prog.run_ofExcept]
    exact typed_createdUuid v
  | reconfigure endpoint opts =>
    obtain ⟨o, hrun, hreads⟩ := @run_request_reads _ client net .post endpoint [] opts x
    refine judged_bind _ hrun hreads fun v => ?_
    cases hrefusal : refusal v with
    -- a refusal is found in an object only, and raised as an error of the server
    | none => exact Iff.rfl
    | some message => exact iff_of_true ⟨_, rfl⟩ (isDict_of_refusal hrefusal)

/-- A call ends in its declared type or in an `OpnsenseError` exactly when its attempts end
with a reply that is refused, or with a JSON body of the shape the method reads. -/
theorem typed_iff (client : OpnsenseClient) (net : Server HttpRequest HttpReply S) (x : S)
    (c : PublicCall) :
    let reading := (client.finalReply net (c.attempt client) c.opts x).1.reading
    c.Typed ((c.program client).run net x).1 ↔
      (∀ message, reading ≠ .undecodable message) ∧ ∀ v, reading = .body v → c.Fits v := by
  intro reading
  have hjudged := judged_program client net x c
  cases hreading : reading with
  | body v =>
    rw [show (client.finalReply net _ c.opts x).1.reading = _ from hreading] at hjudged
    rw [show c.Typed _ ↔ c.Fits v from hjudged]
    constructor
    · rintro hfits
      refine ⟨fun message h => (nomatch h), fun w hw => ?_⟩
      cases hw
      exact hfits
    · exact fun h => h.2 v rfl
  | undecodable message =>
    rw [show (client.finalReply net _ c.opts x).1.reading = _ from hreading] at hjudged
    exact iff_of_false hjudged fun h => h.1 message rfl
  | refused =>
    rw [show (client.finalReply net _ c.opts x).1.reading = _ from hreading] at hjudged
    exact iff_of_true hjudged ⟨fun message h => (nomatch h), fun v h => (nomatch h)⟩

end PublicCall

/-- A login page in place of JSON: the decoding error escapes. -/
theorem page_not_typed :
    let page : HttpReply := .response 200 ⟨"<html>", .error "Expecting value"⟩
    let c : PublicCall := .get { action := "core/firmware/info" } {}
    ((c.program defaultClient).run (answering page) ()).1 =
        .error (.jsonDecodeError "Expecting value") ∧
      ¬ c.Typed ((c.program defaultClient).run (answering page) ()).1 := by
  intro page c
  have hrun : ((c.program defaultClient).run (answering page) ()).1 =
      .error (.jsonDecodeError "Expecting value") := rfl
  exact ⟨hrun, by rw [hrun]; exact PublicCall.typed_undecodable c _⟩

end Opnsense
