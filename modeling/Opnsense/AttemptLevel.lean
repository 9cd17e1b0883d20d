import Opnsense.Delivery
import Opnsense.Interaction.Lowering
import Opnsense.Sessions

/-! Clients that share an appliance attempt by attempt. A call is sent again while its replies
are lost, others come in between, and the server may have acted on every attempt; what a
manager secures call by call it secures all the same, if it may rely on what it promises. -/
namespace Opnsense
open Interaction

/-- What each method of the client reads out of the body. -/
def readBody : Request → Json → Option Json
  | .search .., .obj fs => some (Obj.getD fs "rows" (.arr []))
  | .search .., _ => none
  | .create action .., body => (OpnsenseClient.createdUuid action body).toOption
  | .reconfigure .., body => if (OpnsenseClient.refusal body).isNone then some body else none
  | _, body => some body

/-- The reply is final and its body reads as `v`. -/
def Decoded (q : Request) (r : HttpReply) (v : Json) : Prop :=
  r.retryable = false ∧ ∃ status body w,
    r = .response status body ∧ body.json = .ok w ∧ readBody q w = some v

namespace OpnsenseClient

variable {client : OpnsenseClient} {σ α : Type}

/-- A body that a request returns is that of its last reply. -/
def Answered (r : HttpReply) (w : Json) : Prop :=
  r.retryable = false ∧ ∃ status body, r = .response status body ∧ body.json = .ok w

theorem outcome_finish (client : OpnsenseClient) (method : Method) (endpoint : String)
    (timeout : ℕ) (earlier : List HttpReply) (r : HttpReply) :
    ∃ o, (client.finish method endpoint timeout earlier r).outcome = some o ∧
      ∀ w, o = .ok w → Answered r w := by
  cases r with
  | timeout => exact ⟨_, rfl, fun w hw => by cases hw⟩
  | transportError text => exact ⟨_, rfl, fun w hw => by cases hw⟩
  | response status body =>
    simp only [finish]
    split
    · exact ⟨_, rfl, fun w hw => by cases hw⟩
    · next hstatus =>
      have hlow : ¬ 500 ≤ status := fun h => hstatus (Or.inr h)
      split
      · exact ⟨_, rfl, fun w hw => by cases hw⟩
      · next value hjson =>
        split
        · exact ⟨_, rfl, fun w hw => by cases hw⟩
        · refine ⟨_, rfl, fun w hw => ?_⟩
          cases hw
          exact ⟨by simpa [HttpReply.retryable] using hlow, status, body, rfl, hjson⟩

theorem resends_request (method : Method) (endpoint : String) (data : Obj) (opts : CallOptions) :
    (client.request method endpoint data opts).Resends (client.attempt method endpoint data opts)
      HttpReply.retryable Answered := by
  have hretry : (Prog.retry (client.attempt method endpoint data opts) HttpReply.retryable
      (client.beforeRetry method endpoint (client.effectiveRetries opts))
      (client.finish method endpoint (opts.timeout.getD client.timeout))
      (client.effectiveRetries opts - 1) []).Resends (client.attempt method endpoint data opts)
      HttpReply.retryable Answered :=
    Prog.resends_retry (outcome_finish client method endpoint _) _ _
  refine Prog.resends_rescue hretry fun failed => ?_
  obtain ⟨exc, status⟩ := failed
  cases exc <;> exact ⟨_, rfl⟩

/-- Each method sends one request, over and over, and reads its value off the last reply. -/
theorem resends_call (q : Request) :
    (client.call q).Resends (client.http q) HttpReply.retryable (Decoded q) := by
  have hplain : ∀ r w, Answered r w → readBody q w = some w → Decoded q r w := by
    rintro r w ⟨hfinal, status, body, hr, hw⟩ hread
    exact ⟨hfinal, status, body, w, hr, hw, hread⟩
  cases q with
  | get ep opts =>
    exact Prog.resends_mono (resends_request ..) fun r w h => hplain r w h rfl
  | post ep data opts =>
    exact Prog.resends_mono (resends_request ..) fun r w h => hplain r w h rfl
  | update action uuid payloadKey params =>
    exact Prog.resends_mono (resends_request ..) fun r w h => hplain r w h rfl
  | delete action uuid =>
    exact Prog.resends_mono (resends_request ..) fun r w h => hplain r w h rfl
  | search action phrase rowCount =>
    refine Prog.resends_bind (resends_request ..) fun r w h => ?_
    obtain ⟨hfinal, status, body, hr, hw⟩ := h
    cases w with
    | obj fs =>
      refine ⟨_, rfl, fun v hv => ?_⟩
      cases hv
      exact ⟨hfinal, status, body, _, hr, hw, rfl⟩
    | _ => exact ⟨_, rfl, fun v hv => by cases hv⟩
  | create action payloadKey params =>
    refine Prog.resends_bind (resends_request ..) fun r w h => ?_
    obtain ⟨hfinal, status, body, hr, hw⟩ := h
    cases huuid : createdUuid action w with
    | error e => exact ⟨_, rfl, fun v hv => by cases hv⟩
    | ok u =>
      refine ⟨_, rfl, fun v hv => ?_⟩
      cases hv
      have hread : readBody (.create action payloadKey params) w = some u := by
        simp [readBody, huuid, Except.toOption]
      exact ⟨hfinal, status, body, _, hr, hw, hread⟩
  | reconfigure action opts =>
    refine Prog.resends_bind (resends_request ..) fun r w h => ?_
    cases hrefusal : refusal w with
    | some message => exact ⟨_, rfl, fun v hv => by cases hv⟩
    | none =>
      refine ⟨_, rfl, fun v hv => ?_⟩
      cases hv
      have hread : readBody (.reconfigure action opts) w = some w := by
        simp [readBody, hrefusal]
      exact hplain r w h hread

/-- The server acts on the one HTTP request behind `q` as the appliance acts on `q`, and a body
that can be read is its reply. -/
def Carried (client : OpnsenseClient) (web : Server HttpRequest HttpReply σ) (srv : Appliance σ)
    (q : Request) : Prop :=
  ∀ s, (web (client.http q) s).2 = (srv q s).2 ∧
    ∀ v, Decoded q (web (client.http q) s).1 v → (srv q s).1 = .ok v

/-- What is said of the appliance whatever will be lost, said of the server below. -/
def Throughout (P : σ × List (Fault Exc) → Prop) (t : σ × List (Fault NetFailure)) : Prop :=
  ∀ fs, P (t.1, fs)

/-- A move of the server is one of the appliance. -/
def Lowered (R : σ × List (Fault Exc) → σ × List (Fault Exc) → Prop)
    (t t' : σ × List (Fault NetFailure)) : Prop :=
  ∀ fs', ∃ fs, R (t.1, fs) (t'.1, fs')

variable {web : Server HttpRequest HttpReply σ} {srv : Appliance σ}
  {rely guar : σ × List (Fault Exc) → σ × List (Fault Exc) → Prop}
  {P : σ × List (Fault Exc) → Prop}

theorem stable_throughout (h : Stable rely P) : Stable (Lowered rely) (Throughout P) := by
  intro t t' hrely ht fs'
  obtain ⟨fs, hmoves⟩ := hrely fs'
  exact h _ _ hmoves (ht fs)

section Requests

variable {q : Request} {pre : σ × List (Fault Exc) → Prop}
  {mid : Reply → σ × List (Fault Exc) → Prop}
  (hq : ∀ s, pre s → guar s (faulty .error srv q s).2 ∧
    mid (faulty .error srv q s).1 (faulty .error srv q s).2)
include hq

/-- What the three fates of a request are known to leave behind. -/
theorem fates {t : σ × List (Fault NetFailure)} (hpre : Throughout pre t) :
    (∀ fs, guar (t.1, .served :: fs) ((srv q t.1).2, fs) ∧
      mid (srv q t.1).1 ((srv q t.1).2, fs)) ∧
    (∀ e fs, guar (t.1, .lost e :: fs) (t.1, fs) ∧ mid (.error e) (t.1, fs)) :=
  ⟨fun fs => hq (t.1, .served :: fs) (hpre _), fun e fs => hq (t.1, .lost e :: fs) (hpre _)⟩

/-- A call with all its attempts secures what the request secures. -/
theorem secures_call (hown : ∀ s s', guar s s' → rely s s') (hcarried : Carried client web srv q)
    (hpre : Stable rely pre) (hmid : ∀ r, Stable rely (mid r)) :
    (client.call q).Secures (lossy web) (Lowered rely) (Lowered guar)
      (fun r => Throughout (mid r)) (Throughout pre) := by
  -- what a reply tells, if it is not sent again
  let told : HttpReply → σ × List (Fault NetFailure) → Prop := fun r t =>
    ∀ v, Decoded q r v → Throughout (mid (.ok v)) t
  have hstep : ∀ t, Throughout pre t → Lowered guar t (lossy web (client.http q) t).2 ∧
      Throughout pre (lossy web (client.http q) t).2 ∧
      told (lossy web (client.http q) t).1 (lossy web (client.http q) t).2 := by
    rintro ⟨s, fs⟩ ht
    obtain ⟨hserved, hlost⟩ := fates hq ht
    obtain ⟨hstate, hreply⟩ := hcarried s
    have hmoved : ∀ fs', guar (s, .served :: fs') ((web (client.http q) s).2, fs') := by
      rw [hstate]
      exact fun fs' => (hserved fs').1
    have hlater : ∀ fs', pre ((web (client.http q) s).2, fs') := fun fs' =>
      hpre _ _ (hown _ _ (hmoved fs')) (ht _)
    -- a failure of the network is sent again or raised, and is never read
    have hfailed : ∀ (e : NetFailure) t, told e.1 t := by
      rintro e t v ⟨hfinal, -⟩
      rw [e.2] at hfinal
      cases hfinal
    obtain ⟨t', ⟨heq, ht'⟩ | ⟨e, heq, ht'⟩⟩ :=
      faulty_eq (Subtype.val : NetFailure → HttpReply) web (client.http q) s fs
    · rw [show lossy web (client.http q) (s, fs) = _ from heq]
      obtain ⟨s', fs'⟩ := t'
      obtain rfl : s' = (web (client.http q) s).2 := ht'
      refine ⟨fun fs' => ⟨_, hmoved fs'⟩, hlater, fun v hv fs' => ?_⟩
      have hmid' := (hserved fs').2
      rwa [hreply v hv, ← hstate] at hmid'
    · rw [show lossy web (client.http q) (s, fs) = _ from heq]
      obtain ⟨s', fs'⟩ := t'
      refine ⟨?_, ?_, hfailed e _⟩
      · rcases ht' with ht' | ht'
        · obtain rfl : s' = s := ht'
          exact fun fs' => ⟨_, (hlost (.keyError "") fs').1⟩
        · obtain rfl : s' = (web (client.http q) s).2 := ht'
          exact fun fs' => ⟨_, hmoved fs'⟩
      · rcases ht' with ht' | ht'
        · obtain rfl : s' = s := ht'
          exact ht
        · obtain rfl : s' = (web (client.http q) s).2 := ht'
          exact hlater
  have hstable : ∀ r, Stable (Lowered rely) (told r) := fun r t t' hrely ht v hv =>
    stable_throughout (hmid (.ok v)) t t' hrely (ht v hv)
  refine Prog.secures_of_resends (resends_call q) (stable_throughout hpre) hstable hstep
    (fun r v t ht hv => ht v hv) fun e t ht fs => ?_
  exact ((fates hq ht).2 e fs).2

end Requests

/-- What a manager secures call by call it secures attempt by attempt. -/
theorem secures_overNetwork {allowed : Request → Prop} {p : M α}
    {post : Except Exc α → σ × List (Fault Exc) → Prop}
    {pre : σ × List (Fault Exc) → Prop} (hown : ∀ s s', guar s s' → rely s s')
    (hcarried : ∀ q, allowed q → Carried client web srv q) (hasks : p.Asks allowed)
    (hstable : Stable rely pre) (hp : p.Secures (faulty .error srv) rely guar post pre) :
    (client.overNetwork p).Secures (lossy web) (Lowered rely) (Lowered guar)
      (fun o => Throughout (post o)) (Throughout pre) :=
  Prog.secures_implement Throughout (fun q _ _ hallowed hpre hmid hq =>
      secures_call hq hown (hcarried q hallowed) hpre hmid)
    (fun _ _ h _ ht fs => h _ (ht fs)) hasks hstable hp

variable {ι : Type} [DecidableEq ι]

/-- So it does in every order of the attempts of all clients. -/
theorem overNetwork_in_every_order {relies promises : ι → σ × List (Fault Exc) →
      σ × List (Fault Exc) → Prop} {post : ι → Except Exc α → σ × List (Fault Exc) → Prop}
    {pre : ι → σ × List (Fault Exc) → Prop} {allowed : Request → Prop} {p : ι → M α} {s : σ}
    (client : ι → OpnsenseClient)
    (hcompat : ∀ i j s s', promises i s s' → relies j s s')
    (hcarried : ∀ i q, allowed q → Carried (client i) web srv q) (hasks : ∀ i, (p i).Asks allowed)
    (hstable : ∀ i, Stable (relies i) (pre i)) (hstart : ∀ i fs, pre i (s, fs))
    (hp : ∀ i, (p i).Secures (faulty .error srv) (relies i) (promises i) (post i) (pre i))
    (J : σ → Prop) (hJ : ∀ i s s', promises i s s' → J s.1 → J s'.1) (hs : J s)
    (faults : List (Fault NetFailure)) (turns : List ι) :
    let c := Pool.schedule (lossy web) turns
      { progs := fun i => (client i).overNetwork (p i), state := (s, faults) }
    J c.state.1 ∧ ∀ i o, (c.progs i).next = .inl o → ∀ fs, post i o (c.state.1, fs) := by
  intro c
  have hsecured : Pool.Secured (lossy web) (fun i => Lowered (relies i))
      (fun i => Lowered (promises i)) (fun i o => Throughout (post i o))
      { progs := fun i => (client i).overNetwork (p i), state := (s, faults) } := fun i =>
    ⟨_, stable_throughout (hstable i), hstart i,
      secures_overNetwork (hcompat i i) (hcarried i) (hasks i) (hstable i) (hp i)⟩
  refine hsecured.in_every_order (fun i j _ t t' h fs' => ?_) (fun t => J t.1)
    (fun i t t' h ht => ?_) hs turns
  · obtain ⟨fs, hmoves⟩ := h fs'
    exact ⟨fs, hcompat i j _ _ hmoves⟩
  · obtain ⟨fs, hmoves⟩ := h []
    exact hJ i _ _ hmoves ht

end OpnsenseClient
end Opnsense
