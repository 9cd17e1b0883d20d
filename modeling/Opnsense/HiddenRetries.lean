import Opnsense.AttemptLevel
import Opnsense.Interaction.Landing
import Opnsense.RetriedDedupe

/-! Retries that nobody sees. As long as an attempt that fails was not acted on, a call takes
effect with its last attempt, and what the clients do attempt by attempt, in any order, they
could have done call by call. -/
namespace Opnsense
open Interaction

/-- No attempt is acted on whose reply is lost. -/
def NoneCut (fs : List (Fault NetFailure)) : Prop := ∀ e, Fault.cut e ∉ fs

namespace OpnsenseClient

variable {σ α ι : Type} {client : OpnsenseClient} {web : Server HttpRequest HttpReply σ}
  {srv : Appliance σ} {q : Request}

/-- Lost attempts leave the appliance alone, and the last one is the call: what was read is the
appliance's reply, and an error is one that the call may end in. -/
theorem lands_of_resends {p : H Json} (hcarried : Carried client web srv q)
    (hfinal : ∀ s, (web (client.http q) s).1.retryable = false)
    (hp : p.Resends (client.http q) HttpReply.retryable (Decoded q)) :
    p.Lands (lossy web) (fun t => NoneCut t.2) Prod.fst .error srv q := by
  induction p with
  | ret v => exact hp.elim
  | raise e => exact hp.elim
  | emit v p ih => exact ih hp
  | call q' k ih =>
    obtain ⟨rfl, hk⟩ := hp
    have hserved : ∀ s, ∃ o f, (k (web (client.http q) s).1).outcome = some o ∧
        ∀ fs, faulty .error srv q (s, f :: fs) = (o, (web (client.http q) s).2, fs) := by
      intro s
      obtain ⟨hstate, hreply⟩ := hcarried s
      rw [hstate]
      rcases hk (web (client.http q) s).1 with ⟨hagain, -⟩ | ⟨o, ho, hread⟩
      · rw [hfinal s] at hagain
        cases hagain
      · cases o with
        | ok v =>
          refine ⟨_, .served, ho, fun fs => ?_⟩
          rw [← hreply v (hread v rfl)]
          rfl
        | error e => exact ⟨_, .cut e, ho, fun fs => rfl⟩
    rintro ⟨s, fs⟩ hcut
    rcases fs with _ | ⟨f, fs⟩
    · exact Or.inr (hserved s)
    · cases f with
      | served => exact Or.inr (hserved s)
      | cut e => exact absurd (List.mem_cons_self ..) (hcut e)
      | lost e =>
        rcases hk e.1 with ⟨-, hagain⟩ | ⟨o, ho, hread⟩
        · exact Or.inl ⟨rfl, ih _ hagain⟩
        · cases o with
          | ok v =>
            obtain ⟨hlast, -⟩ := hread v rfl
            rw [e.2] at hlast
            cases hlast
          | error e' => exact Or.inr ⟨_, .lost e', ho, fun fs => rfl⟩

theorem noneCut_lossy (h : HttpRequest) (t : σ × List (Fault NetFailure)) (ht : NoneCut t.2) :
    NoneCut (lossy web h t).2.2 := by
  obtain ⟨s, fs⟩ := t
  rcases fs with _ | ⟨f, fs⟩
  · exact ht
  · have hrest : NoneCut fs := fun e he => ht e (List.mem_cons_of_mem _ he)
    cases f <;> exact hrest

variable [DecidableEq ι]

/-- Where no attempt is acted on unseen, all that clients with retries do in any order of their
attempts they do in an order of their calls: each call takes effect in one of the turns of its
client, or fails there, every client comes to the same, and so does the appliance. -/
theorem attempts_are_calls (client : ι → OpnsenseClient) (web : Server HttpRequest HttpReply σ)
    (srv : Appliance σ) {allowed : Request → Prop}
    (hcarried : ∀ i q, allowed q → Carried (client i) web srv q)
    (hfinal : ∀ i q, allowed q → ∀ s, (web ((client i).http q) s).1.retryable = false)
    (programs : ι → M α) (hasks : ∀ i, (programs i).Asks allowed) (s : σ)
    (faults : List (Fault NetFailure)) (huncut : NoneCut faults) (turns : List ι) :
    let lower := Pool.schedule (lossy web) turns
      { progs := fun i => (client i).overNetwork (programs i), state := (s, faults) }
    ∃ turns' faults', turns'.Sublist turns ∧
      let upper := Pool.schedule (faulty .error srv) turns'
        { progs := programs, state := (s, faults') }
      upper.state.1 = lower.state.1 ∧
        ∀ i, (lower.progs i).outcome = (upper.progs i).outcome := by
  intro lower
  have hlands : ∀ i q, allowed q →
      ((client i).call q).Lands (lossy web) (fun t => NoneCut t.2) Prod.fst .error srv q :=
    fun i q hq => lands_of_resends (hcarried i q hq) (hfinal i q hq) (resends_call q)
  let begun : Pool ι HttpRequest HttpReply Event Exc α (σ × List (Fault NetFailure)) :=
    { progs := fun i => (client i).overNetwork (programs i), state := (s, faults) }
  obtain ⟨turns', faults', hsub, hrun⟩ := Pool.schedule_abreast hlands noneCut_lossy turns
    (c := begun) huncut fun i => Prog.abreast_implement (hlands i) (hasks i)
  obtain ⟨hstate, hprogs⟩ := hrun [] { progs := programs, state := (s, faults') } rfl
    (by rw [List.append_nil])
  refine ⟨turns', faults', hsub, ?_, fun i => (hprogs i).outcome_eq⟩
  rw [hstate]

end OpnsenseClient

namespace TableServer
open OpnsenseClient BaseManager

/-- The first search is lost, and sent again. -/
theorem attempts_are_calls_lost :
    let api := plainServer []
    let turns : List Client := [.first, .second, .first, .second, .first, .second, .first]
    let programs i := sampleManager.ensure "present" (raceParams i) false none true false
    let lower := Pool.schedule (lossy (api.web sampleManager.config)) turns
      { progs := fun i => defaultClient.overNetwork (programs i),
        state := (copies, [.lost ⟨.timeout, rfl⟩]) }
    ∃ turns' faults', turns'.Sublist turns ∧
      let upper := Pool.schedule (faulty .error (api.serve sampleManager.config.payloadKey)) turns'
        { progs := programs, state := (copies, faults') }
      upper.state.1 = lower.state.1 ∧
        ∀ i, (lower.progs i).outcome = (upper.progs i).outcome := by
  intro api turns programs
  refine attempts_are_calls (fun _ => defaultClient) (api.web sampleManager.config) _
    (fun i q hq => web_carried (by decide) (by decide) (fun ep hep => ?_) hq)
    (fun i q _ => web_final _ _) programs (fun i => asks_ensure_wired) copies
    [.lost ⟨.timeout, rfl⟩] (fun e he => by simp at he) turns
  cases hep
  decide

end TableServer
end Opnsense
