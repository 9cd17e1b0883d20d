import Opnsense.Interaction.Strict
import Opnsense.Lifecycle

/-! Every error of the client is fatal to the call that met it: a manager method that
returned has seen no error reply, so a fault schedule left it alone. -/
namespace Opnsense
namespace BaseManager
open Interaction

variable {m : BaseManager} {params : Obj} {check dedupe force : Bool}

/-- The reply is an exception of the client. -/
abbrev IsError : Reply → Prop := fun reply => ∃ e, reply = .error e

theorem strict_await (q : Request) : (await q).Strict IsError := by
  intro reply
  refine ⟨Prog.strict_ofExcept reply, ?_⟩
  rintro ⟨e, rfl⟩
  trivial

theorem strict_logError {α : Type} {p : M α} {message : Exc → String} {extra : Exc → Obj}
    (hp : p.Strict IsError) : (logError p message extra).Strict IsError :=
  Prog.strict_onError hp _

theorem strict_logErrorUnless {α : Type} {skip : Exc → Bool} {p : M α} {message : Exc → String}
    {extra : Exc → Obj} (hp : p.Strict IsError) :
    (logErrorUnless skip p message extra).Strict IsError := by
  apply Prog.strict_rescue hp
  intro e
  cases skip e <;> exact ⟨trivial, trivial⟩

theorem strict_get (uuid : Json) : (m.get uuid).Strict IsError :=
  Prog.strict_bind (strict_logError (strict_await _)) fun _ => Prog.strict_ofExcept _

theorem strict_list (phrase : String) : (m.list phrase).Strict IsError := by
  unfold list
  split
  · exact strict_await _
  · exact strict_logError (strict_await _)

theorem strict_apply : m.apply.Strict IsError := by
  unfold apply
  split
  · trivial
  · exact Prog.strict_bind (strict_logError (strict_await _)) fun _ => trivial

theorem strict_create : (m.create params check).Strict IsError := by
  apply Prog.strict_bind (Prog.strict_ofExcept _)
  intro after
  cases check with
  | true => trivial
  | false =>
    refine Prog.strict_bind (strict_logError ?_) fun _ => trivial
    exact Prog.strict_bind (strict_await _) fun _ =>
      Prog.strict_bind strict_apply fun _ => trivial

theorem strict_update (uuid : Json) : (m.update uuid params check).Strict IsError := by
  apply Prog.strict_bind (strict_get _)
  intro before
  apply Prog.strict_bind (Prog.strict_ofExcept _)
  intro before
  apply Prog.strict_bind (Prog.strict_ofExcept _)
  intro after
  cases check with
  | true => trivial
  | false =>
    refine Prog.strict_bind (strict_logError ?_) fun _ => trivial
    exact Prog.strict_bind (strict_await _) fun _ => strict_apply

theorem strict_delete (uuid : Json) : (m.delete uuid check).Strict IsError := by
  apply Prog.strict_bind (strict_get _)
  intro item
  apply Prog.strict_bind (Prog.strict_ofExcept _)
  intro fields
  apply Prog.strict_bind (Prog.strict_ofExcept _)
  intro before
  cases check with
  | true => trivial
  | false =>
    refine Prog.strict_bind (strict_logError ?_) fun _ => trivial
    exact Prog.strict_bind (strict_await _) fun _ => strict_apply

theorem strict_deleteAll (uuids : List String) : (m.deleteAll uuids).Strict IsError := by
  induction uuids with
  | nil => trivial
  | cons uuid rest ih => exact Prog.strict_bind (strict_delete _) fun _ => ih

theorem strict_findMatching (phrase : Option String) :
    (m.identity.findMatching params m.list phrase).Strict IsError := by
  apply Prog.strict_bind (strict_list _)
  intro v
  apply Prog.strict_bind (Prog.strict_ofExcept _)
  intro items
  exact Prog.strict_bind (Prog.strict_ofExcept _) fun _ => trivial

theorem strict_findExisting : (m.identity.findExisting params m.list).Strict IsError := by
  apply Prog.strict_bind
  · apply strict_logErrorUnless
    apply Prog.strict_bind (strict_findMatching _)
    intro found
    exact Prog.strict_bind (Prog.strict_ofExcept _) fun _ => trivial
  · rintro ⟨found, uuids⟩
    rcases found with _ | ⟨row, _ | ⟨row', rest⟩⟩ <;> trivial

theorem strict_lookup : (m.lookup params check dedupe).Strict IsError := by
  cases dedupe with
  | false => exact Prog.strict_bind strict_findExisting fun _ => trivial
  | true =>
    apply Prog.strict_bind (strict_findMatching _)
    intro found
    rcases found with _ | ⟨row, _ | ⟨row', rest⟩⟩
    · trivial
    · trivial
    · cases check with
      | true => trivial
      | false =>
        apply Prog.strict_bind (Prog.strict_tell _)
        intro _
        exact Prog.strict_bind (strict_deleteAll _) fun _ => trivial

theorem strict_hydrateNested (existing : Option Obj) :
    (m.hydrateNested existing params).Strict IsError := by
  unfold hydrateNested
  split
  · trivial
  · split
    · exact Prog.strict_bind (strict_get _) fun _ =>
        Prog.strict_bind (Prog.strict_ofExcept _) fun _ => trivial
    · trivial

theorem strict_resolve (uuid : Option String) :
    (m.resolve params check uuid dedupe).Strict IsError := by
  cases uuid with
  | some uuid =>
    exact Prog.strict_bind (strict_get _) fun _ =>
      Prog.strict_bind (Prog.strict_ofExcept _) fun _ => trivial
  | none =>
    apply Prog.strict_bind strict_lookup
    rintro ⟨existing, deduped⟩
    exact Prog.strict_bind (strict_hydrateNested _) fun _ => trivial

theorem strict_converge (state : String) (existing : Option Obj) :
    (m.converge state params check force existing).Strict IsError := by
  unfold converge
  split
  · split
    · exact strict_create
    · split
      · trivial
      · exact strict_update _
  · split
    · trivial
    · exact strict_delete _

theorem strict_validate (state : String) : (m.validate state params).Strict IsError := by
  unfold validate
  split
  · trivial
  · split
    · exact strict_logError (Prog.strict_ofExcept _)
    · trivial

theorem strict_ensure (state : String) (uuid : Option String) :
    (m.ensure state params check uuid dedupe force).Strict IsError := by
  apply Prog.strict_bind (strict_validate state)
  intro _
  apply Prog.strict_bind (strict_resolve uuid)
  rintro ⟨existing, deduped⟩
  exact Prog.strict_bind (strict_converge state existing) fun _ => trivial

/-- A call that returned behind a fault schedule ran as without it. -/
theorem returns_ensure_of_faulty {σ F : Type} {srv : Appliance σ} (failure : F → Exc)
    {state : String} {uuid : Option String} {s : σ} {fs : List (Fault F)} {r : EnsureResult}
    {s' : σ × List (Fault F)} {t : List (Request × Reply)}
    (h : (m.ensure state params check uuid dedupe force).Returns
      (faulty (fun e => .error (failure e)) srv) (s, fs) r s' t) :
    (m.ensure state params check uuid dedupe force).Returns srv s r s'.1 t := by
  apply (strict_ensure state uuid).returns_of_faulty _ h
  intro e
  exact ⟨failure e, rfl⟩

end BaseManager
end Opnsense
