import Opnsense.Wire

namespace Opnsense
open Interaction

namespace FirmwareManager

def endpoint : String := "core/firmware"

def isConnectionError : Exc → Bool
  | .opnsense e => e.cls == .connection
  | _ => false

def fireRequest (verb : String) : Request := .post { action := endpoint ++ "/" ++ verb } []

/-- `_fire`: a connection dropped while an update or upgrade starts counts as requested. -/
def fire (verb : String) : M Json :=
  Prog.rescue
    (do
      let result ← await (fireRequest verb)
      log .warning s!"firmware {verb} requested — the device will reboot"
        [("action", .str s!"{verb}_requested")]
      return result)
    (fun exc =>
      if isConnectionError exc then
        if verb = "update" ∨ verb = "upgrade" then
          .emit (.log ⟨.warning, s!"firmware {verb}: connection dropped while the device " ++
              s!"started applying ({exc.text})",
            [("action", .str s!"{verb}_requested"), ("error", .str exc.text)]⟩) (.ret (.obj []))
        else .raise exc
      else
        .emit (.log ⟨.error, s!"firmware {verb} failed: {exc.text}",
          [("action", .str s!"{verb}_failed"), ("error", .str exc.text)]⟩) (.raise exc))

/-- Whatever becomes of it, firing a job is one call of the client. -/
theorem run_fire_snd {σ : Type} {srv : Appliance σ} (verb : String) (s : σ) :
    ((fire verb).run srv s).2 = (srv (fireRequest verb) s).2 := by
  rcases hpost : srv (fireRequest verb) s with ⟨e | v, s'⟩
  · simp only [fire, Prog.run_rescue, Prog.run_bind, run_await, hpost]
    split
    · split <;> rfl
    · rfl
  · simp [fire, Prog.run_rescue, Prog.run_bind, hpost]

end FirmwareManager
end Opnsense
