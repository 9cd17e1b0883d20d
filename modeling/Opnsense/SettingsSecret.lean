import Opnsense.SettingsConvergence
import Opnsense.SettingsManagers

/-! Secrets among the settings. A field with a write-only name that reads back empty is passed over
by the diff, and a singleton has no other way to send it. -/
namespace Opnsense
open Interaction DiffEngine

namespace DiffEngine

variable {e : DiffEngine} {current params : Obj}

/-- The path leads to something declared that is shown and does not count as declared. -/
def DriftsAt (e : DiffEngine) (current params : Obj) (path : List String) : Prop :=
  ∃ declared shown, valueAt path (.obj params) = some declared ∧
    valueAt path (.obj current) = some shown ∧ ¬ Settled e (path.getLastD "") shown declared

theorem computeDiff_ne_none_iff (hkeyed : Keyed (.obj params)) :
    e.computeDiff current params ≠ none ↔ ∃ path, e.DriftsAt current params path := by
  rw [ne_eq, computeDiff_eq_none_iff_allSettled hkeyed]
  constructor
  · intro h
    simp only [AllSettled, not_forall] at h
    obtain ⟨key, path, declared, shown, hdeclared, hshown, hsettled⟩ := h
    refine ⟨key :: path, declared, shown, hdeclared, hshown, ?_⟩
    rwa [List.getLastD_cons]
  · rintro ⟨path, declared, shown, hdeclared, hshown, hsettled⟩ hall
    cases path with
    | nil =>
      -- the parameters as a whole are a block like the one shown
      rw [valueAt_nil, Option.some.injEq] at hdeclared hshown
      rw [← hdeclared, ← hshown] at hsettled
      exact hsettled (Or.inl ⟨rfl, rfl⟩)
    | cons key path =>
      rw [List.getLastD_cons] at hsettled
      exact hsettled (hall key path declared shown hdeclared hshown)

end DiffEngine

namespace BaseSingletonManager

variable {m : BaseSingletonManager} {σ : Type} {serve : Appliance σ} {stored view : σ → Obj}
  {s s' : σ} {params : Obj} {r : EnsureResult} {t : List (Request × Reply)}

/-- A field with a write-only name is shown as it is stored, or always as empty. -/
def PlainSecrets (m : BaseSingletonManager) (stored view : σ → Obj) : Prop :=
  ∀ s path v w, isWriteOnlyKey (path.getLastD "") = true → v.isDict = false →
    valueAt path (.obj (m.ownFields (stored s))) = some v →
    valueAt path (.obj (m.ownFields (view s))) = some w → w = v ∨ w = .str ""

/-- An empty secret is passed over. -/
theorem not_driftsAt_secret (hsecrets : m.PlainSecrets stored view) {path : List String}
    {v : Json} (hname : isWriteOnlyKey (path.getLastD "") = true)
    (hempty : valueAt path (.obj (m.ownFields (stored s))) = some (.str ""))
    (hdeclared : valueAt path (.obj params) = some v) (hvalue : pyStr v ≠ "") :
    ¬ m.diffEngine.DriftsAt (m.ownFields (view s)) params path := by
  rintro ⟨declared, shown, hdeclared', hshown, hsettled⟩
  rw [hdeclared, Option.some.injEq] at hdeclared'
  have hblank : shown = .str "" := by
    rcases hsecrets s path _ shown hname rfl hempty hshown with h | h
    · exact h
    · exact h
  have hpassed : writeOnlyBlank (path.getLastD "") (.str "") v = true := by
    simp only [writeOnlyBlank, hname, Bool.and_true, bne_iff_ne]
    exact hvalue
  apply hsettled
  rw [← hdeclared', hblank]
  exact Or.inr (Or.inl hpassed)

/-- An empty secret that is given a value is stored exactly when some other field drifts, however
the other fields are shown. -/
theorem secret_stored_iff (api : m.ServedBy serve stored view)
    (hsecrets : m.PlainSecrets stored view) (hkeyed : Keyed (.obj params))
    {path : List String} {v : Json} (hname : isWriteOnlyKey (path.getLastD "") = true)
    (hempty : valueAt path (.obj (m.ownFields (stored s))) = some (.str ""))
    (hdeclared : valueAt path (.obj params) = some v) (hflat : v.isDict = false)
    (hvalue : pyStr v ≠ "") (h : (m.ensure "present" params).Returns serve s r s' t) :
    valueAt path (.obj (m.ownFields (stored s'))) = some v ↔
      ∃ other, other ≠ path ∧ m.diffEngine.DriftsAt (m.ownFields (view s)) params other := by
  have hsecret : ¬ m.diffEngine.DriftsAt (m.ownFields (view s)) params path :=
    not_driftsAt_secret hsecrets hname hempty hdeclared hvalue
  rcases (api.returns_ensure h).2 with ⟨hdiff, rfl⟩ | ⟨hdiff, -, hmerged⟩
  · -- nothing was sent, so the secret still is empty
    refine iff_of_false ?_ ?_
    · intro hstored
      rw [hempty, Option.some.injEq] at hstored
      exact hvalue (by rw [← hstored, pyStr_str])
    · rintro ⟨other, -, hdrifts⟩
      exact (computeDiff_ne_none_iff hkeyed).mpr ⟨other, hdrifts⟩ hdiff
  · refine iff_of_true ?_ ?_
    · rw [hmerged, valueAt_mergeFields_of_named hkeyed hdeclared, mergeValue_of_flat hflat]
    · obtain ⟨other, hdrifts⟩ := (computeDiff_ne_none_iff hkeyed).mp hdiff
      refine ⟨other, ?_, hdrifts⟩
      rintro rfl
      exact hsecret hdrifts

end BaseSingletonManager

/-- A document shown as it is stored shows its secrets. -/
theorem plainSecrets_plain (m : BaseSingletonManager) : m.PlainSecrets (fun doc => doc) id := by
  intro s path v w _ _ hv hw
  have hsame : some v = some w := hv.symm.trans hw
  exact Or.inl (Option.some.inj hsame).symm

namespace MonitSettingsManager

/-- Monit without bcrypt, and a document in which no password of the mail server is set. -/
def monit : BaseSingletonManager := (MonitSettingsManager ⟨fun _ _ => false⟩).manager

def server : SettingsServer monit (fun _ => False) Obj := plainSettings monit _

def unset : Obj := [("general", .obj [("password", .str ""), ("port", .str "25")])]

theorem returns_ensure_of_set {params : Obj} {r : EnsureResult} {s s' : Obj}
    {t : List (Request × Reply)} (hvalid : validatorRegistry.validateParams params
      monit.validators = .ok ())
    (h : (monit.set params false).Returns server.serve s r s' t) :
    (monit.ensure "present" params).Returns server.serve s r s' t := by
  apply Prog.returns_bind.mpr
  refine ⟨(), s, [], t, ?_, h, rfl⟩
  have hpresent : ¬ "present" ≠ "present" := by simp
  have hvalidators : monit.validators ≠ [] := List.cons_ne_nil _ _
  rw [BaseSingletonManager.validate, if_neg hpresent, if_pos hvalidators, returns_logError,
    Prog.returns_ofExcept]
  exact ⟨hvalid, rfl, rfl⟩

theorem password_valid :
    validatorRegistry.validateParams [("password", .str "s3cret")] monit.validators = .ok () := by
  simp only [monit, MonitSettingsManager, each, List.map, List.cons_append, List.nil_append,
    boolStrField, strField, enumField, ValidatorRegistry.validateParams,
    ValidatorRegistry.validateField]
  rfl

theorem password_and_port_valid :
    validatorRegistry.validateParams [("password", .str "s3cret"), ("port", .str "587")]
      monit.validators = .ok () := by
  simp only [monit, MonitSettingsManager, each, List.map, List.cons_append, List.nil_append,
    boolStrField, strField, enumField, ValidatorRegistry.validateParams,
    ValidatorRegistry.validateField]
  rfl

/-- With a new port the password is stored. -/
theorem password_stored :
    ∃ r s' t, (monit.ensure "present" [("password", .str "s3cret"), ("port", .str "587")]).Returns
      server.serve unset r s' t ∧
      valueAt ["password"] (.obj (server.block s')) = some (.str "s3cret") := by
  have hkeyed : Keyed (.obj [("password", .str "s3cret"), ("port", .str "587")]) :=
    keyed_of_isText (by simp [IsText, AllText])
  have hset : ∃ r s' t, (monit.set [("password", .str "s3cret"), ("port", .str "587")]
      false).Returns server.serve unset r s' t := ⟨_, _, _, rfl, rfl⟩
  obtain ⟨r, s', t, hset⟩ := hset
  have hret := returns_ensure_of_set password_and_port_valid hset
  refine ⟨r, s', t, hret, ?_⟩
  have hdrifts : monit.diffEngine.DriftsAt (monit.ownFields unset)
      [("password", .str "s3cret"), ("port", .str "587")] ["port"] := by
    refine ⟨_, _, rfl, rfl, ?_⟩
    rintro (⟨h, -⟩ | h | h | h | h)
    · cases h
    · revert h
      decide
    · revert h
      decide
    · cases h
    · cases h
  exact (BaseSingletonManager.secret_stored_iff server.served (plainSecrets_plain monit) hkeyed
    (by decide) rfl rfl rfl (by decide) hret).mpr ⟨["port"], by decide, hdrifts⟩

/-- On its own it is not: nothing drifts, and the call is a clean noop. -/
theorem password_not_stored :
    ∃ r s' t, (monit.ensure "present" [("password", .str "s3cret")]).Returns
      server.serve unset r s' t ∧ r.action = .noop ∧
      valueAt ["password"] (.obj (server.block s')) = some (.str "") := by
  have hset : ∃ r t, (monit.set [("password", .str "s3cret")] false).Returns server.serve unset r
      unset t ∧ r.action = .noop := ⟨_, _, ⟨rfl, rfl⟩, rfl⟩
  obtain ⟨r, t, hset, hnoop⟩ := hset
  exact ⟨r, unset, t, returns_ensure_of_set password_valid hset, hnoop, rfl⟩

end MonitSettingsManager
end Opnsense
