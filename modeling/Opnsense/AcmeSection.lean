import Opnsense.AcmeSettings
import Opnsense.Effects
import Opnsense.Interaction.Parting

/-! The hand-written `get` and `set` of the ACME settings beside the inherited ones with `settings`
for a section. The two part at a document that is no dict. -/
namespace Opnsense
open Interaction DiffEngine

namespace AcmeSettingsManager

variable (diffEngine : DiffEngine)

/-- The same endpoint, payload key and apply endpoint, and `_section = "settings"`. -/
def sectioned : BaseSingletonManager :=
  { AcmeSettingsManager diffEngine with sectionKey := some "settings" }

def getRequest : Request := .get { action := "acmeclient/settings/get" }

/-- A document with something else than a dict under the payload key. -/
def Misread (q : Request) (r : Reply) : Prop :=
  q = getRequest ∧ ∃ fields v, r = .ok (.obj fields) ∧ fields.lookup "acmeclient" = some v ∧
    v.isDict = false

theorem harmless_of_ne {q : Request} (h : q ≠ getRequest) : ∀ r, ¬ Misread q r :=
  fun _ hr => h hr.1

theorem ownSection_of_flat {inner : Json} (h : inner.isDict = false) :
    (sectioned diffEngine).ownSection inner = .obj [] := by
  cases inner with
  | obj fields => cases h
  | _ => rfl

theorem settingsOf_of_flat {inner : Json} (h : inner.isDict = false) :
    settingsOf inner = .error (Exc.noAttribute inner "get") := by
  cases inner with
  | obj fields => cases h
  | _ => rfl

theorem unwrap_of_misread {r : Reply} (h : Misread getRequest r) :
    ∃ body inner, r = .ok body ∧ unwrap "acmeclient" body = .ok inner ∧ inner.isDict = false := by
  obtain ⟨-, fields, v, rfl, hv, hflat⟩ := h
  refine ⟨.obj fields, v, rfl, ?_, hflat⟩
  rw [unwrap, Obj.getD, hv]
  rfl

theorem unwrap_of_not_misread {body inner : Json} (h : ¬ Misread getRequest (.ok body))
    (hinner : unwrap "acmeclient" body = .ok inner) : ∃ fields, inner = .obj fields := by
  cases body with
  | obj fields =>
    rw [unwrap, Except.ok.injEq, Obj.getD] at hinner
    rcases hlookup : fields.lookup "acmeclient" with _ | v
    · rw [hlookup] at hinner
      exact ⟨fields, hinner.symm⟩
    · rw [hlookup] at hinner
      have hdict : ¬ v.isDict = false := fun hflat => h ⟨rfl, fields, v, rfl, hlookup, hflat⟩
      have hv : inner = v := hinner.symm
      cases v with
      | obj inner' => exact ⟨inner', hv⟩
      | _ => exact absurd rfl hdict
  | _ => cases hinner

/-- What the hand-written `get` makes of a document, and what the inherited one does. -/
def read (body : Json) : M Json := do
  let inner ← .ofExcept (unwrap "acmeclient" body)
  .ofExcept (settingsOf inner)

def readSection (body : Json) : M Json := do
  let inner ← .ofExcept (unwrap "acmeclient" body)
  return (sectioned diffEngine).ownSection inner

def fetch : M Json :=
  logError (await getRequest) (fun exc => s!"get failed acmeclient/settings: {exc.text}")
    fun exc => [("action", .str "get_failed"), ("endpoint", .str "acmeclient/settings"),
      ("error", .str exc.text)]

theorem get_eq : get diffEngine = fetch >>= read := by
  have hraw : (AcmeSettingsManager diffEngine).get =
      fetch >>= fun body => Prog.ofExcept (unwrap "acmeclient" body) >>= Prog.ret := rfl
  rw [get, hraw, bind_assoc]
  refine congrArg _ (funext fun body => ?_)
  rw [Prog.bind_ret_eq]
  rfl

theorem sectioned_get_eq : (sectioned diffEngine).get = fetch >>= readSection diffEngine := rfl

theorem parting_read {body : Json} (h : ¬ Misread getRequest (.ok body)) :
    Prog.Parting Misread (· = .obj []) (read body) (readSection diffEngine body) := by
  unfold read readSection
  rcases hinner : unwrap "acmeclient" body with e | inner
  · exact .raise e
  · obtain ⟨fields, rfl⟩ := unwrap_of_not_misread h hinner
    exact .ret _

/-- They ask for the document alike; one raises where the other finds an empty section. -/
theorem parting_get :
    Prog.Parting Misread (· = .obj []) (get diffEngine) (sectioned diffEngine).get := by
  rw [get_eq, sectioned_get_eq]
  refine .call getRequest _ _ (fun r hr => ?_) (fun r hr => ?_)
  · cases r with
    | error e => exact .emit _ _ _ (.raise e)
    | ok body => exact parting_read diffEngine hr
  · obtain ⟨body, inner, rfl, hinner, hflat⟩ := unwrap_of_misread hr
    constructor
    · refine ⟨Exc.noAttribute inner "get", ?_⟩
      show Prog.Raises _ (read body)
      rw [read, hinner]
      show Prog.Raises _ (Prog.ofExcept (settingsOf inner))
      rw [settingsOf_of_flat hflat]
      rfl
    · show Prog.Gives _ (readSection diffEngine body)
      rw [readSection, hinner]
      exact ownSection_of_flat diffEngine hflat

theorem computeDiff_nil (params : Obj) : diffEngine.computeDiff [] params = none :=
  computeDiff_eq_none_iff.mpr fun kv _ => fieldDrifts_of_missing diffEngine rfl kv.2

theorem harmless_apply :
    ((AcmeSettingsManager diffEngine).apply).Asks fun q => ∀ r, ¬ Misread q r := by
  refine Prog.asks_bind (asks_logError ?_ _ _) fun _ => trivial
  exact (asks_await _).mpr (harmless_of_ne (by simp [getRequest]))

/-- An empty section never drifts. -/
theorem gives_diff_of_empty (params : Obj) :
    Prog.Gives (· = none) ((sectioned diffEngine).diff (.obj []) params) :=
  computeDiff_nil diffEngine params

/-- They go on alike from the same document, and read it back once more. -/
theorem parting_set (params : Obj) (checkMode : Bool) :
    Prog.Parting Misread (fun _ => True) (set diffEngine params checkMode)
      ((sectioned diffEngine).set params checkMode) := by
  have hlog : ∀ level message extra, (log level message extra).Asks
      fun q => ∀ r, ¬ Misread q r := fun _ _ _ => trivial
  refine Prog.Parting.bind (parting_get diffEngine) (fun before => ?_) ?_
  · refine Prog.parting_bind_same (asks_logError (Prog.asks_ofExcept _) _ _) fun diff => ?_
    refine Prog.parting_bind_same (Prog.asks_ofExcept _) fun redactedBefore => ?_
    by_cases hdiff : diff.isNone = true
    · rw [if_pos hdiff, if_pos hdiff]
      exact Prog.parting_refl (Prog.asks_bind (hlog _ _ _) fun _ => trivial)
    rw [if_neg hdiff, if_neg hdiff]
    refine Prog.parting_bind_same (Prog.asks_ofExcept _) fun current => ?_
    refine Prog.parting_bind_same (Prog.asks_ofExcept _) fun redactedAfter => ?_
    by_cases hcheck : checkMode = true
    · rw [if_pos hcheck, if_pos hcheck]
      exact Prog.parting_refl (Prog.asks_bind (hlog _ _ _) fun _ => trivial)
    rw [if_neg hcheck, if_neg hcheck]
    -- what is posted and applied is the same
    refine Prog.parting_bind_same (asks_logError (Prog.asks_bind ?_ fun _ => ?_) _ _) fun _ => ?_
    · exact (asks_await _).mpr (harmless_of_ne (by simp [getRequest]))
    · exact harmless_apply diffEngine
    -- then the document is fetched once more
    refine Prog.Parting.bind (parting_get diffEngine) (fun after => ?_) fun after hafter => ?_
    · exact Prog.parting_refl (Prog.asks_bind (Prog.asks_ofExcept _) fun _ =>
        Prog.asks_bind (hlog _ _ _) fun _ => trivial)
    · subst hafter
      trivial
  · rintro before rfl
    -- the inherited `set` has nothing to change in an empty section
    refine (gives_diff_of_empty diffEngine params).bind fun diff hdiff => ?_
    subst hdiff
    trivial

/-- None of the documents received is one with something else than a dict under `acmeclient`. -/
def ReadsDicts (t : List (Request × Reply)) : Prop :=
  ∀ qr ∈ t, qr.1 = getRequest → ∀ fields v, qr.2 = .ok (.obj fields) →
    fields.lookup "acmeclient" = some v → v.isDict = true

theorem readsDicts_iff (t : List (Request × Reply)) :
    ReadsDicts t ↔ ∀ qr ∈ t, ¬ Misread qr.1 qr.2 := by
  refine forall₂_congr fun qr _ => ?_
  constructor
  · rintro h ⟨hget, fields, v, hreply, hv, hflat⟩
    have hdict := h hget fields v hreply hv
    rw [hflat] at hdict
    cases hdict
  · intro h hget fields v hreply hv
    by_contra hdict
    exact h ⟨hget, fields, v, hreply, hv, by simpa using hdict⟩

/-- Over any appliance, the hand-written `get` and `set` give the result of the inherited ones,
raise their errors and send their requests exactly where all documents received are dicts under
the payload key. -/
theorem sameRun_sectioned_iff {σ : Type} (srv : Appliance σ) (s : σ) (params : Obj)
    (checkMode : Bool) :
    (Prog.SameRun srv s (get diffEngine) (sectioned diffEngine).get ↔
      ReadsDicts ((sectioned diffEngine).get.trace srv s)) ∧
    (Prog.SameRun srv s (set diffEngine params checkMode)
        ((sectioned diffEngine).set params checkMode) ↔
      ReadsDicts (((sectioned diffEngine).set params checkMode).trace srv s)) := by
  rw [readsDicts_iff, readsDicts_iff]
  exact ⟨(parting_get diffEngine).sameRun_iff srv s,
    (parting_set diffEngine params checkMode).sameRun_iff srv s⟩

/-- In an empty array the inherited `get` finds an empty section, and the hand-written one
raises. -/
theorem empty_array_raises :
    let srv : Appliance Unit := fun _ s => (.ok (.obj [("acmeclient", .arr [])]), s)
    (sectioned ⟨fun _ _ => false⟩).get.run srv () = (.ok (.obj []), ()) ∧
    (get ⟨fun _ _ => false⟩).run srv () =
      (.error (.attributeError "'list' object has no attribute 'get'"), ()) ∧
    ¬ Prog.SameRun srv () (get ⟨fun _ _ => false⟩) (sectioned ⟨fun _ _ => false⟩).get := by
  refine ⟨rfl, rfl, ?_⟩
  rintro ⟨hrun, -⟩
  cases hrun

end AcmeSettingsManager
end Opnsense
