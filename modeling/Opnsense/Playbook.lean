import Opnsense.Interaction.Cells
import Opnsense.Routing
import Opnsense.SiteCalls

/-! Scripts of declarations. Several clients run their scripts at once, their requests
interleave in any way and fail in any way; as long as no two clients declare the same
identity, each script does what it does alone, one declaration after the other. -/
namespace Opnsense
namespace Site
open Interaction BaseManager

variable {I : Type} [DecidableEq I]

/-- The declarations of one client, awaited one after the other. -/
def playbook (site : Site I) : List (Task I) → M (List EnsureResult)
  | [] => return []
  | t :: rest => do
    let res ← t.call site
    let results ← playbook site rest
    return res :: results

/-- The meaning of a script: each declaration settles the resources of its identity. -/
abbrev Achieves (site : Site I) (ts : List (Task I)) (v w : Key I → List Resource)
    (results : List EnsureResult) : Prop :=
  Runs (Task.key site) (Task.Settles site) ts v w results

/-- A script that broke off at `t`, which failed from `w` leaving `content` in its cell. -/
structure BrokeOff (site : Site I) (calm : Prop) (ts : List (Task I))
    (v : Key I → List Resource) (e : Exc) (t : Task I) (w : Key I → List Resource)
    (content : List Resource) : Prop where
  split : ∃ done rest results, ts = done ++ t :: rest ∧ site.Achieves done v w results
  fails : t.Fails site calm (w (t.key site)) e content

/-- What a client comes to, told of the cells it owns. -/
def Outcome (site : Site I) (own : Key I → Prop) (calm : Prop) (ts : List (Task I))
    (v : Key I → List Resource) : Except Exc (List EnsureResult) → (I → Table) → Prop
  | .ok results, T => ∃ w, site.Achieves ts v w results ∧ ∀ k, own k → site.cell T k = w k
  | .error e, T => ∃ t w content, site.BrokeOff calm ts v e t w content ∧
      ∀ k, own k → site.cell T k = Function.update w (t.key site) content k

variable {site : Site I} {own : Key I → Prop} {calm : Prop} {ts : List (Task I)}
  {v : Key I → List Resource}

/-- A client that owns what it declares secures the outcome of its script. -/
theorem secures_playbook (hfaith : ∀ t ∈ ts, t.Faithful site)
    (hown : ∀ t ∈ ts, own (t.key site)) :
    Prog.Secures site.network (site.Relies own) (site.Promises own)
      (fun o s => site.Outcome own calm ts v o s.1) (site.playbook ts)
      (site.Holds own calm v) := by
  induction ts generalizing v with
  | nil => exact fun s hs => ⟨v, Runs.nil v, hs.1⟩
  | cons t rest ih =>
    have htriple : site.CellTriple own calm (t.key site) (v (t.key site)) (t.call site) _ _ :=
      cellTriple_call (hfaith t (List.mem_cons_self ..)) (hown t (List.mem_cons_self ..))
    have hcall := htriple v rfl
    refine Prog.secures_bind _ hcall (fun res => ?_) ?_
    · refine Prog.secures_exists fun c => Prog.secures_of_forall
        (t.Settles site (v (t.key site)) c res) (fun _ hs => hs.1) fun hsettles => ?_
      have hrest := @ih (Function.update v (t.key site) c)
        (fun t' ht' => hfaith t' (List.mem_cons_of_mem _ ht'))
        fun t' ht' => hown t' (List.mem_cons_of_mem _ ht')
      refine Prog.secures_bind _ (Prog.secures_mono hrest (fun _ hs => hs.2) fun _ _ h => h)
        (fun results => ?_) ?_
      · rintro s ⟨w, hruns, hcells⟩
        exact ⟨w, Runs.cons hsettles hruns, hcells⟩
      · rintro e s ⟨t', w, content, ⟨⟨done, rest', results, rfl, hruns⟩, hfails⟩, hcells⟩
        exact ⟨t', w, content, ⟨⟨t :: done, rest', _, rfl, Runs.cons hsettles hruns⟩, hfails⟩,
          hcells⟩
    · rintro e s ⟨c, hfails, hholds⟩
      exact ⟨t, v, c, ⟨⟨[], rest, [], rfl, Runs.nil v⟩, hfails⟩, hholds.1⟩

section Questions

variable {m : BaseManager} {params : Obj} {α : Type} {n : ℕ}

theorem asksAtMost_list (phrase : String) : (m.list phrase).AsksAtMost 1 := by
  unfold list
  split
  · exact asksAtMost_await _
  · exact asksAtMost_logError (asksAtMost_await _)

theorem asksAtMost_findExisting :
    (m.identity.findExisting params m.list).AsksAtMost 1 := by
  have hfind : (m.identity.findMatching params m.list
      (some (m.identity.searchPhrase params))).AsksAtMost 1 :=
    Prog.asksAtMost_bind_quiet (asksAtMost_list _) fun _ =>
      Prog.asksAtMost_ofExcept_bind fun _ => Prog.asksAtMost_ofExcept_bind fun _ => trivial
  apply Prog.asksAtMost_bind_quiet
  · apply Prog.asksAtMost_rescue
    · exact Prog.asksAtMost_bind_quiet hfind fun found =>
        Prog.asksAtMost_ofExcept_bind fun uuids => trivial
    · intro e _
      split <;> trivial
  · rintro ⟨found, uuids⟩
    rcases found with _ | ⟨row, _ | ⟨row', rest⟩⟩ <;> trivial

theorem asksAtMost_get (uuid : Json) : (m.get uuid).AsksAtMost 1 :=
  Prog.asksAtMost_bind_quiet (asksAtMost_logError (asksAtMost_await _)) fun _ =>
    Prog.asksAtMost_ofExcept _ _

theorem asksAtMost_hydrateNested (found : Option Obj) :
    (m.hydrateNested found params).AsksAtMost 1 := by
  unfold hydrateNested
  split
  · trivial
  · split
    · exact Prog.asksAtMost_bind_quiet (asksAtMost_get _) fun full =>
        Prog.asksAtMost_ofExcept_bind fun full => trivial
    · trivial

theorem asksAtMost_apply : m.apply.AsksAtMost 1 := by
  unfold apply
  split
  · trivial
  · exact Prog.asksAtMost_bind_quiet (asksAtMost_logError (asksAtMost_await _)) fun _ => trivial

theorem asksAtMost_create : (m.create params false).AsksAtMost 2 := by
  refine Prog.asksAtMost_ofExcept_bind fun after => ?_
  refine Prog.asksAtMost_bind_quiet (asksAtMost_logError ?_) fun _ => trivial
  refine Prog.asksAtMost_bind (n := 1) (asksAtMost_await _) fun uuid => ?_
  exact Prog.asksAtMost_bind_quiet asksAtMost_apply fun _ => trivial

/-- A request with the apply behind it. -/
theorem asksAtMost_sent {q : Request} : (await q >>= fun _ => m.apply).AsksAtMost 2 :=
  Prog.asksAtMost_bind (n := 1) (asksAtMost_await _) fun _ => asksAtMost_apply

theorem asksAtMost_update (uuid : Json) : (m.update uuid params false).AsksAtMost 3 := by
  refine Prog.asksAtMost_bind (n := 2) (asksAtMost_get _) fun item => ?_
  refine Prog.asksAtMost_ofExcept_bind fun before => ?_
  refine Prog.asksAtMost_ofExcept_bind fun after => ?_
  exact Prog.asksAtMost_bind_quiet (asksAtMost_logError asksAtMost_sent) fun _ => trivial

theorem asksAtMost_delete (uuid : Json) : (m.delete uuid false).AsksAtMost 3 := by
  refine Prog.asksAtMost_bind (n := 2) (asksAtMost_get _) fun item => ?_
  refine Prog.asksAtMost_ofExcept_bind fun fields => ?_
  refine Prog.asksAtMost_ofExcept_bind fun before => ?_
  exact Prog.asksAtMost_bind_quiet (asksAtMost_logError asksAtMost_sent) fun _ => trivial

theorem asksAtMost_converge {state : String} {force : Bool} (existing : Option Obj) :
    (m.converge state params false force existing).AsksAtMost 3 := by
  unfold converge
  dsimp only
  split
  · split
    · exact Prog.asksAtMost_mono asksAtMost_create (by omega)
    · split
      · trivial
      · exact asksAtMost_update _
  · split
    · trivial
    · exact asksAtMost_delete _

omit [DecidableEq I] in
/-- Whatever is answered, a declaration is over after five questions. -/
theorem asksAtMost_call (t : Task I) : (t.call site).AsksAtMost 5 := by
  have hvalid : ((site.manager t.manager).validate t.state t.params).AsksAtMost 0 := by
    unfold validate
    split
    · trivial
    · split
      · exact asksAtMost_logError (Prog.asksAtMost_ofExcept _ _)
      · trivial
  have hresolve : ((site.manager t.manager).resolve t.params false none false).AsksAtMost 2 := by
    refine Prog.asksAtMost_bind (n := 1) ?_ fun found => ?_
    · exact Prog.asksAtMost_bind_quiet asksAtMost_findExisting fun _ => trivial
    · exact Prog.asksAtMost_bind_quiet (asksAtMost_hydrateNested _) fun _ => trivial
  refine Prog.asksAtMost_bind (n := 5) hvalid fun _ => ?_
  refine Prog.asksAtMost_bind (n := 3) hresolve fun found => ?_
  exact Prog.asksAtMost_bind_quiet (asksAtMost_converge _) fun _ => trivial

omit [DecidableEq I] in
theorem asksAtMost_playbook (ts : List (Task I)) :
    (site.playbook ts).AsksAtMost (5 * ts.length) := by
  induction ts with
  | nil => trivial
  | cons t rest ih =>
    rw [List.length_cons, show 5 * (rest.length + 1) = 5 + 5 * rest.length by omega]
    refine Prog.asksAtMost_bind (asksAtMost_call t) fun res => ?_
    exact Prog.asksAtMost_bind_quiet ih fun _ => trivial

end Questions

section Clients

variable {ι : Type} [DecidableEq ι]

/-- Every client begins its script on the same appliance. -/
def begin (site : Site I) (scripts : ι → List (Task I)) (s : World I) :
    Pool ι Request Reply Event Exc (List EnsureResult) (World I) where
  progs i := site.playbook (scripts i)
  state := s

/-- What a script declares. -/
def Declared (site : Site I) (ts : List (Task I)) (k : Key I) : Prop :=
  ∃ t ∈ ts, t.key site = k

section Outcomes

variable {scripts : ι → List (Task I)} (hfaith : ∀ i, ∀ t ∈ scripts i, t.Faithful site)
  (happart : ∀ i j, i ≠ j → ∀ k, site.Declared (scripts i) k → ¬ site.Declared (scripts j) k)
  (T : I → Table) (faults : List (Fault Exc)) (turns : List ι)
include hfaith happart

/-- No client touches what another declares, so each relies on its own cells. -/
theorem playbooks_outcome :
    (∀ k, (∀ i, ¬ site.Declared (scripts i) k) → site.cell (Pool.schedule site.network turns
      (site.begin scripts (T, faults))).state.1 k = site.cell T k) ∧
    ∀ i o, ((Pool.schedule site.network turns (site.begin scripts (T, faults))).progs i).next =
        .inl o →
      site.Outcome (site.Declared (scripts i)) (Calm (T, faults)) (scripts i) (site.cell T) o
        (Pool.schedule site.network turns (site.begin scripts (T, faults))).state.1 := by
  have hsecured : (site.begin scripts (T, faults)).Secured site.network
      (fun i => site.Relies (site.Declared (scripts i)))
      (fun i => site.Promises (site.Declared (scripts i)))
      (fun i o s => site.Outcome (site.Declared (scripts i)) (Calm (T, faults)) (scripts i)
        (site.cell T) o s.1) := by
    intro i
    refine ⟨site.Holds (site.Declared (scripts i)) (Calm (T, faults)) (site.cell T),
      holds_stable _, ⟨fun _ _ => rfl, fun h => h⟩, ?_⟩
    exact secures_playbook (hfaith i) fun t ht => ⟨t, ht, rfl⟩
  have hcompat : ∀ i j, i ≠ j → ∀ s s', site.Promises (site.Declared (scripts i)) s s' →
      site.Relies (site.Declared (scripts j)) s s' := by
    rintro i j hne s s' ⟨hframe, hcalm⟩
    exact ⟨fun k hk => hframe k (happart j i (Ne.symm hne) k hk), hcalm⟩
  exact hsecured.in_every_order hcompat
    (fun s => ∀ k, (∀ i, ¬ site.Declared (scripts i) k) → site.cell s.1 k = site.cell T k)
    (fun i s s' hpromise hs k hk => (hpromise.1 k (hk i)).trans (hs k hk))
    (fun _ _ => rfl) turns

end Outcomes

/-- Nothing but a fault can keep the declaration from succeeding. -/
def Task.Acceptable (site : Site I) (t : Task I) : Prop :=
  t.state = "present" ∧ (site.manager t.manager).accepts t.params ∨ t.state = "absent"

omit [DecidableEq I] in
theorem Task.not_refused {t : Task I} (h : t.Acceptable site) {content : List Resource}
    (hlen : content.length ≤ 1) : ¬ t.Refused site content := by
  rintro (⟨hpresent, habsent⟩ | ⟨hpresent, hrejected⟩ | hmany)
  · rcases h with ⟨hstate, -⟩ | hstate
    · exact hpresent hstate
    · exact habsent hstate
  · rcases h with ⟨-, haccepts⟩ | hstate
    · exact hrejected haccepts
    · rw [hstate] at hpresent
      exact absurd hpresent (by decide)
  · omega

omit [DecidableEq I] in
theorem Task.length_of_settles {t : Task I} {x y : List Resource} {res : EnsureResult}
    (h : t.Settles site x y res) : y.length ≤ 1 := by
  cases h <;> simp

/-- A script leaves no identity with two resources that had one at most. -/
theorem Achieves.length_le {w : Key I → List Resource} {results : List EnsureResult}
    (h : site.Achieves ts v w results) {k : Key I} (hk : (v k).length ≤ 1) :
    (w k).length ≤ 1 := by
  induction h with
  | nil v => exact hk
  | @cons t ts v w x o os hsettles _ ih =>
    apply ih
    by_cases heq : k = t.key site
    · rw [heq, Function.update_self]
      exact Task.length_of_settles hsettles
    · rw [Function.update_of_ne heq]
      exact hk

/-- Without faults an acceptable script succeeds where no identity has two resources. -/
theorem Outcome.succeeds {o : Except Exc (List EnsureResult)} {T : I → Table}
    (h : site.Outcome (site.Declared ts) calm ts v o T) (hcalm : calm)
    (haccept : ∀ t ∈ ts, t.Acceptable site) (hunique : ∀ t ∈ ts, (v (t.key site)).length ≤ 1) :
    ∃ results, o = .ok results := by
  cases o with
  | ok results => exact ⟨results, rfl⟩
  | error e =>
    obtain ⟨t, w, content, ⟨⟨done, rest, results, hsplit, hruns⟩, hfails⟩, -⟩ := h
    have ht : t ∈ ts := by
      rw [hsplit]
      exact List.mem_append_right _ (List.mem_cons_self ..)
    have hlen := Achieves.length_le hruns (hunique t ht)
    exact absurd (hfails.2 hcalm).2 (Task.not_refused (haccept t ht) hlen)

section Success

variable {scripts : ι → List (Task I)} (hfaith : ∀ i, ∀ t ∈ scripts i, t.Faithful site)
  (happart : ∀ i j, i ≠ j → ∀ k, site.Declared (scripts i) k → ¬ site.Declared (scripts j) k)
  (haccept : ∀ i, ∀ t ∈ scripts i, t.Acceptable site) (T : I → Table)
  (hunique : ∀ i, ∀ t ∈ scripts i, (site.cell T (t.key site)).length ≤ 1) (turns : List ι)
include hfaith happart haccept hunique

theorem playbooks_succeed {i : ι} (hturns : 5 * (scripts i).length ≤ turns.count i) :
    ∃ results, ((Pool.schedule site.network turns (site.begin scripts (T, []))).progs i).next =
      .inl (.ok results) := by
  have hover : ∃ o, ((Pool.schedule site.network turns
      (site.begin scripts (T, []))).progs i).next = .inl o :=
    Pool.over_of_turns (c := site.begin scripts (T, [])) (asksAtMost_playbook (scripts i)) hturns
  obtain ⟨o, hnext⟩ := hover
  have houtcome := (playbooks_outcome hfaith happart T [] turns).2 i o hnext
  obtain ⟨results, rfl⟩ := houtcome.succeeds (fun f hf => by cases hf) (haccept i) (hunique i)
  exact ⟨results, hnext⟩

end Success

end Clients

section Sample

/-- A second manager next to the sample one; both share one apply endpoint. -/
def otherManager : BaseManager :=
  { sampleManager with
    className := "OtherManager"
    config :=
      { base := "other/settings", payloadKey := "item", applyEndpoint := some "sample/apply" } }

def sampleManagers (i : Bool) : BaseManager := if i then otherManager else sampleManager

theorem sampleManagers_conventional (i : Bool) : (sampleManagers i).Conventional "Item" := by
  cases i with
  | false => exact ⟨by decide, by decide, rfl, Or.inl rfl⟩
  | true => exact ⟨by decide, by decide, rfl, Or.inl rfl⟩

def sampleSite : Site Bool where
  manager := sampleManagers
  api _ := TableServer.wrappingServer
  indices := [false, true]
  complete i := by cases i <;> decide
  apart := by
    refine BaseManager.apart_of_conventional sampleManagers_conventional fun i j hne => ?_
    cases i <;> cases j
    · exact absurd rfl hne
    · exact Or.inl (by decide)
    · exact Or.inl (by decide)
    · exact absurd rfl hne
  ack := .obj []
  unknown := .ok (.obj [])

theorem sampleSite_transparent (i : Bool) :
    TableServer.Transparent (sampleSite.api i) (sampleSite.manager i) := by
  have h := TableServer.wrappingServer_transparent
  cases i with
  | false => exact h
  | true =>
    exact ⟨h.fill_holds, h.merge_holds, h.row_match, h.row_shows, h.item_shows, h.keep_match⟩

def sampleTask (i : Bool) (state name descr : String) : Task Bool where
  manager := i
  state := state
  params := [("name", .str name), ("descr", .str descr)]

theorem sampleTask_declares (i : Bool) (state name descr : String) :
    TableServer.Declares (sampleSite.manager i) (sampleTask i state name descr).params := by
  have hkeys : ∀ k ∈ (sampleSite.manager i).matchKeys, k = "name" := by
    cases i <;> simp [sampleSite, sampleManagers, otherManager, sampleManager]
  refine ⟨by simp [sampleTask, IsText, AllText], fun k hk => ?_, rfl⟩
  rw [hkeys k hk]
  exact ⟨name, rfl⟩

/-- One client declares in both tables, the other beside it in the first. -/
def sampleScripts : Client → List (Task Bool)
  | .first => [sampleTask false "present" "a" "x", sampleTask true "absent" "b" ""]
  | .second => [sampleTask false "present" "c" "y"]

theorem sampleScripts_tasks {i : Client} {t : Task Bool} (h : t ∈ sampleScripts i) :
    i = .first ∧ (t = sampleTask false "present" "a" "x" ∨ t = sampleTask true "absent" "b" "") ∨
      i = .second ∧ t = sampleTask false "present" "c" "y" := by
  cases i with
  | first => exact Or.inl ⟨rfl, by simpa [sampleScripts] using h⟩
  | second => exact Or.inr ⟨rfl, by simpa [sampleScripts] using h⟩

theorem sampleScripts_faithful (i : Client) : ∀ t ∈ sampleScripts i, t.Faithful sampleSite := by
  have htask : ∀ i state name descr, (sampleTask i state name descr).Faithful sampleSite :=
    fun i state name descr =>
      ⟨(sampleSite_transparent i).faithful (sampleTask_declares i state name descr),
        (sampleTask_declares i state name descr).has⟩
  intro t ht
  rcases sampleScripts_tasks ht with ⟨-, rfl | rfl⟩ | ⟨-, rfl⟩
  · exact htask ..
  · exact htask ..
  · exact htask ..

theorem sampleScripts_apart (i j : Client) (hne : i ≠ j) (k : Key Bool)
    (h : sampleSite.Declared (sampleScripts i) k) :
    ¬ sampleSite.Declared (sampleScripts j) k := by
  rintro ⟨t', ht', rfl⟩
  obtain ⟨t, ht, hkey⟩ := h
  rcases sampleScripts_tasks ht with ⟨rfl, rfl | rfl⟩ | ⟨rfl, rfl⟩ <;>
    rcases sampleScripts_tasks ht' with ⟨rfl, rfl | rfl⟩ | ⟨rfl, rfl⟩ <;>
    first
      | exact hne rfl
      | exact absurd hkey (by decide)

theorem sampleScripts_acceptable (i : Client) :
    ∀ t ∈ sampleScripts i, t.Acceptable sampleSite := by
  intro t ht
  rcases sampleScripts_tasks ht with ⟨-, rfl | rfl⟩ | ⟨-, rfl⟩
  · exact Or.inl ⟨rfl, Or.inl rfl⟩
  · exact Or.inr rfl
  · exact Or.inl ⟨rfl, Or.inl rfl⟩

/-- Nothing is stored yet. -/
def emptySite : Bool → Table := fun _ => ⟨⟨[], List.nodup_nil⟩, 0⟩

def lostRequest : Fault Exc := .lost (.opnsense { cls := .connection, message := "reset" })

end Sample

end Site
end Opnsense
