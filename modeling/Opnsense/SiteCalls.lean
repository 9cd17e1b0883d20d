import Opnsense.Interaction.Rely
import Opnsense.Site

namespace Opnsense
namespace Site
open Interaction BaseManager

/-- The tables, and the faults still to come. -/
abbrev World (I : Type) := (I → Table) × List (Fault Exc)

section Logic

variable {I : Type} [DecidableEq I] (site : Site I) (own : Key I → Prop) (calm : Prop)

def network : Appliance (World I) := faulty Except.error site.serve

/-- A client leaves the cells it does not own alone. -/
def Promises (s s' : World I) : Prop :=
  (∀ k, ¬ own k → site.cell s'.1 k = site.cell s.1 k) ∧ (Calm s → Calm s')

/-- It relies on the others to leave its own alone. -/
def Relies (s s' : World I) : Prop :=
  (∀ k, own k → site.cell s'.1 k = site.cell s.1 k) ∧ (Calm s → Calm s')

/-- The owned cells are those of `v`; under `calm` no fault is to come. -/
def Holds (v : Key I → List Resource) (s : World I) : Prop :=
  (∀ k, own k → site.cell s.1 k = v k) ∧ (calm → Calm s)

/-- A program that began on `v` and took the cell `k` to some content. -/
def Ends {α : Type} (k : Key I) (v : Key I → List Resource)
    (ok : α → List Resource → Prop) (fail : Exc → List Resource → Prop) :
    Except Exc α → World I → Prop
  | .ok a, s => ∃ content, ok a content ∧ site.Holds own calm (Function.update v k content) s
  | .error e, s => ∃ content, fail e content ∧ site.Holds own calm (Function.update v k content) s

/-- Begun with `content` in its cell, `p` ends with what `ok` or `fail` says of the cell. -/
def CellTriple {α : Type} (k : Key I) (content : List Resource) (p : M α)
    (ok : α → List Resource → Prop) (fail : Exc → List Resource → Prop) : Prop :=
  ∀ v, v k = content → Prog.Secures site.network (site.Relies own) (site.Promises own)
    (site.Ends own calm k v ok fail) p (site.Holds own calm v)

end Logic

variable {I : Type} [DecidableEq I] {site : Site I} {own : Key I → Prop} {calm : Prop} {k : Key I}
  {α β : Type} {content : List Resource} {ok ok' : α → List Resource → Prop}
  {fail fail' : Exc → List Resource → Prop}

omit [DecidableEq I] in
theorem holds_stable (v : Key I → List Resource) :
    Stable (site.Relies own) (site.Holds own calm v) := by
  rintro s s' ⟨hcells, hcalm⟩ ⟨hv, hc⟩
  exact ⟨fun k hk => (hcells k hk).trans (hv k hk), fun h => hcalm (hc h)⟩

theorem cellTriple_mono {p : M α} (h : site.CellTriple own calm k content p ok fail)
    (hok : ∀ a c, ok a c → ok' a c) (hfail : ∀ e c, fail e c → fail' e c) :
    site.CellTriple own calm k content p ok' fail' := by
  intro v hv
  refine Prog.secures_mono (h v hv) (fun _ hs => hs) ?_
  rintro (e | a) s ⟨c, hc, hs⟩
  · exact ⟨c, hfail e c hc, hs⟩
  · exact ⟨c, hok a c hc, hs⟩

theorem cellTriple_ret {a : α} (h : ok a content) :
    site.CellTriple own calm k content (.ret a) ok fail := by
  rintro v rfl s hs
  exact ⟨v k, h, by rwa [Function.update_eq_self]⟩

theorem cellTriple_raise {e : Exc} (h : fail e content) :
    site.CellTriple own calm k content (.raise e : M α) ok fail := by
  rintro v rfl s hs
  exact ⟨v k, h, by rwa [Function.update_eq_self]⟩

theorem cellTriple_ofExcept {x : Except Exc α} (hok : ∀ a, x = .ok a → ok a content)
    (hfail : ∀ e, x = .error e → fail e content) :
    site.CellTriple own calm k content (.ofExcept x) ok fail := by
  cases x with
  | error e => exact cellTriple_raise (hfail e rfl)
  | ok a => exact cellTriple_ret (hok a rfl)

theorem cellTriple_bind {p : M β} {f : β → M α} (mid : β → List Resource → Prop)
    (hp : site.CellTriple own calm k content p mid fail)
    (hf : ∀ b c, mid b c → site.CellTriple own calm k c (f b) ok fail) :
    site.CellTriple own calm k content (p >>= f) ok fail := by
  intro v hv
  refine Prog.secures_bind _ (hp v hv) (fun b => ?_) fun _ _ h => h
  refine Prog.secures_exists fun c => Prog.secures_of_forall (mid b c) (fun _ hs => hs.1)
    fun hmid => ?_
  have hnext := hf b c hmid (Function.update v k c) (Function.update_self ..)
  refine Prog.secures_mono hnext (fun _ hs => hs.2) ?_
  -- one write after the other to the same cell
  rintro (e | a) s ⟨c', hc', hs⟩
  · exact ⟨c', hc', by rwa [Function.update_idem] at hs⟩
  · exact ⟨c', hc', by rwa [Function.update_idem] at hs⟩

theorem cellTriple_log {level : LogLevel} {message : String} {extra : Obj} :
    site.CellTriple own calm k content (log level message extra) (fun _ c => c = content) fail := by
  have hret : site.CellTriple own calm k content (.ret ()) (fun _ c => c = content) fail :=
    cellTriple_ret rfl
  exact fun v hv => hret v hv

theorem cellTriple_logError {p : M α} {message : Exc → String} {extra : Exc → Obj}
    (h : site.CellTriple own calm k content p ok fail) :
    site.CellTriple own calm k content (logError p message extra) ok fail :=
  fun v hv => Prog.secures_onError (h v hv)

theorem cellTriple_logErrorUnless {skip : Exc → Bool} {p : M α} {message : Exc → String}
    {extra : Exc → Obj} (h : site.CellTriple own calm k content p ok fail) :
    site.CellTriple own calm k content (logErrorUnless skip p message extra) ok fail :=
  fun v hv => secures_logErrorUnless (h v hv)

/-- A request of a client to the table of its manager. `eff` says what the reply tells and
what is in the cell behind it; a fault leaves the old content or the new. -/
theorem cellTriple_await {q : Request} (eff : Reply → List Resource → Prop) (hown : own k)
    (hq : ∀ T, site.cell T k = content →
      ∃ c, Shows site T (site.serve q T).2 k c ∧ eff (site.serve q T).1 c) :
    site.CellTriple own calm k content (await q) (fun w c => eff (.ok w) c)
      (fun e c => (c = content ∨ ∃ r, eff r c) ∧ (calm → eff (.error e) c)) := by
  rintro v rfl
  -- what a client that asked knows of the cell, by the reply it got
  let mid : Reply → World I → Prop := fun r s => ∃ c, (c = v k ∨ ∃ r, eff r c) ∧
    (calm ∨ r.isOk = true → eff r c) ∧ site.Holds own calm (Function.update v k c) s
  refine ⟨mid, ?_, ?_, ?_⟩
  · rintro r s s' hrely ⟨c, hc, heff, hs⟩
    exact ⟨c, hc, heff, holds_stable _ s s' hrely hs⟩
  · intro s hs
    obtain ⟨c, hshows, heff⟩ := hq s.1 (hs.1 k hown)
    obtain ⟨hcalm, hcases⟩ := @faulty_calm _ _ _ _ site.serve Except.error q s
    -- where the request was carried out, and where it was not
    have hdone : (site.network q s).2.1 = (site.serve q s.1).2 →
        (∀ k', ¬ own k' → site.cell (site.network q s).2.1 k' = site.cell s.1 k') ∧
          site.Holds own calm (Function.update v k c) (site.network q s).2 := by
      intro hstate
      have hcells : site.cell (site.network q s).2.1 = Function.update (site.cell s.1) k c := by
        rw [hstate]
        exact hshows
      refine ⟨fun k' hk' => ?_, fun k' hk' => ?_, fun h => hcalm (hs.2 h)⟩
      · rw [hcells, Function.update_of_ne fun heq => hk' (by rw [heq]; exact hown)]
      · rw [hcells]
        by_cases heq : k' = k
        · subst heq
          rw [Function.update_self, Function.update_self]
        · rw [Function.update_of_ne heq, Function.update_of_ne heq]
          exact hs.1 k' hk'
    have hskipped : (site.network q s).2.1 = s.1 →
        (∀ k', ¬ own k' → site.cell (site.network q s).2.1 k' = site.cell s.1 k') ∧
          site.Holds own calm (Function.update v k (v k)) (site.network q s).2 := by
      intro hstate
      rw [Function.update_eq_self]
      refine ⟨fun k' _ => by rw [hstate], fun k' hk' => ?_, fun h => hcalm (hs.2 h)⟩
      rw [hstate]
      exact hs.1 k' hk'
    rcases hcases with ⟨hreply, hstate⟩ | ⟨hfault, e, hreply, hstate | hstate⟩
    · obtain ⟨hframe, hholds⟩ := hdone hstate
      refine ⟨⟨hframe, hcalm⟩, c, Or.inr ⟨_, heff⟩, fun _ => ?_, hholds⟩
      rw [show (site.network q s).1 = _ from hreply]
      exact heff
    · obtain ⟨hframe, hholds⟩ := hskipped hstate
      refine ⟨⟨hframe, hcalm⟩, v k, Or.inl rfl, ?_, hholds⟩
      rw [show (site.network q s).1 = _ from hreply]
      rintro (h | h)
      · exact absurd (hs.2 h) hfault
      · cases h
    · obtain ⟨hframe, hholds⟩ := hdone hstate
      refine ⟨⟨hframe, hcalm⟩, c, Or.inr ⟨_, heff⟩, ?_, hholds⟩
      rw [show (site.network q s).1 = _ from hreply]
      rintro (h | h)
      · exact absurd (hs.2 h) hfault
      · cases h
  · rintro (e | w)
    · rintro s ⟨c, hc, heff, hs⟩
      exact ⟨c, ⟨hc, fun h => heff (Or.inl h)⟩, hs⟩
    · rintro s ⟨c, -, heff, hs⟩
      exact ⟨c, heff (Or.inr rfl), hs⟩

/-- A read: nothing moves, and `told` is what an answer says. -/
theorem cellTriple_read {q : Request} (told : Reply → Prop) (hown : own k)
    (hq : ∀ T, site.cell T k = content →
      site.cell (site.serve q T).2 = site.cell T ∧ told (site.serve q T).1) :
    site.CellTriple own calm k content (await q) (fun w c => c = content ∧ told (.ok w))
      (fun e c => c = content ∧ (calm → told (.error e))) := by
  have hread : ∀ T, site.cell T k = content →
      ∃ c, Shows site T (site.serve q T).2 k c ∧ c = content ∧ told (site.serve q T).1 := by
    intro T hT
    obtain ⟨hsame, htold⟩ := hq T hT
    refine ⟨content, ?_, rfl, htold⟩
    rw [Shows, hsame, ← hT, Function.update_eq_self]
  refine cellTriple_mono (cellTriple_await (fun r c => c = content ∧ told r) hown hread)
    (fun _ _ h => h) ?_
  rintro e c ⟨rfl | ⟨r, rfl, -⟩, h⟩
  · exact ⟨rfl, fun hcalm => (h hcalm).2⟩
  · exact ⟨rfl, fun hcalm => (h hcalm).2⟩

/-- One declaration: a resource of a manager that shall be present or absent. -/
structure Task (I : Type) where
  manager : I
  state : String
  params : Obj
  force : Bool := false

namespace Task

variable (site : Site I) (t : Task I)

def key : Key I := site.keyOf t.manager t.params

def call : M EnsureResult :=
  (site.manager t.manager).ensure t.state t.params false none false t.force

/-- What the parameters are compared with shows no drift from them. -/
def Agrees (r : Resource) : Prop :=
  (site.manager t.manager).diffEngine.computeDiff
    ((site.api t.manager).compared t.params r) t.params = none

/-- What the declaration makes of the resources of its identity, and what it reports. -/
inductive Settles : List Resource → List Resource → EnsureResult → Prop
  | created {r : Resource} {res : EnsureResult} : t.state = "present" →
      r.fields = (site.api t.manager).fill t.params → res.changed = true →
      res.action = .created → res.uuid = some (.str r.uuid) → Settles [] [r] res
  | kept {r : Resource} {res : EnsureResult} : t.state = "present" → t.force = false →
      t.Agrees site r → res.changed = false → res.action = .noop →
      res.uuid = some (.str r.uuid) → Settles [r] [r] res
  | updated {r : Resource} {res : EnsureResult} : t.state = "present" →
      t.force = true ∨ ¬ t.Agrees site r → res.changed = true → res.action = .updated →
      res.uuid = some (.str r.uuid) →
      Settles [r] [(site.api t.manager).changed t.params r] res
  | gone {res : EnsureResult} : t.state = "absent" → res.changed = false → res.action = .noop →
      Settles [] [] res
  | deleted {r : Resource} {res : EnsureResult} : t.state = "absent" → res.changed = true →
      res.action = .deleted → res.uuid = some (.str r.uuid) → Settles [r] [] res

/-- What makes a declaration fail without any fault. -/
def Refused (content : List Resource) : Prop :=
  (t.state ≠ "present" ∧ t.state ≠ "absent") ∨
    (t.state = "present" ∧ ¬ (site.manager t.manager).accepts t.params) ∨ 2 ≤ content.length

/-- A failed declaration did what it should or nothing; without a fault it did nothing. -/
def Fails (calm : Prop) (content : List Resource) : Exc → List Resource → Prop := fun _ c =>
  (c = content ∨ ∃ res, t.Settles site content c res) ∧
    (calm → c = content ∧ t.Refused site content)

/-- The server stores what identifies the resource and finds it under that. -/
structure Faithful : Prop where
  faithful : TableServer.Faithful (site.api t.manager) (site.manager t.manager) t.params
  keys : ∀ k ∈ (site.manager t.manager).matchKeys, t.params.has k = true

end Task

/-- A request that failed in between: nothing moved, and there was a fault. -/
def Lost (calm : Prop) (content : List Resource) : Exc → List Resource → Prop :=
  fun _ c => c = content ∧ ¬ calm

section Calls

variable {t : Task I} {r : Resource}

omit [DecidableEq I] in
theorem Task.fails_of_lost {e : Exc} {c : List Resource} (h : Lost calm content e c) :
    t.Fails site calm content e c :=
  ⟨Or.inl h.1, fun hcalm => absurd hcalm h.2⟩

theorem serve_search {i : I} {action phrase : String} {n : ℕ} {T : I → Table}
    (h : action = (site.manager i).searchAction) :
    site.serve (.search action phrase n) T =
      (.ok (.arr (((site.api i).rows phrase (T i)).map .obj)),
        Function.update T i (T i).tick) := by
  rw [serve_eq (i := i) rfl (by simp [h, actions])]
  rfl

/-- The rows of a search, told by the cell: those of the identity are the rows of its
resources. -/
theorem cellTriple_list (hfaith : t.Faithful site) (hown : own (t.key site)) :
    site.CellTriple own calm (t.key site) content
      ((site.manager t.manager).list ((site.manager t.manager).identity.searchPhrase t.params))
      (fun w c => c = content ∧ ∃ rows, w = .arr (rows.map .obj) ∧
        (matchingRows (site.manager t.manager).matchKeys t.params rows).Perm
          (content.map (site.api t.manager).row))
      (Lost calm content) := by
  have hsearch : ∀ action, action = (site.manager t.manager).searchAction →
      site.CellTriple own calm (t.key site) content
        (await (.search action ((site.manager t.manager).identity.searchPhrase t.params)
          defaultRowCount))
        (fun w c => c = content ∧ ∃ rows, w = .arr (rows.map .obj) ∧
          (matchingRows (site.manager t.manager).matchKeys t.params rows).Perm
            (content.map (site.api t.manager).row))
        (Lost calm content) := by
    intro action haction
    refine cellTriple_mono (cellTriple_read (fun reply => ∃ rows,
      reply = .ok (.arr (rows.map .obj)) ∧
        (matchingRows (site.manager t.manager).matchKeys t.params rows).Perm
          (content.map (site.api t.manager).row)) hown ?_) ?_ ?_
    · intro T hT
      rw [serve_search haction]
      refine ⟨cell_tick _, _, rfl, ?_⟩
      rw [← hT, Task.key, cell_keyOf]
      exact TableServer.found_perm hfaith.faithful
    · rintro w c ⟨rfl, rows, hw, hperm⟩
      cases hw
      exact ⟨rfl, rows, rfl, hperm⟩
    · rintro e c ⟨rfl, h⟩
      refine ⟨rfl, fun hcalm => ?_⟩
      obtain ⟨rows, hrows, -⟩ := h hcalm
      cases hrows
  unfold list
  split
  · rename_i action haction
    exact hsearch action (by simp [searchAction, haction])
  · rename_i haction
    exact cellTriple_logError (hsearch _ (by simp [searchAction, haction]))

/-- The lookup finds the resource of the cell; two of them are refused. -/
theorem cellTriple_findExisting (hfaith : t.Faithful site) (hown : own (t.key site)) :
    site.CellTriple own calm (t.key site) content
      ((site.manager t.manager).identity.findExisting t.params (site.manager t.manager).list)
      (fun found c => c = content ∧ (content = [] ∧ found = none ∨
        ∃ r, content = [r] ∧ found = some ((site.api t.manager).row r)))
      (t.Fails site calm content) := by
  have hmany : 2 ≤ content.length → ∀ e, t.Fails site calm content e content :=
    fun hlen e => ⟨Or.inl rfl, fun _ => ⟨rfl, Or.inr (Or.inr hlen)⟩⟩
  have hfind : site.CellTriple own calm (t.key site) content
      ((site.manager t.manager).identity.findMatching t.params (site.manager t.manager).list
        (some ((site.manager t.manager).identity.searchPhrase t.params)))
      (fun found c => c = content ∧ found.Perm (content.map (site.api t.manager).row))
      (t.Fails site calm content) := by
    apply cellTriple_bind (fun w c => c = content ∧ ∃ rows, w = .arr (rows.map .obj) ∧
      (matchingRows (site.manager t.manager).matchKeys t.params rows).Perm
        (content.map (site.api t.manager).row))
    · exact cellTriple_mono (cellTriple_list hfaith hown) (fun _ _ h => h)
        fun _ _ h => Task.fails_of_lost h
    · rintro w c ⟨rfl, rows, rfl, hperm⟩
      simp only [iterate, Prog.ofExcept, Prog.ret_bind, asRows_map_obj, Prog.pure_eq_ret]
      exact cellTriple_ret ⟨rfl, hperm⟩
  unfold IdentityResolver.findExisting
  refine cellTriple_bind (fun found c => c = content ∧
    found.1.Perm (content.map (site.api t.manager).row)) (cellTriple_logErrorUnless ?_) ?_
  · refine cellTriple_bind _ hfind ?_
    rintro found c ⟨rfl, hperm⟩
    refine cellTriple_bind (fun _ c' => c' = c)
      (cellTriple_ofExcept (fun _ _ => rfl) ?_) ?_
    · -- naming the uuids can only fail where there are several
      intro e he
      split at he
      · cases he
      · rename_i hlen
        apply hmany
        have hlength := hperm.length_eq
        rw [List.length_map] at hlength
        omega
    · rintro uuids c' rfl
      exact cellTriple_ret ⟨rfl, hperm⟩
  · rintro ⟨found, uuids⟩ c ⟨rfl, hperm⟩
    have hlength := hperm.length_eq
    rw [List.length_map] at hlength
    rcases found with _ | ⟨row, _ | ⟨row', rest⟩⟩
    · exact cellTriple_ret ⟨rfl, Or.inl ⟨List.length_eq_zero_iff.mp hlength.symm, rfl⟩⟩
    · obtain ⟨r, rfl⟩ := List.length_eq_one_iff.mp hlength.symm
      refine cellTriple_ret ⟨rfl, Or.inr ⟨r, rfl, ?_⟩⟩
      rw [List.map_singleton, List.perm_singleton, List.singleton_inj] at hperm
      rw [hperm]
    · refine cellTriple_bind _ cellTriple_log ?_
      rintro u c' rfl
      apply cellTriple_raise
      apply hmany
      rw [← hlength]
      simp

omit [DecidableEq I] in
theorem mem_of_cell {T : I → Table} (h : site.cell T (t.key site) = [r]) :
    r ∈ (T t.manager).resources.entries := by
  have hr : r ∈ site.cell T (t.key site) := by
    rw [h]
    exact List.mem_singleton_self _
  exact (mem_cell.mp hr).1

theorem cellTriple_get (hown : own (t.key site)) :
    site.CellTriple own calm (t.key site) [r] ((site.manager t.manager).get (.str r.uuid))
      (fun w c => c = [r] ∧ w = .obj ((site.api t.manager).item r)) (Lost calm [r]) := by
  unfold BaseManager.get
  apply cellTriple_bind (fun w c => c = [r] ∧
    w = .obj [((site.manager t.manager).config.payloadKey, .obj ((site.api t.manager).item r))])
  · apply cellTriple_logError
    refine cellTriple_mono (cellTriple_read (fun reply => reply =
      .ok (.obj [((site.manager t.manager).config.payloadKey,
        .obj ((site.api t.manager).item r))])) hown ?_) ?_ ?_
    · intro T hT
      rw [serve_eq (i := t.manager) rfl (by simp [actions, itemAction, EndpointConfig.get])]
      refine ⟨cell_tick _, ?_⟩
      rw [EndpointConfig.get_str _ r.uuid_ne]
      exact TableServer.itemOf_mem (mem_of_cell hT)
    · rintro w c ⟨rfl, hw⟩
      exact ⟨rfl, by cases hw; rfl⟩
    · rintro e c ⟨rfl, h⟩
      exact ⟨rfl, fun hcalm => by cases h hcalm⟩
  · rintro w c ⟨rfl, rfl⟩
    simp only [unwrap, Prog.ofExcept]
    exact cellTriple_ret ⟨rfl, by simp [Obj.getD]⟩

/-- What there is to compare is read while the resource stays as it is. -/
theorem cellTriple_hydrateNested (hown : own (t.key site)) :
    site.CellTriple own calm (t.key site) [r]
      ((site.manager t.manager).hydrateNested (some ((site.api t.manager).row r)) t.params)
      (fun existing c => c = [r] ∧ existing = some ((site.api t.manager).compared t.params r))
      (Lost calm [r]) := by
  have hne : (rowUuid ((site.api t.manager).row r) != "") = true := by
    rw [TableServer.rowUuid_row]
    simpa using r.uuid_ne
  simp only [hydrateNested, hne, Bool.and_true, TableServer.compared]
  split
  · rw [TableServer.rowUuid_row]
    apply cellTriple_bind _ (cellTriple_get hown)
    rintro w c ⟨rfl, rfl⟩
    simp only [setItem, Prog.ofExcept]
    exact cellTriple_ret ⟨rfl, rfl⟩
  · exact cellTriple_ret ⟨rfl, rfl⟩

/-- An apply concerns no cell. -/
theorem cellTriple_apply (hown : own k) {m : BaseManager} :
    site.CellTriple own calm k content m.apply (fun _ c => c = content) (Lost calm content) := by
  unfold apply
  split
  · exact cellTriple_ret rfl
  · rename_i ep hep
    apply cellTriple_bind (fun _ c => c = content)
    · apply cellTriple_logError
      refine cellTriple_mono (cellTriple_read (fun reply => reply = .ok site.ack) hown
        fun T _ => ⟨rfl, rfl⟩) (fun _ _ h => h.1) ?_
      rintro e c ⟨rfl, h⟩
      exact ⟨rfl, fun hcalm => by cases h hcalm⟩
    · rintro w c rfl
      exact cellTriple_ret rfl

/-- A write: the new content is `c`, unless a fault kept the request away. -/
theorem cellTriple_write {q : Request} {made : Json → List Resource → Prop}
    (hown : own k) (hq : ∀ T, site.cell T k = content →
      ∃ c w, Shows site T (site.serve q T).2 k c ∧ (site.serve q T).1 = .ok w ∧ made w c) :
    site.CellTriple own calm k content (await q) made
      (fun _ c => (c = content ∨ ∃ w, made w c) ∧ ¬ calm) := by
  refine cellTriple_mono (cellTriple_await
    (fun reply c => ∃ w, reply = .ok w ∧ made w c) hown ?_) ?_ ?_
  · intro T hT
    obtain ⟨c, w, hshows, hreply, hmade⟩ := hq T hT
    exact ⟨c, hshows, w, hreply, hmade⟩
  · rintro w c ⟨w', hw, hmade⟩
    cases hw
    exact hmade
  · rintro e c ⟨hc, h⟩
    refine ⟨?_, fun hcalm => ?_⟩
    · rcases hc with hc | ⟨_, w, -, hmade⟩
      · exact Or.inl hc
      · exact Or.inr ⟨w, hmade⟩
    · obtain ⟨w, hw, -⟩ := h hcalm
      cases hw

omit [DecidableEq I] in
/-- A failed write with its apply behind it is a failed call. -/
theorem Task.fails_of_write {β : Type} {made : β → List Resource → Prop} {e : Exc}
    {c : List Resource} (hsettles : ∀ w c, made w c → ∃ res, t.Settles site content c res)
    (h : (c = content ∨ ∃ w, made w c) ∧ ¬ calm) : t.Fails site calm content e c := by
  refine ⟨?_, fun hcalm => absurd hcalm h.2⟩
  rcases h.1 with hc | ⟨w, hmade⟩
  · exact Or.inl hc
  · exact Or.inr (hsettles w c hmade)

theorem cellTriple_create (hfaith : t.Faithful site) (hown : own (t.key site))
    (hstate : t.state = "present") :
    site.CellTriple own calm (t.key site) []
      ((site.manager t.manager).create t.params false)
      (fun res c => t.Settles site [] c res) (t.Fails site calm []) := by
  obtain ⟨after, hafter⟩ := redactDict_obj (site.manager t.manager).redactFields t.params
  -- the reply names the uuid of the new resource
  let made : Json → List Resource → Prop := fun w c => ∃ r : Resource, c = [r] ∧
    r.fields = (site.api t.manager).fill t.params ∧ w = .str r.uuid
  have hreport : ∀ w c, made w c → t.Settles site [] c
      { changed := true, action := .created, uuid := some w, after := some (.obj after) } := by
    rintro w c ⟨r, rfl, hfields, rfl⟩
    exact Task.Settles.created hstate hfields rfl rfl rfl
  have hsettles : ∀ w c, made w c → ∃ res, t.Settles site [] c res :=
    fun w c hmade => ⟨_, hreport w c hmade⟩
  unfold create
  rw [hafter]
  simp only [Prog.ofExcept, Prog.ret_bind]
  apply cellTriple_bind made
  · apply cellTriple_logError
    apply cellTriple_bind made
    · refine cellTriple_mono (cellTriple_write hown ?_) (fun _ _ h => h)
        fun _ _ h => Task.fails_of_write hsettles h
      intro T hT
      rw [serve_eq (i := t.manager) rfl (by simp [actions])]
      refine ⟨_, _, shows_add hfaith.faithful hfaith.keys, rfl,
        (site.api t.manager).added t.params (T t.manager), ?_, rfl, rfl⟩
      rw [show site.cell T (site.keyOf t.manager t.params) = [] from hT, List.nil_append]
    · intro w c hmade
      apply cellTriple_bind (fun _ c' => c' = c)
      · refine cellTriple_mono (cellTriple_apply hown) (fun _ _ h => h) ?_
        rintro e c' ⟨rfl, hcalm⟩
        exact Task.fails_of_write hsettles ⟨Or.inr ⟨w, hmade⟩, hcalm⟩
      · rintro u c' rfl
        exact cellTriple_ret hmade
  · intro w c hmade
    apply cellTriple_bind _ cellTriple_log
    rintro u c' rfl
    exact cellTriple_ret (hreport w c' hmade)

theorem cellTriple_update (hfaith : t.Faithful site) (hown : own (t.key site))
    (hstate : t.state = "present") (hdrift : t.force = true ∨ ¬ t.Agrees site r) :
    site.CellTriple own calm (t.key site) [r]
      ((site.manager t.manager).update (.str r.uuid) t.params false)
      (fun res c => t.Settles site [r] c res) (t.Fails site calm [r]) := by
  obtain ⟨before, hbefore⟩ := redactDict_obj (site.manager t.manager).redactFields
    ((site.api t.manager).item r)
  obtain ⟨after, hafter⟩ := redactDict_obj (site.manager t.manager).redactFields t.params
  have hreport : t.Settles site [r] [(site.api t.manager).changed t.params r]
      { changed := true, action := .updated, uuid := some (.str r.uuid),
        before := some (.obj before), after := some (.obj after) } :=
    Task.Settles.updated hstate hdrift rfl rfl rfl
  have hsettles : ∀ (_ : Json) c, c = [(site.api t.manager).changed t.params r] →
      ∃ res, t.Settles site [r] c res := by
    rintro w c rfl
    exact ⟨_, hreport⟩
  unfold update
  apply cellTriple_bind (fun w c => c = [r] ∧ w = .obj ((site.api t.manager).item r))
  · exact cellTriple_mono (cellTriple_get hown) (fun _ _ h => h) fun _ _ h => Task.fails_of_lost h
  · rintro w c ⟨rfl, rfl⟩
    rw [hbefore, hafter]
    simp only [Prog.ofExcept, Prog.ret_bind]
    apply cellTriple_bind (fun _ c => c = [(site.api t.manager).changed t.params r])
    · apply cellTriple_logError
      apply cellTriple_bind (fun _ c => c = [(site.api t.manager).changed t.params r])
      · refine cellTriple_mono (cellTriple_write hown ?_) (fun _ _ h => h)
          fun _ _ h => Task.fails_of_write hsettles h
        intro T hT
        rw [serve_eq (i := t.manager) rfl (by simp [actions])]
        exact ⟨_, _, shows_set hfaith.faithful hfaith.keys hT, rfl, rfl⟩
      · rintro w c rfl
        refine cellTriple_mono (cellTriple_apply hown) (fun _ _ h => h) ?_
        rintro e c ⟨rfl, hcalm⟩
        exact Task.fails_of_write hsettles ⟨Or.inr ⟨w, rfl⟩, hcalm⟩
    · rintro u c rfl
      apply cellTriple_bind _ cellTriple_log
      rintro u c' rfl
      exact cellTriple_ret hreport

theorem cellTriple_delete (hown : own (t.key site)) (hstate : t.state = "absent") :
    site.CellTriple own calm (t.key site) [r]
      ((site.manager t.manager).delete (.str r.uuid) false)
      (fun res c => t.Settles site [r] c res) (t.Fails site calm [r]) := by
  obtain ⟨before, hbefore⟩ := redactDict_obj (site.manager t.manager).redactFields
    ((site.api t.manager).item r)
  have hreport : t.Settles site [r] []
      { changed := true, action := .deleted, uuid := some (.str r.uuid),
        before := some (.obj before) } :=
    Task.Settles.deleted hstate rfl rfl rfl
  have hsettles : ∀ (_ : Json) c, c = [] → ∃ res, t.Settles site [r] c res := by
    rintro w c rfl
    exact ⟨_, hreport⟩
  unfold delete
  apply cellTriple_bind (fun w c => c = [r] ∧ w = .obj ((site.api t.manager).item r))
  · exact cellTriple_mono (cellTriple_get hown) (fun _ _ h => h) fun _ _ h => Task.fails_of_lost h
  · rintro w c ⟨rfl, rfl⟩
    simp only [asDict, hbefore, Prog.ofExcept, Prog.ret_bind]
    apply cellTriple_bind (fun _ c => c = [])
    · apply cellTriple_logError
      apply cellTriple_bind (fun _ c => c = [])
      · refine cellTriple_mono (cellTriple_write hown ?_) (fun _ _ h => h)
          fun _ _ h => Task.fails_of_write hsettles h
        intro T hT
        rw [serve_eq (i := t.manager) rfl (by simp [actions])]
        exact ⟨_, _, shows_del hT, rfl, rfl⟩
      · rintro w c rfl
        refine cellTriple_mono (cellTriple_apply hown) (fun _ _ h => h) ?_
        rintro e c ⟨rfl, hcalm⟩
        exact Task.fails_of_write hsettles ⟨Or.inr ⟨w, rfl⟩, hcalm⟩
    · rintro u c rfl
      apply cellTriple_bind _ cellTriple_log
      rintro u c' rfl
      exact cellTriple_ret hreport

/-- With nothing found: create it, or leave it absent. -/
theorem cellTriple_converge_none (hfaith : t.Faithful site) (hown : own (t.key site))
    (hstate : t.state = "present" ∨ t.state = "absent") :
    site.CellTriple own calm (t.key site) []
      ((site.manager t.manager).converge t.state t.params false t.force none)
      (fun res c => t.Settles site [] c res) (t.Fails site calm []) := by
  unfold converge
  rcases hstate with hstate | hstate
  · simp only [hstate, if_true]
    exact cellTriple_create hfaith hown hstate
  · have hne : ¬ t.state = "present" := by simp [hstate]
    simp only [hne, if_false]
    apply cellTriple_bind _ cellTriple_log
    rintro u c rfl
    exact cellTriple_ret (Task.Settles.gone hstate rfl rfl)

/-- With one resource found: leave it, change it, or delete it. -/
theorem cellTriple_converge_some (hfaith : t.Faithful site) (hown : own (t.key site))
    (hstate : t.state = "present" ∨ t.state = "absent") :
    site.CellTriple own calm (t.key site) [r]
      ((site.manager t.manager).converge t.state t.params false t.force
        (some ((site.api t.manager).compared t.params r)))
      (fun res c => t.Settles site [r] c res) (t.Fails site calm [r]) := by
  unfold converge
  rcases hstate with hstate | hstate
  · simp only [hstate, if_true, TableServer.compared_uuid]
    split
    · rename_i hsame
      rw [Bool.and_eq_true, Option.isNone_iff_eq_none, Bool.not_eq_true'] at hsame
      apply cellTriple_bind _ cellTriple_log
      rintro u c rfl
      exact cellTriple_ret (Task.Settles.kept hstate hsame.2 hsame.1 rfl rfl rfl)
    · rename_i hdrift
      rw [Bool.and_eq_true, Option.isNone_iff_eq_none, Bool.not_eq_true', not_and_or] at hdrift
      refine cellTriple_update hfaith hown hstate ?_
      rcases hdrift with hdrift | hforce
      · exact Or.inr hdrift
      · exact Or.inl (by simpa using hforce)
  · have hne : ¬ t.state = "present" := by simp [hstate]
    simp only [hne, if_false, TableServer.compared_uuid]
    exact cellTriple_delete hown hstate

/-- A call settles its cell or fails as a declaration may fail, whatever the cell held and
whatever happens in other cells meanwhile. -/
theorem cellTriple_call (hfaith : t.Faithful site) (hown : own (t.key site)) :
    site.CellTriple own calm (t.key site) content (t.call site)
      (fun res c => t.Settles site content c res) (t.Fails site calm content) := by
  have hrefused : t.Refused site content → ∀ e, t.Fails site calm content e content :=
    fun h e => ⟨Or.inl rfl, fun _ => ⟨rfl, h⟩⟩
  unfold Task.call ensure
  apply cellTriple_bind (fun _ c => c = content ∧
    (t.state = "present" ∨ t.state = "absent"))
  · unfold validate
    split
    · rename_i hstate
      exact cellTriple_raise (hrefused (Or.inl hstate) _)
    · rename_i hstate
      have hknown : t.state = "present" ∨ t.state = "absent" := by
        by_contra hneither
        exact hstate (not_or.mp hneither)
      split
      · rename_i hpresent
        apply cellTriple_logError
        refine cellTriple_ofExcept (fun _ _ => ⟨rfl, hknown⟩) fun e he => ?_
        apply hrefused
        refine Or.inr (Or.inl ⟨hpresent.1, ?_⟩)
        rintro (hnil | hok)
        · exact hpresent.2 hnil
        · rw [he] at hok
          cases hok
      · exact cellTriple_ret ⟨rfl, hknown⟩
  · rintro u c ⟨rfl, hstate⟩
    unfold resolve
    apply cellTriple_bind (fun found c' => c' = c ∧ found.2 = [] ∧
      (c = [] ∧ found.1 = none ∨
        ∃ r, c = [r] ∧ found.1 = some ((site.api t.manager).compared t.params r)))
    · apply cellTriple_bind (fun found c' => c' = c ∧ found.2 = [] ∧
        (c = [] ∧ found.1 = none ∨
          ∃ r, c = [r] ∧ found.1 = some ((site.api t.manager).row r)))
      · simp only [lookup, Bool.false_eq_true, if_false]
        apply cellTriple_bind _ (cellTriple_findExisting hfaith hown)
        rintro found c' ⟨rfl, hfound⟩
        exact cellTriple_ret ⟨rfl, rfl, hfound⟩
      · rintro ⟨found, removed⟩ c' ⟨rfl, rfl, ⟨rfl, rfl⟩ | ⟨r, rfl, rfl⟩⟩
        · exact cellTriple_ret ⟨rfl, rfl, Or.inl ⟨rfl, rfl⟩⟩
        · apply cellTriple_bind (fun existing c => c = [r] ∧
            existing = some ((site.api t.manager).compared t.params r))
          · exact cellTriple_mono (cellTriple_hydrateNested hown) (fun _ _ h => h)
              fun _ _ h => Task.fails_of_lost h
          · rintro existing c ⟨rfl, rfl⟩
            exact cellTriple_ret ⟨rfl, rfl, Or.inr ⟨r, rfl, rfl⟩⟩
    · rintro ⟨found, removed⟩ c' ⟨rfl, rfl, hfound⟩
      apply cellTriple_bind (fun res c => t.Settles site c' c res)
      · rcases hfound with ⟨rfl, rfl⟩ | ⟨r, rfl, rfl⟩
        · exact cellTriple_converge_none hfaith hown hstate
        · exact cellTriple_converge_some hfaith hown hstate
      · intro res c hsettles
        exact cellTriple_ret hsettles

end Calls

end Site
end Opnsense
