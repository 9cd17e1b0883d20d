import Mathlib.Algebra.GroupWithZero.Nat
import Mathlib.Algebra.Order.BigOperators.Group.List
import Opnsense.BootMachine
import Opnsense.Interaction.Triple
import Opnsense.Lifecycle
import Opnsense.Snapshots

namespace Opnsense
open Interaction

/-- The snapshot endpoints of a machine. -/
structure SnapshotServer (γ : Type) where
  row : Machine γ → BootEnv γ → Obj
  fresh : Machine γ → String
  admits : Machine γ → String → Bool
  keeps : Machine γ → String → Bool
  ack : Json
  refused : Reply
  row_uuid : ∀ m e, (row m e).lookup "uuid" = some (.str e.uuid)
  row_name : ∀ m e, (row m e).lookup "name" = some (.str e.name)
  row_active : ∀ m e,
    (pyStr ((row m e).getD "active" (.str ""))).toList.contains 'N' = decide (e.uuid = m.next)
  fresh_new : ∀ m, ∀ e ∈ m.envs.entries, e.uuid ≠ fresh m

namespace SnapshotServer

variable {γ : Type} (api : SnapshotServer γ)

def rows (m : Machine γ) : List Obj := m.envs.entries.map (api.row m)

def add (name : String) (m : Machine γ) : Reply × Machine γ :=
  if h : ∀ e ∈ m.envs.entries, e.name ≠ name then
    if api.admits m name then (.ok api.ack, m.create name (api.fresh m) h (api.fresh_new m))
    else (api.refused, m)
  else (api.refused, m)

def del (u : String) (m : Machine γ) : Reply × Machine γ :=
  if h : u ≠ m.running ∧ u ≠ m.next then
    if api.keeps m u then (api.refused, m) else (.ok api.ack, m.destroy u h.1 h.2)
  else (api.refused, m)

def activate (u : String) (m : Machine γ) : Reply × Machine γ :=
  if h : u ∈ m.envs.entries.map BootEnv.uuid then (.ok api.ack, m.stage u h)
  else (api.refused, m)

def serve : Appliance (Machine γ)
  | .search _ _ rowCount, m => (.ok (.arr (((api.rows m).take rowCount).map .obj)), m)
  | .post ep data _, m =>
    if ep.action = "core/snapshots/add" then api.add (data.text "name") m
    else if ep.action = "core/snapshots/del" then api.del (ep.ident.getD "") m
    else if ep.action = "core/snapshots/activate" then api.activate (ep.ident.getD "") m
    else (api.refused, m)
  | _, m => (api.refused, m)

/-- The same behind a line that loses requests and replies. -/
def network : Appliance (Machine γ × List (Fault Exc)) := faulty .error api.serve

/-- A happening, the calls as the manager makes them. -/
def happen : Happening γ → Machine γ × List (Fault Exc) → Machine γ × List (Fault Exc)
  | .isSupported, S => (CoreSnapshotManager.isSupported.run api.network S).2
  | .ensure state name checkMode, S =>
    ((CoreSnapshotManager.ensure state name checkMode).run api.network S).2
  | .activate name checkMode, S =>
    ((CoreSnapshotManager.activate name checkMode).run api.network S).2
  | .configure change, (m, faults) => (m.configure change, faults)
  | .reboot, (m, faults) => (m.reboot, faults)

/-- One happening after the other. -/
def history (hs : List (Happening γ)) (S : Machine γ × List (Fault Exc)) :
    Machine γ × List (Fault Exc) :=
  hs.foldl (fun S h => api.happen h S) S

/-- From the machine `m`, `p` returns into `post` or fails into `fail`. -/
abbrev From {α : Type} (m : Machine γ) (p : M α) (post : α → Machine γ → Prop)
    (fail : Machine γ → Prop) : Prop :=
  p.Triple api.network (fun S => S.1 = m) (fun a S => post a S.1) fun S => fail S.1

variable {api} {m : Machine γ} {name : String}

theorem from_await {q : Request} {post : Json → Machine γ → Prop} {fail : Machine γ → Prop}
    (hok : ∀ v, (api.serve q m).1 = .ok v → post v (api.serve q m).2) (hsame : fail m)
    (hmoved : fail (api.serve q m).2) : api.From m (await q) post fail := by
  rintro ⟨m', faults⟩ rfl
  rw [run_await]
  obtain ⟨s', ⟨heq, hs'⟩ | ⟨e, heq, hs'⟩⟩ := faulty_eq Except.error api.serve q m' faults
  · rw [network, heq]
    cases hv : (api.serve q m').1 with
    | error e =>
      change fail s'.1
      rwa [hs']
    | ok v =>
      change post v s'.1
      rw [hs']
      exact hok v hv
  · rw [network, heq]
    change fail s'.1
    rcases hs' with hs' | hs'
    · rwa [hs']
    · rwa [hs']

section Triples

variable {α β : Type} {post : α → Machine γ → Prop} {fail : Machine γ → Prop}

/-- A step that returns the machine it found, or another, to what comes after it. -/
theorem from_bind {p : M α} {f : α → M β} {after : β → Machine γ → Prop}
    (post : α → Machine γ → Prop) (hp : api.From m p post fail)
    (hf : ∀ a m', post a m' → api.From m' (f a) after fail) :
    api.From m (p >>= f) after fail :=
  Prog.triple_bind hp fun a S hS => hf a S.1 hS S rfl

theorem from_mono {p : M α} {post' : α → Machine γ → Prop} {fail' : Machine γ → Prop}
    (h : api.From m p post fail) (hpost : ∀ a m', post a m' → post' a m')
    (hfail : ∀ m', fail m' → fail' m') : api.From m p post' fail' :=
  Prog.triple_mono h (fun _ hS => hS) (fun a S hS => hpost a S.1 hS) fun S hS => hfail S.1 hS

theorem from_logError {p : M α} {message : Exc → String} {extra : Exc → Obj}
    (h : api.From m p post fail) : api.From m (logError p message extra) post fail :=
  Prog.triple_onError h

theorem from_ofExcept {x : Except Exc α} (hok : ∀ a, x = .ok a → post a m) (herr : fail m) :
    api.From m (.ofExcept x) post fail := by
  refine Prog.triple_ofExcept (fun a S hx hS => ?_) fun S hS => ?_
  · exact hS ▸ hok a hx
  · exact hS ▸ herr

theorem from_pure {a : α} (h : post a m) : api.From m (pure a) post fail := by
  rintro ⟨m', faults⟩ rfl
  exact h

theorem from_raise {e : Exc} (h : fail m) : api.From m (.raise e : M α) post fail := by
  rintro ⟨m', faults⟩ rfl
  exact h

theorem from_log {level : LogLevel} {message : String} {extra : Obj} {p : Unit → M α}
    (h : api.From m (p ()) post fail) : api.From m (log level message extra >>= p) post fail :=
  h

end Triples

/-- The rows a lookup reads: the first page. -/
def page (api : SnapshotServer γ) (m : Machine γ) : List Obj :=
  (api.rows m).take defaultRowCount

theorem isNamed_row (m : Machine γ) (e : BootEnv γ) (name : String) :
    CoreSnapshotManager.isNamed name (api.row m e) = decide (e.name = name) := by
  have hname : (api.row m e).getD "name" .null = .str e.name :=
    Obj.getD_of_lookup (api.row_name m e) _
  simp [CoreSnapshotManager.isNamed, hname]
  rfl

theorem uuidText_row (m : Machine γ) (e : BootEnv γ) :
    CoreSnapshotManager.uuidText (api.row m e) = .ok e.uuid := by
  simp [CoreSnapshotManager.uuidText, uuidOf, api.row_uuid, Except.map]

/-- A row that was found is the row of the environment of that name. -/
theorem row_of_find {row : Obj}
    (h : (api.page m).find? (CoreSnapshotManager.isNamed name) = some row) :
    ∃ e ∈ m.envs.entries, e.name = name ∧ row = api.row m e := by
  have hmem : row ∈ api.rows m := List.mem_of_mem_take (List.mem_of_find?_eq_some h)
  obtain ⟨e, he, rfl⟩ := List.mem_map.mp hmem
  have hnamed := List.find?_some h
  rw [isNamed_row, decide_eq_true_iff] at hnamed
  exact ⟨e, he, hnamed, rfl⟩

theorem from_find : api.From m (CoreSnapshotManager.find name)
    (fun o m' => m' = m ∧ o = (api.page m).find? (CoreSnapshotManager.isNamed name))
    fun m' => m' = m := by
  refine from_bind (fun v m' => m' = m ∧ v = .arr ((api.page m).map .obj)) ?_ ?_
  · refine from_await (fun v hv => ⟨rfl, ?_⟩) rfl rfl
    exact (Except.ok.inj hv).symm
  · rintro v m' ⟨rfl, rfl⟩
    refine from_bind (fun items m'' => m'' = m' ∧ items = (api.page m').map .obj) ?_ ?_
    · exact from_ofExcept (fun items h => ⟨rfl, (Except.ok.inj h).symm⟩) rfl
    · rintro items m'' ⟨rfl, rfl⟩
      refine from_ofExcept (fun o h => ⟨rfl, ?_⟩) rfl
      rw [CoreSnapshotManager.firstNamed_rows] at h
      exact (Except.ok.inj h).symm

theorem serve_add : api.serve (.post { action := "core/snapshots/add" } [("name", .str name)]) m =
    api.add name m := by
  simp [serve, Obj.text, Obj.getD]

theorem serve_del {u : String} :
    api.serve (.post { action := "core/snapshots/del", ident := some u } []) m = api.del u m := by
  simp [serve]

theorem serve_activate {u : String} :
    api.serve (.post { action := "core/snapshots/activate", ident := some u } []) m =
      api.activate u m := by
  simp [serve]

theorem add_cases (name : String) (m : Machine γ) :
    (api.add name m).2 = m ∨ m.Created name (api.add name m).2 := by
  unfold add
  split
  · next hname =>
    split
    · exact Or.inr ⟨_, hname, api.fresh_new m, rfl⟩
    · exact Or.inl rfl
  · exact Or.inl rfl

theorem del_cases {e : BootEnv γ} (he : e ∈ m.envs.entries) (hname : e.name = name) :
    (api.del e.uuid m).2 = m ∨ m.Destroyed name (api.del e.uuid m).2 := by
  unfold del
  split
  · next hidle =>
    split
    · exact Or.inl rfl
    · exact Or.inr ⟨e, he, hname, hidle.1, hidle.2, rfl⟩
  · exact Or.inl rfl

theorem activate_eq {e : BootEnv γ} (he : e ∈ m.envs.entries) :
    api.activate e.uuid m = (.ok api.ack, m.stage e.uuid (List.mem_map_of_mem he)) :=
  dif_pos (List.mem_map_of_mem he)

theorem from_create (hnone : (api.page m).find? (CoreSnapshotManager.isNamed name) = none) :
    api.From m (CoreSnapshotManager.create name)
      (fun res m' => (m' = m ∨ m.Created name m') ∧ (res.uuid.isSome → m.Created name m'))
      fun m' => m' = m ∨ m.Created name m' := by
  have hadd : api.From m (await (.post { action := "core/snapshots/add" } [("name", .str name)]))
      (fun _ m' => m' = m ∨ m.Created name m') fun m' => m' = m ∨ m.Created name m' := by
    refine from_await (fun _ _ => ?_) (Or.inl rfl) ?_
    · rw [serve_add]
      exact add_cases name m
    · rw [serve_add]
      exact add_cases name m
  refine from_bind _ (from_logError hadd) fun _ m' hm' => ?_
  refine from_bind _ (from_mono from_find (fun _ _ h => h) fun m'' h => ?_) fun row m'' hrow => ?_
  · rwa [h]
  · obtain ⟨rfl, hrow⟩ := hrow
    refine from_log (from_pure ⟨hm', fun huuid => ?_⟩)
    rcases hm' with rfl | hcreated
    · -- a machine that is as it was still shows no such row
      rw [hrow, hnone] at huuid
      cases huuid
    · exact hcreated

theorem from_delete {e : BootEnv γ} (he : e ∈ m.envs.entries) (hname : e.name = name) :
    api.From m (CoreSnapshotManager.delete name (api.row m e))
      (fun res m' => (m' = m ∨ m.Destroyed name m') ∧ res.action = .deleted)
      fun m' => m' = m ∨ m.Destroyed name m' := by
  have hdel : api.From m (do
      let id ← .ofExcept (CoreSnapshotManager.uuidText (api.row m e))
      await (.post { action := "core/snapshots/del", ident := some id } []))
      (fun _ m' => m' = m ∨ m.Destroyed name m') fun m' => m' = m ∨ m.Destroyed name m' := by
    rw [uuidText_row]
    refine from_await (fun _ _ => ?_) (Or.inl rfl) ?_
    · rw [serve_del]
      exact del_cases he hname
    · rw [serve_del]
      exact del_cases he hname
  exact from_bind _ (from_logError hdel) fun _ m' hm' => from_log (from_pure ⟨hm', rfl⟩)

/-- A call of `ensure` is a step of the machine, and a creation it reports with a uuid took
place. -/
theorem from_ensure (state name : String) (checkMode : Bool) :
    api.From m (CoreSnapshotManager.ensure state name checkMode)
      (fun res m' => (Happening.ensure state name checkMode).Allows m m' ∧
        (res.action = .created → res.uuid.isSome → m.Created name m'))
      fun m' => (Happening.ensure state name checkMode).Allows m m' := by
  unfold CoreSnapshotManager.ensure
  split
  · exact from_raise (Or.inl rfl)
  · next hstate =>
    refine from_bind _ (from_mono from_find (fun _ _ h => h) fun _ h => Or.inl h) ?_
    rintro existing m' ⟨rfl, hfound⟩
    split
    · next hpresent =>
      cases existing with
      | some row => exact from_pure ⟨Or.inl rfl, fun hcreated => by cases hcreated⟩
      | none =>
        cases checkMode with
        | true => exact from_pure ⟨Or.inl rfl, fun _ huuid => by cases huuid⟩
        | false =>
          have hstep : ∀ {m''}, m'' = m' ∨ m'.Created name m'' →
              (Happening.ensure state name false).Allows m' m'' := fun h =>
            h.imp_right fun hcreated => ⟨rfl, Or.inl ⟨hpresent, hcreated⟩⟩
          exact from_mono (from_create hfound.symm) (fun _ _ h => ⟨hstep h.1, fun _ => h.2⟩)
            fun _ h => hstep h
    · next hpresent =>
      have habsent : state = "absent" := by
        by_contra hne
        exact hstate ⟨hpresent, hne⟩
      cases existing with
      | none => exact from_pure ⟨Or.inl rfl, fun hcreated => by cases hcreated⟩
      | some row =>
        cases checkMode with
        | true => exact from_pure ⟨Or.inl rfl, fun hcreated => by cases hcreated⟩
        | false =>
          obtain ⟨e, he, hname, rfl⟩ := row_of_find hfound.symm
          have hstep : ∀ {m''}, m'' = m' ∨ m'.Destroyed name m'' →
              (Happening.ensure state name false).Allows m' m'' := fun h =>
            h.imp_right fun hdestroyed => ⟨rfl, Or.inr ⟨habsent, hdestroyed⟩⟩
          refine from_mono (from_delete he hname)
            (fun res _ h => ⟨hstep h.1, fun hcreated => ?_⟩) fun _ h => hstep h
          rw [h.2] at hcreated
          cases hcreated

/-- A call of `activate` is a step of the machine; once it returns, the machine boots the
environment of that name next. -/
theorem from_activate (name : String) (checkMode : Bool) :
    api.From m (CoreSnapshotManager.activate name checkMode)
      (fun _ m' => (Happening.activate name checkMode).Allows m m' ∧ (checkMode = false →
        ∃ e ∈ m'.envs.entries, e.name = name ∧ e.uuid = m'.next))
      fun m' => (Happening.activate name checkMode).Allows m m' := by
  refine from_bind _ (from_mono from_find (fun _ _ h => h) fun _ h => Or.inl h) ?_
  rintro existing m' ⟨rfl, hfound⟩
  cases existing with
  | none => exact from_raise (Or.inl rfl)
  | some row =>
    obtain ⟨e, he, hname, rfl⟩ := row_of_find hfound.symm
    simp only [api.row_active]
    split
    · next hnext =>
      exact from_pure ⟨Or.inl rfl, fun _ => ⟨e, he, hname, by simpa using hnext⟩⟩
    · split
      · next hcheck =>
        refine from_bind (fun _ m'' => m'' = m') (from_ofExcept (fun _ _ => rfl)
          (Or.inl rfl)) ?_
        rintro uuid m'' rfl
        exact from_pure ⟨Or.inl rfl, fun hno => absurd (hcheck.symm.trans hno) (by decide)⟩
      · next hcheck =>
        have hstaged : (Happening.activate name checkMode).Allows m'
            (m'.stage e.uuid (List.mem_map_of_mem he)) :=
          Or.inr ⟨by simpa using hcheck, e, he, hname, _, rfl⟩
        have hpost : api.From m' (do
            let id ← .ofExcept (CoreSnapshotManager.uuidText (api.row m' e))
            await (.post { action := "core/snapshots/activate", ident := some id } []))
            (fun _ m'' => m'' = m'.stage e.uuid (List.mem_map_of_mem he))
            fun m'' => (Happening.activate name checkMode).Allows m' m'' := by
          rw [uuidText_row]
          refine from_await (fun _ _ => ?_) (Or.inl rfl) ?_
          · rw [serve_activate, activate_eq he]
          · rw [serve_activate, activate_eq he]
            exact hstaged
        refine from_bind _ (from_logError hpost) ?_
        rintro _ m'' rfl
        refine from_log (from_bind (fun _ m''' => m''' =
          m'.stage e.uuid (List.mem_map_of_mem he)) (from_ofExcept (fun _ _ => rfl) hstaged) ?_)
        rintro uuid m''' rfl
        exact from_pure ⟨hstaged, fun _ => ⟨e, he, hname, rfl⟩⟩

/-- What a call leaves behind, however it ends. -/
theorem left_by_run {α : Type} {p : M α} {I : Machine γ → Prop}
    {S : Machine γ × List (Fault Exc)} (h : api.From S.1 p (fun _ => I) I) :
    I (p.run api.network S).2.1 := by
  have hleft := h S rfl
  rcases heq : p.run api.network S with ⟨_ | _, S'⟩ <;> rwa [heq] at hleft

theorem from_isSupported : api.From m CoreSnapshotManager.isSupported (fun _ m' => m' = m)
    fun m' => m' = m := by
  have hasks : CoreSnapshotManager.isSupported.Asks BaseManager.ReadOnly := by
    refine Prog.asks_bind (Prog.asks_rescue ?_ fun _ => trivial) fun body => ?_
    · exact Prog.asks_bind ((asks_await _).mpr rfl) fun _ => trivial
    · cases body with
      | none =>
        exact Prog.asks_rescue (Prog.asks_bind ((asks_await _).mpr rfl) fun _ => trivial)
          fun _ => trivial
      | some body => exact Prog.asks_bind (Prog.asks_ofExcept _) fun _ => trivial
  refine Prog.triple_of_asks hasks fun q S hq hS => ?_
  refine faulty_preserves (I := fun m' => m' = m) (fun m' hm' => ?_) S hS
  cases q with
  | get => exact hm'
  | search => exact hm'
  | post | create | update | delete | reconfigure => cases hq

/-- Whatever its requests run into, a happening is a step of the machine. -/
theorem happen_allows (h : Happening γ) (S : Machine γ × List (Fault Exc)) :
    h.Allows S.1 (api.happen h S).1 := by
  cases h with
  | isSupported => exact left_by_run from_isSupported
  | ensure state name checkMode =>
    exact left_by_run (from_mono (from_ensure state name checkMode) (fun _ _ h => h.1)
      fun _ h => h)
  | activate name checkMode =>
    exact left_by_run (from_mono (from_activate name checkMode) (fun _ _ h => h.1)
      fun _ h => h)
  | configure change => rfl
  | reboot => rfl

theorem history_keeps {P : Machine γ → Prop} {hs : List (Happening γ)}
    (hstep : ∀ h ∈ hs, ∀ m m', P m → h.Allows m m' → P m') {S : Machine γ × List (Fault Exc)}
    (hS : P S.1) : P (api.history hs S).1 := by
  induction hs generalizing S with
  | nil => exact hS
  | cons h rest ih =>
    refine ih (fun h' hh' => hstep h' (List.mem_cons_of_mem _ hh')) ?_
    exact hstep h List.mem_cons_self S.1 _ hS (happen_allows h S)

/-- What a call that returned left behind. -/
theorem post_of_run {α : Type} {p : M α} {post : α → Machine γ → Prop} {fail : Machine γ → Prop}
    {S : Machine γ × List (Fault Exc)} {a : α} (h : api.From S.1 p post fail)
    (hrun : (p.run api.network S).1 = .ok a) : post a (p.run api.network S).2.1 := by
  have hpost := h S rfl
  rcases heq : p.run api.network S with ⟨o, S'⟩
  rw [heq] at hpost hrun
  obtain rfl : o = .ok a := hrun
  exact hpost

section Sample

/-- A server of plain rows. -/
def plainSnapshots : SnapshotServer ℕ where
  row m e := [("uuid", .str e.uuid), ("name", .str e.name),
    ("active", .str (if e.uuid = m.next then "N" else "-"))]
  fresh m := String.ofList
    (List.replicate ((m.envs.entries.map fun e => e.uuid.length).sum + 1) 'x')
  admits _ _ := true
  keeps _ _ := false
  ack := .obj [("status", .str "ok")]
  refused := .ok (.obj [("status", .str "failed")])
  row_uuid _ _ := rfl
  row_name _ _ := rfl
  row_active m e := by
    change (pyStr (.str (if e.uuid = m.next then "N" else "-"))).toList.contains 'N' = _
    by_cases h : e.uuid = m.next
    · simp [h]
    · simp [h]
  fresh_new m e he h := by
    have hlen : e.uuid.length = (m.envs.entries.map fun e => e.uuid.length).sum + 1 := by
      rw [h]
      simp
    have hle : e.uuid.length ≤ (m.envs.entries.map fun e => e.uuid.length).sum :=
      List.single_le_sum (by simp) _ (List.mem_map_of_mem he)
    omega

def installed : Machine ℕ where
  envs := { entries := [⟨"d", "default", 7⟩], nodup := by decide }
  running := "d"
  next := "d"
  named := by decide
  runs := by decide
  boots := by decide

end Sample

end SnapshotServer
end Opnsense
