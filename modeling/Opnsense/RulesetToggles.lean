import Opnsense.IdsRuleset
import Opnsense.Interaction.Faults

namespace Opnsense
open Interaction BaseManager

namespace IdsRulesetManager

/-- How a row shows its flag. -/
inductive Rendering where
  | text | int | bool
  deriving DecidableEq, Repr

def Rendering.show (rendering : Rendering) (enabled : Bool) : Json :=
  match rendering with
  | text => .str (flag enabled)
  | int => .int (if enabled then 1 else 0)
  | bool => .bool enabled

/-- An entry of the catalogue; `others` are the fields that nothing here reads. -/
structure Ruleset where
  filename : String
  enabled : Bool
  rendering : Rendering
  others : Obj

def Ruleset.row (r : Ruleset) : Obj :=
  (r.others.set "filename" (.str r.filename)).set "enabled" (r.rendering.show r.enabled)

def Ruleset.switch (r : Ruleset) (want : Option Bool) : Ruleset :=
  { r with enabled := want.getD r.enabled }

structure Catalogue where
  rulesets : List Ruleset
  distinct : (rulesets.map Ruleset.filename).Nodup

namespace Catalogue

variable (c : Catalogue)

def find (filename : String) : Option Ruleset :=
  c.rulesets.find? fun r => r.filename == filename

def state (filename : String) : Option Bool := (c.find filename).map Ruleset.enabled

def known (filename : String) : Prop := c.state filename ≠ none

/-- The catalogue with the given flags, and no other entry touched. -/
def switched (flags : List (String × Bool)) : Catalogue where
  rulesets := c.rulesets.map fun r => r.switch (flags.lookup r.filename)
  distinct := by
    rw [List.map_map]
    exact c.distinct

/-- The desired flags that differ from the state. -/
def wanted (desired : List (String × Bool)) : List (String × Bool) :=
  desired.filter fun fw => c.state fw.1 != some fw.2

end Catalogue

/-- The appliance: a list of rows, a flag in the last segment of a toggle, an apply. -/
def catalogueServer : Appliance Catalogue
  | .get ep _, c =>
    (.ok (if ep = { action := endpoint ++ "/listRulesets" } then
      .obj [("rows", .arr (c.rulesets.map fun r => .obj r.row))] else .obj []), c)
  | .post ep _ _, c =>
    let toggled := c.rulesets.find? fun r => (toggleEndpoint r.filename "").action == ep.action
    (.ok (.obj [("result", .str "saved")]),
      match toggled with
      | some r => c.switched [(r.filename, ep.ident == some "1")]
      | none => c)
  | _, c => (.ok (.obj [("status", .str "ok")]), c)

/-- The appliance behind a network: each request may be answered, or fail unseen, or fail once it
was acted on. -/
abbrev faultyCatalogue : Appliance (Catalogue × List (Fault Exc)) :=
  faulty Except.error catalogueServer

def toggleRequests (flags : List (String × Bool)) : List Request :=
  flags.map fun fw => .post (toggleEndpoint fw.1 (flag fw.2)) []

section Run

variable (desired : List (String × Bool)) (applies : Bool) (c : Catalogue)
  (faults : List (Fault Exc))

def outcome : Except Exc EnsureResult :=
  ((ensureMany desired false applies).run faultyCatalogue (c, faults)).1

/-- The catalogue that a call leaves. -/
def left : Catalogue := ((ensureMany desired false applies).run faultyCatalogue (c, faults)).2.1

/-- The toggles that a call sends. -/
def sent : List Request :=
  (((ensureMany desired false applies).trace faultyCatalogue (c, faults)).map
    Prod.fst).filter Request.isWrite

/-- Toggling as promised. With a filename that the catalogue does not have, nothing is toggled.
Otherwise, whatever fails, the catalogue has the first flags of those that differ, each toggled once
and in order, with at most one more toggle lost on its way; a call that returns has toggled them
all, and a call behind it toggles the rest. -/
def TogglesRight : Prop :=
  ((∃ fw ∈ desired, ¬ c.known fw.1) → ∀ faults,
    sent desired applies c faults = [] ∧ left desired applies c faults = c ∧
      ∀ r, outcome desired applies c faults ≠ .ok r) ∧
  ((∀ fw ∈ desired, c.known fw.1) → ∀ faults, ∃ done rest,
    c.wanted desired = done ++ rest ∧ left desired applies c faults = c.switched done ∧
    (sent desired applies c faults = toggleRequests done ∨
      ∃ fw rest', rest = fw :: rest' ∧
        sent desired applies c faults = toggleRequests (done ++ [fw])) ∧
    ((∃ r, outcome desired applies c faults = .ok r) →
      sent desired applies c faults = toggleRequests (c.wanted desired) ∧ rest = [] ∧
        left desired applies c faults = c.switched desired) ∧
    let c' := left desired applies c faults
    sent desired applies c' [] = toggleRequests rest ∧
      left desired applies c' [] = c.switched desired ∧ ∃ r, outcome desired applies c' [] = .ok r)

end Run

namespace Catalogue

variable {c : Catalogue} {filename : String} {r : Ruleset} {flags : List (String × Bool)}

theorem ext {c' : Catalogue} (h : c.rulesets = c'.rulesets) : c = c' := by
  cases c
  cases c'
  cases h
  rfl

theorem find_filename (h : c.find filename = some r) : r.filename = filename := by
  simpa using List.find?_some h

theorem find_of_mem (h : r ∈ c.rulesets) : c.find r.filename = some r := by
  cases hfind : c.find r.filename with
  | none => exact absurd (List.find?_eq_none.mp hfind r h) (by simp)
  | some r' =>
    have hmem : r' ∈ c.rulesets := List.mem_of_find?_eq_some hfind
    rw [List.inj_on_of_nodup_map c.distinct hmem h (find_filename hfind)]

theorem find_switched : (c.switched flags).find filename =
    (c.find filename).map fun r => r.switch (flags.lookup filename) := by
  have hname : ((fun r : Ruleset => r.filename == filename) ∘
      fun r : Ruleset => r.switch (flags.lookup r.filename)) =
      fun r => r.filename == filename := rfl
  simp only [find, switched, List.find?_map, hname]
  cases hfind : c.rulesets.find? fun r => r.filename == filename with
  | none => rfl
  | some r =>
    have hfound : r.filename = filename := by simpa using List.find?_some hfind
    simp only [Option.map_some, hfound]

theorem state_switched : (c.switched flags).state filename =
    (c.state filename).map fun enabled => (flags.lookup filename).getD enabled := by
  rw [state, state, find_switched]
  cases c.find filename <;> rfl

@[simp] theorem known_switched : (c.switched flags).known filename ↔ c.known filename := by
  rw [known, known, state_switched, ne_eq, Option.map_eq_none_iff]

@[simp] theorem switched_nil : c.switched [] = c := by
  apply ext
  exact List.map_id' c.rulesets

theorem lookup_of_notMem (h : filename ∉ flags.map (·.1)) : flags.lookup filename = none := by
  rw [List.lookup_eq_none_iff]
  intro fw hfw
  have hne : filename ≠ fw.1 := by
    rintro rfl
    exact h (List.mem_map_of_mem hfw)
  simpa using hne

/-- Toggles of different entries are made together. -/
theorem switched_append {flags' : List (String × Bool)}
    (h : ∀ fw ∈ flags', fw.1 ∉ flags.map (·.1)) :
    (c.switched flags).switched flags' = c.switched (flags ++ flags') := by
  apply ext
  simp only [switched, List.map_map]
  apply List.map_congr_left
  intro r _
  simp only [Function.comp, Ruleset.switch, List.lookup_append]
  cases hfirst : flags.lookup r.filename with
  | none => simp
  | some want =>
    have hnone : flags'.lookup r.filename = none := by
      apply lookup_of_notMem
      intro hmem
      obtain ⟨fw, hfw, hname⟩ := List.mem_map.mp hmem
      have hnew := h fw hfw
      rw [hname] at hnew
      rw [lookup_of_notMem hnew] at hfirst
      cases hfirst
    simp [hnone]

theorem lookup_filter {p : String × Bool → Bool} (hnodup : (flags.map (·.1)).Nodup) :
    (flags.filter p).lookup filename = (flags.lookup filename).filter fun want =>
      p (filename, want) := by
  induction flags with
  | nil => rfl
  | cons fw flags ih =>
    obtain ⟨name, want⟩ := fw
    obtain ⟨hnew, hrest⟩ := List.nodup_cons.mp hnodup
    rw [List.filter_cons, List.lookup_cons]
    by_cases hname : filename = name
    · subst hname
      rw [beq_self_eq_true]
      have hnone : (flags.filter p).lookup filename = none := by
        apply lookup_of_notMem
        exact fun hmem => hnew ((List.filter_sublist.map _).subset hmem)
      cases hp : p (filename, want) <;> simp [hp, hnone, Option.filter_some]
    · rw [beq_eq_false_iff_ne.mpr hname]
      split
      · rw [List.lookup_cons, beq_eq_false_iff_ne.mpr hname]
        exact ih hrest
      · exact ih hrest

variable {desired : List (String × Bool)}

/-- To set the flags that differ is to set them all. -/
theorem switched_wanted (hnodup : (desired.map (·.1)).Nodup) :
    c.switched (c.wanted desired) = c.switched desired := by
  apply ext
  apply List.map_congr_left
  intro r hr
  have hstate : c.state r.filename = some r.enabled := by rw [state, find_of_mem hr]; rfl
  rw [wanted, lookup_filter hnodup]
  cases desired.lookup r.filename with
  | none => rfl
  | some want =>
    by_cases hwant : r.enabled = want
    · subst hwant
      simp [hstate, Ruleset.switch, Option.filter_some]
    · simp [hstate, hwant, Option.filter_some]

/-- Once the first flags are set, the others are what is wanted. -/
theorem wanted_switched (hnodup : (desired.map (·.1)).Nodup) (hknown : ∀ fw ∈ desired, c.known fw.1)
    {done rest : List (String × Bool)} (hsplit : c.wanted desired = done ++ rest) :
    (c.switched done).wanted desired = rest := by
  have hdone : ∀ fw ∈ done, fw ∈ desired := fun fw hfw =>
    List.mem_of_mem_filter (hsplit ▸ List.mem_append_left rest hfw : fw ∈ c.wanted desired)
  have hkeys : ((done ++ rest).map (·.1)).Nodup := by
    rw [← hsplit]
    exact hnodup.sublist (List.filter_sublist.map _)
  have hrest : (done ++ rest).filter (fun fw => decide (fw.1 ∉ done.map (·.1))) = rest := by
    rw [List.map_append, List.nodup_append] at hkeys
    rw [List.filter_append, List.filter_eq_nil_iff.mpr, List.filter_eq_self.mpr, List.nil_append]
    · intro fw hfw
      rw [decide_eq_true_eq]
      exact fun hmem => hkeys.2.2 fw.1 hmem fw.1 (List.mem_map_of_mem hfw) rfl
    · intro fw hfw
      rw [decide_eq_true_eq, not_not]
      exact List.mem_map_of_mem hfw
  rw [← hrest, ← hsplit, wanted, wanted, List.filter_filter]
  apply List.filter_congr
  intro fw hfw
  obtain ⟨enabled, henabled⟩ := Option.ne_none_iff_exists'.mp (hknown fw hfw)
  rw [state_switched, henabled]
  by_cases hmem : fw.1 ∈ done.map (·.1)
  · have hlookup : done.lookup fw.1 = some fw.2 := by
      rcases hset : done.lookup fw.1 with _ | want
      · obtain ⟨fw', hfw', hname⟩ := List.mem_map.mp hmem
        exact absurd (List.lookup_eq_none_iff.mp hset fw' hfw') (by simp [hname])
      · obtain ⟨before, after, hdoneEq, -⟩ := List.lookup_eq_some_iff.mp hset
        have hpair : (fw.1, want) ∈ done := by
          rw [hdoneEq]
          exact List.mem_append_right _ List.mem_cons_self
        rw [← List.inj_on_of_nodup_map hnodup (hdone _ hpair) hfw rfl]
    simp [hlookup, hmem]
  · rw [lookup_of_notMem hmem]
    simp [hmem]

end Catalogue

theorem flag_inj {b b' : Bool} : flag b = flag b' ↔ b = b' := by
  cases b <;> cases b' <;> decide

theorem action_toggleEndpoint_inj {filename filename' text text' : String} :
    (toggleEndpoint filename text).action = (toggleEndpoint filename' text').action ↔
      filename = filename' := by
  constructor
  · intro h
    have hlist := congrArg String.toList h
    simp only [toggleEndpoint, String.toList_append] at hlist
    exact String.toList_inj.mp (List.append_cancel_left hlist)
  · rintro rfl
    rfl

/-- A toggle sets the flag of the entry that it names. -/
theorem serve_toggle {c : Catalogue} {filename : String} (h : c.known filename) (want : Bool) :
    catalogueServer (.post (toggleEndpoint filename (flag want)) []) c =
      (.ok (.obj [("result", .str "saved")]), c.switched [(filename, want)]) := by
  have hfind : (c.rulesets.find? fun r => (toggleEndpoint r.filename "").action ==
      (toggleEndpoint filename (flag want)).action) = c.find filename := by
    apply congrArg (fun p => List.find? p c.rulesets)
    funext r
    rw [Bool.eq_iff_iff, beq_iff_eq, beq_iff_eq, action_toggleEndpoint_inj]
  have hflag : (some (flag want) == some "1") = want := by cases want <;> rfl
  rw [Catalogue.known, Catalogue.state, ne_eq, Option.map_eq_none_iff] at h
  obtain ⟨r, hr⟩ := Option.ne_none_iff_exists'.mp h
  simp only [catalogueServer, hfind, hr]
  rw [Catalogue.find_filename hr, show (toggleEndpoint filename (flag want)).ident =
    some (flag want) from rfl, hflag]

section Toggles

variable {c : Catalogue} {flags : List (String × Bool)} {faults : List (Fault Exc)}

/-- What sending `flags` one by one comes to: `done` were acted on, and at most one more was
sent. -/
structure Toggled (c : Catalogue) (flags done rest : List (String × Bool)) (failed : Bool)
    (c' : Catalogue) (requests : List Request) : Prop where
  split : flags = done ++ rest
  left : c' = c.switched done
  sent : requests = toggleRequests done ∨
    ∃ fw rest', rest = fw :: rest' ∧ requests = toggleRequests (done ++ [fw])
  returned : failed = false → rest = [] ∧ requests = toggleRequests flags

def flagsOf (flags : List (String × Bool)) : List (String × String) :=
  flags.map fun fw => (fw.1, flag fw.2)

theorem known_of_toggled (fw : String × Bool) (hknown : ∀ fw ∈ flags, c.known fw.1) :
    ∀ fw' ∈ flags, (c.switched [fw]).known fw'.1 := fun fw' hfw' =>
  Catalogue.known_switched.mpr (hknown fw' hfw')

/-- A toggle that was answered goes before the others. -/
theorem Toggled.cons {fw : String × Bool} {done rest : List (String × Bool)} {failed : Bool}
    {c' : Catalogue} {requests : List Request} (hnew : fw.1 ∉ flags.map (·.1))
    (h : Toggled (c.switched [fw]) flags done rest failed c' requests) :
    Toggled c (fw :: flags) (fw :: done) rest failed c' (toggleRequests [fw] ++ requests) where
  split := by rw [h.split, List.cons_append]
  left := by
    rw [h.left, Catalogue.switched_append, List.singleton_append]
    intro fw' hfw' hmem
    rw [h.split, List.map_append] at hnew
    rw [List.map_singleton, List.mem_singleton] at hmem
    exact hnew (hmem ▸ List.mem_append_left _ (List.mem_map_of_mem hfw'))
  sent := by
    rcases h.sent with hsent | ⟨fw', rest', hrest, hsent⟩
    · exact Or.inl (by rw [hsent]; rfl)
    · exact Or.inr ⟨fw', rest', hrest, by rw [hsent]; rfl⟩
  returned hfailed := by
    obtain ⟨hrest, hsent⟩ := h.returned hfailed
    exact ⟨hrest, by rw [hsent]; rfl⟩

theorem toggleAll_answered {fw : String × Bool} {v : Json} {S S' : Catalogue × List (Fault Exc)}
    (h : faultyCatalogue (.post (toggleEndpoint fw.1 (flag fw.2)) []) S = (.ok v, S')) :
    (toggleAll (flagsOf (fw :: flags))).run faultyCatalogue S =
      (toggleAll (flagsOf flags)).run faultyCatalogue S' ∧
    ((toggleAll (flagsOf (fw :: flags))).trace faultyCatalogue S).map Prod.fst =
      toggleRequests [fw] ++
        ((toggleAll (flagsOf flags)).trace faultyCatalogue S').map Prod.fst := by
  have hrun : (await (.post (toggleEndpoint fw.1 (flag fw.2)) [])).run faultyCatalogue S =
      (.ok v, S') := by rw [run_await, h]
  have htrace := @trace_await _ faultyCatalogue S (.post (toggleEndpoint fw.1 (flag fw.2)) [])
  refine ⟨Prog.run_bind_of_ok hrun _, ?_⟩
  rw [flagsOf, List.map_cons, toggleAll, Prog.trace_bind_of_ok hrun, htrace, List.map_append]
  rfl

theorem toggleAll_failed {fw : String × Bool} {e : Exc} {S S' : Catalogue × List (Fault Exc)}
    (h : faultyCatalogue (.post (toggleEndpoint fw.1 (flag fw.2)) []) S = (.error e, S')) :
    (toggleAll (flagsOf (fw :: flags))).run faultyCatalogue S = (.error e, S') ∧
    ((toggleAll (flagsOf (fw :: flags))).trace faultyCatalogue S).map Prod.fst =
      toggleRequests [fw] := by
  have hrun : (await (.post (toggleEndpoint fw.1 (flag fw.2)) [])).run faultyCatalogue S =
      (.error e, S') := by rw [run_await, h]
  have htrace := @trace_await _ faultyCatalogue S (.post (toggleEndpoint fw.1 (flag fw.2)) [])
  refine ⟨Prog.run_bind_of_error hrun _, ?_⟩
  rw [flagsOf, List.map_cons, toggleAll, Prog.trace_bind_of_error hrun, htrace]
  rfl

/-- By induction on the toggles: the first of them is answered, or it ends the sequence. -/
theorem run_toggleAll (hnodup : (flags.map (·.1)).Nodup) (hknown : ∀ fw ∈ flags, c.known fw.1)
    (faults : List (Fault Exc)) :
    let final := (toggleAll (flagsOf flags)).run faultyCatalogue (c, faults)
    let requests := ((toggleAll (flagsOf flags)).trace faultyCatalogue (c, faults)).map Prod.fst
    (∃ done rest, Toggled c flags done rest final.1.isOk.not final.2.1 requests) ∧
      (faults = [] → final.1.isOk = true ∧ final.2.2 = []) := by
  induction flags generalizing c faults with
  | nil =>
    refine ⟨⟨[], [], rfl, Catalogue.switched_nil.symm, Or.inl rfl, fun _ => ⟨rfl, rfl⟩⟩, ?_⟩
    rintro rfl
    exact ⟨rfl, rfl⟩
  | cons fw flags ih =>
    obtain ⟨hnew, hrest⟩ := List.nodup_cons.mp hnodup
    have hserve := serve_toggle (hknown fw List.mem_cons_self) fw.2
    have hlater := ih hrest (known_of_toggled fw fun fw' hfw' =>
      hknown fw' (List.mem_cons_of_mem _ hfw'))
    -- the toggle is answered, with the schedule `later` behind it
    have hanswered : ∀ later,
        faultyCatalogue (.post (toggleEndpoint fw.1 (flag fw.2)) []) (c, faults) =
          (.ok (.obj [("result", .str "saved")]), c.switched [fw], later) →
        let final := (toggleAll (flagsOf (fw :: flags))).run faultyCatalogue (c, faults)
        let requests := ((toggleAll (flagsOf (fw :: flags))).trace faultyCatalogue
          (c, faults)).map Prod.fst
        (∃ done rest, Toggled c (fw :: flags) done rest final.1.isOk.not final.2.1 requests) ∧
          (later = [] → final.1.isOk = true ∧ final.2.2 = []) := by
      intro later hreply
      obtain ⟨hrun, htrace⟩ := @toggleAll_answered flags fw _ _ _ hreply
      obtain ⟨⟨done, rest, h⟩, hserved⟩ := hlater later
      rw [hrun, htrace]
      exact ⟨⟨fw :: done, rest, h.cons hnew⟩, hserved⟩
    -- or it fails, and `done` says whether it was acted on
    have hfailed : ∀ e S' done rest, fw :: flags = done ++ rest → S'.1 = c.switched done →
        (toggleRequests [fw] = toggleRequests done ∨
          ∃ fw' rest', rest = fw' :: rest' ∧ toggleRequests [fw] = toggleRequests (done ++ [fw'])) →
        faultyCatalogue (.post (toggleEndpoint fw.1 (flag fw.2)) []) (c, faults) =
          (.error e, S') →
        let final := (toggleAll (flagsOf (fw :: flags))).run faultyCatalogue (c, faults)
        let requests := ((toggleAll (flagsOf (fw :: flags))).trace faultyCatalogue
          (c, faults)).map Prod.fst
        ∃ done rest, Toggled c (fw :: flags) done rest final.1.isOk.not final.2.1 requests := by
      intro e S' done rest hsplit hleft hsent hreply
      obtain ⟨hrun, htrace⟩ := @toggleAll_failed flags fw _ _ _ hreply
      rw [hrun, htrace]
      exact ⟨done, rest, hsplit, hleft, hsent, fun h => by cases h⟩
    rcases faults with _ | ⟨fault, faults⟩
    · obtain ⟨htoggled, hserved⟩ := hanswered [] (by simp only [faulty, hserve])
      exact ⟨htoggled, fun _ => hserved rfl⟩
    · refine ⟨?_, fun h => by cases h⟩
      cases fault with
      | served => exact (hanswered faults (by simp only [faulty, hserve])).1
      | lost e =>
        exact hfailed e (c, faults) [] (fw :: flags) rfl Catalogue.switched_nil.symm
          (Or.inr ⟨fw, flags, rfl, rfl⟩) rfl
      | cut e =>
        exact hfailed e (c.switched [fw], faults) [fw] flags rfl rfl (Or.inl rfl)
          (by simp only [faulty, hserve])

end Toggles

section Send

variable {c : Catalogue} {flags : List (String × Bool)}

@[simp] theorem filter_toggleRequests (flags : List (String × Bool)) :
    (toggleRequests flags).filter Request.isWrite = toggleRequests flags := by
  rw [List.filter_eq_self]
  intro q hq
  obtain ⟨fw, -, rfl⟩ := List.mem_map.mp hq
  rfl

theorem Toggled.filter {done rest : List (String × Bool)} {failed : Bool} {c' : Catalogue}
    {requests : List Request} (h : Toggled c flags done rest failed c' requests) :
    requests.filter Request.isWrite = requests := by
  rcases h.sent with hsent | ⟨fw, rest', -, hsent⟩
  · rw [hsent, filter_toggleRequests]
  · rw [hsent, filter_toggleRequests]

/-- What stands behind the toggles. -/
def applyAfter (applies : Bool) : M Unit := do
  if applies then
    let _ ← await (.reconfigure applyEndpoint { timeout := some 120 })
  else return ()

/-- The apply is no toggle and changes no flag, whether it fails or not. -/
theorem run_applyAfter (applies : Bool) (S : Catalogue × List (Fault Exc)) :
    ((applyAfter applies).run faultyCatalogue S).2.1 = S.1 ∧
      (((applyAfter applies).trace faultyCatalogue S).map Prod.fst).filter Request.isWrite = [] ∧
      (S.2 = [] → ((applyAfter applies).run faultyCatalogue S).1.isOk = true) := by
  obtain ⟨c, faults⟩ := S
  cases applies with
  | false => exact ⟨rfl, rfl, fun _ => rfl⟩
  | true =>
    rcases faults with _ | ⟨fault, faults⟩
    · exact ⟨rfl, rfl, fun _ => rfl⟩
    · cases fault with
      | served => exact ⟨rfl, rfl, fun h => by cases h⟩
      | lost e => exact ⟨rfl, rfl, fun h => by cases h⟩
      | cut e => exact ⟨rfl, rfl, fun h => by cases h⟩

theorem run_send (hnodup : (flags.map (·.1)).Nodup) (hknown : ∀ fw ∈ flags, c.known fw.1)
    (applies : Bool) (faults : List (Fault Exc)) :
    let final := (send (flagsOf flags) applies).run faultyCatalogue (c, faults)
    let requests := (((send (flagsOf flags) applies).trace faultyCatalogue (c, faults)).map
      Prod.fst).filter Request.isWrite
    (∃ done rest, Toggled c flags done rest final.1.isOk.not final.2.1 requests) ∧
      (faults = [] → final.1.isOk = true) := by
  obtain ⟨⟨done, rest, htoggled⟩, hserved⟩ := run_toggleAll hnodup hknown faults
  have hfilter := htoggled.filter
  have hsend : send (flagsOf flags) applies = Prog.rescue
      (toggleAll (flagsOf flags) >>= fun _ => applyAfter applies) _ := rfl
  rw [hsend, Prog.run_rescue, Prog.trace_rescue]
  rcases htoggles : (toggleAll (flagsOf flags)).run faultyCatalogue (c, faults) with ⟨e | u, S⟩
  · -- a toggle failed: nothing is applied, and the handler raises
    rw [htoggles] at htoggled hserved
    rw [Prog.run_bind_of_error htoggles, Prog.trace_bind_of_error htoggles]
    simp only [Prog.run_emit, Prog.run_raise, Prog.trace_emit, Prog.trace_raise, List.append_nil]
    refine ⟨⟨done, rest, ?_⟩, fun hnone => ?_⟩
    · rw [hfilter]
      exact htoggled
    · cases (hserved hnone).1
  · rw [htoggles] at htoggled hserved
    obtain ⟨hrest, hsent⟩ := htoggled.returned rfl
    obtain ⟨hleft, hquiet, hok⟩ := run_applyAfter applies S
    rw [Prog.run_bind_of_ok htoggles, Prog.trace_bind_of_ok htoggles]
    rcases happly : (applyAfter applies).run faultyCatalogue S with ⟨e | u', S'⟩
    · have hsame : S'.1 = S.1 := by rw [happly] at hleft; exact hleft
      rw [happly] at hok
      simp only [Prog.run_emit, Prog.run_raise, Prog.trace_emit, Prog.trace_raise, List.append_nil,
        List.map_append, List.filter_append, hquiet, hfilter]
      refine ⟨⟨done, rest, htoggled.split, hsame.trans htoggled.left, htoggled.sent, ?_⟩,
        fun hnone => ?_⟩
      · intro hfailed
        cases hfailed
      · cases hok (hserved hnone).2
    · have hsame : S'.1 = S.1 := by rw [happly] at hleft; exact hleft
      simp only [List.append_nil, List.map_append, List.filter_append, hquiet, hfilter]
      exact ⟨⟨done, rest, htoggled.split, hsame.trans htoggled.left, htoggled.sent,
        htoggled.returned⟩, fun _ => rfl⟩

end Send

namespace Catalogue

/-- The text of the flag that a row shows. -/
def shownText (c : Catalogue) (filename : String) : String :=
  match c.find filename with
  | some r => pyStr (r.rendering.show r.enabled)
  | none => ""

/-- The desired flags whose text is another one than the row shows. -/
def due (c : Catalogue) (desired : List (String × Bool)) : List (String × Bool) :=
  desired.filter fun fw => c.shownText fw.1 != flag fw.2

end Catalogue

section Rows

variable {c : Catalogue} {desired : List (String × Bool)}

theorem pyStr_show {rendering : Rendering} (h : rendering ≠ .bool) (enabled : Bool) :
    pyStr (rendering.show enabled) = flag enabled := by
  cases rendering with
  | text => rfl
  | int => cases enabled <;> rfl
  | bool => exact absurd rfl h

/-- A native bool reads `True` or `False`, which is no flag. -/
theorem pyStr_bool_ne_flag (enabled want : Bool) :
    pyStr (Rendering.bool.show enabled) ≠ flag want := by
  cases enabled <;> cases want <;> decide

theorem states_rows {rulesets : List Ruleset} (hnodup : (rulesets.map Ruleset.filename).Nodup)
    (acc : Obj) : ∃ rows, states (rulesets.map Ruleset.row) acc = .ok rows ∧
      ∀ filename, rows.lookup filename =
        ((rulesets.find? fun r => r.filename == filename).map fun r =>
          Json.str (pyStr (r.rendering.show r.enabled))).or (acc.lookup filename) := by
  induction rulesets generalizing acc with
  | nil => exact ⟨acc, rfl, fun filename => rfl⟩
  | cons r rulesets ih =>
    obtain ⟨hnew, hrest⟩ := List.nodup_cons.mp hnodup
    have hname : r.row.getD "filename" .null = .str r.filename := by
      rw [Obj.getD, Ruleset.row, Obj.lookup_set_of_ne _ (by decide), Obj.lookup_set_self]
      rfl
    have hflag : r.row.getD "enabled" (.str "0") = r.rendering.show r.enabled := by
      rw [Obj.getD, Ruleset.row, Obj.lookup_set_self]
      rfl
    obtain ⟨rows, hrows, hlookup⟩ :=
      ih hrest (acc.set r.filename (.str (pyStr (r.rendering.show r.enabled))))
    refine ⟨rows, ?_, fun filename => ?_⟩
    · rw [List.map_cons, states, hflag, hname]
      exact hrows
    · rw [hlookup, List.find?_cons]
      by_cases hfilename : r.filename = filename
      · -- the filename occurs once, so no later row wins over this one
        have hnone : (rulesets.find? fun r => r.filename == filename) = none := by
          rw [List.find?_eq_none]
          intro r' hr'
          have hne : r'.filename ≠ filename := by
            rintro rfl
            exact hnew (hfilename ▸ List.mem_map_of_mem hr')
          simpa using hne
        rw [hnone, beq_iff_eq.mpr hfilename, hfilename, Obj.lookup_set_self]
        rfl
      · rw [beq_eq_false_iff_ne.mpr hfilename, Obj.lookup_set_of_ne _ (Ne.symm hfilename)]

theorem states_catalogue (c : Catalogue) : ∃ rows,
    states (c.rulesets.map Ruleset.row) [] = .ok rows ∧
    (∀ filename, rows.has filename = (c.find filename).isSome) ∧
    ∀ filename, rows.text filename = c.shownText filename := by
  obtain ⟨rows, hrows, hlookup⟩ := states_rows c.distinct []
  have hfind : ∀ filename, rows.lookup filename =
      (c.find filename).map fun r => Json.str (pyStr (r.rendering.show r.enabled)) := by
    intro filename
    rw [hlookup]
    exact Option.or_none
  refine ⟨rows, hrows, fun filename => ?_, fun filename => ?_⟩
  · rw [Obj.has, hfind, Option.isSome_map]
  · rw [Obj.text, Obj.getD, hfind, Catalogue.shownText]
    cases c.find filename <;> rfl

theorem todo_eq {rows : Obj} (htext : ∀ filename, rows.text filename = c.shownText filename) :
    todo rows desired = flagsOf (c.due desired) := by
  rw [todo, List.filter_map, flagsOf, Catalogue.due]
  refine congrArg (List.map _) (List.filter_congr fun fw _ => ?_)
  simp only [Function.comp, htext]

theorem unknown_eq_nil_iff {rows : Obj}
    (hhas : ∀ filename, rows.has filename = (c.find filename).isSome) :
    unknown rows desired = [] ↔ ∀ fw ∈ desired, c.known fw.1 := by
  rw [unknown, List.filter_eq_nil_iff, List.forall_mem_map]
  refine forall₂_congr fun fw _ => ?_
  rw [hhas, Catalogue.known, Catalogue.state]
  cases c.find fw.1 <;> simp

/-- Where every flag is a text or a number, the call sees what differs. -/
theorem due_eq_wanted (hknown : ∀ fw ∈ desired, c.known fw.1)
    (hrendering : ∀ fw ∈ desired, ∀ r, c.find fw.1 = some r → r.rendering ≠ .bool) :
    c.due desired = c.wanted desired := by
  apply List.filter_congr
  intro fw hfw
  have hstate := hknown fw hfw
  rw [Catalogue.known, Catalogue.state, ne_eq, Option.map_eq_none_iff] at hstate
  obtain ⟨r, hr⟩ := Option.ne_none_iff_exists'.mp hstate
  rw [Catalogue.shownText, hr, Catalogue.state, hr, Option.map_some]
  dsimp only
  rw [pyStr_show (hrendering fw hfw r hr), Bool.eq_iff_iff, bne_iff_ne, bne_iff_ne, ne_eq, ne_eq,
    flag_inj, Option.some.injEq]

end Rows

section Ensure

variable {c : Catalogue} {desired : List (String × Bool)} {applies : Bool}

theorem serve_list (c : Catalogue) :
    catalogueServer (.get { action := endpoint ++ "/listRulesets" }) c =
      (.ok (.obj [("rows", .arr (c.rulesets.map fun r => .obj r.row))]), c) := by
  rw [catalogueServer, if_pos rfl]

theorem filterMap_rows (rulesets : List Ruleset) :
    (rulesets.map fun r => Json.obj r.row).filterMap isObj = rulesets.map Ruleset.row := by
  induction rulesets with
  | nil => rfl
  | cons r rulesets ih => exact congrArg (List.cons r.row) ih

/-- The catalogue is read without touching it, or the reading fails. -/
theorem run_list (c : Catalogue) (faults : List (Fault Exc)) :
    ((list.trace faultyCatalogue (c, faults)).map Prod.fst).filter Request.isWrite = [] ∧
    ∃ later, (list.run faultyCatalogue (c, faults) =
        (.ok (c.rulesets.map Ruleset.row), c, later) ∧ (faults = [] → later = [])) ∨
      (faults ≠ [] ∧ ∃ e, list.run faultyCatalogue (c, faults) = (.error e, c, later)) := by
  have hserve := serve_list c
  have hrows := filterMap_rows c.rulesets
  have hanswered : ∀ later, faultyCatalogue (.get { action := endpoint ++ "/listRulesets" })
      (c, faults) = (.ok (.obj [("rows", .arr (c.rulesets.map fun r => .obj r.row))]), c, later) →
      list.run faultyCatalogue (c, faults) = (.ok (c.rulesets.map Ruleset.row), c, later) := by
    intro later hreply
    have hrun : (await (.get { action := endpoint ++ "/listRulesets" })).run faultyCatalogue
        (c, faults) =
        (.ok (.obj [("rows", .arr (c.rulesets.map fun r => .obj r.row))]), c, later) := by
      rw [run_await, hreply]
    rw [list, Prog.run_bind_of_ok hrun, ← hrows]
    rfl
  have hfailed : ∀ e later, faultyCatalogue (.get { action := endpoint ++ "/listRulesets" })
      (c, faults) = (.error e, c, later) →
      list.run faultyCatalogue (c, faults) = (.error e, c, later) := by
    intro e later hreply
    exact Prog.run_bind_of_error (by rw [run_await, hreply]) _
  refine ⟨?_, ?_⟩
  · rw [List.filter_eq_nil_iff]
    intro q hq
    obtain ⟨qr, hqr, rfl⟩ := List.mem_map.mp hq
    exact fun hwrite => not_writes_of_asks asks_list ⟨qr, hqr, hwrite⟩
  · rcases faults with _ | ⟨fault, later⟩
    · exact ⟨[], Or.inl ⟨hanswered [] (by simp only [faulty, hserve]), fun _ => rfl⟩⟩
    · refine ⟨later, ?_⟩
      cases fault with
      | served =>
        exact Or.inl ⟨hanswered later (by simp only [faulty, hserve]), fun h => by cases h⟩
      | lost e => exact Or.inr ⟨List.cons_ne_nil _ _, e, hfailed e later rfl⟩
      | cut e =>
        exact Or.inr ⟨List.cons_ne_nil _ _, e, hfailed e later (by simp only [faulty, hserve])⟩

/-- With the filenames known, the toggles that are due are sent, if any. -/
theorem run_converge {rows : Obj} (htext : ∀ filename, rows.text filename = c.shownText filename)
    (hnodup : ((c.due desired).map (·.1)).Nodup) (hknown : ∀ fw ∈ c.due desired, c.known fw.1)
    (faults : List (Fault Exc)) :
    let final := (converge rows desired false applies).run faultyCatalogue (c, faults)
    let requests := (((converge rows desired false applies).trace faultyCatalogue (c, faults)).map
      Prod.fst).filter Request.isWrite
    (∃ done rest, Toggled c (c.due desired) done rest final.1.isOk.not final.2.1 requests) ∧
      (faults = [] → final.1.isOk = true) := by
  have htodo : todo rows desired = flagsOf (c.due desired) := todo_eq htext
  rw [converge, htodo]
  by_cases hempty : c.due desired = []
  · have hnone : (flagsOf (c.due desired)).isEmpty = true := by rw [hempty]; rfl
    rw [if_pos hnone, hempty]
    refine ⟨⟨[], [], rfl, Catalogue.switched_nil.symm, Or.inl rfl, fun _ => ⟨rfl, rfl⟩⟩, ?_⟩
    exact fun _ => rfl
  · have hsome : (flagsOf (c.due desired)).isEmpty ≠ true := by
      rw [flagsOf, ne_eq, List.isEmpty_iff, List.map_eq_nil_iff]
      exact hempty
    have hcheck : ¬ (false = true) := Bool.false_ne_true
    have hdue : (c.due desired).map (·.1) |>.Nodup := hnodup
    obtain ⟨⟨done, rest, htoggled⟩, hserved⟩ := run_send hdue hknown applies faults
    rw [if_neg hsome, if_neg hcheck]
    rcases hsend : (send (flagsOf (c.due desired)) applies).run faultyCatalogue (c, faults) with
      ⟨e | u, S⟩
    · rw [hsend] at htoggled hserved
      rw [Prog.run_bind_of_error hsend, Prog.trace_bind_of_error hsend]
      exact ⟨⟨done, rest, htoggled⟩, hserved⟩
    · rw [hsend] at htoggled hserved
      rw [Prog.run_bind_of_ok hsend, Prog.trace_bind_of_ok hsend, List.map_append,
        List.filter_append]
      -- behind the toggles there is a log record only
      refine ⟨⟨done, rest, ?_⟩, fun _ => rfl⟩
      exact (List.append_nil _).symm ▸ htoggled

/-- The call reads the catalogue, and sends the toggles that are due. -/
theorem run_ensureMany (hnodup : (desired.map (·.1)).Nodup) (hknown : ∀ fw ∈ desired, c.known fw.1)
    (faults : List (Fault Exc)) :
    (∃ done rest, Toggled c (c.due desired) done rest (outcome desired applies c faults).isOk.not
      (left desired applies c faults) (sent desired applies c faults)) ∧
    (faults = [] → (outcome desired applies c faults).isOk = true) := by
  obtain ⟨hquiet, later, hlist⟩ := run_list c faults
  obtain ⟨rows, hrows, hhas, htext⟩ := states_catalogue c
  have hdue : ∀ fw ∈ c.due desired, c.known fw.1 := fun fw hfw =>
    hknown fw (List.mem_of_mem_filter hfw)
  have hkeys : ((c.due desired).map (·.1)).Nodup := hnodup.sublist (List.filter_sublist.map _)
  rw [outcome, left, sent, ensureMany]
  rcases hlist with ⟨hlist, hserved⟩ | ⟨hfaults, e, hlist⟩
  · have hunknown : ¬ unknown rows desired ≠ [] :=
      not_not.mpr ((unknown_eq_nil_iff hhas).mpr hknown)
    have hrest : ((do
        let rows ← .ofExcept (states (c.rulesets.map Ruleset.row) [])
        if unknown rows desired ≠ [] then
          let names := pyStr (.arr ((unknown rows desired).map .str))
          .raise (.valueError s!"IdsRulesetManager: unknown ruleset(s) {names} — see list()")
        else converge rows desired false applies) : M EnsureResult) =
        converge rows desired false applies := by
      rw [hrows]
      exact if_neg hunknown
    have hconverge := @run_converge c desired applies rows htext hkeys hdue later
    rw [Prog.run_bind_of_ok hlist, Prog.trace_bind_of_ok hlist, hrest, List.map_append,
      List.filter_append, hquiet, List.nil_append]
    exact ⟨hconverge.1, fun hnone => hconverge.2 (hserved hnone)⟩
  · rw [Prog.run_bind_of_error hlist, Prog.trace_bind_of_error hlist, hquiet]
    refine ⟨⟨[], c.due desired, rfl, Catalogue.switched_nil.symm, Or.inl rfl, ?_⟩, ?_⟩
    · intro hfailed
      cases hfailed
    · exact fun hnone => absurd hnone hfaults

/-- With an unknown filename the call raises before it toggles anything. -/
theorem run_unknown (hunknown : ∃ fw ∈ desired, ¬ c.known fw.1) (faults : List (Fault Exc)) :
    sent desired applies c faults = [] ∧ left desired applies c faults = c ∧
      ∀ r, outcome desired applies c faults ≠ .ok r := by
  obtain ⟨hquiet, later, hlist⟩ := run_list c faults
  obtain ⟨rows, hrows, hhas, -⟩ := states_catalogue c
  have hraise : unknown rows desired ≠ [] := by
    rw [ne_eq, unknown_eq_nil_iff hhas]
    obtain ⟨fw, hfw, hnot⟩ := hunknown
    exact fun hknown => hnot (hknown fw hfw)
  rw [outcome, left, sent, ensureMany]
  rcases hlist with ⟨hlist, -⟩ | ⟨-, e, hlist⟩
  · rw [Prog.run_bind_of_ok hlist, Prog.trace_bind_of_ok hlist, hrows, List.map_append,
      List.filter_append, hquiet]
    simp only [Prog.ofExcept, Prog.ret_bind, if_pos hraise, Prog.run_raise, Prog.trace_raise]
    refine ⟨rfl, trivial, fun r h => ?_⟩
    cases h
  · rw [Prog.run_bind_of_error hlist, Prog.trace_bind_of_error hlist, hquiet]
    refine ⟨rfl, rfl, fun r h => ?_⟩
    cases h

theorem exists_ok {α : Type} {x : Except Exc α} (h : x.isOk = true) : ∃ a, x = .ok a := by
  cases x with
  | error e => cases h
  | ok a => exact ⟨a, rfl⟩

/-- A call that nothing disturbs toggles what is due. -/
theorem served_ensureMany (hnodup : (desired.map (·.1)).Nodup)
    (hknown : ∀ fw ∈ desired, c.known fw.1) :
    sent desired applies c [] = toggleRequests (c.due desired) ∧
      left desired applies c [] = c.switched (c.due desired) ∧
      ∃ r, outcome desired applies c [] = .ok r := by
  obtain ⟨⟨done, rest, h⟩, hok⟩ := @run_ensureMany c desired applies hnodup hknown []
  obtain ⟨hrest, hsent⟩ := h.returned (by rw [hok rfl]; rfl)
  have hdone : c.due desired = done := by rw [h.split, hrest, List.append_nil]
  exact ⟨hsent, by rw [h.left, hdone], exists_ok (hok rfl)⟩

/-- A native bool is due whatever the state. -/
theorem mem_due_of_bool {fw : String × Bool} (hfw : fw ∈ desired) {r : Ruleset}
    (hr : c.find fw.1 = some r) (hbool : r.rendering = .bool) : fw ∈ c.due desired := by
  refine List.mem_filter.mpr ⟨hfw, ?_⟩
  rw [Catalogue.shownText, hr, bne_iff_ne]
  dsimp only
  rw [hbool]
  exact pyStr_bool_ne_flag r.enabled fw.2

/-- The toggles of a part of what is wanted leave the rest, which a second call completes. -/
theorem served_rest (hnodup : (desired.map (·.1)).Nodup) (hknown : ∀ fw ∈ desired, c.known fw.1)
    (hrendering : ∀ fw ∈ desired, ∀ r, c.find fw.1 = some r → r.rendering ≠ .bool)
    {done rest : List (String × Bool)} (hsplit : c.wanted desired = done ++ rest) :
    sent desired applies (c.switched done) [] = toggleRequests rest ∧
      left desired applies (c.switched done) [] = c.switched desired ∧
      ∃ r, outcome desired applies (c.switched done) [] = .ok r := by
  have hknown' : ∀ fw ∈ desired, (c.switched done).known fw.1 := fun fw hfw =>
    Catalogue.known_switched.mpr (hknown fw hfw)
  -- the flags are shown in the way they were
  have hrendering' : ∀ fw ∈ desired, ∀ r, (c.switched done).find fw.1 = some r →
      r.rendering ≠ .bool := by
    intro fw hfw r hr
    rw [Catalogue.find_switched, Option.map_eq_some_iff] at hr
    obtain ⟨r', hr', rfl⟩ := hr
    exact hrendering fw hfw r' hr'
  obtain ⟨hsent, hleft, hok⟩ := @served_ensureMany (c.switched done) desired applies hnodup hknown'
  rw [due_eq_wanted hknown' hrendering', Catalogue.wanted_switched hnodup hknown hsplit]
    at hsent hleft
  refine ⟨hsent, ?_, hok⟩
  have hkeys : ((done ++ rest).map (·.1)).Nodup := by
    rw [← hsplit]
    exact hnodup.sublist (List.filter_sublist.map _)
  rw [List.map_append, List.nodup_append] at hkeys
  rw [hleft, ← Catalogue.switched_wanted hnodup, hsplit]
  apply Catalogue.switched_append
  intro fw hfw hmem
  exact hkeys.2.2 fw.1 hmem fw.1 (List.mem_map_of_mem hfw) rfl

/-- A native bool that was toggled is due again. -/
theorem mem_due_again {fw : String × Bool} (hfw : fw ∈ desired) {r : Ruleset}
    (hr : c.find fw.1 = some r) (hbool : r.rendering = .bool) (done : List (String × Bool)) :
    fw ∈ (c.switched done).due desired := by
  have hfind : (c.switched done).find fw.1 = some (r.switch (done.lookup fw.1)) := by
    rw [Catalogue.find_switched, hr]
    rfl
  exact mem_due_of_bool hfw hfind hbool

/-- The toggles are right for a catalogue and a desired state exactly when a filename is unknown,
or none of the desired entries shows its flag as a native bool. -/
theorem togglesRight_iff (desired : List (String × Bool)) (applies : Bool) (c : Catalogue)
    (hnodup : (desired.map (·.1)).Nodup) :
    TogglesRight desired applies c ↔ (∃ fw ∈ desired, ¬ c.known fw.1) ∨
      ∀ fw ∈ desired, ∀ r, c.find fw.1 = some r → r.rendering ≠ .bool := by
  constructor
  · intro h
    by_cases hunknown : ∃ fw ∈ desired, ¬ c.known fw.1
    · exact Or.inl hunknown
    · have hknown : ∀ fw ∈ desired, c.known fw.1 := fun fw hfw =>
        not_not.mp fun hnot => hunknown ⟨fw, hfw, hnot⟩
      refine Or.inr fun fw hfw r hr hbool => ?_
      -- the first call returns, so the second should have nothing to toggle
      obtain ⟨done, rest, -, hleft, -, hreturned, hagain, -⟩ := h.2 hknown []
      obtain ⟨-, -, hok⟩ := @served_ensureMany c desired applies hnodup hknown
      obtain ⟨-, hrest, -⟩ := hreturned hok
      rw [hleft, hrest] at hagain
      have hknown' : ∀ fw ∈ desired, (c.switched done).known fw.1 := fun fw hfw =>
        Catalogue.known_switched.mpr (hknown fw hfw)
      obtain ⟨hsent, -, -⟩ :=
        @served_ensureMany (c.switched done) desired applies hnodup hknown'
      have hdue : (c.switched done).due desired = [] :=
        List.map_eq_nil_iff.mp (hsent.symm.trans hagain)
      have hmem := mem_due_again hfw hr hbool done
      rw [hdue] at hmem
      cases hmem
  · intro h
    refine ⟨fun hunknown faults => run_unknown hunknown faults, fun hknown faults => ?_⟩
    have hrendering : ∀ fw ∈ desired, ∀ r, c.find fw.1 = some r → r.rendering ≠ .bool := by
      rcases h with ⟨fw, hfw, hnot⟩ | h
      · exact absurd (hknown fw hfw) hnot
      · exact h
    obtain ⟨⟨done, rest, htoggled⟩, -⟩ := @run_ensureMany c desired applies hnodup hknown faults
    rw [due_eq_wanted hknown hrendering] at htoggled
    have hsecond := @served_rest c desired applies hnodup hknown hrendering done rest htoggled.split
    rw [← htoggled.left] at hsecond
    refine ⟨done, rest, htoggled.split, htoggled.left, htoggled.sent, ?_, hsecond⟩
    rintro ⟨r, hr⟩
    obtain ⟨hrest, hall⟩ := htoggled.returned (by rw [hr]; rfl)
    refine ⟨hall, hrest, ?_⟩
    rw [htoggled.left, ← Catalogue.switched_wanted hnodup, htoggled.split, hrest, List.append_nil]

end Ensure

/-- Two entries, the first with its flag shown in a given way. -/
def sampleCatalogue (rendering : Rendering) : Catalogue where
  rulesets :=
    [⟨"emerging-dos.rules", true, rendering, [("description", .str "DoS")]⟩,
      ⟨"drop.rules", false, .text, []⟩]
  distinct := by simp

theorem sample_togglesRight :
    let desired : List (String × Bool) := [("emerging-dos.rules", true), ("drop.rules", true)]
    (desired.map (·.1)).Nodup ∧ TogglesRight desired true (sampleCatalogue .int) := by
  intro desired
  have hnodup : (desired.map (·.1)).Nodup := by decide
  refine ⟨hnodup, (togglesRight_iff desired true (sampleCatalogue .int) hnodup).mpr (Or.inr ?_)⟩
  intro fw hfw r hr
  have hmem : r ∈ (sampleCatalogue .int).rulesets := List.mem_of_find?_eq_some hr
  simp only [sampleCatalogue, List.mem_cons, List.not_mem_nil, or_false] at hmem
  rcases hmem with rfl | rfl
  · exact Rendering.noConfusion
  · exact Rendering.noConfusion

/-- An entry that is on, and shows it as a native bool, is switched on by every call. -/
theorem native_bool_toggled :
    ¬ TogglesRight [("emerging-dos.rules", true)] true (sampleCatalogue .bool) := by
  intro h
  have hknown : ∀ fw ∈ [("emerging-dos.rules", true)], (sampleCatalogue .bool).known fw.1 :=
    List.forall_mem_singleton.mpr (by unfold Catalogue.known; decide)
  obtain ⟨done, rest, -, -, -, hreturned, -⟩ := h.2 hknown []
  obtain ⟨hsent, -⟩ := hreturned ⟨_, rfl⟩
  have hnone : (sampleCatalogue .bool).wanted [("emerging-dos.rules", true)] = [] := by decide
  rw [hnone] at hsent
  cases hsent

end IdsRulesetManager
end Opnsense
