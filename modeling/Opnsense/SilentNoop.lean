import Opnsense.DiffSoundness
import Opnsense.Verdict

namespace Opnsense
open Interaction

namespace BaseManager

variable {m : BaseManager} {params : Obj} {uuid : Option String} {rows : List Obj}
  {item : Endpoint → Reply} {ack : Request → Reply} {check dedupe : Bool}

/-- A server with fixed answers: these rows to every search, these items, and anything
at all to the other requests. -/
def answers (rows : List Obj) (item : Endpoint → Reply) (ack : Request → Reply) :
    Appliance Unit
  | .search .., _ => (.ok (.arr (rows.map .obj)), ())
  | .get ep _, _ => (item ep, ())
  | q, _ => (ack q, ())

/-- The full item of one resource with its uuid put in. -/
def itemState (m : BaseManager) (item : Endpoint → Reply) (u : String) : Except Exc Obj := do
  let body ← item (m.config.get (.str u))
  let full ← unwrap m.config.payloadKey body
  setItem "uuid" (.str u) full

/-- The state `ensure` compares the parameters with, read off the answers: the item of a
given uuid, else the only matching row or, where it falls short, its item. -/
def comparedState (m : BaseManager) (params : Obj) (uuid : Option String) (rows : List Obj)
    (item : Endpoint → Reply) : Option Obj :=
  match uuid with
  | some u => (m.itemState item u).toOption
  | none =>
    match matchingRows m.matchKeys params rows with
    | [row] =>
      if needsFullItem row params && rowUuid row != "" then
        (m.itemState item (rowUuid row)).toOption
      else some row
    | _ => none

theorem run_list_answers (phrase : String) :
    (m.list phrase).run (answers rows item ack) () = (.ok (.arr (rows.map .obj)), ()) := by
  unfold list
  split <;> simp [answers]

theorem returns_item {u : String} {full : Json} {current : Obj} {s s' : Unit}
    {t : List (Request × Reply)}
    (hget : (m.get (.str u)).Returns (answers rows item ack) s full s' t)
    (hset : setItem "uuid" (.str u) full = .ok current) :
    (m.itemState item u).toOption = some current := by
  obtain ⟨body, hreply, hfull, -⟩ := returns_get.mp hget
  have hitem : item (m.config.get (.str u)) = .ok body := congrArg Prod.fst hreply
  simp [itemState, hitem, hfull, hset, bind, Except.bind, Except.toOption]

/-- What resolving returns without removing duplicates is the compared state. -/
theorem returns_resolve_compared {current : Obj} {s s' : Unit} {t : List (Request × Reply)}
    (h : (m.resolve params check uuid dedupe).Returns (answers rows item ack) s
      (some current, []) s' t) :
    m.comparedState params uuid rows item = some current := by
  cases uuid with
  | some u =>
    obtain ⟨full, _, _, _, hget, hrest, -⟩ := Prog.returns_bind.mp h
    obtain ⟨existing, _, _, _, hset, hret, -⟩ := Prog.returns_bind.mp hrest
    obtain ⟨hset, -, -⟩ := Prog.returns_ofExcept.mp hset
    cases (Prog.returns_ret.mp hret).1
    exact returns_item hget hset
  | none =>
    obtain ⟨found, s₁, t₁, t₂, hlook, hhyd, -⟩ := returns_resolve h
    obtain ⟨v, rows', _, _, _, hlist, hv, hlen, rfl, -⟩ := returns_lookup hlook
    -- a reply of another shape can only have been read as no rows
    have hrows : matchingRows m.matchKeys params rows' = matchingRows m.matchKeys params rows ∨
        rows' = [] := by
      by_cases hne : rows' = []
      · exact Or.inr hne
      · left
        have hreply := hlist.1.symm.trans (run_list_answers _)
        rw [hv hne] at hreply
        simp only [Prod.mk.injEq, Except.ok.injEq, Json.arr.injEq] at hreply
        rw [List.map_injective_iff.mpr (fun a b hab => by injection hab) hreply.1]
    rcases hfound : matchingRows m.matchKeys params rows' with _ | ⟨row, _ | ⟨row', rest⟩⟩
    · rw [hfound] at hhyd
      cases (Prog.returns_ret.mp hhyd).1
    · have hmatch : matchingRows m.matchKeys params rows = [row] := by
        rcases hrows with hrows | rfl
        · rw [← hrows, hfound]
        · cases hfound
      rw [hfound] at hhyd
      simp only [comparedState, hmatch]
      simp only [hydrateNested, List.head?_cons] at hhyd
      split at hhyd
      · rename_i hneed
        obtain ⟨full, _, _, _, hget, hrest, -⟩ := Prog.returns_bind.mp hhyd
        obtain ⟨existing, _, _, _, hset, hret, -⟩ := Prog.returns_bind.mp hrest
        obtain ⟨hset, -, -⟩ := Prog.returns_ofExcept.mp hset
        cases (Prog.returns_ret.mp hret).1
        rw [if_pos hneed]
        exact returns_item hget hset
      · rename_i hneed
        rw [if_neg hneed]
        exact (Prog.returns_ret.mp hhyd).1.symm
    · rw [hfound] at hlen
      simp at hlen

/-- A noop compared some state and found no drift. -/
theorem noop_compared {r : EnsureResult} {s s' : Unit}
    (h : (m.ensure "present" params check uuid dedupe false).run (answers rows item ack) s =
      (.ok r, s')) (hnoop : r.action = .noop) :
    ∃ current, m.comparedState params uuid rows item = some current ∧
      m.diffEngine.computeDiff current params = none := by
  obtain ⟨existing, deduped, s₁, t₁, t₂, r₀, hres, hconv, -, rfl⟩ :=
    returns_ensure (Prog.returns_of_run h)
  obtain ⟨hverdict, -, -⟩ := returns_converge hconv
  -- removed duplicates would have been reported as a change
  have hnil : deduped = [] ∧ r₀.action = .noop := by
    unfold withDedupe at hnoop
    split at hnoop
    · rename_i hd
      exact ⟨by simpa using hd, hnoop⟩
    · exfalso
      dsimp only at hnoop
      split at hnoop
      · rename_i hchanged
        rw [hchanged, hnoop] at hverdict
        cases existing with
        | none => simp [verdict] at hverdict
        | some current =>
          simp only [verdict, if_true] at hverdict
          split at hverdict <;> cases hverdict
      · cases hnoop
  obtain ⟨rfl, hnoop₀⟩ := hnil
  rw [hnoop₀] at hverdict
  cases existing with
  | none => simp [verdict] at hverdict
  | some current =>
    refine ⟨current, returns_resolve_compared hres, ?_⟩
    simp only [verdict, if_true] at hverdict
    split at hverdict
    · rename_i hdiff
      simpa using hdiff
    · simp at hverdict

theorem run_item (rows : List Obj) (ack : Request → Reply) {u : String} {full : Obj}
    (h : m.itemState item u = .ok full) :
    ∃ v, (m.get (.str u)).run (answers rows item ack) () = (.ok v, ()) ∧
      setItem "uuid" (.str u) v = .ok full := by
  simp only [itemState, bind, Except.bind] at h
  rcases hreply : item (m.config.get (.str u)) with e | body
  · simp [hreply] at h
  · simp only [hreply] at h
    rcases hv : unwrap m.config.payloadKey body with e | v
    · simp [hv] at h
    · simp only [hv] at h
      refine ⟨v, ?_, h⟩
      simp [BaseManager.get, Prog.run_bind, answers, hreply, hv]

/-- Forwards: resolving finds the compared state. -/
theorem run_resolve_compared {current : Obj}
    (hcompared : m.comparedState params uuid rows item = some current) :
    (m.resolve params check uuid dedupe).run (answers rows item ack) () =
      (.ok (some current, []), ()) := by
  cases uuid with
  | some u =>
    rcases hstate : m.itemState item u with e | full
    · simp [comparedState, hstate, Except.toOption] at hcompared
    · simp only [comparedState, hstate, Except.toOption, Option.some.injEq] at hcompared
      subst hcompared
      obtain ⟨v, hget, hset⟩ := run_item rows ack hstate
      simp [resolve, Prog.run_bind_of_ok hget, Prog.run_bind, hset]
  | none =>
    simp only [comparedState] at hcompared
    split at hcompared
    · rename_i row hfound
      have hlen : (matchingRows m.matchKeys params rows).length ≤ 1 := by simp [hfound]
      have hlook : (m.lookup params check dedupe).run (answers rows item ack) () =
          (.ok (some row, []), ()) := by
        rw [run_lookup_of_list (run_list_answers _) hlen, hfound, List.head?_cons]
      have hhyd : (m.hydrateNested (some row) params).run (answers rows item ack) () =
          (.ok (some current), ()) := by
        simp only [hydrateNested]
        split at hcompared
        · rename_i hneed
          rcases hstate : m.itemState item (rowUuid row) with e | full
          · simp [hstate, Except.toOption] at hcompared
          · simp only [hstate, Except.toOption, Option.some.injEq] at hcompared
            subst hcompared
            obtain ⟨v, hget, hset⟩ := run_item rows ack hstate
            rw [if_pos hneed, Prog.run_bind_of_ok hget]
            simp [Prog.run_bind, hset]
        · rename_i hneed
          simp only [Option.some.injEq] at hcompared
          subst hcompared
          rw [if_neg hneed]
          rfl
      simp [resolve, Prog.run_bind_of_ok hlook, Prog.run_bind_of_ok hhyd]
    · cases hcompared

/-- A noop is sound on exactly the inputs where a compared state without drift carries
every field of the parameters, at every level. -/
theorem noop_met_iff (m : BaseManager) (params : Obj) (uuid : Option String) (rows : List Obj)
    (item : Endpoint → Reply) (ack : Request → Reply) (check dedupe : Bool) :
    (∀ r, (m.ensure "present" params check uuid dedupe false).run (answers rows item ack) () =
        (.ok r, ()) → r.action = .noop →
      ∃ current, m.comparedState params uuid rows item = some current ∧
        FieldsMet m.diffEngine current params) ↔
    (m.accepts params → ∀ current, m.comparedState params uuid rows item = some current →
      m.diffEngine.computeDiff current params = none → fieldsCarried current params = true) := by
  constructor
  · intro hmet haccepts current hcompared hdiff
    have hrun : (m.ensure "present" params check uuid dedupe false).run (answers rows item ack) ()
        = (.ok (withDedupe _ []), ()) :=
      run_ensure (run_validate_of_accepts haccepts) (run_resolve_compared hcompared)
        (run_converge_noop hdiff)
    obtain ⟨current', hcompared', hmet'⟩ := hmet _ hrun rfl
    have heq : current = current' := Option.some.inj (hcompared.symm.trans hcompared')
    rw [heq]
    exact ((fieldsMet_iff _ _ _).mp hmet').1
  · intro hcarried r hrun hnoop
    obtain ⟨current, hcompared, hdiff⟩ := noop_compared hrun hnoop
    have haccepts : m.accepts params := by
      obtain ⟨⟨⟩, ⟨⟩, hvalid, -⟩ := Prog.run_bind_eq_ok.mp hrun
      exact accepts_of_run_validate hvalid
    refine ⟨current, hcompared, (fieldsMet_iff _ _ _).mpr ⟨?_, hdiff⟩⟩
    exact hcarried haccepts current hcompared hdiff

/-- A field that neither the row nor the item carries, and a uuid whose item is empty:
both calls end in a noop although the field was never seen. -/
theorem noop_unmet :
    let params : Obj := [("name", .str "a"), ("descr", .str "wanted")]
    let rows : List Obj := [[("uuid", .str "u1"), ("name", .str "a")]]
    let ack : Request → Reply := fun _ => .ok (.obj [])
    let partialItem : Endpoint → Reply := fun _ => .ok (.obj [("item", .obj [("name", .str "a")])])
    let emptyItem : Endpoint → Reply := fun _ => .ok (.obj [("item", .obj [])])
    (∃ r current, (sampleManager.ensure "present" params).run (answers rows partialItem ack) () =
        (.ok r, ()) ∧ r.action = .noop ∧
      sampleManager.comparedState params none rows partialItem = some current ∧
      ¬ FieldsMet sampleManager.diffEngine current params) ∧
    (∃ r current, (sampleManager.ensure "present" params false (some "u1")).run
        (answers rows emptyItem ack) () = (.ok r, ()) ∧ r.action = .noop ∧
      sampleManager.comparedState params (some "u1") rows emptyItem = some current ∧
      ¬ FieldsMet sampleManager.diffEngine current params) := by
  refine ⟨⟨_, _, rfl, rfl, rfl, ?_⟩, ⟨_, _, rfl, rfl, rfl, ?_⟩⟩
  · intro hmet
    exact hmet.2.1
  · intro hmet
    exact hmet.1

end BaseManager
end Opnsense
