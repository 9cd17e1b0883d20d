import Opnsense.AcmeIssue

namespace Opnsense
namespace AcmeCertificateManager
open Interaction

variable {σ : Type} {diffEngine : DiffEngine} {srv : Appliance σ} {s s' s₁ : σ} {uuid : Json}
  {t : List (Request × Reply)} {stale : Option String} {polls polls' : ℕ} {st : IssueState}
  {result r : EnsureResult} {renew checkMode : Bool} {params : Obj} {ident : Option String}

def IsSign (q : Request) : Prop := ∃ uuid, q = verbRequest "sign" uuid

theorem not_isSign_getRequest : ¬ IsSign (getRequest uuid) := by
  rintro ⟨u, h⟩
  cases h

/-- What comes before the sign posts nothing. -/
theorem not_isSign_of_base {state : String} : ∀ qr ∈
    ((AcmeCertificateManager diffEngine).ensure state params checkMode ident).trace srv s,
    ¬ IsSign qr.1 := by
  intro qr hqr
  have hamong : Among (AcmeCertificateManager diffEngine).ownWrite
      (AcmeCertificateManager diffEngine).config.apply qr.1 := by
    cases checkMode with
    | false => exact (BaseManager.asks_ensure_own state ident).of_mem_trace hqr
    | true =>
      exact among_of_read _ ((BaseManager.asks_ensure_check state ident).of_mem_trace hqr)
  rintro ⟨u, hsign⟩
  rw [hsign] at hamong
  exact hamong rfl

/-- The manager it is built on never reports an issue. -/
theorem action_of_base {state : String}
    (h : ((AcmeCertificateManager diffEngine).ensure state params checkMode ident).Returns
      srv s r s' t) : r.action ≠ .issued ∧ r.action ≠ .renewed := by
  obtain ⟨existing, deduped, s₁, t₁, t₂, r₀, -, hconv, -, rfl⟩ := BaseManager.returns_ensure h
  obtain ⟨hverdict, -⟩ := BaseManager.returns_converge hconv
  have haction : r₀.action = _ := congrArg Prod.snd hverdict
  have hr₀ : r₀.action ≠ .issued ∧ r₀.action ≠ .renewed := by
    rw [haction]
    cases existing <;> simp only [BaseManager.verdict] <;> (repeat' split) <;> simp
  unfold BaseManager.withDedupe
  split
  · exact hr₀
  · cases r₀.changed <;> simp [hr₀]

/-- The part behind the last look before the decision. -/
def decideSign (diffEngine : DiffEngine) (result : EnsureResult) (uuid : Json)
    (checkMode renew : Bool) (polls : ℕ) (st : IssueState) : M EnsureResult :=
  if st.isIssued && !renew then return result
  else if checkMode then do
    let id := pyStr uuid
    log .info s!"{(issueAction st).text} check_mode=True acme cert uuid={id}"
      [("action", .str (wouldAction st).text), ("endpoint", .str endpoint), ("uuid", uuid)]
    return { changed := true, action := wouldAction st, uuid := some uuid,
             before := some st.toJson }
  else signAndWait diffEngine uuid st polls

theorem issue_eq : issue diffEngine result uuid checkMode renew polls polls' =
    currentIssue diffEngine uuid checkMode polls >>=
      decideSign diffEngine result uuid checkMode renew polls' := rfl

/-- A sign is decided on outside check mode, for a state that is not issued or to be renewed. -/
def WantsSign (checkMode renew : Bool) (st : IssueState) : Prop :=
  checkMode = false ∧ (st.isIssued = true → renew = true)

theorem decideSign_of_wants (h : WantsSign checkMode renew st) :
    decideSign diffEngine result uuid checkMode renew polls st =
      signAndWait diffEngine uuid st polls := by
  obtain ⟨rfl, hrenew⟩ := h
  have hsign : ¬ (st.isIssued && !renew) = true := by simpa using hrenew
  rw [decideSign, if_neg hsign]
  rfl

theorem trace_decideSign_of_not (h : ¬ WantsSign checkMode renew st) :
    (decideSign diffEngine result uuid checkMode renew polls st).trace srv s = [] := by
  unfold decideSign
  split
  · rfl
  · rename_i hissued
    cases checkMode with
    | true => rfl
    | false => exact absurd ⟨rfl, by simpa using hissued⟩ h

/-- A wait ends with a state that is pending still exactly when its deadline passed on it. -/
theorem settled_pending_iff {p : IssueState → Prop} (hp : ∀ st, p st → st.isPending stale = true) :
    (∃ st, stateOf (settled srv uuid stale polls s).1 = .ok st ∧ p st) ↔
      (∀ k < polls, ∃ st, stateOf (Prog.nth srv (getRequest uuid) k s).1 = .ok st ∧
        st.isPending stale = true) ∧
      ∃ st, stateOf (Prog.nth srv (getRequest uuid) polls s).1 = .ok st ∧ p st := by
  constructor
  · rintro ⟨st, hstate, hst⟩
    -- a wait that ended on a pending state was cut by its deadline
    have hall := Prog.again_settled_iff.mp (shows_iff.mpr ⟨st, hstate, hp st hst⟩)
    have hpending : ∀ k < polls, shows (·.isPending stale)
        (Prog.nth srv (getRequest uuid) k s).1 = true := fun k hk => hall k (Nat.le_of_lt hk)
    refine ⟨fun k hk => shows_iff.mp (hpending k hk), st, ?_, hst⟩
    rwa [settled, Prog.settled_of_again hpending] at hstate
  · rintro ⟨hpending, hlast⟩
    rw [settled, Prog.settled_of_again fun k hk => shows_iff.mpr (hpending k hk)]
    exact hlast

section Signs

/-- A sign is posted outside check mode, once, and right after a look that showed no run in
progress and nothing issued that is not to be renewed. -/
def SignsSettledOnly (checkMode renew : Bool) (t : List (Request × Reply)) : Prop :=
  ∀ before qr after, t = before ++ qr :: after → IsSign qr.1 →
    checkMode = false ∧ (∀ qr' ∈ before ++ after, ¬ IsSign qr'.1) ∧
    ∃ uuid reply st, qr.1 = verbRequest "sign" uuid ∧
      before.getLast? = some (getRequest uuid, reply) ∧ stateOf reply = .ok st ∧
      st.status ≠ "100" ∧ (st.isIssued = true → renew = true)

/-- A run in progress outlasts the wait for it: the deadline passes while the object still shows
it as running. -/
def RunOutlastsWait (srv : Appliance σ) (uuid : Json) (polls : ℕ) (s : σ) : Prop :=
  ∃ first, stateOf (srv (getRequest uuid) s).1 = .ok first ∧ first.status = "100" ∧
    (∀ k < polls, ∃ st, stateOf (Prog.nth srv (getRequest uuid) k (srv (getRequest uuid) s).2).1 =
      .ok st ∧ st.isPending none = true) ∧
    ∃ st, stateOf (Prog.nth srv (getRequest uuid) polls (srv (getRequest uuid) s).2).1 = .ok st ∧
      st.status = "100"

theorem isRunning_iff : st.isRunning = true ↔ st.status = "100" := by
  simp [IssueState.isRunning]

theorem runOutlastsWait_iff : RunOutlastsWait srv uuid polls s ↔
    ∃ st, stateOf (lastBefore srv uuid false polls s).1 = .ok st ∧ st.status = "100" := by
  have hpending : ∀ st : IssueState, st.status = "100" → st.isPending none = true := by
    intro st hst
    simp [IssueState.isPending, hst]
  cases hfirst : shows (·.isRunning) (srv (getRequest uuid) s).1 with
  | true =>
    have hlast : lastBefore srv uuid false polls s =
        settled srv uuid none polls (srv (getRequest uuid) s).2 := by
      simp [lastBefore, hfirst]
    obtain ⟨first, hstate, hrunning⟩ := shows_iff.mp hfirst
    rw [hlast, settled_pending_iff hpending]
    constructor
    · rintro ⟨-, -, -, h⟩
      exact h
    · intro h
      exact ⟨first, hstate, isRunning_iff.mp hrunning, h⟩
  | false =>
    -- the first look is the last one, and shows no run
    have hlast : lastBefore srv uuid false polls s = srv (getRequest uuid) s := by
      simp [lastBefore, hfirst]
    have hnone : ¬ ∃ st, stateOf (srv (getRequest uuid) s).1 = .ok st ∧ st.status = "100" := by
      rintro ⟨st, hstate, hstatus⟩
      have hshows := shows_iff.mpr ⟨st, hstate, isRunning_iff.mpr hstatus⟩
      rw [hfirst] at hshows
      cases hshows
    rw [hlast]
    refine iff_of_false ?_ hnone
    rintro ⟨first, hstate, hstatus, -⟩
    exact hnone ⟨first, hstate, hstatus⟩

theorem signsSettledOnly_of_none (h : ∀ qr ∈ t, ¬ IsSign qr.1) :
    SignsSettledOnly checkMode renew t := by
  rintro before qr after rfl hsign
  exact absurd hsign (h qr (by simp))

/-- A trace with one sign in it, and what stands right before it. -/
theorem signsSettledOnly_of_one {before looks : List (Request × Reply)} {last reply : Reply}
    (hbefore : ∀ qr ∈ before, ¬ IsSign qr.1) (hlooks : ∀ qr ∈ looks, ¬ IsSign qr.1)
    (hstate : stateOf last = .ok st) :
    SignsSettledOnly checkMode renew
        (before ++ (getRequest uuid, last) :: (verbRequest "sign" uuid, reply) :: looks) ↔
      checkMode = false ∧ st.status ≠ "100" ∧ (st.isIssued = true → renew = true) := by
  have hsplit : before ++ (getRequest uuid, last) :: (verbRequest "sign" uuid, reply) :: looks =
      (before ++ [(getRequest uuid, last)]) ++ (verbRequest "sign" uuid, reply) :: looks := by
    simp
  have hbefore' : ∀ qr ∈ before ++ [(getRequest uuid, last)], ¬ IsSign qr.1 := by
    refine List.forall_mem_append.mpr ⟨hbefore, ?_⟩
    simpa using not_isSign_getRequest
  rw [hsplit]
  constructor
  · intro h
    obtain ⟨hmode, -, u, reply', st', -, hlast, hstate', hstatus, hissued⟩ :=
      h _ _ _ rfl ⟨uuid, rfl⟩
    rw [List.getLast?_concat, Option.some.injEq, Prod.mk.injEq] at hlast
    obtain ⟨-, rfl⟩ := hlast
    obtain rfl : st = st' := Except.ok.inj (hstate.symm.trans hstate')
    exact ⟨hmode, hstatus, hissued⟩
  · rintro ⟨hmode, hstatus, hissued⟩ before₁ qr after₁ heq hsign
    -- the sign is the only one
    obtain ⟨rfl, rfl, rfl⟩ := (List.append_cons_inj_of_notMem
      (fun hmem => hbefore' qr hmem hsign) (fun hmem => hlooks qr hmem hsign)).mp heq
    refine ⟨hmode, List.forall_mem_append.mpr ⟨hbefore', hlooks⟩, uuid, last, st, rfl, ?_, hstate,
      hstatus, hissued⟩
    exact List.getLast?_concat

theorem issue_signs_settled_iff (result : EnsureResult) (polls polls' : ℕ)
    (ht : ∀ qr ∈ t, ¬ IsSign qr.1) :
    SignsSettledOnly checkMode renew
        (t ++ (issue diffEngine result uuid checkMode renew polls polls').trace srv s) ↔
      ¬ (checkMode = false ∧ RunOutlastsWait srv uuid polls s) := by
  obtain ⟨polled, hpolled, herror, hok⟩ := @goesOn_currentIssue _ diffEngine srv s uuid polls _
    checkMode (decideSign diffEngine result uuid checkMode renew polls')
  have hquiet : ∀ qr ∈ polled, ¬ IsSign qr.1 := by
    intro qr hqr
    rw [hpolled qr hqr]
    exact not_isSign_getRequest
  have hlooked : ∀ qr ∈ t ++ (polled ++ [(getRequest uuid,
      (lastBefore srv uuid checkMode polls s).1)]), ¬ IsSign qr.1 := by
    refine List.forall_mem_append.mpr ⟨ht, List.forall_mem_append.mpr ⟨hquiet, ?_⟩⟩
    simpa using not_isSign_getRequest
  rw [issue_eq]
  cases hstate : stateOf (lastBefore srv uuid checkMode polls s).1 with
  | error exc =>
    rw [(herror exc hstate).2]
    refine iff_of_true (signsSettledOnly_of_none hlooked) ?_
    rintro ⟨rfl, hrun⟩
    obtain ⟨st, hst, -⟩ := runOutlastsWait_iff.mp hrun
    rw [hstate] at hst
    cases hst
  | ok st =>
    rw [(hok st hstate).2]
    by_cases hwants : WantsSign checkMode renew st
    · obtain ⟨reply, looks, htrace, hlooks⟩ := @trace_signAndWait _ diffEngine srv
        (lastBefore srv uuid checkMode polls s).2 uuid polls' st
      have hlooks' : ∀ qr ∈ looks, ¬ IsSign qr.1 := by
        intro qr hqr
        rw [hlooks qr hqr]
        exact not_isSign_getRequest
      obtain ⟨rfl, hrenew⟩ := hwants
      rw [decideSign_of_wants ⟨rfl, hrenew⟩, htrace, ← List.append_assoc,
        signsSettledOnly_of_one (List.forall_mem_append.mpr ⟨ht, hquiet⟩) hlooks' hstate,
        runOutlastsWait_iff, hstate]
      constructor
      · rintro ⟨-, hstatus, -⟩ ⟨-, st', hst', hrun⟩
        cases hst'
        exact hstatus hrun
      · intro h
        exact ⟨rfl, fun hrun => h ⟨rfl, st, rfl, hrun⟩, hrenew⟩
    · rw [trace_decideSign_of_not hwants]
      refine iff_of_true (signsSettledOnly_of_none hlooked) ?_
      rintro ⟨rfl, hrun⟩
      obtain ⟨st', hst', hstatus⟩ := runOutlastsWait_iff.mp hrun
      obtain rfl : st = st' := Except.ok.inj (hstate.symm.trans hst')
      -- what is running is not issued, so it would be signed
      refine hwants ⟨rfl, fun hissued => ?_⟩
      simp [IssueState.isIssued, hstatus] at hissued

/-- The signs of a call are posted as they should exactly when no run in progress outlasts the
wait for it. -/
theorem ensure_signs_settled_iff (diffEngine : DiffEngine) (srv : Appliance σ) (s : σ)
    (state : String) (params : Obj) (checkMode : Bool) (ident : Option String) (renew : Bool)
    (polls polls' : ℕ) :
    SignsSettledOnly checkMode renew
        ((ensure diffEngine state params checkMode ident renew polls polls').trace srv s) ↔
      ¬ (state = "issued" ∧ checkMode = false ∧ ∃ result s₁ uuid,
        ((AcmeCertificateManager diffEngine).ensure "present" params false ident).run srv s =
          (.ok result, s₁) ∧
        result.givenUuid = some uuid ∧ RunOutlastsWait srv uuid polls s₁) := by
  unfold ensure
  by_cases hstate : state ≠ "issued"
  · rw [if_pos hstate]
    exact iff_of_true (signsSettledOnly_of_none not_isSign_of_base) fun h => hstate h.1
  rw [if_neg hstate]
  have hbase := @not_isSign_of_base _ diffEngine srv s checkMode params ident "present"
  rcases hrun : ((AcmeCertificateManager diffEngine).ensure "present" params checkMode ident).run
    srv s with ⟨exc | result, s₁⟩
  · -- the manager below raised: there is nothing to sign
    rw [Prog.trace_bind_of_error hrun]
    refine iff_of_true (signsSettledOnly_of_none hbase) ?_
    rintro ⟨-, rfl, result, s₁', u, hrun', -⟩
    rw [hrun] at hrun'
    cases hrun'
  rw [Prog.trace_bind_of_ok hrun]
  cases huuid : result.givenUuid with
  | none =>
    -- nor without a uuid
    refine iff_of_true (signsSettledOnly_of_none (by simpa using hbase)) ?_
    rintro ⟨-, rfl, result', s₁', u, hrun', huuid', -⟩
    rw [hrun] at hrun'
    cases hrun'
    rw [huuid] at huuid'
    cases huuid'
  | some uuid =>
    rw [issue_signs_settled_iff result polls polls' hbase]
    constructor
    · rintro h ⟨-, rfl, result', s₁', u, hrun', huuid', houtlasts⟩
      rw [hrun] at hrun'
      cases hrun'
      rw [huuid] at huuid'
      cases huuid'
      exact h ⟨rfl, houtlasts⟩
    · rintro h ⟨rfl, houtlasts⟩
      exact h ⟨not_not.mp hstate, rfl, result, s₁, uuid, hrun, huuid, houtlasts⟩

/-- An appliance that shows one certificate whatever is asked of it. -/
def showing (obj : Obj) : Appliance Unit
  | .get .., s => (.ok (.obj [("certificate", .obj obj)]), s)
  | _, s => (.ok (.obj [("status", .str "OK")]), s)

def certificate (ref status stamp : String) : Obj :=
  [("name", .str "fw"), ("certRefId", .str ref), ("statusCode", .str status),
    ("statusLastUpdate", .str stamp)]

/-- A run that is in progress all the time: the sign is posted into it. -/
theorem running_raced : ¬ SignsSettledOnly false false
    ((ensure ⟨fun _ _ => false⟩ "issued" [("name", .str "fw")] false (some "u1") false 60 60).trace
      (showing (certificate "" "100" "1")) ()) := by
  have hstate : stateOf (.ok (.obj [("certificate", .obj (certificate "" "100" "1"))])) =
      .ok ⟨"", "100", "1"⟩ := rfl
  have hrun : ((AcmeCertificateManager ⟨fun _ _ => false⟩).ensure "present" [("name", .str "fw")]
      false (some "u1")).run (showing (certificate "" "100" "1")) () =
      (.ok { changed := false, action := .noop, uuid := some (.str "u1") }, ()) := rfl
  have houtlasts : RunOutlastsWait (showing (certificate "" "100" "1")) (.str "u1") 60 () :=
    ⟨_, hstate, rfl, fun k _ => ⟨_, hstate, rfl⟩, _, hstate, rfl⟩
  unfold ensure
  rw [if_neg (by simp), Prog.trace_bind_of_ok hrun]
  intro h
  exact (issue_signs_settled_iff _ 60 60 not_isSign_of_base).mp h ⟨rfl, houtlasts⟩

end Signs

section Outcome

/-- The result reports the sign: right before it a look showed `b`, behind it there are looks
only, and the last one shows a leaf under another stamp than `b`. -/
def ReportsSign (r : EnsureResult) (t : List (Request × Reply)) : Prop :=
  ∃ uuid before last reply looks final b a, r.uuid = some uuid ∧
    t = before ++ (getRequest uuid, last) :: (verbRequest "sign" uuid, reply) ::
      (looks ++ [(getRequest uuid, final)]) ∧
    (∀ qr ∈ looks, qr.1 = getRequest uuid) ∧ stateOf last = .ok b ∧ stateOf final = .ok a ∧
    a.ref ≠ "" ∧ (a.status = "200" ∨ a.status = "250") ∧ a.stamp ≠ b.stamp

/-- The sign is posted and answered, and the deadline of the wait behind it passes while the
object still shows a leaf under the stamp it had before. -/
def StaleAtDeadline (srv : Appliance σ) (uuid : Json) (renew : Bool) (polls polls' : ℕ) (s : σ) :
    Prop :=
  ∃ b body, stateOf (lastBefore srv uuid false polls s).1 = .ok b ∧ WantsSign false renew b ∧
    (srv (verbRequest "sign" uuid) (lastBefore srv uuid false polls s).2).1 = .ok (.obj body) ∧
    let s₁ := (srv (verbRequest "sign" uuid) (lastBefore srv uuid false polls s).2).2
    (∀ k < polls', ∃ st, stateOf (Prog.nth srv (getRequest uuid) k s₁).1 = .ok st ∧
      st.isPending (some b.stamp) = true) ∧
    ∃ st, stateOf (Prog.nth srv (getRequest uuid) polls' s₁).1 = .ok st ∧
      st.isIssued = true ∧ st.stamp = b.stamp

theorem isIssued_iff :
    st.isIssued = true ↔ st.ref ≠ "" ∧ (st.status = "200" ∨ st.status = "250") := by
  simp [IssueState.isIssued]

theorem settled_stale_iff {b : IssueState} :
    (∃ st, stateOf (settled srv uuid (some b.stamp) polls s).1 = .ok st ∧
      st.isIssued = true ∧ st.stamp = b.stamp) ↔
      (∀ k < polls, ∃ st, stateOf (Prog.nth srv (getRequest uuid) k s).1 = .ok st ∧
        st.isPending (some b.stamp) = true) ∧
      ∃ st, stateOf (Prog.nth srv (getRequest uuid) polls s).1 = .ok st ∧
        st.isIssued = true ∧ st.stamp = b.stamp :=
  settled_pending_iff (p := fun st => st.isIssued = true ∧ st.stamp = b.stamp)
    fun st h => by simp [IssueState.isPending, h.2]

theorem not_isSign_of_looks {looks : List (Request × Reply)}
    (h : ∀ qr ∈ looks, qr.1 = getRequest uuid) : ∀ qr ∈ looks, ¬ IsSign qr.1 := by
  intro qr hqr
  rw [h qr hqr]
  exact not_isSign_getRequest

/-- A trace with one sign in it reports that sign when the stamp has moved. -/
theorem reportsSign_iff {before looks : List (Request × Reply)} {last reply final : Reply}
    {b a : IssueState} (hbefore : ∀ qr ∈ before, ¬ IsSign qr.1)
    (hlooks : ∀ qr ∈ looks, qr.1 = getRequest uuid) (hb : stateOf last = .ok b)
    (ha : stateOf final = .ok a) (hissued : a.isIssued = true) :
    ReportsSign (issueResult uuid b a) (before ++ (getRequest uuid, last) ::
      (verbRequest "sign" uuid, reply) :: (looks ++ [(getRequest uuid, final)])) ↔
      a.stamp ≠ b.stamp := by
  constructor
  · rintro ⟨u, before', last', reply', looks', final', b', a', hu, heq, hlooks', hb', ha', -, -,
      hstamp⟩
    obtain rfl : uuid = u := Option.some.inj hu
    have hassoc : ∀ (l : List (Request × Reply)) x z, l ++ x :: z = (l ++ [x]) ++ z := by simp
    rw [hassoc before, hassoc before'] at heq
    have hquiet : ∀ qr ∈ before ++ [(getRequest uuid, last)], ¬ IsSign qr.1 :=
      List.forall_mem_append.mpr ⟨hbefore, by simpa using not_isSign_getRequest⟩
    have hquiet' : ∀ qr ∈ looks ++ [(getRequest uuid, final)], ¬ IsSign qr.1 :=
      List.forall_mem_append.mpr
        ⟨not_isSign_of_looks hlooks, by simpa using not_isSign_getRequest⟩
    -- the sign is the only one, so both traces are split at the same place
    obtain ⟨hfront, -, hback⟩ := (List.append_cons_inj_of_notMem
      (fun hmem => hquiet _ hmem ⟨uuid, rfl⟩) (fun hmem => hquiet' _ hmem ⟨uuid, rfl⟩)).mp heq
    have hlast := congrArg List.getLast? hfront
    have hfinal := congrArg List.getLast? hback
    rw [List.getLast?_concat, List.getLast?_concat, Option.some.injEq, Prod.mk.injEq]
      at hlast hfinal
    obtain rfl : b = b' := Except.ok.inj (hb.symm.trans (hlast.2 ▸ hb'))
    obtain rfl : a = a' := Except.ok.inj (ha.symm.trans (hfinal.2 ▸ ha'))
    exact hstamp
  · intro hstamp
    obtain ⟨href, hstatus⟩ := isIssued_iff.mp hissued
    exact ⟨uuid, before, last, reply, looks, final, b, a, rfl, rfl, hlooks, hb, ha, href, hstatus,
      hstamp⟩

theorem ensure_issued_returns
    (hbase :
      ((AcmeCertificateManager diffEngine).ensure "present" params checkMode ident).run srv s =
      (.ok result, s₁)) (huuid : result.givenUuid = some uuid)
    (hissue : (issue diffEngine result uuid checkMode renew polls polls').Returns srv s₁ r s' t) :
    (ensure diffEngine "issued" params checkMode ident renew polls polls').Returns srv s r s'
      (((AcmeCertificateManager diffEngine).ensure "present" params checkMode ident).trace srv s ++
        t) := by
  refine Prog.returns_bind.mpr ⟨result, s₁, _, _, Prog.returns_of_run hbase, ?_, rfl⟩
  rw [huuid]
  exact hissue

/-- Where the deadline passes on the stale state, a sign is reported that is not the one posted. -/
theorem issue_returns_stale (result : EnsureResult) (ht : ∀ qr ∈ t, ¬ IsSign qr.1)
    (hstale : StaleAtDeadline srv uuid renew polls polls' s) :
    ∃ r s' t', (issue diffEngine result uuid false renew polls polls').Returns srv s r s' t' ∧
      (r.action = .issued ∨ r.action = .renewed) ∧ ¬ ReportsSign r (t ++ t') := by
  obtain ⟨b, body, hb, hwants, hbody, hpending, a, ha, hissued, hstamp⟩ := hstale
  obtain ⟨a, ha, hissued, hstamp⟩ := settled_stale_iff.mpr ⟨hpending, a, ha, hissued, hstamp⟩
  obtain ⟨s', t₃, hsign⟩ := @signAndWait_returns _ diffEngine _ _ _ _ _ _ _ hbody ha hissued
  obtain ⟨body', a', looks, -, ha', -, -, hlooks, rfl⟩ := returns_signAndWait hsign
  obtain ⟨polled, hpolled, -, hok⟩ := @goesOn_currentIssue _ diffEngine srv s uuid polls _
    false (decideSign diffEngine result uuid false renew polls')
  obtain ⟨hrun, htrace⟩ := hok b hb
  rw [decideSign_of_wants hwants] at hrun htrace
  have hissue := Prog.returns_of_run (hrun.trans hsign.1)
  rw [htrace, hsign.2] at hissue
  have haction : issueAction b = .issued ∨ issueAction b = .renewed := by
    cases hb : b.isIssued <;> simp [issueAction, hb]
  refine ⟨_, _, _, hissue, haction, fun hreport => ?_⟩
  rw [← List.append_assoc] at hreport
  have hbefore := List.forall_mem_append.mpr ⟨ht, not_isSign_of_looks hpolled⟩
  exact (reportsSign_iff hbefore hlooks hb ha hissued).mp hreport hstamp

/-- Everywhere else a sign that is reported is the one posted. -/
theorem issue_reports (ht : ∀ qr ∈ t, ¬ IsSign qr.1)
    (hresult : result.action ≠ .issued ∧ result.action ≠ .renewed)
    (hnot : ¬ StaleAtDeadline srv uuid renew polls polls' s) {t' : List (Request × Reply)}
    (h : (issue diffEngine result uuid false renew polls polls').Returns srv s r s' t')
    (haction : r.action = .issued ∨ r.action = .renewed) : ReportsSign r (t ++ t') := by
  obtain ⟨polled, hpolled, herror, hok⟩ := @goesOn_currentIssue _ diffEngine srv s uuid
    polls _ false (decideSign diffEngine result uuid false renew polls')
  obtain ⟨hrun, rfl⟩ := h
  rw [issue_eq] at hrun ⊢
  cases hb : stateOf (lastBefore srv uuid false polls s).1 with
  | error exc =>
    rw [(herror exc hb).1] at hrun
    cases hrun
  | ok b =>
    rw [(hok b hb).1] at hrun
    rw [(hok b hb).2]
    by_cases hwants : WantsSign false renew b
    · rw [decideSign_of_wants hwants] at hrun ⊢
      obtain ⟨body, a, looks, hbody, ha, hissued, rfl, hlooks, htrace⟩ :=
        returns_signAndWait (Prog.returns_of_run hrun)
      have hbefore := List.forall_mem_append.mpr ⟨ht, not_isSign_of_looks hpolled⟩
      have hfresh : a.stamp ≠ b.stamp := fun hstamp =>
        hnot ⟨b, body, hb, hwants, hbody, settled_stale_iff.mp ⟨a, ha, hissued, hstamp⟩⟩
      rw [htrace, ← List.append_assoc]
      exact (reportsSign_iff hbefore hlooks hb ha hissued).mpr hfresh
    · -- the result of the manager below is handed on, and that one never reports an issue
      have hkeep : (b.isIssued && !renew) = true := by
        by_contra hkeep
        exact hwants ⟨rfl, by simpa using hkeep⟩
      rw [decideSign, if_pos hkeep] at hrun
      cases hrun
      rcases haction with haction | haction
      · exact absurd haction hresult.1
      · exact absurd haction hresult.2

/-- What `ensure("issued")` reports as issued or renewed is the outcome of the sign it posted,
exactly when the deadline of the wait behind the sign does not pass on the stale state. -/
theorem ensure_reports_sign_iff (diffEngine : DiffEngine) (srv : Appliance σ) (s : σ)
    (params : Obj) (ident : Option String) (renew : Bool) (polls polls' : ℕ) :
    (∀ r s' t, (ensure diffEngine "issued" params false ident renew polls polls').Returns
        srv s r s' t → r.action = .issued ∨ r.action = .renewed → ReportsSign r t) ↔
      ¬ ∃ result s₁ uuid,
        ((AcmeCertificateManager diffEngine).ensure "present" params false ident).run srv s =
          (.ok result, s₁) ∧
        result.givenUuid = some uuid ∧ StaleAtDeadline srv uuid renew polls polls' s₁ := by
  constructor
  · rintro hreports ⟨result, s₁, uuid, hbase, huuid, hstale⟩
    obtain ⟨r, s', t', hissue, haction, hnot⟩ :=
      @issue_returns_stale _ diffEngine _ _ _ _ _ _ _ result not_isSign_of_base hstale
    exact hnot (hreports _ _ _ (ensure_issued_returns hbase huuid hissue) haction)
  · intro hnot r s' t h haction
    obtain ⟨result, s₁, t₁, t₂, hbase, hrest, rfl⟩ := Prog.returns_bind.mp h
    cases huuid : result.givenUuid with
    | none =>
      rw [huuid] at hrest
      obtain ⟨rfl, -, -⟩ := Prog.returns_ret.mp hrest
      simp at haction
    | some uuid =>
      rw [huuid] at hrest
      have hquiet : ∀ qr ∈ t₁, ¬ IsSign qr.1 := hbase.2 ▸ not_isSign_of_base
      exact issue_reports hquiet (action_of_base hbase)
        (fun hstale => hnot ⟨result, s₁, uuid, hbase.1, huuid, hstale⟩) hrest haction

/-- A certificate that never changes: the renewal is reported on the status it had before. -/
theorem stale_reported :
    let net := showing (certificate "abc" "200" "1")
    let call := ensure ⟨fun _ _ => false⟩ "issued" [("name", .str "fw")] false (some "u1") true
      60 60
    ∃ r, (call.run net ()).1 = .ok r ∧ r.action = .renewed ∧
      ¬ ReportsSign r (call.trace net ()) := by
  intro net call
  refine ⟨_, rfl, rfl, ?_⟩
  have hsame : ∀ uuid reply, (getRequest uuid, reply) ∈ call.trace net () →
      reply = .ok (.obj [("certificate", .obj (certificate "abc" "200" "1"))]) := by
    intro uuid reply hmem
    obtain ⟨_, hreply⟩ := Prog.reply_of_mem_trace hmem
    exact hreply
  rintro ⟨uuid, before, last, reply, looks, final, b, a, -, htrace, -, hb, ha, -, -, hstamp⟩
  have hlast := hsame uuid last (by simp [htrace])
  have hfinal := hsame uuid final (by simp [htrace])
  rw [hlast] at hb
  rw [hfinal] at ha
  obtain rfl : b = a := Except.ok.inj (hb.symm.trans ha)
  exact hstamp rfl

end Outcome

end AcmeCertificateManager
end Opnsense
