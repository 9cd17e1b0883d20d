import Opnsense.PrivOptions

namespace Opnsense
namespace AuthPriv
open Interaction

/-- Lists of names come without uuids: every assigned name is lost on the way. -/
theorem selectedUuids_names (ns : List String) :
    selectedUuids { assigned := ns } = [] := by
  simp [selectedUuids]

/-- The assigned names of a reply. -/
def Assignees.assigned : Assignees → List String
  | options os _ => (os.filter (·.isSelected)).map (·.name)
  | names ns => ns
  | csv ns _ => ns

theorem mem_targets_assigned {a : Assignees} {n : String} :
    n ∈ a.targets.assigned ↔ n ∈ a.assigned := by
  cases a with
  | options os nodup =>
    simp only [Assignees.targets, mem_assigned_options, Assignees.assigned, List.mem_map,
      List.mem_filter]
    simp [and_assoc]
  | names ns => rfl
  | csv ns plain => rfl

/-- When a change leaves all other assignees alone, shape by shape. -/
def Safe (targetName state : String) : Assignees → Prop
  | .options os _ =>
    if state = "present" then
      ∀ o ∈ os, o.isSelected = true →
        KeptBesides os ((leadsTo os targetName).getD targetName) o
    else
      (∀ o ∈ os, ∀ o' ∈ os, o.isSelected = true → o'.isSelected = true →
        o.name = targetName → o'.name = targetName → o = o') ∧
      ∀ o ∈ os, o.isSelected = true → o.name ≠ targetName → Kept os o
  | .names ns => ∀ n ∈ ns, n = targetName
  | .csv ns _ => ∀ n ∈ ns, n = targetName

/-- Without uuids only the target itself is posted, or nothing. -/
theorem posted_names {ns : List String} {targetName state : String}
    (hstate : state = "present" ∨ state = "absent") :
    (∃ t, t = targetName ∧ (posted { assigned := ns } targetName state).toFinset =
        if state = "present" then insert t ns.toFinset else ns.toFinset.erase t) ↔
      ∀ n ∈ ns, n = targetName := by
  have habsent : ¬ ("absent" = "present") := by decide
  have htarget : targetUuid { assigned := ns } targetName = targetName := rfl
  simp only [exists_eq_left, Finset.ext_iff]
  rcases hstate with rfl | rfl
  · simp only [posted, if_true, selectedUuids_names, htarget]
    constructor
    · -- a second name would have to be posted as well
      intro h n hn
      have hmem := (h n).mpr (Finset.mem_insert_of_mem (List.mem_toFinset.mpr hn))
      simpa using hmem
    · intro h u
      simp only [List.mem_toFinset, List.mem_singleton, Finset.mem_insert]
      exact ⟨Or.inl, fun hu => hu.elim id (h u)⟩
  · simp only [posted, if_neg habsent, selectedUuids_names, htarget]
    constructor
    · intro h n hn
      by_contra hne
      have hmem := (h n).mpr (Finset.mem_erase.mpr ⟨hne, List.mem_toFinset.mpr hn⟩)
      simp at hmem
    · intro h u
      simp only [List.filter_nil, List.toFinset_nil, Finset.notMem_empty, Finset.mem_erase,
        List.mem_toFinset, false_iff, not_and]
      exact fun hne hu => hne (h u hu)

theorem posted_exactly_iff_safe {a : Assignees} {targetName state : String}
    (hstate : state = "present" ∨ state = "absent")
    (hchange : state = "present" ↔ targetName ∉ a.assigned) :
    a.Exactly targetName state (posted a.targets targetName state).toFinset ↔
      Safe targetName state a := by
  cases a with
  | names ns => exact posted_names hstate
  | csv ns plain => exact posted_names hstate
  | options os nodup =>
    rcases hstate with rfl | rfl
    · -- the call adds the target, so no selected option bears its name
      have hun : ∀ o ∈ os, o.isSelected = true → o.name ≠ targetName := by
        intro o ho hsel hname
        apply hchange.mp rfl
        exact List.mem_map.mpr ⟨o, List.mem_filter.mpr ⟨ho, hsel⟩, hname⟩
      exact posted_present_options hun
    · have habsent : ¬ ("absent" = "present") := by decide
      -- the call removes the target, so some selected option does
      have hmem : targetName ∈ (Assignees.options os nodup).assigned := by
        by_contra hnot
        exact habsent (hchange.mpr hnot)
      obtain ⟨o₀, ho₀, hname₀⟩ := List.mem_map.mp hmem
      obtain ⟨ho₀, hsel₀⟩ := List.mem_filter.mp ho₀
      rw [posted_absent_options ho₀ hsel₀ hname₀]
      simp only [Safe, if_neg habsent]
      refine and_congr_left fun _ => ⟨fun h o ho o' ho' hsel hsel' hname hname' => ?_,
        fun h o ho hsel hname => h o ho o₀ ho₀ hsel hsel₀ hname hname₀⟩
      exact (h o ho hsel hname).trans (h o' ho' hsel' hname').symm

section Runs

variable {σ : Type} {srv : Appliance σ} {s : σ}

theorem trace_postTargets {privId targetType targetName state : String} {targets : Targets} :
    ∃ reply, (postTargets privId targetType targetName state targets).trace srv s =
      [(.post { action := "auth/priv/set_item/" ++ privId }
        (payload targetType (posted targets targetName state)), reply)] := by
  refine ⟨(srv (.post { action := "auth/priv/set_item/" ++ privId }
    (payload targetType (posted targets targetName state))) s).1, ?_⟩
  rw [postTargets, Prog.trace_bind, trace_logError, trace_await, run_logError, run_await]
  split <;> rfl

/-- A call that posts reads the assignment first and posts the set computed from it. -/
theorem ensure_posts {privId targetType targetName state : String} {body : Obj} {a : Assignees}
    (hreply : (srv (.get { action := "auth/priv/get_item/" ++ privId }) s).1 = .ok (.obj body))
    (hcarries : Carries body targetType a.raw)
    (hposts : ∃ qr ∈ (ensure privId targetType targetName state false).trace srv s,
      qr.1.isWrite = true) :
    (state = "present" ∨ state = "absent") ∧ (state = "present" ↔ targetName ∉ a.assigned) ∧
    ∃ reply, (ensure privId targetType targetName state false).trace srv s =
      [(.get { action := "auth/priv/get_item/" ++ privId }, .ok (.obj body)),
        (.post { action := "auth/priv/set_item/" ++ privId }
          (payload targetType (posted a.targets targetName state)), reply)] := by
  obtain ⟨qr, hqr, hw⟩ := hposts
  have hget : (await (.get { action := "auth/priv/get_item/" ++ privId })).run srv s =
      (.ok (.obj body), (srv (.get { action := "auth/priv/get_item/" ++ privId }) s).2) := by
    rw [run_await, hreply]
  have hextract := extractTargets_of_carries hcarries
  have hmem : a.targets.assigned.contains targetName = true ↔ targetName ∈ a.assigned := by
    rw [List.contains_iff_mem, mem_targets_assigned]
  -- a call that stops after its read has posted nothing
  have hread : ¬ ∃ qr ∈ [((.get { action := "auth/priv/get_item/" ++ privId } : Request),
      (.ok (.obj body) : Reply))], qr.1.isWrite = true := by
    simp [Request.isWrite]
  unfold ensure at hqr ⊢
  split at hqr
  · simp at hqr
  rename_i htype
  split at hqr
  · simp at hqr
  rename_i hstate
  have hstate' : state = "present" ∨ state = "absent" := by tauto
  rw [if_neg htype, if_neg hstate]
  rw [Prog.trace_bind_of_ok hget] at hqr ⊢
  simp only [trace_await, hreply, hextract, Prog.ofExcept, Prog.ret_bind] at hqr ⊢
  split at hqr
  · exact absurd ⟨qr, by simpa using hqr, hw⟩ hread
  rename_i hpresent
  split at hqr
  · exact absurd ⟨qr, by simpa using hqr, hw⟩ hread
  rename_i habsent
  obtain ⟨reply, htrace⟩ := @trace_postTargets _ srv
    (srv (.get { action := "auth/priv/get_item/" ++ privId }) s).2
    privId targetType targetName state a.targets
  refine ⟨hstate', ?_, reply, ?_⟩
  · rw [hmem] at hpresent
    rw [Bool.not_eq_true', ← Bool.not_eq_true, hmem] at habsent
    constructor
    · intro h hn
      exact hpresent ⟨h, hn⟩
    · intro hn
      rcases hstate' with h | h
      · exact h
      · exact absurd ⟨h, hn⟩ habsent
  · rw [if_neg hpresent, if_neg habsent, if_neg (by decide), htrace]
    rfl

/-- When `ensure` posts, it posts the set it computed from the reply, and that set is
the current one plus, or minus, exactly the requested target if and only if the change
is safe for the others. -/
theorem ensure_posts_exactly_iff (privId targetType targetName state : String) (body : Obj)
    (a : Assignees) (srv : Appliance σ) (s : σ)
    (hreply : (srv (.get { action := "auth/priv/get_item/" ++ privId }) s).1 = .ok (.obj body))
    (hcarries : Carries body targetType a.raw)
    (hposts : ∃ qr ∈ (ensure privId targetType targetName state false).trace srv s,
      qr.1.isWrite = true) :
    ∃ uuids reply, (ensure privId targetType targetName state false).trace srv s =
        [(.get { action := "auth/priv/get_item/" ++ privId }, .ok (.obj body)),
          (.post { action := "auth/priv/set_item/" ++ privId } (payload targetType uuids),
            reply)] ∧
      uuids = posted a.targets targetName state ∧
      (a.Exactly targetName state uuids.toFinset ↔ Safe targetName state a) := by
  obtain ⟨hstate, hchange, reply, htrace⟩ := ensure_posts hreply hcarries hposts
  exact ⟨_, reply, htrace, rfl, posted_exactly_iff_safe hstate hchange⟩

end Runs

/-- Every get answers the body, every post is saved. -/
def privServer (body : Obj) : Appliance Unit
  | .get .., _ => (.ok (.obj body), ())
  | _, _ => (.ok (.obj [("result", .str "saved")]), ())

theorem ensure_posts_exactly_iff_sample :
    let a : Assignees := .names ["alice"]
    let body : Obj := [("priv", .obj [("users", a.raw)])]
    ∃ uuids reply, (ensure "page-all" "user" "carol" "present" false).trace (privServer body) () =
        [(.get { action := "auth/priv/get_item/page-all" }, .ok (.obj body)),
          (.post { action := "auth/priv/set_item/page-all" } (payload "user" uuids), reply)] ∧
      uuids = posted a.targets "carol" "present" ∧
      (a.Exactly "carol" "present" uuids.toFinset ↔ Safe "carol" "present" a) :=
  ensure_posts_exactly_iff "page-all" "user" "carol" "present" _ (.names ["alice"])
    (privServer _) ()
    rfl (Or.inl ⟨_, rfl, rfl⟩) ⟨_, List.mem_cons_of_mem _ (List.mem_singleton.mpr rfl), rfl⟩

/-- A list of names drops everyone else, and of two assigned targets with one name the
dict shape drops the first. -/
theorem ensure_posts_not_exactly :
    let names : Assignees := .names ["alice", "bob"]
    let twins : Assignees := .options
      [⟨"u1", .str "alex", .int 1⟩, ⟨"u2", .str "alex", .int 1⟩, ⟨"u3", .str "carol", .int 0⟩]
      (by decide)
    let body : Assignees → Obj := fun a => [("priv", .obj [("users", a.raw)])]
    ((ensure "page-all" "user" "carol" "present" false).trace (privServer (body names)) ()).map
        (fun qr => qr.1) =
      [.get { action := "auth/priv/get_item/page-all" },
        .post { action := "auth/priv/set_item/page-all" }
          [("priv", .obj [("users", .str "carol")])]] ∧
    ¬ names.Exactly "carol" "present" (posted names.targets "carol" "present").toFinset ∧
    ((ensure "page-all" "user" "carol" "present" false).trace (privServer (body twins)) ()).map
        (fun qr => qr.1) =
      [.get { action := "auth/priv/get_item/page-all" },
        .post { action := "auth/priv/set_item/page-all" }
          [("priv", .obj [("users", .str "u2,u3")])]] ∧
    ¬ twins.Exactly "carol" "present" (posted twins.targets "carol" "present").toFinset := by
  refine ⟨rfl, ?_, rfl, ?_⟩
  · rintro ⟨t, rfl, h⟩
    revert h
    decide
  · rintro ⟨t, -, h⟩
    have hdropped := (Finset.ext_iff.mp h "u1").mpr (Finset.mem_insert_of_mem (by decide))
    revert hdropped
    decide

end AuthPriv
end Opnsense
