import Opnsense.Interaction.Rely
import Opnsense.SettingsConvergence

/-! Singleton managers that share one settings document and run at once. A set request carries
what its caller declares and no more, so as long as no two of them declare the same field, no
update is lost, whatever the order of the requests and whatever faults they meet. -/
namespace Opnsense
open Interaction DiffEngine

/-- What two documents name both, they name as a block. -/
def ShareBlocks (d d' : Obj) : Prop :=
  ∀ path v v', valueAt path (.obj d) = some v → valueAt path (.obj d') = some v' →
    v.isDict = true ∧ v'.isDict = true

section Documents

variable {old d d' : Obj} {path : List String} {v : Json}

/-- A field that only the first document names stays as it was. -/
theorem valueAt_merged_of_shareBlocks (hkeyed : Keyed (.obj d'))
    (hblocks : KeepsBlocks (some (.obj old)) (.obj d')) (hshare : ShareBlocks d d')
    (hv : valueAt path (.obj d) = some v) (hflat : v.isDict = false) :
    valueAt path (.obj (mergeFields old d')) = valueAt path (.obj old) := by
  apply valueAt_mergeFields_of_unnamed hkeyed hblocks
  by_contra hnamed
  obtain ⟨v', hv'⟩ := Option.ne_none_iff_exists'.mp hnamed
  have hdict := (hshare path v v' hv hv').1
  rw [hflat] at hdict
  cases hdict

/-- Merging one document leaves the other with no block to overwrite. -/
theorem KeepsBlocks.merged (hkeyed : Keyed (.obj d'))
    (hblocks' : KeepsBlocks (some (.obj old)) (.obj d')) (hshare : ShareBlocks d d')
    (hblocks : KeepsBlocks (some (.obj old)) (.obj d)) :
    KeepsBlocks (some (.obj (mergeFields old d'))) (.obj d) := by
  intro path v w hv hw hdict
  rcases hnamed : valueAt path (.obj d') with _ | v'
  · rw [Option.bind_some, valueAt_mergeFields_of_unnamed hkeyed hblocks' hnamed] at hw
    exact hblocks path v w hv hw hdict
  · exact (hshare path v v' hv hnamed).1

/-- Nor does a document that was merged have one to overwrite. -/
theorem KeepsBlocks.merged_self (hkeyed : Keyed (.obj d)) :
    KeepsBlocks (some (.obj (mergeFields old d))) (.obj d) := by
  intro path v w hv hw hdict
  rw [Option.bind_some, valueAt_mergeFields_of_named hkeyed hv, Option.some.injEq] at hw
  by_cases hflat : v.isDict = false
  · rw [mergeValue_of_flat hflat] at hw
    rwa [hw]
  · simpa using hflat

theorem ShareBlocks.symm (h : ShareBlocks d d') : ShareBlocks d' d :=
  fun path v' v hv' hv => (h path v v' hv hv').symm

/-- Told key by key: a key of both holds a block in both. -/
theorem shareBlocks_of_keys (h : ∀ key v v', d.lookup key = some v → d'.lookup key = some v' →
    ∃ c c', v = .obj c ∧ v' = .obj c' ∧ ShareBlocks c c') : ShareBlocks d d' := by
  intro path v v' hv hv'
  cases path with
  | nil =>
    rw [valueAt_nil, Option.some.injEq] at hv hv'
    rw [← hv, ← hv']
    exact ⟨rfl, rfl⟩
  | cons key path =>
    rw [valueAt_cons_obj, Option.bind_eq_some_iff] at hv hv'
    obtain ⟨w, hw, hv⟩ := hv
    obtain ⟨w', hw', hv'⟩ := hv'
    obtain ⟨c, c', rfl, rfl, hshare⟩ := h key w w' hw hw'
    exact hshare path v v' hv hv'

/-- Documents without a key in common share nothing. -/
theorem shareBlocks_of_disjoint (h : (d.map (·.1)).Disjoint (d'.map (·.1))) :
    ShareBlocks d d' := by
  apply shareBlocks_of_keys
  intro key v v' hv hv'
  have hmem := List.mem_map_of_mem (f := (·.1)) (Obj.mem_of_lookup hv)
  exact absurd (List.mem_map_of_mem (f := (·.1)) (Obj.mem_of_lookup hv')) (h hmem)

end Documents

namespace BaseSingletonManager

variable (m : BaseSingletonManager)

/-- Where the block of the manager is. -/
def sectionPath : List String := m.sectionKey.toList

theorem valueAt_ownFields {path : List String} (hpath : path ≠ []) (doc : Obj) :
    valueAt path (.obj (m.ownFields doc)) = valueAt (m.sectionPath ++ path) (.obj doc) := by
  unfold ownFields sectionPath
  cases m.sectionKey with
  | none => rfl
  | some key =>
    cases path with
    | nil => exact absurd rfl hpath
    | cons k path =>
      rw [Option.toList_some, List.singleton_append, valueAt_cons_obj, valueAt_cons_obj,
        bind_valueAt_cons]

theorem valueAt_sent (path : List String) (params : Obj) :
    valueAt (m.sectionPath ++ path) (.obj (m.sent params)) = valueAt path (.obj params) := by
  unfold sent sectionPath
  cases m.sectionKey with
  | none => rfl
  | some key =>
    rw [Option.toList_some, List.singleton_append, valueAt_cons_obj, List.lookup_cons_self,
      Option.bind_some]

theorem getLastD_sectionPath (key : String) (path : List String) :
    (m.sectionPath ++ key :: path).getLastD "" = path.getLastD key := by
  unfold sectionPath
  cases m.sectionKey with
  | none => exact List.getLastD_cons
  | some k =>
    rw [Option.toList_some, List.singleton_append, List.getLastD_cons, List.getLastD_cons]

end BaseSingletonManager

/-- The managers of one document, each with what it is called with. A request that the server
answers with an error leaves the document alone. -/
structure SharedSettings (ι : Type) (hidden : String → Prop) (σ : Type) where
  manager : ι → BaseSingletonManager
  state : ι → String
  params : ι → Obj
  serve : Appliance σ
  stored : σ → Obj
  view : σ → Obj
  displays : ∀ s, Displays hidden "" (.obj (stored s)) (.obj (view s))
  served : ∀ i, (manager i).ServedBy serve stored view
  failed_keeps : ∀ q s e s', serve q s = (.error e, s') → stored s' = stored s

namespace SharedSettings

variable {ι : Type} {hidden : String → Prop} {σ : Type} (shared : SharedSettings ι hidden σ)

/-- The document and the faults still to come. -/
abbrev World (σ : Type) := σ × List (Fault Exc)

def network : Appliance (World σ) := faulty Except.error shared.serve

/-- The document of a client: what it sends when something drifted. -/
def doc (i : ι) : Obj := (shared.manager i).sent (shared.params i)

/-- The block of a client in a document. -/
def block (i : ι) (d : Obj) : Obj := (shared.manager i).ownFields d

def call (i : ι) : M EnsureResult :=
  (shared.manager i).ensure (shared.state i) (shared.params i)

/-- The parameters are texts, no stored block is overwritten, and no field is declared twice. -/
structure Compatible (d₀ : Obj) : Prop where
  text : ∀ i, IsText (.obj (shared.params i))
  blocks : ∀ i, KeepsBlocks (some (.obj d₀)) (.obj (shared.doc i))
  apart : ∀ i j, i ≠ j → ShareBlocks (shared.doc i) (shared.doc j)

/-- No client would overwrite a block. -/
def Sound (d : Obj) : Prop := ∀ i, KeepsBlocks (some (.obj d)) (.obj (shared.doc i))

/-- The fields a client declares are as they were. -/
def Untouched (d₀ : Obj) (i : ι) (d : Obj) : Prop :=
  ∀ path text, valueAt path (.obj (shared.params i)) = some (.str text) →
    valueAt path (.obj (shared.block i d)) = valueAt path (.obj (shared.block i d₀))

/-- They are as they are declared. -/
def Stored (i : ι) (d : Obj) : Prop :=
  ∀ path text, valueAt path (.obj (shared.params i)) = some (.str text) →
    valueAt path (.obj (shared.block i d)) = some (.str text)

/-- Those the block has are as declared, or a hash of it, unless their name is write-only. -/
def Held (i : ι) (d : Obj) : Prop :=
  ∀ path text, valueAt path (.obj (shared.params i)) = some (.str text) →
    isWriteOnlyKey (path.getLastD "") = false →
    ∀ w, valueAt path (.obj (shared.block i d)) = some w →
      ∃ held, w = .str held ∧
        (held = text ∨ (shared.manager i).diffEngine.hashMatches held text = true)

/-- What a client comes to: its update is stored as a whole, or it was not called for, or it
failed and is there as a whole or not at all. -/
def Outcome (d₀ : Obj) (i : ι) : Except Exc EnsureResult → Obj → Prop
  | .ok r, d => r.changed = true ∧ r.action = .updated ∧ shared.Stored i d ∨
      r.changed = false ∧ r.action = .noop ∧ shared.Untouched d₀ i d ∧ shared.Held i d₀
  | .error _, d => shared.Untouched d₀ i d ∨ shared.Stored i d

variable {shared} {d₀ d : Obj} {i j : ι}

theorem keyed_doc (h : shared.Compatible d₀) (i : ι) : Keyed (.obj (shared.doc i)) :=
  SettingsServer.keyed_sent (keyed_of_isText (h.text i))

theorem sound_merged (h : shared.Compatible d₀) (hd : shared.Sound d) (j : ι) :
    shared.Sound (mergeFields d (shared.doc j)) := by
  intro i
  by_cases hij : i = j
  · subst hij
    exact KeepsBlocks.merged_self (keyed_doc h i)
  · exact KeepsBlocks.merged (keyed_doc h j) (hd j) (h.apart i j hij) (hd i)

/-- The update of one client leaves the fields of the others alone. -/
theorem valueAt_block_merged (h : shared.Compatible d₀) (hd : shared.Sound d) (hij : i ≠ j)
    {path : List String} {text : String}
    (hpath : valueAt path (.obj (shared.params i)) = some (.str text)) :
    valueAt path (.obj (shared.block i (mergeFields d (shared.doc j)))) =
      valueAt path (.obj (shared.block i d)) := by
  have hne : path ≠ [] := by
    rintro rfl
    cases hpath
  rw [block, block, BaseSingletonManager.valueAt_ownFields _ hne,
    BaseSingletonManager.valueAt_ownFields _ hne]
  have hnamed : valueAt ((shared.manager i).sectionPath ++ path) (.obj (shared.doc i)) =
      some (.str text) := by
    rw [doc, BaseSingletonManager.valueAt_sent]
    exact hpath
  exact valueAt_merged_of_shareBlocks (keyed_doc h j) (hd j) (h.apart i j hij) hnamed rfl

theorem untouched_merged (h : shared.Compatible d₀) (hd : shared.Sound d) (hij : i ≠ j)
    (hi : shared.Untouched d₀ i d) : shared.Untouched d₀ i (mergeFields d (shared.doc j)) :=
  fun path text hpath => (valueAt_block_merged h hd hij hpath).trans (hi path text hpath)

theorem stored_merged (h : shared.Compatible d₀) (hd : shared.Sound d) (hij : i ≠ j)
    (hi : shared.Stored i d) : shared.Stored i (mergeFields d (shared.doc j)) :=
  fun path text hpath => (valueAt_block_merged h hd hij hpath).trans (hi path text hpath)

/-- Its own update stores what it declares. -/
theorem stored_merged_self (h : shared.Compatible d₀) (d : Obj) (i : ι) :
    shared.Stored i (mergeFields d (shared.doc i)) := by
  intro path text hpath
  rw [block, doc, BaseSingletonManager.ownFields_mergeFields,
    valueAt_mergeFields_of_named (keyed_of_isText (h.text i)) hpath, mergeValue_of_flat rfl]

/-- Where nothing drifts, what is declared is held. -/
theorem held_of_settled (h : shared.Compatible d₀) (hstored : IsText (.obj d₀))
    (hhidden : ∀ key, hidden key → isWriteOnlyKey key = true) {s : σ}
    (hi : shared.Untouched d₀ i (shared.stored s))
    (hdiff : (shared.manager i).diffEngine.computeDiff
      ((shared.manager i).ownFields (shared.view s)) (shared.params i) = none) :
    shared.Held i d₀ := by
  intro path text hpath hname w hw
  have hkeyed := keyed_of_isText (h.text i)
  have hnow : valueAt path (.obj (shared.block i (shared.stored s))) = some w :=
    (hi path text hpath).trans hw
  cases path with
  | nil => cases hpath
  | cons key path =>
    -- a text was stored here, and shown when it was compared
    have hne : key :: path ≠ [] := List.cons_ne_nil key path
    have hflat : w.isDict = false := by
      have hblocks := h.blocks i ((shared.manager i).sectionPath ++ key :: path) (.str text) w
      rw [doc, BaseSingletonManager.valueAt_sent, Option.bind_some,
        ← BaseSingletonManager.valueAt_ownFields _ hne] at hblocks
      simpa [Json.isDict] using hblocks hpath hw
    have htext : IsText w := by
      rw [block, BaseSingletonManager.valueAt_ownFields _ hne] at hw
      exact isText_valueAt hstored hw
    obtain ⟨held, rfl⟩ := text_of_isText htext hflat
    have hat : valueAt ((shared.manager i).sectionPath ++ key :: path)
        (.obj (shared.stored s)) = some (.str held) := by
      rw [← BaseSingletonManager.valueAt_ownFields _ hne]
      exact hnow
    obtain ⟨shown, hshown, hdisplays⟩ := (shared.displays s).shown hat
    rw [← BaseSingletonManager.valueAt_ownFields _ hne] at hshown
    rw [BaseSingletonManager.getLastD_sectionPath] at hdisplays
    rw [List.getLastD_cons] at hname
    have hsettled := (computeDiff_eq_none_iff_allSettled hkeyed).mp hdiff key path _ shown hpath
      hshown
    exact ⟨held, rfl, Opnsense.held_of_settled hhidden hname hdisplays hsettled⟩

section Logic

variable (shared) (i)

/-- The others merge their documents, and nothing else. -/
def Relies (s s' : World σ) : Prop :=
  shared.stored s'.1 = shared.stored s.1 ∨
    ∃ j, j ≠ i ∧ shared.stored s'.1 = mergeFields (shared.stored s.1) (shared.doc j)

def Promises (s s' : World σ) : Prop :=
  shared.stored s'.1 = shared.stored s.1 ∨
    shared.stored s'.1 = mergeFields (shared.stored s.1) (shared.doc i)

/-- An assertion about the document that the others do not break. -/
def Kept (P : Obj → Prop) : Prop := ∀ d j, j ≠ i → P d → P (mergeFields d (shared.doc j))

/-- A program of client `i`, from `P` to `post`, both told of the document. -/
def DocTriple {α : Type} (P : Obj → Prop) (p : M α) (post : Except Exc α → Obj → Prop) : Prop :=
  Prog.Secures shared.network (shared.Relies i) (shared.Promises i)
    (fun o s => post o (shared.stored s.1)) p fun s => P (shared.stored s.1)

end Logic

variable {α β : Type} {P Q : Obj → Prop} {post : Except Exc α → Obj → Prop}

theorem Kept.stable (h : shared.Kept i P) :
    Stable (shared.Relies i) fun s => P (shared.stored s.1) := by
  rintro s s' (hsame | ⟨j, hji, hmerged⟩) hs
  · rw [hsame]
    exact hs
  · rw [hmerged]
    exact h _ j hji hs

theorem docTriple_bind {p : M β} {f : β → M α} (mid : Except Exc β → Obj → Prop)
    (hp : shared.DocTriple i P p mid)
    (hok : ∀ b, shared.DocTriple i (mid (.ok b)) (f b) post)
    (herr : ∀ e d, mid (.error e) d → post (.error e) d) :
    shared.DocTriple i P (p >>= f) post :=
  Prog.secures_bind _ hp hok fun e _ he => herr e _ he

theorem docTriple_ofExcept {x : Except Exc α} (h : ∀ d, P d → post x d) :
    shared.DocTriple i P (.ofExcept x) post :=
  Prog.secures_ofExcept fun _ hs => h _ hs

/-- A request: what the server makes of it and answers, or a fault in its place. -/
theorem docTriple_await {q : Request} (told : Reply → Obj → Prop)
    (hkept : ∀ r, shared.Kept i (told r))
    (hq : ∀ s, P (shared.stored s) → shared.Promises i (s, []) ((shared.serve q s).2, []) ∧
      told (shared.serve q s).1 (shared.stored (shared.serve q s).2) ∧
      ∀ e, told (.error e) (shared.stored s) ∧
        told (.error e) (shared.stored (shared.serve q s).2)) :
    shared.DocTriple i P (await q) told := by
  refine ⟨fun r s => told r (shared.stored s.1), fun r => (hkept r).stable, ?_, ?_⟩
  · rintro ⟨s, fs⟩ hs
    obtain ⟨hmoves, htold, hfault⟩ := hq s hs
    rcases faulty_cases Except.error shared.serve q s fs with
      ⟨hreply, hstate⟩ | ⟨e, hreply, hstate | hstate⟩
    · simp only [Promises, network, hreply, hstate] at hmoves ⊢
      exact ⟨hmoves, htold⟩
    · simp only [Promises, network, hreply, hstate]
      exact ⟨Or.inl trivial, (hfault e).1⟩
    · simp only [Promises, network, hreply, hstate] at hmoves ⊢
      exact ⟨hmoves, (hfault e).2⟩
  · intro r
    exact Prog.secures_ofExcept fun _ h => h

theorem docTriple_mono {p : M α} {post' : Except Exc α → Obj → Prop}
    (h : shared.DocTriple i P p post) (hQ : ∀ d, Q d → P d) (hpost : ∀ o d, post o d → post' o d) :
    shared.DocTriple i Q p post' :=
  Prog.secures_mono h (fun _ hs => hQ _ hs) fun _ _ hs => hpost _ _ hs

theorem docTriple_logError {p : M α} {message : Exc → String} {extra : Exc → Obj}
    (h : shared.DocTriple i P p post) : shared.DocTriple i P (logError p message extra) post :=
  Prog.secures_onError h

theorem docTriple_of_forall {p : M α} (φ : Prop) (hφ : ∀ d, P d → φ)
    (h : φ → shared.DocTriple i P p post) : shared.DocTriple i P p post :=
  Prog.secures_of_forall φ (fun _ hs => hφ _ hs) h

/-- What the client reads is the block as it was shown at some moment when `P` held. -/
theorem docTriple_get (hP : shared.Kept i P) :
    shared.DocTriple i P (shared.manager i).get fun o d => P d ∧ ∀ v, o = .ok v →
      ∃ s, P (shared.stored s) ∧ v = .obj ((shared.manager i).ownFields (shared.view s)) := by
  unfold BaseSingletonManager.get
  refine docTriple_bind (fun reply d => P d ∧ ∀ w, reply = .ok w → ∃ s, P (shared.stored s) ∧
    w = .obj [((shared.manager i).payloadKey, .obj (shared.view s))]) ?_ ?_ ?_
  · refine docTriple_logError (docTriple_await _ (fun r d j hji hr => ⟨hP d j hji hr.1, hr.2⟩) ?_)
    intro s hs
    have hview := (shared.served i).get_view s
    rw [BaseSingletonManager.getEndpoint] at hview
    rw [hview]
    refine ⟨Or.inl rfl, ⟨hs, fun w hw => ⟨s, hs, (Except.ok.inj hw).symm⟩⟩, fun e => ?_⟩
    exact ⟨⟨hs, fun w hw => by cases hw⟩, hs, fun w hw => by cases hw⟩
  · intro body
    refine docTriple_of_forall (∃ s, P (shared.stored s) ∧
      body = .obj [((shared.manager i).payloadKey, .obj (shared.view s))])
      (fun d hd => hd.2 body rfl) ?_
    rintro ⟨s, hs, rfl⟩
    have hunwrap : unwrap (shared.manager i).payloadKey
        (.obj [((shared.manager i).payloadKey, .obj (shared.view s))]) =
          .ok (.obj (shared.view s)) := by
      simp [unwrap, Obj.getD]
    rw [hunwrap]
    simp only [← BaseSingletonManager.ownSection_obj]
    exact fun _ h => ⟨h.1, fun v hv => ⟨s, hs, (Except.ok.inj hv).symm⟩⟩
  · exact fun e d hd => ⟨hd.1, fun v hv => by cases hv⟩

/-- An apply is nothing to the document. -/
theorem docTriple_apply (hP : shared.Kept i P) :
    shared.DocTriple i P (shared.manager i).apply fun _ d => P d := by
  unfold BaseSingletonManager.apply
  split
  · exact fun _ hs => hs
  · rename_i ep hep
    refine docTriple_bind (fun _ d => P d) ?_ (fun _ => fun _ hs => hs) fun _ _ hd => hd
    refine docTriple_logError (docTriple_await _ (fun _ => hP) fun s hs => ?_)
    let opts : CallOptions := { timeout := (shared.manager i).applyTimeout }
    have hsame : shared.stored (shared.serve (.reconfigure ep opts) s).2 = shared.stored s := by
      rcases hreply : shared.serve (.reconfigure ep opts) s with ⟨e | w, s'⟩
      · exact shared.failed_keeps _ _ _ _ hreply
      · exact (shared.served i).apply_keeps _ _ _ _ _ hreply
    rw [hsame]
    exact ⟨Or.inl hsame, hs, fun _ => ⟨hs, hs⟩⟩

/-- Behind a write from `P` to `Q`; one that failed may have been carried out. -/
def Written (P Q : Obj → Prop) : Except Exc α → Obj → Prop
  | .ok _, d => Q d
  | .error _, d => P d ∨ Q d

theorem kept_written (hP : shared.Kept i P) (hQ : shared.Kept i Q) (o : Except Exc α) :
    shared.Kept i (Written P Q o) := by
  intro d j hji h
  cases o with
  | ok a => exact hQ d j hji h
  | error e => exact h.imp (hP d j hji) (hQ d j hji)

/-- A set request merges the document of its client, or it does nothing. -/
theorem docTriple_post (hP : shared.Kept i P) (hQ : shared.Kept i Q)
    (hmerge : ∀ d, P d → Q (mergeFields d (shared.doc i))) :
    shared.DocTriple i P (await (.post (shared.manager i).setEndpoint
      ((shared.manager i).payload (shared.params i)))) (Written P Q) := by
  refine docTriple_await _ (kept_written hP hQ) fun s hs => ?_
  rw [BaseSingletonManager.payload_eq]
  rcases hreply : shared.serve (.post (shared.manager i).setEndpoint
    [((shared.manager i).payloadKey, .obj ((shared.manager i).sent (shared.params i)))]) s
    with ⟨e | w, s'⟩
  · have hsame := shared.failed_keeps _ _ _ _ hreply
    have hold : P (shared.stored s') := by rwa [hsame]
    exact ⟨Or.inl hsame, Or.inl hold, fun _ => ⟨Or.inl hs, Or.inl hold⟩⟩
  · have hmerged := (shared.served i).set_merges _ _ _ _ hreply
    have hnew : Q (shared.stored s') := by
      rw [hmerged]
      exact hmerge _ hs
    exact ⟨Or.inr hmerged, hnew, fun _ => ⟨Or.inl hs, Or.inr hnew⟩⟩

section Call

variable (h : shared.Compatible d₀)
include h

/-- What the client declares is as it was, or as declared; either way the others keep it so. -/
theorem kept_untouched : shared.Kept i fun d => shared.Sound d ∧ shared.Untouched d₀ i d :=
  fun _ j hji hd => ⟨sound_merged h hd.1 j, untouched_merged h hd.1 (Ne.symm hji) hd.2⟩

theorem kept_stored : shared.Kept i fun d => shared.Sound d ∧ shared.Stored i d :=
  fun _ j hji hd => ⟨sound_merged h hd.1 j, stored_merged h hd.1 (Ne.symm hji) hd.2⟩

theorem docTriple_set (hstored : IsText (.obj d₀))
    (hhidden : ∀ key, hidden key → isWriteOnlyKey key = true) :
    shared.DocTriple i (fun d => shared.Sound d ∧ shared.Untouched d₀ i d)
      ((shared.manager i).set (shared.params i) false) (shared.Outcome d₀ i) := by
  have hfresh := kept_untouched (i := i) h
  have hdone := kept_stored (i := i) h
  unfold BaseSingletonManager.set
  refine docTriple_bind _ (docTriple_get hfresh) (fun before => ?_)
    fun e d hd => Or.inl hd.1.2
  refine docTriple_of_forall (∃ s, (shared.Sound (shared.stored s) ∧
    shared.Untouched d₀ i (shared.stored s)) ∧
      before = .obj ((shared.manager i).ownFields (shared.view s)))
    (fun d hd => hd.2 before rfl) ?_
  rintro ⟨s, hs, rfl⟩
  obtain ⟨shown, hshown⟩ := redactDict_obj (shared.manager i).redactFields
    ((shared.manager i).ownFields (shared.view s))
  obtain ⟨after, hafter⟩ := redactDict_obj (shared.manager i).redactFields
    (((shared.manager i).ownFields (shared.view s)).overlay (shared.params i))
  have hdiff : (shared.manager i).diff (.obj ((shared.manager i).ownFields (shared.view s)))
      (shared.params i) = .ret ((shared.manager i).diffEngine.computeDiff
        ((shared.manager i).ownFields (shared.view s)) (shared.params i)) := rfl
  rw [hdiff, hshown, spread]
  simp only [Prog.ret_bind, Prog.ofExcept, hafter, Bool.false_eq_true, if_false]
  split
  · rename_i hnone
    have hheld := held_of_settled h hstored hhidden hs.2 (Option.isNone_iff_eq_none.mp hnone)
    exact fun _ hd => Or.inr ⟨rfl, rfl, hd.1.2, hheld⟩
  · -- the write, the apply behind it, and the read that reports what was made of it
    refine docTriple_bind (Written (fun d => shared.Sound d ∧ shared.Untouched d₀ i d)
      fun d => shared.Sound d ∧ shared.Stored i d) ?_ (fun _ => ?_) ?_
    · refine docTriple_logError (docTriple_bind (Written _ _) (docTriple_mono
        (docTriple_post hfresh hdone ?_) (fun _ hd => hd.1) fun _ _ hd => hd) (fun _ => ?_) ?_)
      · exact fun d hd => ⟨sound_merged h hd.1 i, stored_merged_self h d i⟩
      · refine docTriple_mono (docTriple_apply hdone) (fun _ hd => hd) fun o d hd => ?_
        cases o with
        | ok u => exact hd
        | error e => exact Or.inr hd
      · exact fun _ _ hd => hd
    · refine docTriple_bind _ (docTriple_get hdone) (fun actual => ?_)
        fun e d hd => Or.inr hd.1.2
      refine docTriple_of_forall (∃ s, actual =
        .obj ((shared.manager i).ownFields (shared.view s))) (fun d hd => ?_) ?_
      · obtain ⟨s, -, hs⟩ := hd.2 actual rfl
        exact ⟨s, hs⟩
      · rintro ⟨s', rfl⟩
        obtain ⟨reported, hreported⟩ := redactDict_obj (shared.manager i).redactFields
          ((shared.manager i).ownFields (shared.view s'))
        rw [hreported]
        exact fun _ hd => Or.inl ⟨rfl, rfl, hd.1.2⟩
    · exact fun e d hd => hd.imp And.right And.right

/-- A call comes to its outcome, whatever the others declare meanwhile. -/
theorem docTriple_call (hstored : IsText (.obj d₀))
    (hhidden : ∀ key, hidden key → isWriteOnlyKey key = true) :
    shared.DocTriple i (fun d => shared.Sound d ∧ shared.Untouched d₀ i d) (shared.call i)
      (shared.Outcome d₀ i) := by
  unfold call BaseSingletonManager.ensure
  refine docTriple_bind (fun _ d => shared.Sound d ∧ shared.Untouched d₀ i d) ?_
    (fun _ => docTriple_set h hstored hhidden) fun e d hd => Or.inl hd.2
  unfold BaseSingletonManager.validate
  dsimp only
  split
  · exact fun _ hd => hd
  · split
    · exact docTriple_logError (docTriple_ofExcept fun _ hd => hd)
    · exact fun _ hd => hd

end Call

section Questions

variable {m : BaseSingletonManager} {params : Obj}

theorem asksAtMost_get : m.get.AsksAtMost 1 :=
  Prog.asksAtMost_bind_quiet (asksAtMost_logError (asksAtMost_await _)) fun _ =>
    Prog.asksAtMost_ofExcept_bind fun _ => trivial

theorem asksAtMost_apply : m.apply.AsksAtMost 1 := by
  unfold BaseSingletonManager.apply
  split
  · trivial
  · exact Prog.asksAtMost_bind_quiet (asksAtMost_logError (asksAtMost_await _)) fun _ => trivial

theorem asksAtMost_set : (m.set params false).AsksAtMost 4 := by
  have hdiff : ∀ before, (m.diff before params).AsksAtMost 0 := fun before =>
    asksAtMost_logError (Prog.asksAtMost_ofExcept _ 0)
  unfold BaseSingletonManager.set
  refine Prog.asksAtMost_bind (n := 3) asksAtMost_get fun before => ?_
  refine Prog.asksAtMost_bind (n := 3) (hdiff before) fun diff => ?_
  refine Prog.asksAtMost_ofExcept_bind fun redactedBefore => ?_
  split
  · trivial
  · refine Prog.asksAtMost_ofExcept_bind fun current => ?_
    refine Prog.asksAtMost_ofExcept_bind fun redactedAfter => ?_
    refine Prog.asksAtMost_bind (m := 2) (n := 1) (asksAtMost_logError ?_) fun _ => ?_
    · exact Prog.asksAtMost_bind (n := 1) (asksAtMost_await _) fun _ => asksAtMost_apply
    · exact Prog.asksAtMost_bind_quiet asksAtMost_get fun actual =>
        Prog.asksAtMost_ofExcept_bind fun redacted => trivial

/-- Whatever is answered, a call is over after four questions. -/
theorem asksAtMost_call (shared : SharedSettings ι hidden σ) (i : ι) :
    (shared.call i).AsksAtMost 4 := by
  have hvalid : ((shared.manager i).validate (shared.state i) (shared.params i)).AsksAtMost 0 := by
    unfold BaseSingletonManager.validate
    dsimp only
    split
    · trivial
    · split
      · exact asksAtMost_logError (Prog.asksAtMost_ofExcept _ _)
      · trivial
  exact Prog.asksAtMost_bind (m := 0) hvalid fun _ => asksAtMost_set

end Questions

variable [DecidableEq ι]

/-- Every client begins its call on the same document. -/
def begin (shared : SharedSettings ι hidden σ) (s : World σ) :
    Pool ι Request Reply Event Exc EnsureResult (World σ) where
  progs := shared.call
  state := s

/-- Documents merged one after the other. -/
def mergedBy (shared : SharedSettings ι hidden σ) (d : Obj) (js : List ι) : Obj :=
  js.foldl (fun d j => mergeFields d (shared.doc j)) d

omit [DecidableEq ι] in
/-- What no client declares is in the way of no merge. -/
theorem valueAt_mergedBy (h : shared.Compatible d₀) {path : List String}
    (hpath : ∀ j, valueAt path (.obj (shared.doc j)) = none) (js : List ι) :
    shared.Sound (shared.mergedBy d₀ js) ∧
      valueAt path (.obj (shared.mergedBy d₀ js)) = valueAt path (.obj d₀) := by
  induction js using List.reverseRecOn with
  | nil => exact ⟨h.blocks, rfl⟩
  | append_singleton js j ih =>
    obtain ⟨hsound, hsame⟩ := ih
    have hstep : shared.mergedBy d₀ (js ++ [j]) =
        mergeFields (shared.mergedBy d₀ js) (shared.doc j) := by
      simp [mergedBy]
    rw [hstep]
    refine ⟨sound_merged h hsound j, ?_⟩
    rw [valueAt_mergeFields_of_unnamed (keyed_doc h j) (hsound j) (hpath j), hsame]

/-- No update is lost, whatever the order of the requests and whatever faults they meet: a
client with four turns is over, and its update is there as a whole unless it had none to make
or failed before it was stored; the document is one that the updates make one after the other,
and what nobody declares is as it was. -/
theorem concurrent_settings (shared : SharedSettings ι hidden σ) (s : σ)
    (h : shared.Compatible (shared.stored s)) (hstored : IsText (.obj (shared.stored s)))
    (hhidden : ∀ key, hidden key → isWriteOnlyKey key = true) (faults : List (Fault Exc))
    (turns : List ι) :
    let c := Pool.schedule shared.network turns (shared.begin (s, faults))
    (∀ i, 4 ≤ turns.count i → ∃ o, (c.progs i).next = .inl o) ∧
      (∀ i o, (c.progs i).next = .inl o →
        shared.Outcome (shared.stored s) i o (shared.stored c.state.1)) ∧
      (∃ js, shared.stored c.state.1 = shared.mergedBy (shared.stored s) js) ∧
      ∀ path, (∀ i, valueAt path (.obj (shared.doc i)) = none) →
        valueAt path (.obj (shared.stored c.state.1)) = valueAt path (.obj (shared.stored s)) := by
  intro c
  have hsecured : (shared.begin (s, faults)).Secured shared.network shared.Relies
      shared.Promises (fun i o s' => shared.Outcome (shared.stored s) i o
        (shared.stored s'.1)) := by
    intro i
    exact ⟨_, (kept_untouched h).stable, ⟨h.blocks, fun _ _ _ => rfl⟩,
      docTriple_call h hstored hhidden⟩
  have hcompat : ∀ i j, i ≠ j → ∀ s s', shared.Promises i s s' → shared.Relies j s s' := by
    rintro i j hne s s' (hsame | hmerged)
    · exact Or.inl hsame
    · exact Or.inr ⟨i, hne, hmerged⟩
  obtain ⟨hserial, houtcome⟩ := hsecured.in_every_order hcompat
    (fun s' => ∃ js, shared.stored s'.1 = shared.mergedBy (shared.stored s) js)
    (by
      rintro i s₁ s₂ (hsame | hmerged) ⟨js, hjs⟩
      · exact ⟨js, hsame.trans hjs⟩
      · exact ⟨js ++ [i], by simp [hmerged, hjs, mergedBy]⟩) ⟨[], rfl⟩ turns
  refine ⟨fun i hturns => ?_, houtcome, hserial, fun path hpath => ?_⟩
  · exact Pool.over_of_turns (c := shared.begin (s, faults)) (asksAtMost_call shared i) hturns
  · obtain ⟨js, hjs⟩ := hserial
    rw [hjs]
    exact (valueAt_mergedBy h hpath js).2

section Sample

/-- Two clients declare a field each in one section. -/
def sampleParams : Client → Obj
  | .first => [("enabled", .str "1")]
  | .second => [("log", .obj [("level", .str "5")])]

def sampleDocument : Obj :=
  [("general", .obj [("enabled", .str "0"), ("log", .obj [("level", .str "3")])]),
    ("other", .obj [("enabled", .str "1")])]

def sampleShared : SharedSettings Client (fun _ => False) Obj where
  manager _ := sectionSettings
  state _ := "present"
  params := sampleParams
  serve := (plainSettings sectionSettings fun _ => False).serve
  stored doc := doc
  view doc := doc
  displays doc := .refl _ "" _
  served _ := (plainSettings sectionSettings fun _ => False).served
  failed_keeps q doc e doc' h := by
    cases q <;> cases congrArg Prod.fst h

theorem sampleShared_compatible : sampleShared.Compatible sampleDocument where
  text i := by cases i <;> simp [sampleShared, sampleParams, IsText, AllText]
  blocks i := by
    -- the document has a block where one is declared, and a text where a text is
    have hflat : ∀ (fields : Obj) key text, fields.lookup key = some (.str text) →
        ∀ sent, KeepsBlocks ((fieldsOf (some (.obj fields))).lookup key) sent := by
      intro fields key text htext sent
      refine keepsBlocks_of_flat fun w hw => ?_
      rw [fieldsOf, htext] at hw
      cases hw
      rfl
    apply keepsBlocks_obj
    intro kv hkv
    rw [List.mem_singleton.mp hkv]
    apply keepsBlocks_obj
    cases i with
    | first =>
      intro kv hkv
      rw [List.mem_singleton.mp hkv]
      exact hflat _ "enabled" "0" rfl _
    | second =>
      intro kv hkv
      rw [List.mem_singleton.mp hkv]
      apply keepsBlocks_obj
      intro kv hkv
      rw [List.mem_singleton.mp hkv]
      exact hflat _ "level" "3" rfl _
  apart i j hij := by
    have hparams : ShareBlocks (sampleParams .first) (sampleParams .second) :=
      shareBlocks_of_disjoint (by simp [sampleParams])
    have hdocs : ShareBlocks (sampleShared.doc .first) (sampleShared.doc .second) := by
      apply shareBlocks_of_keys
      intro key v v' hv hv'
      have hmem := Obj.mem_of_lookup hv
      have hmem' := Obj.mem_of_lookup hv'
      obtain ⟨-, rfl⟩ := Prod.mk.inj (List.mem_singleton.mp hmem)
      obtain ⟨-, rfl⟩ := Prod.mk.inj (List.mem_singleton.mp hmem')
      exact ⟨_, _, rfl, rfl, hparams⟩
    cases i <;> cases j
    · exact absurd rfl hij
    · exact hdocs
    · exact hdocs.symm
    · exact absurd rfl hij

/-- The second client reads, writes and reports between the read and the write of the first. -/
def sampleTurns : List Client :=
  [.first, .second, .second, .second, .second, .first, .first, .first]

theorem concurrent_settings_sample :
    let c := Pool.schedule sampleShared.network sampleTurns
      (sampleShared.begin (sampleDocument, []))
    (∀ i, 4 ≤ sampleTurns.count i → ∃ o, (c.progs i).next = .inl o) ∧
      (∀ i o, (c.progs i).next = .inl o → sampleShared.Outcome sampleDocument i o c.state.1) ∧
      (∃ js, c.state.1 = sampleShared.mergedBy sampleDocument js) ∧
      ∀ path, (∀ i, valueAt path (.obj (sampleShared.doc i)) = none) →
        valueAt path (.obj c.state.1) = valueAt path (.obj sampleDocument) := by
  have hstored : IsText (.obj sampleDocument) := by simp [sampleDocument, IsText, AllText]
  exact concurrent_settings sampleShared sampleDocument sampleShared_compatible hstored
    (fun _ h => h.elim) [] sampleTurns

end Sample

end SharedSettings
end Opnsense
