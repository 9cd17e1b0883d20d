import Opnsense.ApiKeyTable
import Opnsense.Delivery
import Opnsense.FinalReply
import Opnsense.IdsRuleset
import Opnsense.Text.UrlPath

namespace Opnsense
open Interaction

/-- `f"/{endpoint}"` -/
def HttpRequest.url (r : HttpRequest) : List Char := '/' :: r.endpoint.toList

/-- The path of the request is that of `endpoint`, one segment that decodes to `ident`, and
`after`. -/
def HttpRequest.Addresses (r : HttpRequest) (endpoint ident : String) (after : List String) :
    Prop :=
  Text.OneSegment ('/' :: endpoint.toList) ident.toList (after.map String.toList) r.url

abbrev IsSegment (ident : String) : Prop := Text.IsSegment ident.toList

section Addresses

variable {r : HttpRequest} {endpoint ident : String}

theorem uncut_cons_slash {cs : List Char} : Text.Uncut ('/' :: cs) ↔ Text.Uncut cs :=
  List.forall_mem_cons.trans (and_iff_right ⟨by decide, by decide⟩)

theorem addresses_iff (hurl : r.endpoint = endpoint ++ "/" ++ ident) :
    r.Addresses endpoint ident [] ↔ Text.Uncut endpoint.toList ∧ IsSegment ident := by
  have hsplit : r.url = '/' :: endpoint.toList ++ '/' :: ident.toList ++ Text.slashed [] := by
    simp [HttpRequest.url, hurl, Text.slashed]
  rw [HttpRequest.Addresses, hsplit, List.map_nil, Text.oneSegment_iff (by simp), uncut_cons_slash]

theorem addresses_before_iff {after : String} (hafter : IsSegment after)
    (hurl : r.endpoint = endpoint ++ "/" ++ ident ++ "/" ++ after) :
    r.Addresses endpoint ident [after] ↔ Text.Uncut endpoint.toList ∧ IsSegment ident := by
  have hsplit : r.url =
      '/' :: endpoint.toList ++ '/' :: ident.toList ++ Text.slashed [after.toList] := by
    simp [HttpRequest.url, hurl, Text.slashed]
  rw [HttpRequest.Addresses, hsplit, List.map_singleton,
    Text.oneSegment_iff (by simpa using hafter), uncut_cons_slash]

/-- Requests for two identifiers are requests for two resources. -/
theorem HttpRequest.Addresses.unique {ident' : String} {after : List String}
    (h : r.Addresses endpoint ident after) (h' : r.Addresses endpoint ident' after) :
    ident = ident' :=
  String.toList_injective (Text.OneSegment.unique h h')

end Addresses

/-- Every request that a call sends is the one attempt of it. -/
theorem forall_trace_request_iff {P : HttpRequest → Prop} (client : OpnsenseClient)
    (method : Method) (endpoint : String) (data : Obj) (opts : CallOptions) :
    (∀ (S : Type) (net : Server HttpRequest HttpReply S) (x : S),
      ∀ qr ∈ (client.request method endpoint data opts).trace net x, P qr.1) ↔
      P (client.attempt method endpoint data opts) := by
  constructor
  · intro h
    obtain ⟨before, htrace, -⟩ :=
      @OpnsenseClient.trace_request _ client (answering .timeout) method endpoint data opts ()
    exact h Unit (answering .timeout) () _ (htrace ▸ List.mem_append_right _ List.mem_cons_self)
  · intro h S net x qr hqr
    obtain ⟨before, htrace, hsame⟩ :=
      @OpnsenseClient.trace_request _ client net method endpoint data opts x
    rw [htrace] at hqr
    rcases List.mem_append.mp hqr with hqr | hqr
    · exact hsame qr hqr ▸ h
    · exact List.mem_singleton.mp hqr ▸ h

/-- One request after the other, until one fails. -/
def awaitAll : List Request → M Unit
  | [] => return ()
  | q :: rest => do
    let _ ← await q
    awaitAll rest

section InTurn

variable {σ : Type} {srv : Appliance σ} {s : σ} {requests : List Request}

theorem trace_awaitAll (requests : List Request) (s : σ) :
    ((awaitAll requests).trace srv s).map Prod.fst <+: requests := by
  induction requests generalizing s with
  | nil => exact List.prefix_refl []
  | cons q rest ih =>
    rcases hreply : srv q s with ⟨e | v, s₁⟩
    · have hrun : (await q).run srv s = (.error e, s₁) := by rw [run_await, hreply]
      rw [awaitAll, Prog.trace_bind_of_error hrun, trace_await]
      exact (List.prefix_cons_inj q).mpr List.nil_prefix
    · have hrun : (await q).run srv s = (.ok v, s₁) := by rw [run_await, hreply]
      rw [awaitAll, Prog.trace_bind_of_ok hrun, trace_await]
      exact (List.prefix_cons_inj q).mpr (ih s₁)

/-- The appliance that gives one answer to everything. -/
def agreeing (v : Json) : Appliance Unit := fun _ _ => (.ok v, ())

theorem trace_awaitAll_agreeing (v : Json) (requests : List Request) :
    ((awaitAll requests).trace (agreeing v) ()).map Prod.fst = requests := by
  induction requests with
  | nil => rfl
  | cons q rest ih => exact congrArg (q :: ·) ih

end InTurn

/-- The writes of a run. -/
def writesOf (t : List (Request × Reply)) : List Request :=
  (t.map Prod.fst).filter Request.isWrite

theorem writesOf_append (t t' : List (Request × Reply)) :
    writesOf (t ++ t') = writesOf t ++ writesOf t' := by
  rw [writesOf, List.map_append, List.filter_append]
  rfl

theorem writesOf_reads {t : List (Request × Reply)} (h : ∀ qr ∈ t, qr.1.isWrite = false) :
    writesOf t = [] := by
  rw [writesOf, List.filter_eq_nil_iff]
  intro q hq
  obtain ⟨qr, hqr, rfl⟩ := List.mem_map.mp hq
  simp [h qr hqr]

/-- The writes of a run are sent for a start of `idents`, in turn, and each of them has one
segment for its identifier. -/
def AddressInTurn (client : OpnsenseClient) (endpoint : String)
    (idents : List (String × List String)) (t : List (Request × Reply)) : Prop :=
  ∃ sent, sent <+: idents ∧ List.Forall₂
    (fun ident q => (client.http q).Addresses endpoint ident.1 ident.2) sent (writesOf t)

section Managers

variable {client : OpnsenseClient} {endpoint : String} {idents : List (String × List String)}
  {P : String → Prop}

/-- Writes in turn, one for each identifier, are as `P` says exactly if all identifiers are,
when an appliance that agrees to everything gets all of them. -/
theorem addressInTurn_iff (request : String × List String → Request)
    {Listed : (σ : Type) → Appliance σ → σ → Prop} {p : M EnsureResult}
    (haddress : ∀ ident ∈ idents,
      (client.http (request ident)).Addresses endpoint ident.1 ident.2 ↔ P ident.1)
    (hsent : ∀ σ (srv : Appliance σ) s, Listed σ srv s →
      writesOf (p.trace srv s) <+: idents.map request)
    {v : Json} (hlisted : Listed Unit (agreeing v) ())
    (hall : writesOf (p.trace (agreeing v) ()) = idents.map request) :
    (∀ σ (srv : Appliance σ) s, Listed σ srv s →
      AddressInTurn client endpoint idents (p.trace srv s)) ↔ ∀ ident ∈ idents, P ident.1 := by
  constructor
  · intro h ident hident
    obtain ⟨sent, hstart, haddresses⟩ := h Unit (agreeing v) () hlisted
    rw [hall] at haddresses
    have hlength := haddresses.length_eq
    rw [List.length_map] at hlength
    obtain rfl := hstart.eq_of_length hlength
    rw [List.forall₂_map_right_iff, List.forall₂_same] at haddresses
    exact (haddress ident hident).mp (haddresses ident hident)
  · intro h σ srv s hsrv
    obtain ⟨unsent, hrest⟩ := hsent σ srv s hsrv
    obtain ⟨sent, left, rfl, hwrites, -⟩ := List.map_eq_append_iff.mp hrest.symm
    refine ⟨sent, List.prefix_append _ _, ?_⟩
    rw [← hwrites, List.forall₂_map_right_iff, List.forall₂_same]
    intro ident hident
    have hmem := List.mem_append_left left hident
    exact (haddress ident hmem).mpr (h ident hmem)

end Managers

/-- A write per request, in turn, as far as they get. -/
theorem writesOf_awaitAll {σ : Type} {srv : Appliance σ} {requests : List Request}
    (hwrites : ∀ q ∈ requests, q.isWrite = true) (s : σ) :
    writesOf ((awaitAll requests).trace srv s) <+: requests := by
  have hstart := @trace_awaitAll _ srv requests s
  rw [writesOf, List.filter_eq_self.mpr fun q hq => hwrites q (hstart.subset hq)]
  exact hstart

theorem writesOf_awaitAll_agreeing {requests : List Request}
    (hwrites : ∀ q ∈ requests, q.isWrite = true) (v : Json) :
    writesOf ((awaitAll requests).trace (agreeing v) ()) = requests := by
  rw [writesOf, trace_awaitAll_agreeing, List.filter_eq_self.mpr hwrites]

namespace AuthApiKeyManager

variable {σ : Type} {srv : Appliance σ} {s : σ} {username : String} {rows : List Obj}

def deletions (ids : List String) : List Request := ids.map fun keyId => .post (delKey keyId) []

theorem isWrite_of_mem_deletions {ids : List String} {q : Request} (h : q ∈ deletions ids) :
    q.isWrite = true := by
  obtain ⟨keyId, -, rfl⟩ := List.mem_map.mp h
  rfl

theorem deleteEach_eq (keys : List Obj) :
    deleteEach (keys.map .obj) = awaitAll (deletions (idsOf keys)) := by
  induction keys with
  | nil => rfl
  | cons key rest ih =>
    show (if hasId key then _ else _ : M Unit) = _
    by_cases hid : hasId key = true
    · have hids : idsOf (key :: rest) = key.text "id" :: idsOf rest := by
        rw [idsOf, List.filter_cons_of_pos hid]
        rfl
      rw [if_pos hid, hids, ih]
      rfl
    · have hids : idsOf (key :: rest) = idsOf rest := by
        rw [idsOf, List.filter_cons_of_neg hid]
        rfl
      rw [if_neg hid, hids, ih]

/-- The keys that a listing names to be deleted. -/
def chosen (username : String) (rows : List Obj) : List Obj :=
  if username ≠ "" then rows.filter (isOwned username) else rows

def listing : Request := .search searchAction "" defaultRowCount

theorem listKeys_returns {s' : σ} (hlisted : srv listing s = (.ok (.arr (rows.map .obj)), s')) :
    (listKeys (some username)).Returns srv s (.arr ((chosen username rows).map .obj)) s'
      [(listing, .ok (.arr (rows.map .obj)))] := by
  refine Prog.returns_bind.mpr ⟨_, s', _, [], (returns_await _).mpr ⟨hlisted, rfl⟩, ?_, rfl⟩
  unfold chosen
  by_cases hname : username ≠ ""
  · have hname' : (some username).getD "" ≠ "" := hname
    rw [if_pos hname', if_pos hname]
    refine Prog.returns_bind.mpr ⟨_, s', [], [], Prog.returns_ofExcept.mpr ⟨rfl, rfl, rfl⟩, ?_, rfl⟩
    exact Prog.returns_bind.mpr ⟨rows, s', [], [],
      Prog.returns_ofExcept.mpr ⟨asRows_map_obj rows, rfl, rfl⟩,
      Prog.returns_ret.mpr ⟨rfl, rfl, rfl⟩, rfl⟩
  · have hname' : ¬ (some username).getD "" ≠ "" := hname
    rw [if_neg hname', if_neg hname]
    exact Prog.returns_ret.mpr ⟨rfl, rfl, rfl⟩

theorem writesOf_deleteAllKeys {s' : σ}
    (hlisted : srv listing s = (.ok (.arr (rows.map .obj)), s')) :
    writesOf ((deleteAllKeys username).trace srv s) =
      writesOf ((awaitAll (deletions (idsOf (chosen username rows)))).trace srv s') := by
  obtain ⟨hrun, htrace⟩ := @listKeys_returns _ srv s username rows s' hlisted
  rw [deleteAllKeys, Prog.trace_bind_of_ok hrun, htrace, writesOf_append,
    writesOf_reads (by simp [listing, Request.isWrite]), List.nil_append, ← deleteEach_eq]
  cases chosen username rows with
  | nil => rfl
  | cons key rest =>
    exact congrArg writesOf (Prog.trace_bind_of_quiet
      (p := deleteEach ((key :: rest).map .obj)) (fun u s => rfl) s')

end AuthApiKeyManager

namespace IdsRulesetManager

variable {σ : Type} {srv : Appliance σ} {s s' : σ} {body : Json} {desired : List (String × Bool)}
  {applies : Bool}

def listing : Request := .get { action := endpoint ++ "/listRulesets" }

/-- The rule sets of a body of `listRulesets`, with their states. -/
def shownStates (body : Json) : Except Exc Obj := do
  let rows := match body with
    | .obj fs => Obj.getD fs "rows" (.arr [])
    | _ => .arr []
  let items ← iterate rows
  states (items.filterMap isObj) []

/-- The toggles that a body of `listRulesets` calls for. -/
def calledFor (body : Json) (desired : List (String × Bool)) : List (String × String) :=
  match shownStates body with
  | .ok rows => if unknown rows desired ≠ [] then [] else todo rows desired
  | .error _ => []

def toggles (flags : List (String × String)) : List Request :=
  flags.map fun ff => .post (toggleEndpoint ff.1 ff.2) []

theorem isWrite_of_mem_toggles {flags : List (String × String)} {q : Request}
    (h : q ∈ toggles flags) : q.isWrite = true := by
  obtain ⟨ff, -, rfl⟩ := List.mem_map.mp h
  rfl

theorem toggleAll_eq (flags : List (String × String)) :
    toggleAll flags = awaitAll (toggles flags) := by
  induction flags with
  | nil => rfl
  | cons ff rest ih =>
    rw [toggleAll, ih]
    rfl

theorem writesOf_send (flags : List (String × String)) (applies : Bool) (s : σ) :
    writesOf ((send flags applies).trace srv s) =
      writesOf ((awaitAll (toggles flags)).trace srv s) := by
  have happly : ∀ s, writesOf (Prog.trace srv (if applies then do
      let _ ← await (.reconfigure applyEndpoint { timeout := some 120 })
      else return () : M Unit) s) = [] := by
    intro s
    cases applies with
    | false => rfl
    | true =>
      rw [if_pos rfl, Prog.trace_bind_of_quiet fun v s => rfl, trace_await]
      rfl
  have hbody : ∀ s, writesOf (Prog.trace srv (do
      toggleAll flags
      if applies then
        let _ ← await (.reconfigure applyEndpoint { timeout := some 120 })
      else return () : M Unit) s) = writesOf ((awaitAll (toggles flags)).trace srv s) := by
    intro s
    rw [← toggleAll_eq, Prog.trace_bind]
    split
    · rw [writesOf_append, happly, List.append_nil]
    · rw [List.append_nil]
  rw [send, Prog.trace_rescue, writesOf_append, hbody]
  split <;> exact List.append_nil _

theorem writesOf_converge (rows : Obj) (s : σ) :
    writesOf ((converge rows desired false applies).trace srv s) =
      writesOf ((awaitAll (toggles (todo rows desired))).trace srv s) := by
  unfold converge
  split
  · rename_i hempty
    rw [List.isEmpty_iff.mp hempty]
    rfl
  · rw [if_neg Bool.false_ne_true, Prog.trace_bind_of_quiet fun u s => rfl, writesOf_send]

/-- `ensure_many` behind the listing. -/
def settle (desired : List (String × Bool)) (applies : Bool) (body : Json) : M EnsureResult := do
  let rows ← .ofExcept (shownStates body)
  if unknown rows desired ≠ [] then
    let names := pyStr (.arr ((unknown rows desired).map .str))
    .raise (.valueError s!"IdsRulesetManager: unknown ruleset(s) {names} — see list()")
  else converge rows desired false applies

theorem ensureMany_eq (desired : List (String × Bool)) (applies : Bool) :
    ensureMany desired false applies = await listing >>= settle desired applies := by
  rw [ensureMany, list, bind_assoc]
  refine congrArg (await listing >>= ·) (funext fun body => ?_)
  unfold settle shownStates
  rw [bind_assoc]
  cases body with
  | obj fs =>
    show (Prog.ofExcept (iterate (Obj.getD fs "rows" (.arr []))) >>= fun _ => _) =
      (Prog.ofExcept (iterate (Obj.getD fs "rows" (.arr [])) >>= fun _ => _) >>= fun _ => _)
    cases iterate (Obj.getD fs "rows" (.arr [])) with
    | error e => rfl
    | ok items => rfl
  | _ => rfl

theorem writesOf_settle (body : Json) (s : σ) :
    writesOf ((settle desired applies body).trace srv s) =
      writesOf ((awaitAll (toggles (calledFor body desired))).trace srv s) := by
  rw [settle, calledFor]
  cases shownStates body with
  | error e => rfl
  | ok rows =>
    show writesOf (Prog.trace srv (if _ then _ else _ : M EnsureResult) s) = _
    by_cases hunknown : unknown rows desired ≠ []
    · rw [if_pos hunknown]
      simp only [if_pos hunknown]
      rfl
    · rw [if_neg hunknown, writesOf_converge]
      simp only [if_neg hunknown]

theorem writesOf_ensureMany (hlisted : srv listing s = (.ok body, s')) :
    writesOf ((ensureMany desired false applies).trace srv s) =
      writesOf ((awaitAll (toggles (calledFor body desired))).trace srv s') := by
  have hawait : (await listing).run srv s = (.ok body, s') := by rw [run_await, hlisted]
  rw [ensureMany_eq, Prog.trace_bind_of_ok hawait, trace_await, writesOf_append, writesOf_settle]
  rfl

end IdsRulesetManager

theorem isSegment_flag (want : Bool) : IsSegment (IdsRulesetManager.flag want) := by
  cases want <;> exact ⟨by decide, by decide, by decide, by decide, by decide, by decide⟩

theorem addresses_delKey_iff (client : OpnsenseClient) (keyId : String) :
    (client.http (.post (AuthApiKeyManager.delKey keyId) [])).Addresses "auth/user/del_api_key"
      keyId [] ↔ IsSegment keyId := by
  have hendpoint : Text.Uncut "auth/user/del_api_key".toList :=
    Text.uncut_iff.mpr ⟨by decide, by decide⟩
  rw [addresses_iff rfl, and_iff_right hendpoint]

theorem addresses_toggle_iff (client : OpnsenseClient) (filename : String) (want : Bool) :
    (client.http (.post (IdsRulesetManager.toggleEndpoint filename
      (IdsRulesetManager.flag want)) [])).Addresses "ids/settings/toggleRuleset" filename
      [IdsRulesetManager.flag want] ↔ IsSegment filename := by
  have hendpoint : Text.Uncut "ids/settings/toggleRuleset".toList :=
    Text.uncut_iff.mpr ⟨by decide, by decide⟩
  rw [addresses_before_iff (isSegment_flag want) rfl, and_iff_right hendpoint]

namespace AuthApiKeyManager

theorem deleteKey_addresses_iff (client : OpnsenseClient) (keyId : String) :
    (∀ σ (srv : Appliance σ) s, AddressInTurn client "auth/user/del_api_key" [(keyId, [])]
      ((deleteKey keyId false).trace srv s)) ↔ IsSegment keyId := by
  have hwrites : ∀ σ (srv : Appliance σ) s, writesOf ((deleteKey keyId false).trace srv s) =
      [(keyId, ([] : List String))].map fun ident => .post (delKey ident.1) [] := by
    intro σ srv s
    rw [deleteKey, if_neg Bool.false_ne_true, Prog.trace_bind_of_quiet fun v s => rfl, trace_await]
    rfl
  have hturn : (∀ σ (srv : Appliance σ) s, True → AddressInTurn client "auth/user/del_api_key"
      [(keyId, [])] ((deleteKey keyId false).trace srv s)) ↔
      ∀ ident ∈ [(keyId, ([] : List String))], IsSegment ident.1 := by
    refine addressInTurn_iff (fun ident => .post (delKey ident.1) []) ?_ (fun σ srv s _ => ?_)
      (v := .null) trivial (hwrites _ _ _)
    · rw [List.forall_mem_singleton]
      exact addresses_delKey_iff client keyId
    · rw [hwrites]
  simpa only [true_imp_iff, List.forall_mem_singleton] using hturn

theorem deleteAllKeys_addresses_iff (client : OpnsenseClient) (username : String)
    (rows : List Obj) :
    (∀ σ (srv : Appliance σ) s, (srv listing s).1 = .ok (.arr (rows.map .obj)) →
      AddressInTurn client "auth/user/del_api_key"
        ((idsOf (chosen username rows)).map fun keyId => (keyId, []))
        ((deleteAllKeys username).trace srv s)) ↔
      ∀ keyId ∈ idsOf (chosen username rows), IsSegment keyId := by
  have hrequests : deletions (idsOf (chosen username rows)) =
      ((idsOf (chosen username rows)).map fun keyId => (keyId, ([] : List String))).map
        fun ident => .post (delKey ident.1) [] := by
    rw [List.map_map]
    rfl
  refine (addressInTurn_iff (fun ident => .post (delKey ident.1) []) ?_
    (fun σ srv s hlisted => ?_) (v := .arr (rows.map .obj)) rfl ?_).trans List.forall_mem_map
  · rw [List.forall_mem_map]
    exact fun keyId _ => addresses_delKey_iff client keyId
  · rw [writesOf_deleteAllKeys (Prod.ext hlisted rfl), ← hrequests]
    exact writesOf_awaitAll (fun q => isWrite_of_mem_deletions) _
  · rw [writesOf_deleteAllKeys rfl, ← hrequests]
    exact writesOf_awaitAll_agreeing (fun q => isWrite_of_mem_deletions) _

end AuthApiKeyManager

namespace IdsRulesetManager

theorem mem_calledFor {body : Json} {desired : List (String × Bool)} {ff : String × String}
    (h : ff ∈ calledFor body desired) : ∃ want, ff.2 = flag want := by
  unfold calledFor at h
  split at h
  · split at h
    · cases h
    · obtain ⟨fw, -, rfl⟩ := List.mem_map.mp (List.mem_of_mem_filter h)
      exact ⟨fw.2, rfl⟩
  · cases h

theorem ensureMany_addresses_iff (client : OpnsenseClient) (desired : List (String × Bool))
    (applies : Bool) (body : Json) :
    (∀ σ (srv : Appliance σ) s, (srv listing s).1 = .ok body →
      AddressInTurn client "ids/settings/toggleRuleset"
        ((calledFor body desired).map fun ff => (ff.1, [ff.2]))
        ((ensureMany desired false applies).trace srv s)) ↔
      ∀ ff ∈ calledFor body desired, IsSegment ff.1 := by
  have hrequests : toggles (calledFor body desired) =
      ((calledFor body desired).map fun ff => (ff.1, [ff.2])).map
        fun ident => .post (toggleEndpoint ident.1 (ident.2.headD "")) [] := by
    rw [List.map_map]
    rfl
  refine (addressInTurn_iff (fun ident => .post (toggleEndpoint ident.1 (ident.2.headD "")) [])
    ?_ (fun σ srv s hlisted => ?_) (v := body) rfl ?_).trans List.forall_mem_map
  · rw [List.forall_mem_map]
    rintro ⟨filename, _⟩ hff
    obtain ⟨want, rfl⟩ := mem_calledFor hff
    exact addresses_toggle_iff client filename want
  · rw [writesOf_ensureMany (Prod.ext hlisted rfl), ← hrequests]
    exact writesOf_awaitAll (fun q => isWrite_of_mem_toggles) _
  · rw [writesOf_ensureMany rfl, ← hrequests]
    exact writesOf_awaitAll_agreeing (fun q => isWrite_of_mem_toggles) _

end IdsRulesetManager

/-- An identifier has one segment in the paths of its requests exactly if it is one. -/
theorem identifier_segments_iff (client : OpnsenseClient) :
    (∀ endpoint uuid payloadKey params opts,
      (∀ (S : Type) (net : Server HttpRequest HttpReply S) (x : S),
        ∀ qr ∈ (client.update endpoint uuid payloadKey params opts).trace net x,
          qr.1.Addresses endpoint uuid []) ↔
        Text.Uncut endpoint.toList ∧ IsSegment uuid) ∧
    (∀ endpoint uuid opts,
      (∀ (S : Type) (net : Server HttpRequest HttpReply S) (x : S),
        ∀ qr ∈ (client.delete endpoint uuid opts).trace net x, qr.1.Addresses endpoint uuid []) ↔
        Text.Uncut endpoint.toList ∧ IsSegment uuid) ∧
    (∀ keyId,
      (∀ σ (srv : Appliance σ) s, AddressInTurn client "auth/user/del_api_key"
        [(keyId, [])] ((AuthApiKeyManager.deleteKey keyId false).trace srv s)) ↔
        IsSegment keyId) ∧
    (∀ username rows,
      (∀ σ (srv : Appliance σ) s,
        (srv AuthApiKeyManager.listing s).1 = .ok (.arr (rows.map .obj)) →
        AddressInTurn client "auth/user/del_api_key"
          ((AuthApiKeyManager.idsOf (AuthApiKeyManager.chosen username rows)).map
            fun keyId => (keyId, []))
          ((AuthApiKeyManager.deleteAllKeys username).trace srv s)) ↔
        ∀ keyId ∈ AuthApiKeyManager.idsOf (AuthApiKeyManager.chosen username rows),
          IsSegment keyId) ∧
    (∀ desired applies body,
      (∀ σ (srv : Appliance σ) s, (srv IdsRulesetManager.listing s).1 = .ok body →
        AddressInTurn client "ids/settings/toggleRuleset"
          ((IdsRulesetManager.calledFor body desired).map fun ff => (ff.1, [ff.2]))
          ((IdsRulesetManager.ensureMany desired false applies).trace srv s)) ↔
        ∀ ff ∈ IdsRulesetManager.calledFor body desired, IsSegment ff.1) ∧
    ∀ (r : HttpRequest) endpoint ident ident' after,
      r.Addresses endpoint ident after → r.Addresses endpoint ident' after → ident = ident' := by
  refine ⟨fun endpoint uuid payloadKey params opts => ?_, fun endpoint uuid opts => ?_,
    fun keyId => ?_, fun username rows => ?_, fun desired applies body => ?_,
    fun r endpoint ident ident' after h h' => h.unique h'⟩
  · rw [← addresses_iff (r := client.attempt .post (endpoint ++ "/" ++ uuid)
      [(payloadKey, .obj params)] opts) rfl]
    exact forall_trace_request_iff (P := (·.Addresses endpoint uuid [])) client _ _ _ _
  · rw [← addresses_iff (r := client.attempt .post (endpoint ++ "/" ++ uuid) [] opts) rfl]
    exact forall_trace_request_iff (P := (·.Addresses endpoint uuid [])) client _ _ _ _
  · exact AuthApiKeyManager.deleteKey_addresses_iff client keyId
  · exact AuthApiKeyManager.deleteAllKeys_addresses_iff client username rows
  · exact IdsRulesetManager.ensureMany_addresses_iff client desired applies body

/-- A base64 id with a slash is two segments of the path. -/
theorem slashed_key_id_split : ¬ ∀ σ (srv : Appliance σ) s,
    AddressInTurn defaultClient "auth/user/del_api_key" [("kF8/x+Q=", [])]
      ((AuthApiKeyManager.deleteKey "kF8/x+Q=" false).trace srv s) := by
  intro h
  have hslash := ((AuthApiKeyManager.deleteKey_addresses_iff defaultClient _).mp h).slash
  exact hslash (by decide)

end Opnsense
