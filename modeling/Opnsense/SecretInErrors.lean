import Opnsense.BodyTemplates
import Opnsense.RetryLoop

namespace Opnsense
open Text Interaction

/-- A response with a status of three digits. -/
structure ReplyTemplate where
  status : ℕ
  body : BodyTemplate
  three_digits : status < 1000

def ReplyTemplate.fill (s : List Char) (reply : ReplyTemplate) : HttpReply :=
  .response reply.status (reply.body.fill s)

/-- The first reply that is not tried again, or the one after `left` retries. -/
def settledReply (replies : ℕ → ReplyTemplate) : ℕ → ℕ → ReplyTemplate
  | 0, n => replies n
  | left + 1, n => if 500 ≤ (replies n).status then settledReply replies left (n + 1) else replies n

/-- `str(exc)` of the exception, if there is one. -/
def errorText : Except Exc Json → Option String
  | .error e => some e.text
  | .ok _ => none

def keyMarker : String := "<REDACTED:api_key>"

def secretMarker : String := "<REDACTED:api_secret>"

namespace OpnsenseClient

variable (client : OpnsenseClient)

def withSecret (s : Secret) : OpnsenseClient := { client with secret := String.ofList s.chars }

/-- The second half of `_redact_secret`. -/
def redactKey (text : String) : String :=
  if client.key ≠ "" then text.replace client.key keyMarker else text

/-- What the caller is shown of a request. -/
def shownError (method : Method) (endpoint : String) (data : Obj) (opts : CallOptions)
    (replies : ℕ → ReplyTemplate) (s : Secret) : Option String :=
  errorText (((client.withSecret s).request method endpoint data opts).run
    (replaying fun n => (replies n).fill s.chars) 0).1

/-- The reply that the attempts end with. -/
def lastReply (opts : CallOptions) (replies : ℕ → ReplyTemplate) : ReplyTemplate :=
  settledReply replies (client.effectiveRetries opts - 1) 0

end OpnsenseClient

/-- What an error message has before the part of a secret that was cut. -/
def messageStart (status : ℕ) (endpoint : String) (detail : Template × ℕ) : List Char :=
  (s!"HTTP {status} on {endpoint}").toList ++
    if detail.1 = [] ∧ detail.2 = 0 then []
    else ": ".toList ++ detail.1.fill secretMarker.toList

/-- The context of an error, in brackets. -/
def errorContext (status : ℕ) (endpoint : String) : String :=
  " [" ++ toString status ++ " " ++ endpoint ++ "]"

/-- The listing of the fields behind an error text. -/
def listing (validations : List (Template × JsonTemplate)) : Template :=
  if validations.isEmpty then [] else .lit " — ".toList ++ BodyTemplate.reported validations

/-- Nothing of the secret is shown: no cut goes through a quote, or through a common start of both
secrets only, and no quote is in the fields that a validation error lists. -/
def Hides (s s' : List Char) (reply : ReplyTemplate) : Prop :=
  if reply.status ∈ [400, 401, 403, 404] ∨ 500 ≤ reply.status then
    s.take (reply.body.detail s.length).2 = s'.take (reply.body.detail s.length).2 ∧
      (reply.status = 400 → none ∈ BodyTemplate.reported reply.body.validations → s = s')
  else
    reply.body.resultFailed = true →
      none ∈ BodyTemplate.reported reply.body.validations → s = s'

section Redaction

variable {client : OpnsenseClient} {s : Secret} {t out : List Char}

theorem Secret.ne_nil (s : Secret) : s.chars ≠ [] := by
  have hlong := s.long
  exact List.ne_nil_of_length_pos (by omega)

theorem Secret.notMem (s : Secret) {c : Char} (hc : isAlphanumeric c = false) : c ∉ s.chars :=
  notMem_of_alphanumeric s.alphanumeric hc

theorem redactSecret_of_replaced (h : Replaced s.chars secretMarker.toList t out) :
    (client.withSecret s).redactSecret (String.ofList t) =
      client.redactKey (String.ofList out) := by
  have hsecret : (client.withSecret s).secret ≠ "" := by
    intro hempty
    have hlist := congrArg String.toList hempty
    rw [OpnsenseClient.withSecret, String.toList_ofList] at hlist
    exact s.ne_nil hlist
  have hreplace := @replaced_replace (client.withSecret s).secret secretMarker hsecret
    (String.ofList t)
  have hchars : (client.withSecret s).secret.toList = s.chars := String.toList_ofList
  rw [hchars, String.toList_ofList] at hreplace
  have hout : (String.ofList t).replace (client.withSecret s).secret secretMarker =
      String.ofList out := by
    apply String.toList_injective
    rw [String.toList_ofList]
    exact hreplace.unique s.ne_nil h
  rw [OpnsenseClient.redactSecret, if_pos hsecret]
  rw [show "<REDACTED:api_secret>" = secretMarker from rfl, hout]
  rfl

/-- The redaction of the key keeps secrets apart. -/
theorem redactKey_inj {A P Q : List Char} (hP : ∀ c ∈ P, isAlphanumeric c = true)
    (hQ : ∀ c ∈ Q, isAlphanumeric c = true) (hlength : P.length = Q.length) :
    client.redactKey (String.ofList (A ++ P)) = client.redactKey (String.ofList (A ++ Q)) ↔
      P = Q := by
  constructor
  · intro h
    by_cases hkey : client.key = ""
    · simp only [OpnsenseClient.redactKey, hkey, ne_eq, not_true_eq_false, if_false] at h
      have hlists := congrArg String.toList h
      rw [String.toList_ofList, String.toList_ofList] at hlists
      exact List.append_cancel_left hlists
    · simp only [OpnsenseClient.redactKey, ne_eq, hkey, not_false_eq_true, if_true] at h
      have hkeyne : client.key.toList ≠ [] := fun hnil => hkey (String.toList_eq_nil_iff.mp hnil)
      have hleft := @replaced_replace client.key keyMarker hkey (String.ofList (A ++ P))
      have hright := @replaced_replace client.key keyMarker hkey (String.ofList (A ++ Q))
      rw [String.toList_ofList] at hleft hright
      rw [h] at hleft
      refine @Replaced.tail_inj client.key.toList keyMarker.toList A P Q _ '<' '>'
        "REDACTED:api_key".toList hkeyne (by decide) (by decide) ?_ ?_ ?_ ?_ hlength hleft hright
      · exact notMem_of_alphanumeric hP rfl
      · exact notMem_of_alphanumeric hQ rfl
      · exact notMem_of_alphanumeric hP rfl
      · exact notMem_of_alphanumeric hQ rfl
  · intro h
    rw [h]

/-- A secret that begins in a text ending with a blank lies in the text. -/
theorem infix_of_prefix_append {u w : List Char} (hw : ' ' ∈ w) (hu : w <:+: u)
    (h : s.chars <+: w ++ t) : s.chars <:+: u := by
  -- it ends in `w`, or runs over the blank
  rcases List.prefix_or_prefix_of_prefix h (List.prefix_append w t) with h | h
  · exact h.isInfix.trans hu
  · exact absurd (h.subset hw) (s.notMem rfl)

theorem not_infix_of_short {u : List Char} (hu : u.length < 16) : ¬ s.chars <:+: u := by
  intro h
  have hlong := s.long
  have := h.length_le
  omega

/-- The start of a message has no secret, if the endpoint has none. -/
theorem not_infix_intro {status : ℕ} {endpoint : String} (hstatus : status < 1000)
    (hendpoint : ¬ s.chars <:+: endpoint.toList) :
    ¬ s.chars <:+: (s!"HTTP {status} on {endpoint}").toList ++ ": ".toList := by
  intro h
  have hdigits : status.repr.toList.length < 16 := by
    have hrepr := (@Nat.length_repr_le_iff status 3 (by decide)).mpr (by omega)
    rw [String.length_toList]
    omega
  have hchars : (s!"HTTP {status} on {endpoint}").toList ++ ": ".toList =
      "HTTP".toList ++ ' ' :: (status.repr.toList ++ ' ' :: ("on".toList ++ ' ' ::
        (endpoint.toList ++ ':' :: " ".toList))) := by
    have htext : s!"HTTP {status} on {endpoint}" =
        "HTTP " ++ status.repr ++ " on " ++ endpoint := rfl
    rw [htext, String.toList_append, String.toList_append, String.toList_append]
    simp [List.append_assoc]
  have hblank : ' ' ∉ s.chars := s.notMem rfl
  rw [hchars] at h
  -- a secret has no blank and no colon, so it lies between two of them
  rcases infix_append_cons hblank h with h | h
  · exact not_infix_of_short (by decide) h
  rcases infix_append_cons hblank h with h | h
  · exact not_infix_of_short hdigits h
  rcases infix_append_cons hblank h with h | h
  · exact not_infix_of_short (by decide) h
  rcases infix_append_cons (s.notMem rfl) h with h | h
  · exact hendpoint h
  · exact not_infix_of_short (by decide) h

theorem replaced_detail {b : BodyTemplate} (hquoted : b.QuotesOnly s.chars) :
    Replaced s.chars secretMarker.toList
      ((b.detail s.chars.length).1.fill s.chars ++ s.chars.take (b.detail s.chars.length).2)
      ((b.detail s.chars.length).1.fill secretMarker.toList ++
        s.chars.take (b.detail s.chars.length).2) := by
  cases hobject : b.object with
  | some fs =>
    have hmessage : (BodyTemplate.message fs).QuotedOnly s.chars := by
      simpa only [BodyTemplate.QuotesOnly, hobject] using hquoted
    simp only [BodyTemplate.detail, hobject, List.take_zero, List.append_nil]
    exact Template.replaced_fill hmessage
  | none =>
    have htext : b.text.QuotedOnly s.chars := by
      simpa only [BodyTemplate.QuotesOnly, hobject] using hquoted
    simp only [BodyTemplate.detail, hobject]
    rw [← Template.take_fill]
    exact Template.replaced_take htext 200

theorem detail_empty_iff {b : BodyTemplate} :
    OpnsenseClient.errorDetail (b.fill s.chars) = "" ↔
      (b.detail s.chars.length).1 = [] ∧ (b.detail s.chars.length).2 = 0 := by
  rw [← String.toList_inj, BodyTemplate.toList_errorDetail_fill s.alphanumeric s.long]
  have htake : s.chars.take (b.detail s.chars.length).2 = [] ↔
      (b.detail s.chars.length).2 = 0 := by
    rw [List.take_eq_nil_iff, or_iff_left s.ne_nil]
  rw [show "".toList = ([] : List Char) from rfl, List.append_eq_nil_iff,
    Template.fill_eq_nil_iff s.ne_nil, htake]

/-- What is left of a message by the redaction of the secret. -/
theorem replaced_message {status : ℕ} {endpoint : String} {b : BodyTemplate}
    (hstatus : status < 1000) (hendpoint : ¬ s.chars <:+: endpoint.toList)
    (hquoted : b.QuotesOnly s.chars) :
    Replaced s.chars secretMarker.toList
      (s!"HTTP {status} on {endpoint}" ++ if OpnsenseClient.errorDetail (b.fill s.chars) ≠ "" then
        ": " ++ OpnsenseClient.errorDetail (b.fill s.chars) else "").toList
      (messageStart status endpoint (b.detail s.chars.length) ++
        s.chars.take (b.detail s.chars.length).2) := by
  have hintro := not_infix_intro hstatus hendpoint
  rw [messageStart]
  generalize s!"HTTP {status} on {endpoint}" = intro at hintro ⊢
  rw [String.toList_append]
  by_cases hempty : OpnsenseClient.errorDetail (b.fill s.chars) = ""
  · have hparts := detail_empty_iff.mp hempty
    rw [if_neg (not_not.mpr hempty), if_pos hparts, hparts.2, List.take_zero, List.append_nil]
    refine Replaced.append_left .nil fun v w hvw hw h => hintro ?_
    rw [show "".toList = ([] : List Char) from rfl, List.append_nil] at h
    rw [hvw]
    exact h.isInfix.trans ⟨v, ": ".toList, rfl⟩
  · have hparts := fun h => hempty (detail_empty_iff.mpr h)
    -- what the start of the message ends with is a blank, where no secret begins or goes on
    have hassoc : ∀ a b c d : List Char, a ++ (b ++ c) ++ d = (a ++ b) ++ (c ++ d) := by
      intro a b c d
      simp only [List.append_assoc]
    rw [if_pos hempty, if_neg hparts, String.toList_append,
      BodyTemplate.toList_errorDetail_fill s.alphanumeric s.long, hassoc, ← List.append_assoc]
    refine (replaced_detail hquoted).append_left fun v w hvw hw h => hintro ?_
    have hlast : w.getLast? = some ' ' := by
      have hends := congrArg List.getLast? hvw
      rw [List.getLast?_append_of_ne_nil _ hw,
        List.getLast?_append_of_ne_nil _ (by decide : ": ".toList ≠ [])] at hends
      exact hends.symm
    have hinfix : w <:+: intro.toList ++ ": ".toList :=
      hvw ▸ (List.suffix_append v w).isInfix
    exact infix_of_prefix_append (List.mem_of_getLast? hlast) hinfix h

end Redaction

section Texts

variable {client : OpnsenseClient} {s s' : Secret} {method : Method} {endpoint : String}
  {opts : CallOptions} {reply : ReplyTemplate}

/-- The text of an error is its message, the context, and the fields of a validation error. -/
theorem text_eq_listing {e : OpnsenseError} {status : ℕ}
    {validations : List (Template × JsonTemplate)} (hstatus : e.statusCode = some status)
    (hendpoint : e.endpoint = some endpoint)
    (hvalidations : e.validations = JsonTemplate.fillFields s.chars validations) :
    e.text = e.message ++ errorContext status endpoint ++
      String.ofList ((listing validations).fill s.chars) := by
  have hbase : e.baseText = e.message ++ errorContext status endpoint := by
    rw [OpnsenseError.baseText, hstatus, hendpoint]
    change e.message ++ " [" ++ toString status ++ " " ++ endpoint ++ "]" =
      e.message ++ (" [" ++ toString status ++ " " ++ endpoint ++ "]")
    simp only [String.append_assoc]
  have hreported := BodyTemplate.toList_reported_fill s.alphanumeric validations
  rw [OpnsenseError.text, hbase, hvalidations]
  cases validations with
  | nil => exact String.append_empty.symm
  | cons kv rest =>
    obtain ⟨k, v⟩ := kv
    let fields := "; ".intercalate ((JsonTemplate.fillFields s.chars ((k, v) :: rest)).map
      fun kv => kv.1 ++ ": " ++ pyStr kv.2)
    have hlisted : String.ofList ((listing ((k, v) :: rest)).fill s.chars) = " — " ++ fields := by
      apply String.toList_injective
      rw [String.toList_ofList, String.toList_append, hreported, listing,
        if_neg (by simp), Template.fill_append, Template.fill_lit]
    rw [hlisted]
    change e.message ++ errorContext status endpoint ++ " — " ++ fields = _
    rw [String.append_assoc]

/-- The fields that the error for a status lists. -/
def listedFields (reply : ReplyTemplate) : List (Template × JsonTemplate) :=
  if reply.status = 400 then reply.body.validations else []

theorem text_errorForStatus (hendpoint : ¬ s.chars <:+: endpoint.toList)
    (hquoted : reply.body.QuotesOnly s.chars) :
    ((client.withSecret s).errorForStatus reply.status (reply.body.fill s.chars) endpoint).text =
      client.redactKey (String.ofList
        (messageStart reply.status endpoint (reply.body.detail s.chars.length) ++
          s.chars.take (reply.body.detail s.chars.length).2)) ++
        errorContext reply.status endpoint ++
        String.ofList ((listing (listedFields reply)).fill s.chars) := by
  have hreplaced := replaced_message reply.three_digits hendpoint hquoted
  have hmessage := @redactSecret_of_replaced client s _ _ hreplaced
  rw [String.ofList_toList] at hmessage
  rw [← hmessage]
  have hfields : OpnsenseClient.validationsOf (reply.body.fill s.chars).json =
      JsonTemplate.fillFields s.chars reply.body.validations :=
    BodyTemplate.validationsOf_fill s.long
  unfold OpnsenseClient.errorForStatus
  split
  · rename_i hstatus
    rw [listedFields, if_pos hstatus]
    exact text_eq_listing rfl rfl hfields
  -- the other classes carry no fields
  all_goals
    have hstatus : reply.status ≠ 400 := by omega
    rw [listedFields, if_neg hstatus]
    exact text_eq_listing rfl rfl rfl

theorem errorText_verdict (hendpoint : ¬ s.chars <:+: endpoint.toList)
    (hquoted : reply.body.QuotesOnly s.chars) :
    errorText ((client.withSecret s).verdict method endpoint opts (reply.fill s.chars)) =
      if reply.status ∈ [400, 401, 403, 404] ∨ 500 ≤ reply.status then
        some (client.redactKey (String.ofList
          (messageStart reply.status endpoint (reply.body.detail s.chars.length) ++
            s.chars.take (reply.body.detail s.chars.length).2)) ++
          errorContext reply.status endpoint ++
          String.ofList ((listing (listedFields reply)).fill s.chars))
      else
        match reply.body.json with
        | .error message => some message
        | .ok _ =>
          if reply.body.resultFailed then
            some (s!"Validation failed on {endpoint}" ++ errorContext 400 endpoint ++
              String.ofList ((listing reply.body.validations).fill s.chars))
          else none := by
  unfold OpnsenseClient.verdict ReplyTemplate.fill
  by_cases hmapped : reply.status ∈ [400, 401, 403, 404] ∨ 500 ≤ reply.status
  · simp only [if_pos hmapped]
    exact congrArg some (text_errorForStatus hendpoint hquoted)
  · simp only [if_neg hmapped]
    cases hjson : reply.body.json with
    | error message =>
      have hfilled : (reply.body.fill s.chars).json = .error message := by
        rw [BodyTemplate.fill, hjson]
        rfl
      simp only [hfilled]
      rfl
    | ok v =>
      have hfilled : (reply.body.fill s.chars).json = .ok (v.fill s.chars) := by
        rw [BodyTemplate.fill, hjson]
        rfl
      have hfields := @BodyTemplate.validationsOf_fill s.chars reply.body s.long
      rw [hfilled] at hfields
      simp only [hfilled, BodyTemplate.resultFailed_fill s.long hfilled]
      split
      · exact congrArg some (text_eq_listing rfl rfl hfields)
      · rfl

theorem hole_mem_listing {validations : List (Template × JsonTemplate)} :
    none ∈ listing validations ↔ none ∈ BodyTemplate.reported validations := by
  cases validations with
  | nil => rfl
  | cons kv rest =>
    rw [listing, if_neg (by simp), List.mem_append]
    refine or_iff_right fun hmem => ?_
    obtain ⟨c, -, hc⟩ := List.mem_map.mp hmem
    cases hc

theorem hole_mem_listedFields : none ∈ BodyTemplate.reported (listedFields reply) ↔
    reply.status = 400 ∧ none ∈ BodyTemplate.reported reply.body.validations := by
  by_cases hstatus : reply.status = 400
  · rw [listedFields, if_pos hstatus, and_iff_right hstatus]
  · rw [listedFields, if_neg hstatus]
    refine iff_of_false (fun hmem => ?_) (fun h => hstatus h.1)
    cases hmem

theorem append_right_cancel_iff {t t' u : String} : t ++ u = t' ++ u ↔ t = t' := by
  rw [← String.toList_inj, ← String.toList_inj, String.toList_append, String.toList_append,
    List.append_left_inj]

/-- Two texts with a listing at the end are the same if their starts are, and the listings. -/
theorem listed_eq_iff (hlength : s.chars.length = s'.chars.length) {start start' : String}
    {validations : List (Template × JsonTemplate)} :
    start ++ String.ofList ((listing validations).fill s.chars) =
        start' ++ String.ofList ((listing validations).fill s'.chars) ↔
      start = start' ∧ (none ∈ BodyTemplate.reported validations → s.chars = s'.chars) := by
  rw [← hole_mem_listing, ← Template.fill_inj hlength, ← String.toList_inj, String.toList_append,
    String.toList_append, String.toList_ofList, String.toList_ofList]
  constructor
  · intro h
    obtain ⟨hstart, hlisted⟩ := List.append_inj' h (Template.length_fill hlength)
    exact ⟨String.toList_injective hstart, hlisted⟩
  · rintro ⟨rfl, hlisted⟩
    rw [hlisted]

/-- Of one reply, the same is shown in both runs exactly if nothing of the secret is. -/
theorem errorText_eq_iff (hlength : s.chars.length = s'.chars.length)
    (hendpoint : ¬ s.chars <:+: endpoint.toList) (hendpoint' : ¬ s'.chars <:+: endpoint.toList)
    (hquoted : reply.body.QuotesOnly s.chars) (hquoted' : reply.body.QuotesOnly s'.chars) :
    errorText ((client.withSecret s).verdict method endpoint opts (reply.fill s.chars)) =
        errorText ((client.withSecret s').verdict method endpoint opts (reply.fill s'.chars)) ↔
      Hides s.chars s'.chars reply := by
  rw [errorText_verdict hendpoint hquoted, errorText_verdict hendpoint' hquoted', Hides, ← hlength]
  split
  · have htake : (s.chars.take (reply.body.detail s.chars.length).2).length =
        (s'.chars.take (reply.body.detail s.chars.length).2).length := by
      rw [List.length_take, List.length_take, hlength]
    have hleft : ∀ c ∈ s.chars.take (reply.body.detail s.chars.length).2,
        isAlphanumeric c = true := fun c hc => s.alphanumeric c (List.mem_of_mem_take hc)
    have hright : ∀ c ∈ s'.chars.take (reply.body.detail s.chars.length).2,
        isAlphanumeric c = true := fun c hc => s'.alphanumeric c (List.mem_of_mem_take hc)
    rw [Option.some.injEq, listed_eq_iff hlength, append_right_cancel_iff,
      redactKey_inj hleft hright htake, hole_mem_listedFields, and_imp]
  · cases hjson : reply.body.json with
    | error message =>
      have hobject : reply.body.resultFailed = false := by
        simp [BodyTemplate.resultFailed, BodyTemplate.object, hjson]
      simp [hobject]
    | ok v =>
      by_cases hfailed : reply.body.resultFailed = true
      · simp only [if_pos hfailed]
        rw [Option.some.injEq, listed_eq_iff hlength, and_iff_right rfl]
        exact ⟨fun h _ => h, fun h => h hfailed⟩
      · simp only [if_neg hfailed]
        exact iff_of_true trivial fun h => absurd h hfailed

end Texts

section Requests

variable {client : OpnsenseClient} {s s' : Secret} {method : Method} {endpoint : String}
  {data : Obj} {opts : CallOptions} {replies : ℕ → ReplyTemplate}

/-- Both runs end with the reply of the same attempt. -/
theorem settled_fill (q : HttpRequest) (left n : ℕ) :
    (Prog.settled (replaying fun n => (replies n).fill s.chars) HttpReply.retryable q left n).1 =
      (settledReply replies left n).fill s.chars := by
  induction left generalizing n with
  | zero => rfl
  | succ left ih =>
    have hagain : HttpReply.retryable ((replies n).fill s.chars) = true ↔
        500 ≤ (replies n).status := by
      simp [HttpReply.retryable, ReplyTemplate.fill]
    rw [Prog.settled, settledReply]
    simp only [replaying, hagain]
    split
    · exact ih (n + 1)
    · rfl

theorem shownError_eq : client.shownError method endpoint data opts replies s =
    errorText ((client.withSecret s).verdict method endpoint opts
      ((client.lastReply opts replies).fill s.chars)) := by
  obtain ⟨earlier, hrun⟩ := @OpnsenseClient.run_request_finish _ (client.withSecret s)
    (replaying fun n => (replies n).fill s.chars) method endpoint data opts 0
  rw [OpnsenseClient.shownError, hrun, OpnsenseClient.run_finish_verdict,
    OpnsenseClient.finalReply, settled_fill]
  rfl

theorem exists_settledReply (left n : ℕ) : ∃ n', settledReply replies left n = replies n' := by
  induction left generalizing n with
  | zero => exact ⟨n, rfl⟩
  | succ left ih =>
    rw [settledReply]
    split
    · exact ih (n + 1)
    · exact ⟨n, rfl⟩

/-- Two runs of a request, with two secrets of one length and the same replies but for the quotes of
the secret, raise errors of the same text exactly if the last reply hides them. -/
theorem errors_hide_secret_iff (client : OpnsenseClient) (s s' : Secret)
    (hlength : s.chars.length = s'.chars.length) (method : Method) (endpoint : String)
    (hendpoint : ¬ s.chars <:+: endpoint.toList ∧ ¬ s'.chars <:+: endpoint.toList) (data : Obj)
    (opts : CallOptions) (replies : ℕ → ReplyTemplate)
    (hquoted : ∀ n, (replies n).body.QuotesOnly s.chars ∧ (replies n).body.QuotesOnly s'.chars) :
    client.shownError method endpoint data opts replies s =
        client.shownError method endpoint data opts replies s' ↔
      Hides s.chars s'.chars (client.lastReply opts replies) := by
  obtain ⟨n, hn⟩ := @exists_settledReply replies (client.effectiveRetries opts - 1) 0
  have hn : client.lastReply opts replies = replies n := hn
  rw [shownError_eq, shownError_eq, hn]
  exact errorText_eq_iff hlength hendpoint.1 hendpoint.2 (hquoted n).1 (hquoted n).2

end Requests

def oneSecret : Secret where
  chars := "Wq7Lx2Vb9TzR4mKd".toList
  alphanumeric := List.all_eq_true.mp rfl
  long := by decide

def otherSecret : Secret where
  chars := "Hn5Cj8Yp3GsF6uEa".toList
  alphanumeric := List.all_eq_true.mp rfl
  long := by decide

/-- A refusal that quotes the secret under a field name. -/
def quotingField : ReplyTemplate where
  status := 400
  body :=
    { text := Template.lit "\x7b\"validations\":\x7b\"field\":\"".toList ++
        none :: Template.lit "\"\x7d\x7d".toList
      json := .ok (.obj [(.lit "validations".toList, .obj [(.lit "field".toList, .str [none])])]) }
  three_digits := by decide

/-- A page of which the error shows the start, up to the middle of a quote. -/
def quotingPage : ReplyTemplate where
  status := 401
  body :=
    { text := Template.lit (List.replicate 190 '-') ++ [none]
      json := .error "Expecting value: line 1 column 1 (char 0)" }
  three_digits := by decide

theorem quotingField_quotesOnly (s : Secret) : quotingField.body.QuotesOnly s.chars := trivial

theorem quotingPage_quotesOnly : quotingPage.body.QuotesOnly oneSecret.chars ∧
    quotingPage.body.QuotesOnly otherSecret.chars := by
  have hdash : ∀ c, some c ∈ quotingPage.body.text → c = '-' := by
    intro c hc
    rcases List.mem_append.mp hc with hc | hc
    · obtain ⟨d, hd, heq⟩ := List.mem_map.mp hc
      cases heq
      exact List.eq_of_mem_replicate hd
    · cases List.mem_singleton.mp hc
  constructor
  · exact Template.quotedOnly_of_head fun hmem => absurd (hdash 'W' hmem) (by decide)
  · exact Template.quotedOnly_of_head fun hmem => absurd (hdash 'H' hmem) (by decide)

theorem menu_notMem_secret (s : Secret) : ¬ s.chars <:+: "core/menu".toList :=
  not_infix_of_short (by decide)

theorem errors_hide_secret_page :
    (¬ oneSecret.chars <:+: "core/menu".toList ∧ ¬ otherSecret.chars <:+: "core/menu".toList) ∧
    (defaultClient.shownError .get "core/menu" [] {} (fun _ => quotingPage) oneSecret =
        defaultClient.shownError .get "core/menu" [] {} (fun _ => quotingPage) otherSecret ↔
      Hides oneSecret.chars otherSecret.chars
        (defaultClient.lastReply {} fun _ => quotingPage)) := by
  have hfree := And.intro (menu_notMem_secret oneSecret) (menu_notMem_secret otherSecret)
  have hlength : oneSecret.chars.length = otherSecret.chars.length := by decide
  exact ⟨hfree, errors_hide_secret_iff defaultClient oneSecret otherSecret hlength .get "core/menu"
    hfree [] {} (fun _ => quotingPage) fun _ => quotingPage_quotesOnly⟩

theorem lastReply_const (client : OpnsenseClient) (opts : CallOptions) (reply : ReplyTemplate) :
    client.lastReply opts (fun _ => reply) = reply := by
  obtain ⟨n, hn⟩ := @exists_settledReply (fun _ => reply) (client.effectiveRetries opts - 1) 0
  exact hn

/-- Validations are listed as they came, so a refusal shows a secret it quotes. -/
theorem quotingField_not_hides :
    ¬ Hides oneSecret.chars otherSecret.chars quotingField := by
  intro h
  have hmapped : quotingField.status ∈ [400, 401, 403, 404] ∨ 500 ≤ quotingField.status := by
    decide
  rw [Hides, if_pos hmapped] at h
  have hlisted : none ∈ BodyTemplate.reported quotingField.body.validations := by decide
  have hsame := h.2 rfl hlisted
  exact absurd hsame (by decide)

/-- The text of a page is cut before it is redacted, so half a secret is not found. -/
theorem quotingPage_not_hides :
    ¬ Hides oneSecret.chars otherSecret.chars quotingPage := by
  intro h
  have hmapped : quotingPage.status ∈ [400, 401, 403, 404] ∨ 500 ≤ quotingPage.status := by
    decide
  rw [Hides, if_pos hmapped] at h
  have hcut : (quotingPage.body.detail oneSecret.chars.length).2 = 10 := by decide
  have hsame := h.1
  rw [hcut] at hsame
  exact absurd hsame (by decide)

theorem error_shows_secret :
    oneSecret.chars.length = otherSecret.chars.length ∧
    (¬ oneSecret.chars <:+: "core/menu".toList ∧ ¬ otherSecret.chars <:+: "core/menu".toList) ∧
    (∀ reply ∈ [quotingField, quotingPage],
      (reply.body.QuotesOnly oneSecret.chars ∧ reply.body.QuotesOnly otherSecret.chars) ∧
      defaultClient.shownError .get "core/menu" [] {} (fun _ => reply) oneSecret ≠
        defaultClient.shownError .get "core/menu" [] {} (fun _ => reply) otherSecret) := by
  have hlength : oneSecret.chars.length = otherSecret.chars.length := by decide
  have hone := menu_notMem_secret oneSecret
  have hother := menu_notMem_secret otherSecret
  refine ⟨hlength, ⟨hone, hother⟩, fun reply hreply => ?_⟩
  have hquoted : reply.body.QuotesOnly oneSecret.chars ∧
      reply.body.QuotesOnly otherSecret.chars := by
    rcases List.mem_pair.mp hreply with rfl | rfl
    · exact ⟨quotingField_quotesOnly oneSecret, quotingField_quotesOnly otherSecret⟩
    · exact quotingPage_quotesOnly
  have hshows : ¬ Hides oneSecret.chars otherSecret.chars reply := by
    rcases List.mem_pair.mp hreply with rfl | rfl
    · exact quotingField_not_hides
    · exact quotingPage_not_hides
  refine ⟨hquoted, fun hsame => hshows ?_⟩
  rw [shownError_eq, shownError_eq, lastReply_const] at hsame
  exact (errorText_eq_iff hlength hone hother hquoted.1 hquoted.2).mp hsame

end Opnsense
