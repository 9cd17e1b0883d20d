import Mathlib.Algebra.Ring.Nat
import Opnsense.TextGrammar

namespace Opnsense
open Text

/-- What `ipaddress.ip_address` returns, as far as the validators look at it. -/
structure IpAddress where
  version : ℕ
  isPrivate : Bool
  isMulticast : Bool
  isLoopback : Bool
  isLinkLocal : Bool

/-- `ipaddress`: which texts are addresses, none of them for a `ValueError`. An address is written
with dots or colons, and has no slash. -/
structure IpLibrary where
  ipAddress : String → Option IpAddress
  slash_free : ∀ s a, ipAddress s = some a → '/' ∉ s.toList
  dot_or_colon : ∀ s a, ipAddress s = some a → '.' ∈ s.toList ∨ ':' ∈ s.toList
  version_eq : ∀ s a, ipAddress s = some a → a.version = 4 ∨ a.version = 6

/-- A number up to 255 without leading zeros. -/
def octet (cs : List Char) : Option ℕ :=
  if cs.length ≤ 3 ∧ cs.all isAsciiDigit ∧ (cs = ['0'] ∨ cs.head? ≠ some '0') then
    match cs.mapM asciiDecimal with
    | some (d :: ds) => some (valueOf (d :: ds)) |>.filter (· ≤ 255)
    | _ => none
  else none

/-- The networks of IPv4 that are not global, with the lengths of their prefixes. -/
def privateNetworks : List (ℕ × ℕ) :=
  [(0x00000000, 8), (0x0a000000, 8), (0x7f000000, 8), (0xa9fe0000, 16), (0xac100000, 12),
    (0xc0000000, 24), (0xc00000aa, 31), (0xc0000200, 24), (0xc0a80000, 16), (0xc6120000, 15),
    (0xc6336400, 24), (0xcb007100, 24), (0xf0000000, 4)]

def inNetwork (n : ℕ) (network : ℕ × ℕ) : Bool :=
  n / 2 ^ (32 - network.2) == network.1 / 2 ^ (32 - network.2)

/-- An IPv4 address from its four octets. -/
def ofOctets (octets : List ℕ) : IpAddress :=
  let n := octets.foldl (fun n octet => 256 * n + octet) 0
  { version := 4
    isPrivate := privateNetworks.any (inNetwork n)
    isMulticast := inNetwork n (0xe0000000, 4)
    isLoopback := inNetwork n (0x7f000000, 8)
    isLinkLocal := inNetwork n (0xa9fe0000, 16) }

def dottedQuad (s : String) : Option IpAddress :=
  match (s.toList.splitOn '.').map octet with
  | [some a, some b, some c, some d] => some (ofOctets [a, b, c, d])
  | _ => none

section DottedQuads

variable {s : String} {a : IpAddress} {cs : List Char} {n : ℕ}

theorem isAsciiDigit_of_octet (h : octet cs = some n) : ∀ c ∈ cs, isAsciiDigit c = true := by
  rw [octet] at h
  split at h
  · rename_i hdigits
    exact List.all_eq_true.mp hdigits.2.1
  · cases h

theorem dottedQuad_eq_some (h : dottedQuad s = some a) : ∃ octets : List ℕ, octets.length = 4 ∧
    (s.toList.splitOn '.').map octet = octets.map some ∧ a = ofOctets octets := by
  rw [dottedQuad] at h
  split at h
  · rename_i w x y z hoctets
    exact ⟨[w, x, y, z], rfl, hoctets, (Option.some.inj h).symm⟩
  · cases h

/-- A dotted quad is made of digits and dots. -/
theorem mem_dottedQuad (h : dottedQuad s = some a) {c : Char} (hc : c ∈ s.toList) :
    c = '.' ∨ isAsciiDigit c = true := by
  by_cases hdot : c = '.'
  · exact Or.inl hdot
  · obtain ⟨octets, -, hoctets, -⟩ := dottedQuad_eq_some h
    have hmem : c ∈ (s.toList.splitOn '.').flatten := by
      rw [Text.flatten_splitOn]
      exact List.mem_filter.mpr ⟨hc, by simpa using hdot⟩
    obtain ⟨piece, hpiece, hc⟩ := List.mem_flatten.mp hmem
    have hsome : octet piece ∈ octets.map some := hoctets ▸ List.mem_map_of_mem hpiece
    obtain ⟨n, -, hn⟩ := List.mem_map.mp hsome
    exact Or.inr (isAsciiDigit_of_octet hn.symm c hc)

theorem dot_mem_dottedQuad (h : dottedQuad s = some a) : '.' ∈ s.toList := by
  obtain ⟨octets, hlength, hoctets, -⟩ := dottedQuad_eq_some h
  by_contra hdot
  have hone : s.toList.splitOn '.' = [s.toList] := by
    have hsplit := @List.splitOn_intercalate _ [s.toList] _ _ '.' (by simpa using hdot) (by simp)
    rwa [List.intercalate_singleton] at hsplit
  rw [hone] at hoctets
  have hlengths := congrArg List.length hoctets
  rw [List.length_map, List.length_map, hlength] at hlengths
  cases hlengths

end DottedQuads

/-- The reader of dotted quads. -/
def dottedQuads : IpLibrary where
  ipAddress := dottedQuad
  slash_free s a h hslash := by
    rcases mem_dottedQuad h hslash with hdot | hdigit
    · exact absurd hdot (by decide)
    · exact absurd hdigit (by decide)
  dot_or_colon s a h := Or.inl (dot_mem_dottedQuad h)
  version_eq s a h := by
    obtain ⟨octets, -, -, rfl⟩ := dottedQuad_eq_some h
    exact Or.inl rfl

/-- The rule that an address outside the scope breaks. -/
def scopeError (scope : Option String) (addr : IpAddress) : Option String :=
  if scope = some "private" ∧ !addr.isPrivate then some "must be a private IP address"
  else if scope = some "public" ∧ addr.isPrivate then some "must be a public IP address"
  else if scope = some "unicast" ∧ (addr.isMulticast || addr.isLoopback) then
    some "must be a unicast IP address"
  else if scope = some "multicast" ∧ !addr.isMulticast then some "must be a multicast IP address"
  else if scope = some "loopback" ∧ !addr.isLoopback then some "must be a loopback IP address"
  else if scope = some "link_local" ∧ !addr.isLinkLocal then
    some "must be a link-local IP address"
  else none

section Validators

variable (lib : IpLibrary)

/-- `validate_ip` -/
def validateIp : FieldValidator := fun field value r =>
  let refuse (rule : String) : Except Exc Unit := .error (.fieldValidation field (.str value) rule)
  let addr_str := if '/' ∈ value.toList then String.ofList ((value.toList.splitOn '/').headD [])
    else value
  match lib.ipAddress addr_str with
  | none => refuse "must be a valid IP address"
  | some addr =>
    match r.version.filter (addr.version ≠ ·) with
    | some required => refuse s!"must be IPv{required}, got IPv{addr.version}"
    | none =>
      match scopeError r.scope addr with
      | some rule => refuse rule
      | none => .ok ()

/-- The items of a list of addresses. -/
def csvItems (value : String) : List String :=
  (((splitComma value).map strip).filter (· ≠ [])).map String.ofList

/-- `validate_csv_ip` -/
def validateCsvIp : FieldValidator := fun field value r =>
  if strip value.toList = [] then .ok ()
  else
    let items := csvItems value
    match r.maxItems.filter (· < items.length) with
    | some maxItems => .error (.fieldValidation field (.str value)
        s!"must list at most {maxItems} address(es), got {items.length}")
    | none => items.forM fun item => validateIp lib field item r

/-- `validate_ip_or_alias` -/
def validateIpOrAlias : FieldValidator := fun field value r =>
  if (aliasRe.body.search value.toList).isSome then .ok ()
  else validateIp lib field value r

end Validators

example : ["10.0.0.1", "10.0.0.1/24", "10.0.0.1/abc", "10.0.0.256", "8.8.8.8"].map (fun value =>
    (validateIp dottedQuads "address" value { type := "ip", scope := some "private" }).isOk) =
    [true, true, true, false, false] := by decide

/-- The address is in the scope; a scope of another name is none. -/
def InScope (scope : Option String) (a : IpAddress) : Prop :=
  match scope with
  | some "private" => a.isPrivate = true
  | some "public" => a.isPrivate = false
  | some "unicast" => a.isMulticast = false ∧ a.isLoopback = false
  | some "multicast" => a.isMulticast = true
  | some "loopback" => a.isLoopback = true
  | some "link_local" => a.isLinkLocal = true
  | _ => True

def Satisfies (r : FieldRule) (a : IpAddress) : Prop :=
  (∀ version, r.version = some version → a.version = version) ∧ InScope r.scope a

/-- A prefix length for the family of the address. -/
def PrefixLength (a : IpAddress) (cs : List Char) : Prop :=
  ∃ n, Numeral asciiDecimal cs n ∧ n ≤ if a.version = 4 then 32 else 128

/-- An address, alone or with a slash and a prefix length behind it. -/
def AddressText (lib : IpLibrary) (r : FieldRule) (cs : List Char) : Prop :=
  ∃ a, Satisfies r a ∧ (lib.ipAddress (String.ofList cs) = some a ∨
    ∃ bare length, cs = bare ++ '/' :: length ∧ lib.ipAddress (String.ofList bare) = some a ∧
      PrefixLength a length)

/-- An address with a slash behind it and then no prefix length. -/
def BadTail (lib : IpLibrary) (r : FieldRule) (cs : List Char) : Prop :=
  ∃ bare rest a, cs = bare ++ '/' :: rest ∧ lib.ipAddress (String.ofList bare) = some a ∧
    Satisfies r a ∧ ¬ PrefixLength a rest

section Addresses

variable {lib : IpLibrary} {field value : String} {r : FieldRule} {cs bare rest : List Char}
  {a : IpAddress}

theorem takeWhile_slash (h : '/' ∉ bare) : (bare ++ '/' :: rest).takeWhile (· ≠ '/') = bare := by
  rw [List.takeWhile_append_of_pos, List.takeWhile_cons_of_neg, List.append_nil]
  · simp
  · intro c hc
    have hne : c ≠ '/' := by
      rintro rfl
      exact h hc
    simpa using hne

/-- A text is split at its first slash in one way. -/
theorem slash_split_unique {bare' rest' : List Char} (h : '/' ∉ bare) (h' : '/' ∉ bare')
    (heq : bare ++ '/' :: rest = bare' ++ '/' :: rest') : bare = bare' ∧ rest = rest' := by
  have hbare : bare = bare' := by rw [← takeWhile_slash h, heq, takeWhile_slash h']
  rw [hbare] at heq
  exact ⟨hbare, (List.cons.inj (List.append_cancel_left heq)).2⟩

theorem exists_slash_split (h : '/' ∈ cs) : ∃ bare rest, cs = bare ++ '/' :: rest ∧ '/' ∉ bare := by
  induction cs with
  | nil => cases h
  | cons c cs ih =>
    by_cases hc : c = '/'
    · exact ⟨[], cs, by rw [hc]; rfl, List.not_mem_nil⟩
    · obtain ⟨bare, rest, rfl, hbare⟩ := ih ((List.mem_cons.mp h).resolve_left (Ne.symm hc))
      exact ⟨c :: bare, rest, rfl, by simp [Ne.symm hc, hbare]⟩

theorem splitOn_slash (h : '/' ∉ bare) : ((bare ++ '/' :: rest).splitOn '/').headD [] = bare := by
  induction bare with
  | nil => rw [List.nil_append, List.splitOn_cons_eq_if_modifyHead, if_pos (by simp)]; rfl
  | cons c bare ih =>
    obtain ⟨hc, hbare⟩ := not_or.mp fun hmem => h (List.mem_cons.mpr hmem)
    have ih := ih hbare
    obtain ⟨g, groups, hgroups⟩ :=
      List.exists_cons_of_ne_nil (List.splitOn_ne_nil '/' (bare ++ '/' :: rest))
    rw [hgroups] at ih
    rw [List.cons_append, List.splitOn_cons_eq_if_modifyHead, if_neg (by simpa using Ne.symm hc),
      hgroups, List.modifyHead_cons]
    exact congrArg (c :: ·) ih

theorem bare_slash_free (h : lib.ipAddress (String.ofList bare) = some a) : '/' ∉ bare := by
  have hfree := lib.slash_free _ _ h
  rwa [String.toList_ofList] at hfree

theorem scopeError_eq_none_iff {scope : Option String} :
    scopeError scope a = none ↔ InScope scope a := by
  unfold InScope
  split
  case h_7 hprivate hpublic hunicast hmulticast hloopback hlinkLocal =>
    rw [scopeError, if_neg (fun h => hprivate h.1), if_neg (fun h => hpublic h.1),
      if_neg (fun h => hunicast h.1), if_neg (fun h => hmulticast h.1),
      if_neg (fun h => hloopback h.1), if_neg (fun h => hlinkLocal h.1)]
    exact iff_of_true rfl trivial
  all_goals simp [scopeError]

theorem takeWhile_of_slash_free (h : '/' ∉ cs) : cs.takeWhile (· ≠ '/') = cs := by
  rw [List.takeWhile_eq_self_iff]
  intro c hc
  have hne : c ≠ '/' := by
    rintro rfl
    exact h hc
  simpa using hne

/-- The code looks at what stands before the first slash. -/
theorem validateIp_eq_ok_iff : validateIp lib field value r = .ok () ↔
    ∃ a, lib.ipAddress (String.ofList (value.toList.takeWhile (· ≠ '/'))) = some a ∧
      Satisfies r a := by
  -- `split('/')[0]` is what stands before the first slash
  have haddr : (if '/' ∈ value.toList then
      String.ofList ((value.toList.splitOn '/').headD []) else value) =
      String.ofList (value.toList.takeWhile (· ≠ '/')) := by
    by_cases hslash : '/' ∈ value.toList
    · obtain ⟨bare, rest, heq, hbare⟩ := exists_slash_split hslash
      rw [if_pos hslash, heq, splitOn_slash hbare, takeWhile_slash hbare]
    · rw [if_neg hslash, takeWhile_of_slash_free hslash, String.ofList_toList]
  simp only [validateIp, haddr]
  cases hread : lib.ipAddress (String.ofList (value.toList.takeWhile (· ≠ '/'))) with
  | none => simp
  | some a =>
    have hversion : r.version.filter (a.version ≠ ·) = none ↔
        ∀ version, r.version = some version → a.version = version := by
      simp [Option.filter_eq_none_iff]
    simp only [Option.some.injEq, exists_eq_left', Satisfies]
    rw [← hversion, ← scopeError_eq_none_iff]
    split
    · rename_i hrefused
      rw [hrefused]
      exact iff_of_false (nomatch ·) (nomatch ·.1)
    · rename_i hnone
      split
      · rename_i hscope
        rw [hscope]
        exact iff_of_false (nomatch ·) (nomatch ·.2)
      · rename_i hscope
        exact iff_of_true rfl ⟨hnone, hscope⟩

theorem validateIp_of_slash (h : value.toList = bare ++ '/' :: rest) (hbare : '/' ∉ bare) :
    validateIp lib field value r = .ok () ↔
      ∃ a, lib.ipAddress (String.ofList bare) = some a ∧ Satisfies r a := by
  rw [validateIp_eq_ok_iff, h, takeWhile_slash hbare]

theorem validateIp_of_slash_free (h : '/' ∉ value.toList) :
    validateIp lib field value r = .ok () ↔ ∃ a, lib.ipAddress value = some a ∧ Satisfies r a := by
  rw [validateIp_eq_ok_iff, takeWhile_of_slash_free h, String.ofList_toList]

theorem addressText_of_slash (hbare : '/' ∉ bare) :
    AddressText lib r (bare ++ '/' :: rest) ↔ ∃ a, lib.ipAddress (String.ofList bare) = some a ∧
      Satisfies r a ∧ PrefixLength a rest := by
  constructor
  · rintro ⟨a, hsat, hread | ⟨bare', length, heq, hread, hlength⟩⟩
    · exact absurd (List.mem_append_right bare List.mem_cons_self) (bare_slash_free hread)
    · obtain ⟨rfl, rfl⟩ := slash_split_unique hbare (bare_slash_free hread) heq
      exact ⟨a, hread, hsat, hlength⟩
  · rintro ⟨a, hread, hsat, hlength⟩
    exact ⟨a, hsat, Or.inr ⟨bare, rest, rfl, hread, hlength⟩⟩

theorem addressText_of_slash_free (h : '/' ∉ cs) :
    AddressText lib r cs ↔ ∃ a, lib.ipAddress (String.ofList cs) = some a ∧ Satisfies r a := by
  constructor
  · rintro ⟨a, hsat, hread | ⟨bare, length, rfl, -⟩⟩
    · exact ⟨a, hread, hsat⟩
    · exact absurd (List.mem_append_right bare List.mem_cons_self) h
  · rintro ⟨a, hread, hsat⟩
    exact ⟨a, hsat, Or.inl hread⟩

theorem badTail_of_slash (hbare : '/' ∉ bare) :
    BadTail lib r (bare ++ '/' :: rest) ↔ ∃ a, lib.ipAddress (String.ofList bare) = some a ∧
      Satisfies r a ∧ ¬ PrefixLength a rest := by
  constructor
  · rintro ⟨bare', rest', a, heq, hread, hsat, htail⟩
    obtain ⟨rfl, rfl⟩ := slash_split_unique hbare (bare_slash_free hread) heq
    exact ⟨a, hread, hsat, htail⟩
  · rintro ⟨a, hread, hsat, htail⟩
    exact ⟨bare, rest, a, rfl, hread, hsat, htail⟩

/-- The code accepts the addresses, and beside them those with a bad tail. -/
theorem validateIp_eq_ok_iff_text : validateIp lib field value r = .ok () ↔
    AddressText lib r value.toList ∨ BadTail lib r value.toList := by
  by_cases hslash : '/' ∈ value.toList
  · obtain ⟨bare, rest, heq, hbare⟩ := exists_slash_split hslash
    rw [validateIp_of_slash heq hbare, heq, addressText_of_slash hbare, badTail_of_slash hbare]
    constructor
    · rintro ⟨a, hread, hsat⟩
      by_cases hlength : PrefixLength a rest
      · exact Or.inl ⟨a, hread, hsat, hlength⟩
      · exact Or.inr ⟨a, hread, hsat, hlength⟩
    · rintro (⟨a, hread, hsat, -⟩ | ⟨a, hread, hsat, -⟩)
      · exact ⟨a, hread, hsat⟩
      · exact ⟨a, hread, hsat⟩
  · have hnone : ¬ BadTail lib r value.toList := by
      rintro ⟨bare, rest, a, heq, -⟩
      rw [heq] at hslash
      exact hslash (List.mem_append_right bare List.mem_cons_self)
    rw [validateIp_of_slash_free hslash, addressText_of_slash_free hslash, String.ofList_toList,
      or_iff_left hnone]

/-- No address has a bad tail. -/
theorem not_badTail_of_addressText (h : AddressText lib r cs) : ¬ BadTail lib r cs := by
  rintro ⟨bare, rest, a, rfl, hread, hsat, htail⟩
  obtain ⟨a', hread', -, hlength⟩ := (addressText_of_slash (bare_slash_free hread)).mp h
  rw [hread] at hread'
  cases hread'
  exact htail hlength

theorem validateIp_keeps_iff :
    (validateIp lib field value r = .ok () ↔ AddressText lib r value.toList) ↔
      ¬ BadTail lib r value.toList := by
  rw [validateIp_eq_ok_iff_text]
  constructor
  · intro hkeeps hbad
    exact not_badTail_of_addressText (hkeeps.mp (Or.inr hbad)) hbad
  · exact fun hnone => or_iff_left hnone

theorem Identifier.isAliasRest (h : Identifier cs) : ∀ c ∈ cs, isAliasRest c = true := by
  obtain ⟨c, rest, rfl, hc, hrest⟩ := h
  refine List.forall_mem_cons.mpr ⟨?_, hrest⟩
  rw [Opnsense.isAliasRest, hc, Bool.true_or]

/-- The alias validator accepts a newline behind an alias, which is no address. -/
theorem validateIpOrAlias_keeps_iff :
    (validateIpOrAlias lib field value r = .ok () ↔
      Identifier value.toList ∨ validateIp lib field value r = .ok ()) ↔
      ¬ NewlineAfter Identifier value.toList := by
  have hcode : validateIpOrAlias lib field value r = .ok () ↔
      (Identifier value.toList ∨ NewlineAfter Identifier value.toList) ∨
        validateIp lib field value r = .ok () := by
    have hsearch : (aliasRe.body.search value.toList).isSome = true ↔
        Identifier value.toList ∨ NewlineAfter Identifier value.toList := by
      rw [Regex.isSome_search_iff, Regex.LangOrNewline, NewlineAfter]
      simp only [lang_aliasRe_iff]
    rw [validateIpOrAlias, ← hsearch]
    by_cases h : (aliasRe.body.search value.toList).isSome = true
    · rw [if_pos h]
      exact iff_of_true rfl (Or.inl h)
    · rw [if_neg h, or_iff_right h]
  rw [hcode]
  constructor
  · rintro hkeeps ⟨u, heq, hu⟩
    -- neither the alias nor the newline has a dot, a colon or a slash
    have hfree : ∀ c, isAliasRest c = false → c ≠ '\n' → c ∉ value.toList := by
      intro c hrest hnewline hc
      rw [heq] at hc
      rcases List.mem_append.mp hc with hc | hc
      · rw [hu.isAliasRest c hc] at hrest
        cases hrest
      · exact hnewline (List.mem_singleton.mp hc)
    rcases hkeeps.mp (Or.inl (Or.inr ⟨u, heq, hu⟩)) with hidentifier | hip
    · refine notMem_of_identifier hidentifier ?_
      rw [heq]
      exact List.mem_append_right u (List.mem_singleton_self _)
    · have hslash : '/' ∉ value.toList := hfree '/' rfl (by decide)
      obtain ⟨a, hread, -⟩ := (validateIp_of_slash_free hslash).mp hip
      rcases lib.dot_or_colon value a hread with hdot | hcolon
      · exact hfree '.' rfl (by decide) hdot
      · exact hfree ':' rfl (by decide) hcolon
  · intro hnone
    rw [or_iff_left hnone]

theorem mem_of_mem_splitComma {piece : List Char} (h : piece ∈ splitComma value) {c : Char}
    (hc : c ∈ piece) : c ∈ value.toList := by
  have hmem : c ∈ (value.toList.splitOn ',').flatten := List.mem_flatten.mpr ⟨piece, h, hc⟩
  rw [Text.flatten_splitOn] at hmem
  exact List.mem_of_mem_filter hmem

theorem strip_eq_nil_iff : strip cs = [] ↔ ∀ c ∈ cs, isSpace c = true := by
  constructor
  · intro h
    obtain ⟨before, after, heq, hbefore, hafter⟩ := exists_around_strip isSpace cs
    rw [strip] at h
    rw [h, List.append_nil] at heq
    intro c hc
    rw [heq] at hc
    rcases List.mem_append.mp hc with hc | hc
    · exact hbefore c hc
    · exact hafter c hc
  · intro h
    rw [strip, List.dropWhile_eq_nil_iff.mpr h]
    rfl

theorem csvItems_of_blank (h : strip value.toList = []) : csvItems value = [] := by
  have hblank := strip_eq_nil_iff.mp h
  rw [csvItems, List.map_eq_nil_iff, List.filter_eq_nil_iff]
  intro item hitem
  obtain ⟨piece, hpiece, rfl⟩ := List.mem_map.mp hitem
  have hnil : strip piece = [] := strip_eq_nil_iff.mpr fun c hc =>
    hblank c (mem_of_mem_splitComma hpiece hc)
  simp [hnil]

theorem forM_eq_ok_iff {α : Type} {check : α → Except Exc Unit} {items : List α} :
    items.forM check = .ok () ↔ ∀ item ∈ items, check item = .ok () := by
  induction items with
  | nil => exact iff_of_true rfl (List.forall_mem_nil _)
  | cons item items ih =>
    rw [List.forall_mem_cons, ← ih]
    change (check item >>= fun _ => items.forM check) = .ok () ↔ _
    cases check item with
    | error e => exact iff_of_false (nomatch ·) (nomatch ·.1)
    | ok _ => exact ⟨fun h => ⟨rfl, h⟩, fun h => h.2⟩

/-- No more items than the rule lets a list have. -/
def FitsList (r : FieldRule) (items : List String) : Prop :=
  ∀ maxItems, r.maxItems = some maxItems → items.length ≤ maxItems

theorem validateCsvIp_eq_ok_iff : validateCsvIp lib field value r = .ok () ↔
    FitsList r (csvItems value) ∧
      ∀ item ∈ csvItems value, validateIp lib field item r = .ok () := by
  rw [validateCsvIp]
  by_cases hblank : strip value.toList = []
  · rw [if_pos hblank, csvItems_of_blank hblank]
    exact iff_of_true rfl ⟨fun _ _ => Nat.zero_le _, List.forall_mem_nil _⟩
  · have hfits : r.maxItems.filter (· < (csvItems value).length) = none ↔
        FitsList r (csvItems value) := by
      simp only [Option.filter_eq_none_iff, decide_eq_true_eq, not_lt, FitsList]
    rw [if_neg hblank, ← hfits]
    simp only
    split
    · rename_i hmany
      rw [hmany]
      exact iff_of_false (nomatch ·) (nomatch ·.1)
    · rename_i hfew
      rw [forM_eq_ok_iff, hfew, and_iff_right rfl]

/-- A list keeps to addresses where no item that the code accepts has a bad tail. -/
theorem validateCsvIp_keeps_iff :
    (validateCsvIp lib field value r = .ok () ↔
      FitsList r (csvItems value) ∧ ∀ item ∈ csvItems value, AddressText lib r item.toList) ↔
      ¬ (FitsList r (csvItems value) ∧
        (∀ item ∈ csvItems value,
          AddressText lib r item.toList ∨ BadTail lib r item.toList) ∧
        ∃ item ∈ csvItems value, BadTail lib r item.toList) := by
  rw [validateCsvIp_eq_ok_iff]
  simp only [validateIp_eq_ok_iff_text]
  constructor
  · rintro hkeeps ⟨hfits, hall, item, hitem, hbad⟩
    exact not_badTail_of_addressText ((hkeeps.mp ⟨hfits, hall⟩).2 item hitem) hbad
  · intro hnone
    constructor
    · rintro ⟨hfits, hall⟩
      refine ⟨hfits, fun item hitem => (hall item hitem).resolve_right fun hbad => ?_⟩
      exact hnone ⟨hfits, hall, item, hitem, hbad⟩
    · rintro ⟨hfits, hall⟩
      exact ⟨hfits, fun item hitem => Or.inl (hall item hitem)⟩

end Addresses

/-- The validators of addresses accept addresses only, on exactly the texts where what follows the
slash is a prefix length, and no newline follows an alias. Of a list they check the number of the
items and each item. -/
theorem address_validators_keep_iff (lib : IpLibrary) (field value : String) (r : FieldRule) :
    ((validateIp lib field value r = .ok () ↔ AddressText lib r value.toList) ↔
      ¬ BadTail lib r value.toList) ∧
    ((validateIpOrAlias lib field value r = .ok () ↔
        Identifier value.toList ∨ validateIp lib field value r = .ok ()) ↔
      ¬ NewlineAfter Identifier value.toList) ∧
    (validateCsvIp lib field value r = .ok () ↔ FitsList r (csvItems value) ∧
      ∀ item ∈ csvItems value, validateIp lib field item r = .ok ()) ∧
    ((validateCsvIp lib field value r = .ok () ↔ FitsList r (csvItems value) ∧
        ∀ item ∈ csvItems value, AddressText lib r item.toList) ↔
      ¬ (FitsList r (csvItems value) ∧
        (∀ item ∈ csvItems value,
          AddressText lib r item.toList ∨ BadTail lib r item.toList) ∧
        ∃ item ∈ csvItems value, BadTail lib r item.toList)) :=
  ⟨validateIp_keeps_iff, validateIpOrAlias_keeps_iff, validateCsvIp_eq_ok_iff,
    validateCsvIp_keeps_iff⟩

/-- After the slash anything passes; so does a newline behind an alias. -/
theorem bad_tails_accepted :
    (∀ value ∈ ["10.0.0.1/abc", "10.0.0.1/33", "10.0.0.1/", "10.0.0.1/8/9"],
      validateIp dottedQuads "address" value { type := "ip", version := some 4 } = .ok () ∧
      ¬ AddressText dottedQuads { type := "ip", version := some 4 } value.toList) ∧
    (validateIpOrAlias dottedQuads "target" "web\n" { type := "ip_or_alias" } = .ok () ∧
      ¬ (Identifier "web\n".toList ∨
        validateIp dottedQuads "target" "web\n" { type := "ip_or_alias" } = .ok ())) ∧
    (validateCsvIp dottedQuads "servers" "10.0.0.1, 10.0.0.2/x" { type := "csv_ip" } = .ok () ∧
      ¬ ∀ item ∈ csvItems "10.0.0.1, 10.0.0.2/x",
        AddressText dottedQuads { type := "csv_ip" } item.toList) := by
  have htail : ∀ (bare rest : List Char) (r : FieldRule), '/' ∉ bare →
      (∀ n, Numeral asciiDecimal rest n → 32 < n) →
      ¬ AddressText dottedQuads r (bare ++ '/' :: rest) := by
    intro bare rest r hbare hlarge htext
    obtain ⟨a, hread, -, n, hnumeral, hbound⟩ := (addressText_of_slash hbare).mp htext
    obtain ⟨octets, -, -, rfl⟩ := dottedQuad_eq_some hread
    exact absurd hbound (not_le.mpr (hlarge n hnumeral))
  have hnone : ∀ (c : Char) (rest : List Char), c ∈ rest → asciiDecimal c = none →
      ∀ n, Numeral asciiDecimal rest n → 32 < n := by
    intro c rest hc hdecimal n hnumeral
    have hsome := hnumeral.isSome_of_mem hc
    rw [hdecimal] at hsome
    cases hsome
  have hlong : ∀ n, Numeral asciiDecimal "33".toList n → 32 < n := by
    intro n hnumeral
    have hvalue : Numeral asciiDecimal "33".toList 33 :=
      ⟨by decide, [3, 3], .cons rfl (.cons rfl .nil), rfl⟩
    rw [hnumeral.unique hvalue]
    decide
  refine ⟨?_, ⟨eq_ok_of_isOk (by decide), ?_⟩, eq_ok_of_isOk (by decide), ?_⟩
  · simp only [List.forall_mem_cons, List.not_mem_nil, false_imp_iff, implies_true, and_true]
    refine ⟨⟨eq_ok_of_isOk (by decide), ?_⟩, ⟨eq_ok_of_isOk (by decide), ?_⟩,
      ⟨eq_ok_of_isOk (by decide), ?_⟩, eq_ok_of_isOk (by decide), ?_⟩
    · exact htail "10.0.0.1".toList "abc".toList _ (by decide) (hnone 'a' _ (by decide) rfl)
    · exact htail "10.0.0.1".toList "33".toList _ (by decide) hlong
    · exact htail "10.0.0.1".toList [] _ (by decide) fun n h => absurd rfl h.1
    · exact htail "10.0.0.1".toList "8/9".toList _ (by decide) (hnone '/' _ (by decide) rfl)
  · rintro (h | h)
    · exact notMem_of_identifier h (by decide)
    · rw [validateIp_of_slash_free (by decide)] at h
      obtain ⟨a, hread, -⟩ := h
      rcases dottedQuads.dot_or_colon _ a hread with hdot | hcolon
      · exact absurd hdot (by decide)
      · exact absurd hcolon (by decide)
  · intro h
    refine htail "10.0.0.2".toList "x".toList _ (by decide) (hnone 'x' _ (by decide) rfl)
      (h "10.0.0.2/x" ?_)
    decide

end Opnsense
