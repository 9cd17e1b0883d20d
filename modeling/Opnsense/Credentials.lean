import Opnsense.FieldTypes

namespace Opnsense

structure OpnsenseCredentials where
  host : String
  key : String
  secret : String
  port : ℤ := 443
  verifySsl : Bool := false
  deriving DecidableEq, Repr

/-- `OpnsenseClient.base_url` -/
def baseUrl (host : String) (port : ℤ) : String := s!"https://{host}:{port}/api"

/-- What a provider raises; `valueError` is that of `int` for a port. -/
inductive CredentialError where
  | importError (message : String)
  | runtimeError (message : String)
  | valueError

/-- The names whose value is missing or empty. -/
def missingNames (values : List (String × Option String)) : List String :=
  (values.filter fun kv => kv.2.getD "" == "").map (·.1)

/-- `raw.lower() in ("true", "1", "yes")`; only letters of ASCII have these for lower case. -/
def readFlag (raw : String) : Bool :=
  (["true", "1", "yes"].map String.toList).contains (raw.toList.map Char.toLower)

/-- `int(port)` -/
def readPort (py : Interpreter) (port : String) : Except CredentialError ℤ :=
  match pyInt py port with
  | some n => .ok n
  | none => .error .valueError

structure EnvCredentialProvider where
  envFile : Option String := some ".env"

namespace EnvCredentialProvider

/-- `_load_dotenv`: with `override=False` a variable that is set stays as it is. `dotenv` has the
variables of a file that exists, if python-dotenv is installed. -/
def loadDotenv (p : EnvCredentialProvider) (dotenv : String → Option (List (String × String)))
    (environ : List (String × String)) : List (String × String) :=
  match p.envFile with
  | none => environ
  | some path => if path = "" then environ else environ ++ (dotenv path).getD []

/-- The scheme prefix that `get` strips. -/
def stripScheme (host : String) : String :=
  if "https://".toList.isPrefixOf host.toList then String.ofList (host.toList.drop 8)
  else if "http://".toList.isPrefixOf host.toList then String.ofList (host.toList.drop 7)
  else host

def get (p : EnvCredentialProvider) (py : Interpreter)
    (dotenv : String → Option (List (String × String))) (environ : List (String × String)) :
    Except CredentialError OpnsenseCredentials := do
  let environ := p.loadDotenv dotenv environ
  let host := environ.lookup "OPN_HOST"
  let key := environ.lookup "OPN_KEY"
  let secret := environ.lookup "OPN_SECRET"
  let missing := missingNames [("OPN_HOST", host), ("OPN_KEY", key), ("OPN_SECRET", secret)]
  if missing ≠ [] then
    let names := ", ".intercalate missing
    .error (.runtimeError (s!"Missing required environment variables: {names}. " ++
      "Copy .env.example to .env and fill in values."))
  else
    let port ← readPort py ((environ.lookup "OPN_PORT").getD "443")
    return { host := stripScheme (host.getD ""), key := key.getD "", secret := secret.getD "",
             port, verifySsl := readFlag ((environ.lookup "OPN_VERIFY_SSL").getD "false") }

end EnvCredentialProvider

/-- `read_secret_version` of a client for an address and a token: the texts of the entry under a
path and a mount point, none if the response has no data, or the exception as text. -/
abbrev Hvac := String → String → String → String → Except String (List (String × String))

structure VaultCredentialProvider where
  vaultAddr : String
  vaultToken : String
  vaultPath : String := "secret/net/opnsense/poc"
  mountPoint : String := "secret"

namespace VaultCredentialProvider

/-- The path without the mount point in front. -/
def path (p : VaultCredentialProvider) : String :=
  let mount := p.mountPoint.toList ++ ['/']
  if mount.isPrefixOf p.vaultPath.toList then String.ofList (p.vaultPath.toList.drop mount.length)
  else p.vaultPath

def get (p : VaultCredentialProvider) (py : Interpreter) (hvac : Option Hvac) :
    Except CredentialError OpnsenseCredentials :=
  let vaultPath := p.vaultPath
  match hvac with
  | none => .error (.importError ("hvac is required for Vault credential provider. " ++
      "Install with: pip install opnsense[vault]"))
  | some read =>
    if p.vaultAddr = "" then
      .error (.runtimeError
        "VAULT_ADDR not set. Provide vault_addr parameter or set VAULT_ADDR env var.")
    else if p.vaultToken = "" then
      .error (.runtimeError
        "VAULT_TOKEN not set. Provide vault_token parameter or set VAULT_TOKEN env var.")
    else
      match read p.vaultAddr p.vaultToken p.path p.mountPoint with
      | .error exc => .error (.runtimeError s!"Failed to read Vault path '{vaultPath}': {exc}")
      | .ok data =>
        if data.isEmpty then
          .error (.runtimeError s!"Vault path '{vaultPath}' returned empty data.")
        else
          let host := data.lookup "host"
          let key := data.lookup "key"
          let secret := data.lookup "secret"
          let missing := missingNames [("host", host), ("key", key), ("secret", secret)]
          if missing ≠ [] then
            let names := ", ".intercalate missing
            .error (.runtimeError s!"Vault path '{vaultPath}' missing fields: {names}")
          else do
            let port ← readPort py ((data.lookup "port").getD "443")
            return { host := host.getD "", key := key.getD "", secret := secret.getD "",
                     port, verifySsl := readFlag ((data.lookup "verify_ssl").getD "false") }

end VaultCredentialProvider

/-- What is put into a source. -/
structure CredentialValues where
  host : String
  key : String
  secret : String
  port : String
  verifySsl : String
  host_ne : host ≠ ""
  key_ne : key ≠ ""
  secret_ne : secret ≠ ""

structure InEnviron (v : CredentialValues) (environ : List (String × String)) : Prop where
  host : environ.lookup "OPN_HOST" = some v.host
  key : environ.lookup "OPN_KEY" = some v.key
  secret : environ.lookup "OPN_SECRET" = some v.secret
  port : environ.lookup "OPN_PORT" = some v.port
  verifySsl : environ.lookup "OPN_VERIFY_SSL" = some v.verifySsl

structure InEntry (v : CredentialValues) (entry : List (String × String)) : Prop where
  host : entry.lookup "host" = some v.host
  key : entry.lookup "key" = some v.key
  secret : entry.lookup "secret" = some v.secret
  port : entry.lookup "port" = some v.port
  verifySsl : entry.lookup "verify_ssl" = some v.verifySsl

/-- Vault is configured, and the path of the provider leads to an entry with the values. -/
structure InVault (v : CredentialValues) (p : VaultCredentialProvider) (read : Hvac) : Prop where
  addr : p.vaultAddr ≠ ""
  token : p.vaultToken ≠ ""
  entry : ∃ entry, read p.vaultAddr p.vaultToken p.path p.mountPoint = .ok entry ∧
    InEntry v entry

/-- A text that starts with a scheme. -/
def HasScheme (cs : List Char) : Prop := "https://".toList <+: cs ∨ "http://".toList <+: cs

/-- The two outcomes mean the same: both sources fail, or both give the same credentials, whose host
has no scheme, nor has the base URL a second one. -/
def MeanTheSame (env vault : Except CredentialError OpnsenseCredentials) : Prop :=
  (∃ e e', env = .error e ∧ vault = .error e') ∨
  ∃ c, env = .ok c ∧ vault = .ok c ∧ ¬ HasScheme c.host.toList ∧
    ¬ HasScheme ((baseUrl c.host c.port).toList.drop 8)

section

variable {py : Interpreter} {v : CredentialValues}

theorem missingNames_eq_nil {a b c : String} {x y z : String} (hx : x ≠ "") (hy : y ≠ "")
    (hz : z ≠ "") : missingNames [(a, some x), (b, some y), (c, some z)] = [] := by
  simp [missingNames, hx, hy, hz]

theorem lookup_loadDotenv {p : EnvCredentialProvider}
    {dotenv : String → Option (List (String × String))} {environ : List (String × String)}
    {name value : String} (h : environ.lookup name = some value) :
    (p.loadDotenv dotenv environ).lookup name = some value := by
  rw [EnvCredentialProvider.loadDotenv]
  split
  · exact h
  · split
    · exact h
    · rw [List.lookup_append, h]
      rfl

/-- The credentials that a source reads off its texts, given the host it makes of the first. -/
def credentialsOf (py : Interpreter) (v : CredentialValues) (host : String) :
    Except CredentialError OpnsenseCredentials := do
  let port ← readPort py v.port
  return { host, key := v.key, secret := v.secret, port, verifySsl := readFlag v.verifySsl }

theorem env_get {p : EnvCredentialProvider} {dotenv : String → Option (List (String × String))}
    {environ : List (String × String)} (h : InEnviron v environ) :
    p.get py dotenv environ = credentialsOf py v (EnvCredentialProvider.stripScheme v.host) := by
  have hmissing := @missingNames_eq_nil "OPN_HOST" "OPN_KEY" "OPN_SECRET" _ _ _ v.host_ne v.key_ne
    v.secret_ne
  simp only [EnvCredentialProvider.get, lookup_loadDotenv h.host, lookup_loadDotenv h.key,
    lookup_loadDotenv h.secret, lookup_loadDotenv h.port, lookup_loadDotenv h.verifySsl, hmissing,
    ne_eq, not_true_eq_false, if_false, Option.getD_some]
  rfl

theorem vault_get {p : VaultCredentialProvider} {read : Hvac} (h : InVault v p read) :
    p.get py (some read) = credentialsOf py v v.host := by
  obtain ⟨entry, hread, hentry⟩ := h.entry
  have hfull : entry.isEmpty = false := by
    cases entry with
    | nil => cases hentry.host
    | cons kv rest => rfl
  have hmissing := @missingNames_eq_nil "host" "key" "secret" _ _ _ v.host_ne v.key_ne v.secret_ne
  simp only [VaultCredentialProvider.get, if_neg h.addr, if_neg h.token, hread, hfull, hentry.host,
    hentry.key, hentry.secret, hentry.port, hentry.verifySsl, hmissing, ne_eq, not_true_eq_false,
    Bool.false_eq_true, if_false, Option.getD_some]
  rfl

/-- Stripping leaves a host alone exactly when there is nothing to strip. -/
theorem stripScheme_eq_self_iff {host : String} :
    EnvCredentialProvider.stripScheme host = host ↔ ¬ HasScheme host.toList := by
  -- a text that loses its first characters is another one
  have hshorter : ∀ n, 0 < n → ∀ w : List Char, w.length = n → w <+: host.toList →
      String.ofList (host.toList.drop n) ≠ host := by
    intro n hn w hw hpre heq
    have hlen := congrArg (List.length ∘ String.toList) heq
    have hle := hpre.length_le
    simp only [Function.comp, String.toList_ofList, List.length_drop] at hlen
    omega
  rw [EnvCredentialProvider.stripScheme, HasScheme]
  simp only [List.isPrefixOf_iff_prefix]
  split
  · rename_i hhttps
    refine iff_of_false (hshorter 8 (by omega) _ rfl hhttps) ?_
    exact fun h => h (Or.inl hhttps)
  · rename_i hhttps
    split
    · rename_i hhttp
      refine iff_of_false (hshorter 7 (by omega) _ rfl hhttp) ?_
      exact fun h => h (Or.inr hhttp)
    · rename_i hhttp
      exact iff_of_true rfl fun h => h.elim hhttps hhttp

/-- The text of a port starts with a digit or a sign. -/
theorem port_text (port : ℤ) : ∃ c cs, (toString port).toList = c :: cs ∧ c ≠ '/' := by
  cases port with
  | ofNat n =>
    have hdigits : (toString (Int.ofNat n)).toList = Nat.toDigits 10 n := by
      simp [Int.toString_eq_repr, Int.repr, Nat.repr]
    obtain ⟨c, cs, hcons⟩ := List.exists_cons_of_ne_nil (@Nat.toDigits_ne_nil n 10)
    have hmem : c ∈ Nat.toDigits 10 n := by
      rw [hcons]
      exact List.mem_cons_self
    have hdigit : c.isDigit = true :=
      Nat.isDigit_of_mem_toDigits (Nat.succ_pos 9) (Nat.le_refl 10) hmem
    refine ⟨c, cs, hdigits.trans hcons, ?_⟩
    rintro rfl
    cases hdigit
  | negSucc n =>
    refine ⟨'-', (toString (n + 1)).toList, ?_, by decide⟩
    simp [Int.toString_eq_repr, Int.repr]

/-- A scheme in front of the host and the port is in front of the host: its own colon is not the
one before the port, which no slash follows. -/
theorem scheme_of_authority {scheme host rest : List Char} {c : Char} (hscheme : ':' ∉ scheme)
    (hc : c ≠ '/') (h : scheme ++ "://".toList <+: host ++ ':' :: c :: rest) :
    scheme ++ "://".toList <+: host := by
  induction scheme generalizing host with
  | nil =>
    have hslashes : "://".toList = [':', '/', '/'] := rfl
    rw [List.nil_append, hslashes] at h ⊢
    rcases host with _ | ⟨a, _ | ⟨b, _ | ⟨d, host⟩⟩⟩
    · rw [List.nil_append, List.cons_prefix_cons, List.cons_prefix_cons] at h
      exact absurd h.2.1.symm hc
    · simp at h
    · simp at h
    · simp only [List.cons_append, List.cons_prefix_cons, List.nil_prefix, and_true] at h ⊢
      exact h
  | cons x scheme ih =>
    rw [List.mem_cons, not_or] at hscheme
    cases host with
    | nil =>
      rw [List.nil_append, List.cons_append, List.cons_prefix_cons] at h
      exact absurd h.1.symm hscheme.1
    | cons a host =>
      rw [List.cons_append, List.cons_append, List.cons_prefix_cons] at h
      rw [List.cons_append, List.cons_prefix_cons]
      exact ⟨h.1, ih hscheme.2 h.2⟩

/-- A host without a scheme makes a base URL without a second one. -/
theorem baseUrl_scheme {host : String} (port : ℤ) (h : ¬ HasScheme host.toList) :
    ¬ HasScheme ((baseUrl host port).toList.drop 8) := by
  obtain ⟨c, cs, hport, hc⟩ := port_text port
  have hurl : (baseUrl host port).toList =
      "https://".toList ++ (host.toList ++ ':' :: ((toString port).toList ++ "/api".toList)) := by
    simp only [baseUrl, toString, String.toList_append, List.append_assoc]
    rfl
  have hrest : (baseUrl host port).toList.drop 8 =
      host.toList ++ ':' :: c :: (cs ++ "/api".toList) := by
    rw [hurl, hport]
    exact List.drop_left' rfl
  rw [hrest]
  rintro (hhttps | hhttp)
  · exact h (Or.inl (@scheme_of_authority "https".toList _ _ _ (by decide) hc hhttps))
  · exact h (Or.inr (@scheme_of_authority "http".toList _ _ _ (by decide) hc hhttp))

/-- For the same values in the environment and in Vault, the two mean the same exactly when the host
has no scheme in front, or the port cannot be read. -/
theorem meanTheSame_iff (py : Interpreter) (v : CredentialValues) (env : EnvCredentialProvider)
    (dotenv : String → Option (List (String × String))) (environ : List (String × String))
    (vault : VaultCredentialProvider) (read : Hvac) (henviron : InEnviron v environ)
    (hvault : InVault v vault read) :
    MeanTheSame (env.get py dotenv environ) (vault.get py (some read)) ↔
      pyInt py v.port = none ∨ ¬ HasScheme v.host.toList := by
  rw [env_get henviron, vault_get hvault, MeanTheSame, credentialsOf, credentialsOf, readPort]
  cases hport : pyInt py v.port with
  | none => exact iff_of_true (Or.inl ⟨_, _, rfl, rfl⟩) (Or.inl rfl)
  | some port =>
    constructor
    · rintro (⟨e, e', he, -⟩ | ⟨c, henv, hkept, hhost, -⟩)
      · cases he
      · cases hkept
        exact Or.inr hhost
    · rintro (h | h)
      · cases h
      · have hstrip := stripScheme_eq_self_iff.mpr h
        rw [hstrip]
        exact Or.inr ⟨_, rfl, rfl, h, baseUrl_scheme port h⟩

end

/-- Values as a user may well give them, the host with or without its scheme. -/
def sampleValues (host : String) (h : host ≠ "") : CredentialValues :=
  { host, key := "k", secret := "s", port := "8443", verifySsl := "True",
    host_ne := h, key_ne := by decide, secret_ne := by decide }

def sampleEnviron (host : String) : List (String × String) :=
  [("OPN_HOST", host), ("OPN_KEY", "k"), ("OPN_SECRET", "s"), ("OPN_PORT", "8443"),
    ("OPN_VERIFY_SSL", "True")]

/-- A Vault with the one entry. -/
def sampleRead (host : String) : Hvac := fun _ _ _ _ =>
  .ok [("host", host), ("key", "k"), ("secret", "s"), ("port", "8443"), ("verify_ssl", "True")]

def sampleVault : VaultCredentialProvider :=
  { vaultAddr := "https://vault:8200", vaultToken := "t" }

theorem plain_host_meansTheSame :
    MeanTheSame (({} : EnvCredentialProvider).get interpreter (fun _ => none) (sampleEnviron "fw"))
      (sampleVault.get interpreter (some (sampleRead "fw"))) := by
  have hne : "fw" ≠ "" := by decide
  have henviron : InEnviron (sampleValues "fw" hne) (sampleEnviron "fw") :=
    ⟨rfl, rfl, rfl, rfl, rfl⟩
  have hvault : InVault (sampleValues "fw" hne) sampleVault (sampleRead "fw") :=
    ⟨by decide, by decide, _, rfl, rfl, rfl, rfl, rfl, rfl⟩
  refine (meanTheSame_iff interpreter _ {} (fun _ => none) _ _ _ henviron hvault).mpr (Or.inr ?_)
  have hplain : ¬ HasScheme "fw".toList := by
    unfold HasScheme
    decide
  exact hplain

/-- Vault leaves the scheme in the host, where the environment strips it. -/
theorem scheme_kept_by_vault :
    InEnviron (sampleValues "https://fw" (by decide)) (sampleEnviron "https://fw") ∧
    InVault (sampleValues "https://fw" (by decide)) sampleVault (sampleRead "https://fw") ∧
    ¬ MeanTheSame
      (({} : EnvCredentialProvider).get interpreter (fun _ => none) (sampleEnviron "https://fw"))
      (sampleVault.get interpreter (some (sampleRead "https://fw"))) := by
  refine ⟨⟨rfl, rfl, rfl, rfl, rfl⟩, ⟨by decide, by decide, _, rfl, rfl, rfl, rfl, rfl, rfl⟩, ?_⟩
  rintro (⟨e, e', he, -⟩ | ⟨c, -, hkept, hhost, -⟩)
  · cases he
  · cases hkept
    exact hhost (Or.inl (by decide))

end Opnsense
