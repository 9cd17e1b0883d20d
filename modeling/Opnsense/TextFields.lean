import Opnsense.IntText

namespace Opnsense
open Text

def isHexDigit (c : Char) : Bool :=
  isAsciiDigit c || (0x61 ≤ c.toNat && c.toNat ≤ 0x66) || (0x41 ≤ c.toNat && c.toNat ≤ 0x46)

def isAsciiLetter (c : Char) : Bool :=
  (0x61 ≤ c.toNat && c.toNat ≤ 0x7a) || (0x41 ≤ c.toNat && c.toNat ≤ 0x5a)

def isColon (c : Char) : Bool := c.toNat == 0x3a

/-- `_MAC_RE` -/
def macRe : Pattern where
  source := "^([0-9a-fA-F]\x7b2\x7d:)\x7b5\x7d[0-9a-fA-F]\x7b2\x7d$"
  body := .cat (Regex.times (.cat (.rep isHexDigit 2 (some 2)) (.cls isColon)) 5)
    (.rep isHexDigit 2 (some 2))

/-- `_COLOR_RE` -/
def colorRe : Pattern where
  source := "^[0-9a-fA-F]\x7b6\x7d$"
  body := .rep isHexDigit 6 (some 6)

def isHostnameEnd (c : Char) : Bool := isAsciiLetter c || isAsciiDigit c

def isHostnameInner (c : Char) : Bool := isHostnameEnd c || c == '-'

/-- `_HOSTNAME_RE` -/
def hostnameRe : Pattern where
  source := "^[a-zA-Z0-9]([a-zA-Z0-9\\-]\x7b0,61\x7d[a-zA-Z0-9])?$"
  body := .cat (.cls isHostnameEnd)
    (.opt (.group (.cat (.rep isHostnameInner 0 (some 61)) (.cls isHostnameEnd))))

def isAliasStart (c : Char) : Bool := isAsciiLetter c || c == '_'

def isAliasRest (c : Char) : Bool := isAliasStart c || isAsciiDigit c

/-- `_ALIAS_RE` -/
def aliasRe : Pattern where
  source := "^[a-zA-Z_][a-zA-Z0-9_]*$"
  body := .cat (.cls isAliasStart) (.rep isAliasRest 0 none)

section Ports

variable (py : Interpreter)

/-- `\d` -/
def isDecimal (c : Char) : Bool := (py.decimal c).isSome

/-- `_PORT_SINGLE_RE` -/
def portSingleRe : Pattern where
  source := "^\\d\x7b1,5\x7d$"
  body := .rep (isDecimal py) 1 (some 5)

/-- `_PORT_RANGE_RE` -/
def portRangeRe : Pattern where
  source := "^(\\d\x7b1,5\x7d):(\\d\x7b1,5\x7d)$"
  body := .cat (.group (.rep (isDecimal py) 1 (some 5)))
    (.cat (.cls isColon) (.group (.rep (isDecimal py) 1 (some 5))))

end Ports

/-- A validator that is one search for a pattern. -/
def validatePattern (pattern : Pattern) (rule : String) : FieldValidator := fun field value _ =>
  if (pattern.body.search value.toList).isSome then .ok ()
  else .error (.fieldValidation field (.str value) rule)

def validateMac : FieldValidator :=
  validatePattern macRe "must be a MAC address (xx:xx:xx:xx:xx:xx)"

def validateColor : FieldValidator :=
  validatePattern colorRe "must be 6 hex digits (no # prefix)"

def validateHostname : FieldValidator :=
  validatePattern hostnameRe "must be a valid hostname (alphanumeric + hyphens)"

section Ports

variable (py : Interpreter)

/-- `_check_port_in_range` -/
def checkPortInRange (field value : String) (port : List Char) : Except Exc Unit :=
  match pyInt py (String.ofList port) with
  | none =>
    let literal := reprStr (String.ofList port)
    .error (.valueError s!"invalid literal for int() with base 10: {literal}")
  | some n =>
    if 1 ≤ n ∧ n ≤ 65535 then .ok ()
    else .error (.fieldValidation field (.str value) s!"port {n} out of range 1-65535")

/-- A range or a single port, and another validator for what is neither. -/
def validatePortOr (otherwise : FieldValidator) : FieldValidator := fun field value r =>
  match (portRangeRe py).body.search value.toList with
  | some groups => do
    checkPortInRange py field value (groups.getD 0 [])
    checkPortInRange py field value (groups.getD 1 [])
  | none =>
    if ((portSingleRe py).body.search value.toList).isSome then
      checkPortInRange py field value value.toList
    else otherwise field value r

def validatePort : FieldValidator := validatePortOr py fun field value _ =>
  .error (.fieldValidation field (.str value)
    "must be numeric port (1-65535) or range (80:443)")

def validatePortOrAlias : FieldValidator := validatePortOr py
  (validatePattern aliasRe "must be port (1-65535), range (80:443), or alias name")

end Ports

example : ["443", "80:443", "0", "443\n", "٤٤٣", "80:99999"].map (fun value =>
    (validatePort interpreter "port" value { type := "port" }).isOk) =
    [true, true, false, true, true, false] := by decide

end Opnsense
