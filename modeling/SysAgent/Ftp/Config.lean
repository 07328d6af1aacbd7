import Mathlib
import SysAgent.Sequence.Token

set_option autoImplicit false

/-! # The FTP configuration file (`ftp_config.c`)

`ftpConfigParseText` fills a configuration line by line and stops at the first line it does not
accept, with what the lines before have set. Whether the file can be opened and read, and whether
`malloc` succeeds, is the environment's choice. -/

namespace SysAgent

def FTP_CONFIG_FILE_LIMIT : Nat := 4096
def FTP_CREDENTIAL_SIZE : Nat := 128
def FTP_DEFAULT_PORT : UInt16 := 6001
def FTP_DEFAULT_TIMEOUT : UInt32 := 30

/-- `FtpConfig`; the credentials are the bytes before their NUL. -/
structure FtpConfig where
  enabled : Bool
  port : UInt16
  anonymous : Bool
  username : List UInt8
  password : List UInt8
  timeout : UInt32
  useLocaltime : Bool
  deriving DecidableEq

inductive FtpConfigResult
  | ok
  | invalidValue
  | credentialsRequired
  | ioError
  deriving DecidableEq

def ftpConfigDefaults : FtpConfig :=
  { enabled := true, port := FTP_DEFAULT_PORT, anonymous := true, username := [], password := [],
    timeout := FTP_DEFAULT_TIMEOUT, useLocaltime := true }

/-! ## Text -/

/-- The bytes of an ASCII text. -/
def ascii (s : String) : List UInt8 :=
  s.toList.map fun c => UInt8.ofNat c.toNat

/-- `isspace` in the C locale. -/
def isspace (b : UInt8) : Bool :=
  b == 0x20 || (0x09 ≤ b && b ≤ 0x0D)

def trim (value : List UInt8) : List UInt8 :=
  ((value.dropWhile isspace).reverse.dropWhile isspace).reverse

/-- `strtok_r` with `"\r\n"`. The empty lines it skips are skipped by the loop as well. -/
def textLines (text : List UInt8) : List (List UInt8) :=
  text.splitOnP fun b => b == 0x0D || b == 0x0A

def parseBool (value : List UInt8) : Option Bool :=
  if value = ascii "1" ∨ value = ascii "true" then some true
  else if value = ascii "0" ∨ value = ascii "false" then some false
  else none

/-- What `copyCredential` copies; the quotes around a value are left out. -/
def copyCredential (value : List UInt8) : Option (List UInt8) :=
  if FTP_CREDENTIAL_SIZE ≤ value.length then none
  else if 2 ≤ value.length ∧ value.head? = some 0x22 ∧ value.getLast? = some 0x22 then
    some ((value.drop 1).dropLast)
  else some value

def isdigit (b : UInt8) : Bool :=
  0x30 ≤ b && b ≤ 0x39

def ULONG_MAX : Nat := 2 ^ 64 - 1

/-- `strtoul(value, &end, 10)`: the number, what follows it, and whether `errno` is set. -/
def strtoul (value : List UInt8) : Nat × List UInt8 × Bool :=
  let start := value.dropWhile isspace
  let (negative, digits) :=
    match start with
    | 0x2D :: rest => (true, rest)
    | 0x2B :: rest => (false, rest)
    | rest => (false, rest)
  let number := (digits.takeWhile isdigit).foldl (fun n d => 10 * n + (d.toNat - 0x30)) 0
  if (digits.takeWhile isdigit).isEmpty then (0, value, false)
  else if ULONG_MAX < number then (ULONG_MAX, digits.dropWhile isdigit, true)
  else if negative then ((2 ^ 64 - number) % 2 ^ 64, digits.dropWhile isdigit, false)
  else (number, digits.dropWhile isdigit, false)

/-- The number of a `port` or `timeout` line, when the whole value is one. -/
def parseNumber (value : List UInt8) : Option Nat :=
  let (number, rest, overflow) := strtoul value
  if overflow || value.isEmpty || !(trim rest).isEmpty then none else some number

/-! ## Lines -/

/-- What the loop over the lines carries along. -/
structure ParseState where
  inFtpSection : Bool
  config : FtpConfig
  deriving DecidableEq

/-- The assignment of a value to a key; `none` for a value that is not accepted. -/
def setKey (config : FtpConfig) (key value : List UInt8) : Option FtpConfig :=
  if key = ascii "enabled" then (parseBool value).map fun b => { config with enabled := b }
  else if key = ascii "anonymous" then (parseBool value).map fun b => { config with anonymous := b }
  else if key = ascii "port" then
    (parseNumber value).bind fun port =>
      if port = 0 ∨ 0xFFFF < port then none else some { config with port := UInt16.ofNat port }
  else if key = ascii "timeout" then
    (parseNumber value).bind fun timeout =>
      if 0xFFFFFFFF < timeout then none else some { config with timeout := UInt32.ofNat timeout }
  else if key = ascii "use_localtime" then
    (parseBool value).map fun b => { config with useLocaltime := b }
  else if key = ascii "username" then
    (copyCredential value).map fun username => { config with username := username }
  else if key = ascii "password" then
    (copyCredential value).map fun password => { config with password := password }
  else some config

/-- One turn of the loop; `none` when it breaks off with `FtpConfigInvalidValue`. -/
def parseLine (state : ParseState) (line : List UInt8) : Option ParseState :=
  let line := trim line
  match line with
  | [] => some state
  | first :: rest =>
    if first = 0x23 ∨ first = 0x3B then some state
    else if first = 0x5B then
      if 0x5D ∈ rest then
        some { state with inFtpSection := trim (rest.takeWhile (· != 0x5D)) = ascii "ftp" }
      else none
    else if !state.inFtpSection then some state
    else if 0x3D ∈ line then
      let key := trim (line.takeWhile (· != 0x3D))
      let value := trim ((line.dropWhile (· != 0x3D)).drop 1)
      (setKey state.config key value).map fun config => { state with config := config }
    else none

/-- The loop: the result and the configuration as far as it was filled. -/
def parseLines (state : ParseState) : List (List UInt8) → FtpConfigResult × FtpConfig
  | [] => (.ok, state.config)
  | line :: lines =>
    match parseLine state line with
    | some state => parseLines state lines
    | none => (.invalidValue, state.config)

/-- `ftpConfigParseText` for a text that is there. -/
def ftpConfigParseText (malloc : Bool) (text : CString) : FtpConfigResult × FtpConfig :=
  if !malloc then (.ioError, ftpConfigDefaults)
  else
    let (result, config) := parseLines { inFtpSection := false, config := ftpConfigDefaults }
      (textLines text.bytes)
    if result = .ok ∧ config.anonymous = false ∧ (config.username = [] ∨ config.password = []) then
      (.credentialsRequired, config)
    else (result, config)

/-! ## The file -/

/-- What a load finds at `FTP_CONFIG_PATH`. -/
inductive ConfigFile
  /-- `fopen` fails with `ENOENT`. -/
  | missing
  /-- `fopen` fails otherwise. -/
  | unopened
  /-- `fread` fails. -/
  | unreadable
  | readable (content : List UInt8) (malloc : Bool)

/-- `ftpConfigLoad` into a configuration that holds the defaults. -/
def ftpConfigLoad : ConfigFile → FtpConfigResult × FtpConfig
  | .missing => (.ok, ftpConfigDefaults)
  | .unopened => (.ioError, ftpConfigDefaults)
  | .unreadable => (.ioError, ftpConfigDefaults)
  | .readable content malloc =>
    if FTP_CONFIG_FILE_LIMIT < content.length then (.ioError, ftpConfigDefaults)
    else ftpConfigParseText malloc (CString.at content)

/-! ## What an accepted file guarantees -/

/-- The configuration asks for a password, or for none at all. -/
def FtpConfig.Credentialed (config : FtpConfig) : Prop :=
  config.anonymous = true ∨ (config.username ≠ [] ∧ config.password ≠ [])

theorem credentialed_of_parseText {malloc : Bool} {text : CString} {config : FtpConfig}
    (h : ftpConfigParseText malloc text = (.ok, config)) : config.Credentialed := by
  simp only [ftpConfigParseText] at h
  split at h
  · cases h
  · split at h
    · cases h
    · rename_i hcredentials
      obtain ⟨hresult, rfl⟩ := Prod.mk.inj h
      unfold FtpConfig.Credentialed
      by_contra hopen
      rw [not_or, Bool.not_eq_true, not_and_or, not_not, not_not] at hopen
      exact hcredentials ⟨hresult, hopen⟩

theorem credentialed_of_load {file : ConfigFile} {config : FtpConfig}
    (h : ftpConfigLoad file = (.ok, config)) : config.Credentialed := by
  cases file with
  | missing =>
    obtain rfl := (Prod.mk.inj h).2
    exact Or.inl rfl
  | unopened => cases h
  | unreadable => cases h
  | readable content malloc =>
    simp only [ftpConfigLoad] at h
    split at h
    · cases h
    · exact credentialed_of_parseText h

end SysAgent
