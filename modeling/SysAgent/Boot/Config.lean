import Mathlib
import SysAgent.Ftp.Config

set_option autoImplicit false

/-! # The boot-unlock schedule (`boot_unlock_config.c`)

`bootUnlockConfigParseText` fills a schedule line by line and stops at the first line it does not
accept. The text functions are those of the FTP configuration: the two files define `trim` alike. -/

namespace SysAgent

def BOOT_UNLOCK_MAX_FIRST_DELAY_MS : Nat := 600000
def BOOT_UNLOCK_MAX_WAKE_ATTEMPTS : Nat := 10
def BOOT_UNLOCK_MAX_WAKE_DELAY_MS : Nat := 60000
def BOOT_UNLOCK_MAX_VERIFY_DELAY_MS : Nat := 60000
def BOOT_UNLOCK_MAX_PRESS_GAP_MS : Nat := 1000
def BOOT_UNLOCK_MAX_BURST_PRESSES : Nat := 10
def BOOT_UNLOCK_MAX_ROUNDS : Nat := 32
def BOOT_UNLOCK_MAX_DEADLINE_MS : Nat := 600000

inductive BootUnlockMode
  | off
  | armed
  | everyBoot
  deriving DecidableEq

/-- The numbers are `uint32_t`; every one that is parsed is far below its end. -/
structure BootUnlockConfig where
  mode : BootUnlockMode
  firstDelayMs : Nat
  wakeAttempts : Nat
  wakeDelayMs : Nat
  verifyDelayMs : Nat
  pressGapMs : Nat
  burstPresses : Nat
  maxRounds : Nat
  deadlineMs : Nat
  deriving DecidableEq

def bootUnlockConfigDefaults : BootUnlockConfig where
  mode := .armed
  firstDelayMs := 2000
  wakeAttempts := 4
  wakeDelayMs := 600
  verifyDelayMs := 1500
  pressGapMs := 250
  burstPresses := 3
  maxRounds := 8
  deadlineMs := 90000

def bootUnlockModeFromName (name : List UInt8) : Option BootUnlockMode :=
  if name = ascii "off" then some .off
  else if name = ascii "armed" then some .armed
  else if name = ascii "everyBoot" ∨ name = ascii "every-boot" ∨ name = ascii "always" then
    some .everyBoot
  else none

/-- `parseUnsigned`: the whole value is a number of at most `max`. -/
def parseUnsigned (value : List UInt8) (max : Nat) : Option Nat :=
  let (parsed, rest, _) := strtoul value
  if value.isEmpty || rest == value || !rest.isEmpty then none
  else if max < parsed then none
  else some parsed

/-- The value up to a comment sign that starts it or follows a blank. -/
def stripComment (afterBlank : Bool) : List UInt8 → List UInt8
  | [] => []
  | c :: rest =>
    if (c = 0x23 ∨ c = 0x3B) ∧ afterBlank then [] else c :: stripComment (isspace c) rest

/-- The assignment of a value to a key; `none` for a value that is not accepted. -/
def setUnlockKey (config : BootUnlockConfig) (key value : List UInt8) : Option BootUnlockConfig :=
  if key = ascii "mode" then
    (bootUnlockModeFromName value).map fun mode => { config with mode := mode }
  else if key = ascii "firstDelayMs" then
    (parseUnsigned value BOOT_UNLOCK_MAX_FIRST_DELAY_MS).map fun n =>
      { config with firstDelayMs := n }
  else if key = ascii "wakeDelayMs" then
    (parseUnsigned value BOOT_UNLOCK_MAX_WAKE_DELAY_MS).map fun n =>
      { config with wakeDelayMs := n }
  else if key = ascii "wakeAttempts" then
    (parseUnsigned value BOOT_UNLOCK_MAX_WAKE_ATTEMPTS).map fun n =>
      { config with wakeAttempts := n }
  else if key = ascii "verifyDelayMs" then
    (parseUnsigned value BOOT_UNLOCK_MAX_VERIFY_DELAY_MS).map fun n =>
      { config with verifyDelayMs := n }
  else if key = ascii "pressGapMs" then
    (parseUnsigned value BOOT_UNLOCK_MAX_PRESS_GAP_MS).map fun n => { config with pressGapMs := n }
  else if key = ascii "burstPresses" then
    (parseUnsigned value BOOT_UNLOCK_MAX_BURST_PRESSES).map fun n =>
      { config with burstPresses := n }
  else if key = ascii "maxRounds" then
    (parseUnsigned value BOOT_UNLOCK_MAX_ROUNDS).map fun n => { config with maxRounds := n }
  else if key = ascii "deadlineMs" then
    (parseUnsigned value BOOT_UNLOCK_MAX_DEADLINE_MS).map fun n => { config with deadlineMs := n }
  else some config

structure UnlockParseState where
  inSection : Bool
  config : BootUnlockConfig

/-- One turn of the loop; `none` when it breaks off with `BootUnlockConfigInvalidValue`. -/
def parseUnlockLine (state : UnlockParseState) (line : List UInt8) : Option UnlockParseState :=
  let line := trim line
  match line with
  | [] => some state
  | first :: rest =>
    if first = 0x23 ∨ first = 0x3B then some state
    else if first = 0x5B then
      if 0x5D ∈ rest then
        let name := trim (rest.takeWhile (· != 0x5D))
        some { state with inSection := name = ascii "boot-unlock" ∨ name = ascii "bootunlock" }
      else none
    else if !state.inSection then some state
    else if 0x3D ∈ line then
      let key := trim (line.takeWhile (· != 0x3D))
      let value := trim ((line.dropWhile (· != 0x3D)).drop 1)
      (setUnlockKey state.config key (trim (stripComment true value))).map fun config =>
        { state with config := config }
    else none

/-- `bootUnlockConfigParseText`; `none` is `BootUnlockConfigInvalidValue`, whose callers do not look
    at what was filled. `malloc` is the answer to the copy of the text. -/
def bootUnlockConfigParseText (malloc : Bool) (text : CString) : Option BootUnlockConfig :=
  if !malloc then none
  else
    ((textLines text.bytes).foldlM parseUnlockLine
        { inSection := false, config := bootUnlockConfigDefaults }).bind fun state =>
      if state.config.maxRounds = 0 ∨ state.config.burstPresses = 0 ∨ state.config.pressGapMs = 0
          ∨ state.config.deadlineMs = 0 ∨ 1000 ≤ state.config.pressGapMs then none
      else some state.config

/-! ## What an accepted text guarantees -/

/-- The bounds of the numbers that a line can set. -/
structure BootUnlockConfig.Bounded (config : BootUnlockConfig) : Prop where
  wakeAttempts : config.wakeAttempts ≤ BOOT_UNLOCK_MAX_WAKE_ATTEMPTS
  burstPresses : config.burstPresses ≤ BOOT_UNLOCK_MAX_BURST_PRESSES
  maxRounds : config.maxRounds ≤ BOOT_UNLOCK_MAX_ROUNDS
  deadlineMs : config.deadlineMs ≤ BOOT_UNLOCK_MAX_DEADLINE_MS

/-- What the last check adds. -/
structure BootUnlockConfig.Accepted (config : BootUnlockConfig) : Prop extends config.Bounded where
  maxRounds_pos : 0 < config.maxRounds
  burstPresses_pos : 0 < config.burstPresses
  pressGapMs_pos : 0 < config.pressGapMs
  pressGapMs_lt : config.pressGapMs < 1000
  deadlineMs_pos : 0 < config.deadlineMs

theorem bounded_defaults : bootUnlockConfigDefaults.Bounded :=
  ⟨by decide, by decide, by decide, by decide⟩

theorem parseUnsigned_le {value : List UInt8} {max n : Nat} (h : parseUnsigned value max = some n) :
    n ≤ max := by
  unfold parseUnsigned at h
  simp only at h
  split at h
  · cases h
  · split at h
    · cases h
    · obtain rfl := Option.some.inj h
      omega

theorem bounded_setUnlockKey {config config' : BootUnlockConfig} {key value : List UInt8}
    (hbounded : config.Bounded) (h : setUnlockKey config key value = some config') :
    config'.Bounded := by
  obtain ⟨hwake, hburst, hrounds, hdeadline⟩ := hbounded
  unfold setUnlockKey at h
  split_ifs at h
  case pos =>
    obtain ⟨mode, _, rfl⟩ := Option.map_eq_some_iff.1 h
    exact ⟨hwake, hburst, hrounds, hdeadline⟩
  all_goals first
    | (obtain ⟨n, hn, rfl⟩ := Option.map_eq_some_iff.1 h
       have hle := parseUnsigned_le hn
       exact ⟨by assumption, by assumption, by assumption, by assumption⟩)
    | (obtain rfl := Option.some.inj h
       exact ⟨hwake, hburst, hrounds, hdeadline⟩)

theorem bounded_parseUnlockLine {state state' : UnlockParseState} {line : List UInt8}
    (hbounded : state.config.Bounded) (h : parseUnlockLine state line = some state') :
    state'.config.Bounded := by
  unfold parseUnlockLine at h
  simp only at h
  split at h
  · obtain rfl := Option.some.inj h
    exact hbounded
  · split_ifs at h
    all_goals first
      | (obtain rfl := Option.some.inj h
         exact hbounded)
      | (obtain ⟨config, hconfig, rfl⟩ := Option.map_eq_some_iff.1 h
         exact bounded_setUnlockKey hbounded hconfig)

theorem bounded_lines {lines : List (List UInt8)} {state state' : UnlockParseState}
    (hbounded : state.config.Bounded) (h : lines.foldlM parseUnlockLine state = some state') :
    state'.config.Bounded := by
  induction lines generalizing state with
  | nil =>
    obtain rfl := Option.some.inj h
    exact hbounded
  | cons line lines ih =>
    rw [List.foldlM_cons] at h
    obtain ⟨next, hnext, h⟩ := Option.bind_eq_some_iff.1 h
    exact ih (bounded_parseUnlockLine hbounded hnext) h

theorem accepted_of_parseText {malloc : Bool} {text : CString} {config : BootUnlockConfig}
    (h : bootUnlockConfigParseText malloc text = some config) : config.Accepted := by
  unfold bootUnlockConfigParseText at h
  split at h
  · cases h
  · obtain ⟨state, hstate, h⟩ := Option.bind_eq_some_iff.1 h
    have hbounded := bounded_lines bounded_defaults hstate
    split at h
    · cases h
    · rename_i hcounts
      obtain rfl := Option.some.inj h
      simp only [not_or] at hcounts
      exact {
        toBounded := hbounded
        maxRounds_pos := by omega
        burstPresses_pos := by omega
        pressGapMs_pos := by omega
        pressGapMs_lt := by omega
        deadlineMs_pos := by omega }

end SysAgent
