import SysAgent.Boot.Config

set_option autoImplicit false

/-! # The boot-unlock worker (`boot_unlock.c`)

A run of `bootUnlockWorker` is a loop over what it observes: the clock, whether an application runs,
and what a capture shows. `events` is the ghost of a run, its captures and HOME presses in order. The
metrics of a capture and the pauses are left out. -/

namespace SysAgent

def BOOT_UNLOCK_VERDICTS : Nat := 12

inductive ScreenClass
  | unknown
  | dark
  | lockOne
  | lockThree
  | other
  deriving DecidableEq

def screenClassName : ScreenClass → String
  | .dark => "dark"
  | .lockOne => "lock-one"
  | .lockThree => "lock-three"
  | .other => "other"
  | .unknown => "unknown"

/-- What a capture shows; `refused` is a failed or empty capture. -/
inductive ScreenCapture
  | refused
  | undecodable
  | frame (verdict : ScreenClass)

/-- `bootUnlockLook`: the verdict and the detail. -/
def bootUnlockLook : ScreenCapture → ScreenClass × String
  | .refused => (.dark, "capture-failed")
  | .undecodable => (.unknown, "decode-failed")
  | .frame verdict => (verdict, screenClassName verdict)

/-- What one round observes; `landed` are the answers to its presses. -/
structure UnlockRound where
  now : UInt64
  applicationRunning : Bool
  capture : ScreenCapture
  ms : UInt32
  landed : Nat → Bool

def UnlockRound.verdict (round : UnlockRound) : ScreenClass := (bootUnlockLook round.capture).1

structure BootUnlockVerdict where
  ms : UInt32
  verdict : ScreenClass

/-- `press true` is a press to unlock, `press false` one to light the display. -/
inductive UnlockEvent
  | look (round : UnlockRound)
  | press (unlock : Bool)

structure UnlockRun where
  reason : String
  decided : Bool
  pressed : Bool
  lastVerdict : ScreenClass
  verdicts : List BootUnlockVerdict
  wakePresses : Nat
  homePresses : Nat
  homeSent : Nat
  applicationRuns : Nat
  events : List UnlockEvent

namespace UnlockRun

def initial : UnlockRun where
  reason := "init"
  decided := false
  pressed := false
  lastVerdict := .unknown
  verdicts := []
  wakePresses := 0
  homePresses := 0
  homeSent := 0
  applicationRuns := 0
  events := []

/-- `bootUnlockRecord`: the list of verdicts has a fixed size. -/
def bootUnlockRecord (run : UnlockRun) (round : UnlockRound) : UnlockRun :=
  { run with
    lastVerdict := round.verdict
    verdicts :=
      if run.verdicts.length < BOOT_UNLOCK_VERDICTS then
        run.verdicts ++ [{ ms := round.ms, verdict := round.verdict }]
      else run.verdicts
    events := run.events ++ [.look round] }

/-- `bootUnlockPressHome`. -/
def bootUnlockPressHome (run : UnlockRun) (unlock landed : Bool) : UnlockRun :=
  { run with
    homeSent := run.homeSent + if landed then 1 else 0
    events := run.events ++ [.press unlock] }

def stopWith (run : UnlockRun) (reason : String) : UnlockRun :=
  { run with reason := reason, decided := true }

def wakePress (run : UnlockRun) (landed : Bool) : UnlockRun :=
  { run.bootUnlockPressHome false landed with wakePresses := run.wakePresses + 1 }

def unlockPress (run : UnlockRun) (landed : Bool) : UnlockRun :=
  { run.bootUnlockPressHome true landed with
    homePresses := run.homePresses + 1
    pressed := true }

/-- The presses of a burst. -/
def unlockPresses (landed : Nat → Bool) : Nat → UnlockRun → UnlockRun
  | 0, run => run
  | presses + 1, run => (unlockPresses landed presses run).unlockPress (landed presses)

/-- One round of the loop. -/
def round (config : BootUnlockConfig) (deadlineTick : UInt64) (run : UnlockRun)
    (observed : UnlockRound) : UnlockRun :=
  if deadlineTick ≤ observed.now then run.stopWith "deadline"
  else if observed.applicationRunning then
    { run.stopWith "application-running" with applicationRuns := run.applicationRuns + 1 }
  else
    let run := run.bootUnlockRecord observed
    match observed.verdict with
    | .other => run.stopWith (if run.pressed then "unlocked" else "not-locked")
    | .unknown => run.stopWith (bootUnlockLook observed.capture).2
    | .dark =>
      if config.wakeAttempts ≤ run.wakePresses then run.stopWith "display-stays-dark"
      else run.wakePress (observed.landed 0)
    | .lockOne => run.unlockPresses observed.landed 1
    | .lockThree => run.unlockPresses observed.landed config.burstPresses

end UnlockRun

/-- The loop: the rounds that are left, and the index of the next one. -/
def unlockLoop (config : BootUnlockConfig) (deadlineTick : UInt64)
    (observed : Nat → UnlockRound) : Nat → Nat → UnlockRun → UnlockRun
  | 0, _, run => run
  | left + 1, index, run =>
    let run := run.round config deadlineTick (observed index)
    if run.decided then run else unlockLoop config deadlineTick observed left (index + 1) run

/-- The frequency is that of `armGetSystemTickFreq`. -/
def bootUnlockTicksFromMs (systemTickFreq : UInt64) (ms : Nat) : UInt64 :=
  UInt64.ofNat ms * systemTickFreq / 1000

structure UnlockReport where
  reason : String
  rounds : Nat
  run : UnlockRun

/-- `bootUnlockWorker` up to the removal of the arm file; `memory` is whether the two buffers could
    be allocated. -/
def bootUnlockWorker (systemTickFreq : UInt64) (config : BootUnlockConfig) (memory : Bool)
    (startTick : UInt64) (observed : Nat → UnlockRound) : UnlockReport :=
  if !memory then { reason := "no-memory", rounds := 0, run := UnlockRun.initial }
  else
    let run := unlockLoop config
      (startTick + bootUnlockTicksFromMs systemTickFreq config.deadlineMs) observed
      config.maxRounds 0 UnlockRun.initial
    let reason :=
      if run.decided then run.reason
      else if run.lastVerdict = .other then (if run.pressed then "unlocked" else "not-locked")
      else "rounds-exhausted"
    { reason, rounds := run.verdicts.length, run }

/-! ## The law -/

namespace UnlockEvent

def isLook : UnlockEvent → Bool
  | .look _ => true
  | .press _ => false

def isPress (unlock : Bool) : UnlockEvent → Bool
  | .look _ => false
  | .press other => other == unlock

def look? : UnlockEvent → Option UnlockRound
  | .look round => some round
  | .press _ => none

end UnlockEvent

/-- The capture that a press comes after. -/
def lastLook (events : List UnlockEvent) : Option UnlockRound :=
  events.reverse.findSome? UnlockEvent.look?

/-- A press comes after a capture of a round without an application and before the deadline, with a
    verdict that calls for it, and no verdict before it was `other` or `unknown`. -/
structure PressAllowed (deadline : Nat) (before : List UnlockEvent) (unlock : Bool) : Prop where
  look : ∃ round, lastLook before = some round ∧ round.applicationRunning = false ∧
    round.now.toNat < deadline ∧
    if unlock then round.verdict = .lockOne ∨ round.verdict = .lockThree else round.verdict = .dark
  goesOn : ∀ round, .look round ∈ before → round.verdict ≠ .other ∧ round.verdict ≠ .unknown

def PressesAllowed (deadline : Nat) (events : List UnlockEvent) : Prop :=
  ∀ before unlock, before ++ [.press unlock] <+: events → PressAllowed deadline before unlock

/-- What a run does and reports. -/
structure UnlockSafe (systemTickFreq : UInt64) (config : BootUnlockConfig) (startTick : UInt64)
    (report : UnlockReport) : Prop where
  presses : PressesAllowed
    (startTick.toNat + (bootUnlockTicksFromMs systemTickFreq config.deadlineMs).toNat)
    report.run.events
  wakes : report.run.events.countP (UnlockEvent.isPress false) ≤ config.wakeAttempts
  unlocks : report.run.events.countP (UnlockEvent.isPress true) ≤
    config.maxRounds * config.burstPresses
  captures : report.run.events.countP UnlockEvent.isLook ≤ config.maxRounds
  reason : report.reason = "unlocked" ↔
    (lastLook report.run.events).map UnlockRound.verdict = some .other ∧
      0 < report.run.events.countP (UnlockEvent.isPress true)
  rounds : report.rounds = report.run.events.countP UnlockEvent.isLook

/-! ## What the observations lead to -/

section Observed

variable (config : BootUnlockConfig) (deadlineTick : UInt64) (observed : Nat → UnlockRound)

/-- The round makes a capture, if it is reached. -/
def Captures (index : Nat) : Prop :=
  (observed index).now < deadlineTick ∧ (observed index).applicationRunning = false

instance (index : Nat) : Decidable (Captures deadlineTick observed index) :=
  inferInstanceAs (Decidable (_ ∧ _))

/-- The dark captures of the rounds before. -/
def darkBefore (index : Nat) : Nat :=
  (List.range index).countP fun earlier => (observed earlier).verdict = .dark

/-- The round is not the last one. -/
def GoesOn (index : Nat) : Prop :=
  Captures deadlineTick observed index ∧
    ((observed index).verdict = .lockOne ∨ (observed index).verdict = .lockThree ∨
      ((observed index).verdict = .dark ∧ darkBefore observed index < config.wakeAttempts))

instance (index : Nat) : Decidable (GoesOn config deadlineTick observed index) :=
  inferInstanceAs (Decidable (_ ∧ _))

/-- The verdicts of the run do not fit their list: it has a thirteenth capture. -/
def Overflows : Prop :=
  BOOT_UNLOCK_VERDICTS < config.maxRounds ∧
    (∀ index < BOOT_UNLOCK_VERDICTS, GoesOn config deadlineTick observed index) ∧
      Captures deadlineTick observed BOOT_UNLOCK_VERDICTS

end Observed

/-! ## Captures and presses -/

theorem lastLook_look (events : List UnlockEvent) (round : UnlockRound) :
    lastLook (events ++ [.look round]) = some round := by
  rw [lastLook, List.reverse_append, List.reverse_singleton, List.singleton_append,
    List.findSome?_cons]
  rfl

theorem lastLook_press (events : List UnlockEvent) (unlock : Bool) :
    lastLook (events ++ [.press unlock]) = lastLook events := by
  rw [lastLook, List.reverse_append, List.reverse_singleton, List.singleton_append,
    List.findSome?_cons]
  rfl

theorem lastLook_presses (events : List UnlockEvent) (unlock : Bool) (presses : Nat) :
    lastLook (events ++ List.replicate presses (.press unlock)) = lastLook events := by
  induction presses with
  | zero => simp
  | succ presses ih => rw [List.replicate_succ', ← List.append_assoc, lastLook_press, ih]

theorem PressesAllowed.look {deadline : Nat} {events : List UnlockEvent}
    (h : PressesAllowed deadline events) (round : UnlockRound) :
    PressesAllowed deadline (events ++ [.look round]) := by
  intro before unlock hprefix
  rcases List.prefix_concat_iff.1 hprefix with hsame | hbefore
  · have hlast := (List.append_inj' hsame rfl).2
    cases hlast
  · exact h before unlock hbefore

theorem PressesAllowed.press {deadline : Nat} {events : List UnlockEvent} {unlock : Bool}
    (h : PressesAllowed deadline events) (hallowed : PressAllowed deadline events unlock) :
    PressesAllowed deadline (events ++ [.press unlock]) := by
  intro before other hprefix
  rcases List.prefix_concat_iff.1 hprefix with hsame | hbefore
  · obtain ⟨rfl, hlast⟩ := List.append_inj' hsame rfl
    cases hlast
    exact hallowed
  · exact h before other hbefore

theorem PressAllowed.press {deadline : Nat} {events : List UnlockEvent} {unlock : Bool}
    (h : PressAllowed deadline events unlock) (other : Bool) :
    PressAllowed deadline (events ++ [.press other]) unlock where
  look := by
    rw [lastLook_press]
    exact h.look
  goesOn := by
    intro round hmem
    rcases List.mem_append.1 hmem with hmem | hmem
    · exact h.goesOn round hmem
    · cases List.mem_singleton.1 hmem

theorem darkBefore_succ (observed : Nat → UnlockRound) (index : Nat) :
    darkBefore observed (index + 1) =
      darkBefore observed index + if (observed index).verdict = .dark then 1 else 0 := by
  simp [darkBefore, List.range_succ, List.countP_append, List.countP_singleton]

/-! ## The rounds of a run -/

/-- What holds of the counters and the events after some captures. -/
structure UnlockCounts (config : BootUnlockConfig) (deadline looks : Nat) (run : UnlockRun) :
    Prop where
  captures : run.events.countP UnlockEvent.isLook = looks
  verdicts : run.verdicts.length = min looks BOOT_UNLOCK_VERDICTS
  wakes : run.events.countP (UnlockEvent.isPress false) = run.wakePresses
  wakes_le : run.wakePresses ≤ config.wakeAttempts
  unlocks_le : run.events.countP (UnlockEvent.isPress true) ≤ looks * config.burstPresses
  pressed : run.pressed = true ↔ 0 < run.events.countP (UnlockEvent.isPress true)
  allowed : PressesAllowed deadline run.events

section Rounds

variable {config : BootUnlockConfig} {deadlineTick : UInt64} {observed : Nat → UnlockRound}
  {deadline index : Nat} {run : UnlockRun}

/-- A run before round `index`, when no round before was the last one. -/
structure UnlockGoing (config : BootUnlockConfig) (deadlineTick : UInt64)
    (observed : Nat → UnlockRound) (deadline index : Nat) (run : UnlockRun) : Prop where
  counts : UnlockCounts config deadline index run
  open_ : run.decided = false
  dark : run.wakePresses = darkBefore observed index
  goesOn : ∀ earlier < index, GoesOn config deadlineTick observed earlier
  verdicts : ∀ round, .look round ∈ run.events → round.verdict ≠ .other ∧ round.verdict ≠ .unknown
  last : run.lastVerdict ≠ .other
  lastLook : (lastLook run.events).map UnlockRound.verdict ≠ some .other

/-- A run that round `index` has ended, with the number of its captures. -/
structure UnlockStopped (config : BootUnlockConfig) (deadlineTick : UInt64)
    (observed : Nat → UnlockRound) (deadline index : Nat) (run : UnlockRun) : Prop where
  decided : run.decided = true
  goesOn : ∀ earlier < index, GoesOn config deadlineTick observed earlier
  stops : ¬ GoesOn config deadlineTick observed index
  counts : UnlockCounts config deadline
    (index + if Captures deadlineTick observed index then 1 else 0) run
  reason : run.reason = "unlocked" ↔
    (SysAgent.lastLook run.events).map UnlockRound.verdict = some .other ∧
      0 < run.events.countP (UnlockEvent.isPress true)

theorem unlockGoing_initial :
    UnlockGoing config deadlineTick observed deadline 0 UnlockRun.initial where
  counts := {
    captures := rfl
    verdicts := rfl
    wakes := rfl
    wakes_le := Nat.zero_le _
    unlocks_le := Nat.zero_le _
    pressed := by simp [UnlockRun.initial]
    allowed := by
      intro before unlock hprefix
      have hnil := List.prefix_nil.1 hprefix
      simp at hnil }
  open_ := rfl
  dark := rfl
  goesOn := fun _ h => absurd h (Nat.not_lt_zero _)
  verdicts := by
    intro round hmem
    cases hmem
  last := by simp [UnlockRun.initial]
  lastLook := by simp [UnlockRun.initial, SysAgent.lastLook]

/-- Another capture. -/
theorem UnlockCounts.record (h : UnlockCounts config deadline index run) (round : UnlockRound) :
    UnlockCounts config deadline (index + 1) (run.bootUnlockRecord round) where
  captures := by
    simp [UnlockRun.bootUnlockRecord, List.countP_append, h.captures, UnlockEvent.isLook]
  verdicts := by
    have hlength := h.verdicts
    simp only [UnlockRun.bootUnlockRecord]
    split
    · rw [List.length_append, List.length_singleton]
      omega
    · omega
  wakes := by
    simp [UnlockRun.bootUnlockRecord, List.countP_append, h.wakes, UnlockEvent.isPress]
  wakes_le := h.wakes_le
  unlocks_le := by
    have hle := h.unlocks_le
    simp only [UnlockRun.bootUnlockRecord, List.countP_append, List.countP_singleton,
      UnlockEvent.isPress, Nat.succ_mul]
    simp
    omega
  pressed := by
    simp [UnlockRun.bootUnlockRecord, List.countP_append, UnlockEvent.isPress, h.pressed]
  allowed := h.allowed.look round

/-- The counters do not depend on the reason. -/
theorem UnlockCounts.stopWith (h : UnlockCounts config deadline index run) (reason : String) :
    UnlockCounts config deadline index (run.stopWith reason) :=
  ⟨h.captures, h.verdicts, h.wakes, h.wakes_le, h.unlocks_le, h.pressed, h.allowed⟩

theorem UnlockCounts.wakePress (h : UnlockCounts config deadline index run) {landed : Bool}
    (hleft : run.wakePresses < config.wakeAttempts)
    (hallowed : PressAllowed deadline run.events false) :
    UnlockCounts config deadline index (run.wakePress landed) where
  captures := by
    simp [UnlockRun.wakePress, UnlockRun.bootUnlockPressHome, List.countP_append, h.captures,
      UnlockEvent.isLook]
  verdicts := h.verdicts
  wakes := by
    simp [UnlockRun.wakePress, UnlockRun.bootUnlockPressHome, List.countP_append, h.wakes,
      UnlockEvent.isPress]
  wakes_le := hleft
  unlocks_le := by
    have hle := h.unlocks_le
    simpa [UnlockRun.wakePress, UnlockRun.bootUnlockPressHome, List.countP_append,
      UnlockEvent.isPress] using hle
  pressed := by
    simpa [UnlockRun.wakePress, UnlockRun.bootUnlockPressHome, List.countP_append,
      UnlockEvent.isPress] using h.pressed
  allowed := h.allowed.press hallowed

theorem unlockPresses_eq (landed : Nat → Bool) (presses : Nat) (run : UnlockRun) :
    (run.unlockPresses landed presses).events =
        run.events ++ List.replicate presses (.press true) ∧
      (run.unlockPresses landed presses).verdicts = run.verdicts ∧
      (run.unlockPresses landed presses).wakePresses = run.wakePresses ∧
      (run.unlockPresses landed presses).lastVerdict = run.lastVerdict ∧
      (run.unlockPresses landed presses).decided = run.decided ∧
      ((run.unlockPresses landed presses).pressed = true ↔ run.pressed = true ∨ 0 < presses) := by
  induction presses with
  | zero => simp [UnlockRun.unlockPresses]
  | succ presses ih =>
    obtain ⟨hevents, hverdicts, hwakes, hlast, hdecided, -⟩ := ih
    refine ⟨?_, hverdicts, hwakes, hlast, hdecided, by simp [UnlockRun.unlockPresses,
      UnlockRun.unlockPress]⟩
    simp only [UnlockRun.unlockPresses, UnlockRun.unlockPress, UnlockRun.bootUnlockPressHome]
    rw [hevents, List.append_assoc, List.replicate_succ']

theorem PressesAllowed.presses {events : List UnlockEvent} (h : PressesAllowed deadline events)
    (hallowed : PressAllowed deadline events true) (presses : Nat) :
    PressesAllowed deadline (events ++ List.replicate presses (.press true)) ∧
      PressAllowed deadline (events ++ List.replicate presses (.press true)) true := by
  induction presses with
  | zero => simpa using ⟨h, hallowed⟩
  | succ presses ih =>
    rw [List.replicate_succ', ← List.append_assoc]
    exact ⟨ih.1.press ih.2, ih.2.press true⟩

theorem UnlockCounts.unlockPresses (h : UnlockCounts config deadline index run)
    (landed : Nat → Bool) {presses : Nat} (hpresses : 0 < presses)
    (hallowed : PressAllowed deadline run.events true)
    (hfits : run.events.countP (UnlockEvent.isPress true) + presses ≤
      index * config.burstPresses) :
    UnlockCounts config deadline index (run.unlockPresses landed presses) := by
  obtain ⟨hevents, hverdicts, hwakes, _, _, hpressed⟩ := unlockPresses_eq landed presses run
  have hcount : ∀ p : UnlockEvent → Bool,
      (run.unlockPresses landed presses).events.countP p =
        run.events.countP p + if p (.press true) then presses else 0 := by
    intro p
    rw [hevents, List.countP_append, List.countP_replicate]
  refine ⟨?_, ?_, ?_, ?_, ?_, ?_, ?_⟩
  · rw [hcount, h.captures]
    simp [UnlockEvent.isLook]
  · rw [hverdicts, h.verdicts]
  · rw [hcount, h.wakes, hwakes]
    simp [UnlockEvent.isPress]
  · rw [hwakes]
    exact h.wakes_le
  · rw [hcount]
    simpa [UnlockEvent.isPress] using hfits
  · rw [hpressed, hcount]
    simp [UnlockEvent.isPress, hpresses]
  · rw [hevents]
    exact (h.allowed.presses hallowed presses).1

theorem GoesOn.captures (h : GoesOn config deadlineTick observed index) :
    Captures deadlineTick observed index := h.1

/-- A round without a capture ends the run. -/
theorem unlockStopped_without_capture
    (h : UnlockGoing config deadlineTick observed deadline index run)
    (hcaptures : ¬ Captures deadlineTick observed index) {reason : String}
    (hreason : reason ≠ "unlocked") (applicationRuns : Nat) :
    UnlockStopped config deadlineTick observed deadline index
      { run.stopWith reason with applicationRuns := applicationRuns } where
  decided := rfl
  goesOn := h.goesOn
  stops := fun hgoes => hcaptures hgoes.captures
  counts := by
    rw [if_neg hcaptures]
    exact ⟨h.counts.captures, h.counts.verdicts, h.counts.wakes, h.counts.wakes_le,
      h.counts.unlocks_le, h.counts.pressed, h.counts.allowed⟩
  reason := by
    refine iff_of_false hreason ?_
    rintro ⟨hlast, -⟩
    exact h.lastLook hlast

/-- A round whose capture ends the run. -/
theorem unlockStopped_with_capture (h : UnlockGoing config deadlineTick observed deadline index run)
    (hcaptures : Captures deadlineTick observed index)
    (hstops : ¬ GoesOn config deadlineTick observed index) {reason : String}
    (hreason : reason = "unlocked" ↔
      (observed index).verdict = .other ∧ run.pressed = true) :
    UnlockStopped config deadlineTick observed deadline index
      ((run.bootUnlockRecord (observed index)).stopWith reason) where
  decided := rfl
  goesOn := h.goesOn
  stops := hstops
  counts := by
    rw [if_pos hcaptures]
    exact (h.counts.record (observed index)).stopWith reason
  reason := by
    have hpressed := (h.counts.record (observed index)).pressed
    have hlast : lastLook ((run.bootUnlockRecord (observed index)).stopWith reason).events =
        some (observed index) := lastLook_look run.events (observed index)
    rw [hlast, Option.map_some, Option.some_inj]
    exact hreason.trans (and_congr_right fun _ => hpressed)

/-- The press after a capture is allowed. -/
theorem pressAllowed_of_capture (h : UnlockGoing config deadlineTick observed deadline index run)
    (hdeadline : deadlineTick.toNat ≤ deadline)
    (hcaptures : Captures deadlineTick observed index) {unlock : Bool}
    (hverdict : if unlock then (observed index).verdict = .lockOne ∨
      (observed index).verdict = .lockThree else (observed index).verdict = .dark) :
    PressAllowed deadline (run.bootUnlockRecord (observed index)).events unlock where
  look := by
    refine ⟨observed index, lastLook_look run.events (observed index), hcaptures.2, ?_, hverdict⟩
    exact lt_of_lt_of_le (UInt64.lt_iff_toNat_lt.1 hcaptures.1) hdeadline
  goesOn := by
    intro round hmem
    rcases List.mem_append.1 hmem with hmem | hmem
    · exact h.verdicts round hmem
    · cases List.mem_singleton.1 hmem
      cases unlock with
      | false =>
        have hdark : (observed index).verdict = .dark := hverdict
        rw [hdark]
        decide
      | true =>
        have hlock : (observed index).verdict = .lockOne ∨ (observed index).verdict = .lockThree :=
          hverdict
        rcases hlock with hlock | hlock
        · rw [hlock]
          decide
        · rw [hlock]
          decide

/-- What a round that goes on leaves to show: its counters, and that its verdict is no last one. -/
theorem unlockGoing_succ (h : UnlockGoing config deadlineTick observed deadline index run)
    (hgoes : GoesOn config deadlineTick observed index) {run' : UnlockRun} {presses : Nat}
    {unlock : Bool}
    (hcounts : UnlockCounts config deadline (index + 1) run') (hopen : run'.decided = false)
    (hlast : run'.lastVerdict = (observed index).verdict)
    (hdark : run'.wakePresses =
      run.wakePresses + if (observed index).verdict = .dark then 1 else 0)
    (hevents : run'.events = run.events ++ [.look (observed index)] ++
      List.replicate presses (.press unlock)) :
    UnlockGoing config deadlineTick observed deadline (index + 1) run' := by
  have hverdict : (observed index).verdict ≠ .other ∧ (observed index).verdict ≠ .unknown := by
    rcases hgoes.2 with hlock | hlock | ⟨hlock, -⟩
    all_goals
      rw [hlock]
      decide
  have hlook : lastLook run'.events = some (observed index) := by
    rw [hevents, lastLook_presses, lastLook_look]
  refine {
    counts := hcounts
    open_ := hopen
    dark := by rw [hdark, h.dark, darkBefore_succ]
    goesOn := ?_
    verdicts := ?_
    last := by rw [hlast]; exact hverdict.1
    lastLook := by rw [hlook]; simpa using hverdict.1 }
  · intro earlier hearlier
    rcases Nat.lt_succ_iff_lt_or_eq.1 hearlier with hlt | rfl
    · exact h.goesOn earlier hlt
    · exact hgoes
  · intro round hmem
    rw [hevents, List.append_assoc] at hmem
    rcases List.mem_append.1 hmem with hmem | hmem
    · exact h.verdicts round hmem
    · rcases List.mem_append.1 hmem with hmem | hmem
      · cases List.mem_singleton.1 hmem
        exact hverdict
      · cases (List.mem_replicate.1 hmem).2

section Capture

variable (hdeadline : deadlineTick.toNat ≤ deadline)
  (h : UnlockGoing config deadlineTick observed deadline index run)
  (hcaptures : Captures deadlineTick observed index)
include h hcaptures

theorem unlockStopped_other (hother : (observed index).verdict = .other) :
    UnlockStopped config deadlineTick observed deadline index
      ((run.bootUnlockRecord (observed index)).stopWith
        (if run.pressed then "unlocked" else "not-locked")) := by
  refine unlockStopped_with_capture h hcaptures ?_ ?_
  · rintro ⟨-, hlock | hlock | ⟨hlock, -⟩⟩
    all_goals exact absurd (hother.symm.trans hlock) (by decide)
  · cases run.pressed <;> simp [hother]

theorem unlockStopped_unknown (hunknown : (observed index).verdict = .unknown) :
    UnlockStopped config deadlineTick observed deadline index
      ((run.bootUnlockRecord (observed index)).stopWith
        (bootUnlockLook (observed index).capture).2) := by
  refine unlockStopped_with_capture h hcaptures ?_ ?_
  · rintro ⟨-, hlock | hlock | ⟨hlock, -⟩⟩
    all_goals exact absurd (hunknown.symm.trans hlock) (by decide)
  · refine iff_of_false ?_ fun hother => absurd (hunknown.symm.trans hother.1) (by decide)
    cases hcapture : (observed index).capture with
    | refused => simp [bootUnlockLook]
    | undecodable => simp [bootUnlockLook]
    | frame verdict => cases verdict <;> simp [bootUnlockLook, screenClassName]

/-- The display stays dark, and no press to light it is left. -/
theorem unlockStopped_dark (hdark : (observed index).verdict = .dark)
    (hspent : config.wakeAttempts ≤ run.wakePresses) :
    UnlockStopped config deadlineTick observed deadline index
      ((run.bootUnlockRecord (observed index)).stopWith "display-stays-dark") := by
  refine unlockStopped_with_capture h hcaptures ?_ ?_
  · have hspent' : config.wakeAttempts ≤ darkBefore observed index := h.dark ▸ hspent
    rintro ⟨-, hlock | hlock | ⟨-, hleft⟩⟩
    · exact absurd (hdark.symm.trans hlock) (by decide)
    · exact absurd (hdark.symm.trans hlock) (by decide)
    · omega
  · refine iff_of_false (by decide) fun hother => ?_
    exact absurd (hdark.symm.trans hother.1) (by decide)

include hdeadline

theorem unlockGoing_dark (hdark : (observed index).verdict = .dark)
    (hleft : run.wakePresses < config.wakeAttempts) :
    UnlockGoing config deadlineTick observed deadline (index + 1)
      ((run.bootUnlockRecord (observed index)).wakePress ((observed index).landed 0)) := by
  have hallowed := @pressAllowed_of_capture config deadlineTick observed deadline index run
    h hdeadline hcaptures false hdark
  have hgoes : GoesOn config deadlineTick observed index :=
    ⟨hcaptures, .inr (.inr ⟨hdark, h.dark ▸ hleft⟩)⟩
  refine @unlockGoing_succ config deadlineTick observed deadline index run h hgoes _ 1 false
    ((h.counts.record (observed index)).wakePress hleft hallowed) h.open_ rfl ?_ rfl
  rw [if_pos hdark]
  rfl

/-- The presses at a lock screen. -/
theorem unlockGoing_lock (hlock : (observed index).verdict = .lockOne ∨
      (observed index).verdict = .lockThree) {presses : Nat} (hpresses : 0 < presses)
    (hle : presses ≤ config.burstPresses) :
    UnlockGoing config deadlineTick observed deadline (index + 1)
      ((run.bootUnlockRecord (observed index)).unlockPresses (observed index).landed
        presses) := by
  have hunlocks := h.counts.unlocks_le
  obtain ⟨hevents, _, hwakes, hlast, hdecided, _⟩ := unlockPresses_eq (observed index).landed
    presses (run.bootUnlockRecord (observed index))
  have hallowed := @pressAllowed_of_capture config deadlineTick observed deadline index run h
    hdeadline hcaptures true hlock
  have hnotDark : (observed index).verdict ≠ .dark := by
    rcases hlock with hlock | hlock
    all_goals
      rw [hlock]
      decide
  refine unlockGoing_succ h ⟨hcaptures, or_assoc.1 (.inl hlock)⟩
    ((h.counts.record (observed index)).unlockPresses _ hpresses hallowed ?_)
    (hdecided.trans h.open_) hlast ?_ hevents
  · have hsame : (run.bootUnlockRecord (observed index)).events.countP
        (UnlockEvent.isPress true) = run.events.countP (UnlockEvent.isPress true) := by
      simp [UnlockRun.bootUnlockRecord, List.countP_append, UnlockEvent.isPress]
    rw [hsame, Nat.succ_mul]
    omega
  · rw [hwakes, if_neg hnotDark]
    rfl

end Capture

/-- One round ends the run or goes on. -/
theorem unlockRound_spec (hburst : 0 < config.burstPresses)
    (hdeadline : deadlineTick.toNat ≤ deadline)
    (h : UnlockGoing config deadlineTick observed deadline index run) :
    UnlockStopped config deadlineTick observed deadline index
        (run.round config deadlineTick (observed index)) ∨
      UnlockGoing config deadlineTick observed deadline (index + 1)
        (run.round config deadlineTick (observed index)) := by
  unfold UnlockRun.round
  split
  case isTrue hlate =>
    refine .inl (unlockStopped_without_capture h ?_ (by decide) run.applicationRuns)
    exact fun hcaptures => absurd hcaptures.1 (UInt64.not_lt.2 hlate)
  case isFalse htime =>
    split
    case isTrue hrunning =>
      refine .inl (unlockStopped_without_capture h ?_ (by decide) _)
      exact fun hcaptures => absurd (hrunning.symm.trans hcaptures.2) (by decide)
    case isFalse hidle =>
      have hcaptures : Captures deadlineTick observed index :=
        ⟨UInt64.not_le.1 htime, by simpa using hidle⟩
      dsimp only
      split
      case h_1 hother => exact .inl (unlockStopped_other h hcaptures hother)
      case h_2 hunknown => exact .inl (unlockStopped_unknown h hcaptures hunknown)
      case h_3 hdark =>
        split
        case isTrue hspent => exact .inl (unlockStopped_dark h hcaptures hdark hspent)
        case isFalse hleft =>
          exact .inr (unlockGoing_dark hdeadline h hcaptures hdark (Nat.not_le.1 hleft))
      case h_4 hlock =>
        exact .inr (unlockGoing_lock hdeadline h hcaptures (.inl hlock) Nat.one_pos hburst)
      case h_5 hlock =>
        exact .inr (unlockGoing_lock hdeadline h hcaptures (.inr hlock) hburst le_rfl)

/-- A run ends in one of its rounds, or goes on to the last. -/
theorem unlockLoop_spec (hburst : 0 < config.burstPresses)
    (hdeadline : deadlineTick.toNat ≤ deadline) (left : Nat)
    (h : UnlockGoing config deadlineTick observed deadline index run) :
    (∃ last < index + left, UnlockStopped config deadlineTick observed deadline last
        (unlockLoop config deadlineTick observed left index run)) ∨
      UnlockGoing config deadlineTick observed deadline (index + left)
        (unlockLoop config deadlineTick observed left index run) := by
  induction left generalizing index run with
  | zero => exact .inr h
  | succ left ih =>
    rw [unlockLoop]
    rcases unlockRound_spec hburst hdeadline h with hstopped | hgoing
    · simp only [hstopped.decided, if_true]
      exact .inl ⟨index, by omega, hstopped⟩
    · simp only [hgoing.open_, Bool.false_eq_true, if_false]
      have hrest := ih hgoing
      rw [Nat.add_right_comm] at hrest
      exact hrest

end Rounds

/-! ## The exact condition -/

theorem overflows_of_stopped {config : BootUnlockConfig} {deadlineTick : UInt64}
    {observed : Nat → UnlockRound} {deadline last : Nat} {run : UnlockRun}
    (h : UnlockStopped config deadlineTick observed deadline last run)
    (hlast : last < config.maxRounds) :
    Overflows config deadlineTick observed ↔
      BOOT_UNLOCK_VERDICTS < last + if Captures deadlineTick observed last then 1 else 0 := by
  constructor
  · rintro ⟨-, hgoes, hcaptures⟩
    rcases Nat.lt_trichotomy last BOOT_UNLOCK_VERDICTS with hlt | rfl | hgt
    · exact absurd (hgoes last hlt) h.stops
    · rw [if_pos hcaptures]
      omega
    · omega
  · intro hmany
    have hbefore : ∀ index < last, Captures deadlineTick observed index :=
      fun index hindex => (h.goesOn index hindex).captures
    by_cases hcaptures : Captures deadlineTick observed last
    · rw [if_pos hcaptures] at hmany
      refine ⟨by omega, fun index hindex => h.goesOn index (by omega), ?_⟩
      rcases Nat.lt_or_ge BOOT_UNLOCK_VERDICTS last with hlt | hge
      · exact hbefore _ hlt
      · obtain rfl : last = BOOT_UNLOCK_VERDICTS := by omega
        exact hcaptures
    · rw [if_neg hcaptures] at hmany
      exact ⟨by omega, fun index hindex => h.goesOn index (by omega), hbefore _ (by omega)⟩

theorem overflows_of_going {config : BootUnlockConfig} {deadlineTick : UInt64}
    {observed : Nat → UnlockRound} {deadline : Nat} {run : UnlockRun}
    (h : UnlockGoing config deadlineTick observed deadline config.maxRounds run) :
    Overflows config deadlineTick observed ↔ BOOT_UNLOCK_VERDICTS < config.maxRounds := by
  constructor
  · exact fun hoverflows => hoverflows.1
  · intro hmany
    exact ⟨hmany, fun index hindex => h.goesOn index (by omega), (h.goesOn _ hmany).captures⟩

/-- The list of verdicts is as long as the captures are many unless it is full. -/
theorem unlockSafe_iff_of_counts {systemTickFreq startTick : UInt64} {config : BootUnlockConfig}
    {looks : Nat} {run : UnlockRun} {reason : String}
    (hcounts : UnlockCounts config
      (startTick.toNat + (bootUnlockTicksFromMs systemTickFreq config.deadlineMs).toNat) looks run)
    (hlooks : looks ≤ config.maxRounds)
    (hreason : reason = "unlocked" ↔
      (lastLook run.events).map UnlockRound.verdict = some .other ∧
        0 < run.events.countP (UnlockEvent.isPress true)) :
    UnlockSafe systemTickFreq config startTick { reason, rounds := run.verdicts.length, run } ↔
      ¬ BOOT_UNLOCK_VERDICTS < looks := by
  constructor
  · intro hsafe hmany
    have hrounds : run.verdicts.length = run.events.countP UnlockEvent.isLook := hsafe.rounds
    rw [hcounts.verdicts, hcounts.captures] at hrounds
    omega
  · intro hfew
    have hmul := Nat.mul_le_mul_right config.burstPresses hlooks
    exact {
      presses := hcounts.allowed
      wakes := hcounts.wakes.trans_le hcounts.wakes_le
      unlocks := hcounts.unlocks_le.trans hmul
      captures := hcounts.captures.trans_le hlooks
      reason := hreason
      rounds := by
        show run.verdicts.length = run.events.countP UnlockEvent.isLook
        rw [hcounts.verdicts, hcounts.captures]
        omega }

/-- The worker keeps its promises iff the verdicts of its run fit their list of twelve. -/
theorem boot_unlock_safe_iff (malloc : Bool) (text : CString) (systemTickFreq : UInt64)
    (config : BootUnlockConfig) (hconfig : bootUnlockConfigParseText malloc text = some config)
    (memory : Bool) (startTick : UInt64) (observed : Nat → UnlockRound) :
    UnlockSafe systemTickFreq config startTick
        (bootUnlockWorker systemTickFreq config memory startTick observed) ↔
      (memory = true → ¬ Overflows config
        (startTick + bootUnlockTicksFromMs systemTickFreq config.deadlineMs) observed) := by
  have haccepted := accepted_of_parseText hconfig
  have hdeadline : (startTick + bootUnlockTicksFromMs systemTickFreq config.deadlineMs).toNat ≤
      startTick.toNat + (bootUnlockTicksFromMs systemTickFreq config.deadlineMs).toNat := by
    rw [UInt64.toNat_add]
    exact Nat.mod_le _ _
  have hinitial := @unlockGoing_initial config
    (startTick + bootUnlockTicksFromMs systemTickFreq config.deadlineMs) observed
    (startTick.toNat + (bootUnlockTicksFromMs systemTickFreq config.deadlineMs).toNat)
  cases memory with
  | false =>
    have hcounts := hinitial.counts
    refine iff_of_true ?_ fun h => absurd h (by decide)
    exact {
      presses := hcounts.allowed
      wakes := Nat.zero_le _
      unlocks := Nat.zero_le _
      captures := Nat.zero_le _
      reason := iff_of_false (fun h => absurd h (show "no-memory" ≠ "unlocked" by decide))
        fun h => absurd h.2 (Nat.lt_irrefl 0)
      rounds := rfl }
  | true =>
    have hloop := unlockLoop_spec haccepted.burstPresses_pos hdeadline config.maxRounds hinitial
    rw [Nat.zero_add] at hloop
    rcases hloop with ⟨last, hlast, hstopped⟩ | hgoing
    · have hle : last + (if Captures
          (startTick + bootUnlockTicksFromMs systemTickFreq config.deadlineMs) observed last then 1
          else 0) ≤ config.maxRounds := by
        split <;> omega
      have hreport := unlockSafe_iff_of_counts hstopped.counts hle hstopped.reason
      rw [← overflows_of_stopped hstopped hlast] at hreport
      simp only [bootUnlockWorker, Bool.not_true, Bool.false_eq_true, if_false, hstopped.decided,
        if_true, forall_const]
      exact hreport
    · have hreport := @unlockSafe_iff_of_counts _ _ _ _ _ "rounds-exhausted" hgoing.counts
        le_rfl (iff_of_false (by decide) fun hother => hgoing.lastLook hother.1)
      rw [← overflows_of_going hgoing] at hreport
      simp only [bootUnlockWorker, Bool.not_true, Bool.false_eq_true, if_false, hgoing.open_,
        hgoing.last, forall_const]
      exact hreport

/-- A display that stays behind its lock screen. -/
def alwaysLocked (_ : Nat) : UnlockRound where
  now := 0
  applicationRunning := false
  capture := .frame .lockOne
  ms := 0
  landed := fun _ => true

/-- A text that sets the number of rounds. -/
def roundsText (rounds : String) : CString :=
  CString.at (ascii ("[boot-unlock]\nmaxRounds=" ++ rounds))

theorem boot_unlock_safe_twelve :
    UnlockSafe 19200000 { bootUnlockConfigDefaults with maxRounds := 12 } 0
      (bootUnlockWorker 19200000 { bootUnlockConfigDefaults with maxRounds := 12 } true 0
        alwaysLocked) :=
  (boot_unlock_safe_iff true (roundsText "12") 19200000
    { bootUnlockConfigDefaults with maxRounds := 12 } (by decide) true 0 alwaysLocked).2
      fun _ h => absurd h.1 (by decide)

/-- Of twenty rounds with a capture each, twelve are reported. -/
theorem boot_unlock_reports_twelve_of_twenty :
    bootUnlockConfigParseText true (roundsText "20") =
        some { bootUnlockConfigDefaults with maxRounds := 20 } ∧
      ¬ UnlockSafe 19200000 { bootUnlockConfigDefaults with maxRounds := 20 } 0
        (bootUnlockWorker 19200000 { bootUnlockConfigDefaults with maxRounds := 20 } true 0
          alwaysLocked) := by
  refine ⟨by decide, fun hsafe => ?_⟩
  exact absurd hsafe.rounds (by decide)

end SysAgent
