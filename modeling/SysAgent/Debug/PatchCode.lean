import Mathlib

set_option autoImplicit false

/-! # Code patches (`patch_code.c`)

`patchCodeRun` as a function of what every call of the kernel and of PM returns. Its effects on the
process are kept in a list. A loop that reads the event queue has the fuel it needs or never ends.

`threads` and `memory` are what the stopped process is like. `svcGetThreadList` tells how many threads
there are and stores the first of them, `svcGetDebugThreadContext` returns the PC or fails, and
`svcReadDebugProcessMemory` returns the bytes or fails. -/

namespace SysAgent

/-! ## The calls -/

def PATCH_CODE_MAX_SIZE : Nat := 0x400
def PATCH_CODE_MAX_THREADS : Nat := 0x80

/-- The result codes that `patchCodeRun` makes itself, none of which is success. -/
structure PatchResultCodes where
  badInput : UInt32
  notFound : UInt32
  ownedByAnotherProcess : UInt32
  timedOut : UInt32
  exited : UInt32
  badInput_ne : badInput ≠ 0
  notFound_ne : notFound ≠ 0
  owned_ne : ownedByAnotherProcess ≠ 0
  timedOut_ne : timedOut ≠ 0
  exited_ne : exited ≠ 0

inductive PatchEventType
  | createProcess
  | exitProcess
  | other
  deriving DecidableEq

/-- A thread of the process, and the result of reading its context. -/
structure PatchThread where
  id : UInt64
  pc : UInt64
  context : UInt32

/-- What the calls return. The calls of a loop are numbered: `wait`, `event` and `tick` of the n-th
    one. A process id of 0 is what PM leaves when it fails. -/
structure PatchOutcomes where
  sessionActive : Bool
  application : UInt32 × UInt64
  applicationAgain : UInt32 × UInt64
  dmntInitialize : UInt32
  dmntHasProcess : UInt32 × Bool
  debugActiveProcess : UInt32
  wait : Nat → UInt32
  event : Nat → Option PatchEventType
  tick : Nat → UInt64
  tickFreq : UInt64
  breakProcess : UInt32
  threadList : UInt32
  threads : List PatchThread
  memory : List UInt8
  readOld : UInt32
  write : UInt32
  readNew : UInt32
  newMemory : List UInt8
  continueEvent : UInt32

/-- How many waits, events and ticks have been used up. -/
structure PatchCalls where
  waits : Nat
  events : Nat
  ticks : Nat

structure PatchCodeRequest where
  address : UInt64
  expected : Option (List UInt8)
  skipVerify : Bool
  patch : Option (List UInt8)
  checkPc : Bool
  pid : UInt64

namespace PatchCodeRequest

/-- `patchSize` -/
def size (request : PatchCodeRequest) : Nat :=
  (request.patch.getD []).length

/-- `address + patchSize` -/
def stop (request : PatchCodeRequest) : UInt64 :=
  request.address + UInt64.ofNat request.size

end PatchCodeRequest

inductive PatchCodeStatus
  | ok
  | busyPcInRange
  | expectedMismatch
  | readbackFailed
  deriving DecidableEq

structure PatchCodeResult where
  status : PatchCodeStatus
  dmntClosed : Bool
  pausedThreads : UInt32
  nearestPc : UInt64
  pcHitThread : UInt64
  pcHitValue : UInt64
  patchSize : Nat
  oldBytes : List UInt8
  newBytes : List UInt8

/-- The result after `memset`; the bytes are the first `patchSize` ones of the arrays. -/
def PatchCodeResult.empty : PatchCodeResult where
  status := .ok
  dmntClosed := false
  pausedThreads := 0
  nearestPc := 0
  pcHitThread := 0
  pcHitValue := 0
  patchSize := 0
  oldBytes := []
  newBytes := []

/-- What happens to the process. -/
inductive PatchEffect
  | attached
  | stopped
  | wrote (address : UInt64) (bytes : List UInt8)
  | resumed
  | closed
  deriving DecidableEq

/-! ## The queue of events -/

/-- Events until there is none: whether the process has exited, and whether its creation was seen. -/
def drainQueue (outcomes : PatchOutcomes) : Nat → Nat → Bool → Option (Bool × Bool × Nat)
  | 0, _, _ => none
  | fuel + 1, n, seen =>
    match outcomes.event n with
    | none => some (false, seen, n + 1)
    | some .exitProcess => some (true, seen, n + 1)
    | some .createProcess => drainQueue outcomes fuel (n + 1) true
    | some .other => drainQueue outcomes fuel (n + 1) seen

/-- The loop of `drainInitialEvents`. -/
def drainWaits (codes : PatchResultCodes) (outcomes : PatchOutcomes) (deadline : UInt64) :
    Nat → PatchCalls → Bool → Option (UInt32 × PatchCalls)
  | 0, _, _ => none
  | fuel + 1, calls, attachedSeen =>
    let rc := outcomes.wait calls.waits
    let calls := { calls with waits := calls.waits + 1 }
    if rc = codes.timedOut then
      if attachedSeen then some (0, calls)
      else
        let expired := deadline ≤ outcomes.tick calls.ticks
        let calls := { calls with ticks := calls.ticks + 1 }
        if expired then some (0, calls)
        else drainWaits codes outcomes deadline fuel calls attachedSeen
    else if rc ≠ 0 then some (rc, calls)
    else
      match drainQueue outcomes fuel calls.events attachedSeen with
      | none => none
      | some (exited, attachedSeen, events) =>
        let calls := { calls with events }
        if exited then some (codes.exited, calls)
        else drainWaits codes outcomes deadline fuel calls attachedSeen

def drainInitialEvents (codes : PatchResultCodes) (outcomes : PatchOutcomes) (fuel : Nat)
    (calls : PatchCalls) : Option (UInt32 × PatchCalls) :=
  drainWaits codes outcomes (outcomes.tick calls.ticks + outcomes.tickFreq) fuel
    { calls with ticks := calls.ticks + 1 } false

/-- The loop of `pauseProcess`. -/
def pauseWaits (codes : PatchResultCodes) (outcomes : PatchOutcomes) (fuel : Nat) :
    Nat → PatchCalls → Option (UInt32 × PatchCalls)
  | 0, calls => some (codes.timedOut, calls)
  | attempts + 1, calls =>
    let rc := outcomes.wait calls.waits
    let calls := { calls with waits := calls.waits + 1 }
    if rc = codes.timedOut then pauseWaits codes outcomes fuel attempts calls
    else if rc ≠ 0 then some (rc, calls)
    else
      match drainQueue outcomes fuel calls.events false with
      | none => none
      | some (exited, _, events) =>
        some (if exited then codes.exited else 0, { calls with events })

/-- `pauseProcess`, with the effects so far. -/
def pauseProcess (codes : PatchResultCodes) (outcomes : PatchOutcomes) (fuel : Nat)
    (calls : PatchCalls) (effects : List PatchEffect) :
    Option (UInt32 × PatchCalls × List PatchEffect) :=
  if outcomes.breakProcess ≠ 0 then some (outcomes.breakProcess, calls, effects)
  else
    (pauseWaits codes outcomes fuel 50 calls).map fun (rc, calls) =>
      (rc, calls, effects ++ [.stopped])

/-! ## The transaction -/

def distanceToRange (pc address size : UInt64) : UInt64 :=
  if pc < address then address - pc
  else if pc < address + size then 0
  else pc - (address + size)

/-- The check of a PC. -/
def pcInRange (request : PatchCodeRequest) (pc : UInt64) : Bool :=
  request.address ≤ pc && pc < request.stop

/-- The loop over the threads; whether it ended at a thread in the range. -/
def inspectThreads (request : PatchCodeRequest) :
    List PatchThread → UInt64 → PatchCodeResult → Bool × PatchCodeResult
  | [], _, out => (false, out)
  | thread :: threads, bestDist, out =>
    if thread.context ≠ 0 then inspectThreads request threads bestDist out
    else
      let out := { out with pausedThreads := out.pausedThreads + 1 }
      let dist := distanceToRange thread.pc request.address (UInt64.ofNat request.size)
      let (bestDist, out) :=
        if dist < bestDist then (dist, { out with nearestPc := thread.pc }) else (bestDist, out)
      if request.checkPc && pcInRange request thread.pc then
        (true, { out with
          status := .busyPcInRange, pcHitThread := thread.id, pcHitValue := thread.pc })
      else inspectThreads request threads bestDist out

/-- The part between the pause and `cleanup`. -/
def patchStopped (outcomes : PatchOutcomes) (request : PatchCodeRequest) (out : PatchCodeResult) :
    UInt32 × PatchCodeResult × List PatchEffect :=
  let out := { out with patchSize := request.size }
  if outcomes.threadList ≠ 0 then (outcomes.threadList, out, [])
  else
    let (busy, out) := inspectThreads request
      (outcomes.threads.take PATCH_CODE_MAX_THREADS) (UInt64.ofNat (2 ^ 64 - 1)) out
    if busy then (0, out, [])
    else if outcomes.readOld ≠ 0 then (outcomes.readOld, out, [])
    else
      let out := { out with oldBytes := outcomes.memory }
      if !request.skipVerify && request.expected != some out.oldBytes then
        (0, { out with status := .expectedMismatch }, [])
      else if outcomes.write ≠ 0 then (outcomes.write, out, [])
      else
        let effects := [.wrote request.address (request.patch.getD [])]
        let out := { out with newBytes := List.replicate request.size 0 }
        if outcomes.readNew ≠ 0 then (outcomes.readNew, out, effects)
        else
          let out := { out with newBytes := outcomes.newMemory }
          if some out.newBytes ≠ request.patch then
            (0, { out with status := .readbackFailed }, effects)
          else (0, { out with status := .ok }, effects)

/-- `cleanup`; the rest of the queue goes only if the process was paused. -/
def patchCleanup (outcomes : PatchOutcomes) (fuel : Nat) (paused : Bool) (calls : PatchCalls) :
    Option (List PatchEffect) :=
  if paused then
    (drainQuietly fuel calls.events).map fun _ =>
      if outcomes.continueEvent = 0 then [.resumed, .closed] else [.closed]
  else some [.closed]
where
  /-- Events of any type until there is none. -/
  drainQuietly : Nat → Nat → Option Nat
  | 0, _ => none
  | fuel + 1, n =>
    match outcomes.event n with
    | none => some (n + 1)
    | some _ => drainQuietly fuel (n + 1)

structure PatchRun where
  rc : UInt32
  out : PatchCodeResult
  effects : List PatchEffect

/-- The process, or the result code of a failed lookup. -/
def patchProcess (codes : PatchResultCodes) (outcomes : PatchOutcomes) (pid : UInt64) :
    Except UInt32 UInt64 :=
  let (rc, pid) := if pid = 0 then outcomes.application else (0, pid)
  if rc ≠ 0 ∨ pid = 0 then .error (if rc = 0 then codes.notFound else rc) else .ok pid

/-- Whether the handle of dmnt is closed. -/
def closesDmnt (outcomes : PatchOutcomes) (pid : UInt64) : Bool :=
  outcomes.applicationAgain.1 == 0 && outcomes.applicationAgain.2 == pid &&
    outcomes.dmntInitialize == 0 && outcomes.dmntHasProcess.1 == 0 && outcomes.dmntHasProcess.2

/-- What `patchCodeRun` checks of its arguments. -/
def acceptsRequest (request : PatchCodeRequest) : Bool :=
  request.patch.isSome && 0 < request.size && request.size ≤ PATCH_CODE_MAX_SIZE &&
    (request.skipVerify || request.expected.any fun bytes => bytes.length == request.size)

/-- `patchCodeRun` from the attach on. -/
def patchAttached (codes : PatchResultCodes) (outcomes : PatchOutcomes) (fuel : Nat)
    (request : PatchCodeRequest) (out : PatchCodeResult) : Option PatchRun := do
  let (rc, calls) ← drainInitialEvents codes outcomes fuel ⟨0, 0, 0⟩
  if rc ≠ 0 then
    let cleanup ← patchCleanup outcomes fuel false calls
    some ⟨rc, out, [.attached] ++ cleanup⟩
  else
    let (rc, calls, effects) ← pauseProcess codes outcomes fuel calls [.attached]
    if rc ≠ 0 then
      let cleanup ← patchCleanup outcomes fuel false calls
      some ⟨rc, out, effects ++ cleanup⟩
    else
      let (rc, out, written) := patchStopped outcomes request out
      let cleanup ← patchCleanup outcomes fuel true calls
      some ⟨rc, out, effects ++ written ++ cleanup⟩

def patchCodeRun (codes : PatchResultCodes) (outcomes : PatchOutcomes) (fuel : Nat)
    (request : PatchCodeRequest) : Option PatchRun :=
  let out := PatchCodeResult.empty
  if !acceptsRequest request then some ⟨codes.badInput, out, []⟩
  else if outcomes.sessionActive then some ⟨codes.ownedByAnotherProcess, out, []⟩
  else
    match patchProcess codes outcomes request.pid with
    | .error rc => some ⟨rc, out, []⟩
    | .ok pid =>
      let out := { out with dmntClosed := closesDmnt outcomes pid }
      if outcomes.debugActiveProcess ≠ 0 then some ⟨outcomes.debugActiveProcess, out, []⟩
      else patchAttached codes outcomes fuel request out

/-! ## The law -/

/-- The range as it is meant, without an end that wraps. -/
def InPatchRange (request : PatchCodeRequest) (pc : UInt64) : Prop :=
  request.address.toNat ≤ pc.toNat ∧ pc.toNat < request.address.toNat + request.size

/-- What is asked of a run: no thread in the range and the expected bytes if the target is written,
    no process left stopped, and success only with the patch read back. -/
def PatchLaw (outcomes : PatchOutcomes) (request : PatchCodeRequest) (run : PatchRun) : Prop :=
  (∀ address bytes, .wrote address bytes ∈ run.effects →
    (∀ thread ∈ outcomes.threads, ¬ InPatchRange request thread.pc) ∧
      (request.skipVerify = true ∨ request.expected = some outcomes.memory)) ∧
  (∀ before after, run.effects = before ++ .stopped :: after → .resumed ∈ after ∨ .closed ∈ after) ∧
  (run.rc = 0 → run.out.status = .ok → request.patch = some outcomes.newMemory)

/-- A thread in the range that the loop comes to, with a context it can read. -/
def Noticed (outcomes : PatchOutcomes) (request : PatchCodeRequest) : Prop :=
  ∃ thread ∈ outcomes.threads.take PATCH_CODE_MAX_THREADS,
    thread.context = 0 ∧ pcInRange request thread.pc = true

/-- The process gets attached to and stopped, with the events that are left, which end. -/
def ProcessStops (codes : PatchResultCodes) (outcomes : PatchOutcomes) (fuel : Nat)
    (calls : PatchCalls) : Prop :=
  ∃ drained, drainInitialEvents codes outcomes fuel ⟨0, 0, 0⟩ = some (0, drained) ∧
    pauseProcess codes outcomes fuel drained [.attached] =
      some (0, calls, [.attached, .stopped]) ∧
    (patchCleanup outcomes fuel true calls).isSome = true

/-- The request is accepted, and there is a process to attach to. -/
def Attaches (codes : PatchResultCodes) (outcomes : PatchOutcomes) (request : PatchCodeRequest) :
    Prop :=
  acceptsRequest request = true ∧ outcomes.sessionActive = false ∧
    (∃ pid, patchProcess codes outcomes request.pid = .ok pid) ∧ outcomes.debugActiveProcess = 0

/-- No call in front of the write fails, nor the write, and the bytes are the expected ones. -/
def NothingFails (codes : PatchResultCodes) (outcomes : PatchOutcomes) (fuel : Nat)
    (request : PatchCodeRequest) : Prop :=
  Attaches codes outcomes request ∧ (∃ calls, ProcessStops codes outcomes fuel calls) ∧
    outcomes.threadList = 0 ∧
    outcomes.readOld = 0 ∧
    (request.skipVerify = true ∨ request.expected = some outcomes.memory) ∧ outcomes.write = 0

section Law

variable {codes : PatchResultCodes} {outcomes : PatchOutcomes} {fuel : Nat}
  {request : PatchCodeRequest} {run : PatchRun}

theorem inspectThreads_iff (hcheck : request.checkPc = true) (threads : List PatchThread)
    (bestDist : UInt64) (out : PatchCodeResult) :
    (inspectThreads request threads bestDist out).1 = true ↔
      ∃ thread ∈ threads, thread.context = 0 ∧ pcInRange request thread.pc = true := by
  induction threads generalizing bestDist out with
  | nil => simp [inspectThreads]
  | cons thread threads ih =>
    rw [inspectThreads, List.exists_mem_cons_iff]
    by_cases hcontext : thread.context = 0
    · rw [if_neg (not_not.2 hcontext), hcheck, Bool.true_and]
      simp only
      by_cases hpc : pcInRange request thread.pc = true
      · rw [if_pos hpc]
        exact iff_of_true rfl (Or.inl ⟨hcontext, hpc⟩)
      · rw [if_neg hpc, ih, or_iff_right fun h => hpc h.2]
    · rw [if_pos hcontext, ih, or_iff_right fun h => hcontext h.1]

variable (request) in
theorem inspectThreads_status (threads : List PatchThread) (bestDist : UInt64)
    (out : PatchCodeResult) (h : (inspectThreads request threads bestDist out).1 = true) :
    (inspectThreads request threads bestDist out).2.status = .busyPcInRange := by
  induction threads generalizing bestDist out with
  | nil => cases h
  | cons thread threads ih =>
    rw [inspectThreads] at h ⊢
    by_cases hcontext : thread.context = 0
    · rw [if_neg (not_not.2 hcontext)] at h ⊢
      simp only at h ⊢
      by_cases hpc : (request.checkPc && pcInRange request thread.pc) = true
      · rw [if_pos hpc]
      · rw [if_neg hpc] at h ⊢
        exact ih _ _ h
    · rw [if_pos hcontext] at h ⊢
      exact ih _ _ h

/-- When the stopped process is written. -/
def WritesStopped (outcomes : PatchOutcomes) (request : PatchCodeRequest) : Prop :=
  outcomes.threadList = 0 ∧ ¬ Noticed outcomes request ∧ outcomes.readOld = 0 ∧
    (request.skipVerify = true ∨ request.expected = some outcomes.memory) ∧ outcomes.write = 0

variable (outcomes) in
theorem patchStopped_effects (hcheck : request.checkPc = true) (out : PatchCodeResult) :
    (patchStopped outcomes request out).2.2 = [.wrote request.address (request.patch.getD [])] ∧
        WritesStopped outcomes request ∨
      (patchStopped outcomes request out).2.2 = [] ∧ ¬ WritesStopped outcomes request := by
  have hbusy := inspectThreads_iff hcheck (outcomes.threads.take PATCH_CODE_MAX_THREADS)
    (UInt64.ofNat (2 ^ 64 - 1)) { out with patchSize := request.size }
  unfold WritesStopped patchStopped
  simp only
  split_ifs with hlist hthread hread hexpected hwrite hback hsame
  · exact Or.inr ⟨rfl, fun h => hlist h.1⟩
  · exact Or.inr ⟨rfl, fun h => h.2.1 (hbusy.1 hthread)⟩
  · exact Or.inr ⟨rfl, fun h => hread h.2.2.1⟩
  · refine Or.inr ⟨rfl, fun h => ?_⟩
    rw [Bool.and_eq_true, Bool.not_eq_true', bne_iff_ne] at hexpected
    rcases h.2.2.2.1 with hskip | heq
    · rw [hskip] at hexpected
      cases hexpected.1
    · exact hexpected.2 heq
  · exact Or.inr ⟨rfl, fun h => hwrite h.2.2.2.2⟩
  all_goals
    refine Or.inl ⟨rfl, not_not.1 hlist, fun h => hthread (hbusy.2 h), not_not.1 hread, ?_,
      not_not.1 hwrite⟩
    rw [Bool.and_eq_true, Bool.not_eq_true', bne_iff_ne, not_and_or, not_not,
      Bool.not_eq_false] at hexpected
    exact hexpected

/-- Success is only reported with the patch read back. -/
theorem patchStopped_ok (out : PatchCodeResult) :
    (patchStopped outcomes request out).1 = 0 →
      (patchStopped outcomes request out).2.1.status = .ok →
        request.patch = some outcomes.newMemory := by
  have hbusy := inspectThreads_status request
    (outcomes.threads.take PATCH_CODE_MAX_THREADS) (UInt64.ofNat (2 ^ 64 - 1))
    { out with patchSize := request.size }
  unfold patchStopped
  simp only
  split_ifs with hlist hthread hread hexpected hwrite hback hsame
  · exact fun hrc => absurd hrc hlist
  · intro _ hstatus
    cases (hbusy hthread).symm.trans hstatus
  · exact fun hrc => absurd hrc hread
  · intro _ hstatus
    cases hstatus
  · exact fun hrc => absurd hrc hwrite
  · exact fun hrc => absurd hrc hback
  · intro _ hstatus
    cases hstatus
  · intro _ _
    exact (not_not.1 hsame).symm

theorem patchCleanup_cases {paused : Bool} {calls : PatchCalls} {effects : List PatchEffect}
    (h : patchCleanup outcomes fuel paused calls = some effects) :
    effects = [.resumed, .closed] ∨ effects = [.closed] := by
  unfold patchCleanup at h
  by_cases hpaused : paused = true
  · rw [if_pos hpaused] at h
    obtain ⟨n, -, rfl⟩ := Option.map_eq_some_iff.1 h
    by_cases hresumed : outcomes.continueEvent = 0
    · exact Or.inl (if_pos hresumed)
    · exact Or.inr (if_neg hresumed)
  · rw [if_neg hpaused] at h
    exact Or.inr (Option.some.inj h).symm

theorem pauseProcess_cases {calls calls' : PatchCalls} {effects effects' : List PatchEffect}
    {rc : UInt32} (h : pauseProcess codes outcomes fuel calls effects = some (rc, calls', effects')) :
    effects' = effects ++ [.stopped] ∨ effects' = effects ∧ rc ≠ 0 := by
  unfold pauseProcess at h
  split_ifs at h with hbreak
  · obtain ⟨rfl, -, rfl⟩ : _ ∧ _ ∧ _ := by simpa using h
    exact Or.inr ⟨rfl, hbreak⟩
  · obtain ⟨⟨rc', calls''⟩, -, heq⟩ := Option.map_eq_some_iff.1 h
    simp only [Prod.mk.injEq] at heq
    exact Or.inl heq.2.2.symm

theorem patchProcess_error {pid : UInt64} {rc : UInt32}
    (h : patchProcess codes outcomes pid = .error rc) : rc ≠ 0 := by
  unfold patchProcess at h
  generalize (if pid = 0 then outcomes.application else (0, pid)) = found at h
  obtain ⟨rc', pid'⟩ := found
  simp only at h
  split_ifs at h with hfails hzero
  · cases h
    exact codes.notFound_ne
  · cases h
    exact hzero

/-- A run either never comes to the threads, and fails, or the process is stopped and `cleanup`
    follows what is done to it. -/
theorem patchAttached_cases {out : PatchCodeResult}
    (h : patchAttached codes outcomes fuel request out = some run) :
    (run.rc ≠ 0 ∧ (run.effects = [.attached, .closed] ∨
      run.effects = [.attached, .stopped, .closed])) ∨
    (∃ calls, ProcessStops codes outcomes fuel calls) ∧
      ∃ cleanup, (cleanup = [.resumed, .closed] ∨ cleanup = [.closed]) ∧
        run = ⟨(patchStopped outcomes request out).1, (patchStopped outcomes request out).2.1,
          [.attached, .stopped] ++ (patchStopped outcomes request out).2.2 ++ cleanup⟩ := by
  obtain ⟨⟨rc, drained⟩, hdrain, h⟩ := Option.bind_eq_some_iff.1 h
  by_cases hrc : rc ≠ 0
  · simp only [if_pos hrc] at h
    cases h
    exact Or.inl ⟨hrc, Or.inl rfl⟩
  simp only [if_neg hrc] at h
  obtain ⟨⟨rc', calls, effects⟩, hpause, h⟩ := Option.bind_eq_some_iff.1 h
  by_cases hrc' : rc' ≠ 0
  · simp only [if_pos hrc'] at h
    cases h
    refine Or.inl ⟨hrc', ?_⟩
    rcases pauseProcess_cases hpause with rfl | ⟨rfl, -⟩
    · exact Or.inr rfl
    · exact Or.inl rfl
  simp only [if_neg hrc'] at h
  obtain ⟨cleanup, hcleanup, h⟩ := Option.bind_eq_some_iff.1 h
  cases h
  obtain rfl : effects = [.attached, .stopped] := by
    rcases pauseProcess_cases hpause with rfl | ⟨-, hne⟩
    · rfl
    · exact absurd hne hrc'
  rw [not_not] at hrc hrc'
  subst hrc hrc'
  exact Or.inr ⟨⟨calls, drained, hdrain, hpause, by rw [hcleanup]; rfl⟩, cleanup,
    patchCleanup_cases hcleanup, rfl⟩

theorem patchCodeRun_cases (h : patchCodeRun codes outcomes fuel request = some run) :
    (run.rc ≠ 0 ∧ run.effects = []) ∨
    Attaches codes outcomes request ∧
      ∃ out, patchAttached codes outcomes fuel request out = some run := by
  unfold patchCodeRun at h
  by_cases haccepts : acceptsRequest request = true
  swap
  · rw [if_pos (by simpa using haccepts)] at h
    cases h
    exact Or.inl ⟨codes.badInput_ne, rfl⟩
  rw [if_neg (by simpa using haccepts)] at h
  by_cases hactive : outcomes.sessionActive = true
  · rw [if_pos hactive] at h
    cases h
    exact Or.inl ⟨codes.owned_ne, rfl⟩
  rw [if_neg hactive] at h
  cases hpid : patchProcess codes outcomes request.pid with
  | error rc =>
    rw [hpid] at h
    cases h
    exact Or.inl ⟨patchProcess_error hpid, rfl⟩
  | ok pid =>
    rw [hpid] at h
    by_cases hattach : outcomes.debugActiveProcess ≠ 0
    · simp only [if_pos hattach] at h
      cases h
      exact Or.inl ⟨hattach, rfl⟩
    · simp only [if_neg hattach] at h
      exact Or.inr ⟨⟨haccepts, by simpa using hactive, ⟨pid, hpid⟩, not_not.1 hattach⟩, _, h⟩

/-- Where the process gets stopped there is a run. -/
theorem exists_run (hattaches : Attaches codes outcomes request)
    (hstops : ∃ calls, ProcessStops codes outcomes fuel calls) :
    ∃ out cleanup, patchCodeRun codes outcomes fuel request =
      some ⟨(patchStopped outcomes request out).1, (patchStopped outcomes request out).2.1,
        [.attached, .stopped] ++ (patchStopped outcomes request out).2.2 ++ cleanup⟩ := by
  obtain ⟨haccepts, hactive, ⟨pid, hpid⟩, hattach⟩ := hattaches
  obtain ⟨calls, drained, hdrain, hpause, hcleanup⟩ := hstops
  obtain ⟨cleanup, hcleanup⟩ := Option.isSome_iff_exists.1 hcleanup
  refine ⟨{ PatchCodeResult.empty with dmntClosed := closesDmnt outcomes pid }, cleanup, ?_⟩
  unfold patchCodeRun patchAttached
  simp only [haccepts, hactive, hpid, hattach, Bool.not_true, Bool.false_eq_true, if_false,
    ne_eq, not_true_eq_false, hdrain, hpause, hcleanup, Option.bind_eq_bind, Option.bind_some]

/-- Whatever stops the process is followed by the closing of the handle. -/
theorem closed_behind (effects before after : List PatchEffect)
    (hsplit : effects ++ [.closed] = before ++ .stopped :: after) :
    .resumed ∈ after ∨ .closed ∈ after := by
  right
  have hlast := congrArg List.getLast? hsplit
  rw [List.getLast?_append, List.getLast?_append] at hlast
  cases after with
  | nil => simp at hlast
  | cons effect after =>
    refine List.mem_of_getLast? ?_
    rw [List.getLast?_cons_cons] at hlast
    simpa using hlast.symm

end Law

/-- The transaction keeps its promises exactly when a thread in the range is noticed, if there is
    one and nothing fails: one that is stored, with a context that can be read and a range that does
    not wrap in front of it. -/
theorem patch_code_safe_iff (codes : PatchResultCodes) (outcomes : PatchOutcomes) (fuel : Nat)
    (request : PatchCodeRequest) (hcheck : request.checkPc = true) :
    (∀ run, patchCodeRun codes outcomes fuel request = some run →
      PatchLaw outcomes request run) ↔
    (NothingFails codes outcomes fuel request →
      (∃ thread ∈ outcomes.threads, InPatchRange request thread.pc) → Noticed outcomes request) := by
  constructor
  · rintro h ⟨hattaches, hstops, hlist, hread, hexpected, hwrite⟩ ⟨thread, hthread, hrange⟩
    by_contra hnoticed
    obtain ⟨out, cleanup, hrun⟩ := exists_run hattaches hstops
    have hwritten : WritesStopped outcomes request := ⟨hlist, hnoticed, hread, hexpected, hwrite⟩
    rcases patchStopped_effects outcomes hcheck out with ⟨heffects, -⟩ | ⟨-, hnot⟩
    · refine ((h _ hrun).1 request.address (request.patch.getD []) ?_).1 thread hthread hrange
      simp [heffects]
    · exact hnot hwritten
  · intro h run hrun
    rcases patchCodeRun_cases hrun with ⟨hrc, heffects⟩ | ⟨hattaches, out, hattached⟩
    · refine ⟨?_, ?_, fun hzero => absurd hzero hrc⟩
      · simp [heffects]
      · intro before after hsplit
        simp [heffects] at hsplit
    rcases patchAttached_cases hattached with ⟨hrc, heffects⟩ | ⟨hstops, cleanup, hcleanup, rfl⟩
    · refine ⟨?_, ?_, fun hzero => absurd hzero hrc⟩
      · intro address bytes hmem
        rcases heffects with heq | heq
        all_goals simp [heq] at hmem
      · intro before after hsplit
        rcases heffects with heq | heq
        · exact closed_behind [.attached] before after (heq.symm.trans hsplit)
        · exact closed_behind [.attached, .stopped] before after (heq.symm.trans hsplit)
    · refine ⟨?_, ?_, patchStopped_ok out⟩
      · intro address bytes hmem
        rcases patchStopped_effects outcomes hcheck out with
          ⟨-, hlist, hnoticed, hread, hexpected, hwrite⟩ | ⟨hnone, -⟩
        · refine ⟨fun thread hthread hrange => hnoticed ?_, hexpected⟩
          exact h ⟨hattaches, hstops, hlist, hread, hexpected, hwrite⟩ ⟨thread, hthread, hrange⟩
        · rw [hnone] at hmem
          rcases hcleanup with rfl | rfl
          all_goals simp at hmem
      · intro before after hsplit
        rcases hcleanup with rfl | rfl
        · refine closed_behind ([.attached, .stopped] ++
            (patchStopped outcomes request out).2.2 ++ [.resumed]) before after ?_
          rw [← hsplit, List.append_assoc _ [_] [_]]
          rfl
        · exact closed_behind _ before after hsplit

/-! ### A thread that is overlooked -/

def exampleCodes : PatchResultCodes where
  badInput := 0x559
  notFound := 0x1159
  ownedByAnotherProcess := 0xF201
  timedOut := 0xEA01
  exited := 0x54359
  badInput_ne := by decide
  notFound_ne := by decide
  owned_ne := by decide
  timedOut_ne := by decide
  exited_ne := by decide

/-- Nothing fails but perhaps the context of the only thread. -/
def oneThread (pc : UInt64) (context : UInt32) : PatchOutcomes where
  sessionActive := false
  application := (0, 0x51)
  applicationAgain := (0, 0x51)
  dmntInitialize := 0
  dmntHasProcess := (0, false)
  debugActiveProcess := 0
  wait n := if n = 1 then 0xEA01 else 0
  event n := if n = 0 then some .createProcess else none
  tick _ := 0
  tickFreq := 19200000
  breakProcess := 0
  threadList := 0
  threads := [{ id := 1, pc, context }]
  memory := [0x1F, 0x20, 0x03, 0xD5]
  readOld := 0
  write := 0
  readNew := 0
  newMemory := [0xC0, 0x03, 0x5F, 0xD6]
  continueEvent := 0

/-- A return for a nop at 0x8000. -/
def nopRequest : PatchCodeRequest where
  address := 0x8000
  expected := some [0x1F, 0x20, 0x03, 0xD5]
  skipVerify := false
  patch := some [0xC0, 0x03, 0x5F, 0xD6]
  checkPc := true
  pid := 0

theorem patch_code_safe_iff_elsewhere :
    ∃ run, patchCodeRun exampleCodes (oneThread 0x9000 0) 4 nopRequest = some run ∧
      PatchLaw (oneThread 0x9000 0) nopRequest run := by
  have hsome : (patchCodeRun exampleCodes (oneThread 0x9000 0) 4 nopRequest).isSome = true := by
    decide
  obtain ⟨run, hrun⟩ := Option.isSome_iff_exists.1 hsome
  refine ⟨run, hrun, ?_⟩
  refine (patch_code_safe_iff exampleCodes (oneThread 0x9000 0) 4 nopRequest rfl).2 ?_ run hrun
  rintro - ⟨thread, hthread, hrange⟩
  obtain rfl := List.mem_singleton.1 hthread
  exact absurd hrange (by unfold InPatchRange; decide)

/-- A thread at the patched instruction with a context that cannot be read. -/
theorem unreadable_thread_overlooked :
    ¬ ∀ run, patchCodeRun exampleCodes (oneThread 0x8000 0xE401) 4 nopRequest = some run →
      PatchLaw (oneThread 0x8000 0xE401) nopRequest run := by
  intro h
  have hsome : (patchCodeRun exampleCodes (oneThread 0x8000 0xE401) 4 nopRequest).any
      (fun run => run.effects.contains (.wrote 0x8000 [0xC0, 0x03, 0x5F, 0xD6])) = true := by
    decide
  cases hrun : patchCodeRun exampleCodes (oneThread 0x8000 0xE401) 4 nopRequest with
  | none =>
    rw [hrun] at hsome
    cases hsome
  | some run =>
    rw [hrun] at hsome
    have hthread := ((h run hrun).1 0x8000 [0xC0, 0x03, 0x5F, 0xD6]
      (List.contains_iff_mem.1 hsome)).1 { id := 1, pc := 0x8000, context := 0xE401 }
        List.mem_cons_self
    exact hthread (by unfold InPatchRange; decide)

end SysAgent
