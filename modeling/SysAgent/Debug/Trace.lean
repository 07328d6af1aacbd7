import Mathlib
import SysAgent.Lib.Runs

set_option autoImplicit false

/-! # Counting trace hits (`debug_trace.c`, `debug_multitrace.c`, `debug_hwbp.c`)

The workers of `debug trace` and `debug multitrace` are one loop over a family of debugged
processes, one or two of them. A debug handle is a queue: threads append events at any time,
`svcGetDebugEvent` takes the first, and `svcContinueDebugEvent` is refused while the queue is not empty.
`debugHwBpStepOverInstruction` continues one thread from inside the loop that drains the queue and
reads the same queue until the thread's step event comes.

The ghosts `delivered` and `counted` are the breakpoint hits the threads have appended and those the
worker has recorded. A hit is lost when the step loop reads it. -/

namespace SysAgent

/-- A hardware-instruction breakpoint of a thread at an address. -/
structure BreakpointHit where
  thread : UInt64
  address : UInt64
  deriving DecidableEq

/-- A step event looks like a hit to the worker. -/
inductive DebugEvent
  | exitProcess
  | hit (hit : BreakpointHit)
  | stepped (hit : BreakpointHit)
  | other
  deriving DecidableEq

/-- How a session ends. -/
inductive TraceEnd
  | stopped
  | durationReached
  | hitsReached
  | exitProcess
  | stepTimedOut
  | stepProcessExit
  /-- `svcContinueDebugEvent` is refused in the step and in the loop. -/
  | stepRefused
  | continueRefused
  deriving DecidableEq

inductive TracePc (ι : Type)
  | wait
  | drain (process : ι)
  | stepContinue (process : ι) (thread : UInt64)
  | stepWait (process : ι) (thread : UInt64)
  | continueAll (process : ι)
  | done (reason : TraceEnd)

structure TraceSession (ι : Type) where
  queue : ι → List DebugEvent
  pc : TracePc ι
  hitCount : UInt64
  targetHits : Nat → UInt32
  ignoredHits : UInt32
  delivered : List (ι × BreakpointHit)
  counted : List (ι × BreakpointHit)

/-- The targets of a worker and its lookup of them. -/
structure TraceWorker (ι : Type) where
  targets : List (ι × UInt64)
  findTarget : ι → UInt64 → Option Nat
  maxHits : UInt32
  finds : ∀ process address i,
    findTarget process address = some i ↔ targets[i]? = some (process, address)

/-- What a step of the worker meets: a stop request, the duration, the handle that is signalled,
    and the end of the time for a step. -/
structure TraceAnswers (ι : Type) where
  stop : Bool
  expired : Bool
  signalled : Option ι
  stepExpired : Bool

inductive TraceEvent (ι : Type)
  | arrive (process : ι) (event : DebugEvent)
  | advance (answers : TraceAnswers ι)

/-! ## The two workers -/

/-- `addresses` of a configuration that `debugTraceConfigIsValid` accepts. -/
structure DebugTraceConfig where
  addresses : List UInt64
  maxHits : UInt32
  distinct : addresses.Nodup

/-- The targets that `debugMultiTraceStart` accepts. -/
structure DebugMultiTraceConfig where
  addresses : List UInt64
  targetProcesses : List (Fin 2)
  maxHits : UInt32
  lengths : targetProcesses.length = addresses.length
  distinct : addresses.Nodup

def debugTraceFindTarget (addresses : List UInt64) (address : UInt64) : Option Nat :=
  addresses.findIdx? (· == address)

/-- The lookup in the loop of `multiTraceThreadMain`: the first target with the address, if it
    belongs to the process. -/
def multiTraceFindTarget (addresses : List UInt64) (targetProcesses : List (Fin 2))
    (process : Fin 2) (address : UInt64) : Option Nat :=
  (addresses.findIdx? (· == address)).filter fun i => targetProcesses[i]? == some process

theorem findIdx?_eq_some_iff_getElem? {addresses : List UInt64} (hdistinct : addresses.Nodup)
    (address : UInt64) (i : Nat) :
    addresses.findIdx? (· == address) = some i ↔ addresses[i]? = some address := by
  rw [List.findIdx?_eq_some_iff_getElem]
  constructor
  · rintro ⟨hlt, hfound, -⟩
    rw [List.getElem?_eq_getElem hlt]
    simpa using hfound
  · intro hget
    obtain ⟨hlt, hvalue⟩ := List.getElem?_eq_some_iff.1 hget
    refine ⟨hlt, by simpa using hvalue, fun j hj heq => ?_⟩
    -- an earlier entry with the address would be a duplicate
    have hsame : addresses[j] = addresses[i] := by
      rw [hvalue]
      simpa using heq
    have hindex := (List.Nodup.getElem_inj_iff hdistinct).1 hsame
    omega

def traceThreadMain (config : DebugTraceConfig) : TraceWorker Unit where
  targets := config.addresses.map fun address => ((), address)
  findTarget := fun _ address => debugTraceFindTarget config.addresses address
  maxHits := config.maxHits
  finds := by
    intro process address i
    unfold debugTraceFindTarget
    rw [findIdx?_eq_some_iff_getElem? config.distinct, List.getElem?_map]
    simp

def multiTraceThreadMain (config : DebugMultiTraceConfig) : TraceWorker (Fin 2) where
  targets := config.targetProcesses.zip config.addresses
  findTarget := multiTraceFindTarget config.addresses config.targetProcesses
  maxHits := config.maxHits
  finds := by
    intro process address i
    unfold multiTraceFindTarget
    rw [Option.filter_eq_some_iff, findIdx?_eq_some_iff_getElem? config.distinct,
      List.getElem?_zip_eq_some]
    simp [and_comm]

/-! ## The loop -/

namespace TraceSession

variable {ι : Type} [DecidableEq ι] (worker : TraceWorker ι)

def initial : TraceSession ι where
  queue := fun _ => []
  pc := .wait
  hitCount := 0
  targetHits := fun _ => 0
  ignoredHits := 0
  delivered := []
  counted := []

def recordIgnoredHit (process : ι) (hit : BreakpointHit) (s : TraceSession ι) : TraceSession ι :=
  { s with ignoredHits := s.ignoredHits + 1, counted := s.counted ++ [(process, hit)] }

def recordEvent (process : ι) (hit : BreakpointHit) (targetIndex : Nat) (s : TraceSession ι) :
    TraceSession ι :=
  { s with
    hitCount := s.hitCount + 1
    targetHits := Function.update s.targetHits targetIndex (s.targetHits targetIndex + 1)
    counted := s.counted ++ [(process, hit)] }

def debugTraceHitLimitReached (hitCount : UInt64) (maxHits : UInt32) : Bool :=
  maxHits != 0 && decide (maxHits.toUInt64 ≤ hitCount)

/-- A hardware-instruction breakpoint read by the loop. -/
def handleBreakpoint (process : ι) (hit : BreakpointHit) (s : TraceSession ι) : TraceSession ι :=
  match worker.findTarget process hit.address with
  | none => s.recordIgnoredHit process hit
  | some targetIndex =>
    let s := s.recordEvent process hit targetIndex
    if debugTraceHitLimitReached s.hitCount worker.maxHits then { s with pc := .done .hitsReached }
    else { s with pc := .stepContinue process hit.thread }

/-- `svcGetDebugEvent` takes the first event of the queue. -/
def take (process : ι) (rest : List DebugEvent) (s : TraceSession ι) : TraceSession ι :=
  { s with queue := Function.update s.queue process rest }

/-- The inner loop: handle one event, or leave when there is none. -/
def drain (process : ι) (s : TraceSession ι) : TraceSession ι :=
  match s.queue process with
  | [] => { s with pc := .continueAll process }
  | event :: rest =>
    let s := s.take process rest
    match event with
    | .exitProcess => { s with pc := .done .exitProcess }
    | .hit hit => s.handleBreakpoint worker process hit
    | .stepped hit => s.handleBreakpoint worker process hit
    | .other => s

/-- One event of the step loop, or the wait for one. -/
def stepWait (process : ι) (thread : UInt64) (stepExpired : Bool) (s : TraceSession ι) :
    TraceSession ι :=
  match s.queue process with
  | [] => if stepExpired then { s with pc := .done .stepTimedOut } else s
  | event :: rest =>
    let s := s.take process rest
    match event with
    | .exitProcess => { s with pc := .done .stepProcessExit }
    | .hit hit => if hit.thread = thread then { s with pc := .drain process } else s
    | .stepped hit => if hit.thread = thread then { s with pc := .drain process } else s
    | .other => s

def advance (answers : TraceAnswers ι) (s : TraceSession ι) : TraceSession ι :=
  match s.pc with
  | .wait =>
    if answers.stop then { s with pc := .done .stopped }
    else if answers.expired then { s with pc := .done .durationReached }
    else
      match answers.signalled with
      | none => s
      | some process => { s with pc := .drain process }
  | .drain process => s.drain worker process
  | .stepContinue process thread =>
    if s.queue process ≠ [] then { s with pc := .done .stepRefused }
    else { s with pc := .stepWait process thread }
  | .stepWait process thread => s.stepWait process thread answers.stepExpired
  | .continueAll process =>
    if s.queue process ≠ [] then { s with pc := .done .continueRefused }
    else { s with pc := .wait }
  | .done _ => s

def stepEvents (events : List DebugEvent) : List BreakpointHit :=
  events.filterMap fun event =>
    match event with
    | .stepped hit => some hit
    | _ => none

/-- A thread appends an event; a step event comes once, from the thread that is being stepped. -/
def arrive (process : ι) (event : DebugEvent) (s : TraceSession ι) : TraceSession ι :=
  let appended := { s with
    queue := Function.update s.queue process (s.queue process ++ [event]) }
  match s.pc, event with
  | .done _, _ => s
  | _, .hit hit => { appended with delivered := s.delivered ++ [(process, hit)] }
  | .stepWait stepping thread, .stepped hit =>
    if stepping = process ∧ hit.thread = thread ∧ stepEvents (s.queue process) = [] then
      appended
    else s
  | _, .stepped _ => s
  | _, .exitProcess => appended
  | _, .other => appended

def step (s : TraceSession ι) : TraceEvent ι → TraceSession ι
  | .arrive process event => s.arrive process event
  | .advance answers => s.advance worker answers

/-- The hits of a process, in order. -/
def ofProcess (process : ι) (hits : List (ι × BreakpointHit)) : List BreakpointHit :=
  (hits.filter fun entry => entry.1 = process).map Prod.snd

def queuedHits (events : List DebugEvent) : List BreakpointHit :=
  events.filterMap fun event =>
    match event with
    | .hit hit => some hit
    | _ => none

/-- Every delivered hit is counted once or still queued, the counters are the numbers of counted
    hits, and no session has ended because a continue was refused. -/
structure HitsCounted (s : TraceSession ι) : Prop where
  accounted : ∀ process, ofProcess process s.delivered =
    ofProcess process s.counted ++ queuedHits (s.queue process)
  hitCount : s.hitCount = UInt64.ofNat
    (s.counted.filter fun entry => (entry.1, entry.2.address) ∈ worker.targets).length
  targetHits : ∀ i < worker.targets.length, s.targetHits i = UInt32.ofNat
    (s.counted.filter fun entry =>
      worker.targets[i]? = some (entry.1, entry.2.address)).length
  ignoredHits : s.ignoredHits = UInt32.ofNat
    (s.counted.filter fun entry => (entry.1, entry.2.address) ∉ worker.targets).length
  noError : ∀ reason, s.pc = .done reason → reason ≠ .stepRefused ∧ reason ≠ .continueRefused

/-- A continue finds the queue empty, and the step loop does not read a hit. -/
def StepsAlone (s : TraceSession ι) : TraceEvent ι → Prop
  | .arrive _ _ => True
  | .advance _ =>
    match s.pc with
    | .stepContinue process _ => s.queue process = []
    | .continueAll process => s.queue process = []
    | .stepWait process _ => ∀ hit rest, s.queue process ≠ .hit hit :: rest
    | _ => True

/-! ## The invariant -/

/-- Where step events can be: in the queue of the process that is being stepped, at most one, of
    the stepped thread. -/
def StepEventsOnly (s : TraceSession ι) (process : ι) : TracePc ι → Prop
  | .done _ => True
  | .stepWait stepping thread =>
    if process = stepping then
      (stepEvents (s.queue process)).length ≤ 1 ∧
        ∀ hit ∈ stepEvents (s.queue process), hit.thread = thread
    else stepEvents (s.queue process) = []
  | _ => stepEvents (s.queue process) = []

structure TraceInv (s : TraceSession ι) : Prop where
  counted : s.HitsCounted worker
  steps : ∀ process, s.StepEventsOnly process s.pc

theorem ofProcess_append_same (process : ι) (hits : List (ι × BreakpointHit))
    (hit : BreakpointHit) :
    ofProcess process (hits ++ [(process, hit)]) = ofProcess process hits ++ [hit] := by
  simp [ofProcess, List.filter_append]

theorem ofProcess_append_other {process other : ι} (h : other ≠ process)
    (hits : List (ι × BreakpointHit)) (hit : BreakpointHit) :
    ofProcess process (hits ++ [(other, hit)]) = ofProcess process hits := by
  simp [ofProcess, List.filter_append, h]

theorem queuedHits_append (events : List DebugEvent) (event : DebugEvent) :
    queuedHits (events ++ [event]) = queuedHits events ++ queuedHits [event] := by
  simp [queuedHits]

theorem stepEvents_append (events : List DebugEvent) (event : DebugEvent) :
    stepEvents (events ++ [event]) = stepEvents events ++ stepEvents [event] := by
  simp [stepEvents]

theorem ofNat_succ_64 (n : Nat) : UInt64.ofNat (n + 1) = UInt64.ofNat n + 1 := by
  rw [UInt64.ofNat_add]
  rfl

theorem ofNat_succ_32 (n : Nat) : UInt32.ofNat (n + 1) = UInt32.ofNat n + 1 := by
  rw [UInt32.ofNat_add]
  rfl

/-- A filter of a list with one more entry. -/
theorem length_filter_append {α : Type} (p : α → Bool) (entries : List α) (entry : α) :
    ((entries ++ [entry]).filter p).length =
      (entries.filter p).length + if p entry = true then 1 else 0 := by
  rw [List.filter_append, List.length_append]
  by_cases h : p entry = true
  · simp [h]
  · simp [h]

namespace HitsCounted

variable {worker} {s : TraceSession ι}

/-- The counters after the record of a hit at no target. -/
theorem recordIgnored (inv : s.HitsCounted worker) {process : ι} {hit : BreakpointHit}
    {rest : List DebugEvent} (hqueue : s.queue process = .hit hit :: rest)
    (hbusy : ∀ reason, s.pc ≠ .done reason)
    (hnone : worker.findTarget process hit.address = none) :
    ((s.take process rest).recordIgnoredHit process hit).HitsCounted worker := by
  have hout : (process, hit.address) ∉ worker.targets := by
    intro hmem
    obtain ⟨i, hget⟩ := List.mem_iff_getElem?.1 hmem
    rw [(worker.finds process hit.address i).2 hget] at hnone
    exact absurd hnone (by simp)
  constructor
  · intro other
    have hother := inv.accounted other
    by_cases h : other = process
    · subst h
      rw [hqueue] at hother
      simpa [recordIgnoredHit, take, ofProcess_append_same, queuedHits] using hother
    · simpa [recordIgnoredHit, take, ofProcess_append_other (Ne.symm h), h] using hother
  · have hcount := inv.hitCount
    simp only [recordIgnoredHit, take, length_filter_append]
    rw [if_neg (by simpa using hout)]
    exact hcount
  · intro i hi
    have hcount := inv.targetHits i hi
    simp only [recordIgnoredHit, take, length_filter_append]
    rw [if_neg]
    · exact hcount
    · intro hget
      simp only [decide_eq_true_eq] at hget
      exact hout (List.mem_of_getElem? hget)
  · have hcount := inv.ignoredHits
    simp only [recordIgnoredHit, take, length_filter_append]
    rw [if_pos (by simpa using hout), ofNat_succ_32, hcount]
  · intro reason hpc
    exact absurd hpc (hbusy reason)

/-- The counters after the record of a hit at a target. -/
theorem recordTarget (inv : s.HitsCounted worker) {process : ι} {hit : BreakpointHit}
    {rest : List DebugEvent} {targetIndex : Nat} (hqueue : s.queue process = .hit hit :: rest)
    (hbusy : ∀ reason, s.pc ≠ .done reason)
    (hsome : worker.findTarget process hit.address = some targetIndex) :
    ((s.take process rest).recordEvent process hit targetIndex).HitsCounted worker := by
  have hget := (worker.finds process hit.address targetIndex).1 hsome
  have hmem : (process, hit.address) ∈ worker.targets := List.mem_of_getElem? hget
  constructor
  · intro other
    have hother := inv.accounted other
    by_cases h : other = process
    · subst h
      rw [hqueue] at hother
      simpa [recordEvent, take, ofProcess_append_same, queuedHits] using hother
    · simpa [recordEvent, take, ofProcess_append_other (Ne.symm h), h] using hother
  · have hcount := inv.hitCount
    simp only [recordEvent, take, length_filter_append]
    rw [if_pos (by simpa using hmem), ofNat_succ_64, hcount]
  · intro i hi
    have hcount := inv.targetHits i hi
    simp only [recordEvent, take, length_filter_append]
    by_cases h : i = targetIndex
    · subst h
      rw [Function.update_self, if_pos (by simpa using hget), ofNat_succ_32, hcount]
    · rw [Function.update_of_ne h, if_neg, hcount]
      · rfl
      · intro hother
        simp only [decide_eq_true_eq] at hother
        have hfound := (worker.finds process hit.address i).2 hother
        rw [hsome] at hfound
        exact h (Option.some.inj hfound).symm
  · have hcount := inv.ignoredHits
    simp only [recordEvent, take, length_filter_append]
    rw [if_neg (by simpa using hmem)]
    exact hcount
  · intro reason hpc
    exact absurd hpc (hbusy reason)

/-- A change that takes or adds nothing but events that are no hits. -/
theorem withQueue (inv : s.HitsCounted worker) {process : ι} {events : List DebugEvent}
    {pc : TracePc ι} (hevents : queuedHits events = queuedHits (s.queue process))
    (hpc : ∀ reason, pc = .done reason → reason ≠ .stepRefused ∧ reason ≠ .continueRefused) :
    ({ s with queue := Function.update s.queue process events, pc := pc }).HitsCounted worker where
  accounted := by
    intro other
    have hother := inv.accounted other
    by_cases h : other = process
    · subst h
      simpa [hevents] using hother
    · simpa [h] using hother
  hitCount := inv.hitCount
  targetHits := inv.targetHits
  ignoredHits := inv.ignoredHits
  noError := hpc

theorem withPc (inv : s.HitsCounted worker) {pc : TracePc ι}
    (hpc : ∀ reason, pc = .done reason → reason ≠ .stepRefused ∧ reason ≠ .continueRefused) :
    ({ s with pc := pc }).HitsCounted worker where
  accounted := inv.accounted
  hitCount := inv.hitCount
  targetHits := inv.targetHits
  ignoredHits := inv.ignoredHits
  noError := hpc

/-- A hit is delivered. -/
theorem deliver (inv : s.HitsCounted worker) (process : ι) (hit : BreakpointHit) :
    ({ s with
      queue := Function.update s.queue process (s.queue process ++ [DebugEvent.hit hit])
      delivered := s.delivered ++ [(process, hit)] }).HitsCounted worker where
  accounted := by
    intro other
    have hother := inv.accounted other
    by_cases h : other = process
    · subst h
      simp only [ofProcess_append_same, Function.update_self, queuedHits_append]
      rw [hother, List.append_assoc]
      rfl
    · simpa [ofProcess_append_other (Ne.symm h), h] using hother
  hitCount := inv.hitCount
  targetHits := inv.targetHits
  ignoredHits := inv.ignoredHits
  noError := inv.noError

end HitsCounted

/-! ## Steps -/

variable {worker} {s : TraceSession ι}

theorem traceInv_initial : TraceInv worker (initial : TraceSession ι) where
  counted := by
    constructor <;> simp [initial, ofProcess, queuedHits]
  steps := fun _ => rfl

/-- Appending an event that is no step event keeps the step events where they are. -/
theorem steps_append {process : ι} (event : DebugEvent) (hevent : stepEvents [event] = [])
    {t : TraceSession ι}
    (hqueue : t.queue = Function.update s.queue process (s.queue process ++ [event]))
    {other : ι} {pc : TracePc ι} (hsteps : s.StepEventsOnly other pc) :
    t.StepEventsOnly other pc := by
  have hsame : stepEvents (t.queue other) = stepEvents (s.queue other) := by
    rw [hqueue]
    by_cases h : other = process
    · subst h
      rw [Function.update_self, stepEvents_append, hevent, List.append_nil]
    · rw [Function.update_of_ne h]
  unfold StepEventsOnly at hsteps ⊢
  rw [hsame]
  exact hsteps

theorem traceInv_arrive (inv : TraceInv worker s) (process : ι) (event : DebugEvent) :
    TraceInv worker (s.arrive process event) := by
  by_cases hdone : ∃ reason, s.pc = .done reason
  · obtain ⟨reason, hpc⟩ := hdone
    have hsame : s.arrive process event = s := by
      unfold arrive
      simp only [hpc]
    rw [hsame]
    exact inv
  · have hbusy : ∀ reason, s.pc ≠ .done reason := fun reason hpc => hdone ⟨reason, hpc⟩
    cases event with
    | hit hit =>
      have harrive : s.arrive process (.hit hit) = { s with
          queue := Function.update s.queue process (s.queue process ++ [DebugEvent.hit hit])
          delivered := s.delivered ++ [(process, hit)] } := by
        unfold arrive
        cases hpc : s.pc <;> first
          | rfl
          | exact absurd hpc (hbusy _)
      rw [harrive]
      exact ⟨inv.counted.deliver process hit, fun other =>
        steps_append (.hit hit) rfl rfl (inv.steps other)⟩
    | exitProcess =>
      have harrive : s.arrive process .exitProcess = { s with
          queue := Function.update s.queue process
            (s.queue process ++ [DebugEvent.exitProcess]) } := by
        unfold arrive
        cases hpc : s.pc <;> first
          | rfl
          | exact absurd hpc (hbusy _)
      rw [harrive]
      refine ⟨inv.counted.withQueue ?_ inv.counted.noError, fun other =>
        steps_append .exitProcess rfl rfl (inv.steps other)⟩
      rw [queuedHits_append]
      exact List.append_nil _
    | other =>
      have harrive : s.arrive process .other = { s with
          queue := Function.update s.queue process (s.queue process ++ [DebugEvent.other]) } := by
        unfold arrive
        cases hpc : s.pc <;> first
          | rfl
          | exact absurd hpc (hbusy _)
      rw [harrive]
      refine ⟨inv.counted.withQueue ?_ inv.counted.noError, fun other =>
        steps_append .other rfl rfl (inv.steps other)⟩
      rw [queuedHits_append]
      exact List.append_nil _
    | stepped hit =>
      unfold arrive
      cases hpc : s.pc with
      | done reason => exact absurd hpc (hbusy reason)
      | stepWait stepping thread =>
        simp only
        split_ifs with hstep
        · obtain ⟨rfl, hthread, hnone⟩ := hstep
          constructor
          · have hqueued : queuedHits (s.queue stepping ++ [.stepped hit]) =
                queuedHits (s.queue stepping) := by
              rw [queuedHits_append]
              exact List.append_nil _
            have hcounted := inv.counted.withQueue hqueued inv.counted.noError
            rw [hpc] at hcounted
            exact hcounted
          · intro other
            have hother := inv.steps other
            rw [hpc] at hother
            simp only [StepEventsOnly] at hother ⊢
            by_cases h : other = stepping
            · subst h
              simp only [if_true, Function.update_self, stepEvents_append, hnone, List.nil_append]
              exact ⟨le_rfl, fun hit' hmem => by
                rw [List.mem_singleton.1 hmem]
                exact hthread⟩
            · simp only [if_neg h, Function.update_of_ne h] at hother ⊢
              exact hother
        · exact inv
      | _ => exact inv

/-- The other queues are not read. -/
theorem take_other {process other : ι} (h : other ≠ process) (rest : List DebugEvent) :
    (s.take process rest).queue other = s.queue other :=
  Function.update_of_ne h _ _

theorem take_self (process : ι) (rest : List DebugEvent) :
    (s.take process rest).queue process = rest :=
  Function.update_self _ _ _

/-- After the first event is taken there are no step events left, or as many as before. -/
theorem noSteps_take {process : ι} {event : DebugEvent} {rest : List DebugEvent}
    (hqueue : s.queue process = event :: rest)
    (hnone : ∀ other, stepEvents (s.queue other) = []) (other : ι) :
    stepEvents ((s.take process rest).queue other) = [] := by
  by_cases h : other = process
  · subst h
    have hsteps := hnone other
    rw [hqueue] at hsteps
    rw [take_self]
    unfold stepEvents at hsteps ⊢
    rw [List.filterMap_cons] at hsteps
    split at hsteps
    · exact hsteps
    · exact absurd hsteps (by simp)
  · rw [take_other h]
    exact hnone other

theorem stepEventsOnly_of_none {t : TraceSession ι} {pc : TracePc ι} {other : ι}
    (h : stepEvents (t.queue other) = []) : t.StepEventsOnly other pc := by
  cases pc with
  | done reason => trivial
  | stepWait stepping thread =>
    simp only [StepEventsOnly]
    split_ifs
    · rw [h]
      exact ⟨Nat.zero_le _, by simp⟩
    · exact h
  | _ => exact h

/-- The inner loop of the worker. -/
theorem traceInv_drain (inv : TraceInv worker s) {process : ι} (hpc : s.pc = .drain process) :
    TraceInv worker (s.drain worker process) := by
  have hnone : ∀ other, stepEvents (s.queue other) = [] := by
    intro other
    have hsteps := inv.steps other
    rw [hpc] at hsteps
    exact hsteps
  have hbusy : ∀ reason, s.pc ≠ .done reason := by
    intro reason
    rw [hpc]
    simp
  unfold drain
  rcases hqueue : s.queue process with _ | ⟨event, rest⟩
  · exact ⟨inv.counted.withPc (by simp), fun other => stepEventsOnly_of_none (hnone other)⟩
  · have htaken := noSteps_take hqueue hnone
    cases event with
    | exitProcess =>
      exact ⟨inv.counted.withQueue (by rw [hqueue]; rfl) (by simp), fun _ => trivial⟩
    | other =>
      refine ⟨inv.counted.withQueue (by rw [hqueue]; rfl) inv.counted.noError, fun other => ?_⟩
      exact stepEventsOnly_of_none (htaken other)
    | stepped hit =>
      have hsteps := hnone process
      rw [hqueue] at hsteps
      simp [stepEvents] at hsteps
    | hit hit =>
      unfold handleBreakpoint
      simp only
      cases hfind : worker.findTarget process hit.address with
      | none =>
        exact ⟨inv.counted.recordIgnored hqueue hbusy hfind, fun other =>
          stepEventsOnly_of_none (htaken other)⟩
      | some targetIndex =>
        have hcounted := inv.counted.recordTarget hqueue hbusy hfind
        simp only
        split_ifs
        · exact ⟨hcounted.withPc (by simp), fun _ => trivial⟩
        · exact ⟨hcounted.withPc (by simp), fun other => stepEventsOnly_of_none (htaken other)⟩

/-- The step loop, when it does not read a hit. -/
theorem traceInv_stepWait (inv : TraceInv worker s) {process : ι} {thread : UInt64}
    (hpc : s.pc = .stepWait process thread)
    (halone : ∀ hit rest, s.queue process ≠ .hit hit :: rest) (stepExpired : Bool) :
    TraceInv worker (s.stepWait process thread stepExpired) := by
  have hown := inv.steps process
  rw [hpc] at hown
  simp only [StepEventsOnly, if_true] at hown
  have hothers : ∀ other, other ≠ process → stepEvents (s.queue other) = [] := by
    intro other h
    have hsteps := inv.steps other
    rw [hpc] at hsteps
    simpa only [StepEventsOnly, if_neg h] using hsteps
  unfold stepWait
  rcases hqueue : s.queue process with _ | ⟨event, rest⟩
  · simp only
    split_ifs
    · exact ⟨inv.counted.withPc (by simp), fun _ => trivial⟩
    · exact inv
  · rw [hqueue] at hown
    cases event with
    | exitProcess =>
      exact ⟨inv.counted.withQueue (by rw [hqueue]; rfl) (by simp), fun _ => trivial⟩
    | hit hit => exact absurd hqueue (halone hit rest)
    | other =>
      refine ⟨inv.counted.withQueue (by rw [hqueue]; rfl) inv.counted.noError, fun other => ?_⟩
      change (s.take process rest).StepEventsOnly other s.pc
      rw [hpc]
      by_cases h : other = process
      · subst h
        simp only [StepEventsOnly, if_true, take_self]
        exact hown
      · simp only [StepEventsOnly, if_neg h, take_other h]
        exact hothers other h
    | stepped hit =>
      have hthread : hit.thread = thread := hown.2 hit (by simp [stepEvents])
      have hrest : stepEvents rest = [] := by
        have hlength : (stepEvents rest).length + 1 ≤ 1 := hown.1
        exact List.length_eq_zero_iff.1 (by omega)
      simp only [if_pos hthread]
      refine ⟨inv.counted.withQueue (by rw [hqueue]; rfl) (by simp), fun other => ?_⟩
      by_cases h : other = process
      · subst h
        exact stepEventsOnly_of_none (by rw [take_self]; exact hrest)
      · exact stepEventsOnly_of_none (by rw [take_other h]; exact hothers other h)

theorem traceInv_step (s : TraceSession ι) (event : TraceEvent ι) (inv : TraceInv worker s)
    (halone : s.StepsAlone event) : TraceInv worker (s.step worker event) := by
  cases event with
  | arrive process event => exact traceInv_arrive inv process event
  | advance answers =>
    have hsteps := inv.steps
    unfold StepsAlone at halone
    unfold step advance
    simp only
    cases hpc : s.pc <;> rw [hpc] at hsteps <;> simp only [hpc] at halone
    case wait =>
      simp only
      split_ifs
      · exact ⟨inv.counted.withPc (by simp), fun _ => trivial⟩
      · exact ⟨inv.counted.withPc (by simp), fun _ => trivial⟩
      · cases answers.signalled with
        | none => exact inv
        | some process => exact ⟨inv.counted.withPc (by simp), hsteps⟩
    case drain process => exact traceInv_drain inv hpc
    case stepContinue process thread =>
      simp only
      rw [if_neg (not_not.2 halone)]
      exact ⟨inv.counted.withPc (by simp), fun other => stepEventsOnly_of_none (hsteps other)⟩
    case stepWait process thread => exact traceInv_stepWait inv hpc halone answers.stepExpired
    case continueAll process =>
      simp only
      rw [if_neg (not_not.2 halone)]
      exact ⟨inv.counted.withPc (by simp), hsteps⟩
    case done reason => exact inv

/-- A step loop that reads a hit loses it; a continue that is refused ends the session. -/
theorem not_counted_of_not_alone (s : TraceSession ι) (event : TraceEvent ι)
    (inv : TraceInv worker s) (hcrowded : ¬ s.StepsAlone event) :
    ¬ (s.step worker event).HitsCounted worker := by
  intro counted
  cases event with
  | arrive process event => exact hcrowded trivial
  | advance answers =>
    unfold StepsAlone at hcrowded
    unfold step advance at counted
    simp only at hcrowded counted
    cases hpc : s.pc <;> simp only [hpc, not_true_eq_false] at hcrowded counted
    case stepContinue process thread =>
      rw [if_pos hcrowded] at counted
      exact (counted.noError .stepRefused rfl).1 rfl
    case continueAll process =>
      rw [if_pos hcrowded] at counted
      exact (counted.noError .continueRefused rfl).2 rfl
    case stepWait process thread =>
      simp only [not_forall, not_not] at hcrowded
      obtain ⟨hit, rest, hqueue⟩ := hcrowded
      -- the hit is neither counted nor queued any more
      have hbefore := congrArg List.length (inv.counted.accounted process)
      have hafter := congrArg List.length (counted.accounted process)
      have hstep : (s.stepWait process thread answers.stepExpired).delivered = s.delivered ∧
          (s.stepWait process thread answers.stepExpired).counted = s.counted ∧
          (s.stepWait process thread answers.stepExpired).queue process = rest := by
        unfold stepWait
        simp only [hqueue]
        split_ifs <;> exact ⟨rfl, rfl, take_self process rest⟩
      obtain ⟨hdelivered, hcounted, hrest⟩ := hstep
      rw [hdelivered, hcounted, hrest] at hafter
      rw [hqueue] at hbefore
      rw [hbefore] at hafter
      simp [queuedHits] at hafter

end TraceSession

/-! ## Trace hits -/

/-- In both workers, every hit is counted once or still queued in every state of a run, and no
    session ends because several hits were queued, exactly when every continue finds its queue
    empty and no step loop reads a hit. -/
theorem trace_hits_counted_iff (config : DebugTraceConfig) (events : List (TraceEvent Unit))
    (multiConfig : DebugMultiTraceConfig) (multiEvents : List (TraceEvent (Fin 2))) :
    (Runs.Always (TraceSession.step (traceThreadMain config))
        (TraceSession.HitsCounted (traceThreadMain config)) TraceSession.initial events ↔
      Runs.EachStep (TraceSession.step (traceThreadMain config)) TraceSession.StepsAlone
        TraceSession.initial events) ∧
      (Runs.Always (TraceSession.step (multiTraceThreadMain multiConfig))
          (TraceSession.HitsCounted (multiTraceThreadMain multiConfig)) TraceSession.initial
          multiEvents ↔
        Runs.EachStep (TraceSession.step (multiTraceThreadMain multiConfig))
          TraceSession.StepsAlone TraceSession.initial multiEvents) := by
  constructor
  · exact Runs.always_iff_eachStep_unbounded TraceSession.traceInv_step
      (fun _ inv => inv.counted) TraceSession.not_counted_of_not_alone
      TraceSession.traceInv_initial
  · exact Runs.always_iff_eachStep_unbounded TraceSession.traceInv_step
      (fun _ inv => inv.counted) TraceSession.not_counted_of_not_alone
      TraceSession.traceInv_initial

/-- Two threads hit the one target before the worker reads the queue: the step over the first hit is
    refused and the session ends with an error. -/
theorem two_queued_hits_end_session :
    ¬ TraceSession.HitsCounted (traceThreadMain ⟨[0x1000], 0, by decide⟩)
      (Runs.run (TraceSession.step (traceThreadMain ⟨[0x1000], 0, by decide⟩))
        TraceSession.initial
        [.arrive () (.hit ⟨1, 0x1000⟩), .arrive () (.hit ⟨2, 0x1000⟩),
          .advance ⟨false, false, some (), false⟩, .advance ⟨false, false, none, false⟩,
          .advance ⟨false, false, none, false⟩]) := by
  intro counted
  exact (counted.noError .stepRefused rfl).1 rfl

end SysAgent
