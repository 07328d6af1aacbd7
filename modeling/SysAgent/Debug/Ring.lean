import Mathlib
import SysAgent.Lib.Ring

set_option autoImplicit false

/-! # The rings of the debug sessions (`debug_trace.c`, `debug_multitrace.c`, `debug_watch.c`)

Each session keeps its last events in a ring under the module's mutex. `recordEvent` numbers an event
with the new hit count, counts it for its target, keeps it as the last event and writes it into the ring;
`debugTraceGetEvent` reads the ring by an index that counts from the oldest event.
`debug_watch.c` has no numbers and no targets and computes the index itself.

A session is the reset in `debugTraceStart` followed by any number of recorded events. `Recorded` says
what they leave behind. -/

namespace SysAgent

/-! ## Trace and multitrace -/

structure DebugTraceEvent where
  sequence : UInt64
  targetAddress : UInt64
  threadId : UInt64
  pc : UInt64
  lr : UInt64
  sp : UInt64
  x : Vector UInt64 8
  tick : UInt64
  core : UInt32
  argsCount : UInt32
  insnBytes : UInt32
  contextResult : UInt32
  coreResult : UInt32
  targetIndex : UInt32
  snapshotCount : UInt32
  snapshotAddresses : Vector UInt64 2
  snapshotBytes : Vector UInt32 2
  snapshotResults : Vector UInt32 2
  snapshots : Vector (Vector UInt8 256) 2
  insn : Vector UInt8 12
  deriving DecidableEq, Inhabited

/-- The part of an accepted configuration that recording depends on. -/
structure DebugTraceRingConfig where
  targetCount : UInt32
  ringSize : UInt32
  durationFromFirstHit : Bool
  targetCount_le : targetCount.toNat ≤ 4
  ringSize_le : ringSize.toNat ≤ 64

structure DebugTraceState where
  hasEvent : Bool
  targetCount : UInt32
  targetHits : Nat → UInt32
  hitCount : UInt64
  durationFromFirstHit : Bool
  durationStartTick : UInt64
  ringSize : UInt32
  ringCount : UInt32
  ringNext : UInt32
  lastPc : UInt64
  lastLr : UInt64
  lastSp : UInt64
  lastThreadId : UInt64
  lastCore : UInt32
  lastEvent : DebugTraceEvent
  ring : Vector DebugTraceEvent 64
  deriving Inhabited

/-- `debug_multitrace.c` keeps the last sequence number as a field of its own. -/
structure DebugMultiTraceState extends DebugTraceState where
  lastSequence : UInt64

def debugTraceRingOldestIndex (next capacity count index : UInt32) : UInt32 :=
  if capacity = 0 ∨ count = 0 ∨ capacity < count ∨ count ≤ index then 0xFFFFFFFF
  else
    let oldest := (next + capacity - count) % capacity
    (oldest + index) % capacity

def debugTraceOverwrittenCount (hitCount : UInt64) (storedCount : UInt32) : UInt64 :=
  if storedCount.toUInt64 < hitCount then hitCount - storedCount.toUInt64 else 0

namespace DebugTraceState

/-- What `debugTraceStart` sets once its checks have passed. The last event and the ring keep
    what an earlier session left in them. -/
def debugTraceStart (config : DebugTraceRingConfig) (s : DebugTraceState) : DebugTraceState :=
  { s with
    hasEvent := false
    targetCount := config.targetCount
    targetHits := fun _ => 0
    hitCount := 0
    durationFromFirstHit := config.durationFromFirstHit
    durationStartTick := 0
    ringSize := config.ringSize
    ringCount := 0
    ringNext := 0
    lastPc := 0
    lastLr := 0
    lastSp := 0
    lastThreadId := 0
    lastCore := 0 }

/-- Write an event into the ring. -/
def pushRing (event : DebugTraceEvent) (s : DebugTraceState) : DebugTraceState :=
  if 0 < s.ringSize then
    { s with
      ring := s.ring.setIfInBounds s.ringNext.toNat event
      ringNext := (s.ringNext + 1) % s.ringSize
      ringCount := if s.ringCount < s.ringSize then s.ringCount + 1 else s.ringCount }
  else s

def recordEvent (s : DebugTraceState) (event : DebugTraceEvent) : DebugTraceState :=
  let hitCount := s.hitCount + 1
  let event := { event with sequence := hitCount }
  let counted := { s with
    hitCount
    durationStartTick :=
      if s.durationFromFirstHit ∧ s.durationStartTick = 0 then event.tick else s.durationStartTick
    targetHits :=
      if event.targetIndex < s.targetCount then
        Function.update s.targetHits event.targetIndex.toNat
          (s.targetHits event.targetIndex.toNat + 1)
      else s.targetHits
    lastEvent := event
    hasEvent := true }
  { counted.pushRing event with
    lastPc := event.pc
    lastLr := event.lr
    lastSp := event.sp
    lastThreadId := event.threadId
    lastCore := event.core }

def debugTraceGetEvent (s : DebugTraceState) (index : UInt32) : Option DebugTraceEvent :=
  if s.hasEvent = false then none
  else if s.ringSize = 0 then
    if index ≠ 0 then none else some s.lastEvent
  else
    let stored := debugTraceRingOldestIndex s.ringNext s.ringSize s.ringCount index
    if stored = 0xFFFFFFFF then none else s.ring[stored.toNat]?

end DebugTraceState

namespace DebugMultiTraceState

def debugMultiTraceStart (config : DebugTraceRingConfig) (s : DebugMultiTraceState) :
    DebugMultiTraceState where
  toDebugTraceState := s.toDebugTraceState.debugTraceStart config
  lastSequence := 0

/-- `recordEvent` of `debug_multitrace.c`. -/
def recordEvent (s : DebugMultiTraceState) (event : DebugTraceEvent) : DebugMultiTraceState where
  toDebugTraceState := s.toDebugTraceState.recordEvent event
  lastSequence := s.hitCount + 1

def debugMultiTraceGetEvent (s : DebugMultiTraceState) (index : UInt32) :
    Option DebugTraceEvent :=
  s.toDebugTraceState.debugTraceGetEvent index

end DebugMultiTraceState

/-! ## Watch -/

structure DebugWatchHit where
  x : Vector UInt64 31
  sp : UInt64
  pc : UInt64
  dataAddress : UInt64
  threadId : UInt64
  insn : Vector UInt8 12
  insnBytes : UInt32
  fpStack : Vector UInt8 512
  fpStackBytes : UInt32
  spStack : Vector UInt8 256
  spStackBytes : UInt32
  deriving Inhabited

structure DebugWatchState where
  hasHit : Bool
  hitCount : UInt32
  ringSize : UInt32
  ringCount : UInt32
  ringNext : UInt32
  lastPc : UInt64
  lastLr : UInt64
  lastSp : UInt64
  lastDataAddress : UInt64
  lastThreadId : UInt64
  lastHit : DebugWatchHit
  ring : Vector DebugWatchHit 8
  deriving Inhabited

namespace DebugWatchState

/-- What `debugWatchStart` sets once its checks have passed; a larger ring is cut to
    `DEBUG_WATCH_RING_MAX`. -/
def debugWatchStart (ringSize : UInt32) (s : DebugWatchState) : DebugWatchState :=
  { s with
    hasHit := false
    hitCount := 0
    ringSize := if 8 < ringSize then 8 else ringSize
    ringCount := 0
    ringNext := 0
    lastPc := 0
    lastLr := 0
    lastSp := 0
    lastDataAddress := 0
    lastThreadId := 0 }

def pushRing (hit : DebugWatchHit) (s : DebugWatchState) : DebugWatchState :=
  if 0 < s.ringSize then
    { s with
      ring := s.ring.setIfInBounds s.ringNext.toNat hit
      ringNext := (s.ringNext + 1) % s.ringSize
      ringCount := if s.ringCount < s.ringSize then s.ringCount + 1 else s.ringCount }
  else s

def recordHit (s : DebugWatchState) (hit : DebugWatchHit) : DebugWatchState :=
  { pushRing hit { s with lastHit := hit } with
    hasHit := true
    lastPc := hit.pc
    lastLr := hit.x[30]
    lastSp := hit.sp
    lastDataAddress := hit.dataAddress
    lastThreadId := hit.threadId
    hitCount := s.hitCount + 1 }

def debugWatchGetRingHit (s : DebugWatchState) (index : UInt32) : Option DebugWatchHit :=
  if s.ringCount ≤ index ∨ s.ringSize = 0 then none
  else
    let start := (s.ringNext + s.ringSize - s.ringCount) % s.ringSize
    s.ring[((start + index) % s.ringSize).toNat]?

def debugWatchGetLastHit (s : DebugWatchState) : Option DebugWatchHit :=
  if s.hasHit = false then none else some s.lastHit

end DebugWatchState

/-! ## The index arithmetic

Both readers and both writers compute with `u32`; a ring of at most 64 slots stays far below the
bound. -/

/-- The ring fields of a state of any of the three modules. -/
structure RingHolds {ε : Type} {capacity : Nat} (ring : Vector ε capacity)
    (ringSize ringNext ringCount : UInt32) (history : List ε) : Prop where
  ringSize_le : ringSize.toNat ≤ capacity
  held : Ring.Holds ring ringSize.toNat ringNext.toNat ringCount.toNat history

namespace RingHolds

variable {ε : Type} {capacity : Nat} {ring : Vector ε capacity}
  {ringSize ringNext ringCount : UInt32} {history : List ε}

theorem ringCount_toNat (h : RingHolds ring ringSize ringNext ringCount history) :
    ringCount.toNat = min history.length ringSize.toNat :=
  h.held.count_eq

theorem start (ring : Vector ε capacity) {ringSize : UInt32}
    (hsize : ringSize.toNat ≤ capacity) : RingHolds ring ringSize 0 0 [] where
  ringSize_le := hsize
  held := Ring.holds_nil ring ringSize.toNat

theorem push (h : RingHolds ring ringSize ringNext ringCount history) (hcapacity : capacity ≤ 64)
    (hpos : 0 < ringSize) (event : ε) :
    RingHolds (ring.setIfInBounds ringNext.toNat event) ringSize ((ringNext + 1) % ringSize)
      (if ringCount < ringSize then ringCount + 1 else ringCount) (history ++ [event]) where
  ringSize_le := h.ringSize_le
  held := by
    have hsize := h.ringSize_le
    have hposNat : 0 < ringSize.toNat := by simpa using UInt32.lt_iff_toNat_lt.1 hpos
    have hcount := h.ringCount_toNat
    have hnext : ringNext.toNat < ringSize.toNat := by
      rw [h.held.next_eq]
      exact Nat.mod_lt _ hposNat
    have hnew : ((ringNext + 1) % ringSize).toNat = (ringNext.toNat + 1) % ringSize.toNat := by
      rw [UInt32.toNat_mod, UInt32.toNat_add, UInt32.toNat_one,
        Nat.mod_eq_of_lt (a := ringNext.toNat + 1) (by omega)]
    have hstored : (if ringCount < ringSize then ringCount + 1 else ringCount).toNat =
        if ringCount.toNat < ringSize.toNat then ringCount.toNat + 1 else ringCount.toNat := by
      by_cases hlt : ringCount < ringSize
      · rw [if_pos hlt, if_pos (UInt32.lt_iff_toNat_lt.1 hlt), UInt32.toNat_add, UInt32.toNat_one,
          Nat.mod_eq_of_lt (by omega)]
      · rw [if_neg hlt, if_neg (fun hltNat => hlt (UInt32.lt_iff_toNat_lt.2 hltNat))]
    rw [hnew, hstored]
    exact h.held.push hposNat h.ringSize_le event

/-- The slot both readers compute, for an index that is stored. -/
theorem read (h : RingHolds ring ringSize ringNext ringCount history) (hcapacity : capacity ≤ 64)
    {index : UInt32} (hindex : index < ringCount) :
    ring[(((ringNext + ringSize - ringCount) % ringSize + index) % ringSize).toNat]? =
      history[history.length - ringCount.toNat + index.toNat]? := by
  have hsize := h.ringSize_le
  have hcount := h.ringCount_toNat
  have hlt := UInt32.lt_iff_toNat_lt.1 hindex
  have hpos : 0 < ringSize.toNat := by omega
  have hnext : ringNext.toNat < ringSize.toNat := by
    rw [h.held.next_eq]
    exact Nat.mod_lt _ hpos
  have hsum : (ringNext + ringSize - ringCount).toNat =
      ringNext.toNat + ringSize.toNat - ringCount.toNat := by
    have hadd : (ringNext + ringSize).toNat = ringNext.toNat + ringSize.toNat := by
      rw [UInt32.toNat_add, Nat.mod_eq_of_lt (by omega)]
    rw [UInt32.toNat_sub_of_le _ _ (UInt32.le_iff_toNat_le.2 (by omega)), hadd]
  have hstart := Nat.mod_lt (ringNext.toNat + ringSize.toNat - ringCount.toNat) hpos
  have hslot : (((ringNext + ringSize - ringCount) % ringSize + index) % ringSize).toNat =
      ((ringNext.toNat + ringSize.toNat - ringCount.toNat) % ringSize.toNat + index.toNat) %
        ringSize.toNat := by
    rw [UInt32.toNat_mod, UInt32.toNat_add, UInt32.toNat_mod, hsum,
      Nat.mod_eq_of_lt (a := _ + index.toNat) (by omega)]
  rw [hslot]
  exact h.held.read hlt

/-- A computed slot is never the failure value. -/
theorem slot_ne (hsize : ringSize.toNat ≤ 64) (hpos : 0 < ringSize.toNat) (slot : UInt32) :
    slot % ringSize ≠ 0xFFFFFFFF := by
  intro heq
  have hvalue : (slot % ringSize).toNat = 4294967295 := by
    rw [heq]
    rfl
  rw [UInt32.toNat_mod] at hvalue
  have hlt := Nat.mod_lt slot.toNat hpos
  omega

end RingHolds

/-! ## What a trace session leaves behind -/

/-- The events as they are recorded: event number `j` of a session carries `j + 1`. -/
def numbered (events : List DebugTraceEvent) : List DebugTraceEvent :=
  events.mapIdx fun j event => { event with sequence := UInt64.ofNat (j + 1) }

@[simp] theorem length_numbered (events : List DebugTraceEvent) :
    (numbered events).length = events.length := by
  simp [numbered]

theorem numbered_concat (events : List DebugTraceEvent) (event : DebugTraceEvent) :
    numbered (events ++ [event]) =
      numbered events ++ [{ event with sequence := UInt64.ofNat (events.length + 1) }] := by
  simp [numbered, List.mapIdx_append]

theorem getElem?_numbered (events : List DebugTraceEvent) (j : Nat) :
    (numbered events)[j]? =
      events[j]?.map fun event => { event with sequence := UInt64.ofNat (j + 1) } := by
  simp [numbered]

/-- The events of a target. -/
def hitsOf (events : List DebugTraceEvent) (target : Nat) : Nat :=
  events.countP fun event => event.targetIndex.toNat = target

theorem hitsOf_concat (events : List DebugTraceEvent) (event : DebugTraceEvent) (target : Nat) :
    hitsOf (events ++ [event]) target =
      hitsOf events target + if event.targetIndex.toNat = target then 1 else 0 := by
  simp [hitsOf, List.countP_append, List.countP_cons]

/-- Every event belongs to one target. -/
theorem sum_hitsOf {events : List DebugTraceEvent} {targetCount : Nat}
    (htargets : ∀ event ∈ events, event.targetIndex.toNat < targetCount) :
    ∑ target ∈ Finset.range targetCount, hitsOf events target = events.length := by
  induction events using List.reverseRecOn with
  | nil => simp [hitsOf]
  | append_singleton events event ih =>
    have hevent : event.targetIndex.toNat < targetCount := htargets event (by simp)
    have hrest := ih fun other hmem => htargets other (by simp [hmem])
    simp only [hitsOf_concat]
    rw [Finset.sum_add_distrib, hrest, Finset.sum_ite_eq, if_pos (Finset.mem_range.2 hevent),
      List.length_append, List.length_singleton]

/-- The state after a session has recorded the events. -/
structure Recorded (config : DebugTraceRingConfig) (events : List DebugTraceEvent)
    (s : DebugTraceState) : Prop where
  targetCount : s.targetCount = config.targetCount
  ringSize : s.ringSize = config.ringSize
  hasEvent : s.hasEvent = true ↔ events ≠ []
  lastEvent : events ≠ [] → (numbered events).getLast? = some s.lastEvent
  hitCount : s.hitCount = UInt64.ofNat events.length
  targetHits : ∀ target < config.targetCount.toNat,
    s.targetHits target = UInt32.ofNat (hitsOf events target)
  ring : 0 < config.ringSize →
    RingHolds s.ring s.ringSize s.ringNext s.ringCount (numbered events)
  noRing : config.ringSize = 0 → s.ringCount = 0

namespace Recorded

variable {config : DebugTraceRingConfig} {events : List DebugTraceEvent} {s : DebugTraceState}

theorem start (config : DebugTraceRingConfig) (s : DebugTraceState) :
    Recorded config [] (s.debugTraceStart config) where
  targetCount := rfl
  ringSize := rfl
  hasEvent := by simp [DebugTraceState.debugTraceStart]
  lastEvent := fun h => absurd rfl h
  hitCount := rfl
  targetHits := fun _ _ => rfl
  ring := fun _ => RingHolds.start s.ring config.ringSize_le
  noRing := fun _ => rfl

theorem hitCount_succ (h : Recorded config events s) (event : DebugTraceEvent) :
    s.hitCount + 1 = UInt64.ofNat (events ++ [event]).length := by
  rw [h.hitCount, List.length_append, List.length_singleton, UInt64.ofNat_add]
  rfl

/-- The fields that do not depend on the ring are those before the push. -/
theorem pushRing_frame (s : DebugTraceState) (event : DebugTraceEvent) :
    (s.pushRing event).targetCount = s.targetCount ∧
      (s.pushRing event).ringSize = s.ringSize ∧ (s.pushRing event).hasEvent = s.hasEvent ∧
      (s.pushRing event).lastEvent = s.lastEvent ∧ (s.pushRing event).hitCount = s.hitCount ∧
      (s.pushRing event).targetHits = s.targetHits := by
  unfold DebugTraceState.pushRing
  split <;> simp

theorem targetHits_step (h : Recorded config events s) (event : DebugTraceEvent) (target : Nat)
    (htarget : target < config.targetCount.toNat) :
    (if event.targetIndex < s.targetCount then
      Function.update s.targetHits event.targetIndex.toNat
        (s.targetHits event.targetIndex.toNat + 1)
      else s.targetHits) target = UInt32.ofNat (hitsOf (events ++ [event]) target) := by
  rw [hitsOf_concat, h.targetCount]
  by_cases hsame : event.targetIndex.toNat = target
  · have hlt : event.targetIndex < config.targetCount :=
      UInt32.lt_iff_toNat_lt.2 (by omega)
    rw [if_pos hlt, if_pos hsame, hsame, Function.update_self, h.targetHits target htarget,
      UInt32.ofNat_add]
    rfl
  · rw [if_neg hsame, Nat.add_zero, ← h.targetHits target htarget]
    split
    · exact Function.update_of_ne (Ne.symm hsame) _ _
    · rfl

theorem step (h : Recorded config events s) (event : DebugTraceEvent) :
    Recorded config (events ++ [event]) (s.recordEvent event) := by
  have hnumber : numbered (events ++ [event]) =
      numbered events ++ [{ event with sequence := s.hitCount + 1 }] := by
    rw [numbered_concat, hitCount_succ h event, List.length_append, List.length_singleton]
  unfold DebugTraceState.recordEvent
  simp only
  refine ⟨?targetCount, ?ringSize, ?hasEvent, ?lastEvent, ?hitCount, ?targetHits, ?ring,
    ?noRing⟩
  case targetCount =>
    rw [(pushRing_frame _ _).1]
    exact h.targetCount
  case ringSize =>
    rw [(pushRing_frame _ _).2.1]
    exact h.ringSize
  case hasEvent =>
    rw [(pushRing_frame _ _).2.2.1]
    simp
  case lastEvent =>
    intro _
    rw [(pushRing_frame _ _).2.2.2.1, hnumber, List.getLast?_concat]
  case hitCount =>
    rw [(pushRing_frame _ _).2.2.2.2.1]
    exact hitCount_succ h event
  case targetHits =>
    intro target htarget
    rw [(pushRing_frame _ _).2.2.2.2.2]
    exact targetHits_step h event target htarget
  case ring =>
    intro hpos
    have hposState : 0 < s.ringSize := by rwa [h.ringSize]
    simp only [DebugTraceState.pushRing, if_pos hposState]
    rw [hnumber]
    exact (h.ring hpos).push (le_refl 64) hposState _
  case noRing =>
    intro hzero
    have hnot : ¬ 0 < s.ringSize := by simp [h.ringSize, hzero]
    simp only [DebugTraceState.pushRing, if_neg hnot]
    exact h.noRing hzero

/-- A whole session, whatever the sessions before it left behind. -/
theorem session (config : DebugTraceRingConfig) (s : DebugTraceState)
    (events : List DebugTraceEvent) :
    Recorded config events
      (events.foldl DebugTraceState.recordEvent (s.debugTraceStart config)) := by
  induction events using List.reverseRecOn with
  | nil => exact start config s
  | append_singleton events event ih =>
    rw [List.foldl_concat]
    exact ih.step event

theorem ringCount_toNat (h : Recorded config events s) :
    s.ringCount.toNat = min events.length config.ringSize.toNat := by
  by_cases hpos : 0 < config.ringSize
  · rw [(h.ring hpos).ringCount_toNat, length_numbered, h.ringSize]
  · have hzero : config.ringSize = 0 := by simpa using hpos
    rw [h.noRing hzero, hzero]
    simp

/-- The readers, where there is a ring. -/
theorem getEvent_ring (h : Recorded config events s) (hpos : 0 < config.ringSize)
    (index : UInt32) :
    s.debugTraceGetEvent index =
      if index < s.ringCount then
        (numbered events)[events.length - s.ringCount.toNat + index.toNat]?
      else none := by
  have hring := h.ring hpos
  have hsize : s.ringSize ≠ 0 := by
    rw [h.ringSize]
    exact (UInt32.pos_iff_ne_zero).1 hpos
  have hle := hring.ringSize_le
  have hcount := hring.ringCount_toNat
  unfold DebugTraceState.debugTraceGetEvent
  by_cases hindex : index < s.ringCount
  · have hlt := UInt32.lt_iff_toNat_lt.1 hindex
    have hevents : events ≠ [] := by
      rintro rfl
      rw [length_numbered, List.length_nil, Nat.zero_min] at hcount
      omega
    have hchecks : ¬ (s.ringSize = 0 ∨ s.ringCount = 0 ∨ s.ringSize < s.ringCount ∨
        s.ringCount ≤ index) := by
      rintro (hzero | hzero | hover | hout)
      · exact hsize hzero
      · rw [hzero] at hlt
        exact absurd hlt (by simp)
      · have := UInt32.lt_iff_toNat_lt.1 hover
        omega
      · have := UInt32.le_iff_toNat_le.1 hout
        omega
    rw [if_neg (by rw [h.hasEvent.2 hevents]; simp), if_neg hsize, if_pos hindex]
    simp only [debugTraceRingOldestIndex, if_neg hchecks]
    rw [if_neg (RingHolds.slot_ne hle (by omega) _), hring.read (le_refl 64) hindex,
      length_numbered]
  · have hout : s.ringCount ≤ index := UInt32.not_lt.1 hindex
    rw [if_neg hindex, if_neg hsize]
    simp only [debugTraceRingOldestIndex, hout, or_true, if_true]
    split <;> rfl

/-- The reader of a session without a ring. -/
theorem getEvent_last (h : Recorded config events s) (hzero : config.ringSize = 0)
    (index : UInt32) :
    s.debugTraceGetEvent index =
      if index = 0 then (numbered events).getLast? else none := by
  unfold DebugTraceState.debugTraceGetEvent
  rw [h.ringSize, if_pos hzero]
  by_cases hevents : events = []
  · have hfalse : s.hasEvent = false := by
      by_contra hne
      exact h.hasEvent.1 (by simpa using hne) hevents
    rw [if_pos hfalse, hevents]
    simp [numbered]
  · rw [if_neg (by rw [h.hasEvent.2 hevents]; simp), h.lastEvent hevents]
    by_cases hindex : index = 0
    · simp [hindex]
    · simp [hindex]

end Recorded

/-! ## What a watch session leaves behind -/

/-- The state after a watch session has recorded the hits. -/
structure WatchRecorded (ringSize : UInt32) (hits : List DebugWatchHit)
    (s : DebugWatchState) : Prop where
  ringSize : s.ringSize = if 8 < ringSize then 8 else ringSize
  hasHit : s.hasHit = true ↔ hits ≠ []
  lastHit : hits ≠ [] → hits.getLast? = some s.lastHit
  hitCount : s.hitCount = UInt32.ofNat hits.length
  ring : 0 < s.ringSize → RingHolds s.ring s.ringSize s.ringNext s.ringCount hits

namespace WatchRecorded

variable {ringSize : UInt32} {hits : List DebugWatchHit} {s : DebugWatchState}

theorem ringSize_toNat (h : WatchRecorded ringSize hits s) :
    s.ringSize.toNat = min ringSize.toNat 8 := by
  rw [h.ringSize]
  by_cases hover : 8 < ringSize
  · have hlt := UInt32.lt_iff_toNat_lt.1 hover
    rw [if_pos hover]
    change 8 = min ringSize.toNat 8
    exact (min_eq_right hlt.le).symm
  · have hle : ringSize.toNat ≤ 8 := UInt32.le_iff_toNat_le.1 (UInt32.not_lt.1 hover)
    rw [if_neg hover, min_eq_left hle]

theorem start (ringSize : UInt32) (s : DebugWatchState) :
    WatchRecorded ringSize [] (s.debugWatchStart ringSize) where
  ringSize := rfl
  hasHit := by simp [DebugWatchState.debugWatchStart]
  lastHit := fun h => absurd rfl h
  hitCount := rfl
  ring := by
    intro _
    refine RingHolds.start s.ring ?_
    simp only [DebugWatchState.debugWatchStart]
    split
    · exact le_refl 8
    · rename_i hover
      exact UInt32.le_iff_toNat_le.1 (UInt32.not_lt.1 hover)

theorem pushRing_frame (s : DebugWatchState) (hit : DebugWatchHit) :
    (s.pushRing hit).ringSize = s.ringSize ∧ (s.pushRing hit).lastHit = s.lastHit := by
  unfold DebugWatchState.pushRing
  split <;> simp

theorem step (h : WatchRecorded ringSize hits s) (hit : DebugWatchHit) :
    WatchRecorded ringSize (hits ++ [hit]) (s.recordHit hit) where
  ringSize := by
    simp only [DebugWatchState.recordHit, (pushRing_frame _ _).1]
    exact h.ringSize
  hasHit := by simp [DebugWatchState.recordHit]
  lastHit := by
    intro _
    simp only [DebugWatchState.recordHit, (pushRing_frame _ _).2, List.getLast?_concat]
  hitCount := by
    simp only [DebugWatchState.recordHit]
    rw [h.hitCount, List.length_append, List.length_singleton, UInt32.ofNat_add]
    rfl
  ring := by
    simp only [DebugWatchState.recordHit, (pushRing_frame _ _).1]
    intro hpos
    simp only [DebugWatchState.pushRing, if_pos hpos]
    exact (h.ring hpos).push (by decide) hpos hit

theorem session (ringSize : UInt32) (s : DebugWatchState) (hits : List DebugWatchHit) :
    WatchRecorded ringSize hits
      (hits.foldl DebugWatchState.recordHit (s.debugWatchStart ringSize)) := by
  induction hits using List.reverseRecOn with
  | nil => exact start ringSize s
  | append_singleton hits hit ih =>
    rw [List.foldl_concat]
    exact ih.step hit

theorem getRingHit (h : WatchRecorded ringSize hits s) (index : UInt32) :
    s.debugWatchGetRingHit index =
      if index.toNat < min hits.length s.ringSize.toNat then
        hits[hits.length - min hits.length s.ringSize.toNat + index.toNat]?
      else none := by
  unfold DebugWatchState.debugWatchGetRingHit
  by_cases hzero : s.ringSize = 0
  · rw [if_pos (Or.inr hzero), hzero]
    simp
  · have hring := h.ring ((UInt32.pos_iff_ne_zero).2 hzero)
    have hcount := hring.ringCount_toNat
    rw [← hcount]
    by_cases hindex : index < s.ringCount
    · have hin : ¬ (s.ringCount ≤ index ∨ s.ringSize = 0) := by
        rintro (hout | hempty)
        · exact absurd hindex (UInt32.not_lt.2 hout)
        · exact hzero hempty
      rw [if_neg hin, if_pos (UInt32.lt_iff_toNat_lt.1 hindex)]
      exact hring.read (by decide) hindex
    · have hout : s.ringCount ≤ index := UInt32.not_lt.1 hindex
      have hnot : ¬ index.toNat < s.ringCount.toNat := fun hlt =>
        hindex (UInt32.lt_iff_toNat_lt.2 hlt)
      rw [if_pos (Or.inl hout), if_neg hnot]

theorem getLastHit (h : WatchRecorded ringSize hits s) :
    s.debugWatchGetLastHit = hits.getLast? := by
  unfold DebugWatchState.debugWatchGetLastHit
  by_cases hempty : hits = []
  · have hfalse : s.hasHit = false := by
      by_contra hne
      exact h.hasHit.1 (by simpa using hne) hempty
    rw [if_pos hfalse, hempty]
    rfl
  · rw [if_neg (by rw [h.hasHit.2 hempty]; simp), h.lastHit hempty]

end WatchRecorded

/-! ## Bounded histories -/

/-- What the reader and the counters of a trace say after the events of a session. The `k` events
    that are kept are read oldest first; the counters are exact until they wrap. -/
structure TraceHistory (config : DebugTraceRingConfig) (events : List DebugTraceEvent)
    (getEvent : UInt32 → Option DebugTraceEvent) (s : DebugTraceState) : Prop where
  inside : 0 < config.ringSize → ∀ index : UInt32,
    index.toNat < min events.length config.ringSize.toNat →
    getEvent index =
      (numbered events)[events.length - min events.length config.ringSize.toNat + index.toNat]?
  outside : 0 < config.ringSize → ∀ index : UInt32,
    min events.length config.ringSize.toNat ≤ index.toNat → getEvent index = none
  last : config.ringSize = 0 → getEvent 0 = (numbered events).getLast?
  onlyLast : config.ringSize = 0 → ∀ index : UInt32, index ≠ 0 → getEvent index = none
  sequence : events.length < 2 ^ 64 → ∀ (j : Nat) (event : DebugTraceEvent),
    (numbered events)[j]? = some event → event.sequence.toNat = j + 1
  targetHits : (∀ target, hitsOf events target < 2 ^ 32) →
    ∑ target ∈ Finset.range config.targetCount.toNat, (s.targetHits target).toNat = events.length
  overwritten : events.length < 2 ^ 64 →
    (debugTraceOverwrittenCount s.hitCount s.ringCount).toNat =
      events.length - min events.length config.ringSize.toNat

/-- The same for a watch, whose ring has at most eight slots and whose last hit has a reader of its
    own. -/
structure WatchHistory (ringSize : UInt32) (hits : List DebugWatchHit)
    (s : DebugWatchState) : Prop where
  inside : ∀ index : UInt32, index.toNat < min hits.length (min ringSize.toNat 8) →
    s.debugWatchGetRingHit index =
      hits[hits.length - min hits.length (min ringSize.toNat 8) + index.toNat]?
  outside : ∀ index : UInt32, min hits.length (min ringSize.toNat 8) ≤ index.toNat →
    s.debugWatchGetRingHit index = none
  last : s.debugWatchGetLastHit = hits.getLast?
  hitCount : hits.length < 2 ^ 32 → s.hitCount.toNat = hits.length

theorem overwrittenCount_toNat {hitCount : UInt64} {storedCount : UInt32} :
    (debugTraceOverwrittenCount hitCount storedCount).toNat =
      hitCount.toNat - storedCount.toNat := by
  unfold debugTraceOverwrittenCount
  by_cases hlt : storedCount.toUInt64 < hitCount
  · rw [if_pos hlt, UInt64.toNat_sub_of_le _ _ (UInt64.le_of_lt hlt), UInt32.toNat_toUInt64]
  · have hle := UInt64.le_iff_toNat_le.1 (UInt64.not_lt.1 hlt)
    rw [UInt32.toNat_toUInt64] at hle
    rw [if_neg hlt]
    change 0 = _
    omega

theorem Recorded.history {config : DebugTraceRingConfig} {events : List DebugTraceEvent}
    {s : DebugTraceState} (h : Recorded config events s)
    (htargets : ∀ event ∈ events, event.targetIndex < config.targetCount) :
    TraceHistory config events s.debugTraceGetEvent s where
  inside := by
    intro hpos index hindex
    rw [← h.ringCount_toNat] at hindex ⊢
    rw [h.getEvent_ring hpos, if_pos (UInt32.lt_iff_toNat_lt.2 hindex)]
  outside := by
    intro hpos index hindex
    rw [← h.ringCount_toNat] at hindex
    rw [h.getEvent_ring hpos, if_neg]
    intro hlt
    have := UInt32.lt_iff_toNat_lt.1 hlt
    omega
  last := by
    intro hzero
    rw [h.getEvent_last hzero, if_pos rfl]
  onlyLast := by
    intro hzero index hindex
    rw [h.getEvent_last hzero, if_neg hindex]
  sequence := by
    intro hlength j event hevent
    have hj : j < events.length := by
      have hlt := (List.getElem?_eq_some_iff.1 hevent).1
      rwa [length_numbered] at hlt
    rw [getElem?_numbered, List.getElem?_eq_getElem hj] at hevent
    rw [← Option.some.inj hevent]
    exact UInt64.toNat_ofNat_of_lt' (lt_of_le_of_lt (Nat.succ_le_of_lt hj) hlength)
  targetHits := by
    intro hsmall
    rw [← sum_hitsOf fun event hmem => UInt32.lt_iff_toNat_lt.1 (htargets event hmem)]
    refine Finset.sum_congr rfl fun target htarget => ?_
    rw [h.targetHits target (Finset.mem_range.1 htarget)]
    exact UInt32.toNat_ofNat_of_lt' (hsmall target)
  overwritten := by
    intro hlength
    rw [overwrittenCount_toNat, h.hitCount, h.ringCount_toNat,
      UInt64.toNat_ofNat_of_lt' hlength]

theorem WatchRecorded.history {ringSize : UInt32} {hits : List DebugWatchHit}
    {s : DebugWatchState} (h : WatchRecorded ringSize hits s) :
    WatchHistory ringSize hits s where
  inside := by
    intro index hindex
    rw [h.getRingHit, h.ringSize_toNat, if_pos hindex]
  outside := by
    intro index hindex
    rw [h.getRingHit, h.ringSize_toNat, if_neg (by omega)]
  last := h.getLastHit
  hitCount := by
    intro hlength
    rw [h.hitCount]
    exact UInt32.toNat_ofNat_of_lt' hlength

/-- A multitrace records as a trace does. -/
theorem foldl_multiRecordEvent (s : DebugMultiTraceState) (events : List DebugTraceEvent) :
    (events.foldl DebugMultiTraceState.recordEvent s).toDebugTraceState =
      events.foldl DebugTraceState.recordEvent s.toDebugTraceState := by
  induction events generalizing s with
  | nil => rfl
  | cons event events ih => exact ih (s.recordEvent event)

/-- The rings are bounded histories: whatever a module's state was before the session, and however
    many events the session records. The workers call `recordEvent` only with the index of a target
    that they found. -/
theorem debug_rings_are_histories (config : DebugTraceRingConfig)
    (events : List DebugTraceEvent)
    (htargets : ∀ event ∈ events, event.targetIndex < config.targetCount)
    (trace : DebugTraceState) (multi : DebugMultiTraceState)
    (watch : DebugWatchState) (watchRingSize : UInt32) (hits : List DebugWatchHit) :
    (let s := events.foldl DebugTraceState.recordEvent (trace.debugTraceStart config)
     TraceHistory config events s.debugTraceGetEvent s) ∧
    (let s := events.foldl DebugMultiTraceState.recordEvent (multi.debugMultiTraceStart config)
     TraceHistory config events s.debugMultiTraceGetEvent s.toDebugTraceState) ∧
    WatchHistory watchRingSize hits
      (hits.foldl DebugWatchState.recordHit (watch.debugWatchStart watchRingSize)) := by
  refine ⟨(Recorded.session config trace events).history htargets, ?_,
    (WatchRecorded.session watchRingSize watch hits).history⟩
  have hmulti := (Recorded.session config multi.toDebugTraceState events).history htargets
  have hfold := foldl_multiRecordEvent (multi.debugMultiTraceStart config) events
  intro s
  show TraceHistory config events s.toDebugTraceState.debugTraceGetEvent s.toDebugTraceState
  rw [hfold]
  exact hmulti

/-- Two targets and a ring of two slots. -/
def ringOfTwo : DebugTraceRingConfig where
  targetCount := 2
  ringSize := 2
  durationFromFirstHit := false
  targetCount_le := by decide
  ringSize_le := by decide

/-- Three events of the two targets. -/
def threeEvents : List DebugTraceEvent :=
  [{ (default : DebugTraceEvent) with pc := 0x100, targetIndex := 0 },
    { (default : DebugTraceEvent) with pc := 0x200, targetIndex := 1 },
    { (default : DebugTraceEvent) with pc := 0x300, targetIndex := 0 }]

def threeHits : List DebugWatchHit :=
  [{ (default : DebugWatchHit) with pc := 0x100 }, { (default : DebugWatchHit) with pc := 0x200 },
    { (default : DebugWatchHit) with pc := 0x300 }]

/-- What an earlier session leaves in the modules. -/
def usedTrace : DebugTraceState :=
  threeEvents.foldl DebugTraceState.recordEvent
    ((default : DebugTraceState).debugTraceStart ringOfTwo)

def usedMultiTrace : DebugMultiTraceState where
  toDebugTraceState := usedTrace
  lastSequence := 3

def usedWatch : DebugWatchState :=
  threeHits.foldl DebugWatchState.recordHit ((default : DebugWatchState).debugWatchStart 2)

/-- Three events in two slots, behind an earlier session: the second and the third are left, and
    one is overwritten. -/
theorem debug_rings_are_histories_wrapped :
    (let s := threeEvents.foldl DebugTraceState.recordEvent (usedTrace.debugTraceStart ringOfTwo)
     TraceHistory ringOfTwo threeEvents s.debugTraceGetEvent s ∧
      (s.debugTraceGetEvent 0).map (·.pc) = some 0x200 ∧
      (s.debugTraceGetEvent 1).map (·.sequence) = some 3 ∧ s.debugTraceGetEvent 2 = none ∧
      (s.targetHits 0, s.targetHits 1) = (2, 1) ∧
      debugTraceOverwrittenCount s.hitCount s.ringCount = 1) ∧
    (let s := threeEvents.foldl DebugMultiTraceState.recordEvent
        (usedMultiTrace.debugMultiTraceStart ringOfTwo)
     TraceHistory ringOfTwo threeEvents s.debugMultiTraceGetEvent s.toDebugTraceState ∧
      (s.debugMultiTraceGetEvent 1).map (·.pc) = some 0x300 ∧ s.lastSequence = 3) ∧
    (let s := threeHits.foldl DebugWatchState.recordHit (usedWatch.debugWatchStart 2)
     WatchHistory 2 threeHits s ∧ (s.debugWatchGetRingHit 0).map (·.pc) = some 0x200 ∧
      (s.debugWatchGetRingHit 1).map (·.pc) = some 0x300) := by
  have htargets : ∀ event ∈ threeEvents, event.targetIndex < ringOfTwo.targetCount := by decide
  obtain ⟨htrace, hmulti, hwatch⟩ := debug_rings_are_histories ringOfTwo threeEvents htargets
    usedTrace usedMultiTrace usedWatch 2 threeHits
  exact ⟨⟨htrace, by decide⟩, ⟨hmulti, by decide⟩, ⟨hwatch, by decide⟩⟩

/-- One target and a ring of one slot. -/
def oneTarget : DebugTraceRingConfig where
  targetCount := 1
  ringSize := 1
  durationFromFirstHit := false
  targetCount_le := by decide
  ringSize_le := by decide

/-- The hits of a target wrap at `2 ^ 32`, the number of overwritten events is wrong once the hit
    count has wrapped, a watch without a ring has no hit at index 0, and a watch keeps eight hits
    whatever ring was asked for. -/
theorem debug_rings_limits :
    ∑ target ∈ Finset.range oneTarget.targetCount.toNat,
        (((List.replicate (2 ^ 32) default).foldl DebugTraceState.recordEvent
          ((default : DebugTraceState).debugTraceStart oneTarget)).targetHits target).toNat = 0 ∧
      (debugTraceOverwrittenCount
        ((List.replicate (2 ^ 64) default).foldl DebugTraceState.recordEvent
          ((default : DebugTraceState).debugTraceStart oneTarget)).hitCount
        ((List.replicate (2 ^ 64) default).foldl DebugTraceState.recordEvent
          ((default : DebugTraceState).debugTraceStart oneTarget)).ringCount).toNat = 0 ∧
      (([default].foldl DebugWatchState.recordHit
        ((default : DebugWatchState).debugWatchStart 0)).debugWatchGetRingHit 0).isNone ∧
      (((List.replicate 9 default).foldl DebugWatchState.recordHit
        ((default : DebugWatchState).debugWatchStart 9)).debugWatchGetRingHit 8).isNone := by
  refine ⟨?hits, ?overwritten, ?noRing, ?cut⟩
  case hits =>
    have hrecorded := Recorded.session oneTarget default (List.replicate (2 ^ 32) default)
    have hcount : hitsOf (List.replicate (2 ^ 32) default) 0 = 2 ^ 32 := by
      rw [hitsOf, List.countP_replicate, if_pos (by rfl)]
    have hone : oneTarget.targetCount.toNat = 1 := rfl
    rw [hone, Finset.sum_range_one, hrecorded.targetHits 0 Nat.one_pos, hcount]
    rfl
  case overwritten =>
    have hrecorded := Recorded.session oneTarget default (List.replicate (2 ^ 64) default)
    have hwrap : (UInt64.ofNat (2 ^ 64)).toNat = 0 := rfl
    rw [overwrittenCount_toNat, hrecorded.hitCount, List.length_replicate, hwrap, Nat.zero_sub]
  case noRing => rfl
  case cut =>
    rw [(WatchRecorded.session 9 default (List.replicate 9 default)).history.outside 8 (by decide)]
    rfl

end SysAgent
