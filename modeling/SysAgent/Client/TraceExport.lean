import Mathlib
import SysAgent.Debug.Ring
import SysAgent.Lib.Runs

set_option autoImplicit false

/-! # Exporting a trace (`sysagent.py`, `_export_single_trace` and `_export_multitrace`)

An export is a status command, one read command for each event in the ring, and a second status
command; every command is answered in one critical section of the module. Between two commands the
session goes on: its worker records events, a stop is asked for, or it ends. The export succeeds only if
two numbers of the two statuses agree.

`history` is the ghost of a session: the events it has recorded so far. -/

namespace SysAgent

inductive SessionStep
  | record (event : DebugTraceEvent)
  | stop
  | finish

/-- The recording state of a module and its worker; after a stop or the end there is no worker. -/
structure TracedSession (σ : Type) where
  state : σ
  active : Bool
  history : List DebugTraceEvent

/-- What an exporter uses of its module: the recording, the status fields and the reader. -/
structure TraceExporter (σ : Type) where
  recording : σ → DebugTraceState
  recordEvent : σ → DebugTraceEvent → σ
  lastSequence : σ → UInt64
  /-- The counter that is compared besides `ringCount`. -/
  guard : σ → UInt64
  recording_recordEvent : ∀ s event,
    recording (recordEvent s event) = (recording s).recordEvent event

/-- `_export_single_trace`: `lastSeq` is the number of the last event, and the guard is
    `overwritten`. -/
def exportSingleTrace : TraceExporter DebugTraceState where
  recording := id
  recordEvent := DebugTraceState.recordEvent
  lastSequence := fun s => if s.hasEvent then s.lastEvent.sequence else 0
  guard := fun s => debugTraceOverwrittenCount s.hitCount s.ringCount
  recording_recordEvent := fun _ _ => rfl

/-- `_export_multitrace`: the guard is `hitCount`. -/
def exportMultiTrace : TraceExporter DebugMultiTraceState where
  recording := DebugMultiTraceState.toDebugTraceState
  recordEvent := DebugMultiTraceState.recordEvent
  lastSequence := DebugMultiTraceState.lastSequence
  guard := fun s => s.hitCount
  recording_recordEvent := fun _ _ => rfl

namespace TracedSession

variable {σ : Type} (exporter : TraceExporter σ)

def start (s : σ) : TracedSession σ where
  state := s
  active := true
  history := []

def step (session : TracedSession σ) : SessionStep → TracedSession σ
  | .record event =>
    if session.active then
      { session with
        state := exporter.recordEvent session.state event
        history := session.history ++ [event] }
    else session
  | .stop => { session with active := false }
  | .finish => { session with active := false }

/-- The session when command number `k` is answered; `gap k` is what happens between the commands
    `k` and `k + 1`. -/
def atCommand (session : TracedSession σ) (gap : Nat → List SessionStep) : Nat → TracedSession σ
  | 0 => session
  | k + 1 => Runs.run (step exporter) (atCommand session gap k) (gap k)

def readEvent (session : TracedSession σ) (index : Nat) : Option DebugTraceEvent :=
  (exporter.recording session.state).debugTraceGetEvent (UInt32.ofNat index)

/-- The number of read commands of an export. -/
def eventCount (session : TracedSession σ) : Nat :=
  let ringCount := (exporter.recording session.state).ringCount
  if 0 < ringCount then ringCount.toNat else 1

/-- The events that an export writes, if it succeeds. -/
def exportEvents (session : TracedSession σ) (gap : Nat → List SessionStep) :
    Option (List DebugTraceEvent) :=
  let before := session.atCommand exporter gap 0
  let ringCount := (exporter.recording before.state).ringCount
  if ringCount = 0 ∧ exporter.lastSequence before.state = 0 then none
  else
    let count := before.eventCount exporter
    match (List.range count).mapM fun index =>
        (session.atCommand exporter gap (index + 1)).readEvent exporter index with
    | none => none
    | some events =>
      let after := session.atCommand exporter gap (count + 1)
      if (exporter.recording after.state).ringCount ≠ ringCount
          ∨ exporter.guard after.state ≠ exporter.guard before.state then none
      else some events

end TracedSession

/-- What a ring holds after a history; without a ring it is the last event. -/
def keptEvents (config : DebugTraceRingConfig) (history : List DebugTraceEvent) :
    List DebugTraceEvent :=
  let kept := if config.ringSize = 0 then 1 else config.ringSize.toNat
  (numbered history).drop (history.length - kept)

/-! ## The readers read what is kept -/

/-- Reading the ring, in terms of the history alone. -/
theorem Recorded.getEvent_eq {config : DebugTraceRingConfig} {history : List DebugTraceEvent}
    {s : DebugTraceState} (h : Recorded config history s) (index : UInt32) :
    s.debugTraceGetEvent index = (keptEvents config history)[index.toNat]? := by
  unfold keptEvents
  by_cases hzero : config.ringSize = 0
  · simp only [if_pos hzero]
    rw [h.getEvent_last hzero, List.getElem?_drop]
    by_cases hindex : index = 0
    · rw [if_pos hindex, hindex, List.getLast?_eq_getElem?, length_numbered]
      simp
    · have hpos : 0 < index.toNat := by
        rcases Nat.eq_zero_or_pos index.toNat with heq | hpos
        · exact absurd (UInt32.toNat_inj.1 heq) hindex
        · exact hpos
      rw [if_neg hindex, List.getElem?_eq_none]
      rw [length_numbered]
      omega
  · simp only [if_neg hzero]
    rw [h.getEvent_ring (UInt32.pos_iff_ne_zero.2 hzero), List.getElem?_drop]
    have hcount := h.ringCount_toNat
    by_cases hindex : index < s.ringCount
    · have hlt := UInt32.lt_iff_toNat_lt.1 hindex
      have hfirst : history.length - s.ringCount.toNat =
          history.length - config.ringSize.toNat := by omega
      rw [if_pos hindex, hfirst]
    · have hnot : ¬ index.toNat < s.ringCount.toNat := fun hlt =>
        hindex (UInt32.lt_iff_toNat_lt.2 hlt)
      rw [if_neg hindex, List.getElem?_eq_none]
      rw [length_numbered]
      omega

theorem length_keptEvents (config : DebugTraceRingConfig) (history : List DebugTraceEvent) :
    (keptEvents config history).length =
      min history.length (if config.ringSize = 0 then 1 else config.ringSize.toNat) := by
  simp only [keptEvents, List.length_drop, length_numbered]
  omega

/-- The kept events have consecutive numbers. -/
theorem keptEvents_sequence {config : DebugTraceRingConfig} {history : List DebugTraceEvent}
    (hlength : history.length < 2 ^ 64) {j : Nat} {event : DebugTraceEvent}
    (hevent : (keptEvents config history)[j]? = some event) :
    event.sequence.toNat = history.length - (keptEvents config history).length + j + 1 := by
  have hfirst : history.length - (keptEvents config history).length = history.length -
      (if config.ringSize = 0 then 1 else config.ringSize.toNat) := by
    rw [length_keptEvents]
    omega
  have hj : j < (keptEvents config history).length := (List.getElem?_eq_some_iff.1 hevent).1
  have hle : (keptEvents config history).length ≤ history.length := by
    rw [length_keptEvents]
    exact min_le_left _ _
  rw [hfirst]
  simp only [keptEvents, List.getElem?_drop, getElem?_numbered, Option.map_eq_some_iff] at hevent
  obtain ⟨source, -, rfl⟩ := hevent
  rw [hfirst.symm]
  exact UInt64.toNat_ofNat_of_lt' (lt_of_le_of_lt (by omega) hlength)

/-- Reading the first positions of a list one by one gives the front of the list. -/
theorem mapM_range_eq_take {α : Type} {read : Nat → Option α} {l events : List α} {count : Nat}
    (hread : ∀ index < count, read index = l[index]?)
    (h : (List.range count).mapM read = some events) :
    events = l.take count ∧ count ≤ l.length := by
  induction count generalizing events with
  | zero =>
    have hnil : events = [] := by simpa using h.symm
    exact ⟨by rw [hnil, List.take_zero], Nat.zero_le _⟩
  | succ count ih =>
    rw [List.range_succ, List.mapM_append, Option.bind_eq_bind, Option.bind_eq_some_iff] at h
    obtain ⟨front, hfront, hlast⟩ := h
    obtain ⟨rfl, -⟩ := ih (fun index hindex => hread index (by omega)) hfront
    simp only [List.mapM_cons, List.mapM_nil, Option.bind_eq_bind, Option.pure_def,
      Option.bind_some, Option.bind_eq_some_iff] at hlast
    obtain ⟨single, ⟨last, hget, hsingle⟩, hevents⟩ := hlast
    rw [hread count (Nat.lt_succ_self count)] at hget
    obtain ⟨hlt, hvalue⟩ := List.getElem?_eq_some_iff.1 hget
    refine ⟨?_, hlt⟩
    rw [← Option.some.inj hevents, ← Option.some.inj hsingle, List.take_add_one, hget]
    rfl

/-! ## The session between the commands -/

namespace TracedSession

variable {σ : Type} {exporter : TraceExporter σ} {config : DebugTraceRingConfig}

/-- The module's state is what its history left behind. -/
def Tracks (exporter : TraceExporter σ) (config : DebugTraceRingConfig)
    (session : TracedSession σ) : Prop :=
  Recorded config session.history (exporter.recording session.state)

theorem tracks_step (session : TracedSession σ) (event : SessionStep)
    (h : session.Tracks exporter config) : (session.step exporter event).Tracks exporter config := by
  cases event with
  | record event =>
    unfold step
    simp only
    split
    · unfold Tracks
      rw [exporter.recording_recordEvent]
      exact Recorded.step h event
    · exact h
  | stop => exact h
  | finish => exact h

theorem tracks_run (session : TracedSession σ) (steps : List SessionStep)
    (h : session.Tracks exporter config) :
    (Runs.run (step exporter) session steps).Tracks exporter config :=
  Runs.invariant_run tracks_step steps h

theorem tracks_atCommand {session : TracedSession σ} (gap : Nat → List SessionStep)
    (h : session.Tracks exporter config) (k : Nat) :
    (session.atCommand exporter gap k).Tracks exporter config := by
  induction k with
  | zero => exact h
  | succ k ih => exact tracks_run _ (gap k) ih

/-- A session only adds to its history. -/
theorem history_run (session : TracedSession σ) (steps : List SessionStep) :
    session.history <+: (Runs.run (step exporter) session steps).history := by
  induction steps generalizing session with
  | nil => exact List.prefix_refl _
  | cons event steps ih =>
    refine List.IsPrefix.trans ?_ (ih (session.step exporter event))
    cases event with
    | record event =>
      unfold step
      simp only
      split
      · exact List.prefix_append _ _
      · exact List.prefix_refl _
    | stop => exact List.prefix_refl _
    | finish => exact List.prefix_refl _

theorem history_atCommand (session : TracedSession σ) (gap : Nat → List SessionStep)
    {k m : Nat} (hle : k ≤ m) :
    (session.atCommand exporter gap k).history <+:
      (session.atCommand exporter gap m).history := by
  induction m, hle using Nat.le_induction with
  | base => exact List.prefix_refl _
  | succ m _ ih => exact ih.trans (history_run _ (gap m))

/-- Some moment from the first to the last command at which the ring held the events. -/
def HeldAtOneInstant (exporter : TraceExporter σ) (config : DebugTraceRingConfig)
    (session : TracedSession σ) (gap : Nat → List SessionStep)
    (events : List DebugTraceEvent) : Prop :=
  ∃ k ≤ session.eventCount exporter, ∃ passed, passed <+: gap k ∧
    events = keptEvents config
      (Runs.run (step exporter) (session.atCommand exporter gap k) passed).history

/-- The numbers go up by one from event to event. -/
def ConsecutiveSequence (events : List DebugTraceEvent) : Prop :=
  ∃ first, ∀ (j : Nat) (event : DebugTraceEvent), events[j]? = some event →
    event.sequence.toNat = first + j

/-- The two compared numbers tell histories apart until the hit count wraps. -/
def GuardExact (exporter : TraceExporter σ) : Prop :=
  ∀ (config : DebugTraceRingConfig) (before after : TracedSession σ),
    before.Tracks exporter config → after.Tracks exporter config →
    before.history.length < 2 ^ 64 → after.history.length < 2 ^ 64 →
    (exporter.recording after.state).ringCount = (exporter.recording before.state).ringCount →
    exporter.guard after.state = exporter.guard before.state →
    after.history.length = before.history.length

theorem guardExact_single : GuardExact exportSingleTrace := by
  intro config before after hbefore hafter hlt hltAfter hcount hguard
  have hvalue := congrArg UInt64.toNat hguard
  simp only [exportSingleTrace, overwrittenCount_toNat] at hvalue
  have hhits := hbefore.hitCount
  have hhitsAfter := hafter.hitCount
  simp only [exportSingleTrace, id_eq] at hhits hhitsAfter
  rw [hhitsAfter, hhits, UInt64.toNat_ofNat_of_lt' hlt,
    UInt64.toNat_ofNat_of_lt' hltAfter] at hvalue
  have hstored := hbefore.ringCount_toNat
  have hstoredAfter := hafter.ringCount_toNat
  have hsame := congrArg UInt32.toNat hcount
  simp only [exportSingleTrace, id_eq] at hstored hstoredAfter hsame
  -- both lengths are the ring count and the overwritten events together
  omega

theorem guardExact_multi : GuardExact exportMultiTrace := by
  intro config before after hbefore hafter hlt hltAfter _ hguard
  have hvalue := congrArg UInt64.toNat hguard
  simp only [exportMultiTrace] at hvalue
  have hhits := hbefore.hitCount
  have hhitsAfter := hafter.hitCount
  simp only [exportMultiTrace] at hhits hhitsAfter
  rwa [hhitsAfter, hhits, UInt64.toNat_ofNat_of_lt' hlt, UInt64.toNat_ofNat_of_lt' hltAfter]
    at hvalue

/-- A read command answers from what is kept when it is answered. -/
theorem readEvent_eq {session : TracedSession σ} (h : session.Tracks exporter config)
    {index : Nat} (hindex : index < 2 ^ 32) :
    session.readEvent exporter index = (keptEvents config session.history)[index]? := by
  unfold readEvent
  rw [Recorded.getEvent_eq h, UInt32.toNat_ofNat_of_lt' hindex]

/-- The number of reads is the number of kept events. -/
theorem eventCount_eq {session : TracedSession σ} (h : session.Tracks exporter config)
    (hnonempty : session.eventCount exporter ≤ (keptEvents config session.history).length) :
    session.eventCount exporter = (keptEvents config session.history).length := by
  have hcount := Recorded.ringCount_toNat h
  rw [length_keptEvents] at hnonempty ⊢
  unfold eventCount at hnonempty ⊢
  simp only at hnonempty ⊢
  by_cases hpos : 0 < (exporter.recording session.state).ringCount
  · have hposNat : 0 < (exporter.recording session.state).ringCount.toNat := by
      simpa using UInt32.lt_iff_toNat_lt.1 hpos
    rw [if_pos hpos, hcount]
    rw [hcount] at hposNat
    have hring : config.ringSize ≠ 0 := by
      intro hzero
      rw [hzero] at hposNat
      simp at hposNat
    rw [if_neg hring]
  · have hzero : (exporter.recording session.state).ringCount.toNat = 0 := by
      have hle := UInt32.le_iff_toNat_le.1 (UInt32.not_lt.1 hpos)
      simpa using hle
    rw [if_neg hpos] at hnonempty ⊢
    by_cases hring : config.ringSize = 0
    · rw [if_pos hring] at hnonempty ⊢
      omega
    · -- a ring that stores nothing has no event to read
      have hsize : 0 < config.ringSize.toNat := by
        simpa using UInt32.lt_iff_toNat_lt.1 (UInt32.pos_iff_ne_zero.2 hring)
      rw [if_neg hring] at hnonempty
      omega

theorem eventCount_lt {session : TracedSession σ} (h : session.Tracks exporter config) :
    session.eventCount exporter ≤ 64 := by
  have hcount := Recorded.ringCount_toNat h
  have hsize := config.ringSize_le
  unfold eventCount
  simp only
  split <;> omega

/-- An export that succeeds wrote what the ring held when the first status was answered. -/
theorem exportEvents_instant (hguard : GuardExact exporter) {session : TracedSession σ}
    (htracks : session.Tracks exporter config) (gap : Nat → List SessionStep)
    (hlength : (session.atCommand exporter gap
      (session.eventCount exporter + 1)).history.length < 2 ^ 64)
    {events : List DebugTraceEvent} (h : session.exportEvents exporter gap = some events) :
    HeldAtOneInstant exporter config session gap events ∧ ConsecutiveSequence events := by
  unfold exportEvents at h
  simp only at h
  split at h
  · cases h
  split at h
  · cases h
  rename_i reads hreads
  split at h
  · cases h
  rename_i hsame
  rw [not_or, not_not, not_not] at hsame
  obtain rfl := Option.some.inj h
  have hhistory := @history_atCommand σ exporter session gap 0 _
    (Nat.zero_le (session.eventCount exporter + 1))
  have hbefore : session.history.length < 2 ^ 64 := lt_of_le_of_lt hhistory.length_le hlength
  -- nothing was recorded between the two statuses
  have hequal : (session.atCommand exporter gap (session.eventCount exporter + 1)).history =
      session.history :=
    (hhistory.eq_of_length (hguard config session _ htracks (tracks_atCommand gap htracks _)
      hbefore hlength hsame.1 hsame.2).symm).symm
  have hstill : ∀ k ≤ session.eventCount exporter + 1,
      (session.atCommand exporter gap k).history = session.history := by
    intro k hk
    have hmiddle := @history_atCommand σ exporter session gap k _ hk
    rw [hequal] at hmiddle
    have hstart := @history_atCommand σ exporter session gap 0 k (Nat.zero_le k)
    exact hmiddle.eq_of_length_le hstart.length_le
  have hsmall := eventCount_lt htracks
  have htaken : reads = (keptEvents config session.history).take (session.eventCount exporter) ∧
      session.eventCount exporter ≤ (keptEvents config session.history).length := by
    refine mapM_range_eq_take (fun index hindex => ?_) hreads
    rw [readEvent_eq (tracks_atCommand gap htracks _) (by omega), hstill _ (by omega)]
  have hkept : reads = keptEvents config session.history := by
    rw [htaken.1, eventCount_eq htracks htaken.2, List.take_length]
  constructor
  · exact ⟨0, Nat.zero_le _, [], List.nil_prefix, hkept⟩
  · refine ⟨session.history.length - (keptEvents config session.history).length + 1, ?_⟩
    intro j event hevent
    rw [hkept] at hevent
    rw [keptEvents_sequence hbefore hevent]
    omega

end TracedSession

/-! ## Exports -/

namespace TraceExporter

open TracedSession

/-- A module whose session has just started, at the first command of an export. -/
def sessionAt {σ : Type} (exporter : TraceExporter σ) (started : σ)
    (earlier : List SessionStep) : TracedSession σ :=
  Runs.run (TracedSession.step exporter) (TracedSession.start started) earlier

theorem tracks_sessionAt {σ : Type} {exporter : TraceExporter σ} {config : DebugTraceRingConfig}
    {started : σ} (hstart : Recorded config [] (exporter.recording started))
    (earlier : List SessionStep) :
    (exporter.sessionAt started earlier).Tracks exporter config :=
  tracks_run _ earlier hstart

/-- The exports of the sessions that start at `started` with this configuration, as long as the hit
    count does not wrap before the last command. -/
def ExportsOneInstant {σ : Type} (exporter : TraceExporter σ) (config : DebugTraceRingConfig)
    (started : σ) : Prop :=
  ∀ (earlier : List SessionStep) (gap : Nat → List SessionStep) (events : List DebugTraceEvent),
    let session := exporter.sessionAt started earlier
    (session.atCommand exporter gap (session.eventCount exporter + 1)).history.length < 2 ^ 64 →
    session.exportEvents exporter gap = some events →
    HeldAtOneInstant exporter config session gap events ∧ ConsecutiveSequence events

/-- An export is one instant, for both exporters: whatever was recorded before it and whatever happens
    between its commands. -/
theorem export_is_one_instant (config : DebugTraceRingConfig) (trace : DebugTraceState)
    (multi : DebugMultiTraceState) :
    ExportsOneInstant exportSingleTrace config (trace.debugTraceStart config) ∧
      ExportsOneInstant exportMultiTrace config (multi.debugMultiTraceStart config) := by
  constructor
  · intro earlier gap events session hlength hexport
    have htracks : (exportSingleTrace.sessionAt (trace.debugTraceStart config) earlier).Tracks
        exportSingleTrace config := tracks_sessionAt (Recorded.start config trace) earlier
    exact exportEvents_instant guardExact_single htracks gap hlength hexport
  · intro earlier gap events session hlength hexport
    have htracks : (exportMultiTrace.sessionAt (multi.debugMultiTraceStart config) earlier).Tracks
        exportMultiTrace config :=
      tracks_sessionAt (Recorded.start config multi.toDebugTraceState) earlier
    exact exportEvents_instant guardExact_multi htracks gap hlength hexport

end TraceExporter

/-! ## When the hit count wraps

A ring of two slots holds two events when the first status is answered. Between the two reads `2 ^ 64`
other events are recorded: both statuses agree, and the export mixes two moments. -/

namespace WrappedExport

open TracedSession

def twoSlots : DebugTraceRingConfig where
  targetCount := 1
  ringSize := 2
  durationFromFirstHit := false
  targetCount_le := oneTarget.targetCount_le
  ringSize_le := ringOfTwo.ringSize_le

def other : DebugTraceEvent := { (default : DebugTraceEvent) with pc := 1 }

def session : TracedSession DebugTraceState :=
  exportSingleTrace.sessionAt ((default : DebugTraceState).debugTraceStart twoSlots)
    [.record default, .record default]

def gap (count : Nat) (k : Nat) : List SessionStep :=
  if k = 1 then List.replicate count (.record other) else []

theorem tracks_session : session.Tracks exportSingleTrace twoSlots :=
  @TraceExporter.tracks_sessionAt _ exportSingleTrace _ _ (Recorded.start twoSlots default) _

theorem run_records {s : TracedSession DebugTraceState} (hactive : s.active = true) (count : Nat) :
    (Runs.run (step exportSingleTrace) s (List.replicate count (.record other))).history =
        s.history ++ List.replicate count other ∧
      (Runs.run (step exportSingleTrace) s (List.replicate count (.record other))).active = true := by
  induction count generalizing s with
  | zero => simp [hactive]
  | succ count ih =>
    rw [List.replicate_succ, Runs.run_cons]
    have hstep : s.step exportSingleTrace (.record other) =
        { s with
          state := exportSingleTrace.recordEvent s.state other
          history := s.history ++ [other] } := by
      simp [step, hactive]
    have hrest := ih (s := s.step exportSingleTrace (.record other)) (by rw [hstep]; exact hactive)
    refine ⟨?_, hrest.2⟩
    rw [hrest.1, hstep, List.append_assoc, List.replicate_succ]
    rfl

theorem history_atCommand (count k : Nat) :
    (session.atCommand exportSingleTrace (gap count) k).history =
        [default, default] ++ (if k < 2 then [] else List.replicate count other) ∧
      (session.atCommand exportSingleTrace (gap count) k).active = true := by
  induction k with
  | zero => exact ⟨rfl, rfl⟩
  | succ k ih =>
    have hrun : session.atCommand exportSingleTrace (gap count) (k + 1) =
        Runs.run (step exportSingleTrace) (session.atCommand exportSingleTrace (gap count) k)
          (gap count k) := rfl
    rw [hrun]
    by_cases hone : k = 1
    · subst hone
      have hrecords := run_records ih.2 count
      rw [ih.1] at hrecords
      simpa [gap] using hrecords
    · have hgap : gap count k = [] := if_neg hone
      rw [hgap, Runs.run_nil, ih.1]
      refine ⟨?_, ih.2⟩
      by_cases hlt : k < 2
      · rw [if_pos hlt, if_pos (by omega)]
      · rw [if_neg hlt, if_neg (by omega)]

/-- The history of the session at any moment of the export. -/
def historyAfter (m : Nat) : List DebugTraceEvent :=
  [default, default] ++ List.replicate m other

theorem getElem?_keptEvents (m j : Nat) :
    (keptEvents twoSlots (historyAfter m))[j]? =
      (historyAfter m)[m + j]?.map fun event =>
        { event with sequence := UInt64.ofNat (m + j + 1) } := by
  have hfirst : (historyAfter m).length - twoSlots.ringSize.toNat = m := by
    rw [historyAfter, List.length_append, List.length_replicate]
    exact Nat.add_sub_cancel_left 2 m
  have hring : ¬ twoSlots.ringSize = 0 := by decide
  simp only [keptEvents, if_neg hring]
  rw [hfirst, List.getElem?_drop, getElem?_numbered]

/-- Past the first two, every event is `other`. -/
theorem getElem?_historyAfter {m j : Nat} (hj : j < m) : (historyAfter m)[j + 2]? = some other := by
  rw [historyAfter, List.getElem?_append_right (by simp)]
  exact List.getElem?_replicate_of_lt (by simpa using hj)

def mixed : List DebugTraceEvent :=
  [{ (default : DebugTraceEvent) with sequence := 1 }, { other with sequence := 2 }]

/-- The ring never holds the mixed events. -/
theorem keptEvents_ne_mixed (m : Nat) : keptEvents twoSlots (historyAfter m) ≠ mixed := by
  intro heq
  have hfirst := getElem?_keptEvents m 0
  have hsecond := getElem?_keptEvents m 1
  rw [heq] at hfirst hsecond
  match m with
  | 0 => exact absurd (congrArg (fun event => event.map DebugTraceEvent.pc) hsecond) (by decide)
  | 1 =>
    exact absurd (congrArg (fun event => event.map DebugTraceEvent.sequence) hfirst) (by decide)
  | m + 2 =>
    have hother : (historyAfter (m + 2))[m + 2 + 0]? = some other :=
      getElem?_historyAfter (m := m + 2) (j := m) (by omega)
    rw [hother] at hfirst
    have hpc : some (0 : UInt64) = some 1 :=
      congrArg (fun event => event.map DebugTraceEvent.pc) hfirst
    exact absurd hpc (by decide)

theorem history_moment {count k : Nat} {passed : List SessionStep} (hpassed : passed <+: gap count k) :
    ∃ m, (Runs.run (step exportSingleTrace)
      (session.atCommand exportSingleTrace (gap count) k) passed).history = historyAfter m := by
  obtain ⟨hhistory, hactive⟩ := history_atCommand count k
  by_cases hone : k = 1
  · subst hone
    have hreplicate : passed = List.replicate passed.length (.record other) :=
      List.eq_replicate_length.2 fun entry hentry =>
        List.eq_of_mem_replicate (hpassed.subset hentry)
    refine ⟨passed.length, ?_⟩
    rw [hreplicate, (run_records hactive _).1, hhistory, List.length_replicate]
    rfl
  · have hnil : passed = [] := by
      rw [show gap count k = [] from if_neg hone] at hpassed
      exact List.prefix_nil.1 hpassed
    rw [hnil, Runs.run_nil, hhistory]
    by_cases hlt : k < 2
    · exact ⟨0, by rw [if_pos hlt]; rfl⟩
    · exact ⟨count, by rw [if_neg hlt]; rfl⟩

theorem eventCount_session : session.eventCount exportSingleTrace = 2 := by
  rw [eventCount_eq tracks_session]
  · rfl
  · rw [show (keptEvents twoSlots session.history).length = 2 from rfl]
    exact le_of_eq rfl

theorem readEvent_atCommand (count k : Nat) (index : Nat) (hindex : index < 2) :
    (session.atCommand exportSingleTrace (gap count) k).readEvent exportSingleTrace index =
      (keptEvents twoSlots ([default, default] ++
        (if k < 2 then [] else List.replicate count other)))[index]? := by
  rw [readEvent_eq (tracks_atCommand _ tracks_session k) (by omega), (history_atCommand count k).1]

theorem exportEvents_wrapped {count : Nat} (hpos : 0 < count)
    (hwrap : UInt64.ofNat (count + 2) = 2) :
    session.exportEvents exportSingleTrace (gap count) = some mixed := by
  have hlast : (session.atCommand exportSingleTrace (gap count) 3).history =
      historyAfter count := (history_atCommand count 3).1
  have hafter := tracks_atCommand (gap count) tracks_session 3
  have hcount : (exportSingleTrace.recording session.state).ringCount = 2 := rfl
  have hlength : (historyAfter count).length = count + 2 := by
    rw [historyAfter, List.length_append, List.length_replicate, Nat.add_comm]
    rfl
  have hcountAfter : (exportSingleTrace.recording
      (session.atCommand exportSingleTrace (gap count) 3).state).ringCount = 2 := by
    rw [← UInt32.toNat_inj, Recorded.ringCount_toNat hafter, hlast, hlength]
    exact min_eq_right (Nat.le_add_left 2 count)
  have hguard : exportSingleTrace.guard
      (session.atCommand exportSingleTrace (gap count) 3).state =
      exportSingleTrace.guard session.state := by
    have hhits := hafter.hitCount
    rw [hlast, hlength] at hhits
    simp only [exportSingleTrace, id_eq] at hhits hcountAfter ⊢
    rw [hhits, hcountAfter, hwrap]
    rfl
  have hfirst : (session.atCommand exportSingleTrace (gap count) 1).readEvent
      exportSingleTrace 0 = some { (default : DebugTraceEvent) with sequence := 1 } := by
    rw [readEvent_atCommand _ _ _ (by omega), if_pos (by omega)]
    rfl
  have hsecond : (session.atCommand exportSingleTrace (gap count) 2).readEvent
      exportSingleTrace 1 = some { other with sequence := 2 } := by
    rw [readEvent_atCommand _ _ _ (by omega), if_neg (by omega)]
    have hkept := getElem?_keptEvents count 1
    have hother : (historyAfter count)[count + 1]? = some other := by
      rw [show count + 1 = count - 1 + 2 by omega]
      exact getElem?_historyAfter (m := count) (j := count - 1) (by omega)
    rw [hother, hwrap] at hkept
    exact hkept
  have hreads : (List.range 2).mapM (fun index =>
      (session.atCommand exportSingleTrace (gap count) (index + 1)).readEvent
        exportSingleTrace index) = some mixed := by
    have hrange : List.range 2 = [0, 1] := rfl
    rw [hrange]
    simp only [List.mapM_cons, List.mapM_nil, hfirst, hsecond, Nat.zero_add]
    rfl
  have hbefore : session.atCommand exportSingleTrace (gap count) 0 = session := rfl
  unfold exportEvents
  simp only [hbefore, eventCount_session]
  rw [if_neg (by rw [hcount]; decide), hreads]
  simp only
  rw [if_neg]
  rintro (hchanged | hchanged)
  · exact hchanged (by rw [hcountAfter, hcount])
  · exact hchanged hguard

end WrappedExport

open WrappedExport in
/-- The export succeeds, and no moment of it had these events in the ring. -/
theorem export_mixes_two_instants :
    session.exportEvents exportSingleTrace (gap (2 ^ 64)) = some mixed ∧
      ¬ TracedSession.HeldAtOneInstant exportSingleTrace twoSlots session (gap (2 ^ 64)) mixed := by
  refine ⟨exportEvents_wrapped (by decide) rfl, ?_⟩
  rintro ⟨k, -, passed, hpassed, hevents⟩
  obtain ⟨m, hm⟩ := history_moment hpassed
  rw [hm] at hevents
  exact keptEvents_ne_mixed m hevents.symm

/-- The trace is stopped behind the first status, and what is hit afterwards is not recorded. -/
def stoppedGap (k : Nat) : List SessionStep :=
  if k = 0 then [.stop] else [.record WrappedExport.other]

open WrappedExport in
theorem export_is_one_instant_stopped :
    session.exportEvents exportSingleTrace stoppedGap =
        some (keptEvents twoSlots [default, default]) ∧
      TracedSession.HeldAtOneInstant exportSingleTrace twoSlots session stoppedGap
        (keptEvents twoSlots [default, default]) := by
  have hexport : session.exportEvents exportSingleTrace stoppedGap =
      some (keptEvents twoSlots [default, default]) := rfl
  exact ⟨hexport, ((TraceExporter.export_is_one_instant twoSlots default
    { toDebugTraceState := default, lastSequence := 0 }).1 [.record default, .record default]
    stoppedGap _ (by decide) hexport).1⟩

end SysAgent
