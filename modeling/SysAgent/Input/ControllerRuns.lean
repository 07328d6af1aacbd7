import SysAgent.Input.ControllerDevice
import SysAgent.Lib.Runs

set_option autoImplicit false

/-! # Runs of the virtual controller

Any thread may come next, and the services answer as they like. Between two sections the console
shows what the inputs since the last detach ask for, or nothing, and a device that is still attached
is the one of the handle. The slot that a takeover took is owed to the player until the idle service
gives it back. -/

namespace SysAgent

/-! ## What the inputs ask for -/

def HiddbgHdlsState.after (state : HiddbgHdlsState) : ControllerStep → HiddbgHdlsState
  | .press btn => state.press btn
  | .release btn => state.release btn
  | .setStickState side dxVal dyVal => state.setStick side dxVal dyVal
  | .detachController => state.cleared
  | _ => state

namespace Controller

def askedFor (steps : List ControllerStep) : HiddbgHdlsState :=
  steps.foldl .after { HiddbgHdlsState.zero with battery_level := 4 }

variable {w : HidWorld} {s t u : Controller} {state asked : HiddbgHdlsState}

structure Inv (w : HidWorld) (s : Controller) (asked : HiddbgHdlsState) : Prop where
  intended : s.charged.controllerState = asked
  device : Down w s ∨ Up w s s.controllerState

/-- What the invariant speaks of. -/
def deviceFields (s : Controller) :=
  (s.bControllerIsInitialised, s.workmem, s.controllerHandle, s.controllerState, hdls s.calls)

theorem Inv.congr (h : Inv w s asked) (heq : t.deviceFields = s.deviceFields) :
    Inv w t asked := by
  simp only [deviceFields, Prod.mk.injEq] at heq
  obtain ⟨hinit, hworkmem, hhandle, hstate, hcalls⟩ := heq
  refine ⟨?_, h.device.imp ?_ ?_⟩
  · rw [← h.intended, charged, charged, hstate]
  · intro hdown
    refine ⟨hinit.trans hdown.initialised, hworkmem.trans hdown.workmem, ?_⟩
    rw [hstate]
    exact hdown.holds.congr hcalls hworkmem hhandle
  · intro hup
    refine ⟨hinit.trans hup.initialised, ?_, ?_, ?_⟩
    · rw [hstate]
      exact hup.battery
    · rw [hworkmem]
      exact hup.granted
    · rw [hstate]
      exact hup.holds.congr hcalls hworkmem hhandle

theorem Inv.kicks (h : Inv w s asked) (hkicks : Kicks s t) : Inv w t asked := by
  refine h.congr ?_
  have hcalls := hkicks.hdls
  obtain ⟨_, _, _, _, _, -, -, rfl⟩ := hkicks
  simp only [deviceFields, hcalls]

/-- What is down shows nothing, whatever the state is set to. -/
theorem Down.withState (h : Down w s) (state : HiddbgHdlsState) :
    Down w { s with controllerState := state } := by
  refine ⟨h.initialised, h.workmem, ⟨h.holds.buffer, ?_, h.holds.sessions⟩⟩
  rcases h.holds.held with hnone | ⟨hworkmem, -⟩
  · exact .inl hnone
  · exact absurd (h.workmem.symm.trans hworkmem) Bool.false_ne_true

/-- An input: the state is changed, and written. -/
theorem Inv.write (hw : w.Lawful) (h : Inv w s asked) (state : HiddbgHdlsState)
    (hbattery : state.battery_level = s.controllerState.battery_level) :
    Inv w ({ s with controllerState := state }.writeControllerStateLocked w).2
        { state with battery_level := 4 } ∧
      (({ s with controllerState := state }.writeControllerStateLocked w).1 = 0 →
        (hdls ({ s with controllerState := state }.writeControllerStateLocked w).2.calls).shown =
          some { state with battery_level := 4 }) := by
  -- until the write the console still shows the state from before
  have hdevice : Down w { s with controllerState := state } ∨
      Up w { s with controllerState := state } s.controllerState := by
    refine h.device.imp (Down.withState · state) ?_
    intro hup
    exact ⟨hup.initialised, hbattery.trans hup.battery, hup.granted, hup.holds.congr rfl rfl rfl⟩
  obtain ⟨hup, hstate, hshown⟩ := writeControllerStateLocked_up hw hdevice
  refine ⟨⟨?_, .inr ?_⟩, hshown⟩
  · rw [charged, hstate]
    rfl
  · rw [hstate]
    exact hup

theorem Inv.teardown (h : Inv w s asked) : Inv w (s.teardownControllerLocked w) asked := by
  refine ⟨?_, .inl (teardownControllerLocked_down h.device)⟩
  rw [← h.intended, charged, (keeps_teardownControllerLocked (w := w) (k := False) s).controllerState]
  rfl

theorem Inv.ensure (hw : w.Lawful) (h : Inv w s asked) :
    Inv w (s.ensureControllerLocked w).2 asked := by
  refine ⟨?_, .inr ?_⟩
  · rw [(keeps_ensureControllerLocked (w := w) s).controllerState]
    exact h.intended
  · rcases ensureControllerLocked_up hw h.device with ⟨hup, hsame⟩ | hup
    · rw [hsame]
      exact hup
    · exact hup

theorem Inv.init (hw : w.Lawful) (h : Inv w s asked) : Inv w (s.initControllerLocked w) asked := by
  by_cases hinit : s.bControllerIsInitialised = true
  · rw [initControllerLocked, if_pos hinit]
    exact h
  · have hnone := Bool.eq_false_iff.2 hinit
    have hdown : Down w s := by
      rcases h.device with hdown | hup
      · exact hdown
      · exact absurd hup.initialised hinit
    have hstate := (keeps_initControllerLocked (w := w) (k := False) hnone).controllerState
    refine ⟨?_, .inr ?_⟩
    · rw [charged, hstate]
      exact h.intended
    · rw [hstate]
      exact initControllerLocked_up hw hdown

theorem Inv.detach (h : Inv w s asked) : Inv w (s.detachController w) asked.cleared := by
  have htorn := h.teardown
  refine ⟨?_, .inl ?_⟩
  · rw [← htorn.intended]
    rfl
  · exact (teardownControllerLocked_down h.device).withState _

theorem Inv.refresh (h : Inv w s asked) (now : UInt64) :
    Inv w (s.controllerRefreshIfIdle w now) asked := by
  have hsigned := (h.congr (t := { s with controllerLastInputTick := now }) rfl).kicks
    (asks_controllerTopologySignature (w := w) _).kicks
  unfold controllerRefreshIfIdle
  dsimp only
  split_ifs
  · refine Inv.teardown ?_
    exact hsigned.congr rfl
  · exact hsigned
  · exact h.congr rfl

/-- What one part of `controllerServiceIdle` does: it asks for a sample or the time and goes on, to
    the lock only with another controller or with the slot owed; or it decides under the lock. -/
theorem controllerServiceIdle_cases (s : Controller) :
    (∃ sample tick place t, (∀ now, s.idlePlace ≠ .due now) ∧
      Asks { s with controllerRealPadSample := sample, controllerRealPadSampleTick := tick } t ∧
        s.controllerServiceIdle w = { t with idlePlace := place } ∧
          ∀ now, place = .due now → ∃ fresh seen, s.idlePlace = .sampled fresh seen ∧
            (seen.railPads < seen.otherPads ∨ s.controllerYieldAfterUse = true)) ∨
    ∃ now, s.idlePlace = .due now ∧
      s.controllerServiceIdle w =
        if s.bControllerIsInitialised ∧ s.isIdle w now ∧ s.controllerSequenceActive = false ∧
            s.controllerState.neutral then
          { teardownControllerLocked w { s with idlePlace := .resting } with
            controllerTopology := 0
            controllerYieldAfterUse := false }
        else { s with idlePlace := .resting } := by
  have hplaces : s.idlePlace = .resting ∨ (∃ fresh seen, s.idlePlace = .sampled fresh seen) ∨
      ∃ now, s.idlePlace = .due now := by
    cases s.idlePlace with
    | resting => exact .inl rfl
    | sampled fresh seen => exact .inr (.inl ⟨fresh, seen, rfl⟩)
    | due now => exact .inr (.inr ⟨now, rfl⟩)
  rcases hplaces with hplace | ⟨fresh, seen, hplace⟩ | ⟨now, hplace⟩
  · have heq : s.controllerServiceIdle w = s.idleStart w := by
      rw [controllerServiceIdle, hplace]
    have hrest : ∀ now, s.idlePlace ≠ .due now := by
      rw [hplace]
      rintro now ⟨⟩
    have hstay : ∀ now, s.idlePlace = .due now → ∃ fresh seen, s.idlePlace = .sampled fresh seen ∧
        (seen.railPads < seen.otherPads ∨ s.controllerYieldAfterUse = true) :=
      fun now h => absurd h (hrest now)
    have hticked := asks_systemTick (w := w) s
    rw [heq]
    refine .inl ?_
    -- no device, no release time, a sample that is still fresh, or a new one
    unfold idleStart
    dsimp only
    split_ifs
    · exact ⟨_, _, s.idlePlace, s, hrest, Asks.refl s, rfl, hstay⟩
    · exact ⟨_, _, s.idlePlace, s, hrest, Asks.refl s, rfl, hstay⟩
    · exact ⟨_, _, _, _, hrest, hticked, rfl, by rintro now ⟨⟩⟩
    · exact ⟨_, _, _, _, hrest, hticked.trans (asks_controllerPadSampleNow (w := w) _), rfl,
        by rintro now ⟨⟩⟩
  · have heq : s.controllerServiceIdle w = s.idleDecide w fresh seen := by
      rw [controllerServiceIdle, hplace]
    have hsampled : ∀ now, s.idlePlace ≠ .due now := by
      rw [hplace]
      rintro now ⟨⟩
    have hgoes : ¬ (¬ seen.railPads < seen.otherPads ∧ s.controllerYieldAfterUse = false) →
        seen.railPads < seen.otherPads ∨ s.controllerYieldAfterUse = true := by
      intro h
      by_cases hother : seen.railPads < seen.otherPads
      · exact .inl hother
      · exact .inr (Bool.not_eq_false _ ▸ fun howed => h ⟨hother, howed⟩)
    rw [heq]
    refine .inl ?_
    unfold idleDecide
    cases fresh with
    | none =>
      dsimp only
      split_ifs with hstay
      · exact ⟨_, _, _, s, hsampled, Asks.refl s, rfl, by rintro now ⟨⟩⟩
      · exact ⟨_, _, _, _, hsampled, asks_systemTick (w := w) s, rfl,
          fun _ _ => ⟨none, seen, hplace, hgoes hstay⟩⟩
    | some tick =>
      dsimp only
      split_ifs with hstay
      · exact ⟨seen, tick, _, _, hsampled, Asks.refl _, rfl, by rintro now ⟨⟩⟩
      · exact ⟨seen, tick, _, _, hsampled, asks_systemTick (w := w) _, rfl,
          fun _ _ => ⟨some tick, seen, hplace, hgoes hstay⟩⟩
  · have heq : s.controllerServiceIdle w = s.idleRelease w now := by
      rw [controllerServiceIdle, hplace]
    exact .inr ⟨now, hplace, heq⟩

theorem Inv.serviceIdle (h : Inv w s asked) : Inv w (s.controllerServiceIdle w) asked := by
  rcases controllerServiceIdle_cases (w := w) s with
    ⟨sample, tick, place, t, -, hasks, heq, -⟩ | ⟨now, -, heq⟩
  · have hstored : Inv w { s with
        controllerRealPadSample := sample
        controllerRealPadSampleTick := tick } asked := h.congr rfl
    rw [heq]
    exact (hstored.kicks hasks.kicks).congr rfl
  · have hresting : Inv w { s with idlePlace := .resting } asked := h.congr rfl
    rw [heq]
    split_ifs
    · exact hresting.teardown.congr rfl
    · exact hresting

theorem Inv.serviceReconnect (h : Inv w s asked) :
    Inv w (s.controllerServiceReconnect w) asked := by
  have hticked := (h.congr (t := { s with
    reconnect := s.reconnect.serviceReconnect (s.reconnectPass w) }) rfl).kicks
      (asks_called _ (c := .systemTick (s.reconnectPass w).now) rfl).kicks
  unfold controllerServiceReconnect
  dsimp only
  split_ifs
  · exact h
  · refine hticked.congr ?_
    simp only [deviceFields, called, hdls_concat, Hdls.after]
  · exact hticked

theorem Inv.kickPad (h : Inv w s asked) (pad : UInt64) :
    Inv w ((s.controllerSaveAddress w pad).disconnectUniquePad w pad).2 asked := by
  obtain ⟨more, reconnect, hmore, heq⟩ := controllerSaveAddress_spec (w := w) pad s
  refine h.congr ?_
  rw [heq]
  have hquiet : hdls (s.calls ++ more) = hdls s.calls :=
    hdls_quiet fun call hmem => HidCall.quiet_of_asks (hmore call hmem)
  simp only [deviceFields, disconnectUniquePad, called, hdls_concat, hquiet, Hdls.after]

theorem inv_step (hw : w.Lawful) (h : Inv w s asked) (a : ControllerStep) :
    Inv w (s.step w a) (asked.after a) := by
  cases a with
  | press btn =>
    have hwritten := (h.write hw (s.controllerState.press btn) rfl).1
    rw [← h.intended]
    exact hwritten
  | release btn =>
    have hwritten := (h.write hw (s.controllerState.release btn) rfl).1
    rw [← h.intended]
    exact hwritten
  | setStickState side dxVal dyVal =>
    cases side with
    | left =>
      have hwritten := (h.write hw (s.controllerState.setStick .left dxVal dyVal) rfl).1
      rw [← h.intended]
      exact hwritten
    | right =>
      have hwritten := (h.write hw (s.controllerState.setStick .right dxVal dyVal) rfl).1
      rw [← h.intended]
      exact hwritten
  | initController => exact h.init hw
  | ensureController => exact h.ensure hw
  | sequenceActive active => exact h.congr rfl
  | sequenceTick => exact (h.kicks (asks_systemTick (w := w) s).kicks).congr rfl
  | detachController => exact h.detach
  | controllerRefreshIfIdle now => exact h.refresh now
  | controllerServiceIdle => exact h.serviceIdle
  | controllerServiceReconnect => exact h.serviceReconnect
  | kickCommandPad pad => exact h.kickPad pad
  | reconnectCommand address => exact h.congr rfl
  | controllerType type => exact h.congr rfl
  | controllerIdleRelease ms => exact h.congr rfl
  | controllerTakeover mode => exact h.congr rfl
  | debugResultCodes shown => exact h.congr rfl

/-! ## Counting the writes -/

/-- The errors that a sequence of results is reported by: each that differs from the one before. -/
def newErrors : UInt32 → List UInt32 → List UInt32
  | _, [] => []
  | last, rc :: rest => (if rc ≠ 0 ∧ rc ≠ last then [rc] else []) ++ newErrors rc rest

/-- The results of the writes of a run. -/
def writeResults (w : HidWorld) : Controller → List ControllerStep → List UInt32
  | _, [] => []
  | s, a :: as => (s.turn w a).1.toList ++ writeResults w (s.step w a) as

/-- What is counted and reported between `s` and `t` if the writes there have these results. -/
structure Counts (s t : Controller) (results : List UInt32) : Prop where
  stateWrites :
    t.controllerStateWrites = s.controllerStateWrites + UInt64.ofNat (results.count 0)
  lastStateError :
    t.controllerLastStateError = results.getLast?.getD s.controllerLastStateError
  reported : t.calls.filterMap HidCall.reported =
    s.calls.filterMap HidCall.reported ++ newErrors s.controllerLastStateError results

theorem newErrors_append (last : UInt32) (first second : List UInt32) :
    newErrors last (first ++ second) =
      newErrors last first ++ newErrors (first.getLast?.getD last) second := by
  induction first generalizing last with
  | nil => rfl
  | cons rc rest ih =>
    rw [List.cons_append, newErrors, newErrors, ih, List.append_assoc]
    cases rest with
    | nil => rfl
    | cons next rest => rw [List.getLast?_cons_cons, List.getLast?_cons]; rfl

theorem Counts.trans {first second : List UInt32} (hst : Counts s t first)
    (htu : Counts t u second) : Counts s u (first ++ second) := by
  constructor
  · rw [htu.stateWrites, hst.stateWrites, List.count_append, UInt64.ofNat_add, UInt64.add_assoc]
  · rw [htu.lastStateError, hst.lastStateError, List.getLast?_append]
    cases second.getLast? <;> rfl
  · rw [htu.reported, hst.reported, hst.lastStateError, newErrors_append, List.append_assoc]

theorem Keeps.counts {k : Prop} (h : Keeps k s t) : Counts s t [] := by
  refine ⟨?_, h.lastStateError, ?_⟩
  · rw [h.stateWrites]
    exact (UInt64.add_zero _).symm
  · obtain ⟨more, hmore, hplain, -⟩ := h.calls
    rw [hmore, List.filterMap_append]
    refine congrArg _ (List.filterMap_eq_nil_iff.2 ?_)
    intro call hmem
    rcases hplain call hmem with hcall | ⟨-, hcall⟩
    · exact HidCall.reported_of_plain hcall
    · exact HidCall.reported_of_disconnects hcall

theorem counts_writeControllerStateLocked (s : Controller) :
    Counts s (s.writeControllerStateLocked w).2 [(s.writeControllerStateLocked w).1] := by
  have htried := (keeps_tryWrite (w := w) s).counts
  obtain ⟨ready, more, -, hreported, heq⟩ := concludeWrite_spec (w := w) (s.tryWrite w).1
    (s.tryWrite w).2
  have hlast : (s.tryWrite w).2.controllerLastStateError = s.controllerLastStateError :=
    htried.lastStateError
  unfold writeControllerStateLocked
  dsimp only
  rw [heq]
  refine ⟨?_, rfl, ?_⟩
  · have hwrites : (s.tryWrite w).2.controllerStateWrites = s.controllerStateWrites :=
      (keeps_tryWrite (w := w) s).stateWrites
    dsimp only
    rw [hwrites]
    split_ifs with hrc
    · rw [hrc]
      rfl
    · rw [List.count_eq_zero.2 (fun hmem => hrc (List.mem_singleton.1 hmem).symm)]
      exact (UInt64.add_zero _).symm
  · have hcalls : (s.tryWrite w).2.calls.filterMap HidCall.reported =
        s.calls.filterMap HidCall.reported ++ [] := htried.reported
    dsimp only
    rw [List.filterMap_append, hcalls, List.append_nil, hreported, hlast]
    simp only [newErrors, List.append_nil]

theorem counts_initControllerLocked (s : Controller) : Counts s (s.initControllerLocked w) [] := by
  by_cases hinit : s.bControllerIsInitialised = true
  · rw [initControllerLocked, if_pos hinit]
    exact (Keeps.refl (k := False) s).counts
  · have h := (keeps_initControllerLocked (w := w) (k := False)
      (Bool.eq_false_iff.2 hinit)).counts
    exact ⟨h.stateWrites, h.lastStateError, h.reported⟩

theorem keeps_controllerRefreshIfIdle (s : Controller) (now : UInt64) :
    Keeps False s (s.controllerRefreshIfIdle w now) := by
  have hbase : Keeps False s { s with controllerLastInputTick := now } :=
    (Keeps.refl s).of_kept rfl
  have hsigned := hbase.trans (asks_controllerTopologySignature (w := w) _).keeps
  unfold controllerRefreshIfIdle
  dsimp only
  split_ifs
  · refine Keeps.trans ?_ (keeps_teardownControllerLocked _)
    exact hsigned.of_kept rfl
  · exact hsigned
  · exact hbase

theorem counts_controllerServiceIdle (s : Controller) :
    Counts s (s.controllerServiceIdle w) [] := by
  rcases controllerServiceIdle_cases (w := w) s with
    ⟨sample, tick, place, t, -, hasks, heq, -⟩ | ⟨now, -, heq⟩
  · have hstored : Keeps False s { s with
        controllerRealPadSample := sample
        controllerRealPadSampleTick := tick } := (Keeps.refl s).of_kept rfl
    have h := (hstored.trans hasks.keeps).counts
    rw [heq]
    exact ⟨h.stateWrites, h.lastStateError, h.reported⟩
  · have hresting := (Keeps.refl (k := False) s).counts
    have htorn := (keeps_teardownControllerLocked (w := w) (k := False)
      { s with idlePlace := .resting }).counts
    rw [heq]
    split_ifs
    · exact ⟨htorn.stateWrites, htorn.lastStateError, htorn.reported⟩
    · exact ⟨hresting.stateWrites, hresting.lastStateError, hresting.reported⟩

theorem counts_controllerServiceReconnect (s : Controller) :
    Counts s (s.controllerServiceReconnect w) [] := by
  have hticked : Keeps False s (s.called (.systemTick (s.reconnectPass w).now)) :=
    keeps_called s rfl
  have h := hticked.counts
  unfold controllerServiceReconnect
  dsimp only
  split_ifs
  · exact (Keeps.refl (k := False) s).counts
  · refine ⟨h.stateWrites, h.lastStateError, ?_⟩
    simp only [called, List.append_assoc, List.filterMap_append]
    rfl
  · exact ⟨h.stateWrites, h.lastStateError, h.reported⟩

theorem counts_kickPad (pad : UInt64) (s : Controller) :
    Counts s ((s.controllerSaveAddress w pad).disconnectUniquePad w pad).2 [] := by
  obtain ⟨more, reconnect, hmore, heq⟩ := controllerSaveAddress_spec (w := w) pad s
  rw [heq]
  have hnone : more.filterMap HidCall.reported = [] := by
    rw [List.filterMap_eq_nil_iff]
    intro call hmem
    exact HidCall.reported_of_plain (HidCall.plain_of_asks (hmore call hmem))
  refine ⟨(UInt64.add_zero _).symm, rfl, ?_⟩
  simp only [disconnectUniquePad, called, List.filterMap_append, hnone, List.append_nil]
  rfl

theorem counts_step (s : Controller) (a : ControllerStep) :
    Counts s (s.step w a) (s.turn w a).1.toList := by
  have hnone : ∀ t : Controller, t.kept = s.kept → Counts s t [] :=
    fun t heq => ((Keeps.refl (k := False) s).of_kept heq).counts
  have hwritten : ∀ state, Counts s
      ({ s with controllerState := state }.writeControllerStateLocked w).2
        [({ s with controllerState := state }.writeControllerStateLocked w).1] := by
    intro state
    have h := counts_writeControllerStateLocked (w := w) { s with controllerState := state }
    exact ⟨h.stateWrites, h.lastStateError, h.reported⟩
  cases a with
  | press btn => exact hwritten _
  | release btn => exact hwritten _
  | setStickState side dxVal dyVal => exact hwritten _
  | initController => exact counts_initControllerLocked s
  | ensureController =>
    have h := (keeps_ensureControllerLocked (w := w) s).counts
    exact ⟨h.stateWrites, h.lastStateError, h.reported⟩
  | sequenceActive active => exact hnone _ rfl
  | sequenceTick =>
    have h : Keeps False s (s.systemTick w).2 := (asks_systemTick s).keeps
    exact ⟨h.counts.stateWrites, h.counts.lastStateError, h.counts.reported⟩
  | detachController =>
    have h := (keeps_teardownControllerLocked (w := w) (k := False) s).counts
    exact ⟨h.stateWrites, h.lastStateError, h.reported⟩
  | controllerRefreshIfIdle now => exact (keeps_controllerRefreshIfIdle s now).counts
  | controllerServiceIdle => exact counts_controllerServiceIdle s
  | controllerServiceReconnect => exact counts_controllerServiceReconnect s
  | kickCommandPad pad => exact counts_kickPad pad s
  | reconnectCommand address => exact hnone _ rfl
  | controllerType type => exact hnone _ rfl
  | controllerIdleRelease ms => exact hnone _ rfl
  | controllerTakeover mode => exact ⟨(UInt64.add_zero _).symm, rfl, (List.append_nil _).symm⟩
  | debugResultCodes shown => exact hnone _ rfl

/-- What a run counts and reports. -/
theorem counts_run (s : Controller) (steps : List ControllerStep) :
    Counts s (Runs.run (Controller.step w) s steps) (writeResults w s steps) := by
  induction steps generalizing s with
  | nil => exact (Keeps.refl (k := False) s).counts
  | cons a as ih => exact (counts_step s a).trans (ih _)

/-! ## The console shows what is asked for -/

/-- What the console has of the agent between two sections. -/
structure ShowsAsked (w : HidWorld) (s : Controller) (asked : HiddbgHdlsState) : Prop where
  intended : s.charged.controllerState = asked
  shown : (hdls s.calls).shown = none ∨ (hdls s.calls).shown = some asked
  held : (hdls s.calls).held = [] ∨
    s.bControllerIsInitialised = true ∧ (hdls s.calls).held = [s.controllerHandle]
  buffer : (hdls s.calls).buffer = true → s.bControllerIsInitialised = true
  sessions : w.Grants → (hdls s.calls).sessions = if s.bControllerIsInitialised then 1 else 0

theorem Inv.showsAsked (h : Inv w s asked) : ShowsAsked w s asked := by
  rcases h.device with hdown | hup
  · have hnone : (hdls s.calls).held = [] ∧ (hdls s.calls).shown = none := by
      rcases hdown.holds.held with hnone | ⟨hworkmem, -⟩
      · exact hnone
      · exact absurd (hdown.workmem.symm.trans hworkmem) Bool.false_ne_true
    refine ⟨h.intended, .inl hnone.2, .inl hnone.1, ?_, ?_⟩
    · intro hbuffer
      rw [hdown.holds.buffer, hdown.workmem] at hbuffer
      exact absurd hbuffer Bool.false_ne_true
    · intro hgrants
      rw [hdown.holds.sessions hgrants, hdown.workmem, hdown.initialised]
  · have hasked : s.controllerState = asked := by
      rw [← h.intended, hup.charged]
    refine ⟨h.intended, ?_, ?_, fun _ => hup.initialised, ?_⟩
    · rcases hup.holds.held with ⟨-, hnone⟩ | ⟨-, -, hshown⟩
      · exact .inl hnone
      · rw [hasked] at hshown
        exact hshown
    · rcases hup.holds.held with ⟨hnone, -⟩ | ⟨-, hone, -⟩
      · exact .inl hnone
      · exact .inr ⟨hup.initialised, hone⟩
    · intro hgrants
      rw [hup.holds.sessions hgrants, hup.granted hgrants, hup.initialised]

theorem inv_initial : Inv w initial (askedFor []) := by
  refine ⟨rfl, .inl ⟨rfl, rfl, ⟨rfl, .inl ⟨rfl, rfl⟩, ?_⟩⟩⟩
  intro _
  rfl

theorem askedFor_concat (steps : List ControllerStep) (a : ControllerStep) :
    askedFor (steps ++ [a]) = (askedFor steps).after a := by
  rw [askedFor, askedFor, List.foldl_append]
  rfl

theorem inv_run (hw : w.Lawful) (steps : List ControllerStep) :
    Inv w (Runs.run (Controller.step w) initial steps) (askedFor steps) := by
  induction steps using List.reverseRecOn with
  | nil => exact inv_initial
  | append_singleton steps a ih =>
    rw [Runs.run_concat, askedFor_concat]
    exact inv_step hw ih a

/-- A write that is accepted leaves the device with what is asked for. -/
theorem Inv.accepted (hw : w.Lawful) (h : Inv w s asked) {a : ControllerStep}
    (hrc : (s.turn w a).1 = some 0) :
    (hdls (s.step w a).calls).shown = some (asked.after a) := by
  cases a with
  | press btn =>
    have hshown := (h.write hw (s.controllerState.press btn) rfl).2 (Option.some.inj hrc)
    rw [← h.intended]
    exact hshown
  | release btn =>
    have hshown := (h.write hw (s.controllerState.release btn) rfl).2 (Option.some.inj hrc)
    rw [← h.intended]
    exact hshown
  | setStickState side dxVal dyVal =>
    cases side with
    | left =>
      have hshown := (h.write hw (s.controllerState.setStick .left dxVal dyVal) rfl).2
        (Option.some.inj hrc)
      rw [← h.intended]
      exact hshown
    | right =>
      have hshown := (h.write hw (s.controllerState.setStick .right dxVal dyVal) rfl).2
        (Option.some.inj hrc)
      rw [← h.intended]
      exact hshown
  | _ => cases hrc

/-- Behind every run the console shows what the inputs since the last detach ask for, or nothing, and
    holds no device but the one of the handle. A write that is accepted is shown and counted, and an
    error is reported once as long as it lasts. -/
theorem controller_shows_what_is_asked (w : HidWorld) (hw : w.Lawful)
    (steps : List ControllerStep) :
    ShowsAsked w (Runs.run (Controller.step w) initial steps) (askedFor steps) ∧
      (∀ a, ((Runs.run (Controller.step w) initial steps).turn w a).1 = some 0 →
        (hdls (Runs.run (Controller.step w) initial (steps ++ [a])).calls).shown =
          some (askedFor (steps ++ [a]))) ∧
      (Runs.run (Controller.step w) initial steps).controllerStateWrites =
        UInt64.ofNat ((writeResults w initial steps).count 0) ∧
      (Runs.run (Controller.step w) initial steps).calls.filterMap HidCall.reported =
        newErrors 0 (writeResults w initial steps) := by
  have hinv := inv_run hw steps
  have hcounts := counts_run (w := w) initial steps
  refine ⟨hinv.showsAsked, ?_, ?_, hcounts.reported⟩
  · intro a hrc
    rw [Runs.run_concat, askedFor_concat]
    exact hinv.accepted hw hrc
  · rw [hcounts.stateWrites]
    exact UInt64.zero_add _

/-- Everything is granted; a device needs its buffer, and a state its device. The clock goes on by
    more than half a second with every call. -/
def steadyWorld : HidWorld where
  hiddbgInitialize _ := 0
  alignedAlloc _ := true
  attachHdlsWorkBuffer _ := (0, 1)
  attachHdlsVirtualDevice calls _ := if (hdls calls).buffer then (0, 7) else (1, 0)
  isHdlsVirtualDeviceAttached calls handle := (0, (hdls calls).held.contains handle)
  setHdlsState calls handle _ := if (hdls calls).held.contains handle then 0 else 1
  detachHdlsVirtualDevice _ _ := 0
  releaseHdlsWorkBuffer _ _ := 0
  hidsysInitialize _ := 0
  uniquePadsFromNpad _ := (0, [3])
  uniquePadIds _ := (0, 1)
  joyConAttachedOnAllRail _ := (0, false)
  handheldHidsEnabled _ := (0, false)
  uniquePadBluetoothAddress _ _ := none
  disconnectUniquePad _ _ := 0
  btdrvInitialize _ := 0
  triggerConnection _ _ := 0
  systemTick calls := UInt64.ofNat calls.length * 10000000
  systemTickFreq := 19200000
  armTicksToNs ticks := ticks * 625 / 12

theorem lawful_steadyWorld : steadyWorld.Lawful := by
  constructor
  · intro calls device h
    by_contra hnone
    have hrefused : (steadyWorld.attachHdlsVirtualDevice calls device).1 = 1 := by
      show (if (hdls calls).buffer then ((0, 7) : UInt32 × UInt64) else (1, 0)).1 = 1
      rw [if_neg hnone]
    rw [hrefused] at h
    cases h
  · intro calls handle state h
    by_contra hnone
    have hrefused : steadyWorld.setHdlsState calls handle state = 1 := by
      show (if (hdls calls).held.contains handle then (0 : UInt32) else 1) = 1
      rw [if_neg fun hheld => hnone (List.contains_iff_mem.1 hheld)]
    rw [hrefused] at h
    cases h

theorem controller_shows_what_is_asked_pressed :
    ShowsAsked steadyWorld
        (Runs.run (Controller.step steadyWorld) initial [.press 1, .controllerServiceIdle])
        (askedFor [.press 1, .controllerServiceIdle]) ∧
      (hdls (Runs.run (Controller.step steadyWorld) initial [.press 1]).calls).shown =
        some (askedFor [.press 1]) := by
  constructor
  · exact (controller_shows_what_is_asked steadyWorld lawful_steadyWorld _).1
  · exact (controller_shows_what_is_asked steadyWorld lawful_steadyWorld []).2.1 (.press 1)
      (by decide)

end Controller

end SysAgent
