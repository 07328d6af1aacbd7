import SysAgent.Input.ControllerRuns

set_option autoImplicit false

/-! # The player's slot

A takeover disconnects the console's own controllers. From then on the slot is owed to the player,
until the idle service gives the virtual device up; the reconnect service calls the controllers back
only while there is none. -/

namespace SysAgent

/-- The steps that may need the slot of player 1. -/
def ControllerStep.usesSlot : ControllerStep → Bool
  | .press _ => true
  | .release _ => true
  | .setStickState _ _ _ => true
  | .ensureController => true
  | _ => false

namespace Controller

variable {w : HidWorld} {s t u : Controller} {a : ControllerStep}

/-- The calls of a step. -/
def newCalls (w : HidWorld) (s : Controller) (a : ControllerStep) : List HidCall :=
  (s.step w a).calls.drop s.calls.length

/-- An input or a sequence disconnects a pad. -/
def TakesOver (w : HidWorld) (s : Controller) (a : ControllerStep) : Prop :=
  a.usesSlot = true ∧ (newCalls w s a).any HidCall.disconnected = true

/-- The idle service gives the device up: nothing is held, no sequence runs and no input came. -/
def Yields (w : HidWorld) (s : Controller) (a : ControllerStep) : Prop :=
  a = .controllerServiceIdle ∧ ∃ now, s.idlePlace = .due now ∧
    s.bControllerIsInitialised = true ∧ s.isIdle w now = true ∧
      s.controllerSequenceActive = false ∧ s.controllerState.neutral = true

/-- A reason for which a device is taken down and not built anew. -/
inductive GivesUp (w : HidWorld) (s : Controller) : ControllerStep → Prop
  | detached : GivesUp w s .detachController
  | refreshed {now : UInt64} (hinput : s.controllerLastInputTick ≠ 0)
    (hidle : 500000000 ≤ w.armTicksToNs (now - s.controllerLastInputTick)) :
    GivesUp w s (.controllerRefreshIfIdle now)
  | yielded (h : Yields w s .controllerServiceIdle) : GivesUp w s .controllerServiceIdle

/-- What one step does about the slot. -/
structure StepLaw (w : HidWorld) (s : Controller) (a : ControllerStep) : Prop where
  owed : (s.step w a).controllerYieldAfterUse = true ↔
    ¬ Yields w s a ∧ (s.controllerYieldAfterUse = true ∨ TakesOver w s a)
  kicks : (newCalls w s a).any HidCall.disconnects = true →
    (∃ pad, a = .kickCommandPad pad) ∨ a.usesSlot = true ∧ 1 ≤ s.controllerTakeoverMode
  triggers : a = .controllerServiceReconnect → HidCall.triggerConnections ∈ newCalls w s a →
    s.bControllerIsInitialised = false
  givesUp : s.bControllerIsInitialised = true →
    (s.step w a).bControllerIsInitialised = false → GivesUp w s a
  decides : ∀ now, (s.step w a).idlePlace = .due now → s.idlePlace = .due now ∨
    ∃ fresh sample, s.idlePlace = .sampled fresh sample ∧
      (sample.railPads < sample.otherPads ∨ s.controllerYieldAfterUse = true)

/-! ## Calls of a section -/

/-- The calls between `s` and `t`: pads are disconnected only under `k`, and none is called back. -/
def Acts (k : Prop) (s t : Controller) : Prop :=
  ∃ more, t.calls = s.calls ++ more ∧
    (∀ call ∈ more, call.plain = true ∨ call.reported.isSome = true ∨
      k ∧ call.disconnects = true) ∧
      t.controllerYieldAfterUse = (s.controllerYieldAfterUse || more.any HidCall.disconnected)

section Acts

variable {k : Prop}

theorem Keeps.acts (h : Keeps k s t) : Acts k s t := by
  obtain ⟨more, hmore, hplain, hyield⟩ := h.calls
  exact ⟨more, hmore, fun call hmem => (hplain call hmem).imp_right .inr, hyield⟩

theorem Acts.trans (hst : Acts k s t) (htu : Acts k t u) : Acts k s u := by
  obtain ⟨first, hfirst, hplain, hyield⟩ := hst
  obtain ⟨second, hsecond, hplains, hyields⟩ := htu
  refine ⟨first ++ second, ?_, ?_, ?_⟩
  · rw [hsecond, hfirst, List.append_assoc]
  · intro call hmem
    exact (List.mem_append.1 hmem).elim (hplain call) (hplains call)
  · rw [hyields, hyield, List.any_append, Bool.or_assoc]

theorem any_disconnected_of_reported {more : List HidCall}
    (h : ∀ call ∈ more, call.asks = true ∨ call.reported.isSome = true) :
    more.any HidCall.disconnected = false := by
  rw [List.any_eq_false]
  intro call hmem
  rcases h call hmem with hasks | hreported
  · rw [HidCall.disconnected_of_plain (HidCall.plain_of_asks hasks)]
    exact Bool.false_ne_true
  · cases call with
    | stateError => exact Bool.false_ne_true
    | _ => exact absurd hreported Bool.false_ne_true

theorem acts_concludeWrite (rc : UInt32) (s : Controller) : Acts k s (s.concludeWrite w rc) := by
  obtain ⟨ready, more, hmore, -, heq⟩ := concludeWrite_spec (w := w) rc s
  rw [heq]
  refine ⟨more, rfl, ?_, ?_⟩
  · intro call hmem
    exact (hmore call hmem).imp HidCall.plain_of_asks .inl
  · rw [any_disconnected_of_reported hmore, Bool.or_false]

theorem acts_writeControllerStateLocked (s : Controller) :
    Acts (1 ≤ s.controllerTakeoverMode) s (s.writeControllerStateLocked w).2 := by
  have h : Acts (1 ≤ s.controllerTakeoverMode) s (s.tryWrite w).2 :=
    (keeps_tryWrite (w := w) s).acts
  exact h.trans (acts_concludeWrite _ _)

theorem any_disconnects_of_disconnected {more : List HidCall}
    (h : more.any HidCall.disconnected = true) : more.any HidCall.disconnects = true := by
  obtain ⟨call, hmem, hcall⟩ := List.any_eq_true.1 h
  refine List.any_eq_true.2 ⟨call, hmem, ?_⟩
  cases call with
  | disconnectUniquePad => rfl
  | _ => exact absurd hcall Bool.false_ne_true

/-- What is in the calls of a section. -/
theorem Acts.calls (h : Acts k s t) :
    ((t.calls.drop s.calls.length).any HidCall.disconnects = true → k) ∧
      HidCall.triggerConnections ∉ t.calls.drop s.calls.length ∧
        t.controllerYieldAfterUse =
          (s.controllerYieldAfterUse ||
            (t.calls.drop s.calls.length).any HidCall.disconnected) := by
  obtain ⟨more, hmore, hplain, hyield⟩ := h
  rw [hmore, List.drop_left]
  refine ⟨?_, ?_, hyield⟩
  · intro hany
    obtain ⟨call, hmem, hcall⟩ := List.any_eq_true.1 hany
    rcases hplain call hmem with hplain | hreported | ⟨hk, -⟩
    · cases call with
      | disconnectUniquePad => exact absurd hplain Bool.false_ne_true
      | _ => exact absurd hcall Bool.false_ne_true
    · cases call with
      | disconnectUniquePad => exact absurd hreported Bool.false_ne_true
      | _ => exact absurd hcall Bool.false_ne_true
    · exact hk
  · intro hmem
    rcases hplain _ hmem with hplain | hreported | ⟨-, hcall⟩
    · exact Bool.false_ne_true hplain
    · exact Bool.false_ne_true hreported
    · exact Bool.false_ne_true hcall

/-- A step that may take the slot over. -/
theorem stepLaw_of_slot (ha : a.usesSlot = true)
    (h : Acts (1 ≤ s.controllerTakeoverMode) s (s.step w a))
    (hup : (s.step w a).bControllerIsInitialised = true)
    (hplace : (s.step w a).idlePlace = s.idlePlace) : StepLaw w s a := by
  obtain ⟨hkicks, htriggers, hyield⟩ := h.calls
  have hne : ¬ Yields w s a := by
    rintro ⟨rfl, -⟩
    exact absurd ha Bool.false_ne_true
  refine ⟨?_, ?_, ?_, ?_, ?_⟩
  · rw [hyield, Bool.or_eq_true]
    exact ⟨fun hor => ⟨hne, hor.imp_right fun hany => ⟨ha, hany⟩⟩,
      fun hand => hand.2.imp_right And.right⟩
  · exact fun hany => .inr ⟨ha, hkicks hany⟩
  · exact fun _ hmem => absurd hmem htriggers
  · exact fun _ hdown => absurd (hdown.symm.trans hup) Bool.false_ne_true
  · exact fun now hdue => .inl (hplace.symm.trans hdue)

/-- A step that leaves the slot alone. -/
theorem stepLaw_of_quiet (ha : a.usesSlot = false) (hne : ¬ Yields w s a)
    (h : Acts False s (s.step w a))
    (hgives : s.bControllerIsInitialised = true →
      (s.step w a).bControllerIsInitialised = false → GivesUp w s a)
    (hplace : ∀ now, (s.step w a).idlePlace = .due now → s.idlePlace = .due now ∨
      ∃ fresh sample, s.idlePlace = .sampled fresh sample ∧
        (sample.railPads < sample.otherPads ∨ s.controllerYieldAfterUse = true)) :
    StepLaw w s a := by
  obtain ⟨hkicks, htriggers, hyield⟩ := h.calls
  refine ⟨?_, ?_, ?_, hgives, hplace⟩
  · -- without a reason to disconnect a pad none is disconnected, and the debt stays as it was
    have hnone : ((s.step w a).calls.drop s.calls.length).any HidCall.disconnected = false := by
      by_contra hany
      exact hkicks (any_disconnects_of_disconnected (Bool.not_eq_false _ ▸ hany))
    rw [hyield, hnone, Bool.or_false]
    refine ⟨fun howed => ⟨hne, .inl howed⟩, ?_⟩
    rintro ⟨-, howed | ⟨hslot, -⟩⟩
    · exact howed
    · exact absurd (ha.symm.trans hslot) Bool.false_ne_true
  · exact fun hany => (hkicks hany).elim
  · exact fun _ hmem => absurd hmem htriggers

end Acts

/-! ## A device that was built is up -/

theorem initialised_asks (h : Asks s t) :
    t.bControllerIsInitialised = s.bControllerIsInitialised := by
  obtain ⟨_, _, -, rfl⟩ := h
  rfl

theorem initialised_finishInit (s : Controller) :
    (s.finishInit w).bControllerIsInitialised = true :=
  initialised_asks (asks_controllerTopologySignature (w := w)
    { (s.setHdlsState w).2 with
      bControllerIsInitialised := true
      controllerRealPadSampleTick := 0 })

theorem initialised_initControllerLocked (s : Controller) :
    (s.initControllerLocked w).bControllerIsInitialised = true := by
  unfold initControllerLocked
  split_ifs with hinit
  · exact hinit
  · exact initialised_finishInit _

theorem initialised_ensureControllerLocked (s : Controller) :
    (s.ensureControllerLocked w).2.bControllerIsInitialised = true := by
  unfold ensureControllerLocked
  dsimp only
  split_ifs with hattached
  · exact (initialised_asks (asks_controllerDeviceIsAttachedLocked s)).trans
      (initialised_of_attached hattached)
  · exact (initialised_asks (asks_controllerDeviceIsAttachedLocked _)).trans
      (initialised_initControllerLocked _)

theorem initialised_writeControllerStateLocked (s : Controller) :
    (s.writeControllerStateLocked w).2.bControllerIsInitialised = true := by
  have htried : (s.tryWrite w).2.bControllerIsInitialised = true := by
    unfold tryWrite
    dsimp only
    split_ifs
    · exact initialised_initControllerLocked _
    · exact initialised_ensureControllerLocked s
  obtain ⟨ready, more, -, -, heq⟩ := concludeWrite_spec (w := w) (s.tryWrite w).1
    (s.tryWrite w).2
  unfold writeControllerStateLocked
  dsimp only
  rw [heq]
  exact htried

theorem idlePlace_writeControllerStateLocked (s : Controller) :
    (s.writeControllerStateLocked w).2.idlePlace = s.idlePlace := by
  obtain ⟨ready, more, -, -, heq⟩ := concludeWrite_spec (w := w) (s.tryWrite w).1
    (s.tryWrite w).2
  unfold writeControllerStateLocked
  dsimp only
  rw [heq]
  exact (keeps_tryWrite (w := w) s).idlePlace

/-! ## Steps -/

theorem stepLaw_write (state : HiddbgHdlsState) (ha : a.usesSlot = true)
    (heq : s.step w a = ({ s with controllerState := state }.writeControllerStateLocked w).2) :
    StepLaw w s a := by
  refine stepLaw_of_slot ha ?_ ?_ ?_
  · rw [heq]
    exact acts_writeControllerStateLocked { s with controllerState := state }
  · rw [heq]
    exact initialised_writeControllerStateLocked _
  · rw [heq]
    exact idlePlace_writeControllerStateLocked _

/-- A step behind which the idle service is where it was. -/
theorem stepLaw_of_still (ha : a.usesSlot = false) (hne : a ≠ .controllerServiceIdle)
    (h : Acts False s (s.step w a))
    (hgives : s.bControllerIsInitialised = true →
      (s.step w a).bControllerIsInitialised = false → GivesUp w s a)
    (hplace : (s.step w a).idlePlace = s.idlePlace) : StepLaw w s a := by
  refine stepLaw_of_quiet ha ?_ h hgives ?_
  · rintro ⟨heq, -⟩
    exact hne heq
  · exact fun now hdue => .inl (hplace.symm.trans hdue)

/-- A field that no section looks at is set. -/
theorem stepLaw_of_set (ha : a.usesSlot = false) (hne : a ≠ .controllerServiceIdle)
    (hcalls : (s.step w a).calls = s.calls)
    (hyield : (s.step w a).controllerYieldAfterUse = s.controllerYieldAfterUse)
    (hup : (s.step w a).bControllerIsInitialised = s.bControllerIsInitialised)
    (hplace : (s.step w a).idlePlace = s.idlePlace) : StepLaw w s a := by
  refine stepLaw_of_still ha hne ⟨[], ?_, ?_, ?_⟩ ?_ hplace
  · rw [hcalls, List.append_nil]
  · intro call hmem
    exact absurd hmem List.not_mem_nil
  · rw [hyield, List.any_nil, Bool.or_false]
  · intro hinit hdown
    exact absurd (hdown.symm.trans (hup.trans hinit)) Bool.false_ne_true

theorem stepLaw_ensure : StepLaw w s .ensureController := by
  have hkeeps := keeps_ensureControllerLocked (w := w) s
  exact stepLaw_of_slot rfl hkeeps.acts (initialised_ensureControllerLocked s) hkeeps.idlePlace

theorem stepLaw_init : StepLaw w s .initController := by
  by_cases hinit : s.bControllerIsInitialised = true
  · have heq : s.step w .initController = s := by
      show s.initControllerLocked w = s
      rw [initControllerLocked, if_pos hinit]
    refine stepLaw_of_set rfl ?_ ?_ ?_ ?_ ?_
    · rintro ⟨⟩
    all_goals rw [heq]
  · have hkeeps := keeps_initControllerLocked (w := w) (k := False) (Bool.eq_false_iff.2 hinit)
    refine stepLaw_of_still rfl ?_ hkeeps.acts ?_ hkeeps.idlePlace
    · rintro ⟨⟩
    · exact fun hup => absurd hup hinit

theorem stepLaw_detach : StepLaw w s .detachController := by
  have hkeeps := keeps_teardownControllerLocked (w := w) (k := False) s
  refine stepLaw_of_still rfl ?_ hkeeps.acts ?_ hkeeps.idlePlace
  · rintro ⟨⟩
  · exact fun _ _ => .detached

theorem stepLaw_serviceReconnect : StepLaw w s .controllerServiceReconnect := by
  have hspec : (s.controllerServiceReconnect w).controllerYieldAfterUse =
      s.controllerYieldAfterUse ∧
      (s.controllerServiceReconnect w).bControllerIsInitialised = s.bControllerIsInitialised ∧
      (s.controllerServiceReconnect w).idlePlace = s.idlePlace ∧
      ((∀ call ∈ newCalls w s .controllerServiceReconnect, call.asks = true) ∨
        s.bControllerIsInitialised = false ∧ newCalls w s .controllerServiceReconnect =
          [.systemTick (s.reconnectPass w).now, .triggerConnections]) := by
    unfold newCalls step turn controllerServiceReconnect
    dsimp only
    split_ifs with hnone htriggers
    · refine ⟨rfl, rfl, rfl, .inl ?_⟩
      rw [List.drop_length]
      exact fun call hmem => absurd hmem List.not_mem_nil
    · refine ⟨rfl, rfl, rfl, .inr ⟨htriggers.1, ?_⟩⟩
      simp only [called, List.append_assoc, List.drop_left, List.cons_append, List.nil_append]
    · refine ⟨rfl, rfl, rfl, .inl ?_⟩
      simp only [called, List.drop_left, List.mem_singleton]
      rintro call rfl
      rfl
  obtain ⟨hyield, hup, hplace, hcalls⟩ := hspec
  have hkicks : (newCalls w s .controllerServiceReconnect).any HidCall.disconnects = false := by
    rcases hcalls with hasks | ⟨-, hcalls⟩
    · rw [List.any_eq_false]
      intro call hmem hcall
      have hask := hasks call hmem
      cases call with
      | disconnectUniquePad => exact Bool.false_ne_true hask
      | _ => exact Bool.false_ne_true hcall
    · rw [hcalls]
      rfl
  refine ⟨?_, ?_, ?_, ?_, ?_⟩
  · refine ⟨fun howed => ⟨?_, .inl (hyield.symm.trans howed)⟩, ?_⟩
    · rintro ⟨heq, -⟩
      cases heq
    · rintro ⟨-, howed | ⟨hslot, -⟩⟩
      · exact hyield.trans howed
      · exact absurd hslot Bool.false_ne_true
  · exact fun hany => absurd (hkicks.symm.trans hany) Bool.false_ne_true
  · intro _ hmem
    rcases hcalls with hasks | ⟨hdown, -⟩
    · exact absurd (hasks _ hmem) Bool.false_ne_true
    · exact hdown
  · intro hinit hdown
    exact absurd (hdown.symm.trans (hup.trans hinit)) Bool.false_ne_true
  · exact fun now hdue => .inl (hplace.symm.trans hdue)

/-- A pad of the kick command is disconnected, but the slot is not owed for it. -/
theorem stepLaw_kickPad (pad : UInt64) : StepLaw w s (.kickCommandPad pad) := by
  obtain ⟨more, reconnect, hmore, heq⟩ := controllerSaveAddress_spec (w := w) pad s
  have hstep : s.step w (.kickCommandPad pad) = { s with
      reconnect := reconnect
      calls := s.calls ++
        (more ++ [.disconnectUniquePad pad (w.disconnectUniquePad (s.calls ++ more) pad)]) } := by
    show ((s.controllerSaveAddress w pad).disconnectUniquePad w pad).2 = _
    rw [heq, ← List.append_assoc]
    rfl
  refine ⟨?_, ?_, ?_, ?_, ?_⟩
  · rw [hstep]
    refine ⟨fun howed => ⟨?_, .inl howed⟩, ?_⟩
    · rintro ⟨heq, -⟩
      cases heq
    · rintro ⟨-, howed | ⟨hslot, -⟩⟩
      · exact howed
      · exact absurd hslot Bool.false_ne_true
  · exact fun _ => .inl ⟨pad, rfl⟩
  · rintro ⟨⟩
  · intro hinit hdown
    rw [hstep] at hdown
    exact absurd (hdown.symm.trans hinit) Bool.false_ne_true
  · intro now hdue
    rw [hstep] at hdue
    exact .inl hdue

theorem stepLaw_refresh (now : UInt64) : StepLaw w s (.controllerRefreshIfIdle now) := by
  have hkeeps := keeps_controllerRefreshIfIdle (w := w) s now
  refine stepLaw_of_quiet rfl ?_ hkeeps.acts ?_ ?_
  · rintro ⟨h, -⟩
    cases h
  · -- of the three ends only the one with a new topology takes the device down
    intro hinit hdown
    have hdown : (s.controllerRefreshIfIdle w now).bControllerIsInitialised = false := hdown
    unfold controllerRefreshIfIdle at hdown
    dsimp only at hdown
    split_ifs at hdown with hidle hsigned
    · exact .refreshed hidle.1.1 hidle.1.2
    · rw [initialised_asks (asks_controllerTopologySignature (w := w) _)] at hdown
      exact absurd (hinit.symm.trans hdown) (Ne.symm Bool.false_ne_true)
    · exact absurd (hinit.symm.trans hdown) (Ne.symm Bool.false_ne_true)
  · exact fun tick hdue => .inl (hkeeps.idlePlace.symm.trans hdue)

/-- The part of the idle service that gives the device up. -/
theorem stepLaw_yields {now : UInt64} (hplace : s.idlePlace = .due now)
    (hyields : s.bControllerIsInitialised = true ∧ s.isIdle w now = true ∧
      s.controllerSequenceActive = false ∧ s.controllerState.neutral = true)
    (heq : s.step w .controllerServiceIdle =
      { teardownControllerLocked w { s with idlePlace := .resting } with
        controllerTopology := 0
        controllerYieldAfterUse := false }) : StepLaw w s .controllerServiceIdle := by
  have hgiven : Yields w s .controllerServiceIdle := ⟨rfl, now, hplace, hyields⟩
  have hkeeps := keeps_teardownControllerLocked (w := w) (k := False)
    { s with idlePlace := .resting }
  obtain ⟨hkicks, htriggers, -⟩ := hkeeps.acts.calls
  have hcalls : newCalls w s .controllerServiceIdle =
      (teardownControllerLocked w { s with idlePlace := .resting }).calls.drop
        s.calls.length := by
    rw [newCalls, heq]
  refine ⟨?_, ?_, ?_, fun _ _ => .yielded hgiven, ?_⟩
  · rw [heq]
    exact ⟨fun howed => absurd howed Bool.false_ne_true, fun h => absurd hgiven h.1⟩
  · rw [hcalls]
    exact fun hany => (hkicks hany).elim
  · rw [hcalls]
    exact fun _ hmem => absurd hmem htriggers
  · intro tick hdue
    rw [heq] at hdue
    have hnone : IdlePlace.resting = .due tick := hkeeps.idlePlace.symm.trans hdue
    cases hnone

theorem stepLaw_idle : StepLaw w s .controllerServiceIdle := by
  rcases controllerServiceIdle_cases (w := w) s with
    ⟨sample, tick, place, t, hplace, hasks, heq, hgoes⟩ | ⟨now, hplace, heq⟩
  · have hstep : s.step w .controllerServiceIdle = { t with idlePlace := place } := heq
    have hstored : Keeps False s { s with
        controllerRealPadSample := sample
        controllerRealPadSampleTick := tick } := (Keeps.refl s).of_kept rfl
    refine stepLaw_of_quiet rfl ?_ ?_ ?_ ?_
    · rintro ⟨-, now, hdue, -⟩
      exact hplace now hdue
    · rw [hstep]
      exact (hstored.trans hasks.keeps).acts
    · intro hinit hdown
      rw [hstep] at hdown
      exact absurd (hdown.symm.trans ((initialised_asks hasks).trans hinit)) Bool.false_ne_true
    · intro now hdue
      rw [hstep] at hdue
      exact .inr (hgoes now hdue)
  · by_cases hyields : s.bControllerIsInitialised = true ∧ s.isIdle w now = true ∧
        s.controllerSequenceActive = false ∧ s.controllerState.neutral = true
    · exact stepLaw_yields hplace hyields (heq.trans (if_pos hyields))
    · -- under the lock it turns out that the device is still in use
      have hstep : s.step w .controllerServiceIdle = { s with idlePlace := .resting } :=
        heq.trans (if_neg hyields)
      refine stepLaw_of_quiet rfl ?_ ?_ ?_ ?_
      · rintro ⟨-, tick, htick, hall⟩
        rw [hplace] at htick
        cases htick
        exact hyields hall
      · rw [hstep]
        exact (Keeps.refl s).acts
      · intro hinit hdown
        rw [hstep] at hdown
        exact absurd (hdown.symm.trans hinit) Bool.false_ne_true
      · intro tick hdue
        rw [hstep] at hdue
        cases hdue

theorem stepLaw_step (s : Controller) (a : ControllerStep) : StepLaw w s a := by
  cases a with
  | press btn => exact stepLaw_write _ rfl rfl
  | release btn => exact stepLaw_write _ rfl rfl
  | setStickState side dxVal dyVal => exact stepLaw_write _ rfl rfl
  | initController => exact stepLaw_init
  | ensureController => exact stepLaw_ensure
  | sequenceActive active => exact stepLaw_of_set rfl (by rintro ⟨⟩) rfl rfl rfl rfl
  | sequenceTick =>
    have hticked : Keeps False s (s.systemTick w).2 := (asks_systemTick s).keeps
    refine stepLaw_of_still rfl (by rintro ⟨⟩) hticked.acts ?_ rfl
    exact fun hinit hdown => absurd (hdown.symm.trans hinit) Bool.false_ne_true
  | detachController => exact stepLaw_detach
  | controllerRefreshIfIdle now => exact stepLaw_refresh now
  | controllerServiceIdle => exact stepLaw_idle
  | controllerServiceReconnect => exact stepLaw_serviceReconnect
  | kickCommandPad pad => exact stepLaw_kickPad pad
  | reconnectCommand address => exact stepLaw_of_set rfl (by rintro ⟨⟩) rfl rfl rfl rfl
  | controllerType type => exact stepLaw_of_set rfl (by rintro ⟨⟩) rfl rfl rfl rfl
  | controllerIdleRelease ms => exact stepLaw_of_set rfl (by rintro ⟨⟩) rfl rfl rfl rfl
  | controllerTakeover mode => exact stepLaw_of_set rfl (by rintro ⟨⟩) rfl rfl rfl rfl
  | debugResultCodes shown => exact stepLaw_of_set rfl (by rintro ⟨⟩) rfl rfl rfl rfl

/-! ## The slot is given back -/

/-- A device that was built for the slot, with nothing held and no sequence. -/
structure Owes (s : Controller) : Prop where
  owed : s.controllerYieldAfterUse = true
  initialised : s.bControllerIsInitialised = true
  released : s.controllerIdleReleaseMs ≠ 0
  sequence : s.controllerSequenceActive = false
  neutral : s.controllerState.neutral = true

theorem Owes.asks (h : Owes s) (hasks : Asks s t) : Owes t := by
  obtain ⟨_, _, -, rfl⟩ := hasks
  exact ⟨h.owed, h.initialised, h.released, h.sequence, h.neutral⟩

theorem idleStart_sampled (h : Owes s) :
    ∃ fresh sample, (s.idleStart w).idlePlace = .sampled fresh sample ∧
      Owes (s.idleStart w) := by
  have hticked := h.asks (asks_systemTick (w := w) s)
  have hsampled := hticked.asks (asks_controllerPadSampleNow (w := w) _)
  unfold idleStart
  rw [if_neg (Bool.not_eq_false _ ▸ h.initialised), if_neg h.released]
  dsimp only
  split_ifs
  · exact ⟨_, _, rfl, ⟨hticked.owed, hticked.initialised, hticked.released,
      hticked.sequence, hticked.neutral⟩⟩
  · exact ⟨_, _, rfl, ⟨hsampled.owed, hsampled.initialised, hsampled.released,
      hsampled.sequence, hsampled.neutral⟩⟩

theorem idleDecide_due (h : Owes s) (fresh : Option UInt64) (sample : ControllerPadSample) :
    ∃ now, (s.idleDecide w fresh sample).idlePlace = .due now ∧
      Owes (s.idleDecide w fresh sample) := by
  have hgoes : ¬ (¬ sample.railPads < sample.otherPads ∧ s.controllerYieldAfterUse = false) :=
    fun hstay => absurd (hstay.2.symm.trans h.owed) Bool.false_ne_true
  unfold idleDecide
  cases fresh with
  | none =>
    dsimp only
    rw [if_neg hgoes]
    exact ⟨_, rfl, ⟨h.owed, h.initialised, h.released, h.sequence, h.neutral⟩⟩
  | some tick =>
    dsimp only
    rw [if_neg hgoes]
    exact ⟨_, rfl, ⟨h.owed, h.initialised, h.released, h.sequence, h.neutral⟩⟩

theorem idleRelease_down (h : Owes s) {now : UInt64} (hidle : s.isIdle w now = true) :
    (s.idleRelease w now).bControllerIsInitialised = false ∧
      (s.idleRelease w now).controllerYieldAfterUse = false := by
  unfold idleRelease
  dsimp only
  rw [if_pos ⟨h.initialised, hidle, h.sequence, h.neutral⟩]
  exact ⟨rfl, rfl⟩

/-- Two parts of the idle service lead an owed device to the lock, and the third gives it up. -/
theorem idle_gives_back (h : Owes s) (hplace : s.idlePlace = .resting) :
    ∃ now, ((s.controllerServiceIdle w).controllerServiceIdle w).idlePlace = .due now ∧
      (((s.controllerServiceIdle w).controllerServiceIdle w).isIdle w now = true →
        (((s.controllerServiceIdle w).controllerServiceIdle w).controllerServiceIdle
            w).bControllerIsInitialised = false ∧
          (((s.controllerServiceIdle w).controllerServiceIdle w).controllerServiceIdle
            w).controllerYieldAfterUse = false) := by
  obtain ⟨fresh, sample, hsampled, hstarted⟩ := idleStart_sampled (w := w) h
  have hfirst : s.controllerServiceIdle w = s.idleStart w := by
    unfold controllerServiceIdle
    rw [hplace]
  have hsecond : (s.idleStart w).controllerServiceIdle w =
      (s.idleStart w).idleDecide w fresh sample := by
    unfold controllerServiceIdle
    rw [hsampled]
  obtain ⟨now, hdue, hdecided⟩ := idleDecide_due (w := w) hstarted fresh sample
  have hthird : ((s.idleStart w).idleDecide w fresh sample).controllerServiceIdle w =
      ((s.idleStart w).idleDecide w fresh sample).idleRelease w now := by
    show controllerServiceIdle w _ = _
    unfold controllerServiceIdle
    rw [hdue]
  rw [hfirst, hsecond, hthird]
  exact ⟨now, hdue, fun hidle => idleRelease_down hdecided hidle⟩

/-- Behind every run the slot is owed iff a takeover disconnected a pad and no device was given up
    since. Pads are disconnected for an input or a sequence in a takeover mode, or by the kick
    command; the reconnect service calls the controllers back only while the console holds no
    virtual device; and an owed device with nothing held is given up by the third part of an idle
    service, if it is idle then. -/
theorem controller_slot_is_given_back (w : HidWorld) (hw : w.Lawful)
    (steps : List ControllerStep) :
    ((Runs.run (Controller.step w) initial steps).controllerYieldAfterUse = true ↔
        ∃ before a after, steps = before ++ a :: after ∧
          TakesOver w (Runs.run (Controller.step w) initial before) a ∧
          Runs.EachStep (Controller.step w) (fun t b => ¬ Yields w t b)
            (Runs.run (Controller.step w) initial before) (a :: after)) ∧
      (∀ a, StepLaw w (Runs.run (Controller.step w) initial steps) a) ∧
      (HidCall.triggerConnections ∈ newCalls w (Runs.run (Controller.step w) initial steps)
          .controllerServiceReconnect →
        (hdls (Runs.run (Controller.step w) initial steps).calls).held = []) ∧
      (Owes (Runs.run (Controller.step w) initial steps) →
        (Runs.run (Controller.step w) initial steps).idlePlace = .resting →
        ∃ now, (Runs.run (Controller.step w) initial (steps ++
            [.controllerServiceIdle, .controllerServiceIdle])).idlePlace = .due now ∧
          ((Runs.run (Controller.step w) initial (steps ++
              [.controllerServiceIdle, .controllerServiceIdle])).isIdle w now = true →
            (hdls (Runs.run (Controller.step w) initial (steps ++ [.controllerServiceIdle,
                .controllerServiceIdle, .controllerServiceIdle])).calls).held = [] ∧
              (Runs.run (Controller.step w) initial (steps ++ [.controllerServiceIdle,
                .controllerServiceIdle, .controllerServiceIdle])).controllerYieldAfterUse =
                  false)) := by
  have hheld : ∀ as,
      (Runs.run (Controller.step w) initial as).bControllerIsInitialised = false →
        (hdls (Runs.run (Controller.step w) initial as).calls).held = [] := by
    intro as hdown
    rcases (inv_run hw as).showsAsked.held with hnone | ⟨hup, -⟩
    · exact hnone
    · exact absurd (hdown.symm.trans hup) Bool.false_ne_true
  refine ⟨?_, fun a => stepLaw_step _ a, ?_, ?_⟩
  · -- initially nothing is owed, so a debt was made by a step of the run
    have hflag := @Runs.flag_iff _ _ (Controller.step w) (fun _ => True)
      (fun t => t.controllerYieldAfterUse = true) (TakesOver w) (Yields w)
      (fun _ _ _ => trivial) (fun t b _ => (stepLaw_step t b).owed) initial steps trivial
    rw [hflag]
    exact ⟨fun h => h.resolve_left fun hup => Bool.false_ne_true hup.1, .inr⟩
  · exact fun hmem => hheld steps ((stepLaw_step _ _).triggers rfl hmem)
  · intro howes hplace
    obtain ⟨now, hdue, hgives⟩ := idle_gives_back (w := w) howes hplace
    refine ⟨now, ?_, ?_⟩
    · rw [Runs.run_append]
      exact hdue
    · intro hidle
      rw [Runs.run_append] at hidle
      obtain ⟨hdown, howed⟩ := hgives hidle
      refine ⟨hheld _ ?_, ?_⟩
      · rw [Runs.run_append]
        exact hdown
      · rw [Runs.run_append]
        exact howed

theorem controller_slot_is_given_back_released :
    (∃ before a after, [.press 1, .release 1] = before ++ a :: after ∧
        TakesOver steadyWorld (Runs.run (Controller.step steadyWorld) initial before) a ∧
        Runs.EachStep (Controller.step steadyWorld) (fun t b => ¬ Yields steadyWorld t b)
          (Runs.run (Controller.step steadyWorld) initial before) (a :: after)) ∧
      (hdls (Runs.run (Controller.step steadyWorld) initial [.press 1, .release 1,
        .controllerServiceIdle, .controllerServiceIdle,
        .controllerServiceIdle]).calls).held = [] := by
  obtain ⟨howed, -, -, hgives⟩ :=
    controller_slot_is_given_back steadyWorld lawful_steadyWorld [.press 1, .release 1]
  have hidle : ∀ now, (Runs.run (Controller.step steadyWorld) initial [.press 1, .release 1,
      .controllerServiceIdle, .controllerServiceIdle]).idlePlace = .due now →
      (Runs.run (Controller.step steadyWorld) initial [.press 1, .release 1,
        .controllerServiceIdle, .controllerServiceIdle]).isIdle steadyWorld now = true := by
    intro now hdue
    have hnow : (Runs.run (Controller.step steadyWorld) initial [.press 1, .release 1,
      .controllerServiceIdle, .controllerServiceIdle]).idlePlace = .due 250000000 := by
      decide +kernel
    cases hdue.symm.trans hnow
    decide +kernel
  have howes : Owes (Runs.run (Controller.step steadyWorld) initial [.press 1, .release 1]) := by
    refine ⟨?_, ?_, ?_, ?_, ?_⟩
    all_goals decide +kernel
  obtain ⟨now, hdue, hdown⟩ := hgives howes (by decide +kernel)
  exact ⟨howed.1 howes.owed, (hdown (hidle now hdue)).1⟩

end Controller

end SysAgent
