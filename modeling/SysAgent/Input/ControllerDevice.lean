import SysAgent.Input.ControllerSteps

set_option autoImplicit false

/-! # The device of the virtual controller

`Hdls` is what the console has been told so far: which devices it has, what they show, which sessions
are open. The device of the agent is `Down` or `Up`; `teardownControllerLocked` leads to the one and
`initControllerLocked` to the other. `Keeps` is what a section leaves alone on the way. -/

namespace SysAgent

/-! ## What the console has been told -/

/-- The memory of the work buffer, the devices that are attached and not yet handed back, what the
    last of them shows, and the sessions opened less those closed. -/
structure Hdls where
  buffer : Bool
  held : List UInt64
  shown : Option HiddbgHdlsState
  sessions : Int

namespace Hdls

def start : Hdls where
  buffer := false
  held := []
  shown := none
  sessions := 0

def after (d : Hdls) : HidCall → Hdls
  | .hiddbgInitialize rc => if rc = 0 then { d with sessions := d.sessions + 1 } else d
  | .alignedAlloc given => { d with buffer := given }
  | .attachHdlsVirtualDevice _ rc handle =>
    if rc = 0 then { d with held := d.held ++ [handle], shown := none } else d
  | .setHdlsState handle state rc =>
    if rc = 0 ∧ d.held.contains handle then { d with shown := some state } else d
  | .detachHdlsVirtualDevice handle _ => { d with held := d.held.erase handle, shown := none }
  | .hiddbgExit => { d with sessions := d.sessions - 1 }
  | .free => { d with buffer := false }
  | _ => d

end Hdls

def hdls (calls : List HidCall) : Hdls :=
  calls.foldl Hdls.after Hdls.start

@[simp] theorem hdls_concat (calls : List HidCall) (call : HidCall) :
    hdls (calls ++ [call]) = (hdls calls).after call := by
  rw [hdls, List.foldl_append]
  rfl

/-- hid:dbg attaches a device only over a work buffer, and takes a state only for a device that is
    attached. -/
structure HidWorld.Lawful (w : HidWorld) : Prop where
  needsBuffer : ∀ calls device, (w.attachHdlsVirtualDevice calls device).1 = 0 →
    (hdls calls).buffer = true
  needsDevice : ∀ calls handle state, w.setHdlsState calls handle state = 0 →
    handle ∈ (hdls calls).held

/-- Every session is opened and every work buffer is there. -/
structure HidWorld.Grants (w : HidWorld) : Prop where
  opens : ∀ calls, w.hiddbgInitialize calls = 0
  allocates : ∀ calls, w.alignedAlloc calls = true

/-! ## Calls that only ask -/

namespace HidCall

def asks : HidCall → Bool
  | .isHdlsVirtualDeviceAttached _ _ _ => true
  | .hidsys => true
  | .systemTick _ => true
  | _ => false

def disconnects : HidCall → Bool
  | .disconnectUniquePad _ _ => true
  | _ => false

/-- A pad was disconnected. -/
def disconnected : HidCall → Bool
  | .disconnectUniquePad _ rc => rc == 0
  | _ => false

/-- The result in a line `ERR controllerState`. -/
def reported : HidCall → Option UInt32
  | .stateError rc _ _ => some rc
  | _ => none

/-- Nothing about the devices. -/
def quiet : HidCall → Bool
  | .isHdlsVirtualDeviceAttached _ _ _ => true
  | .hidsys => true
  | .disconnectUniquePad _ _ => true
  | .triggerConnections => true
  | .systemTick _ => true
  | .stateError _ _ _ => true
  | _ => false

/-- Neither a pad is disconnected or called back, nor an error reported. -/
def plain : HidCall → Bool
  | .disconnectUniquePad _ _ => false
  | .triggerConnections => false
  | .stateError _ _ _ => false
  | _ => true

theorem reported_of_plain {call : HidCall} (h : call.plain = true) : call.reported = none := by
  cases call with
  | stateError => exact absurd h Bool.false_ne_true
  | _ => rfl

theorem reported_of_disconnects {call : HidCall} (h : call.disconnects = true) :
    call.reported = none := by
  cases call with
  | disconnectUniquePad => rfl
  | _ => exact absurd h Bool.false_ne_true

theorem disconnected_of_plain {call : HidCall} (h : call.plain = true) :
    call.disconnected = false := by
  cases call with
  | disconnectUniquePad => exact absurd h Bool.false_ne_true
  | _ => rfl

theorem quiet_of_asks {call : HidCall} (h : call.asks = true) : call.quiet = true := by
  cases call with
  | isHdlsVirtualDeviceAttached | hidsys | systemTick => rfl
  | _ => exact absurd h Bool.false_ne_true

theorem quiet_of_disconnects {call : HidCall} (h : call.disconnects = true) :
    call.quiet = true := by
  cases call with
  | disconnectUniquePad => rfl
  | _ => exact absurd h Bool.false_ne_true

theorem quiet_of_reported {call : HidCall} (h : call.reported.isSome = true) :
    call.quiet = true := by
  cases call with
  | stateError => rfl
  | _ => exact absurd h Bool.false_ne_true

theorem plain_of_asks {call : HidCall} (h : call.asks = true) : call.plain = true := by
  cases call with
  | isHdlsVirtualDeviceAttached | hidsys | systemTick => rfl
  | _ => exact absurd h Bool.false_ne_true

end HidCall

theorem hdls_quiet {calls more : List HidCall} (h : ∀ call ∈ more, call.quiet = true) :
    hdls (calls ++ more) = hdls calls := by
  induction more using List.reverseRecOn with
  | nil => rw [List.append_nil]
  | append_singleton more call ih =>
    have hcall := h call (List.mem_append_right _ (List.mem_singleton.2 rfl))
    have hmore := ih fun call hmem => h call (List.mem_append_left _ hmem)
    rw [← List.append_assoc, hdls_concat, hmore]
    cases call with
    | isHdlsVirtualDeviceAttached | hidsys | systemTick | disconnectUniquePad => rfl
    | triggerConnections | stateError => rfl
    | _ => exact absurd hcall Bool.false_ne_true

namespace Controller

variable {w : HidWorld}

/-- `t` is `s` behind calls that only ask. -/
def Asks (s t : Controller) : Prop :=
  ∃ ready more, (∀ call ∈ more, call.asks = true) ∧
    t = { s with controllerHidsysReady := ready, calls := s.calls ++ more }

theorem Asks.refl (s : Controller) : Asks s s := by
  refine ⟨s.controllerHidsysReady, [], ?_, ?_⟩
  · intro call hmem
    exact absurd hmem List.not_mem_nil
  · rw [List.append_nil]

theorem Asks.trans {s t u : Controller} (hst : Asks s t) (htu : Asks t u) : Asks s u := by
  obtain ⟨_, first, hfirst, rfl⟩ := hst
  obtain ⟨ready, second, hsecond, rfl⟩ := htu
  refine ⟨ready, first ++ second, ?_, ?_⟩
  · intro call hmem
    exact (List.mem_append.1 hmem).elim (hfirst call) (hsecond call)
  · rw [List.append_assoc]

theorem asks_called (s : Controller) {c : HidCall} (h : c.asks = true) :
    Asks s (s.called c) := by
  refine ⟨s.controllerHidsysReady, [c], ?_, rfl⟩
  intro other hmem
  rw [List.mem_singleton.1 hmem]
  exact h

theorem asks_ready (s : Controller) (ready : Bool) :
    Asks s { s with controllerHidsysReady := ready } := by
  refine ⟨ready, [], ?_, ?_⟩
  · intro call hmem
    exact absurd hmem List.not_mem_nil
  · rw [List.append_nil]

theorem asks_systemTick (s : Controller) : Asks s (s.systemTick w).2 :=
  asks_called s rfl

theorem asks_controllerHidsysAcquire (s : Controller) : Asks s (s.controllerHidsysAcquire w).2 := by
  unfold controllerHidsysAcquire
  split_ifs
  · exact Asks.refl s
  · exact asks_called s rfl
  · exact (asks_called s rfl).trans (asks_ready _ true)

theorem asks_controllerHidsysDropOnFailure (rc : UInt32) (s : Controller) :
    Asks s (s.controllerHidsysDropOnFailure rc) := by
  unfold controllerHidsysDropOnFailure
  split_ifs
  · exact asks_ready s false
  · exact Asks.refl s

theorem asks_controllerPlayer1PadCount (s : Controller) :
    Asks s (s.controllerPlayer1PadCount w).2 := by
  have hacquire := asks_controllerHidsysAcquire (w := w) s
  unfold controllerPlayer1PadCount
  dsimp only
  by_cases hready : (s.controllerHidsysAcquire w).1 = false
  · rw [if_pos hready]
    exact hacquire
  · rw [if_neg hready]
    exact (hacquire.trans (asks_called _ rfl)).trans (asks_controllerHidsysDropOnFailure _ _)

theorem asks_controllerTopologySignature (s : Controller) :
    Asks s (s.controllerTopologySignature w).2 := by
  have hacquire := asks_controllerHidsysAcquire (w := w) s
  unfold controllerTopologySignature
  dsimp only
  by_cases hready : (s.controllerHidsysAcquire w).1 = false
  · rw [if_pos hready]
    exact hacquire
  · rw [if_neg hready]
    exact ((hacquire.trans (asks_called _ rfl)).trans (asks_called _ rfl)).trans
      (asks_called _ rfl)

theorem asks_controllerPadSampleNow (s : Controller) :
    Asks s (s.controllerPadSampleNow w).2 := by
  have hacquire := asks_controllerHidsysAcquire (w := w) s
  unfold controllerPadSampleNow
  dsimp only
  by_cases hready : (s.controllerHidsysAcquire w).1 = false
  · rw [if_pos hready]
    exact hacquire
  · rw [if_neg hready]
    exact (((hacquire.trans (asks_called _ rfl)).trans
      (asks_controllerHidsysDropOnFailure _ _)).trans (asks_called _ rfl)).trans
        (asks_controllerHidsysDropOnFailure _ _)

theorem asks_controllerDeviceIsAttachedLocked (s : Controller) :
    Asks s (s.controllerDeviceIsAttachedLocked w).2 := by
  unfold controllerDeviceIsAttachedLocked
  dsimp only
  split_ifs
  · exact Asks.refl s
  · exact asks_called s rfl
  · exact asks_called s rfl

theorem asks_settleLoop (padsBefore : Int) (start minTicks maxTicks : UInt64) (turns : Nat)
    (s : Controller) : Asks s (settleLoop w padsBefore start minTicks maxTicks turns s) := by
  induction turns generalizing s with
  | zero => exact Asks.refl s
  | succ turns ih =>
    have htick := asks_systemTick (w := w) s
    have hticks := htick.trans (asks_systemTick (w := w) _)
    rw [settleLoop]
    dsimp only
    split_ifs
    · exact htick
    · exact hticks.trans (ih _)
    · exact hticks
    · exact hticks.trans (asks_controllerPlayer1PadCount _)
    · exact (hticks.trans (asks_controllerPlayer1PadCount _)).trans (ih _)

theorem asks_controllerWaitForAttachLocked (padsBefore : Int) (s : Controller) :
    Asks s (s.controllerWaitForAttachLocked w padsBefore) :=
  (asks_systemTick s).trans (asks_settleLoop _ _ _ _ _ _)

theorem Asks.hdls {s t : Controller} (h : Asks s t) :
    SysAgent.hdls t.calls = SysAgent.hdls s.calls := by
  obtain ⟨ready, more, hmore, rfl⟩ := h
  exact hdls_quiet fun call hmem => HidCall.quiet_of_asks (hmore call hmem)

/-! ## A kick -/

theorem any_disconnected_of_plain {more : List HidCall} (h : ∀ call ∈ more, call.plain = true) :
    more.any HidCall.disconnected = false := by
  rw [List.any_eq_false]
  intro call hmem
  rw [HidCall.disconnected_of_plain (h call hmem)]
  exact Bool.false_ne_true

/-- `t` is `s` behind a kick; if it disconnected a pad, the slot is owed to the player. -/
def Kicks (s t : Controller) : Prop :=
  ∃ ready more reconnect yields tick,
    (∀ call ∈ more, call.asks = true ∨ call.disconnects = true) ∧
      yields = (s.controllerYieldAfterUse || more.any HidCall.disconnected) ∧
        t = { s with
          controllerHidsysReady := ready
          calls := s.calls ++ more
          reconnect := reconnect
          controllerYieldAfterUse := yields
          controllerRealPadSampleTick := tick }

theorem Asks.kicks {s t : Controller} (h : Asks s t) : Kicks s t := by
  obtain ⟨ready, more, hmore, rfl⟩ := h
  refine ⟨ready, more, s.reconnect, s.controllerYieldAfterUse, s.controllerRealPadSampleTick,
    fun call hmem => .inl (hmore call hmem), ?_, rfl⟩
  rw [any_disconnected_of_plain fun call hmem => HidCall.plain_of_asks (hmore call hmem),
    Bool.or_false]

theorem Kicks.trans {s t u : Controller} (hst : Kicks s t) (htu : Kicks t u) : Kicks s u := by
  obtain ⟨_, first, _, _, _, hfirst, hyield, rfl⟩ := hst
  obtain ⟨ready, second, reconnect, yields, tick, hsecond, hyields, rfl⟩ := htu
  refine ⟨ready, first ++ second, reconnect, yields, tick, ?_, ?_, ?_⟩
  · intro call hmem
    exact (List.mem_append.1 hmem).elim (hfirst call) (hsecond call)
  · rw [hyields, hyield, List.any_append, Bool.or_assoc]
  · rw [List.append_assoc]

theorem Kicks.hdls {s t : Controller} (h : Kicks s t) :
    SysAgent.hdls t.calls = SysAgent.hdls s.calls := by
  obtain ⟨_, more, _, _, _, hmore, -, rfl⟩ := h
  exact hdls_quiet fun call hmem =>
    (hmore call hmem).elim HidCall.quiet_of_asks HidCall.quiet_of_disconnects

theorem controllerSaveAddress_spec (pad : UInt64) (s : Controller) :
    ∃ more reconnect, (∀ call ∈ more, call.asks = true) ∧
      s.controllerSaveAddress w pad =
        { s with calls := s.calls ++ more, reconnect := reconnect } := by
  unfold controllerSaveAddress
  dsimp only
  split_ifs
  · refine ⟨[], s.reconnect.saveAddress
      { address := w.uniquePadBluetoothAddress s.calls pad, disconnects := false }, ?_, ?_⟩
    · intro call hmem
      exact absurd hmem List.not_mem_nil
    · rw [List.append_nil]
  · refine ⟨[.hidsys], s.reconnect.saveAddress
      { address := w.uniquePadBluetoothAddress s.calls pad, disconnects := false }, ?_, rfl⟩
    intro call hmem
    rw [List.mem_singleton.1 hmem]
    rfl

/-- The loop of a kick, with the calls it makes. -/
theorem kickPads_spec (pads : List UInt64) (s : Controller) :
    ∃ more reconnect, (∀ call ∈ more, call.asks = true ∨ call.disconnects = true) ∧
      (more.any HidCall.disconnected = true ↔ 0 < (kickPads w pads s).1) ∧
        (kickPads w pads s).2 = { s with calls := s.calls ++ more, reconnect := reconnect } := by
  induction pads generalizing s with
  | nil =>
    refine ⟨[], s.reconnect, ?_, ?_, ?_⟩
    · intro call hmem
      exact absurd hmem List.not_mem_nil
    · exact ⟨fun h => absurd h Bool.false_ne_true, fun h => absurd h (Nat.lt_irrefl 0)⟩
    · rw [List.append_nil]
      rfl
  | cons pad pads ih =>
    obtain ⟨asked, queue, hasked, hsave⟩ := controllerSaveAddress_spec (w := w) pad s
    rw [kickPads]
    dsimp only
    rw [hsave]
    obtain ⟨more, reconnect, hmore, hkicked, heq⟩ :=
      ih (disconnectUniquePad w pad { s with calls := s.calls ++ asked, reconnect := queue }).2
    refine ⟨asked ++ .disconnectUniquePad pad (w.disconnectUniquePad (s.calls ++ asked) pad) :: more,
      reconnect, ?_, ?_, ?_⟩
    · intro call hmem
      rcases List.mem_append.1 hmem with hmem | hmem
      · exact .inl (hasked call hmem)
      · rcases List.mem_cons.1 hmem with rfl | hmem
        · exact .inr rfl
        · exact hmore call hmem
    · have hnone : asked.any HidCall.disconnected = false :=
        any_disconnected_of_plain fun call hmem => HidCall.plain_of_asks (hasked call hmem)
      rw [List.any_append, hnone, Bool.false_or, List.any_cons, Bool.or_eq_true, hkicked]
      show (w.disconnectUniquePad (s.calls ++ asked) pad == 0) = true ∨ _ ↔
        0 < if w.disconnectUniquePad (s.calls ++ asked) pad = 0 then _ + 1 else _
      rw [beq_iff_eq]
      split_ifs with hrc
      · exact ⟨fun _ => Nat.succ_pos _, fun _ => .inl hrc⟩
      · exact ⟨fun h => h.resolve_left hrc, .inr⟩
    · rw [heq]
      simp only [disconnectUniquePad, called, List.append_assoc, List.singleton_append]

theorem kicks_kickControllerSlotHolders (s : Controller) :
    Kicks s (s.kickControllerSlotHolders w) := by
  have hacquire := asks_controllerHidsysAcquire (w := w) s
  unfold kickControllerSlotHolders
  dsimp only
  by_cases hready : (s.controllerHidsysAcquire w).1 = false
  · rw [if_pos hready]
    exact hacquire.kicks
  · rw [if_neg hready]
    have hasked := hacquire.trans (asks_called _ (c := .hidsys) rfl)
    split_ifs with hrc hkicked
    · exact hasked.kicks
    · -- a pad was disconnected
      refine (hasked.trans (asks_systemTick (w := w) _)).kicks.trans ?_
      obtain ⟨more, reconnect, hmore, hpos, heq⟩ := kickPads_spec (w := w) _ _
      rw [heq]
      refine ⟨_, more, reconnect, true, 0, hmore, ?_, rfl⟩
      rw [hpos.2 hkicked, Bool.or_true]
    · refine (hasked.trans (asks_systemTick (w := w) _)).kicks.trans ?_
      obtain ⟨more, reconnect, hmore, hzero, heq⟩ := kickPads_spec (w := w) _ _
      rw [heq]
      refine ⟨_, more, reconnect, _, _, hmore, ?_, rfl⟩
      rw [Bool.eq_false_iff.2 fun h => hkicked (hzero.1 h), Bool.or_false]

/-! ## What a section leaves alone -/

/-- The fields that `Keeps` speaks of. -/
def kept (s : Controller) :=
  (s.controllerState, s.controllerLastStateError, s.controllerStateWrites,
    s.controllerTakeoverMode, s.idlePlace, s.controllerYieldAfterUse, s.calls)

/-- What `t` keeps of `s`, and the calls between them: pads are disconnected only under `k`, and behind
    one that was the slot is owed to the player. -/
structure Keeps (k : Prop) (s t : Controller) : Prop where
  controllerState : t.controllerState = s.controllerState
  lastStateError : t.controllerLastStateError = s.controllerLastStateError
  stateWrites : t.controllerStateWrites = s.controllerStateWrites
  takeoverMode : t.controllerTakeoverMode = s.controllerTakeoverMode
  idlePlace : t.idlePlace = s.idlePlace
  calls : ∃ more, t.calls = s.calls ++ more ∧
    (∀ call ∈ more, call.plain = true ∨ k ∧ call.disconnects = true) ∧
      t.controllerYieldAfterUse = (s.controllerYieldAfterUse || more.any HidCall.disconnected)

/-- The state that a new device is built for. -/
def charged (s : Controller) : Controller :=
  { s with controllerState := { s.controllerState with battery_level := 4 } }

section Frame

variable {s t u : Controller} {k : Prop}

theorem Keeps.refl (s : Controller) : Keeps k s s := by
  refine ⟨rfl, rfl, rfl, rfl, rfl, [], (List.append_nil _).symm, ?_, (Bool.or_false _).symm⟩
  intro call hmem
  exact absurd hmem List.not_mem_nil

theorem Keeps.trans (hst : Keeps k s t) (htu : Keeps k t u) : Keeps k s u := by
  obtain ⟨first, hfirst, hplain, hyield⟩ := hst.calls
  obtain ⟨second, hsecond, hplains, hyields⟩ := htu.calls
  refine ⟨htu.controllerState.trans hst.controllerState,
    htu.lastStateError.trans hst.lastStateError, htu.stateWrites.trans hst.stateWrites,
    htu.takeoverMode.trans hst.takeoverMode, htu.idlePlace.trans hst.idlePlace,
    first ++ second, ?_, ?_, ?_⟩
  · rw [hsecond, hfirst, List.append_assoc]
  · intro call hmem
    exact (List.mem_append.1 hmem).elim (hplain call) (hplains call)
  · rw [hyields, hyield, List.any_append, Bool.or_assoc]

theorem Keeps.of_kept (h : Keeps k s t) (heq : u.kept = t.kept) : Keeps k s u := by
  simp only [kept, Prod.mk.injEq] at heq
  obtain ⟨hstate, herror, hwrites, hmode, hplace, hyield, hcalls⟩ := heq
  refine ⟨hstate.trans h.controllerState, herror.trans h.lastStateError,
    hwrites.trans h.stateWrites, hmode.trans h.takeoverMode, hplace.trans h.idlePlace, ?_⟩
  rw [hyield, hcalls]
  exact h.calls

theorem Keeps.mono {other : Prop} (h : Keeps k s t) (himp : k → other) :
    Keeps other s t := by
  obtain ⟨more, hmore, hplain, hyield⟩ := h.calls
  exact ⟨h.controllerState, h.lastStateError, h.stateWrites, h.takeoverMode, h.idlePlace, more,
    hmore, fun call hmem => (hplain call hmem).imp_right (And.imp_left himp), hyield⟩

theorem Kicks.keeps (h : Kicks s t) (hkicks : k) : Keeps k s t := by
  obtain ⟨_, more, _, _, _, hmore, hyield, rfl⟩ := h
  refine ⟨rfl, rfl, rfl, rfl, rfl, more, rfl, ?_, hyield⟩
  intro call hmem
  exact (hmore call hmem).imp HidCall.plain_of_asks fun hcall => ⟨hkicks, hcall⟩

theorem Asks.keeps (h : Asks s t) : Keeps k s t := by
  obtain ⟨_, more, hmore, rfl⟩ := h
  have hplain : ∀ call ∈ more, call.plain = true :=
    fun call hmem => HidCall.plain_of_asks (hmore call hmem)
  refine ⟨rfl, rfl, rfl, rfl, rfl, more, rfl, fun call hmem => .inl (hplain call hmem), ?_⟩
  rw [any_disconnected_of_plain hplain, Bool.or_false]

theorem keeps_called (s : Controller) {call : HidCall} (h : call.plain = true) :
    Keeps k s (s.called call) := by
  have hplain : ∀ other ∈ [call], other.plain = true := by
    intro other hmem
    rw [List.mem_singleton.1 hmem]
    exact h
  refine ⟨rfl, rfl, rfl, rfl, rfl, [call], rfl, fun call hmem => .inl (hplain call hmem), ?_⟩
  rw [any_disconnected_of_plain hplain, Bool.or_false]
  rfl

theorem keeps_teardownControllerLocked (s : Controller) :
    Keeps k s (s.teardownControllerLocked w) := by
  have hreleased : ∀ t : Controller, Keeps k t
      (((t.releaseHdlsWorkBuffer w).called .hiddbgExit).called .free) := by
    intro t
    exact ((keeps_called t rfl).trans (keeps_called _ rfl)).trans (keeps_called _ rfl)
  unfold teardownControllerLocked
  dsimp only
  split_ifs
  · have h := (keeps_called (k := k) s rfl).trans (hreleased (s.detachHdlsVirtualDevice w))
    exact h.of_kept rfl
  · have h := hreleased s
    exact h.of_kept rfl
  · have h := Keeps.refl (k := k) s
    exact h.of_kept rfl

theorem keeps_openHiddbg (s : Controller) : Keeps k s (s.openHiddbg w) := by
  have hopened : Keeps k s (s.called (.hiddbgInitialize (w.hiddbgInitialize s.calls))) :=
    keeps_called s rfl
  have hallocated : ∀ given, Keeps k s
      ((s.called (.hiddbgInitialize (w.hiddbgInitialize s.calls))).called (.alignedAlloc given)) :=
    fun given => hopened.trans (keeps_called _ rfl)
  unfold openHiddbg
  dsimp only
  split_ifs
  · exact hopened
  · have h := hallocated (w.alignedAlloc
      (s.called (.hiddbgInitialize (w.hiddbgInitialize s.calls))).calls)
    exact h.of_kept rfl
  · have h := hallocated (w.alignedAlloc
      (s.called (.hiddbgInitialize (w.hiddbgInitialize s.calls))).calls)
    exact h.of_kept rfl

theorem keeps_attachHdlsWorkBuffer (s : Controller) :
    Keeps k s (s.attachHdlsWorkBuffer w) := by
  have h : Keeps k s
      (s.called (.attachHdlsWorkBuffer (w.attachHdlsWorkBuffer s.calls).1)) :=
    keeps_called s rfl
  unfold attachHdlsWorkBuffer
  dsimp only
  split_ifs
  · exact h.of_kept rfl
  · exact h

theorem keeps_attachHdlsVirtualDevice (s : Controller) :
    Keeps k s (s.attachHdlsVirtualDevice w) := by
  have h : Keeps k s (s.called (.attachHdlsVirtualDevice s.controllerDevice
      (w.attachHdlsVirtualDevice s.calls s.controllerDevice).1
      (w.attachHdlsVirtualDevice s.calls s.controllerDevice).2)) :=
    keeps_called s rfl
  unfold attachHdlsVirtualDevice
  dsimp only
  split_ifs
  · exact h.of_kept rfl
  · exact h

theorem keeps_setHdlsState (s : Controller) : Keeps k s (s.setHdlsState w).2 :=
  keeps_called s rfl

theorem keeps_attachDevice (s : Controller) : Keeps k s (s.attachDevice w) := by
  have hcounted : Keeps k s ((s.controllerPlayer1PadCount w).2.systemTick w).2 :=
    ((asks_controllerPlayer1PadCount s).trans (asks_systemTick _)).keeps
  have hattached := hcounted.trans (keeps_attachHdlsVirtualDevice (w := w) _)
  have hwaited : ∀ t : Controller, ∀ pads, Keeps k t
      ((t.systemTick w).2.controllerWaitForAttachLocked w pads) :=
    fun t pads => ((asks_systemTick t).trans (asks_controllerWaitForAttachLocked _ _)).keeps
  unfold attachDevice
  dsimp only
  split_ifs
  · exact (hattached.trans (hwaited _ _)).trans
      ((asks_systemTick _).trans (asks_controllerPlayer1PadCount _)).keeps
  · exact hattached.trans (hwaited _ _)

theorem keeps_finishInit (s : Controller) : Keeps k s (s.finishInit w) := by
  have hwritten := keeps_setHdlsState (w := w) (k := k) s
  have hflags : Keeps k s
      { (s.setHdlsState w).2 with
        bControllerIsInitialised := true
        controllerRealPadSampleTick := 0 } :=
    hwritten.of_kept rfl
  have h := hflags.trans (asks_controllerTopologySignature (w := w) _).keeps
  exact h.of_kept rfl

theorem Keeps.charged (h : Keeps k s t) : Keeps k s.charged t.charged := by
  refine ⟨?_, h.lastStateError, h.stateWrites, h.takeoverMode, h.idlePlace, h.calls⟩
  simp only [Controller.charged, h.controllerState]

theorem keeps_initControllerLocked (hdown : s.bControllerIsInitialised = false) :
    Keeps k s.charged (s.initControllerLocked w) := by
  have hopened := (keeps_openHiddbg (w := w) (k := k) s).charged
  unfold initControllerLocked
  rw [if_neg (by rw [hdown]; decide)]
  exact ((hopened.trans (keeps_attachHdlsWorkBuffer _)).trans (keeps_attachDevice _)).trans
    (keeps_finishInit _)

end Frame

/-! ## The device -/

/-- The console has the device of the handle or none, and a device shows `state` or nothing. -/
structure Holds (w : HidWorld) (s : Controller) (state : HiddbgHdlsState) : Prop where
  buffer : (hdls s.calls).buffer = s.workmem
  held : (hdls s.calls).held = [] ∧ (hdls s.calls).shown = none ∨
    s.workmem = true ∧ (hdls s.calls).held = [s.controllerHandle] ∧
      ((hdls s.calls).shown = none ∨ (hdls s.calls).shown = some state)
  sessions : w.Grants → (hdls s.calls).sessions = if s.workmem then 1 else 0

structure Down (w : HidWorld) (s : Controller) : Prop where
  initialised : s.bControllerIsInitialised = false
  workmem : s.workmem = false
  holds : Holds w s s.controllerState

structure Up (w : HidWorld) (s : Controller) (state : HiddbgHdlsState) : Prop where
  initialised : s.bControllerIsInitialised = true
  battery : s.controllerState.battery_level = 4
  granted : w.Grants → s.workmem = true
  holds : Holds w s state

section Device

variable {s t : Controller} {state : HiddbgHdlsState}

theorem Holds.congr (h : Holds w s state) (hcalls : hdls t.calls = hdls s.calls)
    (hworkmem : t.workmem = s.workmem) (hhandle : t.controllerHandle = s.controllerHandle) :
    Holds w t state := by
  constructor
  · rw [hcalls, hworkmem]
    exact h.buffer
  · rw [hcalls, hworkmem, hhandle]
    exact h.held
  · rw [hcalls, hworkmem]
    exact h.sessions

theorem Holds.asks (h : Holds w s state) (hasks : Asks s t) : Holds w t state := by
  have hcalls := hasks.hdls
  obtain ⟨ready, more, -, rfl⟩ := hasks
  exact h.congr hcalls rfl rfl

theorem Down.kicks (h : Down w s) (hkicks : Kicks s t) : Down w t := by
  have hcalls := hkicks.hdls
  obtain ⟨_, _, _, _, _, -, -, rfl⟩ := hkicks
  exact ⟨h.initialised, h.workmem, h.holds.congr hcalls rfl rfl⟩

theorem Up.kicks (h : Up w s state) (hkicks : Kicks s t) : Up w t state := by
  have hcalls := hkicks.hdls
  obtain ⟨_, _, _, _, _, -, -, rfl⟩ := hkicks
  exact ⟨h.initialised, h.battery, h.granted, h.holds.congr hcalls rfl rfl⟩

/-- A device that is held is detached with the handle it has. -/
theorem teardownControllerLocked_down (h : Down w s ∨ Up w s state) :
    Down w (s.teardownControllerLocked w) := by
  unfold teardownControllerLocked
  dsimp only
  rcases h with h | h
  · -- no work buffer, so no service is called
    rw [if_neg (by rw [h.workmem]; decide)]
    refine ⟨rfl, h.workmem, ⟨h.holds.buffer, ?_, h.holds.sessions⟩⟩
    rcases h.holds.held with hnone | ⟨hworkmem, -⟩
    · exact .inl hnone
    · rw [h.workmem] at hworkmem
      exact absurd hworkmem Bool.false_ne_true
  · by_cases hworkmem : s.workmem = true
    · rw [if_pos hworkmem, if_pos h.initialised]
      refine ⟨rfl, rfl, ?_⟩
      simp only [detachHdlsVirtualDevice, releaseHdlsWorkBuffer, called]
      -- the device of the handle is the only one there can be
      have hheld : (hdls s.calls).held.erase s.controllerHandle = [] := by
        rcases h.holds.held with ⟨hnone, -⟩ | ⟨-, hone, -⟩
        · rw [hnone]
          rfl
        · rw [hone, List.erase_cons_head]
      refine ⟨?_, .inl ⟨?_, ?_⟩, ?_⟩
      · simp only [hdls_concat]
        rfl
      · simp only [hdls_concat]
        exact hheld
      · simp only [hdls_concat]
        rfl
      · intro hgrants
        have hsessions := h.holds.sessions hgrants
        rw [if_pos hworkmem] at hsessions
        simp only [hdls_concat]
        show (hdls s.calls).sessions - 1 = 0
        rw [hsessions]
        rfl
    · -- without a work buffer nothing was attached
      have hnone := Bool.eq_false_iff.2 hworkmem
      rw [if_neg hworkmem]
      refine ⟨rfl, hnone, ⟨h.holds.buffer, ?_, h.holds.sessions⟩⟩
      rcases h.holds.held with hheld | ⟨htrue, -⟩
      · exact .inl hheld
      · exact absurd htrue hworkmem

/-- Between the two ends of `initControllerLocked`: no device yet. -/
structure Opening (w : HidWorld) (s : Controller) : Prop where
  buffer : (hdls s.calls).buffer = s.workmem
  held : (hdls s.calls).held = []
  shown : (hdls s.calls).shown = none
  granted : w.Grants → s.workmem = true ∧ (hdls s.calls).sessions = 1

theorem Opening.asks (h : Opening w s) (hasks : Asks s t) : Opening w t := by
  have hcalls := hasks.hdls
  obtain ⟨ready, more, -, rfl⟩ := hasks
  constructor
  · rw [hcalls]
    exact h.buffer
  · rw [hcalls]
    exact h.held
  · rw [hcalls]
    exact h.shown
  · rw [hcalls]
    exact h.granted

theorem openHiddbg_opening (h : Down w s) : Opening w (s.openHiddbg w) := by
  have hbuffer : (hdls s.calls).buffer = false := h.holds.buffer.trans h.workmem
  have hnone : (hdls s.calls).held = [] ∧ (hdls s.calls).shown = none := by
    rcases h.holds.held with hnone | ⟨hworkmem, -⟩
    · exact hnone
    · rw [h.workmem] at hworkmem
      exact absurd hworkmem Bool.false_ne_true
  have hsessions : w.Grants → (hdls s.calls).sessions = 0 := by
    intro hgrants
    rw [h.holds.sessions hgrants, h.workmem]
    rfl
  have hopened : ∀ rc, (hdls (s.calls ++ [.hiddbgInitialize rc])).held = [] ∧
      (hdls (s.calls ++ [.hiddbgInitialize rc])).shown = none ∧
        (hdls (s.calls ++ [.hiddbgInitialize rc])).buffer = false ∧
          (rc = 0 → w.Grants → (hdls (s.calls ++ [.hiddbgInitialize rc])).sessions = 1) := by
    intro rc
    rw [hdls_concat, Hdls.after]
    split_ifs with hrc
    · refine ⟨hnone.1, hnone.2, hbuffer, ?_⟩
      intro _ hgrants
      show (hdls s.calls).sessions + 1 = 1
      rw [hsessions hgrants]
      rfl
    · exact ⟨hnone.1, hnone.2, hbuffer, fun hzero => absurd hzero hrc⟩
  obtain ⟨hheld, hshown, hopen, hsession⟩ := hopened (w.hiddbgInitialize s.calls)
  unfold openHiddbg
  dsimp only [called]
  split_ifs with hrefused hgiven
  · -- nothing is allocated
    refine ⟨hopen.trans h.workmem.symm, hheld, hshown, ?_⟩
    intro hgrants
    exact absurd (hgrants.opens _) hrefused.1
  · refine ⟨?_, ?_, ?_, ?_⟩
    · rw [hdls_concat]
      rfl
    · rw [hdls_concat]
      exact hheld
    · rw [hdls_concat]
      exact hshown
    · intro hgrants
      rw [hdls_concat]
      exact ⟨hgiven, hsession (hgrants.opens _) hgrants⟩
  · refine ⟨?_, ?_, ?_, ?_⟩
    · rw [hdls_concat]
      rfl
    · rw [hdls_concat]
      exact hheld
    · rw [hdls_concat]
      exact hshown
    · intro hgrants
      exact absurd (hgrants.allocates _) hgiven

theorem attachHdlsWorkBuffer_opening (h : Opening w s) : Opening w (s.attachHdlsWorkBuffer w) := by
  unfold attachHdlsWorkBuffer
  dsimp only [called]
  split_ifs
  all_goals
    constructor
    · rw [hdls_concat]
      exact h.buffer
    · rw [hdls_concat]
      exact h.held
    · rw [hdls_concat]
      exact h.shown
    · rw [hdls_concat]
      exact h.granted

/-- Behind the attachment nothing is shown yet, and a device is there only over the buffer. -/
theorem attachHdlsVirtualDevice_holds (state : HiddbgHdlsState) (hw : w.Lawful) (h : Opening w s) :
    Holds w (s.attachHdlsVirtualDevice w) state ∧
      (w.Grants → (s.attachHdlsVirtualDevice w).workmem = true) := by
  have hgranted : w.Grants → s.workmem = true := fun hgrants => (h.granted hgrants).1
  have hsessions : w.Grants → (hdls s.calls).sessions = if s.workmem then 1 else 0 := by
    intro hgrants
    rw [if_pos (h.granted hgrants).1]
    exact (h.granted hgrants).2
  unfold attachHdlsVirtualDevice
  dsimp only [called]
  split_ifs with hrc
  · refine ⟨⟨?_, .inr ⟨?_, ?_, .inl ?_⟩, ?_⟩, hgranted⟩
    · rw [hdls_concat, Hdls.after, if_pos hrc]
      exact h.buffer
    · -- the console would not have attached it without the buffer
      exact h.buffer.symm.trans (hw.needsBuffer _ _ hrc)
    · rw [hdls_concat, Hdls.after, if_pos hrc]
      show (hdls s.calls).held ++ _ = _
      rw [h.held]
      rfl
    · rw [hdls_concat, Hdls.after, if_pos hrc]
    · rw [hdls_concat, Hdls.after, if_pos hrc]
      exact hsessions
  · refine ⟨⟨?_, .inl ⟨?_, ?_⟩, ?_⟩, hgranted⟩
    · rw [hdls_concat, Hdls.after, if_neg hrc]
      exact h.buffer
    · rw [hdls_concat, Hdls.after, if_neg hrc]
      exact h.held
    · rw [hdls_concat, Hdls.after, if_neg hrc]
      exact h.shown
    · rw [hdls_concat, Hdls.after, if_neg hrc]
      exact hsessions

/-- A state that is accepted is the one that is shown. -/
theorem setHdlsState_accepted (hw : w.Lawful) (h : Holds w s state)
    (hrc : (s.setHdlsState w).1 = 0) :
    Holds w (s.setHdlsState w).2 s.controllerState ∧
      (hdls (s.setHdlsState w).2.calls).shown = some s.controllerState := by
  have hzero : w.setHdlsState s.calls s.controllerHandle s.controllerState = 0 := hrc
  have hmem := hw.needsDevice _ _ _ hzero
  rcases h.held with ⟨hnone, -⟩ | ⟨hworkmem, hone, -⟩
  · rw [hnone] at hmem
    exact absurd hmem List.not_mem_nil
  · have hshown : hdls (s.setHdlsState w).2.calls =
        { hdls s.calls with shown := some s.controllerState } := by
      simp only [setHdlsState, called]
      rw [hdls_concat, Hdls.after, if_pos ⟨hzero, List.contains_iff_mem.2 hmem⟩]
    refine ⟨⟨?_, .inr ⟨hworkmem, ?_, .inr ?_⟩, ?_⟩, ?_⟩
    · rw [hshown]
      exact h.buffer
    · rw [hshown]
      exact hone
    · rw [hshown]
    · rw [hshown]
      exact h.sessions
    · rw [hshown]

theorem setHdlsState_refused (h : Holds w s state) (hrc : (s.setHdlsState w).1 ≠ 0) :
    Holds w (s.setHdlsState w).2 state := by
  have hne : w.setHdlsState s.calls s.controllerHandle s.controllerState ≠ 0 := hrc
  refine h.congr ?_ rfl rfl
  simp only [setHdlsState, called]
  rw [hdls_concat, Hdls.after, if_neg]
  rintro ⟨hzero, -⟩
  exact hne hzero

theorem attachDevice_holds (state : HiddbgHdlsState) (hw : w.Lawful) (h : Opening w s) :
    Holds w (s.attachDevice w) state ∧ (w.Grants → (s.attachDevice w).workmem = true) := by
  have hcounted := h.asks ((asks_controllerPlayer1PadCount (w := w) s).trans
    (asks_systemTick (w := w) _))
  obtain ⟨hholds, hgranted⟩ := attachHdlsVirtualDevice_holds state hw hcounted
  have hasked : ∀ t : Controller, Asks (Controller.attachHdlsVirtualDevice w
      ((s.controllerPlayer1PadCount w).2.systemTick w).2) t →
        Holds w t state ∧ (w.Grants → t.workmem = true) := by
    intro t hasks
    refine ⟨hholds.asks hasks, ?_⟩
    obtain ⟨_, _, -, rfl⟩ := hasks
    exact hgranted
  -- behind the attachment the loop that waits for the new pad only asks
  have hwaited := fun pads => (asks_systemTick (w := w) (Controller.attachHdlsVirtualDevice w
    ((s.controllerPlayer1PadCount w).2.systemTick w).2)).trans
      (asks_controllerWaitForAttachLocked (w := w) pads _)
  unfold attachDevice
  dsimp only
  split_ifs
  · exact hasked _ (((hwaited _).trans (asks_systemTick _)).trans (asks_controllerPlayer1PadCount _))
  · exact hasked _ (hwaited _)

theorem finishInit_up (hw : w.Lawful) (h : Holds w s s.controllerState)
    (hbattery : s.controllerState.battery_level = 4) (hgranted : w.Grants → s.workmem = true) :
    Up w (s.finishInit w) s.controllerState := by
  have hwritten : Holds w (s.setHdlsState w).2 s.controllerState := by
    by_cases hrc : (s.setHdlsState w).1 = 0
    · exact (setHdlsState_accepted hw h hrc).1
    · exact setHdlsState_refused h hrc
  have hup : Up w
      { (s.setHdlsState w).2 with
        bControllerIsInitialised := true
        controllerRealPadSampleTick := 0 } s.controllerState :=
    ⟨rfl, hbattery, hgranted, hwritten.congr rfl rfl rfl⟩
  have hsigned := hup.kicks (asks_controllerTopologySignature (w := w) _).kicks
  exact ⟨hsigned.initialised, hsigned.battery, hsigned.granted, hsigned.holds.congr rfl rfl rfl⟩

/-- A device is built over what was left down, and shows what is held. -/
theorem initControllerLocked_up (hw : w.Lawful) (h : Down w s) :
    Up w (s.initControllerLocked w) s.charged.controllerState := by
  have hopening := openHiddbg_opening h
  have hcharged : Opening w (s.openHiddbg w).charged :=
    ⟨hopening.buffer, hopening.held, hopening.shown, hopening.granted⟩
  -- only the charge changes the state, so what is built is built for the state that is held
  have hstate : (((s.openHiddbg w).charged.attachHdlsWorkBuffer w).attachDevice w).controllerState
      = s.charged.controllerState := by
    rw [(keeps_attachDevice (k := False) _).controllerState,
      (keeps_attachHdlsWorkBuffer (k := False) _).controllerState]
    simp only [charged, (keeps_openHiddbg (w := w) (k := False) s).controllerState]
  obtain ⟨hholds, hgranted⟩ := attachDevice_holds s.charged.controllerState hw
    (attachHdlsWorkBuffer_opening hcharged)
  rw [← hstate] at hholds
  have hup := finishInit_up hw hholds (by rw [hstate]; rfl) hgranted
  unfold initControllerLocked
  rw [if_neg (by rw [h.initialised]; decide), ← hstate]
  exact hup

theorem Up.charged (h : Up w s state) : s.charged = s := by
  unfold Controller.charged
  rw [← h.battery]

theorem initialised_of_attached (h : (s.controllerDeviceIsAttachedLocked w).1 = true) :
    s.bControllerIsInitialised = true := by
  by_contra hnone
  unfold controllerDeviceIsAttachedLocked at h
  rw [if_pos (.inl (Bool.not_eq_true _ ▸ hnone))] at h
  exact Bool.false_ne_true h

theorem keeps_takeOver (s : Controller) :
    Keeps (1 ≤ s.controllerTakeoverMode) s (s.takeOver w) := by
  unfold takeOver
  split_ifs with hmode
  · exact (kicks_kickControllerSlotHolders s).keeps hmode
  · exact Keeps.refl s

theorem takeOver_device (h : Down w s ∨ Up w s state) :
    Down w (s.takeOver w) ∨ Up w (s.takeOver w) state := by
  unfold takeOver
  split_ifs
  · have hkicks := kicks_kickControllerSlotHolders (w := w) s
    exact h.imp (Down.kicks · hkicks) (Up.kicks · hkicks)
  · exact h

theorem keeps_rebuild (s : Controller) :
    Keeps (1 ≤ s.controllerTakeoverMode) s.charged (s.rebuild w) := by
  have hdown := (keeps_takeOver (w := w) s).trans (keeps_teardownControllerLocked (w := w) _)
  exact hdown.charged.trans (keeps_initControllerLocked rfl)

/-- Whatever was there before, a new device shows what is held. -/
theorem rebuild_up (hw : w.Lawful) (h : Down w s ∨ Up w s state) :
    Up w (s.rebuild w) (s.rebuild w).controllerState := by
  have hdown := teardownControllerLocked_down (takeOver_device h)
  rw [rebuild, (keeps_initControllerLocked (k := False) hdown.initialised).controllerState]
  exact initControllerLocked_up hw hdown

/-- Up to the battery level, which a new device sets. -/
theorem keeps_ensureControllerLocked (s : Controller) :
    Keeps (1 ≤ s.controllerTakeoverMode) s.charged (s.ensureControllerLocked w).2.charged := by
  have hasks := asks_controllerDeviceIsAttachedLocked (w := w) s
  unfold ensureControllerLocked
  dsimp only
  split_ifs with hattached
  · exact hasks.keeps.charged
  · have hrebuilt := keeps_rebuild (w := w) (s.controllerDeviceIsAttachedLocked w).2
    rw [(hasks.keeps (k := False)).takeoverMode] at hrebuilt
    exact ((hasks.keeps.charged.trans hrebuilt).trans
      (asks_controllerDeviceIsAttachedLocked _).keeps).charged

theorem ensureControllerLocked_up (hw : w.Lawful) (h : Down w s ∨ Up w s state) :
    Up w (s.ensureControllerLocked w).2 state ∧
        (s.ensureControllerLocked w).2.controllerState = s.controllerState ∨
      Up w (s.ensureControllerLocked w).2 (s.ensureControllerLocked w).2.controllerState := by
  have hasks := asks_controllerDeviceIsAttachedLocked (w := w) s
  unfold ensureControllerLocked
  dsimp only
  by_cases hattached : (s.controllerDeviceIsAttachedLocked w).1 = true
  · rw [if_pos hattached]
    rcases h with hdown | hup
    · -- a device that is down is not found attached
      exact absurd (hdown.initialised.symm.trans (initialised_of_attached hattached))
        Bool.false_ne_true
    · exact .inl ⟨hup.kicks hasks.kicks, (hasks.keeps (k := False)).controllerState⟩
  · rw [if_neg hattached]
    have hdevice := h.imp (Down.kicks · hasks.kicks) (Up.kicks · hasks.kicks)
    -- the answer of the second check is only returned
    have hrechecked := asks_controllerDeviceIsAttachedLocked (w := w)
      ((s.controllerDeviceIsAttachedLocked w).2.rebuild w)
    have hup := (rebuild_up hw hdevice).kicks hrechecked.kicks
    rw [← (hrechecked.keeps (k := False)).controllerState] at hup
    exact .inr hup

theorem keeps_tryWrite (s : Controller) :
    Keeps (1 ≤ s.controllerTakeoverMode) s.charged (s.tryWrite w).2.charged := by
  have hwritten := (keeps_ensureControllerLocked (w := w) s).trans
    (keeps_setHdlsState (w := w) _).charged
  unfold tryWrite
  dsimp only
  split_ifs
  · have hrebuilt := keeps_rebuild (w := w) ((s.ensureControllerLocked w).2.setHdlsState w).2
    have hmode : ((s.ensureControllerLocked w).2.setHdlsState w).2.controllerTakeoverMode =
        s.controllerTakeoverMode := hwritten.takeoverMode
    rw [hmode] at hrebuilt
    exact hwritten.trans (hrebuilt.trans (keeps_setHdlsState _)).charged
  · exact hwritten

/-- A write ends with a device that shows what is held, or nothing yet; if it is accepted, the device
    shows it. -/
theorem tryWrite_up (hw : w.Lawful) (h : Down w s ∨ Up w s state) :
    Up w (s.tryWrite w).2 (s.tryWrite w).2.controllerState ∧
      ((s.tryWrite w).1 = 0 →
        (hdls (s.tryWrite w).2.calls).shown = some (s.tryWrite w).2.controllerState) := by
  have haccepted : ∀ t state, Up w t state → (t.setHdlsState w).1 = 0 →
      Up w (t.setHdlsState w).2 (t.setHdlsState w).2.controllerState ∧
        (hdls (t.setHdlsState w).2.calls).shown = some (t.setHdlsState w).2.controllerState := by
    intro t state hup hrc
    obtain ⟨hholds, hshown⟩ := setHdlsState_accepted hw hup.holds hrc
    exact ⟨⟨hup.initialised, hup.battery, hup.granted, hholds⟩, hshown⟩
  have hrefused : ∀ t state, Up w t state → (t.setHdlsState w).1 ≠ 0 →
      Up w (t.setHdlsState w).2 state := by
    intro t state hup hrc
    exact ⟨hup.initialised, hup.battery, hup.granted, setHdlsState_refused hup.holds hrc⟩
  obtain ⟨shown, hensured⟩ : ∃ shown, Up w (s.ensureControllerLocked w).2 shown :=
    (ensureControllerLocked_up hw h).elim (fun h => ⟨_, h.1⟩) (⟨_, ·⟩)
  unfold tryWrite
  dsimp only
  split_ifs with hrc
  · -- the write is made once more, on a new device
    have hrebuilt := rebuild_up hw (.inr (hrefused _ _ hensured hrc))
    by_cases hagain : ((((s.ensureControllerLocked w).2.setHdlsState w).2.rebuild w).setHdlsState
        w).1 = 0
    · obtain ⟨hup, hshown⟩ := haccepted _ _ hrebuilt hagain
      exact ⟨hup, fun _ => hshown⟩
    · exact ⟨hrefused _ _ hrebuilt hagain, fun hzero => absurd hzero hagain⟩
  · obtain ⟨hup, hshown⟩ := haccepted _ _ hensured (not_not.1 hrc)
    exact ⟨hup, fun _ => hshown⟩

/-- What the end of a write changes. -/
theorem concludeWrite_spec (rc : UInt32) (s : Controller) :
    ∃ ready more, (∀ call ∈ more, call.asks = true ∨ call.reported.isSome = true) ∧
      more.filterMap HidCall.reported =
        (if rc ≠ 0 ∧ rc ≠ s.controllerLastStateError then [rc] else []) ∧
        s.concludeWrite w rc = { s with
          controllerHidsysReady := ready
          calls := s.calls ++ more
          controllerLastStateError := rc
          controllerStateWrites := if rc = 0 then s.controllerStateWrites + 1
            else s.controllerStateWrites } := by
  unfold concludeWrite
  dsimp only
  by_cases hrc : rc = 0
  · refine ⟨s.controllerHidsysReady, [], ?_, ?_, ?_⟩
    · intro call hmem
      exact absurd hmem List.not_mem_nil
    · rw [if_neg (fun h => h.1 hrc)]
      rfl
    · rw [if_neg (not_not.2 hrc), if_pos hrc, List.append_nil, hrc]
  · rw [if_pos hrc, if_neg hrc]
    by_cases hsame : rc = s.controllerLastStateError
    · -- the same error is not reported again
      refine ⟨s.controllerHidsysReady, [], ?_, ?_, ?_⟩
      · intro call hmem
        exact absurd hmem List.not_mem_nil
      · rw [if_neg (fun h => h.2 hsame)]
        rfl
      · rw [if_neg (not_not.2 hsame), List.append_nil, hsame]
    · obtain ⟨ready, asked, hasked, heq⟩ := asks_controllerDeviceIsAttachedLocked (w := w)
        { s with controllerLastStateError := rc }
      rw [if_pos hsame, if_pos ⟨hrc, hsame⟩, heq]
      refine ⟨ready, asked ++ [.stateError rc
        (controllerDeviceIsAttachedLocked w { s with controllerLastStateError := rc }).1
        s.controllerTakeoverMode], ?_, ?_, ?_⟩
      · intro call hmem
        rcases List.mem_append.1 hmem with hmem | hmem
        · exact .inl (hasked call hmem)
        · rw [List.mem_singleton.1 hmem]
          exact .inr rfl
      · have hnone : asked.filterMap HidCall.reported = [] := by
          rw [List.filterMap_eq_nil_iff]
          intro call hmem
          exact HidCall.reported_of_plain (HidCall.plain_of_asks (hasked call hmem))
        rw [List.filterMap_append, hnone]
        rfl
      · simp only [called, List.append_assoc]

theorem Up.concludeWrite (h : Up w s state) (rc : UInt32) : Up w (s.concludeWrite w rc) state := by
  obtain ⟨ready, more, hmore, -, heq⟩ := concludeWrite_spec (w := w) rc s
  rw [heq]
  refine ⟨h.initialised, h.battery, h.granted, h.holds.congr (hdls_quiet ?_) rfl rfl⟩
  intro call hmem
  exact (hmore call hmem).elim HidCall.quiet_of_asks HidCall.quiet_of_reported

theorem writeControllerStateLocked_up (hw : w.Lawful) (h : Down w s ∨ Up w s state) :
    Up w (s.writeControllerStateLocked w).2 s.charged.controllerState ∧
      (s.writeControllerStateLocked w).2.controllerState = s.charged.controllerState ∧
        ((s.writeControllerStateLocked w).1 = 0 →
          (hdls (s.writeControllerStateLocked w).2.calls).shown =
            some s.charged.controllerState) := by
  obtain ⟨hup, hshown⟩ := tryWrite_up hw h
  have hstate : (s.tryWrite w).2.controllerState = s.charged.controllerState := by
    rw [← (keeps_tryWrite (w := w) s).controllerState, hup.charged]
  rw [hstate] at hup hshown
  have hconcluded := hup.concludeWrite (s.tryWrite w).1
  obtain ⟨ready, more, hmore, -, heq⟩ := concludeWrite_spec (w := w) (s.tryWrite w).1
    (s.tryWrite w).2
  unfold writeControllerStateLocked
  dsimp only
  refine ⟨hconcluded, ?_, ?_⟩
  · rw [heq]
    exact hstate
  · intro hrc
    rw [heq, ← hshown hrc]
    refine congrArg Hdls.shown (hdls_quiet ?_)
    intro call hmem
    exact (hmore call hmem).elim HidCall.quiet_of_asks HidCall.quiet_of_reported

end Device

end Controller

end SysAgent
