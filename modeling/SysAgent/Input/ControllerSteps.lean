import SysAgent.Input.Reconnect

set_option autoImplicit false

/-! # The virtual controller (`commands.c`)

The globals of the virtual controller and every function that writes one of them. A step is what one
thread does under `controllerMutex`, or between two such sections. `world` answers the calls into
`hid:dbg`, `hid:sys`, the allocator and the clock; an answer may depend on every call made before, so
that nothing is said about when the console drops the device.

What is printed while result codes are shown is left out, and so are the commands that only print. -/

namespace SysAgent

/-! ## Calls -/

structure HidAnalogStickState where
  x : Int32
  y : Int32
  deriving DecidableEq

/-- The fields that are written. -/
structure HiddbgHdlsState where
  battery_level : UInt32
  buttons : UInt64
  analog_stick_l : HidAnalogStickState
  analog_stick_r : HidAnalogStickState
  deriving DecidableEq

structure HiddbgHdlsDeviceInfo where
  deviceType : UInt8
  npadInterfaceType : UInt8
  singleColorBody : UInt32
  singleColorButtons : UInt32
  colorLeftGrip : UInt32
  colorRightGrip : UInt32
  deriving DecidableEq

/-- A call and its answer. `hidsys` stands for the calls that only ask. -/
inductive HidCall
  | hiddbgInitialize (rc : UInt32)
  | alignedAlloc (given : Bool)
  | attachHdlsWorkBuffer (rc : UInt32)
  | attachHdlsVirtualDevice (device : HiddbgHdlsDeviceInfo) (rc : UInt32) (handle : UInt64)
  | isHdlsVirtualDeviceAttached (handle : UInt64) (rc : UInt32) (attached : Bool)
  | setHdlsState (handle : UInt64) (state : HiddbgHdlsState) (rc : UInt32)
  | detachHdlsVirtualDevice (handle : UInt64) (rc : UInt32)
  | releaseHdlsWorkBuffer (session : UInt64) (rc : UInt32)
  | hiddbgExit
  | free
  | hidsys
  | disconnectUniquePad (pad : UInt64) (rc : UInt32)
  | triggerConnections
  | systemTick (tick : UInt64)
  /-- The line `ERR controllerState`. -/
  | stateError (rc : UInt32) (attached : Bool) (takeover : UInt64)

/-- What the calls answer, after those made before. -/
structure HidWorld where
  hiddbgInitialize : List HidCall → UInt32
  alignedAlloc : List HidCall → Bool
  attachHdlsWorkBuffer : List HidCall → UInt32 × UInt64
  attachHdlsVirtualDevice : List HidCall → HiddbgHdlsDeviceInfo → UInt32 × UInt64
  isHdlsVirtualDeviceAttached : List HidCall → UInt64 → UInt32 × Bool
  setHdlsState : List HidCall → UInt64 → HiddbgHdlsState → UInt32
  detachHdlsVirtualDevice : List HidCall → UInt64 → UInt32
  releaseHdlsWorkBuffer : List HidCall → UInt64 → UInt32
  hidsysInitialize : List HidCall → UInt32
  /-- The pads of player 1. -/
  uniquePadsFromNpad : List HidCall → UInt32 × List UInt64
  uniquePadIds : List HidCall → UInt32 × Int32
  joyConAttachedOnAllRail : List HidCall → UInt32 × Bool
  handheldHidsEnabled : List HidCall → UInt32 × Bool
  uniquePadBluetoothAddress : List HidCall → UInt64 → Option BtdrvAddress
  disconnectUniquePad : List HidCall → UInt64 → UInt32
  btdrvInitialize : List HidCall → UInt32
  /-- The answer for each place of the queue. -/
  triggerConnection : List HidCall → Nat → UInt32
  systemTick : List HidCall → UInt64
  systemTickFreq : UInt64
  armTicksToNs : UInt64 → UInt64

/-! ## The state -/

structure ControllerPadSample where
  otherPads : Int32
  railPads : Int32
  deriving DecidableEq

/-- Where the main loop is in `controllerServiceIdle`: nowhere, with a sample (and the tick of one
    that is still to be stored), or in front of the lock with the tick read there. -/
inductive IdlePlace
  | resting
  | sampled (fresh : Option UInt64) (sample : ControllerPadSample)
  | due (now : UInt64)
  deriving DecidableEq

structure Controller where
  bControllerIsInitialised : Bool
  controllerInitializedType : UInt8
  controllerHandle : UInt64
  sessionId : UInt64
  workmem : Bool
  initflag : Bool
  controllerState : HiddbgHdlsState
  controllerTakeoverMode : UInt64
  controllerLastStateError : UInt32
  controllerStateWrites : UInt64
  controllerTopology : UInt64
  controllerRealPadSampleTick : UInt64
  controllerRealPadSample : ControllerPadSample
  controllerHidsysReady : Bool
  controllerLastInputTick : UInt64
  controllerLastRefreshTick : UInt64
  controllerIdleReleaseMs : UInt64
  controllerYieldAfterUse : Bool
  controllerSequenceActive : Bool
  debugResultCodes : Bool
  reconnect : ReconnectState
  idlePlace : IdlePlace
  /-- Every call so far. -/
  calls : List HidCall

def HiddbgHdlsState.zero : HiddbgHdlsState where
  battery_level := 0
  buttons := 0
  analog_stick_l := ⟨0, 0⟩
  analog_stick_r := ⟨0, 0⟩

namespace Controller

def HidDeviceType_FullKey3 : UInt8 := 3
def HidNpadInterfaceType_Bluetooth : UInt8 := 1

def initial : Controller where
  bControllerIsInitialised := false
  controllerInitializedType := HidDeviceType_FullKey3
  controllerHandle := 0
  sessionId := 0
  workmem := false
  initflag := false
  controllerState := .zero
  controllerTakeoverMode := 1
  controllerLastStateError := 0
  controllerStateWrites := 0
  controllerTopology := 0
  controllerRealPadSampleTick := 0
  controllerRealPadSample := ⟨-1, 0⟩
  controllerHidsysReady := false
  controllerLastInputTick := 0
  controllerLastRefreshTick := 0
  controllerIdleReleaseMs := 1000
  controllerYieldAfterUse := false
  controllerSequenceActive := false
  debugResultCodes := false
  reconnect := .init
  idlePlace := .resting
  calls := []

/-- `RGBA8_MAXALPHA` -/
def rgba8MaxAlpha (r g b : UInt32) : UInt32 :=
  r ||| g <<< 8 ||| b <<< 16 ||| 0xFF000000

/-- What `initControllerLocked` writes to `controllerDevice`. -/
def controllerDevice (s : Controller) : HiddbgHdlsDeviceInfo where
  deviceType := s.controllerInitializedType
  npadInterfaceType := HidNpadInterfaceType_Bluetooth
  singleColorBody := rgba8MaxAlpha 255 255 255
  singleColorButtons := rgba8MaxAlpha 0 0 0
  colorLeftGrip := rgba8MaxAlpha 230 255 0
  colorRightGrip := rgba8MaxAlpha 0 40 20

def called (call : HidCall) (s : Controller) : Controller :=
  { s with calls := s.calls ++ [call] }

section

variable (w : HidWorld)

/-- `armGetSystemTick` -/
def systemTick (s : Controller) : UInt64 × Controller :=
  (w.systemTick s.calls, s.called (.systemTick (w.systemTick s.calls)))

/-! ## `hid:sys` -/

def controllerHidsysAcquire (s : Controller) : Bool × Controller :=
  if s.controllerHidsysReady then (true, s)
  else if w.hidsysInitialize s.calls ≠ 0 then (false, s.called .hidsys)
  else (true, { s.called .hidsys with controllerHidsysReady := true })

def controllerHidsysDropOnFailure (rc : UInt32) (s : Controller) : Controller :=
  if rc ≠ 0 then { s with controllerHidsysReady := false } else s

def controllerPlayer1PadCount (s : Controller) : Int × Controller :=
  let (ready, s) := s.controllerHidsysAcquire w
  if ready = false then (-1, s)
  else
    let (rc, pads) := w.uniquePadsFromNpad s.calls
    let s := (s.called .hidsys).controllerHidsysDropOnFailure rc
    (if rc = 0 then pads.length else -1, s)

def controllerTopologySignature (s : Controller) : UInt64 × Controller :=
  let (ready, s) := s.controllerHidsysAcquire w
  if ready = false then (0, s)
  else
    let signature : UInt64 := 0x100000000
    let (railRc, rail) := w.joyConAttachedOnAllRail s.calls
    let s := s.called .hidsys
    let signature := if railRc = 0 ∧ rail then signature ||| 1 else signature
    let (handheldRc, handheld) := w.handheldHidsEnabled s.calls
    let s := s.called .hidsys
    let signature := if handheldRc = 0 ∧ handheld then signature ||| 2 else signature
    let (padsRc, total) := w.uniquePadIds s.calls
    let s := s.called .hidsys
    let signature :=
      if padsRc = 0 ∧ 0 ≤ total then signature ||| (total.toInt64.toUInt64 &&& 0xFF) <<< 8
      else signature
    (signature, s)

def controllerPadSampleNow (s : Controller) : ControllerPadSample × Controller :=
  let (ready, s) := s.controllerHidsysAcquire w
  if ready = false then (⟨-1, 0⟩, s)
  else
    let (listRc, total) := w.uniquePadIds s.calls
    let s := (s.called .hidsys).controllerHidsysDropOnFailure listRc
    let ours : Int32 := if s.bControllerIsInitialised then 1 else 0
    let otherPads :=
      if listRc = 0 ∧ 0 ≤ total then (if total - ours < 0 then 0 else total - ours) else -1
    let (railRc, rail) := w.joyConAttachedOnAllRail s.calls
    let s := (s.called .hidsys).controllerHidsysDropOnFailure railRc
    (⟨otherPads, if railRc = 0 ∧ rail then 2 else 0⟩, s)

/-- `controllerSaveAddress` asks for the address unless the queue is full. -/
def controllerSaveAddress (pad : UInt64) (s : Controller) : Controller :=
  let kicked : KickedPad :=
    { address := w.uniquePadBluetoothAddress s.calls pad, disconnects := false }
  let asked := if CONTROLLER_SAVED_ADDR_MAX ≤ s.reconnect.savedAddr.length then s
    else s.called .hidsys
  { asked with reconnect := s.reconnect.saveAddress kicked }

/-- `hidsysDisconnectUniquePad` -/
def disconnectUniquePad (pad : UInt64) (s : Controller) : UInt32 × Controller :=
  let rc := w.disconnectUniquePad s.calls pad
  (rc, s.called (.disconnectUniquePad pad rc))

/-- The loop of `kickControllerSlotHolders`, and how many pads it disconnects. -/
def kickPads : List UInt64 → Controller → Nat × Controller
  | [], s => (0, s)
  | pad :: pads, s =>
    let (rc, s) := (s.controllerSaveAddress w pad).disconnectUniquePad w pad
    let (kicked, s) := kickPads pads s
    (if rc = 0 then kicked + 1 else kicked, s)

def kickControllerSlotHolders (s : Controller) : Controller :=
  let (ready, s) := s.controllerHidsysAcquire w
  if ready = false then s
  else
    let (rc, pads) := w.uniquePadsFromNpad s.calls
    let s := s.called .hidsys
    if rc ≠ 0 ∨ pads = [] then s
    else
      let (_, s) := s.systemTick w
      let (kicked, s) := kickPads w pads s
      if 0 < kicked then
        { s with controllerYieldAfterUse := true, controllerRealPadSampleTick := 0 }
      else s

/-! ## The device -/

def controllerDeviceIsAttachedLocked (s : Controller) : Bool × Controller :=
  if s.bControllerIsInitialised = false ∨ s.controllerHandle = 0 then (false, s)
  else
    let (rc, attached) := w.isHdlsVirtualDeviceAttached s.calls s.controllerHandle
    let s := s.called (.isHdlsVirtualDeviceAttached s.controllerHandle rc attached)
    (if rc ≠ 0 then false else attached, s)

def detachHdlsVirtualDevice (s : Controller) : Controller :=
  s.called (.detachHdlsVirtualDevice s.controllerHandle
    (w.detachHdlsVirtualDevice s.calls s.controllerHandle))

def releaseHdlsWorkBuffer (s : Controller) : Controller :=
  s.called (.releaseHdlsWorkBuffer s.sessionId (w.releaseHdlsWorkBuffer s.calls s.sessionId))

def teardownControllerLocked (s : Controller) : Controller :=
  let s :=
    if s.workmem then
      let s := if s.bControllerIsInitialised then s.detachHdlsVirtualDevice w else s
      let s := ((s.releaseHdlsWorkBuffer w).called .hiddbgExit).called .free
      { s with workmem := false }
    else s
  { s with
    initflag := false
    bControllerIsInitialised := false
    controllerHandle := 0
    sessionId := 0
    controllerRealPadSampleTick := 0 }

/-- `CONTROLLER_SETTLE_MAX_NS` in steps of `CONTROLLER_SETTLE_STEP_NS`. A turn sleeps one step, so
    that the loop has no more turns. -/
def settleTurns : Nat := 30

def settleLoop (padsBefore : Int) (start minTicks maxTicks : UInt64) :
    Nat → Controller → Controller
  | 0, s => s
  | turns + 1, s =>
    let (now, s) := s.systemTick w
    if maxTicks ≤ now - start then s
    else
      let (now, s) := s.systemTick w
      if now - start < minTicks then settleLoop padsBefore start minTicks maxTicks turns s
      else if padsBefore < 0 then s
      else
        let (pads, s) := s.controllerPlayer1PadCount w
        if padsBefore < pads then s
        else settleLoop padsBefore start minTicks maxTicks turns s

def controllerWaitForAttachLocked (padsBefore : Int) (s : Controller) : Controller :=
  let (start, s) := s.systemTick w
  let minTicks := 50000000 * w.systemTickFreq / 1000000000
  let maxTicks := 150000000 * w.systemTickFreq / 1000000000
  settleLoop w padsBefore start minTicks maxTicks settleTurns s

/-- `hiddbgInitialize` and the allocation behind it. -/
def openHiddbg (s : Controller) : Controller :=
  let rc := w.hiddbgInitialize s.calls
  let s := s.called (.hiddbgInitialize rc)
  if rc ≠ 0 ∧ s.debugResultCodes then s
  else
    let given := w.alignedAlloc s.calls
    let s := { s.called (.alignedAlloc given) with workmem := given }
    if given then { s with initflag := true } else s

def attachHdlsWorkBuffer (s : Controller) : Controller :=
  let (rc, session) := w.attachHdlsWorkBuffer s.calls
  let s := s.called (.attachHdlsWorkBuffer rc)
  if rc = 0 then { s with sessionId := session } else s

def attachHdlsVirtualDevice (s : Controller) : Controller :=
  let (rc, handle) := w.attachHdlsVirtualDevice s.calls s.controllerDevice
  let s := s.called (.attachHdlsVirtualDevice s.controllerDevice rc handle)
  if rc = 0 then { s with controllerHandle := handle } else s

def setHdlsState (s : Controller) : UInt32 × Controller :=
  let rc := w.setHdlsState s.calls s.controllerHandle s.controllerState
  (rc, s.called (.setHdlsState s.controllerHandle s.controllerState rc))

/-- The device, and the wait until the console routes it. -/
def attachDevice (s : Controller) : Controller :=
  let (padsBefore, s) := s.controllerPlayer1PadCount w
  let (_, s) := s.systemTick w
  let s := s.attachHdlsVirtualDevice w
  let (_, s) := s.systemTick w
  let s := s.controllerWaitForAttachLocked w padsBefore
  -- the line that shows the times counts the pads once more
  if s.debugResultCodes then ((s.systemTick w).2.controllerPlayer1PadCount w).2 else s

/-- The first write, and the layout the device is built for. -/
def finishInit (s : Controller) : Controller :=
  let (_, s) := s.setHdlsState w
  let s := { s with bControllerIsInitialised := true, controllerRealPadSampleTick := 0 }
  let (signature, s) := s.controllerTopologySignature w
  { s with controllerTopology := signature }

def initControllerLocked (s : Controller) : Controller :=
  if s.bControllerIsInitialised then s
  else
    let s := s.openHiddbg w
    let s := { s with controllerState := { s.controllerState with battery_level := 4 } }
    ((s.attachHdlsWorkBuffer w).attachDevice w).finishInit w

/-- The kick of a takeover, if the mode allows one. -/
def takeOver (s : Controller) : Controller :=
  if 1 ≤ s.controllerTakeoverMode then s.kickControllerSlotHolders w else s

/-- A new device in place of the one that is there. -/
def rebuild (s : Controller) : Controller :=
  ((s.takeOver w).teardownControllerLocked w).initControllerLocked w

def ensureControllerLocked (s : Controller) : Bool × Controller :=
  let (attached, s) := s.controllerDeviceIsAttachedLocked w
  if attached then (true, s) else (s.rebuild w).controllerDeviceIsAttachedLocked w

/-- `writeControllerStateLocked` up to the result of its last write. -/
def tryWrite (s : Controller) : UInt32 × Controller :=
  let (_, s) := s.ensureControllerLocked w
  let (rc, s) := s.setHdlsState w
  if rc ≠ 0 then (s.rebuild w).setHdlsState w else (rc, s)

/-- What `writeControllerStateLocked` makes of that result. -/
def concludeWrite (rc : UInt32) (s : Controller) : Controller :=
  if rc ≠ 0 then
    if rc ≠ s.controllerLastStateError then
      let s := { s with controllerLastStateError := rc }
      let (attached, s) := s.controllerDeviceIsAttachedLocked w
      s.called (.stateError rc attached s.controllerTakeoverMode)
    else s
  else
    { s with
      controllerLastStateError := 0
      controllerStateWrites := s.controllerStateWrites + 1 }

/-- `writeControllerStateLocked` with the result of its last write. -/
def writeControllerStateLocked (s : Controller) : UInt32 × Controller :=
  let (rc, s) := s.tryWrite w
  (rc, s.concludeWrite w rc)

end

end Controller

/-! ## What the inputs ask for -/

/-- `side` of `setStickState`. -/
inductive Joystick
  | left
  | right
  deriving DecidableEq

namespace HiddbgHdlsState

def press (btn : UInt64) (state : HiddbgHdlsState) : HiddbgHdlsState :=
  { state with buttons := state.buttons ||| btn }

def release (btn : UInt64) (state : HiddbgHdlsState) : HiddbgHdlsState :=
  { state with buttons := state.buttons &&& ~~~btn }

def setStick (side : Joystick) (dxVal dyVal : Int32) (state : HiddbgHdlsState) :
    HiddbgHdlsState :=
  match side with
  | .left => { state with analog_stick_l := ⟨dxVal, dyVal⟩ }
  | .right => { state with analog_stick_r := ⟨dxVal, dyVal⟩ }

/-- What `detachController` clears. -/
def cleared (state : HiddbgHdlsState) : HiddbgHdlsState :=
  { state with buttons := 0, analog_stick_l := ⟨0, 0⟩, analog_stick_r := ⟨0, 0⟩ }

/-- Nothing is held. -/
def neutral (state : HiddbgHdlsState) : Bool :=
  state.buttons == 0 && state.analog_stick_l.x == 0 && state.analog_stick_l.y == 0 &&
    state.analog_stick_r.x == 0 && state.analog_stick_r.y == 0

end HiddbgHdlsState

namespace Controller

section

variable (w : HidWorld)

/-! ## Sections -/

def press (btn : UInt64) (s : Controller) : UInt32 × Controller :=
  { s with controllerState := s.controllerState.press btn }.writeControllerStateLocked w

def release (btn : UInt64) (s : Controller) : UInt32 × Controller :=
  { s with controllerState := s.controllerState.release btn }.writeControllerStateLocked w

def setStickState (side : Joystick) (dxVal dyVal : Int32) (s : Controller) :
    UInt32 × Controller :=
  { s with controllerState := s.controllerState.setStick side dxVal dyVal }.writeControllerStateLocked
    w

def detachController (s : Controller) : Controller :=
  let s := s.teardownControllerLocked w
  { s with controllerState := s.controllerState.cleared }

/-- `controllerRefreshIfIdle` behind the tick it reads first. -/
def controllerRefreshIfIdle (now : UInt64) (s : Controller) : Controller :=
  let idle := s.controllerLastInputTick ≠ 0 ∧
    500000000 ≤ w.armTicksToNs (now - s.controllerLastInputTick)
  let rateLimited := s.controllerLastRefreshTick ≠ 0 ∧
    w.armTicksToNs (now - s.controllerLastRefreshTick) < 5000000000
  let s := { s with controllerLastInputTick := now }
  if idle ∧ ¬ rateLimited ∧ s.bControllerIsInitialised then
    let (signature, s) := s.controllerTopologySignature w
    if signature ≠ 0 ∧ signature ≠ s.controllerTopology then
      { s with
        controllerTopology := signature
        controllerLastRefreshTick := now }.teardownControllerLocked w
    else s
  else s

/-- `controllerServiceIdle` up to the sample. -/
def idleStart (s : Controller) : Controller :=
  if s.bControllerIsInitialised = false then s
  else if s.controllerIdleReleaseMs = 0 then s
  else
    let (now, s) := s.systemTick w
    if s.controllerRealPadSampleTick ≠ 0 ∧
        w.armTicksToNs (now - s.controllerRealPadSampleTick) < 500000000 then
      { s with idlePlace := .sampled none s.controllerRealPadSample }
    else
      let (sample, s) := s.controllerPadSampleNow w
      { s with idlePlace := .sampled (some now) sample }

/-- From the sample to the lock. -/
def idleDecide (fresh : Option UInt64) (sample : ControllerPadSample) (s : Controller) :
    Controller :=
  let s :=
    match fresh with
    | none => s
    | some now =>
      { s with controllerRealPadSample := sample, controllerRealPadSampleTick := now }
  if ¬ sample.railPads < sample.otherPads ∧ s.controllerYieldAfterUse = false then
    { s with idlePlace := .resting }
  else
    let (now, s) := s.systemTick w
    { s with idlePlace := .due now }

/-- `idle`, as the locked part of `controllerServiceIdle` sees it. -/
def isIdle (now : UInt64) (s : Controller) : Bool :=
  s.controllerLastInputTick == 0 ||
    decide (s.controllerIdleReleaseMs * 1000000 ≤
      w.armTicksToNs (now - s.controllerLastInputTick))

/-- What `controllerServiceIdle` does under the lock. -/
def idleRelease (now : UInt64) (s : Controller) : Controller :=
  let s := { s with idlePlace := .resting }
  if s.bControllerIsInitialised ∧ s.isIdle w now ∧ s.controllerSequenceActive = false ∧
      s.controllerState.neutral then
    { s.teardownControllerLocked w with
      controllerTopology := 0
      controllerYieldAfterUse := false }
  else s

/-- The next part of `controllerServiceIdle`. -/
def controllerServiceIdle (s : Controller) : Controller :=
  match s.idlePlace with
  | .resting => s.idleStart w
  | .sampled fresh sample => s.idleDecide w fresh sample
  | .due now => s.idleRelease w now

/-- What `controllerServiceReconnect` meets. -/
def reconnectPass (s : Controller) : ReconnectPass where
  isInitialised := s.bControllerIsInitialised
  now := w.systemTick s.calls
  systemTickFreq := w.systemTickFreq
  acquires := w.btdrvInitialize s.calls = 0
  trigger := w.triggerConnection s.calls

/-- `controllerServiceReconnect`; the connections that a pass triggers are one entry. -/
def controllerServiceReconnect (s : Controller) : Controller :=
  if s.reconnect.savedAddr = [] then s
  else
    let pass := s.reconnectPass w
    let triggers := pass.isInitialised = false ∧
      ¬ (s.reconnect.nextTick ≠ 0 ∧ pass.now < s.reconnect.nextTick) ∧ pass.acquires
    let s := { s with reconnect := s.reconnect.serviceReconnect pass }.called (.systemTick pass.now)
    if triggers then s.called .triggerConnections else s

end

end Controller

/-- `initController` is the section of `touch` and `key`, `ensureController` the one in front of the
    tokens of `clickSequence`. -/
inductive ControllerStep
  | press (btn : UInt64)
  | release (btn : UInt64)
  | setStickState (side : Joystick) (dxVal dyVal : Int32)
  | initController
  | ensureController
  | sequenceActive (active : Bool)
  | sequenceTick
  | detachController
  | controllerRefreshIfIdle (now : UInt64)
  | controllerServiceIdle
  | controllerServiceReconnect
  /-- One pad of `controllerKickCommand`. -/
  | kickCommandPad (pad : UInt64)
  /-- `controllerReconnectCommand` with the address it is given. -/
  | reconnectCommand (address : Option BtdrvAddress)
  | controllerType (type : UInt8)
  | controllerIdleRelease (ms : UInt64)
  | controllerTakeover (mode : UInt64)
  | debugResultCodes (shown : Bool)

namespace Controller

/-- One section of one thread, and the result of its write if it writes the state. -/
def turn (w : HidWorld) (s : Controller) : ControllerStep → Option UInt32 × Controller
  | .press btn => ((s.press w btn).1, (s.press w btn).2)
  | .release btn => ((s.release w btn).1, (s.release w btn).2)
  | .setStickState side dxVal dyVal =>
    ((s.setStickState w side dxVal dyVal).1, (s.setStickState w side dxVal dyVal).2)
  | .initController => (none, s.initControllerLocked w)
  | .ensureController => (none, (s.ensureControllerLocked w).2)
  | .sequenceActive active => (none, { s with controllerSequenceActive := active })
  | .sequenceTick =>
    (none, { (s.systemTick w).2 with controllerLastInputTick := (s.systemTick w).1 })
  | .detachController => (none, s.detachController w)
  | .controllerRefreshIfIdle now => (none, s.controllerRefreshIfIdle w now)
  | .controllerServiceIdle => (none, s.controllerServiceIdle w)
  | .controllerServiceReconnect => (none, s.controllerServiceReconnect w)
  | .kickCommandPad pad => (none, ((s.controllerSaveAddress w pad).disconnectUniquePad w pad).2)
  | .reconnectCommand address =>
    (none, { s with reconnect := s.reconnect.step (.reconnectCommand address) })
  | .controllerType type => (none, { s with controllerInitializedType := type })
  | .controllerIdleRelease ms => (none, { s with controllerIdleReleaseMs := ms })
  | .controllerTakeover mode => (none, { s with controllerTakeoverMode := mode })
  | .debugResultCodes shown => (none, { s with debugResultCodes := shown })

def step (w : HidWorld) (s : Controller) (step : ControllerStep) : Controller :=
  (s.turn w step).2

end Controller

end SysAgent
