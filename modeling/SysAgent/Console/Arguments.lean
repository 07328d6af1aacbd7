import SysAgent.Lib.Checked
import SysAgent.Console.Keyboard
import SysAgent.Console.Pointers
import SysAgent.Console.StatusLines
import SysAgent.Debug.PatchCode

set_option autoImplicit false

/-! # Handlers and their argument vector (`args.c`, `main.c`)

`parseArgs` cuts a command line into the argument vector, which ends with its last argument. The
handlers are modelled up to what they make of their arguments; an access outside of the vector or of
one of their arrays is `none`. -/

namespace SysAgent

open CNumber Checked

/-! ## The argument vector -/

/-- The separators of `strtok`. -/
def isSeparator (b : UInt8) : Bool :=
  b == 0x20 || b == 0x0D || b == 0x0A

/-- `parseArgs`: both passes find the same tokens. -/
def parseArgs (line : List UInt8) : List (List UInt8) :=
  (line.splitOnP isSeparator).filter fun token => !token.isEmpty

/-- The bytes of a word. -/
def wordBytes (word : String) : List UInt8 :=
  word.toList.map fun c => UInt8.ofNat c.toNat

/-! ## Snapshot specifications (`debug_trace_model.c`) -/

def debugTraceParseUnsigned (text : List UInt8) : Option Nat :=
  if text = [] ∨ text.head? = some 0x2B ∨ text.head? = some 0x2D then none else parseDigits text

def debugTraceParseUnsignedRange (text : List UInt8) : Option Nat :=
  if text.length = 0 ∨ 64 ≤ text.length then none else debugTraceParseUnsigned text

def parseRegisterName (text : List UInt8) : Option (SnapshotBase × UInt8) :=
  if text = wordBytes "sp" then some (.sp, 0)
  else if text = wordBytes "pc" then some (.pc, 0)
  else if text = wordBytes "lr" then some (.lr, 0)
  else if text.length < 2 ∨ 3 < text.length ∨ text.head? ≠ some 0x78 then none
  else
    (debugTraceParseUnsigned (text.drop 1)).bind fun index =>
      if 30 < index then none else some (.gpr, UInt8.ofNat index)

def isSign (b : UInt8) : Bool :=
  b == 0x2B || b == 0x2D

/-- `DEBUG_TRACE_SNAPSHOT_BYTES_MAX` -/
def DEBUG_TRACE_SNAPSHOT_BYTES_MAX : Nat := 0x100

def debugTraceParseSnapshotSpec (text : List UInt8) : Option DebugTraceSnapshotSpec :=
  let front := text.takeWhile (· ≠ 0x3A)
  let behind := text.dropWhile (· ≠ 0x3A)
  if behind = [] ∨ front = [] then none
  else do
    let size ← debugTraceParseUnsigned (behind.drop 1)
    if size = 0 ∨ DEBUG_TRACE_SNAPSHOT_BYTES_MAX < size then none
    else
      let (base, registerIndex) ← parseRegisterName (front.takeWhile fun b => !isSign b)
      match front.dropWhile fun b => !isSign b with
      | [] => some { base, registerIndex, offset := 0, size := UInt32.ofNat size }
      | sign :: digits =>
        let magnitude ← debugTraceParseUnsignedRange digits
        if 2 ^ 63 ≤ magnitude then none
        else
          let offset : Int := if sign = 0x2D then -magnitude else magnitude
          some { base, registerIndex, offset, size := UInt32.ofNat size }

/-! ## The debug handlers -/

abbrev Reply := List Char

/-- What the handlers ask of the console: the process of the application and the base of the main
    module of a process, or a result code. -/
structure DebugServices where
  applicationProcessId : Except UInt32 UInt64
  resolveMainBase : UInt64 → Except UInt32 UInt64

def startsWith (text word : List UInt8) : Bool :=
  word.isPrefixOf text

/-- The options of `debug patch-code`. -/
def patchCodeOption (argv : List (List UInt8)) (a : Nat) (request : PatchCodeRequest) :
    Checked Reply (Nat × PatchCodeRequest) := do
  let option ← access argv a
  if startsWith option (wordBytes "pid=") then
    match tryParseStringToInt (option.drop 4) with
    | none => throw "ERR code=INVALID_PID".toList
    | some pid => pure (0, { request with pid })
  else if option = wordBytes "no-pc-check" then pure (0, { request with checkPc := false })
  else throw "ERR code=INVALID_OPTION".toList

/-- The expected bytes of `debug patch-code`. -/
def patchCodeExpected (text : List UInt8) : Checked Reply (Option (List UInt8)) :=
  if text = wordBytes "-" then pure none
  else
    match parseStringToByteBuffer text with
    | none => throw "ERR code=INVALID_HEX_PAYLOAD".toList
    | some expected => pure (some expected)

/-- `debug patch-code` -/
def debugPatchCode (argv : List (List UInt8)) : Checked Reply PatchCodeRequest := do
  if argv.length < 4 then throw "ERR code=INVALID_ARGUMENTS".toList
  else
    match tryParseStringToInt (← access argv 2) with
    | none => throw "ERR code=INVALID_ADDRESS".toList
    | some address =>
      let expected ← patchCodeExpected (← access argv 3)
      match parseStringToByteBuffer (← access argv 4) with
      | none => throw "ERR code=INVALID_PATCH_SIZE".toList
      | some patch =>
        if PATCH_CODE_MAX_SIZE < patch.length then throw "ERR code=INVALID_PATCH_SIZE".toList
        else if expected.any fun bytes => bytes.length ≠ patch.length then
          throw "ERR code=INVALID_PATCH_SIZE".toList
        else
          loop argv.length (patchCodeOption argv) 5
            { address, expected, skipVerify := expected.isNone, patch := some patch,
              checkPc := true, pid := 0 }

/-- What the options of `debug trace` and `debug multitrace` set. -/
structure TraceOptions where
  maxHits : UInt32
  hitsSpecified : Bool
  duration : UInt64
  durationFromFirstHit : Bool
  ringSize : UInt32
  argsCount : UInt32
  snapshots : List DebugTraceSnapshotSpec
  targetSnapshots : List (List DebugTraceSnapshotSpec)

def DEBUG_TRACE_TARGET_MAX : Nat := 4
def DEBUG_TRACE_SNAPSHOT_MAX : Nat := 2
def DEBUG_TRACE_RING_MAX : Nat := 64
def DEBUG_TRACE_ARGS_MAX : Nat := 8
def DEBUG_TRACE_DEFAULT_RING_HITS : Nat := 64

def TraceOptions.start : TraceOptions where
  maxHits := 1
  hitsSpecified := false
  duration := 60
  durationFromFirstHit := false
  ringSize := 0
  argsCount := UInt32.ofNat DEBUG_TRACE_ARGS_MAX
  snapshots := []
  targetSnapshots := List.replicate DEBUG_TRACE_TARGET_MAX []

/-- A keyword with a number behind it; `none` if the argument is another one, or the last one. -/
def numberOption (argv : List (List UInt8)) (index : Nat) (keyword : String)
    (refuses : UInt64 → Bool) (code : String) : Checked Reply (Option UInt64) := do
  let argument ← access argv index
  if argument = wordBytes keyword ∧ index + 1 < argv.length then
    match tryParseStringToInt (← access argv (index + 1)) with
    | none => throw code.toList
    | some parsed => if refuses parsed then throw code.toList else pure (some parsed)
  else pure none

/-- `snap=` -/
def snapOption (argument : List UInt8) (options : TraceOptions) : Checked Reply TraceOptions :=
  if DEBUG_TRACE_SNAPSHOT_MAX ≤ options.snapshots.length then
    throw "ERR code=INVALID_SNAPSHOT".toList
  else
    match debugTraceParseSnapshotSpec (argument.drop 5) with
    | none => throw "ERR code=INVALID_SNAPSHOT".toList
    | some spec => do
      let snapshots ← push DEBUG_TRACE_SNAPSHOT_MAX options.snapshots spec
      pure { options with snapshots }

/-- `tsnap=` -/
def tsnapOption (argument : List UInt8) (options : TraceOptions) : Checked Reply TraceOptions :=
  match argument.drop 6 with
  | digit :: colon :: spec :: rest =>
    if digit < 0x30 ∨ 0x33 < digit ∨ colon ≠ 0x3A then throw "ERR code=INVALID_SNAPSHOT".toList
    else
      let target := digit.toNat - 0x30
      if DEBUG_TRACE_TARGET_MAX ≤ target then throw "ERR code=INVALID_SNAPSHOT".toList
      else do
        let snapshots ← access options.targetSnapshots target
        if DEBUG_TRACE_SNAPSHOT_MAX ≤ snapshots.length then
          throw "ERR code=INVALID_SNAPSHOT".toList
        else
          match debugTraceParseSnapshotSpec (spec :: rest) with
          | none => throw "ERR code=INVALID_SNAPSHOT".toList
          | some parsed => do
            let snapshots ← push DEBUG_TRACE_SNAPSHOT_MAX snapshots parsed
            pure { options with targetSnapshots := options.targetSnapshots.set target snapshots }
  | _ => throw "ERR code=INVALID_SNAPSHOT".toList

/-- The options that both handlers take; `none` for another argument. -/
def traceOption (argv : List (List UInt8)) (index : Nat) (options : TraceOptions) :
    Checked Reply (Option (Nat × TraceOptions)) := do
  let argument ← access argv index
  let hits ← numberOption argv index "hits" (0xFFFFFFFF < ·) "ERR code=INVALID_HITS"
  if let some parsed := hits then
    return some (1, { options with maxHits := parsed.toUInt32, hitsSpecified := true })
  let ring ← numberOption argv index "ring"
    (fun parsed => parsed == 0 || UInt64.ofNat DEBUG_TRACE_RING_MAX < parsed) "ERR code=INVALID_RING"
  if let some parsed := ring then
    return some (1, { options with ringSize := parsed.toUInt32 })
  let duration ← numberOption argv index "duration" (0x7FFFFFFF < ·) "ERR code=INVALID_DURATION"
  if let some parsed := duration then
    return some (1, { options with duration := parsed })
  if startsWith argument (wordBytes "durationFrom=") then
    if argument.drop 13 = wordBytes "first-hit" then
      return some (0, { options with durationFromFirstHit := true })
    else if argument.drop 13 = wordBytes "arm" then
      return some (0, { options with durationFromFirstHit := false })
    else throw "ERR code=INVALID_ARGUMENTS".toList
  let args ← numberOption argv index "args" (UInt64.ofNat DEBUG_TRACE_ARGS_MAX < ·)
    "ERR code=INVALID_ARGS"
  if let some parsed := args then
    return some (1, { options with argsCount := parsed.toUInt32 })
  if startsWith argument (wordBytes "snap=") then
    return some (0, ← snapOption argument options)
  if startsWith argument (wordBytes "tsnap=") then
    return some (0, ← tsnapOption argument options)
  return none

/-- No snapshots for a target from `targetCount` on. -/
def checkTargetSnapshots (targetCount : Nat) (options : TraceOptions) : Checked Reply Unit :=
  loop DEBUG_TRACE_TARGET_MAX
    (fun target (_ : Unit) => do
      let snapshots ← access options.targetSnapshots target
      if snapshots.length ≠ 0 then
        throw "ERR code=INVALID_SNAPSHOT detail=target_out_of_range".toList
      else pure (0, ())) targetCount ()

/-- The number of hits, which only a ring leaves open. -/
def finishHits (options : TraceOptions) : Checked Reply TraceOptions :=
  let options :=
    if 0 < options.ringSize ∧ !options.hitsSpecified then
      { options with maxHits := UInt32.ofNat DEBUG_TRACE_DEFAULT_RING_HITS }
    else options
  if options.ringSize = 0 ∧ options.maxHits = 0 then
    throw "ERR code=INVALID_HITS detail=unlimited_requires_ring".toList
  else pure options

/-- The arguments of `debug trace`. -/
structure TraceCommand where
  options : TraceOptions
  pid : UInt64
  targetTexts : List (List UInt8)

/-- One round of the loop of `debug trace`. -/
def traceArgument (argv : List (List UInt8)) (index : Nat) (arguments : TraceCommand) :
    Checked Reply (Nat × TraceCommand) := do
  let argument ← access argv index
  if startsWith argument (wordBytes "pid=") then
    match tryParseStringToInt (argument.drop 4) with
    | none => throw "ERR code=INVALID_PID".toList
    | some pid =>
      if pid = 0 then throw "ERR code=INVALID_PID".toList else pure (0, { arguments with pid })
  else
    match ← traceOption argv index arguments.options with
    | some (more, options) => pure (more, { arguments with options })
    | none =>
      if argument = wordBytes "hits" ∨ argument = wordBytes "ring" ∨ argument = wordBytes "duration" ∨
          argument = wordBytes "args" then
        throw "ERR code=INVALID_ARGUMENTS detail=missing_value".toList
      else if DEBUG_TRACE_TARGET_MAX ≤ arguments.targetTexts.length then
        throw "ERR code=INVALID_TARGET_COUNT max=4".toList
      else
        let targetTexts ← push DEBUG_TRACE_TARGET_MAX arguments.targetTexts argument
        pure (0, { arguments with targetTexts })

/-- The base of the main module, looked up once, and the addresses so far. -/
structure TraceTargets where
  mainBase : Option UInt64
  addresses : List UInt64

/-- The base of the main module, looked up if it is not known. -/
def traceMainBase (services : DebugServices) (pid : UInt64) : Option UInt64 → Checked Reply UInt64
  | some mainBase => pure mainBase
  | none =>
    match services.resolveMainBase pid with
    | .error rc => throw ("ERR code=MAIN_BASE_UNAVAILABLE result=".toList ++ hex rc.toNat)
    | .ok mainBase => pure mainBase

/-- The address of a target, and the base of the main module if it is known now. -/
def traceAddress (services : DebugServices) (pid : UInt64) (known : Option UInt64)
    (text : List UInt8) : Checked Reply (Option UInt64 × UInt64) :=
  if startsWith text (wordBytes "main+") then do
    let mainBase ← traceMainBase services pid known
    match tryParseStringToInt (text.drop 5) with
    | none => throw "ERR code=INVALID_ADDRESS".toList
    | some offset => pure (some mainBase, mainBase + offset)
  else
    match tryParseStringToInt text with
    | none => throw "ERR code=INVALID_ADDRESS".toList
    | some address => pure (known, address)

/-- One round of the loop over the targets of `debug trace`. -/
def traceTarget (services : DebugServices) (pid : UInt64) (targetTexts : List (List UInt8))
    (i : Nat) (targets : TraceTargets) : Checked Reply (Nat × TraceTargets) := do
  let text ← access targetTexts i
  let (mainBase, address) ← traceAddress services pid targets.mainBase text
  let addresses ← push DEBUG_TRACE_TARGET_MAX targets.addresses address
  if address &&& 3 ≠ 0 then
    throw "ERR code=INVALID_ADDRESS detail=instruction_not_aligned".toList
  else do
    loop i
      (fun prior (_ : Unit) => do
        if (← access addresses prior) = address then throw "ERR code=DUPLICATE_TARGET".toList
        else pure (0, ())) 0 ()
    pure (0, { mainBase, addresses })

/-- What `debugTraceStart` gets. -/
structure DebugTraceRequest where
  processId : UInt64
  addresses : List UInt64
  options : TraceOptions

/-- The process of `debug trace`: the application if none is given. -/
def traceProcess (services : DebugServices) (pid : UInt64) : Checked Reply UInt64 :=
  if pid = 0 then
    match services.applicationProcessId with
    | .error rc => throw ("ERR code=NO_APP result=".toList ++ hex rc.toNat)
    | .ok pid => if pid = 0 then throw "ERR code=NO_APP result=0x0".toList else pure pid
  else pure pid

/-- `debug trace` -/
def debugTrace (services : DebugServices) (argv : List (List UInt8)) :
    Checked Reply DebugTraceRequest := do
  if argv.length < 3 then throw "ERR code=INVALID_ARGUMENTS".toList
  else
    let arguments ← loop argv.length (traceArgument argv) 2
      { options := TraceOptions.start, pid := 0, targetTexts := [] }
    if arguments.targetTexts.length = 0 then throw "ERR code=INVALID_ARGUMENTS".toList
    else
      checkTargetSnapshots arguments.targetTexts.length arguments.options
      let options ← finishHits arguments.options
      let pid ← traceProcess services arguments.pid
      let targets ← loop arguments.targetTexts.length
        (traceTarget services pid arguments.targetTexts) 0 { mainBase := none, addresses := [] }
      pure { processId := pid, addresses := targets.addresses, options }

/-- `resolveAddressForProcess`; `badInput` is `MAKERESULT(Module_Libnx, LibnxError_BadInput)`. -/
def resolveAddressForProcess (badInput : UInt32) (services : DebugServices) (pid : UInt64)
    (text : List UInt8) : Except UInt32 UInt64 := do
  if pid = 0 then throw badInput
  else
    let address ←
      if startsWith text (wordBytes "main+") then do
        let mainBase ← services.resolveMainBase pid
        match tryParseStringToInt (text.drop 5) with
        | none => throw badInput
        | some offset => pure (mainBase + offset)
      else
        match tryParseStringToInt text with
        | none => throw badInput
        | some address => pure address
    if address = 0 ∨ address &&& 3 ≠ 0 then throw badInput else pure address

/-- What `debugMultiTraceStart` gets: the processes of two or four targets alternate. -/
structure DebugMultiTraceRequest where
  processIds : UInt64 × UInt64
  addresses : List UInt64
  options : TraceOptions

/-- An address of `debug multitrace`. -/
def multiTraceAddress (badInput : UInt32) (services : DebugServices) (pid : UInt64)
    (argv : List (List UInt8)) (i : Nat) (index : String) : Checked Reply UInt64 := do
  match resolveAddressForProcess badInput services pid (← access argv i) with
  | .error rc =>
    throw (("ERR code=INVALID_ADDRESS index=" ++ index ++ " result=").toList ++ hex rc.toNat)
  | .ok address => pure address

/-- The targets of `also`, and where the options begin. -/
def alsoTargets (badInput : UInt32) (services : DebugServices) (pid1 pid2 : UInt64)
    (argv : List (List UInt8)) : Checked Reply (Nat × List UInt64) :=
  if argv[6]? = some (wordBytes "also") then
    if argv.length ≤ 8 then throw "ERR code=INVALID_ARGUMENTS".toList
    else do
      let address3 ← multiTraceAddress badInput services pid1 argv 7 "3"
      let address4 ← multiTraceAddress badInput services pid2 argv 8 "4"
      pure (9, [address3, address4])
  else pure (6, [])

/-- One round of the loop of `debug multitrace`. -/
def multiTraceArgument (argv : List (List UInt8)) (index : Nat) (options : TraceOptions) :
    Checked Reply (Nat × TraceOptions) := do
  match ← traceOption argv index options with
  | some result => pure result
  | none => throw "ERR code=INVALID_ARGUMENTS".toList

/-- `debug multitrace` -/
def debugMultiTrace (badInput : UInt32) (services : DebugServices) (argv : List (List UInt8)) :
    Checked Reply DebugMultiTraceRequest := do
  if argv.length < 6 then throw "ERR code=INVALID_ARGUMENTS".toList
  else
    match tryParseStringToInt (← access argv 2) with
    | none => throw "ERR code=INVALID_PID index=1".toList
    | some pid1 =>
      if pid1 = 0 then throw "ERR code=INVALID_PID index=1".toList
      else
        match tryParseStringToInt (← access argv 4) with
        | none => throw "ERR code=INVALID_PID index=2".toList
        | some pid2 =>
          if pid2 = 0 ∨ pid2 = pid1 then throw "ERR code=INVALID_PID index=2".toList
          else
            let address1 ← multiTraceAddress badInput services pid1 argv 3 "1"
            let address2 ← multiTraceAddress badInput services pid2 argv 5 "2"
            let (index, also) ← alsoTargets badInput services pid1 pid2 argv
            let addresses := address1 :: address2 :: also
            let options ← loop argv.length (multiTraceArgument argv) index TraceOptions.start
            let options ← finishHits options
            checkTargetSnapshots addresses.length options
            pure { processIds := (pid1, pid2), addresses, options }

/-! ## The other handlers -/

/-- `getMetaData`: the bases of the main module and of the heap. -/
structure MetaData where
  main_nso_base : UInt64
  heap_base : UInt64

/-- `peekMulti`: the items for the function of that name, if it comes to it. -/
def peekMultiItems (metaData : MetaData) (argv : List (List UInt8)) :
    Checked Reply (Option (List (UInt64 × UInt64))) := do
  if argv.length < 3 ∨ argv.length % 2 = 0 then pure none
  else if metaData.main_nso_base = 0 then pure none
  else
    let itemCount := (argv.length - 1) / 2
    let items ← loop itemCount
      (fun i (items : List (UInt64 × UInt64)) => do
        let offset := metaData.heap_base + parseStringToInt (← access argv (i * 2 + 1))
        let size := parseStringToInt (← access argv (i * 2 + 2))
        let items ← push itemCount items (offset, size)
        pure (0, items)) 0 []
    pure (some items)

/-- `HidTouchState`, as far as the handlers set it. -/
structure TouchState where
  diameter_x : UInt32
  diameter_y : UInt32
  x : UInt32
  y : UInt32

/-- `touch`: the states for `makeTouch`, if it is called. The last argument read is `argv[j]`. -/
def touch (fingerDiameter : UInt32) (argv : List (List UInt8)) :
    Checked Reply (Option (List TouchState)) := do
  if argv.length < 3 ∨ argv.length % 2 = 0 then pure none
  else
    let count := (argv.length - 1) / 2
    let (_, states) ← loop count
      (fun _ (read : Nat × List TouchState) => do
        let (j, states) := read
        let x := (parseStringToInt (← access argv (j + 1))).toUInt32
        let y := (parseStringToInt (← access argv (j + 2))).toUInt32
        let states ← push count states
          { diameter_x := fingerDiameter, diameter_y := fingerDiameter, x, y }
        pure (0, (j + 2, states))) 0 (0, [])
    pure (some states)

/-! ## The handlers of a command line -/

inductive Handler
  | patchCode
  | trace
  | multitrace
  | pointerPeekMulti
  | peekMulti
  | keyMod
  | touch
  deriving DecidableEq

/-- The handler among these that `argmain` runs. -/
def selected (argv : List (List UInt8)) : Option Handler :=
  match argv with
  | [] => none
  | name :: rest =>
    if name = wordBytes "debug" then
      match rest with
      | [] => none
      | command :: _ =>
        if command = wordBytes "patch-code" then some .patchCode
        else if command = wordBytes "trace" then some .trace
        else if command = wordBytes "multitrace" then some .multitrace
        else none
    else if name = wordBytes "pointerPeekMulti" then some .pointerPeekMulti
    else if name = wordBytes "peekMulti" then some .peekMulti
    else if name = wordBytes "keyMod" then some .keyMod
    else if name = wordBytes "touch" then some .touch
    else none

/-- What the handlers find around them. -/
structure Surroundings where
  badInput : UInt32
  services : DebugServices
  target : Target
  metaData : MetaData
  fingerDiameter : UInt32
  BIT : UInt8 → UInt64

/-- A run of a handler; `none` if it leaves the argument vector or an array. -/
def Handler.run (env : Surroundings) (argv : List (List UInt8)) : Handler → Option Unit
  | .patchCode => (debugPatchCode argv).run.map fun _ => ()
  | .trace => (debugTrace env.services argv).run.map fun _ => ()
  | .multitrace => (debugMultiTrace env.badInput env.services argv).run.map fun _ => ()
  | .pointerPeekMulti => (SysAgent.pointerPeekMulti env.target argv).map fun _ => ()
  | .peekMulti => (peekMultiItems env.metaData argv).run.map fun _ => ()
  | .keyMod => (SysAgent.keyMod env.BIT argv).map fun _ => ()
  | .touch => (SysAgent.touch env.fingerDiameter argv).run.map fun _ => ()

/-- The handler that a command line selects stays inside. -/
def StaysInside (env : Surroundings) (line : List UInt8) : Prop :=
  ∀ handler, selected (parseArgs line) = some handler → handler.run env (parseArgs line) ≠ none

/-- The groups of `pointerPeekMulti`. Behind a separator at the end there is none. -/
def starGroups : List (List UInt8) → List (List (List UInt8))
  | [] => []
  | text :: rest =>
    if text = asterisk then [] :: starGroups rest
    else
      match starGroups rest with
      | [] => [[text]]
      | group :: groups => (text :: group) :: groups

section Bounds

variable {argv : List (List UInt8)} {Q : UInt64 → Prop}

/-! ### The options -/

theorem inBounds_numberOption {index : Nat} (hindex : index < argv.length) (keyword : String)
    (refuses : UInt64 → Bool) (code : String) :
    InBounds (numberOption argv index keyword refuses code) fun _ => True := by
  unfold numberOption
  refine (inBounds_access hindex).bind fun argument _ => ?_
  refine inBounds_ite (fun hnext => ?_) fun _ => inBounds_pure trivial
  refine (inBounds_access hnext.2).bind fun text _ => ?_
  cases tryParseStringToInt text with
  | none => exact inBounds_throw _
  | some parsed => exact inBounds_ite (fun _ => inBounds_throw _) fun _ => inBounds_pure trivial

/-- The arrays of the snapshots: one list for each target. -/
def TraceOptions.Arrays (options : TraceOptions) : Prop :=
  options.targetSnapshots.length = DEBUG_TRACE_TARGET_MAX

theorem inBounds_snapOption (argument : List UInt8) {options : TraceOptions} (h : options.Arrays) :
    InBounds (snapOption argument options) TraceOptions.Arrays := by
  unfold snapOption
  refine inBounds_ite (fun _ => inBounds_throw _) fun hroom => ?_
  cases debugTraceParseSnapshotSpec (argument.drop 5) with
  | none => exact inBounds_throw _
  | some spec => exact (inBounds_push spec (not_le.1 hroom)).bind fun _ _ => inBounds_pure h

theorem inBounds_tsnapOption (argument : List UInt8) {options : TraceOptions} (h : options.Arrays) :
    InBounds (tsnapOption argument options) TraceOptions.Arrays := by
  unfold tsnapOption
  split
  · refine inBounds_ite (fun _ => inBounds_throw _) fun _ => ?_
    refine inBounds_ite (fun _ => inBounds_throw _) fun htarget => ?_
    refine (inBounds_access (h.symm ▸ not_le.1 htarget)).bind fun snapshots _ => ?_
    refine inBounds_ite (fun _ => inBounds_throw _) fun hroom => ?_
    split
    · exact inBounds_throw _
    · refine (inBounds_push _ (not_le.1 hroom)).bind fun _ _ => inBounds_pure ?_
      exact (List.length_set ..).trans h
  · exact inBounds_throw _

theorem inBounds_traceOption {index : Nat} (hindex : index < argv.length) {options : TraceOptions}
    (h : options.Arrays) :
    InBounds (traceOption argv index options) fun result => ∀ r ∈ result, r.2.Arrays := by
  have hkeep {more : Nat} {options' : TraceOptions} (h' : options'.Arrays) :
      ∀ r ∈ some (more, options'), r.2.Arrays := by
    rintro r hr
    cases hr
    exact h'
  unfold traceOption
  refine (inBounds_access hindex).bind fun argument _ => ?_
  refine (inBounds_numberOption hindex ..).bind fun hits _ => ?_
  cases hits with
  | some parsed => exact inBounds_pure (hkeep h)
  | none =>
  refine (inBounds_numberOption hindex ..).bind fun ring _ => ?_
  cases ring with
  | some parsed => exact inBounds_pure (hkeep h)
  | none =>
  refine (inBounds_numberOption hindex ..).bind fun duration _ => ?_
  cases duration with
  | some parsed => exact inBounds_pure (hkeep h)
  | none =>
  refine inBounds_ite (fun _ => ?_) fun _ => ?_
  · refine inBounds_ite (fun _ => inBounds_pure (hkeep h)) fun _ => ?_
    exact inBounds_ite (fun _ => inBounds_pure (hkeep h)) fun _ => inBounds_throw _
  refine (inBounds_numberOption hindex ..).bind fun args _ => ?_
  cases args with
  | some parsed => exact inBounds_pure (hkeep h)
  | none =>
  refine inBounds_ite (fun _ => ?_) fun _ => ?_
  · exact (inBounds_snapOption argument h).bind fun _ h' => inBounds_pure (hkeep h')
  refine inBounds_ite (fun _ => ?_) fun _ => inBounds_pure (by rintro r hr; cases hr)
  exact (inBounds_tsnapOption argument h).bind fun _ h' => inBounds_pure (hkeep h')

/-! ### The debug handlers -/

theorem inBounds_patchCodeOption {a : Nat} (ha : a < argv.length) (request : PatchCodeRequest) :
    InBounds (patchCodeOption argv a request) fun _ => True := by
  unfold patchCodeOption
  refine (inBounds_access ha).bind fun option _ => ?_
  refine inBounds_ite (fun _ => ?_) fun _ => ?_
  · cases tryParseStringToInt (option.drop 4) with
    | none => exact inBounds_throw _
    | some pid => exact inBounds_pure trivial
  · exact inBounds_ite (fun _ => inBounds_pure trivial) fun _ => inBounds_throw _

theorem inBounds_checkTargetSnapshots (targetCount : Nat) {options : TraceOptions}
    (h : options.Arrays) : InBounds (checkTargetSnapshots targetCount options) fun _ => True := by
  unfold checkTargetSnapshots
  refine (inBounds_loop (I := fun _ _ => True) (fun target _ htarget _ => ?_) targetCount ()
    trivial).mono fun _ _ => trivial
  refine (inBounds_access (h.symm ▸ htarget)).bind fun snapshots _ => ?_
  exact inBounds_ite (fun _ => inBounds_throw _) fun _ => inBounds_pure trivial

theorem inBounds_finishHits {options : TraceOptions} (h : options.Arrays) :
    InBounds (finishHits options) TraceOptions.Arrays := by
  unfold finishHits
  refine inBounds_ite (fun _ => inBounds_throw _) fun _ => inBounds_pure ?_
  split_ifs
  · exact h
  · exact h

/-- What the loop of `debug trace` keeps of its arrays. -/
def TraceCommand.Arrays (command : TraceCommand) : Prop :=
  command.options.Arrays ∧ command.targetTexts.length ≤ DEBUG_TRACE_TARGET_MAX

theorem inBounds_traceArgument {index : Nat} (hindex : index < argv.length) {command : TraceCommand}
    (h : command.Arrays) :
    InBounds (traceArgument argv index command) fun r => r.2.Arrays := by
  unfold traceArgument
  refine (inBounds_access hindex).bind fun argument _ => ?_
  refine inBounds_ite (fun _ => ?_) fun _ => ?_
  · cases tryParseStringToInt (argument.drop 4) with
    | none => exact inBounds_throw _
    | some pid => exact inBounds_ite (fun _ => inBounds_throw _) fun _ => inBounds_pure h
  refine (inBounds_traceOption hindex h.1).bind fun result hresult => ?_
  cases result with
  | some r => exact inBounds_pure ⟨hresult r rfl, h.2⟩
  | none =>
    refine inBounds_ite (fun _ => inBounds_throw _) fun _ => ?_
    refine inBounds_ite (fun _ => inBounds_throw _) fun hroom => ?_
    refine (inBounds_push argument (not_le.1 hroom)).bind fun texts htexts => inBounds_pure ⟨h.1, ?_⟩
    rw [htexts, List.length_append, List.length_singleton]
    exact not_le.1 hroom

theorem inBounds_traceAddress (services : DebugServices) (pid : UInt64) (known : Option UInt64)
    (text : List UInt8) : InBounds (traceAddress services pid known text) fun _ => True := by
  have hbase : InBounds (traceMainBase services pid known) fun _ => True := by
    cases known with
    | some mainBase => exact inBounds_pure trivial
    | none =>
      unfold traceMainBase
      cases services.resolveMainBase pid with
      | error rc => exact inBounds_throw _
      | ok mainBase => exact inBounds_pure trivial
  unfold traceAddress
  refine inBounds_ite (fun _ => ?_) fun _ => ?_
  · refine hbase.bind fun mainBase _ => ?_
    cases tryParseStringToInt (text.drop 5) with
    | none => exact inBounds_throw _
    | some offset => exact inBounds_pure trivial
  · cases tryParseStringToInt text with
    | none => exact inBounds_throw _
    | some address => exact inBounds_pure trivial

theorem inBounds_traceTarget (services : DebugServices) (pid : UInt64)
    {targetTexts : List (List UInt8)} (htexts : targetTexts.length ≤ DEBUG_TRACE_TARGET_MAX)
    {i : Nat} (hi : i < targetTexts.length) {targets : TraceTargets}
    (h : targets.addresses.length = i) :
    InBounds (traceTarget services pid targetTexts i targets) fun r =>
      r.2.addresses.length = i + 1 + r.1 := by
  unfold traceTarget
  refine (inBounds_access hi).bind fun text _ => ?_
  refine (inBounds_traceAddress services pid _ text).bind fun found _ => ?_
  refine (inBounds_push found.2 (by omega)).bind fun addresses haddresses => ?_
  refine inBounds_ite (fun _ => inBounds_throw _) fun _ => ?_
  have hlength : addresses.length = i + 1 := by
    rw [haddresses, List.length_append, List.length_singleton, h]
  refine (inBounds_loop (I := fun _ _ => True) (fun prior _ hprior _ => ?_) 0 () trivial).bind
    fun _ _ => inBounds_pure hlength
  refine (inBounds_access (by omega)).bind fun other _ => ?_
  exact inBounds_ite (fun _ => inBounds_throw _) fun _ => inBounds_pure trivial

theorem start_arrays : TraceOptions.start.Arrays :=
  List.length_replicate ..

theorem inBounds_traceProcess (services : DebugServices) (pid : UInt64) :
    InBounds (traceProcess services pid) fun _ => True := by
  unfold traceProcess
  refine inBounds_ite (fun _ => ?_) fun _ => inBounds_pure trivial
  cases services.applicationProcessId with
  | error rc => exact inBounds_throw _
  | ok pid => exact inBounds_ite (fun _ => inBounds_throw _) fun _ => inBounds_pure trivial

theorem inBounds_debugTrace (services : DebugServices) (argv : List (List UInt8)) :
    InBounds (debugTrace services argv) fun _ => True := by
  unfold debugTrace
  refine inBounds_ite (fun _ => inBounds_throw _) fun _ => ?_
  refine (inBounds_loop (I := fun _ command => TraceCommand.Arrays command)
    (fun index command hindex h => inBounds_traceArgument hindex h) 2 _
    ⟨start_arrays, Nat.zero_le _⟩).bind ?_
  rintro command ⟨-, -, harrays⟩
  refine inBounds_ite (fun _ => inBounds_throw _) fun _ => ?_
  refine (inBounds_checkTargetSnapshots _ harrays.1).bind fun _ _ => ?_
  refine (inBounds_finishHits harrays.1).bind fun options _ => ?_
  refine (inBounds_traceProcess services command.pid).bind fun pid _ => ?_
  refine (inBounds_loop (I := fun i (targets : TraceTargets) => targets.addresses.length = i)
    (fun i targets hi h => inBounds_traceTarget services pid harrays.2 hi h) 0 _ rfl).bind
    fun _ _ => inBounds_pure trivial

theorem inBounds_multiTraceAddress (badInput : UInt32) (services : DebugServices) (pid : UInt64)
    {i : Nat} (hi : i < argv.length) (index : String) :
    InBounds (multiTraceAddress badInput services pid argv i index) fun _ => True := by
  unfold multiTraceAddress
  refine (inBounds_access hi).bind fun text _ => ?_
  cases resolveAddressForProcess badInput services pid text with
  | error rc => exact inBounds_throw _
  | ok address => exact inBounds_pure trivial

theorem inBounds_alsoTargets (badInput : UInt32) (services : DebugServices) (pid1 pid2 : UInt64)
    (argv : List (List UInt8)) :
    InBounds (alsoTargets badInput services pid1 pid2 argv) fun _ => True := by
  unfold alsoTargets
  refine inBounds_ite (fun _ => ?_) fun _ => inBounds_pure trivial
  refine inBounds_ite (fun _ => inBounds_throw _) fun hroom => ?_
  refine (inBounds_multiTraceAddress _ _ _ (by omega) _).bind fun address3 _ => ?_
  exact (inBounds_multiTraceAddress _ _ _ (by omega) _).bind fun address4 _ => inBounds_pure trivial

theorem inBounds_multiTraceArgument {index : Nat} (hindex : index < argv.length)
    {options : TraceOptions} (h : options.Arrays) :
    InBounds (multiTraceArgument argv index options) fun r => r.2.Arrays := by
  unfold multiTraceArgument
  refine (inBounds_traceOption hindex h).bind fun result hresult => ?_
  cases result with
  | some r => exact inBounds_pure (hresult r rfl)
  | none => exact inBounds_throw _

theorem inBounds_debugMultiTrace (badInput : UInt32) (services : DebugServices)
    (argv : List (List UInt8)) :
    InBounds (debugMultiTrace badInput services argv) fun _ => True := by
  unfold debugMultiTrace
  refine inBounds_ite (fun _ => inBounds_throw _) fun hcount => ?_
  refine (inBounds_access (by omega)).bind fun text1 _ => ?_
  cases tryParseStringToInt text1 with
  | none => exact inBounds_throw _
  | some pid1 =>
  refine inBounds_ite (fun _ => inBounds_throw _) fun _ => ?_
  refine (inBounds_access (by omega)).bind fun text2 _ => ?_
  cases tryParseStringToInt text2 with
  | none => exact inBounds_throw _
  | some pid2 =>
  refine inBounds_ite (fun _ => inBounds_throw _) fun _ => ?_
  refine (inBounds_multiTraceAddress _ _ _ (by omega) _).bind fun address1 _ => ?_
  refine (inBounds_multiTraceAddress _ _ _ (by omega) _).bind fun address2 _ => ?_
  refine (inBounds_alsoTargets _ _ _ _ argv).bind fun found _ => ?_
  refine (inBounds_loop (I := fun _ options => TraceOptions.Arrays options)
    (fun index options hindex h => inBounds_multiTraceArgument hindex h) _ _ start_arrays).bind ?_
  rintro options ⟨-, -, harrays⟩
  refine (inBounds_finishHits harrays).bind fun options harrays => ?_
  exact (inBounds_checkTargetSnapshots _ harrays).bind fun _ _ => inBounds_pure trivial

/-- A request without a patch is only refused in time if its address or its expected bytes are. -/
def PatchCodeComplete (argv : List (List UInt8)) : Prop :=
  argv.length ≠ 4 ∨ argv[2]?.bind tryParseStringToInt = none ∨
    ∃ text, argv[3]? = some text ∧ text ≠ wordBytes "-" ∧ parseStringToByteBuffer text = none

theorem inBounds_patchCodeExpected (text : List UInt8) :
    InBounds (patchCodeExpected text) fun _ => True := by
  unfold patchCodeExpected
  refine inBounds_ite (fun _ => inBounds_pure trivial) fun _ => ?_
  cases parseStringToByteBuffer text with
  | none => exact inBounds_throw _
  | some expected => exact inBounds_pure trivial

theorem inBounds_debugPatchCode (h : argv.length ≠ 4) :
    InBounds (debugPatchCode argv) fun _ => True := by
  unfold debugPatchCode
  refine inBounds_ite (fun _ => inBounds_throw _) fun hcount => ?_
  refine (inBounds_access (by omega)).bind fun text _ => ?_
  cases tryParseStringToInt text with
  | none => exact inBounds_throw _
  | some address =>
  refine (inBounds_access (by omega)).bind fun expectedText _ => ?_
  refine (inBounds_patchCodeExpected expectedText).bind fun expected _ => ?_
  refine (inBounds_access (by omega)).bind fun patchText _ => ?_
  cases parseStringToByteBuffer patchText with
  | none => exact inBounds_throw _
  | some patch =>
  refine inBounds_ite (fun _ => inBounds_throw _) fun _ => ?_
  refine inBounds_ite (fun _ => inBounds_throw _) fun _ => ?_
  exact (inBounds_loop (I := fun _ _ => True)
    (fun a request ha _ => inBounds_patchCodeOption ha request) 5 _ trivial).mono fun _ _ => trivial

theorem debugPatchCode_iff (argv : List (List UInt8)) :
    (debugPatchCode argv).run ≠ none ↔ PatchCodeComplete argv := by
  unfold PatchCodeComplete
  by_cases hcount : argv.length = 4
  · obtain ⟨name, command, addressText, expectedText, rfl⟩ : ∃ a b c d, argv = [a, b, c, d] := by
      match argv, hcount with
      | [a, b, c, d], _ => exact ⟨a, b, c, d, rfl⟩
    rw [or_iff_right fun h => h rfl]
    have haddress : [name, command, addressText, expectedText][2]?.bind tryParseStringToInt =
        tryParseStringToInt addressText := rfl
    rw [haddress]
    unfold debugPatchCode
    rw [if_neg (by simp), access_bind (i := 2) (by simp)]
    simp only [List.getElem_cons_succ, List.getElem_cons_zero]
    cases tryParseStringToInt addressText with
    | none => exact iff_of_true (Option.some_ne_none _) (Or.inl rfl)
    | some address =>
      simp only
      rw [access_bind (i := 3) (by simp), or_iff_right (Option.some_ne_none _)]
      simp only [List.getElem_cons_succ, List.getElem_cons_zero]
      unfold patchCodeExpected
      by_cases hskip : expectedText = wordBytes "-"
      · rw [if_pos hskip, pure_bind, access_bind_outside (by simp)]
        refine iff_of_false (fun h => h rfl) ?_
        rintro ⟨text, htext, hne, -⟩
        exact hne (Option.some.inj htext ▸ hskip)
      · rw [if_neg hskip]
        cases hexpected : parseStringToByteBuffer expectedText with
        | none =>
          exact iff_of_true (Option.some_ne_none _) ⟨expectedText, rfl, hskip, hexpected⟩
        | some expected =>
          simp only
          rw [pure_bind, access_bind_outside (by simp)]
          refine iff_of_false (fun h => h rfl) ?_
          rintro ⟨text, htext, -, hnone⟩
          obtain rfl := Option.some.inj htext
          rw [hexpected] at hnone
          cases hnone
  · exact iff_of_true (inBounds_debugPatchCode hcount).run_ne_none (Or.inl hcount)

/-! ### The other handlers -/

theorem inBounds_peekMultiItems (metaData : MetaData) (argv : List (List UInt8)) :
    InBounds (peekMultiItems metaData argv) fun _ => True := by
  unfold peekMultiItems
  refine inBounds_ite (fun _ => inBounds_pure trivial) fun hcount => ?_
  refine inBounds_ite (fun _ => inBounds_pure trivial) fun _ => ?_
  refine (inBounds_loop (I := fun i (items : List (UInt64 × UInt64)) => items.length = i)
    (fun i items hi hlength => ?_) 0 [] rfl).bind fun _ _ => inBounds_pure trivial
  refine (inBounds_access (by omega)).bind fun offset _ => ?_
  refine (inBounds_access (by omega)).bind fun size _ => ?_
  refine (inBounds_push _ (by omega)).bind fun items' hitems => inBounds_pure ?_
  show items'.length = i + 1
  rw [hitems, List.length_append, List.length_singleton, hlength]

theorem inBounds_touch (fingerDiameter : UInt32) (argv : List (List UInt8)) :
    InBounds (touch fingerDiameter argv) fun _ => True := by
  unfold touch
  refine inBounds_ite (fun _ => inBounds_pure trivial) fun hcount => ?_
  refine (inBounds_loop (I := fun i (read : Nat × List TouchState) =>
    read.1 = 2 * i ∧ read.2.length = i) (fun i read hi hread => ?_) 0 (0, []) ⟨rfl, rfl⟩).bind
    fun _ _ => inBounds_pure trivial
  obtain ⟨hj, hlength⟩ := hread
  refine (inBounds_access (by omega)).bind fun x _ => ?_
  refine (inBounds_access (by omega)).bind fun y _ => ?_
  refine (inBounds_push _ (by omega)).bind fun states hstates => inBounds_pure ⟨?_, ?_⟩
  · show read.1 + 2 = 2 * (i + 1)
    omega
  · show states.length = i + 1
    rw [hstates, List.length_append, List.length_singleton, hlength]

/-- The last argument read stays two arguments in front of the end for each state to go. -/
theorem keyModStates_ne_none (BIT : UInt8 → UInt64) (j left : Nat) (h : j + 2 * left < argv.length) :
    keyModStates BIT argv j left ≠ none := by
  induction left generalizing j with
  | zero =>
    rw [keyModStates]
    exact Option.some_ne_none _
  | succ left ih =>
    rw [keyModStates, List.getElem?_eq_getElem (show j + 1 < argv.length by omega)]
    simp only [Option.bind_eq_bind, Option.bind_some]
    split_ifs
    · obtain ⟨rest, hrest⟩ := Option.ne_none_iff_exists'.1 (ih (j + 1) (by omega))
      rw [hrest]
      exact Option.some_ne_none _
    · obtain ⟨rest, hrest⟩ := Option.ne_none_iff_exists'.1 (ih (j + 2) (by omega))
      rw [List.getElem?_eq_getElem (show j + 2 < argv.length by omega), Option.bind_some, hrest]
      exact Option.some_ne_none _

theorem keyMod_ne_none (BIT : UInt8 → UInt64) (argv : List (List UInt8)) :
    keyMod BIT argv ≠ none := by
  unfold keyMod
  split_ifs with hcount
  · exact Option.some_ne_none _
  · rw [not_or] at hcount
    rw [Ne, Option.map_eq_none_iff]
    exact keyModStates_ne_none BIT 0 _ (by omega)

/-! ### The groups -/

/-- The tokens up to the next separator are a group. -/
theorem starGroups_append (group after : List (List UInt8)) (hgroup : ∀ text ∈ group, text ≠ asterisk)
    (hafter : after = [] ∨ after.head? = some asterisk) (hsome : group ++ after ≠ []) :
    starGroups (group ++ after) = group :: starGroups (after.drop 1) := by
  induction group with
  | nil =>
    rcases hafter with rfl | hafter
    · exact absurd rfl hsome
    · obtain ⟨rest, rfl⟩ := List.head?_eq_some_iff.1 hafter
      rw [List.nil_append, starGroups, if_pos rfl]
      rfl
  | cons text group ih =>
    have htext := hgroup text List.mem_cons_self
    rw [List.cons_append, starGroups, if_neg htext]
    by_cases hrest : group ++ after = []
    · obtain ⟨rfl, rfl⟩ := List.append_eq_nil_iff.1 hrest
      rfl
    · rw [ih (fun t ht => hgroup t (List.mem_cons_of_mem _ ht)) hrest]

/-- Groups that the loop can take, behind `done` others. -/
def GroupsFit (done : Nat) (groups : List (List (List UInt8))) : Prop :=
  (∀ group ∈ groups, 2 ≤ group.length) ∧ done + groups.length ≤ 40

theorem exists_group (tokens : List (List UInt8)) :
    ∃ group after, tokens = group ++ after ∧ (∀ text ∈ group, text ≠ asterisk) ∧
      (after = [] ∨ after.head? = some asterisk) := by
  induction tokens with
  | nil => exact ⟨[], [], rfl, List.forall_mem_nil _, Or.inl rfl⟩
  | cons text tokens ih =>
    by_cases htext : text = asterisk
    · exact ⟨[], text :: tokens, rfl, List.forall_mem_nil _, Or.inr (congrArg some htext)⟩
    · obtain ⟨group, after, rfl, hgroup, hafter⟩ := ih
      exact ⟨text :: group, after, rfl, List.forall_mem_cons.2 ⟨htext, hgroup⟩, hafter⟩

theorem pointerPeekMultiItems_iff (target : Target) (lastIndex : Nat)
    (items : List (UInt64 × UInt64)) (hitems : items.length ≤ 40) :
    pointerPeekMultiItems target argv lastIndex items ≠ none ↔
      GroupsFit items.length (starGroups (argv.drop lastIndex)) := by
  induction hn : argv.length - lastIndex using Nat.strong_induction_on generalizing lastIndex items with
  | _ n ih =>
    rw [pointerPeekMultiItems]
    by_cases hlast : lastIndex < argv.length
    swap
    · rw [if_neg hlast, List.drop_eq_nil_of_le (not_lt.1 hlast)]
      exact iff_of_true (Option.some_ne_none _) ⟨List.forall_mem_nil _, hitems⟩
    -- the group in front of the next separator, and what is left from there on
    obtain ⟨group, after, hsplit, hgroup, hafter⟩ := exists_group (argv.drop lastIndex)
    have hargv : argv = argv.take lastIndex ++ group ++ after := by
      rw [List.append_assoc, ← hsplit, List.take_append_drop]
    have hbefore : (argv.take lastIndex).length = lastIndex := by
      rw [List.length_take]
      omega
    have hnext : nextStar argv lastIndex = lastIndex + group.length := by
      have h := nextStar_eq (argv.take lastIndex) group after hgroup hafter
      rwa [← hargv, hbefore] at h
    have hlength : argv.length = lastIndex + group.length + after.length := by
      have h := congrArg List.length hargv
      rwa [List.length_append, List.length_append, hbefore] at h
    have hgroups : starGroups (argv.drop lastIndex) = group :: starGroups (after.drop 1) := by
      rw [hsplit]
      refine starGroups_append group after hgroup hafter ?_
      rw [← hsplit]
      exact List.ne_nil_of_length_pos (by rw [List.length_drop]; omega)
    have hrest : argv.drop (nextStar argv lastIndex + 1) = after.drop 1 := by
      have hdrop : (argv.take lastIndex ++ group ++ after).drop (lastIndex + group.length) =
          after := List.drop_left' (by rw [List.length_append, hbefore])
      rw [← hargv] at hdrop
      rw [hnext, ← List.drop_drop, hdrop]
    rw [if_pos hlast, hgroups]
    simp only
    by_cases hshort : group.length < 2
    · rw [if_pos (by omega)]
      refine iff_of_false (fun h => h rfl) fun h => ?_
      have := h.1 group List.mem_cons_self
      omega
    have hjumps : readArguments argv (lastIndex + 1) (nextStar argv lastIndex - lastIndex - 2) = _ :=
      readArguments_of_le (by omega)
    rw [if_neg (by omega), List.getElem?_eq_getElem (show nextStar argv lastIndex - 1 < _ by omega),
      List.getElem?_eq_getElem hlast, hjumps]
    simp only [Option.bind_eq_bind, Option.bind_some]
    by_cases hfull : 40 ≤ items.length
    · rw [if_pos hfull]
      refine iff_of_false (fun h => h rfl) fun h => ?_
      have := h.2
      rw [List.length_cons] at this
      omega
    rw [if_neg hfull, ih _ (by omega) _ _ (by simp; omega) rfl, hrest]
    unfold GroupsFit
    rw [List.length_append, List.length_singleton, List.forall_mem_cons, List.length_cons,
      and_iff_right (not_lt.1 hshort), Nat.add_assoc, Nat.add_comm 1]

theorem pointerPeekMulti_iff (target : Target) (argv : List (List UInt8)) :
    pointerPeekMulti target argv ≠ none ↔
      argv.length < 4 ∨ GroupsFit 0 (starGroups (argv.drop 1)) := by
  unfold pointerPeekMulti
  split_ifs with hcount
  · exact iff_of_true (Option.some_ne_none _) (Or.inl hcount)
  · rw [or_iff_right hcount, Ne, Option.map_eq_none_iff]
    exact pointerPeekMultiItems_iff target 1 [] (Nat.zero_le _)

end Bounds

/-- Which command lines keep their handlers inside: there is a patch behind the expected bytes, or
    `debug patch-code` refuses what is in front of it, and the groups of `pointerPeekMulti` have a
    size and a final jump each and are not more than 40. -/
def KeptInside (argv : List (List UInt8)) : Prop :=
  (selected argv = some .patchCode → PatchCodeComplete argv) ∧
    (selected argv = some .pointerPeekMulti →
      argv.length < 4 ∨ GroupsFit 0 (starGroups (argv.drop 1)))

theorem stays_inside_iff (env : Surroundings) (line : List UInt8) :
    StaysInside env line ↔ KeptInside (parseArgs line) := by
  have hrun (argv : List (List UInt8)) (handler : Handler) :
      handler.run env argv ≠ none ↔ (handler = .patchCode → PatchCodeComplete argv) ∧
        (handler = .pointerPeekMulti → argv.length < 4 ∨ GroupsFit 0 (starGroups (argv.drop 1))) := by
    cases handler with
    | patchCode =>
      rw [Handler.run, Ne, Option.map_eq_none_iff]
      simpa using debugPatchCode_iff argv
    | trace => simpa [Handler.run] using (inBounds_debugTrace env.services argv).run_ne_none
    | multitrace =>
      simpa [Handler.run] using (inBounds_debugMultiTrace env.badInput env.services argv).run_ne_none
    | pointerPeekMulti =>
      rw [Handler.run, Ne, Option.map_eq_none_iff]
      simpa using pointerPeekMulti_iff env.target argv
    | peekMulti => simpa [Handler.run] using (inBounds_peekMultiItems env.metaData argv).run_ne_none
    | keyMod => simpa [Handler.run] using keyMod_ne_none env.BIT argv
    | touch => simpa [Handler.run] using (inBounds_touch env.fingerDiameter argv).run_ne_none
  unfold StaysInside KeptInside
  simp only [hrun]
  constructor
  · intro h
    exact ⟨fun hselected => (h _ hselected).1 rfl, fun hselected => (h _ hselected).2 rfl⟩
  · rintro ⟨hpatch, hgroups⟩ handler hselected
    exact ⟨fun heq => hpatch (heq ▸ hselected), fun heq => hgroups (heq ▸ hselected)⟩

/-- No application runs. -/
def idleSurroundings : Surroundings where
  badInput := 0
  services := { applicationProcessId := .error 0, resolveMainBase := fun _ => .error 0 }
  target := { malloc := fun _ => true, mainBase := none, read := fun _ _ => none }
  metaData := { main_nso_base := 0, heap_base := 0 }
  fingerDiameter := 50
  BIT := fun n => 1 <<< n.toUInt64

/-- `debug patch-code 0 -` reads `argv[4]` of four arguments. -/
theorem patch_code_reads_outside :
    ¬ StaysInside idleSurroundings (wordBytes "debug patch-code 0 -") := by
  rw [stays_inside_iff]
  intro h
  have hcomplete := h.1 (by decide)
  revert hcomplete
  unfold PatchCodeComplete
  have hargv : parseArgs (wordBytes "debug patch-code 0 -") =
    [wordBytes "debug", wordBytes "patch-code", [0x30], wordBytes "-"] := by decide
  have haddress : tryParseStringToInt [0x30] = some 0 := by decide
  rw [hargv]
  rintro (hlength | hnone | ⟨text, htext, hskip, -⟩)
  · exact hlength rfl
  · cases haddress.symm.trans hnone
  · exact hskip (Option.some.inj htext).symm

end SysAgent
