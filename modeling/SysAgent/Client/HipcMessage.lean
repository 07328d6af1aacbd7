import SysAgent.Client.TraceIpc
import SysAgent.Console.StatusLines
import SysAgent.Lib.BitFields
import SysAgent.Lib.HexText
import SysAgent.Lib.Layout

set_option autoImplicit false

/-! # Reading an IPC message (`decode_hipc_cmif` in `sysagent.py`)

A message is an HIPC header of two words, an optional special header with a process id, handles,
descriptors of buffers, and an area of data words. The area holds, from the next multiple of 16 on,
the CMIF header of a request or a response, in a domain after a domain header. -/

namespace SysAgent

open BitFields (extract)

/-! ## Words -/

/-- `SysAgentProtocolError` with its text -/
abbrev ProtocolResult := Except String

def hexNumber (n : Nat) : String := String.ofList (formatBase 16 n)

/-- `08X` -/
def hexWord (n : Nat) : String :=
  String.ofList (List.replicate (8 - (formatBase 16 n).length) '0' ++ formatBase 16 n)

/-- `_read_u32` and `_read_u64`, by the size of the word. -/
def readWord (size : Nat) (data : List UInt8) (offset : Nat) (label : String) :
    ProtocolResult Nat :=
  if data.length < offset + size then
    .error (label ++ " is truncated at offset 0x" ++ hexNumber offset)
  else .ok (Codec.leNat size (data.drop offset))

def readU32 (data : List UInt8) (offset : Nat) (label : String) : ProtocolResult Nat :=
  readWord 4 data offset label

def readU64 (data : List UInt8) (offset : Nat) (label : String) : ProtocolResult Nat :=
  readWord 8 data offset label

/-! ## The HIPC part -/

structure HipcMetadata where
  type : Nat
  sendStatics : Nat
  sendBuffers : Nat
  receiveBuffers : Nat
  exchangeBuffers : Nat
  dataWords : Nat
  receiveStaticMode : Nat
  specialHeader : Nat
  copyHandles : Nat
  moveHandles : Nat
  pid : Option Nat
  deriving DecidableEq

inductive HandleKind
  | copy
  | move
  deriving DecidableEq

structure HipcHandle where
  kind : HandleKind
  index : Nat
  value : Nat
  valueHex : String
  deriving DecidableEq

structure StaticDescriptor where
  index : Nat
  address : Nat
  size : Nat
  deriving DecidableEq

structure BufferDescriptor where
  mode : Nat
  address : Nat
  size : Nat
  deriving DecidableEq

/-- A descriptor with its `kind`. -/
inductive HipcDescriptor
  | sendStatic (descriptor : StaticDescriptor)
  | sendBuffer (descriptor : BufferDescriptor)
  | receiveBuffer (descriptor : BufferDescriptor)
  | exchangeBuffer (descriptor : BufferDescriptor)
  deriving DecidableEq

/-- The two header words, and the special header with the process id; with the offset after them. -/
def hipcMetadata (data : List UInt8) : ProtocolResult (HipcMetadata × Nat) := do
  let header0 ← readU32 data 0 "HIPC header"
  let header1 ← readU32 data 4 "HIPC header"
  let metadata : HipcMetadata :=
    { type := extract header0 0 0xFFFF
      sendStatics := extract header0 16 0xF
      sendBuffers := extract header0 20 0xF
      receiveBuffers := extract header0 24 0xF
      exchangeBuffers := extract header0 28 0xF
      dataWords := extract header1 0 0x3FF
      receiveStaticMode := extract header1 10 0xF
      specialHeader := extract header1 31 1
      copyHandles := 0
      moveHandles := 0
      pid := none }
  if metadata.specialHeader = 0 then
    return (metadata, 8)
  let special ← readU32 data 8 "HIPC special header"
  let metadata :=
    { metadata with
      copyHandles := extract special 1 0xF
      moveHandles := extract special 5 0xF }
  if extract special 0 1 = 0 then
    return (metadata, 12)
  let pid ← readU64 data 12 "HIPC PID"
  return ({ metadata with pid := some pid }, 20)

/-- A loop that reads `count` records of `size` bytes, and the offset after them. -/
def readEach {α : Type} (read : Nat → ProtocolResult α) (size : Nat) :
    Nat → Nat → ProtocolResult (List α × Nat)
  | 0, offset => return ([], offset)
  | count + 1, offset => do
    let record ← read offset
    let (records, stop) ← readEach read size count (offset + size)
    return (record :: records, stop)

/-- The handles of one kind, numbered in their order. -/
def handlesOf (kind : HandleKind) (values : List Nat) : List HipcHandle :=
  values.zipIdx.map fun (value, index) => ⟨kind, index, value, "0x" ++ hexWord value⟩

def hipcHandles (data : List UInt8) (metadata : HipcMetadata) (offset : Nat) :
    ProtocolResult (List HipcHandle × Nat) :=
  if data.length < offset + 4 * (metadata.copyHandles + metadata.moveHandles) then
    .error "HIPC handle area is truncated"
  else do
    let read := fun position => readU32 data position "HIPC handle"
    let (copies, offset) ← readEach read 4 metadata.copyHandles offset
    let (moves, offset) ← readEach read 4 metadata.moveHandles offset
    return (handlesOf .copy copies ++ handlesOf .move moves, offset)

/-- `_hipc_static_descriptor` -/
def hipcStaticDescriptor (data : List UInt8) (offset : Nat) : ProtocolResult StaticDescriptor := do
  let first ← readU32 data offset "HIPC static descriptor"
  let second ← readU32 data (offset + 4) "HIPC static descriptor"
  return {
    index := extract first 0 0x3F
    address := second ||| (extract first 6 0x3F <<< 36) ||| (extract first 12 0xF <<< 32)
    size := extract first 16 0xFFFF }

/-- `_hipc_buffer_descriptor` -/
def hipcBufferDescriptor (data : List UInt8) (offset : Nat) : ProtocolResult BufferDescriptor := do
  let sizeLow ← readU32 data offset "HIPC buffer descriptor"
  let addressLow ← readU32 data (offset + 4) "HIPC buffer descriptor"
  let attributes ← readU32 data (offset + 8) "HIPC buffer descriptor"
  return {
    mode := extract attributes 0 0x3
    address := addressLow ||| (extract attributes 28 0xF <<< 32) |||
      (extract attributes 2 0x3FFFFF <<< 36)
    size := sizeLow ||| (extract attributes 24 0xF <<< 32) }

/-- A response has only the descriptors of its static buffers. -/
def hipcDescriptors (data : List UInt8) (metadata : HipcMetadata) (offset : Nat) :
    CmifMode → ProtocolResult (List HipcDescriptor × Nat)
  | .request => do
    let buffers := readEach (hipcBufferDescriptor data) 12
    let (statics, offset) ← readEach (hipcStaticDescriptor data) 8 metadata.sendStatics offset
    let (sends, offset) ← buffers metadata.sendBuffers offset
    let (receives, offset) ← buffers metadata.receiveBuffers offset
    let (exchanges, offset) ← buffers metadata.exchangeBuffers offset
    return (statics.map .sendStatic ++ sends.map .sendBuffer ++ receives.map .receiveBuffer ++
      exchanges.map .exchangeBuffer, offset)
  | .response => do
    let (statics, offset) ← readEach (hipcStaticDescriptor data) 8 metadata.sendStatics offset
    return (statics.map .sendStatic, offset)

/-! ## The CMIF part -/

/-- `CMIF_IN_HEADER_MAGIC` and `CMIF_OUT_HEADER_MAGIC` -/
def cmifMagic : CmifMode → Nat
  | .request => 0x49434653
  | .response => 0x4F434653

/-- `CMIF_CONTROL_OPERATIONS` -/
def cmifControlOperations : List (Nat × String) :=
  [(0, "convert-current-object-to-domain"),
   (1, "copy-from-current-domain"),
   (2, "clone-current-object"),
   (3, "query-pointer-buffer-size"),
   (4, "clone-current-object-ex")]

/-- The fields that a mode does not have are none. -/
structure CmifDomainHeader where
  type : Nat
  numInObjects : Option Nat
  dataSize : Option Nat
  objectId : Option Nat
  token : Option Nat
  numOutObjects : Option Nat
  deriving DecidableEq

inductive CmifHeader
  | request (magic : String) (version commandId token : Nat)
  | response (magic : String) (version : Nat) (result : String) (interfaceId : Nat)
  deriving DecidableEq

def CmifHeader.commandId : CmifHeader → Option Nat
  | .request _ _ commandId _ => some commandId
  | .response .. => none

structure Cmif where
  mode : CmifMode
  domain : Bool
  domainHeader : Option CmifDomainHeader
  header : Option CmifHeader
  payloadOffset : Nat
  payloadHex : List Char
  deriving DecidableEq

/-- `_cmif_operation`; the control commands are those of the types 3, 5 and 7. -/
def cmifOperation (commandType : Nat) (cmif : Cmif) : Option String :=
  if cmif.mode ≠ .request then none
  else match cmif.domain, cmif.domainHeader with
    | true, some domainHeader =>
      if domainHeader.type = 2 then some "close-domain-object"
      else if domainHeader.type = 1 then some "invoke-method"
      else some "unknown-domain-operation"
    | _, _ =>
      match cmif.header with
      | none => none
      | some header =>
        let control := if commandType = 3 ∨ commandType = 5 ∨ commandType = 7 then
          header.commandId.bind fun commandId => cmifControlOperations.lookup commandId else none
        some (control.getD "invoke-method")

def hexOfRange (data : List UInt8) (start stop : Nat) : List Char :=
  HexText.upper ((data.take stop).drop start)

def byteAt (data : List UInt8) (offset : Nat) : Nat := (data.getD offset 0).toNat

/-- The domain header of a request. -/
def requestDomainHeader (data : List UInt8) (offset : Nat) : ProtocolResult CmifDomainHeader := do
  let objectId ← readU32 data (offset + 4) "CMIF domain header"
  let token ← readU32 data (offset + 12) "CMIF domain header"
  return {
    type := byteAt data offset
    numInObjects := some (byteAt data (offset + 1))
    dataSize := some (Codec.leNat 2 (data.drop (offset + 2)))
    objectId := some objectId
    token := some token
    numOutObjects := none }

def domainHeader (data : List UInt8) (offset : Nat) : CmifMode → ProtocolResult CmifDomainHeader
  | .request => requestDomainHeader data offset
  | .response => do
    let numOutObjects ← readU32 data offset "CMIF domain header"
    return {
      type := byteAt data offset
      numInObjects := none
      dataSize := none
      objectId := none
      token := none
      numOutObjects := some numOutObjects }

/-- A request of type 4 that closes a domain object; it has no CMIF header. -/
def closeDomainObject (data : List UInt8) (type start stop : Nat) :
    CmifMode → ProtocolResult (Option Cmif)
  | .response => return none
  | .request =>
    if type = 4 ∧ start + 16 ≤ stop ∧ byteAt data start = 2 then do
      let domain ← requestDomainHeader data start
      if domain.numInObjects = some 0 ∧ domain.dataSize = some 0 ∧ domain.objectId ≠ some 0 then
        return some {
          mode := .request
          domain := true
          domainHeader := some domain
          header := none
          payloadOffset := start + 16
          payloadHex := hexOfRange data (start + 16) stop }
      else return none
    else return none

def cmifHeader (data : List UInt8) (offset magic : Nat) : CmifMode → ProtocolResult CmifHeader
  | .request => do
    let version ← readU32 data (offset + 4) "CMIF header"
    let commandId ← readU32 data (offset + 8) "CMIF header"
    let token ← readU32 data (offset + 12) "CMIF header"
    return .request (hexWord magic) version commandId token
  | .response => do
    let version ← readU32 data (offset + 4) "CMIF header"
    let result ← readU32 data (offset + 8) "CMIF header"
    let interfaceId ← readU32 data (offset + 12) "CMIF header"
    return .response (hexWord magic) version ("0x" ++ hexNumber result) interfaceId

/-- The domain header of a candidate in a domain. -/
def candidateDomain (data : List UInt8) (start : Nat) (mode : CmifMode) (isDomain : Bool) :
    ProtocolResult (Option CmifDomainHeader) :=
  if isDomain then do
    let domain ← domainHeader data start mode
    return some domain
  else return none

/-- One turn of the loop over `is_domain`; none is `continue`. -/
def cmifCandidate (data : List UInt8) (start stop : Nat) (mode : CmifMode) (isDomain : Bool) :
    ProtocolResult (Option Cmif) :=
  let candidate := start + if isDomain then 16 else 0
  if stop < candidate + 16 then return none
  else do
    let magic ← readU32 data candidate "CMIF header"
    if magic ≠ cmifMagic mode then return none
    else
      let domain ← candidateDomain data start mode isDomain
      let header ← cmifHeader data candidate magic mode
      return some {
        mode := mode
        domain := isDomain
        domainHeader := domain
        header := some header
        payloadOffset := candidate + 16
        payloadHex := hexOfRange data (candidate + 16) stop }

def orElseCmif (found : Option Cmif) (next : ProtocolResult (Option Cmif)) :
    ProtocolResult (Option Cmif) :=
  match found with
  | some cmif => return some cmif
  | none => next

/-- The CMIF part of the data words from `start` on. -/
def readCmif (data : List UInt8) (type start stop : Nat) (mode : CmifMode) :
    ProtocolResult (Option Cmif) := do
  let closed ← closeDomainObject data type start stop mode
  let plain ← orElseCmif closed (cmifCandidate data start stop mode false)
  orElseCmif plain (cmifCandidate data start stop mode true)

/-! ## The message -/

structure DecodedMessage where
  metadata : HipcMetadata
  dataWordsOffset : Nat
  dataWordsHex : List Char
  handles : List HipcHandle
  descriptors : List HipcDescriptor
  cmif : Cmif
  operation : Option String
  deriving DecidableEq

def CmifMode.name : CmifMode → String
  | .request => "request"
  | .response => "response"

/-- `decode_one` -/
def decodeOne (data : List UInt8) (mode : CmifMode) : ProtocolResult DecodedMessage := do
  let (metadata, offset) ← hipcMetadata data
  let (handles, offset) ← hipcHandles data metadata offset
  let (descriptors, dataWordsOffset) ← hipcDescriptors data metadata offset mode
  let dataWordsEnd := dataWordsOffset + metadata.dataWords * 4
  if data.length < dataWordsEnd then .error "HIPC data-word area is truncated"
  else
    let cmifOffset := (dataWordsOffset + 15) / 16 * 16
    match ← readCmif data metadata.type cmifOffset dataWordsEnd mode with
    | none => .error ("HIPC data does not contain a CMIF " ++ mode.name ++ " header")
    | some cmif =>
      return {
        metadata := metadata
        dataWordsOffset := dataWordsOffset
        dataWordsHex := hexOfRange data dataWordsOffset dataWordsEnd
        handles := handles
        descriptors := descriptors
        cmif := cmif
        operation := cmifOperation metadata.type cmif }

/-- The modes that are tried one after the other, and their errors. -/
def decodeModes (data : List UInt8) : List CmifMode → List String → ProtocolResult DecodedMessage
  | [], errors => .error ("; ".intercalate errors)
  | mode :: modes, errors =>
    match decodeOne data mode with
    | .ok decoded => return decoded
    | .error error => decodeModes data modes (errors ++ [error])

/-- `decode_hipc_cmif`; no mode is `auto`. -/
def decodeHipcCmif (data : List UInt8) (mode : Option CmifMode) : ProtocolResult DecodedMessage :=
  if data.length < 8 then .error "HIPC data is shorter than its header"
  else
    match mode with
    | none => decodeModes data [.request, .response] []
    | some mode => decodeModes data [mode] []

end SysAgent
