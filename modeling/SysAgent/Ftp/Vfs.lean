import Mathlib
import SysAgent.Lib.SlotTable

set_option autoImplicit false

/-! # The FTP file adapter (`ftp_vfs_sd.c`)

The native file system is a parameter: `NativeFs σ` has one function for every native call, and
every call may answer any result. `VfsWorld` is what the adapter works on: the native file system,
the session handles (a family over the handle's address, `κ`), the side table `g_vfsState` and the
fields of the manager's status that transfers change. -/

namespace SysAgent

open SlotTable

abbrev NativePath := List UInt8

/-- The service object behind an `FsFile`. -/
abbrev FsFile := Nat

def FS_MAX_PATH : Nat := 0x301
def FTP_NATIVE_WRITE_CHUNK : Int := 0x100000
def FTP_PLAIN_FILE_MAX : Int := 0xFFFFFFFF
def FTP_VFS_STATE_SLOTS : Nat := 8
/-- `.bigfiletmp` -/
def FTP_CONCATENATION_TEMP_SUFFIX : NativePath :=
  [0x2E, 0x62, 0x69, 0x67, 0x66, 0x69, 0x6C, 0x65, 0x74, 0x6D, 0x70]

def FsOpenMode_Read : UInt32 := 1
def FsOpenMode_Write : UInt32 := 2

def R_FAILED (result : UInt32) : Bool := result != 0

/-- A signed 64-bit value. -/
def s64 (x : Int) : Int := x.bmod (2 ^ 64)

/-- The conversion `(int)size`. -/
def intOfSize (size : Nat) : Int := (size : Int).bmod (2 ^ 32)

inductive Errno
  | none
  | ENOENT
  | EEXIST
  | EBUSY
  | ENOSPC
  | ENAMETOOLONG
  | EIO
  | EACCES
  | EXDEV
  | EFBIG
  | EOVERFLOW
  | ENOTSUP
  deriving DecidableEq

structure NativeFs (σ : Type) where
  createFile : NativePath → σ → UInt32 × σ
  deleteFile : NativePath → σ → UInt32 × σ
  renameFile : NativePath → NativePath → σ → UInt32 × σ
  createDirectory : NativePath → σ → UInt32 × σ
  deleteDirectory : NativePath → σ → UInt32 × σ
  setConcatenationFileAttribute : NativePath → σ → UInt32 × σ
  /-- Open a directory, read all its entries and close it; nothing of it is used. -/
  walkDirectory : NativePath → σ → σ
  openFile : NativePath → UInt32 → σ → UInt32 × FsFile × σ
  closeFile : FsFile → σ → σ
  getSize : FsFile → σ → UInt32 × Int × σ
  setSize : FsFile → Int → σ → UInt32 × σ
  flush : FsFile → σ → UInt32 × σ
  read : FsFile → Int → Nat → σ → UInt32 × List UInt8 × σ
  write : FsFile → Int → List UInt8 → σ → UInt32 × σ

structure FtpVfsFile where
  file : FsFile
  offset : Int
  allocatedSize : Int
  isOpen : Bool
  writable : Bool

/-- `memset(file, 0, sizeof(*file))` -/
def FtpVfsFile.zero : FtpVfsFile :=
  { file := 0, offset := 0, allocatedSize := 0, isOpen := false, writable := false }

/-- An entry of `g_vfsState` apart from its key. -/
structure FtpVfsTarget where
  path : NativePath
  concatenation : Bool
  truncatedOpen : Bool

abbrev FtpVfsState (κ : Type) := Slot κ FtpVfsTarget

inductive FtpVfsOpenMode
  | read
  | write
  | append
  deriving DecidableEq

/-- The fields of `manager.status` the adapter changes. -/
structure TransferStatus where
  activeTransfers : UInt32
  bytesSent : UInt64
  bytesReceived : UInt64
  lastFsResult : UInt32

structure VfsWorld (σ κ : Type) where
  fs : σ
  file : κ → FtpVfsFile
  g_vfsState : List (FtpVfsState κ)
  status : TransferStatus
  errno : Errno

variable {σ κ : Type} [DecidableEq κ]

namespace VfsWorld

def setErrno (errno : Errno) (w : VfsWorld σ κ) : VfsWorld σ κ := { w with errno := errno }

def setFs (fs : σ) (w : VfsWorld σ κ) : VfsWorld σ κ := { w with fs := fs }

def setFile (file : κ) (value : FtpVfsFile) (w : VfsWorld σ κ) : VfsWorld σ κ :=
  { w with file := Function.update w.file file value }

/-- `state->concatenation = value` for the entry of `file`. -/
def setConcatenation (file : κ) (value : Bool) (w : VfsWorld σ κ) : VfsWorld σ κ :=
  { w with
    g_vfsState := modify file
      (fun slot => { slot with value := { slot.value with concatenation := value } })
      w.g_vfsState }

end VfsWorld

/-! ## Bookkeeping of the server manager -/

def ftpServerTransferOpened (w : VfsWorld σ κ) : VfsWorld σ κ :=
  { w with status := { w.status with activeTransfers := w.status.activeTransfers + 1 } }

def ftpServerTransferClosed (w : VfsWorld σ κ) : VfsWorld σ κ :=
  if w.status.activeTransfers ≠ 0 then
    { w with status := { w.status with activeTransfers := w.status.activeTransfers - 1 } }
  else w

def ftpServerBytesSent (count : Nat) (w : VfsWorld σ κ) : VfsWorld σ κ :=
  { w with status := { w.status with
      bytesSent := w.status.bytesSent + UInt64.ofNat count } }

def ftpServerBytesReceived (count : Nat) (w : VfsWorld σ κ) : VfsWorld σ κ :=
  { w with status := { w.status with
      bytesReceived := w.status.bytesReceived + UInt64.ofNat count } }

def ftpServerRecordFsResult (result : UInt32) (w : VfsWorld σ κ) : VfsWorld σ κ :=
  { w with status := { w.status with lastFsResult := result } }

def errnoOfResult (result : UInt32) : Errno :=
  if result = 0x202 then .ENOENT
  else if result = 0x402 then .EEXIST
  else if result = 0xE02 then .EBUSY
  else if result = 0x4E02 then .ENOSPC
  else if result = 0x2EE602 then .ENAMETOOLONG
  else Errno.EIO

def setFsError (result : UInt32) (w : VfsWorld σ κ) : VfsWorld σ κ × Int :=
  ((ftpServerRecordFsResult result w).setErrno (errnoOfResult result), -1)

/-! ## The side table -/

def ftpVfsStateFind (table : List (FtpVfsState κ)) (file : κ) : Option (FtpVfsState κ) :=
  find table file

/-- The slot `ftpVfsStateStore` writes: it is given back at once when the path does not fit. -/
def ftpVfsStateEntry (file : κ) (nativePath : NativePath) (truncatedOpen : Bool) :
    FtpVfsState κ :=
  { key := if nativePath = [] ∨ FS_MAX_PATH ≤ nativePath.length then none else some file
    value := {
      path := nativePath.take (FS_MAX_PATH - 1)
      concatenation := false
      truncatedOpen := truncatedOpen } }

/-- `ftpVfsStateStore` and the assignment of `truncatedOpen` to the state it answers. -/
def ftpVfsStateStore (file : κ) (nativePath : NativePath) (truncatedOpen : Bool)
    (w : VfsWorld σ κ) : VfsWorld σ κ :=
  { w with
    g_vfsState := (store file (ftpVfsStateEntry file nativePath truncatedOpen) w.g_vfsState).1 }

def ftpVfsStateRelease (file : κ) (w : VfsWorld σ κ) : VfsWorld σ κ :=
  { w with g_vfsState := release file w.g_vfsState }

/-! ## Native calls -/

section Native

variable (native : NativeFs σ)

/-- A native call that answers a result only. -/
def nativeCall (call : σ → UInt32 × σ) (w : VfsWorld σ κ) : VfsWorld σ κ × UInt32 :=
  (w.setFs (call w.fs).2, (call w.fs).1)

/-- `fsFsOpenFile` into `file->file`. -/
def fsFsOpenFile (file : κ) (path : NativePath) (mode : UInt32) (w : VfsWorld σ κ) :
    VfsWorld σ κ × UInt32 :=
  let opened := native.openFile path mode w.fs
  ((w.setFs opened.2.2).setFile file { w.file file with file := opened.2.1 }, opened.1)

/-- `fsFileClose(&file->file); file->open = false;` -/
def fsFileClose (file : κ) (w : VfsWorld σ κ) : VfsWorld σ κ :=
  (w.setFs (native.closeFile (w.file file).file w.fs)).setFile file
    { w.file file with isOpen := false }

def markOpen (file : κ) (w : VfsWorld σ κ) : VfsWorld σ κ :=
  w.setFile file { w.file file with isOpen := true }

def fsFileSetSize (file : κ) (size : Int) (w : VfsWorld σ κ) : VfsWorld σ κ × UInt32 :=
  nativeCall (native.setSize (w.file file).file size) w

/-- A part of a concatenation file is opened for reading as a probe and closed again. -/
def ftpVfsIsConcatenationFile (nativePath : NativePath) (w : VfsWorld σ κ) :
    VfsWorld σ κ × Bool :=
  let partPath := nativePath ++ [0x2F, 0x30, 0x30]
  if FS_MAX_PATH + 4 ≤ partPath.length then (w, false)
  else
    let opened := native.openFile partPath FsOpenMode_Read w.fs
    if R_FAILED opened.1 then (w.setFs opened.2.2, false)
    else (w.setFs (native.closeFile opened.2.1 opened.2.2), true)

/-- The bytes before the last `/`, `none` when there is none. -/
def beforeLastSlash (nativePath : NativePath) : Option NativePath :=
  if 0x2F ∈ nativePath then
    some ((nativePath.reverse.dropWhile (· ≠ 0x2F)).drop 1).reverse
  else none

def ftpVfsRefreshParentDirectory (nativePath : NativePath) (w : VfsWorld σ κ) : VfsWorld σ κ :=
  match beforeLastSlash nativePath with
  | none => w
  | some parent =>
    if parent = [] ∨ FS_MAX_PATH ≤ parent.length then w
    else w.setFs (native.walkDirectory parent w.fs)

/-- A native call whose result is recorded. -/
def recordedCall (call : σ → UInt32 × σ) (w : VfsWorld σ κ) : VfsWorld σ κ × UInt32 :=
  let called := nativeCall call w
  (ftpServerRecordFsResult called.2 called.1, called.2)

def ftpVfsUndoConversion (path temp : NativePath) (partMoved directoryCreated : Bool)
    (w : VfsWorld σ κ) : VfsWorld σ κ :=
  let w := if partMoved then
      (recordedCall (native.renameFile (path ++ [0x2F, 0x30, 0x30]) temp) w).1
    else w
  let w := if directoryCreated then (recordedCall (native.deleteDirectory path) w).1 else w
  (recordedCall (native.renameFile temp path) w).1

/-- The offset is left alone; the allocated size is read back. -/
def ftpVfsReopenForWrite (file : κ) (path : NativePath) (w : VfsWorld σ κ) :
    VfsWorld σ κ × Int :=
  let opened := fsFsOpenFile native file path FsOpenMode_Write w
  if R_FAILED opened.2 then setFsError opened.2 opened.1
  else
    let w := markOpen file opened.1
    let sized := native.getSize (w.file file).file w.fs
    let w := w.setFs sized.2.2
    if R_FAILED sized.1 then (w, 0)
    else (w.setFile file { w.file file with allocatedSize := sized.2.1 }, 0)

/-- The label `reopen`: the conversion has failed with EFBIG. -/
def conversionFailed (file : κ) (path : NativePath) (w : VfsWorld σ κ) : VfsWorld σ κ × Int :=
  ((ftpVfsReopenForWrite native file path (w.setErrno .EFBIG)).1, -1)

/-- The rename aside, with one more try after the temporary name is cleared. -/
def renameAside (path temp : NativePath) (w : VfsWorld σ κ) : VfsWorld σ κ × UInt32 :=
  let renamed := nativeCall (native.renameFile path temp) w
  if R_FAILED renamed.2 then
    let removed := recordedCall (native.deleteFile temp) renamed.1
    if R_FAILED removed.2 then (removed.1, renamed.2)
    else nativeCall (native.renameFile path temp) removed.1
  else renamed

def ftpVfsConvertToConcatenationFile (file : κ) (path : NativePath) (w : VfsWorld σ κ) :
    VfsWorld σ κ × Int :=
  let temp := path ++ FTP_CONCATENATION_TEMP_SUFFIX
  let partPath := path ++ [0x2F, 0x30, 0x30]
  if FS_MAX_PATH + 32 ≤ temp.length ∨ FS_MAX_PATH + 8 ≤ partPath.length then
    (w.setErrno .ENAMETOOLONG, -1)
  else
    let w := fsFileClose native file w
    let renamed := renameAside native path temp w
    let w := ftpServerRecordFsResult renamed.2 renamed.1
    if R_FAILED renamed.2 then conversionFailed native file path w
    else
      let created := recordedCall (native.createDirectory path) w
      if R_FAILED created.2 then
        conversionFailed native file path (nativeCall (native.renameFile temp path) created.1).1
      else
        let moved := recordedCall (native.renameFile temp partPath) created.1
        if R_FAILED moved.2 then
          conversionFailed native file path
            (ftpVfsUndoConversion native path temp false true moved.1)
        else
          let marked := recordedCall (native.setConcatenationFileAttribute path) moved.1
          if R_FAILED marked.2 then
            conversionFailed native file path
              (ftpVfsUndoConversion native path temp true true marked.1)
          else
            let w := (ftpVfsRefreshParentDirectory native path marked.1).setConcatenation file true
            let reopened := ftpVfsReopenForWrite native file path w
            if reopened.2 ≠ 0 then (reopened.1.setErrno .EFBIG, -1) else (reopened.1, 0)

/-! ## Writing -/

/-- Rounded up to the write chunk. -/
def allocationFor (required : Int) : Int :=
  s64 (required + FTP_NATIVE_WRITE_CHUNK - 1) / FTP_NATIVE_WRITE_CHUNK * FTP_NATIVE_WRITE_CHUNK

def ftpVfsAtPlainLimit (position : Int) : Bool :=
  if position < 0 then true else FTP_PLAIN_FILE_MAX < allocationFor position

def ftpVfsWriteChunk (file : κ) (buffer : List UInt8) (w : VfsWorld σ κ) : VfsWorld σ κ × Int :=
  let offset := (w.file file).offset
  let required := s64 (offset + s64 buffer.length)
  if required < offset then (w.setErrno .EOVERFLOW, -1)
  else
    let grown := if (w.file file).allocatedSize < required then
        let sized := fsFileSetSize native file (allocationFor required) w
        if R_FAILED sized.2 then sized
        else (sized.1.setFile file
          { sized.1.file file with allocatedSize := allocationFor required }, 0)
      else (w, 0)
    if R_FAILED grown.2 then setFsError grown.2 grown.1
    else
      let written := nativeCall (native.write (w.file file).file offset buffer) grown.1
      if R_FAILED written.2 then setFsError written.2 written.1
      else
        (ftpServerBytesReceived buffer.length
          (written.1.setFile file { written.1.file file with offset := required }),
          intOfSize buffer.length)

/-- The loop of `ftp_vfs_write` over the bytes still to write, for at most `rounds` rounds; `none`
    while it has not returned. `state` is the entry found before the loop: its path does not
    change, its flag is read through the table. -/
def ftpVfsWriteLoop (file : κ) (path : NativePath) (size : Nat) :
    Nat → List UInt8 → VfsWorld σ κ → VfsWorld σ κ × Option Int
  | 0, _, w => (w, none)
  | rounds + 1, bytes, w =>
    if bytes.length = 0 then (w, some (intOfSize size))
    else
      let want := s64 ((w.file file).offset + s64 bytes.length)
      let concatenation :=
        (ftpVfsStateFind w.g_vfsState file).any fun slot => slot.value.concatenation
      if !concatenation && ftpVfsAtPlainLimit want then
        let probed := ftpVfsIsConcatenationFile native path w
        let w := probed.1.setConcatenation file probed.2
        if probed.2 then ftpVfsWriteLoop file path size rounds bytes w
        else
          let converted := ftpVfsConvertToConcatenationFile native file path w
          if converted.2 ≠ 0 then (converted.1, some (-1))
          else ftpVfsWriteLoop file path size rounds bytes converted.1
      else
        let written := ftpVfsWriteChunk native file bytes w
        if written.2 < 0 then
          if concatenation || !ftpVfsAtPlainLimit want then (written.1, some (-1))
          else
            let converted := ftpVfsConvertToConcatenationFile native file path written.1
            if converted.2 ≠ 0 then (converted.1, some (-1))
            else ftpVfsWriteLoop file path size rounds bytes converted.1
        else ftpVfsWriteLoop file path size rounds (bytes.drop written.2.toNat) written.1

/-- `rounds` bounds the loop near the limit. -/
def ftp_vfs_write (rounds : Nat) (file : κ) (buffer : List UInt8) (w : VfsWorld σ κ) :
    VfsWorld σ κ × Option Int :=
  let required := s64 ((w.file file).offset + s64 buffer.length)
  match ftpVfsStateFind w.g_vfsState file with
  | none =>
    let written := ftpVfsWriteChunk native file buffer w
    (written.1, some written.2)
  | some state =>
    if !state.value.concatenation && !ftpVfsAtPlainLimit required then
      let written := ftpVfsWriteChunk native file buffer w
      (written.1, some written.2)
    else ftpVfsWriteLoop native file state.value.path buffer.length rounds buffer w

/-! ## Opening, reading, seeking and closing -/

/-- What `fsdevTranslatePath` writes: a string that is not empty and fits its buffer. -/
structure TranslatedPath where
  bytes : NativePath
  nonempty : bytes ≠ []
  fits : bytes.length < FS_MAX_PATH

/-- What `translate` answers: the path leaves the card, it has no native form, or its form. -/
inductive Translation
  | refused
  | unmapped
  | path (nativePath : TranslatedPath)

/-- The target of a mode that writes: an old concatenation file goes, a plain file is there. -/
def createForWriting (file : κ) (nativePath : NativePath) (w : VfsWorld σ κ) :
    VfsWorld σ κ × UInt32 :=
  let probed := ftpVfsIsConcatenationFile native nativePath w
  let w := if probed.2 then (nativeCall (native.deleteFile nativePath) probed.1).1 else probed.1
  let created := nativeCall (native.createFile nativePath) w
  if R_FAILED created.2 && created.2 != 0x402 then created
  else (created.1.setFile file { created.1.file file with writable := true }, 0)

/-- The size operation of each mode on the file just opened. -/
def sizeForMode (file : κ) (mode : FtpVfsOpenMode) (w : VfsWorld σ κ) : VfsWorld σ κ × UInt32 :=
  match mode with
  | .read => (w, 0)
  | .write => fsFileSetSize native file 0 w
  | .append =>
    let sized := native.getSize (w.file file).file w.fs
    ((w.setFs sized.2.2).setFile file
      { w.file file with offset := sized.2.1, allocatedSize := sized.2.1 }, sized.1)

/-- The native calls of `ftp_vfs_open`, with the result of the one that failed. -/
def openTarget (file : κ) (nativePath : NativePath) (mode : FtpVfsOpenMode) (w : VfsWorld σ κ) :
    VfsWorld σ κ × UInt32 :=
  let w := w.setFile file .zero
  let created := if mode = .read then (w, 0) else createForWriting native file nativePath w
  if R_FAILED created.2 then created
  else
    let openMode := if mode = .read then FsOpenMode_Read else FsOpenMode_Write
    let opened := fsFsOpenFile native file nativePath openMode created.1
    if R_FAILED opened.2 then opened
    else
      let sized := sizeForMode native file mode (markOpen file opened.1)
      if R_FAILED sized.2 then (fsFileClose native file sized.1, sized.2) else sized

def ftp_vfs_open (file : κ) (path : Translation) (canMutate : Bool) (mode : FtpVfsOpenMode)
    (w : VfsWorld σ κ) : VfsWorld σ κ × Int :=
  match path with
  | .refused => (w.setErrno .EACCES, -1)
  | .unmapped => (w, -1)
  | .path nativePath =>
    if mode ≠ .read ∧ canMutate = false then (w.setErrno .EBUSY, -1)
    else
      let target := openTarget native file nativePath.bytes mode w
      if R_FAILED target.2 then setFsError target.2 target.1
      else
        let w := ftpVfsStateStore file nativePath.bytes (decide (mode = .write)) target.1
        (ftpServerRecordFsResult 0 (ftpServerTransferOpened w), 0)

/-- The answer is the number of bytes read, or -1, with the bytes. -/
def ftp_vfs_read (file : κ) (size : Nat) (w : VfsWorld σ κ) :
    VfsWorld σ κ × Int × List UInt8 :=
  let answer := native.read (w.file file).file (w.file file).offset size w.fs
  let w := w.setFs answer.2.2
  if R_FAILED answer.1 then ((setFsError answer.1 w).1, -1, [])
  else
    let bytes := answer.2.1
    let w := w.setFile file
      { w.file file with offset := s64 ((w.file file).offset + s64 bytes.length) }
    (ftpServerBytesSent bytes.length w, intOfSize bytes.length, bytes)

def ftp_vfs_seek (file : κ) (offset : Nat) (w : VfsWorld σ κ) : VfsWorld σ κ × Int :=
  if 2 ^ 63 - 1 < offset then (w.setErrno .EOVERFLOW, -1)
  else if (ftpVfsStateFind w.g_vfsState file).any (fun slot => slot.value.truncatedOpen)
      && offset != 0 then
    (w.setErrno .ENOTSUP, -1)
  else (w.setFile file { w.file file with offset := offset }, 0)

def ftp_vfs_close (file : κ) (w : VfsWorld σ κ) : VfsWorld σ κ × Int :=
  if (w.file file).isOpen = false then (w, -1)
  else
    let w := if (w.file file).writable then
        let sized := (fsFileSetSize native file (w.file file).offset w).1
        (nativeCall (native.flush (sized.file file).file) sized).1
      else w
    let w := fsFileClose native file w
    (ftpServerTransferClosed (ftpVfsStateRelease file w), 0)

end Native

end SysAgent
