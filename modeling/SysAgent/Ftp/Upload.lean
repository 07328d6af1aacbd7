import Mathlib
import SysAgent.Ftp.Vfs

set_option autoImplicit false

/-! # Uploads over a card

`SdCard` is a native file system whose calls behave as documented: a plain file cannot be larger
than `FTP_PLAIN_FILE_MAX`, a rename refuses an existing destination, a directory with a part `00`
becomes a concatenation file when its archive bit is set. Its log records what the conversion is
judged by. `Uploading` is what holds between the open and the close of an upload: the content on the
card starts with the bytes written so far and may be longer, since space is allocated ahead. -/

namespace SysAgent

open SlotTable

/-! ## The card -/

/-- A concatenation file reads and writes like a file; its parts are not entries of their own. -/
inductive SdEntry
  | directory
  | file (concatenation : Bool) (content : List UInt8)

inductive SdCall
  | setSize (path : NativePath) (concatenation : Bool) (size : Int)
  | rename (source destination : NativePath) (concatenation : Bool)
  | setConcatenationFileAttribute (path : NativePath)

structure SdCard where
  entries : NativePath → Option SdEntry
  handles : FsFile → Option NativePath
  next : FsFile
  log : List SdCall

/-- `/00` -/
def FIRST_PART : NativePath := [0x2F, 0x30, 0x30]

def sdNotFound : UInt32 := 0x202
def sdExists : UInt32 := 0x402
def sdOutOfRange : UInt32 := 0x307202

namespace SdCard

/-- What a handle stands for. -/
def opened (card : SdCard) (handle : FsFile) : Option (NativePath × Bool × List UInt8) :=
  (card.handles handle).bind fun path =>
    match card.entries path with
    | some (.file concatenation content) => some (path, concatenation, content)
    | _ => none

def setEntry (card : SdCard) (path : NativePath) (entry : Option SdEntry) : SdCard :=
  { card with entries := Function.update card.entries path entry }

def record (card : SdCard) (call : SdCall) : SdCard := { card with log := card.log ++ [call] }

def createFile (path : NativePath) (card : SdCard) : UInt32 × SdCard :=
  match card.entries path with
  | none => (0, card.setEntry path (some (.file false [])))
  | some _ => (sdExists, card)

def deleteFile (path : NativePath) (card : SdCard) : UInt32 × SdCard :=
  match card.entries path with
  | some (.file _ _) => (0, card.setEntry path none)
  | _ => (sdNotFound, card)

def renameFile (source destination : NativePath) (card : SdCard) : UInt32 × SdCard :=
  match card.entries source, card.entries destination with
  | some (.file concatenation content), none =>
    (0, ((card.setEntry source none).setEntry destination
      (some (.file concatenation content))).record (.rename source destination concatenation))
  | some (.file _ _), some _ => (sdExists, card)
  | _, _ => (sdNotFound, card)

def createDirectory (path : NativePath) (card : SdCard) : UInt32 × SdCard :=
  match card.entries path with
  | none => (0, card.setEntry path (some .directory))
  | some _ => (sdExists, card)

def deleteDirectory (path : NativePath) (card : SdCard) : UInt32 × SdCard :=
  match card.entries path, card.entries (path ++ FIRST_PART) with
  | some .directory, none => (0, card.setEntry path none)
  | _, _ => (sdNotFound, card)

def setConcatenationFileAttribute (path : NativePath) (card : SdCard) : UInt32 × SdCard :=
  match card.entries path, card.entries (path ++ FIRST_PART) with
  | some .directory, some (.file false content) =>
    (0, ((card.setEntry (path ++ FIRST_PART) none).setEntry path
      (some (.file true content))).record (.setConcatenationFileAttribute path))
  | _, _ => (sdNotFound, card)

/-- The path of which `path` names the first part. -/
def partOwner (path : NativePath) : Option NativePath :=
  if path.drop (path.length - 3) = FIRST_PART then some (path.take (path.length - 3)) else none

def isConcatenation (card : SdCard) (path : NativePath) : Bool :=
  match card.entries path with
  | some (.file concatenation _) => concatenation
  | _ => false

def isFile (card : SdCard) (path : NativePath) : Bool :=
  match card.entries path with
  | some (.file _ _) => true
  | _ => false

def openFile (path : NativePath) (_ : UInt32) (card : SdCard) : UInt32 × FsFile × SdCard :=
  if card.isFile path || (partOwner path).any card.isConcatenation then
    (0, card.next,
      { card with
        handles := Function.update card.handles card.next (some path)
        next := card.next + 1 })
  else (sdNotFound, 0, card)

def closeFile (handle : FsFile) (card : SdCard) : SdCard :=
  { card with handles := Function.update card.handles handle none }

def getSize (handle : FsFile) (card : SdCard) : UInt32 × Int × SdCard :=
  match card.opened handle with
  | some (_, _, content) => (0, content.length, card)
  | none => (sdNotFound, 0, card)

/-- Cut, or filled with zeros. -/
def resize (content : List UInt8) (size : Nat) : List UInt8 :=
  content.take size ++ List.replicate (size - content.length) 0

def setSize (handle : FsFile) (size : Int) (card : SdCard) : UInt32 × SdCard :=
  match card.opened handle with
  | some (path, concatenation, content) =>
    let card := card.record (.setSize path concatenation size)
    if size < 0 ∨ (concatenation = false ∧ FTP_PLAIN_FILE_MAX < size) then (sdOutOfRange, card)
    else (0, card.setEntry path (some (.file concatenation (resize content size.toNat))))
  | none => (sdNotFound, card)

def read (handle : FsFile) (offset : Int) (size : Nat) (card : SdCard) :
    UInt32 × List UInt8 × SdCard :=
  match card.opened handle with
  | some (_, _, content) => (0, (content.drop offset.toNat).take size, card)
  | none => (sdNotFound, [], card)

/-- A write does not grow the file. -/
def write (handle : FsFile) (offset : Int) (bytes : List UInt8) (card : SdCard) :
    UInt32 × SdCard :=
  match card.opened handle with
  | some (path, concatenation, content) =>
    if offset < 0 ∨ (content.length : Int) < offset + bytes.length then (sdOutOfRange, card)
    else
      (0, card.setEntry path (some (.file concatenation (content.take offset.toNat ++ bytes ++
        content.drop (offset.toNat + bytes.length)))))
  | none => (sdNotFound, card)

end SdCard

def sdCard : NativeFs SdCard where
  createFile := SdCard.createFile
  deleteFile := SdCard.deleteFile
  renameFile := SdCard.renameFile
  createDirectory := SdCard.createDirectory
  deleteDirectory := SdCard.deleteDirectory
  setConcatenationFileAttribute := SdCard.setConcatenationFileAttribute
  walkDirectory := fun _ card => card
  openFile := SdCard.openFile
  closeFile := SdCard.closeFile
  getSize := SdCard.getSize
  setSize := SdCard.setSize
  flush := fun _ card => (0, card)
  read := SdCard.read
  write := SdCard.write

theorem SdCard.partOwner_first (path : NativePath) :
    SdCard.partOwner (path ++ FIRST_PART) = some path := by
  unfold SdCard.partOwner
  simp [FIRST_PART]

/-! ## Uploads -/

variable {κ : Type} [DecidableEq κ]

/-- The calls of `ftp_vfs_write` for the buffers of an upload, with their answers. -/
def ftpWrites {σ : Type} (native : NativeFs σ) (rounds : Nat) (file : κ) :
    List (List UInt8) → VfsWorld σ κ → VfsWorld σ κ × List (Option Int)
  | [], w => (w, [])
  | buffer :: buffers, w =>
    let written := ftp_vfs_write native rounds file buffer w
    let rest := ftpWrites native rounds file buffers written.1
    (rest.1, written.2 :: rest.2)

/-- No plain file is set to a size above the limit, no concatenation file is renamed, and at most
    one conversion is made. -/
structure UploadLog (log : List SdCall) (conversions : Nat) : Prop where
  plainSizes : ∀ path size, SdCall.setSize path false size ∈ log → size ≤ FTP_PLAIN_FILE_MAX
  renames : ∀ source destination concatenation,
    SdCall.rename source destination concatenation ∈ log → concatenation = false
  conversions : (log.filter fun call =>
    match call with
    | .setConcatenationFileAttribute _ => true
    | _ => false).length = conversions

/-- What an upload may start from: the target and the temporary name of its conversion are not
    directories, and there is nothing below the target. -/
structure TargetReady (card : SdCard) (path : NativePath) : Prop where
  target : card.entries path ≠ some .directory
  temporary : card.entries (path ++ FTP_CONCATENATION_TEMP_SUFFIX) ≠ some .directory
  parts : card.entries (path ++ FIRST_PART) = none
  log : card.log = []

/-- Between the open and the close: `done` has been written, `content` is on the card. -/
structure Uploading (file : κ) (path : NativePath) (concatenation : Bool)
    (content done : List UInt8) (w : VfsWorld SdCard κ) : Prop where
  handle : ∃ h, w.file file = ⟨h, done.length, content.length, true, true⟩ ∧
    w.fs.handles h = some path ∧ h < w.fs.next
  slot : ∃ slot, ftpVfsStateFind w.g_vfsState file = some slot ∧ slot.value.path = path ∧
    slot.value.concatenation = concatenation
  entry : w.fs.entries path = some (.file concatenation content)
  stored : content.take done.length = done
  plainSize : concatenation = false → (content.length : Int) ≤ FTP_PLAIN_FILE_MAX
  temporary : concatenation = false →
    w.fs.entries (path ++ FTP_CONCATENATION_TEMP_SUFFIX) ≠ some .directory
  parts : concatenation = false → w.fs.entries (path ++ FIRST_PART) = none
  log : UploadLog w.fs.log (if concatenation then 1 else 0)

/-! ## Sizes -/

theorem s64_of_range {x : Int} (hlow : 0 ≤ x) (hhigh : x < 2 ^ 63) : s64 x = x := by
  unfold s64
  apply Int.bmod_eq_of_le <;> omega

theorem intOfSize_of_lt {size : Nat} (h : size < 2 ^ 31) : intOfSize size = size := by
  unfold intOfSize
  apply Int.bmod_eq_of_le <;> omega

theorem intOfSize_lt (size : Nat) : intOfSize size < 2 ^ 31 := by
  have hlt := Int.bmod_lt (x := (size : Int)) (m := 2 ^ 32) (by omega)
  unfold intOfSize
  omega

/-- An allocation is the required size rounded up to whole chunks. -/
theorem allocationFor_bounds (required : Int) (hlow : 0 ≤ required)
    (hhigh : required + 2 ^ 20 ≤ 2 ^ 63) : required ≤ allocationFor required := by
  unfold allocationFor FTP_NATIVE_WRITE_CHUNK
  rw [s64_of_range (by omega) (by omega)]
  omega

theorem atPlainLimit_of_nonneg {position : Int} (h : 0 ≤ position) :
    ftpVfsAtPlainLimit position = decide (FTP_PLAIN_FILE_MAX < allocationFor position) := by
  have hnot : ¬ position < 0 := by omega
  simp [ftpVfsAtPlainLimit, hnot]

theorem SdCard.length_resize (content : List UInt8) (size : Nat) :
    (SdCard.resize content size).length = size := by
  unfold SdCard.resize
  rw [List.length_append, List.length_take, List.length_replicate]
  omega

/-- Growing or cutting behind a prefix keeps the prefix. -/
theorem SdCard.take_resize {content done : List UInt8} {size : Nat}
    (hstored : content.take done.length = done) (hsize : done.length ≤ size) :
    (SdCard.resize content size).take done.length = done := by
  have hlength : done.length ≤ content.length := by
    have h := congrArg List.length hstored
    rw [List.length_take] at h
    omega
  unfold SdCard.resize
  rw [List.take_append_of_le_length (by rw [List.length_take]; omega), List.take_take,
    Nat.min_eq_left hsize, hstored]

/-! ## Calls with any answer -/

section Calls

omit [DecidableEq κ]

theorem nativeCall_eq {call : SdCard → UInt32 × SdCard} {w : VfsWorld SdCard κ} {result : UInt32}
    {fs : SdCard} (h : call w.fs = (result, fs)) : nativeCall call w = (w.setFs fs, result) := by
  unfold nativeCall
  rw [h]

theorem recordedCall_eq {call : SdCard → UInt32 × SdCard} {w : VfsWorld SdCard κ}
    {result : UInt32} {fs : SdCard} (h : call w.fs = (result, fs)) :
    recordedCall call w = (ftpServerRecordFsResult result (w.setFs fs), result) := by
  unfold recordedCall
  rw [nativeCall_eq h]

end Calls

/-! ## The log -/

namespace UploadLog

variable {log : List SdCall} {conversions : Nat}

theorem setSize (h : UploadLog log conversions) {path : NativePath} {concatenation : Bool}
    {size : Int} (hsize : concatenation = false → size ≤ FTP_PLAIN_FILE_MAX) :
    UploadLog (log ++ [.setSize path concatenation size]) conversions where
  plainSizes := by
    intro path' size' hmem
    rcases List.mem_append.1 hmem with hmem | hmem
    · exact h.plainSizes path' size' hmem
    · simp only [List.mem_singleton, SdCall.setSize.injEq] at hmem
      obtain ⟨-, hplain, rfl⟩ := hmem
      exact hsize hplain.symm
  renames := by
    intro source destination concatenation' hmem
    rcases List.mem_append.1 hmem with hmem | hmem
    · exact h.renames source destination concatenation' hmem
    · simp at hmem
  conversions := by
    rw [List.filter_append, List.length_append, h.conversions]
    rfl

theorem rename (h : UploadLog log conversions) (source destination : NativePath) :
    UploadLog (log ++ [.rename source destination false]) conversions where
  plainSizes := by
    intro path size hmem
    rcases List.mem_append.1 hmem with hmem | hmem
    · exact h.plainSizes path size hmem
    · simp at hmem
  renames := by
    intro source' destination' concatenation hmem
    rcases List.mem_append.1 hmem with hmem | hmem
    · exact h.renames source' destination' concatenation hmem
    · simp only [List.mem_singleton, SdCall.rename.injEq] at hmem
      exact hmem.2.2
  conversions := by
    rw [List.filter_append, List.length_append, h.conversions]
    rfl

theorem convert (h : UploadLog log conversions) (path : NativePath) :
    UploadLog (log ++ [.setConcatenationFileAttribute path]) (conversions + 1) where
  plainSizes := by
    intro path' size hmem
    rcases List.mem_append.1 hmem with hmem | hmem
    · exact h.plainSizes path' size hmem
    · simp at hmem
  renames := by
    intro source destination concatenation hmem
    rcases List.mem_append.1 hmem with hmem | hmem
    · exact h.renames source destination concatenation hmem
    · simp at hmem
  conversions := by
    rw [List.filter_append, List.length_append, h.conversions]
    rfl

theorem nil : UploadLog [] 0 := ⟨by simp, by simp, rfl⟩

end UploadLog

/-! ## Chunks -/

namespace Uploading

variable {file : κ} {path : NativePath} {concatenation : Bool} {content done : List UInt8}
  {w : VfsWorld SdCard κ}

theorem length_le (up : Uploading file path concatenation content done w) :
    done.length ≤ content.length := by
  have h := congrArg List.length up.stored
  rw [List.length_take] at h
  omega

theorem offset (up : Uploading file path concatenation content done w) :
    (w.file file).offset = done.length := by
  obtain ⟨h, hfile, -⟩ := up.handle
  rw [hfile]

theorem allocated (up : Uploading file path concatenation content done w) :
    (w.file file).allocatedSize = content.length := by
  obtain ⟨h, hfile, -⟩ := up.handle
  rw [hfile]

theorem opened (up : Uploading file path concatenation content done w) :
    w.fs.opened (w.file file).file = some (path, concatenation, content) := by
  obtain ⟨h, hfile, hhandle, -⟩ := up.handle
  simp [SdCard.opened, hfile, hhandle, up.entry]

/-- The temporary name and the first part are names of their own. -/
theorem other_names (path : NativePath) :
    path ++ FTP_CONCATENATION_TEMP_SUFFIX ≠ path ∧ path ++ FIRST_PART ≠ path ∧
      path ++ FTP_CONCATENATION_TEMP_SUFFIX ≠ path ++ FIRST_PART := by
  simp [FTP_CONCATENATION_TEMP_SUFFIX, FIRST_PART]

theorem congr (up : Uploading file path concatenation content done w)
    {w' : VfsWorld SdCard κ} (hfile : w'.file file = w.file file) (hfs : w'.fs = w.fs)
    (hstate : w'.g_vfsState = w.g_vfsState) :
    Uploading file path concatenation content done w' where
  handle := by
    rw [hfile, hfs]
    exact up.handle
  slot := by
    rw [hstate]
    exact up.slot
  entry := by
    rw [hfs]
    exact up.entry
  stored := up.stored
  plainSize := up.plainSize
  temporary := by
    rw [hfs]
    exact up.temporary
  parts := by
    rw [hfs]
    exact up.parts
  log := by
    rw [hfs]
    exact up.log

/-- The world after the content and the handle have changed. -/
theorem update (up : Uploading file path concatenation content done w)
    {content' done' : List UInt8} {w' : VfsWorld SdCard κ} (log : List SdCall)
    (hhandle : w'.file file =
      ⟨(w.file file).file, done'.length, content'.length, true, true⟩)
    (hstate : w'.g_vfsState = w.g_vfsState)
    (hfs : w'.fs = { w.fs.setEntry path (some (.file concatenation content')) with log := log })
    (hstored : content'.take done'.length = done')
    (hplain : concatenation = false → (content'.length : Int) ≤ FTP_PLAIN_FILE_MAX)
    (hlog : UploadLog log (if concatenation then 1 else 0)) :
    Uploading file path concatenation content' done' w' where
  handle := by
    obtain ⟨h, hfile, hh, hnext⟩ := up.handle
    refine ⟨h, ?_, ?_, ?_⟩
    · rw [hhandle, hfile]
    · rw [hfs]
      exact hh
    · rw [hfs]
      exact hnext
  slot := by
    rw [hstate]
    exact up.slot
  entry := by simp [hfs, SdCard.setEntry]
  stored := hstored
  plainSize := hplain
  temporary := by
    intro hbig
    simpa [hfs, SdCard.setEntry, (other_names path).1] using up.temporary hbig
  parts := by
    intro hbig
    simpa [hfs, SdCard.setEntry, (other_names path).2.1] using up.parts hbig
  log := by
    rw [hfs]
    exact hlog

/-- Setting the size of the file being written, and remembering it. -/
theorem setSize (up : Uploading file path concatenation content done w) (size : Nat)
    (hsize : done.length ≤ size)
    (hplain : concatenation = false → (size : Int) ≤ FTP_PLAIN_FILE_MAX) :
    (fsFileSetSize sdCard file size w).2 = 0 ∧
      Uploading file path concatenation (SdCard.resize content size) done
        ((fsFileSetSize sdCard file size w).1.setFile file
          { (fsFileSetSize sdCard file size w).1.file file with allocatedSize := size }) := by
  have hopened := up.opened
  have hrefuse : ¬ ((size : Int) < 0 ∨ (concatenation = false ∧ FTP_PLAIN_FILE_MAX < size)) := by
    rintro (h | ⟨hbig, h⟩)
    · omega
    · exact absurd (hplain hbig) (by omega)
  have hcall : SdCard.setSize (w.file file).file size w.fs =
      (0, (w.fs.record (.setSize path concatenation size)).setEntry path
        (some (.file concatenation (SdCard.resize content size)))) := by
    simp [SdCard.setSize, hopened, hrefuse]
  have hnative : fsFileSetSize sdCard file size w =
      (w.setFs ((w.fs.record (.setSize path concatenation size)).setEntry path
        (some (.file concatenation (SdCard.resize content size)))), 0) := by
    unfold fsFileSetSize nativeCall
    exact congrArg (fun r : UInt32 × SdCard => (w.setFs r.2, r.1)) hcall
  rw [hnative]
  refine ⟨rfl, ?_⟩
  obtain ⟨h, hfile, -⟩ := up.handle
  refine up.update (w.fs.log ++ [.setSize path concatenation size]) ?_ rfl rfl
    (SdCard.take_resize up.stored hsize) ?_ (up.log.setSize hplain)
  · simp [VfsWorld.setFile, VfsWorld.setFs, hfile, SdCard.length_resize]
  · rw [SdCard.length_resize]
    exact hplain

/-- A write inside the allocated space. -/
theorem write (up : Uploading file path concatenation content done w) {buffer : List UInt8}
    (hfits : done.length + buffer.length ≤ content.length) :
    ∃ w' content', nativeCall (sdCard.write (w.file file).file done.length buffer) w = (w', 0) ∧
      Uploading file path concatenation content' (done ++ buffer)
        (w'.setFile file
          { w'.file file with offset := ((done.length + buffer.length : Nat) : Int) }) := by
  have hopened := up.opened
  have hrange : ¬ ((done.length : Int) < 0 ∨
      (content.length : Int) < (done.length : Int) + buffer.length) := by omega
  have hcall : sdCard.write (w.file file).file done.length buffer w.fs =
      (0, w.fs.setEntry path (some (.file concatenation (content.take done.length ++ buffer ++
        content.drop (done.length + buffer.length))))) := by
    simp [sdCard, SdCard.write, hopened, hrange]
  refine ⟨_, content.take done.length ++ buffer ++ content.drop (done.length + buffer.length),
    by rw [nativeCall, hcall], ?_⟩
  obtain ⟨h, hfile, -⟩ := up.handle
  have hlength : (content.take done.length ++ buffer ++
      content.drop (done.length + buffer.length)).length = content.length := by
    rw [List.length_append, List.length_append, List.length_take, List.length_drop]
    omega
  refine up.update w.fs.log ?_ rfl rfl ?_ ?_ up.log
  · rw [hlength]
    simp [VfsWorld.setFile, VfsWorld.setFs, hfile]
  · rw [up.stored, List.take_left' rfl]
  · rw [hlength]
    exact up.plainSize

/-- A chunk away from the limit, or on a concatenation file. -/
theorem writeChunk (up : Uploading file path concatenation content done w)
    {buffer : List UInt8}
    (hroom : (done.length : Int) + buffer.length + 2 ^ 20 ≤ 2 ^ 63)
    (hlimit : concatenation = false →
      ftpVfsAtPlainLimit ((done.length : Int) + buffer.length) = false) :
    ∃ content', (ftpVfsWriteChunk sdCard file buffer w).2 = intOfSize buffer.length ∧
      Uploading file path concatenation content' (done ++ buffer)
        (ftpVfsWriteChunk sdCard file buffer w).1 := by
  have hoffset := up.offset
  have hallocated := up.allocated
  have hrequired : s64 ((w.file file).offset + s64 buffer.length) =
      ((done.length + buffer.length : Nat) : Int) := by
    rw [hoffset, s64_of_range (x := buffer.length) (by omega) (by omega),
      s64_of_range (by omega) (by omega)]
    omega
  have hnotless : ¬ (((done.length + buffer.length : Nat) : Int) < (w.file file).offset) := by
    omega
  have hbounds := allocationFor_bounds ((done.length + buffer.length : Nat) : Int)
    (by omega) (by omega)
  -- the space: as it is, or grown by a set-size
  obtain ⟨grown, content₁, hgrown, hup, hfits, hsame⟩ : ∃ grown content₁,
      (if (w.file file).allocatedSize < ((done.length + buffer.length : Nat) : Int) then
          if R_FAILED (fsFileSetSize sdCard file
              (allocationFor ((done.length + buffer.length : Nat) : Int)) w).2 = true then
            fsFileSetSize sdCard file
              (allocationFor ((done.length + buffer.length : Nat) : Int)) w
          else
            ((fsFileSetSize sdCard file
                (allocationFor ((done.length + buffer.length : Nat) : Int)) w).1.setFile file
              { (fsFileSetSize sdCard file
                  (allocationFor ((done.length + buffer.length : Nat) : Int)) w).1.file file with
                allocatedSize := allocationFor ((done.length + buffer.length : Nat) : Int) }, 0)
        else (w, 0)) = (grown, (0 : UInt32)) ∧
      Uploading file path concatenation content₁ done grown ∧
      done.length + buffer.length ≤ content₁.length ∧
      (grown.file file).file = (w.file file).file := by
    by_cases hgrow : (w.file file).allocatedSize < ((done.length + buffer.length : Nat) : Int)
    · obtain ⟨size, hsize⟩ := Int.eq_ofNat_of_zero_le
        (show 0 ≤ allocationFor ((done.length + buffer.length : Nat) : Int) by omega)
      rw [hsize] at hbounds ⊢
      have hplain : concatenation = false → (size : Int) ≤ FTP_PLAIN_FILE_MAX := by
        intro hbig
        have hat := hlimit hbig
        rw [atPlainLimit_of_nonneg (by omega)] at hat
        have hle := of_decide_eq_false hat
        push_cast at hsize
        rw [hsize] at hle
        omega
      obtain ⟨hok, hup⟩ := up.setSize size (by omega) hplain
      have hnot : ¬ R_FAILED (fsFileSetSize sdCard file size w).2 = true := by
        rw [hok]
        decide
      refine ⟨_, _, by rw [if_pos hgrow, if_neg hnot], hup, ?_, ?_⟩
      · rw [SdCard.length_resize]
        omega
      · simp [VfsWorld.setFile, fsFileSetSize, nativeCall, VfsWorld.setFs]
    · refine ⟨w, content, by rw [if_neg hgrow], up, by omega, rfl⟩
  obtain ⟨w', content', hwrite, hup'⟩ := hup.write hfits
  refine ⟨content', ?_⟩
  unfold ftpVfsWriteChunk
  simp only [hrequired, if_neg hnotless, hgrown]
  rw [if_neg (show ¬ R_FAILED 0 = true by decide), ← hsame, hoffset, hwrite]
  rw [if_neg (show ¬ R_FAILED 0 = true by decide)]
  dsimp only
  exact ⟨rfl, hup'.congr rfl rfl rfl⟩

/-! ## The conversion -/

/-- The card after a plain file has been moved. -/
def moved (source destination : NativePath) (content : List UInt8) (card : SdCard) : SdCard :=
  { card with
    entries := Function.update (Function.update card.entries source none) destination
      (some (.file false content))
    log := card.log ++ [.rename source destination false] }

theorem renameFile_ok (source destination : NativePath) (content : List UInt8) (card : SdCard)
    (hsource : card.entries source = some (.file false content))
    (hdestination : card.entries destination = none) :
    sdCard.renameFile source destination card = (0, moved source destination content card) := by
  simp [sdCard, SdCard.renameFile, hsource, hdestination, SdCard.setEntry, SdCard.record, moved]

/-- Writing the flag leaves the rest of the entry. -/
theorem find_setConcatenation {w : VfsWorld SdCard κ} {slot : FtpVfsState κ} (value : Bool)
    (hslot : ftpVfsStateFind w.g_vfsState file = some slot) :
    ftpVfsStateFind (w.setConcatenation file value).g_vfsState file =
      some { slot with value := { slot.value with concatenation := value } } := by
  have hmodify := find_modify file (t := w.g_vfsState)
    (f := fun slot => { slot with value := { slot.value with concatenation := value } })
    (fun _ => rfl)
  unfold ftpVfsStateFind at hslot ⊢
  rw [hslot] at hmodify
  exact hmodify

omit [DecidableEq κ] in
/-- The rename aside, over a file that an earlier conversion may have left behind. -/
theorem renameAside_ok (path temp : NativePath) (content : List UInt8) (w : VfsWorld SdCard κ)
    (hentry : w.fs.entries path = some (.file false content))
    (htemp : w.fs.entries temp ≠ some .directory) (hne : temp ≠ path) :
    ∃ w', renameAside sdCard path temp w = (w', 0) ∧ w'.fs = moved path temp content w.fs ∧
      w'.file = w.file ∧ w'.g_vfsState = w.g_vfsState := by
  rcases htarget : w.fs.entries temp with _ | entry
  · refine ⟨w.setFs (moved path temp content w.fs), ?_, rfl, rfl, rfl⟩
    unfold renameAside
    simp only [nativeCall_eq (renameFile_ok _ _ _ _ hentry htarget)]
    rw [if_neg (show ¬ R_FAILED 0 = true by decide)]
  · cases entry with
    | directory => exact absurd htarget htemp
    | file concatenation old =>
      -- the destination is in the way: it is deleted and the rename made again
      have hrefused : nativeCall (sdCard.renameFile path temp) w = (w, sdExists) := by
        simp [nativeCall, sdCard, SdCard.renameFile, hentry, htarget, VfsWorld.setFs]
      have hdeleted : sdCard.deleteFile temp w.fs = (0, w.fs.setEntry temp none) := by
        simp [sdCard, SdCard.deleteFile, htarget]
      have hagain : sdCard.renameFile path temp (w.fs.setEntry temp none) =
          (0, moved path temp content (w.fs.setEntry temp none)) := by
        apply renameFile_ok
        · simpa [SdCard.setEntry, hne.symm] using hentry
        · simp [SdCard.setEntry]
      have hsame : moved path temp content (w.fs.setEntry temp none) =
          moved path temp content w.fs := by
        unfold moved SdCard.setEntry
        congr 1
        funext name
        by_cases hname : name = temp
        · simp [hname]
        · simp [Function.update_apply, hname]
      rw [hsame] at hagain
      refine ⟨(ftpServerRecordFsResult 0 (w.setFs (w.fs.setEntry temp none))).setFs
        (moved path temp content w.fs), ?_, rfl, rfl, rfl⟩
      unfold renameAside
      simp only [hrefused, recordedCall_eq hdeleted]
      rw [if_pos (show R_FAILED sdExists = true by decide),
        if_neg (show ¬ R_FAILED 0 = true by decide)]
      exact nativeCall_eq hagain

omit [DecidableEq κ] in
theorem refreshParentDirectory_eq (w : VfsWorld SdCard κ) :
    ftpVfsRefreshParentDirectory sdCard path w = w := by
  unfold ftpVfsRefreshParentDirectory
  split
  · rfl
  · split_ifs <;> rfl

theorem openFile_ok {card : SdCard} (mode : UInt32)
    (hentry : card.entries path = some (.file concatenation content)) :
    sdCard.openFile path mode card = (0, card.next, { card with
      handles := Function.update card.handles card.next (some path)
      next := card.next + 1 }) := by
  simp [sdCard, SdCard.openFile, SdCard.isFile, hentry]

/-- Reopening reads the allocated size back and leaves the offset. -/
theorem reopen_ok (file : κ) {w : VfsWorld SdCard κ}
    (hentry : w.fs.entries path = some (.file concatenation content)) :
    (ftpVfsReopenForWrite sdCard file path w).2 = 0 ∧
      (ftpVfsReopenForWrite sdCard file path w).1.file file =
        { w.file file with
          file := w.fs.next, allocatedSize := content.length, isOpen := true } ∧
      (ftpVfsReopenForWrite sdCard file path w).1.fs = { w.fs with
        handles := Function.update w.fs.handles w.fs.next (some path)
        next := w.fs.next + 1 } ∧
      (ftpVfsReopenForWrite sdCard file path w).1.g_vfsState = w.g_vfsState := by
  have hopen := openFile_ok FsOpenMode_Write hentry
  have hsize : sdCard.getSize w.fs.next { w.fs with
        handles := Function.update w.fs.handles w.fs.next (some path)
        next := w.fs.next + 1 } = (0, (content.length : Int), { w.fs with
        handles := Function.update w.fs.handles w.fs.next (some path)
        next := w.fs.next + 1 }) := by
    simp [sdCard, SdCard.getSize, SdCard.opened, hentry]
  unfold ftpVfsReopenForWrite fsFsOpenFile
  simp only [hopen]
  rw [if_neg (show ¬ R_FAILED 0 = true by decide)]
  simp only [markOpen, VfsWorld.setFile, VfsWorld.setFs, Function.update_self, hsize]
  simp [R_FAILED]

/-- The card after the forward steps of a conversion: the file has become the first part of a
    directory under its own name, which is marked. -/
def converted (path : NativePath) (content : List UInt8) (card : SdCard) : SdCard :=
  (((moved (path ++ FTP_CONCATENATION_TEMP_SUFFIX) (path ++ FIRST_PART) content
    ((moved path (path ++ FTP_CONCATENATION_TEMP_SUFFIX) content card).setEntry path
      (some .directory))).setEntry (path ++ FIRST_PART) none).setEntry path
        (some (.file true content))).record (.setConcatenationFileAttribute path)

theorem converted_entry (card : SdCard) :
    (converted path content card).entries path = some (.file true content) := by
  simp [converted, SdCard.record, SdCard.setEntry]

theorem converted_log (card : SdCard) :
    (converted path content card).log = card.log ++
      [.rename path (path ++ FTP_CONCATENATION_TEMP_SUFFIX) false] ++
      [.rename (path ++ FTP_CONCATENATION_TEMP_SUFFIX) (path ++ FIRST_PART) false] ++
      [.setConcatenationFileAttribute path] := rfl

/-- The forward steps of a conversion succeed, and the reopening starts from the converted card. -/
theorem convert_eq (up : Uploading file path false content done w)
    (hpath : path.length < FS_MAX_PATH) :
    ∃ w' : VfsWorld SdCard κ,
      ((ftpVfsReopenForWrite sdCard file path w').2 = 0 →
        ftpVfsConvertToConcatenationFile sdCard file path w =
          ((ftpVfsReopenForWrite sdCard file path w').1, 0)) ∧
      w'.fs = converted path content (fsFileClose sdCard file w).fs ∧
      w'.file = (fsFileClose sdCard file w).file ∧
      w'.g_vfsState = (w.setConcatenation file true).g_vfsState := by
  obtain ⟨hother, hpart, htemp⟩ := other_names path
  have hlengths : ¬ (FS_MAX_PATH + 32 ≤ (path ++ FTP_CONCATENATION_TEMP_SUFFIX).length ∨
      FS_MAX_PATH + 8 ≤ (path ++ [0x2F, 0x30, 0x30]).length) := by
    simp only [List.length_append, FTP_CONCATENATION_TEMP_SUFFIX, List.length_cons,
      List.length_nil]
    omega
  have hclosed : (fsFileClose sdCard file w).fs.entries = w.fs.entries := rfl
  obtain ⟨w₁, haside, hfs₁, hfile₁, hstate₁⟩ := renameAside_ok path
    (path ++ FTP_CONCATENATION_TEMP_SUFFIX) content (fsFileClose sdCard file w)
    (by rw [hclosed]; exact up.entry)
    (by rw [hclosed]; exact up.temporary rfl) hother
  -- the calls after the rename, each on the card the one before leaves
  have hcreate : sdCard.createDirectory path (ftpServerRecordFsResult 0 w₁).fs =
      (0, w₁.fs.setEntry path (some .directory)) := by
    have hnone : w₁.fs.entries path = none := by
      simp [hfs₁, moved, hother.symm]
    simp [sdCard, SdCard.createDirectory, ftpServerRecordFsResult, hnone]
  have hmove := renameFile_ok (path ++ FTP_CONCATENATION_TEMP_SUFFIX)
    (path ++ FIRST_PART) content (w₁.fs.setEntry path (some .directory))
    (by simp [hfs₁, moved, SdCard.setEntry, hother])
    (by
      have hparts := up.parts rfl
      simp [hfs₁, moved, SdCard.setEntry, hpart, htemp.symm, hclosed, hparts])
  have hmark : sdCard.setConcatenationFileAttribute path
      (moved (path ++ FTP_CONCATENATION_TEMP_SUFFIX) (path ++ FIRST_PART) content
        (w₁.fs.setEntry path (some .directory))) =
      (0, converted path content (fsFileClose sdCard file w).fs) := by
    rw [hfs₁]
    simp [sdCard, SdCard.setConcatenationFileAttribute, converted, moved, SdCard.setEntry,
      hpart.symm, hother.symm]
  refine ⟨(ftpServerRecordFsResult 0 ((ftpServerRecordFsResult 0 ((ftpServerRecordFsResult 0
    ((ftpServerRecordFsResult 0 w₁).setFs (w₁.fs.setEntry path (some .directory)))).setFs
      (moved (path ++ FTP_CONCATENATION_TEMP_SUFFIX) (path ++ FIRST_PART) content
        (w₁.fs.setEntry path (some .directory))))).setFs
          (converted path content (fsFileClose sdCard file w).fs))).setConcatenation file true,
    ?_, rfl, hfile₁, ?_⟩
  · intro hreopened
    unfold ftpVfsConvertToConcatenationFile
    simp only [if_neg hlengths, haside]
    rw [if_neg (show ¬ R_FAILED 0 = true by decide), recordedCall_eq hcreate]
    dsimp only
    rw [if_neg (show ¬ R_FAILED 0 = true by decide), recordedCall_eq hmove]
    dsimp only
    rw [if_neg (show ¬ R_FAILED 0 = true by decide), recordedCall_eq hmark]
    dsimp only
    rw [if_neg (show ¬ R_FAILED 0 = true by decide), refreshParentDirectory_eq]
    rw [if_neg (not_not.2 hreopened)]
  · unfold VfsWorld.setConcatenation
    rw [← (show (fsFileClose sdCard file w).g_vfsState = w.g_vfsState from rfl), ← hstate₁]
    rfl

/-- The conversion of a plain file: the content stays, the entry becomes a concatenation file. -/
theorem convert (up : Uploading file path false content done w)
    (hpath : path.length < FS_MAX_PATH) :
    (ftpVfsConvertToConcatenationFile sdCard file path w).2 = 0 ∧
      Uploading file path true content done
        (ftpVfsConvertToConcatenationFile sdCard file path w).1 := by
  obtain ⟨w', hconvert, hfs, hfile, hstate⟩ := up.convert_eq hpath
  have hentry : w'.fs.entries path = some (.file true content) := by
    rw [hfs]
    exact converted_entry _
  obtain ⟨hresult, hfile', hfs', hstate'⟩ := reopen_ok file hentry
  rw [hconvert hresult]
  refine ⟨rfl, ?_⟩
  obtain ⟨h, hopen, -, -⟩ := up.handle
  constructor
  · refine ⟨w'.fs.next, ?_, ?_, ?_⟩
    · rw [hfile', hfile]
      simp [fsFileClose, VfsWorld.setFile, hopen]
    · rw [hfs']
      exact Function.update_self _ _ _
    · rw [hfs']
      exact Nat.lt_succ_self _
  · obtain ⟨slot, hslot, hslotPath, -⟩ := up.slot
    refine ⟨{ slot with value := { slot.value with concatenation := true } }, ?_, hslotPath, rfl⟩
    rw [hstate', hstate]
    exact find_setConcatenation true hslot
  · rw [hfs']
    exact hentry
  · exact up.stored
  · intro hbig
    exact absurd hbig (by decide)
  · intro hbig
    exact absurd hbig (by decide)
  · intro hbig
    exact absurd hbig (by decide)
  · have hlog := ((up.log.rename path (path ++ FTP_CONCATENATION_TEMP_SUFFIX)).rename
      (path ++ FTP_CONCATENATION_TEMP_SUFFIX) (path ++ FIRST_PART)).convert path
    rw [hfs']
    change UploadLog w'.fs.log 1
    rw [hfs, converted_log]
    exact hlog

/-! ## Writes -/

/-- The loop on a concatenation file: one chunk and the test that ends it. -/
theorem writeLoop_of_big (up : Uploading file path true content done w) {buffer : List UInt8}
    (size : Nat) (hsize : buffer.length < 2 ^ 31)
    (hroom : (done.length : Int) + buffer.length + 2 ^ 20 ≤ 2 ^ 63) (rounds : Nat) :
    ∃ content',
      (ftpVfsWriteLoop sdCard file path size (rounds + 2) buffer w).2 = some (intOfSize size) ∧
        Uploading file path true content' (done ++ buffer)
          (ftpVfsWriteLoop sdCard file path size (rounds + 2) buffer w).1 := by
  by_cases hempty : buffer.length = 0
  · have hnil := List.length_eq_zero_iff.1 hempty
    subst hnil
    refine ⟨content, ?_⟩
    unfold ftpVfsWriteLoop
    rw [if_pos hempty, List.append_nil]
    exact ⟨rfl, up⟩
  · obtain ⟨slot, hslot, -, hbig⟩ := up.slot
    obtain ⟨content', hresult, hup⟩ := up.writeChunk hroom (fun h => absurd h (by decide))
    refine ⟨content', ?_⟩
    have hpositive : ¬ (ftpVfsWriteChunk sdCard file buffer w).2 < 0 := by
      rw [hresult, intOfSize_of_lt hsize]
      omega
    have hdrop : buffer.drop (ftpVfsWriteChunk sdCard file buffer w).2.toNat = [] := by
      rw [hresult, intOfSize_of_lt hsize]
      simp
    unfold ftpVfsWriteLoop
    simp only [if_neg hempty, hslot, Option.any_some, hbig, Bool.not_true, Bool.false_and,
      Bool.false_eq_true, if_false, if_neg hpositive, hdrop]
    unfold ftpVfsWriteLoop
    exact ⟨rfl, hup⟩

/-- Probing a plain file for a first part changes nothing. -/
theorem isConcatenationFile_of_plain (up : Uploading file path false content done w)
    (hpath : path.length < FS_MAX_PATH) :
    ftpVfsIsConcatenationFile sdCard path w = (w, false) := by
  have hlength : ¬ FS_MAX_PATH + 4 ≤ (path ++ [0x2F, 0x30, 0x30]).length := by
    simp only [List.length_append, List.length_cons, List.length_nil]
    omega
  have hprobe : sdCard.openFile (path ++ [0x2F, 0x30, 0x30]) FsOpenMode_Read w.fs =
      (sdNotFound, 0, w.fs) := by
    have hpart := SdCard.partOwner_first path
    have hnone := up.parts rfl
    unfold FIRST_PART at hpart hnone
    simp [sdCard, SdCard.openFile, SdCard.isFile, hnone, hpart, SdCard.isConcatenation, up.entry]
  unfold ftpVfsIsConcatenationFile
  simp only [if_neg hlength, hprobe]
  rfl

theorem setConcatenation_false (up : Uploading file path false content done w) :
    Uploading file path false content done (w.setConcatenation file false) where
  handle := up.handle
  slot := by
    obtain ⟨slot, hslot, hpath, -⟩ := up.slot
    exact ⟨_, find_setConcatenation false hslot, hpath, rfl⟩
  entry := up.entry
  stored := up.stored
  plainSize := up.plainSize
  temporary := up.temporary
  parts := up.parts
  log := up.log

/-- A write away from the limit is one chunk, whatever its size. -/
theorem write_far (up : Uploading file path false content done w) {buffer : List UInt8}
    (hroom : (done.length : Int) + buffer.length + 2 ^ 20 ≤ 2 ^ 63)
    (hfar : ftpVfsAtPlainLimit ((done.length : Int) + buffer.length) = false) (rounds : Nat) :
    (ftp_vfs_write sdCard rounds file buffer w).2 = some (intOfSize buffer.length) ∧
      ∃ content', Uploading file path false content' (done ++ buffer)
        (ftp_vfs_write sdCard rounds file buffer w).1 := by
  obtain ⟨slot, hslot, -, hbig⟩ := up.slot
  have hrequired : s64 ((w.file file).offset + s64 buffer.length) =
      (done.length : Int) + buffer.length := by
    rw [up.offset, s64_of_range (x := buffer.length) (by omega) (by omega),
      s64_of_range (by omega) (by omega)]
  obtain ⟨content', hresult, hup⟩ := up.writeChunk hroom (fun _ => hfar)
  unfold ftp_vfs_write
  simp only [hrequired, hslot, hbig, hfar, Bool.not_false, Bool.and_self, if_true]
  exact ⟨by rw [hresult], content', hup⟩

/-- One `ftp_vfs_write` of an upload. -/
theorem write_call (up : Uploading file path concatenation content done w)
    (hpath : path.length < FS_MAX_PATH) {buffer : List UInt8} (hsize : buffer.length < 2 ^ 31)
    (hroom : (done.length : Int) + buffer.length + 2 ^ 20 ≤ 2 ^ 63) (rounds : Nat) :
    (ftp_vfs_write sdCard (rounds + 3) file buffer w).2 = some (buffer.length : Int) ∧
      ∃ concatenation' content', Uploading file path concatenation' content' (done ++ buffer)
        (ftp_vfs_write sdCard (rounds + 3) file buffer w).1 := by
  obtain ⟨slot, hslot, hslotPath, hbig⟩ := up.slot
  have hint := intOfSize_of_lt hsize
  have hrequired : s64 ((w.file file).offset + s64 buffer.length) =
      (done.length : Int) + buffer.length := by
    rw [up.offset, s64_of_range (x := buffer.length) (by omega) (by omega),
      s64_of_range (by omega) (by omega)]
  unfold ftp_vfs_write
  simp only [hrequired, hslot, hbig, hslotPath]
  cases concatenation with
  | true =>
    obtain ⟨content', hresult, hup⟩ := up.writeLoop_of_big buffer.length hsize hroom
      (rounds + 1)
    simp only [Bool.not_true, Bool.false_and, Bool.false_eq_true, if_false]
    exact ⟨by rw [hresult, hint], true, content', hup⟩
  | false =>
    by_cases hlimit : ftpVfsAtPlainLimit ((done.length : Int) + buffer.length) = true
    · simp only [hlimit, Bool.not_false, Bool.not_true, Bool.and_false, Bool.false_eq_true,
        if_false]
      by_cases hempty : buffer.length = 0
      · have hnil := List.length_eq_zero_iff.1 hempty
        subst hnil
        unfold ftpVfsWriteLoop
        rw [if_pos hempty, List.append_nil]
        exact ⟨by rw [hint], false, content, up⟩
      · -- the probe answers no, the conversion succeeds, and the loop goes on
        obtain ⟨hok, hconverted⟩ := up.setConcatenation_false.convert hpath
        obtain ⟨content', hresult, hup⟩ := hconverted.writeLoop_of_big buffer.length
          hsize hroom rounds
        unfold ftpVfsWriteLoop
        simp only [if_neg hempty, hrequired, hslot, Option.any_some, hbig, hlimit, Bool.not_false,
          Bool.and_self, if_true, up.isConcatenationFile_of_plain hpath, Bool.false_eq_true,
          if_false, if_neg (not_not.2 hok)]
        exact ⟨by rw [hresult, hint], true, content', hup⟩
    · obtain ⟨hresult, content', hup⟩ := up.write_far hroom (Bool.eq_false_iff.2 hlimit)
        (rounds + 3)
      unfold ftp_vfs_write at hresult hup
      simp only [hrequired, hslot, hbig, hslotPath] at hresult hup
      exact ⟨by rw [hresult, hint], false, content', hup⟩

/-- The writes of an upload, by induction over the buffers. -/
theorem writes (up : Uploading file path concatenation content done w)
    (hpath : path.length < FS_MAX_PATH) {buffers : List (List UInt8)}
    (hsizes : ∀ buffer ∈ buffers, buffer.length < 2 ^ 31)
    (hroom : (done.length : Int) + buffers.flatten.length + 2 ^ 20 ≤ 2 ^ 63) (rounds : Nat) :
    (ftpWrites sdCard (rounds + 3) file buffers w).2 =
        buffers.map (fun buffer => some (buffer.length : Int)) ∧
      ∃ concatenation' content', Uploading file path concatenation' content'
        (done ++ buffers.flatten) (ftpWrites sdCard (rounds + 3) file buffers w).1 := by
  induction buffers generalizing w concatenation content done with
  | nil =>
    refine ⟨rfl, concatenation, content, ?_⟩
    rw [List.flatten_nil, List.append_nil]
    exact up
  | cons buffer buffers ih =>
    have hfirst := hsizes buffer List.mem_cons_self
    rw [List.flatten_cons, List.length_append] at hroom
    obtain ⟨hresult, concatenation', content', hup⟩ := up.write_call hpath hfirst (by omega) rounds
    obtain ⟨hresults, concatenation'', content'', hup'⟩ := ih hup
      (fun b hb => hsizes b (List.mem_cons_of_mem _ hb))
      (by rw [List.length_append]; omega)
    refine ⟨?_, concatenation'', content'', ?_⟩
    · unfold ftpWrites
      rw [List.map_cons, ← hresults, ← hresult]
    · rw [List.flatten_cons, ← List.append_assoc]
      exact hup'

/-- The close cuts the file at the offset. -/
theorem close (up : Uploading file path concatenation content done w) :
    (ftp_vfs_close sdCard file w).2 = 0 ∧
      (ftp_vfs_close sdCard file w).1.fs.entries path = some (.file concatenation done) ∧
      UploadLog (ftp_vfs_close sdCard file w).1.fs.log (if concatenation then 1 else 0) := by
  obtain ⟨h, hfile, -⟩ := up.handle
  have hplain : concatenation = false → (done.length : Int) ≤ FTP_PLAIN_FILE_MAX := by
    intro hbig
    have hle := up.plainSize hbig
    have hlength := up.length_le
    omega
  obtain ⟨-, hup⟩ := up.setSize done.length le_rfl hplain
  have hcut : SdCard.resize content done.length = done := by
    unfold SdCard.resize
    have hlength := up.length_le
    rw [up.stored, Nat.sub_eq_zero_of_le hlength]
    simp
  rw [hcut] at hup
  have hopen : ¬ (w.file file).isOpen = false := by simp [hfile]
  have hwritable : (w.file file).writable = true := by rw [hfile]
  unfold ftp_vfs_close
  simp only [if_neg hopen, hwritable, if_true, up.offset]
  have hfs : ∀ v : VfsWorld SdCard κ, (ftpServerTransferClosed v).fs = v.fs := by
    intro v
    unfold ftpServerTransferClosed
    split_ifs <;> rfl
  rw [hfs]
  exact ⟨trivial, hup.entry, hup.log⟩

/-! ## The open -/

/-- What is left of an entry that is made a target for writing. -/
def keptContent : Option SdEntry → List UInt8
  | some (.file false content) => content
  | _ => []

/-- Making the target: an old concatenation file is deleted, a plain one stays. -/
theorem createForWriting_ok (path : NativePath) (w : VfsWorld SdCard κ)
    (ready : TargetReady w.fs path)
    (hpath : path.length < FS_MAX_PATH) (file : κ) :
    ∃ w', createForWriting sdCard file path w = (w', 0) ∧
      w'.file file = { w.file file with writable := true } ∧
      w'.fs.entries = Function.update w.fs.entries path
        (some (.file false (keptContent (w.fs.entries path)))) ∧
      w'.fs.log = w.fs.log ∧ w'.g_vfsState = w.g_vfsState := by
  have hpart := SdCard.partOwner_first path
  have hparts := ready.parts
  unfold FIRST_PART at hpart hparts
  rcases hentry : w.fs.entries path with _ | entry
  · have hprobe : ftpVfsIsConcatenationFile sdCard path w = (w, false) := by
      simp [ftpVfsIsConcatenationFile, sdCard, SdCard.openFile, SdCard.isFile, hparts,
        hpart, SdCard.isConcatenation, hentry, R_FAILED, sdNotFound, VfsWorld.setFs]
    have hcreate : sdCard.createFile path w.fs =
        (0, w.fs.setEntry path (some (.file false []))) := by
      simp [sdCard, SdCard.createFile, hentry]
    refine ⟨(w.setFs (w.fs.setEntry path (some (.file false [])))).setFile file
      { w.file file with writable := true }, ?_, ?_, ?_, ?_, ?_⟩
    · unfold createForWriting
      simp only [hprobe, Bool.false_eq_true, if_false, nativeCall_eq hcreate]
      rfl
    · simp [VfsWorld.setFile]
    · rfl
    · rfl
    · rfl
  · cases entry with
    | directory => exact absurd hentry ready.target
    | file concatenation content =>
      cases concatenation with
      | false =>
        have hprobe : ftpVfsIsConcatenationFile sdCard path w = (w, false) := by
          simp [ftpVfsIsConcatenationFile, sdCard, SdCard.openFile, SdCard.isFile,
            hparts, hpart, SdCard.isConcatenation, hentry, R_FAILED, sdNotFound, VfsWorld.setFs]
        have hcreate : nativeCall (sdCard.createFile path) w = (w, sdExists) := by
          simp [nativeCall, sdCard, SdCard.createFile, hentry, VfsWorld.setFs]
        refine ⟨w.setFile file { w.file file with writable := true }, ?_, ?_, ?_, ?_, ?_⟩
        · unfold createForWriting
          simp only [hprobe, Bool.false_eq_true, if_false, hcreate]
          rfl
        · simp [VfsWorld.setFile]
        · change _ = Function.update w.fs.entries path (some (.file false content))
          rw [← hentry]
          exact (Function.update_eq_self path w.fs.entries).symm
        · rfl
        · rfl
      | true =>
        -- the probe opens the first part and closes it again
        have hprobe : ftpVfsIsConcatenationFile sdCard path w =
            (w.setFs (sdCard.closeFile w.fs.next { w.fs with
              handles := Function.update w.fs.handles w.fs.next
                (some (path ++ [0x2F, 0x30, 0x30]))
              next := w.fs.next + 1 }), true) := by
          simp [ftpVfsIsConcatenationFile, sdCard, SdCard.openFile, SdCard.isFile,
            hparts, hpart, SdCard.isConcatenation, hentry, R_FAILED, hpath.le]
        let card := sdCard.closeFile w.fs.next { w.fs with
          handles := Function.update w.fs.handles w.fs.next (some (path ++ [0x2F, 0x30, 0x30]))
          next := w.fs.next + 1 }
        have hentries : card.entries = w.fs.entries := rfl
        have hdelete : sdCard.deleteFile path card = (0, card.setEntry path none) := by
          simp [sdCard, SdCard.deleteFile, hentries, hentry]
        have hcreate : sdCard.createFile path (card.setEntry path none) =
            (0, (card.setEntry path none).setEntry path (some (.file false []))) := by
          simp [sdCard, SdCard.createFile, SdCard.setEntry]
        refine ⟨(w.setFs ((card.setEntry path none).setEntry path
          (some (.file false [])))).setFile file { w.file file with writable := true }, ?_, ?_,
          ?_, ?_, ?_⟩
        · have hdeleted : nativeCall (sdCard.deleteFile path) (w.setFs card) =
              ((w.setFs card).setFs (card.setEntry path none), 0) := nativeCall_eq hdelete
          have hcreated : nativeCall (sdCard.createFile path)
                ((w.setFs card).setFs (card.setEntry path none)) =
              (((w.setFs card).setFs (card.setEntry path none)).setFs
                ((card.setEntry path none).setEntry path (some (.file false []))), 0) :=
            nativeCall_eq hcreate
          unfold createForWriting
          simp only [hprobe, if_true]
          rw [hdeleted]
          dsimp only
          rw [hcreated]
          rfl
        · simp [VfsWorld.setFile]
        · change Function.update (Function.update card.entries path none) path _ = _
          rw [Function.update_idem, hentries]
          rfl
        · rfl
        · rfl

/-- The file of a mode that writes, as soon as it is open: the handle stands for what is left of the
    entry, of which the size has not been looked at yet. -/
structure TargetOpened (file : κ) (path : NativePath) (w w' : VfsWorld SdCard κ) : Prop where
  handle : ∃ h, w'.file file = ⟨h, 0, 0, true, true⟩ ∧ w'.fs.handles h = some path ∧ h < w'.fs.next
  entries : w'.fs.entries = Function.update w.fs.entries path
    (some (.file false (keptContent (w.fs.entries path))))
  log : w'.fs.log = w.fs.log
  state : w'.g_vfsState = w.g_vfsState

theorem openTarget_eq {w : VfsWorld SdCard κ} (file : κ) {path : TranslatedPath}
    (mode : FtpVfsOpenMode) (hmode : mode ≠ .read) (ready : TargetReady w.fs path.bytes) :
    ∃ w', TargetOpened file path.bytes w w' ∧
      openTarget sdCard file path.bytes mode w =
        if R_FAILED (sizeForMode sdCard file mode w').2 then
          (fsFileClose sdCard file (sizeForMode sdCard file mode w').1,
            (sizeForMode sdCard file mode w').2)
        else sizeForMode sdCard file mode w' := by
  obtain ⟨w₁, hcreate, hfile₁, hentries₁, hlog₁, hstate₁⟩ := createForWriting_ok
    path.bytes (w.setFile file .zero) ready path.fits file
  have hentry₁ : w₁.fs.entries path.bytes =
      some (.file false (keptContent (w.fs.entries path.bytes))) := by
    rw [hentries₁, Function.update_self]
    rfl
  have hfile₁' : w₁.file file = ⟨0, 0, 0, false, true⟩ := by
    rw [hfile₁]
    simp [VfsWorld.setFile, FtpVfsFile.zero]
  let card := { w₁.fs with
    handles := Function.update w₁.fs.handles w₁.fs.next (some path.bytes)
    next := w₁.fs.next + 1 }
  have hopen : fsFsOpenFile sdCard file path.bytes FsOpenMode_Write w₁ =
      ((w₁.setFs card).setFile file ⟨w₁.fs.next, 0, 0, false, true⟩, 0) := by
    unfold fsFsOpenFile
    simp only [openFile_ok _ hentry₁, hfile₁']
    rfl
  have hmark : markOpen file ((w₁.setFs card).setFile file ⟨w₁.fs.next, 0, 0, false, true⟩) =
      (w₁.setFs card).setFile file ⟨w₁.fs.next, 0, 0, true, true⟩ := by
    simp [markOpen, VfsWorld.setFile]
  refine ⟨(w₁.setFs card).setFile file ⟨w₁.fs.next, 0, 0, true, true⟩,
    ⟨⟨w₁.fs.next, ?_, ?_, Nat.lt_succ_self _⟩, hentries₁, hlog₁, hstate₁⟩, ?_⟩
  · simp [VfsWorld.setFile]
  · exact Function.update_self _ _ _
  · unfold openTarget
    simp only [if_neg hmode, hcreate]
    rw [if_neg (show ¬ R_FAILED 0 = true by decide), hopen]
    dsimp only
    rw [if_neg (show ¬ R_FAILED 0 = true by decide), hmark]

/-- What an open leaves is an upload of the content that it leaves. -/
theorem of_openTarget {w w' : VfsWorld SdCard κ} {file : κ} {path : TranslatedPath}
    {mode : FtpVfsOpenMode} {content : List UInt8} (ready : TargetReady w.fs path.bytes)
    (hroom : ∃ slot ∈ w.g_vfsState, slot.key = none ∨ slot.key = some file)
    (htarget : openTarget sdCard file path.bytes mode w = (w', 0))
    (hhandle : ∃ h, w'.file file = ⟨h, content.length, content.length, true, true⟩ ∧
      w'.fs.handles h = some path.bytes ∧ h < w'.fs.next)
    (hentries : w'.fs.entries =
      Function.update w.fs.entries path.bytes (some (.file false content)))
    (hplain : (content.length : Int) ≤ FTP_PLAIN_FILE_MAX) (hlog : UploadLog w'.fs.log 0)
    (hstate : w'.g_vfsState = w.g_vfsState) :
    (ftp_vfs_open sdCard file (.path path) true mode w).2 = 0 ∧
      Uploading file path.bytes false content content
        (ftp_vfs_open sdCard file (.path path) true mode w).1 := by
  obtain ⟨hother, hpart, -⟩ := other_names path.bytes
  have hvalid : ¬ (path.bytes = [] ∨ FS_MAX_PATH ≤ path.bytes.length) := by
    rintro (h | h)
    · exact path.nonempty h
    · exact absurd path.fits (by omega)
  have htake : path.bytes.take (FS_MAX_PATH - 1) = path.bytes :=
    List.take_of_length_le (by have hfits := path.fits; omega)
  have hfound := find_store (t := w.g_vfsState) file
    (⟨path.bytes, false, decide (mode = .write)⟩ : FtpVfsTarget) hroom
  unfold ftp_vfs_open
  simp only [Bool.true_eq_false, and_false, if_false, htarget]
  rw [if_neg (show ¬ R_FAILED 0 = true by decide)]
  refine ⟨rfl, hhandle, ?_, ?_, List.take_length, fun _ => hplain, fun _ => ?_, fun _ => ?_, hlog⟩
  · refine ⟨⟨some file, path.bytes, false, decide (mode = .write)⟩, ?_, rfl, rfl⟩
    change find (store file (ftpVfsStateEntry file path.bytes (decide (mode = .write)))
      w'.g_vfsState).1 file = _
    rw [hstate]
    simp only [ftpVfsStateEntry, if_neg hvalid, htake]
    exact hfound
  · change w'.fs.entries path.bytes = _
    rw [hentries, Function.update_self]
  · change w'.fs.entries _ ≠ _
    rw [hentries, Function.update_of_ne hother]
    exact ready.temporary
  · change w'.fs.entries _ = _
    rw [hentries, Function.update_of_ne hpart]
    exact ready.parts

/-- The open of an upload. -/
theorem ftp_vfs_open_ok {w : VfsWorld SdCard κ} {file : κ} {path : TranslatedPath}
    (ready : TargetReady w.fs path.bytes)
    (hroom : ∃ slot ∈ w.g_vfsState, slot.key = none ∨ slot.key = some file) :
    (ftp_vfs_open sdCard file (.path path) true .write w).2 = 0 ∧
      Uploading file path.bytes false [] []
        (ftp_vfs_open sdCard file (.path path) true .write w).1 := by
  obtain ⟨w₁, hopened, htarget⟩ := openTarget_eq file .write (by decide) ready
  obtain ⟨h, hfile, hhandle, hnext⟩ := hopened.handle
  -- the size is set to nothing
  have hsize : SdCard.setSize (w₁.file file).file 0 w₁.fs =
      (0, (w₁.fs.record (.setSize path.bytes false 0)).setEntry path.bytes
        (some (.file false []))) := by
    have hcontent : w₁.fs.opened (w₁.file file).file =
        some (path.bytes, false, keptContent (w.fs.entries path.bytes)) := by
      simp [SdCard.opened, hfile, hhandle, hopened.entries]
    simp [SdCard.setSize, hcontent, SdCard.resize, FTP_PLAIN_FILE_MAX]
  have hsized : sizeForMode sdCard file .write w₁ =
      (w₁.setFs ((w₁.fs.record (.setSize path.bytes false 0)).setEntry path.bytes
        (some (.file false []))), 0) :=
    nativeCall_eq hsize
  rw [hsized, if_neg (show ¬ R_FAILED 0 = true by decide)] at htarget
  refine of_openTarget ready hroom htarget ⟨h, hfile, hhandle, hnext⟩ ?_ (by decide) ?_
    hopened.state
  · change Function.update w₁.fs.entries path.bytes _ = _
    rw [hopened.entries, Function.update_idem]
  · change UploadLog (w₁.fs.log ++ [.setSize path.bytes false 0]) 0
    rw [hopened.log, ready.log]
    exact UploadLog.nil.setSize fun _ => by decide

/-- The open for append: the upload goes on behind what is left of the entry. -/
theorem ftp_vfs_open_append {w : VfsWorld SdCard κ} {file : κ} {path : TranslatedPath}
    (ready : TargetReady w.fs path.bytes)
    (hroom : ∃ slot ∈ w.g_vfsState, slot.key = none ∨ slot.key = some file)
    (hplain : ((keptContent (w.fs.entries path.bytes)).length : Int) ≤ FTP_PLAIN_FILE_MAX) :
    (ftp_vfs_open sdCard file (.path path) true .append w).2 = 0 ∧
      Uploading file path.bytes false (keptContent (w.fs.entries path.bytes))
        (keptContent (w.fs.entries path.bytes))
        (ftp_vfs_open sdCard file (.path path) true .append w).1 := by
  obtain ⟨w₁, hopened, htarget⟩ := openTarget_eq file .append (by decide) ready
  obtain ⟨h, hfile, hhandle, hnext⟩ := hopened.handle
  have hsize : sdCard.getSize (w₁.file file).file w₁.fs =
      (0, ((keptContent (w.fs.entries path.bytes)).length : Int), w₁.fs) := by
    have hcontent : w₁.fs.opened (w₁.file file).file =
        some (path.bytes, false, keptContent (w.fs.entries path.bytes)) := by
      simp [SdCard.opened, hfile, hhandle, hopened.entries]
    simp [sdCard, SdCard.getSize, hcontent]
  have hsized : sizeForMode sdCard file .append w₁ =
      ((w₁.setFs w₁.fs).setFile file ⟨h, (keptContent (w.fs.entries path.bytes)).length,
        (keptContent (w.fs.entries path.bytes)).length, true, true⟩, 0) := by
    unfold sizeForMode
    simp only [hsize]
    rw [hfile]
  rw [hsized, if_neg (show ¬ R_FAILED 0 = true by decide)] at htarget
  refine of_openTarget ready hroom htarget ⟨h, ?_, hhandle, hnext⟩ hopened.entries hplain ?_
    hopened.state
  · simp [VfsWorld.setFile]
  · change UploadLog w₁.fs.log 0
    rw [hopened.log, ready.log]
    exact UploadLog.nil

end Uploading

/-! ## Upload integrity -/

/-- An upload of buffers below 2 GiB each, to a target that is absent, a plain file or a
    concatenation file: every write answers its size, the closed entry is the concatenation of the
    buffers, no plain file is set above the limit or left above it, and a concatenation file has been
    made by one conversion of a plain file. -/
theorem upload_integrity (rounds : Nat) (file : κ) (path : TranslatedPath)
    (buffers : List (List UInt8)) (w : VfsWorld SdCard κ) (ready : TargetReady w.fs path.bytes)
    (hroom : ∃ slot ∈ w.g_vfsState, slot.key = none ∨ slot.key = some file)
    (hsizes : ∀ buffer ∈ buffers, buffer.length < 2 ^ 31)
    (htotal : buffers.flatten.length + 2 ^ 20 ≤ 2 ^ 63) :
    (ftp_vfs_open sdCard file (.path path) true .write w).2 = 0 ∧
      (ftpWrites sdCard (rounds + 3) file buffers
        (ftp_vfs_open sdCard file (.path path) true .write w).1).2 =
          buffers.map (fun buffer => some (buffer.length : Int)) ∧
      ∃ w' concatenation, ftp_vfs_close sdCard file
          (ftpWrites sdCard (rounds + 3) file buffers
            (ftp_vfs_open sdCard file (.path path) true .write w).1).1 = (w', 0) ∧
        w'.fs.entries path.bytes = some (.file concatenation buffers.flatten) ∧
        (concatenation = false → (buffers.flatten.length : Int) ≤ FTP_PLAIN_FILE_MAX) ∧
        UploadLog w'.fs.log (if concatenation then 1 else 0) := by
  obtain ⟨hopen, hup⟩ := Uploading.ftp_vfs_open_ok ready hroom
  obtain ⟨hresults, concatenation, content, hup'⟩ := hup.writes path.fits hsizes
    (by simp only [List.length_nil]; omega) rounds
  obtain ⟨hclose, hentry, hlog⟩ := hup'.close
  rw [List.nil_append] at hentry
  refine ⟨hopen, hresults, _, concatenation, Prod.ext rfl hclose, hentry, fun hplain => ?_, hlog⟩
  have hsize := hup'.plainSize hplain
  have hlength := hup'.length_le
  rw [List.nil_append] at hlength
  omega

/-- A card with no entries. -/
def emptyCard : SdCard := ⟨fun _ => none, fun _ => none, 0, []⟩

/-- The adapter before its first call. -/
def emptyAdapter : VfsWorld SdCard (Fin 4) where
  fs := emptyCard
  file := fun _ => .zero
  g_vfsState := List.replicate FTP_VFS_STATE_SLOTS ⟨none, ⟨[], false, false⟩⟩
  status := ⟨0, 0, 0, 0⟩
  errno := .none

/-- The path `/a`. -/
def uploadPath : TranslatedPath := ⟨[0x2F, 0x61], by decide, by decide⟩

theorem emptyAdapter_ready :
    TargetReady emptyAdapter.fs uploadPath.bytes ∧
      ∃ slot ∈ emptyAdapter.g_vfsState, slot.key = none ∨ slot.key = some 0 :=
  ⟨⟨(Option.some_ne_none _).symm, (Option.some_ne_none _).symm, rfl, rfl⟩,
    ⟨_, List.mem_cons_self, .inl rfl⟩⟩

/-- A card with an old concatenation file at `/a` and the file that a failed conversion has left, and
    a table of which another transfer has the first slot. -/
def busyAdapter : VfsWorld SdCard (Fin 4) :=
  { emptyAdapter with
    fs := (emptyCard.setEntry uploadPath.bytes (some (.file true [0x61]))).setEntry
      (uploadPath.bytes ++ FTP_CONCATENATION_TEMP_SUFFIX) (some (.file false [0x62]))
    g_vfsState := ⟨some (Fin.last 3), ⟨[0x2F, 0x62], false, true⟩⟩ ::
      List.replicate (FTP_VFS_STATE_SLOTS - 1) ⟨none, ⟨[], false, false⟩⟩ }

theorem busyAdapter_ready :
    TargetReady busyAdapter.fs uploadPath.bytes ∧
      ∃ slot ∈ busyAdapter.g_vfsState, slot.key = none ∨ slot.key = some 0 := by
  obtain ⟨hother, hpart, htemp⟩ := Uploading.other_names uploadPath.bytes
  refine ⟨⟨?_, ?_, ?_, rfl⟩, ⟨none, ⟨[], false, false⟩⟩,
    List.mem_cons_of_mem _ (List.mem_replicate.2 ⟨by decide, rfl⟩), .inl rfl⟩
  · simp [busyAdapter, SdCard.setEntry, hother.symm]
  · simp [busyAdapter, SdCard.setEntry]
  · simp [busyAdapter, SdCard.setEntry, hpart, htemp.symm, emptyCard]

/-- What the buffer of a connection holds when it is full. -/
def fullBuffer : List UInt8 := List.replicate 65536 0x61

theorem length_fullBuffers (count : Nat) :
    (List.replicate count fullBuffer).flatten.length = count * 65536 := by
  rw [List.length_flatten, List.map_replicate, List.sum_replicate, fullBuffer,
    List.length_replicate, smul_eq_mul]

/-- One buffer more than 4 GiB: the plain file is converted on the way. -/
theorem upload_integrity_converted :
    let buffers := List.replicate 65537 fullBuffer
    let opened := (ftp_vfs_open sdCard (0 : Fin 4) (.path uploadPath) true .write busyAdapter).1
    (ftpWrites sdCard 3 0 buffers opened).2 = List.replicate 65537 (some 65536) ∧
      ∃ w', ftp_vfs_close sdCard 0 (ftpWrites sdCard 3 0 buffers opened).1 = (w', 0) ∧
        w'.fs.entries uploadPath.bytes = some (.file true buffers.flatten) ∧
        UploadLog w'.fs.log 1 := by
  obtain ⟨ready, hroom⟩ := busyAdapter_ready
  have hlength := length_fullBuffers 65537
  have hsizes : ∀ buffer ∈ List.replicate 65537 fullBuffer, buffer.length < 2 ^ 31 := by
    intro buffer hbuffer
    rw [List.eq_of_mem_replicate hbuffer, fullBuffer, List.length_replicate]
    omega
  obtain ⟨-, hresults, w', concatenation, hclose, hentry, hplain, hlog⟩ := upload_integrity 0 0
    uploadPath (List.replicate 65537 fullBuffer) busyAdapter ready hroom hsizes
    (by rw [hlength]; omega)
  rw [List.map_replicate] at hresults
  cases concatenation with
  | false =>
    have hsize := hplain rfl
    rw [hlength, FTP_PLAIN_FILE_MAX] at hsize
    omega
  | true =>
    refine ⟨?_, w', hclose, hentry, hlog⟩
    rw [hresults, fullBuffer, List.length_replicate]
    rfl

theorem exists_zeros (size : Nat) : ∃ buffer : List UInt8, buffer.length = size :=
  ⟨List.replicate size 0, List.length_replicate⟩

/-- A buffer from 2 GiB on that stays away from the limit is stored and answered wrongly. -/
theorem Uploading.write_far_answers_other {file : κ} {path : NativePath} {content : List UInt8}
    {w : VfsWorld SdCard κ} (up : Uploading file path false content [] w) {buffer : List UInt8}
    (hlow : 2 ^ 31 ≤ buffer.length) (hhigh : buffer.length ≤ 2 ^ 31 + 1) (rounds : Nat) :
    (ftp_vfs_write sdCard rounds file buffer w).2 ≠ some (buffer.length : Int) := by
  have hfar : ftpVfsAtPlainLimit ((([] : List UInt8).length : Int) + buffer.length) = false := by
    rw [List.length_nil, atPlainLimit_of_nonneg (by omega)]
    unfold allocationFor FTP_NATIVE_WRITE_CHUNK FTP_PLAIN_FILE_MAX
    rw [s64_of_range (by omega) (by omega)]
    exact decide_eq_false (by omega)
  obtain ⟨hresult, -⟩ := up.write_far (by rw [List.length_nil]; omega) hfar rounds
  rw [hresult]
  intro hsame
  have hlt := intOfSize_lt buffer.length
  have heq := Option.some.inj hsame
  omega

/-- A write of 2 GiB is stored and answers its size as a C `int`, a negative number. -/
theorem write_of_two_gib_answers_negative :
    ¬ ∀ buffers : List (List UInt8), (ftpWrites sdCard 3 (0 : Fin 4) buffers
        (ftp_vfs_open sdCard 0 (.path uploadPath) true .write emptyAdapter).1).2 =
      buffers.map (fun buffer => some (buffer.length : Int)) := by
  intro hall
  obtain ⟨ready, hroom⟩ := emptyAdapter_ready
  obtain ⟨-, hup⟩ := Uploading.ftp_vfs_open_ok ready hroom
  obtain ⟨buffer, hlength⟩ := exists_zeros (2 ^ 31)
  have hfull := hall [buffer]
  simp only [ftpWrites, List.map_cons, List.map_nil, List.cons.injEq, and_true] at hfull
  exact hup.write_far_answers_other hlength.ge (hlength.le.trans (Nat.le_succ _)) 3 hfull

end SysAgent
