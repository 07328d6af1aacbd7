import Mathlib
import SysAgent.Lib.Runs
import SysAgent.Ftp.Vfs

set_option autoImplicit false

/-! # Transfer bookkeeping

A run is a sequence of calls on the session handles over a native file system that answers
whatever it likes. `opened` is a ghost: the path and mode of every handle that was opened and for
which no close has been called since. `TransfersTracked` compares the side table and the counter
with it.

Two things break the bookkeeping: a handle that is opened again while it is open, and a close that
finds the open flag of an opened handle cleared (a conversion that could not reopen its file, or an
`ftp_vfs_open` that failed on an open handle): that close returns before it gives the slot and the
transfer back. -/

namespace SysAgent

open SlotTable

inductive FtpVfsCall (κ : Type)
  | open (file : κ) (path : Translation) (canMutate : Bool) (mode : FtpVfsOpenMode)
  | write (file : κ) (buffer : List UInt8) (rounds : Nat)
  | seek (file : κ) (offset : Nat)
  | read (file : κ) (size : Nat)
  | close (file : κ)

/-- The handles that were opened and for which no close has been called since. -/
abbrev OpenedHandles (κ : Type) := κ → Option (NativePath × FtpVfsOpenMode)

structure FtpTransfers (σ κ : Type) where
  world : VfsWorld σ κ
  opened : OpenedHandles κ

def Translation.bytes : Translation → Option NativePath
  | .path nativePath => some nativePath.bytes
  | _ => none

section

variable {σ κ : Type} [DecidableEq κ] (native : NativeFs σ)

def ftpTransfersStep (s : FtpTransfers σ κ) : FtpVfsCall κ → FtpTransfers σ κ
  | .open file path canMutate mode =>
    let opened := ftp_vfs_open native file path canMutate mode s.world
    { world := opened.1
      opened := if opened.2 = 0 then
          Function.update s.opened file (path.bytes.map fun bytes => (bytes, mode))
        else s.opened }
  | .write file buffer rounds =>
    { s with world := (ftp_vfs_write native rounds file buffer s.world).1 }
  | .seek file offset => { s with world := (ftp_vfs_seek file offset s.world).1 }
  | .read file size => { s with world := (ftp_vfs_read native file size s.world).1 }
  | .close file =>
    { world := (ftp_vfs_close native file s.world).1
      opened := Function.update s.opened file none }

end

/-- Before the first call: the session array and the side table are zeroed. -/
def ftpTransfersInitial {σ κ : Type} (fs : σ) : FtpTransfers σ κ where
  world := {
    fs := fs
    file := fun _ => .zero
    g_vfsState := List.replicate FTP_VFS_STATE_SLOTS ⟨none, ⟨[], false, false⟩⟩
    status := ⟨0, 0, 0, 0⟩
    errno := .none }
  opened := fun _ => none

section

variable {σ κ : Type} [DecidableEq κ] [Fintype κ]

/-- The side table and the counter agree with the handles that are open. -/
structure TransfersTracked (s : FtpTransfers σ κ) : Prop where
  oneSlot : ∀ file, (s.world.g_vfsState.filter fun slot => slot.key = some file).length ≤ 1
  slotOpened : ∀ slot ∈ s.world.g_vfsState, ∀ file, slot.key = some file →
    s.opened file ≠ none
  found : ∀ file path mode, s.opened file = some (path, mode) →
    ∃ slot, ftpVfsStateFind s.world.g_vfsState file = some slot ∧ slot.value.path = path ∧
      slot.value.truncatedOpen = decide (mode = .write)
  active : s.world.status.activeTransfers.toNat =
    (Finset.univ.filter fun file => s.opened file ≠ none).card

variable (native : NativeFs σ)

/-- An `ftp_vfs_open` is let through and all its native calls succeed. -/
def OpensTarget (file : κ) (path : Translation) (canMutate : Bool) (mode : FtpVfsOpenMode)
    (w : VfsWorld σ κ) : Prop :=
  ∃ nativePath, path = .path nativePath ∧ (mode = .read ∨ canMutate = true) ∧
    R_FAILED (openTarget native file nativePath.bytes mode w).2 = false

/-- The calls that keep the bookkeeping: an open handle is not opened again, and a close of an open
    handle finds its open flag. -/
def KeepsTransfers (s : FtpTransfers σ κ) : FtpVfsCall κ → Prop
  | .open file path canMutate mode =>
    s.opened file ≠ none → ¬ OpensTarget native file path canMutate mode s.world
  | .close file => s.opened file ≠ none → (s.world.file file).isOpen = true
  | _ => True

end

/-! ## What a call can change

`ledger` is the part of the world the bookkeeping is about; `frame file` adds the open flags of the
handles other than `file`. Every function below leaves the frame of its own handle alone. -/

section Frame

variable {σ κ : Type} [DecidableEq κ]

def FtpVfsTarget.tag (target : FtpVfsTarget) : NativePath × Bool :=
  (target.path, target.truncatedOpen)

def VfsWorld.ledger (w : VfsWorld σ κ) : List (Slot κ (NativePath × Bool)) × UInt32 :=
  (w.g_vfsState.map (mapValue FtpVfsTarget.tag), w.status.activeTransfers)

def VfsWorld.flags (w : VfsWorld σ κ) : κ → Bool := fun file => (w.file file).isOpen

def VfsWorld.frame (file : κ) (w : VfsWorld σ κ) :
    (List (Slot κ (NativePath × Bool)) × UInt32) × (κ → Bool) :=
  (w.ledger, Function.update w.flags file false)

variable (native : NativeFs σ) (file : κ) (w : VfsWorld σ κ)

@[simp] theorem frame_setErrno (errno : Errno) : (w.setErrno errno).frame file = w.frame file := rfl

@[simp] theorem frame_setFs (fs : σ) : (w.setFs fs).frame file = w.frame file := rfl

@[simp] theorem frame_setFile (value : FtpVfsFile) :
    (w.setFile file value).frame file = w.frame file := by
  unfold VfsWorld.frame
  refine Prod.ext rfl (funext fun other => ?_)
  by_cases h : other = file
  · simp [h]
  · simp [VfsWorld.flags, VfsWorld.setFile, h]

@[simp] theorem frame_setConcatenation (value : Bool) :
    (w.setConcatenation file value).frame file = w.frame file := by
  have hmodify := map_modify_of_invisible FtpVfsTarget.tag file
    (g := fun slot => { slot with value := { slot.value with concatenation := value } })
    (fun _ => rfl) w.g_vfsState
  unfold VfsWorld.frame
  refine Prod.ext (Prod.ext ?_ rfl) rfl
  exact hmodify

@[simp] theorem frame_recordFsResult (result : UInt32) :
    (ftpServerRecordFsResult result w).frame file = w.frame file := rfl

@[simp] theorem frame_bytesReceived (count : Nat) :
    (ftpServerBytesReceived count w).frame file = w.frame file := rfl

@[simp] theorem frame_bytesSent (count : Nat) :
    (ftpServerBytesSent count w).frame file = w.frame file := rfl

@[simp] theorem frame_setFsError (result : UInt32) :
    (setFsError result w).1.frame file = w.frame file := rfl

@[simp] theorem frame_nativeCall (call : σ → UInt32 × σ) :
    (nativeCall call w).1.frame file = w.frame file := rfl

@[simp] theorem frame_recordedCall (call : σ → UInt32 × σ) :
    (recordedCall call w).1.frame file = w.frame file := rfl

@[simp] theorem frame_fsFsOpenFile (path : NativePath) (mode : UInt32) :
    (fsFsOpenFile native file path mode w).1.frame file = w.frame file := by
  simp [fsFsOpenFile]

@[simp] theorem frame_fsFileClose : (fsFileClose native file w).frame file = w.frame file := by
  simp [fsFileClose]

@[simp] theorem frame_markOpen : (markOpen file w).frame file = w.frame file := by
  simp [markOpen]

@[simp] theorem frame_fsFileSetSize (size : Int) :
    (fsFileSetSize native file size w).1.frame file = w.frame file := rfl

@[simp] theorem frame_isConcatenationFile (path : NativePath) :
    (ftpVfsIsConcatenationFile native path w).1.frame file = w.frame file := by
  unfold ftpVfsIsConcatenationFile
  simp only
  split_ifs <;> simp

@[simp] theorem frame_refreshParentDirectory (path : NativePath) :
    (ftpVfsRefreshParentDirectory native path w).frame file = w.frame file := by
  unfold ftpVfsRefreshParentDirectory
  split
  · rfl
  · split_ifs <;> rfl

@[simp] theorem frame_undoConversion (path temp : NativePath) (partMoved directoryCreated : Bool) :
    (ftpVfsUndoConversion native path temp partMoved directoryCreated w).frame file =
      w.frame file := by
  unfold ftpVfsUndoConversion
  cases partMoved <;> cases directoryCreated <;> rfl

@[simp] theorem frame_reopenForWrite (path : NativePath) :
    (ftpVfsReopenForWrite native file path w).1.frame file = w.frame file := by
  unfold ftpVfsReopenForWrite
  simp only
  split_ifs <;> simp

@[simp] theorem frame_conversionFailed (path : NativePath) :
    (conversionFailed native file path w).1.frame file = w.frame file := by
  simp [conversionFailed]

@[simp] theorem frame_renameAside (path temp : NativePath) :
    (renameAside native path temp w).1.frame file = w.frame file := by
  unfold renameAside
  simp only
  split_ifs <;> simp

@[simp] theorem frame_convert (path : NativePath) :
    (ftpVfsConvertToConcatenationFile native file path w).1.frame file = w.frame file := by
  unfold ftpVfsConvertToConcatenationFile
  simp only
  split_ifs <;> simp

@[simp] theorem frame_writeChunk (buffer : List UInt8) :
    (ftpVfsWriteChunk native file buffer w).1.frame file = w.frame file := by
  unfold ftpVfsWriteChunk
  simp only
  split_ifs <;> simp

/-- A chunk does not touch any open flag. -/
theorem flags_writeChunk (buffer : List UInt8) :
    (ftpVfsWriteChunk native file buffer w).1.flags = w.flags := by
  unfold ftpVfsWriteChunk
  simp only
  split_ifs <;> first
    | rfl
    | (funext other
       by_cases h : other = file <;>
         simp [h, VfsWorld.flags, VfsWorld.setFile, VfsWorld.setFs, setFsError, fsFileSetSize,
           ftpServerRecordFsResult, ftpServerBytesReceived, VfsWorld.setErrno, nativeCall])

theorem frame_writeLoop (path : NativePath) (size rounds : Nat) (bytes : List UInt8)
    (w : VfsWorld σ κ) :
    (ftpVfsWriteLoop native file path size rounds bytes w).1.frame file = w.frame file := by
  induction rounds generalizing bytes w with
  | zero => rfl
  | succ rounds ih =>
    unfold ftpVfsWriteLoop
    simp only
    split_ifs <;> simp [ih]

@[simp] theorem frame_write (rounds : Nat) (buffer : List UInt8) :
    (ftp_vfs_write native rounds file buffer w).1.frame file = w.frame file := by
  unfold ftp_vfs_write
  simp only
  split
  · simp
  · split_ifs
    · simp
    · exact frame_writeLoop native file _ _ _ _ _

/-- Without an entry in the side table a write is a plain chunk. -/
theorem flags_write_of_no_state (rounds : Nat) (buffer : List UInt8)
    (hstate : ftpVfsStateFind w.g_vfsState file = none) :
    (ftp_vfs_write native rounds file buffer w).1.flags = w.flags := by
  unfold ftp_vfs_write
  simp only [hstate]
  exact flags_writeChunk native file w buffer

@[simp] theorem frame_createForWriting (path : NativePath) :
    (createForWriting native file path w).1.frame file = w.frame file := by
  unfold createForWriting
  simp only
  split_ifs <;> simp

@[simp] theorem frame_sizeForMode (mode : FtpVfsOpenMode) :
    (sizeForMode native file mode w).1.frame file = w.frame file := by
  cases mode <;> simp [sizeForMode]

@[simp] theorem frame_openTarget (path : NativePath) (mode : FtpVfsOpenMode) :
    (openTarget native file path mode w).1.frame file = w.frame file := by
  unfold openTarget
  simp only
  split_ifs <;> simp

theorem isOpen_createForWriting (path : NativePath) :
    ((createForWriting native file path w).1.file file).isOpen = (w.file file).isOpen := by
  have hprobe : (ftpVfsIsConcatenationFile native path w).1.file = w.file := by
    unfold ftpVfsIsConcatenationFile
    simp only
    split_ifs <;> rfl
  unfold createForWriting
  simp only
  split_ifs <;> simp [nativeCall, VfsWorld.setFs, VfsWorld.setFile, hprobe]

/-- An open that fails leaves the handle closed. -/
theorem isOpen_openTarget_of_failed (path : NativePath) (mode : FtpVfsOpenMode)
    (h : R_FAILED (openTarget native file path mode w).2 = true) :
    ((openTarget native file path mode w).1.file file).isOpen = false := by
  have hzero : ((w.setFile file .zero).file file).isOpen = false := by
    simp [VfsWorld.setFile, FtpVfsFile.zero]
  unfold openTarget at h ⊢
  simp only at h ⊢
  -- the target of a mode that writes is made before the handle is opened
  obtain ⟨created, hcreated, hclosed⟩ : ∃ created : VfsWorld σ κ × UInt32,
      (if mode = .read then (w.setFile file .zero, 0)
        else createForWriting native file path (w.setFile file .zero)) = created ∧
      (created.1.file file).isOpen = false := by
    refine ⟨_, rfl, ?_⟩
    by_cases hmode : mode = .read
    · rw [if_pos hmode]
      exact hzero
    · rw [if_neg hmode, isOpen_createForWriting, hzero]
  rw [hcreated] at h ⊢
  by_cases h1 : R_FAILED created.2 = true
  · rw [if_pos h1]
    exact hclosed
  · rw [if_neg h1] at h ⊢
    generalize (if mode = .read then FsOpenMode_Read else FsOpenMode_Write) = openMode at h ⊢
    by_cases h2 : R_FAILED (fsFsOpenFile native file path openMode created.1).2 = true
    · rw [if_pos h2]
      simpa [fsFsOpenFile, VfsWorld.setFile, VfsWorld.setFs] using hclosed
    · rw [if_neg h2] at h ⊢
      split_ifs at h ⊢
      · simp [fsFileClose, VfsWorld.setFile]
      · contradiction

end Frame

/-! ## The invariant -/

section Invariant

variable {σ κ : Type} [DecidableEq κ]

/-- What the side table has to say of the open handles. -/
def OpenedHandles.tags (opened : OpenedHandles κ) : κ → Option (NativePath × Bool) :=
  fun file => (opened file).map fun target => (target.1, decide (target.2 = .write))

omit [DecidableEq κ] in
theorem OpenedHandles.tags_eq_none {opened : OpenedHandles κ} {file : κ} :
    opened.tags file = none ↔ opened file = none := by
  simp [OpenedHandles.tags]

theorem OpenedHandles.tags_update (opened : OpenedHandles κ) (file : κ)
    (target : Option (NativePath × FtpVfsOpenMode)) :
    OpenedHandles.tags (Function.update opened file target) =
      Function.update opened.tags file
        (target.map fun target => (target.1, decide (target.2 = .write))) := by
  funext other
  by_cases h : other = file
  · subst h
    simp [OpenedHandles.tags]
  · simp [OpenedHandles.tags, h]

variable [Fintype κ]

def OpenedHandles.count (opened : OpenedHandles κ) : Nat :=
  (Finset.univ.filter fun file => opened file ≠ none).card

omit [DecidableEq κ] in
theorem OpenedHandles.count_le (opened : OpenedHandles κ) : opened.count ≤ Fintype.card κ :=
  Finset.card_le_univ _

theorem OpenedHandles.count_insert {opened : OpenedHandles κ} {file : κ}
    (hclosed : opened file = none) (target : NativePath × FtpVfsOpenMode) :
    OpenedHandles.count (Function.update opened file (some target)) = opened.count + 1 := by
  have hset : (Finset.univ.filter fun other =>
        Function.update opened file (some target) other ≠ none) =
      insert file (Finset.univ.filter fun other => opened other ≠ none) := by
    ext other
    by_cases h : other = file
    · simp [h]
    · simp [h]
  unfold OpenedHandles.count
  rw [hset, Finset.card_insert_of_notMem (by simp [hclosed])]

theorem OpenedHandles.count_erase {opened : OpenedHandles κ} {file : κ}
    (hopen : opened file ≠ none) :
    OpenedHandles.count (Function.update opened file none) + 1 = opened.count := by
  have hset : (Finset.univ.filter fun other => Function.update opened file none other ≠ none) =
      (Finset.univ.filter fun other => opened other ≠ none).erase file := by
    ext other
    by_cases h : other = file
    · simp [h]
    · simp [h]
  unfold OpenedHandles.count
  rw [hset, Finset.card_erase_add_one (by simpa using hopen)]

omit [Fintype κ] in
theorem OpenedHandles.update_of_closed {opened : OpenedHandles κ} {file : κ}
    (hclosed : opened file = none) : Function.update opened file none = opened := by
  rw [← hclosed, Function.update_eq_self]

/-- The invariant: the table is the map of the open handles, the counter their number, and a handle
    that is not open does not look open. -/
structure TransfersInv (s : FtpTransfers σ κ) : Prop where
  holds : Holds s.world.ledger.1 s.opened.tags
  slots : s.world.ledger.1.length = FTP_VFS_STATE_SLOTS
  active : s.world.ledger.2.toNat = s.opened.count
  closed : ∀ file, s.opened file = none → s.world.flags file = false

omit [Fintype κ] in
theorem ledger_find (w : VfsWorld σ κ) (file : κ) :
    find w.ledger.1 file = (ftpVfsStateFind w.g_vfsState file).map (mapValue FtpVfsTarget.tag) :=
  find_map _ _ _

theorem TransfersInv.tracked {s : FtpTransfers σ κ} (inv : TransfersInv s) :
    TransfersTracked s where
  oneSlot := fun file => by
    have hone := inv.holds.count_le_one file
    unfold VfsWorld.ledger at hone
    rw [List.filter_map, List.length_map] at hone
    exact hone
  slotOpened := fun slot hslot file hkey => by
    have howner : file ∈ owners s.world.ledger.1 :=
      mem_owners.2 ⟨mapValue FtpVfsTarget.tag slot, List.mem_map_of_mem hslot, hkey⟩
    rw [inv.holds.mem_owners_iff] at howner
    exact fun hclosed => howner (OpenedHandles.tags_eq_none.2 hclosed)
  found := fun file path mode hopen => by
    have hfind := inv.holds.find file
    rw [ledger_find, Option.map_map] at hfind
    simp only [OpenedHandles.tags, hopen, Option.map_some] at hfind
    obtain ⟨slot, hslot, heq⟩ := Option.map_eq_some_iff.1 hfind
    have hpath := congrArg Prod.fst heq
    have hmode := congrArg Prod.snd heq
    exact ⟨slot, hslot, hpath, hmode⟩
  active := inv.active

omit [DecidableEq κ] in
theorem transfersInv_initial (fs : σ) :
    TransfersInv (ftpTransfersInitial fs : FtpTransfers σ κ) where
  holds := by
    refine ⟨by simp [owners, ftpTransfersInitial, VfsWorld.ledger, mapValue], ?_⟩
    intro k v
    simp [entries, ftpTransfersInitial, VfsWorld.ledger, mapValue, OpenedHandles.tags]
  slots := by simp [ftpTransfersInitial, VfsWorld.ledger]
  active := by simp [ftpTransfersInitial, VfsWorld.ledger, OpenedHandles.count]
  closed := fun _ _ => rfl

/-- A call that leaves the frame of its handle alone keeps the invariant when the handle is open,
    or when it leaves its open flag alone too. -/
theorem TransfersInv.of_frame {s : FtpTransfers σ κ} (inv : TransfersInv s) (file : κ)
    {w : VfsWorld σ κ} (hframe : w.frame file = s.world.frame file)
    (hflag : s.opened file = none → w.flags file = false) :
    TransfersInv { s with world := w } where
  holds := by
    rw [show w.ledger = s.world.ledger from congrArg Prod.fst hframe]
    exact inv.holds
  slots := by
    rw [show w.ledger = s.world.ledger from congrArg Prod.fst hframe]
    exact inv.slots
  active := by
    rw [show w.ledger = s.world.ledger from congrArg Prod.fst hframe]
    exact inv.active
  closed := fun other hclosed => by
    by_cases h : other = file
    · subst h
      exact hflag hclosed
    · have hother := congrFun (congrArg Prod.snd hframe) other
      simp only [VfsWorld.frame, Function.update_of_ne h] at hother
      rw [hother]
      exact inv.closed other hclosed

/-! ## The calls -/

variable (native : NativeFs σ)

theorem TransfersInv.find_none {s : FtpTransfers σ κ} (inv : TransfersInv s) {file : κ}
    (hclosed : s.opened file = none) : ftpVfsStateFind s.world.g_vfsState file = none := by
  have hfind := inv.holds.find file
  rw [OpenedHandles.tags_eq_none.2 hclosed, Option.map_eq_none_iff, ledger_find,
    Option.map_eq_none_iff] at hfind
  exact hfind

theorem TransfersInv.write {s : FtpTransfers σ κ} (inv : TransfersInv s) (file : κ)
    (buffer : List UInt8) (rounds : Nat) :
    TransfersInv (ftpTransfersStep native s (.write file buffer rounds)) := by
  refine inv.of_frame file (frame_write native file s.world rounds buffer) fun hclosed => ?_
  rw [flags_write_of_no_state native file s.world rounds buffer (inv.find_none hclosed)]
  exact inv.closed file hclosed

theorem TransfersInv.seek {s : FtpTransfers σ κ} (inv : TransfersInv s) (file : κ)
    (offset : Nat) : TransfersInv (ftpTransfersStep native s (.seek file offset)) := by
  refine inv.of_frame file ?_ fun hclosed => ?_
  · unfold ftp_vfs_seek
    split_ifs <;> simp
  · have hflag := inv.closed file hclosed
    unfold ftp_vfs_seek
    split_ifs
    · exact hflag
    · exact hflag
    · simpa [VfsWorld.flags, VfsWorld.setFile] using hflag

theorem TransfersInv.read {s : FtpTransfers σ κ} (inv : TransfersInv s) (file : κ)
    (size : Nat) : TransfersInv (ftpTransfersStep native s (.read file size)) := by
  refine inv.of_frame file ?_ fun hclosed => ?_
  · unfold ftp_vfs_read
    simp only
    split_ifs <;> simp
  · have hflag := inv.closed file hclosed
    unfold ftp_vfs_read
    simp only
    split_ifs
    · exact hflag
    · simpa [VfsWorld.flags, VfsWorld.setFile, VfsWorld.setFs, ftpServerBytesSent] using hflag

/-- An open that does not reach the bookkeeping. -/
theorem TransfersInv.open_of_failed {s : FtpTransfers σ κ} (inv : TransfersInv s) {file : κ}
    {path : Translation} {canMutate : Bool} {mode : FtpVfsOpenMode}
    (hfailed : ¬ OpensTarget native file path canMutate mode s.world) :
    TransfersInv (ftpTransfersStep native s (.open file path canMutate mode)) := by
  have hresult : (ftp_vfs_open native file path canMutate mode s.world).2 ≠ 0 ∧
      (ftp_vfs_open native file path canMutate mode s.world).1.frame file =
        s.world.frame file ∧
      (s.opened file = none →
        (ftp_vfs_open native file path canMutate mode s.world).1.flags file = false) := by
    cases path with
    | refused => exact ⟨by simp [ftp_vfs_open], rfl, inv.closed file⟩
    | unmapped => exact ⟨by simp [ftp_vfs_open], rfl, inv.closed file⟩
    | path nativePath =>
      by_cases hlet : mode ≠ .read ∧ canMutate = false
      · simp only [ftp_vfs_open, if_pos hlet]
        exact ⟨by decide, rfl, inv.closed file⟩
      · have hallowed : mode = .read ∨ canMutate = true := by
          by_cases hmode : mode = .read
          · exact Or.inl hmode
          · exact Or.inr (by simpa using fun hmut => hlet ⟨hmode, hmut⟩)
        have htarget : R_FAILED (openTarget native file nativePath.bytes mode s.world).2 =
            true := by
          by_contra hok
          exact hfailed ⟨nativePath, rfl, hallowed, by simpa using hok⟩
        simp only [ftp_vfs_open, if_neg hlet, htarget, if_true]
        refine ⟨by simp [setFsError], by simp, fun _ => ?_⟩
        exact isOpen_openTarget_of_failed native file s.world nativePath.bytes mode htarget
  obtain ⟨hminus, hframe, hflag⟩ := hresult
  unfold ftpTransfersStep
  simp only [if_neg hminus]
  exact inv.of_frame file hframe hflag

omit [Fintype κ] in
/-- An open that succeeds stores its entry and counts the transfer. -/
theorem ledger_open {s : FtpTransfers σ κ} {file : κ} {path : Translation} {canMutate : Bool}
    {mode : FtpVfsOpenMode} {nativePath : TranslatedPath} (hpath : path = .path nativePath)
    (hallowed : mode = .read ∨ canMutate = true)
    (hok : R_FAILED (openTarget native file nativePath.bytes mode s.world).2 = false) :
    (ftpTransfersStep native s (.open file path canMutate mode)).opened =
        Function.update s.opened file (some (nativePath.bytes, mode)) ∧
      (ftpTransfersStep native s (.open file path canMutate mode)).world.ledger =
        ((store file ⟨some file, (nativePath.bytes, decide (mode = .write))⟩
          s.world.ledger.1).1, s.world.ledger.2 + 1) ∧
      ∀ other, other ≠ file →
        (ftpTransfersStep native s (.open file path canMutate mode)).world.flags other =
          s.world.flags other := by
  subst hpath
  have hlet : ¬ (mode ≠ .read ∧ canMutate = false) := by
    rintro ⟨hmode, hmut⟩
    rcases hallowed with h | h
    · exact hmode h
    · rw [hmut] at h
      exact Bool.false_ne_true h
  have hframe := frame_openTarget native file s.world nativePath.bytes mode
  have hledger : (openTarget native file nativePath.bytes mode s.world).1.ledger =
      s.world.ledger := congrArg Prod.fst hframe
  have hentry : mapValue FtpVfsTarget.tag
        (ftpVfsStateEntry file nativePath.bytes (decide (mode = .write))) =
      ⟨some file, (nativePath.bytes, decide (mode = .write))⟩ := by
    have hfits := nativePath.fits
    have hlength : ¬ (nativePath.bytes = [] ∨ FS_MAX_PATH ≤ nativePath.bytes.length) := by
      rintro (h | h)
      · exact nativePath.nonempty h
      · omega
    have htake : nativePath.bytes.take (FS_MAX_PATH - 1) = nativePath.bytes :=
      List.take_of_length_le (by omega)
    simp [ftpVfsStateEntry, mapValue, FtpVfsTarget.tag, hlength, htake]
  simp only [ftpTransfersStep, ftp_vfs_open, if_neg hlet, hok, Bool.false_eq_true, if_false,
    if_true, Translation.bytes, Option.map_some]
  refine ⟨trivial, ?_, ?_⟩
  · rw [← hledger]
    refine Prod.ext ?_ rfl
    have hstore := map_store FtpVfsTarget.tag file
      (ftpVfsStateEntry file nativePath.bytes (decide (mode = .write)))
      (openTarget native file nativePath.bytes mode s.world).1.g_vfsState
    rw [hentry] at hstore
    exact hstore
  · intro other hother
    have hflag := congrFun (congrArg Prod.snd hframe) other
    simp only [VfsWorld.frame, Function.update_of_ne hother] at hflag
    exact hflag

/-- Adding one transfer does not wrap the counter. -/
theorem toNat_add_one {n : UInt32} (h : n.toNat ≤ 8) : (n + 1).toNat = n.toNat + 1 := by
  rw [UInt32.toNat_add]
  simp only [UInt32.toNat_one]
  omega

theorem TransfersInv.open_of_closed {s : FtpTransfers σ κ} (inv : TransfersInv s)
    (hroom : Fintype.card κ < FTP_VFS_STATE_SLOTS) {file : κ} {path : Translation}
    {canMutate : Bool} {mode : FtpVfsOpenMode}
    (hok : OpensTarget native file path canMutate mode s.world) (hclosed : s.opened file = none) :
    TransfersInv (ftpTransfersStep native s (.open file path canMutate mode)) := by
  obtain ⟨nativePath, hpath, hallowed, hresult⟩ := hok
  obtain ⟨hopened, hledger, hflags⟩ := ledger_open native hpath hallowed hresult
  have hcount := s.opened.count_le
  have hfree := inv.holds.exists_free (by rw [inv.slots]; exact hroom)
  constructor
  · rw [hledger, hopened, OpenedHandles.tags_update]
    exact inv.holds.store file _ (OpenedHandles.tags_eq_none.2 hclosed) hfree
  · rw [hledger, length_store]
    exact inv.slots
  · have hactive := inv.active
    unfold FTP_VFS_STATE_SLOTS at hroom
    rw [hledger, hopened, OpenedHandles.count_insert hclosed, toNat_add_one (by omega), hactive]
  · intro other hother
    rw [hopened] at hother
    by_cases h : other = file
    · subst h
      simp at hother
    · rw [Function.update_of_ne h] at hother
      rw [hflags other h]
      exact inv.closed other hother

omit [Fintype κ] in
/-- A close that finds the open flag gives the slot and the transfer back. -/
theorem ledger_close {w : VfsWorld σ κ} {file : κ} (hflag : (w.file file).isOpen = true) :
    (ftp_vfs_close native file w).1.ledger = (release file w.ledger.1,
        if w.ledger.2 ≠ 0 then w.ledger.2 - 1 else w.ledger.2) ∧
      (ftp_vfs_close native file w).1.flags = Function.update w.flags file false := by
  unfold ftp_vfs_close
  simp only [hflag, Bool.true_eq_false, if_false]
  obtain ⟨sized, hsized, hledger, hflags⟩ : ∃ sized : VfsWorld σ κ,
      (if (w.file file).writable = true then
          (nativeCall (native.flush
              ((fsFileSetSize native file (w.file file).offset w).1.file file).file)
            (fsFileSetSize native file (w.file file).offset w).1).1
        else w) = sized ∧ sized.ledger = w.ledger ∧ sized.flags = w.flags := by
    refine ⟨_, rfl, ?_⟩
    split_ifs <;> exact ⟨rfl, rfl⟩
  rw [hsized, ← hledger, ← hflags]
  constructor
  · unfold ftpServerTransferClosed
    split_ifs with h1 h2
    · exact Prod.ext (map_release FtpVfsTarget.tag file _) rfl
    · exact absurd h1 h2
    · exact absurd (by assumption) h1
    · exact Prod.ext (map_release FtpVfsTarget.tag file _) rfl
  · have hclose : ∀ v : VfsWorld σ κ, (ftpServerTransferClosed v).flags = v.flags := by
      intro v
      unfold ftpServerTransferClosed
      split_ifs <;> rfl
    rw [hclose]
    funext other
    by_cases h : other = file
    · subst h
      simp [VfsWorld.flags, ftpVfsStateRelease, fsFileClose, VfsWorld.setFile]
    · simp [VfsWorld.flags, ftpVfsStateRelease, fsFileClose, VfsWorld.setFile, VfsWorld.setFs, h]

omit [Fintype κ] in
theorem ftp_vfs_close_of_flag {w : VfsWorld σ κ} {file : κ}
    (hflag : (w.file file).isOpen = false) : (ftp_vfs_close native file w).1 = w := by
  simp [ftp_vfs_close, hflag]

theorem TransfersInv.close {s : FtpTransfers σ κ} (inv : TransfersInv s) {file : κ}
    (hflag : s.opened file ≠ none → (s.world.file file).isOpen = true) :
    TransfersInv (ftpTransfersStep native s (.close file)) := by
  by_cases hclosed : s.opened file = none
  · have hsame : ftpTransfersStep native s (.close file) = s := by
      simp only [ftpTransfersStep, ftp_vfs_close_of_flag native (inv.closed file hclosed),
        OpenedHandles.update_of_closed hclosed]
    rw [hsame]
    exact inv
  · obtain ⟨hledger, hflags⟩ := ledger_close native (hflag hclosed)
    have hcount := OpenedHandles.count_erase hclosed
    have hactive := inv.active
    have hpositive : s.world.ledger.2 ≠ 0 := by
      intro hzero
      rw [hzero] at hactive
      simp only [UInt32.toNat_zero] at hactive
      omega
    rw [if_pos hpositive] at hledger
    constructor
    · have hholds := inv.holds.release file
      simp only [ftpTransfersStep, hledger, OpenedHandles.tags_update, Option.map_none]
      exact hholds
    · simp only [ftpTransfersStep, hledger, length_release]
      exact inv.slots
    · simp only [ftpTransfersStep, hledger]
      have hle : (1 : UInt32) ≤ s.world.ledger.2 := by
        rw [UInt32.le_iff_toNat_le, UInt32.toNat_one]
        omega
      rw [UInt32.toNat_sub_of_le _ _ hle, UInt32.toNat_one]
      omega
    · intro other hother
      simp only [ftpTransfersStep] at hother ⊢
      rw [hflags]
      by_cases h : other = file
      · simp [h]
      · rw [Function.update_of_ne h] at hother ⊢
        exact inv.closed other hother

/-- Every call within the condition keeps the invariant. -/
theorem transfersInv_step (hroom : Fintype.card κ < FTP_VFS_STATE_SLOTS) (s : FtpTransfers σ κ)
    (call : FtpVfsCall κ) (inv : TransfersInv s) (hkeeps : KeepsTransfers native s call) :
    TransfersInv (ftpTransfersStep native s call) := by
  cases call with
  | «open» file path canMutate mode =>
    by_cases hok : OpensTarget native file path canMutate mode s.world
    · refine inv.open_of_closed native hroom hok ?_
      by_contra hopen
      exact hkeeps hopen hok
    · exact inv.open_of_failed native hok
  | write file buffer rounds => exact inv.write native file buffer rounds
  | seek file offset => exact inv.seek native file offset
  | read file size => exact inv.read native file size
  | close file => exact inv.close native hkeeps

/-- Any other call breaks the bookkeeping. -/
theorem not_tracked_of_not_keeps (hroom : Fintype.card κ < FTP_VFS_STATE_SLOTS)
    (s : FtpTransfers σ κ) (call : FtpVfsCall κ) (inv : TransfersInv s)
    (hbreaks : ¬ KeepsTransfers native s call) :
    ¬ TransfersTracked (ftpTransfersStep native s call) := by
  intro tracked
  cases call with
  | «open» file path canMutate mode =>
    simp only [KeepsTransfers, not_forall, not_not] at hbreaks
    obtain ⟨hopen, nativePath, hpath, hallowed, hresult⟩ := hbreaks
    obtain ⟨hopened, hledger, -⟩ := ledger_open native hpath hallowed hresult
    -- the counter goes up, the set of open handles stays
    have hactive := tracked.active
    have hsame : (Finset.univ.filter fun other =>
        Function.update s.opened file (some (nativePath.bytes, mode)) other ≠ none) =
        Finset.univ.filter fun other => s.opened other ≠ none := by
      ext other
      by_cases h : other = file
      · subst h
        simpa using hopen
      · simp [h]
    have hcount := s.opened.count_le
    have hbefore := inv.active
    have hcounter := congrArg Prod.snd hledger
    simp only [VfsWorld.ledger] at hcounter hbefore
    unfold FTP_VFS_STATE_SLOTS at hroom
    rw [hopened, hsame, hcounter, toNat_add_one (by omega), hbefore] at hactive
    unfold OpenedHandles.count at hactive
    omega
  | close file =>
    simp only [KeepsTransfers, not_forall, Bool.not_eq_true] at hbreaks
    obtain ⟨hopen, hflag⟩ := hbreaks
    -- the slot of the handle is still there
    obtain ⟨⟨path, mode⟩, htarget⟩ := Option.ne_none_iff_exists'.1 hopen
    obtain ⟨slot, hfind, -⟩ := inv.tracked.found file path mode htarget
    have hkey := (find_mem_entries hfind).1
    have hmem : slot ∈ (ftpTransfersStep native s (.close file)).world.g_vfsState := by
      simp only [ftpTransfersStep, ftp_vfs_close_of_flag native hflag]
      exact List.mem_of_find?_eq_some hfind
    exact tracked.slotOpened slot hmem file hkey (by simp [ftpTransfersStep])
  | _ => exact hbreaks trivial

end Invariant

/-! ## Bookkeeping -/

/-- The side table and the counter agree with the open handles in every state of a run exactly when
    no call of it opens an open handle again or closes an open handle whose open flag is lost. -/
theorem ftp_transfers_tracked_iff {σ : Type} (native : NativeFs σ) (fs : σ)
    (calls : List (FtpVfsCall (Fin 4))) :
    Runs.Always (ftpTransfersStep native) TransfersTracked (ftpTransfersInitial fs) calls ↔
      Runs.EachStep (ftpTransfersStep native) (KeepsTransfers native) (ftpTransfersInitial fs)
        calls := by
  have hroom : Fintype.card (Fin 4) < FTP_VFS_STATE_SLOTS := by decide
  exact Runs.always_iff_eachStep_unbounded (transfersInv_step native hroom)
    (fun _ inv => inv.tracked) (not_tracked_of_not_keeps native hroom)
    (transfersInv_initial fs)

/-- A file system on which a converted file does not open again; its state says whether the
    conversion has been made. -/
def reopenRefused : NativeFs Bool where
  createFile := fun _ s => (0, s)
  deleteFile := fun _ s => (0, s)
  renameFile := fun _ _ s => (0, s)
  createDirectory := fun _ s => (0, s)
  deleteDirectory := fun _ s => (0, s)
  setConcatenationFileAttribute := fun _ _ => (0, true)
  walkDirectory := fun _ s => s
  openFile := fun path _ s => if s || path.length = 5 then (0x202, 0, s) else (0, 1, s)
  closeFile := fun _ s => s
  getSize := fun _ s => (0, FTP_PLAIN_FILE_MAX, s)
  setSize := fun _ _ s => (0, s)
  flush := fun _ s => (0, s)
  read := fun _ _ _ s => (0, [], s)
  write := fun _ _ _ s => (0, s)

/-- An upload appended to the path `/a` crosses the limit, the converted file does not open again,
    and the close that follows leaves the slot and the transfer behind. -/
theorem close_after_refused_reopen_leaks :
    ¬ TransfersTracked (Runs.run (ftpTransfersStep reopenRefused)
      (ftpTransfersInitial false : FtpTransfers Bool (Fin 4))
      [.open 0 (.path ⟨[0x2F, 0x61], by decide, by decide⟩) true .append, .write 0 [0x00] 2,
        .close 0]) := by
  intro tracked
  have hactive := tracked.active
  exact absurd hactive (by decide)

end SysAgent
