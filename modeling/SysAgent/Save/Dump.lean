import SysAgent.Console.Numbers
import SysAgent.Console.StatusLines
import SysAgent.Ftp.Config
import SysAgent.Save.Complete

set_option autoImplicit false

/-! # Backing up a system save (`system_commands.c`)

`systemSaveDump` makes a directory for the backup, mounts the save, copies it there and writes a
manifest beside it. It answers `OK` behind a copy that returned true. -/

namespace SysAgent

open FileTree FieldLine

/-! ## The command -/

def backupNameByte (c : UInt8) : Bool :=
  (0x61 ≤ c && c ≤ 0x7A) || (0x41 ≤ c && c ≤ 0x5A) || (0x30 ≤ c && c ≤ 0x39) || c == 0x2D ||
    c == 0x5F || c == 0x2E

def validBackupName (name : List UInt8) : Bool :=
  if name.length = 0 ∨ 64 < name.length then false
  else if !name.all backupNameByte then false
  else name != [0x2E] && name != [0x2E, 0x2E]

def saveBufferSize : Nat := 64 * 1024

def backupRoot : NativePath := ascii "sdmc:/switch/sys-agent/backups"

def syssave : NativePath := ascii "syssave:/"

/-- `snprintf` of `"%s/%.64s"`. -/
def backupPath (name : List UInt8) : NativePath := backupRoot ++ 0x2F :: name.take 64

def manifestPath (name : List UInt8) : NativePath := backupPath name ++ ascii ".manifest.txt"

/-- What the console answers to the calls of the command, the save included. -/
structure SaveConsole where
  /-- `stat(backupPath)` finds something. -/
  backupExists : Bool
  /-- `errno`, where `mkdir(backupPath)` fails. -/
  mkdirErrno : Option Nat
  openReadOnly : UInt32
  openSystem : UInt32
  mounts : Bool
  /-- `malloc` finds room for the buffer. -/
  buffer : Bool
  opendir : Bool
  listing : SaveListing
  unmounts : Bool
  /-- `errno` behind the copy and `fsdevUnmountDevice`. -/
  errno : Nat
  commitSave : UInt32
  manifestOpenErrno : Option Nat
  manifestCloseErrno : Option Nat
  commitManifest : UInt32

inductive DumpReply
  | ok (saveId files bytes : UInt64) (path : NativePath)
  | invalidArguments
  | alreadyExists (path : NativePath)
  | createDirectoryFailed (path : NativePath) (errno : Nat)
  | openSystemSaveFailed (saveId : UInt64) (readOnlyResult systemResult : UInt32)
  | mountSystemSaveFailed (saveId : UInt64)
  | copySystemSaveFailed (path : NativePath) (errno : Nat)
  | unmountFailed (path : NativePath) (errno : Nat)
  | commitFailed (stage : String) (result : UInt32) (path : NativePath)
  | pathTooLong
  | manifestWriteFailed (path : NativePath) (errno : Nat)

/-- `%s` of a path. -/
def pathText (path : NativePath) : List Char := path.map fun b => Char.ofNat b.toNat

/-- What `printf` prints. -/
def DumpReply.line : DumpReply → Line
  | .ok saveId files bytes path =>
    { ok := true
      fields := [field "saveId" (hex16 saveId), field "files" (dec files.toNat),
        field "bytes" (dec bytes.toNat), field "path" (pathText path)] }
  | .invalidArguments => errorLine "INVALID_ARGUMENTS" []
  | .alreadyExists path => errorLine "ALREADY_EXISTS" [field "path" (pathText path)]
  | .createDirectoryFailed path errno =>
    errorLine "CREATE_DIRECTORY_FAILED" [field "path" (pathText path), field "errno" (dec errno)]
  | .openSystemSaveFailed saveId readOnlyResult systemResult =>
    errorLine "OPEN_SYSTEM_SAVE_FAILED" [field "saveId" (hex16 saveId),
      field "readOnlyResult" (hex readOnlyResult.toNat),
      field "systemResult" (hex systemResult.toNat)]
  | .mountSystemSaveFailed saveId =>
    errorLine "MOUNT_SYSTEM_SAVE_FAILED" [field "saveId" (hex16 saveId)]
  | .copySystemSaveFailed path errno =>
    errorLine "COPY_SYSTEM_SAVE_FAILED" [field "path" (pathText path), field "errno" (dec errno)]
  | .unmountFailed path errno =>
    errorLine "UNMOUNT_FAILED" [field "path" (pathText path), field "errno" (dec errno)]
  | .commitFailed stage result path =>
    errorLine "COMMIT_FAILED" [field "stage" stage.toList, field "result" (hex result.toNat),
      field "path" (pathText path)]
  | .pathTooLong => errorLine "PATH_TOO_LONG" []
  | .manifestWriteFailed path errno =>
    errorLine "MANIFEST_WRITE_FAILED" [field "path" (pathText path), field "errno" (dec errno)]

/-- `fprintf` into the manifest. -/
def manifestText (saveId files bytes : UInt64) (path : NativePath) : List Char :=
  "systemSaveId=".toList ++ hex16 saveId ++ "\nfiles=".toList ++ dec files.toNat ++
    "\nbytes=".toList ++ dec bytes.toNat ++ "\npath=".toList ++ pathText path ++ ['\n']

variable {κ : Type}

/-- A new directory and counters at zero. -/
def CopyState.start : CopyState κ :=
  { card := Tree.empty, fileCount := 0, byteCount := 0, opened := [] }

/-- The answer, what stands below the backup's directory, and the manifest. -/
structure DumpResult (κ : Type) where
  reply : DumpReply
  backup : CopyState κ
  manifest : Option (List Char)

/-- Up to the mount: the save's id, or the answer that refuses. -/
def prepareDump (saveIdText name : List UInt8) (console : SaveConsole) : Except DumpReply UInt64 :=
  match tryParseStringToInt saveIdText with
  | none => .error .invalidArguments
  | some saveId =>
    if saveId = 0 ∨ validBackupName name = false then .error .invalidArguments
    else if 160 ≤ (backupPath name).length then .error .invalidArguments
    else if console.backupExists then .error (.alreadyExists (backupPath name))
    else
      match console.mkdirErrno with
      | some errno => .error (.createDirectoryFailed (backupPath name) errno)
      | none =>
        if R_FAILED console.openReadOnly && R_FAILED console.openSystem then
          .error (.openSystemSaveFailed saveId console.openReadOnly console.openSystem)
        else if !console.mounts then .error (.mountSystemSaveFailed saveId)
        else .ok saveId

/-- Behind a copy that returned true: the answer and the manifest. -/
def finishDump (saveId : UInt64) (name : List UInt8) (s : CopyState κ) (console : SaveConsole) :
    DumpReply × Option (List Char) :=
  if !console.unmounts then (.unmountFailed (backupPath name) console.errno, none)
  else if R_FAILED console.commitSave then
    (.commitFailed "save-data" console.commitSave (backupPath name), none)
  else if 192 ≤ (manifestPath name).length then (.pathTooLong, none)
  else
    match console.manifestOpenErrno with
    | some errno => (.manifestWriteFailed (manifestPath name) errno, none)
    | none =>
      let manifest := manifestText saveId s.fileCount s.byteCount (backupPath name)
      match console.manifestCloseErrno with
      | some errno => (.manifestWriteFailed (manifestPath name) errno, some manifest)
      | none =>
        if R_FAILED console.commitManifest then
          (.commitFailed "manifest" console.commitManifest (manifestPath name), some manifest)
        else (.ok saveId s.fileCount s.byteCount (backupPath name), some manifest)

variable [DecidableEq κ] (spelling : EntryName → κ)

/-- The command's call of `copyDirectoryTree`. -/
def copySave (name : List UInt8) (console : SaveConsole) : Except (CopyState κ) (CopyState κ) :=
  copyDirectoryTree spelling saveBufferSize console.opendir console.listing syssave
    (backupPath name) [] 0 CopyState.start

def systemSaveDump (saveIdText name : List UInt8) (console : SaveConsole) : DumpResult κ :=
  match prepareDump saveIdText name console with
  | .error reply => { reply := reply, backup := .start, manifest := none }
  | .ok saveId =>
    match if console.buffer then copySave spelling name console else .error .start with
    | .error s =>
      { reply := .copySystemSaveFailed (backupPath name) console.errno
        backup := s
        manifest := none }
    | .ok s =>
      let (reply, manifest) := finishDump saveId name s console
      { reply := reply, backup := s, manifest := manifest }

/-! ## The law -/

omit [DecidableEq κ] in
/-- Every file and directory of the save stands in the backup, and the counters are right. -/
structure CompleteCopy (listing : SaveListing) (s : CopyState κ) : Prop where
  entries : Holds s.card (listing.items spelling [])
  fileCount : s.fileCount.toNat = listing.sizes.length
  byteCount : s.byteCount.toNat = listing.sizes.sum

/-- A copy that returns true is complete, the command answers `OK` only behind such a copy and with
    its counts, and no directory is opened below the limit. -/
structure BackupLaw (saveIdText name : List UInt8) (console : SaveConsole) : Prop where
  copied : ∀ s, copySave spelling name console = .ok s →
    CompleteCopy spelling console.listing s
  answered : ∀ saveId files bytes path,
    (systemSaveDump spelling saveIdText name console).reply = .ok saveId files bytes path →
      CompleteCopy spelling console.listing
          (systemSaveDump spelling saveIdText name console).backup ∧
        files.toNat = console.listing.sizes.length ∧ bytes.toNat = console.listing.sizes.sum
  limited : ∀ depth ∈ (stateOf (copySave spelling name console)).opened, depth ≤ 32

/-- No call of the copy fails on what `readdir` shows. -/
def CopyUndisturbed (name : List UInt8) (console : SaveConsole) : Prop :=
  console.opendir = true ∧
    console.listing.Undisturbed saveBufferSize syssave (backupPath name) 0

/-- The card takes what `readdir` shows in its order. -/
def Creatable (listing : SaveListing) : Prop :=
  (Tree.empty.placeAll (listing.shown.items spelling [])).isSome

omit [DecidableEq κ] in
/-- `readdir` hides no file, and no directory but one that shares its path with a shown entry. -/
structure FullyShown (listing : SaveListing) : Prop where
  files : listing.shown.sizes = listing.sizes
  paths : ∀ item ∈ listing.items spelling [],
    ∃ shown ∈ listing.shown.items spelling [], shown.path = item.path

/-- The counts fit into the counters. -/
def Countable (listing : SaveListing) : Prop :=
  listing.sizes.length < 2 ^ 64 ∧ listing.sizes.sum < 2 ^ 64

/-! ## The answer -/

/-- A command that goes no further does not answer `OK`. -/
theorem prepareDump_error {saveIdText name : List UInt8} {console : SaveConsole}
    {saveId files bytes : UInt64} {path : NativePath} :
    prepareDump saveIdText name console ≠ .error (.ok saveId files bytes path) := by
  intro h
  unfold prepareDump at h
  split at h
  · cases h
  split at h
  · cases h
  split at h
  · cases h
  split at h
  · cases h
  split at h
  · cases h
  split at h
  · cases h
  split at h
  · cases h
  · cases h

omit [DecidableEq κ] in
theorem finishDump_ok {saveId id files bytes : UInt64} {name : List UInt8} {path : NativePath}
    {s : CopyState κ} {console : SaveConsole}
    (h : (finishDump saveId name s console).1 = .ok id files bytes path) :
    files = s.fileCount ∧ bytes = s.byteCount := by
  unfold finishDump at h
  split at h
  · cases h
  split at h
  · cases h
  split at h
  · cases h
  split at h
  · cases h
  dsimp only at h
  split at h
  · cases h
  split at h
  · cases h
  · cases h
    exact ⟨rfl, rfl⟩

/-- The command answers `OK` behind a copy that returned true, with its counts. -/
theorem systemSaveDump_ok {saveIdText name : List UInt8} {console : SaveConsole}
    {saveId files bytes : UInt64} {path : NativePath}
    (h : (systemSaveDump spelling saveIdText name console).reply =
      .ok saveId files bytes path) :
    ∃ s, copySave spelling name console = .ok s ∧
      (systemSaveDump spelling saveIdText name console).backup = s ∧
      files = s.fileCount ∧ bytes = s.byteCount := by
  unfold systemSaveDump at h ⊢
  split at h
  · rename_i reply hprepare
    have hreply : reply = .ok saveId files bytes path := h
    exact absurd (hreply ▸ hprepare) prepareDump_error
  · rename_i id hprepare
    split at h
    · cases h
    · rename_i s hcopied
      have hcopy : copySave spelling name console = .ok s := by
        split at hcopied
        · exact hcopied
        · cases hcopied
      obtain ⟨hfiles, hbytes⟩ := finishDump_ok h
      exact ⟨s, hcopy, rfl, hfiles, hbytes⟩

/-! ## A copy of what `readdir` shows -/

variable {spelling}

theorem copySave_ok {name : List UInt8} {console : SaveConsole} {s : CopyState κ}
    (h : copySave spelling name console = .ok s) :
    CopyUndisturbed name console ∧
      Copied .start s (console.listing.shown.items spelling []) console.listing.shown.sizes := by
  obtain ⟨t, hopen, hentries⟩ := bind_ok h
  obtain ⟨-, hopendir, rfl⟩ := openDirectory_ok hopen
  obtain ⟨hundisturbed, hcopied⟩ := copyEntries_ok (by decide) hentries
  exact ⟨⟨hopendir, hundisturbed⟩, hcopied.card, hcopied.files, hcopied.bytes⟩

theorem exists_copySave {name : List UInt8} {console : SaveConsole}
    (hundisturbed : CopyUndisturbed name console)
    (hcreatable : Creatable spelling console.listing) : ∃ s, copySave spelling name console = .ok s := by
  have hopen := openDirectory_eq (CopyState.start : CopyState κ) (Nat.zero_le 32) hundisturbed.1
  cases hcopy : copySave spelling name console with
  | ok s => exact ⟨s, rfl⟩
  | error s =>
    rcases bind_error hcopy with hfail | ⟨t, ht, hentries⟩
    · rw [hopen] at hfail
      cases hfail
    · -- nothing fails, so it is the card that refuses
      obtain ⟨-, -, rfl⟩ := openDirectory_ok ht
      have hnone := copyEntries_error (by decide) hundisturbed.2 hentries
      have hsome : (Tree.empty.placeAll (console.listing.shown.items spelling [])).isSome :=
        hcreatable
      rw [show Tree.empty.placeAll (console.listing.shown.items spelling []) = none from hnone]
        at hsome
      cases hsome

/-- A counter that started at zero shows a number that is no smaller iff it counts that number and
    the number fits. -/
theorem counter_eq_iff {shown all : Nat} (hle : shown ≤ all) :
    (0 + UInt64.ofNat shown).toNat = all ↔ shown = all ∧ all < 2 ^ 64 := by
  rw [UInt64.zero_add, UInt64.toNat_ofNat']
  omega

/-- What readdir shows is copied; it is the whole save iff nothing is hidden, entries with one path
    are alike and the counts fit. -/
theorem completeCopy_iff {listing : SaveListing} {s : CopyState κ}
    (h : Copied .start s (listing.shown.items spelling []) listing.shown.sizes) :
    CompleteCopy spelling listing s ↔
      FullyShown spelling listing ∧ Alike (listing.items spelling []) ∧ Countable listing := by
  have hsizes := listing.sizes_shown_sublist
  have hplaced := placed_iff_alike h.card (listing.items_shown_subset spelling [])
  have hfiles : s.fileCount.toNat = listing.sizes.length ↔
      listing.shown.sizes.length = listing.sizes.length ∧ listing.sizes.length < 2 ^ 64 := by
    rw [h.files]
    exact counter_eq_iff hsizes.length_le
  have hbytes : s.byteCount.toNat = listing.sizes.sum ↔
      listing.shown.sizes.sum = listing.sizes.sum ∧ listing.sizes.sum < 2 ^ 64 := by
    rw [h.bytes]
    exact counter_eq_iff (hsizes.sum_le_sum fun _ _ => Nat.zero_le _)
  constructor
  · rintro ⟨hentries, hcount, hsum⟩
    obtain ⟨halike, hpaths⟩ := hplaced.1 hentries
    -- as many files are shown as there are, so the same files
    have hall := hsizes.eq_of_length (hfiles.1 hcount).1
    exact ⟨⟨hall, hpaths⟩, halike, (hfiles.1 hcount).2, (hbytes.1 hsum).2⟩
  · rintro ⟨⟨hall, hpaths⟩, halike, hcount, hsum⟩
    exact ⟨hplaced.2 ⟨halike, hpaths⟩, hfiles.2 ⟨by rw [hall], hcount⟩,
      hbytes.2 ⟨by rw [hall], hsum⟩⟩

/-- Every copy that returns true is complete iff the save is fully shown wherever the copy is
    undisturbed. -/
theorem copied_iff {name : List UInt8} {console : SaveConsole} :
    (∀ s, copySave spelling name console = .ok s → CompleteCopy spelling console.listing s) ↔
      (CopyUndisturbed name console → Creatable spelling console.listing →
        FullyShown spelling console.listing ∧ Alike (console.listing.items spelling []) ∧
          Countable console.listing) := by
  constructor
  · intro h hundisturbed hcreatable
    obtain ⟨s, hcopy⟩ := exists_copySave hundisturbed hcreatable
    exact (completeCopy_iff (copySave_ok hcopy).2).1 (h s hcopy)
  · intro h s hcopy
    obtain ⟨hundisturbed, hcopied⟩ := copySave_ok hcopy
    have hcreatable : Creatable spelling console.listing := by
      show (Tree.empty.placeAll _).isSome
      rw [show Tree.empty.placeAll _ = some s.card from hcopied.card]
      rfl
    exact (completeCopy_iff hcopied).2 (h hundisturbed hcreatable)

theorem copySave_limited (name : List UInt8) (console : SaveConsole) :
    ∀ depth ∈ (stateOf (copySave spelling name console)).opened, depth ≤ 32 := by
  intro depth hdepth
  have hno : NoDeeper .start (stateOf (copySave spelling name console)) :=
    copyDirectoryTree_noDeeper console.opendir console.listing syssave (backupPath name) [] 0
      .start
  rcases hno depth hdepth with hstart | hlimit
  · cases hstart
  · exact hlimit

/-- For every save, every pattern of failures and every card: a copy reported as complete is
    complete, the command answers `OK` only for such a copy, and no directory below the limit is
    opened, iff `readdir` hides nothing of a save that is copied without a failure, the entries that
    the card cannot tell apart are alike and the counts fit. -/
theorem reported_backup_complete_iff (saveIdText name : List UInt8) (console : SaveConsole) :
    BackupLaw spelling saveIdText name console ↔
      (CopyUndisturbed name console → Creatable spelling console.listing →
        FullyShown spelling console.listing ∧ Alike (console.listing.items spelling []) ∧
          Countable console.listing) := by
  rw [← copied_iff]
  constructor
  · intro h
    exact h.copied
  · intro hcopied
    refine ⟨hcopied, ?_, copySave_limited name console⟩
    intro saveId files bytes path hanswer
    obtain ⟨s, hcopy, hbackup, rfl, rfl⟩ := systemSaveDump_ok spelling hanswer
    have hcomplete := hcopied s hcopy
    rw [hbackup]
    exact ⟨hcomplete, hcomplete.fileCount, hcomplete.byteCount⟩

/-- A save of one file whose directory ends with an error. -/
def unreadableSave : SaveConsole where
  backupExists := false
  mkdirErrno := none
  openReadOnly := 0
  openSystem := 0
  mounts := true
  buffer := true
  opendir := true
  listing :=
    .file false ⟨[0x61], by decide⟩ [1, 2, 3]
      { stat := true, fopenInput := true, fopenOutput := true, fread := fun _ => none,
        fwrite := fun _ => none, fclose := true }
      .done
  unmounts := true
  errno := 0
  commitSave := 0
  manifestOpenErrno := none
  manifestCloseErrno := none
  commitManifest := 0

/-- The command answers `OK files=0 bytes=0`. -/
theorem unreadable_save_is_reported :
    ¬ BackupLaw EntryName.bytes (ascii "0x8000000000000010") (ascii "test") unreadableSave := by
  intro h
  obtain ⟨-, hfiles, -⟩ := h.answered 0x8000000000000010 0 0 (backupPath (ascii "test")) rfl
  cases hfiles

end SysAgent
