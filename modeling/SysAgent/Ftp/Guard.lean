import Mathlib
import SysAgent.Ftp.Vfs

set_option autoImplicit false

/-! # The guard over the search storage (`ftp_path.c`, `ftp_vfs_sd.c`)

`ftpPathResolve` accepts an absolute path without a colon and without a parent segment. While a search
is active, an operation that changes the card is refused for the paths that `ftpPathIsSearchStorage`
knows: those that begin with the bytes of the search directory, followed by a slash or the end.

The file system ignores empty segments and `.` segments. What an operation targets is therefore read off
the remaining names, `fileNames`. A path is a list of bytes without the terminator. -/

namespace SysAgent

/-- The bytes of `sdmc:`. -/
def FTP_SD_PREFIX : List UInt8 := [0x73, 0x64, 0x6D, 0x63, 0x3A]

/-- The bytes of `switch`, `sys-agent` and `search`. -/
def searchNames : List (List UInt8) :=
  [[0x73, 0x77, 0x69, 0x74, 0x63, 0x68],
    [0x73, 0x79, 0x73, 0x2D, 0x61, 0x67, 0x65, 0x6E, 0x74],
    [0x73, 0x65, 0x61, 0x72, 0x63, 0x68]]

/-- `/switch/sys-agent/search` -/
def FTP_SEARCH_PATH : List UInt8 := [0x2F].intercalate ([] :: searchNames)

/-- What stands between the slashes. -/
def segments (path : List UInt8) : List (List UInt8) := path.splitOn 0x2F

def ftpPathResolve (ftpPath : List UInt8) (outputSize : Nat) : Option (List UInt8) :=
  if ftpPath.head? ≠ some 0x2F ∨ 0x3A ∈ ftpPath then none
  else if [0x2E, 0x2E] ∈ segments (ftpPath.drop 1) then none
  else if outputSize < FTP_SD_PREFIX.length + ftpPath.length + 1 then none
  else some (FTP_SD_PREFIX ++ ftpPath)

def ftpPathIsSearchStorage (ftpPath : List UInt8) : Bool :=
  FTP_SEARCH_PATH.isPrefixOf ftpPath &&
    (ftpPath[FTP_SEARCH_PATH.length]? == none || ftpPath[FTP_SEARCH_PATH.length]? == some 0x2F)

def ftpPathCanMutate (ftpPath : List UInt8) (searchActive : Bool) : Bool :=
  !searchActive || !ftpPathIsSearchStorage ftpPath

/-! ## The operations that change the card -/

inductive FsDirEntryType
  | dir
  | file
  deriving DecidableEq

/-- The native file system with its directory entries. -/
structure NativeDirs (σ : Type) extends NativeFs σ where
  getEntryType : NativePath → σ → UInt32 × FsDirEntryType × σ
  renameDirectory : NativePath → NativePath → σ → UInt32 × σ

/-- `fsdevTranslatePath`: the file system a path is on, and its native form. -/
abbrev FsdevTranslatePath := List UInt8 → Option (Nat × TranslatedPath)

/-- The size of the buffer that `translate` resolves into. -/
def resolvedSize : Nat := FS_MAX_PATH + FTP_SD_PREFIX.length + 1

section Operations

variable {σ κ : Type} [DecidableEq κ] (native : NativeDirs σ) (fsdev : FsdevTranslatePath)

/-- `translate` for an operation that goes on with the native path: a path that is not resolved sets
    `EACCES`. -/
def withTranslated (path : List UInt8) (w : VfsWorld σ κ)
    (operation : Nat → NativePath → VfsWorld σ κ × Int) : VfsWorld σ κ × Int :=
  match ftpPathResolve path resolvedSize with
  | none => (w.setErrno .EACCES, -1)
  | some resolved =>
    match fsdev resolved with
    | none => (w, -1)
    | some (fileSystem, nativePath) => operation fileSystem nativePath.bytes

/-- What `translate` answers to `ftp_vfs_open`. -/
def translate (path : List UInt8) : Translation :=
  match ftpPathResolve path resolvedSize with
  | none => .refused
  | some resolved =>
    match fsdev resolved with
    | none => .unmapped
    | some (_, nativePath) => .path nativePath

/-- `mutationAllowed` before an operation. -/
def whenAllowed (path : List UInt8) (searchIsActive : Bool) (w : VfsWorld σ κ)
    (operation : VfsWorld σ κ × Int) : VfsWorld σ κ × Int :=
  if ftpPathCanMutate path searchIsActive then operation else (w.setErrno .EBUSY, -1)

/-- `R_SUCCEEDED(result) ? 0 : setFsError(result)` -/
def finish (called : VfsWorld σ κ × UInt32) : VfsWorld σ κ × Int :=
  if R_FAILED called.2 then setFsError called.2 called.1 else (called.1, 0)

/-- `ftp_vfs_mkdir`, `ftp_vfs_unlink` and `ftp_vfs_rmdir` differ in the native call only. -/
def mutatePath (call : NativePath → σ → UInt32 × σ) (path : List UInt8) (searchIsActive : Bool)
    (w : VfsWorld σ κ) : VfsWorld σ κ × Int :=
  whenAllowed path searchIsActive w <|
    withTranslated fsdev path w fun _ nativePath => finish (nativeCall (call nativePath) w)

def ftp_vfs_mkdir (path : List UInt8) (searchIsActive : Bool) (w : VfsWorld σ κ) :
    VfsWorld σ κ × Int :=
  mutatePath fsdev native.createDirectory path searchIsActive w

def ftp_vfs_unlink (path : List UInt8) (searchIsActive : Bool) (w : VfsWorld σ κ) :
    VfsWorld σ κ × Int :=
  mutatePath fsdev native.deleteFile path searchIsActive w

def ftp_vfs_rmdir (path : List UInt8) (searchIsActive : Bool) (w : VfsWorld σ κ) :
    VfsWorld σ κ × Int :=
  mutatePath fsdev native.deleteDirectory path searchIsActive w

/-- The retry of a file rename: only an existing destination file is dropped. -/
def replaceFile (nativeSource nativeDestination : NativePath) (failed : UInt32)
    (w : VfsWorld σ κ) : VfsWorld σ κ × UInt32 :=
  let probed := native.getEntryType nativeDestination w.fs
  let w := w.setFs probed.2.2
  if R_FAILED probed.1 ∨ probed.2.1 ≠ .file then (w, failed)
  else
    let removed := nativeCall (native.deleteFile nativeDestination) w
    if R_FAILED removed.2 then (removed.1, failed)
    else nativeCall (native.renameFile nativeSource nativeDestination) removed.1

/-- The native calls of `ftp_vfs_rename`. -/
def renameEntry (nativeSource nativeDestination : NativePath) (w : VfsWorld σ κ) :
    VfsWorld σ κ × UInt32 :=
  let probed := native.getEntryType nativeSource w.fs
  let w := w.setFs probed.2.2
  if R_FAILED probed.1 then (w, probed.1)
  else
    match probed.2.1 with
    | .file =>
      let renamed := nativeCall (native.renameFile nativeSource nativeDestination) w
      if R_FAILED renamed.2 then
        replaceFile native nativeSource nativeDestination renamed.2 renamed.1
      else renamed
    | .dir => nativeCall (native.renameDirectory nativeSource nativeDestination) w

def ftp_vfs_rename (source destination : List UInt8) (searchIsActive : Bool)
    (w : VfsWorld σ κ) : VfsWorld σ κ × Int :=
  whenAllowed source searchIsActive w <|
    whenAllowed destination searchIsActive w <|
      withTranslated fsdev source w fun sourceFs nativeSource =>
        withTranslated fsdev destination w fun destinationFs nativeDestination =>
          if sourceFs ≠ destinationFs then (w.setErrno .EXDEV, -1)
          else finish (renameEntry native nativeSource nativeDestination w)

end Operations

inductive Mutation
  | openWrite (path : List UInt8)
  | openAppend (path : List UInt8)
  | mkdir (path : List UInt8)
  | unlink (path : List UInt8)
  | rmdir (path : List UInt8)
  | rename (source destination : List UInt8)

namespace Mutation

def paths : Mutation → List (List UInt8)
  | openWrite path => [path]
  | openAppend path => [path]
  | mkdir path => [path]
  | unlink path => [path]
  | rmdir path => [path]
  | rename source destination => [source, destination]

/-- The environment of the operations: the card, the translation of `fsdev` and the session handle
    that an open fills. -/
structure Card (σ κ : Type) where
  native : NativeDirs σ
  fsdev : FsdevTranslatePath
  file : κ

def perform {σ κ : Type} [DecidableEq κ] (card : Card σ κ) (searchIsActive : Bool)
    (w : VfsWorld σ κ) : Mutation → VfsWorld σ κ × Int
  | openWrite path =>
    ftp_vfs_open card.native.toNativeFs card.file (translate card.fsdev path)
      (ftpPathCanMutate path searchIsActive) .write w
  | openAppend path =>
    ftp_vfs_open card.native.toNativeFs card.file (translate card.fsdev path)
      (ftpPathCanMutate path searchIsActive) .append w
  | mkdir path => ftp_vfs_mkdir card.native card.fsdev path searchIsActive w
  | unlink path => ftp_vfs_unlink card.native card.fsdev path searchIsActive w
  | rmdir path => ftp_vfs_rmdir card.native card.fsdev path searchIsActive w
  | rename source destination =>
    ftp_vfs_rename card.native card.fsdev source destination searchIsActive w

end Mutation

/-! ## What an operation targets -/

/-- The names of a path for the file system: empty segments and `.` are dropped. -/
def fileNames (path : List UInt8) : List (List UInt8) :=
  (segments path).filter fun name => name ≠ [] ∧ name ≠ [0x2E]

/-- The path is the search directory, something below it, or a directory that contains it. -/
def TargetsSearch (path : List UInt8) : Prop :=
  searchNames <+: fileNames path ∨ fileNames path <+: searchNames

instance (path : List UInt8) : Decidable (TargetsSearch path) :=
  inferInstanceAs (Decidable (_ ∨ _))

/-- The path is spelled with `/switch/sys-agent/search` segment by segment. -/
def SpelledLiterally (path : List UInt8) : Prop :=
  [] :: searchNames <+: segments path

instance (path : List UInt8) : Decidable (SpelledLiterally path) :=
  inferInstanceAs (Decidable (_ <+: _))

namespace Mutation

def Accepted (operation : Mutation) : Prop :=
  ∀ path ∈ operation.paths, (ftpPathResolve path resolvedSize).isSome

instance (operation : Mutation) : Decidable operation.Accepted :=
  inferInstanceAs (Decidable (∀ path ∈ operation.paths, _))

def TargetsSearch (operation : Mutation) : Prop :=
  ∃ path ∈ operation.paths, SysAgent.TargetsSearch path

instance (operation : Mutation) : Decidable operation.TargetsSearch :=
  inferInstanceAs (Decidable (∃ path ∈ operation.paths, _))

/-- Refused while a search is active: whatever the card would answer, the operation fails and only
    `errno` changes. -/
def Refused (operation : Mutation) : Prop :=
  ∀ (σ κ : Type) [DecidableEq κ] (card : Card σ κ) (w : VfsWorld σ κ),
    ∃ errno, operation.perform card true w = (w.setErrno errno, -1)

/-- Allowed while a search is active: it does what it does without a search. -/
def Allowed (operation : Mutation) : Prop :=
  ∀ (σ κ : Type) [DecidableEq κ] (card : Card σ κ) (w : VfsWorld σ κ),
    operation.perform card true w = operation.perform card false w

/-- Exactly the operations that target the search storage are refused. -/
structure Guarded (operation : Mutation) : Prop where
  refused : operation.TargetsSearch → operation.Refused
  allowed : ¬ operation.TargetsSearch → operation.Allowed

end Mutation

/-! ## The guard's comparison -/

theorem intercalate_append {α : Type} (separator : List α) {front back : List (List α)}
    (hfront : front ≠ []) (hback : back ≠ []) :
    separator.intercalate (front ++ back) =
      separator.intercalate front ++ separator ++ separator.intercalate back := by
  induction front with
  | nil => exact absurd rfl hfront
  | cons name front ih =>
    cases front with
    | nil =>
      cases back with
      | nil => exact absurd rfl hback
      | cons next back => simp [List.intercalate_cons_cons]
    | cons next front =>
      have hrest := ih (by simp)
      rw [List.cons_append, List.cons_append, List.intercalate_cons_cons, ← List.cons_append,
        hrest, List.intercalate_cons_cons]
      simp only [List.append_assoc]

theorem segments_append (path rest : List UInt8) :
    segments (path ++ 0x2F :: rest) = segments path ++ segments rest :=
  List.splitOn_append_cons_self path rest

theorem segments_searchPath : segments FTP_SEARCH_PATH = [] :: searchNames := by decide

/-- The bytes of the comparison say the same as the segments. -/
theorem isSearchStorage_iff (path : List UInt8) :
    ftpPathIsSearchStorage path = true ↔ SpelledLiterally path := by
  unfold ftpPathIsSearchStorage SpelledLiterally
  rw [Bool.and_eq_true, Bool.or_eq_true, List.isPrefixOf_iff_prefix, beq_iff_eq, beq_iff_eq]
  constructor
  · rintro ⟨⟨rest, rfl⟩, hend⟩
    rw [List.getElem?_append_right (le_refl _), Nat.sub_self] at hend
    cases rest with
    | nil => rw [List.append_nil, segments_searchPath]
    | cons byte rest =>
      rcases hend with hnone | hslash
      · simp at hnone
      · obtain rfl : byte = 0x2F := by simpa using hslash
        rw [segments_append, segments_searchPath]
        exact List.prefix_append _ _
  · rintro ⟨tail, htail⟩
    have hpath : path = [0x2F].intercalate (segments path) :=
      (List.intercalate_splitOn 0x2F).symm
    rw [← htail] at hpath
    cases tail with
    | nil =>
      rw [List.append_nil] at hpath
      rw [hpath]
      exact ⟨List.prefix_refl _, Or.inl (List.getElem?_eq_none (le_refl _))⟩
    | cons name tail =>
      rw [intercalate_append [0x2F] (by simp) (by simp), List.append_assoc] at hpath
      rw [hpath]
      refine ⟨List.prefix_append _ _, Or.inr ?_⟩
      change (FTP_SEARCH_PATH ++ _)[FTP_SEARCH_PATH.length]? = some 0x2F
      rw [List.getElem?_append_right (le_refl _), Nat.sub_self]
      rfl

theorem canMutate_active (path : List UInt8) :
    ftpPathCanMutate path true = true ↔ ¬ SpelledLiterally path := by
  rw [← isSearchStorage_iff]
  simp [ftpPathCanMutate]

/-- A literal spelling targets the search storage. -/
theorem targetsSearch_of_literal {path : List UInt8} (h : SpelledLiterally path) :
    TargetsSearch path := by
  obtain ⟨tail, htail⟩ := h
  have hnames : fileNames path = searchNames ++ tail.filter fun name => name ≠ [] ∧ name ≠ [0x2E] := by
    unfold fileNames
    rw [← htail, List.filter_append]
    rfl
  left
  rw [hnames]
  exact List.prefix_append _ _

/-! ## Refused and allowed -/

namespace Mutation

theorem whenAllowed_refused {σ κ : Type} {path : List UInt8} (h : SpelledLiterally path)
    (w : VfsWorld σ κ) (operation : VfsWorld σ κ × Int) :
    whenAllowed path true w operation = (w.setErrno .EBUSY, -1) :=
  if_neg fun hallowed => (canMutate_active path).1 hallowed h

theorem open_refused {σ κ : Type} [DecidableEq κ] (card : Card σ κ) {path : List UInt8}
    (h : SpelledLiterally path) {mode : FtpVfsOpenMode} (hmode : mode ≠ .read)
    (w : VfsWorld σ κ) :
    ∃ errno, ftp_vfs_open card.native.toNativeFs card.file (translate card.fsdev path)
      (ftpPathCanMutate path true) mode w = (w.setErrno errno, -1) := by
  have hdenied : ftpPathCanMutate path true = false := by
    by_contra hne
    exact (canMutate_active path).1 (by simpa using hne) h
  unfold ftp_vfs_open
  cases translate card.fsdev path with
  | refused => exact ⟨_, rfl⟩
  | unmapped => exact ⟨w.errno, rfl⟩
  | path nativePath => exact ⟨.EBUSY, if_pos ⟨hmode, hdenied⟩⟩

/-- An operation with a path that is spelled literally is refused. -/
theorem refused_of_literal {operation : Mutation}
    (h : ∃ path ∈ operation.paths, SpelledLiterally path) : operation.Refused := by
  intro σ κ _ card w
  obtain ⟨path, hmem, hliteral⟩ := h
  cases operation with
  | openWrite target =>
    obtain rfl := List.mem_singleton.1 hmem
    exact open_refused card hliteral (by decide) w
  | openAppend target =>
    obtain rfl := List.mem_singleton.1 hmem
    exact open_refused card hliteral (by decide) w
  | mkdir target =>
    obtain rfl := List.mem_singleton.1 hmem
    exact ⟨.EBUSY, whenAllowed_refused hliteral w _⟩
  | unlink target =>
    obtain rfl := List.mem_singleton.1 hmem
    exact ⟨.EBUSY, whenAllowed_refused hliteral w _⟩
  | rmdir target =>
    obtain rfl := List.mem_singleton.1 hmem
    exact ⟨.EBUSY, whenAllowed_refused hliteral w _⟩
  | rename source destination =>
    refine ⟨.EBUSY, ?_⟩
    change whenAllowed source true w _ = _
    by_cases hsource : SpelledLiterally source
    · exact whenAllowed_refused hsource w _
    · have hdestination : SpelledLiterally destination := by
        rcases List.mem_pair.1 hmem with rfl | rfl
        · exact absurd hliteral hsource
        · exact hliteral
      rw [whenAllowed_refused hdestination]
      exact if_pos ((canMutate_active source).2 hsource)

/-- An operation without such a path does what it does without a search. -/
theorem allowed_of_not_literal {operation : Mutation}
    (h : ∀ path ∈ operation.paths, ¬ SpelledLiterally path) : operation.Allowed := by
  have hsame : ∀ path ∈ operation.paths,
      ftpPathCanMutate path true = ftpPathCanMutate path false := by
    intro path hmem
    rw [(canMutate_active path).2 (h path hmem)]
    rfl
  intro σ κ _ card w
  cases operation with
  | openWrite path => simp only [perform, hsame path (by simp [paths])]
  | openAppend path => simp only [perform, hsame path (by simp [paths])]
  | mkdir path =>
    simp only [perform, ftp_vfs_mkdir, mutatePath, whenAllowed, hsame path (by simp [paths])]
  | unlink path =>
    simp only [perform, ftp_vfs_unlink, mutatePath, whenAllowed, hsame path (by simp [paths])]
  | rmdir path =>
    simp only [perform, ftp_vfs_rmdir, mutatePath, whenAllowed, hsame path (by simp [paths])]
  | rename source destination =>
    simp only [perform, ftp_vfs_rename, whenAllowed, hsame source (by simp [paths]),
      hsame destination (by simp [paths])]

end Mutation

/-! ## A card on which everything succeeds -/

namespace WillingCard

def native : NativeDirs Unit where
  createFile := fun _ s => (0, s)
  deleteFile := fun _ s => (0, s)
  renameFile := fun _ _ s => (0, s)
  createDirectory := fun _ s => (0, s)
  deleteDirectory := fun _ s => (0, s)
  setConcatenationFileAttribute := fun _ s => (0, s)
  walkDirectory := fun _ s => s
  openFile := fun _ _ s => (0, 0, s)
  closeFile := fun _ s => s
  getSize := fun _ s => (0, 0, s)
  setSize := fun _ _ s => (0, s)
  flush := fun _ s => (0, s)
  read := fun _ _ _ s => (0, [], s)
  write := fun _ _ _ s => (0, s)
  getEntryType := fun _ s => (0, .file, s)
  renameDirectory := fun _ _ s => (0, s)

def nativePath : TranslatedPath where
  bytes := [0x2F]
  nonempty := by decide
  fits := by decide

def card : Mutation.Card Unit Unit where
  native := native
  fsdev := fun _ => some (0, nativePath)
  file := ()

def world : VfsWorld Unit Unit where
  fs := ()
  file := fun _ => .zero
  g_vfsState := []
  status := { activeTransfers := 0, bytesSent := 0, bytesReceived := 0, lastFsResult := 0 }
  errno := .none

theorem translate_card {path : List UInt8} (h : (ftpPathResolve path resolvedSize).isSome) :
    translate card.fsdev path = .path nativePath := by
  obtain ⟨resolved, hresolved⟩ := Option.isSome_iff_exists.1 h
  simp only [translate, hresolved, card]

theorem withTranslated_card {path : List UInt8} (h : (ftpPathResolve path resolvedSize).isSome)
    (operation : Nat → NativePath → VfsWorld Unit Unit × Int) :
    withTranslated card.fsdev path world operation = operation 0 nativePath.bytes := by
  obtain ⟨resolved, hresolved⟩ := Option.isSome_iff_exists.1 h
  simp only [withTranslated, hresolved, card]

theorem whenAllowed_world {path : List UInt8} (h : ¬ SpelledLiterally path)
    (operation : VfsWorld Unit Unit × Int) :
    whenAllowed path true world operation = operation :=
  if_pos ((canMutate_active path).2 h)

/-- Without a literal spelling the operation succeeds on this card. -/
theorem perform_succeeds {operation : Mutation} (haccepted : operation.Accepted)
    (h : ∀ path ∈ operation.paths, ¬ SpelledLiterally path) :
    (operation.perform card true world).2 = 0 := by
  cases operation with
  | openWrite path =>
    simp only [Mutation.perform]
    rw [translate_card (haccepted path (by simp [Mutation.paths])),
      (canMutate_active path).2 (h path (by simp [Mutation.paths]))]
    rfl
  | openAppend path =>
    simp only [Mutation.perform]
    rw [translate_card (haccepted path (by simp [Mutation.paths])),
      (canMutate_active path).2 (h path (by simp [Mutation.paths]))]
    rfl
  | mkdir path =>
    simp only [Mutation.perform, ftp_vfs_mkdir, mutatePath]
    rw [whenAllowed_world (h path (by simp [Mutation.paths])),
      withTranslated_card (haccepted path (by simp [Mutation.paths]))]
    rfl
  | unlink path =>
    simp only [Mutation.perform, ftp_vfs_unlink, mutatePath]
    rw [whenAllowed_world (h path (by simp [Mutation.paths])),
      withTranslated_card (haccepted path (by simp [Mutation.paths]))]
    rfl
  | rmdir path =>
    simp only [Mutation.perform, ftp_vfs_rmdir, mutatePath]
    rw [whenAllowed_world (h path (by simp [Mutation.paths])),
      withTranslated_card (haccepted path (by simp [Mutation.paths]))]
    rfl
  | rename source destination =>
    simp only [Mutation.perform, ftp_vfs_rename]
    rw [whenAllowed_world (h source (by simp [Mutation.paths])),
      whenAllowed_world (h destination (by simp [Mutation.paths])),
      withTranslated_card (haccepted source (by simp [Mutation.paths])),
      withTranslated_card (haccepted destination (by simp [Mutation.paths]))]
    rfl

theorem not_refused {operation : Mutation} (haccepted : operation.Accepted)
    (h : ∀ path ∈ operation.paths, ¬ SpelledLiterally path) : ¬ operation.Refused := by
  intro hrefused
  obtain ⟨errno, hperform⟩ := hrefused Unit Unit card world
  have hanswer := perform_succeeds haccepted h
  rw [hperform] at hanswer
  have hminus : (-1 : Int) = 0 := hanswer
  exact absurd hminus (by decide)

end WillingCard

/-! ## The guard -/

/-- The guard refuses exactly the operations that target the search storage iff each of these spells a
    path of it literally. -/
theorem search_guard_iff (operation : Mutation) (haccepted : operation.Accepted) :
    operation.Guarded ↔
      (operation.TargetsSearch → ∃ path ∈ operation.paths, SpelledLiterally path) := by
  constructor
  · intro hguarded htargets
    by_contra hnone
    have hplain : ∀ path ∈ operation.paths, ¬ SpelledLiterally path :=
      fun path hmem hliteral => hnone ⟨path, hmem, hliteral⟩
    exact WillingCard.not_refused haccepted hplain (hguarded.refused htargets)
  · intro hliteral
    refine ⟨fun htargets => Mutation.refused_of_literal (hliteral htargets), ?_⟩
    intro hfree
    refine Mutation.allowed_of_not_literal fun path hmem hpath => ?_
    exact hfree ⟨path, hmem, targetsSearch_of_literal hpath⟩

/-- `/switch/sys-agent/search/x` -/
def searchFilePath : List UInt8 := [0x2F].intercalate ([] :: searchNames ++ [[0x78]])

/-- A directory elsewhere can be made, and a file of the search storage is not removed. -/
theorem search_guard_elsewhere :
    (Mutation.mkdir [0x2F, 0x61]).Guarded ∧ (Mutation.unlink searchFilePath).TargetsSearch ∧
      (Mutation.unlink searchFilePath).Guarded := by
  refine ⟨(search_guard_iff (.mkdir [0x2F, 0x61]) (by decide)).2 fun htargets =>
    absurd htargets (by decide), by decide, (search_guard_iff _ (by decide)).2 fun _ => ?_⟩
  exact ⟨searchFilePath, List.mem_singleton_self _, by decide⟩

/-- `/switch/sys-agent` -/
def sysAgentPath : List UInt8 := [0x2F].intercalate ([] :: searchNames.take 2)

/-- `/switch//sys-agent/search/x` -/
def doubledPath : List UInt8 :=
  [0x2F].intercalate ([] :: searchNames.take 1 ++ [] :: searchNames.drop 1 ++ [[0x78]])

/-- `/switch/sys-agent` is renamed to `/x`, and `/switch//sys-agent/search/x` is removed. -/
theorem search_guard_misses :
    ¬ (Mutation.rename sysAgentPath [0x2F, 0x78]).Guarded ∧
      ¬ (Mutation.unlink doubledPath).Guarded := by
  refine ⟨fun hguarded => ?_, fun hguarded => ?_⟩
  · exact WillingCard.not_refused (by decide) (by decide) (hguarded.refused (by decide))
  · exact WillingCard.not_refused (by decide) (by decide) (hguarded.refused (by decide))

end SysAgent
