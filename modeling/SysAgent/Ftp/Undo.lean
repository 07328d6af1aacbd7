import SysAgent.Ftp.Append

set_option autoImplicit false

/-! # The undo of a conversion

`failing` is the card on which one forward step of the conversion is refused; every other call, those
of the undo among them, is the card's own. `Restored` says that the calls up to the label `reopen`
have put everything back but the handle. -/

namespace SysAgent

open SlotTable

/-- The forward steps of `ftpVfsConvertToConcatenationFile`. -/
inductive ConversionStep
  | renameAside
  | createDirectory
  | moveIn
  | setAttribute
  deriving DecidableEq

/-- A rename that is refused from one name to one other. -/
def SdCard.renameFileRefusing (refused refused' : NativePath) (result : UInt32)
    (source destination : NativePath) (card : SdCard) : UInt32 × SdCard :=
  if source = refused ∧ destination = refused' then (result, card)
  else card.renameFile source destination

/-- The card that refuses one step of the conversion of `path`. -/
def failing (path : NativePath) (result : UInt32) : ConversionStep → NativeFs SdCard
  | .renameAside =>
    { sdCard with
      renameFile := SdCard.renameFileRefusing path (path ++ FTP_CONCATENATION_TEMP_SUFFIX) result }
  | .createDirectory => { sdCard with createDirectory := fun _ card => (result, card) }
  | .moveIn =>
    { sdCard with
      renameFile := SdCard.renameFileRefusing (path ++ FTP_CONCATENATION_TEMP_SUFFIX)
        (path ++ FIRST_PART) result }
  | .setAttribute => { sdCard with setConcatenationFileAttribute := fun _ card => (result, card) }

variable {κ : Type} [DecidableEq κ]

theorem SdCard.renameFileRefusing_self (refused refused' : NativePath) (result : UInt32) (card : SdCard) :
    SdCard.renameFileRefusing refused refused' result refused refused' card = (result, card) := by
  rw [SdCard.renameFileRefusing, if_pos ⟨rfl, rfl⟩]

/-- A rename from elsewhere is the card's own. -/
theorem SdCard.renameFileRefusing_ok {refused refused' source destination : NativePath} {result : UInt32}
    {card : SdCard} {content : List UInt8} (hother : source ≠ refused ∨ destination ≠ refused')
    (hsource : card.entries source = some (.file false content))
    (hdestination : card.entries destination = none) :
    SdCard.renameFileRefusing refused refused' result source destination card =
      (0, Uploading.moved source destination content card) := by
  have hnot : ¬ (source = refused ∧ destination = refused') := by
    rintro ⟨hsame, hsame'⟩
    exact hother.elim (fun h => h hsame) fun h => h hsame'
  rw [SdCard.renameFileRefusing, if_neg hnot]
  exact Uploading.renameFile_ok source destination content card hsource hdestination

/-! ## What is put back -/

/-- The names, the handles and the side table are as they were; the log has seen renames of plain
    files only. -/
structure Restored (w w' : VfsWorld SdCard κ) : Prop where
  entries : w'.fs.entries = w.fs.entries
  file : w'.file = w.file
  state : w'.g_vfsState = w.g_vfsState
  log : ∀ conversions, UploadLog w.fs.log conversions → UploadLog w'.fs.log conversions

/-- The label `reopen` behind calls that put everything back. -/
theorem Restored.conversionFailed {w w' : VfsWorld SdCard κ} {path : NativePath}
    {content : List UInt8} (h : Restored w w') (file : κ)
    (hentry : w.fs.entries path = some (.file false content)) :
    let undone := SysAgent.conversionFailed sdCard file path w'
    undone.2 = -1 ∧ undone.1.fs.entries = w.fs.entries ∧
      (∃ handle, undone.1.file file =
          { w.file file with file := handle, allocatedSize := content.length, isOpen := true } ∧
        undone.1.fs.handles handle = some path ∧ handle < undone.1.fs.next) ∧
      undone.1.g_vfsState = w.g_vfsState ∧
      ∀ conversions, UploadLog w.fs.log conversions →
        UploadLog undone.1.fs.log conversions := by
  intro undone
  have hentry' : (w'.setErrno .EFBIG).fs.entries path = some (.file false content) := by
    change w'.fs.entries path = _
    rw [h.entries, hentry]
  obtain ⟨-, hfile, hfs, hstate⟩ := Uploading.reopen_ok file hentry'
  have hundone : undone.1 = (ftpVfsReopenForWrite sdCard file path (w'.setErrno .EFBIG)).1 := rfl
  refine ⟨rfl, ?_, ⟨w'.fs.next, ?_, ?_, ?_⟩, ?_, ?_⟩
  · rw [hundone, hfs]
    exact h.entries
  · rw [hundone, hfile]
    have hsame : (w'.setErrno .EFBIG).file file = w.file file := congrFun h.file file
    rw [hsame]
    rfl
  · rw [hundone, hfs]
    exact Function.update_self _ _ _
  · rw [hundone, hfs]
    exact Nat.lt_succ_self _
  · rw [hundone, hstate]
    exact h.state
  · intro conversions hlog
    rw [hundone, hfs]
    exact h.log conversions hlog

/-! ## The conversion, up to the step that fails -/

section Convert

variable {native : NativeFs SdCard} {path : NativePath} {file : κ}
  {w w₁ w₂ w₃ w₄ : VfsWorld SdCard κ} {result aside created moved : UInt32}

/-- The names of the conversion fit their buffers. -/
def ConversionFits (path : NativePath) : Prop :=
  ¬ (FS_MAX_PATH + 32 ≤ (path ++ FTP_CONCATENATION_TEMP_SUFFIX).length ∨
    FS_MAX_PATH + 8 ≤ (path ++ [0x2F, 0x30, 0x30]).length)

theorem TranslatedPath.conversionFits (path : TranslatedPath) : ConversionFits path.bytes := by
  have hfits := path.fits
  unfold ConversionFits
  simp only [List.length_append, FTP_CONCATENATION_TEMP_SUFFIX, List.length_cons, List.length_nil]
  omega

theorem convert_of_renameAside_failed (hfits : ConversionFits path)
    (haside : renameAside native path (path ++ FTP_CONCATENATION_TEMP_SUFFIX)
      (fsFileClose native file w) = (w₁, result)) (hresult : R_FAILED result = true) :
    ftpVfsConvertToConcatenationFile native file path w =
      SysAgent.conversionFailed native file path (ftpServerRecordFsResult result w₁) := by
  unfold ftpVfsConvertToConcatenationFile
  simp only [if_neg hfits, haside, hresult, if_true]

theorem convert_of_createDirectory_failed (hfits : ConversionFits path)
    (haside : renameAside native path (path ++ FTP_CONCATENATION_TEMP_SUFFIX)
      (fsFileClose native file w) = (w₁, aside)) (hgone : R_FAILED aside = false)
    (hcreate : recordedCall (native.createDirectory path) (ftpServerRecordFsResult aside w₁) =
      (w₂, result)) (hresult : R_FAILED result = true) :
    ftpVfsConvertToConcatenationFile native file path w =
      SysAgent.conversionFailed native file path (nativeCall
        (native.renameFile (path ++ FTP_CONCATENATION_TEMP_SUFFIX) path) w₂).1 := by
  unfold ftpVfsConvertToConcatenationFile
  simp only [if_neg hfits, haside, hgone, Bool.false_eq_true, if_false, hcreate, hresult, if_true]

theorem convert_of_moveIn_failed (hfits : ConversionFits path)
    (haside : renameAside native path (path ++ FTP_CONCATENATION_TEMP_SUFFIX)
      (fsFileClose native file w) = (w₁, aside)) (hgone : R_FAILED aside = false)
    (hcreate : recordedCall (native.createDirectory path) (ftpServerRecordFsResult aside w₁) =
      (w₂, created)) (hthere : R_FAILED created = false)
    (hmove : recordedCall (native.renameFile (path ++ FTP_CONCATENATION_TEMP_SUFFIX)
      (path ++ FIRST_PART)) w₂ = (w₃, result)) (hresult : R_FAILED result = true) :
    ftpVfsConvertToConcatenationFile native file path w =
      SysAgent.conversionFailed native file path (ftpVfsUndoConversion native path
        (path ++ FTP_CONCATENATION_TEMP_SUFFIX) false true w₃) := by
  rw [FIRST_PART] at hmove
  unfold ftpVfsConvertToConcatenationFile
  simp only [if_neg hfits, haside, hgone, Bool.false_eq_true, if_false, hcreate, hthere, hmove,
    hresult, if_true]

theorem convert_of_setAttribute_failed (hfits : ConversionFits path)
    (haside : renameAside native path (path ++ FTP_CONCATENATION_TEMP_SUFFIX)
      (fsFileClose native file w) = (w₁, aside)) (hgone : R_FAILED aside = false)
    (hcreate : recordedCall (native.createDirectory path) (ftpServerRecordFsResult aside w₁) =
      (w₂, created)) (hthere : R_FAILED created = false)
    (hmove : recordedCall (native.renameFile (path ++ FTP_CONCATENATION_TEMP_SUFFIX)
      (path ++ FIRST_PART)) w₂ = (w₃, moved)) (hin : R_FAILED moved = false)
    (hmark : recordedCall (native.setConcatenationFileAttribute path) w₃ = (w₄, result))
    (hresult : R_FAILED result = true) :
    ftpVfsConvertToConcatenationFile native file path w =
      SysAgent.conversionFailed native file path (ftpVfsUndoConversion native path
        (path ++ FTP_CONCATENATION_TEMP_SUFFIX) true true w₄) := by
  rw [FIRST_PART] at hmove
  unfold ftpVfsConvertToConcatenationFile
  simp only [if_neg hfits, haside, hgone, Bool.false_eq_true, if_false, hcreate, hthere, hmove,
    hin, hmark, hresult, if_true]

omit [DecidableEq κ] in
/-- The rename aside when nothing is in its way. -/
theorem renameAside_of_first (htemp : nativeCall (native.renameFile path
      (path ++ FTP_CONCATENATION_TEMP_SUFFIX)) w = (w₁, aside)) (hgone : R_FAILED aside = false) :
    renameAside native path (path ++ FTP_CONCATENATION_TEMP_SUFFIX) w = (w₁, aside) := by
  unfold renameAside
  simp only [htemp, hgone, Bool.false_eq_true, if_false]

end Convert

/-! ## The undo -/

/-- What the conversion starts from: a plain file with nothing below it, and no temporary file. -/
structure PlainTarget (card : SdCard) (path : NativePath) (content : List UInt8) : Prop where
  entry : card.entries path = some (.file false content)
  temporary : card.entries (path ++ FTP_CONCATENATION_TEMP_SUFFIX) = none
  parts : card.entries (path ++ FIRST_PART) = none

/-- The native file system serves the calls of the undo as the card does. -/
structure ServesUndo (native : NativeFs SdCard) (path : NativePath) : Prop where
  rename : ∀ (source destination : NativePath) (content : List UInt8) (card : SdCard),
    source = path ++ FIRST_PART ∨ destination = path →
    card.entries source = some (.file false content) → card.entries destination = none →
    native.renameFile source destination card =
      (0, Uploading.moved source destination content card)
  deleteDirectory : native.deleteDirectory = SdCard.deleteDirectory

/-- The names while the file is aside: the same but for the three of the conversion. -/
structure Aside (w v : VfsWorld SdCard κ) (path : NativePath) : Prop where
  rest : ∀ name, name ≠ path → name ≠ path ++ FTP_CONCATENATION_TEMP_SUFFIX →
    name ≠ path ++ FIRST_PART → v.fs.entries name = w.fs.entries name
  file : v.file = w.file
  state : v.g_vfsState = w.g_vfsState
  log : ∀ conversions, UploadLog w.fs.log conversions → UploadLog v.fs.log conversions

section Undo

variable {native : NativeFs SdCard} {path : NativePath} {content : List UInt8}
  {w v : VfsWorld SdCard κ}

omit [DecidableEq κ] in
theorem Aside.record (h : Aside w v path) (result : UInt32) :
    Aside w (ftpServerRecordFsResult result v) path :=
  ⟨h.rest, h.file, h.state, h.log⟩

omit [DecidableEq κ] in
theorem Aside.setEntry (h : Aside w v path) (entry : Option SdEntry) :
    Aside w (v.setFs (v.fs.setEntry path entry)) path := by
  refine ⟨fun name hpath htemp hpart => ?_, h.file, h.state, h.log⟩
  change Function.update v.fs.entries path entry name = _
  rw [Function.update_of_ne hpath]
  exact h.rest name hpath htemp hpart

omit [DecidableEq κ] in
/-- A rename among the three names. -/
theorem Aside.moved {source destination : NativePath} (h : Aside w v path)
    (hsource : source ∈ [path, path ++ FTP_CONCATENATION_TEMP_SUFFIX, path ++ FIRST_PART])
    (hdestination : destination ∈ [path, path ++ FTP_CONCATENATION_TEMP_SUFFIX,
      path ++ FIRST_PART]) :
    Aside w (v.setFs (Uploading.moved source destination content v.fs)) path := by
  refine ⟨fun name hpath htemp hpart => ?_, h.file, h.state, fun conversions hlog => ?_⟩
  · have hne : ∀ other ∈ [path, path ++ FTP_CONCATENATION_TEMP_SUFFIX, path ++ FIRST_PART],
        name ≠ other := by
      simp only [List.mem_cons, List.not_mem_nil, or_false]
      rintro other (rfl | rfl | rfl)
      · exact hpath
      · exact htemp
      · exact hpart
    change Function.update (Function.update v.fs.entries source none) destination _ name = _
    rw [Function.update_of_ne (hne _ hdestination), Function.update_of_ne (hne _ hsource)]
    exact h.rest name hpath htemp hpart
  · exact (h.log conversions hlog).rename source destination

omit [DecidableEq κ] in
/-- The file is back under its name, and the other two names are free. -/
theorem Aside.restored (h : Aside w v path) (target : PlainTarget w.fs path content)
    (hpath : v.fs.entries path = some (.file false content))
    (htemp : v.fs.entries (path ++ FTP_CONCATENATION_TEMP_SUFFIX) = none)
    (hpart : v.fs.entries (path ++ FIRST_PART) = none) : Restored w v := by
  refine ⟨?_, h.file, h.state, h.log⟩
  funext name
  by_cases hname : name = path
  · rw [hname, hpath, target.entry]
  by_cases hname' : name = path ++ FTP_CONCATENATION_TEMP_SUFFIX
  · rw [hname', htemp, target.temporary]
  by_cases hname'' : name = path ++ FIRST_PART
  · rw [hname'', hpart, target.parts]
  exact h.rest name hname hname' hname''

omit [DecidableEq κ] in
/-- The last call of every undo: the file goes back to its name. -/
theorem Aside.back (h : Aside w v path) (target : PlainTarget w.fs path content)
    (hpath : v.fs.entries path = none)
    (htemp : v.fs.entries (path ++ FTP_CONCATENATION_TEMP_SUFFIX) = some (.file false content))
    (hpart : v.fs.entries (path ++ FIRST_PART) = none) (serves : ServesUndo native path) :
    ∃ fs, native.renameFile (path ++ FTP_CONCATENATION_TEMP_SUFFIX) path v.fs = (0, fs) ∧
      Restored w (v.setFs fs) := by
  obtain ⟨hother, hpart', -⟩ := Uploading.other_names path
  refine ⟨_, serves.rename _ _ content _ (.inr rfl) htemp hpath, ?_⟩
  refine (h.moved (by simp) (by simp)).restored target ?_ ?_ ?_
  · simp [VfsWorld.setFs, Uploading.moved]
  · simp [VfsWorld.setFs, Uploading.moved, hother]
  · simp [VfsWorld.setFs, Uploading.moved, hpart', hpart, Function.update_apply]

omit [DecidableEq κ] in
/-- The directory goes, then the file goes back. -/
theorem Aside.undo (h : Aside w v path) (target : PlainTarget w.fs path content)
    (hpath : v.fs.entries path = some .directory)
    (htemp : v.fs.entries (path ++ FTP_CONCATENATION_TEMP_SUFFIX) = some (.file false content))
    (hpart : v.fs.entries (path ++ FIRST_PART) = none) (serves : ServesUndo native path) :
    Restored w (ftpVfsUndoConversion native path (path ++ FTP_CONCATENATION_TEMP_SUFFIX) false
      true v) := by
  obtain ⟨hother, hpart', -⟩ := Uploading.other_names path
  have hdelete : native.deleteDirectory path v.fs = (0, v.fs.setEntry path none) := by
    rw [serves.deleteDirectory]
    simp [SdCard.deleteDirectory, hpath, hpart]
  have hgone := (h.setEntry none).record 0
  obtain ⟨fs, hrename, hrestored⟩ := hgone.back target
    (by simp [ftpServerRecordFsResult, VfsWorld.setFs, SdCard.setEntry])
    (by simp [ftpServerRecordFsResult, VfsWorld.setFs, SdCard.setEntry, hother, htemp])
    (by simp [ftpServerRecordFsResult, VfsWorld.setFs, SdCard.setEntry, hpart', hpart]) serves
  unfold ftpVfsUndoConversion
  simp only [Bool.false_eq_true, if_false, if_true, recordedCall_eq hdelete]
  rw [recordedCall_eq hrename]
  exact ⟨hrestored.entries, hrestored.file, hrestored.state, hrestored.log⟩

omit [DecidableEq κ] in
/-- The part is moved out first. -/
theorem Aside.undoPart (h : Aside w v path) (target : PlainTarget w.fs path content)
    (hpath : v.fs.entries path = some .directory)
    (htemp : v.fs.entries (path ++ FTP_CONCATENATION_TEMP_SUFFIX) = none)
    (hpart : v.fs.entries (path ++ FIRST_PART) = some (.file false content))
    (serves : ServesUndo native path) :
    Restored w (ftpVfsUndoConversion native path (path ++ FTP_CONCATENATION_TEMP_SUFFIX) true
      true v) := by
  obtain ⟨hother, hpart', hnames⟩ := Uploading.other_names path
  have hout := serves.rename _ _ content v.fs (.inl rfl) hpart htemp
  have hmoved : Aside w (v.setFs (Uploading.moved (path ++ FIRST_PART)
      (path ++ FTP_CONCATENATION_TEMP_SUFFIX) content v.fs)) path :=
    h.moved (by simp) (by simp)
  have hundo := (hmoved.record 0).undo target
    (by simp [ftpServerRecordFsResult, VfsWorld.setFs, Uploading.moved, hother.symm, hpart'.symm,
      hpath])
    (by simp [ftpServerRecordFsResult, VfsWorld.setFs, Uploading.moved])
    (by simp [ftpServerRecordFsResult, VfsWorld.setFs, Uploading.moved, hnames.symm]) serves
  rw [FIRST_PART] at hout hundo
  unfold ftpVfsUndoConversion at hundo ⊢
  simp only [Bool.false_eq_true, if_false, if_true, recordedCall_eq hout] at hundo ⊢
  exact hundo

end Undo

/-! ## The failing steps -/

section Steps

variable {path : TranslatedPath} {content : List UInt8} {result : UInt32} {w : VfsWorld SdCard κ}

/-- The undo's calls are the card's own whichever forward step fails. -/
theorem failing_servesUndo (path : NativePath) (result : UInt32) (step : ConversionStep) :
    ServesUndo (failing path result step) path := by
  obtain ⟨hother, hpart, hnames⟩ := Uploading.other_names path
  refine ⟨fun source destination content card hcall hsource hdestination => ?_, ?_⟩
  · cases step with
    | createDirectory =>
      exact Uploading.renameFile_ok source destination content card hsource hdestination
    | setAttribute =>
      exact Uploading.renameFile_ok source destination content card hsource hdestination
    | renameAside =>
      refine SdCard.renameFileRefusing_ok ?_ hsource hdestination
      rcases hcall with rfl | rfl
      · exact .inl hpart
      · exact .inr hother.symm
    | moveIn =>
      refine SdCard.renameFileRefusing_ok ?_ hsource hdestination
      rcases hcall with rfl | rfl
      · exact .inl hnames.symm
      · exact .inr hpart.symm
  · cases step <;> rfl

/-- Reopening asks nothing of a step that may fail. -/
theorem conversionFailed_failing (path : NativePath) (result : UInt32) (step : ConversionStep)
    (file : κ) (name : NativePath) (v : VfsWorld SdCard κ) :
    SysAgent.conversionFailed (failing path result step) file name v =
      SysAgent.conversionFailed sdCard file name v := by
  cases step <;> rfl

theorem fsFileClose_failing (path : NativePath) (result : UInt32) (step : ConversionStep)
    (file : κ) (v : VfsWorld SdCard κ) :
    fsFileClose (failing path result step) file v = fsFileClose sdCard file v := by
  cases step <;> rfl

theorem Aside.closed (file : κ) (path : NativePath) :
    Aside (fsFileClose sdCard file w) (fsFileClose sdCard file w) path :=
  ⟨fun _ _ _ _ => rfl, rfl, rfl, fun _ h => h⟩

theorem PlainTarget.closed {path : NativePath} (target : PlainTarget w.fs path content) (file : κ) :
    PlainTarget (fsFileClose sdCard file w).fs path content :=
  ⟨target.entry, target.temporary, target.parts⟩

/-- The rename aside is refused, and there is no temporary file to clear. -/
theorem convert_renameAside_undone (target : PlainTarget w.fs path.bytes content)
    (hresult : R_FAILED result = true) (file : κ) :
    ∃ v, ftpVfsConvertToConcatenationFile (failing path.bytes result .renameAside) file
        path.bytes w = SysAgent.conversionFailed sdCard file path.bytes v ∧
      Restored (fsFileClose sdCard file w) v := by
  generalize hclosed : fsFileClose sdCard file w = closed
  have htemp : closed.fs.entries (path.bytes ++ FTP_CONCATENATION_TEMP_SUFFIX) = none := by
    rw [← hclosed]
    exact target.temporary
  have hrename : nativeCall ((failing path.bytes result .renameAside).renameFile path.bytes
      (path.bytes ++ FTP_CONCATENATION_TEMP_SUFFIX)) closed = (closed, result) :=
    nativeCall_eq (SdCard.renameFileRefusing_self _ _ result closed.fs)
  have hdelete : recordedCall ((failing path.bytes result .renameAside).deleteFile
      (path.bytes ++ FTP_CONCATENATION_TEMP_SUFFIX)) closed =
      (ftpServerRecordFsResult sdNotFound closed, sdNotFound) := by
    refine @recordedCall_eq κ _ closed sdNotFound closed.fs ?_
    simp [failing, sdCard, SdCard.deleteFile, htemp]
  have haside : renameAside (failing path.bytes result .renameAside) path.bytes
      (path.bytes ++ FTP_CONCATENATION_TEMP_SUFFIX)
      (fsFileClose (failing path.bytes result .renameAside) file w) =
        (ftpServerRecordFsResult sdNotFound closed, result) := by
    rw [fsFileClose_failing, hclosed]
    unfold renameAside
    simp only [hrename, hresult, if_true, hdelete, show R_FAILED sdNotFound = true by decide]
  rw [convert_of_renameAside_failed path.conversionFits haside hresult, conversionFailed_failing]
  exact ⟨_, rfl, ⟨rfl, rfl, rfl, fun _ h => h⟩⟩

omit [DecidableEq κ] in
/-- The rename aside, in a conversion that fails later. -/
theorem renameAside_step (native : NativeFs SdCard) {closed : VfsWorld SdCard κ}
    (target : PlainTarget closed.fs path.bytes content)
    (hrename : ∀ card : SdCard, card.entries path.bytes = some (.file false content) →
      card.entries (path.bytes ++ FTP_CONCATENATION_TEMP_SUFFIX) = none →
      native.renameFile path.bytes (path.bytes ++ FTP_CONCATENATION_TEMP_SUFFIX) card =
        (0, Uploading.moved path.bytes (path.bytes ++ FTP_CONCATENATION_TEMP_SUFFIX) content card)) :
    ∃ v, renameAside native path.bytes (path.bytes ++ FTP_CONCATENATION_TEMP_SUFFIX) closed =
        (v, 0) ∧ Aside closed v path.bytes ∧ v.fs.entries path.bytes = none ∧
      v.fs.entries (path.bytes ++ FTP_CONCATENATION_TEMP_SUFFIX) = some (.file false content) ∧
      v.fs.entries (path.bytes ++ FIRST_PART) = none := by
  obtain ⟨hother, hpart, hnames⟩ := Uploading.other_names path.bytes
  have hstart : Aside closed closed path.bytes := ⟨fun _ _ _ _ => rfl, rfl, rfl, fun _ h => h⟩
  have hmoved := nativeCall_eq (hrename closed.fs target.entry target.temporary)
  refine ⟨_, renameAside_of_first hmoved (by decide), hstart.moved (by simp) (by simp), ?_, ?_, ?_⟩
  · simp [VfsWorld.setFs, Uploading.moved, hother.symm]
  · simp [VfsWorld.setFs, Uploading.moved]
  · simp [VfsWorld.setFs, Uploading.moved, hnames.symm, hpart, target.parts]

omit [DecidableEq κ] in
/-- The directory is made in the place of the file. -/
theorem createDirectory_step (native : NativeFs SdCard) {closed v : VfsWorld SdCard κ}
    (hcreate : native.createDirectory = SdCard.createDirectory) (h : Aside closed v path.bytes)
    (hpath : v.fs.entries path.bytes = none)
    (htemp : v.fs.entries (path.bytes ++ FTP_CONCATENATION_TEMP_SUFFIX) =
      some (.file false content))
    (hpart : v.fs.entries (path.bytes ++ FIRST_PART) = none) :
    ∃ v', recordedCall (native.createDirectory path.bytes) v = (v', 0) ∧
      Aside closed v' path.bytes ∧ v'.fs.entries path.bytes = some .directory ∧
      v'.fs.entries (path.bytes ++ FTP_CONCATENATION_TEMP_SUFFIX) = some (.file false content) ∧
      v'.fs.entries (path.bytes ++ FIRST_PART) = none := by
  obtain ⟨hother, hpart', -⟩ := Uploading.other_names path.bytes
  have hmade : native.createDirectory path.bytes v.fs =
      (0, v.fs.setEntry path.bytes (some .directory)) := by
    rw [hcreate]
    simp [SdCard.createDirectory, hpath]
  refine ⟨_, recordedCall_eq hmade, (h.setEntry _).record 0, ?_, ?_, ?_⟩
  · simp [ftpServerRecordFsResult, VfsWorld.setFs, SdCard.setEntry]
  · simp [ftpServerRecordFsResult, VfsWorld.setFs, SdCard.setEntry, hother, htemp]
  · simp [ftpServerRecordFsResult, VfsWorld.setFs, SdCard.setEntry, hpart', hpart]

/-- The directory cannot be made: the file goes back. -/
theorem convert_createDirectory_undone (target : PlainTarget w.fs path.bytes content)
    (hresult : R_FAILED result = true) (file : κ) :
    ∃ v, ftpVfsConvertToConcatenationFile (failing path.bytes result .createDirectory) file
        path.bytes w = SysAgent.conversionFailed sdCard file path.bytes v ∧
      Restored (fsFileClose sdCard file w) v := by
  have hclosed := target.closed file
  obtain ⟨v, haside, hv, hpath, htemp, hpart⟩ := renameAside_step
    (failing path.bytes result .createDirectory) hclosed
    (fun card => Uploading.renameFile_ok _ _ content card)
  rw [← fsFileClose_failing path.bytes result .createDirectory] at haside
  have hrefused : recordedCall ((failing path.bytes result .createDirectory).createDirectory
      path.bytes) (ftpServerRecordFsResult 0 v) =
        (ftpServerRecordFsResult result (ftpServerRecordFsResult 0 v), result) := by
    unfold recordedCall nativeCall
    rfl
  obtain ⟨fs, hback, hrestored⟩ := ((hv.record 0).record result).back hclosed hpath htemp hpart
    (failing_servesUndo path.bytes result .createDirectory)
  rw [convert_of_createDirectory_failed path.conversionFits haside (by decide) hrefused hresult,
    conversionFailed_failing, nativeCall_eq hback]
  exact ⟨_, rfl, hrestored⟩

/-- The file cannot be moved in: the directory goes, and the file goes back. -/
theorem convert_moveIn_undone (target : PlainTarget w.fs path.bytes content)
    (hresult : R_FAILED result = true) (file : κ) :
    ∃ v, ftpVfsConvertToConcatenationFile (failing path.bytes result .moveIn) file
        path.bytes w = SysAgent.conversionFailed sdCard file path.bytes v ∧
      Restored (fsFileClose sdCard file w) v := by
  have hclosed := target.closed file
  obtain ⟨hother, -, -⟩ := Uploading.other_names path.bytes
  obtain ⟨v, haside, hv, hpath, htemp, hpart⟩ := renameAside_step
    (failing path.bytes result .moveIn) hclosed
    (fun card => SdCard.renameFileRefusing_ok (.inl hother.symm))
  rw [← fsFileClose_failing path.bytes result .moveIn] at haside
  obtain ⟨v', hcreate, hv', hpath', htemp', hpart'⟩ := createDirectory_step
    (failing path.bytes result .moveIn) rfl (hv.record 0) hpath htemp hpart
  have hrefused : recordedCall ((failing path.bytes result .moveIn).renameFile
      (path.bytes ++ FTP_CONCATENATION_TEMP_SUFFIX) (path.bytes ++ FIRST_PART)) v' =
        (ftpServerRecordFsResult result (v'.setFs v'.fs), result) :=
    recordedCall_eq (SdCard.renameFileRefusing_self _ _ result v'.fs)
  have hundone := (hv'.record result).undo hclosed hpath' htemp' hpart'
    (failing_servesUndo path.bytes result .moveIn)
  rw [convert_of_moveIn_failed path.conversionFits haside (by decide) hcreate (by decide) hrefused
    hresult, conversionFailed_failing]
  exact ⟨_, rfl, hundone⟩

/-- The directory is not marked: the part is moved out, and then as before. -/
theorem convert_setAttribute_undone (target : PlainTarget w.fs path.bytes content)
    (hresult : R_FAILED result = true) (file : κ) :
    ∃ v, ftpVfsConvertToConcatenationFile (failing path.bytes result .setAttribute) file
        path.bytes w = SysAgent.conversionFailed sdCard file path.bytes v ∧
      Restored (fsFileClose sdCard file w) v := by
  have hclosed := target.closed file
  obtain ⟨hother, hpartName, hnames⟩ := Uploading.other_names path.bytes
  obtain ⟨v, haside, hv, hpath, htemp, hpart⟩ := renameAside_step
    (failing path.bytes result .setAttribute) hclosed
    (fun card => Uploading.renameFile_ok _ _ content card)
  rw [← fsFileClose_failing path.bytes result .setAttribute] at haside
  obtain ⟨v', hcreate, hv', hpath', htemp', hpart'⟩ := createDirectory_step
    (failing path.bytes result .setAttribute) rfl (hv.record 0) hpath htemp hpart
  have hmove := recordedCall_eq (Uploading.renameFile_ok
    (path.bytes ++ FTP_CONCATENATION_TEMP_SUFFIX) (path.bytes ++ FIRST_PART) content v'.fs htemp'
    hpart')
  generalize hin : Uploading.moved (path.bytes ++ FTP_CONCATENATION_TEMP_SUFFIX)
    (path.bytes ++ FIRST_PART) content v'.fs = card at hmove
  have hv'' : Aside (fsFileClose sdCard file w) (v'.setFs card) path.bytes := by
    rw [← hin]
    exact hv'.moved (by simp) (by simp)
  have hmoved : card.entries path.bytes = some .directory ∧
      card.entries (path.bytes ++ FTP_CONCATENATION_TEMP_SUFFIX) = none ∧
      card.entries (path.bytes ++ FIRST_PART) = some (.file false content) := by
    rw [← hin]
    simp [Uploading.moved, hother.symm, hpartName.symm, hnames, hpath']
  have hrefused : recordedCall
      ((failing path.bytes result .setAttribute).setConcatenationFileAttribute path.bytes)
      (ftpServerRecordFsResult 0 (v'.setFs card)) =
        (ftpServerRecordFsResult result (ftpServerRecordFsResult 0 (v'.setFs card)), result) := by
    unfold recordedCall nativeCall
    rfl
  have hundone := ((hv''.record 0).record result).undoPart hclosed hmoved.1 hmoved.2.1 hmoved.2.2
    (failing_servesUndo path.bytes result .setAttribute)
  rw [convert_of_setAttribute_failed path.conversionFits haside (by decide) hcreate (by decide)
    hmove (by decide) hrefused hresult, conversionFailed_failing]
  exact ⟨_, rfl, hundone⟩

/-- Whichever step fails, everything up to the reopening is put back. -/
theorem convert_undone (step : ConversionStep) (target : PlainTarget w.fs path.bytes content)
    (hresult : R_FAILED result = true) (file : κ) :
    ∃ v, ftpVfsConvertToConcatenationFile (failing path.bytes result step) file path.bytes w =
        SysAgent.conversionFailed sdCard file path.bytes v ∧
      Restored (fsFileClose sdCard file w) v := by
  cases step with
  | renameAside => exact convert_renameAside_undone target hresult file
  | createDirectory => exact convert_createDirectory_undone target hresult file
  | moveIn => exact convert_moveIn_undone target hresult file
  | setAttribute => exact convert_setAttribute_undone target hresult file

end Steps

/-- A conversion of which one step is refused answers -1, leaves the names as they were and the handle
    open on the path, with the caller's offset and the size of the file as the allocated size; what
    held between the open and the close of the upload still holds. -/
theorem failed_conversion_undone (step : ConversionStep) (result : UInt32)
    (hresult : R_FAILED result = true) (file : κ) (path : TranslatedPath) (content : List UInt8)
    (w : VfsWorld SdCard κ) (target : PlainTarget w.fs path.bytes content) :
    let undone := ftpVfsConvertToConcatenationFile (failing path.bytes result step) file
      path.bytes w
    undone.2 = -1 ∧ undone.1.fs.entries = w.fs.entries ∧
      (∃ handle, undone.1.file file =
          { w.file file with file := handle, allocatedSize := content.length, isOpen := true } ∧
        undone.1.fs.handles handle = some path.bytes) ∧
      undone.1.g_vfsState = w.g_vfsState ∧
      ∀ done, Uploading file path.bytes false content done w →
        Uploading file path.bytes false content done undone.1 := by
  intro undone
  obtain ⟨v, hconvert, hrestored⟩ := convert_undone step target hresult file
  obtain ⟨hanswer, hentries, ⟨handle, hfile, hhandle, hnext⟩, hstate, hlog⟩ :=
    hrestored.conversionFailed file (target.closed file).entry
  have hundone : undone = SysAgent.conversionFailed sdCard file path.bytes v := hconvert
  rw [← hundone] at hanswer hentries hfile hhandle hnext hstate hlog
  have hfile' : undone.1.file file =
      { w.file file with file := handle, allocatedSize := content.length, isOpen := true } := by
    rw [hfile]
    simp [fsFileClose, VfsWorld.setFile]
  refine ⟨hanswer, hentries, ⟨handle, hfile', hhandle⟩, hstate, fun done up => ?_⟩
  constructor
  · obtain ⟨h, hopen, -, -⟩ := up.handle
    refine ⟨handle, ?_, hhandle, hnext⟩
    rw [hfile', hopen]
  · rw [hstate]
    exact up.slot
  · rw [hentries]
    exact up.entry
  · exact up.stored
  · exact up.plainSize
  · rw [hentries]
    exact up.temporary
  · rw [hentries]
    exact up.parts
  · exact hlog _ up.log

theorem failed_conversion_undone_moveIn :
    (ftpVfsConvertToConcatenationFile (failing uploadPath.bytes 0x4E02 .moveIn) (0 : Fin 4)
        uploadPath.bytes (oneFileAdapter false)).1.fs.entries =
      (oneFileAdapter false).fs.entries := by
  obtain ⟨ready, hentry, -, -⟩ := oneFileAdapter_ready false
  have htemp : (oneFileAdapter false).fs.entries
      (uploadPath.bytes ++ FTP_CONCATENATION_TEMP_SUFFIX) = none := by
    simp [oneFileAdapter, SdCard.setEntry, emptyCard, FTP_CONCATENATION_TEMP_SUFFIX]
  exact (failed_conversion_undone .moveIn 0x4E02 (by decide) 0 uploadPath [0x61]
    (oneFileAdapter false) ⟨hentry, htemp, ready.parts⟩).2.1

end SysAgent
