import SysAgent.Search.Generations
import SysAgent.Search.SessionSteps

set_option autoImplicit false

/-! # The session and its file agree

Whatever the commands do to the worker and whatever fails: between two passes the status says what
is in the session file. A pass works in the temporary file alone until its commit, and the commit
puts back what it moved unless it goes through; so a step of a pass keeps the current file, and what
the status loses to the progress of a pass is put back at its end. -/

namespace SysAgent.UnknownSearch

open StoreResult

/-! ## What a pass does to the directory -/

section Directory

/-- Nothing but the temporary file differs. -/
structure SameSession (dir dir' : Directory SessionFile) : Prop where
  current : dir' .current = dir .current
  backup : dir' .backup = dir .backup

theorem SameSession.refl (dir : Directory SessionFile) : SameSession dir dir :=
  ⟨rfl, rfl⟩

theorem SameSession.remove {dir dir' : Directory SessionFile} (h : SameSession dir dir') :
    SameSession dir (dir'.remove .temporary) :=
  ⟨h.current, h.backup⟩

theorem SameSession.write {dir dir' : Directory SessionFile} (h : SameSession dir dir')
    (content : Option (List UInt8)) :
    SameSession dir (Function.update dir' .temporary content) :=
  ⟨h.current, h.backup⟩

variable {dir dir' : Directory SessionFile} {writer writer' : SearchStoreWriter SessionFile}

/-- A writer is on the temporary file, and an abort takes it away. -/
theorem searchStoreWriterAbort_temporary (h : writer.path = .temporary) :
    (searchStoreWriterAbort dir writer).1 = dir.remove .temporary := by
  rw [searchStoreWriterAbort, h]

theorem searchStoreWriterOpen_same {io : WriterOpenAnswers} {metadata : SearchStoreMetadata}
    {opened : Bool}
    (h : searchStoreWriterOpen io dir .temporary metadata = (opened, dir', writer)) :
    SameSession dir dir' ∧ writer.path = .temporary ∧
      (opened = false → dir .temporary = none → dir' .temporary = none) := by
  unfold searchStoreWriterOpen at h
  dsimp only at h
  split_ifs at h with hfopen
  · obtain ⟨rfl, hrest⟩ := Prod.mk.inj h
    obtain ⟨rfl, rfl⟩ := Prod.mk.inj hrest
    exact ⟨.refl dir, rfl, fun _ hnone => hnone⟩
  · split at h
    · obtain ⟨rfl, hrest⟩ := Prod.mk.inj h
      obtain ⟨rfl, rfl⟩ := Prod.mk.inj hrest
      exact ⟨(SameSession.refl dir).write _, rfl, fun hfalse => Bool.noConfusion hfalse⟩
    · obtain ⟨rfl, hrest⟩ := Prod.mk.inj h
      obtain ⟨rfl, rfl⟩ := Prod.mk.inj hrest
      exact ⟨((SameSession.refl dir).write _).remove, rfl, fun _ _ => rfl⟩

theorem searchStoreWriterAddBlock_path {io : AddBlockAnswers} {base : UInt64} {slotCount : UInt32}
    {values : List UInt8} {mask : Option (List UInt8)} {added : Bool}
    (h : searchStoreWriterAddBlock io writer base slotCount values mask = (added, writer')) :
    writer'.path = writer.path := by
  have hpath : (searchStoreWriterAddBlock io writer base slotCount values mask).2.path =
      writer.path := by
    unfold searchStoreWriterAddBlock
    dsimp only
    split
    · rfl
    · split
      · rfl
      · split
        · rfl
        · split
          · rfl
          · split
            · rfl
            · split <;> rfl
  rwa [h] at hpath

/-- `searchStoreWriterFinish` touches no other file, whether it succeeds or not; if it does, the
    header is the one that it writes. -/
theorem searchStoreWriterFinish_same {io : FinishAnswers} {finished : Bool}
    (hpath : writer.path = .temporary)
    (h : searchStoreWriterFinish io dir writer = (finished, dir', writer')) :
    SameSession dir dir' ∧ writer'.path = .temporary ∧
      (finished = true → writer'.header = finalHeader writer.header) := by
  have hremoved : SameSession dir (dir.remove writer.path) := by
    rw [hpath]
    exact (SameSession.refl dir).remove
  have hfalse : (false, dir.remove writer.path, { writer with file := none }) =
      (finished, dir', writer') → SameSession dir dir' ∧ writer'.path = .temporary ∧
        (finished = true → writer'.header = finalHeader writer.header) := by
    intro heq
    obtain ⟨rfl, hrest⟩ := Prod.mk.inj heq
    obtain ⟨rfl, rfl⟩ := Prod.mk.inj hrest
    exact ⟨hremoved, hpath, fun hcontra => Bool.noConfusion hcontra⟩
  have hlate : (false, dir.remove writer.path,
      { writer with file := none, header := finalHeader writer.header }) =
      (finished, dir', writer') → SameSession dir dir' ∧ writer'.path = .temporary ∧
        (finished = true → writer'.header = finalHeader writer.header) := by
    intro heq
    obtain ⟨rfl, hrest⟩ := Prod.mk.inj heq
    obtain ⟨rfl, rfl⟩ := Prod.mk.inj hrest
    exact ⟨hremoved, hpath, fun _ => rfl⟩
  unfold searchStoreWriterFinish at h
  dsimp only at h
  split at h
  · exact hfalse h
  · split at h
    · exact hfalse h
    · split at h
      · exact hfalse h
      · split at h
        · split at h
          · split at h
            · obtain ⟨rfl, hrest⟩ := Prod.mk.inj h
              obtain ⟨rfl, rfl⟩ := Prod.mk.inj hrest
              refine ⟨?_, hpath, fun _ => rfl⟩
              rw [hpath]
              exact (SameSession.refl dir).write _
            · exact hlate h
          · exact hlate h
        · exact hlate h

theorem rename_true {source target : SessionFile} {device : Bool}
    (h : dir.rename source target device = (true, dir')) :
    dir' = Directory.remove (Function.update dir target (dir source)) source := by
  unfold Directory.rename at h
  split_ifs at h
  · exact (Prod.mk.inj h).2.symm
  · cases (Prod.mk.inj h).1

theorem rename_false {source target : SessionFile} {device : Bool}
    (h : dir.rename source target device = (false, dir')) :
    dir' = dir ∧ (device = false ∨ dir source = none) := by
  unfold Directory.rename at h
  split_ifs at h with hdevice
  · cases (Prod.mk.inj h).1
  · refine ⟨(Prod.mk.inj h).2.symm, ?_⟩
    rw [Bool.and_eq_true, not_and_or, Bool.not_eq_true, Bool.not_eq_true,
      Option.isSome_eq_false_iff, Option.isNone_iff_eq_none] at hdevice
    exact hdevice

/-- A commit that goes through installs the temporary file. -/
theorem searchStoreCommit_true {io : CommitAnswers} {replaces : Bool}
    (h : searchStoreCommit io dir .temporary .current .backup replaces = (true, dir')) :
    dir' .current = dir .temporary ∧ dir' .temporary = none ∧ dir' .backup = none := by
  refine ⟨searchStoreCommit_ok h, ?_⟩
  unfold searchStoreCommit at h
  dsimp only at h
  split at h
  · cases (Prod.mk.inj h).1
  · rename_i before hbefore
    split at h
    · cases (Prod.mk.inj h).1
    · rename_i after hrename
      obtain rfl := (Prod.mk.inj h).2
      obtain rfl := rename_true hrename
      cases replaces with
      | false =>
        obtain rfl := (Prod.mk.inj hbefore).2
        exact ⟨rfl, rfl⟩
      | true => exact ⟨rfl, rfl⟩

/-- One that does not go through puts back what it moved, as long as that rename succeeds. -/
theorem searchStoreCommit_false {io : CommitAnswers} {replaces : Bool}
    (hbackup : dir .backup = none) (hcurrent : replaces = true → dir .current ≠ none)
    (hrestore : io.install = false → io.restore = true) (htemporary : dir .temporary ≠ none)
    (h : searchStoreCommit io dir .temporary .current .backup replaces = (false, dir')) :
    SameSession dir dir' := by
  have hclean : SameSession dir (dir.remove .backup) := ⟨rfl, hbackup.symm⟩
  unfold searchStoreCommit at h
  dsimp only at h
  split at h
  · rename_i before hbefore
    obtain rfl := (Prod.mk.inj h).2
    cases replaces with
    | false => cases (Prod.mk.inj hbefore).1
    | true =>
      -- the file stays where it is
      obtain ⟨rfl, -⟩ := rename_false hbefore
      exact hclean
  · rename_i before hbefore
    split at h
    · rename_i after hrename
      obtain rfl := (Prod.mk.inj h).2
      obtain ⟨rfl, hfails⟩ := rename_false hrename
      cases replaces with
      | false =>
        obtain rfl := (Prod.mk.inj hbefore).2
        exact hclean
      | true =>
        have hmoved := rename_true hbefore
        have hinstall : io.install = false := by
          rcases hfails with hinstall | hnone
          · exact hinstall
          · rw [hmoved] at hnone
            exact absurd hnone htemporary
        have hback : after.rename .backup .current io.restore =
            (true, Directory.remove (Function.update after .current (after .backup)) .backup) := by
          have hsome : (after .backup).isSome = true := by
            rw [hmoved]
            exact Option.isSome_iff_ne_none.2 (hcurrent rfl)
          rw [Directory.rename, hrestore hinstall, hsome]
          rfl
        rw [if_pos rfl, hback, hmoved]
        exact ⟨rfl, hbackup.symm⟩
    · cases (Prod.mk.inj h).1

end Directory

/-! ## What the status says of the files -/

section Stored

/-- A property of a session's addresses that refinements keep. -/
def Shrinks (P : UInt64 → List UInt64 → Prop) : Prop :=
  ∀ sessionId addresses fewer, fewer.Sublist addresses → P sessionId addresses → P sessionId fewer

variable (P : UInt64 → List UInt64 → Prop)

/-- The session file is a generation of the request with so many candidates. -/
def Stored (sessionId : UInt64) (r : BeginRequest) (generation candidateCount : UInt64)
    (dir : Directory SessionFile) : Prop :=
  ∃ kept : List (BlockCall (makeStoreMetadata r generation).width.toNat),
    SessionHolds (makeStoreMetadata r generation) dir kept ∧
      candidateCount = UInt64.ofNat (candidates kept) ∧ P sessionId (candidateAddresses kept)

/-- What was committed before a pass, `none` before the first, is still there. -/
def Kept (dir : Directory SessionFile) (last : Option Committed) (x : Session) :
    Option UInt64 → Prop
  | none =>
    x.committed = false ∧ dir .current = none ∧ last = none ∧
      ∀ addresses, P x.sessionId addresses
  | some candidateCount =>
    x.committed = true ∧ Stored P x.sessionId x.request x.generation candidateCount dir ∧
      last = some ⟨dir .current, x.generation, candidateCount⟩

/-- What was committed by the status of a session that no pass counts in. -/
def Session.held (x : Session) : Option UInt64 :=
  if x.committed then some x.candidates else none

/-- The writer has taken blocks that fit the buffers of every later pass. -/
def WriterFits (sessionId : UInt64) (metadata : SearchStoreMetadata)
    (writer : SearchStoreWriter SessionFile) : Prop :=
  ∃ calls : List (BlockCall metadata.width.toNat),
    WriterHolds metadata (storedBlocks 0 calls) .temporary writer ∧
      (∀ call ∈ calls, Fitting metadata call) ∧ P sessionId (candidateAddresses calls)

variable {P} {dir dir' : Directory SessionFile} {last : Option Committed} {x : Session}

theorem Stored.congr {sessionId generation candidateCount : UInt64} {r : BeginRequest}
    (h : Stored P sessionId r generation candidateCount dir)
    (hcurrent : dir' .current = dir .current) :
    Stored P sessionId r generation candidateCount dir' := by
  obtain ⟨kept, hholds, hcount, hP⟩ := h
  exact ⟨kept, ⟨hholds.storable, hholds.fitting, hcurrent.trans hholds.current⟩, hcount, hP⟩

theorem Kept.congr {held : Option UInt64} (h : Kept P dir last x held)
    (hcurrent : dir' .current = dir .current) : Kept P dir' last x held := by
  cases held with
  | none =>
    obtain ⟨hcommitted, hnone, hrest⟩ := h
    exact ⟨hcommitted, hcurrent.trans hnone, hrest⟩
  | some candidateCount =>
    obtain ⟨hcommitted, hstored, hlast⟩ := h
    refine ⟨hcommitted, hstored.congr hcurrent, ?_⟩
    rw [hcurrent]
    exact hlast

theorem Kept.exists_current {held : Option UInt64} (h : Kept P dir last x held)
    (hsome : held.isSome = true) : dir .current ≠ none := by
  cases held with
  | none => cases hsome
  | some candidateCount =>
    obtain ⟨-, ⟨kept, hholds, -⟩, -⟩ := h
    rw [hholds.current]
    simp

/-- A finished store of such blocks, once it is the session file. -/
theorem WriterFits.stored {sessionId : UInt64} {r : BeginRequest} {generation : UInt64}
    {writer : SearchStoreWriter SessionFile} {io : FinishAnswers} {written : Directory SessionFile}
    {writer' : SearchStoreWriter SessionFile} (hP : Shrinks P)
    (h : WriterFits P sessionId (makeStoreMetadata r generation) writer)
    (hfinish : searchStoreWriterFinish io dir writer = (true, written, writer'))
    (hcurrent : dir' .current = written .temporary) :
    Stored P sessionId r generation writer'.header.candidateCount dir' := by
  obtain ⟨calls, hwriter, hfitting, hcalls⟩ := h
  obtain ⟨hwidth, hwidth8⟩ := makeStoreMetadata_width r generation
  obtain ⟨rfl, hlength⟩ := searchStoreWriterFinish_ok hwriter hfinish
  have hpos : 0 < (makeStoreMetadata r generation).width.toNat :=
    Nat.pos_of_ne_zero fun hzero => hwidth (UInt32.toNat_inj.1 hzero)
  have hmem : ∀ call ∈ keptCalls calls, Fitting (makeStoreMetadata r generation) call := by
    intro call hcall
    exact hfitting call (List.mem_filter.1 hcall).1
  refine ⟨keptCalls calls, ⟨⟨hwidth, hwidth8, ?_, ?_, ?_⟩, hmem, ?_⟩, ?_, ?_⟩
  · intro call hcall
    exact (hmem call hcall).payload hpos
  · intro call hcall
    exact slots_ne_nil_of_kept hcall
  · rw [storedBlocks_keptCalls]
    exact hlength
  · rw [hcurrent, storedBlocks_keptCalls, Function.update_self]
  · rw [(searchStoreWriterFinish_same hwriter.path_eq hfinish).2.2 rfl, hwriter.header,
      candidates_keptCalls, ← totalCandidates_storedBlocks 0 calls]
    rfl
  · refine hP _ _ _ ?_ hcalls
    exact List.Sublist.flatMap List.filter_sublist _

end Stored

/-! ## The passes -/

section Passes

variable (P : UInt64 → List UInt64 → Prop)

/-- The next generation of a session, as far as it has been written: the reader is behind the blocks
    that have been compared. -/
def Compared (sessionId : UInt64) (expected : SearchStoreMetadata) (dir : Directory SessionFile)
    (reader : SearchStoreReader) (writer : SearchStoreWriter SessionFile) : Prop :=
  ∃ before after calls : List (BlockCall expected.width.toNat),
    ∃ position, SessionHolds expected dir (before ++ after) ∧
      P sessionId (candidateAddresses (before ++ after)) ∧
      reader =
        readerAt expected (storedBlocks 0 (before ++ after)) (storedBlocks 0 before) position ∧
      @WriterHolds SessionFile { expected with generation := expected.generation + 1 }
        (storedBlocks 0 calls) .temporary writer ∧
      (∀ call ∈ calls, Fitting expected call) ∧
      (candidateAddresses calls).Sublist (candidateAddresses before)

/-- The end of a pass has a writer of which every call succeeded, or says what failed. -/
structure EndHolds (dir : Directory SessionFile) (x : Session) (pass : PassEnd) : Prop where
  unopened : pass.writer = none → dir .temporary = none ∧ pass.failure ≠ none
  path : ∀ writer, pass.writer = some writer → writer.path = .temporary
  written : ∀ writer, pass.writer = some writer → pass.failure = none → pass.error = 0 →
    WriterFits P x.sessionId (makeStoreMetadata x.request
      (if pass.previousCandidates.isSome then x.generation + 1 else 0)) writer

/-- What the worker knows between two of its steps. -/
def WorkerHolds (dir : Directory SessionFile) (last : Option Committed) (x : Session) :
    Worker → Prop
  | .idle =>
    x.state ≠ .running ∧ dir .temporary = none ∧ Kept P dir last x x.held ∧
      (x.state = .queued → (x.operation = .begin ↔ x.committed = false)) ∧
      (x.state ≠ .queued → x.committed = true →
        x.totalMatches = x.candidates ∧ x.storedMatches = x.candidates)
  | .opening session _ =>
    x.state = .running ∧ session = x ∧ dir .temporary = none ∧ Kept P dir last x x.held ∧
      (x.operation = .begin ↔ x.committed = false)
  | .reading pass =>
    x.state = .running ∧ Kept P dir last x none ∧ pass.request = x.request ∧
      WriterFits P x.sessionId (makeStoreMetadata x.request 0) pass.writer
  | .comparing pass =>
    x.state = .running ∧ Kept P dir last x (some pass.previousCandidates) ∧
      pass.expected = makeStoreMetadata x.request x.generation ∧
      pass.previous.length = valuesBuffer ∧ pass.oldMask.length = maskBuffer ∧
      Compared P x.sessionId pass.expected dir pass.reader pass.writer
  | .ending pass =>
    x.state = .running ∧ Kept P dir last x pass.previousCandidates ∧ EndHolds P dir x pass
  | .counting refining candidateCount =>
    x.state = .running ∧ dir .temporary = none ∧
      Stored P x.sessionId x.request (if refining then x.generation + 1 else 0) candidateCount dir
  | .restoring candidateCount result =>
    x.state = .running ∧ dir .temporary = none ∧ Kept P dir last x (some candidateCount) ∧
      result.committed = true ∧ (result.state = .cancelled ∨ result.state = .error)
  | .finishing result =>
    x.state = .running ∧ dir .temporary = none ∧
      ((result.committed = false ∧ Kept P dir last x none ∧
          (result.state = .cancelled ∨ result.state = .error)) ∨
        (result.committed = true ∧ x.totalMatches = x.candidates ∧ x.storedMatches = x.candidates ∧
          Stored P x.sessionId x.request x.generation x.candidates dir ∧
          (result.state = .done ∨ (result.state = .cancelled ∨ result.state = .error) ∧
            last = some ⟨dir .current, x.generation, x.candidates⟩)))
  | .faulted => False

variable {P} {dir dir' : Directory SessionFile} {last : Option Committed} {x : Session}

theorem WriterFits.path {sessionId : UInt64} {metadata : SearchStoreMetadata}
    {writer : SearchStoreWriter SessionFile} (h : WriterFits P sessionId metadata writer) :
    writer.path = .temporary := by
  obtain ⟨calls, hwriter, -⟩ := h
  exact hwriter.path_eq

theorem Compared.path {sessionId : UInt64} {expected : SearchStoreMetadata}
    {reader : SearchStoreReader} {writer : SearchStoreWriter SessionFile}
    (h : Compared P sessionId expected dir reader writer) : writer.path = .temporary := by
  obtain ⟨before, after, calls, position, -, -, -, hwriter, -⟩ := h
  exact hwriter.path_eq

/-! ### Progress -/

@[simp] theorem progress_state (x : Session) (p : Progress) : (x.progress p).state = x.state := by
  cases p <;> rfl

@[simp] theorem progress_sessionId (x : Session) (p : Progress) :
    (x.progress p).sessionId = x.sessionId := by
  cases p <;> rfl

@[simp] theorem progress_request (x : Session) (p : Progress) :
    (x.progress p).request = x.request := by
  cases p <;> rfl

@[simp] theorem progress_generation (x : Session) (p : Progress) :
    (x.progress p).generation = x.generation := by
  cases p <;> rfl

@[simp] theorem progress_committed (x : Session) (p : Progress) :
    (x.progress p).committed = x.committed := by
  cases p <;> rfl

theorem Kept.progress {held : Option UInt64} (h : Kept P dir last x held) (p : Progress) :
    Kept P dir last (x.progress p) held := by
  cases p with
  | none => exact h
  | readError => cases held <;> exact h
  | scanned amount candidateCount => cases held <;> exact h

/-! ### A first pass -/

theorem BeginPass.stop_holds {pass : BeginPass} {failure : Option SearchFailure} {error : UInt32}
    (hstate : x.state = .running) (hkept : Kept P dir last x none)
    (hpath : pass.writer.path = .temporary)
    (hwritten : failure = none → error = 0 →
      WriterFits P x.sessionId (makeStoreMetadata x.request 0) pass.writer) :
    WorkerHolds P dir last x (pass.stop failure error) := by
  refine ⟨hstate, hkept, ⟨?_, ?_, ?_⟩⟩
  · intro hnone
    cases hnone
  · intro writer hwriter
    obtain rfl := Option.some.inj hwriter
    exact hpath
  · intro writer hwriter hfailure herror
    obtain rfl := Option.some.inj hwriter
    exact hwritten hfailure herror

/-- A writer that has just been opened. -/
theorem writerFits_nil {sessionId : UInt64} {metadata : SearchStoreMetadata}
    {writer : SearchStoreWriter SessionFile} (h : WriterHolds metadata [] .temporary writer)
    (hP : P sessionId []) : WriterFits P sessionId metadata writer := by
  refine ⟨[], h, ?_, hP⟩
  intro call hcall
  cases hcall

theorem openBegin_holds (answers : OpenAnswers) {exactValue : UInt64}
    (h : WorkerHolds P dir last x (.opening x exactValue)) (hbegin : x.operation = .begin) :
    SameSession dir (openBegin answers x dir).1 ∧
      WorkerHolds P (openBegin answers x dir).1 last x (openBegin answers x dir).2 := by
  obtain ⟨hstate, -, htemporary, hkept, hoperation⟩ := h
  have hcommitted := hoperation.1 hbegin
  have hheld : x.held = none := by rw [Session.held, hcommitted]; rfl
  rw [hheld] at hkept
  have hrefuse : ∀ {d : Directory SessionFile} (error : UInt32), d .temporary = none →
      Kept P d last x none → WorkerHolds P d last x (.ending
        { previousCandidates := none, writer := none, pinned := false, failure := some .ioError,
          error := error }) := by
    intro d error hnone hd
    refine ⟨hstate, hd, ⟨fun _ => ⟨hnone, by simp⟩, ?_, ?_⟩⟩
    · intro writer hwriter
      cases hwriter
    · intro writer hwriter
      cases hwriter
  unfold openBegin
  dsimp only
  split
  · exact ⟨.refl dir, hrefuse _ htemporary hkept⟩
  · split
    · rename_i d writer hopen
      obtain ⟨hsame, -, hremoved⟩ := searchStoreWriterOpen_same hopen
      exact ⟨hsame, hrefuse _ (hremoved rfl htemporary) (hkept.congr hsame.current)⟩
    · rename_i d writer hopen
      obtain ⟨hsame, hpath, -⟩ := searchStoreWriterOpen_same hopen
      have hwriter := (searchStoreWriterOpen_ok hopen).1
      have hkept' := hkept.congr hsame.current
      cases hpause : beginPause x.pause answers.pause with
      | error failed =>
        obtain ⟨failure, error⟩ := failed
        refine ⟨hsame, BeginPass.stop_holds hstate hkept' hpath ?_⟩
        intro hnone
        cases hnone
      | ok pinned =>
        exact ⟨hsame, hstate, hkept', rfl, writerFits_nil hwriter (hkept.2.2.2 _)⟩

theorem outerTurn_holds (answers : TurnAnswers) (cancelled : Bool) {pass : BeginPass}
    (h : WorkerHolds P dir last x (.reading pass)) :
    WorkerHolds P dir last (x.progress (outerTurn answers cancelled pass).1)
      (outerTurn answers cancelled pass).2 := by
  obtain ⟨hstate, hkept, hrequest, hwriter⟩ := h
  have hstop : ∀ failure error,
      WorkerHolds P dir last (x.progress .none) (pass.stop failure error) := by
    intro failure error
    exact BeginPass.stop_holds hstate hkept hwriter.path fun _ _ => hwriter
  unfold outerTurn
  dsimp only
  split
  · split
    · exact hstop _ _
    · split
      · exact hstop _ _
      · split
        · exact hstop _ _
        · exact ⟨hstate, hkept.progress (.scanned _ _), hrequest, hwriter⟩
        · exact ⟨hstate, hkept, hrequest, hwriter⟩
  · exact hstop _ _

/-- The block of a chunk fits. -/
theorem chunkBlock_fitting {r : BeginRequest} {raw : Nat → UInt8} {mappingEnd cursor amount : Nat}
    {call : BlockCall r.metadata.width.toNat} (hamount : amount ≤ r.maximumSpan)
    (h : chunkBlock r raw mappingEnd cursor amount = some call) :
    Fitting (makeStoreMetadata r 0) call := by
  obtain ⟨hcounts, hmasks⟩ := chunkBlock_slots r raw mappingEnd cursor amount
  rw [h, Option.toList_some] at hcounts hmasks
  have hmem : call.slotCount.toNat ∈ [chunkSlots r mappingEnd cursor amount].filter (· ≠ 0) := by
    rw [← hcounts]
    exact List.mem_singleton_self _
  have hcount := List.mem_singleton.1 (List.mem_filter.1 hmem).1
  obtain ⟨hvalues, hspan⟩ := chunkSlots_fit (r := r) mappingEnd cursor hamount
  rw [← hcount] at hvalues hspan
  refine ⟨hvalues, hspan, ?_, ?_⟩
  · have hwidth : 0 < r.width := by
      rcases r.width_cases with hw | hw | hw | hw <;> omega
    have hle := Nat.le_trans (Nat.le_mul_of_pos_right call.slotCount.toNat hwidth) hvalues
    have hchunk : UNKNOWN_CHUNK_SIZE = 0x40000 := rfl
    omega
  · intro _ m hm
    rw [hmasks call (List.mem_singleton_self _)] at hm
    cases hm

/-- A writer with one more block. -/
theorem WriterFits.add {sessionId : UInt64} {metadata : SearchStoreMetadata}
    {writer writer' : SearchStoreWriter SessionFile} {io : AddBlockAnswers}
    {call : BlockCall metadata.width.toNat} (h : WriterFits P sessionId metadata writer)
    (hfresh : ∀ addresses, P sessionId addresses) (hcall : Fitting metadata call)
    (hadd : searchStoreWriterAddBlock io writer call.base call.slotCount call.values call.mask =
      (true, writer')) : WriterFits P sessionId metadata writer' := by
  obtain ⟨calls, hwriter, hfitting, -⟩ := h
  have hnext := searchStoreWriterAddBlock_ok hwriter hadd
  refine ⟨calls ++ [call], ?_, ?_, hfresh _⟩
  · rw [storedBlocks_append, Nat.zero_add]
    exact hnext
  · intro other hother
    rcases List.mem_append.1 hother with hold | hnew
    · exact hfitting other hold
    · rw [List.mem_singleton.1 hnew]
      exact hcall

theorem innerTurn_holds (answers : TurnAnswers) (cancelled : Bool) {pass : BeginPass}
    {mappingEnd : Nat} (h : WorkerHolds P dir last x (.reading pass)) :
    WorkerHolds P dir last (x.progress (innerTurn answers cancelled pass mappingEnd).1)
      (innerTurn answers cancelled pass mappingEnd).2 := by
  obtain ⟨request, cursor, mapping, raw, writer₀, pinned⟩ := pass
  obtain ⟨hstate, hkept, hrequest, hwriter⟩ := h
  obtain rfl : request = x.request := hrequest
  unfold innerTurn
  dsimp only
  split
  · split
    · refine BeginPass.stop_holds hstate (hkept.progress .readError) hwriter.path ?_
      intro hnone
      cases hnone
    · split
      · exact ⟨hstate, hkept.progress (.scanned _ _), rfl, hwriter⟩
      · rename_i call hcall
        have hfitting := chunkBlock_fitting (Nat.min_le_left _ _) hcall
        split
        · rename_i writer hadd
          refine BeginPass.stop_holds hstate hkept
            ((searchStoreWriterAddBlock_path hadd).trans hwriter.path) ?_
          intro hnone
          cases hnone
        · rename_i writer hadd
          exact ⟨hstate, hkept.progress (.scanned _ _), rfl,
            hwriter.add hkept.2.2.2 hfitting hadd⟩
  · exact ⟨hstate, hkept, rfl, hwriter⟩

/-! ### A later pass -/

theorem RefinePass.stop_holds {pass : RefinePass} {failure : Option SearchFailure} {error : UInt32}
    (hstate : x.state = .running) (hkept : Kept P dir last x (some pass.previousCandidates))
    (hpath : pass.writer.path = .temporary)
    (hwritten : failure = none → error = 0 →
      WriterFits P x.sessionId (makeStoreMetadata x.request (x.generation + 1)) pass.writer) :
    WorkerHolds P dir last x (pass.stop failure error) := by
  refine ⟨hstate, hkept, ⟨?_, ?_, ?_⟩⟩
  · intro hnone
    cases hnone
  · intro writer hwriter
    obtain rfl := Option.some.inj hwriter
    exact hpath
  · intro writer hwriter hfailure herror
    obtain rfl := Option.some.inj hwriter
    exact hwritten hfailure herror

theorem RefinePass.stop_failed {pass : RefinePass} {failure : SearchFailure} {error : UInt32}
    (hstate : x.state = .running) (hkept : Kept P dir last x (some pass.previousCandidates))
    (hpath : pass.writer.path = .temporary) :
    WorkerHolds P dir last x (pass.stop (some failure) error) := by
  refine RefinePass.stop_holds hstate hkept hpath ?_
  intro hnone
  cases hnone

theorem openRefine_holds (answers : OpenAnswers) {mode : SearchCompareMode} {exactValue : UInt64}
    (h : WorkerHolds P dir last x (.opening x exactValue)) (hrefine : x.operation ≠ .begin) :
    SameSession dir (openRefine answers x mode exactValue dir).1 ∧
      WorkerHolds P (openRefine answers x mode exactValue dir).1 last x
        (openRefine answers x mode exactValue dir).2 := by
  obtain ⟨hstate, -, htemporary, hkept, hoperation⟩ := h
  have hcommitted : x.committed = true := by
    rw [← Bool.not_eq_false]
    exact fun hfalse => hrefine (hoperation.2 hfalse)
  have hheld : x.held = some x.candidates := by rw [Session.held, hcommitted]; rfl
  rw [hheld] at hkept
  obtain ⟨kept, hholds, -, hP⟩ := hkept.2.1
  have hrefuse : ∀ {d : Directory SessionFile} (failure : SearchFailure), d .temporary = none →
      Kept P d last x (some x.candidates) → WorkerHolds P d last x (.ending
        { previousCandidates := some x.candidates, writer := none, pinned := false,
          failure := some failure, error := 0 }) := by
    intro d failure hnone hd
    refine ⟨hstate, hd, ⟨fun _ => ⟨hnone, by simp⟩, ?_, ?_⟩⟩
    · intro writer hwriter
      cases hwriter
    · intro writer hwriter
      cases hwriter
  unfold openRefine
  cases answers.reader with
  | false =>
    have hclosed : searchStoreReaderOpen false dir .current = refused := rfl
    -- nothing was opened for writing yet
    rw [hclosed]
    exact ⟨.refl dir, hrefuse _ htemporary hkept⟩
  | true =>
    have hmetadata : (readerAt (makeStoreMetadata x.request x.generation) (storedBlocks 0 kept) []
        (imageBytes (makeStoreMetadata x.request x.generation)
          (storedBlocks 0 kept)).length).header.metadata =
        makeStoreMetadata x.request x.generation := rfl
    rw [hholds.opens]
    simp only [hmetadata, ne_eq, not_true_eq_false, if_false]
    split
    · rename_i d writer hopen
      obtain ⟨hsame, -, hremoved⟩ := searchStoreWriterOpen_same hopen
      exact ⟨hsame, hrefuse _ (hremoved rfl htemporary) (hkept.congr hsame.current)⟩
    · rename_i d writer hopen
      obtain ⟨hsame, hpath, -⟩ := searchStoreWriterOpen_same hopen
      have hwriter := (searchStoreWriterOpen_ok hopen).1
      have hkept' := hkept.congr hsame.current
      split
      · exact ⟨hsame, RefinePass.stop_failed hstate hkept' hpath⟩
      · split
        · exact ⟨hsame, RefinePass.stop_failed hstate hkept' hpath⟩
        · -- the pass begins with every block still to be read and none written
          refine ⟨hsame, hstate, hkept', rfl, answers.previous.length_toList,
            answers.oldMask.length_toList, ?_⟩
          · refine ⟨[], kept, [], _, ⟨hholds.storable, hholds.fitting, ?_⟩, hP, rfl, hwriter, ?_,
              ?_⟩
            · exact hsame.current.trans hholds.current
            · intro call hcall
              cases hcall
            · exact List.Sublist.refl _

/-- The reader of a session reads its next block as the call that wrote it. -/
theorem readerNext_holds {metadata : SearchStoreMetadata}
    {kept before after : List (BlockCall metadata.width.toNat)}
    {call : BlockCall metadata.width.toNat} (h : SessionHolds metadata dir kept)
    (hkept : kept = before ++ call :: after) (position : Nat) {previous oldMask : List UInt8}
    (hprevious : previous.length = valuesBuffer) (holdMask : oldMask.length = maskBuffer) :
    ∃ block position',
      searchStoreReaderNext true
          (readerAt metadata (storedBlocks 0 kept) (storedBlocks 0 before) position) previous
          oldMask =
        ok (block, readerAt metadata (storedBlocks 0 kept) (storedBlocks 0 (before ++ [call]))
          position') ∧
      ReadsAs call (candidates before) block ∧ block.values.length = valuesBuffer ∧
      block.mask.length = maskBuffer := by
  have hmem : call ∈ kept := by
    rw [hkept]
    exact List.mem_append_right _ List.mem_cons_self
  have hcall := h.fitting call hmem
  have hslots := h.storable.slots call hmem
  have hslotsLe := hcall.slots_le h.storable.width_pos
  have hvaluesFit := hcall.values
  have hchunk : UNKNOWN_CHUNK_SIZE = 0x40000 := rfl
  have hvaluesBuffer : valuesBuffer = UNKNOWN_CHUNK_SIZE + 8 := rfl
  have hmaskBuffer : maskBuffer = UNKNOWN_CHUNK_SIZE / 8 + 8 := rfl
  obtain ⟨values', mask', position', hnext, hslotValues, hbits⟩ :=
    searchStoreReaderNext_image h.storable.width h.storable.width8 h.storable.length
      (storedBlocks_split hkept hslots) (h.storable.size call hmem) hslots
      position (show call.slotCount.toNat * metadata.width.toNat ≤ previous.length by omega)
      (show (call.slotCount.toNat + 7) / 8 ≤ oldMask.length by omega)
  have hreads := readsAs_of_bits h.storable hkept hslotValues fun i hi => by
    rw [hbits]
    exact BlockCall.decodedBit_of_clean hcall.clean _ hi
  obtain ⟨hvaluesLength, hmaskLength⟩ := length_of_next hnext
  rw [← storedBlocks_snoc hslots] at hnext
  exact ⟨_, position', hnext, hreads, hvaluesLength.trans hprevious, hmaskLength.trans holdMask⟩

/-- The slots that are left of a block are among those it had. -/
theorem refinedCall_sublist {metadata : SearchStoreMetadata} {mode : SearchCompareMode}
    {exactValue : UInt64} {memory : Nat → UInt8} {block : DecodedBlock}
    {old : BlockCall metadata.width.toNat} {cumulative : Nat} (hfit : Fitting metadata old)
    (hreads : ReadsAs old cumulative block) (hslots : block.header.slotCount ≠ 0)
    (hmask : block.header.slotCount.toNat ≤ 8 * maskBytes block.header.slotCount) :
    ((refinedCall metadata mode exactValue memory block hslots hmask).addressesOf
        (refinedCall metadata mode exactValue memory block hslots hmask).slots).Sublist
      (old.addressesOf old.slots) := by
  have hbase : (refinedCall metadata mode exactValue memory block hslots hmask).base = old.base :=
    hreads.base
  rw [slots_refinedCall hfit hreads hslots hmask, BlockCall.addressesOf, BlockCall.addressesOf,
    hbase]
  exact List.filter_sublist.map _

theorem Compared.writerFits {sessionId : UInt64} {expected : SearchStoreMetadata}
    {reader : SearchStoreReader} {writer : SearchStoreWriter SessionFile} (hP : Shrinks P)
    (h : Compared P sessionId expected dir reader writer) :
    WriterFits P sessionId { expected with generation := expected.generation + 1 } writer := by
  obtain ⟨before, after, calls, position, -, hall, -, hwriter, hfitting, hfewer⟩ := h
  refine ⟨calls, hwriter, ?_, ?_⟩
  · intro call hcall
    have hfit := hfitting call hcall
    exact ⟨hfit.values, hfit.span, hfit.clean⟩
  · refine hP _ _ _ (hfewer.trans ?_) hall
    rw [candidateAddresses_append]
    exact List.sublist_append_left _ _

/-- A block that has been compared and added. -/
theorem Compared.step {sessionId : UInt64} {expected : SearchStoreMetadata}
    {before after calls : List (BlockCall expected.width.toNat)}
    {call : BlockCall expected.width.toNat} {writer writer' : SearchStoreWriter SessionFile}
    {io : AddBlockAnswers} {mode : SearchCompareMode} {exactValue : UInt64}
    {memory : Nat → UInt8} {block : DecodedBlock} {position : Nat}
    (hholds : SessionHolds expected dir (before ++ call :: after))
    (hall : P sessionId (candidateAddresses (before ++ call :: after)))
    (hwriter : @WriterHolds SessionFile { expected with generation := expected.generation + 1 }
      (storedBlocks 0 calls) .temporary writer)
    (hfitting : ∀ call ∈ calls, Fitting expected call)
    (hfewer : (candidateAddresses calls).Sublist (candidateAddresses before))
    (hreads : ReadsAs call (candidates before) block) (hslots : block.header.slotCount ≠ 0)
    (hmask : block.header.slotCount.toNat ≤ 8 * maskBytes block.header.slotCount)
    (hadd : searchStoreWriterAddBlock io writer
      (refinedCall expected mode exactValue memory block hslots hmask).base
      (refinedCall expected mode exactValue memory block hslots hmask).slotCount
      (refinedCall expected mode exactValue memory block hslots hmask).values
      (refinedCall expected mode exactValue memory block hslots hmask).mask = (true, writer')) :
    Compared P sessionId expected dir
      (readerAt expected (storedBlocks 0 (before ++ call :: after))
        (storedBlocks 0 (before ++ [call])) position) writer' := by
  have hsplit : before ++ call :: after = (before ++ [call]) ++ after := by
    rw [List.append_assoc, List.singleton_append]
  have hfit := hholds.fitting call (List.mem_append_right _ List.mem_cons_self)
  have hrefines := @refinedCall_refines expected mode exactValue memory block call
    (candidates before) hfit hreads hslots hmask
  have hnext := @searchStoreWriterAddBlock_ok SessionFile
    { expected with generation := expected.generation + 1 } _ _ _ _ _ _ hwriter hadd
  rw [hsplit] at hholds hall ⊢
  refine ⟨before ++ [call], after,
    calls ++ [refinedCall expected mode exactValue memory block hslots hmask], position, hholds,
    hall, rfl, ?_, ?_, ?_⟩
  · rw [storedBlocks_append, Nat.zero_add]
    exact hnext
  · intro other hother
    rcases List.mem_append.1 hother with hold | hnew
    · exact hfitting other hold
    · rw [List.mem_singleton.1 hnew]
      exact hrefines.fitting
  · rw [candidateAddresses_snoc, candidateAddresses_snoc]
    exact hfewer.append (refinedCall_sublist hfit hreads hslots hmask)

theorem refineTurn_holds (answers : TurnAnswers) (cancelled : Bool) {pass : RefinePass}
    (hP : Shrinks P) (h : WorkerHolds P dir last x (.comparing pass)) :
    WorkerHolds P dir last (x.progress (refineTurn answers cancelled pass).1)
      (refineTurn answers cancelled pass).2 := by
  obtain ⟨expected, mode, exactValue, previousCandidates, reader, previous, oldMask, writer,
    pinned⟩ := pass
  obtain ⟨hstate, hkept, hexpected, hprevious, holdMask, hcompared⟩ := h
  dsimp only at hkept hexpected hprevious holdMask hcompared
  subst hexpected
  have hpath := hcompared.path
  have hwritten := hcompared.writerFits hP
  obtain ⟨before, after, calls, position, hholds, hall, rfl, hwriter, hfitting, hfewer⟩ :=
    hcompared
  unfold refineTurn
  dsimp only
  split
  · rename_i hmore
    cases after with
    | nil =>
      -- the reader is behind the last block
      rw [List.append_nil] at hmore
      exact absurd hmore.2 (UInt64.lt_irrefl (UInt64.ofNat (storedBlocks 0 before).length))
    | cons call after =>
      have hcall := hholds.fitting call (List.mem_append_right _ List.mem_cons_self)
      split
      · exact RefinePass.stop_failed hstate hkept hpath
      · cases answers.reader with
        | false =>
          have hrefused : searchStoreReaderNext false (readerAt (makeStoreMetadata x.request
              x.generation) (storedBlocks 0 (before ++ call :: after)) (storedBlocks 0 before)
              position) previous oldMask = refused := by
            unfold searchStoreReaderNext
            rw [decide_eq_true hmore.2]
            rfl
          rw [hrefused]
          exact RefinePass.stop_failed hstate hkept hpath
        | true =>
          -- what is read is the block of `call`, so the three checks behind it pass
          obtain ⟨block, position', hnext, hreads, hvalues, hmaskLength⟩ :=
            readerNext_holds hholds rfl position hprevious holdMask
          have hspan : ¬ blockSpan (makeStoreMetadata x.request x.generation)
              block.header.slotCount > valuesBuffer := by
            rw [hreads.slotCount]
            exact not_lt.2 hcall.blockSpan_le
          have hmask : block.header.slotCount.toNat ≤ 8 * maskBytes block.header.slotCount := by
            rw [hreads.slotCount, BlockCall.maskBytes_eq, Nat.mod_eq_of_lt hcall.clean.noWrap]
            omega
          have hslots : block.header.slotCount ≠ 0 := by
            rw [hreads.slotCount]
            exact call.slots_pos
          simp only [hnext, if_neg hspan, dif_pos hmask, dif_neg hslots]
          split
          · exact RefinePass.stop_failed hstate (hkept.progress .readError) hpath
          · split
            · rename_i writer' hadd
              exact RefinePass.stop_failed hstate hkept
                ((searchStoreWriterAddBlock_path hadd).trans hpath)
            · rename_i writer' hadd
              exact ⟨hstate, hkept.progress (.scanned _ _), rfl, hvalues, hmaskLength,
                Compared.step hholds hall hwriter hfitting hfewer hreads hslots hmask hadd⟩
  · exact RefinePass.stop_holds hstate hkept hpath fun _ _ => hwritten

/-! ### The end -/

/-- A pass that ends as it was taken back. -/
theorem PassEnd.conclude_holds {pass : PassEnd} {state : SearchPhase} {error : UInt32}
    {failure : Option SearchFailure} (hstate : x.state = .running)
    (htemporary : dir .temporary = none) (hkept : Kept P dir last x pass.previousCandidates)
    (hend : state = .cancelled ∨ state = .error) :
    WorkerHolds P dir last x (pass.conclude state error failure) := by
  unfold PassEnd.conclude
  cases hprevious : pass.previousCandidates with
  | none =>
    rw [hprevious] at hkept
    exact ⟨hstate, htemporary, .inl ⟨rfl, hkept, hend⟩⟩
  | some candidateCount =>
    rw [hprevious] at hkept
    exact ⟨hstate, htemporary, hkept, rfl, hend⟩

theorem EndHolds.endPause (answers : EndAnswers) {pass : PassEnd} (h : EndHolds P dir x pass) :
    EndHolds P dir x (endPause answers pass) := by
  unfold UnknownSearch.endPause
  split
  · refine ⟨?_, h.path, ?_⟩
    · intro hnone
      exact ⟨(h.unopened hnone).1, by simp⟩
    · intro writer _ hnone
      cases hnone
  · exact h

theorem endPause_previousCandidates (answers : EndAnswers) (pass : PassEnd) :
    (endPause answers pass).previousCandidates = pass.previousCandidates := by
  unfold endPause
  split <;> rfl

/-- An aborted pass leaves no temporary file and nothing else changed. -/
theorem EndHolds.abort {pass : PassEnd} (h : EndHolds P dir x pass) :
    SameSession dir (pass.abort dir) ∧ pass.abort dir .temporary = none := by
  unfold PassEnd.abort
  cases hwriter : pass.writer with
  | none => exact ⟨.refl dir, (h.unopened hwriter).1⟩
  | some writer =>
    dsimp only
    rw [searchStoreWriterAbort_temporary (h.path writer hwriter)]
    exact ⟨(SameSession.refl dir).remove, rfl⟩

theorem commitPass_holds {answers : EndAnswers} {pass : PassEnd} (hP : Shrinks P)
    (hbackup : dir .backup = none)
    (hcareful : answers.commit.install = false → answers.commit.restore = true)
    (hstate : x.state = .running) (hkept : Kept P dir last x pass.previousCandidates)
    (hend : EndHolds P dir x pass) (hfailure : pass.failure = none) (herror : pass.error = 0) :
    (commitPass answers dir pass).1 .backup = none ∧
      WorkerHolds P (commitPass answers dir pass).1 last x (commitPass answers dir pass).2 := by
  -- whatever has failed, the temporary file is removed
  have hfailed : ∀ d, SameSession dir d → d.remove .temporary .backup = none ∧
      WorkerHolds P (d.remove .temporary) last x (pass.conclude .error 0 (some .ioError)) := by
    intro d hsame
    exact ⟨hsame.backup.trans hbackup, PassEnd.conclude_holds hstate rfl
      (hkept.congr hsame.remove.current) (.inr rfl)⟩
  unfold commitPass
  cases hwriter : pass.writer with
  | none => exact absurd hfailure (hend.unopened hwriter).2
  | some writer =>
    have hpath := hend.path writer hwriter
    have hwritten := hend.written writer hwriter hfailure herror
    dsimp only
    split
    · rename_i d writer' hfinish
      obtain ⟨hsame, hpath', -⟩ := searchStoreWriterFinish_same hpath hfinish
      rw [searchStoreWriterAbort_temporary hpath']
      exact hfailed d hsame
    · rename_i d writer' hfinish
      obtain ⟨hsame, hpath', -⟩ := searchStoreWriterFinish_same hpath hfinish
      split
      · rename_i d' hcommit
        have hexists : pass.previousCandidates.isSome = true → d .current ≠ none := by
          intro hsome
          rw [hsame.current]
          exact hkept.exists_current hsome
        have htemporary : d .temporary ≠ none := by
          obtain ⟨calls, hholds, -⟩ := hwritten
          obtain ⟨rfl, -⟩ := searchStoreWriterFinish_ok hholds hfinish
          simp
        have hback := searchStoreCommit_false (hsame.backup.trans hbackup) hexists hcareful
          htemporary hcommit
        rw [searchStoreWriterAbort_temporary hpath']
        exact hfailed d' ⟨hback.current.trans hsame.current, hback.backup.trans hsame.backup⟩
      · rename_i d' hcommit
        obtain ⟨hcurrent, hnone, hbackup'⟩ := searchStoreCommit_true hcommit
        exact ⟨hbackup', hstate, hnone, hwritten.stored hP hfinish hcurrent⟩

theorem endPass_holds {answers : EndAnswers} (cancelled : Bool) {pass : PassEnd} (hP : Shrinks P)
    (hbackup : dir .backup = none)
    (hcareful : answers.commit.install = false → answers.commit.restore = true)
    (h : WorkerHolds P dir last x (.ending pass)) :
    (endPass answers cancelled dir pass).1 .backup = none ∧
      WorkerHolds P (endPass answers cancelled dir pass).1 last x
        (endPass answers cancelled dir pass).2 := by
  obtain ⟨hstate, hkept, hend⟩ := h
  have hend' := hend.endPause answers
  rw [← endPause_previousCandidates answers pass] at hkept
  obtain ⟨hsame, hnone⟩ := hend'.abort
  have hbackup' := hsame.backup.trans hbackup
  have hkept' := hkept.congr hsame.current
  unfold endPass
  dsimp only
  split
  · exact ⟨hbackup', PassEnd.conclude_holds hstate hnone hkept' (.inl rfl)⟩
  · split
    · exact ⟨hbackup', PassEnd.conclude_holds hstate hnone hkept' (.inr rfl)⟩
    · rename_i hsuccess
      rw [not_or, not_not, not_not] at hsuccess
      exact commitPass_holds hP hbackup hcareful hstate hkept hend' hsuccess.1 hsuccess.2

end Passes

/-! ## The whole system -/

section System

variable (P : UInt64 → List UInt64 → Prop)

/-- The restoring rename succeeds where it is needed, and the session ids do not come round to the
    one that means none. -/
def Careful (s : State) : Step → Prop
  | .beginQueue _ => s.manager.nextSessionId ≠ 0
  | .worker answers =>
    answers.ending.commit.install = false → answers.ending.commit.restore = true
  | _ => True

/-- A session and what the worker does with it. -/
structure SessionInv (s : State) (x : Session) : Prop where
  sessionId : x.sessionId ≠ 0
  earlier : s.manager.nextSessionId ≠ 0 → x.sessionId < s.manager.nextSessionId
  worker : WorkerHolds P s.dir s.last x s.worker

structure Inv (s : State) : Prop where
  backup : s.dir .backup = none
  fresh : s.manager.nextSessionId ≠ 0 →
    ∀ sessionId, s.manager.nextSessionId ≤ sessionId → ∀ addresses, P sessionId addresses
  session : ∀ x, s.manager.session = some x → SessionInv P s x
  absent : s.manager.session = none →
    s.worker = .idle ∧ s.dir .temporary = none ∧ s.dir .current = none ∧ s.last = none
  /-- Between the two locks of a refinement its session stays as it was found. -/
  refining : ∀ sessionId a width, s.command = .refineQueue sessionId a width →
    ∃ x, s.manager.session = some x ∧ x.state.isActive = false ∧ x.committed = true

variable {P} {s : State}

theorem SessionInv.idle {x : Session} (h : SessionInv P s x)
    (hinactive : x.state.isActive = false) : s.worker = .idle := by
  have hworker := h.worker
  have hrunning : x.state ≠ .running := by
    intro hrunning
    rw [hrunning] at hinactive
    cases hinactive
  cases hpc : s.worker with
  | idle => rfl
  | faulted =>
    rw [hpc] at hworker
    exact hworker.elim
  | _ =>
    rw [hpc] at hworker
    exact absurd hworker.1 hrunning

/-! ### Commands -/

theorem Inv.withCommand (h : Inv P s) {command : Command}
    (hrefining : ∀ sessionId a width, command = .refineQueue sessionId a width →
      ∃ x, s.manager.session = some x ∧ x.state.isActive = false ∧ x.committed = true) :
    Inv P { s with command := command } :=
  ⟨h.backup, h.fresh, fun x hx => ⟨(h.session x hx).sessionId, (h.session x hx).earlier,
    (h.session x hx).worker⟩, h.absent, hrefining⟩

theorem Inv.commandIdle (h : Inv P s) : Inv P { s with command := .idle } := by
  refine h.withCommand ?_
  intro sessionId a width hcommand
  cases hcommand

theorem inv_beginCheck (h : Inv P s) (a : BeginArguments) : Inv P (s.beginCheck a) := by
  unfold State.beginCheck
  split
  · exact h
  · split
    · exact h
    · refine h.withCommand ?_
      intro sessionId b width hcommand
      cases hcommand

theorem lt_succ_of_succ_ne_zero {n : UInt64} (h : n + 1 ≠ 0) : n < n + 1 := by
  have hlt := n.toNat_lt
  have hsucc : (n + 1).toNat = (n.toNat + 1) % 2 ^ 64 := UInt64.toNat_add n 1
  have hne : (n + 1).toNat ≠ 0 := fun hzero => h (UInt64.toNat_inj.1 hzero)
  rw [UInt64.lt_iff_toNat_lt]
  omega

/-- A session is set up where there is none. -/
theorem inv_beginQueue (h : Inv P s) {a : BeginArguments} {parsed : ParsedBegin a.size}
    (world : BeginWorld) (hnext : s.manager.nextSessionId ≠ 0) :
    Inv P (s.beginQueue a parsed world) := by
  unfold State.beginQueue
  split
  · exact h.commandIdle
  · rename_i request hrequest
    split
    · exact h.commandIdle
    · rename_i hzero
      have hnone : s.manager.session = none := by
        cases hsession : s.manager.session with
        | none => rfl
        | some x =>
          rw [Manager.sessionId, hsession, not_not] at hzero
          exact absurd hzero (h.session x hsession).sessionId
      obtain ⟨hidle, htemporary, hcurrent, -⟩ := h.absent hnone
      have hlater : s.manager.nextSessionId + 1 ≠ 0 →
          s.manager.nextSessionId < s.manager.nextSessionId + 1 := lt_succ_of_succ_ne_zero
      refine ⟨h.backup, ?_, ?_, ?_, ?_⟩
      · intro hne sessionId hle
        refine h.fresh hnext sessionId ?_
        exact UInt64.le_trans (UInt64.le_of_lt (hlater hne)) hle
      · intro x hx
        obtain rfl := Option.some.inj hx
        refine ⟨hnext, hlater, ?_⟩
        dsimp only
        rw [hidle]
        refine ⟨by simp [newSession], htemporary, ⟨rfl, hcurrent, rfl, ?_⟩, ?_, ?_⟩
        · exact h.fresh hnext _ (UInt64.le_refl _)
        · intro _
          exact ⟨fun _ => rfl, fun _ => rfl⟩
        · intro hqueued
          exact absurd rfl hqueued
      · intro hcontra
        cases hcontra
      · intro sessionId b width hcommand
        cases hcommand

theorem inv_refineCheck (h : Inv P s) (sessionId : UInt64) (a : RefineArguments) :
    Inv P (s.refineCheck sessionId a) := by
  unfold State.refineCheck
  split
  · exact h
  · rename_i x hx
    split
    · exact h
    · rename_i hready
      split
      · exact h
      · rename_i hinactive
        rw [not_or, not_or, Bool.not_eq_false] at hready
        rw [Bool.not_eq_true] at hinactive
        refine h.withCommand ?_
        intro _ _ _ _
        exact ⟨x, hx, hinactive, hready.2.1⟩

/-- A refinement is queued where the session has been committed. -/
theorem inv_refineQueue (h : Inv P s) {sessionId : UInt64} {a : RefineArguments} {width : Nat}
    (world : RefineWorld) (hcommand : s.command = .refineQueue sessionId a width) :
    Inv P (s.refineQueue sessionId a width world) := by
  unfold State.refineQueue
  split
  · rename_i exactValue x _ hx
    split
    · exact h.commandIdle
    · obtain ⟨y, hy, hinactive, hcommitted⟩ := h.refining sessionId a width hcommand
      obtain rfl := Option.some.inj (hx.symm.trans hy)
      have hsession := h.session x hx
      have hidle := hsession.idle hinactive
      have hworker := hsession.worker
      rw [hidle] at hworker
      obtain ⟨-, htemporary, hkept, -, -⟩ := hworker
      refine ⟨h.backup, h.fresh, ?_, ?_, ?_⟩
      · intro y hy
        obtain rfl := Option.some.inj hy
        refine ⟨hsession.sessionId, hsession.earlier, ?_⟩
        dsimp only
        rw [hidle]
        have hheld : (x.queueRefine a).held = x.held := rfl
        refine ⟨by simp [Session.queueRefine], htemporary, ?_, ?_, ?_⟩
        · rw [hheld]
          cases hheld' : x.held with
          | none =>
            rw [hheld'] at hkept
            exact hkept
          | some candidateCount =>
            rw [hheld'] at hkept
            exact hkept
        · intro _
          have hcommitted' : (x.queueRefine a).committed = true := hcommitted
          rw [hcommitted']
          simp [Session.queueRefine]
        · intro hqueued
          exact absurd rfl hqueued
      · intro hcontra
        cases hcontra
      · intro _ _ _ hcontra
        cases hcontra
  · exact h.commandIdle

theorem inv_withFlags (h : Inv P s) (cancelRequested exitRequested : Bool) :
    Inv P { s with manager := { s.manager with
      cancelRequested := cancelRequested, exitRequested := exitRequested } } :=
  ⟨h.backup, h.fresh, fun x hx => ⟨(h.session x hx).sessionId, (h.session x hx).earlier,
    (h.session x hx).worker⟩, h.absent, h.refining⟩

theorem inv_cancel (h : Inv P s) (sessionId : UInt64) :
    Inv P (s.unknownSearchCancel sessionId) := by
  unfold State.unknownSearchCancel
  split
  · exact h
  · split
    · exact inv_withFlags h true s.manager.exitRequested
    · exact h

theorem inv_close (h : Inv P s) (hcommand : s.command = .idle) (sessionId : UInt64) :
    Inv P (s.unknownSearchClose sessionId) := by
  unfold State.unknownSearchClose
  split
  · exact h
  · rename_i x hx
    split
    · rename_i hfound
      have hidle := (h.session x hx).idle (Bool.eq_false_of_not_eq_true hfound.2)
      refine ⟨rfl, h.fresh, ?_, ?_, ?_⟩
      · intro y hy
        cases hy
      · intro _
        exact ⟨hidle, rfl, rfl, rfl⟩
      · intro _ _ _ hcontra
        dsimp only at hcontra
        rw [hcommand] at hcontra
        cases hcontra
    · exact h

/-! ### The worker -/

/-- A step of a worker that has a job. -/
theorem Inv.advance (h : Inv P s) {s' : State} {x : Session} (x' : Session)
    (hx : s.manager.session = some x)
    (hbusy : s.worker ≠ .idle)
    (hmanager : s'.manager = { s.manager with session := some x' })
    (hsessionId : x'.sessionId = x.sessionId) (hcommand : s'.command = s.command)
    (hbackup : s'.dir .backup = none) (hworker : WorkerHolds P s'.dir s'.last x' s'.worker) :
    Inv P s' := by
  refine ⟨hbackup, ?_, ?_, ?_, ?_⟩
  · rw [hmanager]
    exact h.fresh
  · intro y hy
    rw [hmanager] at hy
    obtain rfl := Option.some.inj hy
    refine ⟨?_, ?_, hworker⟩
    · rw [hsessionId]
      exact (h.session x hx).sessionId
    · rw [hmanager, hsessionId]
      exact (h.session x hx).earlier
  · intro hnone
    rw [hmanager] at hnone
    cases hnone
  · intro sessionId a width hrefining
    rw [hcommand] at hrefining
    obtain ⟨y, hy, hinactive, -⟩ := h.refining sessionId a width hrefining
    exact absurd ((h.session y hy).idle hinactive) hbusy

theorem updateSession_manager {f : Session → Session} {x : Session}
    (hx : s.manager.session = some x) :
    (s.updateSession f).manager = { s.manager with session := some (f x) } := by
  rw [State.updateSession, hx]
  rfl

theorem inv_take (h : Inv P s) (hidle : s.worker = .idle) : Inv P s.take := by
  unfold State.take
  split
  · exact h
  · rename_i x hx
    split
    · rename_i hqueued
      have hsession := h.session x hx
      have hworker := hsession.worker
      rw [hidle] at hworker
      obtain ⟨-, htemporary, hkept, hoperation, -⟩ := hworker
      refine ⟨h.backup, h.fresh, ?_, ?_, ?_⟩
      · intro y hy
        obtain rfl := Option.some.inj hy
        refine ⟨hsession.sessionId, hsession.earlier, rfl, rfl, htemporary, ?_, hoperation hqueued⟩
        have hheld : ({ x with state := .running } : Session).held = x.held := rfl
        rw [hheld]
        cases hheld' : x.held with
        | none =>
          rw [hheld'] at hkept
          exact hkept
        | some candidateCount =>
          rw [hheld'] at hkept
          exact hkept
      · intro hcontra
        cases hcontra
      · intro sessionId a width hrefining
        obtain ⟨y, hy, hinactive, -⟩ := h.refining sessionId a width hrefining
        obtain rfl := Option.some.inj (hx.symm.trans hy)
        rw [hqueued] at hinactive
        cases hinactive
    · exact h

theorem inv_finishSection (h : Inv P s) {x : Session} {result : PassResult}
    (hx : s.manager.session = some x) (hpc : s.worker = .finishing result) (stat : Bool) :
    Inv P (s.finishSection result stat) := by
  have hworker := (h.session x hx).worker
  rw [hpc] at hworker
  obtain ⟨-, htemporary, hresult⟩ := hworker
  have hlast : (s.finishSection result stat).last =
      if result.state = .done then some ⟨s.dir .current, x.generation, x.candidates⟩
      else s.last := by
    rw [State.finishSection, hx]
    rfl
  have hheld (size : Option Nat) : (x.finish result size).held =
      if result.committed then some x.candidates else none := rfl
  refine h.advance (x.finish result (if stat then (s.dir .current).map List.length else none)) hx ?_
    (updateSession_manager hx) rfl rfl h.backup ?_
  · rw [hpc]
    simp
  · rw [hlast]
    rcases hresult with ⟨hcommitted, hkept, hfinal⟩ |
      ⟨hcommitted, htotal, hstoredMatches, hstored, hfinal⟩
    · have hdone : result.state ≠ .done := by rcases hfinal with hf | hf <;> simp [hf]
      have hqueued : result.state ≠ .queued := by rcases hfinal with hf | hf <;> simp [hf]
      have hrunning : result.state ≠ .running := by rcases hfinal with hf | hf <;> simp [hf]
      refine ⟨hrunning, htemporary, ?_, fun hcontra => absurd hcontra hqueued, ?_⟩
      · rw [hheld, hcommitted, if_neg hdone]
        exact ⟨hcommitted, hkept.2⟩
      · intro _ hcontra
        exact absurd (hcommitted.symm.trans hcontra) Bool.false_ne_true
    · have hstates : result.state ≠ .queued ∧ result.state ≠ .running := by
        rcases hfinal with hf | ⟨hf | hf, -⟩ <;> simp [hf]
      refine ⟨hstates.2, htemporary, ?_, fun hcontra => absurd hcontra hstates.1, ?_⟩
      · rw [hheld, hcommitted, if_pos rfl]
        refine ⟨hcommitted, hstored, ?_⟩
        rcases hfinal with hdone | ⟨hfailed, hfile⟩
        · rw [if_pos hdone]
          rfl
        · have hdone : result.state ≠ .done := by rcases hfailed with hf | hf <;> simp [hf]
          rw [if_neg hdone]
          exact hfile
      · intro _ _
        exact ⟨htotal, hstoredMatches⟩

theorem inv_workerStep (hP : Shrinks P) (h : Inv P s) {answers : WorkerAnswers}
    (hcareful : answers.ending.commit.install = false → answers.ending.commit.restore = true) :
    Inv P (s.workerStep answers) := by
  cases hsession : s.manager.session with
  | none =>
    -- without a session the worker can only be waiting
    have hidle := (h.absent hsession).1
    rw [State.workerStep, hidle]
    exact inv_take h hidle
  | some x =>
    have hworker := (h.session x hsession).worker
    have hsame : s.manager = { s.manager with session := some x } := by rw [← hsession]
    unfold State.workerStep
    split
    · rename_i hpc
      exact inv_take h hpc
    · rename_i session exactValue hpc
      rw [hpc] at hworker
      obtain rfl : session = x := hworker.2.1
      have hbusy : s.worker ≠ .idle := by rw [hpc]; simp
      split
      · rename_i hoperation
        obtain ⟨hfiles, hnext⟩ := openBegin_holds answers.opening hworker hoperation
        exact h.advance session hsession hbusy hsame rfl rfl (hfiles.backup.trans h.backup) hnext
      · rename_i mode hoperation
        have hrefine : session.operation ≠ .begin := by rw [hoperation]; simp
        obtain ⟨hfiles, hnext⟩ := openRefine_holds answers.opening hworker hrefine
        exact h.advance session hsession hbusy hsame rfl rfl (hfiles.backup.trans h.backup) hnext
    · rename_i pass hpc
      rw [hpc] at hworker
      have hbusy : s.worker ≠ .idle := by rw [hpc]; simp
      split
      · exact h.advance _ hsession hbusy (updateSession_manager hsession)
          (progress_sessionId x _) rfl h.backup
          (outerTurn_holds answers.turn s.manager.cancelled hworker)
      · exact h.advance _ hsession hbusy (updateSession_manager hsession)
          (progress_sessionId x _) rfl h.backup
          (innerTurn_holds answers.turn s.manager.cancelled hworker)
    · rename_i pass hpc
      rw [hpc] at hworker
      have hbusy : s.worker ≠ .idle := by rw [hpc]; simp
      exact h.advance _ hsession hbusy (updateSession_manager hsession)
        (progress_sessionId x _) rfl h.backup
        (refineTurn_holds answers.turn s.manager.cancelled hP hworker)
    · rename_i pass hpc
      rw [hpc] at hworker
      have hbusy : s.worker ≠ .idle := by rw [hpc]; simp
      obtain ⟨hbackup, hnext⟩ :=
        endPass_holds s.manager.cancelled hP h.backup hcareful hworker
      exact h.advance x hsession hbusy hsame rfl rfl hbackup hnext
    · rename_i refining candidateCount hpc
      rw [hpc] at hworker
      obtain ⟨hstate, htemporary, hstored⟩ := hworker
      have hbusy : s.worker ≠ .idle := by rw [hpc]; simp
      exact h.advance _ hsession hbusy (updateSession_manager hsession) rfl rfl h.backup
        ⟨hstate, htemporary, .inr ⟨rfl, rfl, rfl, hstored, .inl rfl⟩⟩
    · rename_i candidateCount result hpc
      rw [hpc] at hworker
      obtain ⟨hstate, htemporary, ⟨-, hstored, hlast⟩, hcommitted, hfinal⟩ := hworker
      have hbusy : s.worker ≠ .idle := by rw [hpc]; simp
      exact h.advance _ hsession hbusy (updateSession_manager hsession) rfl rfl h.backup
        ⟨hstate, htemporary, .inr ⟨hcommitted, rfl, rfl, hstored, .inr ⟨hfinal, hlast⟩⟩⟩
    · rename_i result hpc
      exact inv_finishSection h hsession hpc answers.stat
    · rename_i hpc
      rw [hpc] at hworker
      exact hworker.elim

theorem inv_step (hP : Shrinks P) (h : Inv P s) {a : Step} (hcareful : Careful s a) :
    Inv P (step s a) := by
  cases a with
  | begin a =>
    unfold step
    dsimp only
    split
    · exact inv_beginCheck h a
    · exact h
  | refine sessionId a =>
    unfold step
    dsimp only
    split
    · exact inv_refineCheck h sessionId a
    · exact h
  | beginQueue world =>
    unfold step
    dsimp only
    split
    · exact inv_beginQueue h world hcareful
    · exact h
  | refineQueue world =>
    unfold step
    dsimp only
    split
    · rename_i hcommand
      exact inv_refineQueue h world hcommand
    · exact h
  | cancel sessionId =>
    unfold step
    dsimp only
    split
    · exact inv_cancel h sessionId
    · exact h
  | close sessionId =>
    unfold step
    dsimp only
    split
    · rename_i hcommand
      exact inv_close h hcommand sessionId
    · exact h
  | shutdown => exact inv_withFlags h true true
  | worker answers => exact inv_workerStep hP h hcareful

end System

/-! ## Between two passes -/

section Quiet

/-- No pass is queued or running. -/
def Quiet (s : State) : Prop :=
  ∀ x, s.manager.session = some x → x.state.isActive = false

/-- The results of the session file are these, page by page. -/
def Lists (dir : Directory SessionFile) (addresses : List UInt64) (total : UInt64) : Prop :=
  ∀ offset count, searchStoreReadAddresses true dir .current offset count =
    ok (page addresses offset.toNat count.toNat, total)

/-- The session file is the generation of the status. -/
structure FileOf (s : State) (x : Session) : Prop where
  opens : ∃ reader, searchStoreReaderOpen true s.dir .current = ok reader ∧
    reader.header.metadata = makeStoreMetadata x.request x.generation ∧
    reader.header.candidateCount = x.candidates ∧
    BlocksAccepted reader.header.metadata reader.header.blockCount.toNat reader
  counts : x.totalMatches = x.candidates ∧ x.storedMatches = x.candidates
  lists : ∃ addresses, Lists s.dir addresses x.candidates
  last : s.last = some ⟨s.dir .current, x.generation, x.candidates⟩

/-- What the status and the directory say of each other. -/
structure Agreement (s : State) : Prop where
  committed : (∃ x, s.manager.session = some x ∧ x.committed = true) ↔ s.dir .current ≠ none
  file : ∀ x, s.manager.session = some x → x.committed = true → FileOf s x
  temporary : s.dir .temporary = none
  backup : s.dir .backup = none

variable {P : UInt64 → List UInt64 → Prop} {s : State}

theorem Inv.idle_session (h : Inv P s) {x : Session} (hx : s.manager.session = some x)
    (hinactive : x.state.isActive = false) :
    s.worker = .idle ∧ s.dir .temporary = none ∧ Kept P s.dir s.last x x.held ∧
      (x.committed = true → x.totalMatches = x.candidates ∧ x.storedMatches = x.candidates) := by
  have hsession := h.session x hx
  have hidle := hsession.idle hinactive
  have hworker := hsession.worker
  rw [hidle] at hworker
  obtain ⟨-, htemporary, hkept, -, hcounts⟩ := hworker
  refine ⟨hidle, htemporary, hkept, hcounts ?_⟩
  intro hqueued
  rw [hqueued] at hinactive
  cases hinactive

theorem Session.held_of_committed {x : Session} (h : x.committed = true) :
    x.held = some x.candidates := by
  rw [Session.held, h, if_pos rfl]

theorem Session.held_of_uncommitted {x : Session} (h : x.committed = false) : x.held = none := by
  rw [Session.held, h]
  rfl

/-- The results of a generation. -/
theorem lists_of_holds {r : BeginRequest} {generation : UInt64} {dir : Directory SessionFile}
    {kept : List (BlockCall (makeStoreMetadata r generation).width.toNat)}
    (h : SessionHolds (makeStoreMetadata r generation) dir kept) :
    Lists dir (candidateAddresses kept) (UInt64.ofNat (candidates kept)) := by
  intro offset count
  have htotal : (storedHeader (makeStoreMetadata r generation) kept).candidateCount =
      UInt64.ofNat (totalCandidates (storedBlocks 0 kept)) := rfl
  rw [searchStoreReadAddresses_stored h.storable h.opens, htotal, totalCandidates_storedBlocks]

theorem Inv.fileOf (h : Inv P s) {x : Session} (hx : s.manager.session = some x)
    (hinactive : x.state.isActive = false) (hcommitted : x.committed = true) : FileOf s x := by
  obtain ⟨-, -, hkept, hcounts⟩ := h.idle_session hx hinactive
  rw [Session.held_of_committed hcommitted] at hkept
  obtain ⟨-, ⟨kept, hholds, hcandidates, -⟩, hlast⟩ := hkept
  refine ⟨⟨_, hholds.opens, rfl, ?_, ?_⟩, hcounts hcommitted, ⟨candidateAddresses kept, ?_⟩, hlast⟩
  · rw [hcandidates, ← totalCandidates_storedBlocks 0 kept]
    rfl
  · rw [hholds.blockCount]
    exact hholds.accepted [] kept rfl _
  · rw [hcandidates]
    exact lists_of_holds hholds

theorem Inv.agreement (h : Inv P s) (hquiet : Quiet s) : Agreement s := by
  refine ⟨?_, fun x hx hcommitted => h.fileOf hx (hquiet x hx) hcommitted, ?_, h.backup⟩
  · constructor
    · rintro ⟨x, hx, hcommitted⟩
      obtain ⟨-, -, hkept, -⟩ := h.idle_session hx (hquiet x hx)
      rw [Session.held_of_committed hcommitted] at hkept
      exact hkept.exists_current rfl
    · intro hexists
      cases hsession : s.manager.session with
      | none => exact absurd (h.absent hsession).2.2.1 hexists
      | some x =>
        refine ⟨x, rfl, ?_⟩
        obtain ⟨-, -, hkept, -⟩ := h.idle_session hsession (hquiet x hsession)
        by_contra hcommitted
        rw [Session.held_of_uncommitted (Bool.eq_false_of_not_eq_true hcommitted)] at hkept
        exact hexists hkept.2.1
  · cases hsession : s.manager.session with
    | none => exact (h.absent hsession).2.1
    | some x => exact (h.idle_session hsession (hquiet x hsession)).2.1

theorem Inv.unfaulted (h : Inv P s) : s.worker ≠ .faulted := by
  intro hpc
  cases hsession : s.manager.session with
  | none =>
    rw [(h.absent hsession).1] at hpc
    cases hpc
  | some x =>
    have hworker := (h.session x hsession).worker
    rw [hpc] at hworker
    exact hworker

theorem inv_initial (storageAvailable : Bool) :
    Inv (fun _ _ => True) (initial storageAvailable) := by
  refine ⟨rfl, fun _ _ _ _ => trivial, ?_, fun _ => ⟨rfl, rfl, rfl, rfl⟩, ?_⟩
  · intro x hx
    cases hx
  · intro sessionId a width hcommand
    cases hcommand

end Quiet

open Runs

theorem inv_run {P : UInt64 → List UInt64 → Prop} (hP : Shrinks P) {s : State} {steps : List Step}
    (hs : Inv P s) (h : EachStep step Careful s steps) : Inv P (run step s steps) := by
  have hstep : ∀ t a, Inv P t → Careful t a → Inv P (step t a) := fun _ _ ht ha => inv_step hP ht ha
  exact invariant_of_eachStep hstep hs h

theorem shrinks_true : Shrinks fun _ _ => True := by
  intro _ _ _ _ _
  trivial

/-- In every run of commands and worker steps, whatever fails and whenever a cancellation comes:
    when no pass is queued or running, the session is committed iff its file is there, the file is
    the generation of the status with its count of candidates, it is what the last pass that ended
    as done had left, and no other file remains. The worker never leaves a buffer. -/
theorem session_file_agreement (storageAvailable : Bool) (steps : List Step)
    (h : EachStep step Careful (initial storageAvailable) steps) :
    (run step (initial storageAvailable) steps).worker ≠ .faulted ∧
      (Quiet (run step (initial storageAvailable) steps) →
        Agreement (run step (initial storageAvailable) steps)) := by
  have hinv := inv_run shrinks_true (inv_initial storageAvailable) h
  exact ⟨hinv.unfaulted, hinv.agreement⟩

/-! ### A pass over sixteen bytes, and one that is cancelled -/

def sixteenBytes : BeginArguments where
  type := "u8"
  region := "absolute"
  offset := 0x1000
  size := 16
  alignment := 0
  pause := false

def oneProcess : BeginWorld where
  process := some
    ({ processId := 0x51, titleId := 0x100, mainBase := 0, mainSize := 0, heapBase := 0,
       heapSize := 0, aliasBase := 0, aliasSize := 0, addressSpaceBase := 0, addressSpaceSize := 0,
       buildId := Vector.replicate 32 0 }, 0)
  free := some 0x40000000

/-- Nothing fails, and the memory is this. -/
def worksOn (memory : Nat → UInt8) : WorkerAnswers where
  opening :=
    { buffersAllocated := true
      reader := true
      writer := ⟨true, 160⟩
      pause := ⟨0, 0⟩
      raw := fun _ => 0
      previous := Vector.replicate _ 0
      oldMask := Vector.replicate _ 0 }
  turn :=
    { processIsCurrent := true
      queryMemory := .ok ⟨0x1000, 0x1000, Perm_R⟩
      reader := true
      readMemory := 0
      memory := memory
      addBlock := ⟨true, 0x1000, 0x1000⟩ }
  ending :=
    { resume := 0
      finish := ⟨fun _ => ⟨true, true, true, 0x1000⟩, true, 0x1000, true, true, true⟩
      commit := ⟨true, true, true⟩ }
  stat := true

def firstPass : List Step :=
  [.begin sixteenBytes, .beginQueue oneProcess] ++
    List.replicate 9 (.worker (worksOn UInt8.ofNat))

/-- A refinement that is cancelled when its files are open. -/
def cancelledPass : List Step :=
  [.refine 0x8000000000000001 ⟨.changed, none, false⟩, .refineQueue ⟨true, some 0x40000000⟩] ++
    List.replicate 2 (.worker (worksOn UInt8.ofNat)) ++
    .cancel 0x8000000000000001 :: List.replicate 4 (.worker (worksOn UInt8.ofNat))

theorem eachStep_of_forall {s : State} {steps : List Step}
    (h : ∀ a ∈ steps, ∀ t, Careful t a) : EachStep step Careful s steps := by
  intro p a hp
  exact h a (hp.subset (List.mem_append_right p (List.mem_singleton_self a))) _

theorem careful_worksOn (memory : Nat → UInt8) (n : Nat) :
    ∀ a ∈ List.replicate n (Step.worker (worksOn memory)), ∀ t, Careful t a := by
  intro a ha t
  obtain rfl := List.eq_of_mem_replicate ha
  intro hinstall
  cases hinstall

theorem beginCheck_manager (s : State) (a : BeginArguments) :
    (s.beginCheck a).manager = s.manager := by
  unfold State.beginCheck
  split
  · rfl
  · split <;> rfl

theorem careful_firstPass (storageAvailable : Bool) :
    EachStep step Careful (initial storageAvailable) firstPass := by
  unfold firstPass
  rw [eachStep_append]
  refine ⟨eachStep_cons.2 ⟨trivial, eachStep_cons.2 ⟨?_, eachStep_nil⟩⟩,
    eachStep_of_forall (careful_worksOn _ _)⟩
  have hstep : step (initial storageAvailable) (.begin sixteenBytes) =
      (initial storageAvailable).beginCheck sixteenBytes := rfl
  have hid : (initial storageAvailable).manager.nextSessionId = 0x8000000000000001 := rfl
  rw [hstep, Careful, beginCheck_manager, hid]
  decide

theorem careful_passes (storageAvailable : Bool) :
    EachStep step Careful (initial storageAvailable) (firstPass ++ cancelledPass) := by
  rw [eachStep_append]
  refine ⟨careful_firstPass storageAvailable, eachStep_of_forall ?_⟩
  intro a ha t
  rcases List.mem_append.1 ha with hopening | hrest
  · rcases List.mem_append.1 hopening with hcommand | hworker
    · rcases List.mem_cons.1 hcommand with rfl | hqueue
      · trivial
      · rw [List.mem_singleton.1 hqueue]
        trivial
    · exact careful_worksOn _ _ a hworker t
  · rcases List.mem_cons.1 hrest with rfl | hworker
    · trivial
    · exact careful_worksOn _ _ a hworker t

/-- What the status says: the id, whether it is committed, the generation, the candidates. -/
def statusOf (s : State) : Option (UInt64 × Bool × UInt64 × UInt64 × Bool) :=
  s.manager.session.map fun x =>
    (x.sessionId, x.committed, x.generation, x.candidates, x.state.isActive)

theorem exists_of_statusOf {s : State} {sessionId generation candidateCount : UInt64}
    {committed active : Bool}
    (h : statusOf s = some (sessionId, committed, generation, candidateCount, active)) :
    ∃ x, s.manager.session = some x ∧ x.sessionId = sessionId ∧ x.committed = committed ∧
      x.generation = generation ∧ x.candidates = candidateCount ∧ x.state.isActive = active := by
  obtain ⟨x, hx, heq⟩ := Option.map_eq_some_iff.1 h
  simp only [Prod.mk.injEq] at heq
  exact ⟨x, hx, heq.1, heq.2.1, heq.2.2.1, heq.2.2.2.1, heq.2.2.2.2⟩

theorem status_firstPass :
    statusOf (run step (initial true) firstPass) =
      some (0x8000000000000001, true, 0, 16, false) := by
  decide +kernel

theorem status_passes :
    statusOf (run step (initial true) (firstPass ++ cancelledPass)) =
      some (0x8000000000000001, true, 0, 16, false) := by
  decide +kernel

theorem session_file_agreement_cancelled :
    Agreement (run step (initial true) (firstPass ++ cancelledPass)) ∧
      ∃ x, (run step (initial true) (firstPass ++ cancelledPass)).manager.session = some x ∧
        x.committed = true ∧ x.generation = 0 ∧ x.candidates = 16 := by
  obtain ⟨x, hx, -, hcommitted, hgeneration, hcandidates, hinactive⟩ :=
    exists_of_statusOf status_passes
  refine ⟨(session_file_agreement true _ (careful_passes true)).2 ?_, x, hx, hcommitted,
    hgeneration, hcandidates⟩
  intro y hy
  obtain rfl := Option.some.inj (hx.symm.trans hy)
  exact hinactive

/-! ## Refinements only drop results -/

/-- The results of a session as they were at a time. -/
def WithinSession (sessionId : UInt64) (addresses : List UInt64) :
    UInt64 → List UInt64 → Prop :=
  fun other fewer => other = sessionId → fewer.Sublist addresses

theorem shrinks_withinSession (sessionId : UInt64) (addresses : List UInt64) :
    Shrinks (WithinSession sessionId addresses) := by
  intro other more fewer hfewer hmore heq
  exact hfewer.trans (hmore heq)

/-- Between two passes what is said of a session's results may be replaced by what follows from it
    for the results that there are. -/
theorem Inv.rebase {P Q : UInt64 → List UInt64 → Prop} {s : State} (h : Inv P s) {x : Session}
    (hx : s.manager.session = some x) (hinactive : x.state.isActive = false)
    (hcommitted : x.committed = true)
    (hfresh : s.manager.nextSessionId ≠ 0 →
      ∀ sessionId, s.manager.nextSessionId ≤ sessionId → ∀ addresses, Q sessionId addresses)
    (hresults : ∀ addresses, Lists s.dir addresses x.candidates →
      addresses.length = x.candidates.toNat → P x.sessionId addresses → Q x.sessionId addresses) :
    Inv Q s := by
  obtain ⟨hidle, -, hkept, -⟩ := h.idle_session hx hinactive
  have hsession := h.session x hx
  have hworker := hsession.worker
  rw [Session.held_of_committed hcommitted] at hkept
  obtain ⟨-, ⟨kept, hholds, hcandidates, hlisted⟩, hlast⟩ := hkept
  have hlength : (candidateAddresses kept).length = x.candidates.toNat := by
    rw [length_candidateAddresses, hcandidates,
      hholds.storable.toNat_candidates (List.append_nil kept).symm]
  have hlists : Lists s.dir (candidateAddresses kept) x.candidates := by
    rw [hcandidates]
    exact lists_of_holds hholds
  refine ⟨h.backup, hfresh, ?_, h.absent, h.refining⟩
  intro y hy
  obtain rfl := Option.some.inj (hx.symm.trans hy)
  refine ⟨hsession.sessionId, hsession.earlier, ?_⟩
  rw [hidle] at hworker ⊢
  obtain ⟨hrunning, htemporary, -, hoperation, hcounts⟩ := hworker
  refine ⟨hrunning, htemporary, ?_, hoperation, hcounts⟩
  rw [Session.held_of_committed hcommitted]
  exact ⟨hcommitted, ⟨kept, hholds, hcandidates, hresults _ hlists hlength hlisted⟩, hlast⟩

/-- The results of a committed session, between two passes. -/
theorem Inv.results {P : UInt64 → List UInt64 → Prop} {s : State} (h : Inv P s) {x : Session}
    (hx : s.manager.session = some x) (hinactive : x.state.isActive = false)
    (hcommitted : x.committed = true) :
    ∃ addresses, Lists s.dir addresses x.candidates ∧ addresses.length = x.candidates.toNat ∧
      P x.sessionId addresses := by
  obtain ⟨-, -, hkept, -⟩ := h.idle_session hx hinactive
  rw [Session.held_of_committed hcommitted] at hkept
  obtain ⟨-, ⟨kept, hholds, hcandidates, hlisted⟩, -⟩ := hkept
  refine ⟨candidateAddresses kept, ?_, ?_, hlisted⟩
  · rw [hcandidates]
    exact lists_of_holds hholds
  · rw [length_candidateAddresses, hcandidates,
      hholds.storable.toNat_candidates (List.append_nil kept).symm]

/-- The page that holds everything. -/
theorem Lists.unique {dir : Directory SessionFile} {addresses others : List UInt64}
    {total total' : UInt64} (h : Lists dir addresses total) (h' : Lists dir others total')
    (hlength : addresses.length < 2 ^ 64) (hlength' : others.length < 2 ^ 64) :
    addresses = others ∧ total = total' := by
  have hall : ∀ items : List UInt64, items.length < 2 ^ 64 →
      page items (0 : UInt64).toNat (0xFFFFFFFFFFFFFFFF : UInt64).toNat = items := by
    intro items hitems
    have hzero : (0 : UInt64).toNat = 0 := rfl
    have hmax : (0xFFFFFFFFFFFFFFFF : UInt64).toNat = 2 ^ 64 - 1 := rfl
    rw [page, hzero, hmax, List.drop_zero, List.take_of_length_le (by omega)]
  have hread := (h 0 0xFFFFFFFFFFFFFFFF).symm.trans (h' 0 0xFFFFFFFFFFFFFFFF)
  rw [hall addresses hlength, hall others hlength'] at hread
  exact Prod.mk.inj (StoreResult.ok.inj hread)

/-- From a committed session on, its results are compared with those it has now. -/
theorem Inv.within {s : State} (h : Inv (fun _ _ => True) s) {x : Session}
    (hx : s.manager.session = some x) (hinactive : x.state.isActive = false)
    (hcommitted : x.committed = true) :
    ∃ addresses, Lists s.dir addresses x.candidates ∧ addresses.length = x.candidates.toNat ∧
      Inv (WithinSession x.sessionId addresses) s := by
  obtain ⟨addresses, hlists, hlength, -⟩ := h.results hx hinactive hcommitted
  refine ⟨addresses, hlists, hlength, h.rebase hx hinactive hcommitted ?_ ?_⟩
  · intro hnext sessionId hle fewer heq
    rw [heq] at hle
    exact absurd ((h.session x hx).earlier hnext) (UInt64.not_lt.2 hle)
  · intro others hothers hlength' _ _
    have hcandidates := x.candidates.toNat_lt
    obtain ⟨rfl, -⟩ := hlists.unique hothers (by omega) (by omega)
    exact List.Sublist.refl _

/-! ### Passes that do not end as done -/

def State.phase (s : State) : Option SearchPhase :=
  s.manager.session.map Session.state

/-- A pass ends as done. -/
def EndsDone (s : State) (a : Step) : Prop :=
  s.phase ≠ some .done ∧ (step s a).phase = some .done

instance (s : State) (a : Step) : Decidable (EndsDone s a) := inferInstanceAs (Decidable (_ ∧ _))

/-- As long as the session is there, this is what its last pass that ended as done had left; no
    other session gets its id. -/
structure Leaves (sessionId : UInt64) (last : Option Committed) (s : State) : Prop where
  earlier : s.manager.nextSessionId ≠ 0 → sessionId < s.manager.nextSessionId
  last : ∀ x, s.manager.session = some x → x.sessionId = sessionId → s.last = last

/-- The session is the same one and nothing has been committed. -/
structure SameGeneration (s s' : State) : Prop where
  nextSessionId : s'.manager.nextSessionId = s.manager.nextSessionId
  sessionId : s'.manager.session.map Session.sessionId = s.manager.session.map Session.sessionId
  last : s'.last = s.last

theorem SameGeneration.refl (s : State) : SameGeneration s s := ⟨rfl, rfl, rfl⟩

theorem SameGeneration.updateSession (s : State) {f : Session → Session}
    (hf : ∀ x, (f x).sessionId = x.sessionId) : SameGeneration s (s.updateSession f) := by
  refine ⟨rfl, ?_, rfl⟩
  rw [State.updateSession]
  dsimp only
  rw [Option.map_map]
  exact Option.map_congr fun x _ => hf x

section Leaves

variable {sessionId : UInt64} {last : Option Committed} {s : State}

theorem Leaves.same (h : Leaves sessionId last s) {s' : State} (hsame : SameGeneration s s') :
    Leaves sessionId last s' := by
  constructor
  · rw [hsame.nextSessionId]
    exact h.earlier
  · intro x hx hid
    have hids := hsame.sessionId
    rw [hx, Option.map_some] at hids
    obtain ⟨y, hy, hids⟩ := Option.map_eq_some_iff.1 hids.symm
    rw [hsame.last]
    exact h.last y hy (hids.trans hid)

theorem sameGeneration_refineQueue (id : UInt64) (a : RefineArguments) (width : Nat)
    (world : RefineWorld) : SameGeneration s (s.refineQueue id a width world) := by
  unfold State.refineQueue
  split
  · rename_i x _ hx
    split
    · exact ⟨rfl, rfl, rfl⟩
    · refine ⟨rfl, ?_, rfl⟩
      rw [hx]
      rfl
  · exact ⟨rfl, rfl, rfl⟩

theorem sameGeneration_take : SameGeneration s s.take := by
  unfold State.take
  split
  · exact .refl s
  · rename_i x hx
    split
    · refine ⟨rfl, ?_, rfl⟩
      rw [hx]
      rfl
    · exact .refl s

/-- The worker commits nothing but where it writes that a pass is done. -/
theorem sameGeneration_workerStep (answers : WorkerAnswers)
    (hdone : ∀ result, s.worker = .finishing result → result.state ≠ .done) :
    SameGeneration s (s.workerStep answers) := by
  have hturn (next : Progress × Worker) : SameGeneration s (s.turn next) := by
    have hsame := SameGeneration.updateSession s fun x => progress_sessionId x next.1
    exact ⟨hsame.nextSessionId, hsame.sessionId, hsame.last⟩
  unfold State.workerStep
  split
  · exact sameGeneration_take
  · split
    · exact ⟨rfl, rfl, rfl⟩
    · exact ⟨rfl, rfl, rfl⟩
  · split
    · exact hturn _
    · exact hturn _
  · exact hturn _
  · exact ⟨rfl, rfl, rfl⟩
  · rename_i refining candidateCount _
    have hsame := SameGeneration.updateSession s (f := fun x => x.countGeneration refining
      candidateCount) fun _ => rfl
    exact ⟨hsame.nextSessionId, hsame.sessionId, hsame.last⟩
  · rename_i candidateCount result _
    have hsame := SameGeneration.updateSession s (f := fun x => x.restoreCommittedCounts
      candidateCount) fun _ => rfl
    exact ⟨hsame.nextSessionId, hsame.sessionId, hsame.last⟩
  · rename_i result hpc
    have hsame := SameGeneration.updateSession s (f := fun x => x.finish result
      (if answers.stat then (s.dir .current).map List.length else none)) fun _ => rfl
    refine ⟨hsame.nextSessionId, hsame.sessionId, ?_⟩
    rw [State.finishSection]
    exact if_neg (hdone result hpc)
  · exact .refl s

/-- A new session has another id. -/
theorem leaves_beginQueue (h : Leaves sessionId last s) {a : BeginArguments}
    {parsed : ParsedBegin a.size} (world : BeginWorld) (hnext : s.manager.nextSessionId ≠ 0) :
    Leaves sessionId last (s.beginQueue a parsed world) := by
  have hearlier := h.earlier hnext
  unfold State.beginQueue
  split
  · exact h.same ⟨rfl, rfl, rfl⟩
  · split
    · exact h.same ⟨rfl, rfl, rfl⟩
    · refine ⟨fun hne => UInt64.lt_trans hearlier (lt_succ_of_succ_ne_zero hne), ?_⟩
      intro x hx hid
      obtain rfl := Option.some.inj hx
      rw [← hid] at hearlier
      exact absurd hearlier (UInt64.lt_irrefl _)

theorem leaves_close (h : Leaves sessionId last s) (id : UInt64) :
    Leaves sessionId last (s.unknownSearchClose id) := by
  unfold State.unknownSearchClose
  split
  · exact h
  · split
    · refine ⟨h.earlier, fun x hx => ?_⟩
      cases hx
    · exact h

theorem leaves_step {P : UInt64 → List UInt64 → Prop} (hinv : Inv P s)
    (h : Leaves sessionId last s) {a : Step} (hcareful : Careful s a) (hdone : ¬ EndsDone s a) :
    Leaves sessionId last (step s a) := by
  cases a with
  | begin a =>
    unfold step
    dsimp only
    split
    · unfold State.beginCheck
      split
      · exact h
      · split
        · exact h
        · exact h.same ⟨rfl, rfl, rfl⟩
    · exact h
  | refine id a =>
    unfold step
    dsimp only
    split
    · unfold State.refineCheck
      split
      · exact h
      · split_ifs
        · exact h
        · exact h
        · exact h.same ⟨rfl, rfl, rfl⟩
    · exact h
  | beginQueue world =>
    unfold step
    dsimp only
    split
    · exact leaves_beginQueue h world hcareful
    · exact h
  | refineQueue world =>
    unfold step
    dsimp only
    split
    · exact h.same (sameGeneration_refineQueue _ _ _ _)
    · exact h
  | cancel id =>
    unfold step
    dsimp only
    split
    · unfold State.unknownSearchCancel
      split
      · exact h
      · split
        · exact h.same ⟨rfl, rfl, rfl⟩
        · exact h
    · exact h
  | close id =>
    unfold step
    dsimp only
    split
    · exact leaves_close h id
    · exact h
  | shutdown => exact h.same ⟨rfl, rfl, rfl⟩
  | worker answers =>
    refine h.same (sameGeneration_workerStep answers fun result hpc hresult => hdone ?_)
    cases hsession : s.manager.session with
    | none =>
      rw [(hinv.absent hsession).1] at hpc
      cases hpc
    | some x =>
      have hworker := (hinv.session x hsession).worker
      rw [hpc] at hworker
      have hphase : s.phase = some .running := by
        rw [State.phase, hsession, Option.map_some, hworker.1]
      refine ⟨?_, ?_⟩
      · rw [hphase]
        simp
      · rw [step, State.workerStep, hpc, ← hresult]
        dsimp only
        rw [State.phase, State.finishSection, State.updateSession, hsession]
        rfl

end Leaves

/-- Over a run in which no pass ends as done, what is committed of the session stays. -/
theorem leaves_run {P : UInt64 → List UInt64 → Prop} (hP : Shrinks P) {s : State}
    {steps : List Step} (hs : Inv P s) (h : EachStep step Careful s steps)
    (hdone : EachStep step (fun t a => ¬ EndsDone t a) s steps) {sessionId : UInt64}
    {last : Option Committed} (hlast : Leaves sessionId last s) :
    Leaves sessionId last (run step s steps) := by
  have hstep : ∀ t a, Inv P t ∧ Leaves sessionId last t → Careful t a ∧ ¬ EndsDone t a →
      Inv P (step t a) ∧ Leaves sessionId last (step t a) :=
    fun _ _ ht ha => ⟨inv_step hP ht.1 ha.1, leaves_step ht.1 ht.2 ha.1 ha.2⟩
  exact (invariant_of_eachStep hstep ⟨hs, hlast⟩ fun p a hp => ⟨h p a hp, hdone p a hp⟩).2

/-- What a committed session lists is in its file. -/
theorem Lists.congr {dir dir' : Directory SessionFile} {addresses : List UInt64} {total : UInt64}
    (h : Lists dir addresses total) (hcurrent : dir' .current = dir .current) :
    Lists dir' addresses total := by
  intro offset count
  rw [← h offset count, searchStoreReadAddresses, searchStoreReadAddresses, searchStoreReaderOpen,
    searchStoreReaderOpen, hcurrent]

/-- Over any run, a session that has been committed stays committed as long as it is not closed, and
    whatever the memory held and whichever passes failed, the results it lists later are some of
    those it listed before, in the same order; they are all of them if no pass has ended as done. -/
theorem refinements_drop_results (storageAvailable : Bool) (steps more : List Step)
    (h : EachStep step Careful (initial storageAvailable) (steps ++ more)) {x y : Session}
    (hx : (run step (initial storageAvailable) steps).manager.session = some x)
    (hy : (run step (initial storageAvailable) (steps ++ more)).manager.session = some y)
    (hsame : y.sessionId = x.sessionId) (hcommitted : x.committed = true)
    (hbefore : x.state.isActive = false) (hafter : y.state.isActive = false) :
    y.committed = true ∧ ∃ older newer,
      Lists (run step (initial storageAvailable) steps).dir older x.candidates ∧
      Lists (run step (initial storageAvailable) (steps ++ more)).dir newer y.candidates ∧
      newer.Sublist older ∧
      (EachStep step (fun s a => ¬ EndsDone s a) (run step (initial storageAvailable) steps) more →
        newer = older) := by
  obtain ⟨hfirst, hrest⟩ := eachStep_append.1 h
  have hinv := inv_run shrinks_true (inv_initial storageAvailable) hfirst
  obtain ⟨older, hlists, hlength, hwithin⟩ := hinv.within hx hbefore hcommitted
  have hlater := inv_run (shrinks_withinSession _ _) hwithin hrest
  rw [← run_append] at hlater
  obtain ⟨-, -, hkept, -⟩ := hlater.idle_session hy hafter
  have hstays : y.committed = true := by
    by_contra huncommitted
    rw [Session.held_of_uncommitted (Bool.eq_false_of_not_eq_true huncommitted)] at hkept
    -- nothing is committed that could not list anything
    have hlong := (hkept.2.2.2 (0 :: older) hsame).length_le
    rw [List.length_cons] at hlong
    omega
  obtain ⟨newer, hlists', hlength', hsublist⟩ := hlater.results hy hafter hstays
  refine ⟨hstays, older, newer, hlists, hlists', hsublist hsame, fun hdone => ?_⟩
  have hleaves := leaves_run shrinks_true hinv hrest hdone
    ⟨(hinv.session x hx).earlier, fun _ _ _ => (hinv.fileOf hx hbefore hcommitted).last⟩
  rw [← run_append] at hleaves
  have hlast := (hlater.fileOf hy hafter hstays).last
  rw [hleaves.last y hy hsame] at hlast
  have hcurrent := congrArg Committed.content (Option.some.inj hlast)
  have hbefore' := x.candidates.toNat_lt
  have hafter' := y.candidates.toNat_lt
  exact ((hlists.congr hcurrent.symm).unique hlists' (by omega) (by omega)).1.symm

/-- The cancelled pass does not end as done. -/
theorem not_endsDone_cancelledPass :
    EachStep step (fun s a => ¬ EndsDone s a) (run step (initial true) firstPass)
      cancelledPass := by
  decide +kernel

theorem refinements_drop_results_cancelled :
    ∃ older, Lists (run step (initial true) firstPass).dir older 16 ∧
      Lists (run step (initial true) (firstPass ++ cancelledPass)).dir older 16 := by
  obtain ⟨x, hx, hid, hcommitted, -, hcandidates, hbefore⟩ := exists_of_statusOf status_firstPass
  obtain ⟨y, hy, hid', -, -, hcandidates', hafter⟩ := exists_of_statusOf status_passes
  have hdropped := refinements_drop_results true firstPass cancelledPass (careful_passes true) hx hy
    (hid'.trans hid.symm) hcommitted hbefore hafter
  rw [hcandidates, hcandidates'] at hdropped
  obtain ⟨-, older, newer, hlists, hlists', -, hall⟩ := hdropped
  rw [hall not_endsDone_cancelledPass] at hlists'
  exact ⟨older, hlists, hlists'⟩

end SysAgent.UnknownSearch
