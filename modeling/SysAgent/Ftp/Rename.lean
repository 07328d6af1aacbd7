import SysAgent.Ftp.Guard

set_option autoImplicit false

/-! # Renames over a case-insensitive card

The card keeps its entries under lists of names; which paths are spellings of one entry is the
parameter `names`. A card is a tree: whatever has an entry below it is a directory. Each native call
takes the card's next answer, and a call whose answer is not 0 is refused and changes nothing else. -/

namespace SysAgent

/-! ## The card -/

inductive CardEntry
  | directory
  | file (content : List UInt8)
  deriving DecidableEq

variable {ν : Type} [DecidableEq ν]

/-- A tree of entries, and the answers of the next calls. -/
structure NamedCard (ν : Type) where
  entries : List ν → Option CardEntry
  tree : ∀ parent name, entries (parent ++ [name]) ≠ none → entries parent = some .directory
  answers : List UInt32

namespace NamedCard

def notFound : UInt32 := 0x202
def pathExists : UInt32 := 0x402

omit [DecidableEq ν] in
/-- What has an entry below it is a directory. -/
theorem directory_of_below (card : NamedCard ν) {parent rest : List ν} (hrest : rest ≠ [])
    (h : card.entries (parent ++ rest) ≠ none) : card.entries parent = some .directory := by
  induction rest generalizing parent with
  | nil => exact absurd rfl hrest
  | cons name rest ih =>
    have hname : card.entries (parent ++ [name]) ≠ none := by
      cases rest with
      | nil => exact h
      | cons name' rest =>
        have hdirectory := @ih (parent ++ [name]) (by simp) (by simpa using h)
        simp [hdirectory]
    exact card.tree parent name hname

omit [DecidableEq ν] in
/-- A file has nothing below it. -/
theorem below_file (card : NamedCard ν) {path rest : List ν} {content : List UInt8}
    (hfile : card.entries path = some (.file content)) (hrest : rest ≠ []) :
    card.entries (path ++ rest) = none := by
  by_contra h
  rw [card.directory_of_below hrest h] at hfile
  cases hfile

theorem tree_deleted (card : NamedCard ν) {path : List ν} {content : List UInt8}
    (hfile : card.entries path = some (.file content)) (parent : List ν) (name : ν)
    (h : Function.update card.entries path none (parent ++ [name]) ≠ none) :
    Function.update card.entries path none parent = some .directory := by
  have hname : card.entries (parent ++ [name]) ≠ none := by
    rw [Function.update_apply] at h
    split at h
    · exact absurd rfl h
    · exact h
  have hparent := card.tree parent name hname
  rw [Function.update_of_ne, hparent]
  rintro rfl
  rw [hparent] at hfile
  cases hfile

/-- The entries after all at and below a source has moved to a destination. -/
def moved (entries : List ν → Option CardEntry) (source destination : List ν) (path : List ν) :
    Option CardEntry :=
  if destination <+: path then entries (source ++ path.drop destination.length)
  else if source <+: path then none
  else entries path

theorem moved_below (entries : List ν → Option CardEntry) (source destination rest : List ν) :
    moved entries source destination (destination ++ rest) = entries (source ++ rest) := by
  rw [moved, if_pos (List.prefix_append destination rest), List.drop_left]

theorem moved_apart {entries : List ν → Option CardEntry} {source destination path : List ν}
    (hsource : ¬ source <+: path) (hdestination : ¬ destination <+: path) :
    moved entries source destination path = entries path := by
  rw [moved, if_neg hdestination, if_neg hsource]

/-- Where a rename may go: the name is free, in a directory, and not below the source itself. -/
structure MoveAllowed (card : NamedCard ν) (source destination : List ν) : Prop where
  free : card.entries destination = none
  parent : card.entries destination.dropLast = some .directory
  apart : ¬ source <+: destination

instance (card : NamedCard ν) (source destination : List ν) :
    Decidable (card.MoveAllowed source destination) :=
  decidable_of_iff (card.entries destination = none ∧
      card.entries destination.dropLast = some .directory ∧ ¬ source <+: destination)
    ⟨fun ⟨hfree, hparent, hapart⟩ => ⟨hfree, hparent, hapart⟩,
      fun ⟨hfree, hparent, hapart⟩ => ⟨hfree, hparent, hapart⟩⟩

/-- A tree stays a tree. -/
theorem tree_moved (card : NamedCard ν) {source destination : List ν}
    (allowed : card.MoveAllowed source destination) (parent : List ν) (name : ν)
    (h : moved card.entries source destination (parent ++ [name]) ≠ none) :
    moved card.entries source destination parent = some .directory := by
  by_cases hin : destination <+: parent
  · -- inside the destination: the entry moved with what is above it
    obtain ⟨rest, rfl⟩ := hin
    rw [List.append_assoc, moved_below] at h
    rw [moved_below]
    exact card.tree (source ++ rest) name (by simpa using h)
  · by_cases hat : destination <+: parent ++ [name]
    · -- the destination itself: its directory has not moved
      have hsame : destination = parent ++ [name] := by
        rcases List.prefix_concat_iff.mp hat with hsame | hbefore
        · exact hsame
        · exact absurd hbefore hin
      have hparent : destination.dropLast = parent := by rw [hsame, List.dropLast_concat]
      have hapart : ¬ source <+: parent := by
        intro hsource
        exact allowed.apart (hsource.trans (hsame ▸ List.prefix_append parent [name]))
      rw [moved_apart hapart hin, ← hparent]
      exact allowed.parent
    · have hapart : ¬ source <+: parent ++ [name] := by
        intro hsource
        rw [moved, if_neg hat, if_pos hsource] at h
        exact h rfl
      rw [moved_apart hapart hat] at h
      have hapart' : ¬ source <+: parent :=
        fun hsource => hapart (hsource.trans (List.prefix_append parent [name]))
      rw [moved_apart hapart' hin]
      exact card.tree parent name h

/-- The answer of the next call, and the card after it is taken. -/
def answer (card : NamedCard ν) : UInt32 := card.answers.headD 0

def taken (card : NamedCard ν) : NamedCard ν := { card with answers := card.answers.tail }

def move (card : NamedCard ν) (source destination : List ν) : UInt32 × NamedCard ν :=
  if allowed : card.MoveAllowed source destination then
    (0, { card with
      entries := moved card.entries source destination
      tree := card.tree_moved allowed })
  else if card.entries destination ≠ none then (pathExists, card)
  else (notFound, card)

def getEntryType (path : List ν) (card : NamedCard ν) :
    UInt32 × FsDirEntryType × NamedCard ν :=
  if R_FAILED card.answer then (card.answer, .dir, card.taken)
  else
    match card.entries path with
    | none => (notFound, .dir, card.taken)
    | some .directory => (0, .dir, card.taken)
    | some (.file _) => (0, .file, card.taken)

def renameFile (source destination : List ν) (card : NamedCard ν) : UInt32 × NamedCard ν :=
  if R_FAILED card.answer then (card.answer, card.taken)
  else
    match card.entries source with
    | some (.file _) => card.taken.move source destination
    | _ => (notFound, card.taken)

def renameDirectory (source destination : List ν) (card : NamedCard ν) :
    UInt32 × NamedCard ν :=
  if R_FAILED card.answer then (card.answer, card.taken)
  else
    match card.entries source with
    | some .directory => card.taken.move source destination
    | _ => (notFound, card.taken)

def deleteFile (path : List ν) (card : NamedCard ν) : UInt32 × NamedCard ν :=
  if R_FAILED card.answer then (card.answer, card.taken)
  else
    match hfile : card.entries path with
    | some (.file _) =>
      (0, { card.taken with
        entries := Function.update card.entries path none
        tree := card.tree_deleted hfile })
    | _ => (notFound, card.taken)

/-- The retry after a refused rename: only a file in its way is deleted. -/
def retry (source destination : List ν) (failed : UInt32) (card : NamedCard ν) :
    UInt32 × NamedCard ν :=
  let found := getEntryType destination card
  if R_FAILED found.1 ∨ found.2.1 ≠ .file then (failed, found.2.2)
  else
    let removed := deleteFile destination found.2.2
    if R_FAILED removed.1 then (failed, removed.2)
    else renameFile source destination removed.2

/-- The rename of a file, with its retry. -/
def replace (source destination : List ν) (card : NamedCard ν) : UInt32 × NamedCard ν :=
  let renamed := renameFile source destination card
  if R_FAILED renamed.1 then retry source destination renamed.1 renamed.2 else renamed

/-- A rename on the card, as `ftp_vfs_rename` makes it. -/
def rename (source destination : List ν) (card : NamedCard ν) : UInt32 × NamedCard ν :=
  let found := getEntryType source card
  if R_FAILED found.1 then (found.1, found.2.2)
  else
    match found.2.1 with
    | .file => replace source destination found.2.2
    | .dir => renameDirectory source destination found.2.2

end NamedCard

/-! ## What a call does -/

namespace NamedCard

variable {card : NamedCard ν} {source destination path : List ν}

def IsFile (card : NamedCard ν) (path : List ν) : Prop :=
  ∃ content, card.entries path = some (.file content)

omit [DecidableEq ν] in
/-- A query finds a file, or it does not; it changes nothing. -/
theorem getEntryType_cases (path : List ν) (card : NamedCard ν) :
    (getEntryType path card).2.2 = card.taken ∧
      ((R_FAILED (getEntryType path card).1 = false ∧ R_FAILED card.answer = false ∧
          (((getEntryType path card).2.1 = .file ∧ card.IsFile path) ∨
            ((getEntryType path card).2.1 = .dir ∧ card.entries path = some .directory))) ∨
        (R_FAILED (getEntryType path card).1 = true ∧
          (R_FAILED card.answer = true ∨ card.entries path = none))) := by
  unfold getEntryType
  cases hanswer : R_FAILED card.answer with
  | true => exact ⟨rfl, .inr ⟨hanswer, .inl rfl⟩⟩
  | false =>
    simp only [Bool.false_eq_true, if_false]
    cases hentry : card.entries path with
    | none => exact ⟨rfl, .inr ⟨rfl, .inr rfl⟩⟩
    | some entry =>
      cases entry with
      | directory => exact ⟨rfl, .inl ⟨rfl, trivial, .inr ⟨rfl, rfl⟩⟩⟩
      | file content => exact ⟨rfl, .inl ⟨rfl, trivial, .inl ⟨rfl, content, hentry⟩⟩⟩

/-- A rename is refused and changes nothing, or the source moves. -/
theorem move_cases (card : NamedCard ν) (source destination : List ν) :
    (card.move source destination).2.answers = card.answers ∧
      ((R_FAILED (card.move source destination).1 = true ∧
          (card.move source destination).2.entries = card.entries ∧
          ¬ card.MoveAllowed source destination) ∨
        ((card.move source destination).1 = 0 ∧ card.MoveAllowed source destination ∧
          (card.move source destination).2.entries =
            moved card.entries source destination)) := by
  unfold move
  split
  case isTrue allowed => exact ⟨rfl, .inr ⟨rfl, allowed, rfl⟩⟩
  case isFalse refused =>
    split
    · exact ⟨rfl, .inl ⟨rfl, rfl, refused⟩⟩
    · exact ⟨rfl, .inl ⟨rfl, rfl, refused⟩⟩

omit [DecidableEq ν] in
theorem MoveAllowed.of_taken (h : card.taken.MoveAllowed source destination) :
    card.MoveAllowed source destination :=
  ⟨h.free, h.parent, h.apart⟩

omit [DecidableEq ν] in
theorem MoveAllowed.taken (h : card.MoveAllowed source destination) :
    card.taken.MoveAllowed source destination :=
  ⟨h.free, h.parent, h.apart⟩

theorem renameFile_cases (source destination : List ν) (card : NamedCard ν) :
    (renameFile source destination card).2.answers = card.answers.tail ∧
      ((R_FAILED (renameFile source destination card).1 = true ∧
          (renameFile source destination card).2.entries = card.entries ∧
          (R_FAILED card.answer = true ∨
            ¬ (card.IsFile source ∧ card.MoveAllowed source destination))) ∨
        ((renameFile source destination card).1 = 0 ∧ R_FAILED card.answer = false ∧
          card.IsFile source ∧ card.MoveAllowed source destination ∧
          (renameFile source destination card).2.entries =
            moved card.entries source destination)) := by
  unfold renameFile
  cases hanswer : R_FAILED card.answer with
  | true => exact ⟨rfl, .inl ⟨hanswer, rfl, .inl rfl⟩⟩
  | false =>
    simp only [Bool.false_eq_true, if_false]
    split
    case h_1 content hfile =>
      obtain ⟨hanswers, ⟨hresult, hentries, hnot⟩ | ⟨hresult, hallowed, hentries⟩⟩ :=
        card.taken.move_cases source destination
      · exact ⟨hanswers, .inl ⟨hresult, hentries, .inr fun h => hnot h.2.taken⟩⟩
      · exact ⟨hanswers, .inr ⟨hresult, trivial, ⟨content, hfile⟩, hallowed.of_taken, hentries⟩⟩
    case h_2 hother =>
      refine ⟨rfl, .inl ⟨rfl, rfl, .inr ?_⟩⟩
      rintro ⟨⟨content, hfile⟩, -⟩
      exact hother content hfile

theorem renameDirectory_cases (source destination : List ν) (card : NamedCard ν) :
    (R_FAILED (renameDirectory source destination card).1 = true ∧
        (renameDirectory source destination card).2.entries = card.entries) ∨
      ((renameDirectory source destination card).1 = 0 ∧
        (renameDirectory source destination card).2.entries =
          moved card.entries source destination) := by
  unfold renameDirectory
  split
  case isTrue hanswer => exact .inl ⟨hanswer, rfl⟩
  case isFalse =>
    split
    · obtain ⟨-, ⟨hresult, hentries, -⟩ | ⟨hresult, -, hentries⟩⟩ :=
        card.taken.move_cases source destination
      · exact .inl ⟨hresult, hentries⟩
      · exact .inr ⟨hresult, hentries⟩
    · exact .inl ⟨rfl, rfl⟩

/-- A delete of a file is refused and changes nothing, or the file is gone. -/
theorem deleteFile_cases (card : NamedCard ν) {path : List ν} (hfile : card.IsFile path) :
    (deleteFile path card).2.answers = card.answers.tail ∧
      ((R_FAILED (deleteFile path card).1 = true ∧ R_FAILED card.answer = true ∧
          (deleteFile path card).2.entries = card.entries) ∨
        (R_FAILED (deleteFile path card).1 = false ∧ R_FAILED card.answer = false ∧
          (deleteFile path card).2.entries = Function.update card.entries path none)) := by
  obtain ⟨content, hfile⟩ := hfile
  unfold deleteFile
  cases hanswer : R_FAILED card.answer with
  | true => exact ⟨rfl, .inl ⟨hanswer, rfl, rfl⟩⟩
  | false =>
    simp only [Bool.false_eq_true, if_false]
    split
    · exact ⟨rfl, .inr ⟨rfl, trivial, rfl⟩⟩
    case h_2 hother => exact absurd hfile (hother content)

omit [DecidableEq ν] in
theorem answer_congr {card' : NamedCard ν} (h : card'.answers = card.answers) :
    card'.answer = card.answer := by
  rw [answer, h, answer]

end NamedCard

/-! ## The law -/

namespace NamedCard

/-- Every file is still there, under its old path. -/
def Kept (before after : List ν → Option CardEntry) : Prop :=
  ∀ path content, before path = some (.file content) → after path = some (.file content)

/-- What was at the source is found at the destination, and nothing else has changed but what was
    there. -/
structure Replaced (before after : List ν → Option CardEntry) (source destination : List ν) :
    Prop where
  found : ∀ rest, after (destination ++ rest) = before (source ++ rest)
  others : ∀ path, ¬ source <+: path → ¬ destination <+: path → after path = before path

/-- The destination's file is deleted and the retry cannot put the source in its place: the two are
    one entry, or the retry is refused. -/
structure LosesFile (card : NamedCard ν) (source destination : List ν) : Prop where
  sourceFile : card.IsFile source
  destinationFile : card.IsFile destination
  sourceType : R_FAILED card.answer = false
  destinationType : R_FAILED card.taken.taken.answer = false
  deleted : R_FAILED card.taken.taken.taken.answer = false
  retry : source = destination ∨ R_FAILED card.taken.taken.taken.taken.answer = true

variable {card : NamedCard ν} {source destination : List ν}

theorem replaced_moved (entries : List ν → Option CardEntry) :
    Replaced entries (moved entries source destination) source destination :=
  ⟨moved_below entries source destination, fun _ => moved_apart⟩

omit [DecidableEq ν] in
/-- A file at the destination is in a directory, and not below a file. -/
theorem IsFile.parent (hsource : card.IsFile source) (hdestination : card.IsFile destination)
    (hne : source ≠ destination) :
    ¬ source <+: destination ∧ card.entries destination.dropLast = some .directory := by
  obtain ⟨content, hsource⟩ := hsource
  obtain ⟨content', hdestination⟩ := hdestination
  constructor
  · rintro ⟨rest, rfl⟩
    have hrest : rest ≠ [] := by
      rintro rfl
      exact hne (List.append_nil source).symm
    rw [card.below_file hsource hrest] at hdestination
    cases hdestination
  · have hnonempty : destination ≠ [] := by
      rintro rfl
      have hbelow : card.entries ([] ++ source) = none := card.below_file hdestination hne
      rw [List.nil_append, hsource] at hbelow
      cases hbelow
    refine card.tree destination.dropLast (destination.getLast hnonempty) ?_
    rw [List.dropLast_append_getLast hnonempty, hdestination]
    exact Option.some_ne_none _

/-- With its file deleted, the destination is a place for another file. -/
theorem moveAllowed_of_deleted {card' : NamedCard ν}
    (hentries : card'.entries = Function.update card.entries destination none)
    (hsource : card.IsFile source) (hdestination : card.IsFile destination)
    (hne : source ≠ destination) :
    card'.IsFile source ∧ card'.MoveAllowed source destination := by
  obtain ⟨hapart, hparent⟩ := hsource.parent hdestination hne
  have hnotSelf : destination.dropLast ≠ destination := by
    intro hself
    obtain ⟨content, hfile⟩ := hdestination
    rw [hself, hfile] at hparent
    cases hparent
  refine ⟨?_, ⟨?_, ?_, hapart⟩⟩
  · obtain ⟨content, hfile⟩ := hsource
    exact ⟨content, by rw [hentries, Function.update_of_ne hne, hfile]⟩
  · rw [hentries, Function.update_self]
  · rw [hentries, Function.update_of_ne hnotSelf, hparent]

/-- The retry replaces the destination of the card before the delete. -/
theorem replaced_deleted (hsource : card.IsFile source) (hne : source ≠ destination)
    (hdestination : card.IsFile destination) :
    Replaced card.entries
      (moved (Function.update card.entries destination none) source destination)
      source destination := by
  obtain ⟨hapart, -⟩ := hsource.parent hdestination hne
  refine ⟨fun rest => ?_, fun path hpath hpath' => ?_⟩
  · rw [moved_below, Function.update_of_ne]
    rintro rfl
    exact hapart (List.prefix_append source rest)
  · rw [moved_apart hpath hpath', Function.update_of_ne]
    rintro rfl
    exact hpath' (List.prefix_refl _)

theorem not_kept_deleted (hdestination : card.IsFile destination) :
    ¬ Kept card.entries (Function.update card.entries destination none) := by
  intro hkept
  obtain ⟨content, hfile⟩ := hdestination
  have hgone := hkept destination content hfile
  rw [Function.update_self] at hgone
  cases hgone

/-- What is demanded of a rename by its result. -/
def RenameKeeps (before after : List ν → Option CardEntry) (source destination : List ν)
    (result : UInt32) : Prop :=
  if R_FAILED result = true then Kept before after else Replaced before after source destination

omit [DecidableEq ν] in
theorem renameKeeps_of_failed {before after : List ν → Option CardEntry} {result : UInt32}
    (hresult : R_FAILED result = true) (hentries : after = before) :
    RenameKeeps before after source destination result := by
  rw [RenameKeeps, if_pos hresult, hentries]
  exact fun _ _ h => h

omit [DecidableEq ν] in
theorem renameKeeps_of_moved {before after : List ν → Option CardEntry} {result : UInt32}
    (hresult : result = 0) (hreplaced : Replaced before after source destination) :
    RenameKeeps before after source destination result := by
  rw [RenameKeeps, if_neg (by rw [hresult]; decide)]
  exact hreplaced

/-- The retry leaves every entry alone, or it deletes a file and renames on the card without it. -/
theorem retry_cases (source destination : List ν) (failed : UInt32) (card : NamedCard ν) :
    ((retry source destination failed card).1 = failed ∧
        (retry source destination failed card).2.entries = card.entries ∧
        ¬ (card.IsFile destination ∧ R_FAILED card.answer = false ∧
          R_FAILED card.taken.answer = false)) ∨
      (card.IsFile destination ∧ R_FAILED card.answer = false ∧
        R_FAILED card.taken.answer = false ∧ ∃ removed : NamedCard ν,
          removed.entries = Function.update card.entries destination none ∧
          removed.answer = card.taken.taken.answer ∧
          retry source destination failed card = renameFile source destination removed) := by
  unfold retry
  obtain ⟨hquery, ⟨hfound, hanswer, hentry⟩ | ⟨hfound, hwhy⟩⟩ := getEntryType_cases destination card
  case inr =>
    -- nothing was found at the destination
    simp only [hfound, true_or, if_true, hquery]
    refine .inl ⟨trivial, rfl, ?_⟩
    rintro ⟨⟨content, hfile⟩, hanswer, -⟩
    rcases hwhy with hrefused | hnone
    · rw [hanswer] at hrefused
      cases hrefused
    · rw [hfile] at hnone
      cases hnone
  rcases hentry with ⟨htype, hfile⟩ | ⟨htype, hdirectory⟩
  case inr =>
    -- a directory is not deleted
    simp only [htype, ne_eq, reduceCtorEq, not_false_eq_true, or_true, if_true, hquery]
    refine .inl ⟨trivial, rfl, ?_⟩
    rintro ⟨⟨content, hfile⟩, -⟩
    rw [hfile] at hdirectory
    cases hdirectory
  simp only [hfound, Bool.false_eq_true, htype, ne_eq, not_true_eq_false, or_self, if_false, hquery]
  obtain ⟨hanswers, ⟨hkept, hdelete, hentries⟩ | ⟨hgone, hdelete, hentries⟩⟩ :=
    deleteFile_cases card.taken hfile
  · -- the delete is refused
    simp only [hkept, if_true]
    refine .inl ⟨trivial, hentries, ?_⟩
    rintro ⟨-, -, hserved⟩
    rw [hserved] at hdelete
    cases hdelete
  · simp only [hgone, Bool.false_eq_true, if_false]
    exact .inr ⟨hfile, hanswer, hdelete, _, hentries, answer_congr hanswers, rfl⟩

/-- The second rename, on the card without the destination's file, puts the source in its place
    unless the two are one entry or it is refused. -/
theorem renameFile_deleted_keeps_iff {removed : NamedCard ν} (hsource : card.IsFile source)
    (hdestination : card.IsFile destination)
    (hremoved : removed.entries = Function.update card.entries destination none) :
    RenameKeeps card.entries (renameFile source destination removed).2.entries source destination
        (renameFile source destination removed).1 ↔
      ¬ (source = destination ∨ R_FAILED removed.answer = true) := by
  obtain ⟨-, ⟨hresult, hentries, hwhy⟩ | ⟨hresult, hanswer, ⟨content, hagain⟩, -, hentries⟩⟩ :=
    renameFile_cases source destination removed
  · -- refused: the destination's file is lost
    refine iff_of_false ?_ (not_not.mpr ?_)
    · rw [RenameKeeps, if_pos hresult, hentries, hremoved]
      exact not_kept_deleted hdestination
    · rcases hwhy with hrefused | hnot
      · exact .inr hrefused
      · by_contra hboth
        rw [not_or] at hboth
        exact hnot (moveAllowed_of_deleted hremoved hsource hdestination hboth.1)
  · -- served: the source is in its place
    have hne : source ≠ destination := by
      intro hsame
      rw [hremoved, hsame, Function.update_self] at hagain
      cases hagain
    refine iff_of_true (renameKeeps_of_moved hresult ?_) ?_
    · rw [hentries, hremoved]
      exact replaced_deleted hsource hne hdestination
    · rintro (hsame | hrefused)
      · exact hne hsame
      · rw [hrefused] at hanswer
        cases hanswer

/-- The rename of a file: what becomes of the card. -/
theorem replace_keeps_iff {source destination : List ν} (card : NamedCard ν)
    (hsource : card.IsFile source) :
    let renamed := replace source destination card
    RenameKeeps card.entries renamed.2.entries source destination renamed.1 ↔
      ¬ (card.IsFile destination ∧ R_FAILED card.taken.answer = false ∧
        R_FAILED card.taken.taken.answer = false ∧
        (source = destination ∨
          R_FAILED card.taken.taken.taken.answer = true)) := by
  intro renamed
  obtain ⟨hanswers, ⟨hfailed, hentries, -⟩ | ⟨hresult, -, -, hallowed, hentries⟩⟩ :=
    renameFile_cases source destination card
  case inr =>
    -- the destination was free
    have hrenamed : renamed = renameFile source destination card := by
      change replace _ _ _ = _
      unfold replace
      simp only [hresult]
      rfl
    rw [hrenamed]
    refine iff_of_true (renameKeeps_of_moved hresult ?_) ?_
    · rw [hentries]
      exact replaced_moved card.entries
    · rintro ⟨⟨content, hfile⟩, -⟩
      rw [hallowed.free] at hfile
      cases hfile
  have hrenamed : renamed = retry source destination (renameFile source destination card).1
      (renameFile source destination card).2 := if_pos hfailed
  -- the refused rename has left the entries alone and taken one answer
  generalize (renameFile source destination card).1 = failed at *
  generalize (renameFile source destination card).2 = first at *
  have hfile : first.IsFile destination ↔ card.IsFile destination := by
    unfold IsFile
    rw [hentries]
  have hsecond : first.answer = card.taken.answer := answer_congr hanswers
  have hthird : first.taken.answer = card.taken.taken.answer :=
    answer_congr (congrArg List.tail hanswers)
  have hfourth : first.taken.taken.answer = card.taken.taken.taken.answer :=
    answer_congr (congrArg (fun answers => answers.tail.tail) hanswers)
  rw [hrenamed]
  rcases retry_cases source destination failed first with
    ⟨hresult, hkept, hnot⟩ | ⟨hdestination, hserved, hdeleted, removed, hremoved, hanswer, hretry⟩
  · rw [hfile, hsecond, hthird] at hnot
    refine iff_of_true (renameKeeps_of_failed ?_ (hkept.trans hentries)) ?_
    · rw [hresult]
      exact hfailed
    rintro ⟨hdestination, hserved, hdeleted, -⟩
    exact hnot ⟨hdestination, hserved, hdeleted⟩
  · rw [hfile] at hdestination
    rw [hsecond] at hserved
    rw [hthird] at hdeleted
    rw [hentries] at hremoved
    rw [hfourth] at hanswer
    rw [hretry, renameFile_deleted_keeps_iff hsource hdestination hremoved, hanswer]
    refine not_congr ⟨fun hlost => ⟨hdestination, hserved, hdeleted, hlost⟩, ?_⟩
    rintro ⟨-, -, -, hlost⟩
    exact hlost

/-- The native calls of a rename, on any entry. -/
theorem rename_keeps_iff {source destination : List ν} (card : NamedCard ν) :
    let renamed := rename source destination card
    RenameKeeps card.entries renamed.2.entries source destination renamed.1 ↔
      ¬ card.LosesFile source destination := by
  intro renamed
  obtain ⟨hquery, ⟨hfound, hanswer, ⟨htype, hfile⟩ | ⟨htype, hdirectory⟩⟩ | ⟨hfound, hwhy⟩⟩ :=
    getEntryType_cases source card
  · have hrenamed : renamed = replace source destination card.taken := by
      change rename _ _ _ = _
      unfold rename
      simp only [hfound, Bool.false_eq_true, if_false, htype, hquery]
    rw [hrenamed]
    have hiff := @replace_keeps_iff ν _ source destination card.taken hfile
    refine hiff.trans (not_congr ?_)
    constructor
    · rintro ⟨hdestination, hsecond, hthird, hretry⟩
      exact ⟨hfile, hdestination, hanswer, hsecond, hthird, hretry⟩
    · rintro ⟨-, hdestination, -, hsecond, hthird, hretry⟩
      exact ⟨hdestination, hsecond, hthird, hretry⟩
  · have hrenamed : renamed = renameDirectory source destination card.taken := by
      change rename _ _ _ = _
      unfold rename
      simp only [hfound, Bool.false_eq_true, if_false, htype, hquery]
    rw [hrenamed]
    refine iff_of_true ?_ ?_
    · obtain ⟨hresult, hentries⟩ | ⟨hresult, hentries⟩ :=
        renameDirectory_cases source destination card.taken
      · exact renameKeeps_of_failed hresult hentries
      · refine renameKeeps_of_moved hresult ?_
        rw [hentries]
        exact replaced_moved card.entries
    · rintro ⟨⟨content, hfile⟩, -⟩
      rw [hfile] at hdirectory
      cases hdirectory
  · have hrenamed : renamed = ((getEntryType source card).1, card.taken) := by
      change rename _ _ _ = _
      unfold rename
      simp only [hfound, if_true, hquery]
    rw [hrenamed]
    refine iff_of_true (renameKeeps_of_failed hfound rfl) ?_
    rintro ⟨⟨content, hfile⟩, -, hanswer, -⟩
    rcases hwhy with hrefused | hnone
    · rw [hanswer] at hrefused
      cases hrefused
    · rw [hfile] at hnone
      cases hnone

end NamedCard

/-! ## The command -/

/-- The native calls of a rename are the card's, on which all paths with equal `names` are one entry. -/
structure ServesRenames (native : NativeDirs (NamedCard ν)) (names : NativePath → List ν) : Prop where
  getEntryType : ∀ path, native.getEntryType path = NamedCard.getEntryType (names path)
  renameFile : ∀ source destination,
    native.renameFile source destination = NamedCard.renameFile (names source) (names destination)
  renameDirectory : ∀ source destination, native.renameDirectory source destination =
    NamedCard.renameDirectory (names source) (names destination)
  deleteFile : ∀ path, native.deleteFile path = NamedCard.deleteFile (names path)

section Command

variable {κ : Type} {native : NativeDirs (NamedCard ν)}
  {names : NativePath → List ν} {fsdev : FsdevTranslatePath}

theorem replaceFile_eq (serves : ServesRenames native names) (source destination : NativePath)
    (failed : UInt32) (w : VfsWorld (NamedCard ν) κ) :
    replaceFile native source destination failed w =
      (w.setFs (NamedCard.retry (names source) (names destination) failed w.fs).2,
        (NamedCard.retry (names source) (names destination) failed w.fs).1) := by
  unfold replaceFile NamedCard.retry
  simp only [nativeCall, VfsWorld.setFs, serves.renameFile, serves.getEntryType,
    serves.deleteFile]
  split
  · rfl
  · split <;> rfl

/-- The native calls of `ftp_vfs_rename` are a rename on the card. -/
theorem renameEntry_eq (serves : ServesRenames native names) (source destination : NativePath)
    (w : VfsWorld (NamedCard ν) κ) :
    renameEntry native source destination w =
      (w.setFs (NamedCard.rename (names source) (names destination) w.fs).2,
        (NamedCard.rename (names source) (names destination) w.fs).1) := by
  unfold renameEntry NamedCard.rename NamedCard.replace nativeCall
  rw [serves.getEntryType]
  dsimp only
  split
  · rfl
  · cases (NamedCard.getEntryType (names source) w.fs).2.1 with
    | dir =>
      dsimp only
      rw [serves.renameDirectory]
      rfl
    | file =>
      dsimp only
      rw [serves.renameFile, replaceFile_eq serves]
      dsimp only [VfsWorld.setFs]
      by_cases hfailed : R_FAILED (NamedCard.renameFile (names source) (names destination)
          (NamedCard.getEntryType (names source) w.fs).2.2).1 = true
      · simp only [if_pos hfailed]
        exact if_pos hfailed
      · simp only [if_neg hfailed]
        exact if_neg hfailed

/-- The file system and the native form of a path of the command. -/
def nativeOf (fsdev : FsdevTranslatePath) (path : List UInt8) : Option (Nat × TranslatedPath) :=
  (ftpPathResolve path resolvedSize).bind fsdev

omit [DecidableEq ν] in
theorem withTranslated_some {path : List UInt8} {fileSystem : Nat} {nativePath : TranslatedPath}
    (h : nativeOf fsdev path = some (fileSystem, nativePath)) (w : VfsWorld (NamedCard ν) κ)
    (operation : Nat → NativePath → VfsWorld (NamedCard ν) κ × Int) :
    withTranslated fsdev path w operation = operation fileSystem nativePath.bytes := by
  unfold nativeOf at h
  unfold withTranslated
  cases hresolved : ftpPathResolve path resolvedSize with
  | none => simp [hresolved] at h
  | some resolved =>
    rw [hresolved, Option.bind_some] at h
    simp only [h]

omit [DecidableEq ν] in
theorem withTranslated_none {path : List UInt8} (h : nativeOf fsdev path = none)
    (w : VfsWorld (NamedCard ν) κ)
    (operation : Nat → NativePath → VfsWorld (NamedCard ν) κ × Int) :
    (withTranslated fsdev path w operation).2 = -1 ∧
      (withTranslated fsdev path w operation).1.fs = w.fs := by
  unfold nativeOf at h
  unfold withTranslated
  cases hresolved : ftpPathResolve path resolvedSize with
  | none => exact ⟨rfl, rfl⟩
  | some resolved =>
    rw [hresolved, Option.bind_some] at h
    simp only [h, and_self]

/-- The command reaches the native calls, for these native paths. -/
structure Reaches (fsdev : FsdevTranslatePath) (searchIsActive : Bool)
    (source destination : List UInt8) (nativeSource nativeDestination : TranslatedPath) : Prop where
  allowed : ftpPathCanMutate source searchIsActive = true ∧
    ftpPathCanMutate destination searchIsActive = true
  translated : ∃ fileSystem, nativeOf fsdev source = some (fileSystem, nativeSource) ∧
    nativeOf fsdev destination = some (fileSystem, nativeDestination)

/-- An answer other than 0 leaves every file under its old path; the answer 0 puts what was at the
    source at the destination, and only what was at the destination is gone. -/
def RenameSafe (native : NativeDirs (NamedCard ν)) (names : NativePath → List ν)
    (fsdev : FsdevTranslatePath) (searchIsActive : Bool) (source destination : List UInt8)
    (w : VfsWorld (NamedCard ν) κ) : Prop :=
  let renamed := ftp_vfs_rename native fsdev source destination searchIsActive w
  (renamed.2 ≠ 0 → NamedCard.Kept w.fs.entries renamed.1.fs.entries) ∧
    ∀ sourceFs destinationFs nativeSource nativeDestination,
      nativeOf fsdev source = some (sourceFs, nativeSource) →
      nativeOf fsdev destination = some (destinationFs, nativeDestination) → renamed.2 = 0 →
      NamedCard.Replaced w.fs.entries renamed.1.fs.entries (names nativeSource.bytes)
        (names nativeDestination.bytes)

omit [DecidableEq ν] in
/-- A command that is refused before its native calls. -/
theorem renameSafe_of_refused {searchIsActive : Bool} {source destination : List UInt8}
    {w : VfsWorld (NamedCard ν) κ}
    (h : (ftp_vfs_rename native fsdev source destination searchIsActive w).2 = -1 ∧
      (ftp_vfs_rename native fsdev source destination searchIsActive w).1.fs = w.fs) :
    RenameSafe native names fsdev searchIsActive source destination w := by
  obtain ⟨hresult, hfs⟩ := h
  refine ⟨fun _ => ?_, fun _ _ _ _ _ _ hzero => ?_⟩
  · rw [hfs]
    exact fun _ _ h => h
  · rw [hresult] at hzero
    cases hzero

theorem renameSafe_of_reaches {searchIsActive : Bool} {source destination : List UInt8}
    {nativeSource nativeDestination : TranslatedPath} {w : VfsWorld (NamedCard ν) κ}
    (serves : ServesRenames native names)
    (hreaches : Reaches fsdev searchIsActive source destination nativeSource nativeDestination) :
    RenameSafe native names fsdev searchIsActive source destination w ↔
      ¬ w.fs.LosesFile (names nativeSource.bytes) (names nativeDestination.bytes) := by
  obtain ⟨⟨hallowed, hallowed'⟩, fileSystem, hsource, hdestination⟩ := hreaches
  have hcommand : ftp_vfs_rename native fsdev source destination searchIsActive w =
      finish (renameEntry native nativeSource.bytes nativeDestination.bytes w) := by
    unfold ftp_vfs_rename whenAllowed
    rw [if_pos hallowed, if_pos hallowed', withTranslated_some hsource,
      withTranslated_some hdestination, if_neg (not_not.mpr rfl)]
  refine Iff.trans ?_ (NamedCard.rename_keeps_iff w.fs)
  unfold RenameSafe NamedCard.RenameKeeps
  rw [hcommand, renameEntry_eq serves]
  simp only [finish]
  split
  · constructor
    · intro hsafe
      exact hsafe.1 (by simp [setFsError])
    · intro hkept
      exact ⟨fun _ => hkept, fun _ _ _ _ _ _ hzero => absurd hzero (by simp [setFsError])⟩
  · constructor
    · intro hsafe
      exact hsafe.2 _ _ _ _ hsource hdestination rfl
    · intro hreplaced
      refine ⟨fun hzero => absurd rfl hzero, fun _ _ _ _ hsource' hdestination' _ => ?_⟩
      rw [hsource] at hsource'
      rw [hdestination] at hdestination'
      cases hsource'
      cases hdestination'
      exact hreplaced

omit [DecidableEq ν] in
/-- One of the checks before the native calls refuses the command. -/
theorem refused_of_not_reaches {searchIsActive : Bool} {source destination : List UInt8}
    {w : VfsWorld (NamedCard ν) κ}
    (h : ∀ nativeSource nativeDestination,
      ¬ Reaches fsdev searchIsActive source destination nativeSource nativeDestination) :
    (ftp_vfs_rename native fsdev source destination searchIsActive w).2 = -1 ∧
      (ftp_vfs_rename native fsdev source destination searchIsActive w).1.fs = w.fs := by
  unfold ftp_vfs_rename whenAllowed
  split
  case isFalse => exact ⟨rfl, rfl⟩
  case isTrue hallowed =>
    split
    case isFalse => exact ⟨rfl, rfl⟩
    case isTrue hallowed' =>
      cases hsource : nativeOf fsdev source with
      | none => exact withTranslated_none hsource w _
      | some found =>
        obtain ⟨sourceFs, nativeSource⟩ := found
        rw [withTranslated_some hsource]
        cases hdestination : nativeOf fsdev destination with
        | none => exact withTranslated_none hdestination w _
        | some found' =>
          obtain ⟨destinationFs, nativeDestination⟩ := found'
          rw [withTranslated_some hdestination]
          split
          · exact ⟨rfl, rfl⟩
          case isFalse hsame =>
            rw [not_not] at hsame
            subst hsame
            exact absurd ⟨⟨hallowed, hallowed'⟩, sourceFs, hsource, hdestination⟩
              (h nativeSource nativeDestination)

/-- A rename is safe unless it reaches the native calls and the card is one on which it deletes the
    destination's file and then cannot put the source in its place. -/
theorem rename_safe_iff (native : NativeDirs (NamedCard ν)) (names : NativePath → List ν)
    (serves : ServesRenames native names) (fsdev : FsdevTranslatePath) (searchIsActive : Bool)
    (source destination : List UInt8) (w : VfsWorld (NamedCard ν) κ) :
    RenameSafe native names fsdev searchIsActive source destination w ↔
      ∀ nativeSource nativeDestination,
        Reaches fsdev searchIsActive source destination nativeSource nativeDestination →
        ¬ w.fs.LosesFile (names nativeSource.bytes) (names nativeDestination.bytes) := by
  by_cases hreaches : ∃ nativeSource nativeDestination,
      Reaches fsdev searchIsActive source destination nativeSource nativeDestination
  · obtain ⟨nativeSource, nativeDestination, hreaches⟩ := hreaches
    rw [renameSafe_of_reaches serves hreaches]
    constructor
    · rintro hsafe nativeSource' nativeDestination' ⟨-, fileSystem', hsource', hdestination'⟩
      obtain ⟨-, fileSystem, hsource, hdestination⟩ := hreaches
      rw [hsource] at hsource'
      rw [hdestination] at hdestination'
      cases hsource'
      cases hdestination'
      exact hsafe
    · intro hall
      exact hall nativeSource nativeDestination hreaches
  · rw [not_exists] at hreaches
    refine iff_of_true (renameSafe_of_refused (refused_of_not_reaches fun nativeSource
      nativeDestination h => hreaches nativeSource ⟨nativeDestination, h⟩)) ?_
    exact fun nativeSource nativeDestination h =>
      absurd ⟨nativeDestination, h⟩ (hreaches nativeSource)

end Command

/-! ## Two spellings of one file -/

/-- The names of a path on a card that does not tell `A` to `Z` from `a` to `z`. -/
def asciiNames (path : NativePath) : List NativePath :=
  ((path.map fun byte => if 0x41 ≤ byte ∧ byte ≤ 0x5A then byte + 0x20 else byte).splitOn
    0x2F).filter (· ≠ [])

/-- A card with the file `/a` of one byte, on which no call is refused. -/
def fileCard : NamedCard NativePath where
  entries := fun path =>
    if path = [] then some .directory else if path = [[0x61]] then some (.file [0x01]) else none
  tree := by
    intro parent name h
    cases parent with
    | nil => rfl
    | cons first rest => simp at h
  answers := []

/-- A native file system on the card; the calls that no rename makes are refused. -/
def asciiCard : NativeDirs (NamedCard NativePath) where
  createFile := fun _ card => (NamedCard.notFound, card)
  deleteFile := fun path => NamedCard.deleteFile (asciiNames path)
  renameFile := fun source destination =>
    NamedCard.renameFile (asciiNames source) (asciiNames destination)
  createDirectory := fun _ card => (NamedCard.notFound, card)
  deleteDirectory := fun _ card => (NamedCard.notFound, card)
  setConcatenationFileAttribute := fun _ card => (NamedCard.notFound, card)
  walkDirectory := fun _ card => card
  openFile := fun _ _ card => (NamedCard.notFound, 0, card)
  closeFile := fun _ card => card
  getSize := fun _ card => (NamedCard.notFound, 0, card)
  setSize := fun _ _ card => (NamedCard.notFound, card)
  flush := fun _ card => (NamedCard.notFound, card)
  read := fun _ _ _ card => (NamedCard.notFound, [], card)
  write := fun _ _ _ card => (NamedCard.notFound, card)
  getEntryType := fun path => NamedCard.getEntryType (asciiNames path)
  renameDirectory := fun source destination =>
    NamedCard.renameDirectory (asciiNames source) (asciiNames destination)

theorem asciiCard_serves : ServesRenames asciiCard asciiNames :=
  ⟨fun _ => rfl, fun _ _ => rfl, fun _ _ => rfl, fun _ => rfl⟩

/-- `fsdev` for the paths of the examples: the native path is what follows `sdmc:`. -/
def cardFsdev (resolved : List UInt8) : Option (Nat × TranslatedPath) :=
  if h : resolved.drop 5 ≠ [] ∧ (resolved.drop 5).length < FS_MAX_PATH then
    some (0, ⟨resolved.drop 5, h.1, h.2⟩)
  else none

def fileWorld : VfsWorld (NamedCard NativePath) (Fin 4) :=
  ⟨fileCard, fun _ => .zero, [], ⟨0, 0, 0, 0⟩, .none⟩

/-- The rename of `/a` to `/b`, which does not exist. -/
theorem rename_to_free_name_safe :
    RenameSafe asciiCard asciiNames cardFsdev false [0x2F, 0x61] [0x2F, 0x62] fileWorld := by
  refine (rename_safe_iff asciiCard asciiNames asciiCard_serves cardFsdev false [0x2F, 0x61]
    [0x2F, 0x62] fileWorld).mpr ?_
  rintro nativeSource nativeDestination ⟨-, fileSystem, -, hdestination⟩ ⟨-, hfile, -⟩
  have hname : nativeOf cardFsdev [0x2F, 0x62] = some (0, ⟨[0x2F, 0x62], by decide, by decide⟩) := rfl
  rw [hname] at hdestination
  cases hdestination
  obtain ⟨content, hfile⟩ := hfile
  have hnone : fileWorld.fs.entries (asciiNames [0x2F, 0x62]) = none := by decide
  rw [hnone] at hfile
  cases hfile

/-- The file `/a` is lost when it is renamed to `/A`, which is refused as an existing entry. -/
theorem rename_to_other_spelling_loses_file :
    ¬ ∀ (source destination : List UInt8) (w : VfsWorld (NamedCard NativePath) (Fin 4)),
      RenameSafe asciiCard asciiNames cardFsdev false source destination w := by
  intro hall
  let lower : TranslatedPath := ⟨[0x2F, 0x61], by decide, by decide⟩
  let upper : TranslatedPath := ⟨[0x2F, 0x41], by decide, by decide⟩
  have hfile : fileCard.IsFile [[0x61]] := ⟨[0x01], rfl⟩
  have hreaches : Reaches cardFsdev false [0x2F, 0x61] [0x2F, 0x41] lower upper :=
    ⟨⟨by decide, by decide⟩, 0, rfl, rfl⟩
  have hsafe := (renameSafe_of_reaches asciiCard_serves hreaches).mp
    (hall [0x2F, 0x61] [0x2F, 0x41] fileWorld)
  exact hsafe ⟨hfile, hfile, rfl, rfl, rfl, .inl (by decide)⟩

end SysAgent
