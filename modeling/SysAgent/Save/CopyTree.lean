import SysAgent.Ftp.Vfs
import SysAgent.Lib.FileTree

set_option autoImplicit false

/-! # Copying a save (`system_commands.c`)

`copyDirectoryTree` walks a directory with `readdir` and copies what it finds below a directory of
the SD card. `readdir` returns `NULL` at the end of a directory and on an error alike, and the loop
takes both for the end. What the source returns as `true` is `ok` here and `false` is `error`,
either way with the state left behind.

A directory is the list of its entries in the order in which `readdir` gives them, each with what
the calls made for it answer, so a `SaveListing` is a tree together with a pattern of failures. The
card keeps its entries under keys; which names are spellings of one key is the parameter
`spelling`. -/

namespace SysAgent

open FileTree

/-! ## A save and the calls on it -/

/-- A name other than `.` and `..`. -/
structure EntryName where
  bytes : List UInt8
  proper : bytes ≠ [0x2E] ∧ bytes ≠ [0x2E, 0x2E]

/-- What the calls on a file answer. `fread` and `fwrite` are told by the offset at which they come:
    `none` where the call does all its work, else the number of bytes after which it stops. -/
structure FileCalls where
  stat : Bool
  fopenInput : Bool
  fopenOutput : Bool
  fread : Nat → Option Nat
  fwrite : Nat → Option Nat
  fclose : Bool

/-- What the calls on a directory answer; `mkdir` is a failure that an existing entry does not
    explain. -/
structure DirectoryCalls where
  stat : Bool
  mkdir : Bool
  opendir : Bool

/-- The entries of a directory. Where `returned` is false, `readdir` fails on the entry. -/
inductive SaveListing
  | done
  | dot (returned : Bool) (rest : SaveListing)
  | file (returned : Bool) (name : EntryName) (content : List UInt8) (calls : FileCalls)
      (rest : SaveListing)
  | directory (returned : Bool) (name : EntryName) (calls : DirectoryCalls) (inner : SaveListing)
      (rest : SaveListing)

/-- The backup and the two counters, with a ghost: the depths of the directories opened. -/
structure CopyState (κ : Type) where
  card : Tree κ (List UInt8)
  fileCount : UInt64
  byteCount : UInt64
  opened : List Nat

/-- `snprintf` of `"%s/%s"`. -/
def join (directory : NativePath) (name : EntryName) : NativePath :=
  directory ++ 0x2F :: name.bytes

def fits (path : NativePath) : Bool := path.length < FS_MAX_PATH

/-! ## One file -/

structure FileCopy where
  ok : Bool
  ferror : Bool
  written : List UInt8
  byteCount : UInt64

/-- The bytes read, and whether the call sets the error mark of the stream. -/
def fread (calls : FileCalls) (content : List UInt8) (offset size : Nat) : List UInt8 × Bool :=
  let bytes := (content.drop offset).take size
  match calls.fread offset with
  | none => (bytes, false)
  | some count => (bytes.take count, true)

/-- The number of bytes taken. -/
def fwrite (calls : FileCalls) (offset : Nat) (bytes : List UInt8) : Nat :=
  match calls.fwrite offset with
  | none => bytes.length
  | some count => min count bytes.length

theorem fread_length_le (calls : FileCalls) (content : List UInt8) (offset size : Nat) :
    (fread calls content offset size).1.length ≤ content.length - offset := by
  unfold fread
  split <;> simp only [List.length_take, List.length_drop] <;> omega

/-- The loop over the chunks of a file. -/
def copyChunks (calls : FileCalls) (content : List UInt8) (bufferSize offset : Nat)
    (r : FileCopy) : FileCopy :=
  let read := fread calls content offset bufferSize
  if _h : read.1 = [] then { r with ferror := r.ferror || read.2 }
  else
    let count := fwrite calls offset read.1
    let r :=
      { r with ferror := r.ferror || read.2, written := r.written ++ read.1.take count }
    if count ≠ read.1.length then { r with ok := false }
    else
      copyChunks calls content bufferSize (offset + read.1.length)
        { r with byteCount := r.byteCount + UInt64.ofNat read.1.length }
termination_by content.length - offset
decreasing_by
  have hlong : 0 < (fread calls content offset bufferSize).1.length :=
    List.length_pos_of_ne_nil _h
  have hle := fread_length_le calls content offset bufferSize
  omega

/-! ## What is left of a file -/

/-- No call that comes at `offset` or behind it fails. The calls come at the multiples of the
    buffer's size, and `fread` once more at the end of the file. -/
structure ChunksWork (calls : FileCalls) (content : List UInt8) (bufferSize offset : Nat) :
    Prop where
  reads : ∀ o, offset ≤ o → o ≤ content.length → bufferSize ∣ o ∨ o = content.length →
    calls.fread o = none
  writes : ∀ o, offset ≤ o → o < content.length → bufferSize ∣ o → ∀ count,
    calls.fwrite o = some count → min bufferSize (content.length - o) ≤ count

theorem fwrite_eq_length_iff (calls : FileCalls) (offset : Nat) (bytes : List UInt8) :
    fwrite calls offset bytes = bytes.length ↔
      ∀ count, calls.fwrite offset = some count → bytes.length ≤ count := by
  unfold fwrite
  split
  · rename_i hall
    simp [hall]
  · rename_i count hstops
    simp [hstops]

section

variable {calls : FileCalls} {content : List UInt8} {bufferSize offset : Nat}

/-- At the end of the file only the last `fread` is left. -/
theorem chunksWork_end :
    ChunksWork calls content bufferSize content.length ↔ calls.fread content.length = none := by
  constructor
  · intro h
    exact h.reads content.length le_rfl le_rfl (Or.inr rfl)
  · intro hread
    constructor
    · intro o hfrom hto _
      rw [Nat.le_antisymm hto hfrom]
      exact hread
    · intro o hfrom hto
      omega

/-- Between two chunks. -/
theorem chunksWork_next (hbuffer : 0 < bufferSize) (haligned : bufferSize ∣ offset)
    (hoffset : offset < content.length) :
    ChunksWork calls content bufferSize offset ↔
      calls.fread offset = none ∧
        (∀ count, calls.fwrite offset = some count →
          min bufferSize (content.length - offset) ≤ count) ∧
        ChunksWork calls content bufferSize
          (offset + min bufferSize (content.length - offset)) := by
  constructor
  · intro h
    refine ⟨h.reads offset le_rfl hoffset.le (Or.inl haligned),
      h.writes offset le_rfl hoffset haligned, ?_, ?_⟩
    · exact fun o hfrom => h.reads o (by omega)
    · exact fun o hfrom => h.writes o (by omega)
  · rintro ⟨hread, hwrite, h⟩
    -- no multiple of the buffer's size lies inside the chunk
    have hinside : ∀ o, offset ≤ o → bufferSize ∣ o → o = offset ∨ offset + bufferSize ≤ o := by
      intro o hfrom ho
      rcases Nat.eq_zero_or_pos (o - offset) with hzero | hpos
      · exact Or.inl (by omega)
      · have hle := Nat.le_of_dvd hpos (Nat.dvd_sub ho haligned)
        exact Or.inr (by omega)
    constructor
    · intro o hfrom hto hat
      by_cases hfirst : o = offset
      · rw [hfirst]
        exact hread
      · refine h.reads o ?_ hto hat
        rcases hat with ho | ho
        · rcases hinside o hfrom ho with hsame | hnext
          · exact absurd hsame hfirst
          · omega
        · omega
    · intro o hfrom hto ho
      rcases hinside o hfrom ho with rfl | hnext
      · exact hwrite
      · exact h.writes o (by omega) hto ho

/-- The position behind a chunk is a multiple of the buffer's size or the end of the file. -/
theorem aligned_next (haligned : bufferSize ∣ offset) (hoffset : offset < content.length) :
    bufferSize ∣ offset + min bufferSize (content.length - offset) ∨
      offset + min bufferSize (content.length - offset) = content.length := by
  rcases Nat.le_total bufferSize (content.length - offset) with hfull | hshort
  · rw [Nat.min_eq_left hfull]
    exact Or.inl (Nat.dvd_add haligned (Nat.dvd_refl bufferSize))
  · rw [Nat.min_eq_right hshort]
    exact Or.inr (by omega)

/-- A read without error. -/
theorem fread_clean_iff (size : Nat) :
    (fread calls content offset size).2 = false ↔ calls.fread offset = none := by
  unfold fread
  split <;> simp_all

theorem fread_eq (size : Nat) (h : calls.fread offset = none) :
    fread calls content offset size = ((content.drop offset).take size, false) := by
  simp [fread, h]

/-- A read that returns something without error returns a chunk. -/
theorem fread_length {size : Nat} (h : calls.fread offset = none)
    (hmore : (fread calls content offset size).1 ≠ []) :
    (fread calls content offset size).1.length = min size (content.length - offset) ∧
      offset < content.length := by
  rw [fread_eq size h] at hmore ⊢
  have hlong := List.length_pos_of_ne_nil hmore
  simp only [List.length_take, List.length_drop] at hlong ⊢
  exact ⟨trivial, by omega⟩

theorem fwrite_of_work (hwork : ChunksWork calls content bufferSize offset)
    (haligned : bufferSize ∣ offset) (hoffset : offset < content.length) {bytes : List UInt8}
    (hlength : bytes.length = min bufferSize (content.length - offset)) :
    fwrite calls offset bytes = bytes.length := by
  rw [fwrite_eq_length_iff, hlength]
  exact hwork.writes offset le_rfl hoffset haligned

/-- A file none of whose calls fails is copied from `offset` on. -/
theorem copyChunks_eq (hbuffer : 0 < bufferSize) (r : FileCopy)
    (hat : bufferSize ∣ offset ∨ offset = content.length) (hoffset : offset ≤ content.length)
    (hwork : ChunksWork calls content bufferSize offset) :
    copyChunks calls content bufferSize offset r =
      { r with
        written := r.written ++ content.drop offset
        byteCount := r.byteCount + UInt64.ofNat (content.length - offset) } := by
  fun_induction copyChunks calls content bufferSize offset r with
  | case1 offset r read hend =>
    have hread : read = _ := fread_eq bufferSize (hwork.reads offset le_rfl hoffset hat)
    rw [hread] at hend ⊢
    have hdrop : content.drop offset = [] := by
      rcases List.take_eq_nil_iff.1 hend with hzero | hnil
      · omega
      · exact hnil
    have hlast : content.length - offset = 0 := by
      rw [← List.length_drop, hdrop, List.length_nil]
    simp [hdrop, hlast]
  | case2 offset r read hmore count r' hshort =>
    have hclean := hwork.reads offset le_rfl hoffset hat
    obtain ⟨hlength, hbefore⟩ := fread_length hclean hmore
    have haligned := hat.resolve_right hbefore.ne
    exact absurd (fwrite_of_work hwork haligned hbefore hlength) hshort
  | case3 offset r read hmore count r' hall ih =>
    have hclean := hwork.reads offset le_rfl hoffset hat
    obtain ⟨hlength, hbefore⟩ := fread_length hclean hmore
    have haligned := hat.resolve_right hbefore.ne
    obtain ⟨-, -, hnext⟩ := (chunksWork_next hbuffer haligned hbefore).1 hwork
    have hread : read = _ := fread_eq bufferSize hclean
    have hlength' : read.1.length = min bufferSize (content.length - offset) := hlength
    have hchunk : read.1 ++ content.drop (offset + read.1.length) = content.drop offset := by
      rw [← List.drop_drop, ← List.prefix_iff_eq_append, hread]
      exact List.take_prefix bufferSize (content.drop offset)
    have hbytes : UInt64.ofNat read.1.length +
        UInt64.ofNat (content.length - (offset + read.1.length)) =
          UInt64.ofNat (content.length - offset) := by
      rw [← UInt64.ofNat_add]
      congr 1
      omega
    have hcount : read.1.take count = read.1 := List.take_of_length_le (not_not.1 hall).ge
    have hrest : copyChunks calls content bufferSize (offset + read.1.length) _ = _ :=
      ih (hlength' ▸ aligned_next haligned hbefore) (by omega) (hlength' ▸ hnext)
    rw [hrest]
    have hmark : read.2 = false := by rw [hread]
    simp only [r', hcount, hmark, Bool.or_false, List.append_assoc, UInt64.add_assoc, hchunk,
      hbytes]

/-- The error mark of a stream stays. -/
theorem copyChunks_ferror {r : FileCopy} (h : r.ferror = true) :
    (copyChunks calls content bufferSize offset r).ferror = true := by
  fun_induction copyChunks calls content bufferSize offset r with
  | case1 offset r read hend => simp [h]
  | case2 offset r read hread count r' hshort => simp [r', h]
  | case3 offset r read hread count r' hall ih => exact ih (by simp [r', h])

/-- A copy that ends well met no failure. -/
theorem work_of_copyChunks (hbuffer : 0 < bufferSize) {r : FileCopy}
    (hat : bufferSize ∣ offset ∨ offset = content.length) (hoffset : offset ≤ content.length)
    (hok : (copyChunks calls content bufferSize offset r).ok = true)
    (hferror : (copyChunks calls content bufferSize offset r).ferror = false) :
    ChunksWork calls content bufferSize offset := by
  fun_induction copyChunks calls content bufferSize offset r with
  | case1 offset r read hend =>
    have hclean : calls.fread offset = none := by
      rw [← @fread_clean_iff calls content offset bufferSize]
      exact (Bool.or_eq_false_iff.1 hferror).2
    have hnone : (fread calls content offset bufferSize).1 = [] := hend
    rw [fread_eq bufferSize hclean, List.take_eq_nil_iff, List.drop_eq_nil_iff] at hnone
    have hlast : offset = content.length := by omega
    subst hlast
    exact chunksWork_end.2 hclean
  | case2 offset r read hmore count r' hshort => cases hok
  | case3 offset r read hmore count r' hall ih =>
    -- the mark was not set before the rest of the file
    have hmark : r'.ferror = false := by
      by_contra hset
      have hstays := @copyChunks_ferror calls content bufferSize (offset + read.1.length)
        { r' with byteCount := r'.byteCount + UInt64.ofNat read.1.length } (by simpa using hset)
      rw [hferror] at hstays
      cases hstays
    have hclean : calls.fread offset = none := by
      rw [← @fread_clean_iff calls content offset bufferSize]
      exact (Bool.or_eq_false_iff.1 hmark).2
    obtain ⟨hlength, hbefore⟩ := fread_length hclean hmore
    have haligned := hat.resolve_right hbefore.ne
    have hlength' : read.1.length = min bufferSize (content.length - offset) := hlength
    have hcount : fwrite calls offset read.1 = read.1.length := not_not.1 hall
    rw [fwrite_eq_length_iff, hlength'] at hcount
    refine (chunksWork_next hbuffer haligned hbefore).2 ⟨hclean, hcount, ?_⟩
    rw [← hlength']
    exact ih (hlength' ▸ aligned_next haligned hbefore) (by omega) hok hferror

end

variable {κ : Type} [DecidableEq κ]

def copyFile (bufferSize : Nat) (calls : FileCalls) (content : List UInt8) (parent : List κ)
    (name : κ) (s : CopyState κ) : Except (CopyState κ) (CopyState κ) :=
  if !calls.fopenInput then .error s
  else if !calls.fopenOutput then .error s
  else
    let r := copyChunks calls content bufferSize 0
      { ok := true, ferror := false, written := [], byteCount := s.byteCount }
    -- an open for writing is refused where a directory stands
    match s.card.place ⟨parent, name, .file r.written⟩ with
    | none => .error s
    | some card =>
      let s := { s with card := card, byteCount := r.byteCount }
      if r.ok && !r.ferror && calls.fclose then .ok { s with fileCount := s.fileCount + 1 }
      else .error s

/-! ## The walk -/

/-- `mkdir` on the card. -/
def mkdir (calls : DirectoryCalls) (parent : List κ) (name : κ) (card : Tree κ (List UInt8)) :
    Except Errno (Tree κ (List UInt8)) :=
  if !calls.mkdir then .error Errno.EIO
  else if card.entries (parent ++ [name]) ≠ none then .error .EEXIST
  else
    match card.place ⟨parent, name, .directory⟩ with
    | none => .error .ENOENT
    | some card => .ok card

/-- `mkdir(destinationPath, 0777) != 0 && errno != EEXIST` -/
def makeDirectory (calls : DirectoryCalls) (parent : List κ) (name : κ) (s : CopyState κ) :
    Except (CopyState κ) (CopyState κ) :=
  match mkdir calls parent name s.card with
  | .ok card => .ok { s with card := card }
  | .error .EEXIST => .ok s
  | .error _ => .error s

omit [DecidableEq κ] in
/-- The limit and `opendir`. -/
def openDirectory (depth : Nat) (opendir : Bool) (s : CopyState κ) :
    Except (CopyState κ) (CopyState κ) :=
  if 32 < depth then .error s
  else if !opendir then .error s
  else .ok { s with opened := s.opened ++ [depth] }

variable (spelling : EntryName → κ) (bufferSize : Nat)

/-- The loop over the entries of an open directory. -/
def copyEntries : SaveListing → NativePath → NativePath → List κ → Nat → CopyState κ →
    Except (CopyState κ) (CopyState κ)
  | .done, _, _, _, _, s => .ok s
  | .dot returned rest, source, destination, parent, depth, s =>
    if !returned then .ok s
    else copyEntries rest source destination parent depth s
  | .file returned name content calls rest, source, destination, parent, depth, s =>
    if !returned then .ok s
    else if !(fits (join source name) && fits (join destination name)) then .error s
    else if !calls.stat then .error s
    else do
      let s ← copyFile bufferSize calls content parent (spelling name) s
      copyEntries rest source destination parent depth s
  | .directory returned name calls inner rest, source, destination, parent, depth, s =>
    if !returned then .ok s
    else if !(fits (join source name) && fits (join destination name)) then .error s
    else if !calls.stat then .error s
    else do
      let s ← makeDirectory calls parent (spelling name) s
      -- `copyDirectoryTree` on the directory found
      let s ← openDirectory (depth + 1) calls.opendir s
      let s ← copyEntries inner (join source name) (join destination name)
        (parent ++ [spelling name]) (depth + 1) s
      copyEntries rest source destination parent depth s

def copyDirectoryTree (opendir : Bool) (listing : SaveListing) (source destination : NativePath)
    (parent : List κ) (depth : Nat) (s : CopyState κ) :
    Except (CopyState κ) (CopyState κ) := do
  let s ← openDirectory depth opendir s
  copyEntries spelling bufferSize listing source destination parent depth s

end SysAgent
