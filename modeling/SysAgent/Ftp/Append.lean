import SysAgent.Ftp.Upload

set_option autoImplicit false

/-! # Appending over a card

Opening for append takes the way of every mode that writes: an entry that the console reads as one
big file is deleted before the file is created. What an upload is held to from the open on, the
content in front included, is `Uploading` of the entry's old content. -/

namespace SysAgent

open SlotTable
open Uploading (keptContent)

variable {κ : Type} [DecidableEq κ]

/-- The open alone leaves the entry with all it held, and the closed entry is its old content
    followed by the writes. -/
def AppendKeeps (rounds : Nat) (file : κ) (path : TranslatedPath) (content : List UInt8)
    (buffers : List (List UInt8)) (w : VfsWorld SdCard κ) : Prop :=
  let opened := (ftp_vfs_open sdCard file (.path path) true .append w).1
  let closed := (ftp_vfs_close sdCard file (ftpWrites sdCard (rounds + 3) file buffers opened).1).1
  (∃ concatenation content', opened.fs.entries path.bytes = some (.file concatenation content') ∧
      content <+: content') ∧
    ∃ concatenation,
      closed.fs.entries path.bytes = some (.file concatenation (content ++ buffers.flatten))

/-- A whole append, of which the open leaves `kept` of the entry. -/
theorem append_after_open {rounds : Nat} {file : κ} {path : TranslatedPath}
    {buffers : List (List UInt8)} {w : VfsWorld SdCard κ} {kept : List UInt8}
    (hup : Uploading file path.bytes false kept kept w)
    (hsizes : ∀ buffer ∈ buffers, buffer.length < 2 ^ 31)
    (htotal : kept.length + buffers.flatten.length + 2 ^ 20 ≤ 2 ^ 63) :
    ∃ concatenation,
      (ftp_vfs_close sdCard file (ftpWrites sdCard (rounds + 3) file buffers w).1).1.fs.entries
        path.bytes = some (.file concatenation (kept ++ buffers.flatten)) := by
  obtain ⟨-, concatenation, content, hup'⟩ := hup.writes path.fits hsizes (by omega) rounds
  obtain ⟨-, hentry, -⟩ := hup'.close
  exact ⟨concatenation, hentry⟩

/-- An append keeps what the entry held just when the entry is a plain file, or holds nothing. -/
theorem append_keeps_iff (rounds : Nat) (file : κ) (path : TranslatedPath)
    (concatenation : Bool) (content : List UInt8) (buffers : List (List UInt8))
    (w : VfsWorld SdCard κ) (ready : TargetReady w.fs path.bytes)
    (hentry : w.fs.entries path.bytes = some (.file concatenation content))
    (hplain : concatenation = false → (content.length : Int) ≤ FTP_PLAIN_FILE_MAX)
    (hroom : ∃ slot ∈ w.g_vfsState, slot.key = none ∨ slot.key = some file)
    (hsizes : ∀ buffer ∈ buffers, buffer.length < 2 ^ 31)
    (htotal : content.length + buffers.flatten.length + 2 ^ 20 ≤ 2 ^ 63) :
    AppendKeeps rounds file path content buffers w ↔ concatenation = false ∨ content = [] := by
  cases concatenation with
  | false =>
    have hkept : keptContent (w.fs.entries path.bytes) = content := by
      rw [hentry]
      rfl
    obtain ⟨-, hup⟩ := Uploading.ftp_vfs_open_append ready hroom
      (by rw [hkept]; exact hplain rfl)
    rw [hkept] at hup
    refine iff_of_true ⟨⟨false, content, hup.entry, List.prefix_refl _⟩, ?_⟩ (.inl rfl)
    exact append_after_open hup hsizes htotal
  | true =>
    have hkept : keptContent (w.fs.entries path.bytes) = [] := by
      rw [hentry]
      rfl
    obtain ⟨-, hup⟩ := Uploading.ftp_vfs_open_append ready hroom
      (by rw [hkept]; decide)
    rw [hkept] at hup
    constructor
    · rintro ⟨⟨concatenation', content', hopened, hkeeps⟩, -⟩
      rw [hup.entry] at hopened
      obtain ⟨-, rfl⟩ : false = concatenation' ∧ [] = content' := by simpa using hopened
      exact .inr (List.prefix_nil.mp hkeeps)
    · rintro (hplain' | rfl)
      · cases hplain'
      · refine ⟨⟨false, [], hup.entry, List.prefix_refl _⟩, ?_⟩
        exact append_after_open hup hsizes htotal

/-- A card with one file of one byte at `/a`. -/
def oneFileAdapter (concatenation : Bool) : VfsWorld SdCard (Fin 4) :=
  { emptyAdapter with
    fs := emptyCard.setEntry uploadPath.bytes (some (.file concatenation [0x61])) }

theorem oneFileAdapter_ready (concatenation : Bool) :
    TargetReady (oneFileAdapter concatenation).fs uploadPath.bytes ∧
      (oneFileAdapter concatenation).fs.entries uploadPath.bytes =
        some (.file concatenation [0x61]) ∧
      ∃ slot ∈ (oneFileAdapter concatenation).g_vfsState,
        slot.key = none ∨ slot.key = some 0 := by
  have hentry : (oneFileAdapter concatenation).fs.entries uploadPath.bytes =
      some (.file concatenation [0x61]) := by
    simp [oneFileAdapter, SdCard.setEntry]
  refine ⟨⟨?_, ?_, ?_, rfl⟩, hentry, emptyAdapter_ready.2⟩
  · rw [hentry]
    simp
  · simp [oneFileAdapter, SdCard.setEntry, emptyCard, FTP_CONCATENATION_TEMP_SUFFIX]
  · simp [oneFileAdapter, SdCard.setEntry, emptyCard, FIRST_PART]

theorem append_keeps_plain_file :
    AppendKeeps 0 (0 : Fin 4) uploadPath [0x61] [[0x62]] (oneFileAdapter false) := by
  obtain ⟨ready, hentry, hroom⟩ := oneFileAdapter_ready false
  exact (append_keeps_iff 0 0 uploadPath false [0x61] [[0x62]] (oneFileAdapter false) ready hentry
    (by decide) hroom (by decide) (by decide)).mpr (.inl rfl)

/-- Opening a concatenation file for append removes what it held. -/
theorem append_drops_concatenation_file :
    ¬ ∀ (concatenation : Bool) (buffers : List (List UInt8)),
      AppendKeeps 0 (0 : Fin 4) uploadPath [0x61] buffers (oneFileAdapter concatenation) := by
  intro hall
  obtain ⟨ready, hentry, hroom⟩ := oneFileAdapter_ready true
  have hkept : keptContent ((oneFileAdapter true).fs.entries uploadPath.bytes) = [] := by
    rw [hentry]
    rfl
  obtain ⟨-, hup⟩ := Uploading.ftp_vfs_open_append ready hroom (by rw [hkept]; decide)
  obtain ⟨⟨concatenation, content, hopened, hkeeps⟩, -⟩ := hall true []
  rw [hup.entry, hkept] at hopened
  obtain ⟨-, rfl⟩ : false = concatenation ∧ [] = content := by simpa using hopened
  exact absurd (List.prefix_nil.mp hkeeps) (by simp)

end SysAgent
