import Mathlib
import SysAgent.Ftp.Config

set_option autoImplicit false

/-! # The entries of a boot menu (`hekate_config.c`)

`fgets` hands the file over in pieces of a fixed buffer, and the loop takes a piece for a line. What
it makes of the pieces is what it makes of the lines when both have the same entries. -/

namespace SysAgent

def HEKATE_LINE_MAX : Nat := 512
def HEKATE_RTC_INDEX_MAX : Nat := 15

inductive HekateConfigResult
  | ok (entryIndex : UInt32)
  | openFailed
  | notFound
  | duplicateId
  | indexOutOfRange
  deriving DecidableEq

/-! ## The loop -/

/-- What `fgets` reads, one call after another; `read` is in the buffer, which keeps a byte for
    the NUL. -/
def fgetsPieces (read : List UInt8) : List UInt8 → List (List UInt8)
  | [] => if read = [] then [] else [read]
  | b :: rest =>
    if b = 0x0A ∨ read.length + 2 = HEKATE_LINE_MAX then (read ++ [b]) :: fgetsPieces [] rest
    else fgetsPieces (read ++ [b]) rest

/-- What a line is to the loop: `text` is trimmed. -/
inductive HekateLine
  | skipped
  | header (boot : Bool)
  | field (id : Bool)
  deriving DecidableEq

def hekateLine (wantedId text : List UInt8) : HekateLine :=
  if text = [] ∨ text.head? = some 0x23 ∨ text.head? = some 0x3B ∨ text.head? = some 0x7B then
    .skipped
  else if text.head? = some 0x5B ∧ 3 ≤ text.length ∧ text.getLast? = some 0x5D then
    .header (decide (trim (text.drop 1).dropLast ≠ ascii "config"))
  else if 0x3D ∈ text then
    let key := text.takeWhile fun b => b ≠ 0x3D
    let value := (text.dropWhile fun b => b ≠ 0x3D).drop 1
    .field (decide (trim key = ascii "id") && decide (trim value = wantedId))
  else
    .skipped

/-- A piece ends at its first NUL. -/
def pieceLine (wantedId piece : List UInt8) : HekateLine :=
  hekateLine wantedId (trim (piece.takeWhile fun b => b ≠ 0))

structure HekateState where
  index : UInt32
  currentIndex : UInt32
  foundIndex : Option UInt32
  inBootEntry : Bool

namespace HekateState

def initial : HekateState where
  index := 0
  currentIndex := 0
  foundIndex := none
  inBootEntry := false

/-- `none` is the return of `HekateConfigDuplicateId`. -/
def step (s : HekateState) : HekateLine → Option HekateState
  | .skipped => some s
  | .header boot =>
    if boot then
      some { s with index := s.index + 1, currentIndex := s.index + 1, inBootEntry := true }
    else
      some { s with inBootEntry := false }
  | .field id =>
    if !s.inBootEntry || !id then some s
    else
      match s.foundIndex with
      | some _ => none
      | none => some { s with foundIndex := some s.currentIndex }

def run (lines : List HekateLine) : Option HekateState := lines.foldlM step initial

end HekateState

/-- `hekateFindMainConfigId`; the file is absent when it cannot be opened. -/
def hekateFindMainConfigId (file : Option (List UInt8)) (wantedId : List UInt8) :
    HekateConfigResult :=
  if wantedId = [] then .notFound
  else
    match file with
    | none => .openFailed
    | some content =>
      match HekateState.run ((fgetsPieces [] content).map (pieceLine wantedId)) with
      | none => .duplicateId
      | some s =>
        match s.foundIndex with
        | none => .notFound
        | some found =>
          if found = 0 ∨ HEKATE_RTC_INDEX_MAX < found.toNat then .indexOutOfRange else .ok found

/-! ## The entries -/

def HekateLine.isHeader : HekateLine → Bool
  | .header _ => true
  | _ => false

/-- The last header is that of a boot entry. -/
def inBootEntry (before : List HekateLine) : Bool :=
  (before.filter HekateLine.isHeader).getLast? == some (.header true)

/-- The number of boot entries. -/
def bootEntries (before : List HekateLine) : Nat := before.count (.header true)

/-- The boot entries that have the id, by their numbers, once for each line that reads it. -/
def idEntries (lines : List HekateLine) : List Nat :=
  ((List.range lines.length).filter fun i =>
    lines[i]? == some (.field true) && inBootEntry (lines.take i)).map fun i =>
      bootEntries (lines.take i)

/-- The lines of a file, each with its line feed. -/
def fileLines : List UInt8 → List (List UInt8)
  | [] => []
  | b :: rest =>
    if b = 0x0A then [b] :: fileLines rest
    else
      match fileLines rest with
      | [] => [[b]]
      | line :: lines => (b :: line) :: lines

/-- The entries of the lines of the file. -/
def lineEntries (wantedId content : List UInt8) : List Nat :=
  idEntries ((fileLines content).map fun line => hekateLine wantedId (trim line))

/-- The entries of the pieces that `fgets` makes of them. -/
def pieceEntries (wantedId content : List UInt8) : List Nat :=
  idEntries ((fgetsPieces [] content).map (pieceLine wantedId))

def InMenu (k : Nat) : Prop := 1 ≤ k ∧ k ≤ HEKATE_RTC_INDEX_MAX

instance (k : Nat) : Decidable (InMenu k) := inferInstanceAs (Decidable (_ ∧ _))

/-- What is to be returned for the entries of a file. -/
def entryResult : List Nat → HekateConfigResult
  | [] => .notFound
  | [k] => if InMenu k then .ok (UInt32.ofNat k) else .indexOutOfRange
  | _ :: _ :: _ => .duplicateId

/-- The entry of the only line with the id is found, and a second such line is reported; the answer
    is that of the lines. -/
structure FindsEntry (entries : List Nat) (result : HekateConfigResult) : Prop where
  ok : ∀ k, (∃ index, result = .ok index ∧ index.toNat = k) ↔ entries = [k] ∧ InMenu k
  duplicate : result = .duplicateId ↔ 2 ≤ entries.length
  lines : result = entryResult entries

/-- Entries that are answered alike, the `read` ones counted with 32 bits. -/
def SameEntries (read lines : List Nat) : Prop :=
  (read = [] ∧ lines = []) ∨ (2 ≤ read.length ∧ 2 ≤ lines.length) ∨
    ∃ k k', read = [k] ∧ lines = [k'] ∧
      (k % 2 ^ 32 = k' ∨ (¬ InMenu (k % 2 ^ 32) ∧ ¬ InMenu k'))

/-! ## The run over the lines -/

theorem bootEntries_concat (lines : List HekateLine) (line : HekateLine) :
    bootEntries (lines ++ [line]) =
      bootEntries lines + if line = .header true then 1 else 0 := by
  unfold bootEntries
  rw [List.count_append, List.count_singleton]
  simp only [beq_iff_eq]

theorem inBootEntry_concat (lines : List HekateLine) (line : HekateLine) :
    inBootEntry (lines ++ [line]) =
      if line.isHeader then line == .header true else inBootEntry lines := by
  unfold inBootEntry
  rw [List.filter_append]
  split_ifs with hheader
  · rw [List.filter_cons_of_pos hheader, List.filter_nil, List.getLast?_concat]
    rfl
  · rw [List.filter_cons_of_neg hheader, List.filter_nil, List.append_nil]

theorem idEntries_concat (lines : List HekateLine) (line : HekateLine) :
    idEntries (lines ++ [line]) = idEntries lines ++
      if line = .field true ∧ inBootEntry lines = true then [bootEntries lines] else [] := by
  have hbefore : ∀ i ∈ List.range lines.length, (lines ++ [line])[i]? = lines[i]? ∧
      (lines ++ [line]).take i = lines.take i := by
    intro i hi
    have hlt := List.mem_range.mp hi
    exact ⟨List.getElem?_append_left hlt, List.take_append_of_le_length hlt.le⟩
  unfold idEntries
  rw [List.length_append, List.length_singleton, List.range_succ, List.filter_append,
    List.map_append]
  congr 1
  · have hfilter : (List.range lines.length).filter (fun i =>
        (lines ++ [line])[i]? == some (.field true) && inBootEntry ((lines ++ [line]).take i)) =
        (List.range lines.length).filter fun i =>
          lines[i]? == some (.field true) && inBootEntry (lines.take i) := by
      refine List.filter_congr fun i hi => ?_
      rw [(hbefore i hi).1, (hbefore i hi).2]
    rw [hfilter]
    refine List.map_congr_left fun i hi => ?_
    rw [(hbefore i (List.mem_of_mem_filter hi)).2]
  · have hlast : (lines ++ [line])[lines.length]? = some line := by simp
    have htake : (lines ++ [line]).take lines.length = lines := by simp
    split_ifs with h
    · rw [List.filter_cons_of_pos (by simp [h]), List.filter_nil, List.map_singleton,
        htake]
    · rw [List.filter_cons_of_neg (by simpa [hlast, htake] using h), List.filter_nil, List.map_nil]

/-- What the loop knows behind some lines. -/
structure HekateInv (lines : List HekateLine) (s : HekateState) : Prop where
  index : s.index = UInt32.ofNat (bootEntries lines)
  inBoot : s.inBootEntry = inBootEntry lines
  current : s.inBootEntry = true → s.currentIndex = s.index
  found : s.foundIndex = (idEntries lines).head?.map UInt32.ofNat
  once : (idEntries lines).length ≤ 1

theorem hekateInv_initial : HekateInv [] .initial where
  index := rfl
  inBoot := rfl
  current h := absurd h Bool.false_ne_true
  found := rfl
  once := Nat.zero_le 1

/-- A line: the loop goes on, or it is the second with the id. -/
theorem hekateInv_step {lines : List HekateLine} {s : HekateState} (inv : HekateInv lines s)
    (line : HekateLine) :
    (∃ s', s.step line = some s' ∧ HekateInv (lines ++ [line]) s') ∨
      (s.step line = none ∧ 2 ≤ (idEntries (lines ++ [line])).length) := by
  obtain ⟨hindex, hboot, hcurrent, hfound, honce⟩ := inv
  cases line with
  | skipped =>
    have hentries : idEntries (lines ++ [.skipped]) = idEntries lines := by
      simp [idEntries_concat]
    refine .inl ⟨s, rfl, ?_, ?_, hcurrent, by rw [hentries, hfound], by rw [hentries]; exact honce⟩
    · simpa [bootEntries_concat] using hindex
    · simpa [inBootEntry_concat, HekateLine.isHeader] using hboot
  | header boot =>
    have hentries : idEntries (lines ++ [.header boot]) = idEntries lines := by
      simp [idEntries_concat]
    left
    cases boot with
    | true =>
      refine ⟨_, rfl, ?_, ?_, fun _ => rfl, by rw [hentries]; exact hfound,
        by rw [hentries]; exact honce⟩
      · rw [bootEntries_concat, if_pos rfl, UInt32.ofNat_add, ← hindex]
        rfl
      · simp [inBootEntry_concat, HekateLine.isHeader]
    | false =>
      refine ⟨_, rfl, ?_, ?_, fun h => absurd h Bool.false_ne_true, by rw [hentries]; exact hfound,
        by rw [hentries]; exact honce⟩
      · simpa [bootEntries_concat] using hindex
      · simp [inBootEntry_concat, HekateLine.isHeader]
  | field id =>
    have hindex' : s.index = UInt32.ofNat (bootEntries (lines ++ [.field id])) := by
      simpa [bootEntries_concat] using hindex
    have hboot' : s.inBootEntry = inBootEntry (lines ++ [.field id]) := by
      simpa [inBootEntry_concat, HekateLine.isHeader] using hboot
    by_cases hhit : id = true ∧ inBootEntry lines = true
    · obtain ⟨rfl, hin⟩ := hhit
      have hentries : idEntries (lines ++ [.field true]) = idEntries lines ++ [bootEntries lines] := by
        simp [idEntries_concat, hin]
      have hstep : s.step (.field true) = match s.foundIndex with
          | some _ => none
          | none => some { s with foundIndex := some s.currentIndex } := by
        simp [HekateState.step, hboot, hin]
      rw [hstep]
      cases hfirst : idEntries lines with
      | nil =>
        -- the first line with the id
        have hnone : s.foundIndex = none := by rw [hfound, hfirst]; rfl
        rw [hfirst, List.nil_append] at hentries
        left
        refine ⟨{ s with foundIndex := some s.currentIndex }, by rw [hnone], hindex', hboot',
          hcurrent, ?_, by rw [hentries]; exact Nat.le_refl 1⟩
        rw [hentries, hcurrent (hboot.trans hin), hindex]
        rfl
      | cons first rest =>
        have hsome : s.foundIndex = some (UInt32.ofNat first) := by rw [hfound, hfirst]; rfl
        right
        refine ⟨by rw [hsome], ?_⟩
        rw [hentries, hfirst, List.length_append, List.length_cons, List.length_singleton]
        omega
    · have hentries : idEntries (lines ++ [.field id]) = idEntries lines := by
        rw [idEntries_concat, if_neg (by simpa using hhit), List.append_nil]
      have hstep : s.step (.field id) = some s := by
        have hother : (!s.inBootEntry || !id) = true := by
          rw [hboot]
          cases id with
          | false => exact Bool.or_true _
          | true => simpa using hhit
        unfold HekateState.step
        dsimp only
        rw [if_pos hother]
      exact .inl ⟨s, hstep, hindex', hboot', hcurrent, by rw [hentries, hfound],
        by rw [hentries]; exact honce⟩

theorem hekateInv_run (lines : List HekateLine) :
    (∃ s, HekateState.run lines = some s ∧ HekateInv lines s) ∨
      (HekateState.run lines = none ∧ 2 ≤ (idEntries lines).length) := by
  induction lines using List.reverseRecOn with
  | nil => exact .inl ⟨_, rfl, hekateInv_initial⟩
  | append_singleton lines line ih =>
    unfold HekateState.run at ih ⊢
    rw [List.foldlM_append]
    rcases ih with ⟨s, hrun, inv⟩ | ⟨hrun, htwo⟩
    · rw [hrun]
      rcases hekateInv_step inv line with ⟨s', hstep, inv⟩ | ⟨hstep, htwo⟩
      · exact .inl ⟨s', by simp [hstep], inv⟩
      · exact .inr ⟨by simp [hstep], htwo⟩
    · rw [hrun]
      refine .inr ⟨rfl, htwo.trans ?_⟩
      rw [idEntries_concat, List.length_append]
      exact Nat.le_add_right _ _

/-- What the loop answers for entries. -/
def readResult : List Nat → HekateConfigResult
  | [] => .notFound
  | [k] => if InMenu (k % 2 ^ 32) then .ok (UInt32.ofNat k) else .indexOutOfRange
  | _ :: _ :: _ => .duplicateId

theorem hekateFindMainConfigId_eq {content wantedId : List UInt8} (hwanted : wantedId ≠ []) :
    hekateFindMainConfigId (some content) wantedId =
      readResult (pieceEntries wantedId content) := by
  unfold hekateFindMainConfigId pieceEntries
  rw [if_neg hwanted]
  dsimp only
  rcases hekateInv_run ((fgetsPieces [] content).map (pieceLine wantedId)) with
    ⟨s, hrun, inv⟩ | ⟨hrun, htwo⟩
  · rw [hrun]
    dsimp only
    have hfound := inv.found
    have honce := inv.once
    rcases hentries : idEntries ((fgetsPieces [] content).map (pieceLine wantedId)) with
      _ | ⟨k, _ | ⟨k', rest⟩⟩
    · rw [hentries] at hfound
      rw [hfound]
      rfl
    · rw [hentries] at hfound
      rw [hfound]
      simp only [List.head?_cons, Option.map_some, readResult]
      have hmod : (UInt32.ofNat k).toNat = k % 2 ^ 32 := UInt32.toNat_ofNat'
      have hzero : UInt32.ofNat k = 0 ↔ k % 2 ^ 32 = 0 := by
        rw [← UInt32.toNat_inj, hmod]
        rfl
      by_cases hmenu : InMenu (k % 2 ^ 32)
      · rw [if_pos hmenu, if_neg]
        rw [hzero, hmod]
        have h := hmenu
        unfold InMenu at h
        omega
      · rw [if_neg hmenu, if_pos]
        rw [hzero, hmod]
        unfold InMenu at hmenu
        omega
    · rw [hentries] at honce
      exact absurd honce (by simp)
  · rw [hrun]
    rcases hentries : idEntries ((fgetsPieces [] content).map (pieceLine wantedId)) with
      _ | ⟨k, _ | ⟨k', rest⟩⟩
    · rw [hentries] at htwo
      exact absurd htwo (by simp)
    · rw [hentries] at htwo
      exact absurd htwo (by simp)
    · rfl

/-! ## The law -/

theorem entryResult_singleton (k : Nat) :
    entryResult [k] ≠ .notFound ∧ entryResult [k] ≠ .duplicateId := by
  unfold entryResult
  dsimp only
  split_ifs <;> simp

theorem readResult_singleton (k : Nat) :
    readResult [k] ≠ .notFound ∧ readResult [k] ≠ .duplicateId := by
  unfold readResult
  dsimp only
  split_ifs <;> simp

theorem findsEntry_iff (entries : List Nat) (result : HekateConfigResult) :
    FindsEntry entries result ↔ result = entryResult entries := by
  refine ⟨FindsEntry.lines, ?_⟩
  rintro rfl
  refine ⟨?_, ?_, rfl⟩
  · intro k
    rcases entries with _ | ⟨first, _ | ⟨second, rest⟩⟩
    · simp [entryResult]
    · unfold entryResult
      dsimp only
      by_cases hmenu : InMenu first
      · have hsmall : first % 2 ^ 32 = first := by
          have h := hmenu
          unfold InMenu HEKATE_RTC_INDEX_MAX at h
          omega
        rw [if_pos hmenu]
        simp only [HekateConfigResult.ok.injEq, exists_eq_left', UInt32.toNat_ofNat', hsmall,
          List.cons.injEq, and_true]
        constructor
        · rintro rfl
          exact ⟨rfl, hmenu⟩
        · exact fun h => h.1
      · rw [if_neg hmenu]
        simp only [reduceCtorEq, false_and, exists_false, List.cons.injEq, and_true, false_iff,
          not_and]
        rintro rfl
        exact hmenu
    · simp [entryResult]
  · rcases entries with _ | ⟨first, _ | ⟨second, rest⟩⟩
    · simp [entryResult]
    · simp [entryResult_singleton]
    · simp [entryResult]

theorem readResult_singleton_iff (k k' : Nat) :
    readResult [k] = entryResult [k'] ↔
      k % 2 ^ 32 = k' ∨ (¬ InMenu (k % 2 ^ 32) ∧ ¬ InMenu k') := by
  unfold readResult entryResult
  dsimp only
  by_cases hread : InMenu (k % 2 ^ 32)
  · rw [if_pos hread]
    by_cases hline : InMenu k'
    · have hsmall : k' % 2 ^ 32 = k' := by
        have h := hline
        unfold InMenu HEKATE_RTC_INDEX_MAX at h
        omega
      rw [if_pos hline, HekateConfigResult.ok.injEq, ← UInt32.toNat_inj, UInt32.toNat_ofNat',
        UInt32.toNat_ofNat', hsmall]
      exact ⟨.inl, fun h => h.resolve_right fun h => h.2 hline⟩
    · rw [if_neg hline]
      refine iff_of_false (by simp) ?_
      rintro (rfl | h)
      · exact hline hread
      · exact h.1 hread
  · rw [if_neg hread]
    by_cases hline : InMenu k'
    · rw [if_pos hline]
      refine iff_of_false (by simp) ?_
      rintro (rfl | h)
      · exact hread hline
      · exact h.2 hline
    · rw [if_neg hline]
      exact iff_of_true rfl (.inr ⟨hread, hline⟩)

theorem readResult_eq_iff (read lines : List Nat) :
    readResult read = entryResult lines ↔ SameEntries read lines := by
  unfold SameEntries
  rcases read with _ | ⟨k, _ | ⟨second, read⟩⟩ <;> rcases lines with _ | ⟨k', _ | ⟨second', lines⟩⟩
  case cons.nil.cons.nil => simpa using readResult_singleton_iff k k'
  case nil.cons.nil => simpa [readResult] using (entryResult_singleton k').1.symm
  case cons.nil.nil => simpa [entryResult] using (readResult_singleton k).1
  case cons.nil.cons.cons => simpa [entryResult] using (readResult_singleton k).2
  case cons.cons.cons.nil => simpa [readResult] using (entryResult_singleton k').2.symm
  all_goals simp [readResult, entryResult]

/-- The entry is found exactly when the pieces of the file have the entries of its lines. -/
theorem hekate_entry_found_iff (content wantedId : List UInt8) (hwanted : wantedId ≠ []) :
    FindsEntry (lineEntries wantedId content) (hekateFindMainConfigId (some content) wantedId) ↔
      SameEntries (pieceEntries wantedId content) (lineEntries wantedId content) := by
  rw [findsEntry_iff, hekateFindMainConfigId_eq hwanted, readResult_eq_iff]

/-! ## Files that fit the buffer -/

theorem ne_nil_of_mem_fileLines {content line : List UInt8} (h : line ∈ fileLines content) :
    line ≠ [] := by
  induction content generalizing line with
  | nil => exact absurd h List.not_mem_nil
  | cons b rest ih =>
    unfold fileLines at h
    split_ifs at h with hfeed
    · rcases List.mem_cons.mp h with rfl | h
      · exact List.cons_ne_nil _ _
      · exact ih h
    · cases hrest : fileLines rest with
      | nil =>
        rw [hrest] at h
        obtain rfl := List.mem_singleton.mp h
        exact List.cons_ne_nil _ _
      | cons first lines =>
        rw [hrest] at h
        rcases List.mem_cons.mp h with rfl | h
        · exact List.cons_ne_nil _ _
        · exact ih (by rw [hrest]; exact List.mem_cons_of_mem _ h)

/-- Lines that fit are handed over whole. -/
theorem fgetsPieces_short {content read : List UInt8}
    (hfits : ∀ line ∈ fileLines content, line.length < HEKATE_LINE_MAX)
    (hfirst : ∀ line ∈ (fileLines content).head?, read.length + line.length < HEKATE_LINE_MAX) :
    fgetsPieces read content =
      match fileLines content with
      | [] => if read = [] then [] else [read]
      | line :: lines => (read ++ line) :: lines := by
  induction content generalizing read with
  | nil => rfl
  | cons b rest ih =>
    by_cases hfeed : b = 0x0A
    · have hlines : fileLines (b :: rest) = [b] :: fileLines rest := by
        rw [fileLines, if_pos hfeed]
      rw [hlines] at hfits
      have hrest : fgetsPieces [] rest = fileLines rest := by
        rw [ih (fun line h => hfits line (List.mem_cons_of_mem _ h)) ?_]
        · cases fileLines rest <;> rfl
        · intro line h
          have hmem := List.mem_of_mem_head? h
          simpa using hfits line (List.mem_cons_of_mem _ hmem)
      rw [hlines, fgetsPieces, if_pos (.inl hfeed), hrest]
    · cases hrest : fileLines rest with
      | nil =>
        have hnil : rest = [] := by
          cases rest with
          | nil => rfl
          | cons c rest =>
            unfold fileLines at hrest
            split_ifs at hrest
            split at hrest <;> exact absurd hrest (List.cons_ne_nil _ _)
        subst hnil
        rw [fileLines, if_neg hfeed, hrest, fgetsPieces]
        split_ifs <;> simp [fgetsPieces]
      | cons first lines =>
        have hlines : fileLines (b :: rest) = (b :: first) :: lines := by
          rw [fileLines, if_neg hfeed, hrest]
        rw [hlines] at hfits hfirst
        have hlength : read.length + (b :: first).length < HEKATE_LINE_MAX := hfirst _ rfl
        have hnonempty : first ≠ [] := by
          refine @ne_nil_of_mem_fileLines rest first ?_
          rw [hrest]
          exact List.mem_cons_self
        have hpos := List.length_pos_iff.mpr hnonempty
        rw [List.length_cons] at hlength
        have hroom : ¬ (b = 0x0A ∨ read.length + 2 = HEKATE_LINE_MAX) := by
          rintro (h | h)
          · exact hfeed h
          · omega
        have hfirstFits := hfits _ List.mem_cons_self
        rw [List.length_cons] at hfirstFits
        rw [hlines, fgetsPieces, if_neg hroom, ih, hrest]
        · simp
        · intro line h
          rw [hrest] at h
          rcases List.mem_cons.mp h with rfl | h
          · omega
          · exact hfits line (List.mem_cons_of_mem _ h)
        · intro line h
          rw [hrest] at h
          obtain rfl := Option.some.inj h
          rw [List.length_append, List.length_singleton]
          omega

/-- A file without NUL bytes whose lines have at most 510 bytes before the line feed, and with fewer
    than `2 ^ 32` boot entries. -/
theorem sameEntries_of_short {content wantedId : List UInt8}
    (hfits : ∀ line ∈ fileLines content, line.length < HEKATE_LINE_MAX ∧ 0 ∉ line)
    (hindex : ∀ k ∈ lineEntries wantedId content, k < 2 ^ 32) :
    SameEntries (pieceEntries wantedId content) (lineEntries wantedId content) := by
  have hpieces : fgetsPieces [] content = fileLines content := by
    rw [fgetsPieces_short (fun line h => (hfits line h).1) ?_]
    · cases fileLines content <;> rfl
    · intro line h
      simpa using (hfits line (List.mem_of_mem_head? h)).1
  have hsame : pieceEntries wantedId content = lineEntries wantedId content := by
    unfold pieceEntries lineEntries
    rw [hpieces]
    congr 1
    refine List.map_congr_left fun line hline => ?_
    have hwhole : line.takeWhile (fun b => b ≠ 0) = line := by
      rw [List.takeWhile_eq_self_iff]
      intro b hb
      simpa using fun h : b = 0 => (hfits line hline).2 (h ▸ hb)
    rw [pieceLine, hwhole]
  rw [hsame]
  unfold SameEntries
  rcases hentries : lineEntries wantedId content with _ | ⟨k, _ | ⟨second, rest⟩⟩
  · exact .inl ⟨rfl, rfl⟩
  · refine .inr (.inr ⟨k, k, rfl, rfl, .inl (Nat.mod_eq_of_lt (hindex k ?_))⟩)
    rw [hentries]
    exact List.mem_cons_self
  · exact .inr (.inl ⟨by simp, by simp⟩)

namespace HekateConfig

/-- The second of two sections has the id; the first is the configuration. -/
def menu : List UInt8 := ascii "[config]\nid=emu\n[System]\n id = emu\n"

/-- A comment whose end, behind the first 511 bytes, reads like a line with the id. -/
def longComment : List UInt8 :=
  ascii "[System]\n" ++ 0x23 :: List.replicate 510 0x78 ++ ascii "id=emu\n"

end HekateConfig

theorem hekate_entry_found_menu :
    FindsEntry (lineEntries (ascii "emu") HekateConfig.menu)
      (hekateFindMainConfigId (some HekateConfig.menu) (ascii "emu")) :=
  (hekate_entry_found_iff HekateConfig.menu (ascii "emu") (by decide)).mpr
    (.inr (.inr ⟨1, 1, by decide, by decide, .inl rfl⟩))

theorem tail_of_comment_found :
    ¬ FindsEntry (lineEntries (ascii "emu") HekateConfig.longComment)
      (hekateFindMainConfigId (some HekateConfig.longComment) (ascii "emu")) := by
  intro h
  have hresult : hekateFindMainConfigId (some HekateConfig.longComment) (ascii "emu") = .ok 1 := by
    decide +kernel
  have hnone : lineEntries (ascii "emu") HekateConfig.longComment = [] := by
    decide +kernel
  have hlines := h.lines
  rw [hresult, hnone] at hlines
  exact absurd hlines (by decide)

end SysAgent
