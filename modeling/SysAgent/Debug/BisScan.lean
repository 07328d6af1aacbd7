import SysAgent.Lib.Haystack

set_option autoImplicit false

/-! # The scan of a partition (`gameBisScanCommand` in `system_commands.c`)

The partition is read in chunks, and the last bytes of the buffer are kept in front of the next
chunk. The range is inside the partition: no sum of the loop reaches the end of 64 bits. -/

namespace SysAgent

open Scan Haystack

def ScanChunkSize : Nat := 0x40000

/-- The number of matches from which on the scan stops. -/
def bisScanLimit : Nat := 64

/-- A command that is accepted. -/
structure BisScanRequest where
  offset : Nat
  size : Nat
  pattern : List UInt8
  size_pos : 0 < size
  size_le : size ≤ 0x20000000
  pattern_ne : pattern ≠ []
  pattern_le : pattern.length ≤ 0x20

/-- How the line ends. -/
inductive BisScanEnd
  | complete
  | truncated
  | readFailed
  deriving DecidableEq

namespace BisScanRequest

variable (request : BisScanRequest)

def overlap : Nat := request.pattern.length - 1

def finish : Nat := request.offset + request.size

theorem overlap_lt : request.overlap < 0x20 := by
  have hpos := List.length_pos_iff.mpr request.pattern_ne
  have hle := request.pattern_le
  unfold overlap
  omega

theorem length_pattern : request.pattern.length = request.overlap + 1 := by
  have hpos := List.length_pos_iff.mpr request.pattern_ne
  unfold overlap
  omega

end BisScanRequest

/-! ## The loop -/

/-- The loop over the hits of the buffer. -/
def bufferHits (pattern buffer : List UInt8) (pos : Nat) : List Nat :=
  match _hfirst : firstIndex (buffer.drop pos) pattern with
  | none => []
  | some i => (pos + i) :: bufferHits pattern buffer (pos + i + 1)
termination_by buffer.length - pos
decreasing_by
  have h := firstIndex_lt _hfirst
  rw [List.length_drop] at h
  omega

/-- The bytes that are copied to the front of the buffer. -/
def carriedBytes (request : BisScanRequest) (want : Nat) (buffer : List UInt8) : List UInt8 :=
  if want = ScanChunkSize ∧ 0 < request.overlap then
    (buffer.drop (ScanChunkSize - request.overlap)).take request.overlap
  else []

/-- The loop of `gameBisScanCommand` from `cur` on: the addresses that are printed. -/
def bisScan (read : Nat → Nat → Option (List UInt8)) (request : BisScanRequest) (cur : Nat)
    (carried : List UInt8) (found : List Nat) : List Nat × BisScanEnd :=
  if _ : cur < request.finish then
    let want := min (request.finish - cur) ScanChunkSize
    match read cur want with
    | none => (found, .readFailed)
    | some data =>
      let buffer := carried ++ data
      let found := found ++ (bufferHits request.pattern buffer 0).map (cur + ·)
      if bisScanLimit ≤ found.length then (found, .truncated)
      else bisScan read request (cur + want) (carriedBytes request want buffer) found
  else (found, .complete)
termination_by request.finish - cur
decreasing_by
  unfold ScanChunkSize
  omega

def gameBisScanCommand (read : Nat → Nat → Option (List UInt8)) (request : BisScanRequest) :
    List Nat × BisScanEnd :=
  bisScan read request request.offset [] []

/-! ## What is to be printed -/

/-- All places of the pattern, or a part of at least 64 from the first on with the mark. -/
structure BisScanLaw (places : List Nat) (printed : List Nat × BisScanEnd) : Prop where
  complete : places.length < bisScanLimit → printed = (places, .complete)
  truncated : bisScanLimit ≤ places.length →
    ∃ n, bisScanLimit ≤ n ∧ n ≤ places.length ∧ printed = (places.take n, .truncated)

variable (request : BisScanRequest) (content : Nat → UInt8)

/-- The places of the pattern in the range. -/
def bisPlaces : List Nat := all content request.pattern request.offset request.finish

/-- The places in the first chunk. -/
def firstPlaces : List Nat :=
  all content request.pattern request.offset
    (request.offset + min request.size ScanChunkSize)

def chunkStart (chunk : Nat) : Nat := request.offset + chunk * ScanChunkSize

theorem chunkStart_one : chunkStart request 1 = request.offset + ScanChunkSize := by
  rw [chunkStart, Nat.one_mul]

theorem chunkStart_succ (chunk : Nat) :
    chunkStart request (chunk + 1) = chunkStart request chunk + ScanChunkSize := by
  rw [chunkStart, chunkStart, Nat.succ_mul, Nat.add_assoc]

theorem chunkStart_mono {before chunk : Nat} (h : before ≤ chunk) :
    chunkStart request before ≤ chunkStart request chunk :=
  Nat.add_le_add_left (Nat.mul_le_mul_right ScanChunkSize h) _

/-- What a later chunk has in front of it: behind the second it is not what comes before it. -/
def frontBytes (chunk : Nat) : List UInt8 :=
  let back := if chunk = 1 then request.overlap else 2 * request.overlap
  window content (chunkStart request chunk - back) request.overlap

def laterBuffer (chunk : Nat) : List UInt8 :=
  frontBytes request content chunk ++ window content (chunkStart request chunk)
    (min (request.finish - chunkStart request chunk) ScanChunkSize)

/-- Nothing is found behind the first chunk, and nothing is there. -/
structure QuietBehind : Prop where
  places : ∀ addr ∈ bisPlaces request content,
    addr + request.pattern.length ≤ request.offset + ScanChunkSize
  buffers : ∀ chunk, 1 ≤ chunk → chunkStart request chunk < request.finish →
    firstIndex (laterBuffer request content chunk) request.pattern = none

/-- One byte to look for, enough places in the first chunk, or nothing behind it. -/
def BisScanFinds : Prop :=
  request.pattern.length = 1 ∨ bisScanLimit ≤ (firstPlaces request content).length ∨
    QuietBehind request content

/-- The first hit behind the first chunk is in front of its chunk, by chance at the address of a
    place. -/
def StaleHit : Prop :=
  ∃ chunk i, 2 ≤ chunk ∧ i < request.overlap ∧
    firstIndex (laterBuffer request content chunk) request.pattern = some i ∧
      chunkStart request chunk + i ∈ bisPlaces request content

/-! ## Hits of a buffer -/

theorem window_getD (buffer : List UInt8) :
    window (fun i => buffer.getD i 0) 0 buffer.length = buffer := by
  refine List.ext_getElem (by simp) fun i h h' => ?_
  simp [List.getD_eq_getElem?_getD, h']

section Hits

variable {pattern : List UInt8} {content : Nat → UInt8}

theorem bufferHits_eq (hne : pattern ≠ []) (buffer : List UInt8) {pos : Nat}
    (hpos : pos ≤ buffer.length) :
    bufferHits pattern buffer pos = all (fun i => buffer.getD i 0) pattern pos buffer.length := by
  induction hleft : buffer.length - pos using Nat.strong_induction_on generalizing pos with
  | _ left ih =>
    have hdrop : buffer.drop pos =
        window (fun i => buffer.getD i 0) pos (buffer.length - pos) := by
      conv_lhs => rw [← window_getD buffer, drop_window, Nat.zero_add]
    have hend : buffer.length = pos + (buffer.length - pos) := by omega
    unfold bufferHits
    split
    · next hnone =>
      rw [hdrop] at hnone
      conv_rhs => rw [hend]
      exact (all_eq_nil hne hnone).symm
    · next i hfirst =>
      have hi := firstIndex_lt hfirst
      rw [List.length_drop] at hi
      rw [hdrop] at hfirst
      rw [ih (buffer.length - (pos + i + 1)) (by omega) (by omega) rfl]
      conv_rhs => rw [hend, all_eq_cons hne hfirst, ← hend]

theorem bufferHits_none {buffer : List UInt8} (h : firstIndex buffer pattern = none) :
    bufferHits pattern buffer 0 = [] := by
  unfold bufferHits
  split
  · rfl
  · next i hfirst =>
    rw [List.drop_zero, h] at hfirst
    cases hfirst

/-- A buffer that is a part of the partition. -/
theorem bufferHits_window (hne : pattern ≠ []) (cur want : Nat) :
    (bufferHits pattern (window content cur want) 0).map (cur + ·) =
      all content pattern cur (cur + want) := by
  have hsame : ∀ i, i + pattern.length ≤ want →
      window (fun j => (window content cur want).getD j 0) i pattern.length =
        window content (cur + i) pattern.length := by
    intro i hi
    refine List.ext_getElem (by simp) fun j h h' => ?_
    have hj : j < pattern.length := by simpa using h
    have hlt : i + j < (window content cur want).length := by
      rw [length_window]
      omega
    simp only [getElem_window, List.getD_eq_getElem?_getD, List.getElem?_eq_getElem hlt,
      Option.getD_some, Nat.add_assoc]
  rw [bufferHits_eq hne _ (Nat.zero_le _), length_window]
  refine eq_of_mem_iff ?_ (all_sorted _ _) fun addr => ?_
  · exact List.pairwise_map.mpr ((all_sorted _ _).imp fun h => Nat.add_lt_add_left h cur)
  · rw [List.mem_map, mem_all]
    constructor
    · rintro ⟨i, hi, rfl⟩
      obtain ⟨-, hfits, hmatch⟩ := mem_all.mp hi
      rw [hsame i hfits] at hmatch
      exact ⟨Nat.le_add_right cur i, by omega, hmatch⟩
    · rintro ⟨hlo, hhi, hmatch⟩
      refine ⟨addr - cur, mem_all.mpr ⟨Nat.zero_le _, by omega, ?_⟩, by omega⟩
      rw [hsame _ (by omega), Nat.add_sub_cancel' hlo, hmatch]

variable (content) in
/-- The places before some address are the first of all. -/
theorem all_prefix (hne : pattern ≠ []) (lo : Nat) {mid hi : Nat} (hmid : mid ≤ hi) :
    all content pattern lo mid =
      (all content pattern lo hi).take (all content pattern lo mid).length := by
  have hpos := List.length_pos_iff.mpr hne
  have hsplit : all content pattern lo hi = all content pattern lo mid ++
      all content pattern (max lo (mid + 1 - pattern.length)) hi := by
    refine eq_of_mem_iff (all_sorted _ _) ?_ fun addr => ?_
    · refine List.pairwise_append.mpr ⟨all_sorted _ _, all_sorted _ _, ?_⟩
      intro x hx y hy
      have hx := mem_all.mp hx
      have hy := mem_all.mp hy
      omega
    · rw [List.mem_append, mem_all, mem_all, mem_all]
      constructor
      · rintro ⟨hlo, hhi, hmatch⟩
        rcases Nat.le_total (addr + pattern.length) mid with h | h
        · exact .inl ⟨hlo, h, hmatch⟩
        · by_cases hle : addr + pattern.length ≤ mid
          · exact .inl ⟨hlo, hle, hmatch⟩
          · exact .inr ⟨by omega, hhi, hmatch⟩
      · rintro (⟨hlo, hhi, hmatch⟩ | ⟨hlo, hhi, hmatch⟩)
        · exact ⟨hlo, by omega, hmatch⟩
        · exact ⟨by omega, hhi, hmatch⟩
  rw [hsplit, List.take_left]

end Hits

/-! ## The chunks -/

section Chunks

variable {request : BisScanRequest} {content : Nat → UInt8}
variable {read : Nat → Nat → Option (List UInt8)}

theorem bisScan_end {cur : Nat} (h : request.finish ≤ cur) (carried : List UInt8)
    (found : List Nat) : bisScan read request cur carried found = (found, .complete) := by
  rw [bisScan, dif_neg (Nat.not_lt.mpr h)]

/-- The end of the first chunk is carried over. -/
theorem carriedBytes_first (cur : Nat) :
    carriedBytes request ScanChunkSize (window content cur ScanChunkSize) =
      window content (cur + ScanChunkSize - request.overlap) request.overlap := by
  have hoverlap := request.overlap_lt
  unfold carriedBytes
  split_ifs with h
  · rw [drop_window, take_window, Nat.min_eq_left (by unfold ScanChunkSize; omega)]
    congr 1
    unfold ScanChunkSize
    omega
  · have hzero : request.overlap = 0 := Nat.eq_zero_of_not_pos fun hpos => h ⟨rfl, hpos⟩
    rw [hzero, window_zero]

/-- Of a buffer with carried bytes the copy starts too early by their number. -/
theorem carriedBytes_later (start cur : Nat) :
    carriedBytes request ScanChunkSize
        (window content start request.overlap ++ window content cur ScanChunkSize) =
      window content (cur + ScanChunkSize - 2 * request.overlap) request.overlap := by
  have hoverlap := request.overlap_lt
  unfold carriedBytes
  split_ifs with h
  · rw [List.drop_append,
      List.drop_eq_nil_of_le (by rw [length_window]; unfold ScanChunkSize; omega),
      List.nil_append, length_window, drop_window, take_window,
      Nat.min_eq_left (by unfold ScanChunkSize; omega)]
    congr 1
    unfold ScanChunkSize
    omega
  · have hzero : request.overlap = 0 := Nat.eq_zero_of_not_pos fun hpos => h ⟨rfl, hpos⟩
    rw [hzero, window_zero]

theorem law_complete {places : List Nat} (h : places.length < bisScanLimit) :
    BisScanLaw places (places, .complete) :=
  ⟨fun _ => rfl, fun hmany => absurd h (Nat.not_lt.mpr hmany)⟩

theorem law_truncated {mid : Nat} (hmid : mid ≤ request.finish)
    (hmany : bisScanLimit ≤ (all content request.pattern request.offset mid).length) :
    BisScanLaw (bisPlaces request content)
      (all content request.pattern request.offset mid, .truncated) := by
  have hprefix := all_prefix content request.pattern_ne request.offset hmid
  have hle : (all content request.pattern request.offset mid).length ≤
      (bisPlaces request content).length := by
    have h := congrArg List.length hprefix
    rw [List.length_take] at h
    unfold bisPlaces
    omega
  refine ⟨fun hfew => absurd hmany (by omega), fun _ => ⟨_, hmany, hle, ?_⟩⟩
  exact congrArg (·, BisScanEnd.truncated) hprefix

variable (hread : ∀ cur want, read cur want = some (window content cur want))
include hread

/-- One byte: nothing is carried over. -/
theorem bisScan_one (hone : request.pattern.length = 1) {cur : Nat} (hlo : request.offset ≤ cur)
    (hhi : cur ≤ request.finish)
    (hfew : (all content request.pattern request.offset cur).length < bisScanLimit) :
    BisScanLaw (bisPlaces request content)
      (bisScan read request cur [] (all content request.pattern request.offset cur)) := by
  induction hleft : request.finish - cur using Nat.strong_induction_on generalizing cur with
  | _ left ih =>
    rcases Nat.lt_or_ge cur request.finish with hlt | hge
    · have hpositive : 0 < ScanChunkSize := by decide
      rw [bisScan, dif_pos hlt]
      simp only [hread, List.nil_append, bufferHits_window request.pattern_ne]
      have hsplit : all content request.pattern request.offset cur ++
          all content request.pattern cur (cur + min (request.finish - cur) ScanChunkSize) =
          all content request.pattern request.offset
            (cur + min (request.finish - cur) ScanChunkSize) := by
        refine eq_of_mem_iff ?_ (all_sorted _ _) fun addr => ?_
        · refine List.pairwise_append.mpr ⟨all_sorted _ _, all_sorted _ _, ?_⟩
          intro x hx y hy
          have hx := mem_all.mp hx
          have hy := mem_all.mp hy
          omega
        · rw [List.mem_append, mem_all, mem_all, mem_all, hone]
          constructor
          · rintro (⟨hlo', hhi', hmatch⟩ | ⟨hlo', hhi', hmatch⟩)
            · exact ⟨hlo', by omega, hmatch⟩
            · exact ⟨by omega, hhi', hmatch⟩
          · rintro ⟨hlo', hhi', hmatch⟩
            rcases Nat.lt_or_ge addr cur with h | h
            · exact .inl ⟨hlo', h, hmatch⟩
            · exact .inr ⟨h, hhi', hmatch⟩
      rw [hsplit]
      have hnone : ∀ buffer, carriedBytes request
          (min (request.finish - cur) ScanChunkSize) buffer = [] := by
        intro buffer
        have hoverlap : request.overlap = 0 := by
          rw [BisScanRequest.overlap, hone]
        unfold carriedBytes
        rw [if_neg]
        omega
      split_ifs with hmany
      · exact law_truncated (by omega) hmany
      · rw [hnone]
        exact ih _ (by omega) (by omega) (by omega) (Nat.lt_of_not_le hmany) rfl
    · rw [bisScan_end hge]
      obtain rfl : cur = request.finish := Nat.le_antisymm hhi hge
      exact law_complete hfew

/-- A whole chunk in which nothing is found. -/
theorem bisScan_next {chunk : Nat} (hchunk : 1 ≤ chunk)
    (hfull : chunkStart request (chunk + 1) ≤ request.finish)
    (hnone : firstIndex (laterBuffer request content chunk) request.pattern = none)
    {found : List Nat} (hfew : found.length < bisScanLimit) :
    bisScan read request (chunkStart request chunk) (frontBytes request content chunk) found =
      bisScan read request (chunkStart request (chunk + 1))
        (frontBytes request content (chunk + 1)) found := by
  have hpositive : 0 < ScanChunkSize := by decide
  have hnext := (chunkStart_succ request chunk).symm
  have hwant : min (request.finish - chunkStart request chunk) ScanChunkSize = ScanChunkSize :=
    Nat.min_eq_right (by omega)
  have hfront : frontBytes request content (chunk + 1) = window content
      (chunkStart request chunk + ScanChunkSize - 2 * request.overlap) request.overlap := by
    unfold frontBytes
    rw [if_neg (by omega), hnext]
  have hhits := bufferHits_none hnone
  unfold laterBuffer at hhits
  rw [bisScan, dif_pos (by omega)]
  simp only [hread]
  rw [hhits, List.map_nil, List.append_nil, if_neg (Nat.not_le.mpr hfew), hwant, hfront, ← hnext]
  unfold frontBytes
  rw [carriedBytes_later]

/-- Buffers in which nothing is found print nothing. -/
theorem bisScan_quiet (hquiet : ∀ chunk, 1 ≤ chunk → chunkStart request chunk < request.finish →
      firstIndex (laterBuffer request content chunk) request.pattern = none)
    {chunk : Nat} (hchunk : 1 ≤ chunk) {found : List Nat} (hfew : found.length < bisScanLimit) :
    bisScan read request (chunkStart request chunk) (frontBytes request content chunk) found =
      (found, .complete) := by
  induction hleft : request.finish - chunkStart request chunk
    using Nat.strong_induction_on generalizing chunk with
  | _ left ih =>
    have hnext := (chunkStart_succ request chunk).symm
    have hpositive : 0 < ScanChunkSize := by decide
    rcases Nat.lt_or_ge (chunkStart request chunk) request.finish with hlt | hge
    · have hnone := hquiet chunk hchunk hlt
      rcases Nat.lt_or_ge request.finish (chunkStart request (chunk + 1)) with hshort | hfull
      · have hhits := bufferHits_none hnone
        unfold laterBuffer at hhits
        rw [bisScan, dif_pos hlt]
        simp only [hread]
        rw [hhits, List.map_nil, List.append_nil, if_neg (Nat.not_le.mpr hfew)]
        exact bisScan_end (by omega) _ _
      · rw [bisScan_next hread hchunk hfull hnone hfew]
        exact ih _ (by omega) (by omega) rfl
    · exact bisScan_end hge _ _

/-- What the first chunk does. -/
theorem bisScan_first (hfew : (firstPlaces request content).length < bisScanLimit) :
    gameBisScanCommand read request =
      if request.size ≤ ScanChunkSize then (firstPlaces request content, .complete)
      else
        bisScan read request (chunkStart request 1) (frontBytes request content 1)
          (firstPlaces request content) := by
  have hstart := chunkStart_one request
  have hfront : frontBytes request content 1 =
      window content (request.offset + ScanChunkSize - request.overlap) request.overlap := by
    rw [frontBytes, if_pos rfl, hstart]
  rw [hstart, hfront]
  have hlt : request.offset < request.finish := Nat.lt_add_of_pos_right request.size_pos
  have hleft : request.finish - request.offset = request.size := Nat.add_sub_cancel_left _ _
  unfold firstPlaces at hfew ⊢
  rw [gameBisScanCommand, bisScan, dif_pos hlt]
  simp only [hread, List.nil_append, bufferHits_window request.pattern_ne, hleft]
  rw [if_neg (Nat.not_le.mpr hfew)]
  split_ifs with hsmall
  · rw [Nat.min_eq_left hsmall]
    exact bisScan_end (Nat.le_refl _) _ _
  · rw [Nat.min_eq_right (Nat.le_of_not_le hsmall), carriedBytes_first]

end Chunks

/-! ## The law -/

section Law

variable {request : BisScanRequest} {content : Nat → UInt8}
variable {read : Nat → Nat → Option (List UInt8)}
variable (hread : ∀ cur want, read cur want = some (window content cur want))
include hread

theorem law_of_finds (hfinds : BisScanFinds request content) :
    BisScanLaw (bisPlaces request content) (gameBisScanCommand read request) := by
  have hlt : request.offset < request.finish := Nat.lt_add_of_pos_right request.size_pos
  by_cases hone : request.pattern.length = 1
  · have hnone : all content request.pattern request.offset request.offset = [] := by
      refine List.eq_nil_iff_forall_not_mem.mpr fun addr haddr => ?_
      have h := mem_all.mp haddr
      omega
    have hlaw := @bisScan_one request content read hread hone request.offset (Nat.le_refl _) hlt.le
    rw [hnone] at hlaw
    exact hlaw (by decide)
  by_cases hmany : bisScanLimit ≤ (firstPlaces request content).length
  · have hleft : request.finish - request.offset = request.size := Nat.add_sub_cancel_left _ _
    rw [gameBisScanCommand, bisScan, dif_pos hlt]
    simp only [hread, List.nil_append, bufferHits_window request.pattern_ne, hleft]
    unfold firstPlaces at hmany
    rw [if_pos hmany]
    refine law_truncated ?_ hmany
    exact Nat.add_le_add_left (Nat.min_le_left _ _) _
  · have hquiet := (hfinds.resolve_left hone).resolve_left hmany
    have hfew := Nat.lt_of_not_le hmany
    have hplaces : bisPlaces request content = firstPlaces request content := by
      refine eq_of_mem_iff (all_sorted _ _) (all_sorted _ _) fun addr => ?_
      have hfinish : request.finish = request.offset + request.size := rfl
      constructor
      · intro haddr
        have hbehind := hquiet.places addr haddr
        obtain ⟨hlo, hhi, hmatch⟩ := mem_all.mp haddr
        exact mem_all.mpr ⟨hlo, by omega, hmatch⟩
      · intro haddr
        obtain ⟨hlo, hhi, hmatch⟩ := mem_all.mp haddr
        exact mem_all.mpr ⟨hlo, by omega, hmatch⟩
    rw [hplaces, bisScan_first hread hfew]
    split_ifs with hsmall
    · exact law_complete hfew
    · rw [bisScan_quiet hread hquiet.buffers (Nat.le_refl 1) hfew]
      exact law_complete hfew

/-- What has been printed stays. -/
theorem bisScan_prefix (cur : Nat) (carried : List UInt8) (found : List Nat) :
    ∃ rest ending, bisScan read request cur carried found = (found ++ rest, ending) := by
  induction hleft : request.finish - cur using Nat.strong_induction_on
    generalizing cur carried found with
  | _ left ih =>
    rcases Nat.lt_or_ge cur request.finish with hlt | hge
    · have hpositive : 0 < ScanChunkSize := by decide
      rw [bisScan, dif_pos hlt]
      simp only [hread]
      split_ifs
      · exact ⟨_, _, rfl⟩
      · obtain ⟨rest, ending, hrest⟩ := ih
          (request.finish - (cur + min (request.finish - cur) ScanChunkSize)) (by omega) _ _ _ rfl
        rw [hrest]
        exact ⟨_, ending, by rw [List.append_assoc]⟩
    · exact ⟨[], .complete, by rw [bisScan_end hge, List.append_nil]⟩

/-- A chunk with a hit prints it first. -/
theorem bisScan_hit {chunk i : Nat} (hlt : chunkStart request chunk < request.finish)
    (hfirst : firstIndex (laterBuffer request content chunk) request.pattern = some i)
    (found : List Nat) :
    ∃ rest ending, bisScan read request (chunkStart request chunk)
      (frontBytes request content chunk) found =
        (found ++ (chunkStart request chunk + i) :: rest, ending) := by
  have hhits : ∃ rest, bufferHits request.pattern (laterBuffer request content chunk) 0 =
      i :: rest := by
    unfold bufferHits
    split
    · next hnone =>
      rw [List.drop_zero, hfirst] at hnone
      cases hnone
    · next j hj =>
      rw [List.drop_zero, hfirst] at hj
      obtain rfl := Option.some.inj hj
      rw [Nat.zero_add]
      exact ⟨_, rfl⟩
  obtain ⟨hits, hhits⟩ := hhits
  unfold laterBuffer at hhits
  rw [bisScan, dif_pos hlt]
  simp only [hread, hhits, List.map_cons]
  split_ifs
  · exact ⟨_, _, rfl⟩
  · obtain ⟨rest, ending, hrest⟩ := bisScan_prefix hread _ _ _
    rw [hrest, List.append_assoc, List.cons_append]
    exact ⟨_, ending, rfl⟩

/-- The chunks before the first one with a hit. -/
theorem bisScan_skip {chunk : Nat} (hchunk : 1 ≤ chunk)
    (hle : chunkStart request chunk ≤ request.finish)
    (hnone : ∀ before, 1 ≤ before → before < chunk →
      firstIndex (laterBuffer request content before) request.pattern = none)
    {found : List Nat} (hfew : found.length < bisScanLimit) :
    bisScan read request (chunkStart request 1) (frontBytes request content 1) found =
      bisScan read request (chunkStart request chunk) (frontBytes request content chunk) found := by
  induction chunk, hchunk using Nat.le_induction with
  | base => rfl
  | succ chunk hchunk ih =>
    have hbefore := chunkStart_mono request (Nat.le_succ chunk)
    rw [ih (hbefore.trans hle) fun before h hlt => hnone before h (Nat.lt_succ_of_lt hlt)]
    exact bisScan_next hread hchunk hle (hnone chunk hchunk (Nat.lt_succ_self chunk)) hfew

omit hread in
/-- A hit that is not one of stale bytes is a place, below the address that is printed. -/
theorem place_of_hit {chunk i : Nat} (hchunk : 1 ≤ chunk)
    (hlt : chunkStart request chunk < request.finish)
    (hfirst : firstIndex (laterBuffer request content chunk) request.pattern = some i)
    (hreal : chunk = 1 ∨ request.overlap ≤ i) :
    chunkStart request chunk + i - request.overlap ∈ bisPlaces request content := by
  obtain ⟨hfits, hmatch⟩ := firstIndex_spec hfirst
  have hlength := request.length_pattern
  have hoverlap := request.overlap_lt
  have hstart : request.offset + ScanChunkSize ≤ chunkStart request chunk :=
    chunkStart_one request ▸ chunkStart_mono request hchunk
  have hsize : 0x20 < ScanChunkSize := by decide
  rw [laterBuffer, List.length_append, length_window, frontBytes, length_window] at hfits
  refine mem_all.mpr ⟨by omega, by omega, ?_⟩
  rw [laterBuffer, frontBytes] at hmatch
  have hbefore : request.overlap ≤ chunkStart request chunk := by omega
  by_cases hone : chunk = 1
  · -- the second chunk has the right bytes in front of it
    rw [if_pos hone] at hmatch
    obtain ⟨start, hback⟩ := Nat.exists_eq_add_of_le' hbefore
    rw [hback, Nat.add_sub_cancel] at hmatch
    rw [hback] at hfits
    rw [window_append, drop_window, take_window, Nat.min_eq_left (by omega)] at hmatch
    have haddr : chunkStart request chunk + i - request.overlap = start + i := by omega
    rw [haddr]
    exact hmatch
  · have hi := hreal.resolve_left hone
    rw [List.drop_append, List.drop_eq_nil_of_le (by rw [length_window]; exact hi), List.nil_append,
      length_window, drop_window, take_window, Nat.min_eq_left (by omega)] at hmatch
    rw [Nat.add_sub_assoc hi]
    exact hmatch

/-- The buffers of the chunks up to the first hit behind the first chunk, which is at `i`. -/
structure FirstHit (request : BisScanRequest) (content : Nat → UInt8) (chunk i : Nat) : Prop where
  later : 1 ≤ chunk
  inside : chunkStart request chunk < request.finish
  hit : firstIndex (laterBuffer request content chunk) request.pattern = some i
  quiet : ∀ before, 1 ≤ before → before < chunk →
    firstIndex (laterBuffer request content before) request.pattern = none

omit hread in
/-- A hit in a buffer behind the first chunk: there is a first one. -/
theorem exists_firstHit {chunk : Nat} (hchunk : 1 ≤ chunk)
    (hlt : chunkStart request chunk < request.finish)
    (hhit : firstIndex (laterBuffer request content chunk) request.pattern ≠ none) :
    ∃ chunk i, FirstHit request content chunk i := by
  induction chunk using Nat.strong_induction_on with
  | _ chunk ih =>
    by_cases hearlier : ∃ before, 1 ≤ before ∧ before < chunk ∧
        firstIndex (laterBuffer request content before) request.pattern ≠ none
    · obtain ⟨before, hbefore, hless, hsome⟩ := hearlier
      exact ih before hless hbefore ((chunkStart_mono request hless.le).trans_lt hlt) hsome
    · push Not at hearlier
      obtain ⟨i, hi⟩ := Option.ne_none_iff_exists'.mp hhit
      exact ⟨chunk, i, hchunk, hlt, hi, hearlier⟩

/-- The first hit is printed behind the places of the first chunk. -/
theorem printed_firstHit {chunk i : Nat} (hfirst : FirstHit request content chunk i)
    (hsmall : ¬ request.size ≤ ScanChunkSize)
    (hfew : (firstPlaces request content).length < bisScanLimit) :
    ∃ rest ending, gameBisScanCommand read request =
      (firstPlaces request content ++ (chunkStart request chunk + i) :: rest, ending) := by
  obtain ⟨rest, ending, hprinted⟩ :=
    bisScan_hit hread hfirst.inside hfirst.hit (firstPlaces request content)
  refine ⟨rest, ending, ?_⟩
  rw [bisScan_first hread hfew, if_neg hsmall,
    bisScan_skip hread hfirst.later hfirst.inside.le hfirst.quiet hfew, hprinted]

omit hread in
/-- The place of a hit that is no stale one comes before the address that is printed for it: behind
    the places of the first chunk it is missing. -/
theorem not_places_of_hit {chunk i : Nat} (hfirst : FirstHit request content chunk i)
    (hlong : request.pattern.length ≠ 1) (hreal : chunk = 1 ∨ request.overlap ≤ i)
    (others : List Nat) :
    firstPlaces request content ++ (chunkStart request chunk + i) :: others ≠
      bisPlaces request content := by
  intro hothers
  have hbelow := place_of_hit hfirst.later hfirst.inside hfirst.hit hreal
  have hsorted : (bisPlaces request content).Pairwise (· < ·) := all_sorted _ _
  have hlength := request.length_pattern
  have hpositive : 0 < request.overlap := by omega
  have hbehind : request.offset + ScanChunkSize ≤ chunkStart request chunk :=
    chunkStart_one request ▸ chunkStart_mono request hfirst.later
  have hsize : 0x20 < ScanChunkSize := by decide
  have hoverlap := request.overlap_lt
  rw [← hothers] at hbelow hsorted
  rcases List.mem_append.mp hbelow with hmem | hmem
  · have h := (mem_all.mp hmem).2.1
    omega
  · obtain ⟨-, hsorted, -⟩ := List.pairwise_append.mp hsorted
    rcases List.mem_cons.mp hmem with h | h
    · omega
    · have h := (List.pairwise_cons.mp hsorted).1 _ h
      omega

omit hread in
/-- What is printed is the first of all places. -/
theorem prefix_of_law {places printed : List Nat} {ending : BisScanEnd}
    (hlaw : BisScanLaw places (printed, ending)) : printed <+: places := by
  rcases Nat.lt_or_ge places.length bisScanLimit with h | h
  · have hwhole : printed = places := congrArg Prod.fst (hlaw.complete h)
    rw [hwhole]
  · obtain ⟨n, -, -, hn⟩ := hlaw.truncated h
    have hpart : printed = places.take n := congrArg Prod.fst hn
    rw [hpart]
    exact List.take_prefix n places

omit hread in
/-- A scan that ends as complete has printed all places. -/
theorem places_of_complete {places printed : List Nat}
    (hlaw : BisScanLaw places (printed, .complete)) : printed = places := by
  rcases Nat.lt_or_ge places.length bisScanLimit with h | h
  · exact congrArg Prod.fst (hlaw.complete h)
  · obtain ⟨n, -, -, hn⟩ := hlaw.truncated h
    exact absurd (congrArg Prod.snd hn) (by simp)

theorem finds_of_law
    (hlaw : BisScanLaw (bisPlaces request content) (gameBisScanCommand read request)) :
    BisScanFinds request content ∨ StaleHit request content := by
  by_cases hone : request.pattern.length = 1
  · exact .inl (.inl hone)
  by_cases hmany : bisScanLimit ≤ (firstPlaces request content).length
  · exact .inl (.inr (.inl hmany))
  have hfew := Nat.lt_of_not_le hmany
  have hlength := request.length_pattern
  have hfinish : request.finish = request.offset + request.size := rfl
  by_cases hsmall : request.size ≤ ScanChunkSize
  · -- there is no second chunk
    refine .inl (.inr (.inr ⟨fun addr haddr => ?_, fun chunk hchunk hlt => ?_⟩))
    · have h := (mem_all.mp haddr).2.1
      omega
    · have hmono := chunkStart_mono request hchunk
      have hstart := chunkStart_one request
      omega
  by_cases hall : ∀ chunk, 1 ≤ chunk → chunkStart request chunk < request.finish →
      firstIndex (laterBuffer request content chunk) request.pattern = none
  · -- only the first chunk prints
    rw [bisScan_first hread hfew, if_neg hsmall,
      bisScan_quiet hread hall (Nat.le_refl 1) hfew] at hlaw
    have hplaces := places_of_complete hlaw
    refine .inl (.inr (.inr ⟨fun addr haddr => ?_, hall⟩))
    rw [← hplaces] at haddr
    have h := (mem_all.mp haddr).2.1
    omega
  · push Not at hall
    obtain ⟨hitChunk, hchunk, hlt, hhit⟩ := hall
    obtain ⟨chunk, i, hfirst⟩ := exists_firstHit hchunk hlt hhit
    obtain ⟨rest, ending, hprinted⟩ := printed_firstHit hread hfirst hsmall hfew
    rw [hprinted] at hlaw
    obtain ⟨others, hothers⟩ := prefix_of_law hlaw
    rw [List.append_assoc, List.cons_append] at hothers
    have hplace : chunkStart request chunk + i ∈ bisPlaces request content := by
      rw [← hothers]
      simp
    by_cases hreal : chunk = 1 ∨ request.overlap ≤ i
    · exact absurd hothers (not_places_of_hit hfirst hone hreal _)
    · rw [not_or] at hreal
      exact .inr ⟨chunk, i, lt_of_le_of_ne hfirst.later (Ne.symm hreal.1),
        Nat.lt_of_not_le hreal.2, hfirst.hit, hplace⟩

end Law

/-- The scan prints every place in the cases of `BisScanFinds`, and in others only by the chance of
    a stale hit. -/
theorem bis_scan_finds (read : Nat → Nat → Option (List UInt8)) (request : BisScanRequest)
    (content : Nat → UInt8)
    (hread : ∀ cur want, read cur want = some (window content cur want)) :
    (BisScanFinds request content →
      BisScanLaw (bisPlaces request content) (gameBisScanCommand read request)) ∧
    (BisScanLaw (bisPlaces request content) (gameBisScanCommand read request) →
      BisScanFinds request content ∨ StaleHit request content) :=
  ⟨law_of_finds hread, finds_of_law hread⟩

namespace BisScan

/-- Two bytes that are set. -/
def twoBytes (addr : Nat) : Nat → UInt8 := fun a => if a = addr ∨ a = addr + 1 then 1 else 0

/-- A scan for two bytes from the start of the partition. -/
def pairRequest (size : Nat) (hpos : 0 < size) (hle : size ≤ 0x20000000) : BisScanRequest where
  offset := 0
  size := size
  pattern := [1, 1]
  size_pos := hpos
  size_le := hle
  pattern_ne := by decide
  pattern_le := by decide

def twoChunks : BisScanRequest := pairRequest 0x40010 (by decide) (by decide)

theorem all_twoBytes {addr lo hi : Nat} (hlo : lo ≤ addr) :
    all (twoBytes addr) [1, 1] lo hi = if addr + 2 ≤ hi then [addr] else [] := by
  have hmem : ∀ a, a ∈ all (twoBytes addr) [1, 1] lo hi ↔ a = addr ∧ addr + 2 ≤ hi := by
    intro a
    have hwindow : window (twoBytes addr) a 2 = [twoBytes addr a, twoBytes addr (a + 1)] := rfl
    have hmatch : window (twoBytes addr) a ([1, 1] : List UInt8).length = [1, 1] ↔ a = addr := by
      show window (twoBytes addr) a 2 = [1, 1] ↔ a = addr
      rw [hwindow, List.cons.injEq, List.cons.injEq]
      unfold twoBytes
      constructor
      · rintro ⟨hfirst, hsecond, -⟩
        split_ifs at hfirst hsecond with h h'
        · omega
        all_goals simp at hfirst hsecond
      · rintro rfl
        simp
    rw [mem_all, hmatch]
    constructor
    · rintro ⟨-, hhi, rfl⟩
      exact ⟨rfl, hhi⟩
    · rintro ⟨rfl, hhi⟩
      exact ⟨hlo, hhi, rfl⟩
  refine eq_of_mem_iff (all_sorted _ _) ?_ fun a => ?_
  · split_ifs
    · exact List.pairwise_singleton _ _
    · exact .nil
  · rw [hmem]
    split_ifs with h <;> simp [h]

end BisScan

open BisScan in
/-- Nothing is found in the second chunk and the byte in front of it. -/
theorem bis_scan_finds_two_chunks :
    bisPlaces twoChunks (twoBytes 3) = [3] ∧ chunkStart twoChunks 1 < twoChunks.finish ∧
      BisScanLaw (bisPlaces twoChunks (twoBytes 3))
        (gameBisScanCommand (fun cur want => some (window (twoBytes 3) cur want)) twoChunks) := by
  have hplaces : bisPlaces twoChunks (twoBytes 3) = [3] := all_twoBytes (Nat.zero_le _)
  refine ⟨hplaces, by decide,
    (bis_scan_finds _ twoChunks (twoBytes 3) fun _ _ => rfl).1 (.inr (.inr ⟨?_, ?_⟩))⟩
  · intro addr haddr
    rw [hplaces] at haddr
    obtain rfl := List.mem_singleton.mp haddr
    decide
  · intro chunk hchunk hlt
    have hlt : 0 + chunk * 0x40000 < 0 + 0x40010 := hlt
    obtain rfl : chunk = 1 := by omega
    decide +kernel

open BisScan in
/-- The address of a place in the second chunk is too high by the byte that is carried over. -/
theorem second_chunk_misplaced :
    ¬ BisScanLaw (bisPlaces twoChunks (twoBytes 0x40005))
      (gameBisScanCommand (fun cur want => some (window (twoBytes 0x40005) cur want))
        twoChunks) := by
  intro h
  have hplaces : bisPlaces twoChunks (twoBytes 0x40005) = [0x40005] :=
    all_twoBytes (Nat.zero_le _)
  have hfirst : firstPlaces twoChunks (twoBytes 0x40005) = [] := all_twoBytes (Nat.zero_le _)
  have hbuffer : bufferHits [1, 1] (window (twoBytes 0x40005) 0x3FFFF 1 ++
      window (twoBytes 0x40005) 0x40000 0x10) 0 = [6] := by
    decide +kernel
  have hsecond : bisScan (fun cur want => some (window (twoBytes 0x40005) cur want)) twoChunks
      (chunkStart twoChunks 1) (frontBytes twoChunks (twoBytes 0x40005) 1) [] =
        ([0x40006], .complete) := by
    have hstart : chunkStart twoChunks 1 = 0 + 0x40000 := rfl
    have hfront : frontBytes twoChunks (twoBytes 0x40005) 1 =
        window (twoBytes 0x40005) 0x3FFFF 1 := rfl
    rw [hstart, hfront, bisScan, dif_pos (by decide)]
    have hwant : min (twoChunks.finish - (0 + 0x40000)) ScanChunkSize = 0x10 := by decide
    simp only [hwant]
    have hpattern : twoChunks.pattern = [1, 1] := rfl
    rw [hpattern, hbuffer, if_neg (by decide)]
    exact bisScan_end (by decide) _ _
  have hprinted := h.complete (by rw [hplaces]; decide)
  rw [hplaces, bisScan_first (fun _ _ => rfl) (by rw [hfirst]; decide), hfirst,
    if_neg (by decide)] at hprinted
  have hwrong := hsecond.symm.trans hprinted
  exact absurd hwrong (by decide)

end SysAgent
