import SysAgent.Lib.Haystack

set_option autoImplicit false

/-! # The pattern scan of a process (`scanProcessMemoryForPattern` in `system_commands.c`)

The walk asks for the region of an address and goes on behind the answer; a readable region is read
in chunks, and each chunk is searched by itself. The process is attached to during the whole scan. -/

namespace SysAgent

open Scan Haystack

def PatternScanMaxMatches : Nat := 64
def PatternScanChunkSize : Nat := 0x10000

/-- `sizeof(match->before)` and `sizeof(match->after)`. -/
def patternBeforeMax : Nat := 0x20
def patternAfterMax : Nat := 0x200

structure PatternScanMatch where
  address : Nat
  before : List UInt8
  after : List UInt8

structure PatternScanRequest where
  pattern : List UInt8
  captureBefore : Nat
  captureAfter : Nat

/-- An answer of `svcQueryDebugProcessMemory`. -/
structure QueryAnswer where
  addr : UInt64
  size : UInt64
  type : UInt32
  perm : UInt32

/-- `MemType_Unmapped`, `MemType_Io`, `MemType_ThreadLocal` and `MemType_Reserved`. -/
def unreadableTypes : List UInt32 := [0x00, 0x01, 0x0C, 0x10]

namespace QueryAnswer

def readable (info : QueryAnswer) : Bool :=
  (info.type &&& 0xFF) ∉ unreadableTypes && info.perm != 0 && info.size != 0

/-- `info.addr + info.size`, with the carry that `u64` loses. -/
def stop (info : QueryAnswer) : Nat := info.addr.toNat + info.size.toNat

end QueryAnswer

/-- `svcReadDebugProcessMemory` of a number of bytes. -/
abbrev ReadMemory := Nat → Nat → Option (List UInt8)

variable (read : ReadMemory) (request : PatternScanRequest)

/-! ## The scan -/

/-- What is recorded of a hit, with `u64` sums. -/
def patternMatch (info : QueryAnswer) (offset : Nat) : PatternScanMatch :=
  let hitAddr := (info.addr.toNat + offset) % 2 ^ 64
  let afterAddr := (hitAddr + request.pattern.length) % 2 ^ 64
  let afterMax := info.stop % 2 ^ 64
  let afterWant := min (min request.captureAfter (afterMax - afterAddr)) patternAfterMax
  let beforeWant := min (min request.captureBefore (hitAddr - info.addr.toNat)) patternBeforeMax
  { address := hitAddr
    after := if afterAddr < afterMax then (read afterAddr afterWant).getD [] else []
    before :=
      if info.addr.toNat ≤ hitAddr ∧ 0 < beforeWant then
        (read (hitAddr - beforeWant) beforeWant).getD []
      else [] }

/-- The loop over the hits of a chunk at `offset` of its region. -/
def scanChunk (info : QueryAnswer) (offset : Nat) (chunk : List UInt8) (pos : Nat)
    (found : List PatternScanMatch) : List PatternScanMatch :=
  if found.length < PatternScanMaxMatches then
    match _hfirst : firstIndex (chunk.drop pos) request.pattern with
    | none => found
    | some i =>
      scanChunk info offset chunk (pos + i + 1)
        (found ++ [patternMatch read request info (offset + (pos + i))])
  else found
termination_by chunk.length - pos
decreasing_by
  have h := firstIndex_lt _hfirst
  rw [List.length_drop] at h
  omega

/-- The loop over the chunks of a region. -/
def scanRegion (info : QueryAnswer) (offset : Nat) (found : List PatternScanMatch) :
    List PatternScanMatch :=
  if _ : offset < info.size.toNat ∧ found.length < PatternScanMaxMatches then
    let want := min PatternScanChunkSize (info.size.toNat - offset)
    match read (info.addr.toNat + offset) want with
    | none => found
    | some chunk =>
      scanRegion info (offset + want) (scanChunk read request info offset chunk 0 found)
  else found
termination_by info.size.toNat - offset
decreasing_by
  unfold PatternScanChunkSize
  omega

/-- The walk before a query, or what it has returned with. -/
inductive Walk
  | running (addr : Nat) (found : List PatternScanMatch)
  | finished (found : List PatternScanMatch)

/-- The answers: the `n`-th query is for an address. -/
abbrev Queries := Nat → Nat → Option QueryAnswer

def walkStep (queries : Queries) (n : Nat) : Walk → Walk
  | .finished found => .finished found
  | .running addr found =>
    if found.length < PatternScanMaxMatches then
      match queries n addr with
      | none => .finished found
      | some info =>
        let found := if info.readable then scanRegion read request info 0 found else found
        if info.size = 0 then .finished found
        else
          let next := info.stop % 2 ^ 64
          if next ≤ info.addr.toNat then .finished found else .running next found
    else .finished found

/-- `scanProcessMemoryForPattern` after so many queries. -/
def scanProcessMemoryForPattern (queries : Queries) : Nat → Walk
  | 0 => .running 0 []
  | n + 1 => walkStep read request queries n (scanProcessMemoryForPattern queries n)

/-! ## What is to be found -/

variable (memory : Nat → UInt8)

/-- The regions of a process from an address on, one behind the other; memory that can be read ends
    before the last address. -/
def Contiguous : Nat → List QueryAnswer → Prop
  | _, [] => True
  | start, info :: regions =>
    info.addr.toNat = start ∧ info.size ≠ 0 ∧ info.stop ≤ 2 ^ 64 ∧
      (info.readable = true → info.stop < 2 ^ 64) ∧ Contiguous info.stop regions

/-- The region of an address. -/
def regionOf (regions : List QueryAnswer) (addr : Nat) : Option QueryAnswer :=
  regions.find? fun info => info.addr.toNat ≤ addr ∧ addr < info.stop

/-- The addresses at which the pattern lies inside one readable region, with their regions. -/
def patternPlaces (regions : List QueryAnswer) : List (QueryAnswer × Nat) :=
  (regions.filter QueryAnswer.readable).flatMap fun info =>
    (all memory request.pattern info.addr.toNat info.stop).map (info, ·)

/-- The bytes around a place, as far as its region goes. -/
def placeMatch (place : QueryAnswer × Nat) : PatternScanMatch :=
  let (info, addr) := place
  let behind := addr + request.pattern.length
  let before := min (min request.captureBefore (addr - info.addr.toNat)) patternBeforeMax
  { address := addr
    before := window memory (addr - before) before
    after := window memory behind
      (min (min request.captureAfter (info.stop - behind)) patternAfterMax) }

/-- The scan ends whatever is answered, and on the regions of a process it records the first
    places. -/
structure PatternScanLaw (queries : Queries) (regions : List QueryAnswer) : Prop where
  ends : ∃ n found, scanProcessMemoryForPattern read request queries n = .finished found
  records : Contiguous 0 regions → (∀ n addr, queries n addr = regionOf regions addr) →
    ∀ n found, scanProcessMemoryForPattern read request queries n = .finished found →
      found = ((patternPlaces request memory regions).take PatternScanMaxMatches).map
        (placeMatch request memory) ∧ (found.map PatternScanMatch.address).Pairwise (· < ·)

/-! ## What is found -/

/-- The place is inside one chunk of its region. -/
def InChunk (place : QueryAnswer × Nat) : Bool :=
  (place.2 - place.1.addr.toNat) / PatternScanChunkSize =
    (place.2 - place.1.addr.toNat + request.pattern.length - 1) / PatternScanChunkSize

/-- The address of a query, and its answer. -/
def askedFor (queries : Queries) : Nat → Nat
  | 0 => 0
  | n + 1 =>
    match queries n (askedFor queries n) with
    | none => 0
    | some info => info.stop % 2 ^ 64

def answered (queries : Queries) (n : Nat) : Option QueryAnswer :=
  queries n (askedFor queries n)

/-- The answer ends the walk: the query failed, or nothing is behind the region. -/
def LastAnswer (answer : Option QueryAnswer) : Prop :=
  ∀ info ∈ answer, info.size = 0 ∨ 2 ^ 64 ≤ info.stop

/-- What is found in the regions of the first answers. -/
def answeredPlaces (queries : Queries) (n : Nat) : List (QueryAnswer × Nat) :=
  (patternPlaces request memory ((List.range n).filterMap (answered queries))).filter
    (InChunk request)

/-- Some answer ends the walk, or the pattern is found often enough before it; and on the regions of
    a process no place across two chunks is among the first. -/
structure ScanFinds (queries : Queries) (regions : List QueryAnswer) : Prop where
  ends : ∃ n, LastAnswer (answered queries n) ∨
    PatternScanMaxMatches ≤ (answeredPlaces request memory queries n).length
  inChunks : Contiguous 0 regions → (∀ n addr, queries n addr = regionOf regions addr) →
    ∀ place ∈ (patternPlaces request memory regions).take PatternScanMaxMatches,
      InChunk request place = true

section Chunk

variable {read : ReadMemory} {request : PatternScanRequest} {memory : Nat → UInt8}
variable (hread : ∀ addr size, read addr size = some (window memory addr size))
variable (hpattern : request.pattern ≠ []) {info : QueryAnswer} (hstop : info.stop < 2 ^ 64)

include hread hstop in
theorem patternMatch_eq {offset : Nat}
    (hfits : info.addr.toNat + offset + request.pattern.length ≤ info.stop) :
    patternMatch read request info offset =
      placeMatch request memory (info, info.addr.toNat + offset) := by
  have hhit : (info.addr.toNat + offset) % 2 ^ 64 = info.addr.toNat + offset :=
    Nat.mod_eq_of_lt (by omega)
  have hafter : (info.addr.toNat + offset + request.pattern.length) % 2 ^ 64 =
      info.addr.toNat + offset + request.pattern.length := Nat.mod_eq_of_lt (by omega)
  have hmax : info.stop % 2 ^ 64 = info.stop := Nat.mod_eq_of_lt hstop
  unfold patternMatch placeMatch
  simp only [hhit, hafter, hmax, hread, Option.getD_some]
  congr 1
  · split_ifs with hbefore
    · rfl
    · have hzero : min (min request.captureBefore (info.addr.toNat + offset - info.addr.toNat))
          patternBeforeMax = 0 := by omega
      rw [hzero, window_zero]
  · split_ifs with hroom
    · rfl
    · have hzero : info.stop - (info.addr.toNat + offset + request.pattern.length) = 0 := by omega
      rw [hzero, Nat.min_zero, Nat.zero_min, window_zero]

include hread hpattern hstop in
/-- The hits of a chunk are its occurrences. -/
theorem scanChunk_eq {offset want pos : Nat} {found : List PatternScanMatch}
    (hwant : info.addr.toNat + offset + want ≤ info.stop) (hpos : pos ≤ want)
    (hfound : found.length ≤ PatternScanMaxMatches) :
    scanChunk read request info offset (window memory (info.addr.toNat + offset) want) pos found =
      (found ++ (all memory request.pattern (info.addr.toNat + offset + pos)
        (info.addr.toNat + offset + want)).map fun addr =>
          placeMatch request memory (info, addr)).take PatternScanMaxMatches := by
  induction hleft : want - pos using Nat.strong_induction_on generalizing pos found with
  | _ left ih =>
    have hend : info.addr.toNat + offset + want =
        info.addr.toNat + offset + pos + (want - pos) := by omega
    unfold scanChunk
    split_ifs with hroom
    · split
      · next hnone =>
        rw [drop_window] at hnone
        rw [hend, all_eq_nil hpattern hnone, List.map_nil, List.append_nil,
          List.take_of_length_le hfound]
      · next i hfirst =>
        rw [drop_window] at hfirst
        have hi := ((firstIndex_window hpattern i).mp hfirst).1
        have hpositive := List.length_pos_iff.mpr hpattern
        rw [ih (want - (pos + i + 1)) (by omega) (by omega)
          (by rw [List.length_append, List.length_singleton]; omega) rfl]
        conv_rhs => rw [hend, all_eq_cons hpattern hfirst, ← hend]
        rw [patternMatch_eq hread hstop (by omega), List.append_assoc, List.singleton_append,
          List.map_cons]
        have haddr : info.addr.toNat + (offset + (pos + i)) =
            info.addr.toNat + offset + pos + i := by omega
        have hnext : info.addr.toNat + offset + (pos + i + 1) =
            info.addr.toNat + offset + pos + i + 1 := by omega
        rw [haddr, hnext]
    · rw [take_append_of_full _ (Nat.le_of_not_lt hroom), List.take_of_length_le hfound]

include hpattern in
/-- The occurrences in chunks, from one chunk on. -/
theorem filter_inChunk {offset : Nat} (hoffset : PatternScanChunkSize ∣ offset)
    (hlt : offset < info.size.toNat) :
    (all memory request.pattern (info.addr.toNat + offset) info.stop).filter
        (fun addr => InChunk request (info, addr)) =
      all memory request.pattern (info.addr.toNat + offset) (info.addr.toNat + offset +
          min PatternScanChunkSize (info.size.toNat - offset)) ++
        (all memory request.pattern (info.addr.toNat + offset +
          min PatternScanChunkSize (info.size.toNat - offset)) info.stop).filter
            fun addr => InChunk request (info, addr) := by
  have hpositive := List.length_pos_iff.mpr hpattern
  have hstop : info.stop = info.addr.toNat + info.size.toNat := rfl
  obtain ⟨j, rfl⟩ := hoffset
  have hchunk : ∀ addr, InChunk request (info, addr) = true ↔
      (addr - info.addr.toNat) / PatternScanChunkSize =
        (addr - info.addr.toNat + request.pattern.length - 1) / PatternScanChunkSize := by
    intro addr
    simp [InChunk]
  refine eq_of_mem_iff ((all_sorted _ _).filter _) ?_ fun addr => ?_
  · refine List.pairwise_append.mpr ⟨all_sorted _ _, (all_sorted _ _).filter _, ?_⟩
    intro x hx y hy
    have hx := (mem_all.mp hx).2.1
    have hy := (mem_all.mp (List.mem_of_mem_filter hy)).1
    omega
  · rw [List.mem_filter, List.mem_append, List.mem_filter, mem_all, mem_all, mem_all, hchunk]
    unfold PatternScanChunkSize at *
    constructor
    · rintro ⟨⟨hlo, hhi, hmatch⟩, hin⟩
      rcases Nat.lt_or_ge addr (info.addr.toNat + 0x10000 * j +
          min 0x10000 (info.size.toNat - 0x10000 * j)) with hbefore | hbehind
      · refine .inl ⟨hlo, ?_, hmatch⟩
        omega
      · exact .inr ⟨⟨hbehind, hhi, hmatch⟩, hin⟩
    · rintro (⟨hlo, hhi, hmatch⟩ | ⟨⟨hlo, hhi, hmatch⟩, hin⟩)
      · exact ⟨⟨hlo, by omega, hmatch⟩, by omega⟩
      · exact ⟨⟨by omega, hhi, hmatch⟩, hin⟩

include hread hpattern hstop in
/-- A region: the occurrences that are inside a chunk. -/
theorem scanRegion_eq {offset : Nat} {found : List PatternScanMatch}
    (hoffset : PatternScanChunkSize ∣ offset ∨ info.size.toNat ≤ offset)
    (hfound : found.length ≤ PatternScanMaxMatches) :
    scanRegion read request info offset found =
      (found ++ ((all memory request.pattern (info.addr.toNat + offset) info.stop).filter
        fun addr => InChunk request (info, addr)).map fun addr =>
          placeMatch request memory (info, addr)).take PatternScanMaxMatches := by
  have hstop' : info.stop = info.addr.toNat + info.size.toNat := rfl
  induction hleft : info.size.toNat - offset using Nat.strong_induction_on
    generalizing offset found with
  | _ left ih =>
    unfold scanRegion
    split_ifs with hroom
    · obtain ⟨hlt, hlength⟩ := hroom
      have hdvd := hoffset.resolve_right (by omega)
      have hpositive : 0 < PatternScanChunkSize := by decide
      simp only [hread]
      rw [scanChunk_eq hread hpattern hstop (by omega) (Nat.zero_le _) hfound, ih _ ?_ ?_ ?_ rfl,
        take_append_take, filter_inChunk hpattern hdvd hlt, List.map_append, List.append_assoc]
      · simp only [Nat.add_zero, Nat.add_assoc]
      · omega
      · rcases Nat.le_total PatternScanChunkSize (info.size.toNat - offset) with hfull | hshort
        · rw [Nat.min_eq_left hfull]
          exact .inl (hdvd.add (Nat.dvd_refl _))
        · rw [Nat.min_eq_right hshort]
          right
          omega
      · rw [List.length_take]
        exact Nat.min_le_left _ _
    · rcases not_and_or.mp hroom with hend | hfull
      · have hnone : all memory request.pattern (info.addr.toNat + offset) info.stop = [] := by
          have hpositive := List.length_pos_iff.mpr hpattern
          refine List.eq_nil_iff_forall_not_mem.mpr fun addr haddr => ?_
          have h := mem_all.mp haddr
          omega
        rw [hnone, List.filter_nil, List.map_nil, List.append_nil, List.take_of_length_le hfound]
      · rw [take_append_of_full _ (Nat.le_of_not_lt hfull), List.take_of_length_le hfound]

end Chunk

/-! ## The walk -/

theorem patternPlaces_append (regions later : List QueryAnswer) :
    patternPlaces request memory (regions ++ later) =
      patternPlaces request memory regions ++ patternPlaces request memory later := by
  simp [patternPlaces]

/-- What is recorded of the regions that have been read. -/
def recorded (regions : List QueryAnswer) : List PatternScanMatch :=
  (((patternPlaces request memory regions).filter (InChunk request)).map
    (placeMatch request memory)).take PatternScanMaxMatches

section Walk

variable {read : ReadMemory} {request : PatternScanRequest} {memory : Nat → UInt8}
variable (hread : ∀ addr size, read addr size = some (window memory addr size))
variable (hpattern : request.pattern ≠ [])

variable (request memory) in
theorem recorded_of_full (regions later : List QueryAnswer)
    (hfull : PatternScanMaxMatches ≤ (recorded request memory regions).length) :
    recorded request memory (regions ++ later) = recorded request memory regions := by
  unfold recorded at hfull ⊢
  rw [List.length_take] at hfull
  rw [patternPlaces_append, List.filter_append, List.map_append, take_append_of_full]
  exact hfull.trans (Nat.min_le_right _ _)

include hread hpattern in
/-- The walk adds what is found in a region. -/
theorem recorded_concat {regions : List QueryAnswer} {info : QueryAnswer}
    (hstop : info.stop < 2 ^ 64) :
    (if info.readable then scanRegion read request info 0 (recorded request memory regions)
      else recorded request memory regions) = recorded request memory (regions ++ [info]) := by
  have hlength : (recorded request memory regions).length ≤ PatternScanMaxMatches := by
    unfold recorded
    rw [List.length_take]
    exact Nat.min_le_left _ _
  split_ifs with hreadable
  · rw [scanRegion_eq hread hpattern hstop (.inl (Nat.dvd_zero _)) hlength]
    unfold recorded
    rw [take_append_take, patternPlaces_append, List.filter_append, List.map_append]
    congr 2
    simp only [patternPlaces, List.filter_cons, hreadable, if_true, List.filter_nil,
      List.flatMap_cons, List.flatMap_nil, List.append_nil, List.filter_map, List.map_map]
    rfl
  · unfold recorded
    rw [patternPlaces_append]
    simp [patternPlaces, hreadable]

variable {queries : Queries}

/-- The regions that the first answers named. -/
def answeredRegions (queries : Queries) (n : Nat) : List QueryAnswer :=
  (List.range n).filterMap (answered queries)

theorem answeredRegions_succ (n : Nat) : answeredRegions queries (n + 1) =
    answeredRegions queries n ++ (answered queries n).toList := by
  unfold answeredRegions
  rw [List.range_succ, List.filterMap_append]
  cases h : answered queries n <;> simp [h]

variable (read request queries) in
/-- What an answer does to a walk that goes on. -/
theorem walkStep_cases (n addr : Nat) (found : List PatternScanMatch) :
    (PatternScanMaxMatches ≤ found.length ∧
        walkStep read request queries n (.running addr found) = .finished found) ∨
      (found.length < PatternScanMaxMatches ∧ queries n addr = none ∧
        walkStep read request queries n (.running addr found) = .finished found) ∨
      ∃ info, found.length < PatternScanMaxMatches ∧ queries n addr = some info ∧
        let found' := if info.readable then scanRegion read request info 0 found else found
        (info.size = 0 ∨ 2 ^ 64 ≤ info.stop) ∧
            walkStep read request queries n (.running addr found) = .finished found' ∨
          (info.size ≠ 0 ∧ info.stop < 2 ^ 64) ∧
            walkStep read request queries n (.running addr found) =
              .running info.stop found' := by
  rcases Nat.lt_or_ge found.length PatternScanMaxMatches with hroom | hfull
  · right
    unfold walkStep
    simp only [if_pos hroom]
    cases hquery : queries n addr with
    | none => exact .inl ⟨hroom, rfl, rfl⟩
    | some info =>
      refine .inr ⟨info, hroom, rfl, ?_⟩
      have haddr := info.addr.toNat_lt
      have hsize := info.size.toNat_lt
      have hzero : info.size = 0 ↔ info.size.toNat = 0 := by
        rw [← UInt64.toNat_inj]
        rfl
      have hstop : info.stop = info.addr.toNat + info.size.toNat := rfl
      by_cases hlast : info.size = 0
      · exact .inl ⟨.inl hlast, by simp [hlast]⟩
      · rcases Nat.lt_or_ge info.stop (2 ^ 64) with hlt | hge
        · right
          refine ⟨⟨hlast, hlt⟩, ?_⟩
          have hmod : info.stop % 2 ^ 64 = info.stop := Nat.mod_eq_of_lt hlt
          dsimp only
          rw [if_neg hlast, hmod, if_neg]
          rw [hzero] at hlast
          omega
        · left
          refine ⟨.inr hge, ?_⟩
          dsimp only
          rw [if_neg hlast, if_pos]
          omega
  · left
    refine ⟨hfull, ?_⟩
    unfold walkStep
    simp only [if_neg (Nat.not_lt.mpr hfull)]

include hread hpattern in
/-- A walk that goes on has recorded what the answers so far have in chunks. -/
theorem running_eq {n addr : Nat} {found : List PatternScanMatch}
    (h : scanProcessMemoryForPattern read request queries n = .running addr found) :
    addr = askedFor queries n ∧ found = recorded request memory (answeredRegions queries n) ∧
      ∀ i < n, ¬ LastAnswer (answered queries i) := by
  induction n generalizing addr found with
  | zero =>
    cases h
    exact ⟨rfl, rfl, fun i hi => absurd hi (Nat.not_lt_zero i)⟩
  | succ n ih =>
    rw [scanProcessMemoryForPattern] at h
    cases hbefore : scanProcessMemoryForPattern read request queries n with
    | finished found' =>
      rw [hbefore] at h
      cases h
    | running addr' found' =>
      obtain ⟨rfl, rfl, hgoes⟩ := ih hbefore
      rw [hbefore] at h
      rcases walkStep_cases read request queries n (askedFor queries n)
        (recorded request memory (answeredRegions queries n)) with
        ⟨-, hstep⟩ | ⟨-, -, hstep⟩ | ⟨info, -, hquery, ⟨-, hstep⟩ | ⟨⟨hsize, hstop⟩, hstep⟩⟩
      · rw [hstep] at h
        cases h
      · rw [hstep] at h
        cases h
      · rw [hstep] at h
        cases h
      · rw [hstep] at h
        cases h
        have hanswer : answered queries n = some info := hquery
        refine ⟨?_, ?_, ?_⟩
        · rw [askedFor, hquery]
          exact (Nat.mod_eq_of_lt hstop).symm
        · rw [recorded_concat hread hpattern hstop, answeredRegions_succ, hanswer]
          rfl
        · intro i hi
          rcases Nat.lt_succ_iff_lt_or_eq.mp hi with hi | rfl
          · exact hgoes i hi
          · intro hlast
            rcases hlast info hanswer with hzero | hwraps
            · exact hsize hzero
            · omega

theorem length_recorded (regions : List QueryAnswer) :
    (recorded request memory regions).length = min PatternScanMaxMatches
      ((patternPlaces request memory regions).filter (InChunk request)).length := by
  rw [recorded, List.length_take, List.length_map]

include hread hpattern in
theorem scan_ends_iff :
    (∃ n found, scanProcessMemoryForPattern read request queries n = .finished found) ↔
      ∃ n, LastAnswer (answered queries n) ∨
        PatternScanMaxMatches ≤ (answeredPlaces request memory queries n).length := by
  constructor
  · rintro ⟨n, found, hfinished⟩
    by_contra hnever
    -- no answer ends the walk, so it always goes on
    have hrunning : ∀ n, ∃ addr found,
        scanProcessMemoryForPattern read request queries n = .running addr found := by
      intro n
      induction n with
      | zero => exact ⟨0, [], rfl⟩
      | succ n ih =>
        obtain ⟨addr, found, hbefore⟩ := ih
        obtain ⟨rfl, rfl, -⟩ := running_eq hread hpattern hbefore
        have hlast : ¬ LastAnswer (answered queries n) := fun h => hnever ⟨n, .inl h⟩
        rw [scanProcessMemoryForPattern, hbefore]
        rcases walkStep_cases read request queries n (askedFor queries n)
          (recorded request memory (answeredRegions queries n)) with
          ⟨hfull, -⟩ | ⟨-, hquery, -⟩ | ⟨info, -, hquery, ⟨hend, -⟩ | ⟨-, hstep⟩⟩
        · rw [length_recorded] at hfull
          exact absurd ⟨n, .inr (hfull.trans (Nat.min_le_right _ _))⟩ hnever
        · refine absurd ?_ hlast
          intro info hinfo
          have hanswer : answered queries n = none := hquery
          rw [hanswer] at hinfo
          cases hinfo
        · refine absurd ?_ hlast
          intro other hother
          have hanswer : answered queries n = some info := hquery
          rw [hanswer] at hother
          obtain rfl := Option.some.inj hother
          exact hend
        · exact ⟨_, _, hstep⟩
    obtain ⟨addr, found', hgoes⟩ := hrunning n
    rw [hgoes] at hfinished
    cases hfinished
  · rintro ⟨n, hend⟩
    cases hbefore : scanProcessMemoryForPattern read request queries n with
    | finished found => exact ⟨n, found, hbefore⟩
    | running addr found =>
      obtain ⟨rfl, rfl, -⟩ := running_eq hread hpattern hbefore
      have hnext : ∃ found, walkStep read request queries n
          (.running (askedFor queries n) (recorded request memory (answeredRegions queries n))) =
            .finished found := by
        rcases walkStep_cases read request queries n (askedFor queries n)
          (recorded request memory (answeredRegions queries n)) with
          ⟨-, hstep⟩ | ⟨-, -, hstep⟩ | ⟨info, hroom, hquery, ⟨-, hstep⟩ | ⟨⟨hsize, hstop⟩, -⟩⟩
        · exact ⟨_, hstep⟩
        · exact ⟨_, hstep⟩
        · exact ⟨_, hstep⟩
        · rcases hend with hlast | hfull
          · rcases hlast info hquery with hzero | hwraps
            · exact absurd hzero hsize
            · exact absurd hwraps (Nat.not_le.mpr hstop)
          · rw [length_recorded] at hroom
            unfold answeredPlaces at hfull
            unfold answeredRegions at hroom
            omega
      obtain ⟨found, hstep⟩ := hnext
      exact ⟨n + 1, found, by rw [scanProcessMemoryForPattern, hbefore, hstep]⟩

end Walk

/-! ## The regions of a process -/

def endOf (start : Nat) : List QueryAnswer → Nat
  | [] => start
  | info :: regions => endOf info.stop regions

theorem endOf_concat (start : Nat) (regions : List QueryAnswer) (info : QueryAnswer) :
    endOf start (regions ++ [info]) = info.stop := by
  induction regions generalizing start with
  | nil => rfl
  | cons first regions ih => exact ih first.stop

section Regions

variable {start : Nat} {before rest : List QueryAnswer}

theorem Contiguous.behind (h : Contiguous start (before ++ rest)) :
    Contiguous (endOf start before) rest := by
  induction before generalizing start with
  | nil => exact h
  | cons info before ih => exact ih h.2.2.2.2

theorem Contiguous.stop_le (h : Contiguous start (before ++ rest)) :
    start ≤ endOf start before ∧ ∀ info ∈ before, info.stop ≤ endOf start before := by
  induction before generalizing start with
  | nil => exact ⟨Nat.le_refl _, fun info hinfo => absurd hinfo List.not_mem_nil⟩
  | cons first before ih =>
    obtain ⟨haddr, -, -, -, htail⟩ := h
    obtain ⟨hle, hall⟩ := ih htail
    have hstop : first.stop = first.addr.toNat + first.size.toNat := rfl
    refine ⟨?_, fun info hinfo => ?_⟩
    · show start ≤ endOf first.stop before
      omega
    · rcases List.mem_cons.mp hinfo with rfl | hinfo
      · exact hle
      · exact hall info hinfo

theorem size_pos {info : QueryAnswer} (h : info.size ≠ 0) : info.addr.toNat < info.stop := by
  have hne : info.size.toNat ≠ 0 := fun hzero => h (UInt64.toNat_inj.mp hzero)
  have hstop : info.stop = info.addr.toNat + info.size.toNat := rfl
  omega

/-- The region behind some others. -/
theorem regionOf_endOf (h : Contiguous start (before ++ rest)) :
    regionOf (before ++ rest) (endOf start before) = rest.head? := by
  have hnone : regionOf before (endOf start before) = none := by
    refine List.find?_eq_none.mpr fun info hinfo hin => ?_
    have hle := h.stop_le.2 info hinfo
    have hlt := (of_decide_eq_true hin).2
    omega
  unfold regionOf at hnone ⊢
  rw [List.find?_append, hnone, Option.none_or]
  cases rest with
  | nil => rfl
  | cons info rest =>
    obtain ⟨haddr, hsize, -⟩ := h.behind
    have hpos := size_pos hsize
    exact List.find?_cons_of_pos (decide_eq_true ⟨by omega, by omega⟩)

theorem patternPlaces_sorted {request : PatternScanRequest} (memory : Nat → UInt8)
    (hpattern : request.pattern ≠ []) {regions : List QueryAnswer} (h : Contiguous start regions) :
    (patternPlaces request memory regions).Pairwise (fun p q => p.2 < q.2) ∧
      ∀ p ∈ patternPlaces request memory regions, start ≤ p.2 := by
  have hpositive := List.length_pos_iff.mpr hpattern
  induction regions generalizing start with
  | nil => exact ⟨.nil, fun p hp => absurd hp List.not_mem_nil⟩
  | cons info regions ih =>
    obtain ⟨haddr, hsize, -, -, htail⟩ := h
    obtain ⟨hsorted, hall⟩ := ih htail
    have hpos := size_pos hsize
    by_cases hreadable : info.readable = true
    · have hsplit : patternPlaces request memory (info :: regions) =
          (all memory request.pattern info.addr.toNat info.stop).map (info, ·) ++
            patternPlaces request memory regions := by
        simp [patternPlaces, hreadable]
      rw [hsplit]
      constructor
      · refine List.pairwise_append.mpr ⟨List.pairwise_map.mpr (all_sorted _ _), hsorted, ?_⟩
        intro p hp q hq
        obtain ⟨addr, haddr, rfl⟩ := List.mem_map.mp hp
        have hfits := (mem_all.mp haddr).2.1
        have hbehind := hall q hq
        show addr < q.2
        omega
      · intro p hp
        rcases List.mem_append.mp hp with hp | hp
        · obtain ⟨addr, hmem, rfl⟩ := List.mem_map.mp hp
          have hlo := (mem_all.mp hmem).1
          show start ≤ addr
          omega
        · have hbehind := hall p hp
          omega
    · have hskip : patternPlaces request memory (info :: regions) =
          patternPlaces request memory regions := by
        simp [patternPlaces, hreadable]
      rw [hskip]
      refine ⟨hsorted, fun p hp => ?_⟩
      have hbehind := hall p hp
      omega

end Regions

section Map

variable {read : ReadMemory} {request : PatternScanRequest} {memory : Nat → UInt8}
variable {queries : Queries} {regions : List QueryAnswer}
variable (hmap : ∀ n addr, queries n addr = regionOf regions addr) (hregions : Contiguous 0 regions)
include hmap hregions

/-- The walk asks for the regions in their order. -/
theorem answered_map {n : Nat} (hgoes : ∀ i < n, ¬ LastAnswer (answered queries i)) :
    ∃ rest, regions = answeredRegions queries n ++ rest ∧
      askedFor queries n = endOf 0 (answeredRegions queries n) ∧
        answered queries n = rest.head? := by
  have hanswer : ∀ n before rest, regions = before ++ rest → askedFor queries n = endOf 0 before →
      answered queries n = rest.head? := by
    rintro n before rest rfl hasked
    rw [answered, hmap, hasked, regionOf_endOf hregions]
  induction n with
  | zero => exact ⟨regions, rfl, rfl, hanswer 0 [] regions rfl rfl⟩
  | succ n ih =>
    obtain ⟨rest, hsplit, hasked, hhead⟩ := ih fun i hi => hgoes i (Nat.lt_succ_of_lt hi)
    have hlast := hgoes n (Nat.lt_succ_self n)
    rw [hhead] at hlast
    cases rest with
    | nil => exact absurd (fun info hinfo => by cases hinfo) hlast
    | cons info rest =>
      have hstop : info.stop < 2 ^ 64 := by
        refine Nat.lt_of_not_le fun hwraps => hlast fun other hother => ?_
        obtain rfl := Option.some.inj hother
        exact .inr hwraps
      have hnext : answeredRegions queries (n + 1) = answeredRegions queries n ++ [info] := by
        rw [answeredRegions_succ, hhead]
        rfl
      have hsplit' : regions = answeredRegions queries (n + 1) ++ rest := by
        rw [hnext, List.append_assoc]
        exact hsplit
      have hasked' : askedFor queries (n + 1) = endOf 0 (answeredRegions queries (n + 1)) := by
        have hquery : queries n (askedFor queries n) = some info := hhead
        rw [askedFor, hquery, hnext, endOf_concat]
        exact Nat.mod_eq_of_lt hstop
      exact ⟨rest, hsplit', hasked', hanswer _ _ rest hsplit' hasked'⟩

/-- The matches that are returned are those of all regions. -/
theorem finished_eq (hread : ∀ addr size, read addr size = some (window memory addr size))
    (hpattern : request.pattern ≠ []) {n : Nat} {found : List PatternScanMatch}
    (h : scanProcessMemoryForPattern read request queries n = .finished found) :
    found = recorded request memory regions := by
  induction n with
  | zero => cases h
  | succ n ih =>
    rw [scanProcessMemoryForPattern] at h
    cases hbefore : scanProcessMemoryForPattern read request queries n with
    | finished found' =>
      rw [hbefore] at h
      cases h
      exact ih hbefore
    | running addr found' =>
      obtain ⟨rfl, rfl, hgoes⟩ := running_eq hread hpattern hbefore
      obtain ⟨rest, hsplit, -, hhead⟩ := answered_map hmap hregions hgoes
      rw [hbefore] at h
      have hfull := recorded_of_full request memory (answeredRegions queries n) rest
      rw [← hsplit] at hfull
      rcases walkStep_cases read request queries n (askedFor queries n)
        (recorded request memory (answeredRegions queries n)) with
        ⟨hlength, hstep⟩ | ⟨-, hquery, hstep⟩ |
          ⟨info, -, hquery, ⟨hend, hstep⟩ | ⟨-, hstep⟩⟩
      · rw [hstep] at h
        cases h
        exact (hfull hlength).symm
      · rw [hstep] at h
        cases h
        -- no region is left
        have hnone : rest.head? = none := hhead.symm.trans hquery
        rw [List.head?_eq_none_iff] at hnone
        rw [hnone, List.append_nil] at hsplit
        rw [← hsplit]
      · rw [hstep] at h
        cases h
        have hsome : rest.head? = some info := hhead.symm.trans hquery
        obtain ⟨behind, rfl⟩ := List.head?_eq_some_iff.mp hsome
        have hrest := (hsplit ▸ hregions : Contiguous 0 _).behind
        obtain ⟨-, hsize, hle, hreadable, hbehind⟩ := hrest
        have hstop : info.stop = 2 ^ 64 := Nat.le_antisymm hle (hend.resolve_left hsize)
        -- the last region ends with the addresses
        have hnil : behind = [] := by
          cases behind with
          | nil => rfl
          | cons other behind =>
            have haddr : other.addr.toNat = info.stop := hbehind.1
            have hlt := other.addr.toNat_lt
            omega
        have hnot : ¬ info.readable = true := fun h => by
          have := hreadable h
          omega
        subst hnil
        rw [if_neg hnot, hsplit]
        unfold recorded
        rw [patternPlaces_append]
        simp [patternPlaces, hnot]
      · rw [hstep] at h
        cases h

end Map

/-! ## The law -/

section Law

variable {read : ReadMemory} {request : PatternScanRequest} {memory : Nat → UInt8}
variable {regions : List QueryAnswer}

/-- The places in chunks are the first of all places exactly when the first places are in chunks. -/
theorem recorded_eq_iff (hpattern : request.pattern ≠ []) (hregions : Contiguous 0 regions) :
    recorded request memory regions =
        ((patternPlaces request memory regions).take PatternScanMaxMatches).map
          (placeMatch request memory) ↔
      ∀ place ∈ (patternPlaces request memory regions).take PatternScanMaxMatches,
        InChunk request place = true := by
  obtain ⟨hsorted, -⟩ := patternPlaces_sorted memory hpattern hregions
  unfold recorded
  rw [← List.map_take]
  constructor
  · intro hsame place hplace
    have haddresses := congrArg (List.map PatternScanMatch.address) hsame
    rw [List.map_map, List.map_map] at haddresses
    have hmem : place.2 ∈ ((patternPlaces request memory regions).take
        PatternScanMaxMatches).map (PatternScanMatch.address ∘ placeMatch request memory) :=
      List.mem_map.mpr ⟨place, hplace, rfl⟩
    rw [← haddresses] at hmem
    obtain ⟨other, hother, haddr⟩ := List.mem_map.mp hmem
    obtain ⟨hother, hin⟩ := List.mem_filter.mp (List.mem_of_mem_take hother)
    -- one place has the address
    have hnodup : ((patternPlaces request memory regions).map Prod.snd).Nodup :=
      List.pairwise_map.mpr (hsorted.imp Nat.ne_of_lt)
    obtain rfl := List.inj_on_of_nodup_map hnodup hother (List.mem_of_mem_take hplace) haddr
    exact hin
  · intro hall
    congr 1
    rcases Nat.le_total (patternPlaces request memory regions).length PatternScanMaxMatches with
      hshort | hlong
    · rw [List.take_of_length_le hshort] at hall
      rw [List.filter_eq_self.mpr hall]
    · have hsplit := List.take_append_drop PatternScanMaxMatches
        (patternPlaces request memory regions)
      conv_lhs => rw [← hsplit, List.filter_append, List.filter_eq_self.mpr hall]
      rw [take_append_of_full, List.take_take, Nat.min_self]
      rw [List.length_take]
      omega

/-- A scan that records the first places has them all in chunks. -/
theorem PatternScanLaw.inChunks {queries : Queries}
    (h : PatternScanLaw read request memory queries regions)
    (hread : ∀ addr size, read addr size = some (window memory addr size))
    (hpattern : request.pattern ≠ []) (hregions : Contiguous 0 regions)
    (hmap : ∀ n addr, queries n addr = regionOf regions addr) :
    ∀ place ∈ (patternPlaces request memory regions).take PatternScanMaxMatches,
      InChunk request place = true := by
  obtain ⟨n, found, hfound⟩ := h.ends
  have hplaces := (h.records hregions hmap n found hfound).1
  rw [finished_eq hmap hregions hread hpattern hfound] at hplaces
  exact (recorded_eq_iff hpattern hregions).mp hplaces

/-- The scan records every place exactly when its chunks and its walk do not lose one. -/
theorem pattern_scan_iff (read : ReadMemory) (request : PatternScanRequest) (memory : Nat → UInt8)
    (queries : Queries) (regions : List QueryAnswer)
    (hread : ∀ addr size, read addr size = some (window memory addr size))
    (hpattern : request.pattern ≠ []) :
    PatternScanLaw read request memory queries regions ↔
      ScanFinds request memory queries regions := by
  constructor
  · intro hlaw
    exact ⟨(scan_ends_iff hread hpattern).mp hlaw.ends, hlaw.inChunks hread hpattern⟩
  · rintro ⟨hends, hchunks⟩
    refine ⟨(scan_ends_iff hread hpattern).mpr hends, fun hregions hmap n found hfound => ?_⟩
    have hplaces := (recorded_eq_iff hpattern hregions).mpr (hchunks hregions hmap)
    rw [finished_eq hmap hregions hread hpattern hfound, hplaces]
    refine ⟨rfl, ?_⟩
    rw [List.map_map]
    have hsorted := (patternPlaces_sorted memory hpattern hregions).1
    exact List.pairwise_map.mpr (hsorted.sublist (List.take_sublist _ _))

end Law

namespace PatternScan

/-- Two bytes that are set. -/
def twoBytes (addr : Nat) : Nat → UInt8 := fun a => if a = addr ∨ a = addr + 1 then 1 else 0

def pair : PatternScanRequest where
  pattern := [1, 1]
  captureBefore := 0x10
  captureAfter := 0x20

/-- One region of readable code. -/
def region (size : UInt64) : QueryAnswer where
  addr := 0
  size := size
  type := 3
  perm := 5

def queries (size : UInt64) : Queries := fun _ addr => regionOf [region size] addr

def readAll (memory : Nat → UInt8) : ReadMemory := fun addr size => some (window memory addr size)

theorem contiguous_region : Contiguous 0 [region 0x20000] :=
  ⟨rfl, by decide, by decide, fun _ => by decide, trivial⟩

theorem twoBytes_place : patternPlaces pair (twoBytes 0xFFFF) [region 0x20000] =
    [(region 0x20000, 0xFFFF)] := by
  have hreadable : (region 0x20000).readable = true := by decide
  have hall : all (twoBytes 0xFFFF) [1, 1] 0 0x20000 = [0xFFFF] := by
    refine eq_of_mem_iff (all_sorted _ _) (List.pairwise_singleton _ _) fun a => ?_
    have hwindow : window (twoBytes 0xFFFF) a 2 = [twoBytes 0xFFFF a, twoBytes 0xFFFF (a + 1)] := rfl
    rw [mem_all, List.mem_singleton]
    constructor
    · rintro ⟨-, -, hmatch⟩
      have hmatch : [twoBytes 0xFFFF a, twoBytes 0xFFFF (a + 1)] = [1, 1] := hwindow ▸ hmatch
      obtain ⟨hfirst, hsecond⟩ : twoBytes 0xFFFF a = 1 ∧ twoBytes 0xFFFF (a + 1) = 1 := by
        simpa using hmatch
      unfold twoBytes at hfirst hsecond
      split_ifs at hfirst hsecond with h h'
      · omega
      all_goals simp at hfirst hsecond
    · rintro rfl
      exact ⟨Nat.zero_le _, by decide, by decide⟩
  have hplaces : patternPlaces pair (twoBytes 0xFFFF) [region 0x20000] =
      (all (twoBytes 0xFFFF) [1, 1] 0 0x20000).map (region 0x20000, ·) := by
    have haddr : (region 0x20000).addr.toNat = 0 := by decide
    have hstop : (region 0x20000).stop = 0x20000 := by decide
    simp only [patternPlaces, List.filter_cons, hreadable, if_true, List.filter_nil,
      List.flatMap_cons, List.flatMap_nil, List.append_nil, haddr, hstop, pair]
  rw [hplaces, hall]
  rfl

end PatternScan

open PatternScan in
theorem pattern_scan_in_chunk : PatternScanLaw (readAll (twoBytes 5)) pair (twoBytes 5)
    (queries 0x10) [region 0x10] := by
  refine (pattern_scan_iff (readAll (twoBytes 5)) pair (twoBytes 5) (queries 0x10) [region 0x10]
    (fun _ _ => rfl) (by decide)).mpr ⟨⟨1, .inl ?_⟩, fun _ _ => by decide⟩
  intro info hinfo
  have hnone : answered (queries 0x10) 1 = none := by decide
  rw [hnone] at hinfo
  cases hinfo

open PatternScan in
/-- The pattern lies on the border of the first two chunks. -/
theorem match_across_chunks_lost : ¬ PatternScanLaw (readAll (twoBytes 0xFFFF)) pair
    (twoBytes 0xFFFF) (queries 0x20000) [region 0x20000] := by
  intro h
  have hplace := h.inChunks (fun _ _ => rfl) (by decide) contiguous_region (fun _ _ => rfl)
    (region 0x20000, 0xFFFF) (by rw [twoBytes_place]; exact List.mem_cons_self)
  exact absurd hplace (by decide)

end SysAgent
