import SysAgent.Console.Numbers
import SysAgent.Search.Preflight
import SysAgent.Search.Refine

set_option autoImplicit false

/-! # What starts a pass of an unknown search (`unknown_search.c`)

The parts of `unknownSearchBegin` and `unknownSearchRefine` that are outside of the lock: the arguments,
the range of the region, and the free space. A range that is accepted is carried with its bounds. -/

namespace SysAgent

inductive SearchStartResult
  | ok
  | busy
  | invalidRange
  | invalidPattern
  | invalidType
  | invalidRegion
  | invalidAlignment
  | baseUnavailable
  | noMemory
  | noProcess
  | unavailable
  | sdUnavailable
  | insufficientStorage
  | corruptSession
  | processChanged
  | pauseFailed
  | ioError
  | sessionNotReady
  deriving DecidableEq

inductive SearchRegion
  | absolute
  | heap
  | main
  | alias
  | addressSpace
  deriving DecidableEq

/-- The value of the enumeration. -/
def SearchRegion.code : SearchRegion → UInt32
  | .absolute => 0
  | .heap => 1
  | .main => 2
  | .alias => 3
  | .addressSpace => 4

structure ProcessMemoryMetadata where
  processId : UInt64
  titleId : UInt64
  mainBase : UInt64
  mainSize : UInt64
  heapBase : UInt64
  heapSize : UInt64
  aliasBase : UInt64
  aliasSize : UInt64
  addressSpaceBase : UInt64
  addressSpaceSize : UInt64
  buildId : Vector UInt8 32

/-! ## The arguments of a begin -/

structure BeginArguments where
  type : String
  region : String
  offset : UInt64
  size : UInt64
  alignment : UInt64
  pause : Bool

/-- `parseType`: the value of the type, and the width. -/
def parseType (text : String) : Option (UInt32 × UInt32) :=
  if text = "u8" then some (1, 1)
  else if text = "u16" then some (2, 2)
  else if text = "u32" then some (3, 4)
  else if text = "u64" then some (4, 8)
  else none

def parseRegion (text : String) : Option SearchRegion :=
  if text = "absolute" then some .absolute
  else if text = "heap" then some .heap
  else if text = "main" then some .main
  else if text = "alias" then some .alias
  else if text = "addressSpace" then some .addressSpace
  else none

theorem parseType_width {text : String} {type width : UInt32}
    (h : parseType text = some (type, width)) : width.toNat ∈ [1, 2, 4, 8] := by
  unfold parseType at h
  split_ifs at h
  · obtain ⟨-, rfl⟩ := Prod.mk.inj (Option.some.inj h)
    decide
  · obtain ⟨-, rfl⟩ := Prod.mk.inj (Option.some.inj h)
    decide
  · obtain ⟨-, rfl⟩ := Prod.mk.inj (Option.some.inj h)
    decide
  · obtain ⟨-, rfl⟩ := Prod.mk.inj (Option.some.inj h)
    decide

/-- What the checks before the first lock leave of the arguments. -/
structure ParsedBegin (size : UInt64) where
  type : UInt32
  width : UInt32
  region : SearchRegion
  alignment : UInt64
  width_valid : width.toNat ∈ [1, 2, 4, 8]
  alignment_valid : searchAlignmentIsValid alignment.toNat = true
  width_le : width.toNat ≤ size.toNat

theorem ParsedBegin.size_pos {size : UInt64} (p : ParsedBegin size) : 0 < size.toNat := by
  have hwidth := p.width_valid
  have hle := p.width_le
  simp only [List.mem_cons, List.not_mem_nil, or_false] at hwidth
  omega

def parseBegin (a : BeginArguments) : Except SearchStartResult (ParsedBegin a.size) :=
  match htype : parseType a.type with
  | none => .error .invalidType
  | some (type, width) =>
    match parseRegion a.region with
    | none => .error .invalidRegion
    | some region =>
      let alignment := if a.alignment = 0 then width.toUInt64 else a.alignment
      if halignment : searchAlignmentIsValid alignment.toNat = true then
        if hsize : width.toNat ≤ a.size.toNat then
          .ok
            { type := type
              width := width
              region := region
              alignment := alignment
              width_valid := parseType_width htype
              alignment_valid := halignment
              width_le := hsize }
        else .error .invalidRange
      else .error .invalidAlignment

/-! ## The range -/

/-- The base and the size of a region; an absolute range has no limit. -/
def ProcessMemoryMetadata.region (m : ProcessMemoryMetadata) : SearchRegion → UInt64 × UInt64
  | .main => (m.mainBase, m.mainSize)
  | .heap => (m.heapBase, m.heapSize)
  | .alias => (m.aliasBase, m.aliasSize)
  | .addressSpace => (m.addressSpaceBase, m.addressSpaceSize)
  | .absolute => (0, 0xFFFFFFFFFFFFFFFF)

/-- A range of the given size that does not wrap around. -/
structure ResolvedRange (size : UInt64) where
  base : UInt64
  start : UInt64
  finish : UInt64
  finish_eq : finish.toNat = start.toNat + size.toNat

theorem toNat_add_of_not_gt {start size : UInt64} (h : ¬ size > 0xFFFFFFFFFFFFFFFF - start) :
    (start + size).toNat = start.toNat + size.toNat := by
  have hmax : (0xFFFFFFFFFFFFFFFF : UInt64).toNat = 2 ^ 64 - 1 := rfl
  have hstart := start.toNat_lt
  have hroom : (0xFFFFFFFFFFFFFFFF - start : UInt64).toNat = 2 ^ 64 - 1 - start.toNat := by
    rw [UInt64.toNat_sub_of_le, hmax]
    rw [UInt64.le_iff_toNat_le, hmax]
    omega
  have hle : size.toNat ≤ 2 ^ 64 - 1 - start.toNat := by
    rw [← hroom]
    exact Nat.le_of_not_lt fun hlt => h (UInt64.lt_iff_toNat_lt.2 hlt)
  rw [UInt64.toNat_add, Nat.mod_eq_of_lt (by omega)]

def resolveRegion (metadata : ProcessMemoryMetadata) (region : SearchRegion) (offset size : UInt64) :
    Except SearchStartResult (ResolvedRange size) :=
  let (base, regionSize) := metadata.region region
  if region ≠ .absolute ∧ (base = 0 ∨ regionSize = 0) then .error .baseUnavailable
  else if region ≠ .absolute ∧ (offset > regionSize ∨ size > regionSize - offset) then
    .error .invalidRange
  else if offset > 0xFFFFFFFFFFFFFFFF - base then .error .invalidRange
  else if hsize : size > 0xFFFFFFFFFFFFFFFF - (base + offset) then .error .invalidRange
  else
    .ok
      { base := base
        start := base + offset
        finish := base + offset + size
        finish_eq := toNat_add_of_not_gt hsize }

/-- `searchStoreHasFreeSpace`; `free` is what `statvfs` answers, none if it fails. -/
def searchStoreHasFreeSpace (free : Option UInt64) (required reserve : UInt64) : Bool :=
  match free with
  | none => false
  | some freeBytes =>
    required ≤ 0xFFFFFFFFFFFFFFFF - reserve && freeBytes ≥ required + reserve

def UNKNOWN_STORAGE_RESERVE : UInt64 := 0x4000000

/-- What the outside answers a begin: the process that is opened and its backend, and the free
    space. -/
structure BeginWorld where
  process : Option (ProcessMemoryMetadata × UInt32)
  free : Option UInt64

/-- The end of `unknownSearchBegin` up to its second lock: what the session is to hold. -/
def requestBegin (a : BeginArguments) (p : ParsedBegin a.size) (world : BeginWorld) :
    Except SearchStartResult BeginRequest :=
  match world.process with
  | none => .error .noProcess
  | some (process, backend) =>
    match resolveRegion process p.region a.offset a.size with
    | .error result => .error result
    | .ok range =>
      let estimate := searchStoreEstimateMaximum a.size p.alignment p.width
      if estimate = 0xFFFFFFFFFFFFFFFF ∨
          searchStoreHasFreeSpace world.free estimate UNKNOWN_STORAGE_RESERVE = false then
        .error .insufficientStorage
      else
        .ok
          { metadata :=
              { processId := process.processId
                titleId := process.titleId
                start := range.start
                finish := range.finish
                regionBase := range.base
                regionOffset := a.offset
                alignment := p.alignment
                generation := 0
                type := p.type
                region := p.region.code
                backend := backend
                width := p.width
                buildId := process.buildId }
            start_lt := by
              rw [UInt64.lt_iff_toNat_lt, range.finish_eq]
              exact Nat.lt_add_of_pos_right p.size_pos
            alignment_valid := p.alignment_valid
            width_valid := p.width_valid }

/-! ## The arguments of a refinement -/

structure RefineArguments where
  mode : SearchCompareMode
  value : Option (List UInt8)
  pause : Bool

/-- The value of an exact refinement; the others have none. -/
def refineValue (a : RefineArguments) (width : Nat) : Except SearchStartResult UInt64 :=
  if a.mode = .exact then
    match a.value.bind fun text => searchEncodeUnsigned text width with
    | none => .error .invalidPattern
    | some encoded => .ok (searchDecodeUnsigned encoded width)
  else .ok 0

/-- What the outside answers a refinement: whether `stat` finds the session file, and the free
    space. -/
structure RefineWorld where
  stat : Bool
  free : Option UInt64

/-- `unknownSearchRefine` between its two locks. -/
def requestRefine (a : RefineArguments) (width : Nat) (world : RefineWorld)
    (dir : Directory SessionFile) : Except SearchStartResult UInt64 :=
  match refineValue a width with
  | .error result => .error result
  | .ok exactValue =>
    match (if world.stat then dir .current else none) with
    | none => .error .corruptSession
    | some content =>
      let size := UInt64.ofNat content.length
      let estimate := size + (size >>> 3) + 0x100000
      if searchStoreHasFreeSpace world.free estimate UNKNOWN_STORAGE_RESERVE = false then
        .error .insufficientStorage
      else .ok exactValue

end SysAgent
