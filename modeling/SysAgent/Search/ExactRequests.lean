import SysAgent.Search.Exact
import SysAgent.Search.SessionRequests

set_option autoImplicit false

/-! # What starts an exact search (`search.c`)

`searchStart` and `searchStartRegion` up to `queueSearch`: the pattern, the range and the alignment.
What is accepted is carried with the bounds that the run relies on. -/

namespace SysAgent

def hexNibble (value : UInt8) : Option Nat :=
  let lower := if 0x41 ≤ value.toNat ∧ value.toNat ≤ 0x5A then value.toNat + 0x20 else value.toNat
  if 0x30 ≤ value.toNat ∧ value.toNat ≤ 0x39 then some (value.toNat - 0x30)
  else if 0x61 ≤ lower ∧ lower ≤ 0x66 then some (lower - 0x61 + 10)
  else none

/-- The loop of `parsePattern`, for digits in pairs. -/
def patternBytes : List UInt8 → Option (List UInt8)
  | [] => some []
  | [_] => none
  | first :: second :: rest =>
    match hexNibble first, hexNibble second, patternBytes rest with
    | some high, some low, some bytes => some (UInt8.ofNat (high <<< 4 ||| low) :: bytes)
    | _, _, _ => none

/-- A pattern with a bound on its length. -/
structure ParsedPattern where
  bytes : List UInt8
  ne_nil : bytes ≠ []
  length_le : bytes.length ≤ SEARCH_MAX_PATTERN_SIZE

theorem length_patternBytes {text bytes : List UInt8} (h : patternBytes text = some bytes) :
    text.length = 2 * bytes.length := by
  induction text using patternBytes.induct generalizing bytes with
  | case1 =>
    obtain rfl := Option.some.inj h
    rfl
  | case2 => cases h
  | case3 first second rest high low tail htail hsecond hfirst ih =>
    rw [patternBytes, hfirst, hsecond, htail] at h
    obtain rfl := Option.some.inj h
    have hrest := ih htail
    simp only [List.length_cons, hrest]
    omega
  | case4 first second rest hnone ih =>
    rw [patternBytes] at h
    split at h
    · rename_i high low tail hfirst hsecond htail
      exact absurd htail (hnone high low tail hfirst hsecond)
    · cases h

/-- `parsePattern`. -/
def parsePattern (text : List UInt8) : Option ParsedPattern :=
  let digits :=
    if text.head? = some 0x30 ∧ (text[1]? = some 0x78 ∨ text[1]? = some 0x58) then text.drop 2
    else text
  if hlength : digits.length = 0 ∨ digits.length % 2 ≠ 0 ∨
      SEARCH_MAX_PATTERN_SIZE < digits.length / 2 then none
  else
    match hbytes : patternBytes digits with
    | none => none
    | some bytes =>
      some
        { bytes := bytes
          ne_nil := by
            rintro rfl
            exact hlength (.inl (length_patternBytes hbytes))
          length_le := by
            have hdigits := length_patternBytes hbytes
            omega }

structure StartArguments where
  start : UInt64
  finish : UInt64
  pattern : List UInt8

/-- `searchStart`; the process is `none` if its memory cannot be opened. -/
def requestStart (a : StartArguments) (process : Option ProcessMemoryMetadata) :
    Except SearchStartResult SearchRequest :=
  if hrange : a.start < a.finish then
    match parsePattern a.pattern with
    | none => .error .invalidPattern
    | some pattern =>
      if UInt64.ofNat pattern.bytes.length > a.finish - a.start then .error .invalidPattern
      else
        match process with
        | none => .error .noProcess
        | some _ =>
          .ok
            { start := a.start.toNat
              finish := a.finish.toNat
              pattern := pattern.bytes
              alignment := 1
              start_lt := UInt64.lt_iff_toNat_lt.1 hrange
              finish_lt := a.finish.toNat_lt
              pattern_ne := pattern.ne_nil
              pattern_le := pattern.length_le
              alignment_pos := Nat.one_pos }
  else .error .invalidRange

structure StartRegionArguments where
  type : String
  region : String
  offset : UInt64
  size : UInt64
  value : List UInt8
  alignment : UInt64

/-- `parseSearchType`: the width, zero for bytes. -/
def parseSearchType (text : String) : Option Nat :=
  if text = "bytes" then some 0
  else if text = "u8" then some 1
  else if text = "u16" then some 2
  else if text = "u32" then some 4
  else if text = "u64" then some 8
  else none

def parseSearchRegion (text : String) : Option SearchRegion :=
  if text = "absolute" then some .absolute
  else if text = "heap" then some .heap
  else if text = "main" then some .main
  else none

theorem length_searchEncodeUnsigned {text bytes : List UInt8} {width : Nat}
    (h : searchEncodeUnsigned text width = some bytes) :
    bytes.length = width ∧ width ≠ 0 ∧ width ≤ SEARCH_MAX_PATTERN_SIZE := by
  unfold searchEncodeUnsigned at h
  split_ifs at h with hrefused
  obtain ⟨parsed, -, hvalue⟩ := Option.bind_eq_some_iff.1 h
  dsimp only at hvalue
  split_ifs at hvalue
  obtain rfl := Option.some.inj hvalue
  simp only [not_or, not_and_or, not_not] at hrefused
  refine ⟨by rw [List.length_map, List.length_range], ?_⟩
  simp only [SEARCH_MAX_PATTERN_SIZE]
  omega

/-- The pattern of a number: its bytes in the width of its type. -/
def numberPattern (text : List UInt8) (width : Nat) : Option ParsedPattern :=
  match hbytes : searchEncodeUnsigned text width with
  | none => none
  | some bytes =>
    some
      { bytes := bytes
        ne_nil := by
          rintro rfl
          exact (length_searchEncodeUnsigned hbytes).2.1 (length_searchEncodeUnsigned hbytes).1.symm
        length_le := by
          have hlength := length_searchEncodeUnsigned hbytes
          omega }

theorem start_lt_of_fits {first size : UInt64} {pattern : List UInt8} (hne : pattern ≠ [])
    (hsize : pattern.length ≤ size.toNat) (hwrap : ¬ size > 0xFFFFFFFFFFFFFFFF - first) :
    first.toNat < (first + size).toNat := by
  have hpattern := List.length_pos_iff.2 hne
  rw [toNat_add_of_not_gt hwrap]
  omega

theorem pos_of_searchAlignmentIsValid {alignment : Nat}
    (h : searchAlignmentIsValid alignment = true) : 0 < alignment := by
  by_contra hzero
  rw [Nat.eq_zero_of_not_pos hzero] at h
  cases h

/-- `searchStartRegion`. -/
def requestStartRegion (a : StartRegionArguments) (process : Option ProcessMemoryMetadata) :
    Except SearchStartResult SearchRequest :=
  match parseSearchType a.type with
  | none => .error .invalidType
  | some width =>
    match parseSearchRegion a.region with
    | none => .error .invalidRegion
    | some region =>
      match (if width = 0 then parsePattern a.value else numberPattern a.value width) with
      | none => .error .invalidPattern
      | some pattern =>
        let alignment :=
          if a.alignment = 0 then (if width = 0 then 1 else width) else a.alignment.toNat
        if halignment : searchAlignmentIsValid alignment = true then
          if hsize : pattern.bytes.length ≤ a.size.toNat then
            match process with
            | none => .error .noProcess
            | some metadata =>
              let base := (metadata.region region).1
              if region ≠ .absolute ∧ base = 0 then .error .baseUnavailable
              else if a.offset > 0xFFFFFFFFFFFFFFFF - base then .error .invalidRange
              else if hwrap : a.size > 0xFFFFFFFFFFFFFFFF - (base + a.offset) then
                .error .invalidRange
              else
                .ok
                  { start := (base + a.offset).toNat
                    finish := (base + a.offset + a.size).toNat
                    pattern := pattern.bytes
                    alignment := alignment
                    start_lt := start_lt_of_fits pattern.ne_nil hsize hwrap
                    finish_lt := (base + a.offset + a.size).toNat_lt
                    pattern_ne := pattern.ne_nil
                    pattern_le := pattern.length_le
                    alignment_pos := pos_of_searchAlignmentIsValid halignment }
          else .error .invalidRange
        else .error .invalidAlignment

end SysAgent
