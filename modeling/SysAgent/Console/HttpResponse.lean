import SysAgent.Lib.Assembly
import SysAgent.Lib.CNumber
import SysAgent.Lib.Haystack
import SysAgent.Ftp.Config

set_option autoImplicit false

/-! # The response of an HTTP server (`network_http.c`)

Before each read the bytes so far are searched for the end of the header, and its lines for a
length. What a server sends is a stream, how the reads split it a `Splitting`. -/

namespace SysAgent

open CNumber Haystack Assembly

def NETWORK_HTTP_RESPONSE_MAX : Nat := 32 * 1024

inductive HttpReadResult
  | ok
  | failed
  | timeout
  | tooLarge
  deriving DecidableEq

/-! ## Text -/

/-- The bytes before the `NUL`. -/
def cString (text : List UInt8) : List UInt8 := text.takeWhile (· != 0)

/-- `strstr` on texts without a `NUL`. -/
def strstr (text needle : List UInt8) : Option Nat := firstIndex text needle

def tolower (b : UInt8) : UInt8 := if 0x41 ≤ b && b ≤ 0x5A then b + 0x20 else b

def startsWithIgnoreCase (value lead : List UInt8) : Bool :=
  (value.take lead.length).map tolower == lead.map tolower

/-- `atoi` is `strtol` cut to an `int`. -/
def atoi (text : List UInt8) : Int := Int.bmod (strtoll 10 text).1 (2 ^ 32)

def lineBreak : List UInt8 := [0x0D, 0x0A]

def headerEnd : List UInt8 := lineBreak ++ lineBreak

def lengthName : List UInt8 := ascii "content-length:"

/-! ## Whether a response is complete -/

/-- The number of a line, if it is a length that is accepted. -/
def lineLength (cursor : List UInt8) (lineEnd : Nat) : Option Nat :=
  if startsWithIgnoreCase cursor lengthName then
    let skipped := ((cursor.take lineEnd).drop lengthName.length).takeWhile fun b =>
      b == 0x20 || b == 0x09
    let value := cursor.drop (lengthName.length + skipped.length)
    -- `strtoul` is `strtoull`: an `unsigned long` has 64 bits
    let (contentLength, parsedEnd, range) := strtoull 10 value
    if !range && parsedEnd.length != value.length &&
        decide (cursor.length - parsedEnd.length ≤ lineEnd) then some contentLength
    else none
  else none

/-- The loop over the lines; `left` is how far the separator is from the cursor. -/
def headerLength (cursor : List UInt8) (left : Nat) : Option Nat :=
  if 0 < left then
    match strstr cursor lineBreak with
    | none => none
    | some lineEnd =>
      if left < lineEnd then none
      else
        match lineLength cursor lineEnd with
        | some contentLength => some contentLength
        | none => headerLength (cursor.drop (lineEnd + 2)) (left - (lineEnd + 2))
  else none
termination_by left

def httpStatus (response : List UInt8) : Int :=
  if 12 ≤ response.length ∧ response.take 5 = ascii "HTTP/" then atoi (response.drop 9) else 0

def httpResponseComplete (response : List UInt8) : Bool :=
  match strstr (cString response) headerEnd with
  | none => false
  | some separator =>
    let headerSize := separator + 4
    match headerLength (cString response) separator with
    | some contentLength => decide ((headerSize + contentLength) % 2 ^ 64 ≤ response.length)
    | none => httpStatus response == 204 || httpStatus response == 304

/-! ## Reading it -/

/-- What a read comes to; one that is interrupted is repeated and is no read of its own. -/
inductive HttpRecv
  | received (readSize : Nat)
  | timeout
  | failed

/-- What is read, and whether the last read found the connection closed. -/
structure HttpRead where
  result : HttpReadResult
  response : List UInt8
  closed : Bool
  deriving DecidableEq

/-- `recv` says what the read behind so many bytes comes to. -/
def readHttpResponse (recv : Nat → HttpRecv) (stream : List UInt8) (capacity outSize : Nat) :
    HttpRead :=
  let response := stream.take outSize
  if outSize + 1 < capacity then
    if httpResponseComplete response then ⟨.ok, response, false⟩
    else
      match recv outSize with
      | .timeout => ⟨.timeout, response, false⟩
      | .failed => ⟨.failed, response, false⟩
      | .received readSize =>
        if readSize = 0 then ⟨.ok, response, true⟩
        else readHttpResponse recv stream capacity (outSize + readSize)
  else ⟨if capacity ≤ outSize + 1 then .tooLarge else .ok, response, false⟩
termination_by capacity - outSize

/-- The reads of a stream without a timeout or an error. -/
abbrev HttpSplitting (stream : List UInt8) : Type :=
  Splitting stream (NETWORK_HTTP_RESPONSE_MAX - 1)

def readSplit {stream : List UInt8} (split : HttpSplitting stream) : HttpRead :=
  readHttpResponse (fun outSize => .received (split.size outSize)) stream
    NETWORK_HTTP_RESPONSE_MAX 0

/-! ## What a header states -/

/-- The lines of a text. -/
def crlfLines : List UInt8 → List (List UInt8)
  | [] => [[]]
  | [b] => [[b]]
  | a :: b :: text =>
    if a = 0x0D ∧ b = 0x0A then [] :: crlfLines text
    else
      match crlfLines (b :: text) with
      | [] => [[a]]
      | line :: lines => (a :: line) :: lines

def isLengthLine (line : List UInt8) : Bool := startsWithIgnoreCase line lengthName

/-- A run of digits between spaces and tabs. -/
structure PlainNumber (value before digits after : List UInt8) : Prop where
  value_eq : value = before ++ (digits ++ after)
  before : ∀ b ∈ before, b = 0x20 ∨ b = 0x09
  nonempty : digits ≠ []
  digits : ∀ d ∈ digits, isDigitOf 10 d = true
  after : ∀ b ∈ after, b = 0x20 ∨ b = 0x09

/-- Every `Content-Length` line says `n`. -/
def LinesState (lines : List (List UInt8)) (n : Nat) : Prop :=
  ∀ line ∈ lines, isLengthLine line = true → ∃ before digits after,
    PlainNumber (line.drop lengthName.length) before digits after ∧ n = number 10 digits

/-- The header block is complete and states one length. -/
structure StatesLength (response : List UInt8) (headerSize n : Nat) : Prop where
  block : ∃ separator, strstr (cString response) headerEnd = some separator ∧
    headerSize = separator + 4 ∧
    (∃ line ∈ crlfLines ((cString response).take separator), isLengthLine line = true) ∧
    LinesState (crlfLines ((cString response).take separator)) n

def isBodiless (response : List UInt8) : Prop :=
  httpStatus response = 204 ∨ httpStatus response = 304

/-- The response is the same however it is split, and it ends behind as many bytes as it states or
    where the server closes, but for a status without a body. -/
structure AssemblyLaw (stream : List UInt8) : Prop where
  same : ∀ first second : HttpSplitting stream,
    (readSplit first).result = (readSplit second).result ∧
      (readSplit first).response = (readSplit second).response
  body : ∀ split : HttpSplitting stream, (readSplit split).result = .ok →
    (readSplit split).closed = false → ∀ headerSize n,
      StatesLength (readSplit split).response headerSize n →
        n ≤ ((readSplit split).response.drop headerSize).length
  closed : ∀ split : HttpSplitting stream, (readSplit split).result = .ok →
    (readSplit split).closed = true → (readSplit split).response = stream
  bodiless : ∀ split : HttpSplitting stream, (readSplit split).result = .ok →
    (readSplit split).closed = false →
      (∀ headerSize n, ¬ StatesLength (readSplit split).response headerSize n) →
        isBodiless (readSplit split).response

/-- No proper prefix is complete, and if the whole is, then through a length that does not wrap
    around or a status without a body. -/
structure AssembledWhole (stream : List UInt8) : Prop where
  quiet : ∀ size < min stream.length (NETWORK_HTTP_RESPONSE_MAX - 1),
    httpResponseComplete (stream.take size) = false
  fits : stream.length < NETWORK_HTTP_RESPONSE_MAX - 1 → httpResponseComplete stream = true →
    ∀ headerSize n, StatesLength stream headerSize n → headerSize + n < 2 ^ 64
  bodiless : stream.length < NETWORK_HTTP_RESPONSE_MAX - 1 → httpResponseComplete stream = true →
    (∀ headerSize n, ¬ StatesLength stream headerSize n) → isBodiless stream

/-! ## The header block -/

/-- The first line of a block: the block ends with it, or it goes on behind a line break. -/
theorem crlfLines_split (block : List UInt8) : ∃ line lines, crlfLines block = line :: lines ∧
    (∀ text, strstr (line ++ (lineBreak ++ text)) lineBreak = some line.length) ∧
    (block = line ∧ lines = [] ∨
      ∃ others, block = line ++ (lineBreak ++ others) ∧ lines = crlfLines others) := by
  have hcons : ∀ (a b : UInt8) (text : List UInt8), ¬ (a = 0x0D ∧ b = 0x0A) →
      strstr (a :: b :: text) lineBreak = (strstr (b :: text) lineBreak).map (· + 1) := by
    intro a b text hne
    rw [strstr, firstIndex_cons (by decide), if_neg]
    · rfl
    · intro h
      obtain ⟨ha, h⟩ := List.cons.inj h
      exact hne ⟨ha, (List.cons.inj h).1⟩
  have hhead : ∀ text, strstr (lineBreak ++ text) lineBreak = some 0 := by
    intro text
    rw [lineBreak, List.cons_append, strstr, firstIndex_cons (by decide)]
    exact if_pos rfl
  induction block using crlfLines.induct with
  | case1 => exact ⟨[], [], rfl, hhead, .inl ⟨rfl, rfl⟩⟩
  | case2 b =>
    refine ⟨[b], [], rfl, fun text => ?_, .inl ⟨rfl, rfl⟩⟩
    show strstr (b :: 0x0D :: 0x0A :: text) lineBreak = some 1
    rw [hcons b 0x0D _ fun h => absurd h.2 (by decide)]
    exact congrArg (Option.map (· + 1)) (hhead text)
  | case3 a b text hbreak ih =>
    refine ⟨[], crlfLines text, by rw [crlfLines, if_pos hbreak], hhead, .inr ⟨text, ?_, rfl⟩⟩
    rw [hbreak.1, hbreak.2]
    rfl
  | case4 a b text hne hnil ih =>
    obtain ⟨line, lines, hlines, -⟩ := ih
    rw [hnil] at hlines
    cases hlines
  | case5 a b text hne first others hfirst ih =>
    obtain ⟨line, lines, hlines, hbreak, hblock⟩ := ih
    rw [hfirst] at hlines
    obtain ⟨rfl, rfl⟩ := List.cons.inj hlines
    refine ⟨a :: first, others, by rw [crlfLines, if_neg hne, hfirst], fun more => ?_, ?_⟩
    · -- the line or its break goes on with the next byte
      have hnext : ∃ tail, first ++ (lineBreak ++ more) = b :: tail := by
        cases first with
        | nil =>
          obtain ⟨h, -⟩ | ⟨others, h, -⟩ := hblock
          · cases h
          · exact ⟨0x0A :: more, by rw [(List.cons.inj h).1]; rfl⟩
        | cons c line =>
          obtain ⟨h, -⟩ | ⟨others, h, -⟩ := hblock
          · exact ⟨_, by rw [(List.cons.inj h).1]; rfl⟩
          · exact ⟨_, by rw [(List.cons.inj h).1]; rfl⟩
      obtain ⟨tail, htail⟩ := hnext
      have h := hbreak more
      rw [htail] at h
      rw [List.cons_append, htail, hcons a b tail hne, h]
      rfl
    · obtain ⟨h, h'⟩ | ⟨others, h, h'⟩ := hblock
      · exact .inl ⟨by rw [h], h'⟩
      · exact .inr ⟨others, by rw [h]; rfl, h'⟩

/-- A name without a line break is found in the line or not at all. -/
theorem startsWith_append (line text : List UInt8) :
    startsWithIgnoreCase (line ++ (lineBreak ++ text)) lengthName = isLengthLine line := by
  unfold isLengthLine startsWithIgnoreCase
  rcases Nat.lt_or_ge line.length lengthName.length with hshort | hlong
  · have hline : ((line.take lengthName.length).map tolower == lengthName.map tolower) = false := by
      rw [beq_eq_false_iff_ne]
      intro h
      have hlength := congrArg List.length h
      rw [List.length_map, List.length_map, List.length_take] at hlength
      omega
    rw [hline, beq_eq_false_iff_ne]
    intro h
    have hmem : (0x0D : UInt8) ∈ (line ++ (lineBreak ++ text)).take lengthName.length := by
      rw [List.take_append, lineBreak, List.cons_append]
      obtain ⟨k, hk⟩ := Nat.exists_eq_add_of_lt hshort
      rw [show lengthName.length - line.length = k + 1 by omega, List.take_succ_cons]
      exact List.mem_append_right _ List.mem_cons_self
    have hname : tolower 0x0D ∈ lengthName.map tolower := h ▸ List.mem_map_of_mem hmem
    exact absurd hname (by decide)
  · rw [List.take_append_of_le_length hlong]

theorem lineLength_eq_none {line : List UInt8} (h : isLengthLine line = false)
    (text : List UInt8) : lineLength (line ++ (lineBreak ++ text)) line.length = none := by
  rw [lineLength, startsWith_append, h, if_neg Bool.false_ne_true]

theorem lineLength_stated {line before digits after : List UInt8}
    (hline : isLengthLine line = true)
    (hvalue : PlainNumber (line.drop lengthName.length) before digits after)
    (hrange : number 10 digits < 2 ^ 64) (text : List UInt8) :
    lineLength (line ++ (lineBreak ++ text)) line.length = some (number 10 digits) := by
  have hlong : lengthName.length ≤ line.length := by
    by_contra hshort
    have hempty := hvalue.value_eq
    rw [List.drop_eq_nil_of_le (by omega)] at hempty
    exact hvalue.nonempty (List.append_eq_nil_iff.mp (List.append_eq_nil_iff.mp hempty.symm).2).1
  have hlength :
      line.length = lengthName.length + (before.length + (digits.length + after.length)) := by
    have h := congrArg List.length hvalue.value_eq
    rw [List.length_drop, List.length_append, List.length_append] at h
    omega
  have hblank : ∀ b : UInt8, b = 0x20 ∨ b = 0x09 → (b == 0x20 || b == 0x09) = true := by
    rintro b (rfl | rfl) <;> rfl
  have hnoDigit : ∀ b : UInt8, b = 0x20 ∨ b = 0x09 → isDigitOf 10 b = false := by
    rintro b (rfl | rfl) <;> decide
  -- the blanks in front of the number end at its first digit
  have hskipped : ((line.drop lengthName.length).takeWhile fun b => b == 0x20 || b == 0x09) =
      before := by
    rw [hvalue.value_eq, List.takeWhile_append_of_pos fun b hb => hblank b (hvalue.before b hb)]
    obtain ⟨d, rest, rfl⟩ := List.exists_cons_of_ne_nil hvalue.nonempty
    rw [List.cons_append, List.takeWhile_cons_of_neg, List.append_nil]
    intro hd
    have hdigit := hvalue.digits d List.mem_cons_self
    rw [hnoDigit d (by simpa using hd)] at hdigit
    cases hdigit
  have hdrop : (line ++ (lineBreak ++ text)).drop (lengthName.length + before.length) =
      digits ++ (after ++ (lineBreak ++ text)) := by
    rw [← List.drop_drop, List.drop_append_of_le_length hlong, hvalue.value_eq, List.append_assoc,
      List.drop_left, List.append_assoc]
  have hparsed : strtoull 10 (digits ++ (after ++ (lineBreak ++ text))) =
      (number 10 digits, after ++ (lineBreak ++ text), false) := by
    rw [strtoull_digits hvalue.nonempty hvalue.digits, if_neg (Nat.not_le.mpr hrange)]
    intro b tail heq
    cases after with
    | nil =>
      obtain ⟨rfl, -⟩ := List.cons.inj heq
      rfl
    | cons c after =>
      obtain ⟨rfl, -⟩ := List.cons.inj heq
      exact hnoDigit c (hvalue.after c List.mem_cons_self)
  have hpositive := List.length_pos_iff.mpr hvalue.nonempty
  rw [lineLength, startsWith_append, hline, if_pos rfl]
  simp only [List.take_left, hskipped, hdrop, hparsed]
  rw [if_pos]
  simp only [Bool.and_eq_true, bne_iff_ne, decide_eq_true_eq, List.length_append]
  exact ⟨⟨rfl, by omega⟩, by omega⟩

/-- The loop at a line. -/
theorem headerLength_step {line : List UInt8} {left : Nat} (hpos : 0 < left)
    (hle : line.length ≤ left)
    (hbreak : ∀ text, strstr (line ++ (lineBreak ++ text)) lineBreak = some line.length)
    (text : List UInt8) :
    headerLength (line ++ (lineBreak ++ text)) left =
      match lineLength (line ++ (lineBreak ++ text)) line.length with
      | some contentLength => some contentLength
      | none => headerLength text (left - (line.length + 2)) := by
  have hnext : (line ++ (lineBreak ++ text)).drop (line.length + 2) = text := by
    rw [← List.drop_drop, List.drop_left]
    rfl
  rw [headerLength, if_pos hpos, hbreak text]
  simp only [if_neg (Nat.not_lt.mpr hle), hnext]

/-- The loop finds the length that all lines state. -/
theorem headerLength_stated {n : Nat} (hrange : n < 2 ^ 64) (text : List UInt8)
    {block : List UInt8} (hsome : ∃ line ∈ crlfLines block, isLengthLine line = true)
    (hstate : LinesState (crlfLines block) n) :
    headerLength (block ++ (lineBreak ++ text)) block.length = some n := by
  induction hsize : block.length using Nat.strong_induction_on generalizing block with
  | _ size ih =>
    obtain ⟨line, lines, hlines, hbreak, hblock⟩ := crlfLines_split block
    rw [hlines] at hsome hstate
    have hfound : ∀ text, isLengthLine line = true →
        lineLength (line ++ (lineBreak ++ text)) line.length = some n := by
      intro text hline
      obtain ⟨before, digits, after, hvalue, rfl⟩ := hstate line List.mem_cons_self hline
      exact lineLength_stated hline hvalue hrange text
    rw [← hsize]
    obtain ⟨rfl, rfl⟩ | ⟨others, rfl, rfl⟩ := hblock
    · -- the last line is all that is left
      obtain ⟨line, hmem, hline⟩ := hsome
      obtain rfl := List.mem_singleton.mp hmem
      have hpos : 0 < line.length := by
        cases line with
        | nil => exact absurd hline (by decide)
        | cons b line => exact Nat.succ_pos _
      rw [headerLength_step hpos (Nat.le_refl _) hbreak, hfound text hline]
    · have hlength :
          (line ++ (lineBreak ++ others)).length = line.length + (2 + others.length) := by
        rw [List.length_append, List.length_append]
        rfl
      rw [List.append_assoc, List.append_assoc,
        headerLength_step (by omega) (by omega) hbreak]
      cases hline : isLengthLine line with
      | true => rw [hfound _ hline]
      | false =>
        have hothers : ∃ line ∈ crlfLines others, isLengthLine line = true := by
          obtain ⟨line', hmem, hline'⟩ := hsome
          rcases List.mem_cons.mp hmem with rfl | hmem
          · rw [hline] at hline'
            cases hline'
          · exact ⟨line', hmem, hline'⟩
        have hleft : line.length + (2 + others.length) - (line.length + 2) = others.length := by
          omega
        rw [lineLength_eq_none hline, hlength]
        simp only [hleft]
        exact ih _ (by omega) hothers (fun l hl => hstate l (List.mem_cons_of_mem _ hl)) rfl

/-- A stated length decides, but for what the sum with the size of the header loses. -/
theorem complete_of_states {response : List UInt8} {headerSize n : Nat}
    (h : StatesLength response headerSize n) (hrange : n < 2 ^ 64) :
    httpResponseComplete response = decide ((headerSize + n) % 2 ^ 64 ≤ response.length) := by
  obtain ⟨separator, hseparator, rfl, hsome, hstate⟩ := h.block
  obtain ⟨hle, hmatch⟩ := firstIndex_spec hseparator
  have htext : cString response = (cString response).take separator ++
      (lineBreak ++ (lineBreak ++ (cString response).drop (separator + 4))) := by
    rw [← List.append_assoc lineBreak]
    show _ = _ ++ (headerEnd ++ _)
    rw [← hmatch]
    show _ = _ ++ (((cString response).drop separator).take 4 ++ _)
    rw [← List.drop_drop, List.take_append_drop, List.take_append_drop]
  have hlength : ((cString response).take separator).length = separator := by
    rw [List.length_take]
    omega
  have hfound := headerLength_stated hrange
    (lineBreak ++ (cString response).drop (separator + 4)) hsome hstate
  rw [← htext, hlength] at hfound
  unfold httpResponseComplete
  rw [hseparator]
  simp only [hfound]

/-! ## Splitting the stream -/

theorem complete_nil : httpResponseComplete [] = false := by decide

/-- The loop is the reader that stops at a complete response. -/
theorem readHttpResponse_eq {stream : List UInt8} {capacity : Nat}
    (split : Splitting stream (capacity - 1)) (outSize : Nat) :
    readHttpResponse (fun outSize => .received (split.size outSize)) stream capacity outSize =
      match run httpResponseComplete split outSize with
      | (.done, size) => ⟨.ok, stream.take size, false⟩
      | (.closed, size) => ⟨.ok, stream.take size, true⟩
      | (.full, size) => ⟨.tooLarge, stream.take size, false⟩ := by
  induction hleft : capacity - outSize using Nat.strong_induction_on generalizing outSize with
  | _ left ih =>
    rw [readHttpResponse, run]
    by_cases hroom : outSize + 1 < capacity
    · have hroom' : outSize < capacity - 1 := by omega
      rw [if_pos hroom, if_pos hroom']
      split_ifs with hcomplete hclosed
      · rfl
      · simp only [if_pos hclosed]
      · simp only [if_neg hclosed]
        exact ih _ (by omega) _ rfl
    · have hfull : capacity ≤ outSize + 1 := Nat.le_of_not_lt hroom
      have hroom' : ¬ outSize < capacity - 1 := by omega
      rw [if_neg hroom, if_pos hfull, if_neg hroom']

/-- What every split comes to where no proper prefix is complete. -/
def wholeRead (stream : List UInt8) : HttpRead :=
  if stream.length < NETWORK_HTTP_RESPONSE_MAX - 1 then
    ⟨.ok, stream, !httpResponseComplete stream⟩
  else ⟨.tooLarge, stream.take (NETWORK_HTTP_RESPONSE_MAX - 1), false⟩

theorem wholeRead_ok {stream : List UInt8} (h : (wholeRead stream).result = .ok) :
    stream.length < NETWORK_HTTP_RESPONSE_MAX - 1 ∧
      wholeRead stream = ⟨.ok, stream, !httpResponseComplete stream⟩ := by
  unfold wholeRead at h ⊢
  split_ifs at h ⊢ with hshort
  exact ⟨hshort, rfl⟩

theorem wholeRead_eq (stream : List UInt8) :
    (match atEnd httpResponseComplete stream (NETWORK_HTTP_RESPONSE_MAX - 1) with
      | (.done, size) => (⟨.ok, stream.take size, false⟩ : HttpRead)
      | (.closed, size) => ⟨.ok, stream.take size, true⟩
      | (.full, size) => ⟨.tooLarge, stream.take size, false⟩) = wholeRead stream := by
  unfold atEnd wholeRead
  split_ifs with hlt hcomplete
  · simp [hcomplete]
  · simp [hcomplete]
  · rfl

theorem readSplit_quiet {stream : List UInt8}
    (hquiet : ∀ size < min stream.length (NETWORK_HTTP_RESPONSE_MAX - 1),
      httpResponseComplete (stream.take size) = false) (split : HttpSplitting stream) :
    readSplit split = wholeRead stream := by
  rw [readSplit, readHttpResponse_eq,
    run_eq_atEnd httpResponseComplete split hquiet (Nat.zero_le _), wholeRead_eq]

theorem readSplit_atOnce (stream : List UInt8) :
    readSplit (atOnce stream (NETWORK_HTTP_RESPONSE_MAX - 1)) = wholeRead stream := by
  rw [readSplit, readHttpResponse_eq, run_atOnce httpResponseComplete complete_nil, wholeRead_eq]

/-- A prefix that is complete is all that is read if a read ends there. -/
theorem readSplit_cutAt {stream : List UInt8} {size : Nat}
    (hlt : size < min stream.length (NETWORK_HTTP_RESPONSE_MAX - 1))
    (hcomplete : httpResponseComplete (stream.take size) = true) :
    readSplit (cutAt stream (NETWORK_HTTP_RESPONSE_MAX - 1) size) =
      ⟨.ok, stream.take size, false⟩ := by
  have hpos : 0 < size := by
    rcases Nat.eq_zero_or_pos size with rfl | hpos
    · rw [List.take_zero, complete_nil] at hcomplete
      cases hcomplete
    · exact hpos
  rw [readSplit, readHttpResponse_eq,
    run_cutAt httpResponseComplete hpos hlt complete_nil hcomplete]

theorem assembledWhole_of_law {stream : List UInt8} (h : AssemblyLaw stream) :
    AssembledWhole stream := by
  have hquiet : ∀ size < min stream.length (NETWORK_HTTP_RESPONSE_MAX - 1),
      httpResponseComplete (stream.take size) = false := by
    intro size hlt
    by_contra hcomplete
    have hcut := readSplit_cutAt hlt (Bool.eq_true_of_not_eq_false hcomplete)
    -- another split reads more than this prefix
    have hsame := h.same (cutAt stream _ size) (atOnce stream _)
    rw [hcut, readSplit_atOnce] at hsame
    have hlength := congrArg List.length hsame.2
    unfold wholeRead at hlength
    split_ifs at hlength with hshort <;> simp only [List.length_take] at hlength <;> omega
  have hread : stream.length < NETWORK_HTTP_RESPONSE_MAX - 1 →
      httpResponseComplete stream = true →
        readSplit (atOnce stream (NETWORK_HTTP_RESPONSE_MAX - 1)) = ⟨.ok, stream, false⟩ := by
    intro hshort hcomplete
    rw [readSplit_atOnce, wholeRead, if_pos hshort, hcomplete]
    rfl
  refine ⟨hquiet, fun hshort hcomplete headerSize n hstates => ?_,
    fun hshort hcomplete hnone => ?_⟩
  · have hbody := h.body (atOnce stream _)
    rw [hread hshort hcomplete] at hbody
    have hbody : n ≤ (stream.drop headerSize).length := hbody rfl rfl headerSize n hstates
    have hheader : headerSize ≤ stream.length := by
      obtain ⟨separator, hseparator, rfl, -⟩ := hstates.block
      have hle := (firstIndex_spec hseparator).1
      have hprefix := (List.takeWhile_prefix (l := stream) (· != (0 : UInt8))).length_le
      exact hle.trans hprefix
    rw [List.length_drop] at hbody
    have hmax : NETWORK_HTTP_RESPONSE_MAX < 2 ^ 64 := by decide
    omega
  · have hbodiless := h.bodiless (atOnce stream _)
    rw [hread hshort hcomplete] at hbodiless
    exact hbodiless rfl rfl hnone

theorem law_of_assembledWhole {stream : List UInt8} (h : AssembledWhole stream) :
    AssemblyLaw stream := by
  have hread := readSplit_quiet h.quiet
  refine ⟨fun first second => ?_, fun split hresult hopen headerSize n hstates => ?_,
    fun split hresult _ => ?_, fun split hresult hopen hnone => ?_⟩
  · rw [hread first, hread second]
    exact ⟨rfl, rfl⟩
  · rw [hread split] at hresult hopen hstates ⊢
    obtain ⟨hshort, hwhole⟩ := wholeRead_ok hresult
    rw [hwhole] at hopen hstates ⊢
    have hcomplete : httpResponseComplete stream = true := by simpa using hopen
    have hfits := h.fits hshort hcomplete headerSize n hstates
    rw [complete_of_states hstates (by omega), Nat.mod_eq_of_lt hfits,
      decide_eq_true_eq] at hcomplete
    rw [List.length_drop]
    omega
  · rw [hread split] at hresult ⊢
    rw [(wholeRead_ok hresult).2]
  · rw [hread split] at hresult hopen hnone ⊢
    obtain ⟨hshort, hwhole⟩ := wholeRead_ok hresult
    rw [hwhole] at hopen hnone ⊢
    exact h.bodiless hshort (by simpa using hopen) hnone

/-- The law holds for exactly the streams that are only complete as a whole, and then by a length
    that does not wrap around or a status without a body. -/
theorem http_response_assembled (stream : List UInt8) :
    AssemblyLaw stream ↔ AssembledWhole stream :=
  ⟨assembledWhole_of_law, law_of_assembledWhole⟩

/-- A response with the largest length there is. -/
def wrappingResponse : List UInt8 :=
  ascii "HTTP/1.1 200 OK\r\nContent-Length: 18446744073709551615\r\n\r\nab"

theorem wrappingResponse_states : StatesLength wrappingResponse 57 18446744073709551615 := by
  have hlines : crlfLines ((cString wrappingResponse).take 53) =
      [ascii "HTTP/1.1 200 OK", ascii "Content-Length: 18446744073709551615"] := by
    decide
  refine ⟨53, by decide, rfl, ?_, ?_⟩
  · rw [hlines]
    exact ⟨_, List.mem_cons_of_mem _ List.mem_cons_self, by decide⟩
  · rw [hlines]
    intro line hmem hline
    rcases List.mem_cons.mp hmem with rfl | hmem
    · exact absurd hline (by decide)
    · obtain rfl := List.mem_singleton.mp hmem
      refine ⟨[0x20], ascii "18446744073709551615", [], ⟨?_, ?_, ?_, ?_, ?_⟩, ?_⟩
      all_goals decide +kernel

/-- The response counts as complete without the body that its header announces. -/
theorem wrapped_length_cuts_body : ¬ AssemblyLaw wrappingResponse := by
  intro h
  have hcomplete : httpResponseComplete wrappingResponse = true := by
    rw [complete_of_states wrappingResponse_states (by decide)]
    decide
  have hread : readSplit (atOnce wrappingResponse (NETWORK_HTTP_RESPONSE_MAX - 1)) =
      ⟨.ok, wrappingResponse, false⟩ := by
    rw [readSplit_atOnce, wholeRead, if_pos (by decide), hcomplete]
    rfl
  have hbody := h.body (atOnce wrappingResponse _)
  rw [hread] at hbody
  exact absurd (hbody rfl rfl _ _ wrappingResponse_states) (by decide)

end SysAgent
