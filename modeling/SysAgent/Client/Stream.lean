import Mathlib
import SysAgent.Lib.Runs

set_option autoImplicit false

/-! # The client's command stream (`SysAgentClient`)

The server answers each line it receives, in order, with one line. Every byte of an answer carries
the number of the line it answers, so that what a call returns can be traced to the lines the call has
sent. `stream` is what the server will still deliver on the open connection; when and in which
pieces it arrives, time-outs and broken connections are chosen by the environment.

A call that ends in a time-out or with an error after its line was sent leaves the answer unread,
and `connect` keeps the connection unless a silent command has marked it. The next call then
reads the old answer. -/

namespace SysAgent

def RESPONSE_LIMIT : Nat := 4 * 1024 * 1024

/-- A byte of the answer to line `line`. -/
structure ReplyByte where
  line : Nat
  byte : UInt8
  deriving DecidableEq

/-- What one `recv` answers. -/
inductive RecvAnswer
  | data (size : Nat)
  | closed
  | timeout
  | broken

inductive CallError
  | timeout
  | osError
  | protocol
  /-- An exception that is neither a protocol nor an OS error. -/
  | other
  deriving DecidableEq

inductive SendAnswer
  | sent
  /-- `sendall` raises; the server may have received the line. -/
  | failed (received : Bool)

/-- What one attempt meets. -/
structure AttemptAnswers where
  connects : Bool
  send : SendAnswer
  recvs : List RecvAnswer
  /-- The text of the server's answer, without the line end. -/
  reply : { text : List UInt8 // 0x0A ∉ text }

/-- A value a call has returned, the numbers of the lines the call sent, and whether it is a
    call that never repeats its line. -/
structure CallRecord where
  lines : List Nat
  once : Bool
  value : Option (List ReplyByte)

structure SysAgentClient where
  isOpen : Bool
  stream : List ReplyByte
  buffer : List ReplyByte
  streamDirty : Bool
  nextLine : Nat
  records : List CallRecord

inductive CallKind
  | command
  | bareCommand (expectOutput : Bool)
  | rawCommand
  | screenshot
  deriving DecidableEq

/-- A call, or the client's `close`. -/
inductive ClientEvent
  | call (kind : CallKind) (retry : Bool) (answers : Nat → AttemptAnswers)
  | close

/-- `line.rstrip(b"\r")` -/
def rstripCR (line : List ReplyByte) : List ReplyByte :=
  (line.reverse.dropWhile fun b => b.byte = 0x0D).reverse

/-- What `_readline` leaves: the line or an exception, the buffer and the stream. -/
structure ReadResult where
  line : Except CallError (List ReplyByte)
  buffer : List ReplyByte
  stream : List ReplyByte

/-- `_readline`; a `recv` with nothing to deliver runs into the time-out. -/
def readline : List RecvAnswer → List ReplyByte → List ReplyByte → ReadResult
  | recvs, buffer, stream =>
    if buffer.any fun b => b.byte = 0x0A then
      { line := .ok (rstripCR (buffer.takeWhile fun b => b.byte ≠ 0x0A))
        buffer := (buffer.dropWhile fun b => b.byte ≠ 0x0A).drop 1
        stream := stream }
    else
      match recvs with
      | [] => { line := .error .timeout, buffer := buffer, stream := stream }
      | .timeout :: _ => { line := .error .timeout, buffer := buffer, stream := stream }
      | .broken :: _ => { line := .error .osError, buffer := buffer, stream := stream }
      | .closed :: _ => { line := .error .protocol, buffer := buffer, stream := stream }
      | .data size :: rest =>
        if stream = [] then { line := .error .timeout, buffer := buffer, stream := stream }
        else
          let size := max 1 (min size 4096)
          let buffer := buffer ++ stream.take size
          let stream := stream.drop size
          if RESPONSE_LIMIT < buffer.length then
            { line := .error .protocol, buffer := buffer, stream := stream }
          else readline rest buffer stream

namespace SysAgentClient

def initial : SysAgentClient :=
  { isOpen := false, stream := [], buffer := [], streamDirty := false, nextLine := 0,
    records := [] }

def close (s : SysAgentClient) : SysAgentClient :=
  { s with isOpen := false, stream := [], buffer := [], streamDirty := false }

/-- A connection that is open and not dirty is kept. -/
def connect (connects : Bool) (s : SysAgentClient) : Option CallError × SysAgentClient :=
  if s.isOpen && !s.streamDirty then (none, s)
  else
    let s := if s.isOpen then s.close else s
    if connects then (none, { s with isOpen := true, stream := [], streamDirty := false })
    else (some .osError, s)

/-- The answer to line `line` as it comes over the connection. -/
def replyBytes (line : Nat) (text : List UInt8) : List ReplyByte :=
  (text ++ [0x0A]).map fun byte => ⟨line, byte⟩

/-- `sendall` of a line: its number, and the answer the server will give. -/
def sendLine (answers : AttemptAnswers) (s : SysAgentClient) : Option CallError × SysAgentClient :=
  let received := { s with
    nextLine := s.nextLine + 1
    stream := s.stream ++ replyBytes s.nextLine answers.reply.1 }
  match answers.send with
  | .sent => (none, received)
  | .failed true => (some .osError, received)
  | .failed false => (some .osError, { s with nextLine := s.nextLine + 1 })

variable (judge : CallKind → List ReplyByte → Option CallError)

/-- What the call makes of what was read: `judge` stands for the decoding and parsing of a line. -/
def outcome (kind : CallKind) (line : Except CallError (List ReplyByte)) :
    Except CallError (Option (List ReplyByte)) :=
  match kind, line with
  | .bareCommand false, .ok _ => .ok none
  | .bareCommand false, .error .protocol => .error .protocol
  | .bareCommand false, .error _ => .ok none
  | .rawCommand, .error .timeout => .ok none
  | _, .error error => .error error
  | kind, .ok line =>
    match judge kind line with
    | none => .ok (some line)
    | some error => .error error

/-- One attempt: its outcome, the lines it sent and the client after it. -/
def attempt (kind : CallKind) (answers : AttemptAnswers) (s : SysAgentClient) :
    Except CallError (Option (List ReplyByte)) × List Nat × SysAgentClient :=
  let connected := s.connect answers.connects
  match connected.1 with
  | some error => (.error error, [], connected.2)
  | none =>
    let sent := connected.2.sendLine answers
    match sent.1 with
    | some error => (.error error, [connected.2.nextLine], sent.2)
    | none =>
      let s := { sent.2 with
        streamDirty := if kind = CallKind.bareCommand false then true else sent.2.streamDirty }
      let read := readline answers.recvs s.buffer s.stream
      (outcome judge kind read.line, [connected.2.nextLine],
        { s with buffer := read.buffer, stream := read.stream })

/-- `_retryable`, with the number of further attempts; the lines of the attempts add up. -/
def retryable (kind : CallKind) (answers : Nat → AttemptAnswers) :
    Nat → Nat → List Nat → SysAgentClient →
      Except CallError (Option (List ReplyByte)) × List Nat × SysAgentClient
  | 0, index, lines, s =>
    let tried := attempt judge kind (answers index) s
    (tried.1, lines ++ tried.2.1, tried.2.2)
  | further + 1, index, lines, s =>
    let tried := attempt judge kind (answers index) s
    match tried.1 with
    | .ok value => (.ok value, lines ++ tried.2.1, tried.2.2)
    | .error .other => (.error .other, lines ++ tried.2.1, tried.2.2)
    | .error _ =>
      retryable kind answers further (index + 1) (lines ++ tried.2.1) tried.2.2.close

/-- The calls that repeat their line. -/
def repeats (retries : Nat) (kind : CallKind) (retry : Bool) : Bool :=
  retry && decide (0 < retries) && decide (kind = .command ∨ kind = .bareCommand true)

/-- A call; a call that raises has no value. -/
def call (retries : Nat) (kind : CallKind) (retry : Bool) (answers : Nat → AttemptAnswers)
    (s : SysAgentClient) : SysAgentClient :=
  let further := if repeats retries kind retry then retries else 0
  let called := retryable judge kind answers further 0 [] s
  let value := match called.1 with
    | .ok value => value
    | .error _ => none
  { called.2.2 with
    records := s.records ++ [⟨called.2.1, !repeats retries kind retry, value⟩] }

def step (retries : Nat) (s : SysAgentClient) : ClientEvent → SysAgentClient
  | .call kind retry answers => s.call judge retries kind retry answers
  | .close => s.close

/-- The value is built from answers to the call's own lines, and a call that does not repeat its
    line has sent it at most once. -/
def OwnReply (record : CallRecord) : Prop :=
  (∀ value, record.value = some value → ∀ b ∈ value, b.line ∈ record.lines) ∧
    (record.once = true → record.lines.length ≤ 1)

def RepliesBelong (s : SysAgentClient) : Prop := ∀ record ∈ s.records, OwnReply record

/-- Nothing of an earlier answer is left on a connection that would be kept. -/
def Aligned (s : SysAgentClient) : Prop :=
  s.isOpen = true → s.streamDirty = false → s.buffer = [] ∧ s.stream = []

/-- No call is made on a kept connection with an unread answer. -/
def StartsAligned (s : SysAgentClient) : ClientEvent → Prop
  | .call _ _ _ => s.Aligned
  | .close => True

end SysAgentClient

/-! ## Reading -/

/-- The line in front of a buffer that holds a line end. -/
theorem readline_front {buffer stream line : List ReplyByte}
    (hline : (buffer.any fun b => b.byte = 0x0A) = true)
    (h : rstripCR (buffer.takeWhile fun b => b.byte ≠ 0x0A) = line) :
    ∃ raw stop, line = rstripCR raw ∧ stop.byte = 0x0A ∧ (∀ b ∈ raw, b.byte ≠ 0x0A) ∧
      buffer ++ stream = raw ++ stop :: ((buffer.dropWhile fun b => b.byte ≠ 0x0A).drop 1 ++
        stream) := by
  obtain ⟨first, hfirst, hbyte⟩ := List.any_eq_true.1 hline
  have hrest : (buffer.dropWhile fun b => b.byte ≠ 0x0A) ≠ [] := by
    intro hnil
    have hall := List.dropWhile_eq_nil_iff.1 hnil first hfirst
    simp only [decide_eq_true_eq] at hall hbyte
    exact hall hbyte
  obtain ⟨stop, rest, hcons⟩ := List.exists_cons_of_ne_nil hrest
  refine ⟨_, stop, h.symm, ?_, ?_, ?_⟩
  · have hhead := List.head_dropWhile_not (fun b : ReplyByte => b.byte ≠ 0x0A) hrest
    have hstop : (buffer.dropWhile fun b => b.byte ≠ 0x0A).head hrest = stop := by
      simp only [hcons, List.head_cons]
    rw [hstop] at hhead
    simpa using hhead
  · intro b hb
    simpa using List.mem_takeWhile_imp hb
  · rw [hcons, List.drop_succ_cons, List.drop_zero, ← List.cons_append, ← hcons,
      ← List.append_assoc, List.takeWhile_append_dropWhile]

/-- A line that is read is the front of the buffer and the stream, up to the first line end. -/
theorem readline_split {recvs : List RecvAnswer} {buffer stream line : List ReplyByte}
    (h : (readline recvs buffer stream).line = .ok line) :
    ∃ raw stop, line = rstripCR raw ∧ stop.byte = 0x0A ∧ (∀ b ∈ raw, b.byte ≠ 0x0A) ∧
      buffer ++ stream = raw ++ stop :: ((readline recvs buffer stream).buffer ++
        (readline recvs buffer stream).stream) := by
  induction recvs generalizing buffer stream with
  | nil =>
    unfold readline at h ⊢
    split_ifs at h ⊢ with hline
    exact readline_front hline (Except.ok.inj h)
  | cons answer rest ih =>
    unfold readline at h ⊢
    by_cases hline : (buffer.any fun b => b.byte = 0x0A) = true
    · rw [if_pos hline] at h ⊢
      exact readline_front hline (Except.ok.inj h)
    · rw [if_neg hline] at h ⊢
      cases answer with
      | timeout => exact absurd h (by simp)
      | broken => exact absurd h (by simp)
      | closed => exact absurd h (by simp)
      | data size =>
        simp only at h ⊢
        by_cases hempty : stream = []
        · rw [if_pos hempty] at h
          exact absurd h (by simp)
        · rw [if_neg hempty] at h ⊢
          by_cases hlong : RESPONSE_LIMIT <
              (buffer ++ stream.take (max 1 (min size 4096))).length
          · rw [if_pos hlong] at h
            exact absurd h (by simp)
          · rw [if_neg hlong] at h ⊢
            -- the buffer takes over what has arrived
            obtain ⟨raw, stop, hraw, hstop, hclean, hsplit⟩ := ih h
            refine ⟨raw, stop, hraw, hstop, hclean, ?_⟩
            rw [← hsplit, List.append_assoc, List.take_append_drop]

/-- A line that is read comes from the buffer and the stream. -/
theorem readline_mem {recvs : List RecvAnswer} {buffer stream line : List ReplyByte}
    (h : (readline recvs buffer stream).line = .ok line) :
    ∀ b ∈ line, b ∈ buffer ++ stream := by
  obtain ⟨raw, stop, hraw, -, -, hsplit⟩ := readline_split h
  intro b hb
  rw [hsplit]
  rw [hraw] at hb
  unfold rstripCR at hb
  have hmem := List.mem_reverse.1 (List.dropWhile_subset _ (List.mem_reverse.1 hb))
  exact List.mem_append_left _ hmem

/-! ## Attempts and calls -/

namespace SysAgentClient

variable {s : SysAgentClient} (judge : CallKind → List ReplyByte → Option CallError)

/-- A closed connection holds nothing. -/
def ClosedEmpty (s : SysAgentClient) : Prop := s.isOpen = false → s.buffer = [] ∧ s.stream = []

theorem closedEmpty_close (s : SysAgentClient) : s.close.ClosedEmpty := fun _ => ⟨rfl, rfl⟩

theorem aligned_close (s : SysAgentClient) : s.close.Aligned := by
  intro hopen
  simp [close] at hopen

/-- A connection a call starts on holds nothing of an earlier answer. -/
theorem connect_empty (halign : s.Aligned) (hclosed : s.ClosedEmpty) {connects : Bool}
    (hok : (s.connect connects).1 = none) :
    (s.connect connects).2.isOpen = true ∧ (s.connect connects).2.buffer = [] ∧
      (s.connect connects).2.stream = [] := by
  unfold connect at hok ⊢
  by_cases hkeep : (s.isOpen && !s.streamDirty) = true
  · rw [if_pos hkeep]
    simp only [Bool.and_eq_true, Bool.not_eq_true'] at hkeep
    exact ⟨hkeep.1, halign hkeep.1 hkeep.2⟩
  · rw [if_neg hkeep] at hok ⊢
    by_cases hconnects : connects = true
    · simp only [if_pos hconnects]
      refine ⟨trivial, ?_, trivial⟩
      by_cases hopen : s.isOpen = true
      · rw [if_pos hopen]
        rfl
      · rw [if_neg hopen]
        exact (hclosed (by simpa using hopen)).1
    · simp only [if_neg hconnects] at hok
      exact absurd hok (by simp)

theorem connect_open {connects : Bool} (hok : (s.connect connects).1 = none) :
    (s.connect connects).2.isOpen = true := by
  unfold connect at hok ⊢
  by_cases hkeep : (s.isOpen && !s.streamDirty) = true
  · rw [if_pos hkeep]
    simp only [Bool.and_eq_true, Bool.not_eq_true'] at hkeep
    exact hkeep.1
  · rw [if_neg hkeep] at hok ⊢
    by_cases hconnects : connects = true
    · simp only [if_pos hconnects]
    · simp only [if_neg hconnects] at hok
      exact absurd hok (by simp)

theorem closedEmpty_connect (hclosed : s.ClosedEmpty) (connects : Bool) :
    (s.connect connects).2.ClosedEmpty := by
  unfold connect
  by_cases hkeep : (s.isOpen && !s.streamDirty) = true
  · rw [if_pos hkeep]
    exact hclosed
  · rw [if_neg hkeep]
    by_cases hconnects : connects = true
    · simp only [if_pos hconnects]
      exact fun h => absurd h (by simp)
    · simp only [if_neg hconnects]
      by_cases hopen : s.isOpen = true
      · rw [if_pos hopen]
        exact closedEmpty_close s
      · rw [if_neg hopen]
        exact hclosed

theorem mem_replyBytes {line : Nat} {text : List UInt8} {b : ReplyByte}
    (h : b ∈ replyBytes line text) : b.line = line := by
  obtain ⟨byte, -, rfl⟩ := List.mem_map.1 h
  rfl

/-- Behind the line end of an answer there is nothing. -/
theorem replyBytes_split {line : Nat} {text : { text : List UInt8 // 0x0A ∉ text }}
    {raw rest : List ReplyByte} {stop : ReplyByte}
    (hsplit : [] ++ replyBytes line text.1 = raw ++ stop :: rest) (hstop : stop.byte = 0x0A) :
    rest = [] := by
  unfold replyBytes at hsplit
  rw [List.nil_append, List.map_append, List.map_singleton] at hsplit
  rcases List.eq_nil_or_concat rest with hnil | ⟨front, last, hlast⟩
  · exact hnil
  · -- otherwise the stop byte lies in the text
    rw [hlast, List.concat_eq_append, ← List.cons_append, ← List.append_assoc] at hsplit
    have hfront := (List.append_inj' hsplit rfl).1
    have hmem : stop ∈ text.1.map fun byte => (⟨line, byte⟩ : ReplyByte) := by
      rw [hfront]
      simp
    obtain ⟨byte, hbyte, rfl⟩ := List.mem_map.1 hmem
    have hstop' : byte = 0x0A := hstop
    rw [hstop'] at hbyte
    exact absurd hbyte text.2

/-- A value that is returned is a line that was read. -/
theorem outcome_value {kind : CallKind} {line : Except CallError (List ReplyByte)}
    {value : List ReplyByte} (h : outcome judge kind line = .ok (some value)) :
    line = .ok value ∧ kind ≠ .bareCommand false := by
  unfold outcome at h
  split at h
  · simp at h
  · simp at h
  · simp at h
  · simp at h
  · simp at h
  · split at h
    · rename_i hkind _ _
      have hvalue := Option.some.inj (Except.ok.inj h)
      refine ⟨by rw [hvalue], fun heq => ?_⟩
      subst heq
      simp_all
    · simp at h

theorem sendLine_isOpen (answers : AttemptAnswers) (s : SysAgentClient) :
    (s.sendLine answers).2.isOpen = s.isOpen := by
  unfold sendLine
  simp only
  split <;> rfl

/-- A line that was sent adds its answer to the stream and nothing else. -/
theorem sendLine_ok {answers : AttemptAnswers} (hok : (s.sendLine answers).1 = none) :
    (s.sendLine answers).2.buffer = s.buffer ∧
      (s.sendLine answers).2.stream = s.stream ++ replyBytes s.nextLine answers.reply.1 := by
  unfold sendLine at hok ⊢
  simp only at hok ⊢
  split at hok
  · exact ⟨rfl, rfl⟩
  · exact absurd hok (by simp)
  · exact absurd hok (by simp)

theorem closedEmpty_attempt (hclosed : s.ClosedEmpty) (kind : CallKind)
    (answers : AttemptAnswers) : (attempt judge kind answers s).2.2.ClosedEmpty := by
  unfold attempt
  cases hconnect : (s.connect answers.connects).1 with
  | some error =>
    simp only [hconnect]
    exact closedEmpty_connect hclosed answers.connects
  | none =>
    have hsent := sendLine_isOpen answers (s.connect answers.connects).2
    rw [connect_open hconnect] at hsent
    simp only [hconnect]
    cases hsend : ((s.connect answers.connects).2.sendLine answers).1 with
    | some error =>
      intro hclosed'
      simp only [hsent] at hclosed'
      exact absurd hclosed' (by decide)
    | none =>
      intro hclosed'
      simp only [hsent] at hclosed'
      exact absurd hclosed' (by decide)

theorem attempt_lines (kind : CallKind) (answers : AttemptAnswers) (s : SysAgentClient) :
    (attempt judge kind answers s).2.1.length ≤ 1 := by
  unfold attempt
  cases hconnect : (s.connect answers.connects).1 with
  | some error =>
    simp only [hconnect]
    exact Nat.zero_le _
  | none =>
    simp only [hconnect]
    cases ((s.connect answers.connects).2.sendLine answers).1 <;> exact le_rfl

/-- An attempt that starts on an aligned connection and returns a value: the whole answer to its
    own line has been read, and nothing else. -/
theorem attempt_value (halign : s.Aligned) (hclosed : s.ClosedEmpty) {kind : CallKind}
    {answers : AttemptAnswers} {value : List ReplyByte}
    (h : (attempt judge kind answers s).1 = .ok (some value)) :
    (∀ b ∈ value, b.line ∈ (attempt judge kind answers s).2.1) ∧
      (attempt judge kind answers s).2.2.buffer = [] ∧
      (attempt judge kind answers s).2.2.stream = [] := by
  unfold attempt at h ⊢
  cases hconnect : (s.connect answers.connects).1 with
  | some error =>
    simp only [hconnect] at h
    exact absurd h (by simp)
  | none =>
    obtain ⟨-, hbuffer, hstream⟩ := connect_empty halign hclosed hconnect
    simp only [hconnect] at h ⊢
    cases hsend : ((s.connect answers.connects).2.sendLine answers).1 with
    | some error =>
      simp only [hsend] at h
      exact absurd h (by simp)
    | none =>
      obtain ⟨hbuffer', hstream'⟩ := sendLine_ok hsend
      rw [hbuffer] at hbuffer'
      rw [hstream, List.nil_append] at hstream'
      simp only [hsend, hbuffer', hstream'] at h ⊢
      obtain ⟨hline, -⟩ := outcome_value judge h
      constructor
      · intro b hb
        have hmem := readline_mem hline b hb
        rw [List.nil_append] at hmem
        rw [mem_replyBytes hmem]
        exact List.mem_singleton_self _
      · -- the answer holds one line end, its last byte
        obtain ⟨raw, stop, -, hstop, hclean, hsplit⟩ := readline_split hline
        have hrest := replyBytes_split hsplit hstop
        exact List.append_eq_nil_iff.1 hrest

/-- The attempts of a call, by induction over those that are left. Every further attempt starts on
    a connection of its own. -/
theorem retryable_value (halign : s.Aligned) (hclosed : s.ClosedEmpty) {kind : CallKind}
    {answers : Nat → AttemptAnswers} {further index : Nat} {lines : List Nat}
    {value : List ReplyByte}
    (h : (retryable judge kind answers further index lines s).1 = .ok (some value)) :
    (∀ b ∈ value, b.line ∈ (retryable judge kind answers further index lines s).2.1) ∧
      (retryable judge kind answers further index lines s).2.2.buffer = [] ∧
      (retryable judge kind answers further index lines s).2.2.stream = [] := by
  induction further generalizing index lines s with
  | zero =>
    obtain ⟨hlines, hrest⟩ := attempt_value judge halign hclosed h
    exact ⟨fun b hb => List.mem_append_right _ (hlines b hb), hrest⟩
  | succ further ih =>
    unfold retryable at h ⊢
    cases htried : (attempt judge kind (answers index) s).1 with
    | ok value' =>
      simp only [htried] at h ⊢
      have hvalue : value' = some value := Except.ok.inj h
      obtain ⟨hlines, hrest⟩ := attempt_value judge halign hclosed (htried.trans (by rw [hvalue]))
      exact ⟨fun b hb => List.mem_append_right _ (hlines b hb), hrest⟩
    | error error =>
      have hnext := aligned_close (attempt judge kind (answers index) s).2.2
      have hempty := closedEmpty_close (attempt judge kind (answers index) s).2.2
      cases error with
      | other =>
        simp only [htried] at h
        exact absurd h (by simp)
      | timeout =>
        simp only [htried] at h ⊢
        exact ih hnext hempty h
      | osError =>
        simp only [htried] at h ⊢
        exact ih hnext hempty h
      | protocol =>
        simp only [htried] at h ⊢
        exact ih hnext hempty h

theorem closedEmpty_retryable (hclosed : s.ClosedEmpty) (kind : CallKind)
    (answers : Nat → AttemptAnswers) (further index : Nat) (lines : List Nat) :
    (retryable judge kind answers further index lines s).2.2.ClosedEmpty := by
  induction further generalizing index lines s with
  | zero => exact closedEmpty_attempt judge hclosed kind (answers index)
  | succ further ih =>
    have hone := closedEmpty_attempt judge hclosed kind (answers index)
    have hempty := closedEmpty_close (attempt judge kind (answers index) s).2.2
    unfold retryable
    simp only
    split
    · exact hone
    · exact hone
    · exact ih hempty _ _

/-- A call on an aligned client adds a record that is built from its own lines. -/
theorem ownReply_call (halign : s.Aligned) (hclosed : s.ClosedEmpty) (retries : Nat)
    (kind : CallKind) (retry : Bool) (answers : Nat → AttemptAnswers) :
    ∃ record, (s.call judge retries kind retry answers).records = s.records ++ [record] ∧
      OwnReply record := by
  refine ⟨_, rfl, ?_, ?_⟩
  · intro value hvalue
    simp only at hvalue
    split at hvalue
    · rename_i value' hok
      rw [hvalue] at hok
      exact (retryable_value judge halign hclosed hok).1
    · exact absurd hvalue (by simp)
  · intro honce
    simp only [Bool.not_eq_true'] at honce
    simp only [honce, Bool.false_eq_true, if_false]
    exact attempt_lines judge kind (answers 0) s

structure StreamInv (s : SysAgentClient) : Prop where
  closed : s.ClosedEmpty
  belong : s.RepliesBelong

theorem streamInv_step {retries : Nat} (s : SysAgentClient) (event : ClientEvent)
    (inv : StreamInv s) (halign : s.StartsAligned event) :
    StreamInv (s.step judge retries event) := by
  cases event with
  | close => exact ⟨closedEmpty_close s, inv.belong⟩
  | call kind retry answers =>
    obtain ⟨record, hrecords, hown⟩ := ownReply_call judge halign inv.closed retries kind retry
      answers
    constructor
    · exact closedEmpty_retryable judge inv.closed kind answers _ 0 []
    · intro record' hmem
      change record' ∈ (s.call judge retries kind retry answers).records at hmem
      rw [hrecords] at hmem
      rcases List.mem_append.1 hmem with hmem | hmem
      · exact inv.belong record' hmem
      · rw [List.mem_singleton.1 hmem]
        exact hown

end SysAgentClient

/-! ## Replies belong to their calls -/

/-- In every run of calls in which no call starts on a kept connection with an unread answer, every
    value is built from answers to the lines of its own call, and a call that does not repeat its
    line sends it at most once. -/
theorem client_replies_belong (judge : CallKind → List ReplyByte → Option CallError)
    (retries : Nat) (events : List ClientEvent)
    (halign : Runs.EachStep (SysAgentClient.step judge retries) SysAgentClient.StartsAligned
      SysAgentClient.initial events) :
    Runs.Always (SysAgentClient.step judge retries) SysAgentClient.RepliesBelong
      SysAgentClient.initial events := by
  intro before hprefix
  have heach : Runs.EachStep (SysAgentClient.step judge retries) SysAgentClient.StartsAligned
      SysAgentClient.initial before := fun p a hp => halign p a (hp.trans hprefix)
  have hinitial : SysAgentClient.StreamInv SysAgentClient.initial :=
    ⟨fun _ => ⟨rfl, rfl⟩, by simp [SysAgentClient.RepliesBelong, SysAgentClient.initial]⟩
  exact (Runs.invariant_of_eachStep (SysAgentClient.streamInv_step judge) hinitial heach).belong

/-- An attempt that connects and sends, whose answer is one byte of text. -/
def answersOf (byte : { byte : UInt8 // 0x0A ∉ [byte] }) (recvs : List RecvAnswer) :
    AttemptAnswers :=
  { connects := true, send := .sent, recvs := recvs, reply := ⟨[byte.1], byte.2⟩ }

/-- Two commands that are answered. -/
theorem client_replies_belong_two :
    Runs.Always (SysAgentClient.step (fun _ _ => none) 2) SysAgentClient.RepliesBelong
      SysAgentClient.initial
      [.call .command false fun _ => answersOf ⟨0x41, by decide⟩ [.data 2],
        .call .rawCommand false fun _ => answersOf ⟨0x42, by decide⟩ [.data 1, .data 1]] := by
  apply client_replies_belong
  simp only [Runs.eachStep_cons]
  exact ⟨fun _ _ => ⟨rfl, rfl⟩, fun _ _ => ⟨by decide, by decide⟩, Runs.eachStep_nil⟩

/-- The first command runs into the time-out and its caller goes on; the second one returns the
    answer to the first. -/
theorem stale_reply_after_timeout :
    ¬ SysAgentClient.RepliesBelong (Runs.run (SysAgentClient.step (fun _ _ => none) 2)
      SysAgentClient.initial
      [.call .command false fun _ => answersOf ⟨0x41, by decide⟩ [.timeout],
        .call .command false fun _ => answersOf ⟨0x42, by decide⟩ [.data 2]]) := by
  intro hbelong
  have hmem : CallRecord.mk [1] true (some [⟨0, 0x41⟩]) ∈
      (Runs.run (SysAgentClient.step (fun _ _ => none) 2) SysAgentClient.initial
        [.call .command false fun _ => answersOf ⟨0x41, by decide⟩ [.timeout],
          .call .command false fun _ => answersOf ⟨0x42, by decide⟩ [.data 2]]).records := by
    simp [SysAgentClient.step, SysAgentClient.call, SysAgentClient.repeats,
      SysAgentClient.retryable, SysAgentClient.attempt, SysAgentClient.connect,
      SysAgentClient.initial, SysAgentClient.sendLine, SysAgentClient.replyBytes, answersOf,
      readline, SysAgentClient.outcome, rstripCR, RESPONSE_LIMIT]
  have hown := (hbelong _ hmem).1 _ rfl ⟨0, 0x41⟩ (by simp)
  exact absurd hown (by simp)

end SysAgent
