import Mathlib
import SysAgent.Lib.Runs

set_option autoImplicit false

/-! # The connection loop (`main.c`)

The loop of `main` polls the table `pfds[0..fd_count)` and then visits its entries one by one. Each
label of a run is one poll or one visit, so that the table is looked at between any two visits.

A socket is a number that is never given out twice (a descriptor number can come back, but never
while the old one is in the table), and -1 is what `setupServerSocket` answers without the socket
service. The ghosts `accepted`, `closed` and `reported` record the client sockets, the close calls
and what the poll of the current round reported; `unreported` collects the sockets on which `recv` or
`accept` was called without such a report. -/

namespace SysAgent

def MAX_LINE_LENGTH : Nat := 344 * 32 * 2

/-- A `struct pollfd`, of its event masks the bit `POLLIN`. -/
structure PollFd where
  fd : Int
  events : Bool
  revents : Bool

inductive LoopPc
  | poll
  | visit (i : Nat)
  deriving DecidableEq

structure ConnectionLoop where
  pfds : Nat → PollFd
  fdCount : Nat
  fdSize : Nat
  listenfd : Int
  pc : LoopPc
  /-- The number of the next socket. -/
  next : Nat
  /-- The number of the next socket when the round began, and whether its poll failed. -/
  roundStart : Nat
  pollFailed : Bool
  reported : List Int
  accepted : List Int
  closed : List Int
  unreported : List Int
  dispatched : List (Int × List UInt8)

/-- What one visit meets: whether `accept` succeeds and a new listener can be made, what `realloc`
    leaves in fresh memory, and the bytes that arrive before `recv` answers 0 or less. -/
structure VisitAnswers where
  accepts : Bool
  listens : Bool
  fresh : Nat → PollFd
  incoming : List UInt8

inductive LoopEvent
  /-- The readable sockets, `none` when `poll` fails and writes nothing. -/
  | poll (readable : Option (Int → Bool))
  | visit (answers : VisitAnswers)

inductive RecvOutcome
  | line (bytes : List UInt8)
  | disconnected
  | tooLong

/-- The `while (!readEnd)` loop after `line` has been read. -/
def recvLine (line : List UInt8) : List UInt8 → RecvOutcome
  | [] => .disconnected
  | byte :: incoming =>
    if MAX_LINE_LENGTH ≤ line.length + 1 then .tooLong
    else if byte = 0x0A then .line line
    else recvLine (line ++ [byte]) incoming

namespace ConnectionLoop

def addToPfds (fresh : Nat → PollFd) (newfd : Int) (s : ConnectionLoop) : ConnectionLoop :=
  let s := if s.fdCount = s.fdSize then
      { s with
        fdSize := s.fdSize * 2
        pfds := fun j => if j < s.fdSize then s.pfds j else fresh j }
    else s
  { s with
    pfds := Function.update s.pfds s.fdCount
      { s.pfds s.fdCount with fd := newfd, events := true }
    fdCount := s.fdCount + 1 }

def delFromPfds (i : Nat) (s : ConnectionLoop) : ConnectionLoop :=
  { s with
    pfds := Function.update s.pfds i (s.pfds (s.fdCount - 1))
    fdCount := s.fdCount - 1 }

/-- `recv` or `accept` is called on `fd`. -/
def note (fd : Int) (s : ConnectionLoop) : ConnectionLoop :=
  if fd ∈ s.reported then s else { s with unreported := s.unreported ++ [fd] }

def closeClient (i : Nat) (s : ConnectionLoop) : ConnectionLoop :=
  { s with closed := s.closed ++ [(s.pfds i).fd] }.delFromPfds i

/-- The poll: the mask of every entry of the table is written, or none is. -/
def pollRound (readable : Option (Int → Bool)) (s : ConnectionLoop) : ConnectionLoop :=
  match readable with
  | none =>
    { s with pc := .visit 0, roundStart := s.next, pollFailed := true, reported := [] }
  | some readable =>
    { s with
      pfds := fun j =>
        if j < s.fdCount then
          { s.pfds j with
            revents := (s.pfds j).events && decide (0 ≤ (s.pfds j).fd) && readable (s.pfds j).fd }
        else s.pfds j
      pc := .visit 0
      roundStart := s.next
      pollFailed := false
      reported := ((List.range s.fdCount).filter fun j =>
        (s.pfds j).events && decide (0 ≤ (s.pfds j).fd) && readable (s.pfds j).fd).map
          fun j => (s.pfds j).fd }

/-- The entry of the listening socket is readable. -/
def visitListener (answers : VisitAnswers) (i : Nat) (s : ConnectionLoop) : ConnectionLoop :=
  if answers.accepts then
    { s with
      next := s.next + 1
      accepted := s.accepted ++ [(s.next : Int)]
      pc := .visit (i + 1) }.addToPfds answers.fresh s.next
  else
    let listenfd : Int := if answers.listens then s.next else -1
    { s with
      listenfd := listenfd
      next := s.next + 1
      pfds := Function.update s.pfds 0 { s.pfds 0 with fd := listenfd, events := true }
      pc := .poll }

/-- The entry of a client is readable. -/
def visitClient (answers : VisitAnswers) (i : Nat) (s : ConnectionLoop) : ConnectionLoop :=
  let after := { s with pc := .visit (i + 1) }
  match recvLine [] answers.incoming with
  | .line bytes => { after with dispatched := s.dispatched ++ [((s.pfds i).fd, bytes)] }
  | .disconnected => after.closeClient i
  | .tooLong => after.closeClient i

def step (s : ConnectionLoop) (event : LoopEvent) : ConnectionLoop :=
  match s.pc, event with
  | .poll, .poll readable => s.pollRound readable
  | .visit i, .visit answers =>
    if s.fdCount ≤ i then { s with pc := .poll }
    else if (s.pfds i).revents then
      if (s.pfds i).fd = s.listenfd then (s.note (s.pfds i).fd).visitListener answers i
      else (s.note (s.pfds i).fd).visitClient answers i
    else { s with pc := .visit (i + 1) }
  | _, _ => s

/-- Before the first poll, over a fresh `malloc` block; the listening socket is number 0. -/
def initial (memory : Nat → PollFd) : ConnectionLoop where
  pfds := Function.update memory 0 { memory 0 with fd := 0, events := true }
  fdCount := 1
  fdSize := 5
  listenfd := 0
  pc := .poll
  next := 1
  roundStart := 1
  pollFailed := false
  reported := []
  accepted := []
  closed := []
  unreported := []
  dispatched := []

/-- The descriptors of `pfds[0..fd_count)`. -/
def table (s : ConnectionLoop) : List Int := (List.range s.fdCount).map fun j => (s.pfds j).fd

/-- The table is the listening socket followed by the accepted sockets that are not closed, each
    once, no socket is closed twice, and no call has been made on a socket that the poll of its
    round had not reported. -/
structure TableGood (s : ConnectionLoop) : Prop where
  table : ∃ clients, s.table = s.listenfd :: clients ∧ (s.listenfd :: clients).Nodup ∧
    ∀ fd, fd ∈ clients ↔ fd ∈ s.accepted ∧ fd ∉ s.closed
  closedOnce : s.closed.Nodup ∧ ∀ fd ∈ s.closed, fd ∈ s.accepted
  calls : s.unreported = []

/-- The visited entry does not carry a stale mask: when its bit is set, the poll of this round has
    succeeded and the entry was in the table it polled. -/
def MaskFresh (s : ConnectionLoop) (event : LoopEvent) : Prop :=
  match s.pc, event with
  | .visit i, .visit _ =>
    i < s.fdCount → (s.pfds i).revents = true →
      s.pollFailed = false ∧ (s.pfds i).fd < s.roundStart
  | _, _ => True

/-! ## The invariant -/

structure LoopInv (s : ConnectionLoop) : Prop where
  count : 1 ≤ s.fdCount
  listener : (s.pfds 0).fd = s.listenfd
  listenerOld : s.listenfd < s.next
  distinct : ∀ j k, j < s.fdCount → k < s.fdCount → (s.pfds j).fd = (s.pfds k).fd → j = k
  clients : ∀ fd, (∃ j, 1 ≤ j ∧ j < s.fdCount ∧ (s.pfds j).fd = fd) ↔
    fd ∈ s.accepted ∧ fd ∉ s.closed
  acceptedOld : ∀ fd ∈ s.accepted, 0 ≤ fd ∧ fd < s.next
  closedOnce : s.closed.Nodup ∧ ∀ fd ∈ s.closed, fd ∈ s.accepted
  calls : s.unreported = []
  round : s.roundStart ≤ s.next
  reports : ∀ fd ∈ s.reported, s.pollFailed = false ∧ fd < s.roundStart
  masks : ∀ i, s.pc = .visit i → s.pollFailed = false → ∀ j, j < s.fdCount →
    (s.pfds j).revents = true → (s.pfds j).fd < s.roundStart → (s.pfds j).fd ∈ s.reported

namespace LoopInv

variable {s : ConnectionLoop}

theorem table_eq (inv : LoopInv s) :
    s.table = s.listenfd :: (List.range (s.fdCount - 1)).map fun j => (s.pfds (j + 1)).fd := by
  have hcount : s.fdCount = s.fdCount - 1 + 1 := by have h := inv.count; omega
  unfold table
  rw [hcount, List.range_succ_eq_map, List.map_cons, inv.listener, List.map_map]
  rfl

theorem good (inv : LoopInv s) : TableGood s where
  table := by
    refine ⟨_, inv.table_eq, ?_, fun fd => ?_⟩
    · rw [← inv.table_eq]
      unfold ConnectionLoop.table
      refine List.Nodup.map_on ?_ List.nodup_range
      intro j hj k hk heq
      exact inv.distinct j k (List.mem_range.1 hj) (List.mem_range.1 hk) heq
    · rw [← inv.clients]
      simp only [List.mem_map, List.mem_range]
      constructor
      · rintro ⟨j, hj, hfd⟩
        exact ⟨j + 1, by omega, by omega, hfd⟩
      · rintro ⟨j, hlow, hhigh, hfd⟩
        refine ⟨j - 1, by omega, ?_⟩
        rw [Nat.sub_add_cancel hlow]
        exact hfd
  closedOnce := inv.closedOnce
  calls := inv.calls

/-- Every descriptor of the table is older than the next one. -/
theorem old (inv : LoopInv s) {j : Nat} (hj : j < s.fdCount) : (s.pfds j).fd < s.next := by
  rcases Nat.eq_zero_or_pos j with rfl | hpos
  · rw [inv.listener]
    exact inv.listenerOld
  · exact (inv.acceptedOld _ ((inv.clients _).1 ⟨j, hpos, hj, rfl⟩).1).2

theorem initial (memory : Nat → PollFd) : LoopInv (initial memory) where
  count := le_rfl
  listener := by simp [ConnectionLoop.initial]
  listenerOld := by simp [ConnectionLoop.initial]
  distinct := by
    intro j k hj hk _
    simp only [ConnectionLoop.initial] at hj hk
    omega
  clients := by
    intro fd
    simp only [ConnectionLoop.initial, List.not_mem_nil, false_and, iff_false]
    rintro ⟨j, hlow, hhigh, -⟩
    omega
  acceptedOld := by simp [ConnectionLoop.initial]
  closedOnce := by simp [ConnectionLoop.initial]
  calls := rfl
  round := le_rfl
  reports := by simp [ConnectionLoop.initial]
  masks := by
    intro i hpc
    exact absurd hpc (by simp [ConnectionLoop.initial])

/-! ## What a step does to the invariant -/

theorem pollRound (inv : LoopInv s) (readable : Option (Int → Bool)) :
    LoopInv (s.pollRound readable) := by
  cases readable with
  | none =>
    exact
      { count := inv.count
        listener := inv.listener
        listenerOld := inv.listenerOld
        distinct := inv.distinct
        clients := inv.clients
        acceptedOld := inv.acceptedOld
        closedOnce := inv.closedOnce
        calls := inv.calls
        round := le_rfl
        reports := by simp [ConnectionLoop.pollRound]
        masks := fun _ _ hfailed => absurd hfailed (by simp [ConnectionLoop.pollRound]) }
  | some readable =>
    have hfd : ∀ j, ((s.pollRound (some readable)).pfds j).fd = (s.pfds j).fd := by
      intro j
      simp only [ConnectionLoop.pollRound]
      split_ifs <;> rfl
    exact
      { count := inv.count
        listener := by
          rw [hfd]
          exact inv.listener
        listenerOld := inv.listenerOld
        distinct := by
          intro j k hj hk
          rw [hfd, hfd]
          exact inv.distinct j k hj hk
        clients := by
          intro fd
          simp only [hfd]
          exact inv.clients fd
        acceptedOld := inv.acceptedOld
        closedOnce := inv.closedOnce
        calls := inv.calls
        round := le_rfl
        reports := by
          intro fd hmem
          obtain ⟨j, hj, rfl⟩ := List.mem_map.1 hmem
          exact ⟨rfl, inv.old (List.mem_range.1 (List.mem_filter.1 hj).1)⟩
        masks := by
          intro i _ _ j hj hset _
          rw [hfd]
          have hj' : j < s.fdCount := hj
          simp only [ConnectionLoop.pollRound, if_pos hj'] at hset
          exact List.mem_map.2 ⟨j, List.mem_filter.2 ⟨List.mem_range.2 hj', hset⟩, rfl⟩ }

/-- Moving on to the next entry, or to the next poll. -/
theorem withPc (inv : LoopInv s) (pc : LoopPc)
    (hround : ∀ i, pc = .visit i → ∃ k, s.pc = .visit k) : LoopInv { s with pc := pc } where
  count := inv.count
  listener := inv.listener
  listenerOld := inv.listenerOld
  distinct := inv.distinct
  clients := inv.clients
  acceptedOld := inv.acceptedOld
  closedOnce := inv.closedOnce
  calls := inv.calls
  round := inv.round
  reports := inv.reports
  masks := by
    intro i hpc
    obtain ⟨k, hk⟩ := hround i hpc
    exact inv.masks k hk

theorem note_of_reported {fd : Int} (h : fd ∈ s.reported) : s.note fd = s := by
  unfold ConnectionLoop.note
  rw [if_pos h]

theorem addToPfds_of_lt (s : ConnectionLoop) (fresh : Nat → PollFd) (newfd : Int) {j : Nat}
    (hj : j < s.fdCount) : (s.addToPfds fresh newfd).pfds j = s.pfds j := by
  unfold ConnectionLoop.addToPfds
  simp only
  split_ifs with hfull
  · rw [Function.update_of_ne (Nat.ne_of_lt hj)]
    exact if_pos (by omega)
  · rw [Function.update_of_ne (Nat.ne_of_lt hj)]

theorem addToPfds_new (s : ConnectionLoop) (fresh : Nat → PollFd) (newfd : Int) :
    ((s.addToPfds fresh newfd).pfds s.fdCount).fd = newfd := by
  unfold ConnectionLoop.addToPfds
  simp only
  split_ifs <;> simp

theorem addToPfds_rest (s : ConnectionLoop) (fresh : Nat → PollFd) (newfd : Int) :
    (s.addToPfds fresh newfd).fdCount = s.fdCount + 1 ∧
      (s.addToPfds fresh newfd).listenfd = s.listenfd ∧
      (s.addToPfds fresh newfd).pc = s.pc ∧
      (s.addToPfds fresh newfd).next = s.next ∧
      (s.addToPfds fresh newfd).roundStart = s.roundStart ∧
      (s.addToPfds fresh newfd).pollFailed = s.pollFailed ∧
      (s.addToPfds fresh newfd).reported = s.reported ∧
      (s.addToPfds fresh newfd).accepted = s.accepted ∧
      (s.addToPfds fresh newfd).closed = s.closed ∧
      (s.addToPfds fresh newfd).unreported = s.unreported := by
  unfold ConnectionLoop.addToPfds
  simp only
  split_ifs <;> simp

/-- A new entry at the end of the table. -/
theorem addToPfds (inv : LoopInv s) {i k : Nat} (hpc : s.pc = .visit k) (fresh : Nat → PollFd) :
    LoopInv ({ s with
      next := s.next + 1
      accepted := s.accepted ++ [(s.next : Int)]
      pc := .visit i }.addToPfds fresh s.next) := by
  let t : ConnectionLoop := { s with
    next := s.next + 1
    accepted := s.accepted ++ [(s.next : Int)]
    pc := .visit i }
  obtain ⟨hcount, hlisten, -, hnext, hstart, hfailed, hreported, haccepted, hclosed, hcalls⟩ :=
    addToPfds_rest t fresh s.next
  change (t.addToPfds fresh s.next).next = s.next + 1 at hnext
  have hsame : ∀ j, j < s.fdCount → (t.addToPfds fresh s.next).pfds j = s.pfds j :=
    fun j hj => addToPfds_of_lt t fresh s.next hj
  have hnew : ((t.addToPfds fresh s.next).pfds s.fdCount).fd = s.next :=
    addToPfds_new t fresh s.next
  -- the new socket is in no entry and has not been closed
  have hunused : ∀ j, j < s.fdCount → (s.pfds j).fd ≠ s.next :=
    fun j hj => ne_of_lt (inv.old hj)
  have hopen : (s.next : Int) ∉ s.closed := fun hmem =>
    absurd (inv.acceptedOld _ (inv.closedOnce.2 _ hmem)).2 (lt_irrefl _)
  have hfirst := inv.count
  change LoopInv (t.addToPfds fresh s.next)
  constructor
  · rw [hcount]
    exact Nat.le_succ_of_le inv.count
  · rw [hsame 0 (by omega), hlisten]
    exact inv.listener
  · rw [hlisten, hnext]
    have hold := inv.listenerOld
    push_cast
    exact lt_trans hold (lt_add_one _)
  · intro j l hj hl heq
    rw [hcount] at hj hl
    change j < s.fdCount + 1 at hj
    change l < s.fdCount + 1 at hl
    rcases Nat.lt_succ_iff_lt_or_eq.1 hj with hj | rfl <;>
      rcases Nat.lt_succ_iff_lt_or_eq.1 hl with hl | hl'
    · rw [hsame j hj, hsame l hl] at heq
      exact inv.distinct j l hj hl heq
    · rw [hl', hsame j hj, hnew] at heq
      exact absurd heq (hunused j hj)
    · rw [hsame l hl, hnew] at heq
      exact absurd heq.symm (hunused l hl)
    · exact hl'.symm
  · intro fd
    rw [hcount, haccepted, hclosed]
    change (∃ j, 1 ≤ j ∧ j < s.fdCount + 1 ∧ _) ↔ fd ∈ s.accepted ++ [(s.next : Int)] ∧
      fd ∉ s.closed
    rw [List.mem_append, List.mem_singleton]
    constructor
    · rintro ⟨j, hlow, hhigh, rfl⟩
      rcases Nat.lt_succ_iff_lt_or_eq.1 hhigh with hj | rfl
      · rw [hsame j hj]
        obtain ⟨hin, hout⟩ := (inv.clients _).1 ⟨j, hlow, hj, rfl⟩
        exact ⟨Or.inl hin, hout⟩
      · rw [hnew]
        exact ⟨Or.inr rfl, hopen⟩
    · rintro ⟨hin | rfl, hout⟩
      · obtain ⟨j, hlow, hhigh, hfd⟩ := (inv.clients fd).2 ⟨hin, hout⟩
        exact ⟨j, hlow, by omega, by rw [hsame j hhigh]; exact hfd⟩
      · exact ⟨s.fdCount, hfirst, by omega, hnew⟩
  · intro fd hmem
    rw [haccepted] at hmem
    rw [hnext]
    push_cast
    rcases List.mem_append.1 hmem with hmem | hmem
    · obtain ⟨hlow, hhigh⟩ := inv.acceptedOld fd hmem
      exact ⟨hlow, lt_trans hhigh (lt_add_one _)⟩
    · rw [List.mem_singleton.1 hmem]
      exact ⟨Int.natCast_nonneg _, lt_add_one _⟩
  · rw [haccepted, hclosed]
    exact ⟨inv.closedOnce.1, fun fd hfd => List.mem_append_left _ (inv.closedOnce.2 fd hfd)⟩
  · rw [hcalls]
    exact inv.calls
  · rw [hstart, hnext]
    exact Nat.le_succ_of_le inv.round
  · rw [hreported, hfailed, hstart]
    exact inv.reports
  · intro l _ hok j hj hset hold
    rw [hcount] at hj
    rw [hfailed] at hok
    rw [hstart] at hold
    rw [hreported]
    change j < s.fdCount + 1 at hj
    rcases Nat.lt_succ_iff_lt_or_eq.1 hj with hj | rfl
    · rw [hsame j hj] at hset hold ⊢
      exact inv.masks k hpc hok j hj hset hold
    · -- the new entry is newer than the round
      rw [hnew] at hold
      have hround := inv.round
      change (s.next : Int) < s.roundStart at hold
      omega

/-- The last entry takes the place of a closed client. -/
theorem closeClient (inv : LoopInv s) {i k : Nat} (hpc : s.pc = .visit i) (hi : i < s.fdCount)
    (hclient : (s.pfds i).fd ≠ s.listenfd) :
    LoopInv ({ s with pc := .visit k }.closeClient i) := by
  have hpos : 1 ≤ i := by
    rcases Nat.eq_zero_or_pos i with rfl | h
    · exact absurd inv.listener hclient
    · exact h
  have hin := (inv.clients _).1 ⟨i, hpos, hi, rfl⟩
  -- the entry that is now at `j` was at `source j`
  let source : Nat → Nat := fun j => if j = i then s.fdCount - 1 else j
  have hentry : ∀ j, ({ s with pc := .visit k }.closeClient i).pfds j = s.pfds (source j) := by
    intro j
    simp only [ConnectionLoop.closeClient, ConnectionLoop.delFromPfds, Function.update_apply,
      source]
    split_ifs <;> rfl
  have hsource : ∀ j, j < s.fdCount - 1 → source j < s.fdCount ∧ source j ≠ i := by
    intro j hj
    simp only [source]
    split_ifs with h
    · omega
    · exact ⟨by omega, h⟩
  have hinjective : ∀ j l, j < s.fdCount - 1 → l < s.fdCount - 1 → source j = source l →
      j = l := by
    intro j l hj hl heq
    simp only [source] at heq
    split_ifs at heq <;> omega
  constructor
  · change 1 ≤ s.fdCount - 1
    omega
  · rw [hentry]
    have hzero : source 0 = 0 := if_neg (by omega)
    rw [hzero]
    exact inv.listener
  · exact inv.listenerOld
  · intro j l hj hl heq
    rw [hentry, hentry] at heq
    exact hinjective j l hj hl
      (inv.distinct _ _ (hsource j hj).1 (hsource l hl).1 heq)
  · intro fd
    change (∃ j, 1 ≤ j ∧ j < s.fdCount - 1 ∧ _) ↔
      fd ∈ s.accepted ∧ fd ∉ s.closed ++ [(s.pfds i).fd]
    rw [List.mem_append, List.mem_singleton, not_or, ← and_assoc, ← inv.clients fd]
    constructor
    · rintro ⟨j, hlow, hhigh, rfl⟩
      rw [hentry]
      obtain ⟨hlt, hne⟩ := hsource j hhigh
      refine ⟨⟨source j, ?_, hlt, rfl⟩, fun heq => hne (inv.distinct _ _ hlt hi heq)⟩
      simp only [source]
      split_ifs
      · omega
      · exact hlow
    · rintro ⟨⟨j, hlow, hhigh, rfl⟩, hother⟩
      have hne : j ≠ i := fun heq => hother (by rw [heq])
      -- the last entry is found where the closed one was
      by_cases hlast : j = s.fdCount - 1
      · refine ⟨i, hpos, by omega, ?_⟩
        rw [hentry]
        simp only [source, if_pos, hlast]
      · refine ⟨j, hlow, by omega, ?_⟩
        rw [hentry]
        simp only [source, if_neg hne]
  · exact inv.acceptedOld
  · constructor
    · change (s.closed ++ [(s.pfds i).fd]).Nodup
      rw [List.nodup_append]
      refine ⟨inv.closedOnce.1, List.nodup_singleton _, ?_⟩
      intro fd hfd fd' hfd' heq
      rw [List.mem_singleton.1 hfd'] at heq
      exact hin.2 (heq ▸ hfd)
    · intro fd hfd
      rcases List.mem_append.1 hfd with hfd | hfd
      · exact inv.closedOnce.2 fd hfd
      · rw [List.mem_singleton.1 hfd]
        exact hin.1
  · exact inv.calls
  · exact inv.round
  · exact inv.reports
  · intro l _ hok j hj hset hold
    rw [hentry] at hset hold ⊢
    exact inv.masks i hpc hok (source j) (hsource j hj).1 hset hold

/-- The listening socket is replaced and the round ends. -/
theorem relisten (inv : LoopInv s) {listenfd : Int} (hnew : listenfd = s.next ∨ listenfd = -1) :
    LoopInv { s with
      listenfd := listenfd
      next := s.next + 1
      pfds := Function.update s.pfds 0 { s.pfds 0 with fd := listenfd, events := true }
      pc := .poll } := by
  have hsame : ∀ j, 1 ≤ j → (Function.update s.pfds 0
      { s.pfds 0 with fd := listenfd, events := true }) j = s.pfds j :=
    fun j hj => Function.update_of_ne (by omega) _ _
  -- neither the new socket nor the error value is the descriptor of a client
  have hother : ∀ j, 1 ≤ j → j < s.fdCount → (s.pfds j).fd ≠ listenfd := by
    intro j hlow hhigh heq
    have hclient := inv.acceptedOld _ ((inv.clients _).1 ⟨j, hlow, hhigh, rfl⟩).1
    rcases hnew with h | h <;> omega
  constructor
  · exact inv.count
  · simp
  · push_cast
    rcases hnew with h | h <;> simp only [h] <;> omega
  · intro j l hj hl heq
    dsimp only at hj hl heq
    rcases Nat.eq_zero_or_pos j with rfl | hjpos <;> rcases Nat.eq_zero_or_pos l with rfl | hlpos
    · rfl
    · rw [hsame l hlpos, Function.update_self] at heq
      exact absurd heq.symm (hother l hlpos hl)
    · rw [hsame j hjpos, Function.update_self] at heq
      exact absurd heq (hother j hjpos hj)
    · rw [hsame j hjpos, hsame l hlpos] at heq
      exact inv.distinct j l hj hl heq
  · intro fd
    rw [← inv.clients fd]
    constructor
    · rintro ⟨j, hlow, hhigh, hfd⟩
      exact ⟨j, hlow, hhigh, by rw [← hfd]; exact congrArg PollFd.fd (hsame j hlow).symm⟩
    · rintro ⟨j, hlow, hhigh, hfd⟩
      exact ⟨j, hlow, hhigh, by rw [← hfd]; exact congrArg PollFd.fd (hsame j hlow)⟩
  · intro fd hfd
    obtain ⟨hlow, hhigh⟩ := inv.acceptedOld fd hfd
    push_cast
    exact ⟨hlow, lt_trans hhigh (lt_add_one _)⟩
  · exact inv.closedOnce
  · exact inv.calls
  · exact Nat.le_succ_of_le inv.round
  · exact inv.reports
  · intro i hpc
    exact absurd hpc (by simp)

/-- A visit within the condition calls `recv` or `accept` on a reported socket only. -/
theorem visited_reported (inv : LoopInv s) {i : Nat} {answers : VisitAnswers}
    (hpc : s.pc = .visit i) (hi : i < s.fdCount) (hset : (s.pfds i).revents = true)
    (hfresh : s.MaskFresh (.visit answers)) : (s.pfds i).fd ∈ s.reported := by
  simp only [MaskFresh, hpc] at hfresh
  obtain ⟨hok, hold⟩ := hfresh hi hset
  exact inv.masks i hpc hok i hi hset hold

theorem step (s : ConnectionLoop) (event : LoopEvent) (inv : LoopInv s)
    (hfresh : s.MaskFresh event) : LoopInv (s.step event) := by
  rcases hpc : s.pc with _ | i <;> rcases event with readable | answers <;>
    simp only [ConnectionLoop.step, hpc]
  · exact inv.pollRound readable
  · exact inv
  · exact inv
  · by_cases hend : s.fdCount ≤ i
    · rw [if_pos hend]
      exact inv.withPc .poll fun _ h => absurd h (by simp)
    rw [if_neg hend]
    by_cases hset : (s.pfds i).revents = true
    · have hi : i < s.fdCount := by omega
      rw [if_pos hset, note_of_reported (inv.visited_reported hpc hi hset hfresh)]
      by_cases hlisten : (s.pfds i).fd = s.listenfd
      · rw [if_pos hlisten]
        unfold visitListener
        by_cases haccepts : answers.accepts = true
        · rw [if_pos haccepts]
          exact inv.addToPfds hpc answers.fresh
        · rw [if_neg haccepts]
          refine inv.relisten ?_
          split_ifs
          · exact Or.inl rfl
          · exact Or.inr rfl
      · rw [if_neg hlisten]
        unfold visitClient
        simp only
        cases recvLine [] answers.incoming with
        | line bytes =>
          have hmoved := inv.withPc (.visit (i + 1)) fun _ _ => ⟨i, hpc⟩
          exact { hmoved with }
        | disconnected => exact inv.closeClient hpc hi hlisten
        | tooLong => exact inv.closeClient hpc hi hlisten
    · rw [if_neg hset]
      exact inv.withPc (.visit (i + 1)) fun _ _ => ⟨i, hpc⟩

theorem unreported_visitListener (s : ConnectionLoop) (answers : VisitAnswers) (i : Nat) :
    (s.visitListener answers i).unreported = s.unreported := by
  unfold visitListener
  by_cases haccepts : answers.accepts = true
  · rw [if_pos haccepts]
    exact (addToPfds_rest _ _ _).2.2.2.2.2.2.2.2.2
  · rw [if_neg haccepts]

theorem unreported_visitClient (s : ConnectionLoop) (answers : VisitAnswers) (i : Nat) :
    (s.visitClient answers i).unreported = s.unreported := by
  unfold visitClient
  simp only
  cases recvLine [] answers.incoming <;> rfl

/-- A visit outside the condition calls `recv` or `accept` on a socket that was not reported. -/
theorem not_good_of_stale (s : ConnectionLoop) (event : LoopEvent) (inv : LoopInv s)
    (hstale : ¬ s.MaskFresh event) : ¬ TableGood (s.step event) := by
  intro hgood
  rcases hpc : s.pc with _ | i <;> rcases event with readable | answers <;>
    simp only [MaskFresh, hpc, not_true_eq_false, Classical.not_imp] at hstale
  obtain ⟨hi, hset, hnot⟩ := hstale
  have hunreported : (s.pfds i).fd ∉ s.reported := fun hmem => hnot (inv.reports _ hmem)
  have hnote : (s.note (s.pfds i).fd).unreported = s.unreported ++ [(s.pfds i).fd] := by
    unfold ConnectionLoop.note
    rw [if_neg hunreported]
  have hcalls := hgood.calls
  simp only [ConnectionLoop.step, hpc] at hcalls
  rw [if_neg (by omega), if_pos hset] at hcalls
  split_ifs at hcalls
  · rw [unreported_visitListener, hnote] at hcalls
    exact absurd hcalls (by simp)
  · rw [unreported_visitClient, hnote] at hcalls
    exact absurd hcalls (by simp)

end LoopInv

end ConnectionLoop

/-! ## The connection table -/

/-- Over arbitrary fresh memory, the table is right and every call is on a reported socket in
    every state of a run exactly when no visit of it meets a stale mask: the mask of a round whose
    poll failed, or of an entry added after the poll. -/
theorem connection_table_iff (memory : Nat → PollFd) (events : List LoopEvent) :
    Runs.Always ConnectionLoop.step ConnectionLoop.TableGood (ConnectionLoop.initial memory)
        events ↔
      Runs.EachStep ConnectionLoop.step ConnectionLoop.MaskFresh (ConnectionLoop.initial memory)
        events :=
  Runs.always_iff_eachStep_unbounded ConnectionLoop.LoopInv.step (fun _ inv => inv.good)
    ConnectionLoop.LoopInv.not_good_of_stale (ConnectionLoop.LoopInv.initial memory)

/-- One client joins and leaves. The next one is put where its entry was, with its mask, and
    `recv` is called on it in the round it is accepted in. -/
theorem silent_client_is_read :
    ¬ ConnectionLoop.TableGood (Runs.run ConnectionLoop.step
      (ConnectionLoop.initial fun _ => ⟨0, false, false⟩)
      [.poll (some fun fd => fd = 0), .visit ⟨true, true, fun _ => ⟨0, false, false⟩, []⟩,
        .visit ⟨true, true, fun _ => ⟨0, false, false⟩, []⟩,
        .visit ⟨true, true, fun _ => ⟨0, false, false⟩, []⟩,
        .poll (some fun fd => fd = 1), .visit ⟨true, true, fun _ => ⟨0, false, false⟩, []⟩,
        .visit ⟨true, true, fun _ => ⟨0, false, false⟩, []⟩,
        .visit ⟨true, true, fun _ => ⟨0, false, false⟩, []⟩,
        .poll (some fun fd => fd = 0), .visit ⟨true, true, fun _ => ⟨0, false, false⟩, []⟩,
        .visit ⟨true, true, fun _ => ⟨0, false, false⟩, []⟩]) := by
  intro hgood
  have hcalls := hgood.calls
  exact absurd hcalls (by decide)

end SysAgent
