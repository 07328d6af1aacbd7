import Mathlib
import SysAgent.Lib.Runs

set_option autoImplicit false

/-! # Where replies go (`main.c`, `network_http.c`)

All `printf` output leaves through descriptor 1. `dispatchCommand` points it at the connection whose
line it runs and leaves it there; `sub_click` prints `done` through it whenever a sequence has
ended; `networkHttpSubmit` duplicates it, so that the request thread answers through a descriptor
of its own.

The model is the descriptor table of the process: an entry is the socket, that is the connection,
a descriptor refers to. Numbers are reused after `close`. Every command line gets a number in the
order of dispatch, `sent` lists the connections they came from, and `output` logs each line written
with the command that caused it and the connection it was written to. -/

namespace SysAgent

abbrev ConnId := Nat

def STDOUT_FILENO : Nat := 1

/-- What `argmain` does with a command line, as far as its output goes. -/
inductive ConsoleCommand
  /-- Any synchronous command, with the number of lines it prints. -/
  | plain (lines : Nat)
  | clickSeq (accepted : Bool)
  /-- `urlReq`, `networkPublicIp`; `dup` is the descriptor `dup(STDOUT_FILENO)` returns. -/
  | urlReq (validUrl : Bool) (dup : Option Nat)

inductive LineKind
  | answer
  | done
  | network
  deriving DecidableEq

structure OutputLine where
  kind : LineKind
  /-- The command that caused the line. -/
  command : Nat
  writtenTo : Option ConnId
  /-- The connection of the command dispatched last when the line was written. -/
  lastSender : Option ConnId
  deriving DecidableEq

inductive ClickPc
  | top
  | locked
  | print (command : Nat)
  | bottom

inductive HttpPc
  | wait
  | perform (clientFd command : Nat)
  | close (clientFd : Nat)
  | clear

structure HttpState where
  pending : Bool
  clientFd : Nat
  command : Nat

structure Console where
  fds : Nat → Option ConnId
  /-- The client descriptors in `pfds`. -/
  clients : List Nat
  nextConn : ConnId
  sent : List ConnId
  /-- The command whose sequence is in `currentClick`. -/
  currentClick : Option Nat
  clickPc : ClickPc
  httpState : HttpState
  httpPc : HttpPc
  output : List OutputLine

inductive ConsoleEvent
  /-- `accept` returns `fd`. -/
  | accept (fd : Nat)
  /-- The client of `fd` is gone, or sent an over-long line. -/
  | hangup (fd : Nat)
  /-- A whole line was read from `fd`. -/
  | command (fd : Nat) (c : ConsoleCommand)
  | sub_click
  | networkHttpWorker

namespace Console

def init : Console :=
  { fds := fun _ => none, clients := [], nextConn := 0, sent := [], currentClick := none,
    clickPc := .top, httpState := { pending := false, clientFd := 0, command := 0 },
    httpPc := .wait, output := [] }

/-- The connection whose command was dispatched last. -/
def lastSender (s : Console) : Option ConnId :=
  s.sent.getLast?

/-- Write one line through `fd`. -/
def write (s : Console) (kind : LineKind) (command fd : Nat) : Console :=
  { s with
    output := s.output ++ [{ kind := kind, command := command, writtenTo := s.fds fd,
                             lastSender := s.lastSender }] }

/-- The number of the command being dispatched. -/
def currentCommand (s : Console) : Nat :=
  s.sent.length - 1

/-- `printf` of a whole line while a command is dispatched. -/
def answer (s : Console) : Console :=
  s.write .answer s.currentCommand STDOUT_FILENO

/-- A descriptor number the kernel may hand out. -/
def FreeFd (s : Console) (fd : Nat) : Prop :=
  3 ≤ fd ∧ s.fds fd = none

instance (s : Console) (fd : Nat) : Decidable (s.FreeFd fd) :=
  inferInstanceAs (Decidable (_ ∧ _))

/-- `networkHttpSubmit` with the error lines of `submitNetworkRequest`. -/
def networkHttpSubmit (s : Console) (validUrl : Bool) (dup : Option Nat) : Console :=
  if !validUrl then s.answer
  else if s.httpState.pending then s.answer
  else
    match dup with
    | none => s.answer
    | some fd =>
      if s.FreeFd fd then
        { s with
          fds := Function.update s.fds fd (s.fds STDOUT_FILENO)
          httpState := { pending := true, clientFd := fd, command := s.currentCommand } }
      else s

def argmain (s : Console) : ConsoleCommand → Console
  | .plain lines => answer^[lines] s
  | .clickSeq accepted =>
    if accepted then { s.answer with currentClick := some s.currentCommand } else s.answer
  | .urlReq validUrl dup => s.networkHttpSubmit validUrl dup

/-- `dup2` first, then the command. -/
def dispatchCommand (s : Console) (clientFd : Nat) (conn : ConnId) (c : ConsoleCommand) : Console :=
  argmain
    { s with
      fds := Function.update s.fds STDOUT_FILENO (s.fds clientFd)
      sent := s.sent ++ [conn] } c

def clickStep (s : Console) : Console :=
  match s.clickPc with
  | .top => { s with clickPc := if s.currentClick.isSome then .locked else .bottom }
  | .locked =>
    match s.currentClick with
    | some command => { s with currentClick := none, clickPc := .print command }
    | none => { s with clickPc := .bottom }
  | .print command => { s.write .done command STDOUT_FILENO with clickPc := .bottom }
  | .bottom => { s with clickPc := .top }

def httpStep (s : Console) : Console :=
  match s.httpPc with
  | .wait =>
    if s.httpState.pending then
      { s with httpPc := .perform s.httpState.clientFd s.httpState.command }
    else s
  | .perform clientFd command => { s.write .network command clientFd with httpPc := .close clientFd }
  | .close clientFd => { s with fds := Function.update s.fds clientFd none, httpPc := .clear }
  | .clear => { s with httpState := { s.httpState with pending := false }, httpPc := .wait }

/-- One step of the process; an event that cannot happen changes nothing. -/
def step (s : Console) : ConsoleEvent → Console
  | .accept fd =>
    if s.FreeFd fd then
      { s with
        fds := Function.update s.fds fd (some s.nextConn)
        clients := fd :: s.clients
        nextConn := s.nextConn + 1 }
    else s
  | .hangup fd =>
    if fd ∈ s.clients then
      { s with fds := Function.update s.fds fd none, clients := s.clients.filter (· ≠ fd) }
    else s
  | .command fd c =>
    match s.fds fd with
    | some conn => if fd ∈ s.clients then s.dispatchCommand fd conn c else s
    | none => s
  | .sub_click => s.clickStep
  | .networkHttpWorker => s.httpStep

end Console

/-! ## Routing -/

namespace Console

/-- Where the line belongs: an answer goes to the sender of its command, `done` to the sender of
    the command dispatched last. -/
def Routed (sent : List ConnId) (l : OutputLine) : Prop :=
  match l.kind with
  | .answer | .network => ∃ conn, sent[l.command]? = some conn ∧ l.writtenTo = some conn
  | .done => l.writtenTo = l.lastSender

/-- The request thread's descriptor: not a client's, and open. -/
def Held (s : Console) (fd : Nat) : Prop :=
  3 ≤ fd ∧ fd ∉ s.clients ∧ s.fds fd ≠ none

/-- It refers to the connection that sent the request. -/
def HeldFor (s : Console) (fd command : Nat) : Prop :=
  s.Held fd ∧ s.fds fd = s.sent[command]?

/-- What the request thread relies on at each point of its loop. -/
def HttpInv (s : Console) : Prop :=
  match s.httpPc with
  | .wait => s.httpState.pending = true → s.HeldFor s.httpState.clientFd s.httpState.command
  | .perform clientFd command => s.httpState.pending = true ∧ s.HeldFor clientFd command
  | .close clientFd => s.httpState.pending = true ∧ s.Held clientFd
  | .clear => s.httpState.pending = true

structure Inv (s : Console) : Prop where
  stdout : s.fds STDOUT_FILENO = s.lastSender
  clients : ∀ fd ∈ s.clients, 3 ≤ fd ∧ s.fds fd ≠ none
  http : s.HttpInv
  routed : ∀ l ∈ s.output, Routed s.sent l

/-- A command number keeps its sender when more commands are dispatched. -/
theorem sender_append {sent : List ConnId} {command : Nat} {conn : ConnId}
    (h : sent[command]? = some conn) (more : List ConnId) :
    (sent ++ more)[command]? = some conn := by
  rw [List.getElem?_append_left (List.getElem?_eq_some_iff.1 h).1, h]

theorem Routed.append {sent : List ConnId} {l : OutputLine} (h : Routed sent l)
    (more : List ConnId) : Routed (sent ++ more) l := by
  unfold Routed at h ⊢
  split at h
  · obtain ⟨conn, hsent, hto⟩ := h
    exact ⟨conn, sender_append hsent more, hto⟩
  · obtain ⟨conn, hsent, hto⟩ := h
    exact ⟨conn, sender_append hsent more, hto⟩
  · exact h

theorem HeldFor.sender {s : Console} {fd command : Nat} (h : s.HeldFor fd command) :
    ∃ conn, s.sent[command]? = some conn ∧ s.fds fd = some conn := by
  obtain ⟨⟨-, -, hopen⟩, hsent⟩ := h
  obtain ⟨conn, hconn⟩ := Option.ne_none_iff_exists'.1 hopen
  exact ⟨conn, by rw [← hsent, hconn], hconn⟩

/-- The request thread's descriptor survives a change of the table elsewhere. -/
theorem Held.congr {s t : Console} {fd : Nat} (h : s.Held fd) (hfds : t.fds fd = s.fds fd)
    (hclients : fd ∉ t.clients) : t.Held fd :=
  ⟨h.1, hclients, by rw [hfds]; exact h.2.2⟩

theorem HeldFor.congr {s t : Console} {fd command : Nat} (h : s.HeldFor fd command)
    (hfds : t.fds fd = s.fds fd) (hclients : fd ∉ t.clients) {more : List ConnId}
    (hsent : t.sent = s.sent ++ more) : t.HeldFor fd command := by
  refine ⟨h.1.congr hfds hclients, ?_⟩
  obtain ⟨conn, hconn, hfd⟩ := h.sender
  rw [hfds, hsent, hfd, sender_append hconn more]

theorem HttpInv.congr {s t : Console} (h : s.HttpInv) (hpc : t.httpPc = s.httpPc)
    (hstate : t.httpState = s.httpState) {more : List ConnId} (hsent : t.sent = s.sent ++ more)
    (hfds : ∀ fd, s.Held fd → t.fds fd = s.fds fd) (hclients : ∀ fd, s.Held fd → fd ∉ t.clients) :
    t.HttpInv := by
  unfold HttpInv at h ⊢
  rw [hpc, hstate]
  cases hs : s.httpPc with
  | wait =>
    rw [hs] at h
    intro hpending
    have hheld := h hpending
    exact hheld.congr (hfds _ hheld.1) (hclients _ hheld.1) hsent
  | perform clientFd command =>
    rw [hs] at h
    exact ⟨h.1, h.2.congr (hfds _ h.2.1) (hclients _ h.2.1) hsent⟩
  | close clientFd =>
    rw [hs] at h
    exact ⟨h.1, h.2.congr (hfds _ h.2) (hclients _ h.2)⟩
  | clear =>
    rw [hs] at h
    exact h

/-- Writing a routed line keeps the invariant: the log is all that changes. -/
theorem inv_write {s : Console} (h : Inv s) (kind : LineKind) (command fd : Nat)
    (hline : Routed s.sent { kind := kind, command := command, writtenTo := s.fds fd,
                             lastSender := s.lastSender }) : Inv (s.write kind command fd) := by
  refine { stdout := h.stdout, clients := h.clients, http := h.http, routed := fun l hl => ?_ }
  rcases List.mem_append.1 hl with hl | hl
  · exact h.routed l hl
  · rw [List.mem_singleton.1 hl]
    exact hline

/-! ### Dispatching a command -/

/-- While a command of `conn` is dispatched, it is the last one and descriptor 1 is its own. -/
def Dispatching (s : Console) (conn : ConnId) : Prop :=
  s.sent[s.currentCommand]? = some conn ∧ s.fds STDOUT_FILENO = some conn

theorem inv_answer {s : Console} {conn : ConnId} (h : Inv s) (hd : s.Dispatching conn) :
    Inv s.answer ∧ s.answer.Dispatching conn :=
  ⟨inv_write h .answer _ _ ⟨conn, hd.1, hd.2⟩, hd⟩

theorem inv_answers {s : Console} {conn : ConnId} (lines : Nat) (h : Inv s)
    (hd : s.Dispatching conn) : Inv (answer^[lines] s) := by
  induction lines generalizing s with
  | zero => exact h
  | succ lines ih =>
    obtain ⟨h', hd'⟩ := inv_answer h hd
    exact ih h' hd'

theorem inv_networkHttpSubmit {s : Console} {conn : ConnId} (h : Inv s) (hd : s.Dispatching conn)
    (validUrl : Bool) (dup : Option Nat) : Inv (s.networkHttpSubmit validUrl dup) := by
  have hanswer := (inv_answer h hd).1
  unfold networkHttpSubmit
  split
  · exact hanswer
  split
  · exact hanswer
  rename_i hidle
  cases dup with
  | none => exact hanswer
  | some fd =>
    show Inv (if s.FreeFd fd then _ else s)
    split
    · rename_i hfree
      have hne : fd ≠ STDOUT_FILENO := by
        have := hfree.1
        simp only [STDOUT_FILENO]
        omega
      have hwait : s.httpPc = .wait := by
        have hhttp := h.http
        unfold HttpInv at hhttp
        cases hs : s.httpPc <;> simp_all
      refine { stdout := ?_, clients := fun c hc => ?_, http := ?_, routed := h.routed }
      · exact (Function.update_of_ne hne.symm _ _).trans h.stdout
      · obtain ⟨h3, hopen⟩ := h.clients c hc
        have hcfd : c ≠ fd := fun hcfd => hopen (hcfd ▸ hfree.2)
        exact ⟨h3, fun hnone => hopen ((Function.update_of_ne hcfd _ _).symm.trans hnone)⟩
      · show HttpInv _
        unfold HttpInv
        rw [hwait]
        intro _
        have hclient : fd ∉ s.clients := fun hmem => (h.clients fd hmem).2 hfree.2
        refine ⟨⟨hfree.1, hclient, ?_⟩, ?_⟩
        · simp [hd.2]
        · simp [hd.1, hd.2]
    · exact h

theorem inv_dispatchCommand {s : Console} (h : Inv s) {clientFd : Nat} {conn : ConnId}
    (hconn : s.fds clientFd = some conn) (c : ConsoleCommand) :
    Inv (s.dispatchCommand clientFd conn c) := by
  have hfds : ∀ fd, 3 ≤ fd →
      Function.update s.fds STDOUT_FILENO (s.fds clientFd) fd = s.fds fd := fun fd hfd => by
    refine Function.update_of_ne ?_ _ _
    simp only [STDOUT_FILENO]
    omega
  have h1 : Inv { s with
      fds := Function.update s.fds STDOUT_FILENO (s.fds clientFd), sent := s.sent ++ [conn] } := by
    refine { stdout := ?_, clients := fun fd hfd => ?_, http := ?_, routed := fun l hl => ?_ }
    · simp [lastSender, hconn]
    · obtain ⟨h3, hopen⟩ := h.clients fd hfd
      exact ⟨h3, fun hnone => hopen ((hfds fd h3).symm.trans hnone)⟩
    · exact h.http.congr rfl rfl rfl (fun fd hheld => hfds fd hheld.1) (fun _ hheld => hheld.2.1)
    · exact (h.routed l hl).append [conn]
  have hd1 : Dispatching { s with
      fds := Function.update s.fds STDOUT_FILENO (s.fds clientFd), sent := s.sent ++ [conn] }
      conn := by
    simp [Dispatching, currentCommand, hconn]
  cases c with
  | plain lines => exact inv_answers lines h1 hd1
  | clickSeq accepted =>
    have hanswer := (inv_answer h1 hd1).1
    cases accepted with
    | true =>
      exact { stdout := hanswer.stdout, clients := hanswer.clients, http := hanswer.http,
              routed := hanswer.routed }
    | false => exact hanswer
  | urlReq validUrl dup => exact inv_networkHttpSubmit h1 hd1 validUrl dup

/-! ### The worker threads and the connection table -/

theorem inv_clickStep {s : Console} (h : Inv s) : Inv s.clickStep := by
  unfold clickStep
  split
  · exact { h with }
  · split <;> exact { h with }
  · have hwrite := inv_write h .done ‹_› STDOUT_FILENO h.stdout
    exact { hwrite with }
  · exact { h with }

theorem inv_httpStep {s : Console} (h : Inv s) : Inv s.httpStep := by
  have hhttp := h.http
  unfold HttpInv at hhttp
  unfold httpStep
  cases hs : s.httpPc with
  | wait =>
    rw [hs] at hhttp
    show Inv (if s.httpState.pending then _ else s)
    split
    · rename_i hpending
      exact { h with http := ⟨hpending, hhttp hpending⟩ }
    · exact h
  | perform clientFd command =>
    rw [hs] at hhttp
    obtain ⟨hpending, hheld⟩ := hhttp
    obtain ⟨conn, hsent, hto⟩ := hheld.sender
    have hwrite := inv_write h .network command clientFd ⟨conn, hsent, hto⟩
    exact { hwrite with http := ⟨hpending, hheld.1⟩ }
  | close clientFd =>
    rw [hs] at hhttp
    obtain ⟨hpending, h3, hclient, -⟩ := hhttp
    refine { stdout := ?_, clients := fun fd hfd => ?_, http := hpending, routed := h.routed }
    · exact (Function.update_of_ne (by simp only [STDOUT_FILENO]; omega) _ _).trans h.stdout
    · obtain ⟨hfd3, hopen⟩ := h.clients fd hfd
      have hne : fd ≠ clientFd := fun heq => hclient (heq ▸ hfd)
      exact ⟨hfd3, fun hnone => hopen ((Function.update_of_ne hne _ _).symm.trans hnone)⟩
  | clear =>
    exact { h with http := fun hpending => by simp at hpending }

theorem inv_step {s : Console} (h : Inv s) (e : ConsoleEvent) : Inv (s.step e) := by
  cases e with
  | accept fd =>
    show Inv (if s.FreeFd fd then _ else s)
    split
    · rename_i hfree
      refine { stdout := ?_, clients := fun c hc => ?_, http := ?_, routed := h.routed }
      · have hne : STDOUT_FILENO ≠ fd := by
          have := hfree.1
          simp only [STDOUT_FILENO]
          omega
        exact (Function.update_of_ne hne _ _).trans h.stdout
      · rcases List.mem_cons.1 hc with rfl | hc
        · exact ⟨hfree.1, by simp⟩
        · obtain ⟨h3, hopen⟩ := h.clients c hc
          have hcfd : c ≠ fd := fun hcfd => hopen (hcfd ▸ hfree.2)
          exact ⟨h3, fun hnone => hopen ((Function.update_of_ne hcfd _ _).symm.trans hnone)⟩
      · have hne : ∀ held, s.Held held → held ≠ fd := fun held hheld hfd =>
          hheld.2.2 (hfd ▸ hfree.2)
        refine h.http.congr rfl rfl (List.append_nil _).symm (fun held hheld => ?_)
          (fun held hheld => ?_)
        · exact Function.update_of_ne (hne held hheld) _ _
        · rw [List.mem_cons, not_or]
          exact ⟨hne held hheld, hheld.2.1⟩
    · exact h
  | hangup fd =>
    show Inv (if fd ∈ s.clients then _ else s)
    split
    · rename_i hfd
      have h3 := (h.clients fd hfd).1
      refine { stdout := ?_, clients := fun c hc => ?_, http := ?_, routed := h.routed }
      · exact (Function.update_of_ne (by simp only [STDOUT_FILENO]; omega) _ _).trans h.stdout
      · obtain ⟨hc, hcfd⟩ := List.mem_filter.1 hc
        obtain ⟨hc3, hopen⟩ := h.clients c hc
        have hne : c ≠ fd := by simpa using hcfd
        exact ⟨hc3, fun hnone => hopen ((Function.update_of_ne hne _ _).symm.trans hnone)⟩
      · refine h.http.congr rfl rfl (List.append_nil _).symm (fun held hheld => ?_)
          (fun held hheld hmem => hheld.2.1 (List.mem_filter.1 hmem).1)
        have hne : held ≠ fd := by
          rintro rfl
          exact hheld.2.1 hfd
        exact Function.update_of_ne hne _ _
    · exact h
  | command fd c =>
    cases hconn : s.fds fd with
    | none => simpa only [step, hconn] using h
    | some conn =>
      simp only [step, hconn]
      split
      · exact inv_dispatchCommand h hconn c
      · exact h
  | sub_click => exact inv_clickStep h
  | networkHttpWorker => exact inv_httpStep h

theorem inv_init : Inv init :=
  { stdout := rfl, clients := fun _ h => absurd h List.not_mem_nil,
    http := fun h => absurd h (by decide), routed := fun _ h => absurd h List.not_mem_nil }

end Console

/-- In every run, answers and network answers go to the connection that sent their command, and
    `done` goes to the connection of the command dispatched last. -/
theorem replies_routed (events : List ConsoleEvent) :
    Runs.Always Console.step (fun s => ∀ l ∈ s.output, Console.Routed s.sent l) Console.init
      events := by
  intro p _
  have hstep : ∀ s e, Console.Inv s → Console.Inv (Console.step s e) :=
    fun _ e h => Console.inv_step h e
  exact (Runs.invariant_run hstep p Console.inv_init).routed

/-! ## `done` at the sender -/

namespace Console

/-- The line went to the connection that sent its command. -/
def ReachesSender (sent : List ConnId) (l : OutputLine) : Prop :=
  ∃ conn, sent[l.command]? = some conn ∧ l.writtenTo = some conn

/-- The sequence of the command is accepted and its `done` not printed yet. -/
def Awaits (s : Console) (command : Nat) : Prop :=
  s.currentClick = some command ∨ s.clickPc = .print command

/-- When `sub_click` prints `done`, the command dispatched last came from the connection that sent
    the sequence. -/
def DoneAtHome (s : Console) (e : ConsoleEvent) : Prop :=
  e = .sub_click → ∀ command, s.clickPc = .print command → s.sent[command]? = s.lastSender

/-- While a `done` is outstanding, no other connection's command is dispatched. -/
def Undisturbed (s : Console) (e : ConsoleEvent) : Prop :=
  ∀ fd c, e = .command fd c → fd ∈ s.clients →
    ∀ command, s.Awaits command → s.fds fd = s.sent[command]?

/-! ### What a step adds -/

/-- `t` is `s` with other lines than `done` in the log and, at most, the command under way as the
    new sequence. -/
structure Answered (s t : Console) : Prop where
  sent : t.sent = s.sent
  clickPc : t.clickPc = s.clickPc
  currentClick : t.currentClick = s.currentClick ∨ t.currentClick = some s.currentCommand
  output : ∀ l ∈ t.output, l.kind = .done → l ∈ s.output

theorem answered_answer (s : Console) : Answered s s.answer := by
  refine ⟨rfl, rfl, .inl rfl, fun l hl hdone => ?_⟩
  rcases List.mem_append.1 hl with hl | hl
  · exact hl
  · rw [List.mem_singleton.1 hl] at hdone
    cases hdone

theorem answered_answers (lines : Nat) (s : Console) : Answered s (answer^[lines] s) := by
  induction lines generalizing s with
  | zero => exact ⟨rfl, rfl, .inl rfl, fun _ hl _ => hl⟩
  | succ lines ih =>
    have hrest := ih s.answer
    exact ⟨hrest.sent, hrest.clickPc, hrest.currentClick,
      fun l hl hdone => (answered_answer s).output l (hrest.output l hl hdone) hdone⟩

theorem answered_networkHttpSubmit (s : Console) (validUrl : Bool) (dup : Option Nat) :
    Answered s (s.networkHttpSubmit validUrl dup) := by
  unfold networkHttpSubmit
  split
  · exact answered_answer s
  split
  · exact answered_answer s
  cases dup with
  | none => exact answered_answer s
  | some fd =>
    simp only
    split
    · exact ⟨rfl, rfl, .inl rfl, fun _ hl _ => hl⟩
    · exact ⟨rfl, rfl, .inl rfl, fun _ hl _ => hl⟩

theorem answered_argmain (s : Console) (c : ConsoleCommand) : Answered s (s.argmain c) := by
  cases c with
  | plain lines => exact answered_answers lines s
  | clickSeq accepted =>
    cases accepted with
    | true => exact ⟨rfl, rfl, .inr rfl, (answered_answer s).output⟩
    | false => exact answered_answer s
  | urlReq validUrl dup => exact answered_networkHttpSubmit s validUrl dup

/-- The senders a step notes: that of the command it dispatches. -/
def newSender (s : Console) : ConsoleEvent → List ConnId
  | .command fd _ => if fd ∈ s.clients then (s.fds fd).toList else []
  | _ => []

/-- What one step adds to the senders, to the outstanding sequences and to the `done` lines. -/
structure Adds (s : Console) (e : ConsoleEvent) (t : Console) : Prop where
  sent : t.sent = s.sent ++ s.newSender e
  awaits : ∀ command, t.Awaits command →
    s.Awaits command ∨ command = s.sent.length ∧ s.newSender e ≠ []
  done : ∀ l ∈ t.output, l.kind = .done →
    l ∈ s.output ∨ e = .sub_click ∧ s.clickPc = .print l.command ∧ l.writtenTo = s.fds STDOUT_FILENO

/-- A step that leaves all three alone. -/
theorem Adds.still {s t : Console} {e : ConsoleEvent} (hsender : s.newSender e = [])
    (hsent : t.sent = s.sent) (hpc : t.clickPc = s.clickPc)
    (hclick : t.currentClick = s.currentClick)
    (houtput : ∀ l ∈ t.output, l.kind = .done → l ∈ s.output) : Adds s e t := by
  refine ⟨by rw [hsent, hsender, List.append_nil], fun command h => .inl ?_,
    fun l hl hdone => .inl (houtput l hl hdone)⟩
  unfold Awaits at h ⊢
  rwa [hpc, hclick] at h

theorem adds_dispatchCommand {s : Console} {fd : Nat} {conn : ConnId} (c : ConsoleCommand)
    (hfd : fd ∈ s.clients) (hconn : s.fds fd = some conn) :
    Adds s (.command fd c) (s.dispatchCommand fd conn c) := by
  have hsender : s.newSender (.command fd c) = [conn] := by
    simp only [newSender, if_pos hfd, hconn, Option.toList_some]
  have hanswered := answered_argmain
    { s with fds := Function.update s.fds STDOUT_FILENO (s.fds fd), sent := s.sent ++ [conn] } c
  have hcurrent : currentCommand
      { s with fds := Function.update s.fds STDOUT_FILENO (s.fds fd), sent := s.sent ++ [conn] } =
      s.sent.length := by
    simp [currentCommand]
  refine ⟨hanswered.sent.trans (by rw [hsender]), fun command h => ?_,
    fun l hl hdone => .inl (hanswered.output l hl hdone)⟩
  rcases h with h | h
  · rcases hanswered.currentClick with hclick | hclick
    · exact .inl (.inl (hclick.symm.trans h))
    · rw [hcurrent] at hclick
      exact .inr ⟨(Option.some.inj (hclick.symm.trans h)).symm, by simp [hsender]⟩
  · exact .inl (.inr (hanswered.clickPc.symm.trans h))

theorem adds_clickStep (s : Console) : Adds s .sub_click s.clickStep := by
  unfold clickStep
  cases hpc : s.clickPc with
  | top =>
    refine ⟨(List.append_nil _).symm, fun command h => .inl ?_, fun l hl _ => .inl hl⟩
    rcases h with h | h
    · exact .inl h
    · simp only at h
      split at h <;> cases h
  | locked =>
    cases hclick : s.currentClick with
    | some command =>
      refine ⟨(List.append_nil _).symm, fun k h => .inl ?_, fun l hl _ => .inl hl⟩
      rcases h with h | h
      · cases h
      · cases h
        exact .inl hclick
    | none =>
      refine ⟨(List.append_nil _).symm, fun k h => .inl ?_, fun l hl _ => .inl hl⟩
      rcases h with h | h
      · exact .inl (hclick.trans h)
      · cases h
  | print command =>
    refine ⟨(List.append_nil _).symm, fun k h => .inl ?_, fun l hl _ => ?_⟩
    · rcases h with h | h
      · exact .inl h
      · cases h
    · rcases List.mem_append.1 hl with hl | hl
      · exact .inl hl
      · rw [List.mem_singleton.1 hl]
        exact .inr ⟨rfl, hpc, rfl⟩
  | bottom =>
    refine ⟨(List.append_nil _).symm, fun k h => .inl ?_, fun l hl _ => .inl hl⟩
    rcases h with h | h
    · exact .inl h
    · cases h

theorem adds_httpStep (s : Console) : Adds s .networkHttpWorker s.httpStep := by
  unfold httpStep
  cases s.httpPc with
  | wait =>
    simp only
    split
    · exact .still rfl rfl rfl rfl fun _ hl _ => hl
    · exact .still rfl rfl rfl rfl fun _ hl _ => hl
  | perform clientFd command =>
    refine .still rfl rfl rfl rfl fun l hl hdone => ?_
    rcases List.mem_append.1 hl with hl | hl
    · exact hl
    · rw [List.mem_singleton.1 hl] at hdone
      cases hdone
  | close clientFd => exact .still rfl rfl rfl rfl fun _ hl _ => hl
  | clear => exact .still rfl rfl rfl rfl fun _ hl _ => hl

theorem adds_step (s : Console) (e : ConsoleEvent) : Adds s e (s.step e) := by
  cases e with
  | accept fd =>
    simp only [step]
    split
    · exact .still rfl rfl rfl rfl fun _ hl _ => hl
    · exact .still rfl rfl rfl rfl fun _ hl _ => hl
  | hangup fd =>
    simp only [step]
    split
    · exact .still rfl rfl rfl rfl fun _ hl _ => hl
    · exact .still rfl rfl rfl rfl fun _ hl _ => hl
  | command fd c =>
    cases hconn : s.fds fd with
    | none =>
      simp only [step, hconn]
      exact .still (by simp [newSender, hconn]) rfl rfl rfl fun _ hl _ => hl
    | some conn =>
      simp only [step, hconn]
      split
      · exact adds_dispatchCommand c ‹_› hconn
      · exact .still (by simp [newSender, *]) rfl rfl rfl fun _ hl _ => hl
  | sub_click => exact adds_clickStep s
  | networkHttpWorker => exact adds_httpStep s

/-! ### Runs -/

/-- Every line went home so far, and the outstanding sequences are commands that were sent. -/
structure AtHome (s : Console) : Prop where
  inv : Inv s
  known : ∀ command, s.Awaits command → command < s.sent.length
  home : ∀ l ∈ s.output, ReachesSender s.sent l

theorem atHome_init : AtHome init :=
  ⟨inv_init, fun _ h => h.elim (by rintro ⟨⟩) (by rintro ⟨⟩), fun _ h => absurd h List.not_mem_nil⟩

theorem known_step {s : Console} (h : ∀ command, s.Awaits command → command < s.sent.length)
    (e : ConsoleEvent) :
    ∀ command, (s.step e).Awaits command → command < (s.step e).sent.length := by
  intro command hawaits
  rw [(adds_step s e).sent, List.length_append]
  rcases (adds_step s e).awaits command hawaits with hold | ⟨rfl, hnew⟩
  · have := h command hold
    omega
  · have := List.length_pos_iff.2 hnew
    omega

theorem atHome_step {s : Console} (h : AtHome s) {e : ConsoleEvent} (hdone : DoneAtHome s e) :
    AtHome (s.step e) := by
  have hadds := adds_step s e
  refine ⟨inv_step h.inv e, known_step h.known e, fun l hl => ?_⟩
  have hrouted := (inv_step h.inv e).routed l hl
  unfold Console.Routed at hrouted
  split at hrouted
  · exact hrouted
  · exact hrouted
  · rename_i hkind
    rcases hadds.done l hl hkind with hold | ⟨rfl, hpc, hto⟩
    · obtain ⟨conn, hsent, hconn⟩ := h.home l hold
      exact ⟨conn, by rw [hadds.sent]; exact sender_append hsent _, hconn⟩
    · have hlt := h.known l.command (.inr hpc)
      have hsent := List.getElem?_eq_getElem hlt
      refine ⟨s.sent[l.command], by rw [hadds.sent]; exact sender_append hsent _, ?_⟩
      rw [hto, h.inv.stdout, ← hdone rfl l.command hpc, hsent]

/-- A `done` away from home is in the log of the next state. -/
theorem not_home_of_not_doneAtHome {s : Console} (h : AtHome s) {e : ConsoleEvent}
    (hdone : ¬ DoneAtHome s e) : ¬ ∀ l ∈ (s.step e).output, ReachesSender (s.step e).sent l := by
  simp only [DoneAtHome, not_forall] at hdone
  obtain ⟨rfl, command, hpc, haway⟩ := hdone
  have hstep : s.step .sub_click = { s.write .done command STDOUT_FILENO with clickPc := .bottom } := by
    simp only [step, clickStep, hpc]
  intro hhome
  rw [hstep] at hhome
  obtain ⟨conn, hsent, hto⟩ := hhome _ (List.mem_append_right _ (List.mem_singleton_self _))
  refine haway ?_
  rw [← h.inv.stdout]
  exact hsent.trans hto.symm

/-- While nothing disturbs, the sender of every outstanding sequence is the last one. -/
theorem lastSender_step {s : Console} (h : ∀ command, s.Awaits command → command < s.sent.length)
    (hlast : ∀ command, s.Awaits command → s.sent[command]? = s.lastSender) {e : ConsoleEvent}
    (hquiet : Undisturbed s e) :
    ∀ command, (s.step e).Awaits command → (s.step e).sent[command]? = (s.step e).lastSender := by
  intro command hawaits
  have hadds := adds_step s e
  unfold lastSender at hlast ⊢
  rw [hadds.sent]
  rcases hadds.awaits command hawaits with hold | ⟨rfl, hnew⟩
  · rw [List.getElem?_append_left (h command hold)]
    cases e with
    | command fd c =>
      by_cases hfd : fd ∈ s.clients
      · cases hconn : s.fds fd with
        | none => simpa [newSender, hfd, hconn] using hlast command hold
        | some conn =>
          simp [newSender, hfd, hconn, ← hquiet fd c rfl hfd command hold]
      · simpa [newSender, hfd] using hlast command hold
    | _ => simpa [newSender] using hlast command hold
  · cases e with
    | command fd c =>
      by_cases hfd : fd ∈ s.clients
      · cases hconn : s.fds fd with
        | none => simp [newSender, hfd, hconn] at hnew
        | some conn => simp [newSender, hfd, hconn]
      · simp [newSender, hfd] at hnew
    | _ => exact absurd rfl hnew

/-- Every outstanding sequence was sent, and by the sender of the last command. -/
structure LastSent (s : Console) : Prop where
  known : ∀ command, s.Awaits command → command < s.sent.length
  last : ∀ command, s.Awaits command → s.sent[command]? = s.lastSender

theorem doneAtHome_of_undisturbed {events : List ConsoleEvent}
    (h : Runs.EachStep step Undisturbed init events) :
    Runs.EachStep step DoneAtHome init events := by
  have hinit : LastSent init :=
    ⟨atHome_init.known, fun _ h => h.elim (by rintro ⟨⟩) (by rintro ⟨⟩)⟩
  refine Runs.eachStep_law ?_ ?_ hinit h
  · intro s e hs hquiet
    exact ⟨known_step hs.known e, lastSender_step hs.known hs.last hquiet⟩
  · intro s e hs _ _ command hpc
    exact hs.last command (.inr hpc)

end Console

/-- In a run, every line goes to the connection that sent its command iff each `done` is printed
    while the command dispatched last is one of its sender's; as it is when no other connection's
    command is dispatched before the `done`. -/
theorem replies_reach_sender_iff (events : List ConsoleEvent) :
    (Runs.Always Console.step (fun s => ∀ l ∈ s.output, Console.ReachesSender s.sent l)
        Console.init events ↔
      Runs.EachStep Console.step Console.DoneAtHome Console.init events) ∧
    (Runs.EachStep Console.step Console.Undisturbed Console.init events →
      Runs.Always Console.step (fun s => ∀ l ∈ s.output, Console.ReachesSender s.sent l)
        Console.init events) := by
  have hiff : Runs.Always Console.step (fun s => ∀ l ∈ s.output, Console.ReachesSender s.sent l)
      Console.init events ↔ Runs.EachStep Console.step Console.DoneAtHome Console.init events :=
    Runs.always_iff_eachStep_unbounded (fun _ _ h hdone => Console.atHome_step h hdone)
      (fun _ h => h.home) (fun _ _ h hdone => Console.not_home_of_not_doneAtHome h hdone)
      Console.atHome_init
  exact ⟨hiff, fun hquiet => hiff.2 (Console.doneAtHome_of_undisturbed hquiet)⟩

/-- Connection 0 clicks while connection 1 waits for its turn until the `done` is out. -/
theorem replies_reach_sender_in_turn :
    Runs.Always Console.step (fun s => ∀ l ∈ s.output, Console.ReachesSender s.sent l) Console.init
      [.accept 3, .accept 4, .command 3 (.clickSeq true), .sub_click, .command 3 (.plain 1),
        .sub_click, .sub_click, .command 4 (.plain 2)] := by
  refine (replies_reach_sender_iff _).2 ?_
  simp [Runs.eachStep_cons, Runs.eachStep_nil, Console.Undisturbed, Console.Awaits, Console.step,
    Console.init, Console.FreeFd, Console.dispatchCommand, Console.argmain, Console.answer,
    Console.write, Console.clickStep, Console.currentCommand, STDOUT_FILENO, Function.update]

/-- Connection 0 starts a sequence; connection 1 sends a command while it runs and gets the
    `done`. -/
theorem done_goes_to_the_other_connection :
    ∃ l ∈ (Runs.run Console.step Console.init
        [.accept 3, .accept 4, .command 3 (.clickSeq true), .sub_click, .sub_click,
          .command 4 (.plain 1), .sub_click]).output,
      l.kind = .done ∧ l.writtenTo = some 1 ∧
        (Runs.run Console.step Console.init
          [.accept 3, .accept 4, .command 3 (.clickSeq true), .sub_click, .sub_click,
            .command 4 (.plain 1), .sub_click]).sent[l.command]? = some 0 := by
  refine ⟨⟨.done, 0, some 1, some 1⟩, ?_, rfl, rfl, ?_⟩
  · decide
  · decide

end SysAgent
