import Mathlib
import SysAgent.Lib.Runs

set_option autoImplicit false

/-! # The three debug sessions (`debug_watch.c`, `debug_trace.c`, `debug_multitrace.c`)

Each module has a worker thread, a flag `active` that the worker clears shortly before it exits, and a flag
`threadStarted` that says that its `Thread` object is in use. A start looks at the flags of the two
other modules, one after the other and outside its own lock, and waits for an old worker of its own; a
stop waits for the worker. `debugProcessOpen` looks at all three flags before it attaches.

Starts, stops and the commands that attach run one at a time on the command thread, each a sequence of
critical sections and thread calls; the steps of the three workers come anywhere in between. A call on a
`Thread` object that is not in the right phase sets `misused`. -/

namespace SysAgent

inductive DebugModule
  | watch
  | trace
  | multitrace
  deriving DecidableEq

/-- The phase of a module's `Thread` object. A worker is `finishing` from the critical section in which
    it clears `active` until `threadExit`. -/
inductive ThreadPhase
  | unused
  | created
  | running
  | finishing
  | exited
  | waited
  deriving DecidableEq

structure SessionModule where
  threadStarted : Bool
  active : Bool
  stopRequested : Bool
  thread : ThreadPhase
  /-- The worker threads of the module that run. -/
  alive : Nat

/-- Where the command thread is. -/
inductive CommandPc
  | idle
  | startCheckFirst (m : DebugModule)
  | startCheckSecond (m : DebugModule)
  | startOwn (m : DebugModule)
  | startReapWait (m : DebugModule)
  | startReapClose (m : DebugModule)
  | startConfigure (m : DebugModule)
  | startCreate (m : DebugModule)
  | startCreateFailed (m : DebugModule)
  | startThread (m : DebugModule)
  | startThreadFailed (m : DebugModule)
  | startThreadClose (m : DebugModule)
  | stopWait (m : DebugModule)
  | stopClose (m : DebugModule)
  | stopFinish (m : DebugModule)
  | openCheckWatch
  | openCheckTrace
  | openCheckMultitrace
  | openAttach
  deriving DecidableEq

structure DebugSystem where
  module : DebugModule → SessionModule
  pc : CommandPc
  misused : Bool

/-- The commands of the command thread. `open` is a `debugProcessOpen`, as layout, maps, threads and read
    make it; `status` reads only. A start whose configuration is refused before anything else does
    nothing. -/
inductive DebugCommand
  | start (m : DebugModule) (refused : Bool)
  | stop (m : DebugModule)
  | status
  | open

inductive DebugStep
  | command (command : DebugCommand)
  /-- The command thread goes on; `fails` is the answer of its next check of the configuration or
      thread call. -/
  | advance (fails : Bool)
  /-- A worker goes on: it ends its session, or it exits. -/
  | worker (m : DebugModule)

namespace DebugSystem

def initial : DebugSystem where
  module := fun _ =>
    { threadStarted := false, active := false, stopRequested := false, thread := .unused, alive := 0 }
  pc := .idle
  misused := false

/-- The module whose flag a start looks at first, and the one it looks at next. -/
def firstOther : DebugModule → DebugModule
  | .watch => .trace
  | .trace => .watch
  | .multitrace => .watch

def secondOther : DebugModule → DebugModule
  | .watch => .multitrace
  | .trace => .multitrace
  | .multitrace => .trace

/-- Continue at `pc` with a new state of one module. -/
def continueWith (m : DebugModule) (value : SessionModule) (pc : CommandPc) (s : DebugSystem) :
    DebugSystem :=
  { s with module := Function.update s.module m value, pc := pc }

def goto (pc : CommandPc) (s : DebugSystem) : DebugSystem := { s with pc := pc }

def misuse (s : DebugSystem) : DebugSystem := { s with misused := true }

/-- The rest of the critical section of a start: the configuration is checked here, except by
    `debugMultiTraceStart`, and the session is set up. -/
def configure (m : DebugModule) (refused : Bool) (s : DebugSystem) : DebugSystem :=
  if refused = true ∧ m ≠ .multitrace then
    s.continueWith m { s.module m with threadStarted := false } .idle
  else
    s.continueWith m
      { s.module m with threadStarted := true, active := true, stopRequested := false }
      (.startCreate m)

/-- `threadWaitForExit`: it blocks while the worker runs. -/
def waitForExit (m : DebugModule) (next : CommandPc) (s : DebugSystem) : DebugSystem :=
  match (s.module m).thread with
  | .exited => s.continueWith m { s.module m with thread := .waited } next
  | .running => s
  | .finishing => s
  | _ => s.misuse

def threadClose (m : DebugModule) (next : CommandPc) (s : DebugSystem) : DebugSystem :=
  match (s.module m).thread with
  | .waited => s.continueWith m { s.module m with thread := .unused } next
  | .created => s.continueWith m { s.module m with thread := .unused } next
  | _ => s.misuse

def threadCreate (m : DebugModule) (fails : Bool) (s : DebugSystem) : DebugSystem :=
  match (s.module m).thread with
  | .unused =>
    if fails then s.goto (.startCreateFailed m)
    else s.continueWith m { s.module m with thread := .created } (.startThread m)
  | _ => s.misuse

def threadStart (m : DebugModule) (fails : Bool) (s : DebugSystem) : DebugSystem :=
  match (s.module m).thread with
  | .created =>
    if fails then s.goto (.startThreadFailed m)
    else s.continueWith m
      { s.module m with thread := .running, alive := (s.module m).alive + 1 } .idle
  | _ => s.misuse

/-- A start gives up after a failed thread call. -/
def giveUp (m : DebugModule) (next : CommandPc) (s : DebugSystem) : DebugSystem :=
  s.continueWith m { s.module m with active := false, threadStarted := false } next

def advance (fails : Bool) (s : DebugSystem) : DebugSystem :=
  match s.pc with
  | .idle => s
  | .startCheckFirst m =>
    if (s.module (firstOther m)).active then s.goto .idle else s.goto (.startCheckSecond m)
  | .startCheckSecond m =>
    if (s.module (secondOther m)).active then s.goto .idle else s.goto (.startOwn m)
  | .startOwn m =>
    if (s.module m).active then s.goto .idle
    else if (s.module m).threadStarted then s.goto (.startReapWait m)
    else s.configure m fails
  | .startReapWait m => s.waitForExit m (.startReapClose m)
  | .startReapClose m => s.threadClose m (.startConfigure m)
  | .startConfigure m => s.configure m fails
  | .startCreate m => s.threadCreate m fails
  | .startCreateFailed m => s.giveUp m .idle
  | .startThread m => s.threadStart m fails
  | .startThreadFailed m => s.giveUp m (.startThreadClose m)
  | .startThreadClose m => s.threadClose m .idle
  | .stopWait m => s.waitForExit m (.stopClose m)
  | .stopClose m => s.threadClose m (.stopFinish m)
  | .stopFinish m =>
    s.continueWith m
      { s.module m with threadStarted := false, active := false, stopRequested := false } .idle
  | .openCheckWatch =>
    if (s.module .watch).active then s.goto .idle else s.goto .openCheckTrace
  | .openCheckTrace =>
    if (s.module .trace).active then s.goto .idle else s.goto .openCheckMultitrace
  | .openCheckMultitrace =>
    if (s.module .multitrace).active then s.goto .idle else s.goto .openAttach
  | .openAttach => s.goto .idle

def command (s : DebugSystem) : DebugCommand → DebugSystem
  | .start m refused => if refused then s else s.goto (.startCheckFirst m)
  | .stop m =>
    let running := (s.module m).active || (s.module m).threadStarted
    s.continueWith m { s.module m with stopRequested := true }
      (if running then .stopWait m else .idle)
  | .status => s
  | .open => s.goto .openCheckWatch

/-- The last critical section of a worker, and its exit. -/
def worker (m : DebugModule) (s : DebugSystem) : DebugSystem :=
  match (s.module m).thread with
  | .running =>
    s.continueWith m
      { s.module m with active := false, stopRequested := false, thread := .finishing } s.pc
  | .finishing =>
    s.continueWith m { s.module m with thread := .exited, alive := (s.module m).alive - 1 } s.pc
  | _ => s

/-- A command begins when the one before has ended. -/
def step (s : DebugSystem) : DebugStep → DebugSystem
  | .command command => if s.pc = .idle then s.command command else s
  | .advance fails => s.advance fails
  | .worker m => s.worker m

/-- At most one session is active, no module has two workers, every `Thread` object is waited for and
    closed once before it is used again, and nothing is attached while a session is active. -/
structure Exclusive (s : DebugSystem) : Prop where
  active : ∀ m m', (s.module m).active = true → (s.module m').active = true → m = m'
  alive : ∀ m, (s.module m).alive ≤ 1
  threads : s.misused = false
  attach : s.pc = .openAttach → ∀ m, (s.module m).active = false

/-! ## What holds of a module, by where the command thread is -/

/-- What the command thread is doing with a module. -/
inductive Role
  | rest
  | reaping
  | stopping
  | waited
  | closed
  | configured
  | created
  | abandoned

def roleOf : CommandPc → DebugModule → Role
  | .startReapWait m', m => if m = m' then .reaping else .rest
  | .startReapClose m', m => if m = m' then .waited else .rest
  | .startConfigure m', m => if m = m' then .closed else .rest
  | .startCreate m', m => if m = m' then .configured else .rest
  | .startCreateFailed m', m => if m = m' then .configured else .rest
  | .startThread m', m => if m = m' then .created else .rest
  | .startThreadFailed m', m => if m = m' then .created else .rest
  | .startThreadClose m', m => if m = m' then .abandoned else .rest
  | .stopWait m', m => if m = m' then .stopping else .rest
  | .stopClose m', m => if m = m' then .waited else .rest
  | .stopFinish m', m => if m = m' then .closed else .rest
  | _, _ => .rest

/-- A worker that has not been waited for. -/
def Unreaped (value : SessionModule) : Prop :=
  value.active = false ∧ value.threadStarted = true ∧
    (value.thread = .finishing ∨ value.thread = .exited)

def InSession (value : SessionModule) : Prop :=
  value.active = true ∧ value.threadStarted = true ∧ value.thread = .running

def Flags (active threadStarted : Bool) (thread : ThreadPhase) (value : SessionModule) : Prop :=
  value.active = active ∧ value.threadStarted = threadStarted ∧ value.thread = thread

def Role.Holds (value : SessionModule) : Role → Prop
  | rest => Flags false false .unused value ∨ InSession value ∨ Unreaped value
  | reaping => Unreaped value
  | stopping => InSession value ∨ Unreaped value
  | waited => Flags false true .waited value
  | closed => Flags false true .unused value
  | configured => Flags true true .unused value
  | created => Flags true true .created value
  | abandoned => Flags false false .created value

/-- The modules that have been seen inactive and cannot have become active since. -/
def seenInactive : CommandPc → DebugModule → Bool
  | .startCheckSecond m', m => m = firstOther m'
  | .startOwn m', m => m ≠ m'
  | .startReapWait m', m => m ≠ m'
  | .startReapClose m', m => m ≠ m'
  | .startConfigure m', m => m ≠ m'
  | .startCreate m', m => m ≠ m'
  | .startCreateFailed m', m => m ≠ m'
  | .startThread m', m => m ≠ m'
  | .startThreadFailed m', m => m ≠ m'
  | .openCheckTrace, m => m = .watch
  | .openCheckMultitrace, m => m ≠ .multitrace
  | .openAttach, _ => true
  | _, _ => false

def workersOf : ThreadPhase → Nat
  | .running => 1
  | .finishing => 1
  | _ => 0

structure Inv (s : DebugSystem) : Prop where
  role : ∀ m, (roleOf s.pc m).Holds (s.module m)
  inactive : ∀ m, seenInactive s.pc m = true → (s.module m).active = false
  active : ∀ m m', (s.module m).active = true → (s.module m').active = true → m = m'
  alive : ∀ m, (s.module m).alive = workersOf (s.module m).thread
  threads : s.misused = false

theorem Inv.exclusive {s : DebugSystem} (h : Inv s) : Exclusive s where
  active := h.active
  alive := by
    intro m
    rw [h.alive m]
    unfold workersOf
    split <;> omega
  threads := h.threads
  attach := by
    intro hpc m
    refine h.inactive m ?_
    rw [hpc]
    rfl

/-! ## Moving on -/

/-- The command thread moves on without a change of a module. -/
theorem Inv.goto {s : DebugSystem} (h : Inv s) {pc : CommandPc}
    (hrole : ∀ m, (roleOf pc m).Holds (s.module m))
    (hinactive : ∀ m, seenInactive pc m = true → (s.module m).active = false) :
    Inv (s.goto pc) :=
  ⟨hrole, hinactive, h.active, h.alive, h.threads⟩

@[simp] theorem continueWith_self (m : DebugModule) (value : SessionModule) (pc : CommandPc)
    (s : DebugSystem) : (s.continueWith m value pc).module m = value := by
  simp [DebugSystem.continueWith]

theorem continueWith_other {m m' : DebugModule} (value : SessionModule) (pc : CommandPc)
    (s : DebugSystem) (hne : m' ≠ m) : (s.continueWith m value pc).module m' = s.module m' := by
  simp [DebugSystem.continueWith, hne]

/-- One module changes: nothing is asked of the others, and the change activates it only when the
    others are inactive. -/
theorem Inv.continueWith {s : DebugSystem} (h : Inv s) {m : DebugModule} {value : SessionModule}
    {pc : CommandPc} (hvalue : (roleOf pc m).Holds value)
    (hothers : ∀ m' ≠ m, (roleOf pc m').Holds (s.module m'))
    (hseen : ∀ m' ≠ m, seenInactive pc m' = true → (s.module m').active = false)
    (hself : seenInactive pc m = true → value.active = false)
    (hactive : value.active = true →
      (s.module m).active = true ∨ ∀ m' ≠ m, (s.module m').active = false)
    (halive : value.alive = workersOf value.thread) :
    Inv (s.continueWith m value pc) := by
  have hself' := continueWith_self m value pc s
  have hother : ∀ m' ≠ m, (s.continueWith m value pc).module m' = s.module m' :=
    fun m' hne => continueWith_other value pc s hne
  refine ⟨?role, ?inactive, ?active, ?alive, h.threads⟩
  case role =>
    intro m'
    by_cases hm : m' = m
    · rw [hm, hself']
      exact hvalue
    · rw [hother m' hm]
      exact hothers m' hm
  case inactive =>
    intro m' hm'
    by_cases hm : m' = m
    · rw [hm, hself']
      exact hself (hm ▸ hm')
    · rw [hother m' hm]
      exact hseen m' hm hm'
  case active =>
    -- a module that is active next to `m` was so before, and then `m` was not activated
    have honly : ∀ m' ≠ m, value.active = true → (s.module m').active = true → False := by
      intro m' hm hon hon'
      rcases hactive hon with hold | hnone
      · exact hm (h.active m' m hon' hold)
      · rw [hnone m' hm] at hon'
        cases hon'
    intro m₁ m₂ h₁ h₂
    by_cases hm₁ : m₁ = m <;> by_cases hm₂ : m₂ = m
    · rw [hm₁, hm₂]
    · rw [hm₁, hself'] at h₁
      rw [hother m₂ hm₂] at h₂
      exact (honly m₂ hm₂ h₁ h₂).elim
    · rw [hm₂, hself'] at h₂
      rw [hother m₁ hm₁] at h₁
      exact (honly m₁ hm₁ h₂ h₁).elim
    · rw [hother m₁ hm₁] at h₁
      rw [hother m₂ hm₂] at h₂
      exact h.active m₁ m₂ h₁ h₂
  case alive =>
    intro m'
    by_cases hm : m' = m
    · rw [hm, hself']
      exact halive
    · rw [hother m' hm]
      exact h.alive m'

/-! ## Thread calls -/

section Calls

variable {s : DebugSystem} {m : DebugModule}

/-- `threadWaitForExit` on a worker that has been started: it blocks or finds it exited. -/
theorem Inv.waitForExit (h : Inv s) {next : CommandPc}
    (hunreaped : InSession (s.module m) ∨ Unreaped (s.module m))
    (hnext : (roleOf next m) = .waited) (hothers : ∀ m' ≠ m, roleOf next m' = .rest)
    (hrest : ∀ m' ≠ m, roleOf s.pc m' = .rest)
    (hseen : ∀ m' ≠ m, seenInactive next m' = true → (s.module m').active = false) :
    Inv (s.waitForExit m next) := by
  unfold DebugSystem.waitForExit
  cases hthread : (s.module m).thread with
  | exited =>
    rcases hunreaped with hsession | ⟨hactive, hstarted, -⟩
    · rw [hsession.2.2] at hthread
      cases hthread
    refine h.continueWith ?_ ?_ hseen (fun _ => hactive) ?_ ?_
    · rw [hnext]
      exact ⟨hactive, hstarted, rfl⟩
    · intro m' hne
      rw [hothers m' hne, ← hrest m' hne]
      exact h.role m'
    · intro hon
      exact Or.inl hon
    · rw [h.alive m, hthread]
      rfl
  | running => exact h
  | finishing => exact h
  | unused =>
    rcases hunreaped with hsession | hreap
    · rw [hsession.2.2] at hthread
      cases hthread
    · rcases hreap.2.2 with hphase | hphase <;> rw [hphase] at hthread <;> cases hthread
  | created =>
    rcases hunreaped with hsession | hreap
    · rw [hsession.2.2] at hthread
      cases hthread
    · rcases hreap.2.2 with hphase | hphase <;> rw [hphase] at hthread <;> cases hthread
  | waited =>
    rcases hunreaped with hsession | hreap
    · rw [hsession.2.2] at hthread
      cases hthread
    · rcases hreap.2.2 with hphase | hphase <;> rw [hphase] at hthread <;> cases hthread

/-- A change of the command thread's module in a phase without a worker. -/
theorem Inv.settle (h : Inv s) {value : SessionModule} {next : CommandPc}
    (hvalue : (roleOf next m).Holds value) (hothers : ∀ m' ≠ m, roleOf next m' = .rest)
    (hrest : ∀ m' ≠ m, roleOf s.pc m' = .rest)
    (hseen : ∀ m' ≠ m, seenInactive next m' = true → (s.module m').active = false)
    (hself : seenInactive next m = true → value.active = false)
    (hactive : value.active = true →
      (s.module m).active = true ∨ ∀ m' ≠ m, (s.module m').active = false)
    (halive : value.alive = workersOf value.thread) : Inv (s.continueWith m value next) := by
  refine h.continueWith hvalue ?_ hseen hself hactive halive
  intro m' hne
  rw [hothers m' hne, ← hrest m' hne]
  exact h.role m'

end Calls

/-! ## The workers -/

theorem Inv.worker {s : DebugSystem} (h : Inv s) (m : DebugModule) : Inv (s.worker m) := by
  have hrole := h.role m
  have hothers : ∀ m' ≠ m, (roleOf s.pc m').Holds (s.module m') := fun m' _ => h.role m'
  have hseen : ∀ m' ≠ m, seenInactive s.pc m' = true → (s.module m').active = false :=
    fun m' _ => h.inactive m'
  unfold DebugSystem.worker
  cases hthread : (s.module m).thread with
  | running =>
    have hsession : InSession (s.module m) ∧ ∀ value, Unreaped value →
        (roleOf s.pc m).Holds value := by
      revert hrole
      cases roleOf s.pc m <;> simp only [Role.Holds, Flags, Unreaped, hthread]
      all_goals grind [InSession, Unreaped]
    refine h.continueWith ?_ hothers hseen (fun _ => rfl) (fun hon => by cases hon) ?_
    · exact hsession.2 _ ⟨rfl, hsession.1.2.1, Or.inl rfl⟩
    · change (s.module m).alive = 1
      rw [h.alive m, hthread]
      rfl
  | finishing =>
    have hunreaped : Unreaped (s.module m) ∧ ∀ value, Unreaped value →
        (roleOf s.pc m).Holds value := by
      revert hrole
      cases roleOf s.pc m <;> simp only [Role.Holds, Flags, Unreaped, InSession, hthread]
      all_goals grind [InSession, Unreaped]
    refine h.continueWith ?_ hothers hseen (fun _ => hunreaped.1.1) (fun hon => Or.inl hon) ?_
    · exact hunreaped.2 _ ⟨hunreaped.1.1, hunreaped.1.2.1, Or.inr rfl⟩
    · change (s.module m).alive - 1 = 0
      rw [h.alive m, hthread]
      rfl
  | unused => exact h
  | created => exact h
  | exited => exact h
  | waited => exact h

/-! ## The command thread -/

section Command

variable {s : DebugSystem}

theorem Inv.roleAt (h : Inv s) {pc : CommandPc} (hpc : s.pc = pc) (m : DebugModule) :
    (roleOf pc m).Holds (s.module m) := by
  rw [← hpc]
  exact h.role m

/-- A place whose role for a module is known. -/
theorem Inv.roleIs (h : Inv s) {pc : CommandPc} (hpc : s.pc = pc) {m : DebugModule} {role : Role}
    (hrole : roleOf pc m = role) : role.Holds (s.module m) := by
  rw [← hrole]
  exact h.roleAt hpc m

theorem holds_of_roleOf {pc : CommandPc} {m : DebugModule} {role : Role} {value : SessionModule}
    (hrole : roleOf pc m = role) (h : role.Holds value) : (roleOf pc m).Holds value := by
  rwa [hrole]

theorem restAt {pc : CommandPc} (hpc : s.pc = pc) {m : DebugModule}
    (hrest : ∀ m' ≠ m, roleOf pc m' = .rest) : ∀ m' ≠ m, roleOf s.pc m' = .rest := by
  rwa [hpc]

theorem Inv.inactiveAt (h : Inv s) {pc : CommandPc} (hpc : s.pc = pc) {m : DebugModule}
    (hseen : seenInactive pc m = true) : (s.module m).active = false := by
  refine h.inactive m ?_
  rwa [hpc]

/-- Back to a place where nothing is asked of any module. -/
theorem Inv.rest (h : Inv s) (hrest : ∀ m, roleOf s.pc m = .rest) {pc : CommandPc}
    (hpc : ∀ m, roleOf pc m = .rest)
    (hinactive : ∀ m, seenInactive pc m = true → (s.module m).active = false) :
    Inv (s.goto pc) := by
  refine h.goto ?_ hinactive
  intro m
  rw [hpc m, ← hrest m]
  exact h.role m

theorem Inv.configure (h : Inv s) {m : DebugModule} (hothers : ∀ m' ≠ m, roleOf s.pc m' = .rest)
    (hseen : ∀ m' ≠ m, (s.module m').active = false)
    (hmodule : (s.module m).active = false ∧ (s.module m).thread = .unused) (refused : Bool) :
    Inv (s.configure m refused) := by
  have halive : (s.module m).alive = workersOf .unused := by rw [h.alive m, hmodule.2]
  unfold DebugSystem.configure
  split
  · refine h.settle ?_ (fun _ _ => rfl) hothers (fun m' hne _ => hseen m' hne) ?_ ?_ ?_
    · exact Or.inl ⟨hmodule.1, rfl, hmodule.2⟩
    · intro hself
      cases hself
    · intro hon
      exact Or.inl hon
    · change (s.module m).alive = workersOf (s.module m).thread
      exact h.alive m
  · refine h.settle ?_ ?_ hothers (fun m' hne _ => hseen m' hne) ?_ ?_ ?_
    · exact holds_of_roleOf (if_pos rfl) ⟨rfl, rfl, hmodule.2⟩
    · intro m' hne
      exact if_neg hne
    · intro hself
      exact absurd rfl (of_decide_eq_true hself)
    · intro _
      exact Or.inr hseen
    · exact h.alive m

/-- Every module but `m` has been seen inactive on the way to `pc`. -/
theorem Inv.othersInactiveAt (h : Inv s) {pc : CommandPc} (hpc : s.pc = pc) {m : DebugModule}
    (hseen : ∀ m' ≠ m, seenInactive pc m' = true) : ∀ m' ≠ m, (s.module m').active = false :=
  fun m' hne => h.inactiveAt hpc (hseen m' hne)

/-- A module's flag is read before anything is touched: the command gives up, or goes on to `next`
    with one module more seen inactive. -/
theorem Inv.check (h : Inv s) {m : DebugModule} {next : CommandPc}
    (hrest : ∀ m', roleOf s.pc m' = .rest) (hnext : ∀ m', roleOf next m' = .rest)
    (hseen : (s.module m).active = false →
      ∀ m', seenInactive next m' = true → (s.module m').active = false) :
    Inv (if (s.module m).active then s.goto .idle else s.goto next) := by
  split
  · exact h.rest hrest (fun _ => rfl) (fun _ hself => by cases hself)
  · rename_i hoff
    exact h.rest hrest hnext (hseen (by simpa using hoff))

/-- The command thread's module is changed and left inactive. -/
theorem Inv.settleInactive (h : Inv s) {m : DebugModule} {value : SessionModule} {next : CommandPc}
    (hactive : value.active = false) (halive : value.alive = workersOf value.thread)
    (hvalue : (roleOf next m).Holds value) (hothers : ∀ m' ≠ m, roleOf next m' = .rest)
    (hrest : ∀ m' ≠ m, roleOf s.pc m' = .rest)
    (hseen : ∀ m' ≠ m, seenInactive next m' = true → (s.module m').active = false) :
    Inv (s.continueWith m value next) := by
  refine h.settle hvalue hothers hrest hseen (fun _ => hactive) ?_ halive
  intro hon
  rw [hactive] at hon
  cases hon

/-- `threadClose` on a worker that has been waited for or was never started. -/
theorem Inv.threadClose (h : Inv s) {m : DebugModule} {next : CommandPc}
    (hactive : (s.module m).active = false)
    (hthread : (s.module m).thread = .waited ∨ (s.module m).thread = .created)
    (hvalue : (roleOf next m).Holds { s.module m with thread := .unused })
    (hothers : ∀ m' ≠ m, roleOf next m' = .rest) (hrest : ∀ m' ≠ m, roleOf s.pc m' = .rest)
    (hseen : ∀ m' ≠ m, seenInactive next m' = true → (s.module m').active = false) :
    Inv (s.threadClose m next) := by
  have halive : (s.module m).alive = 0 := by
    rw [h.alive m]
    rcases hthread with hwaited | hcreated
    · rw [hwaited]
      rfl
    · rw [hcreated]
      rfl
  have hclosed : Inv (s.continueWith m { s.module m with thread := .unused } next) :=
    h.settleInactive hactive halive hvalue hothers hrest hseen
  unfold DebugSystem.threadClose
  rcases hthread with hwaited | hcreated
  · rw [hwaited]
    exact hclosed
  · rw [hcreated]
    exact hclosed

/-- A start gives up in a phase in which it holds no running worker. -/
theorem Inv.giveUp (h : Inv s) {m : DebugModule} {next : CommandPc}
    (hvalue : (roleOf next m).Holds { s.module m with active := false, threadStarted := false })
    (hothers : ∀ m' ≠ m, roleOf next m' = .rest) (hrest : ∀ m' ≠ m, roleOf s.pc m' = .rest)
    (hseen : ∀ m' ≠ m, seenInactive next m' = true → (s.module m').active = false) :
    Inv (s.giveUp m next) :=
  h.settleInactive rfl (h.alive m) hvalue hothers hrest hseen

/-! ### The places of a start -/

theorem Inv.startCheckFirst (h : Inv s) {m : DebugModule} (hpc : s.pc = .startCheckFirst m) :
    Inv (if (s.module (firstOther m)).active then s.goto .idle
      else s.goto (.startCheckSecond m)) := by
  refine h.check (fun m' => by rw [hpc]; rfl) (fun _ => rfl) ?_
  intro hoff m' hseen
  have hfirst : m' = firstOther m := of_decide_eq_true hseen
  rw [hfirst]
  exact hoff

theorem Inv.startCheckSecond (h : Inv s) {m : DebugModule} (hpc : s.pc = .startCheckSecond m) :
    Inv (if (s.module (secondOther m)).active then s.goto .idle else s.goto (.startOwn m)) := by
  have hfirst := h.inactiveAt hpc (m := firstOther m) (decide_eq_true rfl)
  refine h.check (fun m' => by rw [hpc]; rfl) (fun _ => rfl) ?_
  intro hsecond m' hseen
  have hne : m' ≠ m := of_decide_eq_true hseen
  cases m <;> cases m' <;> first | exact hfirst | exact hsecond | exact absurd rfl hne

/-- The own module is looked at last: it is in session, it is reaped first, or it is set up. -/
theorem Inv.startOwn (h : Inv s) {m : DebugModule} (hpc : s.pc = .startOwn m) (fails : Bool) :
    Inv (if (s.module m).active then s.goto .idle
      else if (s.module m).threadStarted then s.goto (.startReapWait m)
      else s.configure m fails) := by
  have hothers := h.othersInactiveAt hpc fun _ hne => decide_eq_true hne
  have hrole := h.roleAt hpc m
  split
  · exact h.rest (fun m' => by rw [hpc]; rfl) (fun _ => rfl) (fun _ hself => by cases hself)
  rename_i hoff
  split
  · rename_i hstarted
    have hunreaped : Unreaped (s.module m) := by
      rcases hrole with hflags | hsession | hunreaped
      · rw [hflags.2.1] at hstarted
        cases hstarted
      · exact absurd hsession.1 hoff
      · exact hunreaped
    refine h.goto ?_ ?_
    · intro m'
      by_cases hm : m' = m
      · rw [hm]
        exact holds_of_roleOf (if_pos rfl) hunreaped
      · exact holds_of_roleOf (if_neg hm) (h.roleAt hpc m')
    · intro m' hself
      exact hothers m' (of_decide_eq_true hself)
  · rename_i hfree
    refine h.configure (fun m' _ => by rw [hpc]; rfl) hothers ?_ fails
    rcases hrole with hflags | hsession | hunreaped
    · exact ⟨hflags.1, hflags.2.2⟩
    · exact absurd hsession.1 hoff
    · exact absurd hunreaped.2.1 hfree

/-- A start waits for the worker of an earlier session. -/
theorem Inv.startReapWait (h : Inv s) {m : DebugModule} (hpc : s.pc = .startReapWait m) :
    Inv (s.waitForExit m (.startReapClose m)) := by
  have hothers := h.othersInactiveAt hpc fun _ hne => decide_eq_true hne
  have hunreaped : Unreaped (s.module m) := h.roleIs hpc (if_pos rfl)
  exact h.waitForExit (Or.inr hunreaped) (if_pos rfl) (fun m' hne => if_neg hne)
    (restAt hpc fun m' hne => if_neg hne) fun m' hne _ => hothers m' hne

theorem Inv.startReapClose (h : Inv s) {m : DebugModule} (hpc : s.pc = .startReapClose m) :
    Inv (s.threadClose m (.startConfigure m)) := by
  have hothers := h.othersInactiveAt hpc fun _ hne => decide_eq_true hne
  obtain ⟨hactive, hstarted, hthread⟩ : Flags false true .waited (s.module m) :=
    h.roleIs hpc (if_pos rfl)
  refine h.threadClose hactive (Or.inl hthread) ?_ (fun m' hne => if_neg hne)
    (restAt hpc fun m' hne => if_neg hne) fun m' hne _ => hothers m' hne
  exact holds_of_roleOf (if_pos rfl) ⟨hactive, hstarted, rfl⟩

theorem Inv.startConfigure (h : Inv s) {m : DebugModule} (hpc : s.pc = .startConfigure m)
    (fails : Bool) : Inv (s.configure m fails) := by
  have hothers := h.othersInactiveAt hpc fun _ hne => decide_eq_true hne
  obtain ⟨hactive, -, hthread⟩ : Flags false true .unused (s.module m) :=
    h.roleIs hpc (if_pos rfl)
  exact h.configure (restAt hpc fun m' hne => if_neg hne) hothers ⟨hactive, hthread⟩ fails

/-- `threadCreate` in a start: the module is configured and its `Thread` object is not in use. -/
theorem Inv.startCreate (h : Inv s) {m : DebugModule} (hpc : s.pc = .startCreate m) (fails : Bool) :
    Inv (s.threadCreate m fails) := by
  have hothers := h.othersInactiveAt hpc fun _ hne => decide_eq_true hne
  have hrole := h.roleIs hpc (if_pos rfl)
  obtain ⟨hactive, hstarted, hthread⟩ := hrole
  simp only [DebugSystem.threadCreate, hthread]
  split
  · refine h.goto (fun m' => h.roleAt hpc m') ?_
    intro m' hself
    exact hothers m' (of_decide_eq_true hself)
  · refine h.settle ?_ (fun m' hne => if_neg hne) (restAt hpc fun m' hne => if_neg hne)
      (fun m' hne _ => hothers m' hne) ?_ (fun _ => Or.inr hothers) ?_
    · exact holds_of_roleOf (if_pos rfl) ⟨hactive, hstarted, rfl⟩
    · intro hself
      exact absurd rfl (of_decide_eq_true hself)
    · rw [h.alive m, hthread]
      rfl

/-- `threadStart` in a start: from here on the module is in session. -/
theorem Inv.startThread (h : Inv s) {m : DebugModule} (hpc : s.pc = .startThread m) (fails : Bool) :
    Inv (s.threadStart m fails) := by
  have hothers := h.othersInactiveAt hpc fun _ hne => decide_eq_true hne
  have hrole := h.roleIs hpc (if_pos rfl)
  obtain ⟨hactive, hstarted, hthread⟩ := hrole
  simp only [DebugSystem.threadStart, hthread]
  split
  · refine h.goto (fun m' => h.roleAt hpc m') ?_
    intro m' hself
    exact hothers m' (of_decide_eq_true hself)
  · refine h.settle (Or.inr (Or.inl ⟨hactive, hstarted, rfl⟩)) (fun _ _ => rfl)
      (restAt hpc fun m' hne => if_neg hne) (fun m' hne _ => hothers m' hne)
      (fun hself => by cases hself) (fun _ => Or.inr hothers) ?_
    change (s.module m).alive + 1 = 1
    rw [h.alive m, hthread]
    rfl

/-! ### The ways out -/

/-- A start gives up behind its setup: no worker has been created. -/
theorem Inv.startCreateFailed (h : Inv s) {m : DebugModule} (hpc : s.pc = .startCreateFailed m) :
    Inv (s.giveUp m .idle) := by
  have hrole := h.roleIs hpc (if_pos rfl)
  exact h.giveUp (Or.inl ⟨rfl, rfl, hrole.2.2⟩) (fun _ _ => rfl)
    (restAt hpc fun m' hne => if_neg hne) fun _ _ hself => by cases hself

/-- It gives up with a worker that was created and does not run. -/
theorem Inv.startThreadFailed (h : Inv s) {m : DebugModule} (hpc : s.pc = .startThreadFailed m) :
    Inv (s.giveUp m (.startThreadClose m)) := by
  have hrole := h.roleIs hpc (if_pos rfl)
  exact h.giveUp (holds_of_roleOf (if_pos rfl) ⟨rfl, rfl, hrole.2.2⟩) (fun m' hne => if_neg hne)
    (restAt hpc fun m' hne => if_neg hne) fun _ _ hself => by cases hself

theorem Inv.startThreadClose (h : Inv s) {m : DebugModule} (hpc : s.pc = .startThreadClose m) :
    Inv (s.threadClose m .idle) := by
  have hrole := h.roleIs hpc (if_pos rfl)
  obtain ⟨hactive, hstarted, hthread⟩ := hrole
  exact h.threadClose hactive (Or.inr hthread) (Or.inl ⟨hactive, hstarted, rfl⟩) (fun _ _ => rfl)
    (restAt hpc fun m' hne => if_neg hne) fun _ _ hself => by cases hself

/-! ### The places of a stop and of `debugProcessOpen` -/

theorem Inv.stopWait (h : Inv s) {m : DebugModule} (hpc : s.pc = .stopWait m) :
    Inv (s.waitForExit m (.stopClose m)) := by
  have hrole := h.roleIs hpc (if_pos rfl)
  exact h.waitForExit hrole (if_pos rfl) (fun m' hne => if_neg hne)
    (restAt hpc fun m' hne => if_neg hne) fun _ _ hself => by cases hself

theorem Inv.stopClose (h : Inv s) {m : DebugModule} (hpc : s.pc = .stopClose m) :
    Inv (s.threadClose m (.stopFinish m)) := by
  have hrole := h.roleIs hpc (if_pos rfl)
  obtain ⟨hactive, hstarted, hthread⟩ := hrole
  refine h.threadClose hactive (Or.inl hthread) ?_ (fun m' hne => if_neg hne)
    (restAt hpc fun m' hne => if_neg hne) fun _ _ hself => by cases hself
  exact holds_of_roleOf (if_pos rfl) ⟨hactive, hstarted, rfl⟩

/-- A stop ends with the flags cleared. -/
theorem Inv.stopFinish (h : Inv s) {m : DebugModule} (hpc : s.pc = .stopFinish m) :
    Inv (s.continueWith m
      { s.module m with threadStarted := false, active := false, stopRequested := false }
      .idle) := by
  have hrole := h.roleIs hpc (if_pos rfl)
  exact h.settleInactive rfl (h.alive m) (Or.inl ⟨rfl, rfl, hrole.2.2⟩) (fun _ _ => rfl)
    (restAt hpc fun m' hne => if_neg hne) fun _ _ hself => by cases hself

theorem Inv.openCheckWatch (h : Inv s) (hpc : s.pc = .openCheckWatch) :
    Inv (if (s.module .watch).active then s.goto .idle else s.goto .openCheckTrace) := by
  refine h.check (fun m' => by rw [hpc]; rfl) (fun _ => rfl) ?_
  intro hoff m' hseen
  have hwatch : m' = .watch := of_decide_eq_true hseen
  rw [hwatch]
  exact hoff

theorem Inv.openCheckTrace (h : Inv s) (hpc : s.pc = .openCheckTrace) :
    Inv (if (s.module .trace).active then s.goto .idle else s.goto .openCheckMultitrace) := by
  have hwatch := h.inactiveAt hpc (m := .watch) rfl
  refine h.check (fun m' => by rw [hpc]; rfl) (fun _ => rfl) ?_
  intro htrace m' hseen
  cases m' with
  | watch => exact hwatch
  | trace => exact htrace
  | multitrace => cases hseen

theorem Inv.openCheckMultitrace (h : Inv s) (hpc : s.pc = .openCheckMultitrace) :
    Inv (if (s.module .multitrace).active then s.goto .idle else s.goto .openAttach) := by
  have hwatch := h.inactiveAt hpc (m := .watch) rfl
  have htrace := h.inactiveAt hpc (m := .trace) rfl
  refine h.check (fun m' => by rw [hpc]; rfl) (fun _ => rfl) ?_
  intro hmultitrace m' _
  cases m' with
  | watch => exact hwatch
  | trace => exact htrace
  | multitrace => exact hmultitrace

/-! ### Its steps -/

/-- A step of the command thread. -/
theorem Inv.advance (h : Inv s) (fails : Bool) : Inv (s.advance fails) := by
  unfold DebugSystem.advance
  cases hpc : s.pc with
  | idle => exact h
  | startCheckFirst m => exact h.startCheckFirst hpc
  | startCheckSecond m => exact h.startCheckSecond hpc
  | startOwn m => exact h.startOwn hpc fails
  | startReapWait m => exact h.startReapWait hpc
  | startReapClose m => exact h.startReapClose hpc
  | startConfigure m => exact h.startConfigure hpc fails
  | startCreate m => exact h.startCreate hpc fails
  | startCreateFailed m => exact h.startCreateFailed hpc
  | startThread m => exact h.startThread hpc fails
  | startThreadFailed m => exact h.startThreadFailed hpc
  | startThreadClose m => exact h.startThreadClose hpc
  | stopWait m => exact h.stopWait hpc
  | stopClose m => exact h.stopClose hpc
  | stopFinish m => exact h.stopFinish hpc
  | openCheckWatch => exact h.openCheckWatch hpc
  | openCheckTrace => exact h.openCheckTrace hpc
  | openCheckMultitrace => exact h.openCheckMultitrace hpc
  | openAttach =>
    exact h.rest (fun m' => by rw [hpc]; rfl) (fun _ => rfl) (fun _ hseen => by cases hseen)

/-- A command begins. -/
theorem Inv.command (h : Inv s) (hpc : s.pc = .idle) (command : DebugCommand) :
    Inv (s.command command) := by
  have hrest : ∀ m, roleOf s.pc m = .rest := fun m => by
    rw [hpc]
    rfl
  cases command with
  | start m refused =>
    unfold DebugSystem.command
    simp only
    split
    · exact h
    · exact h.rest hrest (fun _ => rfl) (fun _ hseen => by cases hseen)
  | stop m =>
    have hrole := h.roleAt hpc m
    unfold DebugSystem.command
    simp only
    split
    · rename_i hrunning
      refine h.settle ?_ (fun m' hne => if_neg hne) (fun m' _ => hrest m')
        (fun _ _ hself => by cases hself) (fun hself => by cases hself) (fun hon => Or.inl hon)
        (h.alive m)
      refine holds_of_roleOf (if_pos rfl) ?_
      rcases hrole with hflags | hsession | hunreaped
      · rw [hflags.1, hflags.2.1] at hrunning
        cases hrunning
      · exact Or.inl hsession
      · exact Or.inr hunreaped
    · exact h.settle hrole (fun _ _ => rfl) (fun m' _ => hrest m')
        (fun _ _ hself => by cases hself) (fun hself => by cases hself) (fun hon => Or.inl hon)
        (h.alive m)
  | status => exact h
  | «open» => exact h.rest hrest (fun _ => rfl) (fun _ hseen => by cases hseen)

end Command

theorem Inv.initial : Inv DebugSystem.initial where
  role := fun _ => Or.inl ⟨rfl, rfl, rfl⟩
  inactive := fun _ hseen => by cases hseen
  active := fun _ _ hon => by cases hon
  alive := fun _ => rfl
  threads := rfl

theorem Inv.step (s : DebugSystem) (event : DebugStep) (h : Inv s) : Inv (s.step event) := by
  cases event with
  | command command =>
    unfold DebugSystem.step
    simp only
    split
    · rename_i hpc
      exact h.command hpc command
    · exact h
  | advance fails => exact h.advance fails
  | worker m => exact h.worker m

/-- The debug sessions exclude each other in every state of every run. -/
theorem debug_sessions_exclusive (events : List DebugStep) :
    Runs.Always DebugSystem.step Exclusive DebugSystem.initial events := by
  intro passed _
  exact (Runs.invariant_run Inv.step passed Inv.initial).exclusive

end DebugSystem

end SysAgent
