import Mathlib

set_option autoImplicit false

/-! # Headless launches (`game_launch_headless_auto` in `sysagent.py`)

A title is launched after its update's key has been registered on the console, from one of four
sources. A call whose reply is lost raises, though the console may have acted. The model keeps the
rights ids that the console has keys for and, as a ghost, those for which a call has registered or
may have registered one. -/

namespace SysAgent

/-- An exception: a `SysAgentProtocolError`, or one of another class. -/
inductive LaunchError
  | protocol
  | other
  deriving DecidableEq

/-- How a call ends; the loss of a reply raises an exception of either kind. -/
inductive ConsoleReply
  | ok
  | err
  | lost (error : LaunchError)
  deriving DecidableEq

/-- What `require_ok` and the connection raise. -/
def ConsoleReply.raised : ConsoleReply → Option LaunchError
  | .ok => none
  | .err => some .protocol
  | .lost error => some error

structure KeyConsole where
  keys : String → Bool
  /-- A register or prepare command for the id was acknowledged, or its reply was lost. -/
  registered : String → Bool
  /-- A launch was acknowledged. -/
  launched : Bool

namespace KeyConsole

/-- A console with these keys, before the first command. -/
def start (keys : String → Bool) : KeyConsole where
  keys := keys
  registered _ := false
  launched := false

end KeyConsole

/-- What a method raises, if it does, and the console after it. -/
abbrev LaunchOutcome := Option LaunchError × KeyConsole

/-- A method that goes on with another when it has not raised. -/
def LaunchOutcome.andThen (outcome : LaunchOutcome) (next : KeyConsole → LaunchOutcome) :
    LaunchOutcome :=
  match outcome.1 with
  | some error => (some error, outcome.2)
  | none => next outcome.2

/-! ## Commands -/

/-- `game_external_key_register` and `game_external_key_prepare_common`. -/
def registerKey (reply : ConsoleReply) (rightsId : String) (console : KeyConsole) : LaunchOutcome :=
  (reply.raised,
    if reply = .err then console
    else { console with
      keys := Function.update console.keys rightsId true
      registered := Function.update console.registered rightsId true })

/-- `game_external_key_unregister`, of which the request reaches the console. -/
def unregisterKey (reply : ConsoleReply) (rightsId : String) (console : KeyConsole) :
    LaunchOutcome :=
  (reply.raised, { console with keys := Function.update console.keys rightsId false })

/-- `try: unregister; except SysAgentProtocolError: pass` -/
def tryUnregister (reply : ConsoleReply) (rightsId : String) (console : KeyConsole) :
    LaunchOutcome :=
  let outcome := unregisterKey reply rightsId console
  (if outcome.1 = some .protocol then none else outcome.1, outcome.2)

/-- The arguments that `game_launch_headless` does not refuse with a `ValueError`. -/
def titleAccepted (titleId : Int) : Bool :=
  decide (0 < titleId) && decide (titleId ≤ 0xFFFFFFFFFFFFFFFF)

def storageAccepted : Option String → Bool
  | none => true
  | some storage => storage ∈ ["SdCard", "BuiltInUser", "GameCard", "None"]

/-- A title to launch. -/
structure LaunchRequest where
  titleId : Int
  storage : Option String

/-- `game_launch_headless`. -/
def launchHeadless (request : LaunchRequest) (reply : ConsoleReply) (console : KeyConsole) :
    LaunchOutcome :=
  if !titleAccepted request.titleId || !storageAccepted request.storage then (some .other, console)
  else (reply.raised, { console with launched := reply = .ok })

/-- A launch that drops the key when it raises. -/
def launchOrUnregister (request : LaunchRequest) (reply cleanup : ConsoleReply) (rightsId : String)
    (console : KeyConsole) : LaunchOutcome :=
  let outcome := launchHeadless request reply console
  match outcome.1 with
  | none => outcome
  | some error =>
    let dropped := tryUnregister cleanup rightsId outcome.2
    (some (dropped.1.getD error), dropped.2)

/-! ## The methods -/

/-- What the key files of the host hold. A loader may raise, and a path that is `None` loads
    nothing. -/
structure KeySources where
  /-- `load_titlekey_block_from_blocks`: the block and its generation. -/
  block : String → Except LaunchError (Option (String × Nat))
  /-- `load_titlekey_from_titlekeys`. -/
  titleKey : String → Except LaunchError (Option String)
  /-- `fallback_keys_path` or `keys_path` is given. -/
  hasKeysPath : Bool
  /-- The title key of a ticket with this rights id, by the keys of that path. -/
  ticketKey : String → String → Except LaunchError String

/-- What the console answers to the commands of a launch. -/
structure LaunchAnswers where
  /-- The rights id in the line of `gameExternalKeyProbe`, if it has one. -/
  probe : Except LaunchError (Option String)
  unregister : ConsoleReply
  /-- To the register or the prepare command. -/
  register : ConsoleReply
  /-- The rights id and the ticket of `gameTicketRead`. -/
  ticket : Except LaunchError (String × String)
  launch : ConsoleReply
  /-- To the unregister command after a launch that has failed. -/
  cleanup : ConsoleReply

/-- `game_launch_headless_with_keys` before its first key command: the rights id of the ticket, of
    which the key was found. -/
def ticketRights (request : LaunchRequest) (sources : KeySources) (answers : LaunchAnswers) :
    Except LaunchError String :=
  if !sources.hasKeysPath || !titleAccepted request.titleId then .error .other
  else
    match answers.ticket with
    | .error error => .error error
    | .ok (rightsId, ticket) =>
      if rightsId.length ≠ 32 ∨ ticket.length = 0 then .error .protocol
      else (sources.ticketKey rightsId ticket).map fun _ => rightsId

/-- `game_launch_headless_with_keys`. -/
def gameLaunchHeadlessWithKeys (request : LaunchRequest) (sources : KeySources)
    (answers : LaunchAnswers) (console : KeyConsole) : LaunchOutcome :=
  match ticketRights request sources answers with
  | .error error => (some error, console)
  | .ok rightsId =>
    (registerKey answers.register rightsId console).andThen
      (launchHeadless request answers.launch)

/-- The source of the key: a block or a title key of the file, a ticket, or none. -/
inductive KeyChoice
  | file
  | ticket
  | none
  deriving DecidableEq

/-- The source that `game_launch_headless_auto` takes. -/
def KeySources.choice (sources : KeySources) (rightsId : String) : Except LaunchError KeyChoice :=
  match sources.block rightsId with
  | .error error => .error error
  | .ok (some _) => .ok .file
  | .ok none =>
    match sources.titleKey rightsId with
    | .error error => .error error
    | .ok (some _) => .ok .file
    | .ok none => .ok (if sources.hasKeysPath then .ticket else .none)

/-- `game_launch_headless_auto`; with a block of the file and with a title key it sends the same
    commands, but for the one that registers. -/
def gameLaunchHeadlessAuto (request : LaunchRequest) (sources : KeySources)
    (answers : LaunchAnswers) (console : KeyConsole) : LaunchOutcome :=
  match answers.probe with
  | .error error => (some error, console)
  | .ok none => (some .protocol, console)
  | .ok (some rightsId) =>
    match sources.choice rightsId with
    | .error error => (some error, console)
    | .ok .file =>
      ((tryUnregister answers.unregister rightsId console).andThen
        (registerKey answers.register rightsId)).andThen
          (launchOrUnregister request answers.launch answers.cleanup rightsId)
    | .ok .ticket => gameLaunchHeadlessWithKeys request sources answers console
    | .ok .none => launchOrUnregister request answers.launch answers.cleanup rightsId console

/-- The two methods. -/
inductive LaunchMethod
  | auto
  | withKeys
  deriving DecidableEq

def headlessLaunch (launchMethod : LaunchMethod) (request : LaunchRequest) (sources : KeySources)
    (answers : LaunchAnswers) (console : KeyConsole) : LaunchOutcome :=
  match launchMethod with
  | .auto => gameLaunchHeadlessAuto request sources answers console
  | .withKeys => gameLaunchHeadlessWithKeys request sources answers console

/-! ## What a launch leaves -/

/-- A method that raises leaves no key of its own, and one that returns has launched the title. -/
def LeavesNoKey (outcome : LaunchOutcome) : Prop :=
  match outcome.1 with
  | some _ => ∀ rightsId, outcome.2.registered rightsId = true → outcome.2.keys rightsId = false
  | none => outcome.2.launched = true

section Steps

variable {request : LaunchRequest} {console : KeyConsole} {rightsId : String}

theorem launchHeadless_keeps (reply : ConsoleReply) :
    (launchHeadless request reply console).2.keys = console.keys ∧
      (launchHeadless request reply console).2.registered = console.registered := by
  unfold launchHeadless
  split_ifs
  · exact ⟨rfl, rfl⟩
  · exact ⟨rfl, rfl⟩

theorem launchHeadless_launched {reply : ConsoleReply}
    (h : (launchHeadless request reply console).1 = none) :
    (launchHeadless request reply console).2.launched = true := by
  unfold launchHeadless at h ⊢
  split_ifs at h ⊢
  cases reply with
  | ok => rfl
  | err => cases h
  | lost error => cases h

/-- A launch that does not raise. -/
theorem launchHeadless_eq_none {reply : ConsoleReply} :
    (launchHeadless request reply console).1 = none ↔
      titleAccepted request.titleId = true ∧ storageAccepted request.storage = true ∧
        reply = .ok := by
  unfold launchHeadless
  cases htitle : titleAccepted request.titleId with
  | false => simp
  | true =>
    cases hstorage : storageAccepted request.storage with
    | false => simp
    | true => cases reply <;> simp [ConsoleReply.raised]

theorem tryUnregister_keys (reply : ConsoleReply) :
    (tryUnregister reply rightsId console).2 =
      { console with keys := Function.update console.keys rightsId false } := rfl

/-- A launch that drops the key leaves no key, if that key is the only one. -/
theorem launchOrUnregister_leavesNoKey (reply cleanup : ConsoleReply)
    (honly : ∀ id, console.registered id = true → id = rightsId) :
    LeavesNoKey (launchOrUnregister request reply cleanup rightsId console) := by
  unfold LeavesNoKey launchOrUnregister
  dsimp only
  cases hraised : (launchHeadless request reply console).1 with
  | none =>
    dsimp only
    rw [hraised]
    exact launchHeadless_launched hraised
  | some error =>
    dsimp only
    rw [tryUnregister_keys]
    intro id hregistered
    dsimp only at hregistered ⊢
    rw [(launchHeadless_keeps reply).2] at hregistered
    rw [honly id hregistered, Function.update_self]

/-- The key of a register command that raises stays if the reply was lost. -/
theorem registerKey_raised {reply : ConsoleReply} {error : LaunchError}
    (hraised : reply.raised = some error) (hnone : ∀ id, console.registered id = false) :
    LeavesNoKey (registerKey reply rightsId console) ↔ reply = .err := by
  unfold LeavesNoKey registerKey
  rw [hraised]
  dsimp only
  cases reply with
  | ok => cases hraised
  | err =>
    simp only [if_true, iff_true]
    intro id hregistered
    cases (hnone id).symm.trans hregistered
  | lost lostError =>
    simp only [reduceCtorEq, if_false, iff_false]
    intro h
    have hkey := h rightsId (by simp)
    simp at hkey

end Steps

/-! ## Which launches leave no key -/

/-- A register or prepare command is answered. -/
def Answered (answers : LaunchAnswers) : Prop :=
  ∀ error, answers.register ≠ .lost error

/-- If the key of a ticket is registered, the reply arrives and the launch succeeds. -/
def TicketSettled (request : LaunchRequest) (sources : KeySources) (answers : LaunchAnswers) :
    Prop :=
  ∀ rightsId, ticketRights request sources answers = .ok rightsId →
    Answered answers ∧
      (answers.register = .ok → storageAccepted request.storage = true ∧ answers.launch = .ok)

def LaunchSettled (launchMethod : LaunchMethod) (request : LaunchRequest) (sources : KeySources)
    (answers : LaunchAnswers) : Prop :=
  match launchMethod with
  | .withKeys => TicketSettled request sources answers
  | .auto => ∀ rightsId, answers.probe = .ok (some rightsId) →
      (sources.choice rightsId = .ok .file → answers.unregister.raised ≠ some .other →
        Answered answers) ∧
      (sources.choice rightsId = .ok .ticket → TicketSettled request sources answers)

section Methods

variable {request : LaunchRequest} {sources : KeySources} {answers : LaunchAnswers}
  {console : KeyConsole}

theorem leavesNoKey_of_raised {error : LaunchError} (hnone : ∀ id, console.registered id = false) :
    LeavesNoKey (some error, console) := by
  intro id hregistered
  cases (hnone id).symm.trans hregistered

theorem titleAccepted_of_ticketRights {rightsId : String}
    (h : ticketRights request sources answers = .ok rightsId) :
    titleAccepted request.titleId = true := by
  unfold ticketRights at h
  split_ifs at h with hrefused
  rw [Bool.or_eq_true, not_or] at hrefused
  simpa using hrefused.2

theorem withKeys_leavesNoKey_iff (hnone : ∀ id, console.registered id = false) :
    LeavesNoKey (gameLaunchHeadlessWithKeys request sources answers console) ↔
      TicketSettled request sources answers := by
  unfold gameLaunchHeadlessWithKeys TicketSettled
  cases hrights : ticketRights request sources answers with
  | error error =>
    simp only [reduceCtorEq, false_imp_iff, implies_true, iff_true]
    exact leavesNoKey_of_raised hnone
  | ok rightsId =>
    have htitle := titleAccepted_of_ticketRights hrights
    simp only [Except.ok.injEq, forall_eq']
    unfold LaunchOutcome.andThen Answered
    cases hregister : answers.register with
    | err =>
      simp only [registerKey, ConsoleReply.raised, if_true, reduceCtorEq, ne_eq, not_false_eq_true,
        implies_true, false_imp_iff, and_self, iff_true]
      exact leavesNoKey_of_raised hnone
    | lost error =>
      have hlost := @registerKey_raised console rightsId (.lost error) error rfl hnone
      simp only [reduceCtorEq, iff_false] at hlost
      simp only [registerKey, ConsoleReply.raised] at hlost ⊢
      refine iff_of_false hlost fun h => h.1 error rfl
    | ok =>
      have hkept := @launchHeadless_keeps request (registerKey .ok rightsId console).2
        answers.launch
      have hlaunch := @launchHeadless_eq_none request (registerKey .ok rightsId console).2
        answers.launch
      rw [htitle] at hlaunch
      simp only [registerKey, ConsoleReply.raised, reduceCtorEq, if_false, ne_eq,
        not_false_eq_true, implies_true, true_and, forall_const] at hkept hlaunch ⊢
      rw [← hlaunch]
      unfold LeavesNoKey
      cases hraised : (launchHeadless request answers.launch
          { console with
            keys := Function.update console.keys rightsId true
            registered := Function.update console.registered rightsId true }).1 with
      | none =>
        dsimp only
        exact iff_of_true (launchHeadless_launched hraised) rfl
      | some error =>
        -- the key stays behind
        simp only [reduceCtorEq, iff_false]
        rw [hkept.1, hkept.2]
        intro h
        have hkey := h rightsId (by simp)
        simp at hkey

/-- The stale key is dropped, the new one registered and the title launched. -/
theorem fileLaunch_leavesNoKey_iff {rightsId : String}
    (hnone : ∀ id, console.registered id = false) :
    LeavesNoKey (((tryUnregister answers.unregister rightsId console).andThen
        (registerKey answers.register rightsId)).andThen
          (launchOrUnregister request answers.launch answers.cleanup rightsId)) ↔
      (answers.unregister.raised ≠ some .other → Answered answers) := by
  have hdropped : ∀ id, (tryUnregister answers.unregister rightsId console).2.registered id =
      false := hnone
  by_cases hother : answers.unregister.raised = some .other
  · -- the first unregister command raises, and nothing else is sent
    have hraised : (tryUnregister answers.unregister rightsId console).1 = some .other := by
      unfold tryUnregister unregisterKey
      dsimp only
      rw [hother]
      rfl
    unfold LaunchOutcome.andThen
    rw [hraised]
    simp only [hother, ne_eq, not_true_eq_false, false_imp_iff, iff_true]
    exact leavesNoKey_of_raised hdropped
  · have hraised : (tryUnregister answers.unregister rightsId console).1 = none := by
      unfold tryUnregister unregisterKey
      dsimp only
      split_ifs with hprotocol
      · rfl
      · cases hreply : answers.unregister.raised with
        | none => rfl
        | some error =>
          rw [hreply] at hother hprotocol
          cases error with
          | protocol => exact absurd rfl hprotocol
          | other => exact absurd rfl hother
    have hfirst : ((tryUnregister answers.unregister rightsId console).andThen
        (registerKey answers.register rightsId)) = registerKey answers.register rightsId
          (tryUnregister answers.unregister rightsId console).2 := by
      conv_lhs => unfold LaunchOutcome.andThen
      rw [hraised]
    simp only [hother, ne_eq, not_false_eq_true, forall_const]
    rw [hfirst]
    unfold LaunchOutcome.andThen
    cases hregister : answers.register.raised with
    | some error =>
      have hsent : (registerKey answers.register rightsId
          (tryUnregister answers.unregister rightsId console).2).1 = some error := hregister
      have hleaves := @registerKey_raised _ rightsId _ _ hregister hdropped
      rw [hsent]
      dsimp only
      rw [← hsent]
      refine hleaves.trans ?_
      unfold Answered
      cases hreply : answers.register with
      | ok => rw [hreply] at hregister; cases hregister
      | err => simp
      | lost lostError => simp
    | none =>
      have hsent : (registerKey answers.register rightsId
          (tryUnregister answers.unregister rightsId console).2).1 = none := hregister
      have hreply : answers.register = .ok := by
        cases hreply : answers.register with
        | ok => rfl
        | err => rw [hreply] at hregister; cases hregister
        | lost error => rw [hreply] at hregister; cases hregister
      rw [hsent]
      dsimp only
      refine iff_of_true (launchOrUnregister_leavesNoKey _ _ fun id hid => ?_) fun error hlost => ?_
      · rw [hreply] at hid
        unfold registerKey at hid
        simp only [reduceCtorEq, if_false] at hid
        by_contra hne
        rw [Function.update_of_ne hne] at hid
        cases (hdropped id).symm.trans hid
      · rw [hreply] at hlost
        cases hlost

end Methods

/-- When a launch leaves no key that it has or may have registered. -/
theorem headless_launch_leaves_no_key_iff (launchMethod : LaunchMethod) (request : LaunchRequest)
    (sources : KeySources) (answers : LaunchAnswers) (keys : String → Bool) :
    LeavesNoKey (headlessLaunch launchMethod request sources answers (KeyConsole.start keys)) ↔
      LaunchSettled launchMethod request sources answers := by
  have hnone : ∀ id, (KeyConsole.start keys).registered id = false := fun _ => rfl
  cases launchMethod with
  | withKeys => exact withKeys_leavesNoKey_iff hnone
  | auto =>
    unfold headlessLaunch gameLaunchHeadlessAuto LaunchSettled
    dsimp only
    cases hprobe : answers.probe with
    | error error =>
      simp only [reduceCtorEq, false_imp_iff, implies_true, iff_true]
      exact leavesNoKey_of_raised hnone
    | ok found =>
      cases found with
      | none =>
        simp only [Except.ok.injEq, reduceCtorEq, false_imp_iff, implies_true, iff_true]
        exact leavesNoKey_of_raised hnone
      | some rightsId =>
        simp only [Except.ok.injEq, Option.some.injEq, forall_eq']
        cases hchoice : sources.choice rightsId with
        | error error =>
          simp only [reduceCtorEq, false_imp_iff, and_self, iff_true]
          exact leavesNoKey_of_raised hnone
        | ok choice =>
          cases choice with
          | none =>
            simp only [Except.ok.injEq, reduceCtorEq, false_imp_iff, and_self, iff_true]
            exact launchOrUnregister_leavesNoKey _ _ fun id hid => nomatch hid
          | ticket =>
            simp only [Except.ok.injEq, reduceCtorEq, false_imp_iff, true_and, forall_const]
            exact withKeys_leavesNoKey_iff hnone
          | file =>
            simp only [Except.ok.injEq, reduceCtorEq, false_imp_iff, and_true, forall_const]
            exact fileLaunch_leavesNoKey_iff hnone

/-- A title whose key comes from a file, which is registered although the reply is lost. -/
def lostRegister : LaunchAnswers where
  probe := .ok (some "01006F80023268000000000000000003")
  unregister := .err
  register := .lost .protocol
  ticket := .error .protocol
  launch := .ok
  cleanup := .ok

def blockFile : KeySources where
  block _ := .ok (some ("000102030405060708090A0B0C0D0E0F", 11))
  titleKey _ := .ok none
  hasKeysPath := false
  ticketKey _ _ := .error .protocol

/-- The key of a lost prepare command stays, and so does that of a ticket if the launch fails. -/
theorem key_of_lost_register_stays :
    (¬ LeavesNoKey (headlessLaunch .auto ⟨0x01006F8002326000, none⟩ blockFile lostRegister
      (KeyConsole.start fun _ => false))) ∧
    ¬ LeavesNoKey (headlessLaunch .withKeys ⟨0x01006F8002326000, none⟩
      { blockFile with hasKeysPath := true, ticketKey := fun _ _ => .ok "00" }
      { lostRegister with
        register := .ok
        ticket := .ok ("01006F80023268000000000000000003", "00")
        launch := .err }
      (KeyConsole.start fun _ => false)) := by
  constructor
  · intro h
    have hkey := h "01006F80023268000000000000000003" (by decide)
    revert hkey
    decide
  · intro h
    have hkey := h "01006F80023268000000000000000003" (by decide)
    revert hkey
    decide

end SysAgent
