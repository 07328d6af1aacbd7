import SysAgent.Input.BluetoothAddress
import SysAgent.Lib.Runs

set_option autoImplicit false

/-! # Bringing back kicked controllers (`commands.c`)

A kick queues the addresses of the pads it disconnects, a command can queue another, and a pass of
the main loop tries to connect to all that are queued and keeps those it fails for. All of this runs
under the controller's mutex, so that a run is a list of such events; `queued` is a ghost, every
address that was ever put into the queue. -/

namespace SysAgent

def CONTROLLER_SAVED_ADDR_MAX : Nat := 4
def CONTROLLER_RECONNECT_FAST_RETRIES : Nat := 40
def CONTROLLER_RECONNECT_RETRIES : Nat := CONTROLLER_RECONNECT_FAST_RETRIES + 3

/-- The queue and the course of the passes over it. -/
structure ReconnectState where
  savedAddr : List BtdrvAddress
  attempts : Nat
  nextTick : UInt64
  startTick : UInt64
  queued : List BtdrvAddress

/-- A pad as a kick finds it. -/
structure KickedPad where
  /-- The answer of `hidsysGetUniquePadBluetoothAddress`. -/
  address : Option BtdrvAddress
  /-- `hidsysDisconnectUniquePad` succeeds. -/
  disconnects : Bool

/-- What a pass meets with. -/
structure ReconnectPass where
  isInitialised : Bool
  now : UInt64
  systemTickFreq : UInt64
  acquires : Bool
  /-- The answer of `btdrvTriggerConnection` for each place of the queue. -/
  trigger : Nat → UInt32

inductive ReconnectEvent
  /-- `kickControllerSlotHolders`; `none` if hidsys does not name the pads. -/
  | kickSlotHolders (pads : Option (List KickedPad))
  /-- One turn of the loop of `controllerKickCommand`, which unlocks the mutex after each. -/
  | kickCommandPad (pad : KickedPad)
  /-- `controllerReconnectCommand` with the address it is given, if that can be parsed. -/
  | reconnectCommand (address : Option BtdrvAddress)
  | serviceReconnect (pass : ReconnectPass)

namespace ReconnectState

def init : ReconnectState :=
  { savedAddr := [], attempts := 0, nextTick := 0, startTick := 0, queued := [] }

/-- The three assignments that begin a new retry run. -/
def restart (s : ReconnectState) : ReconnectState :=
  { s with attempts := 0, nextTick := 0, startTick := 0 }

/-- `controllerRememberAddressLocked` -/
def rememberAddressLocked (addr : BtdrvAddress) (s : ReconnectState) : Bool × ReconnectState :=
  if addr ∈ s.savedAddr then (false, s)
  else
    let kept := if CONTROLLER_SAVED_ADDR_MAX ≤ s.savedAddr.length then
      (s.savedAddr.drop 1).take (CONTROLLER_SAVED_ADDR_MAX - 1) else s.savedAddr
    (true, { s with savedAddr := kept ++ [addr], queued := s.queued ++ [addr] })

/-- `controllerSaveAddress` -/
def saveAddress (pad : KickedPad) (s : ReconnectState) : ReconnectState :=
  if CONTROLLER_SAVED_ADDR_MAX ≤ s.savedAddr.length then s
  else
    match pad.address with
    | none => s
    | some addr =>
      let (added, s) := s.rememberAddressLocked addr
      if added then s.restart else s

/-- The loop of `kickControllerSlotHolders`, and how many pads it disconnects. -/
def kickPads : List KickedPad → ReconnectState → Nat × ReconnectState
  | [], s => (0, s)
  | pad :: pads, s =>
    let (kicked, s) := kickPads pads (s.saveAddress pad)
    (if pad.disconnects then kicked + 1 else kicked, s)

/-- `controllerReconnectGapNs` -/
def reconnectGapNs (attempt : Nat) : UInt64 :=
  if attempt ≤ CONTROLLER_RECONNECT_FAST_RETRIES then 50000000
  else if attempt = CONTROLLER_RECONNECT_FAST_RETRIES + 1 then 250000000
  else 600000000

/-- The loop over the queue from place `i` on: what is copied to `retry`. -/
def failedTriggers (trigger : Nat → UInt32) : Nat → List BtdrvAddress → List BtdrvAddress
  | _, [] => []
  | i, addr :: rest =>
    if trigger i ≠ 0 then addr :: failedTriggers trigger (i + 1) rest
    else failedTriggers trigger (i + 1) rest

/-- `controllerServiceReconnect` -/
def serviceReconnect (pass : ReconnectPass) (s : ReconnectState) : ReconnectState :=
  if s.savedAddr = [] then s
  else if pass.isInitialised then s
  else if s.nextTick ≠ 0 ∧ pass.now < s.nextTick then s
  else if ¬ pass.acquires then { s with savedAddr := [] }.restart
  else
    let startTick := if s.attempts = 0 then pass.now else s.startTick
    let savedAddr :=
      failedTriggers pass.trigger 0 (s.savedAddr.take CONTROLLER_SAVED_ADDR_MAX)
    let attempts := s.attempts + 1
    if savedAddr = [] ∨ CONTROLLER_RECONNECT_RETRIES ≤ attempts then
      { s with savedAddr := [] }.restart
    else
      let intervalTicks := reconnectGapNs attempts * pass.systemTickFreq / 1000000000
      { s with
        savedAddr := savedAddr
        attempts := attempts
        nextTick := pass.now + intervalTicks
        startTick := startTick }

def step (s : ReconnectState) : ReconnectEvent → ReconnectState
  | .kickSlotHolders none => s
  | .kickSlotHolders (some pads) => (s.kickPads pads).2
  | .kickCommandPad pad => s.saveAddress pad
  | .reconnectCommand none => s
  | .reconnectCommand (some addr) => (s.rememberAddressLocked addr).2.restart
  | .serviceReconnect pass => s.serviceReconnect pass

/-! ## What is kept and what may leave -/

/-- No more than four addresses, each once, in the order in which they were last queued. -/
structure InOrder (s : ReconnectState) : Prop where
  distinct : s.savedAddr.Nodup
  short : s.savedAddr.length ≤ 4
  order : s.savedAddr.Sublist s.queued.dedup

/-- A pass that finds work to do and is not held back. -/
def Due (s : ReconnectState) (pass : ReconnectPass) : Prop :=
  s.savedAddr ≠ [] ∧ pass.isInitialised = false ∧ (s.nextTick = 0 ∨ s.nextTick ≤ pass.now)

/-- A reason to leave the queue. -/
inductive Leaves (s : ReconnectState) (addr : BtdrvAddress) : ReconnectEvent → Prop
  | connected {pass : ReconnectPass} {i : Nat} (hdue : Due s pass)
    (hacquires : pass.acquires = true) (hplace : s.savedAddr[i]? = some addr)
    (htrigger : pass.trigger i = 0) : Leaves s addr (.serviceReconnect pass)
  | exhausted {pass : ReconnectPass} (hdue : Due s pass) (hacquires : pass.acquires = true)
    (hbudget : s.attempts + 1 = 43) : Leaves s addr (.serviceReconnect pass)
  | displaced {requested : BtdrvAddress} (hnew : requested ∉ s.savedAddr)
    (hfull : s.savedAddr.length = 4) (holdest : s.savedAddr.head? = some addr) :
    Leaves s addr (.reconnectCommand (some requested))

/-- The pass finds no session with the Bluetooth driver. -/
def NoDriver (s : ReconnectState) : ReconnectEvent → Prop
  | .serviceReconnect pass => Due s pass ∧ pass.acquires = false
  | _ => False

/-- `attempts` counts the passes over the queue since it was last set to zero. -/
def Counted (s : ReconnectState) (event : ReconnectEvent) : Prop :=
  (s.step event).attempts = 0 ∨ (s.step event).attempts = s.attempts ∨
    ∃ pass, event = .serviceReconnect pass ∧ Due s pass ∧ pass.acquires = true ∧
      (s.step event).attempts = s.attempts + 1

/-- A pad that is disconnected is queued, unless the queue was full or the address not read. -/
def KickQueues (s : ReconnectState) : ReconnectEvent → Prop
  | .kickSlotHolders (some pads) => ∀ before pad after addr, pads = before ++ pad :: after →
      pad.disconnects = true → pad.address = some addr →
        addr ∈ (s.kickPads pads).2.savedAddr ∨ (s.kickPads before).2.savedAddr.length = 4
  | .kickCommandPad pad => ∀ addr, pad.disconnects = true → pad.address = some addr →
      addr ∈ (s.saveAddress pad).savedAddr ∨ s.savedAddr.length = 4
  | _ => True

structure Inv (s : ReconnectState) : Prop where
  inOrder : InOrder s
  budget : s.attempts < CONTROLLER_RECONNECT_RETRIES

/-! ## The order of the queue -/

section Order

variable {α : Type*} [DecidableEq α]

/-- What is queued last is last in the order. -/
theorem sublist_dedup_concat {kept log : List α} {a : α} (h : kept.Sublist log.dedup)
    (ha : a ∉ kept) : (kept ++ [a]).Sublist (log ++ [a]).dedup := by
  induction log generalizing kept with
  | nil =>
    rw [List.dedup_nil, List.sublist_nil] at h
    subst h
    exact List.Sublist.refl _
  | cons x log ih =>
    rw [List.cons_append]
    by_cases hx : x ∈ log
    · rw [List.dedup_cons_of_mem hx] at h
      rw [List.dedup_cons_of_mem (List.mem_append_left _ hx)]
      exact ih h ha
    · rw [List.dedup_cons_of_notMem hx] at h
      by_cases hxa : x = a
      · subst hxa
        rw [List.dedup_cons_of_mem (List.mem_append_right _ (List.mem_singleton.2 rfl))]
        -- the earlier entry has already left
        cases h with
        | cons _ h => exact ih h ha
        | cons_cons _ h => exact absurd List.mem_cons_self ha
      · have hnot : x ∉ log ++ [a] := by
          rw [List.mem_append, List.mem_singleton]
          rintro (h | h)
          · exact hx h
          · exact hxa h
        rw [List.dedup_cons_of_notMem hnot]
        cases h with
        | cons _ h => exact (ih h ha).cons x
        | cons_cons _ h =>
          rw [List.cons_append]
          exact (ih h fun hmem => ha (List.mem_cons_of_mem x hmem)).cons_cons x

end Order

theorem inOrder_of_sublist {s : ReconnectState} (hshort : s.savedAddr.length ≤ 4)
    (horder : s.savedAddr.Sublist s.queued.dedup) : InOrder s :=
  ⟨horder.nodup (List.nodup_dedup _), hshort, horder⟩

/-! ## What each operation does to the queue -/

@[simp] theorem savedAddr_restart (s : ReconnectState) : s.restart.savedAddr = s.savedAddr := rfl

@[simp] theorem queued_restart (s : ReconnectState) : s.restart.queued = s.queued := rfl

@[simp] theorem attempts_restart (s : ReconnectState) : s.restart.attempts = 0 := rfl

theorem inOrder_restart {s : ReconnectState} (h : InOrder s) : InOrder s.restart :=
  ⟨h.distinct, h.short, h.order⟩

section Remember

variable {s : ReconnectState} {addr : BtdrvAddress}

theorem rememberAddressLocked_of_mem (h : addr ∈ s.savedAddr) :
    s.rememberAddressLocked addr = (false, s) :=
  if_pos h

/-- A new address goes behind the others, of which a full queue loses the first. -/
theorem rememberAddressLocked_of_not_mem (hs : InOrder s) (h : addr ∉ s.savedAddr) :
    ∃ kept, s.rememberAddressLocked addr =
        (true, { s with savedAddr := kept ++ [addr], queued := s.queued ++ [addr] }) ∧
      ((s.savedAddr.length < 4 ∧ kept = s.savedAddr) ∨
        (s.savedAddr.length = 4 ∧ ∃ oldest, s.savedAddr = oldest :: kept)) := by
  have hshort := hs.short
  refine ⟨_, if_neg h, ?_⟩
  by_cases hfull : CONTROLLER_SAVED_ADDR_MAX ≤ s.savedAddr.length
  · right
    have hlength : s.savedAddr.length = 4 := le_antisymm hshort hfull
    obtain ⟨oldest, kept, hsplit⟩ := List.exists_cons_of_length_pos
      (show 0 < s.savedAddr.length by omega)
    refine ⟨hlength, oldest, ?_⟩
    rw [hsplit, List.length_cons] at hlength
    have hthree : kept.length ≤ CONTROLLER_SAVED_ADDR_MAX - 1 := by
      show kept.length ≤ 3
      omega
    rw [if_pos hfull, hsplit, List.drop_one, List.tail_cons, List.take_of_length_le hthree]
  · exact Or.inl ⟨not_le.1 hfull, if_neg hfull⟩

theorem inOrder_rememberAddressLocked (hs : InOrder s) :
    InOrder (s.rememberAddressLocked addr).2 := by
  by_cases h : addr ∈ s.savedAddr
  · rw [rememberAddressLocked_of_mem h]
    exact hs
  · obtain ⟨kept, heq, hkept⟩ := rememberAddressLocked_of_not_mem hs h
    have hsub : kept.Sublist s.savedAddr ∧ kept.length ≤ 3 := by
      rcases hkept with ⟨hroom, rfl⟩ | ⟨hfull, oldest, hsplit⟩
      · exact ⟨List.Sublist.refl _, Nat.le_of_lt_succ hroom⟩
      · rw [hsplit] at hfull ⊢
        exact ⟨List.sublist_cons_self _ _, le_of_eq (Nat.succ.inj hfull)⟩
    rw [heq]
    refine inOrder_of_sublist ?_ ?_
    · show (kept ++ [addr]).length ≤ 4
      rw [List.length_append, List.length_singleton]
      omega
    · exact sublist_dedup_concat (hsub.1.trans hs.order) fun hmem => h (hsub.1.subset hmem)

end Remember

section Kick

variable {s : ReconnectState}

/-- What a kick does with one pad. -/
theorem saveAddress_cases (pad : KickedPad) (hs : InOrder s) :
    (s.saveAddress pad = s ∧ (s.savedAddr.length = 4 ∨ pad.address = none ∨
        ∃ addr ∈ s.savedAddr, pad.address = some addr)) ∨
      ∃ addr, s.savedAddr.length < 4 ∧ addr ∉ s.savedAddr ∧ pad.address = some addr ∧
        s.saveAddress pad =
          restart { s with savedAddr := s.savedAddr ++ [addr], queued := s.queued ++ [addr] } := by
  have hshort := hs.short
  unfold saveAddress
  by_cases hfull : CONTROLLER_SAVED_ADDR_MAX ≤ s.savedAddr.length
  · rw [if_pos hfull]
    exact Or.inl ⟨rfl, Or.inl (le_antisymm hshort hfull)⟩
  · rw [if_neg hfull]
    cases haddress : pad.address with
    | none => exact Or.inl ⟨rfl, Or.inr (Or.inl rfl)⟩
    | some addr =>
      by_cases hmem : addr ∈ s.savedAddr
      · left
        dsimp only
        rw [rememberAddressLocked_of_mem hmem]
        exact ⟨rfl, Or.inr (Or.inr ⟨addr, hmem, rfl⟩)⟩
      · right
        have hroom : s.savedAddr.length < 4 := not_le.1 hfull
        obtain ⟨kept, heq, hkept⟩ := rememberAddressLocked_of_not_mem hs hmem
        rcases hkept with ⟨-, rfl⟩ | ⟨hlength, -⟩
        · dsimp only
          rw [heq]
          exact ⟨addr, hroom, hmem, rfl, rfl⟩
        · -- a kick gives up before a full queue could lose its first address
          omega

theorem inOrder_saveAddress (pad : KickedPad) (hs : InOrder s) : InOrder (s.saveAddress pad) := by
  rcases saveAddress_cases pad hs with ⟨heq, -⟩ | ⟨addr, hroom, hnew, -, heq⟩
  · rw [heq]
    exact hs
  · rw [heq]
    refine inOrder_restart (inOrder_of_sublist ?_ (sublist_dedup_concat hs.order hnew))
    show (s.savedAddr ++ [addr]).length ≤ 4
    rw [List.length_append, List.length_singleton]
    omega

theorem saveAddress_grows (pad : KickedPad) (hs : InOrder s) :
    s.savedAddr.Sublist (s.saveAddress pad).savedAddr := by
  rcases saveAddress_cases pad hs with ⟨heq, -⟩ | ⟨addr, -, -, -, heq⟩
  · rw [heq]
  · rw [heq]
    exact List.sublist_append_left _ _

theorem attempts_saveAddress (pad : KickedPad) (hs : InOrder s) :
    (s.saveAddress pad).attempts = 0 ∨ (s.saveAddress pad).attempts = s.attempts := by
  rcases saveAddress_cases pad hs with ⟨heq, -⟩ | ⟨addr, -, -, -, heq⟩
  · exact Or.inr (by rw [heq])
  · exact Or.inl (by rw [heq]; rfl)

/-- The pad's address is queued if there is room for it. -/
theorem mem_saveAddress {pad : KickedPad} {addr : BtdrvAddress} (hs : InOrder s)
    (haddress : pad.address = some addr) :
    addr ∈ (s.saveAddress pad).savedAddr ∨ s.savedAddr.length = 4 := by
  rcases saveAddress_cases pad hs with ⟨heq, hfull | hnone | ⟨known, hmem, hknown⟩⟩ |
    ⟨queued, -, -, hqueued, heq⟩
  · exact Or.inr hfull
  · rw [hnone] at haddress
    cases haddress
  · rw [heq]
    rw [hknown] at haddress
    cases haddress
    exact Or.inl hmem
  · rw [heq]
    rw [hqueued] at haddress
    cases haddress
    exact Or.inl (List.mem_append_right _ (List.mem_singleton.2 rfl))

theorem kickPads_append (before after : List KickedPad) (s : ReconnectState) :
    (s.kickPads (before ++ after)).2 = ((s.kickPads before).2.kickPads after).2 := by
  induction before generalizing s with
  | nil => rfl
  | cons pad before ih => exact ih (s.saveAddress pad)

theorem inOrder_kickPads (pads : List KickedPad) (hs : InOrder s) :
    InOrder (s.kickPads pads).2 := by
  induction pads generalizing s with
  | nil => exact hs
  | cons pad pads ih => exact ih (inOrder_saveAddress pad hs)

theorem kickPads_grows (pads : List KickedPad) (hs : InOrder s) :
    s.savedAddr.Sublist (s.kickPads pads).2.savedAddr := by
  induction pads generalizing s with
  | nil => exact List.Sublist.refl _
  | cons pad pads ih => exact (saveAddress_grows pad hs).trans (ih (inOrder_saveAddress pad hs))

theorem attempts_kickPads (pads : List KickedPad) (hs : InOrder s) :
    (s.kickPads pads).2.attempts = 0 ∨ (s.kickPads pads).2.attempts = s.attempts := by
  induction pads generalizing s with
  | nil => exact Or.inr rfl
  | cons pad pads ih =>
    have hpads := ih (inOrder_saveAddress pad hs)
    rcases attempts_saveAddress pad hs with h | h
    · rw [h, or_self] at hpads
      exact Or.inl hpads
    · rw [h] at hpads
      exact hpads

theorem kickQueues_step (event : ReconnectEvent) (hs : InOrder s) : KickQueues s event := by
  cases event with
  | kickSlotHolders pads =>
    cases pads with
    | none => trivial
    | some pads =>
      rintro before pad after addr rfl - haddress
      have hbefore := inOrder_kickPads before hs
      rw [kickPads_append]
      rcases mem_saveAddress hbefore haddress with hmem | hfull
      · -- later kicks of the same call push nothing out
        exact Or.inl ((kickPads_grows after (inOrder_saveAddress pad hbefore)).subset hmem)
      · exact Or.inr hfull
  | kickCommandPad pad =>
    intro addr _ haddress
    exact mem_saveAddress hs haddress
  | reconnectCommand address => trivial
  | serviceReconnect pass => trivial

end Kick

section Pass

variable {s : ReconnectState} {pass : ReconnectPass}

theorem failedTriggers_sublist (trigger : Nat → UInt32) (i : Nat) (addrs : List BtdrvAddress) :
    (failedTriggers trigger i addrs).Sublist addrs := by
  induction addrs generalizing i with
  | nil => exact List.Sublist.refl _
  | cons addr addrs ih =>
    rw [failedTriggers]
    split_ifs
    · exact (ih (i + 1)).cons_cons addr
    · exact (ih (i + 1)).cons addr

/-- An address that is not kept had its own trigger call succeed. -/
theorem trigger_of_not_mem {trigger : Nat → UInt32} {i : Nat} {addrs : List BtdrvAddress}
    {addr : BtdrvAddress} (hmem : addr ∈ addrs) (hnot : addr ∉ failedTriggers trigger i addrs) :
    ∃ j, addrs[j]? = some addr ∧ trigger (i + j) = 0 := by
  induction addrs generalizing i with
  | nil => exact absurd hmem List.not_mem_nil
  | cons first addrs ih =>
    have hlater : addr ∈ addrs → addr ∉ failedTriggers trigger (i + 1) addrs →
        ∃ j, (first :: addrs)[j]? = some addr ∧ trigger (i + j) = 0 := by
      intro hmem hnot
      obtain ⟨j, hj, htrigger⟩ := ih hmem hnot
      refine ⟨j + 1, by simpa using hj, ?_⟩
      rw [← htrigger]
      congr 1
      omega
    rw [failedTriggers] at hnot
    split_ifs at hnot with hfailed
    · rw [List.mem_cons, not_or] at hnot
      exact hlater ((List.mem_cons.1 hmem).resolve_left hnot.1) hnot.2
    · rcases List.mem_cons.1 hmem with rfl | hmem
      · exact ⟨0, rfl, not_not.1 hfailed⟩
      · exact hlater hmem hnot

/-- What a pass does: nothing, or it gives up, or it goes on with the addresses that are left. -/
theorem serviceReconnect_cases (pass : ReconnectPass) (hs : InOrder s) :
    (s.serviceReconnect pass = s ∧ ¬ Due s pass) ∨
      (Due s pass ∧ pass.acquires = false ∧
        s.serviceReconnect pass = restart { s with savedAddr := [] }) ∨
      (Due s pass ∧ pass.acquires = true ∧
        (failedTriggers pass.trigger 0 s.savedAddr = [] ∨ 43 ≤ s.attempts + 1) ∧
          s.serviceReconnect pass = restart { s with savedAddr := [] }) ∨
      (Due s pass ∧ pass.acquires = true ∧ s.attempts + 1 < 43 ∧
        (s.serviceReconnect pass).savedAddr = failedTriggers pass.trigger 0 s.savedAddr ∧
          (s.serviceReconnect pass).attempts = s.attempts + 1 ∧
            (s.serviceReconnect pass).queued = s.queued) := by
  have hall : s.savedAddr.take CONTROLLER_SAVED_ADDR_MAX = s.savedAddr :=
    List.take_of_length_le hs.short
  unfold serviceReconnect
  by_cases hempty : s.savedAddr = []
  · rw [if_pos hempty]
    exact Or.inl ⟨rfl, fun hdue => hdue.1 hempty⟩
  by_cases hinitialised : pass.isInitialised = true
  · rw [if_neg hempty, if_pos hinitialised]
    refine Or.inl ⟨rfl, fun hdue => ?_⟩
    rw [hdue.2.1] at hinitialised
    exact Bool.false_ne_true hinitialised
  by_cases hearly : s.nextTick ≠ 0 ∧ pass.now < s.nextTick
  · rw [if_neg hempty, if_neg hinitialised, if_pos hearly]
    refine Or.inl ⟨rfl, fun hdue => ?_⟩
    rcases hdue.2.2 with hzero | hreached
    · exact hearly.1 hzero
    · exact absurd hearly.2 (UInt64.not_lt.2 hreached)
  have hdue : Due s pass := by
    refine ⟨hempty, Bool.not_eq_true _ ▸ hinitialised, ?_⟩
    by_cases hzero : s.nextTick = 0
    · exact Or.inl hzero
    · exact Or.inr (UInt64.not_lt.1 fun hlt => hearly ⟨hzero, hlt⟩)
  rw [if_neg hempty, if_neg hinitialised, if_neg hearly]
  by_cases hacquires : pass.acquires = true
  · rw [if_neg (not_not.2 hacquires), hall]
    dsimp only
    by_cases hdone : failedTriggers pass.trigger 0 s.savedAddr = [] ∨
        CONTROLLER_RECONNECT_RETRIES ≤ s.attempts + 1
    · rw [if_pos hdone]
      exact Or.inr (Or.inr (Or.inl ⟨hdue, hacquires, hdone, rfl⟩))
    · rw [if_neg hdone]
      rw [not_or, not_le] at hdone
      exact Or.inr (Or.inr (Or.inr ⟨hdue, hacquires, hdone.2, rfl, rfl, rfl⟩))
  · rw [if_pos hacquires]
    exact Or.inr (Or.inl ⟨hdue, Bool.not_eq_true _ ▸ hacquires, rfl⟩)

theorem inOrder_serviceReconnect (hs : InOrder s) : InOrder (s.serviceReconnect pass) := by
  have hnone : InOrder (restart { s with savedAddr := [] }) :=
    inOrder_of_sublist (Nat.zero_le 4) (List.nil_sublist _)
  rcases serviceReconnect_cases pass hs with ⟨heq, -⟩ | ⟨-, -, heq⟩ | ⟨-, -, -, heq⟩ |
    ⟨-, -, -, hsaved, -, hqueued⟩
  · rw [heq]
    exact hs
  · rw [heq]
    exact hnone
  · rw [heq]
    exact hnone
  · have hkept := failedTriggers_sublist pass.trigger 0 s.savedAddr
    refine inOrder_of_sublist ?_ ?_
    · rw [hsaved]
      exact hkept.length_le.trans hs.short
    · rw [hsaved, hqueued]
      exact hkept.trans hs.order

theorem leaves_serviceReconnect (hs : Inv s) {addr : BtdrvAddress} (hmem : addr ∈ s.savedAddr)
    (hnot : addr ∉ (s.serviceReconnect pass).savedAddr) :
    Leaves s addr (.serviceReconnect pass) ∨ NoDriver s (.serviceReconnect pass) := by
  have hsucceeded (hdue : Due s pass) (hacquires : pass.acquires = true)
      (hfailed : addr ∉ failedTriggers pass.trigger 0 s.savedAddr) :
      Leaves s addr (.serviceReconnect pass) := by
    obtain ⟨j, hplace, htrigger⟩ := trigger_of_not_mem hmem hfailed
    rw [Nat.zero_add] at htrigger
    exact .connected hdue hacquires hplace htrigger
  rcases serviceReconnect_cases pass hs.inOrder with ⟨heq, -⟩ | ⟨hdue, hacquires, -⟩ |
    ⟨hdue, hacquires, hdone, -⟩ | ⟨hdue, hacquires, -, hsaved, -⟩
  · rw [heq] at hnot
    exact absurd hmem hnot
  · exact Or.inr ⟨hdue, hacquires⟩
  · left
    rcases hdone with hnone | hbudget
    · exact hsucceeded hdue hacquires (by rw [hnone]; exact List.not_mem_nil)
    · -- the invariant keeps the passes below the budget, so this one is the last
      have hlast : s.attempts + 1 = 43 := le_antisymm hs.budget hbudget
      exact .exhausted hdue hacquires hlast
  · rw [hsaved] at hnot
    exact Or.inl (hsucceeded hdue hacquires hnot)

end Pass

/-! ## Whole runs -/

section Runs

variable {s : ReconnectState} (event : ReconnectEvent)

theorem counted_step (hs : InOrder s) : Counted s event := by
  cases event with
  | kickSlotHolders pads =>
    cases pads with
    | none => exact Or.inr (Or.inl rfl)
    | some pads => exact (attempts_kickPads pads hs).imp_right Or.inl
  | kickCommandPad pad => exact (attempts_saveAddress pad hs).imp_right Or.inl
  | reconnectCommand address =>
    cases address with
    | none => exact Or.inr (Or.inl rfl)
    | some addr => exact Or.inl rfl
  | serviceReconnect pass =>
    rcases serviceReconnect_cases pass hs with ⟨heq, -⟩ | ⟨-, -, heq⟩ | ⟨-, -, -, heq⟩ |
      ⟨hdue, hacquires, -, -, hnext, -⟩
    · exact Or.inr (Or.inl (congrArg attempts heq))
    · exact Or.inl (congrArg attempts heq)
    · exact Or.inl (congrArg attempts heq)
    · exact Or.inr (Or.inr ⟨pass, rfl, hdue, hacquires, hnext⟩)

theorem inOrder_step (hs : InOrder s) : InOrder (s.step event) := by
  cases event with
  | kickSlotHolders pads =>
    cases pads with
    | none => exact hs
    | some pads => exact inOrder_kickPads pads hs
  | kickCommandPad pad => exact inOrder_saveAddress pad hs
  | reconnectCommand address =>
    cases address with
    | none => exact hs
    | some addr => exact inOrder_restart (inOrder_rememberAddressLocked hs)
  | serviceReconnect pass => exact inOrder_serviceReconnect hs

theorem inv_step (hs : Inv s) : Inv (s.step event) := by
  refine ⟨inOrder_step event hs.inOrder, ?_⟩
  have hbudget := hs.budget
  rcases counted_step event hs.inOrder with h | h | ⟨pass, rfl, -, -, h⟩
  · rw [h]
    decide
  · rw [h]
    exact hbudget
  · -- a pass that uses the budget up begins a new run
    rcases serviceReconnect_cases pass hs.inOrder with ⟨heq, -⟩ | ⟨-, -, heq⟩ |
      ⟨-, -, -, heq⟩ | ⟨-, -, hroom, -⟩
    · exact (congrArg attempts heq).trans_lt hbudget
    · exact (congrArg attempts heq).trans_lt (show 0 < CONTROLLER_RECONNECT_RETRIES by decide)
    · exact (congrArg attempts heq).trans_lt (show 0 < CONTROLLER_RECONNECT_RETRIES by decide)
    · rw [h]
      exact hroom

theorem leaves_step (hs : Inv s) {addr : BtdrvAddress} (hmem : addr ∈ s.savedAddr)
    (hnot : addr ∉ (s.step event).savedAddr) : Leaves s addr event ∨ NoDriver s event := by
  cases event with
  | kickSlotHolders pads =>
    cases pads with
    | none => exact absurd hmem hnot
    | some pads => exact absurd ((kickPads_grows pads hs.inOrder).subset hmem) hnot
  | kickCommandPad pad => exact absurd ((saveAddress_grows pad hs.inOrder).subset hmem) hnot
  | reconnectCommand address =>
    cases address with
    | none => exact absurd hmem hnot
    | some requested =>
      have hleft : addr ∉ (s.rememberAddressLocked requested).2.savedAddr := hnot
      by_cases hknown : requested ∈ s.savedAddr
      · rw [rememberAddressLocked_of_mem hknown] at hleft
        exact absurd hmem hleft
      · obtain ⟨kept, heq, hkept⟩ := rememberAddressLocked_of_not_mem hs.inOrder hknown
        rw [heq] at hleft
        have hnotKept : addr ∉ kept := fun h => hleft (List.mem_append_left _ h)
        rcases hkept with ⟨-, rfl⟩ | ⟨hfull, oldest, hsplit⟩
        · exact absurd hmem hnotKept
        · rw [hsplit] at hmem
          have haddr := (List.mem_cons.1 hmem).resolve_right hnotKept
          exact Or.inl (.displaced hknown hfull (by rw [hsplit, haddr]; rfl))
  | serviceReconnect pass => exact leaves_serviceReconnect hs hmem hnot

end Runs

theorem inv_init : Inv init :=
  ⟨inOrder_of_sublist (Nat.zero_le 4) (List.Sublist.refl _), by decide⟩

/-- In every run the queue is in order, an address leaves it for one of the reasons or because a
    pass finds no session with the driver, and what a kick disconnects is queued. -/
theorem kicked_controllers_stay_queued (events : List ReconnectEvent) :
    Runs.Always step InOrder init events ∧
      Runs.EachStep step (fun s event => (∀ addr ∈ s.savedAddr,
        addr ∉ (s.step event).savedAddr → Leaves s addr event ∨ NoDriver s event) ∧
          Counted s event ∧ KickQueues s event) init events := by
  have hinv : ∀ p : List ReconnectEvent, Inv (Runs.run step init p) := fun p =>
    Runs.invariant_run (fun _ event hs => inv_step event hs) p inv_init
  constructor
  · intro p _
    exact (hinv p).inOrder
  · intro p event _
    refine ⟨?_, counted_step event (hinv p).inOrder, kickQueues_step event (hinv p).inOrder⟩
    intro addr hmem hnot
    exact leaves_step event (hinv p) hmem hnot

/-- A pass without a session empties the queue. -/
theorem kicked_controller_dropped_without_driver :
    ¬ Runs.EachStep step (fun s event => ∀ addr ∈ s.savedAddr,
      addr ∉ (s.step event).savedAddr → Leaves s addr event) init
        [.kickSlotHolders (some [⟨some ⟨[1, 2, 3, 4, 5, 6], rfl⟩, true⟩]),
          .serviceReconnect ⟨false, 0, 19200000, false, fun _ => 0⟩] := by
  intro hlaw
  have hleaves := hlaw [.kickSlotHolders (some [⟨some ⟨[1, 2, 3, 4, 5, 6], rfl⟩, true⟩])]
    (.serviceReconnect ⟨false, 0, 19200000, false, fun _ => 0⟩) (List.prefix_refl _)
    ⟨[1, 2, 3, 4, 5, 6], rfl⟩ (by decide) (by decide)
  cases hleaves with
  | connected _ hacquires => cases hacquires
  | exhausted _ hacquires => cases hacquires

end ReconnectState

end SysAgent
