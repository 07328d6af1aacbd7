import Mathlib

set_option autoImplicit false

/-! # Hardware breakpoints on all cores (`debug_hwbp.c`)

The debug registers are per core, so the calling thread moves from core to core and programs each.
`core` of the state is where the thread runs, `mask` and `preferred` what the kernel has been asked
for; `touched` is a ghost, the cores on which a register has been programmed or was to be. -/

namespace SysAgent

def DEBUG_HWBP_CORE_COUNT : Nat := 4
def DEBUG_HWBP_DEFAULT_CORE : Nat := 3
def DEBUG_HWBP_BATCH_MAX : Nat := 4

/-- `MAKERESULT(Module_Libnx, LibnxError_BadInput)` -/
def badInputResult : UInt32 := 0x1759

/-- A register that is to be programmed, from the three arrays. -/
structure BreakpointSetting where
  register : UInt32
  control : UInt64
  value : UInt64
  deriving DecidableEq

/-- The debug registers and the calling thread. -/
structure BreakpointState where
  registers : Nat → UInt32 → UInt64 × UInt64
  preferred : Int
  mask : UInt64
  touched : Nat → Bool

/-- The control and the value of a register that traps nothing. -/
def disabled : UInt64 × UInt64 := (0, 0)

/-- The answers of one `pinToCore`: that of `svcSetThreadCoreMask`, and whether the thread is on the
    core before the attempts are over. -/
structure PinAnswer where
  setMask : UInt32
  arrives : Bool

/-- The answers of the kernel, in the phase that sets and in the one that takes back. -/
structure BreakpointAnswers where
  getMask : UInt32
  pin : Nat → PinAnswer
  /-- `svcSetHardwareBreakPoint` on a core, for the entry of the list at an index. -/
  set : Nat → Nat → UInt32
  rollbackPin : Nat → PinAnswer
  rollbackSet : Nat → Nat → UInt32
  restore : UInt32

namespace BreakpointState

/-- `svcSetThreadCoreMask`. -/
def setThreadCoreMask (answer : UInt32) (core : Int) (mask : UInt64) (s : BreakpointState) :
    BreakpointState :=
  if answer = 0 then { s with preferred := core, mask := mask } else s

/-- `pinToCore`. -/
def pinToCore (answer : PinAnswer) (core : Nat) (s : BreakpointState) :
    UInt32 × BreakpointState :=
  if answer.setMask ≠ 0 then (answer.setMask, s)
  else
    (if answer.arrives then 0 else badInputResult,
      s.setThreadCoreMask 0 core (1 <<< UInt64.ofNat core))

/-- `svcSetHardwareBreakPoint` on the core that the thread is pinned to. -/
def setHardwareBreakPoint (answer : UInt32) (core : Nat) (setting : BreakpointSetting)
    (s : BreakpointState) : BreakpointState :=
  let s := { s with touched := Function.update s.touched core true }
  if answer = 0 then
    { s with
      registers := Function.update s.registers core
        (Function.update (s.registers core) setting.register (setting.control, setting.value)) }
  else s

/-- The loop over the list on one core, at this index. -/
def setList (set : Nat → UInt32) (core : Nat) :
    List BreakpointSetting → Nat → BreakpointState → UInt32 × BreakpointState
  | [], _, s => (0, s)
  | setting :: rest, i, s =>
    let s := s.setHardwareBreakPoint (set i) core setting
    if set i ≠ 0 then (set i, s) else setList set core rest (i + 1) s

/-- The loop over the cores from `core` on, and how many of them were reached. -/
def setCores (answers : BreakpointAnswers) (settings : List BreakpointSetting) :
    Nat → Nat → BreakpointState → UInt32 × Nat × BreakpointState
  | core, 0, s => (0, core, s)
  | core, left + 1, s =>
    let (pinned, s) := s.pinToCore (answers.pin core) core
    if pinned ≠ 0 then (pinned, core, s)
    else
      let (set, s) := s.setList (answers.set core) core settings 0
      if set ≠ 0 then (set, core + 1, s) else setCores answers settings (core + 1) left s

/-- Every entry of the list is disabled, whatever the kernel answers. -/
def clearList (set : Nat → UInt32) (core : Nat) :
    List BreakpointSetting → Nat → BreakpointState → BreakpointState
  | [], _, s => s
  | setting :: rest, i, s =>
    clearList set core rest (i + 1)
      (s.setHardwareBreakPoint (set i) core { setting with control := 0, value := 0 })

/-- The loop that takes back, from `core` on. -/
def rollback (answers : BreakpointAnswers) (settings : List BreakpointSetting) :
    Nat → Nat → BreakpointState → BreakpointState
  | _, 0, s => s
  | core, left + 1, s =>
    let (pinned, s) := s.pinToCore (answers.rollbackPin core) core
    if pinned ≠ 0 then rollback answers settings (core + 1) left s
    else rollback answers settings (core + 1) left
      (s.clearList (answers.rollbackSet core) core settings 0)

/-- The end of `setRegistersOnAllCores`, with what `svcGetThreadCoreMask` has stored. -/
def restoreThread (answer : UInt32) (originalCore : Int) (originalMask : UInt64)
    (s : BreakpointState) : BreakpointState :=
  if 0 ≤ originalCore ∧ originalMask ≠ 0 then
    s.setThreadCoreMask answer originalCore originalMask.toUInt32.toUInt64
  else
    s.setThreadCoreMask answer DEBUG_HWBP_DEFAULT_CORE
      (1 <<< UInt64.ofNat DEBUG_HWBP_DEFAULT_CORE)

/-- `setRegistersOnAllCores`; the three arrays are one list. -/
def setRegistersOnAllCores (answers : BreakpointAnswers) (settings : List BreakpointSetting)
    (s : BreakpointState) : UInt32 × BreakpointState :=
  if settings = [] then (badInputResult, s)
  else
    let originalCore := if answers.getMask = 0 then s.preferred else -1
    let originalMask := if answers.getMask = 0 then s.mask else 0
    let (rc, reached, s) := s.setCores answers settings 0 DEBUG_HWBP_CORE_COUNT
    let s := if rc ≠ 0 then s.rollback answers settings 0 reached else s
    (rc, s.restoreThread answers.restore originalCore originalMask)

end BreakpointState

/-! ## Traces -/

/-- The control of a context breakpoint. -/
def contextControl : UInt64 := ((0x3 : UInt64) <<< 20) ||| ((0xF : UInt64) <<< 5) ||| 1

/-- The control of an instruction breakpoint that is linked to a context slot. -/
def instructionControl (contextSlot : UInt32) : UInt64 :=
  ((0x1 : UInt64) <<< 20) ||| (contextSlot.toUInt64 <<< 16) ||| ((0xF : UInt64) <<< 5) ||| 1

/-- An instruction slot and the address it traps; `process` is the index of its process. -/
structure InstructionTarget where
  slot : UInt32
  address : UInt64
  process : UInt32

/-- The entries of `debugHwBpArmInstructionTrace` behind those of earlier targets. -/
def instructionSettings (contextSlot : UInt32) :
    List InstructionTarget → List InstructionTarget → Option (List BreakpointSetting)
  | _, [] => some []
  | before, target :: rest =>
    if target.slot = contextSlot ∨ target.address = 0 ∨ target.address &&& 3 ≠ 0 then none
    else if ∃ prior ∈ before, prior.slot = target.slot then none
    else
      (instructionSettings contextSlot (before ++ [target]) rest).map
        (⟨target.slot, instructionControl contextSlot, target.address⟩ :: ·)

/-- `debugHwBpArmInstructionTrace`. -/
def debugHwBpArmInstructionTrace (answers : BreakpointAnswers) (contextSlot debugHandle : UInt32)
    (targets : List InstructionTarget) (s : BreakpointState) : UInt32 × BreakpointState :=
  if targets = [] ∨ DEBUG_HWBP_BATCH_MAX < targets.length then (badInputResult, s)
  else
    match instructionSettings contextSlot [] targets with
    | none => (badInputResult, s)
    | some settings =>
      s.setRegistersOnAllCores answers
        (⟨contextSlot, contextControl, debugHandle.toUInt64⟩ :: settings)

/-- The entries of `debugHwBpArmDualProcessInstructionTrace`. -/
def dualProcessSettings (contextSlots : Fin 2 → UInt32) :
    List InstructionTarget → List InstructionTarget → Option (List BreakpointSetting)
  | _, [] => some []
  | before, target :: rest =>
    if h : target.process.toNat < 2 then
      if target.address = 0 ∨ target.address &&& 3 ≠ 0 ∨ target.slot = contextSlots 0 ∨
          target.slot = contextSlots 1 then none
      else if ∃ prior ∈ before, prior.slot = target.slot ∨ prior.address = target.address then none
      else
        (dualProcessSettings contextSlots (before ++ [target]) rest).map
          (⟨target.slot, instructionControl (contextSlots ⟨target.process.toNat, h⟩),
            target.address⟩ :: ·)
    else none

/-- `debugHwBpArmDualProcessInstructionTrace`. -/
def debugHwBpArmDualProcessInstructionTrace (answers : BreakpointAnswers)
    (contextSlots debugHandles : Fin 2 → UInt32) (targets : List InstructionTarget)
    (s : BreakpointState) : UInt32 × BreakpointState :=
  if targets = [] ∨ DEBUG_HWBP_BATCH_MAX < targets.length ∨ contextSlots 0 = contextSlots 1 then
    (badInputResult, s)
  else
    match dualProcessSettings contextSlots [] targets with
    | none => (badInputResult, s)
    | some settings =>
      s.setRegistersOnAllCores answers
        (⟨contextSlots 0, contextControl, (debugHandles 0).toUInt64⟩ ::
          ⟨contextSlots 1, contextControl, (debugHandles 1).toUInt64⟩ :: settings)

/-! ## What a phase leaves -/

/-- Every entry that no later one overwrites is in its register. -/
def Programmed (settings : List BreakpointSetting) (registers : UInt32 → UInt64 × UInt64) : Prop :=
  ∀ before setting after, settings = before ++ setting :: after →
    (∀ later ∈ after, later.register ≠ setting.register) →
      registers setting.register = (setting.control, setting.value)

/-- Every listed register traps nothing. -/
def Disabled (settings : List BreakpointSetting) (registers : UInt32 → UInt64 × UInt64) : Prop :=
  ∀ setting ∈ settings, registers setting.register = disabled

namespace BreakpointState

/-- Only listed registers of the cores in `cores` differ. -/
structure Within (settings : List BreakpointSetting) (cores : Nat → Prop)
    (s s' : BreakpointState) : Prop where
  elsewhere : ∀ core, ¬ cores core → s'.registers core = s.registers core ∧
    s'.touched core = s.touched core
  unlisted : ∀ core register, (∀ setting ∈ settings, setting.register ≠ register) →
    s'.registers core register = s.registers core register

section Phases

variable {settings : List BreakpointSetting} {cores : Nat → Prop} {s s' s'' : BreakpointState}

theorem Within.refl : Within settings cores s s :=
  ⟨fun _ _ => ⟨rfl, rfl⟩, fun _ _ _ => rfl⟩

theorem Within.trans (h : Within settings cores s s') (h' : Within settings cores s' s'') :
    Within settings cores s s'' where
  elsewhere core hcore := ⟨(h'.elsewhere core hcore).1.trans (h.elsewhere core hcore).1,
    (h'.elsewhere core hcore).2.trans (h.elsewhere core hcore).2⟩
  unlisted core register hlisted :=
    (h'.unlisted core register hlisted).trans (h.unlisted core register hlisted)

theorem Within.mono {cores' : Nat → Prop} (h : Within settings cores s s')
    (hcores : ∀ core, cores core → cores' core) : Within settings cores' s s' where
  elsewhere core hcore := h.elsewhere core fun hin => hcore (hcores core hin)
  unlisted := h.unlisted

theorem Within.of_cons {setting : BreakpointSetting} (h : Within settings cores s s') :
    Within (setting :: settings) cores s s' where
  elsewhere := h.elsewhere
  unlisted core register hlisted :=
    h.unlisted core register fun other hother => hlisted other (List.mem_cons_of_mem _ hother)

theorem pinToCore_keeps (answer : PinAnswer) (core : Nat) :
    (s.pinToCore answer core).2.registers = s.registers ∧
      (s.pinToCore answer core).2.touched = s.touched := by
  unfold pinToCore setThreadCoreMask
  split_ifs <;> exact ⟨rfl, rfl⟩

theorem within_pinToCore (answer : PinAnswer) (core : Nat) :
    Within settings cores s (s.pinToCore answer core).2 := by
  obtain ⟨hregisters, htouched⟩ := @pinToCore_keeps s answer core
  exact ⟨fun c _ => ⟨by rw [hregisters], by rw [htouched]⟩, fun c _ _ => by rw [hregisters]⟩

theorem within_setHardwareBreakPoint (answer : UInt32) (core : Nat) (setting : BreakpointSetting) :
    Within [setting] (· = core) s (s.setHardwareBreakPoint answer core setting) := by
  unfold setHardwareBreakPoint
  dsimp only
  split_ifs
  · refine ⟨fun c hc => ⟨Function.update_of_ne hc _ _, Function.update_of_ne hc _ _⟩, ?_⟩
    intro c register hlisted
    by_cases hc : c = core
    · subst hc
      dsimp only
      rw [Function.update_self,
        Function.update_of_ne (hlisted setting List.mem_cons_self).symm]
    · dsimp only
      rw [Function.update_of_ne hc]
  · exact ⟨fun c hc => ⟨rfl, Function.update_of_ne hc _ _⟩, fun _ _ _ => rfl⟩

theorem setHardwareBreakPoint_self (core : Nat) (setting : BreakpointSetting) :
    (s.setHardwareBreakPoint 0 core setting).registers core setting.register =
      (setting.control, setting.value) := by
  unfold setHardwareBreakPoint
  simp

theorem setHardwareBreakPoint_touched (answer : UInt32) (core : Nat)
    (setting : BreakpointSetting) :
    (s.setHardwareBreakPoint answer core setting).touched core = true := by
  unfold setHardwareBreakPoint
  dsimp only
  split_ifs
  · exact Function.update_self ..
  · exact Function.update_self ..

/-- A core keeps being touched. -/
theorem setHardwareBreakPoint_touched_of {c : Nat} (answer : UInt32) (core : Nat)
    (setting : BreakpointSetting) (h : s.touched c = true) :
    (s.setHardwareBreakPoint answer core setting).touched c = true := by
  by_cases hc : c = core
  · rw [hc]
    exact setHardwareBreakPoint_touched answer core setting
  · rw [((within_setHardwareBreakPoint answer core setting).elsewhere c hc).2, h]

theorem within_head {setting : BreakpointSetting} {core : Nat} (answer : UInt32) :
    Within (setting :: settings) (· = core) s (s.setHardwareBreakPoint answer core setting) where
  elsewhere := (within_setHardwareBreakPoint answer core setting).elsewhere
  unlisted c register hlisted :=
    (within_setHardwareBreakPoint answer core setting).unlisted c register fun other hother =>
      hlisted other (by rw [List.mem_singleton.1 hother]; exact List.mem_cons_self)

/-- The loop over the list: it stays on its core, and without a failure everything is there. -/
theorem setList_spec (set : Nat → UInt32) (core : Nat) (settings : List BreakpointSetting) (i : Nat)
    (s : BreakpointState) :
    Within settings (· = core) s (s.setList set core settings i).2 ∧
      (s.touched core = true ∨ settings ≠ [] →
        (s.setList set core settings i).2.touched core = true) ∧
      ((s.setList set core settings i).1 = 0 →
        Programmed settings ((s.setList set core settings i).2.registers core)) := by
  induction settings generalizing i s with
  | nil =>
    refine ⟨.refl, fun h => h.resolve_right fun hne => hne rfl, fun _ before setting after heq => ?_⟩
    simp at heq
  | cons setting rest ih =>
    have hhead : Within (setting :: rest) (· = core) s
        (s.setHardwareBreakPoint (set i) core setting) := within_head (set i)
    rw [setList]
    split_ifs with hfails
    · exact ⟨hhead, fun _ => setHardwareBreakPoint_touched _ _ _, fun h => absurd h hfails⟩
    · obtain ⟨hwithin, htouched, hprogrammed⟩ :=
        ih (i + 1) (s.setHardwareBreakPoint (set i) core setting)
      refine ⟨hhead.trans hwithin.of_cons,
        fun _ => htouched (.inl (setHardwareBreakPoint_touched _ _ _)), fun hrc => ?_⟩
      intro before entry after heq hlast
      cases before with
      | nil =>
        -- the first entry, which the others leave alone
        obtain ⟨rfl, rfl⟩ := List.cons.inj heq
        rw [hwithin.unlisted core _ hlast, not_not.1 hfails, setHardwareBreakPoint_self]
      | cons first before =>
        obtain ⟨rfl, hrest⟩ := List.cons.inj heq
        exact hprogrammed hrc before entry after hrest hlast

/-- The loop over the cores. -/
theorem setCores_spec (answers : BreakpointAnswers) (hsettings : settings ≠ []) (core left : Nat)
    (s : BreakpointState) :
    core ≤ (s.setCores answers settings core left).2.1 ∧
      Within settings
        (fun c => core ≤ c ∧ c < (s.setCores answers settings core left).2.1) s
        (s.setCores answers settings core left).2.2 ∧
      (∀ c, core ≤ c → c < (s.setCores answers settings core left).2.1 →
        (s.setCores answers settings core left).2.2.touched c = true) ∧
      ((s.setCores answers settings core left).1 = 0 →
        (s.setCores answers settings core left).2.1 = core + left ∧
          ∀ c, core ≤ c → c < core + left →
            Programmed settings ((s.setCores answers settings core left).2.2.registers c)) := by
  induction left generalizing core s with
  | zero =>
    refine ⟨Nat.le_refl _, .refl, fun c hle hlt => ?_, fun _ => ⟨rfl, fun c hle hlt => ?_⟩⟩
    · exact absurd hlt (Nat.not_lt.2 hle)
    · omega
  | succ left ih =>
    have hpin : ∀ cores, Within settings cores s (s.pinToCore (answers.pin core) core).2 :=
      fun _ => within_pinToCore _ _
    rw [setCores]
    dsimp only
    split_ifs with hpinned hset
    · refine ⟨Nat.le_refl _, hpin _, fun c hle hlt => ?_, fun h => absurd h hpinned⟩
      exact absurd hlt (Nat.not_lt.2 hle)
    · dsimp only
      obtain ⟨hwithin, htouched, -⟩ := setList_spec (answers.set core) core settings 0
        (s.pinToCore (answers.pin core) core).2
      refine ⟨Nat.le_succ _, ((hpin _).trans hwithin).mono fun c hc => by omega,
        fun c hle hlt => ?_, fun h => absurd h hset⟩
      obtain rfl : c = core := by omega
      exact htouched (.inr hsettings)
    · obtain ⟨hwithin, htouched, hprogrammed⟩ := setList_spec (answers.set core) core settings 0
        (s.pinToCore (answers.pin core) core).2
      obtain ⟨hreached, hrest, htouchedRest, hdone⟩ := ih (core + 1)
        ((s.pinToCore (answers.pin core) core).2.setList (answers.set core) core settings 0).2
      refine ⟨by omega, ?_, fun c hle hlt => ?_, fun hrc => ?_⟩
      · exact ((hpin _).trans (hwithin.mono fun c hc => by omega)).trans
          (hrest.mono fun c hc => by omega)
      · rcases Nat.eq_or_lt_of_le hle with rfl | hlater
        · rw [(hrest.elsewhere core (by omega)).2]
          exact htouched (.inr hsettings)
        · exact htouchedRest c hlater hlt
      · obtain ⟨hall, hlater⟩ := hdone hrc
        refine ⟨by omega, fun c hle hlt => ?_⟩
        rcases Nat.eq_or_lt_of_le hle with rfl | hbehind
        · rw [(hrest.elsewhere core (by omega)).1]
          exact hprogrammed (not_not.1 hset)
        · exact hlater c hbehind (by omega)

/-- The loop that disables the list on one core. -/
theorem clearList_spec {set : Nat → UInt32} (hset : ∀ i, set i = 0) (core : Nat)
    (settings : List BreakpointSetting) (i : Nat) (s : BreakpointState) :
    Within settings (· = core) s (s.clearList set core settings i) ∧
      Disabled settings ((s.clearList set core settings i).registers core) ∧
      (∀ register, s.registers core register = disabled →
        (s.clearList set core settings i).registers core register = disabled) := by
  induction settings generalizing i s with
  | nil => exact ⟨.refl, (fun _ h => absurd h List.not_mem_nil), fun _ h => h⟩
  | cons setting rest ih =>
    obtain ⟨hwithin, hdisabled, hkeeps⟩ := ih (i + 1)
      (s.setHardwareBreakPoint (set i) core { setting with control := 0, value := 0 })
    have hself : (s.setHardwareBreakPoint (set i) core
        { setting with control := 0, value := 0 }).registers core setting.register = disabled := by
      rw [hset i]
      exact setHardwareBreakPoint_self core { setting with control := 0, value := 0 }
    have hhead : Within (setting :: rest) (· = core) s
        (s.setHardwareBreakPoint (set i) core { setting with control := 0, value := 0 }) := by
      refine ⟨(within_setHardwareBreakPoint _ core _).elsewhere, fun c register hlisted => ?_⟩
      refine (within_setHardwareBreakPoint _ core _).unlisted c register fun other hother => ?_
      rw [List.mem_singleton.1 hother]
      exact hlisted setting List.mem_cons_self
    rw [clearList]
    refine ⟨hhead.trans hwithin.of_cons, fun entry hentry => ?_, fun register hregister => ?_⟩
    · rcases List.mem_cons.1 hentry with rfl | hentry
      · exact hkeeps _ hself
      · exact hdisabled entry hentry
    · refine hkeeps register ?_
      by_cases hsame : setting.register = register
      · rw [← hsame]
        exact hself
      · rw [(within_setHardwareBreakPoint (set i) core _).unlisted core register fun other hother =>
          by rw [List.mem_singleton.1 hother]; exact hsame]
        exact hregister

theorem clearList_touched {c : Nat} (set : Nat → UInt32) (core : Nat)
    (settings : List BreakpointSetting) (i : Nat) (s : BreakpointState) (h : s.touched c = true) :
    (s.clearList set core settings i).touched c = true := by
  induction settings generalizing i s with
  | nil => exact h
  | cons setting rest ih => exact ih (i + 1) _ (setHardwareBreakPoint_touched_of _ _ _ h)

theorem rollback_touched {c : Nat} (answers : BreakpointAnswers) (core left : Nat)
    (s : BreakpointState) (h : s.touched c = true) :
    (s.rollback answers settings core left).touched c = true := by
  induction left generalizing core s with
  | zero => exact h
  | succ left ih =>
    have hpinned : (s.pinToCore (answers.rollbackPin core) core).2.touched c = true := by
      rw [(pinToCore_keeps _ _).2, h]
    rw [rollback]
    dsimp only
    split_ifs
    · exact ih (core + 1) _ hpinned
    · exact ih (core + 1) _ (clearList_touched _ _ _ _ _ hpinned)

/-- The calls that take back and restore are answered with success. -/
structure CleansUp (answers : BreakpointAnswers) : Prop where
  getMask : answers.getMask = 0
  pin : ∀ core, (answers.rollbackPin core).setMask = 0 ∧ (answers.rollbackPin core).arrives = true
  set : ∀ core i, answers.rollbackSet core i = 0
  restore : answers.restore = 0

theorem rollback_spec {answers : BreakpointAnswers} (h : CleansUp answers) (core left : Nat)
    (s : BreakpointState) :
    Within settings (fun c => core ≤ c ∧ c < core + left) s
        (s.rollback answers settings core left) ∧
      ∀ c, core ≤ c → c < core + left →
        Disabled settings ((s.rollback answers settings core left).registers c) := by
  induction left generalizing core s with
  | zero =>
    refine ⟨.refl, fun c hle hlt => ?_⟩
    omega
  | succ left ih =>
    have hpinned : (s.pinToCore (answers.rollbackPin core) core).1 = 0 := by
      unfold pinToCore
      rw [(h.pin core).1, (h.pin core).2]
      rfl
    obtain ⟨hwithin, hdisabled, -⟩ := clearList_spec (h.set core) core settings 0
      (s.pinToCore (answers.rollbackPin core) core).2
    obtain ⟨hrest, hlater⟩ := ih (core + 1) ((s.pinToCore (answers.rollbackPin core) core).2.clearList
      (answers.rollbackSet core) core settings 0)
    rw [rollback]
    dsimp only
    rw [if_neg (not_not.2 hpinned)]
    refine ⟨?_, fun c hle hlt => ?_⟩
    · exact ((within_pinToCore _ _).trans (hwithin.mono fun c hc => by omega)).trans
        (hrest.mono fun c hc => by omega)
    · rcases Nat.eq_or_lt_of_le hle with rfl | hbehind
      · intro setting hsetting
        rw [(hrest.elsewhere core (by omega)).1]
        exact hdisabled setting hsetting
      · exact hlater c hbehind (by omega)

end Phases

end BreakpointState

/-! ## All or nothing -/

/-- The list is in the registers of every core, or disabled on every core that was touched, and the
    thread is where it was. -/
structure AllOrNothing (settings : List BreakpointSetting) (s : BreakpointState)
    (outcome : UInt32 × BreakpointState) : Prop where
  programmed : outcome.1 = 0 → ∀ core < DEBUG_HWBP_CORE_COUNT,
    Programmed settings (outcome.2.registers core)
  disabled : outcome.1 ≠ 0 → ∀ core, outcome.2.touched core = true →
    Disabled settings (outcome.2.registers core)
  untouched : ∀ core, outcome.2.touched core = false →
    outcome.2.registers core = s.registers core
  unlisted : ∀ core register, (∀ setting ∈ settings, setting.register ≠ register) →
    outcome.2.registers core register = s.registers core register
  thread : 0 ≤ s.preferred → s.mask ≠ 0 → s.mask.toNat < 2 ^ 32 →
    outcome.2.preferred = s.preferred ∧ outcome.2.mask = s.mask
  /-- A thread without a preferred core goes to the default one. -/
  fallback : settings ≠ [] → ¬ (0 ≤ s.preferred ∧ s.mask ≠ 0) →
    outcome.2.preferred = 3 ∧ outcome.2.mask = 8

/-- A failure disables what it has changed. -/
def ArmsNothing (s : BreakpointState) (outcome : UInt32 × BreakpointState) : Prop :=
  outcome.1 ≠ 0 → ∀ core register,
    outcome.2.registers core register = s.registers core register ∨
      outcome.2.registers core register = disabled

theorem ArmsNothing.refl {s : BreakpointState} (rc : UInt32) : ArmsNothing s (rc, s) :=
  fun _ _ _ => .inl rfl

theorem AllOrNothing.armsNothing {settings : List BreakpointSetting} {s : BreakpointState}
    {outcome : UInt32 × BreakpointState} (h : AllOrNothing settings s outcome) :
    ArmsNothing s outcome := by
  intro hfailed core register
  cases htouched : outcome.2.touched core with
  | false => exact .inl (by rw [h.untouched core htouched])
  | true =>
    by_cases hlisted : ∀ setting ∈ settings, setting.register ≠ register
    · exact .inl (h.unlisted core register hlisted)
    · push Not at hlisted
      obtain ⟨setting, hsetting, rfl⟩ := hlisted
      exact .inr (h.disabled hfailed core htouched setting hsetting)

namespace BreakpointState

/-- Before the first call. -/
def start (registers : Nat → UInt32 → UInt64 × UInt64) (preferred : Int) (mask : UInt64) :
    BreakpointState where
  registers := registers
  preferred := preferred
  mask := mask
  touched _ := false

variable {s : BreakpointState} {answers : BreakpointAnswers}

theorem restoreThread_keeps (answer : UInt32) (core : Int) (mask : UInt64) :
    (s.restoreThread answer core mask).registers = s.registers ∧
      (s.restoreThread answer core mask).touched = s.touched := by
  unfold restoreThread setThreadCoreMask
  split_ifs <;> exact ⟨rfl, rfl⟩

theorem restoreThread_thread {core : Int} {mask : UInt64} (hcore : 0 ≤ core) (hmask : mask ≠ 0)
    (hsmall : mask.toNat < 2 ^ 32) :
    (s.restoreThread 0 core mask).preferred = core ∧ (s.restoreThread 0 core mask).mask = mask := by
  have hback : mask.toUInt32.toUInt64 = mask := by
    refine UInt64.toNat_inj.1 ?_
    rw [UInt32.toNat_toUInt64, UInt64.toNat_toUInt32, Nat.mod_eq_of_lt hsmall]
  unfold restoreThread setThreadCoreMask
  rw [if_pos ⟨hcore, hmask⟩, if_pos rfl]
  exact ⟨rfl, hback⟩

/-- Without a preferred core the thread is left on the default one. -/
theorem restoreThread_default {core : Int} {mask : UInt64} (h : ¬ (0 ≤ core ∧ mask ≠ 0)) :
    (s.restoreThread 0 core mask).preferred = 3 ∧ (s.restoreThread 0 core mask).mask = 8 := by
  unfold restoreThread setThreadCoreMask
  rw [if_neg h, if_pos rfl]
  exact ⟨rfl, rfl⟩

theorem setRegistersOnAllCores_spec (h : CleansUp answers) (settings : List BreakpointSetting)
    (hstart : ∀ core, s.touched core = false) :
    AllOrNothing settings s (s.setRegistersOnAllCores answers settings) := by
  unfold setRegistersOnAllCores
  split_ifs with hempty hget
  · refine ⟨fun hrc => absurd (show badInputResult = 0 from hrc) (by decide), fun _ core htouched => ?_, fun _ _ => rfl,
      fun _ _ _ => rfl, fun _ _ _ => ⟨rfl, rfl⟩, fun hne => absurd hempty hne⟩
    rw [hstart core] at htouched
    cases htouched
  · obtain ⟨-, hwithin, htouched, hdone⟩ :=
      setCores_spec answers hempty 0 DEBUG_HWBP_CORE_COUNT s
    dsimp only
    obtain ⟨hregisters', htouched'⟩ := @restoreThread_keeps
      (if (s.setCores answers settings 0 DEBUG_HWBP_CORE_COUNT).1 ≠ 0 then
        (s.setCores answers settings 0 DEBUG_HWBP_CORE_COUNT).2.2.rollback answers settings 0
          (s.setCores answers settings 0 DEBUG_HWBP_CORE_COUNT).2.1
      else (s.setCores answers settings 0 DEBUG_HWBP_CORE_COUNT).2.2) answers.restore s.preferred
        s.mask
    by_cases hrc : (s.setCores answers settings 0 DEBUG_HWBP_CORE_COUNT).1 = 0
    · simp only [hrc, ne_eq, not_true_eq_false, if_false] at hregisters' htouched' ⊢
      have houtside : ∀ core, (s.setCores answers settings 0
          DEBUG_HWBP_CORE_COUNT).2.2.touched core = false →
            ¬ (0 ≤ core ∧ core < (s.setCores answers settings 0 DEBUG_HWBP_CORE_COUNT).2.1) := by
        rintro core hfalse ⟨hle, hlt⟩
        cases hfalse.symm.trans (htouched core hle hlt)
      refine ⟨fun _ core hlt => ?_, fun hne => absurd rfl hne, fun core hfalse => ?_,
        fun core register hlisted => ?_, fun hcore hmask hsmall => ?_, fun _ hnone => ?_⟩
      · rw [hregisters']
        exact (hdone hrc).2 core (Nat.zero_le _) (by omega)
      · rw [htouched'] at hfalse
        rw [hregisters', (hwithin.elsewhere core (houtside core hfalse)).1]
      · rw [hregisters']
        exact hwithin.unlisted core register hlisted
      · rw [h.restore]
        exact restoreThread_thread hcore hmask hsmall
      · rw [h.restore]
        exact restoreThread_default hnone
    · simp only [hrc, ne_eq, not_false_eq_true, if_true] at hregisters' htouched' ⊢
      obtain ⟨hback, hdisabled⟩ := @rollback_spec settings answers h 0
        (s.setCores answers settings 0 DEBUG_HWBP_CORE_COUNT).2.1
        (s.setCores answers settings 0 DEBUG_HWBP_CORE_COUNT).2.2
      rw [Nat.zero_add] at hback hdisabled
      have hall := hwithin.trans hback
      have hkept := fun core (hreached : core <
          (s.setCores answers settings 0 DEBUG_HWBP_CORE_COUNT).2.1) =>
        @rollback_touched settings core answers 0
          (s.setCores answers settings 0 DEBUG_HWBP_CORE_COUNT).2.1 _
          (htouched core (Nat.zero_le _) hreached)
      refine ⟨fun hzero => absurd hzero hrc, fun _ core htrue => ?_, fun core hfalse => ?_,
        fun core register hlisted => ?_, fun hcore hmask hsmall => ?_, fun _ hnone => ?_⟩
      · rw [htouched'] at htrue
        rw [hregisters']
        by_cases hreached : core < (s.setCores answers settings 0 DEBUG_HWBP_CORE_COUNT).2.1
        · exact hdisabled core (Nat.zero_le _) hreached
        · rw [(hall.elsewhere core fun hin => hreached hin.2).2, hstart core] at htrue
          cases htrue
      · rw [htouched'] at hfalse
        rw [hregisters']
        refine (hall.elsewhere core fun hin => ?_).1
        cases hfalse.symm.trans (hkept core hin.2)
      · rw [hregisters']
        exact hall.unlisted core register hlisted
      · rw [h.restore]
        exact restoreThread_thread hcore hmask hsmall
      · rw [h.restore]
        exact restoreThread_default hnone
  · exact absurd h.getMask hget

end BreakpointState

section Traces

variable {s : BreakpointState} {answers : BreakpointAnswers}

theorem debugHwBpArmInstructionTrace_armsNothing (h : BreakpointState.CleansUp answers)
    (hstart : ∀ core, s.touched core = false) (contextSlot debugHandle : UInt32)
    (targets : List InstructionTarget) :
    ArmsNothing s (debugHwBpArmInstructionTrace answers contextSlot debugHandle targets s) := by
  unfold debugHwBpArmInstructionTrace
  split_ifs
  · exact .refl _
  · cases instructionSettings contextSlot [] targets with
    | none => exact .refl _
    | some settings =>
      exact (BreakpointState.setRegistersOnAllCores_spec h _ hstart).armsNothing

theorem debugHwBpArmDualProcessInstructionTrace_armsNothing
    (h : BreakpointState.CleansUp answers) (hstart : ∀ core, s.touched core = false)
    (contextSlots debugHandles : Fin 2 → UInt32) (targets : List InstructionTarget) :
    ArmsNothing s
      (debugHwBpArmDualProcessInstructionTrace answers contextSlots debugHandles targets s) := by
  unfold debugHwBpArmDualProcessInstructionTrace
  split_ifs
  · exact .refl _
  · cases dualProcessSettings contextSlots [] targets with
    | none => exact .refl _
    | some settings =>
      exact (BreakpointState.setRegistersOnAllCores_spec h _ hstart).armsNothing

end Traces

/-- Breakpoints are programmed all or not at all, and a trace that fails arms none. -/
theorem breakpoints_all_or_nothing (answers : BreakpointAnswers)
    (registers : Nat → UInt32 → UInt64 × UInt64) (preferred : Int) (mask : UInt64)
    (h : BreakpointState.CleansUp answers) :
    (∀ settings, AllOrNothing settings (BreakpointState.start registers preferred mask)
      ((BreakpointState.start registers preferred mask).setRegistersOnAllCores answers settings)) ∧
    (∀ contextSlot debugHandle targets,
      ArmsNothing (BreakpointState.start registers preferred mask)
        (debugHwBpArmInstructionTrace answers contextSlot debugHandle targets
          (BreakpointState.start registers preferred mask))) ∧
    ∀ contextSlots debugHandles targets,
      ArmsNothing (BreakpointState.start registers preferred mask)
        (debugHwBpArmDualProcessInstructionTrace answers contextSlots debugHandles targets
          (BreakpointState.start registers preferred mask)) :=
  ⟨fun settings => BreakpointState.setRegistersOnAllCores_spec h settings fun _ => rfl,
    debugHwBpArmInstructionTrace_armsNothing h fun _ => rfl,
    debugHwBpArmDualProcessInstructionTrace_armsNothing h fun _ => rfl⟩

/-- A kernel that refuses the last write on the second core. -/
def secondCoreFails : BreakpointAnswers where
  getMask := 0
  pin _ := ⟨0, true⟩
  set core i := if core = 1 ∧ i = 1 then 0xE401 else 0
  rollbackPin _ := ⟨0, true⟩
  rollbackSet _ _ := 0
  restore := 0

theorem breakpoints_all_or_nothing_second_core :
    (∀ settings, AllOrNothing settings (BreakpointState.start (fun _ _ => disabled) 3 8)
      ((BreakpointState.start (fun _ _ => disabled) 3 8).setRegistersOnAllCores secondCoreFails
        settings)) ∧
    (∀ contextSlot debugHandle targets,
      ArmsNothing (BreakpointState.start (fun _ _ => disabled) 3 8)
        (debugHwBpArmInstructionTrace secondCoreFails contextSlot debugHandle targets
          (BreakpointState.start (fun _ _ => disabled) 3 8))) ∧
    ∀ contextSlots debugHandles targets,
      ArmsNothing (BreakpointState.start (fun _ _ => disabled) 3 8)
        (debugHwBpArmDualProcessInstructionTrace secondCoreFails contextSlots debugHandles targets
          (BreakpointState.start (fun _ _ => disabled) 3 8)) :=
  breakpoints_all_or_nothing secondCoreFails (fun _ _ => disabled) 3 8
    ⟨rfl, fun _ => ⟨rfl, rfl⟩, fun _ _ => rfl, rfl⟩

/-- A kernel that refuses nothing. -/
def quietKernel : BreakpointAnswers where
  getMask := 0
  pin _ := ⟨0, true⟩
  set _ _ := 0
  rollbackPin _ := ⟨0, true⟩
  rollbackSet _ _ := 0
  restore := 0

/-- A register that is listed twice holds the last value, and a thread without a preferred core is
    given one. -/
theorem listed_twice_holds_last :
    (let outcome := (BreakpointState.start (fun _ _ => disabled) 0 1).setRegistersOnAllCores
        quietKernel [⟨0, 1, 1⟩, ⟨0, 1, 2⟩]
     outcome.1 = 0 ∧ outcome.2.touched 0 = true ∧ outcome.2.registers 0 0 ≠ (1, 1) ∧
      outcome.2.registers 0 0 ≠ disabled) ∧
    (let outcome := (BreakpointState.start (fun _ _ => disabled) (-1) 15).setRegistersOnAllCores
        quietKernel [⟨0, 1, 1⟩]
     outcome.1 = 0 ∧ outcome.2.preferred ≠ -1 ∧ outcome.2.mask ≠ 15) := by
  decide

end SysAgent
