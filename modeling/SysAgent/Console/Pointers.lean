import SysAgent.Console.Numbers

set_option autoImplicit false

/-! # Pointer commands (`main.c`, `followMainPointer` in `commands.c`)

Each handler takes its jumps out of the argument vector, follows them with `followMainPointer` and adds
the final jump to what that returns, which is 0 where the chain is broken. An access outside of the
argument vector or of the arrays of a handler is `none`. -/

namespace SysAgent

open CNumber

/-! ## Arguments -/

def parseStringToSignedLong (arg : List UInt8) : UInt64 :=
  if arg = [] then 0
  else
    let base := (splitBase (splitSign arg).2).1
    let (value, rest, range) := strtoll base arg
    if range || rest == arg || !rest.isEmpty then 0 else UInt64.ofInt value

/-- The bytes of pairs of hexadecimal digits. -/
def hexPairs : List UInt8 → List UInt8
  | high :: low :: rest => UInt8.ofNat (number 16 [high, low]) :: hexPairs rest
  | _ => []

def parseStringToByteBuffer (arg : List UInt8) : Option (List UInt8) :=
  let digits :=
    if 2 < arg.length ∧ (splitBase arg).1 = 16 then arg.drop 2 else arg
  if digits.length = 0 ∨ digits.length % 2 ≠ 0 then none
  else if digits.all (isDigitOf 16) then some (hexPairs digits) else none

/-- `count` arguments from `argv[first]` on. -/
def readArguments (argv : List (List UInt8)) (first count : Nat) : Option (List (List UInt8)) :=
  (List.range' first count).mapM fun i => argv[i]?

/-! ## The target -/

/-- The target as the commands see it: which allocations succeed, the base of the main module if a
    session opens, and what a read returns. -/
structure Target where
  malloc : UInt64 → Bool
  mainBase : Option UInt64
  read : UInt64 → UInt64 → Option (List UInt8)

/-- The word at an address. -/
def Target.word (target : Target) (address : UInt64) : Option UInt64 :=
  (target.read address 8).map fun bytes => UInt64.ofNat (Codec.leNat 8 bytes)

/-- The loop of `followMainPointer`. -/
def followJumps (target : Target) (offset : UInt64) : List UInt64 → UInt64
  | [] => offset
  | jump :: jumps =>
    match target.word (offset + jump) with
    | none => 0
    | some next => if next = 0 then next else followJumps target next jumps

def followMainPointer (target : Target) : List UInt64 → UInt64
  | [] => 0
  | jump :: jumps =>
    if !target.malloc 8 then 0
    else
      match target.mainBase with
      | none => 0
      | some mainBase =>
        match target.word (mainBase + jump) with
        | none => 0
        | some offset => followJumps target offset jumps

/-- An access to the memory of the target. -/
inductive Access
  | read (address size : UInt64)
  | write (address : UInt64) (data : List UInt8)

def peek (target : Target) (offset size : UInt64) : List Access :=
  if target.malloc size && target.mainBase.isSome then [.read offset size] else []

def poke (target : Target) (offset : UInt64) (data : List UInt8) : List Access :=
  if target.mainBase.isSome then [.write offset data] else []

/-- The reading loop of `peekMulti`, which stops at the first read that fails. -/
def readItems (target : Target) : List (UInt64 × UInt64) → List Access
  | [] => []
  | (offset, size) :: items =>
    .read offset size :: if (target.read offset size).isSome then readItems target items else []

/-- `peekMulti`; its buffer, which it does not check, is taken to be there. -/
def peekMulti (target : Target) (items : List (UInt64 × UInt64)) : List Access :=
  if target.mainBase.isSome then readItems target items else []

/-! ## The handlers -/

/-- `pointerAll`: what it prints. -/
def pointerAll (target : Target) (argv : List (List UInt8)) : Option (Option UInt64) :=
  if argv.length < 3 then some none
  else do
    let finalJump := parseStringToSignedLong (← argv[argv.length - 1]?)
    let jumps ← readArguments argv 1 (argv.length - 2)
    let solved := followMainPointer target (jumps.map parseStringToSignedLong)
    some (some (if solved ≠ 0 then solved + finalJump else solved))

/-- `pointerPeek`: its call of `peek`. -/
def pointerPeek (target : Target) (argv : List (List UInt8)) : Option (Option (UInt64 × UInt64)) :=
  if argv.length < 4 then some none
  else do
    let finalJump := parseStringToSignedLong (← argv[argv.length - 1]?)
    let size := parseStringToInt (← argv[1]?)
    let jumps ← readArguments argv 2 (argv.length - 3)
    let solved := followMainPointer target (jumps.map parseStringToSignedLong)
    some (some (solved + finalJump, size))

/-- `pointerPoke`: its call of `poke`, without one if the payload is refused. -/
def pointerPoke (target : Target) (argv : List (List UInt8)) :
    Option (Option (UInt64 × List UInt8)) :=
  if argv.length < 4 then some none
  else do
    let finalJump := parseStringToSignedLong (← argv[argv.length - 1]?)
    let jumps ← readArguments argv 2 (argv.length - 3)
    let solved := followMainPointer target (jumps.map parseStringToSignedLong)
    let payload ← argv[1]?
    some ((parseStringToByteBuffer payload).map fun data => (solved + finalJump, data))

/-- The separator of `pointerPeekMulti`. -/
def asterisk : List UInt8 := [0x2A]

/-- The index of the next separator, or `argc`. -/
def nextStar (argv : List (List UInt8)) (currIndex : Nat) : Nat :=
  if h : currIndex < argv.length then
    if argv[currIndex] = asterisk then currIndex else nextStar argv (currIndex + 1)
  else currIndex
termination_by argv.length - currIndex

theorem nextStar_ge (argv : List (List UInt8)) (currIndex : Nat) :
    currIndex ≤ nextStar argv currIndex := by
  induction currIndex using nextStar.induct argv with
  | case1 index h hasterisk =>
    rw [nextStar, dif_pos h, if_pos hasterisk]
  | case2 index h hasterisk ih =>
    rw [nextStar, dif_pos h, if_neg hasterisk]
    omega
  | case3 index h =>
    rw [nextStar, dif_neg h]

/-- The loop of `pointerPeekMulti` over the groups. The number of jumps is unsigned, so it wraps for
    a group that is too short, and the arrays have room for 40 items. -/
def pointerPeekMultiItems (target : Target) (argv : List (List UInt8)) (lastIndex : Nat)
    (items : List (UInt64 × UInt64)) : Option (List (UInt64 × UInt64)) :=
  if lastIndex < argv.length then
    let currIndex := nextStar argv lastIndex
    let thisCount := currIndex - lastIndex
    if thisCount < 2 then none
    else do
      let finalJump := parseStringToSignedLong (← argv[currIndex - 1]?)
      let size := parseStringToSignedLong (← argv[lastIndex]?)
      let jumps ← readArguments argv (lastIndex + 1) (thisCount - 2)
      let solved := followMainPointer target (jumps.map parseStringToSignedLong)
      if 40 ≤ items.length then none
      else pointerPeekMultiItems target argv (currIndex + 1) (items ++ [(solved + finalJump, size)])
  else some items
termination_by argv.length - lastIndex
decreasing_by
  have := nextStar_ge argv lastIndex
  omega

/-- `pointerPeekMulti`: its call of `peekMulti`. -/
def pointerPeekMulti (target : Target) (argv : List (List UInt8)) :
    Option (Option (List (UInt64 × UInt64))) :=
  if argv.length < 4 then some none else (pointerPeekMultiItems target argv 1 []).map some

/-! ## The law -/

/-- A pointer expression with a size: the arguments of one item. There is a first jump. -/
structure PointerItem where
  size : List UInt8
  first : List UInt8
  additional : List (List UInt8)
  final : List UInt8

namespace PointerItem

def chainArguments (item : PointerItem) : List (List UInt8) :=
  item.first :: item.additional

def arguments (item : PointerItem) : List (List UInt8) :=
  item.size :: (item.chainArguments ++ [item.final])

def jumps (item : PointerItem) : List UInt64 :=
  item.chainArguments.map parseStringToSignedLong

def finalJump (item : PointerItem) : UInt64 :=
  parseStringToSignedLong item.final

end PointerItem

/-- The arguments of items that separators keep apart. -/
def itemArguments : List PointerItem → List (List UInt8)
  | [] => []
  | [item] => item.arguments
  | item :: items => item.arguments ++ asterisk :: itemArguments items

/-- Dereferences one after the other, none of which fails or yields 0. -/
def chainFrom (target : Target) (offset : UInt64) : List UInt64 → Option UInt64
  | [] => some offset
  | jump :: jumps =>
    (target.word (offset + jump)).bind fun next =>
      if next = 0 then none else chainFrom target next jumps

/-- Where a chain ends, if it is not broken; a dereference needs a buffer and a session. -/
def chain (target : Target) (jumps : List UInt64) : Option UInt64 :=
  if target.malloc 8 then target.mainBase.bind fun mainBase => chainFrom target mainBase jumps
  else none

/-- What is asked of the commands for one pointer expression. -/
def CommandLaw (target : Target) (name : List UInt8) (item : PointerItem) (payload : List UInt8) :
    Prop :=
  ∃ all peeked poked,
    pointerAll target (name :: (item.chainArguments ++ [item.final])) = some (some all) ∧
    pointerPeek target (name :: item.arguments) = some (some peeked) ∧
    pointerPoke target (name :: payload :: (item.chainArguments ++ [item.final])) = some poked ∧
    match chain target item.jumps with
    | some solved =>
      all = solved + item.finalJump ∧ peeked.1 = all ∧ ∀ call ∈ poked, call.1 = all
    | none =>
      peek target peeked.1 peeked.2 = [] ∧ ∀ call ∈ poked, poke target call.1 call.2 = []

/-- What is asked of the items of the multi form. The reads are in the order of the items. -/
def MultiLaw (target : Target) (name : List UInt8) (items : List PointerItem) : Prop :=
  ∃ calls, pointerPeekMulti target (name :: itemArguments items) = some (some calls) ∧
    calls.length = items.length ∧
    ∀ i item call, items[i]? = some item → calls[i]? = some call →
      match chain target item.jumps with
      | some solved => call.1 = solved + item.finalJump
      | none => (peekMulti target calls).length ≤ i

/-- An item whose chain is not broken, and where there is nothing to be read. -/
def Unreadable (target : Target) (item : PointerItem) : Prop :=
  ∃ solved, chain target item.jumps = some solved ∧
    target.read (solved + item.finalJump) (parseStringToSignedLong item.size) = none

section Law

variable {target : Target} {argv : List (List UInt8)}

/-! ### The arguments that are read -/

theorem readArguments_eq (before group after : List (List UInt8)) :
    readArguments (before ++ group ++ after) before.length group.length = some group := by
  induction group generalizing before with
  | nil => rfl
  | cons text group ih =>
    have hrest := ih (before ++ [text])
    rw [List.append_assoc before [text], List.singleton_append, List.length_append,
      List.length_singleton] at hrest
    have hhead : (before ++ text :: group ++ after)[before.length]? = some text := by
      rw [List.append_assoc, List.getElem?_append_right (Nat.le_refl _), Nat.sub_self]
      rfl
    unfold readArguments at hrest ⊢
    rw [List.length_cons, List.range'_succ, List.mapM_cons, hhead, hrest]
    rfl

theorem readArguments_of_le {first count : Nat} (h : first + count ≤ argv.length) :
    readArguments argv first count = some ((argv.drop first).take count) := by
  have hread := readArguments_eq (argv.take first) ((argv.drop first).take count)
    ((argv.drop first).drop count)
  have hbefore : (argv.take first).length = first := by
    rw [List.length_take]
    omega
  have hcount : ((argv.drop first).take count).length = count := by
    rw [List.length_take, List.length_drop]
    omega
  rwa [List.append_assoc, List.take_append_drop, List.take_append_drop, hbefore, hcount] at hread

theorem followJumps_eq {offset solved : UInt64} {jumps : List UInt64}
    (h : chainFrom target offset jumps = some solved) :
    followJumps target offset jumps = solved := by
  induction jumps generalizing offset with
  | nil => exact Option.some.inj h
  | cons jump jumps ih =>
    rw [chainFrom, Option.bind_eq_some_iff] at h
    obtain ⟨next, hnext, h⟩ := h
    rw [Option.ite_none_left_eq_some] at h
    rw [followJumps, hnext]
    simp only [if_neg h.1]
    exact ih h.2

theorem chainFrom_ne_zero {offset solved : UInt64} {jump : UInt64} {jumps : List UInt64}
    (h : chainFrom target offset (jump :: jumps) = some solved) : solved ≠ 0 := by
  induction jumps generalizing offset jump with
  | nil =>
    rw [chainFrom, Option.bind_eq_some_iff] at h
    obtain ⟨next, -, h⟩ := h
    rw [Option.ite_none_left_eq_some] at h
    rw [← Option.some.inj h.2]
    exact h.1
  | cons jump' jumps ih =>
    rw [chainFrom, Option.bind_eq_some_iff] at h
    obtain ⟨next, -, h⟩ := h
    rw [Option.ite_none_left_eq_some] at h
    exact ih h.2

/-- On a chain that is not broken `followMainPointer` returns its end, which is not 0. -/
theorem followMainPointer_eq {jump : UInt64} {jumps : List UInt64} {solved : UInt64}
    (h : chain target (jump :: jumps) = some solved) :
    followMainPointer target (jump :: jumps) = solved ∧ solved ≠ 0 := by
  rw [chain, Option.ite_none_right_eq_some, Option.bind_eq_some_iff] at h
  obtain ⟨hmalloc, mainBase, hbase, h⟩ := h
  refine ⟨?_, chainFrom_ne_zero h⟩
  rw [chainFrom, Option.bind_eq_some_iff] at h
  obtain ⟨next, hnext, h⟩ := h
  rw [Option.ite_none_left_eq_some] at h
  rw [followMainPointer, hmalloc, hbase]
  simp only [Bool.not_true, Bool.false_eq_true, if_false, hnext]
  exact followJumps_eq h.2

/-- What `followMainPointer` and the final jump come to for an item. -/
def itemTarget (target : Target) (item : PointerItem) : UInt64 :=
  followMainPointer target item.jumps + item.finalJump

theorem itemTarget_eq {item : PointerItem} {solved : UInt64}
    (h : chain target item.jumps = some solved) :
    itemTarget target item = solved + item.finalJump ∧ followMainPointer target item.jumps ≠ 0 := by
  obtain ⟨heq, hne⟩ := followMainPointer_eq h
  exact ⟨congrArg (· + item.finalJump) heq, fun hzero => hne (heq.symm.trans hzero)⟩

/-! ### The single commands -/

theorem pointerAll_eq (name : List UInt8) (item : PointerItem) :
    pointerAll target (name :: (item.chainArguments ++ [item.final])) =
      some (some (if followMainPointer target item.jumps ≠ 0 then itemTarget target item
        else followMainPointer target item.jumps)) := by
  have hlength : (name :: (item.chainArguments ++ [item.final])).length =
      item.chainArguments.length + 2 := by simp
  have hlast : (name :: (item.chainArguments ++ [item.final]))[item.chainArguments.length + 1]? =
      some item.final := by simp
  have hjumps : readArguments (name :: (item.chainArguments ++ [item.final])) 1
      item.chainArguments.length = some item.chainArguments :=
    readArguments_eq [name] item.chainArguments [item.final]
  have hpos : 0 < item.chainArguments.length := Nat.succ_pos _
  unfold pointerAll
  rw [hlength, if_neg (by omega), Nat.add_sub_cancel,
    show item.chainArguments.length + 2 - 1 = item.chainArguments.length + 1 from rfl, hlast]
  simp only [Option.bind_eq_bind, Option.bind_some, hjumps]
  rfl

theorem pointerPeek_eq (name : List UInt8) (item : PointerItem) :
    pointerPeek target (name :: item.arguments) =
      some (some (itemTarget target item, parseStringToInt item.size)) := by
  have hlength : (name :: item.arguments).length = item.chainArguments.length + 3 := by
    simp [PointerItem.arguments]
  have hlast : (name :: item.arguments)[item.chainArguments.length + 2]? = some item.final := by
    simp [PointerItem.arguments]
  have hsize : (name :: item.arguments)[1]? = some item.size := rfl
  have hjumps : readArguments (name :: item.arguments) 2 item.chainArguments.length =
      some item.chainArguments :=
    readArguments_eq [name, item.size] item.chainArguments [item.final]
  have hpos : 0 < item.chainArguments.length := Nat.succ_pos _
  unfold pointerPeek
  rw [hlength, if_neg (by omega), Nat.add_sub_cancel,
    show item.chainArguments.length + 3 - 1 = item.chainArguments.length + 2 from rfl, hlast, hsize]
  simp only [Option.bind_eq_bind, Option.bind_some, hjumps]
  rfl

theorem pointerPoke_eq (name payload : List UInt8) (item : PointerItem) :
    pointerPoke target (name :: payload :: (item.chainArguments ++ [item.final])) =
      some ((parseStringToByteBuffer payload).map fun data => (itemTarget target item, data)) := by
  have hlength : (name :: payload :: (item.chainArguments ++ [item.final])).length =
      item.chainArguments.length + 3 := by simp
  have hlast : (name :: payload :: (item.chainArguments ++ [item.final]))[
      item.chainArguments.length + 2]? = some item.final := by simp
  have hpayload : (name :: payload :: (item.chainArguments ++ [item.final]))[1]? =
      some payload := rfl
  have hjumps : readArguments (name :: payload :: (item.chainArguments ++ [item.final])) 2
      item.chainArguments.length = some item.chainArguments :=
    readArguments_eq [name, payload] item.chainArguments [item.final]
  have hpos : 0 < item.chainArguments.length := Nat.succ_pos _
  unfold pointerPoke
  rw [hlength, if_neg (by omega), Nat.add_sub_cancel,
    show item.chainArguments.length + 3 - 1 = item.chainArguments.length + 2 from rfl, hlast,
    hpayload]
  simp only [Option.bind_eq_bind, Option.bind_some, hjumps]
  rfl

theorem commandLaw_iff (name payload : List UInt8) (item : PointerItem) :
    CommandLaw target name item payload ↔
      (chain target item.jumps).isSome = true ∨ target.mainBase = none ∨
        target.malloc (parseStringToInt item.size) = false ∧
          parseStringToByteBuffer payload = none := by
  unfold CommandLaw
  simp only [pointerAll_eq, pointerPeek_eq, pointerPoke_eq, Option.some.injEq]
  cases hchain : chain target item.jumps with
  | some solved =>
    obtain ⟨htarget, hne⟩ := itemTarget_eq hchain
    refine iff_of_true ⟨_, _, _, rfl, rfl, rfl, ?_⟩ (Or.inl rfl)
    refine ⟨by rw [if_pos hne, htarget], by rw [if_pos hne], ?_⟩
    intro call hcall
    obtain ⟨data, -, rfl⟩ := Option.map_eq_some_iff.1 hcall
    rw [if_pos hne]
  | none =>
    constructor
    · rintro ⟨_, _, _, rfl, rfl, rfl, hpeek, hpoke⟩
      refine Or.inr ?_
      cases hbase : target.mainBase with
      | none => exact Or.inl rfl
      | some mainBase =>
        refine Or.inr ⟨?_, ?_⟩
        · cases hmalloc : target.malloc (parseStringToInt item.size) with
          | false => rfl
          | true => simp [peek, hmalloc, hbase] at hpeek
        · cases hpayload : parseStringToByteBuffer payload with
          | none => rfl
          | some data =>
            have := hpoke (itemTarget target item, data) (by rw [hpayload]; rfl)
            simp [poke, hbase] at this
    · rintro (h | h | ⟨hmalloc, hpayload⟩)
      · cases h
      · refine ⟨_, _, _, rfl, rfl, rfl, by simp [peek, h], ?_⟩
        intro call hcall
        simp [poke, h]
      · refine ⟨_, _, _, rfl, rfl, rfl, by simp [peek, hmalloc], ?_⟩
        intro call hcall
        rw [hpayload] at hcall
        cases hcall

/-! ### The multi form -/

theorem nextStar_eq (before group after : List (List UInt8)) (hgroup : ∀ text ∈ group, text ≠ asterisk)
    (hafter : after = [] ∨ after.head? = some asterisk) :
    nextStar (before ++ group ++ after) before.length = before.length + group.length := by
  induction group generalizing before with
  | nil =>
    rw [nextStar]
    rcases hafter with rfl | hafter
    · rw [dif_neg (by simp), List.length_nil, Nat.add_zero]
    · obtain ⟨rest, rfl⟩ := List.head?_eq_some_iff.1 hafter
      rw [dif_pos (by simp), if_pos (by simp), List.length_nil, Nat.add_zero]
  | cons text group ih =>
    have hrest := ih (before ++ [text]) fun t ht => hgroup t (List.mem_cons_of_mem _ ht)
    rw [List.append_assoc before [text], List.singleton_append, List.length_append,
      List.length_singleton] at hrest
    have htext : text ≠ asterisk := hgroup text List.mem_cons_self
    rw [nextStar, dif_pos (by simp), if_neg (by simpa using htext), hrest, List.length_cons]
    omega

/-- The call for an item. -/
def itemCall (target : Target) (item : PointerItem) : UInt64 × UInt64 :=
  (itemTarget target item, parseStringToSignedLong item.size)

variable (target) in
/-- One round of the loop. -/
theorem pointerPeekMultiItems_item (before after : List (List UInt8)) (item : PointerItem)
    (items : List (UInt64 × UInt64)) (hitem : ∀ text ∈ item.arguments, text ≠ asterisk)
    (hafter : after = [] ∨ after.head? = some asterisk) :
    pointerPeekMultiItems target (before ++ item.arguments ++ after) before.length items =
      if 40 ≤ items.length then none
      else pointerPeekMultiItems target (before ++ item.arguments ++ after)
        (before.length + item.arguments.length + 1) (items ++ [itemCall target item]) := by
  have hlength : item.arguments.length = item.chainArguments.length + 2 := by
    simp [PointerItem.arguments]
  have hsplit : before ++ item.arguments ++ after =
      before ++ [item.size] ++ item.chainArguments ++ (item.final :: after) := by
    simp [PointerItem.arguments]
  have hlast : (before ++ item.arguments ++ after)[before.length + item.arguments.length - 1]? =
      some item.final := by
    rw [hsplit, hlength, List.getElem?_append_right (by simp)]
    simp
  have hsize : (before ++ item.arguments ++ after)[before.length]? = some item.size := by
    rw [hsplit]
    simp
  have hjumps : readArguments (before ++ item.arguments ++ after) (before.length + 1)
      item.chainArguments.length = some item.chainArguments := by
    have h := readArguments_eq (before ++ [item.size]) item.chainArguments (item.final :: after)
    rwa [← hsplit, List.length_append, List.length_singleton] at h
  have hcount : before.length + item.arguments.length - before.length - 2 =
      item.chainArguments.length := by omega
  rw [pointerPeekMultiItems, if_pos (by simp [hlength])]
  simp only [nextStar_eq before item.arguments after hitem hafter, hlast, hsize, hcount, hjumps,
    Option.bind_eq_bind, Option.bind_some]
  rw [if_neg (by omega)]
  rfl

variable (target) in
theorem pointerPeekMultiItems_eq (items : List PointerItem)
    (hitems : ∀ item ∈ items, ∀ text ∈ item.arguments, text ≠ asterisk)
    (before : List (List UInt8)) (done : List (UInt64 × UInt64)) (hdone : done.length ≤ 40) :
    pointerPeekMultiItems target (before ++ itemArguments items) before.length done =
      if done.length + items.length ≤ 40 then some (done ++ items.map (itemCall target))
      else none := by
  induction items generalizing before done with
  | nil =>
    rw [pointerPeekMultiItems, if_neg (by simp [itemArguments]), if_pos (by simpa using hdone)]
    simp
  | cons item items ih =>
    have hitem := hitems item List.mem_cons_self
    have hrest := fun i hi => hitems i (List.mem_cons_of_mem _ hi)
    cases items with
    | nil =>
      have hstep := pointerPeekMultiItems_item target before [] item done hitem
        (Or.inl rfl)
      rw [List.append_nil] at hstep
      rw [show itemArguments [item] = item.arguments from rfl, hstep]
      by_cases hfull : 40 ≤ done.length
      · rw [if_pos hfull, if_neg (by simp; omega)]
      · rw [if_neg hfull, if_pos (by simp; omega), pointerPeekMultiItems,
          if_neg (by rw [List.length_append]; omega)]
        rfl
    | cons next items =>
      have hargs : before ++ itemArguments (item :: next :: items) =
          before ++ item.arguments ++ (asterisk :: itemArguments (next :: items)) := by
        rw [itemArguments, List.append_assoc]
        exact fun h => nomatch h
      rw [hargs, pointerPeekMultiItems_item target before _ item done hitem (Or.inr rfl)]
      by_cases hfull : 40 ≤ done.length
      · rw [if_pos hfull, if_neg (by simp; omega)]
      · have htail := ih hrest (before ++ item.arguments ++ [asterisk]) (done ++ [itemCall target item])
          (by rw [List.length_append, List.length_singleton]; omega)
        rw [List.append_assoc _ [asterisk], List.singleton_append, List.length_append,
          List.length_append, List.length_singleton] at htail
        rw [if_neg hfull, htail, List.append_assoc, List.singleton_append, List.map_cons]
        refine if_congr ?_ rfl rfl
        simp only [List.length_append, List.length_cons, List.length_nil]
        omega

theorem length_itemArguments (item : PointerItem) (items : List PointerItem) :
    3 ≤ (itemArguments (item :: items)).length := by
  have hitem : 3 ≤ item.arguments.length := by
    simp [PointerItem.arguments, PointerItem.chainArguments]
  cases items with
  | nil => exact hitem
  | cons next items =>
    rw [itemArguments, List.length_append]
    · omega
    · exact fun h => nomatch h

/-- The reading loop stops behind the first item that cannot be read. -/
theorem length_readItems_le (calls : List (UInt64 × UInt64)) (i : Nat) :
    (readItems target calls).length ≤ i ↔ calls.length ≤ i ∨
      ∃ j < i, ∃ call, calls[j]? = some call ∧ target.read call.1 call.2 = none := by
  induction calls generalizing i with
  | nil => simp [readItems]
  | cons call calls ih =>
    obtain ⟨offset, size⟩ := call
    rw [readItems, List.length_cons, List.length_cons]
    cases i with
    | zero => simp
    | succ i =>
      cases hread : target.read offset size with
      | none =>
        refine iff_of_true (by simp) (Or.inr ⟨0, Nat.succ_pos _, (offset, size), rfl, hread⟩)
      | some bytes =>
        rw [Option.isSome_some, if_pos rfl, Nat.add_le_add_iff_right, Nat.add_le_add_iff_right, ih]
        refine or_congr_right ⟨?_, ?_⟩
        · rintro ⟨j, hj, call, hcall, hnone⟩
          exact ⟨j + 1, Nat.succ_lt_succ hj, call, hcall, hnone⟩
        · rintro ⟨j, hj, call, hcall, hnone⟩
          cases j with
          | zero =>
            obtain rfl := Option.some.inj hcall
            rw [hread] at hnone
            cases hnone
          | succ j => exact ⟨j, Nat.lt_of_succ_lt_succ hj, call, hcall, hnone⟩

theorem multiLaw_iff (name : List UInt8) (first : PointerItem) (items : List PointerItem)
    (hitems : ∀ item ∈ first :: items, ∀ text ∈ item.arguments, text ≠ asterisk) :
    MultiLaw target name (first :: items) ↔
      (first :: items).length ≤ 40 ∧
        ∀ (i : Nat) item, (first :: items)[i]? = some item → chain target item.jumps = none →
          target.mainBase = none ∨
            ∃ j < i, ∃ item', (first :: items)[j]? = some item' ∧ Unreadable target item' := by
  have hcount : ¬ (name :: itemArguments (first :: items)).length < 4 := by
    have h := length_itemArguments first items
    rw [List.length_cons]
    omega
  have hrun := pointerPeekMultiItems_eq target (first :: items) hitems [name] []
    (Nat.zero_le _)
  rw [List.length_singleton, List.singleton_append, List.length_nil, Nat.zero_add,
    List.nil_append] at hrun
  unfold MultiLaw pointerPeekMulti
  rw [if_neg hcount, hrun]
  by_cases hfits : (first :: items).length ≤ 40
  · rw [if_pos hfits]
    simp only [Option.map_some, Option.some.injEq]
    refine Iff.trans ?_ (and_iff_right hfits).symm
    constructor
    · rintro ⟨_, rfl, -, hlaw⟩ i
      induction i using Nat.strong_induction_on with
      | _ i ih =>
        intro item hitem hbroken
        refine or_iff_not_imp_left.2 fun hbase => ?_
        have hcall : ((first :: items).map (itemCall target))[i]? = some (itemCall target item) := by
          rw [List.getElem?_map, hitem]
          rfl
        have hread := hlaw i item _ hitem hcall
        rw [hbroken] at hread
        simp only [peekMulti, if_pos (Option.isSome_iff_ne_none.2 hbase)] at hread
        rcases (length_readItems_le _ _).1 hread with hlength | ⟨j, hj, call, hj', hnone⟩
        · have hi := (List.getElem?_eq_some_iff.1 hcall).1
          omega
        · rw [List.getElem?_map, Option.map_eq_some_iff] at hj'
          obtain ⟨item', hitem', rfl⟩ := hj'
          -- an item before it with a broken chain has an unreadable one before itself
          cases hchain : chain target item'.jumps with
          | none =>
            rcases ih j hj item' hitem' hchain with h | ⟨k, hk, hfound⟩
            · exact absurd h hbase
            · exact ⟨k, hk.trans hj, hfound⟩
          | some solved =>
            refine ⟨j, hj, item', hitem', solved, hchain, ?_⟩
            rw [← (itemTarget_eq hchain).1]
            exact hnone
    · intro h
      refine ⟨_, rfl, List.length_map _, ?_⟩
      intro i item call hitem hcall
      rw [List.getElem?_map, hitem] at hcall
      obtain rfl := Option.some.inj hcall
      cases hchain : chain target item.jumps with
      | some solved => exact (itemTarget_eq hchain).1
      | none =>
        unfold peekMulti
        rcases h i item hitem hchain with hbase | ⟨j, hj, item', hitem', solved, hsolved, hnone⟩
        · rw [hbase]
          exact Nat.zero_le _
        · split_ifs
          · refine (length_readItems_le _ _).2 (Or.inr ⟨j, hj, itemCall target item', ?_, ?_⟩)
            · rw [List.getElem?_map, hitem']
              rfl
            · rw [← (itemTarget_eq hsolved).1] at hnone
              exact hnone
          · exact Nat.zero_le _
  · rw [if_neg hfits]
    refine iff_of_false ?_ fun h => hfits h.1
    rintro ⟨_, hnone, -⟩
    cases hnone

end Law

/-- The commands agree and leave a broken chain alone exactly when there is none, or nothing comes
    to be accessed: no session opens, `peek` has no buffer and `poke` no payload, or an item in front
    of it in the multi form cannot be read. The multi form has room for 40 items. -/
theorem pointer_commands_iff (target : Target) (name payload : List UInt8) (item : PointerItem)
    (first : PointerItem) (items : List PointerItem)
    (hitems : ∀ item ∈ first :: items, ∀ text ∈ item.arguments, text ≠ asterisk) :
    CommandLaw target name item payload ∧ MultiLaw target name (first :: items) ↔
      ((chain target item.jumps).isSome = true ∨ target.mainBase = none ∨
        target.malloc (parseStringToInt item.size) = false ∧
          parseStringToByteBuffer payload = none) ∧
      (first :: items).length ≤ 40 ∧
        ∀ (i : Nat) item, (first :: items)[i]? = some item → chain target item.jumps = none →
          target.mainBase = none ∨
            ∃ j < i, ∃ item', (first :: items)[j]? = some item' ∧ Unreadable target item' := by
  rw [commandLaw_iff, multiLaw_iff name first items hitems]

/-! ### A broken chain -/

/-- A target where the word at main + 8 is 0x2000, the one at 0x2010 is 0 and the one at 0x2020 is
    7. -/
def shortTarget : Target where
  malloc _ := true
  mainBase := some 0x1000
  read address size :=
    if address = 0x1008 then some (Codec.leBytes size.toNat 0x2000)
    else if address = 0x2010 then some (Codec.leBytes size.toNat 0)
    else if address = 0x2020 then some (Codec.leBytes size.toNat 7)
    else none

/-- `8 0x20`, read 4 bytes. -/
def wholeItem : PointerItem where
  size := [0x34]
  first := [0x38]
  additional := []
  final := [0x30, 0x78, 0x32, 0x30]

/-- `8 0x10 0x20`, read 4 bytes. -/
def brokenItem : PointerItem where
  size := [0x34]
  first := [0x38]
  additional := [[0x30, 0x78, 0x31, 0x30]]
  final := [0x30, 0x78, 0x32, 0x30]

/-- `8 0x30`, read 4 bytes. -/
def unreadableItem : PointerItem where
  size := [0x34]
  first := [0x38]
  additional := []
  final := [0x30, 0x78, 0x33, 0x30]

/-- The multi form reads its first item and ends at the second; the broken one is behind it. -/
theorem pointer_commands_iff_whole :
    CommandLaw shortTarget [] wholeItem [0x30, 0x30] ∧
      MultiLaw shortTarget [] [wholeItem, unreadableItem, brokenItem] := by
  refine (pointer_commands_iff shortTarget [] [0x30, 0x30] wholeItem wholeItem
    [unreadableItem, brokenItem] (by decide)).2 ⟨Or.inl (by decide), by decide, ?_⟩
  intro i item hitem hbroken
  have hwhole : chain shortTarget wholeItem.jumps = some 0x2000 := by decide
  have hunreadable : Unreadable shortTarget unreadableItem := ⟨0x2000, hwhole, by decide⟩
  obtain ⟨hi, rfl⟩ := List.getElem?_eq_some_iff.1 hitem
  have hindex : i = 0 ∨ i = 1 ∨ i = 2 := by
    rw [List.length_cons, List.length_cons, List.length_cons, List.length_nil] at hi
    omega
  rcases hindex with rfl | rfl | rfl
  · cases hwhole.symm.trans hbroken
  · cases hwhole.symm.trans hbroken
  · exact Or.inr ⟨1, by decide, unreadableItem, rfl, hunreadable⟩

/-- With the second dereference yielding 0, `pointerPeek` reads at the final jump. -/
theorem broken_chain_is_read : ¬ CommandLaw shortTarget [] brokenItem [0x30, 0x30] := by
  rw [commandLaw_iff]
  decide

end SysAgent
