import SysAgent.Lib.Runs
import SysAgent.Freeze.Table

set_option autoImplicit false

/-! # The freeze table as a finite map

`FreezeRun` steps the table next to the finite map it stands for: `map` is updated by insert, erase
and clear only, and `released` collects the buffers of the entries that leave it. `FreezeGood` says
that the two agree. The step condition `FreezeSafe` is about address `0` alone: it is the value
`findNextEmptySlot` looks for, so an entry frozen at `0` looks like a free slot, and a free slot
that was used before still carries the pointer it freed. `freezeInv_step` is the step lemma under
that condition and `not_freezeGood_of_unsafe` the one outside it. -/

namespace SysAgent

/-- What the map stores for an address. -/
structure FreezeEntry where
  data : Buffer
  size : UInt64
  titleId : UInt64

/-- One call on the table. The buffer of an `add` is freshly allocated by the caller. -/
inductive FreezeOp
  | add (addr v_size tid : UInt64)
  | remove (addr : UInt64)
  | count
  | clear

abbrev FreezeMap := Finmap fun _ : UInt64 => FreezeEntry

structure FreezeRun where
  table : Freezes
  /-- The next buffer the allocator hands out. -/
  next : Buffer
  map : FreezeMap
  released : Multiset Buffer

namespace FreezeRun

def init : FreezeRun :=
  { table := Freezes.initFreezes, next := 0, map := ∅, released := 0 }

/-- The buffer of the entry at `addr`, if the map has one. -/
def bufferAt (m : FreezeMap) (addr : UInt64) : Multiset Buffer :=
  (m.lookup addr).elim 0 fun e => {e.data}

/-- The buffers of all entries. -/
def buffers (m : FreezeMap) : Multiset Buffer :=
  m.entries.map fun e => e.2.data

def step (s : FreezeRun) : FreezeOp → FreezeRun
  | .add addr v_size tid =>
    { table := (s.table.addToFreezeMap addr (some s.next) v_size tid).1
      next := s.next + 1
      map := s.map.insert addr { data := s.next, size := v_size, titleId := tid }
      released := s.released + bufferAt s.map addr }
  | .remove addr =>
    { s with
      table := (s.table.removeFromFreezeMap addr).1
      map := s.map.erase addr
      released := s.released + bufferAt s.map addr }
  | .count => s
  | .clear =>
    { s with
      table := s.table.clearFreezes.1
      map := ∅
      released := s.released + buffers s.map }

/-- No more live addresses than the table has slots. -/
def WithinCapacity (s : FreezeRun) : Prop :=
  s.map.keys.card ≤ FREEZE_DIC_LENGTH

instance (s : FreezeRun) : Decidable s.WithinCapacity :=
  inferInstanceAs (Decidable (_ ≤ _))

end FreezeRun

namespace Freezes

/-- Slot `i` is the entry `e` at address `addr`. -/
def Holds (t : Freezes) (i : Fin FREEZE_DIC_LENGTH) (addr : UInt64) (e : FreezeEntry) : Prop :=
  t.Live i ∧ (t.freezes i).address = addr ∧ (t.freezes i).vData = some e.data ∧
    (t.freezes i).size = e.size ∧ (t.freezes i).titleId = e.titleId

/-- The first slot with address `0`, if there is one, holds the entry at `0` or was never used. -/
def ZeroSlotClean (t : Freezes) : Prop :=
  ∀ s, t.findAddrSlot 0 = some s → t.Live s ∨ (t.freezes s).vData = none

end Freezes

/-- The table is the map, its count is the map's size, and the buffers freed so far are those of
    the entries that left the map, each once. -/
structure FreezeGood (s : FreezeRun) : Prop where
  holds : ∀ a e, s.map.lookup a = some e ↔ ∃ i, s.table.Holds i a e
  unique : ∀ i j, s.table.Live i → s.table.Live j →
    (s.table.freezes i).address = (s.table.freezes j).address → i = j
  count : s.table.getFreezeCount = s.map.keys.card
  freedOnce : s.table.freed.Nodup
  freedLeft : (s.table.freed : Multiset Buffer) = s.released

/-- The calls that cannot run into the double meaning of address `0`. -/
def FreezeSafe (s : FreezeRun) : FreezeOp → Prop
  | .add addr _ _ =>
    (addr = 0 → s.table.ZeroSlotClean) ∧
      (s.table.findAddrSlot addr = none →
        ∀ i, s.table.findNextEmptySlot = some i → ¬ s.table.Live i)
  | .remove addr => addr = 0 → s.table.ZeroSlotClean
  | .count => True
  | .clear => ∀ i, s.table.Live i → (s.table.freezes i).address = 0 → i.val = 0

/-! ## The invariant of the safe runs -/

/-- What holds between any two safe calls: besides `FreezeGood`, live slots own pairwise different
    buffers that are not freed, free slots have address `0` and at most a freed pointer, and the
    slots never used so far are the last ones. -/
structure FreezeInv (s : FreezeRun) : Prop where
  holds : ∀ a e, s.map.lookup a = some e ↔ ∃ i, s.table.Holds i a e
  unique : ∀ i j, s.table.Live i → s.table.Live j →
    (s.table.freezes i).address = (s.table.freezes j).address → i = j
  idle : ∀ i, ¬ s.table.Live i → (s.table.freezes i).address = 0
  owned : ∀ i, s.table.Live i → ∃ b, (s.table.freezes i).vData = some b ∧ b ∉ s.table.freed
  distinct : ∀ i j, s.table.Live i → s.table.Live j →
    (s.table.freezes i).vData = (s.table.freezes j).vData → i = j
  stale : ∀ i b, ¬ s.table.Live i → (s.table.freezes i).vData = some b → b ∈ s.table.freed
  unused : ∀ i j, i < j → (s.table.freezes i).vData = none → (s.table.freezes j).vData = none
  bounded : ∀ i b, (s.table.freezes i).vData = some b → b < s.next
  freedBounded : ∀ b ∈ s.table.freed, b < s.next
  freedOnce : s.table.freed.Nodup
  freedLeft : (s.table.freed : Multiset Buffer) = s.released

namespace FreezeInv

variable {s : FreezeRun}

/-- A slot before a used one was used as well. -/
theorem used_before (h : FreezeInv s) {i j : Fin FREEZE_DIC_LENGTH} (hij : j < i)
    (hi : (s.table.freezes i).vData ≠ none) : (s.table.freezes j).vData ≠ none :=
  fun hj => hi (h.unused j i hij hj)

theorem vData_ne_none_of_live (h : FreezeInv s) {i : Fin FREEZE_DIC_LENGTH}
    (hi : s.table.Live i) : (s.table.freezes i).vData ≠ none := by
  obtain ⟨b, hb, -⟩ := h.owned i hi
  simp [hb]

/-- A live slot is the map's entry at its address. -/
theorem lookup_of_live (h : FreezeInv s) {i : Fin FREEZE_DIC_LENGTH} (hi : s.table.Live i) :
    ∃ e, s.map.lookup (s.table.freezes i).address = some e ∧
      s.table.Holds i (s.table.freezes i).address e := by
  obtain ⟨b, hb, -⟩ := h.owned i hi
  have hholds : s.table.Holds i (s.table.freezes i).address
      { data := b, size := (s.table.freezes i).size, titleId := (s.table.freezes i).titleId } :=
    ⟨hi, rfl, hb, rfl, rfl⟩
  exact ⟨_, (h.holds _ _).2 ⟨i, hholds⟩, hholds⟩

theorem lookup_eq_none (h : FreezeInv s) {a : UInt64}
    (ha : ∀ i, s.table.Live i → (s.table.freezes i).address ≠ a) : s.map.lookup a = none := by
  cases hl : s.map.lookup a with
  | none => rfl
  | some e =>
    obtain ⟨i, hi, hia, -⟩ := (h.holds a e).1 hl
    exact absurd hia (ha i hi)

theorem bufferAt_of_live (h : FreezeInv s) {i : Fin FREEZE_DIC_LENGTH} (hi : s.table.Live i)
    {b : Buffer} (hb : (s.table.freezes i).vData = some b) :
    FreezeRun.bufferAt s.map (s.table.freezes i).address = {b} := by
  obtain ⟨e, he, -, -, hdata, -⟩ := h.lookup_of_live hi
  have hbe : b = e.data := by rw [hb] at hdata; exact Option.some.inj hdata
  simp [FreezeRun.bufferAt, he, hbe]

theorem count (h : FreezeInv s) : s.table.getFreezeCount = s.map.keys.card := by
  rw [Freezes.getFreezeCount_eq_card]
  have himage : (Finset.univ.filter s.table.Live).image (fun i => (s.table.freezes i).address)
      = s.map.keys := by
    ext a
    rw [Finmap.mem_keys, ← Finmap.lookup_isSome, Option.isSome_iff_exists]
    constructor
    · intro hmem
      obtain ⟨i, hi, rfl⟩ := Finset.mem_image.1 hmem
      obtain ⟨e, he, -⟩ := h.lookup_of_live (Finset.mem_filter.1 hi).2
      exact ⟨e, he⟩
    · rintro ⟨e, he⟩
      obtain ⟨i, hi, hia, -⟩ := (h.holds a e).1 he
      exact Finset.mem_image.2 ⟨i, Finset.mem_filter.2 ⟨Finset.mem_univ i, hi⟩, hia⟩
  rw [← himage, Finset.card_image_of_injOn]
  intro i hi j hj hij
  exact h.unique i j (by simpa using hi) (by simpa using hj) hij

theorem good (h : FreezeInv s) : FreezeGood s :=
  { holds := h.holds, unique := h.unique, count := h.count, freedOnce := h.freedOnce,
    freedLeft := h.freedLeft }

end FreezeInv

/-! ## Emptying a slot and filling a slot -/

namespace FreezeRun

/-- Slot `i` is emptied and its entry leaves the map. -/
def drop (s : FreezeRun) (i : Fin FREEZE_DIC_LENGTH) : FreezeRun :=
  { s with
    table := s.table.release i
    map := s.map.erase (s.table.freezes i).address
    released := s.released + bufferAt s.map (s.table.freezes i).address }

/-- A new buffer is stored in slot `i` as the entry at `addr`. -/
def put (s : FreezeRun) (i : Fin FREEZE_DIC_LENGTH) (addr v_size tid : UInt64) : FreezeRun :=
  { s with
    table := s.table.setSlot i
      { address := addr, vData := some s.next, size := v_size, state := 1, titleId := tid }
    next := s.next + 1
    map := s.map.insert addr { data := s.next, size := v_size, titleId := tid } }

end FreezeRun

theorem freezeInv_drop {s : FreezeRun} (h : FreezeInv s) {i : Fin FREEZE_DIC_LENGTH}
    (hi : s.table.Live i) : FreezeInv (s.drop i) := by
  obtain ⟨b, hb, hbfree⟩ := h.owned i hi
  have hfreed : (s.drop i).table.freed = b :: s.table.freed := by simp [FreezeRun.drop, hb]
  have hslot : ∀ j, j ≠ i → (s.drop i).table.freezes j = s.table.freezes j := fun j hj => by
    simp [FreezeRun.drop, hj]
  have hlive : ∀ j, (s.drop i).table.Live j ↔ j ≠ i ∧ s.table.Live j := fun j =>
    Freezes.live_release
  have hvData : ∀ j, ((s.drop i).table.freezes j).vData = (s.table.freezes j).vData := fun j => by
    by_cases hj : j = i
    · simp [FreezeRun.drop, hj]
    · rw [hslot j hj]
  constructor
  case holds =>
    intro a e
    by_cases ha : a = (s.table.freezes i).address
    · subst ha
      refine iff_of_false (by simp [FreezeRun.drop]) ?_
      rintro ⟨j, hj, hja, -⟩
      obtain ⟨hji, hj⟩ := (hlive j).1 hj
      rw [hslot j hji] at hja
      exact hji (h.unique j i hj hi hja)
    · rw [show (s.drop i).map.lookup a = s.map.lookup a from Finmap.lookup_erase_ne ha, h.holds]
      constructor
      · rintro ⟨j, hj, hja, hrest⟩
        have hji : j ≠ i := fun hji => ha (hji ▸ hja).symm
        refine ⟨j, (hlive j).2 ⟨hji, hj⟩, ?_⟩
        rw [hslot j hji]
        exact ⟨hja, hrest⟩
      · rintro ⟨j, hj, hrest⟩
        obtain ⟨hji, hj⟩ := (hlive j).1 hj
        rw [hslot j hji] at hrest
        exact ⟨j, hj, hrest⟩
  case unique =>
    intro j k hj hk hjk
    obtain ⟨hji, hj⟩ := (hlive j).1 hj
    obtain ⟨hki, hk⟩ := (hlive k).1 hk
    rw [hslot j hji, hslot k hki] at hjk
    exact h.unique j k hj hk hjk
  case idle =>
    intro j hj
    by_cases hji : j = i
    · simp [FreezeRun.drop, hji]
    · rw [hslot j hji]
      exact h.idle j fun hl => hj ((hlive j).2 ⟨hji, hl⟩)
  case owned =>
    intro j hj
    obtain ⟨hji, hj⟩ := (hlive j).1 hj
    obtain ⟨c, hc, hcfree⟩ := h.owned j hj
    refine ⟨c, by rw [hvData, hc], ?_⟩
    rw [hfreed, List.mem_cons, not_or]
    refine ⟨fun hcb => hji (h.distinct j i hj hi ?_), hcfree⟩
    rw [hc, hb, hcb]
  case distinct =>
    intro j k hj hk hjk
    rw [hvData, hvData] at hjk
    exact h.distinct j k ((hlive j).1 hj).2 ((hlive k).1 hk).2 hjk
  case stale =>
    intro j c hj hc
    rw [hvData] at hc
    rw [hfreed, List.mem_cons]
    by_cases hji : j = i
    · subst hji
      left
      rw [hb] at hc
      exact (Option.some.inj hc).symm
    · exact .inr (h.stale j c (fun hl => hj ((hlive j).2 ⟨hji, hl⟩)) hc)
  case unused =>
    intro j k hjk hj
    rw [hvData] at hj ⊢
    exact h.unused j k hjk hj
  case bounded =>
    intro j c hc
    rw [hvData] at hc
    exact h.bounded j c hc
  case freedBounded =>
    intro c hc
    rw [hfreed] at hc
    rcases List.mem_cons.1 hc with rfl | hc
    · exact h.bounded i c hb
    · exact h.freedBounded c hc
  case freedOnce =>
    rw [hfreed]
    exact h.freedOnce.cons hbfree
  case freedLeft =>
    rw [hfreed, ← Multiset.cons_coe, h.freedLeft]
    show b ::ₘ s.released = s.released + FreezeRun.bufferAt s.map _
    rw [h.bufferAt_of_live hi hb, Multiset.add_comm, Multiset.singleton_add]

theorem freezeInv_put {s : FreezeRun} (h : FreezeInv s) {i : Fin FREEZE_DIC_LENGTH}
    (hi : ¬ s.table.Live i) (hused : ∀ j, j < i → (s.table.freezes j).vData ≠ none)
    {addr : UInt64} (hnew : ∀ j, s.table.Live j → (s.table.freezes j).address ≠ addr)
    (v_size tid : UInt64) : FreezeInv (s.put i addr v_size tid) := by
  have hslot : ∀ j, j ≠ i → (s.put i addr v_size tid).table.freezes j = s.table.freezes j :=
    fun j hj => by simp [FreezeRun.put, hj]
  have hself : (s.put i addr v_size tid).table.freezes i =
      { address := addr, vData := some s.next, size := v_size, state := 1, titleId := tid } := by
    simp [FreezeRun.put]
  have hlive : ∀ j, (s.put i addr v_size tid).table.Live j ↔ j = i ∨ s.table.Live j := fun j =>
    Freezes.live_setSlot (show (1 : UInt8) ≠ 0 by decide)
  have hliveOld : ∀ j, s.table.Live j → j ≠ i := fun j hj hji => hi (hji ▸ hj)
  have hfreed : (s.put i addr v_size tid).table.freed = s.table.freed := rfl
  have hfresh : ∀ j, (s.table.freezes j).vData ≠ some s.next := fun j hj =>
    Nat.lt_irrefl _ (h.bounded j _ hj)
  constructor
  case holds =>
    intro a e
    by_cases ha : a = addr
    · subst ha
      rw [show (s.put i a v_size tid).map.lookup a = some ⟨s.next, v_size, tid⟩ from
        Finmap.lookup_insert _]
      constructor
      · intro he
        obtain rfl := Option.some.inj he
        refine ⟨i, (hlive i).2 (.inl rfl), ?_⟩
        rw [hself]
        exact ⟨rfl, rfl, rfl, rfl⟩
      · rintro ⟨j, hj, hja, hdata, hsize, htid⟩
        by_cases hji : j = i
        · subst hji
          rw [hself] at hdata hsize htid
          rw [Option.some.injEq] at hdata
          rw [show e = ⟨e.data, e.size, e.titleId⟩ from rfl, ← hdata, ← hsize, ← htid]
        · rw [hslot j hji] at hja
          exact absurd hja (hnew j (((hlive j).1 hj).resolve_left hji))
    · rw [show (s.put i addr v_size tid).map.lookup a = s.map.lookup a from
        Finmap.lookup_insert_of_ne _ ha, h.holds]
      constructor
      · rintro ⟨j, hj, hrest⟩
        refine ⟨j, (hlive j).2 (.inr hj), ?_⟩
        rw [hslot j (hliveOld j hj)]
        exact hrest
      · rintro ⟨j, hj, hja, hrest⟩
        have hji : j ≠ i := by
          rintro rfl
          rw [hself] at hja
          exact ha hja.symm
        rw [hslot j hji] at hja hrest
        exact ⟨j, ((hlive j).1 hj).resolve_left hji, hja, hrest⟩
  case unique =>
    intro j k hj hk hjk
    rcases (hlive j).1 hj with hji | hj' <;> rcases (hlive k).1 hk with hki | hk'
    · rw [hji, hki]
    · rw [hji, hself, hslot k (hliveOld k hk')] at hjk
      exact absurd hjk.symm (hnew k hk')
    · rw [hki, hself, hslot j (hliveOld j hj')] at hjk
      exact absurd hjk (hnew j hj')
    · rw [hslot j (hliveOld j hj'), hslot k (hliveOld k hk')] at hjk
      exact h.unique j k hj' hk' hjk
  case idle =>
    intro j hj
    have hji : j ≠ i := fun hji => hj ((hlive j).2 (.inl hji))
    rw [hslot j hji]
    exact h.idle j fun hl => hj ((hlive j).2 (.inr hl))
  case owned =>
    intro j hj
    rcases (hlive j).1 hj with rfl | hj
    · refine ⟨s.next, by rw [hself], fun hmem => ?_⟩
      exact Nat.lt_irrefl _ (h.freedBounded _ hmem)
    · rw [hslot j (hliveOld j hj), hfreed]
      exact h.owned j hj
  case distinct =>
    intro j k hj hk hjk
    rcases (hlive j).1 hj with hji | hj' <;> rcases (hlive k).1 hk with hki | hk'
    · rw [hji, hki]
    · rw [hji, hself, hslot k (hliveOld k hk')] at hjk
      exact absurd hjk.symm (hfresh k)
    · rw [hki, hself, hslot j (hliveOld j hj')] at hjk
      exact absurd hjk (hfresh j)
    · rw [hslot j (hliveOld j hj'), hslot k (hliveOld k hk')] at hjk
      exact h.distinct j k hj' hk' hjk
  case stale =>
    intro j c hj hc
    have hji : j ≠ i := fun hji => hj ((hlive j).2 (.inl hji))
    rw [hslot j hji] at hc
    exact h.stale j c (fun hl => hj ((hlive j).2 (.inr hl))) hc
  case unused =>
    intro j k hjk hj
    have hji : j ≠ i := by
      rintro rfl
      rw [hself] at hj
      simp at hj
    rw [hslot j hji] at hj
    by_cases hki : k = i
    · exact absurd hj (hused j (hki ▸ hjk))
    · rw [hslot k hki]
      exact h.unused j k hjk hj
  case bounded =>
    intro j c hc
    show c < s.next + 1
    by_cases hji : j = i
    · rw [hji, hself, Option.some.injEq] at hc
      exact hc ▸ Nat.lt_succ_self _
    · rw [hslot j hji] at hc
      exact Nat.lt_succ_of_lt (h.bounded j c hc)
  case freedBounded => exact fun c hc => Nat.lt_succ_of_lt (h.freedBounded c hc)
  case freedOnce => exact h.freedOnce
  case freedLeft => exact h.freedLeft

/-! ## The step lemma -/

theorem freezeInv_init : FreezeInv FreezeRun.init := by
  have hlive : ∀ i, ¬ FreezeRun.init.table.Live i := fun i hi => hi rfl
  constructor
  case holds =>
    refine fun a e => iff_of_false (by simp [FreezeRun.init]) ?_
    rintro ⟨i, hi, -⟩
    exact hlive i hi
  case unique => exact fun i _ hi => absurd hi (hlive i)
  case idle => exact fun _ _ => rfl
  case owned => exact fun i hi => absurd hi (hlive i)
  case distinct => exact fun i _ hi => absurd hi (hlive i)
  case stale => exact fun i b _ hb => absurd hb (Option.some_ne_none b).symm
  case unused => exact fun _ _ _ _ => rfl
  case bounded => exact fun i b hb => absurd hb (Option.some_ne_none b).symm
  case freedBounded => exact fun b hb => absurd hb (List.not_mem_nil)
  case freedOnce => exact List.nodup_nil
  case freedLeft => rfl

variable {s : FreezeRun}

/-- The first slot found for `addr` is live, unless `addr` is `0` and the slot is a free one. -/
theorem FreezeInv.live_of_findAddrSlot (h : FreezeInv s) {addr : UInt64}
    {i : Fin FREEZE_DIC_LENGTH} (hi : s.table.findAddrSlot addr = some i) (haddr : addr ≠ 0) :
    s.table.Live i := by
  by_contra hidle
  exact haddr ((Freezes.findAddrSlot_eq_some.1 hi).1.symm.trans (h.idle i hidle))

/-- Every slot before the first free-looking one has been used. -/
theorem FreezeInv.used_before_zero (h : FreezeInv s) {i : Fin FREEZE_DIC_LENGTH}
    (hi : s.table.findAddrSlot 0 = some i) :
    ∀ j, j < i → (s.table.freezes j).vData ≠ none := by
  intro j hj
  refine h.vData_ne_none_of_live ?_
  by_contra hidle
  exact (Freezes.findAddrSlot_eq_some.1 hi).2 j hj (h.idle j hidle)

/-- With the first free-looking slot never used, no entry lives at address `0`. -/
theorem FreezeInv.not_live_zero (h : FreezeInv s) {i : Fin FREEZE_DIC_LENGTH}
    (hi : s.table.findAddrSlot 0 = some i) (hnone : (s.table.freezes i).vData = none) :
    ∀ j, s.table.Live j → (s.table.freezes j).address ≠ 0 := by
  intro j hj hzero
  rcases lt_trichotomy j i with hlt | heq | hgt
  · exact (Freezes.findAddrSlot_eq_some.1 hi).2 j hlt hzero
  · exact h.vData_ne_none_of_live hj (heq ▸ hnone)
  · exact h.vData_ne_none_of_live hj (h.unused i j hgt hnone)

/-- Without a slot for `addr` the map has no entry there. -/
theorem FreezeInv.lookup_of_findAddrSlot_none (h : FreezeInv s) {addr : UInt64}
    (hnone : s.table.findAddrSlot addr = none) : s.map.lookup addr = none :=
  h.lookup_eq_none fun i _ => Freezes.findAddrSlot_eq_none.1 hnone i

theorem FreezeRun.step_remove_of_lookup_none {addr : UInt64} (hl : s.map.lookup addr = none)
    (htable : (s.table.removeFromFreezeMap addr).1 = s.table) : s.step (.remove addr) = s := by
  have herase : s.map.erase addr = s.map := by
    refine Finmap.ext_lookup fun a => ?_
    by_cases ha : a = addr
    · rw [ha, Finmap.lookup_erase, hl]
    · rw [Finmap.lookup_erase_ne ha]
  simp [FreezeRun.step, htable, herase, FreezeRun.bufferAt, hl]

theorem FreezeRun.step_remove_of_live {addr : UInt64} {i : Fin FREEZE_DIC_LENGTH}
    (hi : s.table.findAddrSlot addr = some i) : s.step (.remove addr) = s.drop i := by
  rw [FreezeRun.step, FreezeRun.drop, Freezes.removeFromFreezeMap_of_some hi,
    (Freezes.findAddrSlot_eq_some.1 hi).1]

theorem FreezeRun.step_add_of_live {addr v_size tid : UInt64} {i : Fin FREEZE_DIC_LENGTH}
    (hi : s.table.findAddrSlot addr = some i) :
    s.step (.add addr v_size tid) = (s.drop i).put i addr v_size tid := by
  have hinsert : (s.map.erase addr).insert addr ⟨s.next, v_size, tid⟩
      = s.map.insert addr ⟨s.next, v_size, tid⟩ := by
    refine Finmap.ext_lookup fun a => ?_
    by_cases ha : a = addr
    · rw [ha, Finmap.lookup_insert, Finmap.lookup_insert]
    · rw [Finmap.lookup_insert_of_ne _ ha, Finmap.lookup_insert_of_ne _ ha,
        Finmap.lookup_erase_ne ha]
  simp only [FreezeRun.step, FreezeRun.put, FreezeRun.drop, Freezes.addToFreezeMap_of_some hi,
    (Freezes.findAddrSlot_eq_some.1 hi).1, hinsert]

theorem FreezeRun.step_add_of_new {addr v_size tid : UInt64} {i : Fin FREEZE_DIC_LENGTH}
    (hl : s.map.lookup addr = none)
    (htable : (s.table.addToFreezeMap addr (some s.next) v_size tid).1 = s.table.setSlot i
      { address := addr, vData := some s.next, size := v_size, state := 1, titleId := tid }) :
    s.step (.add addr v_size tid) = s.put i addr v_size tid := by
  simp [FreezeRun.step, FreezeRun.put, htable, FreezeRun.bufferAt, hl]

/-- Emptying a free slot that was never used changes nothing. -/
theorem Freezes.release_of_unused {t : Freezes} {i : Fin FREEZE_DIC_LENGTH} (hi : ¬ t.Live i)
    (haddr : (t.freezes i).address = 0) (hnone : (t.freezes i).vData = none) :
    t.release i = t := by
  have hstate : (t.freezes i).state = 0 := not_not.1 hi
  have hblock : { t.freezes i with address := 0, state := 0 } = t.freezes i := by
    rw [← haddr, ← hstate]
  rw [Freezes.release, hnone, hblock, Freezes.setSlot, Function.update_eq_self, Freezes.free]

theorem freezeInv_remove (h : FreezeInv s) {addr : UInt64} (hsafe : FreezeSafe s (.remove addr)) :
    FreezeInv (s.step (.remove addr)) := by
  cases hfind : s.table.findAddrSlot addr with
  | none =>
    rw [FreezeRun.step_remove_of_lookup_none (h.lookup_of_findAddrSlot_none hfind)
      (by rw [Freezes.removeFromFreezeMap_of_none hfind])]
    exact h
  | some i =>
    by_cases hi : s.table.Live i
    · rw [FreezeRun.step_remove_of_live hfind]
      exact freezeInv_drop h hi
    · obtain rfl : addr = 0 := by
        by_contra haddr
        exact hi (h.live_of_findAddrSlot hfind haddr)
      have hnone := (hsafe rfl i hfind).resolve_left hi
      rw [FreezeRun.step_remove_of_lookup_none (h.lookup_eq_none (h.not_live_zero hfind hnone))
        (by rw [Freezes.removeFromFreezeMap_of_some hfind,
          Freezes.release_of_unused hi (h.idle i hi) hnone])]
      exact h

/-- A table without a free-looking slot is full of entries of the map. -/
theorem FreezeInv.card_of_full (h : FreezeInv s) (hfull : s.table.findAddrSlot 0 = none) :
    s.map.keys.card = FREEZE_DIC_LENGTH := by
  have hall : Finset.univ.filter s.table.Live = Finset.univ := by
    refine Finset.filter_true_of_mem fun i _ => ?_
    by_contra hidle
    exact Freezes.findAddrSlot_eq_none.1 hfull i (h.idle i hidle)
  rw [← h.count, Freezes.getFreezeCount_eq_card, hall, Finset.card_univ, Fintype.card_fin]

theorem freezeInv_add (h : FreezeInv s) {addr v_size tid : UInt64}
    (hsafe : FreezeSafe s (.add addr v_size tid))
    (hcap : (s.step (.add addr v_size tid)).WithinCapacity) :
    FreezeInv (s.step (.add addr v_size tid)) := by
  cases hfind : s.table.findAddrSlot addr with
  | some i =>
    have haddr := (Freezes.findAddrSlot_eq_some.1 hfind).1
    by_cases hi : s.table.Live i
    · -- the entry at `addr` is overwritten in its own slot
      rw [FreezeRun.step_add_of_live hfind]
      have hdrop := freezeInv_drop h hi
      have hidle : ¬ (s.drop i).table.Live i := fun hl => (Freezes.live_release.1 hl).1 rfl
      refine freezeInv_put hdrop hidle (fun j hj => ?_) (fun j hj hja => ?_) v_size tid
      · refine hdrop.used_before hj ?_
        simpa [FreezeRun.drop] using h.vData_ne_none_of_live hi
      · obtain ⟨hji, hj⟩ := Freezes.live_release.1 hj
        rw [show (s.drop i).table.freezes j = s.table.freezes j by simp [FreezeRun.drop, hji]] at hja
        exact hji (h.unique j i hj hi (hja.trans haddr.symm))
    · -- `addr` is `0` and the slot was never used
      obtain rfl : addr = 0 := by
        by_contra hne
        exact hi (h.live_of_findAddrSlot hfind hne)
      have hnone := (hsafe.1 rfl i hfind).resolve_left hi
      have hnew := h.not_live_zero hfind hnone
      rw [FreezeRun.step_add_of_new (h.lookup_eq_none hnew) (by
        rw [Freezes.addToFreezeMap_of_some hfind, Freezes.release_of_unused hi haddr hnone])]
      exact freezeInv_put h hi (h.used_before_zero hfind) hnew v_size tid
  | none =>
    have hl := h.lookup_of_findAddrSlot_none hfind
    cases hzero : s.table.findAddrSlot 0 with
    | some i =>
      rw [FreezeRun.step_add_of_new hl (Freezes.addToFreezeMap_of_none hfind hzero _ _ _)]
      exact freezeInv_put h (hsafe.2 hfind i hzero) (h.used_before_zero hzero)
        (fun j _ => Freezes.findAddrSlot_eq_none.1 hfind j) v_size tid
    | none =>
      have hnotin : addr ∉ s.map := by
        rw [← Finmap.lookup_eq_none]
        exact hl
      have hkeys : (s.map.insert addr ⟨s.next, v_size, tid⟩).keys = insert addr s.map.keys := by
        ext a
        simp [Finmap.mem_keys, Finmap.mem_insert]
      have hcard : (s.map.insert addr ⟨s.next, v_size, tid⟩).keys.card = s.map.keys.card + 1 := by
        rw [hkeys, Finset.card_insert_of_notMem (by rwa [Finmap.mem_keys])]
      have hle : (s.map.insert addr ⟨s.next, v_size, tid⟩).keys.card ≤ FREEZE_DIC_LENGTH := hcap
      rw [hcard, h.card_of_full hzero] at hle
      exact absurd hle (Nat.not_succ_le_self _)

/-! ## Clearing the table -/

theorem FreezeRun.buffers_erase (m : FreezeMap) (a : UInt64) :
    buffers (m.erase a) + bufferAt m a = buffers m := by
  cases hl : m.lookup a with
  | none =>
    have herase : m.erase a = m := by
      refine Finmap.ext_lookup fun x => ?_
      by_cases hx : x = a
      · rw [hx, Finmap.lookup_erase, hl]
      · rw [Finmap.lookup_erase_ne hx]
    simp [bufferAt, hl, herase]
  | some e =>
    have hinsert : (m.erase a).insert a e = m := by
      refine Finmap.ext_lookup fun x => ?_
      by_cases hx : x = a
      · rw [hx, Finmap.lookup_insert, hl]
      · rw [Finmap.lookup_insert_of_ne _ hx, Finmap.lookup_erase_ne hx]
    have hnotin : a ∉ m.erase a := by
      rw [← Finmap.lookup_eq_none, Finmap.lookup_erase]
    have hentries : m.entries = ⟨a, e⟩ ::ₘ (m.erase a).entries := by
      rw [← Finmap.entries_insert_of_notMem hnotin, hinsert]
    simp [bufferAt, hl, buffers, hentries, Multiset.add_comm]

/-- The clear loop over the slots still to visit, as long as every live slot is among them and the
    entry at address `0` can only sit in slot `0`. -/
theorem clearFreezes_loop (l : List (Fin FREEZE_DIC_LENGTH)) (hl : l.Pairwise (· < ·)) :
    ∀ (s : FreezeRun) (cleared : Bool), FreezeInv s → (∀ i, s.table.Live i → i ∈ l) →
      (∀ i, s.table.Live i → (s.table.freezes i).address = 0 → i.val = 0) →
      ∃ s' : FreezeRun, FreezeInv s' ∧ (∀ i, ¬ s'.table.Live i) ∧
        s'.table = (l.foldl Freezes.clearSlot (s.table, cleared)).1 ∧ s'.next = s.next ∧
        s'.released + FreezeRun.buffers s'.map = s.released + FreezeRun.buffers s.map := by
  induction l with
  | nil =>
    intro s cleared h hlive _
    exact ⟨s, h, fun i hi => List.not_mem_nil (hlive i hi), rfl, rfl, rfl⟩
  | cons i rest ih =>
    intro s cleared h hlive hzero
    obtain ⟨hfirst, hrest⟩ := List.pairwise_cons.1 hl
    by_cases hi : s.table.Live i
    · have hfind : s.table.findAddrSlot (s.table.freezes i).address = some i := by
        refine Freezes.findAddrSlot_eq_some.2 ⟨rfl, fun j hj hja => ?_⟩
        have hidle : ¬ s.table.Live j := by
          intro hlj
          rcases List.mem_cons.1 (hlive j hlj) with rfl | hmem
          · exact lt_irrefl _ hj
          · exact lt_asymm hj (hfirst j hmem)
        -- the slots before `i` are free, so `i` would have to be slot `0`
        have hi0 := hzero i hi (hja ▸ h.idle j hidle)
        exact absurd hj (by simp [Fin.lt_def, hi0])
      have hslot : Freezes.clearSlot (s.table, cleared) i = ((s.drop i).table, true) := by
        have hstate : ((s.table.freezes i).state != 0) = true := bne_iff_ne.2 hi
        simp only [Freezes.clearSlot, hstate, if_true, Freezes.removeFromFreezeMap_of_some hfind,
          FreezeRun.drop]
      obtain ⟨s', hinv, hnone, htable, hnext, hreleased⟩ :=
        ih hrest (s.drop i) true (freezeInv_drop h hi)
          (fun j hj => by
            obtain ⟨hji, hj⟩ := Freezes.live_release.1 hj
            exact (List.mem_cons.1 (hlive j hj)).resolve_left hji)
          (fun j hj hja => by
            obtain ⟨hji, hj⟩ := Freezes.live_release.1 hj
            refine hzero j hj ?_
            simpa [FreezeRun.drop, hji] using hja)
      refine ⟨s', hinv, hnone, ?_, hnext, ?_⟩
      · rw [List.foldl_cons, hslot]
        exact htable
      · rw [hreleased, ← FreezeRun.buffers_erase s.map (s.table.freezes i).address]
        show s.released + _ + _ = _
        rw [Multiset.add_assoc, Multiset.add_comm (FreezeRun.bufferAt _ _)]
        rfl
    · have hslot : Freezes.clearSlot (s.table, cleared) i = (s.table, cleared) := by
        have hstate : ((s.table.freezes i).state != 0) = false := bne_eq_false_iff_eq.2 (not_not.1 hi)
        simp [Freezes.clearSlot, hstate]
      rw [List.foldl_cons, hslot]
      refine ih hrest s cleared h (fun j hj => ?_) hzero
      refine (List.mem_cons.1 (hlive j hj)).resolve_left ?_
      rintro rfl
      exact hi hj

theorem freezeInv_clear (h : FreezeInv s) (hsafe : FreezeSafe s .clear) :
    FreezeInv (s.step .clear) := by
  obtain ⟨s', hinv, hnone, htable, hnext, hreleased⟩ :=
    clearFreezes_loop (List.finRange FREEZE_DIC_LENGTH) (List.pairwise_lt_finRange _) s false h
      (fun i _ => List.mem_finRange i) hsafe
  have hmap : s'.map = ∅ := Finmap.ext_lookup fun a => by
    rw [hinv.lookup_eq_none fun i hi => absurd hi (hnone i), Finmap.lookup_empty]
  have heq : s' = s.step .clear := by
    obtain ⟨table, next, map, released⟩ := s'
    simp only at htable hnext hmap hreleased
    subst htable hnext hmap
    have hempty : FreezeRun.buffers ∅ = 0 := rfl
    rw [hempty, Multiset.add_zero] at hreleased
    rw [hreleased]
    rfl
  exact heq ▸ hinv

theorem freezeInv_step (h : FreezeInv s) (op : FreezeOp) (hsafe : FreezeSafe s op)
    (hcap : (s.step op).WithinCapacity) : FreezeInv (s.step op) := by
  cases op with
  | add addr v_size tid => exact freezeInv_add h hsafe hcap
  | remove addr => exact freezeInv_remove h hsafe
  | count => exact h
  | clear => exact freezeInv_clear h hsafe

end SysAgent
