import SysAgent.Freeze.FiniteMap

set_option autoImplicit false

/-! # Whole runs of the freeze table

A call outside `FreezeSafe` always spoils the table: it frees a buffer a second time (`add` or
`remove` of address `0` with a used free slot in front), loses the entry at `0` (the next new
address lands in its slot), or leaves it behind (`clear`). With the step lemma this makes the
condition exact: `freezeGood_iff_calls_safe`. -/

namespace SysAgent

variable {s : FreezeRun}

/-! ## Outside the condition -/

theorem not_nodup_of_release_stale (h : FreezeInv s) {i : Fin FREEZE_DIC_LENGTH}
    (hi : ¬ s.table.Live i) (hused : (s.table.freezes i).vData ≠ none) :
    ¬ (s.table.release i).freed.Nodup := by
  obtain ⟨b, hb⟩ := Option.ne_none_iff_exists'.1 hused
  intro hnodup
  rw [Freezes.release_freed, hb] at hnodup
  exact (List.nodup_cons.1 hnodup).1 (h.stale i b hi hb)

/-- While slot `z` looks free, clearing another slot cannot reach a live slot at address `0`
    behind it. -/
theorem clearSlot_keeps_zero_entry {z i : Fin FREEZE_DIC_LENGTH} (hzi : z < i) {block : FreezeBlock}
    (hblock : block.address = 0) :
    ∀ (l : List (Fin FREEZE_DIC_LENGTH)) (acc : Freezes × Bool),
      (acc.1.freezes z).address = 0 → acc.1.freezes i = block →
      (l.foldl Freezes.clearSlot acc).1.freezes i = block := by
  intro l
  induction l with
  | nil => exact fun acc _ hi => hi
  | cons k rest ih =>
    intro acc hz hi
    rw [List.foldl_cons]
    by_cases hk : (acc.1.freezes k).state != 0
    · cases hfind : acc.1.findAddrSlot (acc.1.freezes k).address with
      | none => exact absurd rfl (Freezes.findAddrSlot_eq_none.1 hfind k)
      | some j =>
        obtain ⟨hja, hjfirst⟩ := Freezes.findAddrSlot_eq_some.1 hfind
        have hji : i ≠ j := by
          rintro rfl
          rw [hi, hblock] at hja
          exact hjfirst z hzi (hz.trans hja)
        have hslot : (Freezes.clearSlot acc k).1 = acc.1.release j := by
          simp [Freezes.clearSlot, hk, Freezes.removeFromFreezeMap_of_some hfind]
        refine ih _ ?_ ?_
        · rw [hslot, Freezes.release_freezes]
          by_cases hzj : z = j
          · simp [hzj]
          · simpa [hzj] using hz
        · rw [hslot, Freezes.release_freezes, Function.update_of_ne hji, hi]
    · have hslot : Freezes.clearSlot acc k = acc := by simp [Freezes.clearSlot, hk]
      rw [hslot]
      exact ih acc hz hi

/-- A clear leaves an entry at address `0` behind unless it sits in slot `0`. -/
theorem clearFreezes_keeps_zero_entry (h : FreezeInv s) {i : Fin FREEZE_DIC_LENGTH}
    (hi : s.table.Live i) (hzero : (s.table.freezes i).address = 0) (hne : i.val ≠ 0) :
    s.table.clearFreezes.1.freezes i = s.table.freezes i := by
  have hz0 : 0 < FREEZE_DIC_LENGTH := Nat.zero_lt_of_lt i.isLt
  let z : Fin FREEZE_DIC_LENGTH := ⟨0, hz0⟩
  have hzi : z < i := Fin.lt_def.2 (Nat.pos_of_ne_zero hne)
  -- slot `0` is visited first
  obtain ⟨before, after, hsplit⟩ := List.append_of_mem (List.mem_finRange z)
  have hbefore : before = [] := by
    refine List.eq_nil_iff_forall_not_mem.2 fun j hj => ?_
    have hpair := List.pairwise_lt_finRange FREEZE_DIC_LENGTH
    rw [hsplit] at hpair
    exact absurd ((List.pairwise_append.1 hpair).2.2 j hj z List.mem_cons_self)
      (by simp [z, Fin.lt_def])
  rw [Freezes.clearFreezes, hsplit, hbefore, List.nil_append, List.foldl_cons]
  by_cases hz : s.table.Live z
  · have hzaddr : (s.table.freezes z).address ≠ 0 := fun hza =>
      hzi.ne (h.unique z i hz hi (hza.trans hzero.symm))
    have hfind : s.table.findAddrSlot (s.table.freezes z).address = some z := by
      refine Freezes.findAddrSlot_eq_some.2 ⟨rfl, fun j hj => ?_⟩
      simp [z, Fin.lt_def] at hj
    have hstate : ((s.table.freezes z).state != 0) = true := bne_iff_ne.2 hz
    have hslot : (Freezes.clearSlot (s.table, false) z).1 = s.table.release z := by
      simp only [Freezes.clearSlot, hstate, if_true, Freezes.removeFromFreezeMap_of_some hfind]
    refine clearSlot_keeps_zero_entry hzi hzero after _ ?_ ?_
    · simp [hslot]
    · rw [hslot, Freezes.release_freezes, Function.update_of_ne hzi.ne']
  · have hstate : ((s.table.freezes z).state != 0) = false := bne_eq_false_iff_eq.2 (not_not.1 hz)
    have hslot : Freezes.clearSlot (s.table, false) z = (s.table, false) := by
      simp [Freezes.clearSlot, hstate]
    rw [hslot]
    exact clearSlot_keeps_zero_entry hzi hzero after _ (h.idle z hz) rfl

theorem not_freezeGood_of_not_safe (h : FreezeInv s) (op : FreezeOp) (hbad : ¬ FreezeSafe s op) :
    ¬ FreezeGood (s.step op) := by
  intro hgood
  have hstale : ∀ i, s.table.findAddrSlot 0 = some i →
      ¬ (s.table.Live i ∨ (s.table.freezes i).vData = none) →
      ¬ (s.table.release i).freed.Nodup := fun i _ hor =>
    not_nodup_of_release_stale h (fun hl => hor (.inl hl)) (fun hn => hor (.inr hn))
  cases op with
  | count => exact hbad trivial
  | remove addr =>
    simp only [FreezeSafe, Freezes.ZeroSlotClean, not_forall] at hbad
    obtain ⟨rfl, i, hi, hor⟩ := hbad
    refine hstale i hi hor ?_
    have hnodup := hgood.freedOnce
    simpa only [FreezeRun.step, Freezes.removeFromFreezeMap_of_some hi] using hnodup
  | clear =>
    simp only [FreezeSafe, not_forall] at hbad
    obtain ⟨i, hi, hzero, hne⟩ := hbad
    obtain ⟨b, hb, -⟩ := h.owned i hi
    have hkeep := clearFreezes_keeps_zero_entry h hi hzero hne
    have hholds : (s.step .clear).table.Holds i 0
        { data := b, size := (s.table.freezes i).size, titleId := (s.table.freezes i).titleId } := by
      show s.table.clearFreezes.1.Holds i 0 _
      refine ⟨?_, ?_, ?_, ?_, ?_⟩
      · rw [Freezes.Live, hkeep]
        exact hi
      all_goals rw [hkeep]
      exacts [hzero, hb]
    have hlookup := (hgood.holds _ _).2 ⟨i, hholds⟩
    simp [FreezeRun.step] at hlookup
  | add addr v_size tid =>
    by_cases hclean : addr = 0 → s.table.ZeroSlotClean
    · -- the first free-looking slot is the entry at address `0`, which is overwritten
      have hlost : ¬ (s.table.findAddrSlot addr = none →
          ∀ i, s.table.findNextEmptySlot = some i → ¬ s.table.Live i) :=
        fun hrest => hbad ⟨hclean, hrest⟩
      simp only [not_forall, not_not, Freezes.findNextEmptySlot] at hlost
      obtain ⟨hnone, i, hi, hlive⟩ := hlost
      have hzero := (Freezes.findAddrSlot_eq_some.1 hi).1
      have haddr : addr ≠ 0 := by
        rintro rfl
        rw [hnone] at hi
        simp at hi
      obtain ⟨e, he, -⟩ := h.lookup_of_live hlive
      rw [hzero] at he
      have hlookup : (s.step (.add addr v_size tid)).map.lookup 0 = some e := by
        rw [FreezeRun.step, Finmap.lookup_insert_of_ne _ haddr.symm, he]
      obtain ⟨j, hj, hja, -⟩ := (hgood.holds 0 e).1 hlookup
      simp only [FreezeRun.step, Freezes.addToFreezeMap_of_none hnone hi] at hj hja
      by_cases hji : j = i
      · rw [hji, Freezes.setSlot_freezes, Function.update_self] at hja
        exact haddr hja
      · rw [Freezes.setSlot_freezes, Function.update_of_ne hji] at hja
        have hjlive := ((Freezes.live_setSlot (show (1 : UInt8) ≠ 0 by decide)).1 hj).resolve_left hji
        exact hji (h.unique j i hjlive hlive (hja.trans hzero.symm))
    · simp only [Freezes.ZeroSlotClean, not_forall] at hclean
      obtain ⟨rfl, i, hi, hor⟩ := hclean
      refine hstale i hi hor ?_
      have hnodup := hgood.freedOnce
      simpa only [FreezeRun.step, Freezes.addToFreezeMap_of_some hi, Freezes.setSlot_freed]
        using hnodup

/-! ## The table over whole runs -/

/-- Over every run that stays within the table's capacity, the table is the finite map in every
    state iff every call is made in a state that allows it. -/
theorem freezeGood_iff_calls_safe (ops : List FreezeOp)
    (hcap : Runs.Always FreezeRun.step FreezeRun.WithinCapacity FreezeRun.init ops) :
    Runs.Always FreezeRun.step FreezeGood FreezeRun.init ops ↔
      Runs.EachStep FreezeRun.step FreezeSafe FreezeRun.init ops :=
  Runs.always_iff_eachStep (fun _ op h hsafe => freezeInv_step h op hsafe) (fun _ h => h.good)
    (fun _ op h => not_freezeGood_of_not_safe h op) freezeInv_init hcap

/-- One entry, frozen and removed. -/
theorem freezeGood_iff_calls_safe_add_remove :
    Runs.Always FreezeRun.step FreezeGood FreezeRun.init [.add 0x100 4 1, .remove 0x100] ↔
      Runs.EachStep FreezeRun.step FreezeSafe FreezeRun.init [.add 0x100 4 1, .remove 0x100] := by
  refine freezeGood_iff_calls_safe _ ?_
  rw [Runs.always_cons, Runs.always_cons, Runs.always_nil]
  decide +kernel

/-- Removing address `0` from a table with a used free slot frees that slot's old buffer again. -/
theorem freeze_remove_zero_frees_twice :
    Runs.Always FreezeRun.step FreezeRun.WithinCapacity FreezeRun.init
        [.add 0x100 4 1, .remove 0x100, .remove 0] ∧
      ¬ Runs.Always FreezeRun.step FreezeGood FreezeRun.init
        [.add 0x100 4 1, .remove 0x100, .remove 0] := by
  constructor
  · rw [Runs.always_cons, Runs.always_cons, Runs.always_cons, Runs.always_nil]
    decide +kernel
  · intro hgood
    have hnodup := hgood.last.freedOnce
    revert hnodup
    decide +kernel

end SysAgent
