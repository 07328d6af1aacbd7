import Mathlib.Data.List.Nodup
import Mathlib.Data.Fintype.Card
import Mathlib.Logic.Function.Basic

set_option autoImplicit false

/-! # Slot tables

A table of a fixed number of slots, each free or owned by a key: `find` is the first slot of a key,
`store` writes into the first slot that is free or already the key's own, `release` frees the
first slot of a key. `Holds t m` says that the table `t` represents the finite map `m`: no key owns
two slots and the occupied slots are the graph of `m`. The operations then are lookup, insertion
and deletion of `m`. -/

namespace SlotTable

structure Slot (κ α : Type) where
  key : Option κ
  value : α

variable {κ α β : Type} [DecidableEq κ]

def find (t : List (Slot κ α)) (k : κ) : Option (Slot κ α) :=
  t.find? fun s => s.key = some k

/-- Write `s` into the first slot that is free or owned by `k`; `false` when there is none. -/
def store (k : κ) (s : Slot κ α) : List (Slot κ α) → List (Slot κ α) × Bool
  | [] => ([], false)
  | slot :: rest =>
    if slot.key = none ∨ slot.key = some k then (s :: rest, true)
    else (slot :: (store k s rest).1, (store k s rest).2)

/-- Change the first slot of `k`. -/
def modify (k : κ) (f : Slot κ α → Slot κ α) : List (Slot κ α) → List (Slot κ α)
  | [] => []
  | slot :: rest =>
    if slot.key = some k then f slot :: rest else slot :: modify k f rest

def free (slot : Slot κ α) : Slot κ α := { slot with key := none }

def release (k : κ) (t : List (Slot κ α)) : List (Slot κ α) := modify k free t

def mapValue (f : α → β) (slot : Slot κ α) : Slot κ β := { key := slot.key, value := f slot.value }

/-- The occupied slots as pairs of owner and value. -/
def entries (t : List (Slot κ α)) : List (κ × α) :=
  t.filterMap fun s => s.key.map fun k => (k, s.value)

def owners (t : List (Slot κ α)) : List κ := t.filterMap Slot.key

structure Holds (t : List (Slot κ α)) (m : κ → Option α) : Prop where
  nodup : (owners t).Nodup
  graph : ∀ k v, (k, v) ∈ entries t ↔ m k = some v

/-! ## The operations under a change of the values -/

omit [DecidableEq κ] in
@[simp] theorem mapValue_key (f : α → β) (slot : Slot κ α) : (mapValue f slot).key = slot.key := rfl

omit [DecidableEq κ] in
@[simp] theorem owners_cons (slot : Slot κ α) (t : List (Slot κ α)) :
    owners (slot :: t) = slot.key.toList ++ owners t := by
  unfold owners
  cases h : slot.key <;> simp [h]

omit [DecidableEq κ] in
@[simp] theorem entries_cons (slot : Slot κ α) (t : List (Slot κ α)) :
    entries (slot :: t) = (slot.key.map fun k => (k, slot.value)).toList ++ entries t := by
  unfold entries
  cases h : slot.key <;> simp [h]

omit [DecidableEq κ] in
theorem owners_eq_map (t : List (Slot κ α)) : owners t = (entries t).map Prod.fst := by
  induction t with
  | nil => rfl
  | cons slot t ih => cases h : slot.key <;> simp [h, ih]

theorem map_store (f : α → β) (k : κ) (s : Slot κ α) (t : List (Slot κ α)) :
    (store k s t).1.map (mapValue f) = (store k (mapValue f s) (t.map (mapValue f))).1 := by
  induction t with
  | nil => rfl
  | cons slot t ih =>
    by_cases h : slot.key = none ∨ slot.key = some k
    · simp [store, h]
    · simp [store, h, ih]

theorem map_release (f : α → β) (k : κ) (t : List (Slot κ α)) :
    (release k t).map (mapValue f) = release k (t.map (mapValue f)) := by
  unfold release
  induction t with
  | nil => rfl
  | cons slot t ih =>
    by_cases h : slot.key = some k
    · simp [modify, h, free, mapValue]
    · simp [modify, h, ih]

/-- A modification that the change of values does not see. -/
theorem map_modify_of_invisible (f : α → β) (k : κ) {g : Slot κ α → Slot κ α}
    (hg : ∀ s, mapValue f (g s) = mapValue f s) (t : List (Slot κ α)) :
    (modify k g t).map (mapValue f) = t.map (mapValue f) := by
  induction t with
  | nil => rfl
  | cons slot t ih =>
    unfold modify
    split
    · simp [hg]
    · simp [ih]

theorem find_map (f : α → β) (k : κ) (t : List (Slot κ α)) :
    find (t.map (mapValue f)) k = (find t k).map (mapValue f) := by
  unfold find
  induction t with
  | nil => rfl
  | cons slot t ih =>
    by_cases h : slot.key = some k
    · simp [h]
    · simpa [h] using ih

theorem find_modify (k : κ) {f : Slot κ α → Slot κ α} (hf : ∀ s, (f s).key = s.key)
    (t : List (Slot κ α)) : find (modify k f t) k = (find t k).map f := by
  unfold find
  induction t with
  | nil => rfl
  | cons slot t ih =>
    by_cases h : slot.key = some k
    · simp [modify, h, hf]
    · simpa [modify, h] using ih

/-! ## The operations as operations of the map -/

omit [DecidableEq κ] in
theorem mem_owners {t : List (Slot κ α)} {k : κ} : k ∈ owners t ↔ ∃ s ∈ t, s.key = some k := by
  simp [owners]

theorem find_eq_none_iff {t : List (Slot κ α)} {k : κ} : find t k = none ↔ k ∉ owners t := by
  simp [find, mem_owners]

theorem find_mem_entries {t : List (Slot κ α)} {k : κ} {s : Slot κ α} (h : find t k = some s) :
    s.key = some k ∧ (k, s.value) ∈ entries t := by
  have hkey : s.key = some k := by simpa using List.find?_some h
  refine ⟨hkey, ?_⟩
  unfold entries
  exact List.mem_filterMap.2 ⟨s, List.mem_of_find?_eq_some h, by simp [hkey]⟩

namespace Holds

variable {t : List (Slot κ α)} {m : κ → Option α}

omit [DecidableEq κ] in
theorem mem_owners_iff (h : Holds t m) (k : κ) : k ∈ owners t ↔ m k ≠ none := by
  rw [owners_eq_map, List.mem_map, Option.ne_none_iff_exists']
  constructor
  · rintro ⟨⟨k', v⟩, hmem, rfl⟩
    exact ⟨v, (h.graph _ v).1 hmem⟩
  · rintro ⟨v, hv⟩
    exact ⟨(k, v), (h.graph k v).2 hv, rfl⟩

theorem find (h : Holds t m) (k : κ) : (SlotTable.find t k).map Slot.value = m k := by
  cases hfind : SlotTable.find t k with
  | none =>
    have hout := find_eq_none_iff.1 hfind
    rw [h.mem_owners_iff] at hout
    simpa using (not_not.1 hout).symm
  | some s => exact ((h.graph k s.value).1 (find_mem_entries hfind).2).symm

/-- At most one slot is owned by a key. -/
theorem count_le_one (h : Holds t m) (k : κ) : (t.filter fun s => s.key = some k).length ≤ 1 := by
  have hcount : (owners t).count k = (t.filter fun s => s.key = some k).length := by
    clear h
    induction t with
    | nil => rfl
    | cons slot t ih =>
      rcases hkey : slot.key with _ | k'
      · simp [hkey, ih]
      · by_cases hk : k' = k
        · simp [hkey, hk, ih, Nat.add_comm]
        · simp [hkey, hk, ih]
  rw [← hcount]
  exact List.nodup_iff_count_le_one.1 h.nodup k

end Holds

/-! ## Insertion -/

omit [DecidableEq κ] in
theorem exists_free_of_lt {t : List (Slot κ α)} (h : (owners t).length < t.length) :
    ∃ s ∈ t, s.key = none := by
  by_contra hfull
  push Not at hfull
  have hlength : (owners t).length = t.length := by
    clear h
    induction t with
    | nil => rfl
    | cons slot t ih =>
      obtain ⟨k, hk⟩ := Option.ne_none_iff_exists'.1 (hfull slot List.mem_cons_self)
      simp [hk, ih fun s hs => hfull s (List.mem_cons_of_mem _ hs), Nat.add_comm]
  omega

theorem store_of_free {t : List (Slot κ α)} (k : κ) (v : α) (hout : k ∉ owners t)
    (hfree : ∃ s ∈ t, s.key = none) :
    (store k ⟨some k, v⟩ t).2 = true ∧
      (entries (store k ⟨some k, v⟩ t).1).Perm ((k, v) :: entries t) := by
  induction t with
  | nil => simp at hfree
  | cons slot t ih =>
    rcases hkey : slot.key with _ | k'
    · simp [store, hkey]
    · have hne : k' ≠ k := by
        rintro rfl
        exact hout (by simp [hkey])
      have hout' : k ∉ owners t := fun hk => hout (by simp [hk])
      have hfree' : ∃ s ∈ t, s.key = none := by
        obtain ⟨s, hs, hnone⟩ := hfree
        rcases List.mem_cons.1 hs with rfl | hs
        · rw [hkey] at hnone
          exact absurd hnone (by simp)
        · exact ⟨s, hs, hnone⟩
      obtain ⟨hstored, hperm⟩ := ih hout' hfree'
      have hstep : store k ⟨some k, v⟩ (slot :: t) =
          (slot :: (store k ⟨some k, v⟩ t).1, (store k ⟨some k, v⟩ t).2) := by
        simp [store, hkey, hne]
      rw [hstep]
      refine ⟨hstored, ?_⟩
      simp only [entries_cons, hkey, Option.map_some, Option.toList_some, List.singleton_append]
      exact (hperm.cons _).trans (List.Perm.swap _ _ _)

/-- What is stored is found. -/
theorem find_store {t : List (Slot κ α)} (k : κ) (v : α)
    (hroom : ∃ s ∈ t, s.key = none ∨ s.key = some k) :
    find (store k ⟨some k, v⟩ t).1 k = some ⟨some k, v⟩ := by
  induction t with
  | nil => simp at hroom
  | cons slot t ih =>
    by_cases hkey : slot.key = none ∨ slot.key = some k
    · simp [store, find, hkey]
    · have hroom' : ∃ s ∈ t, s.key = none ∨ s.key = some k := by
        obtain ⟨s, hs, hs'⟩ := hroom
        rcases List.mem_cons.1 hs with rfl | hs
        · exact absurd hs' hkey
        · exact ⟨s, hs, hs'⟩
      have hrest := ih hroom'
      rw [not_or] at hkey
      unfold find at hrest ⊢
      simp [store, hkey, hrest]

theorem length_store (k : κ) (s : Slot κ α) (t : List (Slot κ α)) :
    (store k s t).1.length = t.length := by
  induction t with
  | nil => rfl
  | cons slot t ih =>
    unfold store
    split
    · rfl
    · simp [ih]

theorem Holds.store {t : List (Slot κ α)} {m : κ → Option α} (h : Holds t m) (k : κ) (v : α)
    (hnew : m k = none) (hfree : ∃ s ∈ t, s.key = none) :
    Holds (SlotTable.store k ⟨some k, v⟩ t).1 (Function.update m k (some v)) := by
  have hout : k ∉ owners t := by
    rw [h.mem_owners_iff]
    exact not_not.2 hnew
  obtain ⟨-, hperm⟩ := store_of_free k v hout hfree
  constructor
  · rw [owners_eq_map, (hperm.map Prod.fst).nodup_iff, List.map_cons, ← owners_eq_map]
    exact List.nodup_cons.2 ⟨hout, h.nodup⟩
  · intro k' v'
    rw [hperm.mem_iff, List.mem_cons, h.graph]
    by_cases hk : k' = k
    · subst hk
      simp [hnew, eq_comm]
    · simp [hk]

/-! ## Deletion -/

theorem length_release (k : κ) (t : List (Slot κ α)) : (release k t).length = t.length := by
  unfold release
  induction t with
  | nil => rfl
  | cons slot t ih =>
    unfold modify
    split
    · rfl
    · simp [ih]

/-- Where a key owns at most one slot, releasing it drops exactly its entries. -/
theorem entries_release {t : List (Slot κ α)} (hnodup : (owners t).Nodup) (k : κ) :
    entries (release k t) = (entries t).filter fun e => e.1 ≠ k := by
  induction t with
  | nil => rfl
  | cons slot t ih =>
    rw [owners_cons] at hnodup
    have hrest : (owners t).Nodup := hnodup.of_append_right
    by_cases hkey : slot.key = some k
    · have hout : k ∉ owners t := by
        rw [hkey] at hnodup
        exact (List.nodup_cons.1 hnodup).1
      have hkeep : (entries t).filter (fun e => e.1 ≠ k) = entries t := by
        refine List.filter_eq_self.2 fun e he => ?_
        have hmem : e.1 ∈ owners t := by
          rw [owners_eq_map]
          exact List.mem_map_of_mem he
        simpa using fun heq : e.1 = k => hout (heq ▸ hmem)
      simp only [release, modify, hkey, if_pos, entries_cons, free, Option.map_none,
        Option.toList_none, List.nil_append, Option.map_some, Option.toList_some,
        List.singleton_append]
      rw [List.filter_cons_of_neg (by simp), hkeep]
    · have hstep : release k (slot :: t) = slot :: release k t := by
        simp [release, modify, hkey]
      rw [hstep, entries_cons, entries_cons, ih hrest, List.filter_append]
      congr 1
      rcases hslot : slot.key with _ | k'
      · simp
      · have hne : k' ≠ k := fun heq => hkey (by rw [hslot, heq])
        simp [hne]

theorem Holds.release {t : List (Slot κ α)} {m : κ → Option α} (h : Holds t m) (k : κ) :
    Holds (SlotTable.release k t) (Function.update m k none) := by
  have hentries := entries_release h.nodup k
  constructor
  · rw [owners_eq_map, hentries]
    refine List.Nodup.sublist (List.filter_sublist.map Prod.fst) ?_
    rw [← owners_eq_map]
    exact h.nodup
  · intro k' v'
    rw [hentries, List.mem_filter, h.graph]
    by_cases hk : k' = k
    · subst hk
      simp
    · simp [hk]

/-! ## Room -/

omit [DecidableEq κ] in
/-- A table with more slots than there are keys in use has a free one. -/
theorem Holds.exists_free [Fintype κ] {t : List (Slot κ α)} {m : κ → Option α} (h : Holds t m)
    (hroom : Fintype.card κ < t.length) : ∃ s ∈ t, s.key = none := by
  apply exists_free_of_lt
  exact lt_of_le_of_lt h.nodup.length_le_card hroom

end SlotTable
