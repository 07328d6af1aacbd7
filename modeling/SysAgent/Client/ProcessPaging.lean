import Mathlib

set_option autoImplicit false

/-! # Paging through the processes (`sysagent.py`, `system_commands.c`)

`processList` answers one page of the process list; `_find_profile_pid` and `_profile_title_for_pid`
ask for pages of 64 until the list is said to be at its end. The sysmodule's `captured` is the number of
processes it could read into its own array of 256, whatever the page, and the client adds it to the
offset of the next page.

The list is the same for every call. A process has a title id unless `pminfo` does not know it. -/

namespace SysAgent

structure ProcessEntry where
  pid : UInt64
  title : Option UInt64
  deriving DecidableEq

/-- Process ids are unique. -/
structure ProcessTable where
  processes : List ProcessEntry
  nodup : (processes.map ProcessEntry.pid).Nodup

structure ProcessListAnswer where
  total : Nat
  captured : Nat
  offset : Nat
  count : Nat
  processes : List ProcessEntry

/-- The capacity of `pids` in `processList`. -/
def PROCESS_PIDS_MAX : Nat := 0x100

def PROCESS_PAGE_MAX : Nat := 64

def processList (table : ProcessTable) (offset count : Nat) : ProcessListAnswer :=
  let total := table.processes.length
  let captured := if total < PROCESS_PIDS_MAX then total else PROCESS_PIDS_MAX
  let offset := if captured < offset then captured else offset
  let available := captured - offset
  let count := if available < count then available else count
  { total, captured, offset, count
    processes := ((table.processes.take captured).drop offset).take count }

/-! ## The page loops -/

inductive PidAnswer
  | found (pid : UInt64)
  | several (pids : List UInt64)
  | notRunning
  deriving DecidableEq

/-- The body of `_find_profile_pid` for one entry. -/
def addMatch (wantedTitle : UInt64) (pids : List UInt64) (entry : ProcessEntry) : List UInt64 :=
  if entry.title = some wantedTitle then
    if entry.pid ∈ pids then pids else pids ++ [entry.pid]
  else pids

def pidAnswer : List UInt64 → PidAnswer
  | [] => .notRunning
  | [pid] => .found pid
  | pids => .several pids

/-- `_find_profile_pid` from an offset on, for at most `rounds` pages; `none` while it has not
    returned. `examined` are the entries it has looked at. -/
def findProfilePidLoop (table : ProcessTable) (wantedTitle : UInt64) :
    Nat → Nat → List UInt64 → List ProcessEntry → Option (PidAnswer × List ProcessEntry)
  | 0, _, _, _ => none
  | rounds + 1, offset, pids, examined =>
    let listing := processList table offset PROCESS_PAGE_MAX
    let pids := listing.processes.foldl (addMatch wantedTitle) pids
    let examined := examined ++ listing.processes
    let offset := offset + listing.captured
    if listing.captured = 0 ∨ listing.total ≤ offset then some (pidAnswer pids, examined)
    else findProfilePidLoop table wantedTitle rounds offset pids examined

def findProfilePid (table : ProcessTable) (wantedTitle : UInt64) (rounds : Nat) :
    Option (PidAnswer × List ProcessEntry) :=
  findProfilePidLoop table wantedTitle rounds 0 [] []

/-- The entries of one page: an entry without a title does not end the search. -/
def titleOnPage (pid : UInt64) (entries : List ProcessEntry) : Option UInt64 :=
  entries.findSome? fun entry => if entry.pid = pid then entry.title else none

def profileTitleForPidLoop (table : ProcessTable) (pid : UInt64) :
    Nat → Nat → Option (Option UInt64)
  | 0, _ => none
  | rounds + 1, offset =>
    let listing := processList table offset PROCESS_PAGE_MAX
    match titleOnPage pid listing.processes with
    | some title => some (some title)
    | none =>
      let offset := offset + listing.captured
      if listing.captured = 0 ∨ listing.total ≤ offset then some none
      else profileTitleForPidLoop table pid rounds offset

def profileTitleForPid (table : ProcessTable) (pid : UInt64) (rounds : Nat) :
    Option (Option UInt64) :=
  profileTitleForPidLoop table pid rounds 0

/-! ## What the calls are for -/

/-- The pids of the processes with a title. -/
def pidsWithTitle (table : ProcessTable) (title : UInt64) : List UInt64 :=
  (table.processes.filter fun entry => entry.title = some title).map ProcessEntry.pid

/-- The title of the running process with the pid, if it is known. -/
def titleOfPid (table : ProcessTable) (pid : UInt64) : Option UInt64 :=
  (table.processes.find? fun entry => entry.pid = pid).bind ProcessEntry.title

/-- Both calls return after enough rounds: the first has examined every process once, in order, and
    found the pids of the title; the second has found the title of the pid. -/
structure PagingEnumerates (table : ProcessTable) : Prop where
  pid : ∀ wantedTitle : UInt64, ∃ enough, ∀ rounds, enough ≤ rounds →
    findProfilePid table wantedTitle rounds =
      some (pidAnswer (pidsWithTitle table wantedTitle), table.processes)
  title : ∀ pid : UInt64, ∃ enough, ∀ rounds, enough ≤ rounds →
    profileTitleForPid table pid rounds = some (titleOfPid table pid)

/-! ## The first page is the only one -/

/-- The first page of a list that fits the sysmodule's array. -/
theorem processList_first (table : ProcessTable)
    (hfits : table.processes.length ≤ PROCESS_PIDS_MAX) :
    (processList table 0 PROCESS_PAGE_MAX).processes = table.processes.take PROCESS_PAGE_MAX ∧
      (processList table 0 PROCESS_PAGE_MAX).captured = table.processes.length ∧
      (processList table 0 PROCESS_PAGE_MAX).total = table.processes.length := by
  have hcaptured : (if table.processes.length < PROCESS_PIDS_MAX then table.processes.length
      else PROCESS_PIDS_MAX) = table.processes.length := by
    split <;> omega
  unfold processList
  simp only [hcaptured, Nat.not_lt_zero, if_false, List.drop_zero, Nat.sub_zero, List.take_length]
  refine ⟨?_, trivial, trivial⟩
  by_cases hpage : table.processes.length < PROCESS_PAGE_MAX
  · rw [if_pos hpage, List.take_length, List.take_of_length_le hpage.le]
  · rw [if_neg hpage]

/-- The matches of a list of entries with distinct pids. -/
theorem foldl_addMatch (wantedTitle : UInt64) {entries : List ProcessEntry} {pids : List UInt64}
    (hnodup : (pids ++ entries.map ProcessEntry.pid).Nodup) :
    entries.foldl (addMatch wantedTitle) pids = pids ++
      (entries.filter fun entry => entry.title = some wantedTitle).map ProcessEntry.pid := by
  induction entries generalizing pids with
  | nil => simp
  | cons entry entries ih =>
    rw [List.map_cons] at hnodup
    have hfresh : entry.pid ∉ pids := by
      intro hmem
      exact (List.nodup_append.1 hnodup).2.2 _ hmem _ (by simp) rfl
    by_cases hmatch : entry.title = some wantedTitle
    · rw [List.foldl_cons, addMatch, if_pos hmatch, if_neg hfresh, ih (by simpa using hnodup),
        List.filter_cons_of_pos (by simpa using hmatch)]
      simp
    · have hrest : (pids ++ entries.map ProcessEntry.pid).Nodup :=
        hnodup.sublist ((List.Sublist.refl pids).append (List.sublist_cons_self _ _))
      rw [List.foldl_cons, addMatch, if_neg hmatch, ih hrest,
        List.filter_cons_of_neg (by simpa using hmatch)]

/-- On entries with distinct pids, the search on a page is the lookup by pid. -/
theorem titleOnPage_eq (pid : UInt64) {entries : List ProcessEntry}
    (hnodup : (entries.map ProcessEntry.pid).Nodup) :
    titleOnPage pid entries =
      (entries.find? fun entry => entry.pid = pid).bind ProcessEntry.title := by
  unfold titleOnPage
  induction entries with
  | nil => rfl
  | cons entry entries ih =>
    rw [List.map_cons] at hnodup
    obtain ⟨hfresh, hrest⟩ := List.nodup_cons.1 hnodup
    by_cases hpid : entry.pid = pid
    · rw [List.find?_cons_of_pos (by simpa using hpid), List.findSome?_cons, if_pos hpid]
      cases htitle : entry.title with
      | some title => simp [htitle]
      | none =>
        -- no later entry has the pid
        have hnone : entries.findSome?
            (fun other => if other.pid = pid then other.title else none) = none := by
          rw [List.findSome?_eq_none_iff]
          intro other hmem
          rw [if_neg]
          rintro rfl
          exact hfresh (hpid ▸ List.mem_map_of_mem hmem)
        simp [htitle, hnone]
    · rw [List.find?_cons_of_neg (by simpa using hpid), List.findSome?_cons, if_neg hpid]
      exact ih hrest

theorem findProfilePid_eq (table : ProcessTable)
    (hfits : table.processes.length ≤ PROCESS_PIDS_MAX) (wantedTitle : UInt64) {rounds : Nat}
    (hrounds : 0 < rounds) :
    findProfilePid table wantedTitle rounds =
      some (pidAnswer (((table.processes.take PROCESS_PAGE_MAX).filter fun entry =>
        entry.title = some wantedTitle).map ProcessEntry.pid),
        table.processes.take PROCESS_PAGE_MAX) := by
  obtain ⟨hpage, hcaptured, htotal⟩ := processList_first table hfits
  obtain ⟨rounds, rfl⟩ := Nat.exists_eq_succ_of_ne_zero hrounds.ne'
  have hnodup : ([] ++ (table.processes.take PROCESS_PAGE_MAX).map ProcessEntry.pid).Nodup := by
    rw [List.nil_append, List.map_take]
    exact table.nodup.sublist (List.take_sublist _ _)
  unfold findProfilePid findProfilePidLoop
  simp only [hpage, hcaptured, htotal]
  rw [if_pos (Or.inr (by omega)), foldl_addMatch wantedTitle hnodup]
  rfl

theorem profileTitleForPid_eq (table : ProcessTable)
    (hfits : table.processes.length ≤ PROCESS_PIDS_MAX) (pid : UInt64) {rounds : Nat}
    (hrounds : 0 < rounds) :
    profileTitleForPid table pid rounds =
      some (((table.processes.take PROCESS_PAGE_MAX).find? fun entry => entry.pid = pid).bind
        ProcessEntry.title) := by
  obtain ⟨hpage, hcaptured, htotal⟩ := processList_first table hfits
  obtain ⟨rounds, rfl⟩ := Nat.exists_eq_succ_of_ne_zero hrounds.ne'
  have hnodup : ((table.processes.take PROCESS_PAGE_MAX).map ProcessEntry.pid).Nodup := by
    rw [List.map_take]
    exact table.nodup.sublist (List.take_sublist _ _)
  unfold profileTitleForPid profileTitleForPidLoop
  simp only [hpage, hcaptured, htotal]
  rw [titleOnPage_eq pid hnodup]
  cases (table.processes.take PROCESS_PAGE_MAX).find? (fun entry => entry.pid = pid) with
  | none => simp
  | some entry =>
    cases htitle : entry.title with
    | none => simp [htitle]
    | some title => simp [htitle]

/-- The paging enumerates a list that the sysmodule can read iff the list is one page. -/
theorem paging_enumerates_iff (table : ProcessTable)
    (hfits : table.processes.length ≤ PROCESS_PIDS_MAX) :
    PagingEnumerates table ↔ table.processes.length ≤ PROCESS_PAGE_MAX := by
  constructor
  · intro h
    obtain ⟨enough, henough⟩ := h.pid 0
    have hexamined := henough (enough + 1) (Nat.le_succ enough)
    rw [findProfilePid_eq table hfits 0 (Nat.succ_pos enough)] at hexamined
    have hall : table.processes.take PROCESS_PAGE_MAX = table.processes :=
      congrArg Prod.snd (Option.some.inj hexamined)
    have hlength := congrArg List.length hall
    rw [List.length_take] at hlength
    omega
  · intro hpage
    have hall : table.processes.take PROCESS_PAGE_MAX = table.processes :=
      List.take_of_length_le hpage
    refine ⟨?_, ?_⟩
    · refine fun wantedTitle => ⟨1, fun rounds hrounds => ?_⟩
      rw [findProfilePid_eq table hfits wantedTitle hrounds, hall]
      rfl
    · refine fun pid => ⟨1, fun rounds hrounds => ?_⟩
      rw [profileTitleForPid_eq table hfits pid hrounds, hall]
      rfl

/-- Processes `0, 1, ..., n - 1`, each with its pid as its title. -/
def countingTable (n : Nat) (h : n ≤ 2 ^ 64) : ProcessTable where
  processes := (List.range n).map fun i =>
    { pid := UInt64.ofNat i, title := some (UInt64.ofNat i) }
  nodup := by
    rw [List.map_map]
    refine (List.nodup_range).map_on ?_
    intro i hi j hj hsame
    have hvalue := congrArg UInt64.toNat hsame
    simp only [Function.comp_apply] at hvalue
    rwa [UInt64.toNat_ofNat_of_lt' (lt_of_lt_of_le (List.mem_range.1 hi) h),
      UInt64.toNat_ofNat_of_lt' (lt_of_lt_of_le (List.mem_range.1 hj) h)] at hvalue

theorem paging_enumerates_three : PagingEnumerates (countingTable 3 (by decide)) :=
  (paging_enumerates_iff (countingTable 3 (by decide)) (by decide)).2 (by decide)

/-- Process 64 of 65 runs with a known title, and neither call finds it. -/
theorem paging_misses_65th :
    pidsWithTitle (countingTable 65 (by decide)) 64 = [64] ∧
      (findProfilePid (countingTable 65 (by decide)) 64 2).map Prod.fst = some .notRunning ∧
      titleOfPid (countingTable 65 (by decide)) 64 = some 64 ∧
      profileTitleForPid (countingTable 65 (by decide)) 64 2 = some none := by
  decide

end SysAgent
