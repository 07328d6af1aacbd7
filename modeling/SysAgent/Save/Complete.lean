import SysAgent.Save.CopyTree

set_option autoImplicit false

/-! # What a copy of a save holds

The part of a directory that `readdir` shows is copied item by item. `copyDirectoryTree` returns
true exactly when no call on that part fails and the card takes all its items in their order, and
it leaves the card that has them. -/

namespace SysAgent

open FileTree

/-! ## A save as a list of items -/

namespace SaveListing

/-- The part of a directory that `readdir` shows. -/
def shown : SaveListing → SaveListing
  | .done => .done
  | .dot returned rest => if returned then .dot returned rest.shown else .done
  | .file returned name content calls rest =>
    if returned then .file returned name content calls rest.shown else .done
  | .directory returned name calls inner rest =>
    if returned then .directory returned name calls inner.shown rest.shown else .done

/-- Every file and directory, a directory before what it holds. -/
def items {κ : Type} (spelling : EntryName → κ) (parent : List κ) :
    SaveListing → List (Item κ (List UInt8))
  | .done => []
  | .dot _ rest => rest.items spelling parent
  | .file _ name content _ rest =>
    ⟨parent, spelling name, .file content⟩ :: rest.items spelling parent
  | .directory _ name _ inner rest =>
    ⟨parent, spelling name, .directory⟩ ::
      (inner.items spelling (parent ++ [spelling name]) ++ rest.items spelling parent)

/-- The sizes of the files. -/
def sizes : SaveListing → List Nat
  | .done => []
  | .dot _ rest => rest.sizes
  | .file _ _ content _ rest => content.length :: rest.sizes
  | .directory _ _ _ inner rest => inner.sizes ++ rest.sizes

theorem items_shown_subset {κ : Type} (spelling : EntryName → κ) (parent : List κ)
    (listing : SaveListing) :
    listing.shown.items spelling parent ⊆ listing.items spelling parent := by
  induction listing generalizing parent with
  | done => exact List.Subset.refl _
  | dot returned rest ih =>
    cases returned with
    | false => exact List.nil_subset _
    | true => exact ih parent
  | file returned name content calls rest ih =>
    cases returned with
    | false => exact List.nil_subset _
    | true => exact List.cons_subset_cons _ (ih parent)
  | directory returned name calls inner rest ihinner ihrest =>
    cases returned with
    | false => exact List.nil_subset _
    | true =>
      refine List.cons_subset_cons _ (List.append_subset.2 ⟨?_, ?_⟩)
      · exact List.Subset.trans (ihinner _) (List.subset_append_left _ _)
      · exact List.Subset.trans (ihrest _) (List.subset_append_right _ _)

theorem sizes_shown_sublist (listing : SaveListing) :
    listing.shown.sizes.Sublist listing.sizes := by
  induction listing with
  | done => exact List.Sublist.refl _
  | dot returned rest ih =>
    cases returned with
    | false => exact List.nil_sublist _
    | true => exact ih
  | file returned name content calls rest ih =>
    cases returned with
    | false => exact List.nil_sublist _
    | true => exact ih.cons_cons _
  | directory returned name calls inner rest ihinner ihrest =>
    cases returned with
    | false => exact List.nil_sublist _
    | true => exact ihinner.append ihrest

end SaveListing

/-! ## Failures -/

/-- No call on the file fails. -/
structure FileCalls.Work (calls : FileCalls) (content : List UInt8) (bufferSize : Nat) : Prop where
  stat : calls.stat = true
  fopenInput : calls.fopenInput = true
  fopenOutput : calls.fopenOutput = true
  chunks : ChunksWork calls content bufferSize 0
  fclose : calls.fclose = true

/-- No call on the directory fails, and it is not too deep. -/
structure DirectoryCalls.Work (calls : DirectoryCalls) (depth : Nat) : Prop where
  stat : calls.stat = true
  mkdir : calls.mkdir = true
  opendir : calls.opendir = true
  limit : depth ≤ 32

/-- No call on what `readdir` shows fails, no path of it is too long and no directory too deep. -/
def SaveListing.Undisturbed (bufferSize : Nat) :
    SaveListing → NativePath → NativePath → Nat → Prop
  | .done, _, _, _ => True
  | .dot returned rest, source, destination, depth =>
    returned = true → rest.Undisturbed bufferSize source destination depth
  | .file returned name content calls rest, source, destination, depth =>
    returned = true →
      fits (join source name) = true ∧ fits (join destination name) = true ∧
        calls.Work content bufferSize ∧ rest.Undisturbed bufferSize source destination depth
  | .directory returned name calls inner rest, source, destination, depth =>
    returned = true →
      fits (join source name) = true ∧ fits (join destination name) = true ∧
        calls.Work (depth + 1) ∧
        inner.Undisturbed bufferSize (join source name) (join destination name) (depth + 1) ∧
        rest.Undisturbed bufferSize source destination depth

/-! ## One function after the other -/

variable {κ : Type}

/-- From `s` to `s'` the items were placed and files of the given sizes counted. -/
structure Copied [DecidableEq κ] (s s' : CopyState κ) (items : List (Item κ (List UInt8)))
    (sizes : List Nat) : Prop where
  card : s.card.placeAll items = some s'.card
  files : s'.fileCount = s.fileCount + UInt64.ofNat sizes.length
  bytes : s'.byteCount = s.byteCount + UInt64.ofNat sizes.sum

variable [DecidableEq κ]

theorem Copied.refl (s : CopyState κ) : Copied s s [] [] :=
  { card := rfl, files := by simp, bytes := by simp }

theorem Copied.trans {s t u : CopyState κ} {items more : List (Item κ (List UInt8))}
    {sizes sizes' : List Nat} (h : Copied s t items sizes) (h' : Copied t u more sizes') :
    Copied s u (items ++ more) (sizes ++ sizes') where
  card := by rw [Tree.placeAll_append, h.card, Option.bind_some, h'.card]
  files := by
    rw [h'.files, h.files, List.length_append, UInt64.ofNat_add, UInt64.add_assoc]
  bytes := by
    rw [h'.bytes, h.bytes, List.sum_append, UInt64.ofNat_add, UInt64.add_assoc]

/-- What is refused behind a copy is refused. -/
theorem Copied.refused {s t : CopyState κ} {items more : List (Item κ (List UInt8))}
    {sizes : List Nat} (h : Copied s t items sizes) (hmore : t.card.placeAll more = none) :
    s.card.placeAll (items ++ more) = none := by
  rw [Tree.placeAll_append, h.card, Option.bind_some, hmore]

theorem copied_of_place {s : CopyState κ} {item : Item κ (List UInt8)}
    {card : Tree κ (List UInt8)} (h : s.card.place item = some card) (opened : List Nat) :
    Copied s { s with card := card, opened := opened } [item] [] where
  card := by simp [h]
  files := by simp
  bytes := by simp

variable {bufferSize : Nat}

theorem copyFile_ok (hbuffer : 0 < bufferSize) {calls : FileCalls} {content : List UInt8}
    {parent : List κ} {name : κ} {s s' : CopyState κ} (hstat : calls.stat = true)
    (h : copyFile bufferSize calls content parent name s = .ok s') :
    calls.Work content bufferSize ∧
      Copied s s' [⟨parent, name, .file content⟩] [content.length] := by
  unfold copyFile at h
  split at h
  · cases h
  rename_i hinput
  split at h
  · cases h
  rename_i houtput
  dsimp only at h
  split at h
  · cases h
  rename_i card hcard
  split at h
  · rename_i hgood
    obtain ⟨⟨hok, hferror⟩, hclose⟩ : (_ ∧ _) ∧ calls.fclose = true := by
      simpa only [Bool.and_eq_true] using hgood
    -- the copy ended well, so no call failed, so all of the content was written
    have hwork := work_of_copyChunks hbuffer (Or.inl (dvd_zero bufferSize)) (Nat.zero_le _) hok
      (by simpa using hferror)
    have hall := copyChunks_eq hbuffer
      { ok := true, ferror := false, written := [], byteCount := s.byteCount }
      (Or.inl (dvd_zero bufferSize)) (Nat.zero_le content.length) hwork
    obtain rfl := Except.ok.inj h
    refine ⟨⟨hstat, by simpa using hinput, by simpa using houtput, hwork, hclose⟩, ?_⟩
    rw [hall] at hcard ⊢
    constructor
    · simpa using hcard
    · simp
    · simp
  · cases h

theorem copyFile_error (hbuffer : 0 < bufferSize) {calls : FileCalls} {content : List UInt8}
    {parent : List κ} {name : κ} {s s' : CopyState κ} (hwork : calls.Work content bufferSize)
    (h : copyFile bufferSize calls content parent name s = .error s') :
    s.card.place ⟨parent, name, .file content⟩ = none := by
  have hall := copyChunks_eq hbuffer
    { ok := true, ferror := false, written := [], byteCount := s.byteCount }
    (Or.inl (dvd_zero bufferSize)) (Nat.zero_le content.length) hwork.chunks
  simp only [copyFile, hwork.fopenInput, hwork.fopenOutput, hwork.fclose, hall, Bool.not_true,
    Bool.false_eq_true, if_false, Bool.not_false, Bool.and_true, if_true, List.nil_append,
    List.drop_zero] at h
  split at h
  · assumption
  · cases h

theorem makeDirectory_ok {calls : DirectoryCalls} {parent : List κ} {name : κ}
    {s s' : CopyState κ} (h : makeDirectory calls parent name s = .ok s') :
    calls.mkdir = true ∧ Copied s s' [⟨parent, name, .directory⟩] [] := by
  unfold makeDirectory mkdir at h
  cases hmkdir : calls.mkdir with
  | false => simp [hmkdir] at h
  | true =>
    refine ⟨rfl, ?_⟩
    by_cases hthere : s.card.entries (parent ++ [name]) ≠ none
    · have hsame : s' = s := by simpa [hmkdir, hthere, eq_comm] using h
      rw [hsame]
      exact copied_of_place (Tree.place_existing rfl hthere) s.opened
    · cases hplace : s.card.place ⟨parent, name, .directory⟩ with
      | none => simp [hmkdir, hthere, hplace] at h
      | some card =>
        have hnew : s' = { s with card := card } := by
          simpa [hmkdir, hthere, hplace, eq_comm] using h
        rw [hnew]
        exact copied_of_place hplace s.opened

theorem makeDirectory_error {calls : DirectoryCalls} {parent : List κ} {name : κ}
    {s s' : CopyState κ} (hmkdir : calls.mkdir = true)
    (h : makeDirectory calls parent name s = .error s') :
    s.card.place ⟨parent, name, .directory⟩ = none := by
  unfold makeDirectory mkdir at h
  by_cases hthere : s.card.entries (parent ++ [name]) ≠ none
  · simp [hmkdir, hthere] at h
  · cases hplace : s.card.place ⟨parent, name, .directory⟩ with
    | none => rfl
    | some card => simp [hmkdir, hthere, hplace] at h

omit [DecidableEq κ] in
theorem openDirectory_ok {depth : Nat} {opendir : Bool} {s s' : CopyState κ}
    (h : openDirectory depth opendir s = .ok s') :
    depth ≤ 32 ∧ opendir = true ∧ s' = { s with opened := s.opened ++ [depth] } := by
  unfold openDirectory at h
  split at h
  · cases h
  rename_i hdepth
  split at h
  · cases h
  rename_i hopen
  exact ⟨not_lt.1 hdepth, by simpa using hopen, (Except.ok.inj h).symm⟩

omit [DecidableEq κ] in
theorem openDirectory_eq {depth : Nat} {opendir : Bool} (s : CopyState κ) (hdepth : depth ≤ 32)
    (hopen : opendir = true) :
    openDirectory depth opendir s = .ok { s with opened := s.opened ++ [depth] } := by
  simp [openDirectory, not_lt.2 hdepth, hopen]

/-! ## The walk -/

theorem bind_ok {ε α β : Type} {x : Except ε α} {f : α → Except ε β} {b : β}
    (h : (x >>= f) = .ok b) : ∃ a, x = .ok a ∧ f a = .ok b := by
  cases x with
  | error e => cases h
  | ok a => exact ⟨a, rfl, h⟩

theorem bind_error {ε α β : Type} {x : Except ε α} {f : α → Except ε β} {e : ε}
    (h : (x >>= f) = .error e) : x = .error e ∨ ∃ a, x = .ok a ∧ f a = .error e := by
  cases x with
  | error e' =>
    cases h
    exact Or.inl rfl
  | ok a => exact Or.inr ⟨a, rfl, h⟩

variable {spelling : EntryName → κ}

/-- A walk that returns true met no failure and has copied what it was shown. -/
theorem copyEntries_ok (hbuffer : 0 < bufferSize) {listing : SaveListing}
    {source destination : NativePath} {parent : List κ} {depth : Nat} {s s' : CopyState κ}
    (h : copyEntries spelling bufferSize listing source destination parent depth s = .ok s') :
    listing.Undisturbed bufferSize source destination depth ∧
      Copied s s' (listing.shown.items spelling parent) listing.shown.sizes := by
  induction listing generalizing source destination parent depth s s' with
  | done =>
    obtain rfl := Except.ok.inj h
    exact ⟨trivial, Copied.refl s⟩
  | dot returned rest ih =>
    cases returned with
    | false =>
      obtain rfl := Except.ok.inj h
      exact ⟨nofun, Copied.refl s⟩
    | true =>
      obtain ⟨hrest, hcopied⟩ := ih h
      exact ⟨fun _ => hrest, hcopied⟩
  | file returned name content calls rest ih =>
    cases returned with
    | false =>
      obtain rfl := Except.ok.inj h
      exact ⟨nofun, Copied.refl s⟩
    | true =>
      simp only [copyEntries, Bool.not_true, Bool.false_eq_true, if_false] at h
      split at h
      · cases h
      rename_i hfits
      split at h
      · cases h
      rename_i hstat
      obtain ⟨t, hfile, hrest⟩ := bind_ok h
      obtain ⟨hwork, hcopied⟩ := copyFile_ok hbuffer (by simpa using hstat) hfile
      obtain ⟨hundisturbed, hcopied'⟩ := ih hrest
      rw [Bool.not_eq_true, Bool.not_eq_false', Bool.and_eq_true] at hfits
      exact ⟨fun _ => ⟨hfits.1, hfits.2, hwork, hundisturbed⟩, hcopied.trans hcopied'⟩
  | directory returned name calls inner rest ihinner ihrest =>
    cases returned with
    | false =>
      obtain rfl := Except.ok.inj h
      exact ⟨nofun, Copied.refl s⟩
    | true =>
      simp only [copyEntries, Bool.not_true, Bool.false_eq_true, if_false] at h
      split at h
      · cases h
      rename_i hfits
      split at h
      · cases h
      rename_i hstat
      obtain ⟨t, hmake, h⟩ := bind_ok h
      obtain ⟨u, hopen, h⟩ := bind_ok h
      obtain ⟨v, hinner, hrest⟩ := bind_ok h
      obtain ⟨hmkdir, hcopied⟩ := makeDirectory_ok hmake
      obtain ⟨hdepth, hopendir, rfl⟩ := openDirectory_ok hopen
      obtain ⟨hundisturbed, hinside⟩ := ihinner hinner
      obtain ⟨hundisturbed', hbehind⟩ := ihrest hrest
      rw [Bool.not_eq_true, Bool.not_eq_false', Bool.and_eq_true] at hfits
      refine ⟨fun _ => ⟨hfits.1, hfits.2, ⟨by simpa using hstat, hmkdir, hopendir, hdepth⟩,
        hundisturbed, hundisturbed'⟩, ?_⟩
      -- opening the directory changed only the depths, of which `Copied` says nothing
      have hinside' : Copied t v _ _ := ⟨hinside.card, hinside.files, hinside.bytes⟩
      exact hcopied.trans (hinside'.trans hbehind)

/-- A walk that meets no failure returns false only where the card refuses an item. -/
theorem copyEntries_error (hbuffer : 0 < bufferSize) {listing : SaveListing}
    {source destination : NativePath} {parent : List κ} {depth : Nat} {s s' : CopyState κ}
    (hundisturbed : listing.Undisturbed bufferSize source destination depth)
    (h : copyEntries spelling bufferSize listing source destination parent depth s =
      .error s') :
    s.card.placeAll (listing.shown.items spelling parent) = none := by
  induction listing generalizing source destination parent depth s s' with
  | done => cases h
  | dot returned rest ih =>
    cases returned with
    | false => cases h
    | true => exact ih (hundisturbed rfl) h
  | file returned name content calls rest ih =>
    cases returned with
    | false => cases h
    | true =>
      obtain ⟨hsource, hdestination, hwork, hundisturbed'⟩ := hundisturbed rfl
      simp only [copyEntries, hsource, hdestination, hwork.stat, Bool.and_self, Bool.not_true,
        Bool.false_eq_true, if_false] at h
      rcases bind_error h with hfile | ⟨t, hfile, hrest⟩
      · show (s.card.place _).bind _ = none
        rw [copyFile_error hbuffer hwork hfile, Option.bind_none]
      · exact (copyFile_ok hbuffer hwork.stat hfile).2.refused (ih hundisturbed' hrest)
  | directory returned name calls inner rest ihinner ihrest =>
    cases returned with
    | false => cases h
    | true =>
      obtain ⟨hsource, hdestination, hwork, hundisturbed', hundisturbed''⟩ := hundisturbed rfl
      simp only [copyEntries, hsource, hdestination, hwork.stat, Bool.and_self, Bool.not_true,
        Bool.false_eq_true, if_false] at h
      rcases bind_error h with hmake | ⟨t, hmake, h⟩
      · show (s.card.place _).bind _ = none
        rw [makeDirectory_error hwork.mkdir hmake, Option.bind_none]
      -- the directory stands, so the refusal is of something inside of it or behind it
      refine (makeDirectory_ok hmake).2.refused ?_
      rcases bind_error h with hopen | ⟨v, hopen, h⟩
      · rw [openDirectory_eq t hwork.limit hwork.opendir] at hopen
        cases hopen
      obtain ⟨-, -, rfl⟩ := openDirectory_ok hopen
      rcases bind_error h with hinner | ⟨u, hinner, hrest⟩
      · exact Tree.placeAll_refused (ihinner hundisturbed' hinner) _
      · have hcopied := (copyEntries_ok hbuffer hinner).2
        have hcopied' : Copied t u _ _ := ⟨hcopied.card, hcopied.files, hcopied.bytes⟩
        exact hcopied'.refused (ihrest hundisturbed'' hrest)

/-! ## The depth -/

/-- The directories opened between `s` and `s'` are not deeper than the limit. -/
def NoDeeper (s s' : CopyState κ) : Prop :=
  ∀ depth ∈ s'.opened, depth ∈ s.opened ∨ depth ≤ 32

omit [DecidableEq κ] in
theorem NoDeeper.trans {s t u : CopyState κ} (h : NoDeeper s t) (h' : NoDeeper t u) :
    NoDeeper s u := by
  intro depth hdepth
  rcases h' depth hdepth with ht | hlimit
  · exact h depth ht
  · exact Or.inr hlimit

omit [DecidableEq κ] in
theorem noDeeper_of_eq {s s' : CopyState κ} (h : s'.opened = s.opened) : NoDeeper s s' := by
  intro depth hdepth
  exact Or.inl (h ▸ hdepth)

/-- The state a call leaves behind. -/
def stateOf (r : Except (CopyState κ) (CopyState κ)) : CopyState κ :=
  match r with
  | .ok s => s
  | .error s => s

theorem copyFile_opened (calls : FileCalls) (content : List UInt8) (parent : List κ) (name : κ)
    (s : CopyState κ) :
    (stateOf (copyFile bufferSize calls content parent name s)).opened = s.opened := by
  unfold copyFile
  dsimp only
  split
  · rfl
  split
  · rfl
  split
  · rfl
  split <;> rfl

theorem makeDirectory_opened (calls : DirectoryCalls) (parent : List κ) (name : κ)
    (s : CopyState κ) : (stateOf (makeDirectory calls parent name s)).opened = s.opened := by
  unfold makeDirectory
  split <;> rfl

omit [DecidableEq κ] in
theorem openDirectory_noDeeper (depth : Nat) (opendir : Bool) (s : CopyState κ) :
    NoDeeper s (stateOf (openDirectory depth opendir s)) := by
  unfold openDirectory
  split
  · exact noDeeper_of_eq rfl
  rename_i hdepth
  split
  · exact noDeeper_of_eq rfl
  intro opened hopened
  rcases List.mem_append.1 hopened with hbefore | hthis
  · exact Or.inl hbefore
  · rw [List.mem_singleton.1 hthis]
    exact Or.inr (not_lt.1 hdepth)

omit [DecidableEq κ] in
/-- What is no deeper after each of two calls is no deeper after both. -/
theorem noDeeper_bind {s : CopyState κ} {x : Except (CopyState κ) (CopyState κ)}
    {f : CopyState κ → Except (CopyState κ) (CopyState κ)} (hx : NoDeeper s (stateOf x))
    (hf : ∀ t, NoDeeper t (stateOf (f t))) : NoDeeper s (stateOf (x >>= f)) := by
  cases x with
  | error t => exact hx
  | ok t => exact NoDeeper.trans hx (hf t)

theorem copyEntries_noDeeper (listing : SaveListing) (source destination : NativePath)
    (parent : List κ) (depth : Nat) (s : CopyState κ) :
    NoDeeper s (stateOf
      (copyEntries spelling bufferSize listing source destination parent depth s)) := by
  induction listing generalizing source destination parent depth s with
  | done => exact noDeeper_of_eq rfl
  | dot returned rest ih =>
    simp only [copyEntries]
    split
    · exact noDeeper_of_eq rfl
    · exact ih source destination parent depth s
  | file returned name content calls rest ih =>
    simp only [copyEntries]
    split
    · exact noDeeper_of_eq rfl
    split
    · exact noDeeper_of_eq rfl
    split
    · exact noDeeper_of_eq rfl
    · exact noDeeper_bind (noDeeper_of_eq (copyFile_opened _ _ _ _ s)) fun t => ih _ _ _ _ t
  | directory returned name calls inner rest ihinner ihrest =>
    simp only [copyEntries]
    split
    · exact noDeeper_of_eq rfl
    split
    · exact noDeeper_of_eq rfl
    split
    · exact noDeeper_of_eq rfl
    · refine noDeeper_bind (noDeeper_of_eq (makeDirectory_opened _ _ _ s)) fun t => ?_
      refine noDeeper_bind (openDirectory_noDeeper _ _ t) fun u => ?_
      exact noDeeper_bind (ihinner _ _ _ _ u) fun v => ihrest _ _ _ _ v

theorem copyDirectoryTree_noDeeper (opendir : Bool) (listing : SaveListing)
    (source destination : NativePath) (parent : List κ) (depth : Nat) (s : CopyState κ) :
    NoDeeper s (stateOf (copyDirectoryTree spelling bufferSize opendir listing source destination
      parent depth s)) :=
  noDeeper_bind (openDirectory_noDeeper depth opendir s) fun t =>
    copyEntries_noDeeper listing source destination parent depth t

end SysAgent
