import Mathlib.Data.List.Infix
import Mathlib.Logic.Function.Basic
import Mathlib.Tactic.Common

set_option autoImplicit false

/-! # Building a tree of files entry by entry

A file system keeps directories and files under lists of keys; whatever has an entry below it is a
directory (`Tree.tree`). `place` puts one item below its parent the way `mkdir` and a truncating
open do: a directory that is there stays, a file that is there is overwritten, nothing else gives
way.

A list of items placed one after the other (`placeAll`) can end up with less than it lists only
where two of the items have one path: `placed_iff_alike`. -/

namespace FileTree

inductive Node (β : Type*)
  | directory
  | file (content : β)
  deriving DecidableEq

structure Tree (κ β : Type*) where
  entries : List κ → Option (Node β)
  tree : ∀ parent name, entries (parent ++ [name]) ≠ none → entries parent = some .directory

/-- What is to be placed, and below which directory. -/
structure Item (κ β : Type*) where
  parent : List κ
  name : κ
  node : Node β

variable {κ β : Type*}

def Item.path (item : Item κ β) : List κ :=
  item.parent ++ [item.name]

namespace Tree

/-- A directory with nothing in it. -/
def empty : Tree κ β where
  entries path := if path = [] then some .directory else none
  tree parent name h := by simp at h

@[simp] theorem empty_item (item : Item κ β) :
    (empty : Tree κ β).entries item.path = none := by
  simp [empty, Item.path]

variable [DecidableEq κ]

/-- `node` at the item's path, where its parent is a directory and no directory makes way for it. -/
def put (t : Tree κ β) (item : Item κ β) (hparent : t.entries item.parent = some .directory)
    (hfree : t.entries item.path ≠ some .directory) : Tree κ β where
  entries := Function.update t.entries item.path (some item.node)
  tree parent name h := by
    by_cases hat : parent ++ [name] = item.path
    · have hsame : parent = item.parent := by
        simpa [Item.path] using congrArg List.dropLast hat
      rw [hsame, Function.update_of_ne, hparent]
      simp [Item.path]
    · rw [Function.update_of_ne hat] at h
      have hdirectory := t.tree parent name h
      rw [Function.update_of_ne, hdirectory]
      rintro rfl
      exact hfree hdirectory

variable [DecidableEq β]

/-- One item; `none` where the file system refuses it. -/
def place (t : Tree κ β) (item : Item κ β) : Option (Tree κ β) :=
  if hparent : t.entries item.parent = some .directory then
    if hfree : t.entries item.path ≠ some .directory then
      if item.node = .directory ∧ t.entries item.path ≠ none then some t
      else some (t.put item hparent hfree)
    else if item.node = .directory then some t else none
  else none

/-- The items in their order. -/
def placeAll (t : Tree κ β) (items : List (Item κ β)) : Option (Tree κ β) :=
  items.foldlM place t

@[simp] theorem placeAll_nil (t : Tree κ β) : t.placeAll [] = some t := rfl

@[simp] theorem placeAll_cons (t : Tree κ β) (item : Item κ β) (items : List (Item κ β)) :
    t.placeAll (item :: items) = (t.place item).bind fun t => t.placeAll items := rfl

theorem placeAll_append (t : Tree κ β) (items more : List (Item κ β)) :
    t.placeAll (items ++ more) = (t.placeAll items).bind fun t => t.placeAll more :=
  List.foldlM_append

/-- What the file system refuses at the start of a list it refuses. -/
theorem placeAll_refused {t : Tree κ β} {items : List (Item κ β)} (h : t.placeAll items = none)
    (more : List (Item κ β)) : t.placeAll (items ++ more) = none := by
  rw [placeAll_append, h, Option.bind_none]

/-! ## One item -/

/-- An item that is placed leaves the tree as it was, with something at its path, or stands there
    itself. -/
theorem place_cases {t t' : Tree κ β} {item : Item κ β} (h : t.place item = some t') :
    (t' = t ∧ t.entries item.path ≠ none) ∨
      t'.entries = Function.update t.entries item.path (some item.node) := by
  unfold place at h
  split at h
  · split at h
    · split at h
      · rename_i hstays
        obtain rfl := Option.some.inj h
        exact Or.inl ⟨rfl, hstays.2⟩
      · obtain rfl := Option.some.inj h
        exact Or.inr rfl
    · rename_i hdirectory
      split at h
      · obtain rfl := Option.some.inj h
        refine Or.inl ⟨rfl, ?_⟩
        rw [not_not.1 hdirectory]
        simp
      · cases h
  · cases h

/-- A directory that is there is found as such. -/
theorem place_existing {t : Tree κ β} {item : Item κ β} (hnode : item.node = .directory)
    (hthere : t.entries item.path ≠ none) : t.place item = some t := by
  have hparent := t.tree item.parent item.name hthere
  simp [place, hparent, hnode, hthere]

theorem place_present {t t' : Tree κ β} {item : Item κ β} (h : t.place item = some t') :
    t'.entries item.path ≠ none := by
  rcases place_cases h with ⟨rfl, hthere⟩ | hput
  · exact hthere
  · simp [hput]

theorem place_keeps {t t' : Tree κ β} {item : Item κ β} (h : t.place item = some t')
    {path : List κ} (hthere : t.entries path ≠ none) : t'.entries path ≠ none := by
  rcases place_cases h with ⟨rfl, -⟩ | hput
  · exact hthere
  · rw [hput, Function.update_apply]
    split
    · simp
    · exact hthere

theorem place_sound {t t' : Tree κ β} {item : Item κ β} (h : t.place item = some t')
    {path : List κ} {node : Node β} (hnode : t'.entries path = some node) :
    t.entries path = some node ∨ item.path = path ∧ item.node = node := by
  rcases place_cases h with ⟨rfl, -⟩ | hput
  · exact Or.inl hnode
  · rw [hput, Function.update_apply] at hnode
    split at hnode
    · rename_i hat
      exact Or.inr ⟨hat.symm, Option.some.inj hnode⟩
    · exact Or.inl hnode

/-! ## A list of items -/

theorem placeAll_keeps {t t' : Tree κ β} {items : List (Item κ β)}
    (h : t.placeAll items = some t') {path : List κ} (hthere : t.entries path ≠ none) :
    t'.entries path ≠ none := by
  induction items generalizing t with
  | nil =>
    obtain rfl := Option.some.inj h
    exact hthere
  | cons item items ih =>
    obtain ⟨u, hitem, hitems⟩ := Option.bind_eq_some_iff.1 h
    exact ih hitems (place_keeps hitem hthere)

/-- Something stands at the path of every item. -/
theorem placeAll_present {t t' : Tree κ β} {items : List (Item κ β)}
    (h : t.placeAll items = some t') {item : Item κ β} (hitem : item ∈ items) :
    t'.entries item.path ≠ none := by
  induction items generalizing t with
  | nil => simp at hitem
  | cons first items ih =>
    obtain ⟨u, hfirst, hitems⟩ := Option.bind_eq_some_iff.1 h
    rcases List.mem_cons.1 hitem with rfl | hlater
    · exact placeAll_keeps hitems (place_present hfirst)
    · exact ih hitems hlater

/-- Whatever stands in the tree was there before or is one of the items. -/
theorem placeAll_sound {t t' : Tree κ β} {items : List (Item κ β)}
    (h : t.placeAll items = some t') {path : List κ} {node : Node β}
    (hnode : t'.entries path = some node) :
    t.entries path = some node ∨ ∃ item ∈ items, item.path = path ∧ item.node = node := by
  induction items generalizing t with
  | nil =>
    obtain rfl := Option.some.inj h
    exact Or.inl hnode
  | cons first items ih =>
    obtain ⟨u, hfirst, hitems⟩ := Option.bind_eq_some_iff.1 h
    rcases ih hitems with hu | ⟨item, hitem, hat⟩
    · rcases place_sound hfirst hu with ht | hat
      · exact Or.inl ht
      · exact Or.inr ⟨first, List.mem_cons_self, hat⟩
    · exact Or.inr ⟨item, List.mem_cons_of_mem _ hitem, hat⟩

end Tree

/-! ## What a new tree holds -/

/-- Items with one path are one. -/
def Alike (items : List (Item κ β)) : Prop :=
  ∀ first ∈ items, ∀ second ∈ items, first.path = second.path → first.node = second.node

/-- Every item stands in the tree. -/
def Holds (t : Tree κ β) (items : List (Item κ β)) : Prop :=
  ∀ item ∈ items, t.entries item.path = some item.node

theorem Holds.alike {t : Tree κ β} {items : List (Item κ β)} (h : Holds t items) :
    Alike items := by
  intro first hfirst second hsecond hpath
  have hsame := h first hfirst
  rw [hpath, h second hsecond] at hsame
  exact (Option.some.inj hsame).symm

variable [DecidableEq κ] [DecidableEq β]

/-- A new tree in which some items were placed holds a longer list of items iff none of these has a
    path of its own, and the ones with one path are alike. -/
theorem placed_iff_alike {t : Tree κ β} {items all : List (Item κ β)}
    (hplaced : Tree.empty.placeAll items = some t) (hsub : items ⊆ all) :
    Holds t all ↔ Alike all ∧ ∀ item ∈ all, ∃ shown ∈ items, shown.path = item.path := by
  constructor
  · intro h
    refine ⟨h.alike, fun item hitem => ?_⟩
    rcases Tree.placeAll_sound hplaced (h item hitem) with hold | ⟨shown, hshown, hat, -⟩
    · rw [Tree.empty_item] at hold
      cases hold
    · exact ⟨shown, hshown, hat⟩
  · rintro ⟨halike, hshown⟩ item hitem
    -- what stands at the path came from an item that was placed, and that one is alike
    obtain ⟨shown, hmem, hpath⟩ := hshown item hitem
    have hthere := Tree.placeAll_present hplaced hmem
    rw [hpath] at hthere
    obtain ⟨node, hnode⟩ := Option.ne_none_iff_exists'.1 hthere
    rcases Tree.placeAll_sound hplaced hnode with hold | ⟨source, hsource, hat, hsame⟩
    · rw [Tree.empty_item] at hold
      cases hold
    · rw [hnode, ← hsame, halike source (hsub hsource) item hitem hat]

end FileTree
