import Mathlib
import SysAgent.Client.TraceMerge

set_option autoImplicit false

/-! # The record of a domain object (`_domain_object_record` in `sysagent.py`)

The record of an object is updated as its messages are processed: the first one sets `firstTick`,
and every one but a creation sets `lastTick`. `summary` is the record as a function of the
observations of the object alone, in the order in which the walk makes them. -/

namespace SysAgent

/-! ## The record of one object -/

/-- One observation of an object that may have no record yet. -/
def updateObject (object : Option DomainObject) (observation : Observation) :
    Option DomainObject :=
  some ((object.getD (domainObjectRecord observation.objectId observation.tick)).see observation)

/-- The record of an object after its observations. -/
def summary (observations : List Observation) : Option DomainObject :=
  Runs.run updateObject none observations

/-- The observations of an object. -/
def ofObject (objectId : Nat) (observations : List Observation) : List Observation :=
  observations.filter fun observation => observation.objectId = objectId

theorem ofObject_concat (objectId : Nat) (observations : List Observation)
    (observation : Observation) :
    ofObject objectId (observations ++ [observation]) =
      if observation.objectId = objectId then ofObject objectId observations ++ [observation]
      else ofObject objectId observations := by
  unfold ofObject
  split_ifs with h <;> simp [h]

@[simp]
theorem see_objectId (object : DomainObject) (observation : Observation) :
    (object.see observation).objectId = object.objectId := by
  unfold DomainObject.see
  split <;> rfl

theorem atKey_map_see (objects : List DomainObject) (observation : Observation) (objectId : Nat) :
    StableSort.atKey DomainObject.objectId objectId (objects.map fun object =>
        if object.objectId = observation.objectId then object.see observation else object) =
      (StableSort.atKey DomainObject.objectId objectId objects).map fun object =>
        if object.objectId = observation.objectId then object.see observation else object := by
  unfold StableSort.atKey
  rw [List.filter_map]
  congr 1
  refine List.filter_congr ?_
  intro object _
  simp only [Function.comp_apply]
  split_ifs <;> simp

section Observe

variable {objects : List DomainObject} {observation : Observation}

theorem atKey_observe_same {object : Option DomainObject}
    (h : StableSort.atKey DomainObject.objectId observation.objectId objects = object.toList) :
    StableSort.atKey DomainObject.objectId observation.objectId (observe objects observation) =
      (updateObject object observation).toList := by
  unfold observe updateObject
  cases object with
  | none =>
    have hnone := List.filter_eq_nil_iff.1 h
    rw [if_neg]
    · unfold StableSort.atKey at h ⊢
      rw [List.filter_append, h]
      simp [domainObjectRecord]
    · rw [List.any_eq_true]
      rintro ⟨object, hmem, hid⟩
      exact hnone object hmem hid
  | some object =>
    rw [Option.toList_some] at h
    have hmem : object ∈ StableSort.atKey DomainObject.objectId observation.objectId objects := by
      rw [h]
      exact List.mem_singleton_self object
    have hid : object.objectId = observation.objectId :=
      of_decide_eq_true (List.mem_filter.1 hmem).2
    rw [if_pos]
    · rw [atKey_map_see, h]
      simp [hid]
    · rw [List.any_eq_true]
      exact ⟨object, (List.mem_filter.1 hmem).1, decide_eq_true hid⟩

theorem atKey_observe_other {objectId : Nat} (hne : observation.objectId ≠ objectId) :
    StableSort.atKey DomainObject.objectId objectId (observe objects observation) =
      StableSort.atKey DomainObject.objectId objectId objects := by
  unfold observe
  split_ifs
  · rw [atKey_map_see]
    refine (List.map_congr_left ?_).trans (List.map_id _)
    intro object hmem
    have hid : object.objectId = objectId := of_decide_eq_true (List.mem_filter.1 hmem).2
    rw [if_neg (hid ▸ Ne.symm hne)]
    rfl
  · unfold StableSort.atKey
    rw [List.filter_append]
    simp [domainObjectRecord, hne]

end Observe

/-- The walk keeps one record for each object, and that is its summary. -/
theorem atKey_run (observations : List Observation) (objectId : Nat) :
    StableSort.atKey DomainObject.objectId objectId (Runs.run observe [] observations) =
      (summary (ofObject objectId observations)).toList := by
  induction observations using List.reverseRecOn with
  | nil => rfl
  | append_singleton observations observation ih =>
    rw [Runs.run_concat, ofObject_concat]
    by_cases hsame : observation.objectId = objectId
    · subst hsame
      rw [atKey_observe_same ih, if_pos rfl, summary, summary, Runs.run_concat]
    · rw [atKey_observe_other hsame, ih, if_neg hsame]

/-! ## What the record holds -/

namespace ObservationKind

/-- Every observation but a creation sets `lastTick`. -/
def uses : ObservationKind → Bool
  | created => false
  | _ => true

def isRequest : ObservationKind → Bool
  | request _ => true
  | _ => false

def isResponse : ObservationKind → Bool
  | response _ => true
  | _ => false

end ObservationKind

/-- The tick of the last observation of a kind. -/
def lastTickOf (kind : ObservationKind → Bool) (observations : List Observation) :
    Option (Option Int) :=
  (observations.filter fun observation => kind observation.kind).getLast?.map Observation.tick

def countOf (kind : ObservationKind → Bool) (observations : List Observation) : Nat :=
  observations.countP fun observation => kind observation.kind

/-- The record after some observations, of which there is at least one. -/
structure SummaryOf (observations : List Observation) (object : DomainObject) : Prop where
  objectId : observations.head?.map Observation.objectId = some object.objectId
  firstTick : observations.head?.map Observation.tick = some object.firstTick
  lastTick : (lastTickOf ObservationKind.uses observations).getD object.firstTick =
    object.lastTick
  createdTick : (lastTickOf (· = .created) observations).join = object.createdTick
  closedTick : (lastTickOf (· = .close) observations).join = object.closedTick
  createCount : object.createCount = countOf (· = .created) observations
  closeCount : object.closeCount = countOf (· = .close) observations
  requestCount : object.requestCount = countOf ObservationKind.isRequest observations
  responseCount : object.responseCount = countOf ObservationKind.isResponse observations
  commands : ∀ id, object.commands id = countOf (· = .request (some id)) observations
  results : ∀ result, object.results result = countOf (· = .response result) observations

section Summary

variable {observations : List Observation} {object : DomainObject} {observation : Observation}

theorem lastTickOf_concat (kind : ObservationKind → Bool) :
    lastTickOf kind (observations ++ [observation]) =
      if kind observation.kind then some observation.tick else lastTickOf kind observations := by
  unfold lastTickOf
  split_ifs with h <;> simp [h]

theorem countOf_concat (kind : ObservationKind → Bool) :
    countOf kind (observations ++ [observation]) =
      countOf kind observations + if kind observation.kind then 1 else 0 := by
  unfold countOf
  rw [List.countP_append, List.countP_singleton]

theorem exists_lastTickOf {kind : ObservationKind → Bool} (h : countOf kind observations ≠ 0) :
    ∃ observation ∈ observations, kind observation.kind = true ∧
      lastTickOf kind observations = some observation.tick := by
  obtain ⟨observation, hmem, hkind⟩ := List.countP_pos_iff.1 (Nat.pos_of_ne_zero h)
  unfold lastTickOf
  cases hlast : (observations.filter fun observation => kind observation.kind).getLast? with
  | none =>
    have hnil := List.filter_eq_nil_iff.1 (List.getLast?_eq_none_iff.1 hlast)
    exact absurd hkind (hnil observation hmem)
  | some last =>
    obtain ⟨hmem, hkind⟩ := List.mem_filter.1 (List.mem_of_mem_getLast? hlast)
    exact ⟨last, hmem, hkind, rfl⟩

/-- The first observation enters the record. -/
theorem SummaryOf.first :
    SummaryOf [observation]
      ((domainObjectRecord observation.objectId observation.tick).see observation) := by
  unfold DomainObject.see domainObjectRecord
  cases hkind : observation.kind <;>
    constructor <;> simp [lastTickOf, countOf, hkind, ObservationKind.uses,
      ObservationKind.isRequest, ObservationKind.isResponse, eq_comm]

theorem SummaryOf.next (spec : SummaryOf observations object) :
    SummaryOf (observations ++ [observation]) (object.see observation) := by
  have hhead : (observations ++ [observation]).head? = observations.head? := by
    cases observations with
    | nil => cases spec.objectId
    | cons first rest => rfl
  unfold DomainObject.see
  cases hkind : observation.kind <;>
    constructor <;> simp only [hhead, lastTickOf_concat, countOf_concat, hkind, spec.objectId,
      spec.firstTick, spec.createCount, spec.closeCount, spec.requestCount, spec.responseCount,
      spec.commands, spec.results] <;>
    simp [ObservationKind.uses, ObservationKind.isRequest, ObservationKind.isResponse,
      spec.lastTick, spec.createdTick, spec.closedTick, eq_comm]

theorem summary_spec (hne : observations ≠ []) :
    ∃ object, summary observations = some object ∧ SummaryOf observations object := by
  induction observations using List.reverseRecOn with
  | nil => exact absurd rfl hne
  | append_singleton observations observation ih =>
    rw [summary, Runs.run_concat, ← summary]
    by_cases hnil : observations = []
    · subst hnil
      exact ⟨_, rfl, SummaryOf.first⟩
    · obtain ⟨object, hobject, spec⟩ := ih hnil
      rw [hobject]
      exact ⟨_, rfl, spec.next⟩

end Summary

/-! ## Observations in parts

The observations of an object, one list for each document, in the order of the documents. -/

def ticksOf (observations : List Observation) : Set Int :=
  { tick | ∃ observation ∈ observations, observation.tick = some tick }

/-- What the documents have to agree on: the first tick, the last tick of each kind, and that the
    last message that is not a creation is the last of all. -/
structure ObjectSettled (parts : List (List Observation)) : Prop where
  first : ∀ part ∈ parts, ∀ other ∈ parts, ∀ a ∈ part.head?, ∀ b ∈ other.head?, a.tick = b.tick
  last : ∀ part ∈ parts, ∀ tick, lastTickOf ObservationKind.uses part = some tick →
    ∃ last, tick = some last ∧ IsGreatest (ticksOf parts.flatten) last
  unused : (∀ part ∈ parts, lastTickOf ObservationKind.uses part = none) →
    ∀ a ∈ parts.flatten, ∀ b ∈ parts.flatten, a.tick = b.tick
  created : ∀ part ∈ parts, ∀ other ∈ parts, ∀ tick ∈ lastTickOf (· = .created) part,
    ∀ tick' ∈ lastTickOf (· = .created) other, tick = tick'
  closed : ∀ part ∈ parts, ∀ other ∈ parts, ∀ tick ∈ lastTickOf (· = .close) part,
    ∀ tick' ∈ lastTickOf (· = .close) other, tick = tick'

/-- The observations have ticks and are in their order. -/
structure TickOrdered (observations : List Observation) : Prop where
  ticked : ∀ observation ∈ observations, observation.tick.isSome = true
  ordered : observations.Pairwise fun a b => a.tick.getD 0 ≤ b.tick.getD 0

section Parts

variable {parts parts' : List (List Observation)} {object : DomainObject}

theorem head?_of_flatten {a : Observation} (h : parts.flatten.head? = some a) :
    ∃ part ∈ parts, part.head? = some a := by
  rw [List.head?_flatten] at h
  exact List.exists_of_findSome?_eq_some h

theorem lastTickOf_append (kind : ObservationKind → Bool) (earlier later : List Observation) :
    lastTickOf kind (earlier ++ later) = (lastTickOf kind later).or (lastTickOf kind earlier) := by
  unfold lastTickOf
  rw [List.filter_append, List.getLast?_append, Option.map_or]

theorem lastTickOf_of_flatten {kind : ObservationKind → Bool} {tick : Option Int}
    (h : lastTickOf kind parts.flatten = some tick) :
    ∃ part ∈ parts, lastTickOf kind part = some tick := by
  induction parts with
  | nil => cases h
  | cons part parts ih =>
    rw [List.flatten_cons, lastTickOf_append, Option.or_eq_some_iff] at h
    rcases h with h | ⟨-, h⟩
    · obtain ⟨other, hmem, hother⟩ := ih h
      exact ⟨other, List.mem_cons_of_mem _ hmem, hother⟩
    · exact ⟨part, List.mem_cons_self, h⟩

theorem lastTickOf_flatten_eq_none {kind : ObservationKind → Bool} :
    lastTickOf kind parts.flatten = none ↔ ∀ part ∈ parts, lastTickOf kind part = none := by
  induction parts with
  | nil => simp [lastTickOf]
  | cons part parts ih =>
    rw [List.flatten_cons, lastTickOf_append, Option.or_eq_none_iff, ih, List.forall_mem_cons]
    exact and_comm

/-- The last tick of a kind, if the parts agree on it. -/
theorem lastTickOf_flatten {kind : ObservationKind → Bool}
    (hsame : ∀ part ∈ parts, ∀ other ∈ parts, ∀ tick ∈ lastTickOf kind part,
      ∀ tick' ∈ lastTickOf kind other, tick = tick')
    (hperm : parts.Perm parts') :
    lastTickOf kind parts.flatten = lastTickOf kind parts'.flatten := by
  cases h : lastTickOf kind parts.flatten with
  | none =>
    rw [lastTickOf_flatten_eq_none] at h
    refine (lastTickOf_flatten_eq_none.2 ?_).symm
    intro part hmem
    exact h part (hperm.mem_iff.2 hmem)
  | some tick =>
    obtain ⟨part, hpart, htick⟩ := lastTickOf_of_flatten h
    cases h' : lastTickOf kind parts'.flatten with
    | none =>
      rw [lastTickOf_flatten_eq_none] at h'
      rw [h' part (hperm.mem_iff.1 hpart)] at htick
      cases htick
    | some tick' =>
      obtain ⟨other, hother, htick'⟩ := lastTickOf_of_flatten h'
      rw [hsame part hpart other (hperm.mem_iff.2 hother) tick htick tick' htick']

theorem countOf_perm (kind : ObservationKind → Bool) (hperm : parts.Perm parts') :
    countOf kind parts.flatten = countOf kind parts'.flatten :=
  hperm.flatten.countP_eq _

namespace ObjectSettled

variable (settled : ObjectSettled parts)
include settled

theorem lastUses : ∀ part ∈ parts, ∀ other ∈ parts,
    ∀ tick ∈ lastTickOf ObservationKind.uses part,
    ∀ tick' ∈ lastTickOf ObservationKind.uses other, tick = tick' := by
  intro part hpart other hother tick htick tick' htick'
  obtain ⟨last, rfl, hlast⟩ := settled.last part hpart tick htick
  obtain ⟨last', rfl, hlast'⟩ := settled.last other hother tick' htick'
  rw [hlast.unique hlast']

theorem head?_flatten (hperm : parts.Perm parts') :
    parts.flatten.head?.map Observation.tick = parts'.flatten.head?.map Observation.tick := by
  cases h : parts.flatten.head? with
  | none =>
    have hnil : parts.flatten = [] := List.head?_eq_none_iff.1 h
    have hnil' : parts'.flatten = [] := by
      have hflatten := hperm.flatten
      rw [hnil] at hflatten
      exact hflatten.nil_eq.symm
    rw [hnil']
    rfl
  | some a =>
    obtain ⟨part, hpart, ha⟩ := head?_of_flatten h
    cases h' : parts'.flatten.head? with
    | none =>
      have hnil : parts'.flatten = [] := List.head?_eq_none_iff.1 h'
      have hmem : a ∈ parts'.flatten :=
        hperm.flatten.mem_iff.1 (List.mem_of_mem_head? h)
      rw [hnil] at hmem
      cases hmem
    | some b =>
      obtain ⟨other, hother, hb⟩ := head?_of_flatten h'
      rw [Option.map_some, Option.map_some,
        settled.first part hpart other (hperm.mem_iff.2 hother) a ha b hb]

/-- The record does not depend on the order of the parts. -/
theorem summary_perm {objectId : Nat}
    (hobject : ∀ observation ∈ parts.flatten, observation.objectId = objectId)
    (hperm : parts.Perm parts') : summary parts.flatten = summary parts'.flatten := by
  by_cases hnil : parts.flatten = []
  · have hnil' : parts'.flatten = [] := by
      have hflatten := hperm.flatten
      rw [hnil] at hflatten
      exact hflatten.nil_eq.symm
    rw [hnil, hnil']
  · have hnil' : parts'.flatten ≠ [] := by
      intro hnil'
      have hflatten := hperm.flatten
      rw [hnil'] at hflatten
      exact hnil hflatten.eq_nil
    obtain ⟨object, hsummary, spec⟩ := summary_spec hnil
    obtain ⟨object', hsummary', spec'⟩ := summary_spec hnil'
    have hid : object.objectId = object'.objectId := by
      obtain ⟨a, ha, haId⟩ := Option.map_eq_some_iff.1 spec.objectId
      obtain ⟨b, hb, hbId⟩ := Option.map_eq_some_iff.1 spec'.objectId
      have hb := hperm.flatten.mem_iff.2 (List.mem_of_mem_head? hb)
      rw [← haId, ← hbId, hobject a (List.mem_of_mem_head? ha), hobject b hb]
    have hfirst : object.firstTick = object'.firstTick := by
      have h := settled.head?_flatten hperm
      rw [spec.firstTick, spec'.firstTick] at h
      exact Option.some.inj h
    have hlast : object.lastTick = object'.lastTick := by
      rw [← spec.lastTick, ← spec'.lastTick, lastTickOf_flatten settled.lastUses hperm, hfirst]
    have hcreated : object.createdTick = object'.createdTick := by
      rw [← spec.createdTick, ← spec'.createdTick, lastTickOf_flatten settled.created hperm]
    have hclosed : object.closedTick = object'.closedTick := by
      rw [← spec.closedTick, ← spec'.closedTick, lastTickOf_flatten settled.closed hperm]
    have hcommands : object.commands = object'.commands := by
      funext id
      rw [spec.commands, spec'.commands, countOf_perm _ hperm]
    have hresults : object.results = object'.results := by
      funext result
      rw [spec.results, spec'.results, countOf_perm _ hperm]
    rw [hsummary, hsummary', Option.some.injEq]
    exact DomainObject.ext hid hfirst hlast
      (by rw [spec.createCount, spec'.createCount, countOf_perm _ hperm])
      (by rw [spec.closeCount, spec'.closeCount, countOf_perm _ hperm])
      (by rw [spec.requestCount, spec'.requestCount, countOf_perm _ hperm])
      (by rw [spec.responseCount, spec'.responseCount, countOf_perm _ hperm])
      hcommands hresults hcreated hclosed

end ObjectSettled

theorem TickOrdered.head {part : List Observation} (hordered : TickOrdered part)
    {first : Observation} (hfirst : part.head? = some first) {observation : Observation}
    (hmem : observation ∈ part) : first.tick.getD 0 ≤ observation.tick.getD 0 := by
  obtain ⟨rest, rfl⟩ := List.head?_eq_some_iff.1 hfirst
  rcases List.mem_cons.1 hmem with rfl | hmem
  · exact le_rfl
  · exact (List.pairwise_cons.1 hordered.ordered).1 observation hmem

variable (hordered : ∀ part ∈ parts, TickOrdered part)
include hordered

theorem ticked_of_mem {observation : Observation} (hmem : observation ∈ parts.flatten) :
    observation.tick = some (observation.tick.getD 0) := by
  obtain ⟨part, hpart, hmem⟩ := List.mem_flatten.1 hmem
  obtain ⟨tick, htick⟩ := Option.isSome_iff_exists.1 ((hordered part hpart).ticked _ hmem)
  rw [htick, Option.getD_some]

theorem SummaryOf.isLeast (spec : SummaryOf parts.flatten object) (settled : ObjectSettled parts) :
    ∃ first, object.firstTick = some first ∧ IsLeast (ticksOf parts.flatten) first := by
  obtain ⟨a, ha, htick⟩ := Option.map_eq_some_iff.1 spec.firstTick
  have hmem := List.mem_of_mem_head? ha
  have hticked := ticked_of_mem hordered hmem
  refine ⟨a.tick.getD 0, htick.symm.trans hticked, ⟨a, hmem, hticked⟩, ?_⟩
  rintro tick ⟨b, hb, hbTick⟩
  obtain ⟨part, hpart, haHead⟩ := head?_of_flatten ha
  obtain ⟨other, hother, hb⟩ := List.mem_flatten.1 hb
  cases hhead : other.head? with
  | none =>
    rw [List.head?_eq_none_iff.1 hhead] at hb
    cases hb
  | some c =>
    -- the first tick of the part that `b` is in is that of `a`
    have hle := (hordered other hother).head hhead hb
    rw [← settled.first part hpart other hother a haHead c hhead, hbTick, Option.getD_some] at hle
    exact hle

theorem SummaryOf.isGreatest (spec : SummaryOf parts.flatten object)
    (settled : ObjectSettled parts) :
    ∃ last, object.lastTick = some last ∧ IsGreatest (ticksOf parts.flatten) last := by
  cases huse : lastTickOf ObservationKind.uses parts.flatten with
  | some tick =>
    obtain ⟨part, hpart, htick⟩ := lastTickOf_of_flatten huse
    obtain ⟨last, rfl, hlast⟩ := settled.last part hpart tick htick
    refine ⟨last, ?_, hlast⟩
    rw [← spec.lastTick, huse, Option.getD_some]
  | none =>
    obtain ⟨a, ha, htick⟩ := Option.map_eq_some_iff.1 spec.firstTick
    have hmem := List.mem_of_mem_head? ha
    have hticked := ticked_of_mem hordered hmem
    have hlast : object.lastTick = a.tick := by
      rw [← spec.lastTick, huse, Option.getD_none, htick]
    refine ⟨a.tick.getD 0, hlast.trans hticked, ⟨a, hmem, hticked⟩, ?_⟩
    rintro tick ⟨b, hb, hbTick⟩
    have hsame := settled.unused (lastTickOf_flatten_eq_none.1 huse) a hmem b hb
    rw [hsame, hbTick, Option.getD_some]

end Parts

/-- A record that does not depend on the order of the documents and has the least and the greatest
    tick is of documents that agree. -/
theorem settled_of_order {α : Type} {observed : α → List Observation} {documents : List α}
    {object : DomainObject} {first last : Int}
    (hordered : ∀ part ∈ documents.map observed, TickOrdered part)
    (horder : ∀ documents', documents.Perm documents' →
      summary (documents'.map observed).flatten = some object)
    (hfirst : object.firstTick = some first)
    (hleast : IsLeast (ticksOf (documents.map observed).flatten) first)
    (hlast : object.lastTick = some last)
    (hgreatest : IsGreatest (ticksOf (documents.map observed).flatten) last) :
    ObjectSettled (documents.map observed) := by
  have hspec : ∀ documents', documents.Perm documents' →
      (documents'.map observed).flatten ≠ [] →
      SummaryOf (documents'.map observed).flatten object := by
    intro documents' hperm hne
    obtain ⟨other, hother, spec⟩ := summary_spec hne
    obtain rfl := Option.some.inj (hother.symm.trans (horder documents' hperm))
    exact spec
  -- a document comes first in one order and last in another
  have hfront : ∀ part ∈ documents.map observed, ∀ a ∈ part.head?, a.tick = object.firstTick := by
    intro part hpart a ha
    obtain ⟨document, hmem, rfl⟩ := List.mem_map.1 hpart
    obtain ⟨before, after, rfl⟩ := List.append_of_mem hmem
    have hhead : ((document :: (before ++ after)).map observed).flatten.head? = some a := by
      rw [List.map_cons, List.flatten_cons, List.head?_append, Option.mem_def.1 ha, Option.some_or]
    have hne : ((document :: (before ++ after)).map observed).flatten ≠ [] := by
      intro hnil
      rw [hnil] at hhead
      cases hhead
    have spec := hspec _ List.perm_middle hne
    have htick := spec.firstTick
    rw [hhead] at htick
    exact Option.some.inj htick
  have hback : ∀ part ∈ documents.map observed, ∀ kind, ∀ tick ∈ lastTickOf kind part,
      ∃ observations, SummaryOf observations object ∧ lastTickOf kind observations = some tick := by
    intro part hpart kind tick htick
    obtain ⟨document, hmem, rfl⟩ := List.mem_map.1 hpart
    obtain ⟨before, after, rfl⟩ := List.append_of_mem hmem
    have hlast : lastTickOf kind ((before ++ after ++ [document]).map observed).flatten =
        some tick := by
      rw [List.map_append, List.flatten_append, lastTickOf_append, List.map_singleton,
        List.flatten_singleton, Option.mem_def.1 htick, Option.some_or]
    have hne : ((before ++ after ++ [document]).map observed).flatten ≠ [] := by
      intro hnil
      rw [hnil] at hlast
      cases hlast
    have hperm : (before ++ document :: after).Perm (before ++ after ++ [document]) :=
      List.perm_middle.trans (List.perm_append_singleton document (before ++ after)).symm
    exact ⟨_, hspec _ hperm hne, hlast⟩
  exact {
    first := by
      intro part hpart other hother a ha b hb
      rw [hfront part hpart a ha, hfront other hother b hb]
    last := by
      intro part hpart tick htick
      obtain ⟨observations, spec, htick⟩ := hback part hpart _ tick htick
      have hsame := spec.lastTick
      rw [htick, Option.getD_some, hlast] at hsame
      exact ⟨last, hsame, hgreatest⟩
    unused := by
      intro hunused a ha b hb
      have hne : (documents.map observed).flatten ≠ [] := List.ne_nil_of_mem ha
      have spec := hspec documents (List.Perm.refl _) hne
      have hsame : first = last := by
        have h := spec.lastTick
        rw [lastTickOf_flatten_eq_none.2 hunused, Option.getD_none, hfirst, hlast] at h
        exact Option.some.inj h
      have honly : ∀ c ∈ (documents.map observed).flatten, c.tick = some first := by
        intro c hc
        have hticked := ticked_of_mem hordered hc
        have hge := hleast.2 ⟨c, hc, hticked⟩
        have hle := hgreatest.2 ⟨c, hc, hticked⟩
        rw [hticked, le_antisymm (hle.trans hsame.ge) hge]
      rw [honly a ha, honly b hb]
    created := by
      intro part hpart other hother tick htick tick' htick'
      obtain ⟨observations, spec, htick⟩ := hback part hpart _ tick htick
      obtain ⟨observations', spec', htick'⟩ := hback other hother _ tick' htick'
      have hsame := spec.createdTick.trans spec'.createdTick.symm
      rw [htick, htick'] at hsame
      exact hsame
    closed := by
      intro part hpart other hother tick htick tick' htick'
      obtain ⟨observations, spec, htick⟩ := hback part hpart _ tick htick
      obtain ⟨observations', spec', htick'⟩ := hback other hother _ tick' htick'
      have hsame := spec.closedTick.trans spec'.closedTick.symm
      rw [htick, htick'] at hsame
      exact hsame }

end SysAgent
