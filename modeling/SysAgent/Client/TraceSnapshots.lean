import SysAgent.Console.Connections
import SysAgent.Debug.SnapshotSpecs

set_option autoImplicit false

/-! # Effective snapshots (`sysagent.py`, `debug_trace.c`, `debug_multitrace.c`)

What a hit of a target captures is decided in three places. `resolve_trace_profile` records a list for
each target, `_start_plan_trace` turns it into `tsnap=` arguments next to one `snap=` argument for each
`--snapshot` option, and the sysmodule takes a target's own list if it is not empty, and the list of
the `snap=` arguments otherwise.

The client checks a snapshot with a pattern of its own, `debugTraceParseSnapshotSpec` reads it. A
snapshot is carried as the bytes of its text. -/

namespace SysAgent

open CNumber Checked

/-! ## The client's check -/

/-- `parse_number`, of a text that `0x[0-9A-Fa-f]+|[0-9]+` matches. -/
def snapshotNumber : List UInt8 → Option Nat
  | 0x30 :: 0x78 :: digits =>
    if digits ≠ [] ∧ digits.all (isDigitOf 16) = true then some (number 16 digits) else none
  | digits =>
    if digits ≠ [] ∧ digits.all (isDigitOf 10) = true then some (number 10 digits) else none

/-- What `x(?:[0-9]|[12][0-9]|30)|sp|pc|lr` matches. -/
def snapshotRegisters : List (List UInt8) :=
  (List.range 31).map (fun index => 0x78 :: textBytes (dec index)) ++
    [wordBytes "sp", wordBytes "pc", wordBytes "lr"]

/-- `_validate_snapshot_spec`. No part of the pattern has a colon in it and the register no sign, so
    the first ones of the text are those between the parts. -/
def validateSnapshotSpec (text : List UInt8) : Bool :=
  let front := text.takeWhile (· ≠ 0x3A)
  match text.dropWhile (· ≠ 0x3A) with
  | [] => false
  | _ :: size =>
    snapshotRegisters.contains (front.takeWhile fun b => !isSign b) &&
      ((match front.dropWhile fun b => !isSign b with
        | [] => true
        | _ :: magnitude => (snapshotNumber magnitude).any fun n => decide (n ≤ 0x7FFFFFFFFFFFFFFF)) &&
      (snapshotNumber size).any fun n => decide (1 ≤ n) && decide (n ≤ 0x100))

/-- An entry of `_profile_snapshot_entries`. -/
structure SnapshotEntry where
  spec : List UInt8
  name : Option String
  kind : Option String

/-- A list that `_profile_snapshot_entries` or the check of the `--snapshot` options accepts. -/
def ValidSnapshots (specs : List (List UInt8)) : Prop :=
  specs.length ≤ DEBUG_TRACE_SNAPSHOT_MAX ∧ ∀ spec ∈ specs, validateSnapshotSpec spec = true

instance (specs : List (List UInt8)) : Decidable (ValidSnapshots specs) :=
  inferInstanceAs (Decidable (_ ∧ _))

/-- A profile that `load_trace_profile` accepts, with its targets in the order of
    `_profile_target_order`. A target that does not declare snapshots has `none`; in schema 1 no
    target can declare any. -/
structure SnapshotProfile where
  targets : List (Option (List SnapshotEntry))
  traceSnapshots : List SnapshotEntry
  targets_le : targets.length ≤ DEBUG_TRACE_TARGET_MAX
  targets_valid : ∀ entries, some entries ∈ targets →
    ValidSnapshots (entries.map SnapshotEntry.spec)
  trace_valid : ValidSnapshots (traceSnapshots.map SnapshotEntry.spec)

/-- The `--snapshot` options of a run. -/
structure SnapshotOptions where
  specs : List (List UInt8)
  valid : ValidSnapshots specs

/-! ## The plan and its command line -/

/-- `target_snapshots` in `resolve_trace_profile`. -/
def plannedSnapshots (profile : SnapshotProfile) (target : Option (List SnapshotEntry)) :
    List SnapshotEntry :=
  target.getD profile.traceSnapshots

/-- The snapshot lists of the plan's targets. -/
def planTargets (profile : SnapshotProfile) : List (List (List UInt8)) :=
  profile.targets.map fun target => (plannedSnapshots profile target).map SnapshotEntry.spec

inductive SnapshotArgument
  | snap (spec : List UInt8)
  | tsnap (target : Nat) (spec : List UInt8)

def SnapshotArgument.spec : SnapshotArgument → List UInt8
  | snap spec => spec
  | tsnap _ spec => spec

/-- The argument on the command line. -/
def SnapshotArgument.text : SnapshotArgument → List UInt8
  | snap spec => wordBytes "snap=" ++ spec
  | tsnap target spec => wordBytes "tsnap=" ++ (textBytes (dec target) ++ 0x3A :: spec)

/-- The `tsnap=` arguments of the targets from an index on. -/
def targetArguments : Nat → List (List (List UInt8)) → List SnapshotArgument
  | _, [] => []
  | index, specs :: targets => specs.map (.tsnap index) ++ targetArguments (index + 1) targets

/-- The snapshot arguments of `_start_plan_trace`. -/
def planArguments (profile : SnapshotProfile) (options : SnapshotOptions) :
    List SnapshotArgument :=
  options.specs.map .snap ++ targetArguments 0 (planTargets profile)

/-- The length of the command line, of which `head` bytes are in front of these arguments. -/
def commandLength (head : Nat) (arguments : List SnapshotArgument) : Nat :=
  head + (arguments.map fun argument => 1 + argument.text.length).sum + 2

/-! ## The sysmodule -/

/-- The branches of `debug trace` and `debug multitrace` for these arguments. -/
def snapshotOption (options : TraceOptions) (argument : SnapshotArgument) :
    Checked Reply TraceOptions :=
  match argument with
  | .snap _ => snapOption argument.text options
  | .tsnap _ _ => tsnapOption argument.text options

/-- The snapshots of an accepted command for `targetCount` targets; a line that does not fit closes
    the connection. -/
def startSnapshots (head targetCount : Nat) (arguments : List SnapshotArgument) :
    Option TraceOptions :=
  if MAX_LINE_LENGTH ≤ commandLength head arguments then none
  else
    let parsed : Checked Reply TraceOptions := do
      let options ← arguments.foldlM snapshotOption TraceOptions.start
      checkTargetSnapshots targetCount options
      pure options
    match parsed.run with
    | some (.ok options) => some options
    | _ => none

/-- `eventSnapshots` at a hit of a target. -/
def eventSnapshots (options : TraceOptions) (target : Nat) : List DebugTraceSnapshotSpec :=
  let own := options.targetSnapshots.getD target []
  if own.length ≠ 0 then own else options.snapshots

/-! ## The precedence -/

/-- The target's own list if it declares one, the options if there are any, the profile's list
    otherwise. -/
def effectiveSnapshots (profile : SnapshotProfile) (options : SnapshotOptions)
    (target : Option (List SnapshotEntry)) : List (List UInt8) :=
  match target with
  | some own => own.map SnapshotEntry.spec
  | none =>
    if options.specs ≠ [] then options.specs
    else profile.traceSnapshots.map SnapshotEntry.spec

/-- The run starts, the plan records the effective snapshots of the target, and a hit of it
    captures what they say. -/
structure CapturesEffective (head : Nat) (profile : SnapshotProfile) (options : SnapshotOptions)
    (index : Nat) (target : Option (List SnapshotEntry)) : Prop where
  recorded : (plannedSnapshots profile target).map SnapshotEntry.spec =
    effectiveSnapshots profile options target
  captured : ∃ started,
    startSnapshots head profile.targets.length (planArguments profile options) = some started ∧
      List.Forall₂ SpecText (effectiveSnapshots profile options target)
        (eventSnapshots started index)

/-- The number of the offset, with its sign, fits the buffer of `parseUnsignedRange`. -/
def OffsetFits (text : List UInt8) : Prop :=
  ((text.takeWhile (· ≠ 0x3A)).dropWhile fun b => !isSign b).length ≤ 64

instance (text : List UInt8) : Decidable (OffsetFits text) := inferInstanceAs (Decidable (_ ≤ _))

/-- The console takes the command: the line fits its buffer, and so does every number. -/
def CommandFits (head : Nat) (profile : SnapshotProfile) (options : SnapshotOptions) : Prop :=
  commandLength head (planArguments profile options) < MAX_LINE_LENGTH ∧
    ∀ argument ∈ planArguments profile options, OffsetFits argument.spec

instance (head : Nat) (profile : SnapshotProfile) (options : SnapshotOptions) :
    Decidable (CommandFits head profile options) :=
  inferInstanceAs (Decidable (_ ∧ _))

/-! ## What the check accepts -/

theorem snapshotNumber_eq_some {text : List UInt8} {n : Nat} (h : snapshotNumber text = some n) :
    Numeral text n := by
  unfold snapshotNumber at h
  split at h
  · rename_i digits
    split_ifs at h with hdigits
    obtain rfl := Option.some.inj h
    exact .hexadecimal (by decide) hdigits.1 (List.all_eq_true.1 hdigits.2)
  · split_ifs at h with hdigits
    obtain rfl := Option.some.inj h
    exact .decimal hdigits.1 (List.all_eq_true.1 hdigits.2)

theorem registerText_of_mem {text : List UInt8} (h : text ∈ snapshotRegisters) :
    ∃ base index, RegisterText text base index := by
  rcases List.mem_append.1 h with hx | hname
  · obtain ⟨index, hindex, rfl⟩ := List.mem_map.1 hx
    have hlt := List.mem_range.1 hindex
    exact ⟨.gpr, UInt8.ofNat index, .gpr (by omega)⟩
  · simp only [List.mem_cons, List.not_mem_nil, or_false] at hname
    rcases hname with rfl | rfl | rfl
    · exact ⟨_, _, .sp⟩
    · exact ⟨_, _, .pc⟩
    · exact ⟨_, _, .lr⟩

/-- The offset that is accepted. -/
theorem offsetText_of_number {front magnitude : List UInt8} {sign : UInt8} {n : Nat}
    (hfront : (front.dropWhile fun b => !isSign b) = sign :: magnitude)
    (hnumber : snapshotNumber magnitude = some n) (hn : n ≤ 0x7FFFFFFFFFFFFFFF) :
    ∃ value, OffsetText (sign :: magnitude) value := by
  have hsign : isSign sign = true := by
    have hhead := List.head?_dropWhile_not (fun b => !isSign b) front
    rw [hfront] at hhead
    simpa using hhead
  have hnumeral := snapshotNumber_eq_some hnumber
  rw [isSign, Bool.or_eq_true, beq_iff_eq, beq_iff_eq] at hsign
  rcases hsign with rfl | rfl
  · exact ⟨n, .plus hnumeral (by omega)⟩
  · exact ⟨-n, .minus hnumeral (by omega)⟩

/-- A text that is accepted is one of the grammar. -/
theorem text_of_validate {text : List UInt8} (h : validateSnapshotSpec text = true) :
    ∃ spec, SpecText text spec := by
  have hfront := List.takeWhile_append_dropWhile (p := fun b => decide (b ≠ 0x3A)) (l := text)
  have hregister := List.takeWhile_append_dropWhile (p := fun b => !isSign b)
    (l := text.takeWhile fun b => decide (b ≠ 0x3A))
  unfold validateSnapshotSpec at h
  cases hbehind : text.dropWhile fun b => decide (b ≠ 0x3A) with
  | nil =>
    rw [hbehind] at h
    cases h
  | cons colon size =>
    rw [hbehind] at h
    have hcolon : colon = 0x3A := by
      have hhead := List.head?_dropWhile_not (fun b => decide (b ≠ 0x3A)) text
      rw [hbehind] at hhead
      simpa using hhead
    subst hcolon
    simp only [Bool.and_eq_true, List.contains_iff_mem] at h
    obtain ⟨hname, hmagnitude, hsize⟩ := h
    obtain ⟨base, index, hname⟩ := registerText_of_mem hname
    obtain ⟨n, hnumber, hn⟩ := (Option.any_eq_true _ _).1 hsize
    obtain ⟨hpos, hle⟩ : 1 ≤ n ∧ n ≤ 0x100 := by simpa using hn
    obtain ⟨value, hoffset⟩ : ∃ value, OffsetText
        ((text.takeWhile fun b => decide (b ≠ 0x3A)).dropWhile fun b => !isSign b) value := by
      cases hrest : (text.takeWhile fun b => decide (b ≠ 0x3A)).dropWhile fun b => !isSign b with
      | nil => exact ⟨0, .none⟩
      | cons sign magnitude =>
        rw [hrest] at hmagnitude
        obtain ⟨m, hm, hbound⟩ := (Option.any_eq_true _ _).1 hmagnitude
        exact offsetText_of_number hrest hm (by simpa using hbound)
    refine ⟨⟨base, index, value, UInt32.ofNat n⟩, _, _, size, n, ?_, hname, hoffset,
      ⟨snapshotNumber_eq_some hnumber, hpos, hle⟩, rfl⟩
    rw [← List.append_assoc, hregister, ← hbehind, hfront]

/-- Of an accepted text the console's parser takes what it says, if the offset fits. -/
theorem exists_spec {text : List UInt8} (h : validateSnapshotSpec text = true)
    (hfits : OffsetFits text) :
    ∃ spec, SpecText text spec ∧ debugTraceParseSnapshotSpec text = some spec := by
  obtain ⟨spec, hspec⟩ := text_of_validate h
  refine ⟨spec, hspec, parse_of_text hspec fun register offset size hcut => ?_⟩
  obtain ⟨htake, -, -, hoffset⟩ := hcut.pieces
  unfold OffsetFits at hfits
  rwa [htake, hoffset] at hfits

/-- The check accepts an offset of any length. -/
example :
    let text := wordBytes "x0+" ++ List.replicate 63 0x30 ++ wordBytes "1:4"
    validateSnapshotSpec text = true ∧ debugTraceParseSnapshotSpec text = none := by
  decide

theorem offsetFits_of_parse {text : List UInt8} {spec : DebugTraceSnapshotSpec}
    (h : debugTraceParseSnapshotSpec text = some spec) : OffsetFits text := by
  obtain ⟨register, offset, size, n, hcut, -, -, -, -, hread, -⟩ := parts_of_parse h
  obtain ⟨htake, -, -, hoffset⟩ := hcut.pieces
  unfold OffsetFits
  rw [htake, hoffset]
  rcases readOffset_eq_some hcut.sign hread with ⟨-, hshort⟩ | ⟨sign, digits, _, rfl, -, hshort, -⟩
  · exact hshort
  · rw [List.length_cons]
    omega

/-! ## What the sysmodule makes of the plan -/

/-- What a text says, if it is read. -/
def specOf (text : List UInt8) : DebugTraceSnapshotSpec :=
  (debugTraceParseSnapshotSpec text).getD default

/-- The parser takes every one of the texts. -/
def Readable (specs : List (List UInt8)) : Prop :=
  ∀ text ∈ specs, debugTraceParseSnapshotSpec text = some (specOf text)

theorem readable_of_fits {specs : List (List UInt8)} (hvalid : ValidSnapshots specs)
    (hfits : ∀ text ∈ specs, OffsetFits text) : Readable specs := by
  intro text hmem
  obtain ⟨spec, -, hparse⟩ := exists_spec (hvalid.2 text hmem) (hfits text hmem)
  rw [specOf, hparse, Option.getD_some]

theorem spec_ne_nil {text : List UInt8} {parsed : DebugTraceSnapshotSpec}
    (h : debugTraceParseSnapshotSpec text = some parsed) : text ≠ [] := by
  rintro rfl
  cases h

theorem snapshotOption_snap (options : TraceOptions) {text : List UInt8}
    {parsed : DebugTraceSnapshotSpec} (hparse : debugTraceParseSnapshotSpec text = some parsed)
    (hroom : options.snapshots.length < DEBUG_TRACE_SNAPSHOT_MAX) :
    snapshotOption options (.snap text) =
      pure { options with snapshots := options.snapshots ++ [parsed] } := by
  have hdrop : (SnapshotArgument.snap text).text.drop 5 = text := rfl
  rw [snapshotOption, snapOption, if_neg (not_le.2 hroom), hdrop, hparse]
  simp only [push, if_pos hroom, pure_bind]

/-- The digit of a target. -/
theorem target_digit {target : Nat} (h : target < DEBUG_TRACE_TARGET_MAX) :
    ∃ digit, textBytes (dec target) = [digit] ∧ ¬ (digit < 0x30 ∨ 0x33 < digit) ∧
      digit.toNat - 0x30 = target := by
  have hall : ∀ target < DEBUG_TRACE_TARGET_MAX,
      textBytes (dec target) = [UInt8.ofNat (0x30 + target)] ∧
        ¬ (UInt8.ofNat (0x30 + target) < 0x30 ∨ 0x33 < UInt8.ofNat (0x30 + target)) ∧
        (UInt8.ofNat (0x30 + target)).toNat - 0x30 = target := by
    decide
  exact ⟨_, hall target h⟩

theorem snapshotOption_tsnap (options : TraceOptions) {text : List UInt8}
    {parsed : DebugTraceSnapshotSpec} (hparse : debugTraceParseSnapshotSpec text = some parsed)
    {before after : List (List DebugTraceSnapshotSpec)} {own : List DebugTraceSnapshotSpec}
    (htargets : options.targetSnapshots = before ++ own :: after)
    (htarget : before.length < DEBUG_TRACE_TARGET_MAX)
    (hroom : own.length < DEBUG_TRACE_SNAPSHOT_MAX) :
    snapshotOption options (.tsnap before.length text) =
      pure { options with targetSnapshots := before ++ (own ++ [parsed]) :: after } := by
  obtain ⟨digit, hdigit, hrange, hvalue⟩ := target_digit htarget
  obtain ⟨b, rest, rfl⟩ := List.exists_cons_of_ne_nil (spec_ne_nil hparse)
  have hdrop : (SnapshotArgument.tsnap before.length (b :: rest)).text.drop 6 =
      digit :: 0x3A :: b :: rest := by
    rw [SnapshotArgument.text, hdigit]
    rfl
  have hlength : before.length < options.targetSnapshots.length := by
    rw [htargets, List.length_append, List.length_cons]
    omega
  have hown : options.targetSnapshots[before.length] = own := by
    simp [htargets]
  rw [snapshotOption, tsnapOption, hdrop]
  dsimp only
  rw [if_neg (by simpa using hrange), hvalue, if_neg (not_le.2 htarget), access_bind hlength, hown,
    if_neg (not_le.2 hroom), hparse]
  simp only [push, if_pos hroom, pure_bind]
  rw [htargets]
  simp

/-- The `snap=` arguments. -/
theorem addSnaps (options : TraceOptions) {specs : List (List UInt8)} (hread : Readable specs)
    (hlength : options.snapshots.length + specs.length ≤ DEBUG_TRACE_SNAPSHOT_MAX) :
    (specs.map SnapshotArgument.snap).foldlM snapshotOption options =
      pure { options with snapshots := options.snapshots ++ specs.map specOf } := by
  induction specs generalizing options with
  | nil => simp
  | cons text specs ih =>
    rw [List.length_cons] at hlength
    rw [List.map_cons, List.foldlM_cons,
      snapshotOption_snap options (hread text List.mem_cons_self) (by omega), pure_bind,
      ih _ (fun other hmem => hread other (List.mem_cons_of_mem text hmem)) (by simp; omega)]
    simp

/-- The `tsnap=` arguments of one target. -/
theorem addTargetSnaps (options : TraceOptions) {specs : List (List UInt8)} (hread : Readable specs)
    {before after : List (List DebugTraceSnapshotSpec)} {own : List DebugTraceSnapshotSpec}
    (htargets : options.targetSnapshots = before ++ own :: after)
    (htarget : before.length < DEBUG_TRACE_TARGET_MAX)
    (hlength : own.length + specs.length ≤ DEBUG_TRACE_SNAPSHOT_MAX) :
    (specs.map (SnapshotArgument.tsnap before.length)).foldlM snapshotOption options =
      pure { options with targetSnapshots := before ++ (own ++ specs.map specOf) :: after } := by
  induction specs generalizing options own with
  | nil => simp [← htargets]
  | cons text specs ih =>
    rw [List.length_cons] at hlength
    rw [List.map_cons, List.foldlM_cons, snapshotOption_tsnap options
      (hread text List.mem_cons_self) htargets htarget (by omega), pure_bind,
      ih _ (fun other hmem => hread other (List.mem_cons_of_mem text hmem)) rfl (by simp; omega)]
    simp

/-- The `tsnap=` arguments of the targets behind those whose lists are in place. -/
theorem addTargets (options : TraceOptions) (targets : List (List (List UInt8)))
    (before : List (List DebugTraceSnapshotSpec))
    (htargets : options.targetSnapshots =
      before ++ List.replicate (DEBUG_TRACE_TARGET_MAX - before.length) [])
    (hcount : before.length + targets.length ≤ DEBUG_TRACE_TARGET_MAX)
    (hread : ∀ specs ∈ targets, Readable specs)
    (hshort : ∀ specs ∈ targets, specs.length ≤ DEBUG_TRACE_SNAPSHOT_MAX) :
    (targetArguments before.length targets).foldlM snapshotOption options =
      pure { options with
        targetSnapshots := before ++ targets.map (List.map specOf) ++
          List.replicate (DEBUG_TRACE_TARGET_MAX - (before.length + targets.length)) [] } := by
  induction targets generalizing options before with
  | nil => simp [targetArguments, ← htargets]
  | cons specs targets ih =>
    rw [List.length_cons] at hcount
    have hsplit : List.replicate (DEBUG_TRACE_TARGET_MAX - before.length)
        ([] : List DebugTraceSnapshotSpec) =
        [] :: List.replicate (DEBUG_TRACE_TARGET_MAX - (before.length + 1)) [] := by
      have hsucc : DEBUG_TRACE_TARGET_MAX - before.length =
          (DEBUG_TRACE_TARGET_MAX - (before.length + 1)) + 1 := by omega
      rw [hsucc, List.replicate_succ]
    rw [hsplit] at htargets
    rw [targetArguments, List.foldlM_append, addTargetSnaps options
      (hread specs List.mem_cons_self) htargets (by omega)
      (by simpa using hshort specs List.mem_cons_self), pure_bind]
    have hnext := ih
      { options with targetSnapshots := before ++ ([] ++ specs.map specOf) ::
          List.replicate (DEBUG_TRACE_TARGET_MAX - (before.length + 1)) [] }
      (before ++ [specs.map specOf]) (by simp) (by simp; omega)
      (fun other hmem => hread other (List.mem_cons_of_mem specs hmem))
      (fun other hmem => hshort other (List.mem_cons_of_mem specs hmem))
    rw [List.length_append, List.length_singleton] at hnext
    rw [hnext]
    simp [Nat.add_assoc, Nat.add_comm 1]

/-- No target from the count on has snapshots. -/
theorem checkTargetSnapshots_ok (options : TraceOptions) {targetCount : Nat}
    (targets : List (List DebugTraceSnapshotSpec)) (hcount : targets.length = targetCount)
    (hle : targetCount ≤ DEBUG_TRACE_TARGET_MAX)
    (htargets : options.targetSnapshots =
      targets ++ List.replicate (DEBUG_TRACE_TARGET_MAX - targetCount) []) :
    checkTargetSnapshots targetCount options = pure () := by
  have hlength : options.targetSnapshots.length = DEBUG_TRACE_TARGET_MAX := by
    rw [htargets, List.length_append, List.length_replicate]
    omega
  have hfrom : ∀ more target, target + more = DEBUG_TRACE_TARGET_MAX → targetCount ≤ target →
      loop DEBUG_TRACE_TARGET_MAX (fun target (_ : Unit) => do
        let snapshots ← access options.targetSnapshots target
        if snapshots.length ≠ 0 then
          throw "ERR code=INVALID_SNAPSHOT detail=target_out_of_range".toList
        else pure (0, ())) target () = (pure () : Checked Reply Unit) := by
    intro more
    induction more with
    | zero =>
      intro target hend _
      rw [loop, if_neg (by omega)]
    | succ more ih =>
      intro target hend hfirst
      have hlt : target < options.targetSnapshots.length := by omega
      have hempty : options.targetSnapshots[target] = [] := by
        simp only [htargets]
        rw [List.getElem_append_right (by omega), List.getElem_replicate]
      rw [loop, if_pos (by omega), access_bind hlt, hempty]
      simp only [List.length_nil, ne_eq, not_true_eq_false, if_false, pure_bind]
      exact ih (target + 1 + 0) (by omega) (by omega)
  exact hfrom (DEBUG_TRACE_TARGET_MAX - targetCount) targetCount (by omega) (le_refl _)

theorem planTargets_valid (profile : SnapshotProfile) :
    ∀ specs ∈ planTargets profile, ValidSnapshots specs := by
  intro specs hmem
  obtain ⟨target, htarget, rfl⟩ := List.mem_map.1 hmem
  cases target with
  | none => exact profile.trace_valid
  | some entries => exact profile.targets_valid entries htarget

theorem mem_targetArguments {argument : SnapshotArgument} {targets : List (List (List UInt8))}
    {first : Nat} : argument ∈ targetArguments first targets ↔
      ∃ i specs spec, targets[i]? = some specs ∧ spec ∈ specs ∧
        argument = .tsnap (first + i) spec := by
  induction targets generalizing first with
  | nil => simp [targetArguments]
  | cons specs targets ih =>
    rw [targetArguments, List.mem_append, ih]
    constructor
    · rintro (hown | ⟨i, other, spec, hi, hspec, rfl⟩)
      · obtain ⟨spec, hspec, rfl⟩ := List.mem_map.1 hown
        exact ⟨0, specs, spec, rfl, hspec, rfl⟩
      · exact ⟨i + 1, other, spec, hi, hspec, by rw [Nat.add_assoc, Nat.add_comm 1]⟩
    · rintro ⟨i, other, spec, hi, hspec, rfl⟩
      cases i with
      | zero =>
        obtain rfl := Option.some.inj hi
        exact .inl (List.mem_map_of_mem hspec)
      | succ i => exact .inr ⟨i, other, spec, hi, hspec, by rw [Nat.add_assoc, Nat.add_comm 1]⟩

/-- What the command sets: the options for every target and the recorded list for its own. -/
def startedOptions (profile : SnapshotProfile) (options : SnapshotOptions) : TraceOptions :=
  { TraceOptions.start with
    snapshots := options.specs.map specOf
    targetSnapshots := (planTargets profile).map (List.map specOf) ++
      List.replicate (DEBUG_TRACE_TARGET_MAX - profile.targets.length) [] }

section Plan

variable {head : Nat} {profile : SnapshotProfile} {options : SnapshotOptions}

theorem length_planTargets : (planTargets profile).length = profile.targets.length := by
  simp [planTargets]

theorem CommandFits.readable (h : CommandFits head profile options) :
    Readable options.specs ∧ ∀ specs ∈ planTargets profile, Readable specs := by
  refine ⟨readable_of_fits options.valid fun text hmem => ?_, fun specs hspecs => ?_⟩
  · exact h.2 (.snap text) (List.mem_append_left _ (List.mem_map_of_mem hmem))
  · refine readable_of_fits (planTargets_valid profile specs hspecs) fun text hmem => ?_
    obtain ⟨i, hi⟩ := List.mem_iff_getElem?.1 hspecs
    exact h.2 (.tsnap (0 + i) text) (List.mem_append_right _
      (mem_targetArguments.2 ⟨i, specs, text, hi, hmem, rfl⟩))

/-- A run of a plan of which the command fits starts. -/
theorem startSnapshots_of_fits (h : CommandFits head profile options) :
    startSnapshots head profile.targets.length (planArguments profile options) =
      some (startedOptions profile options) := by
  obtain ⟨hoptions, htargets⟩ := h.readable
  have hcount := profile.targets_le
  have hlength := @length_planTargets profile
  have hsnaps := addSnaps TraceOptions.start hoptions (by simpa [TraceOptions.start] using
    options.valid.1)
  have hplan := addTargets
    { TraceOptions.start with snapshots := TraceOptions.start.snapshots ++ options.specs.map specOf }
    (planTargets profile) [] (by simp [TraceOptions.start])
    (by simp only [List.length_nil]; omega) htargets
    fun specs hmem => (planTargets_valid profile specs hmem).1
  have hstarted : ({ TraceOptions.start with
      snapshots := TraceOptions.start.snapshots ++ options.specs.map specOf
      targetSnapshots := [] ++ (planTargets profile).map (List.map specOf) ++
        List.replicate (DEBUG_TRACE_TARGET_MAX -
          (([] : List (List DebugTraceSnapshotSpec)).length + (planTargets profile).length)) [] } :
      TraceOptions) = startedOptions profile options := by
    simp [startedOptions, TraceOptions.start, hlength]
  rw [hstarted] at hplan
  have hcheck := checkTargetSnapshots_ok (startedOptions profile options)
    ((planTargets profile).map (List.map specOf)) (by simp [hlength]) hcount rfl
  rw [List.length_nil] at hplan
  unfold startSnapshots
  rw [if_neg (not_le.2 h.1), planArguments, List.foldlM_append, hsnaps, pure_bind, hplan]
  simp only [pure_bind, hcheck]
  rfl

/-- An argument that is accepted is read. -/
theorem parse_of_snapshotOption {s s' : TraceOptions} {argument : SnapshotArgument}
    (htarget : ∀ target spec, argument = .tsnap target spec → target < DEBUG_TRACE_TARGET_MAX)
    (h : (snapshotOption s argument).run = some (.ok s')) :
    ∃ spec, debugTraceParseSnapshotSpec argument.spec = some spec := by
  refine Option.ne_none_iff_exists'.1 fun hparse => ?_
  cases argument with
  | snap text =>
    have hdrop : (SnapshotArgument.snap text).text.drop 5 = text := rfl
    rw [SnapshotArgument.spec] at hparse
    rw [snapshotOption, snapOption, hdrop, hparse] at h
    split_ifs at h <;> cases h
  | tsnap target text =>
    obtain ⟨digit, hdigit, -, -⟩ := target_digit (htarget target text rfl)
    have hdrop : (SnapshotArgument.tsnap target text).text.drop 6 = digit :: 0x3A :: text := by
      rw [SnapshotArgument.text, hdigit]
      rfl
    rw [SnapshotArgument.spec] at hparse
    rw [snapshotOption, tsnapOption, hdrop] at h
    cases text with
    | nil => cases h
    | cons b rest =>
      simp only [hparse] at h
      split_ifs at h
      · cases h
      · cases h
      · obtain ⟨own, -, hown⟩ := exists_ok_of_bind h
        split_ifs at hown <;> cases hown

/-- The arguments of the plan are for targets of the plan. -/
theorem target_lt_of_mem {argument : SnapshotArgument} (h : argument ∈ planArguments profile options)
    {target : Nat} {spec : List UInt8} (htsnap : argument = .tsnap target spec) :
    target < DEBUG_TRACE_TARGET_MAX := by
  subst htsnap
  rcases List.mem_append.1 h with hsnap | hown
  · obtain ⟨_, -, heq⟩ := List.mem_map.1 hsnap
    cases heq
  · obtain ⟨i, specs, _, hi, -, heq⟩ := mem_targetArguments.1 hown
    cases heq
    have hlt := (List.getElem?_eq_some_iff.1 hi).1
    have hcount := profile.targets_le
    rw [length_planTargets] at hlt
    omega

/-- A run that starts is one of a plan of which the command fits. -/
theorem fits_of_startSnapshots {started : TraceOptions}
    (h : startSnapshots head profile.targets.length (planArguments profile options) =
      some started) : CommandFits head profile options := by
  unfold startSnapshots at h
  split_ifs at h with hline
  refine ⟨not_le.1 hline, fun argument hmem => ?_⟩
  dsimp only at h
  split at h
  · rename_i parsed hrun
    obtain ⟨read, hread, -⟩ := exists_ok_of_bind hrun
    obtain ⟨before, after, hstep⟩ := exists_ok_of_foldlM hread argument hmem
    obtain ⟨spec, hparse⟩ := parse_of_snapshotOption (fun _ _ => target_lt_of_mem hmem) hstep
    exact offsetFits_of_parse hparse
  · cases h

/-- What a hit of the target captures: its recorded list, or the options if that is empty. -/
theorem eventSnapshots_started {index : Nat} {target : Option (List SnapshotEntry)}
    (htarget : profile.targets[index]? = some target) :
    eventSnapshots (startedOptions profile options) index =
      (if plannedSnapshots profile target = [] then options.specs
        else (plannedSnapshots profile target).map SnapshotEntry.spec).map specOf := by
  have hlt := (List.getElem?_eq_some_iff.1 htarget).1
  have hown : (startedOptions profile options).targetSnapshots.getD index [] =
      ((plannedSnapshots profile target).map SnapshotEntry.spec).map specOf := by
    rw [startedOptions, List.getD_eq_getElem?_getD, List.getElem?_append_left (by
      rw [List.length_map, length_planTargets]
      exact hlt), List.getElem?_map, planTargets, List.getElem?_map, htarget]
    rfl
  unfold eventSnapshots
  rw [hown]
  by_cases hempty : plannedSnapshots profile target = []
  · rw [if_pos hempty, hempty]
    rfl
  · have hlength : (((plannedSnapshots profile target).map SnapshotEntry.spec).map specOf).length ≠ 0 := by
      simpa using hempty
    rw [if_pos hlength, if_neg hempty]

/-- Nothing is captured but what the text says. -/
theorem forall₂_specOf {specs : List (List UInt8)} (hvalid : ValidSnapshots specs)
    (hfits : ∀ text ∈ specs, OffsetFits text) :
    List.Forall₂ SpecText specs (specs.map specOf) := by
  rw [List.forall₂_map_right_iff, List.forall₂_same]
  intro text hmem
  obtain ⟨spec, htext, hparse⟩ := exists_spec (hvalid.2 text hmem) (hfits text hmem)
  rwa [specOf, hparse, Option.getD_some]

/-- The target's list is not empty, or nothing asks for another one. -/
def Uncontested (profile : SnapshotProfile) (options : SnapshotOptions)
    (target : Option (List SnapshotEntry)) : Prop :=
  options.specs = [] ∨ (∃ entry own, target = some (entry :: own)) ∨
    (target = none ∧ profile.traceSnapshots.map SnapshotEntry.spec = options.specs)

theorem capturesEffective_of_uncontested {index : Nat} {target : Option (List SnapshotEntry)}
    (htarget : profile.targets[index]? = some target) (hfits : CommandFits head profile options)
    (h : Uncontested profile options target) :
    CapturesEffective head profile options index target := by
  have hplanned : ∀ text ∈ (plannedSnapshots profile target).map SnapshotEntry.spec,
      OffsetFits text := by
    intro text hmem
    refine hfits.2 (.tsnap (0 + index) text) (List.mem_append_right _
      (mem_targetArguments.2 ⟨index, _, text, ?_, hmem, rfl⟩))
    rw [planTargets, List.getElem?_map, htarget]
    rfl
  have hvalid : ValidSnapshots ((plannedSnapshots profile target).map SnapshotEntry.spec) :=
    planTargets_valid profile _ (List.mem_map_of_mem (List.mem_of_getElem? htarget))
  have heffective : effectiveSnapshots profile options target =
      (plannedSnapshots profile target).map SnapshotEntry.spec := by
    cases target with
    | some own => rfl
    | none =>
      rcases h with hnone | ⟨_, _, hown⟩ | ⟨-, hsame⟩
      · simp [effectiveSnapshots, plannedSnapshots, hnone]
      · cases hown
      · simp only [effectiveSnapshots, plannedSnapshots, Option.getD_none, ← hsame, ite_self]
  have hcaptured : (if plannedSnapshots profile target = [] then options.specs
      else (plannedSnapshots profile target).map SnapshotEntry.spec) =
      (plannedSnapshots profile target).map SnapshotEntry.spec := by
    by_cases hempty : plannedSnapshots profile target = []
    · rw [if_pos hempty, hempty, List.map_nil]
      rcases h with hnone | ⟨_, _, rfl⟩ | ⟨rfl, hsame⟩
      · exact hnone
      · cases hempty
      · rw [← hsame, ← List.map_nil, ← hempty]
        rfl
    · rw [if_neg hempty]
  refine ⟨heffective.symm, startedOptions profile options, startSnapshots_of_fits hfits, ?_⟩
  rw [eventSnapshots_started htarget, hcaptured, heffective]
  exact forall₂_specOf hvalid hplanned

theorem uncontested_of_capturesEffective {index : Nat} {target : Option (List SnapshotEntry)}
    (htarget : profile.targets[index]? = some target)
    (h : CapturesEffective head profile options index target) :
    Uncontested profile options target := by
  obtain ⟨started, hstarted, hcaptured⟩ := h.captured
  have heq := startSnapshots_of_fits (fits_of_startSnapshots hstarted)
  rw [hstarted, Option.some.injEq] at heq
  subst heq
  rw [eventSnapshots_started htarget] at hcaptured
  by_cases hnone : options.specs = []
  · exact .inl hnone
  have hrecorded := h.recorded
  cases target with
  | none =>
    refine .inr (.inr ⟨rfl, ?_⟩)
    rwa [effectiveSnapshots, if_pos hnone] at hrecorded
  | some own =>
    cases own with
    | cons entry own => exact .inr (.inl ⟨entry, own, rfl⟩)
    | nil =>
      -- An empty list of its own is not sent, and the options take its place.
      rw [if_pos (by rfl)] at hcaptured
      have hlength := hcaptured.length_eq
      rw [List.length_map] at hlength
      exact absurd (List.length_eq_zero_iff.1 hlength.symm) hnone

end Plan

namespace ThreeTargets

def x0 : List UInt8 := wordBytes "x0:8"
def x1 : List UInt8 := wordBytes "x1+0x10:8"
def sp : List UInt8 := wordBytes "sp-8:16"

/-- A list of its own, none, and an empty one; the profile gives the second the list of `trace`. -/
def profile : SnapshotProfile where
  targets := [some [⟨x1, some "object", none⟩, ⟨sp, none, some "utf8"⟩], none, some []]
  traceSnapshots := [⟨x0, none, none⟩]
  targets_le := by decide
  targets_valid := by
    intro entries hmem
    rcases (by simpa using hmem : entries = _ ∨ entries = []) with rfl | rfl
    · decide
    · decide
  trace_valid := by decide

def noOption : SnapshotOptions where
  specs := []
  valid := by decide

def x0Option : SnapshotOptions where
  specs := [x0]
  valid := by decide

def x1Option : SnapshotOptions where
  specs := [x1]
  valid := by decide

end ThreeTargets

end SysAgent
