import SysAgent.Console.KeyReports

set_option autoImplicit false

/-! # Typing text (`type_text` in `sysagent.py`)

A text becomes runs of key codes, each run one line of the console, and the reports of the lines are
read on a US keyboard. What `type_text` does to `keySleepTime` sends no key and is left out. -/

namespace SysAgent

/-! ## The tables -/

def KEY_SHIFT : Nat := 0xE1

def KEY_UNSHIFTED : List (Char × Nat) :=
  (List.range 26).map (fun i => (Char.ofNat ('a'.toNat + i), 0x04 + i)) ++
    (List.range 9).map (fun i => (Char.ofNat ('1'.toNat + i), 0x1E + i)) ++
    [('0', 0x27)] ++
    [(' ', 0x2C), ('-', 0x2D), ('=', 0x2E), ('[', 0x2F), (']', 0x30), ('\\', 0x31),
      (';', 0x33), ('\'', 0x34), ('`', 0x35), (',', 0x36), ('.', 0x37), ('/', 0x38)]

def KEY_SHIFTED : List (Char × Nat) :=
  (List.range 26).map (fun i => (Char.ofNat ('A'.toNat + i), 0x04 + i)) ++
    [('!', 0x1E), ('@', 0x1F), ('#', 0x20), ('$', 0x21), ('%', 0x22), ('^', 0x23), ('&', 0x24),
      ('*', 0x25), ('(', 0x26), (')', 0x27), ('_', 0x2D), ('+', 0x2E), ('\x7b', 0x2F),
      ('\x7d', 0x30), ('|', 0x31), (':', 0x33), ('"', 0x34), ('~', 0x35), ('<', 0x36),
      ('>', 0x37), ('?', 0x38)]

/-! ## Runs -/

inductive RunKind
  | keys
  | shift

structure TextRun where
  kind : RunKind
  codes : List Nat

/-- A character of `text_runs`; the error names the one that cannot be typed. -/
def addChar (runs : List TextRun) (char : Char) : Except Char (List TextRun) :=
  match KEY_UNSHIFTED.lookup char with
  | some code =>
    match runs.getLast? with
    | some ⟨.keys, codes⟩ => .ok (runs.dropLast ++ [⟨.keys, codes ++ [code]⟩])
    | _ => .ok (runs ++ [⟨.keys, [code]⟩])
  | none =>
    match KEY_SHIFTED.lookup char with
    | some code => .ok (runs ++ [⟨.shift, [code]⟩])
    | none => .error char

def textRuns (value : String) : Except Char (List TextRun) :=
  value.toList.foldlM addChar []

/-! ## Lines -/

/-- `str` of a number. -/
def decBytes (n : Nat) : List UInt8 := (dec n).map fun c => UInt8.ofNat c.toNat

/-- A command and its codes as `_bare_command` sends them. -/
def keyLine (name : String) (codes : List Nat) : List UInt8 :=
  wordBytes name ++ [0x20] ++ [0x20].intercalate (codes.map decBytes) ++ [0x0D, 0x0A]

def TextRun.line (run : TextRun) : List UInt8 :=
  match run.kind with
  | .shift => keyLine "keyMulti" (KEY_SHIFT :: run.codes)
  | .keys => keyLine "key" run.codes

/-- `type_text`: the key commands that are sent, and the error that is raised. -/
def typeText (value : String) : List (List UInt8) × Option Char :=
  match textRuns value with
  | .ok runs => (runs.map TextRun.line, none)
  | .error char => ([], some char)

/-- The text on the screen, when the console has finished with each line before the next. -/
def typedText (value : String) : List Char :=
  reportsText emptyKeyState ((typeText value).1.flatMap sentReports)

/-! ## What is typed -/

def PrintableChar (char : Char) : Prop := 0x20 ≤ char.toNat ∧ char.toNat ≤ 0x7E

def Printable (value : String) : Prop := ∀ char ∈ value.toList, PrintableChar char

/-- Every line is shorter than the console's buffer. -/
def LinesFit (value : String) : Prop := ∀ line ∈ (typeText value).1, line.length < MAX_LINE_LENGTH

/-- A text is typed as it is, and one with another character is refused. -/
structure TypesText (value : String) : Prop where
  typed : Printable value → LinesFit value →
    (typeText value).2 = none ∧ typedText value = value.toList
  refused : ¬ Printable value → (typeText value).1 = [] ∧ ∃ char, (typeText value).2 = some char

/-- What the console reads of a number of a run. -/
structure CodeReads (code : Nat) (key : UInt8) : Prop where
  value : keyByte (decBytes code) = key
  nonempty : decBytes code ≠ []
  noSeparator : ∀ b ∈ decBytes code, isSeparator b = false

instance (shift : Bool) (code : UInt8) (char : Char) : Decidable (Types shift code char) :=
  decidable_of_iff (4 ≤ code ∧ code.toNat < leftShift ∧ usLayout shift code.toNat = some char)
    ⟨fun h => ⟨h.1, h.2.1, h.2.2⟩, fun h => ⟨h.lower, h.upper, h.typed⟩⟩

instance (code : Nat) (key : UInt8) : Decidable (CodeReads code key) :=
  decidable_of_iff (keyByte (decBytes code) = key ∧ decBytes code ≠ [] ∧
      (decBytes code).all (fun b => !isSeparator b) = true)
    ⟨fun h => ⟨h.1, h.2.1, by simpa using h.2.2⟩,
      fun h => ⟨h.value, h.nonempty, by simpa using h.noSeparator⟩⟩

/-! ## The tables are the US keyboard -/

theorem unshifted_types : ∀ entry ∈ KEY_UNSHIFTED,
    Types false (UInt8.ofNat entry.2) entry.1 ∧ CodeReads entry.2 (UInt8.ofNat entry.2) := by
  decide

theorem shifted_types : ∀ entry ∈ KEY_SHIFTED,
    Types true (UInt8.ofNat entry.2) entry.1 ∧ CodeReads entry.2 (UInt8.ofNat entry.2) := by
  decide

theorem shift_reads : CodeReads KEY_SHIFT 0xE1 := by
  decide

theorem table_printable : ∀ entry ∈ KEY_UNSHIFTED ++ KEY_SHIFTED, PrintableChar entry.1 := by
  unfold PrintableChar
  decide

theorem printable_table : ∀ n < 0x7F, 0x20 ≤ n →
    (KEY_UNSHIFTED.lookup (Char.ofNat n)).isSome ∨ (KEY_SHIFTED.lookup (Char.ofNat n)).isSome := by
  decide

theorem mem_of_lookup {char : Char} {code : Nat} {table : List (Char × Nat)}
    (h : table.lookup char = some code) : (char, code) ∈ table := by
  obtain ⟨before, after, rfl, -⟩ := List.lookup_eq_some_iff.mp h
  simp

theorem printable_iff (char : Char) : PrintableChar char ↔
    (KEY_UNSHIFTED.lookup char).isSome ∨ (KEY_SHIFTED.lookup char).isSome := by
  constructor
  · rintro ⟨hlower, hupper⟩
    have h := printable_table char.toNat (by omega) hlower
    rwa [Char.ofNat_toNat] at h
  · have hmem : ∀ table : List (Char × Nat), (table.lookup char).isSome →
        ∃ code, (char, code) ∈ table := by
      intro table hsome
      obtain ⟨code, hcode⟩ := Option.isSome_iff_exists.mp hsome
      exact ⟨code, mem_of_lookup hcode⟩
    rintro (h | h)
    · obtain ⟨code, hcode⟩ := hmem _ h
      exact table_printable _ (List.mem_append_left _ hcode)
    · obtain ⟨code, hcode⟩ := hmem _ h
      exact table_printable _ (List.mem_append_right _ hcode)

/-! ## A line is parsed back -/

theorem parseArgs_append {separator : UInt8} (hseparator : isSeparator separator = true)
    (front back : List UInt8) :
    parseArgs (front ++ separator :: back) = parseArgs front ++ parseArgs back := by
  unfold parseArgs
  rw [List.splitOnP_append_cons front back hseparator, List.filter_append]

theorem parseArgs_token {token : List UInt8} (hne : token ≠ [])
    (hnone : ∀ b ∈ token, isSeparator b = false) : parseArgs token = [token] := by
  unfold parseArgs
  rw [List.splitOnP_eq_singleton hnone, List.filter_cons_of_pos (by simpa using hne),
    List.filter_nil]

theorem intercalate_cons_cons (word next : List UInt8) (words : List (List UInt8)) :
    [0x20].intercalate (word :: next :: words) =
      word ++ 0x20 :: [0x20].intercalate (next :: words) := by
  simp [List.intercalate]

/-- Words with a blank between them. -/
theorem parseArgs_words {words : List (List UInt8)} (hne : ∀ word ∈ words, word ≠ [])
    (hnone : ∀ word ∈ words, ∀ b ∈ word, isSeparator b = false) :
    parseArgs ([0x20].intercalate words) = words := by
  induction words with
  | nil => rfl
  | cons word words ih =>
    have hword := parseArgs_token (hne word (by simp)) (hnone word (by simp))
    cases words with
    | nil => simpa using hword
    | cons next words =>
      have hrest := ih (fun other hmem => hne other (by simp [hmem]))
        fun other hmem => hnone other (by simp [hmem])
      rw [intercalate_cons_cons, parseArgs_append (by decide), hword, hrest]
      rfl

/-- The handlers get the command and its numbers. -/
theorem parseArgs_keyLine {name : String} {codes : List Nat} (hname : wordBytes name ≠ [])
    (hnone : ∀ b ∈ wordBytes name, isSeparator b = false)
    (hcodes : ∀ code ∈ codes, ∃ key, CodeReads code key) :
    parseArgs (wordBytes name ++ [0x20] ++ [0x20].intercalate (codes.map decBytes) ++ [0x0D]) =
      wordBytes name :: codes.map decBytes := by
  have hwords : ∀ word ∈ codes.map decBytes, word ≠ [] ∧ ∀ b ∈ word, isSeparator b = false := by
    intro word hword
    obtain ⟨code, hcode, rfl⟩ := List.mem_map.mp hword
    obtain ⟨key, hreads⟩ := hcodes code hcode
    exact ⟨hreads.nonempty, hreads.noSeparator⟩
  rw [parseArgs_append (by decide), List.append_assoc, List.singleton_append,
    parseArgs_append (by decide), parseArgs_token hname hnone,
    parseArgs_words (fun word h => (hwords word h).1) fun word h => (hwords word h).2]
  have hnil : parseArgs [] = [] := rfl
  rw [hnil, List.append_nil, List.singleton_append]

theorem recvLine_eq {line text : List UInt8} (hnone : 0x0A ∉ text)
    (hlength : line.length + text.length + 1 < MAX_LINE_LENGTH) :
    recvLine line (text ++ [0x0A]) = .line (line ++ text) := by
  induction text generalizing line with
  | nil =>
    have hshort : ¬ MAX_LINE_LENGTH ≤ line.length + 1 := by
      simp only [List.length_nil] at hlength
      omega
    rw [List.nil_append, recvLine, if_neg hshort, if_pos rfl, List.append_nil]
  | cons b text ih =>
    obtain ⟨hb, hnone⟩ : ¬ 0x0A = b ∧ 0x0A ∉ text := by simpa using hnone
    rw [List.length_cons] at hlength
    have hshort : ¬ MAX_LINE_LENGTH ≤ line.length + 1 := by omega
    rw [List.cons_append, recvLine, if_neg hshort, if_neg (Ne.symm hb), ih hnone, List.append_assoc,
      List.singleton_append]
    rw [List.length_append, List.length_singleton]
    omega

theorem mem_intercalate {words : List (List UInt8)} {b : UInt8}
    (h : b ∈ [0x20].intercalate words) : b = 0x20 ∨ ∃ word ∈ words, b ∈ word := by
  induction words with
  | nil => exact absurd h List.not_mem_nil
  | cons word words ih =>
    cases words with
    | nil => exact .inr ⟨word, by simp, by simpa using h⟩
    | cons next words =>
      rw [intercalate_cons_cons] at h
      rcases List.mem_append.mp h with hb | hb
      · exact .inr ⟨word, by simp, hb⟩
      rcases List.mem_cons.mp hb with hb | hb
      · exact .inl hb
      rcases ih hb with hb | ⟨other, hother, hb⟩
      · exact .inl hb
      · exact .inr ⟨other, List.mem_cons_of_mem _ hother, hb⟩

/-- The states of a line that fits. -/
theorem sentReports_keyLine (name : String) {codes : List Nat} (hname : wordBytes name ≠ [])
    (hnone : ∀ b ∈ wordBytes name, isSeparator b = false)
    (hcodes : ∀ code ∈ codes, ∃ key, CodeReads code key)
    (hfits : (keyLine name codes).length < MAX_LINE_LENGTH) :
    ∃ line, parseArgs line = wordBytes name :: codes.map decBytes ∧
      sentReports (keyLine name codes) = ((lineStates line).map keyReports).getD [] := by
  refine ⟨_, parseArgs_keyLine hname hnone hcodes, ?_⟩
  have hline : keyLine name codes = (wordBytes name ++ [0x20] ++
      [0x20].intercalate (codes.map decBytes) ++ [0x0D]) ++ [0x0A] := by
    simp [keyLine]
  have hfeed : 0x0A ∉ wordBytes name ++ [0x20] ++
      [0x20].intercalate (codes.map decBytes) ++ [0x0D] := by
    intro hmem
    simp only [List.mem_append, List.mem_singleton] at hmem
    rcases hmem with ((hmem | hmem) | hmem) | hmem
    · exact absurd (hnone _ hmem) (by decide)
    · exact absurd hmem (by decide)
    · rcases mem_intercalate hmem with hblank | ⟨word, hword, hb⟩
      · exact absurd hblank (by decide)
      · obtain ⟨code, hcode, rfl⟩ := List.mem_map.mp hword
        obtain ⟨key, hreads⟩ := hcodes code hcode
        exact absurd (hreads.noSeparator _ hb) (by decide)
    · exact absurd hmem (by decide)
  rw [hline, List.length_append, List.length_singleton] at hfits
  rw [hline, sentReports, recvLine_eq hfeed (by simpa using hfits), List.nil_append]

/-! ## The runs of a text -/

/-- What a run types. -/
inductive RunTypes : TextRun → List Char → Prop
  | keys {codes : List Nat} {chars : List Char} (nonempty : codes ≠ [])
      (h : List.Forall₂ (fun code char => KEY_UNSHIFTED.lookup char = some code) codes chars) :
      RunTypes ⟨.keys, codes⟩ chars
  | shift {code : Nat} {char : Char} (h : KEY_SHIFTED.lookup char = some code) :
      RunTypes ⟨.shift, [code]⟩ [char]

inductive Spells : List TextRun → List Char → Prop
  | nil : Spells [] []
  | concat {runs : List TextRun} {run : TextRun} {text chars : List Char} (h : Spells runs text)
      (hrun : RunTypes run chars) : Spells (runs ++ [run]) (text ++ chars)

theorem addChar_spells {runs : List TextRun} {text : List Char} (h : Spells runs text)
    {char : Char} (hchar : PrintableChar char) :
    ∃ runs', addChar runs char = .ok runs' ∧ Spells runs' (text ++ [char]) := by
  unfold addChar
  cases hunshifted : KEY_UNSHIFTED.lookup char with
  | some code =>
    have hnew : RunTypes ⟨.keys, [code]⟩ [char] :=
      .keys (List.cons_ne_nil _ _) (.cons hunshifted .nil)
    cases h with
    | nil => exact ⟨_, rfl, .concat .nil hnew⟩
    | @concat runs run text chars h hrun =>
      dsimp only
      rw [List.getLast?_concat, List.dropLast_concat]
      cases hrun with
      | keys hne hcodes =>
        refine ⟨_, rfl, ?_⟩
        rw [List.append_assoc]
        refine .concat h (.keys (by simp) ?_)
        exact List.rel_append hcodes (.cons hunshifted .nil)
      | shift hshifted =>
        exact ⟨_, rfl, .concat (.concat h (.shift hshifted)) hnew⟩
  | none =>
    have hshifted := ((printable_iff char).mp hchar).resolve_left (by simp [hunshifted])
    obtain ⟨code, hcode⟩ := Option.isSome_iff_exists.mp hshifted
    simp only [hcode]
    exact ⟨_, rfl, .concat h (.shift hcode)⟩

theorem addChars_spells {runs : List TextRun} {text chars : List Char} (h : Spells runs text)
    (hchars : ∀ char ∈ chars, PrintableChar char) :
    ∃ runs', chars.foldlM addChar runs = .ok runs' ∧ Spells runs' (text ++ chars) := by
  induction chars generalizing runs text with
  | nil => exact ⟨runs, rfl, by simpa using h⟩
  | cons char chars ih =>
    obtain ⟨next, hnext, hspells⟩ := addChar_spells h (hchars char (by simp))
    obtain ⟨runs', hruns, hspells⟩ := ih hspells fun other hmem => hchars other (by simp [hmem])
    refine ⟨runs', ?_, by simpa using hspells⟩
    rw [List.foldlM_cons, hnext]
    exact hruns

/-- One character outside of the tables refuses the text. -/
theorem addChars_error (runs : List TextRun) {chars : List Char}
    (hchars : ¬ ∀ char ∈ chars, PrintableChar char) :
    ∃ char, chars.foldlM addChar runs = .error char := by
  induction chars generalizing runs with
  | nil => exact absurd (by simp) hchars
  | cons char chars ih =>
    rw [List.foldlM_cons]
    cases hadd : addChar runs char with
    | error refused => exact ⟨refused, rfl⟩
    | ok next =>
      refine ih next fun hall => hchars ?_
      rintro other hmem
      rcases List.mem_cons.mp hmem with rfl | hmem
      · rw [printable_iff]
        by_contra hnone
        rw [not_or, Option.not_isSome_iff_eq_none, Option.not_isSome_iff_eq_none] at hnone
        simp [addChar, hnone.1, hnone.2] at hadd
      · exact hall other hmem

/-! ## The reports of a run -/

theorem wordBytes_key : wordBytes "key" = [0x6B, 0x65, 0x79] := by
  decide

theorem wordBytes_keyMulti :
    wordBytes "keyMulti" = [0x6B, 0x65, 0x79, 0x4D, 0x75, 0x6C, 0x74, 0x69] := by
  decide

theorem Types.not_down {shift : Bool} {code : UInt8} {char : Char} (h : Types shift code char)
    {previous : KeyState} (hidle : Idle previous) : isDown previous code.toNat = false := by
  by_contra hdown
  have hcode := hidle code.toNat code.toNat_lt (by simpa using hdown)
  have hupper : code.toNat < 225 := h.upper
  unfold dummyKey at hcode
  omega

theorem keyState_eq {code : Nat} {char : Char} (htypes : Types false (UInt8.ofNat code) char)
    (hreads : CodeReads code (UInt8.ofNat code)) :
    keyState (decBytes code) = pressedKeyState (UInt8.ofNat code) numlock := by
  unfold keyState
  rw [hreads.value]
  exact if_neg (by rw [htypes.inRange]; exact Bool.false_ne_true)

/-- A run of plain keys. -/
theorem lineStates_keys {line : List UInt8} {codes : List Nat} (hne : codes ≠ [])
    (hline : parseArgs line = wordBytes "key" :: codes.map decBytes) :
    lineStates line = some (codes.map fun code => keyState (decBytes code)) := by
  have hlength : ¬ (wordBytes "key" :: codes.map decBytes).length < 2 := by
    have hpos := List.length_pos_iff.mpr hne
    rw [List.length_cons, List.length_map]
    omega
  unfold lineStates
  rw [hline]
  dsimp only
  rw [List.head?_cons, if_pos rfl, keyStates, if_neg hlength, List.tail_cons, List.map_map]
  rfl

/-- A key with shift. -/
theorem lineStates_shift {line : List UInt8} {code : Nat} {char : Char}
    (htypes : Types true (UInt8.ofNat code) char) (hreads : CodeReads code (UInt8.ofNat code))
    (hline : parseArgs line = wordBytes "keyMulti" :: [KEY_SHIFT, code].map decBytes) :
    lineStates line = some [(emptyKeyState.press 0xE1).press (UInt8.ofNat code)] := by
  have hother : ¬ some (wordBytes "keyMulti") = some (wordBytes "key") := by
    rw [wordBytes_key, wordBytes_keyMulti]
    decide
  unfold lineStates
  rw [hline]
  dsimp only
  rw [List.head?_cons, if_neg hother, if_pos rfl, keyMultiStates, if_neg (by simp)]
  simp only [List.map_cons, List.map_nil, List.tail_cons, List.foldl_cons, List.foldl_nil, addKey,
    shift_reads.value, hreads.value, htypes.inRange]
  rfl

section Keys

variable {codes : List Nat} {chars : List Char}
variable (h : List.Forall₂ (fun code char => KEY_UNSHIFTED.lookup char = some code) codes chars)
include h

theorem keys_types : List.Forall₂ (Types false) (codes.map UInt8.ofNat) chars :=
  List.forall₂_map_left_iff.mpr <| h.imp fun _ _ hlookup =>
    (unshifted_types _ (mem_of_lookup hlookup)).1

theorem keys_states : (∀ code ∈ codes, ∃ key, CodeReads code key) ∧
    codes.map (fun code => keyState (decBytes code)) =
      (codes.map UInt8.ofNat).map fun code => pressedKeyState code numlock := by
  induction h with
  | nil => exact ⟨fun _ hmem => absurd hmem List.not_mem_nil, rfl⟩
  | cons hlookup _ ih =>
    obtain ⟨htypes, hreads⟩ := unshifted_types _ (mem_of_lookup hlookup)
    obtain ⟨hall, hstates⟩ := ih
    rw [List.map_cons, List.map_cons, List.map_cons, hstates, keyState_eq htypes hreads]
    refine ⟨fun code hmem => ?_, rfl⟩
    rcases List.mem_cons.mp hmem with rfl | hmem
    · exact ⟨_, hreads⟩
    · exact hall code hmem

end Keys

/-- The reports of a run type it, after a report with nothing down. -/
theorem RunTypes.reports {run : TextRun} {chars : List Char} (h : RunTypes run chars)
    (hfits : run.line.length < MAX_LINE_LENGTH) {previous : KeyState} (hidle : Idle previous) :
    reportsText previous (sentReports run.line) = chars ∧
      ∀ earlier, (sentReports run.line).getLastD earlier = dummyKeyboardState := by
  cases h with
  | @keys codes _ hne hcodes =>
    have htypes := keys_types hcodes
    obtain ⟨hreads, hkeys⟩ := keys_states hcodes
    obtain ⟨line, hline, hreports⟩ :=
      sentReports_keyLine "key" (by rw [wordBytes_key]; decide)
        (by rw [wordBytes_key]; decide +kernel) hreads hfits
    rw [TextRun.line, hreports, lineStates_keys hne hline, hkeys]
    refine ⟨reportsText_keys htypes ?_, fun earlier => getLastD_keyReports earlier (by simpa)⟩
    intro key hkey
    cases hcodes with
    | nil => exact absurd rfl hne
    | cons hlookup _ =>
      obtain rfl := Option.some.inj hkey
      exact (unshifted_types _ (mem_of_lookup hlookup)).1.not_down hidle
  | @shift code char hcode =>
    obtain ⟨htypes, hreads⟩ := shifted_types (char, code) (mem_of_lookup hcode)
    have hall : ∀ code' ∈ [KEY_SHIFT, code], ∃ key, CodeReads code' key := by
      intro code' hmem
      rcases List.mem_cons.mp hmem with rfl | hmem
      · exact ⟨_, shift_reads⟩
      · exact ⟨_, List.mem_singleton.mp hmem ▸ hreads⟩
    obtain ⟨line, hline, hreports⟩ :=
      sentReports_keyLine "keyMulti" (by rw [wordBytes_keyMulti]; decide)
        (by rw [wordBytes_keyMulti]; decide +kernel) hall hfits
    rw [TextRun.line, hreports, lineStates_shift htypes hreads hline]
    exact ⟨reportsText_shifted htypes (htypes.not_down hidle),
      fun earlier => getLastD_keyReports earlier (List.cons_ne_nil _ _)⟩

theorem getLastD_append {α : Type} (front back : List α) (a : α) :
    (front ++ back).getLastD a = back.getLastD (front.getLastD a) := by
  induction front generalizing a with
  | nil => rfl
  | cons b front ih => rw [List.cons_append, List.getLastD_cons, List.getLastD_cons, ih]

/-- Each run is read after the dummy of the one before it. -/
theorem Spells.reports {runs : List TextRun} {text : List Char} (h : Spells runs text)
    (hfits : ∀ run ∈ runs, run.line.length < MAX_LINE_LENGTH) :
    reportsText emptyKeyState ((runs.map TextRun.line).flatMap sentReports) = text ∧
      Idle (((runs.map TextRun.line).flatMap sentReports).getLastD emptyKeyState) := by
  induction h with
  | nil => exact ⟨rfl, idle_empty⟩
  | @concat runs run text chars h hrun ih =>
    obtain ⟨htext, hidle⟩ := ih fun other hmem => hfits other (by simp [hmem])
    obtain ⟨hchars, hlast⟩ := hrun.reports (hfits run (by simp)) hidle
    rw [List.map_append, List.flatMap_append, List.map_singleton, List.flatMap_singleton,
      reportsText_append, htext, hchars]
    refine ⟨rfl, ?_⟩
    rw [getLastD_append, hlast]
    exact idle_dummy

theorem typed_text_is_text (value : String) : TypesText value := by
  constructor
  · intro hprintable hfits
    obtain ⟨runs, hruns, hspells⟩ := addChars_spells .nil hprintable
    have hsent : typeText value = (runs.map TextRun.line, none) := by
      unfold typeText textRuns
      rw [hruns]
    unfold LinesFit at hfits
    rw [hsent] at hfits
    unfold typedText
    rw [hsent]
    refine ⟨rfl, (hspells.reports fun run hrun => hfits _ (List.mem_map_of_mem hrun)).1⟩
  · intro hrefused
    obtain ⟨char, hchar⟩ := addChars_error [] hrefused
    have hsent : typeText value = ([], some char) := by
      unfold typeText textRuns
      rw [hchar]
    rw [hsent]
    exact ⟨rfl, char, rfl⟩

/-! ## A line that is too long -/

/-- A text is typed as it is, or refused. -/
structure TypesOrRefuses (value : String) : Prop where
  typed : Printable value → LinesFit value →
    (typeText value).2 = none ∧ typedText value = value.toList
  refused : ¬ (Printable value ∧ LinesFit value) →
    (typeText value).1 = [] ∧ ∃ char, (typeText value).2 = some char

theorem textRuns_replicate (n : Nat) : (List.replicate (n + 1) 'a').foldlM addChar [] =
    .ok [⟨.keys, List.replicate (n + 1) 4⟩] := by
  have hlookup : KEY_UNSHIFTED.lookup 'a' = some 4 := by decide
  have hfirst : addChar [] 'a' = .ok [⟨.keys, [4]⟩] := by
    simp only [addChar, hlookup]
    rfl
  have hnext : ∀ codes, addChar [⟨.keys, codes⟩] 'a' = .ok [⟨.keys, codes ++ [4]⟩] := by
    intro codes
    simp only [addChar, hlookup]
    rfl
  induction n with
  | zero =>
    rw [Nat.zero_add, List.replicate_one, List.foldlM_cons, hfirst]
    rfl
  | succ n ih =>
    have hcodes : List.replicate (n + 1 + 1) 4 = List.replicate (n + 1) 4 ++ [4] :=
      List.replicate_succ'
    rw [List.replicate_succ', List.foldlM_append, ih, hcodes, ← hnext]
    exact bind_pure (addChar [⟨.keys, List.replicate (n + 1) 4⟩] 'a')

theorem length_blanks (n : Nat) :
    ([0x20].intercalate ((List.replicate (n + 1) 4).map decBytes)).length = 2 * n + 1 := by
  have hdec : decBytes 4 = [0x34] := by decide
  induction n with
  | zero => simp [List.intercalate, hdec]
  | succ n ih =>
    rw [List.replicate_succ, List.map_cons] at ih
    rw [List.replicate_succ, List.replicate_succ, List.map_cons, List.map_cons,
      intercalate_cons_cons, List.length_append, List.length_cons, ih, hdec]
    simp only [List.length_singleton]
    omega

/-- The client counts no bytes: a run of letters is sent as one line of any length. -/
theorem not_typesOrRefuses_replicate {n : Nat} (hlong : MAX_LINE_LENGTH ≤ 2 * n + 7) :
    ¬ TypesOrRefuses (String.ofList (List.replicate (n + 1) 'a')) := by
  intro h
  have hruns : textRuns (String.ofList (List.replicate (n + 1) 'a')) =
      .ok [⟨.keys, List.replicate (n + 1) 4⟩] := by
    rw [textRuns, String.toList_ofList]
    exact textRuns_replicate n
  have hsent : (typeText (String.ofList (List.replicate (n + 1) 'a'))).1 =
      [keyLine "key" (List.replicate (n + 1) 4)] := by
    rw [typeText, hruns]
    rfl
  have hnone := h.refused fun ⟨_, hfits⟩ => ?_
  · rw [hsent] at hnone
    exact List.cons_ne_nil _ _ hnone.1
  · have hline := hfits _ (by rw [hsent]; exact List.mem_singleton_self _)
    have hblanks := length_blanks n
    simp only [keyLine, wordBytes_key, List.length_append, hblanks, List.length_cons,
      List.length_nil] at hline
    omega

theorem long_text_is_sent : ¬ TypesOrRefuses (String.ofList (List.replicate 11006 'a')) :=
  @not_typesOrRefuses_replicate 11005 (by decide)

end SysAgent
