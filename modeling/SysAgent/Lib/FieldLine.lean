import Mathlib.Data.List.Infix

set_option autoImplicit false

/-! # Lines of fields

A line is a status word followed by fields `name=value`, separated by blanks. `parse` splits it into
words and each word at its first `=`; it refuses a word without `=` and a name it has seen. `parse_render`
is the round trip for names and values without blanks, `parse_eq_none` the converse for a word
without `=`. -/

namespace FieldLine

abbrev Field := List Char × List Char

/-- ASCII white space. -/
def isBlank (c : Char) : Bool :=
  c = ' ' || (0x09 ≤ c.toNat && c.toNat ≤ 0x0D) || (0x1C ≤ c.toNat && c.toNat ≤ 0x1F)

def words (text : List Char) : List (List Char) :=
  (text.splitOnP isBlank).filter fun word => word ≠ []

def token (field : Field) : List Char := field.1 ++ '=' :: field.2

def render (status : List Char) (fields : List Field) : List Char :=
  status ++ (fields.flatMap fun field => ' ' :: token field) ++ ['\n']

/-- Add the field of one word; `envelope` is a name that fields cannot have. -/
def addField (envelope : List Char) (fields : List Field) (word : List Char) :
    Option (List Field) :=
  if '=' ∉ word then none
  else
    let key := word.takeWhile (· ≠ '=')
    let value := (word.dropWhile (· ≠ '=')).drop 1
    if key = [] ∨ key = envelope ∨ key ∈ fields.map Prod.fst then none
    else some (fields ++ [(key, value)])

def parse (statuses : List (List Char)) (envelope : List Char) (text : List Char) :
    Option (List Char × List Field) :=
  match words text with
  | [] => none
  | status :: parts =>
    if status ∉ statuses then none
    else (parts.foldlM (addField envelope) []).map fun fields => (status, fields)

/-- A name that `parse` reads back. -/
def GoodName (envelope name : List Char) : Prop :=
  name ≠ [] ∧ name ≠ envelope ∧ '=' ∉ name ∧ ∀ c ∈ name, isBlank c = false

instance (envelope name : List Char) : Decidable (GoodName envelope name) :=
  -- the characters of the name are tried, not all characters
  haveI : Decidable (∀ c ∈ name, isBlank c = false) := List.decidableBAll _ name
  inferInstanceAs (Decidable (_ ∧ _ ∧ _ ∧ _))

def NoBlank (value : List Char) : Prop := ∀ c ∈ value, isBlank c = false

instance (value : List Char) : Decidable (NoBlank value) :=
  List.decidableBAll _ value

/-! ## Words -/

theorem words_append {blank : Char} (hblank : isBlank blank = true) (front back : List Char) :
    words (front ++ blank :: back) = words front ++ words back := by
  unfold words
  rw [List.splitOnP_append_cons front back hblank, List.filter_append]

theorem words_nil : words [] = [] := rfl

theorem words_word {word : List Char} (hne : word ≠ []) (hword : NoBlank word) :
    words word = [word] := by
  unfold words
  rw [List.splitOnP_eq_singleton hword, List.filter_cons_of_pos (by simpa using hne),
    List.filter_nil]

theorem noBlank_token {field : Field} {envelope : List Char} (hname : GoodName envelope field.1)
    (hvalue : NoBlank field.2) : NoBlank (token field) := by
  intro c hc
  rcases List.mem_append.1 hc with h | h
  · exact hname.2.2.2 c h
  rcases List.mem_cons.1 h with rfl | h
  · decide
  · exact hvalue c h

/-- The words of a rendered line. -/
theorem words_render {envelope status : List Char} {fields : List Field} (hstatus : status ≠ [])
    (hword : NoBlank status) (hnames : ∀ field ∈ fields, GoodName envelope field.1)
    (hvalues : ∀ field ∈ fields, NoBlank field.2) :
    words (render status fields) = status :: fields.map token := by
  unfold render
  induction fields generalizing status with
  | nil =>
    rw [List.flatMap_nil, List.append_nil, words_append (by decide), words_word hstatus hword,
      words_nil]
    rfl
  | cons field fields ih =>
    have htoken := noBlank_token (hnames field (by simp)) (hvalues field (by simp))
    have hne : token field ≠ [] := by simp [token]
    have hrest := ih hne htoken (fun other hmem => hnames other (by simp [hmem]))
      fun other hmem => hvalues other (by simp [hmem])
    rw [List.flatMap_cons, List.map_cons, ← hrest]
    have hline : status ++ (' ' :: token field ++ fields.flatMap fun other => ' ' :: token other) ++
        ['\n'] = status ++ ' ' :: (token field ++
          (fields.flatMap fun other => ' ' :: token other) ++ ['\n']) := by simp
    rw [hline, words_append (by decide), words_word hstatus hword]
    rfl

/-! ## Fields -/

theorem addField_token {envelope : List Char} {fields : List Field} {field : Field}
    (hname : GoodName envelope field.1) (hfresh : field.1 ∉ fields.map Prod.fst) :
    addField envelope fields (token field) = some (fields ++ [field]) := by
  obtain ⟨hne, henvelope, hequals, -⟩ := hname
  have hall : ∀ c ∈ field.1, (fun c : Char => decide (c ≠ '=')) c = true := by
    intro c hc
    refine decide_eq_true ?_
    rintro rfl
    exact hequals hc
  have hkey : (token field).takeWhile (· ≠ '=') = field.1 := by
    rw [token, List.takeWhile_append_of_pos hall, List.takeWhile_cons_of_neg (by simp),
      List.append_nil]
  have hvalue : (token field).dropWhile (· ≠ '=') = '=' :: field.2 := by
    rw [token, List.dropWhile_append_of_pos hall, List.dropWhile_cons_of_neg (by simp)]
  have hmem : ¬ '=' ∉ token field := not_not.2 (by simp [token])
  unfold addField
  rw [if_neg hmem]
  simp only [hkey, hvalue]
  rw [if_neg (by simp only [hne, henvelope, hfresh, or_self, not_false_eq_true])]
  rfl

theorem addFields_tokens {envelope : List Char} {seen fields : List Field}
    (hnames : ∀ field ∈ fields, GoodName envelope field.1)
    (hnodup : ((seen ++ fields).map Prod.fst).Nodup) :
    (fields.map token).foldlM (addField envelope) seen = some (seen ++ fields) := by
  induction fields generalizing seen with
  | nil => simp
  | cons field fields ih =>
    have hfresh : field.1 ∉ seen.map Prod.fst := by
      intro hmem
      rw [List.map_append, List.nodup_append] at hnodup
      exact hnodup.2.2 _ hmem _ (by simp) rfl
    have hsplit : seen ++ field :: fields = seen ++ [field] ++ fields := by simp
    rw [List.map_cons, List.foldlM_cons, addField_token (hnames field (by simp)) hfresh]
    simp only [Option.bind_eq_bind, Option.bind_some]
    rw [ih (fun other hmem => hnames other (by simp [hmem])) (by rwa [← hsplit]), ← hsplit]

/-- The round trip. -/
theorem parse_render {statuses : List (List Char)} {envelope status : List Char}
    {fields : List Field} (hstatus : status ∈ statuses) (hne : status ≠ [])
    (hword : NoBlank status) (hnames : ∀ field ∈ fields, GoodName envelope field.1)
    (hvalues : ∀ field ∈ fields, NoBlank field.2) (hnodup : (fields.map Prod.fst).Nodup) :
    parse statuses envelope (render status fields) = some (status, fields) := by
  unfold parse
  rw [words_render hne hword hnames hvalues]
  simp only
  rw [if_neg (not_not.2 hstatus), addFields_tokens hnames (by simpa using hnodup)]
  rfl

theorem addFields_eq_none {envelope : List Char} {seen : List Field} {parts : List (List Char)}
    {word : List Char} (hmem : word ∈ parts) (hword : '=' ∉ word) :
    parts.foldlM (addField envelope) seen = none := by
  induction parts generalizing seen with
  | nil => simp at hmem
  | cons part parts ih =>
    rw [List.foldlM_cons]
    rcases List.mem_cons.1 hmem with rfl | hrest
    · rw [addField, if_pos hword]
      rfl
    · cases addField envelope seen part with
      | none => rfl
      | some fields => exact ih hrest

/-- A line with a later word without `=` is refused. -/
theorem parse_eq_none {statuses : List (List Char)} {envelope front word back : List Char}
    (hfront : words front ≠ []) (hword : word ∈ words back) (hequals : '=' ∉ word) :
    parse statuses envelope (front ++ ' ' :: back) = none := by
  unfold parse
  rw [words_append (by decide)]
  cases hwords : words front with
  | nil => exact absurd hwords hfront
  | cons status parts =>
    simp only [List.cons_append]
    split
    · rfl
    · rw [addFields_eq_none (List.mem_append_right parts hword) hequals]
      rfl

end FieldLine
