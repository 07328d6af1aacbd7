import SysAgent.Client.TypedText
import SysAgent.Debug.SnapshotSpecs
import SysAgent.Lib.PyNumber
import SysAgent.Search.ExactSteps
import SysAgent.Search.SessionAgreement

set_option autoImplicit false

/-! # A page of results (`search.c`, `unknown_search.c`, `main.c`, `sysagent.py`)

`results` of the client sends a line of decimal numbers, and the sysmodule answers with a line that has
the addresses in it. `results_searchResults` says that neither loses anything on the way: the client
gets what `searchCopyResults` has copied. -/

namespace SysAgent

open FieldLine

/-! ## The sysmodule -/

/-- The two managers. -/
structure SearchDevice where
  exact : ExactSearch.State
  unknown : UnknownSearch.State

inductive SearchResultsAnswer
  | ok (addresses : List UInt64) (totalStored : UInt64)
  | notFound
  | busy
  | unavailable
  | corrupt
  /-- An access outside of a buffer. -/
  | fault

def SEARCH_MAX_PAGE_RESULTS : UInt64 := 256

def pageCount (count : UInt64) : UInt64 :=
  if count > SEARCH_MAX_PAGE_RESULTS then SEARCH_MAX_PAGE_RESULTS else count

/-- `reads` says whether the reads of the session file succeed. -/
def unknownSearchCopyResults (reads : Bool) (sessionId offset count : UInt64)
    (s : UnknownSearch.State) : SearchResultsAnswer :=
  match s.manager.session with
  | none => if sessionId = 0 then .unavailable else .notFound
  | some x =>
    if x.sessionId ≠ sessionId then .notFound
    else if x.state.isActive then .busy
    else if x.committed = false then .unavailable
    else
      match searchStoreReadAddresses reads s.dir .current offset (pageCount count) with
      | .ok (addresses, total) => .ok addresses total
      | .refused => .corrupt
      | .fault => .fault

/-- `searchCopyResults` for an id of an exact search. -/
def exactCopyResults (sessionId offset count : UInt64) (s : ExactSearch.State) :
    SearchResultsAnswer :=
  match s.manager.session with
  | none => .notFound
  | some x =>
    if sessionId ≠ 0 ∧ x.sessionId = sessionId then
      let storedMatches := UInt64.ofNat x.status.storedMatches
      let count := pageCount count
      let count :=
        if offset ≥ storedMatches then 0
        else if count > storedMatches - offset then storedMatches - offset
        else count
      .ok ((page x.status.results offset.toNat count.toNat).map UInt64.ofNat) storedMatches
    else .notFound

def searchCopyResults (reads : Bool) (sessionId offset count : UInt64) (d : SearchDevice) :
    SearchResultsAnswer :=
  if SearchSystem.isUnknownId sessionId then
    unknownSearchCopyResults reads sessionId offset count d.unknown
  else exactCopyResults sessionId offset count d.exact

def resultsLine (sessionId offset : UInt64) (addresses : List UInt64) (totalStored : UInt64) :
    Line where
  ok := true
  fields :=
    [field "session" (dec sessionId.toNat), field "offset" (dec offset.toNat),
      field "count" (dec addresses.length), field "stored" (dec totalStored.toNat),
      field "addresses" (commaList (addresses.map hex16))]

/-- What the answer is printed as; nothing behind a fault. -/
def SearchResultsAnswer.line (sessionId offset : UInt64) : SearchResultsAnswer → Option Line
  | .ok addresses totalStored => some (resultsLine sessionId offset addresses totalStored)
  | .notFound => some (errorLine "SESSION_NOT_FOUND" [])
  | .busy => some (errorLine "BUSY" [])
  | .unavailable => some (errorLine "RESULTS_UNAVAILABLE" [])
  | .corrupt => some (errorLine "CORRUPT_SESSION" [])
  | .fault => none

/-- The command `searchResults`. -/
def searchResults (reads : Bool) (d : SearchDevice) (argv : List (List UInt8)) : Option Line :=
  match argv with
  | [_, session, first, number] =>
    match tryParseStringToInt session, tryParseStringToInt first, tryParseStringToInt number with
    | some sessionId, some offset, some count =>
      (searchCopyResults reads sessionId offset count d).line sessionId offset
    | _, _, _ => some (errorLine "INVALID_ARGUMENTS" [])
  | _ => some (errorLine "INVALID_ARGUMENTS" [])

/-- What the sysmodule answers to the bytes of one such command. -/
def serveResults (reads : Bool) (d : SearchDevice) (incoming : List UInt8) : Option Line :=
  match recvLine [] incoming with
  | .line line =>
    if (parseArgs line).head? = some (wordBytes "searchResults") then
      searchResults reads d (parseArgs line)
    else none
  | .disconnected => none
  | .tooLong => none

/-! ## The client -/

/-- `f"searchResults {session} {offset} {count}"` as `_command_once` sends it. -/
def resultsCommand (session offset count : Nat) : List UInt8 :=
  wordBytes "searchResults" ++ [0x20] ++
    [0x20].intercalate ([session, offset, count].map decBytes) ++ [0x0D, 0x0A]

/-- `parse_int` -/
def parseInt (value : List Char) : Option Int :=
  match PyNumber.int 0 value with
  | some n => some n
  | none => PyNumber.int 16 value

inductive ResultsError
  | protocol
  | value
  | key
  deriving DecidableEq

def lookupField (fields : List Field) (name : String) : Option (List Char) :=
  (fields.find? fun entry => entry.1 == name.toList).map Prod.snd

/-- What `results` makes of the line it reads: the addresses and the number that is stored. -/
def results (line : List Char) : Except ResultsError (List Int × Int) :=
  match parseResponse line with
  | none => .error .protocol
  | some (status, fields) =>
    if status ≠ "OK".toList then .error .protocol
    else
      let text := (lookupField fields "addresses").getD []
      match (if text = [] then some [] else (text.splitOn ',').mapM (PyNumber.int 16)) with
      | none => .error .value
      | some addresses =>
        match lookupField fields "count" with
        | none => .error .key
        | some count =>
          match parseInt count with
          | none => .error .value
          | some expected =>
            if addresses.length ≠ expected then .error .protocol
            else
              match lookupField fields "stored" with
              | none => .error .key
              | some stored =>
                match parseInt stored with
                | none => .error .value
                | some total => .ok (addresses, total)

/-- Addresses as the client has them. -/
def asInts (addresses : List UInt64) : List Int :=
  addresses.map fun a => (a.toNat : Int)

/-! ## The line of the client is read -/

section Command

open CNumber

/-- A printed number has no separator in it, and at most as many digits as the largest of 64 bits. -/
theorem decBytes_digits (n : Nat) :
    decBytes n ≠ [] ∧ (∀ b ∈ decBytes n, isSeparator b = false ∧ b ≠ 0x0A) ∧
      (n < 2 ^ 64 → (decBytes n).length ≤ 20) := by
  obtain ⟨hnonempty, hdigits, -⟩ := digits_formatBase (by decide : 1 < 10) (by decide) n
  refine ⟨hnonempty, ?_, ?_⟩
  · intro b hb
    have hrange := digit_range (isSome_of_isDigitOf (hdigits b hb))
    simp [isSeparator, ← UInt8.toNat_inj]
    omega
  · intro hlt
    have hdigits : (Nat.digits 10 n).length ≤ 20 :=
      (Nat.digits_length_le_iff (by decide) n).2 (hlt.trans (by decide))
    unfold decBytes dec formatBase
    split
    · decide
    · rw [List.length_map, List.length_map, List.length_reverse]
      exact hdigits

theorem tryParse_decBytes {n : Nat} (h : n < 2 ^ 64) :
    tryParseStringToInt (decBytes n) = some (UInt64.ofNat n) := by
  have hnumeral : Numeral (decBytes n) n := numeral_dec n
  unfold tryParseStringToInt
  rw [if_neg (not_or.2 ⟨hnumeral.ne_nil, hnumeral.head_ne_minus⟩),
    parseDigits_eq_some.2 (.inl ⟨hnumeral, h⟩)]
  rfl

theorem serve_resultsCommand (reads : Bool) (d : SearchDevice) {session offset count : Nat}
    (hsession : session < 2 ^ 64) (hoffset : offset < 2 ^ 64) (hcount : count < 2 ^ 64) :
    serveResults reads d (resultsCommand session offset count) =
      (searchCopyResults reads (UInt64.ofNat session) (UInt64.ofNat offset) (UInt64.ofNat count)
        d).line (UInt64.ofNat session) (UInt64.ofNat offset) := by
  have hname : wordBytes "searchResults" ≠ [] ∧
      (∀ b ∈ wordBytes "searchResults", isSeparator b = false ∧ b ≠ 0x0A) ∧
      (wordBytes "searchResults").length = 13 := by
    decide +kernel
  obtain ⟨hne, hseparator, hlength⟩ := hname
  obtain ⟨hne1, hseparator1, hlength1⟩ := decBytes_digits session
  obtain ⟨hne2, hseparator2, hlength2⟩ := decBytes_digits offset
  obtain ⟨hne3, hseparator3, hlength3⟩ := decBytes_digits count
  have hwords : ∀ word ∈ [session, offset, count].map decBytes,
      word ≠ [] ∧ ∀ b ∈ word, isSeparator b = false ∧ b ≠ 0x0A := by
    intro word hword
    simp only [List.map_cons, List.map_nil, List.mem_cons, List.not_mem_nil, or_false] at hword
    rcases hword with rfl | rfl | rfl
    · exact ⟨hne1, hseparator1⟩
    · exact ⟨hne2, hseparator2⟩
    · exact ⟨hne3, hseparator3⟩
  have hline : recvLine [] (resultsCommand session offset count) =
      .line (wordBytes "searchResults" ++ [0x20] ++
        [0x20].intercalate ([session, offset, count].map decBytes) ++ [0x0D]) := by
    -- three numbers of at most twenty digits are far below the longest line
    have htext : resultsCommand session offset count = (wordBytes "searchResults" ++ [0x20] ++
        [0x20].intercalate ([session, offset, count].map decBytes) ++ [0x0D]) ++ [0x0A] := by
      simp [resultsCommand]
    rw [htext, recvLine_eq, List.nil_append]
    · intro hmem
      simp only [List.mem_append, List.mem_singleton] at hmem
      rcases hmem with ((hmem | hmem) | hmem) | hmem
      · exact (hseparator _ hmem).2 rfl
      · exact absurd hmem (by decide)
      · rcases mem_intercalate hmem with hblank | ⟨word, hword, hb⟩
        · exact absurd hblank (by decide)
        · exact ((hwords word hword).2 _ hb).2 rfl
      · exact absurd hmem (by decide)
    · have hthree : ([0x20].intercalate ([session, offset, count].map decBytes)).length =
          (decBytes session).length + (decBytes offset).length + (decBytes count).length + 2 := by
        simp [List.intercalate]
        omega
      simp only [List.length_append, hthree, hlength, List.length_singleton, List.length_nil,
        MAX_LINE_LENGTH]
      have h1 := hlength1 hsession
      have h2 := hlength2 hoffset
      have h3 := hlength3 hcount
      omega
  have hargv : parseArgs (wordBytes "searchResults" ++ [0x20] ++
      [0x20].intercalate ([session, offset, count].map decBytes) ++ [0x0D]) =
      wordBytes "searchResults" :: [session, offset, count].map decBytes := by
    rw [parseArgs_append (by decide), List.append_assoc, List.singleton_append,
      parseArgs_append (by decide), parseArgs_token hne fun b hb => (hseparator b hb).1,
      parseArgs_words (fun word hword => (hwords word hword).1)
        fun word hword b hb => ((hwords word hword).2 b hb).1]
    have hnil : parseArgs [] = [] := rfl
    rw [hnil, List.append_nil, List.singleton_append]
  unfold serveResults
  rw [hline]
  dsimp only
  rw [hargv, List.head?_cons, if_pos rfl]
  simp only [List.map_cons, List.map_nil, searchResults, tryParse_decBytes hsession,
    tryParse_decBytes hoffset, tryParse_decBytes hcount]

end Command

/-! ## The line of the sysmodule is read -/

section Reply

open PyNumber

theorem digitOf_digitChar {base d : Nat} (hbase : base ≤ 16) (h : d < base) :
    digitOf base (digitChar d) = some d := by
  have hall : ∀ d < 16, PyNumber.digitValue (digitChar d) = some d := by decide
  rw [digitOf, hall d (h.trans_le hbase), Option.bind_some, if_pos h]

/-- A printed number is read digit by digit. -/
theorem areDigits_formatBase {base : Nat} (hlow : 1 < base) (hhigh : base ≤ 16) (n : Nat) :
    ∃ digits, AreDigits base (formatBase base n) digits ∧
      digits.foldl (fun n d => n * base + d) 0 = n ∧
      digits.length = (formatBase base n).length := by
  by_cases hzero : n = 0
  · subst hzero
    refine ⟨[0], ?_, by simp, rfl⟩
    have hzero : 0 < base := by omega
    have hdigit : digitOf base '0' = some 0 := digitOf_digitChar hhigh hzero
    simp [AreDigits, formatBase, hdigit]
  · refine ⟨(Nat.digits base n).reverse, ?_, foldl_digits base n, ?_⟩
    · rw [AreDigits, formatBase, if_neg hzero, List.map_map]
      refine List.map_congr_left ?_
      intro d hd
      exact digitOf_digitChar hhigh (Nat.digits_lt_base hlow (List.mem_reverse.1 hd))
    · rw [formatBase, if_neg hzero, List.length_map]

theorem formatBase_ne_nil (base n : Nat) : formatBase base n ≠ [] := by
  unfold formatBase
  split
  · simp
  · rename_i hzero
    simpa using Nat.digits_ne_nil_iff_ne_zero.2 hzero

/-- A number other than zero is printed without leading zeros. -/
theorem head_formatBase {base n : Nat} (hlow : 1 < base) (hhigh : base ≤ 16) (hn : n ≠ 0) :
    (formatBase base n).head? ≠ some '0' := by
  have hdigits : Nat.digits base n ≠ [] := Nat.digits_ne_nil_iff_ne_zero.2 hn
  have hlast := Nat.getLast_digit_ne_zero base hn
  have hlt := Nat.digits_lt_base hlow (List.getLast_mem hdigits)
  have hall : ∀ d < 16, d ≠ 0 → digitChar d ≠ '0' := by decide
  rw [formatBase, if_neg hn, List.head?_map, List.head?_reverse, List.getLast?_eq_some_getLast hdigits,
    Option.map_some]
  exact fun h => hall _ (hlt.trans_le hhigh) hlast (Option.some.inj h)

theorem parseInt_dec {n : Nat} (h : n < 2 ^ 64) : parseInt (dec n) = some (n : Int) := by
  obtain ⟨digits, hdigits, hvalue, hlength⟩ := areDigits_formatBase (by decide : 1 < 10) (by decide) n
  have hshort : digits.length ≤ maxStrDigits := by
    have hdec := (decBytes_digits n).2.2 h
    unfold decBytes dec at hdec
    rw [List.length_map] at hdec
    rw [hlength, maxStrDigits]
    omega
  have hlead : (dec n).head? = some '0' → digits.foldl (fun n d => n * 10 + d) 0 = 0 := by
    intro hhead
    rw [hvalue]
    by_contra hn
    exact head_formatBase (by decide) (by decide) hn hhead
  have hint : PyNumber.int 0 (dec n) = some (n : Int) := by
    rw [dec, int_decimal hdigits (formatBase_ne_nil 10 n) hshort hlead, hvalue]
  rw [parseInt, hint]

theorem int_hex16 (a : UInt64) : PyNumber.int 16 (hex16 a) = some (a.toNat : Int) := by
  obtain ⟨digits, hdigits, hvalue, -⟩ := areDigits_formatBase (by decide : 1 < 16) (le_refl 16) a.toNat
  have hpadded : AreDigits 16 (hex16 a)
      (List.replicate (16 - (formatBase 16 a.toNat).length) 0 ++ digits) := by
    have hdigit : digitOf 16 '0' = some 0 := by decide
    rw [AreDigits, hex16, List.map_append, List.map_append, hdigits, List.map_replicate,
      List.map_replicate, hdigit]
  have hne : hex16 a ≠ [] := by
    intro hnil
    exact formatBase_ne_nil 16 a.toNat (List.append_eq_nil_iff.1 hnil).2
  rw [int_digits (by decide) (by decide) hpadded hne (prefixBase_of_digits hpadded),
    List.foldl_append, foldl_zeros, hvalue]

theorem comma_not_mem_hex16 (a : UInt64) : ',' ∉ hex16 a := by
  intro hmem
  rcases List.mem_append.1 hmem with hzero | hdigit
  · exact absurd (List.eq_of_mem_replicate hzero) (by decide)
  · obtain ⟨digits, hdigits, -, -⟩ := areDigits_formatBase (by decide : 1 < 16) (le_refl 16) a.toNat
    obtain ⟨d, hd⟩ := hdigits.mem hdigit
    have hnone : digitOf 16 ',' = none := by decide
    rw [hnone] at hd
    cases hd

/-- The addresses of a page. -/
theorem addresses_read (addresses : List UInt64) :
    (if commaList (addresses.map hex16) = [] then some []
      else ((commaList (addresses.map hex16)).splitOn ',').mapM (PyNumber.int 16)) =
      some (asInts addresses) := by
  cases addresses with
  | nil => rfl
  | cons a rest =>
    have hne : commaList ((a :: rest).map hex16) ≠ [] := by
      have hfirst : hex16 a ≠ [] := by
        intro hnil
        exact formatBase_ne_nil 16 a.toNat (List.append_eq_nil_iff.1 hnil).2
      unfold commaList
      cases rest with
      | nil => simpa using hfirst
      | cons b rest =>
        rw [List.map_cons, List.map_cons, List.intercalate_cons_cons]
        simp
    rw [if_neg hne, commaList, List.splitOn_intercalate]
    · refine mapM_of_map ?_
      rw [asInts, List.map_map, List.map_map]
      refine List.map_congr_left ?_
      intro b _
      exact int_hex16 b
    · intro text htext
      obtain ⟨b, -, rfl⟩ := List.mem_map.1 htext
      exact comma_not_mem_hex16 b
    · simp

theorem results_resultsLine (sessionId offset : UInt64) {addresses : List UInt64}
    (totalStored : UInt64) (hlength : addresses.length < 2 ^ 64) :
    results (resultsLine sessionId offset addresses totalStored).text =
      .ok (asInts addresses, (totalStored.toNat : Int)) := by
  have hparse : parseResponse (resultsLine sessionId offset addresses totalStored).text =
      some ("OK".toList, (resultsLine sessionId offset addresses totalStored).fields) := by
    refine parseResponse_line ["session", "offset", "count", "stored", "addresses"] rfl ?_ ?_
    · exact goodNames_of_chars (by repeat constructor) (by decide)
    · intro value hvalue
      have haddresses : NoBlank (commaList (addresses.map hex16)) := by
        refine noBlank_commaList ?_
        intro item hitem
        obtain ⟨a, -, rfl⟩ := List.mem_map.1 hitem
        exact noBlank_hex16 a
      simp only [resultsLine, field, List.map_cons, List.map_nil, List.mem_cons, List.not_mem_nil,
        or_false] at hvalue
      rcases hvalue with rfl | rfl | rfl | rfl | rfl
      · exact noBlank_dec _
      · exact noBlank_dec _
      · exact noBlank_dec _
      · exact noBlank_dec _
      · exact haddresses
  have hfields : lookupField (resultsLine sessionId offset addresses totalStored).fields "count" =
        some (dec addresses.length) ∧
      lookupField (resultsLine sessionId offset addresses totalStored).fields "stored" =
        some (dec totalStored.toNat) ∧
      lookupField (resultsLine sessionId offset addresses totalStored).fields "addresses" =
        some (commaList (addresses.map hex16)) :=
    ⟨rfl, rfl, rfl⟩
  have hcount : ((asInts addresses).length : Int) = (addresses.length : Int) := by
    rw [asInts, List.length_map]
  unfold results
  rw [hparse]
  dsimp only
  rw [if_neg (not_not.2 rfl), hfields.2.2, hfields.1, hfields.2.1, Option.getD_some,
    addresses_read]
  dsimp only
  rw [parseInt_dec hlength, parseInt_dec totalStored.toNat_lt]
  dsimp only
  rw [if_neg (not_not.2 hcount)]

theorem results_errorLine {code : String} (hcode : NoBlank code.toList) :
    results (errorLine code []).text = .error .protocol := by
  have hparse : parseResponse (errorLine code []).text =
      some ("ERR".toList, (errorLine code []).fields) := by
    refine parseResponse_line ["code"] rfl (lineNames_good _ (by simp [lineNames])) ?_
    intro value hvalue
    rw [errorLine, List.map_cons, List.map_nil, List.mem_singleton] at hvalue
    rw [hvalue]
    exact hcode
  unfold results
  rw [hparse]
  dsimp only
  rw [if_pos (by decide)]

end Reply

/-- The round trip of a page: the client gets what the sysmodule has copied, and an exception for
    anything else. -/
theorem results_serveResults (reads : Bool) (d : SearchDevice) {session offset count : Nat}
    (hsession : session < 2 ^ 64) (hoffset : offset < 2 ^ 64) (hcount : count < 2 ^ 64) {line : Line}
    (hline : serveResults reads d (resultsCommand session offset count) = some line) :
    (∃ addresses totalStored, searchCopyResults reads (UInt64.ofNat session) (UInt64.ofNat offset)
        (UInt64.ofNat count) d = .ok addresses totalStored ∧
      (addresses.length < 2 ^ 64 →
        results line.text = .ok (asInts addresses, (totalStored.toNat : Int)))) ∨
      (∀ addresses totalStored, searchCopyResults reads (UInt64.ofNat session) (UInt64.ofNat offset)
        (UInt64.ofNat count) d ≠ .ok addresses totalStored) ∧
        results line.text = .error .protocol := by
  rw [serve_resultsCommand reads d hsession hoffset hcount] at hline
  cases hcopied : searchCopyResults reads (UInt64.ofNat session) (UInt64.ofNat offset)
      (UInt64.ofNat count) d with
  | ok addresses totalStored =>
    rw [hcopied] at hline
    obtain rfl := Option.some.inj hline
    exact .inl ⟨addresses, totalStored, rfl, results_resultsLine _ _ totalStored⟩
  | notFound =>
    rw [hcopied] at hline
    obtain rfl := Option.some.inj hline
    exact .inr ⟨fun _ _ h => SearchResultsAnswer.noConfusion h, results_errorLine (by decide)⟩
  | busy =>
    rw [hcopied] at hline
    obtain rfl := Option.some.inj hline
    exact .inr ⟨fun _ _ h => SearchResultsAnswer.noConfusion h, results_errorLine (by decide)⟩
  | unavailable =>
    rw [hcopied] at hline
    obtain rfl := Option.some.inj hline
    exact .inr ⟨fun _ _ h => SearchResultsAnswer.noConfusion h, results_errorLine (by decide)⟩
  | corrupt =>
    rw [hcopied] at hline
    obtain rfl := Option.some.inj hline
    exact .inr ⟨fun _ _ h => SearchResultsAnswer.noConfusion h, results_errorLine (by decide)⟩
  | fault =>
    rw [hcopied] at hline
    cases hline

end SysAgent
