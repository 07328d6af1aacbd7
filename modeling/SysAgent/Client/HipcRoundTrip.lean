import SysAgent.Client.HipcLayout

set_option autoImplicit false

/-! # The decoder of IPC messages and their layout

`decodeOne` accepts exactly the bytes of the well-formed messages (`decodeOne_eq_ok`), and what it
returns are the parts of the message. A message can be read in the mode `auto` if it is a request, or
a response that no request has the layout of. -/

namespace SysAgent

open BitFields (extract pack unpack Fits)
open Codec (leBytes leNat)
open Layout (At at_append)

/-! ## Words of the data -/

def wordAt (data : List UInt8) (offset : Nat) : Nat := leNat 4 (data.drop offset)

theorem wordAt_lt (data : List UInt8) (offset : Nat) : wordAt data offset < 2 ^ 32 :=
  Codec.leNat_lt 4 _

theorem at_word_iff {data : List UInt8} {offset value : Nat} :
    (value < 2 ^ 32 ∧ At data offset (leBytes 4 value)) ↔
      offset + 4 ≤ data.length ∧ wordAt data offset = value :=
  Layout.at_leBytes_iff (Nat.succ_pos 3)

theorem at_wordAt {data : List UInt8} {offset : Nat} (h : offset + 4 ≤ data.length) :
    At data offset (leBytes 4 (wordAt data offset)) :=
  (at_word_iff.2 ⟨h, rfl⟩).2

theorem readU32_eq_wordAt {data : List UInt8} {offset : Nat} (h : offset + 4 ≤ data.length)
    (label : String) : readU32 data offset label = .ok (wordAt data offset) :=
  readU32_eq_ok.2 ⟨wordAt_lt data offset, at_wordAt h⟩

theorem leNat_succ_drop (n : Nat) (data : List UInt8) (offset : Nat) :
    leNat (n + 1) (data.drop offset) = byteAt data offset + 256 * leNat n (data.drop (offset + 1)) := by
  rw [byteAt, ← List.drop_drop, List.getD_eq_getElem?_getD]
  have hhead : data[offset]? = (data.drop offset)[0]? := by rw [List.getElem?_drop, Nat.add_zero]
  rw [hhead]
  cases data.drop offset with
  | nil => cases n <;> rfl
  | cons b rest => rfl

/-- The bytes and the halfword that the word at an offset consists of. -/
theorem wordAt_parts (data : List UInt8) (offset : Nat) :
    byteAt data offset = extract (wordAt data offset) 0 0xFF ∧
      byteAt data (offset + 1) = extract (wordAt data offset) 8 0xFF ∧
      leNat 2 (data.drop (offset + 2)) = extract (wordAt data offset) 16 0xFFFF := by
  have h0 : byteAt data offset < 256 := (data.getD offset 0).toNat_lt
  have h1 : byteAt data (offset + 1) < 256 := (data.getD (offset + 1) 0).toNat_lt
  have h2 : leNat 2 (data.drop (offset + 2)) < 65536 := Codec.leNat_lt 2 _
  have hword : wordAt data offset =
      byteAt data offset + 256 * (byteAt data (offset + 1) + 256 * leNat 2 (data.drop (offset + 2))) := by
    rw [wordAt, leNat_succ_drop, leNat_succ_drop]
  rw [BitFields.extract_eq (show 0xFF + 1 = 2 ^ 8 from rfl),
    BitFields.extract_eq (show 0xFF + 1 = 2 ^ 8 from rfl),
    BitFields.extract_eq (show 0xFFFF + 1 = 2 ^ 16 from rfl)]
  omega

/-! ## The CMIF headers -/

/-- A domain header; a response has the number of its objects in the first word. -/
structure CmifDomainWords where
  type : Nat
  numInObjects : Nat
  dataSize : Nat
  objectId : Nat
  padding : Nat
  token : Nat

namespace CmifDomainWords

def fields (d : CmifDomainWords) : List (Nat × Nat) :=
  [(8, d.type), (8, d.numInObjects), (16, d.dataSize)]

def first (d : CmifDomainWords) : Nat := pack d.fields

def bytes (d : CmifDomainWords) : List UInt8 :=
  leBytes 4 d.first ++ (leBytes 4 d.objectId ++ (leBytes 4 d.padding ++ leBytes 4 d.token))

structure Valid (d : CmifDomainWords) : Prop where
  fits : Fits d.fields
  objectId : d.objectId < 2 ^ 32
  padding : d.padding < 2 ^ 32
  token : d.token < 2 ^ 32

/-- The request that closes a domain object. -/
def IsClose (d : CmifDomainWords) : Prop :=
  d.type = 2 ∧ d.numInObjects = 0 ∧ d.dataSize = 0 ∧ d.objectId ≠ 0

instance (d : CmifDomainWords) : Decidable d.IsClose :=
  inferInstanceAs (Decidable (_ ∧ _ ∧ _ ∧ _))

def decoded (d : CmifDomainWords) : CmifMode → CmifDomainHeader
  | .request => ⟨d.type, some d.numInObjects, some d.dataSize, some d.objectId, some d.token, none⟩
  | .response => ⟨d.type, none, none, none, none, some d.first⟩

/-- The sixteen bytes at an offset as a domain header. -/
def ofData (data : List UInt8) (offset : Nat) : CmifDomainWords where
  type := byteAt data offset
  numInObjects := byteAt data (offset + 1)
  dataSize := leNat 2 (data.drop (offset + 2))
  objectId := wordAt data (offset + 4)
  padding := wordAt data (offset + 8)
  token := wordAt data (offset + 12)

@[simp] theorem length_bytes (d : CmifDomainWords) : d.bytes.length = 16 := by simp [bytes]

theorem fields_ofData (data : List UInt8) (offset : Nat) :
    (ofData data offset).fields = unpack (wordAt data offset) 0 [8, 8, 16] := by
  obtain ⟨h0, h1, h2⟩ := wordAt_parts data offset
  rw [fields, ofData]
  simp only [h0, h1, h2]
  rfl

theorem first_ofData (data : List UInt8) (offset : Nat) :
    (ofData data offset).first = wordAt data offset := by
  rw [first, fields_ofData, BitFields.pack_unpack (wordAt_lt data offset), Nat.pow_zero, Nat.div_one]

theorem valid_ofData (data : List UInt8) (offset : Nat) : (ofData data offset).Valid where
  fits := by
    rw [fields_ofData]
    exact BitFields.fits_unpack _ _ _
  objectId := wordAt_lt data _
  padding := wordAt_lt data _
  token := wordAt_lt data _

theorem at_ofData {data : List UInt8} {offset : Nat} (h : offset + 16 ≤ data.length) :
    At data offset (ofData data offset).bytes := by
  rw [bytes, at_append, at_append, at_append, first_ofData]
  simp only [Codec.length_leBytes, Nat.add_assoc, Nat.reduceAdd]
  exact ⟨at_wordAt (by omega), at_wordAt (by omega), at_wordAt (by omega), at_wordAt (by omega)⟩

theorem eq_ofData {d : CmifDomainWords} (hvalid : d.Valid) {data : List UInt8} {offset : Nat}
    (hat : At data offset d.bytes) : d = ofData data offset := by
  rw [bytes, at_append, at_append, at_append] at hat
  simp only [Codec.length_leBytes, Nat.add_assoc, Nat.reduceAdd] at hat
  obtain ⟨hat0, hat1, hat2, hat3⟩ := hat
  have hfirst : wordAt data offset = d.first :=
    (at_word_iff.1 ⟨BitFields.pack_lt hvalid.fits, hat0⟩).2
  have hfields : d.fields = (ofData data offset).fields := by
    rw [fields_ofData, hfirst]
    exact (BitFields.unpack_pack hvalid.fits).symm
  simp only [fields, List.cons.injEq, Prod.mk.injEq, true_and, and_true] at hfields
  have hobject := (at_word_iff.1 ⟨hvalid.objectId, hat1⟩).2
  have hpadding := (at_word_iff.1 ⟨hvalid.padding, hat2⟩).2
  have htoken := (at_word_iff.1 ⟨hvalid.token, hat3⟩).2
  cases d
  simp_all [ofData]

theorem read_ofData {data : List UInt8} {offset : Nat} (h : offset + 16 ≤ data.length)
    (mode : CmifMode) :
    domainHeader data offset mode = .ok ((ofData data offset).decoded mode) := by
  cases mode with
  | request =>
    rw [domainHeader, requestDomainHeader, readU32_eq_wordAt (by omega), protocol_ok_bind,
      readU32_eq_wordAt (by omega), protocol_ok_bind]
    rfl
  | response =>
    rw [domainHeader, readU32_eq_wordAt (by omega), protocol_ok_bind, decoded, first_ofData]
    rfl

end CmifDomainWords

/-- The words of a CMIF header after the magic number: the command and the token of a request, or
    the result and the interface of a response. -/
structure CmifWords where
  version : Nat
  second : Nat
  third : Nat

namespace CmifWords

def bytes (w : CmifWords) (mode : CmifMode) : List UInt8 :=
  leBytes 4 (cmifMagic mode) ++ (leBytes 4 w.version ++ (leBytes 4 w.second ++ leBytes 4 w.third))

structure Valid (w : CmifWords) : Prop where
  version : w.version < 2 ^ 32
  second : w.second < 2 ^ 32
  third : w.third < 2 ^ 32

def decoded (w : CmifWords) : CmifMode → CmifHeader
  | .request => .request (hexWord (cmifMagic .request)) w.version w.second w.third
  | .response =>
    .response (hexWord (cmifMagic .response)) w.version ("0x" ++ hexNumber w.second) w.third

def ofData (data : List UInt8) (offset : Nat) : CmifWords :=
  ⟨wordAt data (offset + 4), wordAt data (offset + 8), wordAt data (offset + 12)⟩

@[simp] theorem length_bytes (w : CmifWords) (mode : CmifMode) : (w.bytes mode).length = 16 := by
  simp [bytes]

theorem magic_lt (mode : CmifMode) : cmifMagic mode < 2 ^ 32 := by cases mode <;> decide

theorem valid_ofData (data : List UInt8) (offset : Nat) : (ofData data offset).Valid :=
  ⟨wordAt_lt data _, wordAt_lt data _, wordAt_lt data _⟩

theorem at_ofData {data : List UInt8} {offset : Nat} {mode : CmifMode}
    (h : offset + 16 ≤ data.length) (hmagic : wordAt data offset = cmifMagic mode) :
    At data offset ((ofData data offset).bytes mode) := by
  rw [bytes, at_append, at_append, at_append, ← hmagic]
  simp only [Codec.length_leBytes, Nat.add_assoc, Nat.reduceAdd]
  exact ⟨at_wordAt (by omega), at_wordAt (by omega), at_wordAt (by omega), at_wordAt (by omega)⟩

theorem eq_ofData {w : CmifWords} (hvalid : w.Valid) {data : List UInt8} {offset : Nat}
    {mode : CmifMode} (hat : At data offset (w.bytes mode)) :
    wordAt data offset = cmifMagic mode ∧ w = ofData data offset := by
  rw [bytes, at_append, at_append, at_append] at hat
  simp only [Codec.length_leBytes, Nat.add_assoc, Nat.reduceAdd] at hat
  obtain ⟨hat0, hat1, hat2, hat3⟩ := hat
  have hversion := (at_word_iff.1 ⟨hvalid.version, hat1⟩).2
  have hsecond := (at_word_iff.1 ⟨hvalid.second, hat2⟩).2
  have hthird := (at_word_iff.1 ⟨hvalid.third, hat3⟩).2
  refine ⟨(at_word_iff.1 ⟨magic_lt mode, hat0⟩).2, ?_⟩
  rw [ofData, hversion, hsecond, hthird]

theorem read_ofData {data : List UInt8} {offset : Nat} (h : offset + 16 ≤ data.length)
    (mode : CmifMode) :
    cmifHeader data offset (cmifMagic mode) mode = .ok ((ofData data offset).decoded mode) := by
  cases mode with
  | request =>
    rw [cmifHeader, readU32_eq_wordAt (by omega), protocol_ok_bind, readU32_eq_wordAt (by omega),
      protocol_ok_bind, readU32_eq_wordAt (by omega), protocol_ok_bind]
    rfl
  | response =>
    rw [cmifHeader, readU32_eq_wordAt (by omega), protocol_ok_bind, readU32_eq_wordAt (by omega),
      protocol_ok_bind, readU32_eq_wordAt (by omega), protocol_ok_bind]
    rfl

end CmifWords

/-! ## The CMIF part -/

/-- What stands at the beginning of the aligned data words. -/
inductive CmifBody
  | close (domain : CmifDomainWords)
  | plain (header : CmifWords)
  | inDomain (domain : CmifDomainWords) (header : CmifWords)

namespace CmifBody

def bytes (mode : CmifMode) : CmifBody → List UInt8
  | .close domain => domain.bytes
  | .plain header => header.bytes mode
  | .inDomain domain header => domain.bytes ++ header.bytes mode

/-- The three kinds exclude each other: a domain header does not look like a CMIF header, nor like
    the request that closes an object. -/
def Valid (mode : CmifMode) (type : Nat) : CmifBody → Prop
  | .close domain => mode = .request ∧ type = 4 ∧ domain.IsClose ∧ domain.Valid
  | .plain header => header.Valid
  | .inDomain domain header => domain.Valid ∧ header.Valid ∧ domain.first ≠ cmifMagic mode ∧
      ¬ (mode = .request ∧ type = 4 ∧ domain.IsClose)

/-- The decoded part, for a body at `start` and the bytes behind it. -/
def decoded (mode : CmifMode) (start : Nat) (payload : List UInt8) : CmifBody → Cmif
  | .close domain =>
    ⟨mode, true, some (domain.decoded mode), none, start + 16, HexText.upper payload⟩
  | .plain header =>
    ⟨mode, false, none, some (header.decoded mode), start + 16, HexText.upper payload⟩
  | .inDomain domain header =>
    ⟨mode, true, some (domain.decoded mode), some (header.decoded mode), start + 32,
      HexText.upper payload⟩

end CmifBody

theorem isClose_iff {d : CmifDomainWords} :
    d.IsClose ↔ d.type = 2 ∧ (d.decoded .request).numInObjects = some 0 ∧
      (d.decoded .request).dataSize = some 0 ∧ (d.decoded .request).objectId ≠ some 0 := by
  simp [CmifDomainWords.IsClose, CmifDomainWords.decoded]

theorem closeDomainObject_eq {data : List UInt8} {type start stop : Nat} (hstop : stop ≤ data.length)
    (mode : CmifMode) :
    closeDomainObject data type start stop mode = .ok (
      if mode = .request ∧ type = 4 ∧ start + 16 ≤ stop ∧
          (CmifDomainWords.ofData data start).IsClose then
        some ((CmifBody.close (CmifDomainWords.ofData data start)).decoded mode start
          ((data.take stop).drop (start + 16)))
      else none) := by
  cases mode with
  | response => simp [closeDomainObject, pure, Except.pure]
  | request =>
    rw [closeDomainObject]
    by_cases hcase : type = 4 ∧ start + 16 ≤ stop ∧ byteAt data start = 2
    · obtain ⟨htype, hfits, htwo⟩ := hcase
      have hread : requestDomainHeader data start =
          .ok ((CmifDomainWords.ofData data start).decoded .request) :=
        CmifDomainWords.read_ofData (by omega) .request
      rw [if_pos ⟨htype, hfits, htwo⟩, hread, protocol_ok_bind]
      by_cases hclose : (CmifDomainWords.ofData data start).IsClose
      · obtain rfl := htype
        rw [if_pos (isClose_iff.1 hclose).2, if_pos ⟨rfl, rfl, hfits, hclose⟩]
        rfl
      · rw [if_neg (fun h => hclose (isClose_iff.2 ⟨htwo, h⟩)), if_neg (fun h => hclose h.2.2.2)]
        rfl
    · rw [if_neg hcase, if_neg]
      · rfl
      · rintro ⟨-, htype, hfits, hclose⟩
        exact hcase ⟨htype, hfits, hclose.1⟩

theorem cmifCandidate_false {data : List UInt8} {start stop : Nat} (hstop : stop ≤ data.length)
    (mode : CmifMode) :
    cmifCandidate data start stop mode false = .ok (
      if start + 16 ≤ stop ∧ wordAt data start = cmifMagic mode then
        some ((CmifBody.plain (CmifWords.ofData data start)).decoded mode start
          ((data.take stop).drop (start + 16)))
      else none) := by
  simp only [cmifCandidate, candidateDomain, Bool.false_eq_true, if_false, Nat.add_zero]
  by_cases hfits : start + 16 ≤ stop
  · have hlong : ¬ stop < start + 16 := by omega
    rw [if_neg hlong, readU32_eq_wordAt (by omega), protocol_ok_bind]
    by_cases hmagic : wordAt data start = cmifMagic mode
    · rw [if_neg (not_not.2 hmagic), if_pos ⟨hfits, hmagic⟩, hmagic,
        CmifWords.read_ofData (by omega)]
      rfl
    · rw [if_pos hmagic, if_neg (fun h => hmagic h.2)]
      rfl
  · have hshort : stop < start + 16 := by omega
    rw [if_pos hshort, if_neg (fun h => hfits h.1)]
    rfl

theorem cmifCandidate_true {data : List UInt8} {start stop : Nat} (hstop : stop ≤ data.length)
    (mode : CmifMode) :
    cmifCandidate data start stop mode true = .ok (
      if start + 32 ≤ stop ∧ wordAt data (start + 16) = cmifMagic mode then
        some ((CmifBody.inDomain (CmifDomainWords.ofData data start)
            (CmifWords.ofData data (start + 16))).decoded mode start
          ((data.take stop).drop (start + 32)))
      else none) := by
  simp only [cmifCandidate, candidateDomain, if_true]
  by_cases hfits : start + 32 ≤ stop
  · have hlong : ¬ stop < start + 16 + 16 := by omega
    rw [if_neg hlong, readU32_eq_wordAt (by omega), protocol_ok_bind]
    by_cases hmagic : wordAt data (start + 16) = cmifMagic mode
    · rw [if_neg (not_not.2 hmagic), if_pos ⟨hfits, hmagic⟩, hmagic,
        CmifDomainWords.read_ofData (by omega), CmifWords.read_ofData (by omega)]
      rfl
    · rw [if_pos hmagic, if_neg (fun h => hmagic h.2)]
      rfl
  · have hshort : stop < start + 16 + 16 := by omega
    rw [if_pos hshort, if_neg (fun h => hfits h.1)]
    rfl

/-- The first byte of a CMIF header is not the type of a request that closes an object. -/
theorem not_isClose_of_magic {data : List UInt8} {start : Nat} {mode : CmifMode}
    (hmagic : wordAt data start = cmifMagic mode) :
    ¬ (CmifDomainWords.ofData data start).IsClose := by
  rintro ⟨htype, -⟩
  have hbyte : byteAt data start = 2 := htype
  rw [(wordAt_parts data start).1, hmagic] at hbyte
  cases mode with
  | request => exact absurd hbyte (by decide)
  | response => exact absurd hbyte (by decide)

/-- What the three attempts find, in their order. -/
theorem readCmif_eq {data : List UInt8} {type start stop : Nat} (hstop : stop ≤ data.length)
    (mode : CmifMode) :
    readCmif data type start stop mode = .ok (
      if mode = .request ∧ type = 4 ∧ start + 16 ≤ stop ∧
          (CmifDomainWords.ofData data start).IsClose then
        some ((CmifBody.close (CmifDomainWords.ofData data start)).decoded mode start
          ((data.take stop).drop (start + 16)))
      else if start + 16 ≤ stop ∧ wordAt data start = cmifMagic mode then
        some ((CmifBody.plain (CmifWords.ofData data start)).decoded mode start
          ((data.take stop).drop (start + 16)))
      else if start + 32 ≤ stop ∧ wordAt data (start + 16) = cmifMagic mode then
        some ((CmifBody.inDomain (CmifDomainWords.ofData data start)
            (CmifWords.ofData data (start + 16))).decoded mode start
          ((data.take stop).drop (start + 32)))
      else none) := by
  rw [readCmif, closeDomainObject_eq hstop, protocol_ok_bind, cmifCandidate_false hstop,
    cmifCandidate_true hstop]
  split_ifs <;> rfl

/-- The CMIF part is a valid body at the aligned offset, and the payload is what is behind it. -/
theorem readCmif_eq_ok {data : List UInt8} {type start stop : Nat} (hstop : stop ≤ data.length)
    {mode : CmifMode} {cmif : Cmif} :
    readCmif data type start stop mode = .ok (some cmif) ↔
      ∃ body : CmifBody, body.Valid mode type ∧ At data start (body.bytes mode) ∧
        start + (body.bytes mode).length ≤ stop ∧
        cmif = body.decoded mode start
          ((data.take stop).drop (start + (body.bytes mode).length)) := by
  rw [readCmif_eq hstop, Except.ok.injEq]
  constructor
  · intro h
    split_ifs at h with hclose hplain hdomain
    · obtain ⟨rfl, rfl, hfits, hisClose⟩ := hclose
      refine ⟨.close (CmifDomainWords.ofData data start),
        ⟨rfl, rfl, hisClose, CmifDomainWords.valid_ofData data start⟩,
        CmifDomainWords.at_ofData (by omega), ?_, ?_⟩
      · rw [CmifBody.bytes, CmifDomainWords.length_bytes]
        exact hfits
      · rw [CmifBody.bytes, CmifDomainWords.length_bytes]
        exact (Option.some.inj h).symm
    · obtain ⟨hfits, hmagic⟩ := hplain
      refine ⟨.plain (CmifWords.ofData data start), CmifWords.valid_ofData data start,
        CmifWords.at_ofData (by omega) hmagic, ?_, ?_⟩
      · rw [CmifBody.bytes, CmifWords.length_bytes]
        exact hfits
      · rw [CmifBody.bytes, CmifWords.length_bytes]
        exact (Option.some.inj h).symm
    · obtain ⟨hfits, hmagic⟩ := hdomain
      have hlength : (CmifBody.bytes mode (.inDomain (CmifDomainWords.ofData data start)
          (CmifWords.ofData data (start + 16)))).length = 32 := by simp [CmifBody.bytes]
      refine ⟨.inDomain (CmifDomainWords.ofData data start) (CmifWords.ofData data (start + 16)),
        ⟨CmifDomainWords.valid_ofData data start, CmifWords.valid_ofData data (start + 16), ?_, ?_⟩,
        ?_, ?_, ?_⟩
      · rw [CmifDomainWords.first_ofData]
        intro hfirst
        exact hplain ⟨by omega, hfirst⟩
      · rintro ⟨hmode, htype, hisClose⟩
        exact hclose ⟨hmode, htype, by omega, hisClose⟩
      · rw [CmifBody.bytes, at_append, CmifDomainWords.length_bytes]
        exact ⟨CmifDomainWords.at_ofData (by omega), CmifWords.at_ofData (by omega) hmagic⟩
      · rw [hlength]
        exact hfits
      · rw [hlength]
        exact (Option.some.inj h).symm
  · rintro ⟨body, hvalid, hat, hfits, rfl⟩
    cases body with
    | close domain =>
      obtain ⟨rfl, rfl, hisClose, hvalid⟩ := hvalid
      obtain rfl := CmifDomainWords.eq_ofData hvalid hat
      rw [CmifBody.bytes, CmifDomainWords.length_bytes] at hfits ⊢
      exact if_pos ⟨rfl, rfl, hfits, hisClose⟩
    | plain header =>
      obtain ⟨hmagic, rfl⟩ := CmifWords.eq_ofData hvalid hat
      rw [CmifBody.bytes, CmifWords.length_bytes] at hfits ⊢
      rw [if_neg (fun h => not_isClose_of_magic hmagic h.2.2.2), if_pos ⟨hfits, hmagic⟩]
    | inDomain domain header =>
      obtain ⟨hvalidDomain, hvalidHeader, hfirst, hnotClose⟩ := hvalid
      rw [CmifBody.bytes, at_append, CmifDomainWords.length_bytes] at hat
      obtain rfl := CmifDomainWords.eq_ofData hvalidDomain hat.1
      obtain ⟨hmagic, rfl⟩ := CmifWords.eq_ofData hvalidHeader hat.2
      rw [CmifDomainWords.first_ofData] at hfirst
      have hlength : (CmifBody.bytes mode (.inDomain (CmifDomainWords.ofData data start)
          (CmifWords.ofData data (start + 16)))).length = 32 := by simp [CmifBody.bytes]
      rw [hlength] at hfits ⊢
      rw [if_neg (fun h => hnotClose ⟨h.1, h.2.1, h.2.2.2⟩), if_neg (fun h => hfirst h.2),
        if_pos ⟨hfits, hmagic⟩]

/-! ## Messages -/

/-- The next multiple of 16. -/
def align16 (n : Nat) : Nat := (n + 15) / 16 * 16

/-- A message as its parts; `rest` is what stands behind the data words, and the decoder does not
    read the reserved bits and the padding. -/
structure HipcMessage where
  metadata : HipcMetadata
  reserved1 : Nat
  reserved2 : Nat
  copies : List Nat
  moves : List Nat
  descriptors : HipcDescriptors
  padding : List UInt8
  body : CmifBody
  payload : List UInt8
  rest : List UInt8

namespace HipcMessage

/-- The bytes before the data words. -/
def head (m : HipcMessage) : List UInt8 :=
  m.metadata.bytes m.reserved1 m.reserved2 ++
    ((m.copies ++ m.moves).flatMap (leBytes 4) ++ m.descriptors.bytes)

/-- The data words. -/
def words (m : HipcMessage) (mode : CmifMode) : List UInt8 :=
  m.padding ++ (m.body.bytes mode ++ m.payload)

def bytes (m : HipcMessage) (mode : CmifMode) : List UInt8 := m.head ++ (m.words mode ++ m.rest)

structure WellFormed (m : HipcMessage) (mode : CmifMode) : Prop where
  metadata : m.metadata.WellFormed m.reserved1 m.reserved2
  copies : m.copies.length = m.metadata.copyHandles
  moves : m.moves.length = m.metadata.moveHandles
  handles : ∀ value ∈ m.copies ++ m.moves, value < 2 ^ 32
  descriptors : m.descriptors.Fit m.metadata mode
  padding : m.head.length + m.padding.length = align16 m.head.length
  body : m.body.Valid mode m.metadata.type
  words : (m.words mode).length = m.metadata.dataWords * 4

/-- The fields that the decoder lists. -/
def decoded (m : HipcMessage) (mode : CmifMode) : DecodedMessage :=
  let cmif := m.body.decoded mode (align16 m.head.length) m.payload
  { metadata := m.metadata
    dataWordsOffset := m.head.length
    dataWordsHex := HexText.upper (m.words mode)
    handles := handlesOf .copy m.copies ++ handlesOf .move m.moves
    descriptors := m.descriptors.listed
    cmif := cmif
    operation := cmifOperation m.metadata.type cmif }

/-- The bytes between two offsets. -/
theorem drop_take_append {front middle back : List UInt8} {start stop : Nat}
    (hstart : start = front.length) (hstop : stop = front.length + middle.length) :
    ((front ++ (middle ++ back)).take stop).drop start = middle := by
  have htake : (front ++ (middle ++ back)).take stop = front ++ middle := by
    rw [← List.append_assoc, hstop, ← List.length_append, List.take_left]
  rw [htake, hstart, List.drop_left]

/-- Adjacent ranges. -/
theorem drop_take_append_drop_take {α : Type} {start middle stop : Nat} (hstart : start ≤ middle)
    (hstop : middle ≤ stop) (data : List α) :
    (data.take middle).drop start ++ (data.take stop).drop middle = (data.take stop).drop start := by
  have htake : data.take middle = (data.take stop).take middle := by
    rw [List.take_take, Nat.min_eq_left hstop]
  have hdrop : (data.take stop).drop middle =
      ((data.take stop).drop start).drop (middle - start) := by
    rw [List.drop_drop, Nat.add_sub_cancel' hstart]
  rw [htake, List.drop_take, hdrop, List.take_append_drop]

/-- The head of a message is read, and what stands there is the head of a message. -/
theorem head_eq_ok {data : List UInt8} {mode : CmifMode} {metadata : HipcMetadata}
    {handles : List HipcHandle} {descriptors : List HipcDescriptor} {offset : Nat} :
    (∃ offset0 offset1, hipcMetadata data = .ok (metadata, offset0) ∧
      hipcHandles data metadata offset0 = .ok (handles, offset1) ∧
      hipcDescriptors data metadata offset1 mode = .ok (descriptors, offset)) ↔
    ∃ reserved1 reserved2 copies moves,
      ∃ d : HipcDescriptors, metadata.WellFormed reserved1 reserved2 ∧
        copies.length = metadata.copyHandles ∧ moves.length = metadata.moveHandles ∧
        (∀ value ∈ copies ++ moves, value < 2 ^ 32) ∧ d.Fit metadata mode ∧
        At data 0 (metadata.bytes reserved1 reserved2 ++
          ((copies ++ moves).flatMap (leBytes 4) ++ d.bytes)) ∧
        handles = handlesOf .copy copies ++ handlesOf .move moves ∧ descriptors = d.listed ∧
        offset = (metadata.bytes reserved1 reserved2 ++
          ((copies ++ moves).flatMap (leBytes 4) ++ d.bytes)).length := by
  have hhandles := fun values => Layout.length_flatMap_of_size (Codec.length_leBytes 4) values
  constructor
  · rintro ⟨offset0, offset1, h0, h1, h2⟩
    obtain ⟨reserved1, reserved2, hmetadata, hat0, rfl⟩ := HipcMetadata.read_sound h0
    have hle := hat0.length_le HipcMetadata.bytes_ne_nil
    obtain ⟨copies, moves, hcopies, hmoves, hvalues, hat1, rfl, rfl⟩ :=
      (hipcHandles_eq_ok (by omega)).1 h1
    obtain ⟨d, hfit, hat2, rfl, rfl⟩ := HipcDescriptors.read_eq_ok.1 h2
    have hlength : ((copies ++ moves).flatMap (leBytes 4)).length =
        4 * (metadata.copyHandles + metadata.moveHandles) := by
      rw [hhandles, List.length_append, hcopies, hmoves]
    refine ⟨reserved1, reserved2, copies, moves, d, hmetadata, hcopies, hmoves, hvalues, hfit, ?_,
      rfl, rfl, ?_⟩
    · rw [at_append, at_append, hlength, Nat.zero_add]
      exact ⟨hat0, hat1, hat2⟩
    · rw [List.length_append, List.length_append, hlength]
      omega
  · rintro ⟨reserved1, reserved2, copies, moves, d, hmetadata, hcopies, hmoves, hvalues, hfit, hat,
      rfl, rfl, rfl⟩
    have hlength : ((copies ++ moves).flatMap (leBytes 4)).length =
        4 * (metadata.copyHandles + metadata.moveHandles) := by
      rw [hhandles, List.length_append, hcopies, hmoves]
    rw [at_append, at_append, hlength, Nat.zero_add] at hat
    obtain ⟨hat0, hat1, hat2⟩ := hat
    have hle := hat0.length_le HipcMetadata.bytes_ne_nil
    refine ⟨_, _, HipcMetadata.read_bytes hmetadata hat0, (hipcHandles_eq_ok (by omega)).2
      ⟨copies, moves, hcopies, hmoves, hvalues, hat1, rfl, rfl⟩,
      HipcDescriptors.read_eq_ok.2 ⟨d, hfit, hat2, rfl, ?_⟩⟩
    rw [List.length_append, List.length_append, hlength]
    omega

/-- The data words of a well-formed message, from the aligned offset on. -/
theorem at_body {m : HipcMessage} {mode : CmifMode} (hm : m.WellFormed mode) :
    At (m.bytes mode) (align16 m.head.length) (m.body.bytes mode) := by
  refine ⟨m.payload ++ m.rest, ?_⟩
  have hsplit : m.bytes mode =
      (m.head ++ m.padding) ++ (m.body.bytes mode ++ (m.payload ++ m.rest)) := by
    simp only [bytes, words, List.append_assoc]
  rw [hsplit, ← hm.padding, ← List.length_append, List.drop_left]

/-- A well-formed message is decoded to its parts. -/
theorem decodeOne_bytes {m : HipcMessage} {mode : CmifMode} (hm : m.WellFormed mode) :
    decodeOne (m.bytes mode) mode = .ok (m.decoded mode) := by
  have hat : At (m.bytes mode) 0 m.head := Layout.at_zero.2 ⟨_, rfl⟩
  obtain ⟨offset0, offset1, h0, h1, h2⟩ := head_eq_ok.2
    ⟨m.reserved1, m.reserved2, m.copies, m.moves, m.descriptors, hm.metadata, hm.copies, hm.moves,
      hm.handles, hm.descriptors, hat, rfl, rfl, rfl⟩
  have hlength : (m.bytes mode).length = m.head.length + (m.words mode).length + m.rest.length := by
    simp only [bytes, List.length_append]
    omega
  have hwords := hm.words
  have hstop : m.head.length + m.metadata.dataWords * 4 ≤ (m.bytes mode).length := by omega
  have hbody := hm.padding
  have hsize : (m.words mode).length =
      m.padding.length + (m.body.bytes mode).length + m.payload.length := by
    simp only [words, List.length_append]
    omega
  -- the payload is what is left of the data words behind the body
  have hpayload : ((m.bytes mode).take (m.head.length + m.metadata.dataWords * 4)).drop
      (align16 m.head.length + (m.body.bytes mode).length) = m.payload := by
    have hsplit : m.bytes mode =
        (m.head ++ (m.padding ++ m.body.bytes mode)) ++ (m.payload ++ m.rest) := by
      simp only [bytes, words, List.append_assoc]
    rw [hsplit]
    apply drop_take_append
    · rw [List.length_append, List.length_append]
      omega
    · rw [List.length_append, List.length_append]
      omega
  have hcmif : readCmif (m.bytes mode) m.metadata.type (align16 m.head.length)
      (m.head.length + m.metadata.dataWords * 4) mode =
        .ok (some (m.body.decoded mode (align16 m.head.length) m.payload)) :=
    (readCmif_eq_ok hstop).2 ⟨m.body, hm.body, at_body hm, by omega, by rw [hpayload]⟩
  have hhex : hexOfRange (m.bytes mode) m.head.length
      (m.head.length + m.metadata.dataWords * 4) = HexText.upper (m.words mode) := by
    rw [hexOfRange]
    exact congrArg _ (drop_take_append rfl (by omega))
  have hshort : ¬ (m.bytes mode).length < m.head.length + m.metadata.dataWords * 4 := by omega
  change hipcDescriptors _ _ _ _ = .ok (_, m.head.length) at h2
  rw [align16] at hcmif
  rw [decodeOne, h0, protocol_ok_bind]
  simp only [h1, h2, protocol_ok_bind]
  rw [if_neg hshort, hcmif, protocol_ok_bind, hhex]
  rfl

/-- What is decoded is a well-formed message. -/
theorem decodeOne_sound {data : List UInt8} {mode : CmifMode} {decoded : DecodedMessage}
    (h : decodeOne data mode = .ok decoded) :
    ∃ m : HipcMessage, m.WellFormed mode ∧ data = m.bytes mode ∧ decoded = m.decoded mode := by
  rw [decodeOne, protocol_bind_eq_ok] at h
  obtain ⟨⟨metadata, offset0⟩, h0, h⟩ := h
  obtain ⟨⟨handles, offset1⟩, h1, h⟩ := protocol_bind_eq_ok.1 h
  obtain ⟨⟨descriptors, offset⟩, h2, h⟩ := protocol_bind_eq_ok.1 h
  obtain ⟨hlong, h⟩ := protocol_ite_error_eq_ok.1 h
  obtain ⟨found, hcmif, h⟩ := protocol_bind_eq_ok.1 h
  cases found with
  | none => cases h
  | some cmif =>
    rw [protocol_pure_eq_ok] at h
    obtain ⟨reserved1, reserved2, copies, moves, d, hmetadata, hcopies, hmoves, hvalues, hfit, hat,
      rfl, rfl, hoffset⟩ := head_eq_ok.1 ⟨offset0, offset1, h0, h1, h2⟩
    obtain ⟨body, hbody, hatBody, hfits, rfl⟩ := (readCmif_eq_ok (by omega)).1 hcmif
    change At data (align16 offset) _ at hatBody
    change align16 offset + _ ≤ _ at hfits
    have halign : offset ≤ align16 offset := by
      rw [align16]
      omega
    obtain ⟨tail, htail⟩ := Layout.at_zero.1 hat
    -- the message is cut out of the bytes at the offsets that the decoder met
    let stop := offset + metadata.dataWords * 4
    let m : HipcMessage :=
      { metadata := metadata, reserved1 := reserved1, reserved2 := reserved2, copies := copies,
        moves := moves, descriptors := d, body := body
        padding := (data.take (align16 offset)).drop offset
        payload := (data.take stop).drop (align16 offset + (body.bytes mode).length)
        rest := data.drop stop }
    have hhead : m.head = data.take offset := by
      rw [htail, hoffset, List.take_left]
      rfl
    have hlength : m.head.length = offset := hoffset.symm
    have hbodyBytes : body.bytes mode =
        (data.take (align16 offset + (body.bytes mode).length)).drop (align16 offset) := by
      rw [List.drop_take, Nat.add_sub_cancel_left]
      exact hatBody.take.symm
    have hwords : m.words mode = (data.take stop).drop offset := by
      have hinner := drop_take_append_drop_take
        (Nat.le_add_right (align16 offset) (body.bytes mode).length) hfits data
      rw [← hbodyBytes] at hinner
      calc m.words mode
          = (data.take (align16 offset)).drop offset ++ (data.take stop).drop (align16 offset) :=
            congrArg _ hinner
        _ = (data.take stop).drop offset := drop_take_append_drop_take halign (by omega) data
    have hbytes : data = m.bytes mode := by
      rw [bytes, hhead, hwords]
      have hcut := drop_take_append_drop_take (Nat.zero_le offset)
        (Nat.le_add_right offset (metadata.dataWords * 4)) data
      rw [List.drop_zero, List.drop_zero] at hcut
      rw [← List.append_assoc, hcut]
      exact (List.take_append_drop stop data).symm
    have hwell : m.WellFormed mode :=
      { metadata := hmetadata, copies := hcopies, moves := hmoves, handles := hvalues,
        descriptors := hfit, body := hbody
        padding := by
          rw [hlength]
          show offset + ((data.take (align16 offset)).drop offset).length = _
          rw [List.length_drop, List.length_take]
          omega
        words := by
          rw [hwords, List.length_drop, List.length_take]
          show min (offset + metadata.dataWords * 4) data.length - offset = metadata.dataWords * 4
          omega }
    refine ⟨m, hwell, hbytes, ?_⟩
    rw [← h, HipcMessage.decoded, hlength, hwords]
    rfl

/-- The decoder accepts the well-formed messages and nothing else. -/
theorem decodeOne_eq_ok {data : List UInt8} {mode : CmifMode} {decoded : DecodedMessage} :
    decodeOne data mode = .ok decoded ↔
      ∃ m : HipcMessage, m.WellFormed mode ∧ data = m.bytes mode ∧ decoded = m.decoded mode := by
  constructor
  · exact decodeOne_sound
  · rintro ⟨m, hm, rfl, rfl⟩
    exact decodeOne_bytes hm

theorem eight_le_length (m : HipcMessage) (mode : CmifMode) : 8 ≤ (m.bytes mode).length := by
  rw [bytes, head, List.length_append, List.length_append, HipcMetadata.length_bytes]
  omega

/-- With a mode, `decode_hipc_cmif` accepts exactly the layouts of that mode. -/
theorem decodeHipcCmif_some {data : List UInt8} {mode : CmifMode} {decoded : DecodedMessage} :
    decodeHipcCmif data (some mode) = .ok decoded ↔
      ∃ m : HipcMessage, m.WellFormed mode ∧ data = m.bytes mode ∧ decoded = m.decoded mode := by
  rw [← decodeOne_eq_ok, decodeHipcCmif]
  by_cases hshort : data.length < 8
  · rw [if_pos hshort]
    constructor
    · intro h
      cases h
    · intro h
      obtain ⟨m, -, rfl, -⟩ := decodeOne_sound h
      have hlong := m.eight_le_length mode
      omega
  · rw [if_neg hshort]
    show decodeModes data [mode] [] = _ ↔ _
    rw [decodeModes]
    cases decodeOne data mode with
    | ok result => exact Iff.rfl
    | error text =>
      constructor
      · intro h
        cases h
      · intro h
        cases h

/-! ## The mode `auto` -/

/-- After the head, a message is accepted if it has a CMIF part. -/
theorem exists_decodeOne_iff {data : List UInt8} {mode : CmifMode} {metadata : HipcMetadata}
    {handles : List HipcHandle} {descriptors : List HipcDescriptor} {offset : Nat}
    (hhead : ∃ offset0 offset1, hipcMetadata data = .ok (metadata, offset0) ∧
      hipcHandles data metadata offset0 = .ok (handles, offset1) ∧
      hipcDescriptors data metadata offset1 mode = .ok (descriptors, offset))
    (hstop : offset + metadata.dataWords * 4 ≤ data.length) :
    (∃ decoded, decodeOne data mode = .ok decoded) ↔
      ∃ cmif, readCmif data metadata.type (align16 offset) (offset + metadata.dataWords * 4) mode =
        .ok (some cmif) := by
  obtain ⟨offset0, offset1, h0, h1, h2⟩ := hhead
  have hshort : ¬ data.length < offset + metadata.dataWords * 4 := by omega
  rw [decodeOne, h0, protocol_ok_bind]
  simp only [h1, h2, protocol_ok_bind]
  rw [if_neg hshort]
  constructor
  · rintro ⟨decoded, h⟩
    obtain ⟨found, hcmif, h⟩ := protocol_bind_eq_ok.1 h
    cases found with
    | none => cases h
    | some cmif => exact ⟨cmif, hcmif⟩
  · rintro ⟨cmif, hcmif⟩
    rw [align16] at hcmif
    rw [hcmif, protocol_ok_bind]
    exact ⟨_, rfl⟩

/-- The responses that have the layout of a request as well: the request's magic number stands at the
    beginning of the domain header or of the payload, or the domain header closes an object. -/
def LooksLikeRequest (m : HipcMessage) : Prop :=
  match m.body with
  | .close _ => False
  | .plain _ => 16 ≤ m.payload.length ∧ leNat 4 m.payload = cmifMagic .request
  | .inDomain domain _ =>
    domain.first = cmifMagic .request ∨ (m.metadata.type = 4 ∧ domain.IsClose)

theorem leNat_append (n : Nat) (front back : List UInt8) (h : n ≤ front.length) :
    leNat n (front ++ back) = leNat n front := by
  induction n generalizing front with
  | zero => rfl
  | succ n ih =>
    cases front with
    | nil => simp at h
    | cons b rest => rw [List.cons_append, leNat, leNat, ih rest (by simpa using h)]

/-- A response without buffers is accepted as a request exactly if it looks like one. -/
theorem response_as_request {m : HipcMessage} (hm : m.WellFormed .response)
    (hsends : m.metadata.sendBuffers = 0) (hreceives : m.metadata.receiveBuffers = 0)
    (hexchanges : m.metadata.exchangeBuffers = 0) :
    (∃ decoded, decodeOne (m.bytes .response) .request = .ok decoded) ↔ m.LooksLikeRequest := by
  have hat : At (m.bytes .response) 0 m.head := Layout.at_zero.2 ⟨_, rfl⟩
  -- only a request has its buffer descriptors read, and there are none
  have hfit : m.descriptors.Fit m.metadata .request :=
    { hm.descriptors with
      sends := by rw [hm.descriptors.sends, hsends]; rfl
      receives := by rw [hm.descriptors.receives, hreceives]; rfl
      exchanges := by rw [hm.descriptors.exchanges, hexchanges]; rfl }
  have hhead := head_eq_ok.2
    ⟨m.reserved1, m.reserved2, m.copies, m.moves, m.descriptors, hm.metadata, hm.copies, hm.moves,
      hm.handles, hfit, hat, rfl, rfl, rfl⟩
  have hlength : (m.bytes .response).length =
      m.head.length + (m.words .response).length + m.rest.length := by
    simp only [bytes, List.length_append]
    omega
  have hwords := hm.words
  have hstop : m.head.length + m.metadata.dataWords * 4 ≤ (m.bytes .response).length := by omega
  have hpadding := hm.padding
  have hsize : (m.words .response).length =
      m.padding.length + (m.body.bytes .response).length + m.payload.length := by
    simp only [words, List.length_append]
    omega
  have haccept : (∃ decoded, decodeOne (m.bytes .response) .request = .ok decoded) ↔
      ∃ cmif, readCmif (m.bytes .response) m.metadata.type (align16 m.head.length)
        (m.head.length + m.metadata.dataWords * 4) .request = .ok (some cmif) :=
    exists_decodeOne_iff hhead hstop
  rw [haccept, readCmif_eq hstop, LooksLikeRequest]
  have hbody := at_body hm
  have hvalid := hm.body
  have hother : cmifMagic .response ≠ cmifMagic .request := by decide
  cases hkind : m.body with
  | close domain =>
    rw [hkind] at hvalid
    exact absurd hvalid.1 (by decide)
  | plain header =>
    -- the magic of the response stands first, so a request is only found in the payload behind it
    rw [hkind] at hbody hvalid hsize
    obtain ⟨hmagic, -⟩ := CmifWords.eq_ofData hvalid hbody
    rw [CmifBody.bytes, CmifWords.length_bytes] at hsize
    have hpayload : (m.bytes .response).drop (align16 m.head.length + 16) = m.payload ++ m.rest := by
      have hsplit : m.bytes .response =
          (m.head ++ (m.padding ++ header.bytes .response)) ++ (m.payload ++ m.rest) := by
        simp only [bytes, words, hkind, CmifBody.bytes, List.append_assoc]
      rw [hsplit, ← hpadding, show m.head.length + m.padding.length + 16 =
        (m.head ++ (m.padding ++ header.bytes .response)).length by
          simp only [List.length_append, CmifWords.length_bytes]; omega, List.drop_left]
    rw [if_neg (fun h => not_isClose_of_magic hmagic h.2.2.2),
      if_neg (fun h => hother (hmagic.symm.trans h.2)), wordAt, hpayload]
    constructor
    · rintro ⟨cmif, h⟩
      split_ifs at h with hfound
      · have hlong : 16 ≤ m.payload.length := by omega
        rw [leNat_append 4 _ _ (by omega)] at hfound
        exact ⟨hlong, hfound.2⟩
      · cases h
    · rintro ⟨hlong, hfound⟩
      rw [leNat_append 4 _ _ (by omega), if_pos ⟨by omega, hfound⟩]
      exact ⟨_, rfl⟩
  | inDomain domain header =>
    rw [hkind] at hbody hvalid hsize
    rw [CmifBody.bytes, at_append, CmifDomainWords.length_bytes] at hbody
    obtain ⟨hvalidDomain, hvalidHeader, -⟩ := hvalid
    have hdomain := CmifDomainWords.eq_ofData hvalidDomain hbody.1
    have hfirst : wordAt (m.bytes .response) (align16 m.head.length) = domain.first := by
      rw [← CmifDomainWords.first_ofData, ← hdomain]
    obtain ⟨hmagic, -⟩ := CmifWords.eq_ofData hvalidHeader hbody.2
    rw [CmifBody.bytes, List.length_append, CmifDomainWords.length_bytes,
      CmifWords.length_bytes] at hsize
    have hfits : align16 m.head.length + 16 ≤ m.head.length + m.metadata.dataWords * 4 := by omega
    rw [← hdomain, hfirst, hmagic]
    constructor
    · rintro ⟨cmif, h⟩
      split_ifs at h with hclose hplain hnested
      · exact .inr ⟨hclose.2.1, hclose.2.2.2⟩
      · exact .inl hplain.2
      · exact absurd hnested.2 hother
      · cases h
    · intro h
      by_cases hclose : m.metadata.type = 4 ∧ domain.IsClose
      · rw [if_pos ⟨rfl, hclose.1, hfits, hclose.2⟩]
        exact ⟨_, rfl⟩
      · have hplain := h.resolve_right hclose
        rw [if_neg (fun hc => hclose ⟨hc.2.1, hc.2.2.2⟩), if_pos ⟨hfits, hplain⟩]
        exact ⟨_, rfl⟩

theorem decodeHipcCmif_auto_of_length {data : List UInt8} (hlong : 8 ≤ data.length) :
    decodeHipcCmif data none = decodeModes data [.request, .response] [] :=
  if_neg (by omega)

@[simp] theorem mode_decoded (m : HipcMessage) (mode : CmifMode) :
    (m.decoded mode).cmif.mode = mode := by
  unfold decoded
  cases m.body with
  | close domain => rfl
  | plain header => rfl
  | inDomain domain header => rfl

/-- In the mode `auto` a request is read as a request; a response without buffers is read as a response
    unless it looks like a request, and then it is not. -/
theorem decodeHipcCmif_auto :
    (∀ m : HipcMessage, m.WellFormed .request →
      decodeHipcCmif (m.bytes .request) none = .ok (m.decoded .request)) ∧
    ∀ m : HipcMessage, m.WellFormed .response → m.metadata.sendBuffers = 0 →
      m.metadata.receiveBuffers = 0 → m.metadata.exchangeBuffers = 0 →
      (decodeHipcCmif (m.bytes .response) none = .ok (m.decoded .response) ↔
        ¬ m.LooksLikeRequest) := by
  constructor
  · intro m hm
    rw [decodeHipcCmif_auto_of_length (m.eight_le_length .request), decodeModes,
      decodeOne_bytes hm]
    rfl
  · intro m hm hsends hreceives hexchanges
    have hrequest := response_as_request hm hsends hreceives hexchanges
    rw [decodeHipcCmif_auto_of_length (m.eight_le_length .response), decodeModes, ← hrequest]
    cases hfirst : decodeOne (m.bytes .response) .request with
    | ok decoded =>
      -- the decoded request says so in its mode
      obtain ⟨m', -, -, rfl⟩ := decodeOne_sound hfirst
      constructor
      · intro h
        have hmode := congrArg (fun decoded => decoded.cmif.mode) (Except.ok.inj h)
        simp only [mode_decoded] at hmode
        cases hmode
      · intro h
        exact absurd ⟨_, rfl⟩ h
    | error text =>
      show decodeModes _ [.response] ([] ++ [text]) = _ ↔ _
      rw [decodeModes, decodeOne_bytes hm]
      constructor
      · rintro - ⟨decoded, h⟩
        cases h
      · intro _
        rfl

/-- A request with a copied and a moved handle, and a domain response. -/
def transferRequest : HipcMessage where
  metadata := ⟨4, 0, 0, 0, 0, 8, 0, 1, 1, 1, none⟩
  reserved1 := 0
  reserved2 := 0
  copies := [0x11223344]
  moves := [0x55667788]
  descriptors := ⟨[], [], [], []⟩
  padding := List.replicate 12 0
  body := .plain ⟨0, 9, 0⟩
  payload := [1, 2, 3, 4]
  rest := [0]

def domainResponse : HipcMessage where
  metadata := ⟨0, 0, 0, 0, 0, 10, 0, 0, 0, 0, none⟩
  reserved1 := 0
  reserved2 := 0
  copies := []
  moves := []
  descriptors := ⟨[], [], [], []⟩
  padding := List.replicate 8 0
  body := .inDomain ⟨1, 0, 0, 7, 0, 0⟩ ⟨0, 0x167B, 0x11223344⟩
  payload := []
  rest := []

theorem transferRequest_wellFormed : transferRequest.WellFormed .request where
  metadata :=
    { fits0 := ⟨by decide, by decide, by decide, by decide, by decide, trivial⟩
      fits1 := ⟨by decide, by decide, by decide, by decide, trivial⟩
      fits2 := ⟨by decide, by decide, by decide, by decide, trivial⟩
      pid := by
        intro pid h
        cases h
      plain := by decide }
  copies := rfl
  moves := rfl
  handles := by decide
  descriptors := ⟨rfl, rfl, rfl, rfl, by simp [transferRequest], by simp [transferRequest],
    by simp [transferRequest], by simp [transferRequest]⟩
  padding := rfl
  body := ⟨by decide, by decide, by decide⟩
  words := rfl

theorem domainResponse_wellFormed : domainResponse.WellFormed .response where
  metadata :=
    { fits0 := ⟨by decide, by decide, by decide, by decide, by decide, trivial⟩
      fits1 := ⟨by decide, by decide, by decide, by decide, trivial⟩
      fits2 := ⟨by decide, by decide, by decide, by decide, trivial⟩
      pid := by
        intro pid h
        cases h
      plain := fun _ => ⟨rfl, rfl, rfl⟩ }
  copies := rfl
  moves := rfl
  handles := by decide
  descriptors := ⟨rfl, rfl, rfl, rfl, by simp [domainResponse], by simp [domainResponse],
    by simp [domainResponse], by simp [domainResponse]⟩
  padding := rfl
  body := ⟨⟨⟨by decide, by decide, by decide, trivial⟩, by decide, by decide, by decide⟩,
    ⟨by decide, by decide, by decide⟩, by decide, by
      rintro ⟨h, -⟩
      cases h⟩
  words := rfl

theorem decodeHipcCmif_auto_messages :
    decodeHipcCmif (transferRequest.bytes .request) none = .ok (transferRequest.decoded .request) ∧
      decodeHipcCmif (domainResponse.bytes .response) none =
        .ok (domainResponse.decoded .response) := by
  refine ⟨decodeHipcCmif_auto.1 transferRequest transferRequest_wellFormed,
    (decodeHipcCmif_auto.2 domainResponse domainResponse_wellFormed rfl rfl rfl).2 ?_⟩
  rintro (h | ⟨h, -⟩)
  · exact absurd h (by decide)
  · exact absurd h (by decide)

end HipcMessage

end SysAgent
