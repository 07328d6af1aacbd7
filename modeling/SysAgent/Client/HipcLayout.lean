import SysAgent.Client.HipcMessage

set_option autoImplicit false

/-! # The layout of an IPC message

`HipcMessage` is a message as its parts, `HipcMessage.bytes` their layout, bit for bit, with the bits
that no part uses as parts of their own. `decodeOne_eq_ok` says that the decoder accepts exactly the
layouts of the well-formed messages and returns their parts. -/

namespace SysAgent

open BitFields (extract pack unpack Fits)
open Codec (leBytes)
open Layout (At at_append)

/-! ## Reading -/

theorem protocol_bind_eq_ok {α β : Type} {x : ProtocolResult α} {f : α → ProtocolResult β} {b : β} :
    (x >>= f) = .ok b ↔ ∃ a, x = .ok a ∧ f a = .ok b := by
  cases x with
  | error text => simp [bind, Except.bind]
  | ok a => simp [bind, Except.bind]

theorem protocol_ok_bind {α β : Type} (a : α) (f : α → ProtocolResult β) :
    (Except.ok a >>= f) = f a := rfl

@[simp] theorem protocol_pure_eq_ok {α : Type} {a b : α} :
    (pure a : ProtocolResult α) = .ok b ↔ a = b := Except.ok.injEq a b ▸ Iff.rfl

theorem protocol_ite_error_eq_ok {α : Type} {p : Prop} [Decidable p] {text : String}
    {x : ProtocolResult α} {b : α} :
    (if p then .error text else x) = .ok b ↔ ¬ p ∧ x = .ok b := by
  by_cases hp : p
  · simp [hp]
  · simp [hp]

theorem readWord_eq_ok {size : Nat} (hsize : 0 < size) {data : List UInt8} {offset value : Nat}
    {label : String} :
    readWord size data offset label = .ok value ↔
      value < 256 ^ size ∧ At data offset (leBytes size value) := by
  rw [Layout.at_leBytes_iff hsize, readWord]
  by_cases hshort : data.length < offset + size
  · rw [if_pos hshort]
    constructor
    · intro h
      cases h
    · rintro ⟨hlong, -⟩
      omega
  · rw [if_neg hshort, Except.ok.injEq]
    constructor
    · intro h
      exact ⟨by omega, h⟩
    · rintro ⟨-, h⟩
      exact h

theorem readU32_eq_ok {data : List UInt8} {offset value : Nat} {label : String} :
    readU32 data offset label = .ok value ↔ value < 2 ^ 32 ∧ At data offset (leBytes 4 value) :=
  readWord_eq_ok (by omega)

theorem readU64_eq_ok {data : List UInt8} {offset value : Nat} {label : String} :
    readU64 data offset label = .ok value ↔ value < 2 ^ 64 ∧ At data offset (leBytes 8 value) :=
  readWord_eq_ok (by omega)

/-- A loop over records reads what stands there, if one turn does. -/
theorem readEach_eq_ok {α : Type} {read : Nat → ProtocolResult α} {data : List UInt8}
    {encode : α → List UInt8} {Valid : α → Prop} {size : Nat}
    (hread : ∀ offset a, read offset = .ok a ↔ Valid a ∧ At data offset (encode a))
    (hsize : ∀ a, (encode a).length = size) (count offset : Nat) (records : List α) (stop : Nat) :
    readEach read size count offset = .ok (records, stop) ↔
      records.length = count ∧ (∀ a ∈ records, Valid a) ∧
        At data offset (records.flatMap encode) ∧ stop = offset + size * count := by
  induction count generalizing offset records with
  | zero =>
    rw [readEach, protocol_pure_eq_ok, Prod.mk.injEq]
    constructor
    · rintro ⟨rfl, rfl⟩
      simp
    · rintro ⟨hlength, -, -, hstop⟩
      exact ⟨(List.length_eq_zero_iff.1 hlength).symm, by omega⟩
  | succ count ih =>
    rw [readEach, protocol_bind_eq_ok]
    constructor
    · rintro ⟨a, ha, h⟩
      obtain ⟨⟨rest, stop'⟩, hrest, h⟩ := protocol_bind_eq_ok.1 h
      obtain ⟨rfl, rfl⟩ := Prod.mk.inj (protocol_pure_eq_ok.1 h)
      obtain ⟨hvalid, hat⟩ := (hread _ _).1 ha
      obtain ⟨hlength, hall, hats, rfl⟩ := (ih _ _).1 hrest
      refine ⟨by rw [List.length_cons, hlength], ?_, ?_, by rw [Nat.mul_succ]; omega⟩
      · intro b hb
        rcases List.mem_cons.1 hb with rfl | hb
        · exact hvalid
        · exact hall b hb
      · rw [Layout.at_flatMap_cons, hsize]
        exact ⟨hat, hats⟩
    · rintro ⟨hlength, hall, hats, rfl⟩
      cases records with
      | nil => simp at hlength
      | cons a rest =>
        rw [Layout.at_flatMap_cons, hsize] at hats
        have ha := (hread offset a).2 ⟨hall a List.mem_cons_self, hats.1⟩
        have hstop : offset + size * (count + 1) = offset + size + size * count := by
          rw [Nat.mul_succ]
          omega
        have hrest := (ih (offset + size) rest).2
          ⟨by simpa using hlength, fun b hb => hall b (List.mem_cons_of_mem _ hb), hats.2, hstop⟩
        refine ⟨a, ha, ?_⟩
        rw [hrest]
        rfl

/-! ## Headers -/

namespace HipcMetadata

/-- The fields of the first header word. -/
def fields0 (m : HipcMetadata) : List (Nat × Nat) :=
  [(16, m.type), (4, m.sendStatics), (4, m.sendBuffers), (4, m.receiveBuffers),
    (4, m.exchangeBuffers)]

/-- The fields of the second header word; 17 of its bits are not read. -/
def fields1 (m : HipcMetadata) (reserved : Nat) : List (Nat × Nat) :=
  [(10, m.dataWords), (4, m.receiveStaticMode), (17, reserved), (1, m.specialHeader)]

/-- The fields of the special header. -/
def fields2 (m : HipcMetadata) (reserved : Nat) : List (Nat × Nat) :=
  [(1, if m.pid.isSome then 1 else 0), (4, m.copyHandles), (4, m.moveHandles), (23, reserved)]

def pidBytes (m : HipcMetadata) : List UInt8 :=
  match m.pid with
  | none => []
  | some pid => leBytes 8 pid

def specialBytes (m : HipcMetadata) (reserved : Nat) : List UInt8 :=
  if m.specialHeader = 0 then [] else leBytes 4 (pack (m.fields2 reserved)) ++ m.pidBytes

def bytes (m : HipcMetadata) (reserved1 reserved2 : Nat) : List UInt8 :=
  leBytes 4 (pack m.fields0) ++ (leBytes 4 (pack (m.fields1 reserved1)) ++ m.specialBytes reserved2)

/-- Every field fits, and without a special header there are no handles and there is no process id. -/
structure WellFormed (m : HipcMetadata) (reserved1 reserved2 : Nat) : Prop where
  fits0 : Fits m.fields0
  fits1 : Fits (m.fields1 reserved1)
  fits2 : Fits (m.fields2 reserved2)
  pid : ∀ pid, m.pid = some pid → pid < 2 ^ 64
  plain : m.specialHeader = 0 → m.copyHandles = 0 ∧ m.moveHandles = 0 ∧ m.pid = none

variable {m : HipcMetadata} {reserved1 reserved2 : Nat}

theorem bytes_ne_nil : m.bytes reserved1 reserved2 ≠ [] := by
  simp [bytes, leBytes]

/-- The fields of the first word are those of the metadata. -/
theorem unpack_fields0 (hfits : Fits m.fields0) :
    extract (pack m.fields0) 0 0xFFFF = m.type ∧
      extract (pack m.fields0) 16 0xF = m.sendStatics ∧
      extract (pack m.fields0) 20 0xF = m.sendBuffers ∧
      extract (pack m.fields0) 24 0xF = m.receiveBuffers ∧
      extract (pack m.fields0) 28 0xF = m.exchangeBuffers := by
  have h := BitFields.unpack_pack hfits
  simp only [fields0, List.map_cons, List.map_nil, unpack, List.cons.injEq, Prod.mk.injEq,
    true_and, and_true] at h
  exact h

theorem unpack_fields1 (hfits : Fits (m.fields1 reserved1)) :
    extract (pack (m.fields1 reserved1)) 0 0x3FF = m.dataWords ∧
      extract (pack (m.fields1 reserved1)) 10 0xF = m.receiveStaticMode ∧
      extract (pack (m.fields1 reserved1)) 31 1 = m.specialHeader := by
  have h := BitFields.unpack_pack hfits
  simp only [fields1, List.map_cons, List.map_nil, unpack, List.cons.injEq, Prod.mk.injEq,
    true_and, and_true] at h
  exact ⟨h.1, h.2.1, h.2.2.2⟩

theorem unpack_fields2 (hfits : Fits (m.fields2 reserved2)) :
    extract (pack (m.fields2 reserved2)) 0 1 = (if m.pid.isSome then 1 else 0) ∧
      extract (pack (m.fields2 reserved2)) 1 0xF = m.copyHandles ∧
      extract (pack (m.fields2 reserved2)) 5 0xF = m.moveHandles := by
  have h := BitFields.unpack_pack hfits
  simp only [fields2, List.map_cons, List.map_nil, unpack, List.cons.injEq, Prod.mk.injEq,
    true_and, and_true] at h
  exact ⟨h.1, h.2.1, h.2.2.1⟩

/-- The headers of well-formed metadata are read back. -/
theorem read_bytes {data : List UInt8} (hm : m.WellFormed reserved1 reserved2)
    (hat : At data 0 (m.bytes reserved1 reserved2)) :
    hipcMetadata data = .ok (m, (m.bytes reserved1 reserved2).length) := by
  have hpack0 : pack m.fields0 < 2 ^ 32 := BitFields.pack_lt hm.fits0
  have hpack1 : pack (m.fields1 reserved1) < 2 ^ 32 := BitFields.pack_lt hm.fits1
  have hpack2 : pack (m.fields2 reserved2) < 2 ^ 32 := BitFields.pack_lt hm.fits2
  obtain ⟨hat0, hat1⟩ := at_append.1 hat
  obtain ⟨hat1, hat2⟩ := at_append.1 hat1
  simp only [Codec.length_leBytes, Nat.zero_add, Nat.reduceAdd] at hat1 hat2
  have hread0 : readU32 data 0 "HIPC header" = .ok (pack m.fields0) :=
    readU32_eq_ok.2 ⟨hpack0, hat0⟩
  have hread1 : readU32 data 4 "HIPC header" = .ok (pack (m.fields1 reserved1)) :=
    readU32_eq_ok.2 ⟨hpack1, hat1⟩
  obtain ⟨htype, hstatics, hsends, hreceives, hexchanges⟩ := unpack_fields0 hm.fits0
  obtain ⟨hwords, hmode, hspecial⟩ := unpack_fields1 hm.fits1
  obtain ⟨hpid, hcopy, hmove⟩ := unpack_fields2 hm.fits2
  rw [hipcMetadata, hread0, protocol_ok_bind, hread1, protocol_ok_bind]
  simp only [htype, hstatics, hsends, hreceives, hexchanges, hwords, hmode, hspecial]
  by_cases hplain : m.specialHeader = 0
  · obtain ⟨hcopies, hmoves, hnone⟩ := hm.plain hplain
    rw [if_pos hplain, ← hcopies, bytes, specialBytes, if_pos hplain]
    cases m
    simp_all
  · rw [specialBytes, if_neg hplain] at hat2
    obtain ⟨hat2, hat3⟩ := at_append.1 hat2
    simp only [Codec.length_leBytes, Nat.reduceAdd] at hat3
    have hread2 : readU32 data 8 "HIPC special header" = .ok (pack (m.fields2 reserved2)) :=
      readU32_eq_ok.2 ⟨hpack2, hat2⟩
    rw [if_neg hplain, hread2]
    simp only [protocol_ok_bind, hpid, hcopy, hmove]
    cases hsome : m.pid with
    | none =>
      rw [if_pos (by simp), bytes, specialBytes, if_neg hplain, pidBytes, hsome]
      cases m
      simp_all
    | some pid =>
      rw [pidBytes, hsome] at hat3
      have hread3 : readU64 data 12 "HIPC PID" = .ok pid :=
        readU64_eq_ok.2 ⟨hm.pid pid hsome, hat3⟩
      rw [if_neg (by simp), hread3, protocol_ok_bind, bytes, specialBytes, if_neg hplain,
        pidBytes, hsome]
      cases m
      simp_all

/-- The metadata with these words for its headers. -/
def ofWords (word0 word1 : Nat) (copyHandles moveHandles : Nat) (pid : Option Nat) :
    HipcMetadata where
  type := extract word0 0 0xFFFF
  sendStatics := extract word0 16 0xF
  sendBuffers := extract word0 20 0xF
  receiveBuffers := extract word0 24 0xF
  exchangeBuffers := extract word0 28 0xF
  dataWords := extract word1 0 0x3FF
  receiveStaticMode := extract word1 10 0xF
  specialHeader := extract word1 31 1
  copyHandles := copyHandles
  moveHandles := moveHandles
  pid := pid

theorem fields0_ofWords (word0 word1 copies moves : Nat) (pid : Option Nat) :
    (ofWords word0 word1 copies moves pid).fields0 = unpack word0 0 [16, 4, 4, 4, 4] := rfl

theorem fields1_ofWords (word0 word1 copies moves : Nat) (pid : Option Nat) :
    (ofWords word0 word1 copies moves pid).fields1 (extract word1 14 0x1FFFF) =
      unpack word1 0 [10, 4, 17, 1] := rfl

theorem pack_fields0_ofWords {word0 : Nat} (h : word0 < 2 ^ 32) (word1 copies moves : Nat)
    (pid : Option Nat) : pack (ofWords word0 word1 copies moves pid).fields0 = word0 := by
  rw [fields0_ofWords, BitFields.pack_unpack h, Nat.pow_zero, Nat.div_one]

theorem pack_fields1_ofWords {word1 : Nat} (h : word1 < 2 ^ 32) (word0 copies moves : Nat)
    (pid : Option Nat) :
    pack ((ofWords word0 word1 copies moves pid).fields1 (extract word1 14 0x1FFFF)) = word1 := by
  rw [fields1_ofWords, BitFields.pack_unpack h, Nat.pow_zero, Nat.div_one]

theorem fields2_ofWords (word0 word1 word2 : Nat) {pid : Option Nat}
    (hpid : extract word2 0 1 = if pid.isSome then 1 else 0) :
    (ofWords word0 word1 (extract word2 1 0xF) (extract word2 5 0xF) pid).fields2
      (extract word2 9 0x7FFFFF) = unpack word2 0 [1, 4, 4, 23] := by
  rw [fields2, ofWords, ← hpid]
  rfl

theorem length_bytes (m : HipcMetadata) (reserved1 reserved2 : Nat) :
    (m.bytes reserved1 reserved2).length = 8 + (m.specialBytes reserved2).length := by
  simp only [bytes, List.length_append, Codec.length_leBytes]
  omega

/-- What is read as metadata is laid out at the beginning of the data. -/
theorem read_sound {data : List UInt8} {offset : Nat} (h : hipcMetadata data = .ok (m, offset)) :
    ∃ reserved1 reserved2, m.WellFormed reserved1 reserved2 ∧
      At data 0 (m.bytes reserved1 reserved2) ∧
      offset = (m.bytes reserved1 reserved2).length := by
  rw [hipcMetadata, protocol_bind_eq_ok] at h
  obtain ⟨word0, hread0, h⟩ := h
  obtain ⟨word1, hread1, h⟩ := protocol_bind_eq_ok.1 h
  obtain ⟨hword0, hat0⟩ := readU32_eq_ok.1 hread0
  obtain ⟨hword1, hat1⟩ := readU32_eq_ok.1 hread1
  have hfits0 := BitFields.fits_unpack word0 0 [16, 4, 4, 4, 4]
  have hfits1 := BitFields.fits_unpack word1 0 [10, 4, 17, 1]
  -- the header words stand there, whatever the special header adds
  have hheader : ∀ copies moves pid reserved2,
      At data 8 ((ofWords word0 word1 copies moves pid).specialBytes reserved2) →
      At data 0 ((ofWords word0 word1 copies moves pid).bytes (extract word1 14 0x1FFFF)
        reserved2) := by
    intro copies moves pid reserved2 hspecial
    rw [bytes, at_append, at_append, pack_fields0_ofWords hword0, pack_fields1_ofWords hword1]
    simp only [Codec.length_leBytes, Nat.zero_add, Nat.reduceAdd]
    exact ⟨hat0, hat1, hspecial⟩
  by_cases hplain : extract word1 31 1 = 0
  · rw [if_pos hplain, protocol_pure_eq_ok, Prod.mk.injEq] at h
    obtain ⟨rfl, rfl⟩ := h
    have hnone : (ofWords word0 word1 0 0 none).specialBytes 0 = [] := if_pos hplain
    refine ⟨extract word1 14 0x1FFFF, 0, ⟨hfits0, hfits1, ?_, ?_, ?_⟩,
      hheader 0 0 none 0 (by rw [hnone]; exact Layout.at_nil data 8), ?_⟩
    · exact ⟨Nat.two_pow_pos 1, Nat.two_pow_pos 4, Nat.two_pow_pos 4, Nat.two_pow_pos 23, trivial⟩
    · intro pid hpid
      cases hpid
    · intro _
      exact ⟨rfl, rfl, rfl⟩
    · have hlength := length_bytes (ofWords word0 word1 0 0 none) (extract word1 14 0x1FFFF) 0
      rw [hnone] at hlength
      exact hlength.symm
  · rw [if_neg hplain] at h
    obtain ⟨word2, hread2, h⟩ := protocol_bind_eq_ok.1 h
    obtain ⟨hword2, hat2⟩ := readU32_eq_ok.1 hread2
    have hfits2 := BitFields.fits_unpack word2 0 [1, 4, 4, 23]
    have hpack2 : pack (unpack word2 0 [1, 4, 4, 23]) = word2 := by
      rw [BitFields.pack_unpack hword2, Nat.pow_zero, Nat.div_one]
    have hbit : extract word2 0 1 < 2 ^ 1 := BitFields.extract_lt rfl word2 0
    -- the two cases of the process id differ only in the bytes after the special header
    have hspecial : ∀ pid, (extract word2 0 1 = if pid.isSome then 1 else 0) →
        (∀ value, pid = some value → value < 2 ^ 64) →
        let m := ofWords word0 word1 (extract word2 1 0xF) (extract word2 5 0xF) pid
        At data 12 m.pidBytes → ∃ reserved1 reserved2, m.WellFormed reserved1 reserved2 ∧
          At data 0 (m.bytes reserved1 reserved2) ∧
          12 + m.pidBytes.length = (m.bytes reserved1 reserved2).length := by
      intro pid hpid hvalue m hat3
      have hfields : m.fields2 (extract word2 9 0x7FFFFF) = unpack word2 0 [1, 4, 4, 23] :=
        fields2_ofWords word0 word1 word2 hpid
      have hbytes : m.specialBytes (extract word2 9 0x7FFFFF) = leBytes 4 word2 ++ m.pidBytes := by
        rw [specialBytes, if_neg (show m.specialHeader ≠ 0 from hplain), hfields, hpack2]
      refine ⟨extract word1 14 0x1FFFF, extract word2 9 0x7FFFFF,
        ⟨hfits0, hfits1, hfields ▸ hfits2, hvalue, fun h => absurd h hplain⟩,
        hheader _ _ _ _ ?_, ?_⟩
      · rw [hbytes, at_append, Codec.length_leBytes]
        exact ⟨hat2, hat3⟩
      · rw [length_bytes, hbytes, List.length_append, Codec.length_leBytes]
        omega
    by_cases hpid : extract word2 0 1 = 0
    · rw [if_pos hpid, protocol_pure_eq_ok, Prod.mk.injEq] at h
      obtain ⟨rfl, rfl⟩ := h
      exact hspecial none hpid (by simp) (Layout.at_nil data 12)
    · rw [if_neg hpid] at h
      obtain ⟨pid, hread3, h⟩ := protocol_bind_eq_ok.1 h
      obtain ⟨hvalue, hat3⟩ := readU64_eq_ok.1 hread3
      rw [protocol_pure_eq_ok, Prod.mk.injEq] at h
      obtain ⟨rfl, rfl⟩ := h
      have hone : extract word2 0 1 = 1 := by omega
      have hlength : (leBytes 8 pid).length = 8 := Codec.length_leBytes 8 pid
      have hresult := hspecial (some pid) hone (by simpa using hvalue) hat3
      simp only [pidBytes, ofWords, hlength] at hresult
      exact hresult

end HipcMetadata

/-! ## Handles and descriptors -/

theorem hipcHandles_eq_ok {data : List UInt8} {m : HipcMetadata} {offset stop : Nat}
    {handles : List HipcHandle} (hoffset : offset ≤ data.length) :
    hipcHandles data m offset = .ok (handles, stop) ↔
      ∃ copies moves : List Nat, copies.length = m.copyHandles ∧ moves.length = m.moveHandles ∧
        (∀ value ∈ copies ++ moves, value < 2 ^ 32) ∧
        At data offset ((copies ++ moves).flatMap (leBytes 4)) ∧
        handles = handlesOf .copy copies ++ handlesOf .move moves ∧
        stop = offset + 4 * (m.copyHandles + m.moveHandles) := by
  have heach : ∀ count offset values stop,
      readEach (fun position => readU32 data position "HIPC handle") 4 count offset =
          .ok (values, stop) ↔
        values.length = count ∧ (∀ value ∈ values, value < 2 ^ 32) ∧
          At data offset (values.flatMap (leBytes 4)) ∧ stop = offset + 4 * count :=
    readEach_eq_ok (fun _ _ => readU32_eq_ok) (Codec.length_leBytes 4)
  have hlength := fun values => Layout.length_flatMap_of_size (Codec.length_leBytes 4) values
  rw [hipcHandles, protocol_ite_error_eq_ok]
  constructor
  · rintro ⟨hfits, h⟩
    obtain ⟨⟨copies, middle⟩, hcopies, h⟩ := protocol_bind_eq_ok.1 h
    obtain ⟨⟨moves, last⟩, hmoves, h⟩ := protocol_bind_eq_ok.1 h
    obtain ⟨rfl, rfl⟩ := Prod.mk.inj (protocol_pure_eq_ok.1 h)
    obtain ⟨hclength, hcvalid, hcat, rfl⟩ := (heach _ _ _ _).1 hcopies
    obtain ⟨hmlength, hmvalid, hmat, rfl⟩ := (heach _ _ _ _).1 hmoves
    refine ⟨copies, moves, hclength, hmlength, ?_, ?_, rfl, by omega⟩
    · intro value hvalue
      rcases List.mem_append.1 hvalue with hc | hm
      · exact hcvalid value hc
      · exact hmvalid value hm
    · rw [List.flatMap_append, at_append, hlength, hclength]
      exact ⟨hcat, hmat⟩
  · rintro ⟨copies, moves, hclength, hmlength, hvalid, hat, rfl, rfl⟩
    have hfits : offset + 4 * (m.copyHandles + m.moveHandles) ≤ data.length := by
      have hle := List.IsPrefix.length_le hat
      rw [hlength, List.length_append, hclength, hmlength, List.length_drop] at hle
      omega
    rw [List.flatMap_append, at_append, hlength, hclength] at hat
    have hcopies := (heach m.copyHandles offset copies _).2
      ⟨hclength, fun value h => hvalid value (List.mem_append_left _ h), hat.1, rfl⟩
    have hmoves := (heach m.moveHandles (offset + 4 * m.copyHandles) moves _).2
      ⟨hmlength, fun value h => hvalid value (List.mem_append_right _ h), hat.2, rfl⟩
    refine ⟨by omega, ?_⟩
    simp only [hcopies, hmoves, protocol_ok_bind, protocol_pure_eq_ok, Prod.mk.injEq, true_and]
    omega

/-- An address is its low word, the next four bits and what is above them. -/
theorem address_of_parts (address : Nat) :
    address % 2 ^ 32 + 2 ^ 32 * (address / 2 ^ 32 % 2 ^ 4 + 2 ^ 4 * (address / 2 ^ 36)) =
      address := by
  omega

theorem parts_of_address {low middle : Nat} (hlow : low < 2 ^ 32) (hmiddle : middle < 2 ^ 4)
    (high : Nat) :
    (low + 2 ^ 32 * (middle + 2 ^ 4 * high)) % 2 ^ 32 = low ∧
      (low + 2 ^ 32 * (middle + 2 ^ 4 * high)) / 2 ^ 32 % 2 ^ 4 = middle ∧
      (low + 2 ^ 32 * (middle + 2 ^ 4 * high)) / 2 ^ 36 = high := by
  omega

namespace StaticDescriptor

/-- The fields of the first word; the high bits of the address stand in two of them. -/
def fields (d : StaticDescriptor) : List (Nat × Nat) :=
  [(6, d.index), (6, d.address / 2 ^ 36), (4, d.address / 2 ^ 32 % 2 ^ 4), (16, d.size)]

def bytes (d : StaticDescriptor) : List UInt8 :=
  leBytes 4 (pack d.fields) ++ leBytes 4 (d.address % 2 ^ 32)

structure Valid (d : StaticDescriptor) : Prop where
  index : d.index < 2 ^ 6
  address : d.address < 2 ^ 42
  size : d.size < 2 ^ 16

theorem length_bytes (d : StaticDescriptor) : d.bytes.length = 8 := by simp [bytes]

theorem unpack_fields {d : StaticDescriptor} (hfits : Fits d.fields) :
    extract (pack d.fields) 0 0x3F = d.index ∧
      extract (pack d.fields) 6 0x3F = d.address / 2 ^ 36 ∧
      extract (pack d.fields) 12 0xF = d.address / 2 ^ 32 % 2 ^ 4 ∧
      extract (pack d.fields) 16 0xFFFF = d.size := by
  have h := BitFields.unpack_pack hfits
  simp only [fields, List.map_cons, List.map_nil, unpack, List.cons.injEq, Prod.mk.injEq,
    true_and, and_true] at h
  exact h

theorem read_eq_ok (data : List UInt8) (offset : Nat) (d : StaticDescriptor) :
    hipcStaticDescriptor data offset = .ok d ↔ d.Valid ∧ At data offset d.bytes := by
  rw [hipcStaticDescriptor, protocol_bind_eq_ok, bytes, at_append, Codec.length_leBytes]
  constructor
  · rintro ⟨first, hread, h⟩
    obtain ⟨second, hread', h⟩ := protocol_bind_eq_ok.1 h
    obtain ⟨hfirst, hat⟩ := readU32_eq_ok.1 hread
    obtain ⟨hsecond, hat'⟩ := readU32_eq_ok.1 hread'
    rw [protocol_pure_eq_ok] at h
    have hindex : extract first 0 0x3F < 2 ^ 6 := BitFields.extract_lt rfl first 0
    have hhigh : extract first 6 0x3F < 2 ^ 6 := BitFields.extract_lt rfl first 6
    have hmiddle : extract first 12 0xF < 2 ^ 4 := BitFields.extract_lt rfl first 12
    have hsize : extract first 16 0xFFFF < 2 ^ 16 := BitFields.extract_lt rfl first 16
    have hjoin := BitFields.or_or_shiftLeft hsecond hmiddle (extract first 6 0x3F)
    obtain ⟨hlow', hmiddle', hhigh'⟩ := parts_of_address hsecond hmiddle (extract first 6 0x3F)
    rw [Nat.or_right_comm, hjoin] at h
    subst h
    refine ⟨⟨hindex, ?_, hsize⟩, ?_, ?_⟩
    · show second + 2 ^ 32 * (extract first 12 0xF + 2 ^ 4 * extract first 6 0x3F) < 2 ^ 42
      omega
    · have hword : pack (unpack first 0 [6, 6, 4, 16]) = first := by
        rw [BitFields.pack_unpack hfirst, Nat.pow_zero, Nat.div_one]
      rw [fields, hmiddle', hhigh']
      rw [← hword] at hat
      exact hat
    · rw [hlow']
      exact hat'
  · rintro ⟨hvalid, hat, hat'⟩
    have hfits : Fits d.fields :=
      ⟨hvalid.index, by have := hvalid.address; omega, by omega, hvalid.size, trivial⟩
    have hpack : pack d.fields < 2 ^ 32 := BitFields.pack_lt hfits
    obtain ⟨hindex, hhigh, hmiddle, hsize⟩ := unpack_fields hfits
    have hlow : d.address % 2 ^ 32 < 2 ^ 32 := Nat.mod_lt _ (by omega)
    have hjoin := BitFields.or_or_shiftLeft hlow (Nat.mod_lt (d.address / 2 ^ 32)
      (Nat.two_pow_pos 4)) (d.address / 2 ^ 36)
    rw [address_of_parts] at hjoin
    refine ⟨pack d.fields, readU32_eq_ok.2 ⟨hpack, hat⟩, ?_⟩
    rw [readU32_eq_ok.2 ⟨hlow, hat'⟩, protocol_ok_bind, protocol_pure_eq_ok, hindex, hhigh,
      hmiddle, hsize, Nat.or_right_comm, hjoin]

end StaticDescriptor

namespace BufferDescriptor

/-- The fields of the third word: the high bits of the size and of the address. -/
def fields (d : BufferDescriptor) : List (Nat × Nat) :=
  [(2, d.mode), (22, d.address / 2 ^ 36), (4, d.size / 2 ^ 32), (4, d.address / 2 ^ 32 % 2 ^ 4)]

def bytes (d : BufferDescriptor) : List UInt8 :=
  leBytes 4 (d.size % 2 ^ 32) ++ (leBytes 4 (d.address % 2 ^ 32) ++ leBytes 4 (pack d.fields))

structure Valid (d : BufferDescriptor) : Prop where
  mode : d.mode < 2 ^ 2
  address : d.address < 2 ^ 58
  size : d.size < 2 ^ 36

theorem length_bytes (d : BufferDescriptor) : d.bytes.length = 12 := by simp [bytes]

theorem unpack_fields {d : BufferDescriptor} (hfits : Fits d.fields) :
    extract (pack d.fields) 0 0x3 = d.mode ∧
      extract (pack d.fields) 2 0x3FFFFF = d.address / 2 ^ 36 ∧
      extract (pack d.fields) 24 0xF = d.size / 2 ^ 32 ∧
      extract (pack d.fields) 28 0xF = d.address / 2 ^ 32 % 2 ^ 4 := by
  have h := BitFields.unpack_pack hfits
  simp only [fields, List.map_cons, List.map_nil, unpack, List.cons.injEq, Prod.mk.injEq,
    true_and, and_true] at h
  exact h

theorem read_eq_ok (data : List UInt8) (offset : Nat) (d : BufferDescriptor) :
    hipcBufferDescriptor data offset = .ok d ↔ d.Valid ∧ At data offset d.bytes := by
  rw [hipcBufferDescriptor, protocol_bind_eq_ok, bytes, at_append, at_append,
    Codec.length_leBytes, Codec.length_leBytes, Nat.add_assoc]
  constructor
  · rintro ⟨sizeLow, hread, h⟩
    obtain ⟨addressLow, hread', h⟩ := protocol_bind_eq_ok.1 h
    obtain ⟨attributes, hread'', h⟩ := protocol_bind_eq_ok.1 h
    obtain ⟨hsizeLow, hat⟩ := readU32_eq_ok.1 hread
    obtain ⟨haddressLow, hat'⟩ := readU32_eq_ok.1 hread'
    obtain ⟨hattributes, hat''⟩ := readU32_eq_ok.1 hread''
    rw [protocol_pure_eq_ok] at h
    have hmode : extract attributes 0 0x3 < 2 ^ 2 := BitFields.extract_lt rfl attributes 0
    have hhigh : extract attributes 2 0x3FFFFF < 2 ^ 22 := BitFields.extract_lt rfl attributes 2
    have hsize : extract attributes 24 0xF < 2 ^ 4 := BitFields.extract_lt rfl attributes 24
    have hmiddle : extract attributes 28 0xF < 2 ^ 4 := BitFields.extract_lt rfl attributes 28
    have hjoin := BitFields.or_or_shiftLeft haddressLow hmiddle (extract attributes 2 0x3FFFFF)
    have hjoin' := BitFields.or_shiftLeft hsizeLow (extract attributes 24 0xF)
    obtain ⟨hlow', hmiddle', hhigh'⟩ :=
      parts_of_address haddressLow hmiddle (extract attributes 2 0x3FFFFF)
    rw [hjoin, hjoin'] at h
    subst h
    refine ⟨⟨hmode, ?_, ?_⟩, ?_, ?_, ?_⟩
    · show addressLow + 2 ^ 32 * (extract attributes 28 0xF + 2 ^ 4 * extract attributes 2 0x3FFFFF)
        < 2 ^ 58
      omega
    · show sizeLow + 2 ^ 32 * extract attributes 24 0xF < 2 ^ 36
      omega
    · rwa [Nat.add_mul_mod_self_left, Nat.mod_eq_of_lt hsizeLow]
    · rw [hlow']
      exact hat'
    · have hword : pack (unpack attributes 0 [2, 22, 4, 4]) = attributes := by
        rw [BitFields.pack_unpack hattributes, Nat.pow_zero, Nat.div_one]
      rw [fields, hmiddle', hhigh', Nat.add_mul_div_left _ _ (Nat.two_pow_pos 32),
        Nat.div_eq_of_lt hsizeLow, Nat.zero_add]
      rw [← hword] at hat''
      exact hat''
  · rintro ⟨hvalid, hat, hat', hat''⟩
    have hfits : Fits d.fields :=
      ⟨hvalid.mode, by have := hvalid.address; omega, by have := hvalid.size; omega, by omega,
        trivial⟩
    have hpack : pack d.fields < 2 ^ 32 := BitFields.pack_lt hfits
    obtain ⟨hmode, hhigh, hsize, hmiddle⟩ := unpack_fields hfits
    have hlow : d.address % 2 ^ 32 < 2 ^ 32 := Nat.mod_lt _ (by omega)
    have hlow' : d.size % 2 ^ 32 < 2 ^ 32 := Nat.mod_lt _ (by omega)
    have hjoin := BitFields.or_or_shiftLeft hlow (Nat.mod_lt (d.address / 2 ^ 32)
      (Nat.two_pow_pos 4)) (d.address / 2 ^ 36)
    rw [address_of_parts] at hjoin
    refine ⟨d.size % 2 ^ 32, readU32_eq_ok.2 ⟨hlow', hat⟩, ?_⟩
    rw [readU32_eq_ok.2 ⟨hlow, hat'⟩, protocol_ok_bind, readU32_eq_ok.2 ⟨hpack, hat''⟩,
      protocol_ok_bind, protocol_pure_eq_ok, hmode, hhigh, hmiddle, hsize, hjoin,
      BitFields.or_shiftLeft hlow', Nat.mod_add_div]

end BufferDescriptor

/-- The descriptors of a message, by their kinds. -/
structure HipcDescriptors where
  statics : List StaticDescriptor
  sends : List BufferDescriptor
  receives : List BufferDescriptor
  exchanges : List BufferDescriptor

namespace HipcDescriptors

def listed (d : HipcDescriptors) : List HipcDescriptor :=
  d.statics.map .sendStatic ++ d.sends.map .sendBuffer ++ d.receives.map .receiveBuffer ++
    d.exchanges.map .exchangeBuffer

def bytes (d : HipcDescriptors) : List UInt8 :=
  d.statics.flatMap StaticDescriptor.bytes ++ (d.sends.flatMap BufferDescriptor.bytes ++
    (d.receives.flatMap BufferDescriptor.bytes ++ d.exchanges.flatMap BufferDescriptor.bytes))

/-- A response has no buffers behind its counts. -/
def present (mode : CmifMode) (count : Nat) : Nat :=
  match mode with
  | .request => count
  | .response => 0

/-- The descriptors are those that the header counts. -/
structure Fit (d : HipcDescriptors) (m : HipcMetadata) (mode : CmifMode) : Prop where
  statics : d.statics.length = m.sendStatics
  sends : d.sends.length = present mode m.sendBuffers
  receives : d.receives.length = present mode m.receiveBuffers
  exchanges : d.exchanges.length = present mode m.exchangeBuffers
  valid_statics : ∀ descriptor ∈ d.statics, descriptor.Valid
  valid_sends : ∀ descriptor ∈ d.sends, descriptor.Valid
  valid_receives : ∀ descriptor ∈ d.receives, descriptor.Valid
  valid_exchanges : ∀ descriptor ∈ d.exchanges, descriptor.Valid

theorem at_bytes {d : HipcDescriptors} {data : List UInt8} {offset : Nat} :
    At data offset d.bytes ↔
      At data offset (d.statics.flatMap StaticDescriptor.bytes) ∧
      At data (offset + 8 * d.statics.length) (d.sends.flatMap BufferDescriptor.bytes) ∧
      At data (offset + 8 * d.statics.length + 12 * d.sends.length)
        (d.receives.flatMap BufferDescriptor.bytes) ∧
      At data (offset + 8 * d.statics.length + 12 * d.sends.length + 12 * d.receives.length)
        (d.exchanges.flatMap BufferDescriptor.bytes) := by
  have hstatics := Layout.length_flatMap_of_size StaticDescriptor.length_bytes d.statics
  have hbuffers := fun buffers =>
    Layout.length_flatMap_of_size BufferDescriptor.length_bytes buffers
  rw [bytes, at_append, at_append, at_append, hstatics, hbuffers, hbuffers]

theorem length_bytes (d : HipcDescriptors) :
    d.bytes.length = 8 * d.statics.length + 12 * d.sends.length + 12 * d.receives.length +
      12 * d.exchanges.length := by
  have hstatics := Layout.length_flatMap_of_size StaticDescriptor.length_bytes d.statics
  have hbuffers := fun buffers =>
    Layout.length_flatMap_of_size BufferDescriptor.length_bytes buffers
  simp only [bytes, List.length_append, hstatics, hbuffers]
  omega

theorem read_eq_ok {data : List UInt8} {m : HipcMetadata} {offset stop : Nat}
    {descriptors : List HipcDescriptor} {mode : CmifMode} :
    hipcDescriptors data m offset mode = .ok (descriptors, stop) ↔
      ∃ d : HipcDescriptors, d.Fit m mode ∧ At data offset d.bytes ∧ descriptors = d.listed ∧
        stop = offset + d.bytes.length := by
  have hstatic := readEach_eq_ok (StaticDescriptor.read_eq_ok data) StaticDescriptor.length_bytes
  have hbuffer := readEach_eq_ok (BufferDescriptor.read_eq_ok data) BufferDescriptor.length_bytes
  cases mode with
  | request =>
    rw [hipcDescriptors, protocol_bind_eq_ok]
    constructor
    · rintro ⟨⟨statics, stop0⟩, h0, h⟩
      obtain ⟨⟨sends, stop1⟩, h1, h⟩ := protocol_bind_eq_ok.1 h
      obtain ⟨⟨receives, stop2⟩, h2, h⟩ := protocol_bind_eq_ok.1 h
      obtain ⟨⟨exchanges, stop3⟩, h3, h⟩ := protocol_bind_eq_ok.1 h
      obtain ⟨rfl, rfl⟩ := Prod.mk.inj (protocol_pure_eq_ok.1 h)
      obtain ⟨hl0, hv0, hat0, rfl⟩ := (hstatic _ _ _ _).1 h0
      obtain ⟨hl1, hv1, hat1, rfl⟩ := (hbuffer _ _ _ _).1 h1
      obtain ⟨hl2, hv2, hat2, rfl⟩ := (hbuffer _ _ _ _).1 h2
      obtain ⟨hl3, hv3, hat3, rfl⟩ := (hbuffer _ _ _ _).1 h3
      refine ⟨⟨statics, sends, receives, exchanges⟩, ⟨hl0, hl1, hl2, hl3, hv0, hv1, hv2, hv3⟩,
        ?_, rfl, ?_⟩
      · rw [at_bytes]
        simp only [hl0, hl1, hl2]
        exact ⟨hat0, hat1, hat2, hat3⟩
      · rw [length_bytes]
        simp only [hl0, hl1, hl2, hl3]
        omega
    · rintro ⟨d, hfit, hat, rfl, rfl⟩
      obtain ⟨hat0, hat1, hat2, hat3⟩ := at_bytes.1 hat
      have h0 := (hstatic m.sendStatics offset d.statics _).2
        ⟨hfit.statics, hfit.valid_statics, hat0, rfl⟩
      rw [hfit.statics] at hat1 hat2 hat3
      have h1 := (hbuffer m.sendBuffers _ d.sends _).2 ⟨hfit.sends, hfit.valid_sends, hat1, rfl⟩
      rw [show d.sends.length = m.sendBuffers from hfit.sends] at hat2 hat3
      have h2 := (hbuffer m.receiveBuffers _ d.receives _).2
        ⟨hfit.receives, hfit.valid_receives, hat2, rfl⟩
      rw [show d.receives.length = m.receiveBuffers from hfit.receives] at hat3
      have h3 := (hbuffer m.exchangeBuffers _ d.exchanges _).2
        ⟨hfit.exchanges, hfit.valid_exchanges, hat3, rfl⟩
      have hlength := d.length_bytes
      have hsends : d.sends.length = m.sendBuffers := hfit.sends
      have hreceives : d.receives.length = m.receiveBuffers := hfit.receives
      have hexchanges : d.exchanges.length = m.exchangeBuffers := hfit.exchanges
      rw [hfit.statics, hsends, hreceives, hexchanges] at hlength
      refine ⟨_, h0, ?_⟩
      simp only [h1, h2, h3, protocol_ok_bind, protocol_pure_eq_ok, Prod.mk.injEq]
      refine ⟨rfl, ?_⟩
      omega
  | response =>
    rw [hipcDescriptors, protocol_bind_eq_ok]
    constructor
    · rintro ⟨⟨statics, stop0⟩, h0, h⟩
      obtain ⟨rfl, rfl⟩ := Prod.mk.inj (protocol_pure_eq_ok.1 h)
      obtain ⟨hl0, hv0, hat0, rfl⟩ := (hstatic _ _ _ _).1 h0
      refine ⟨⟨statics, [], [], []⟩, ⟨hl0, rfl, rfl, rfl, hv0, ?_, ?_, ?_⟩, ?_, ?_, ?_⟩
      · simp
      · simp
      · simp
      · rw [at_bytes]
        exact ⟨hat0, Layout.at_nil _ _, Layout.at_nil _ _, Layout.at_nil _ _⟩
      · simp [listed]
      · rw [length_bytes]
        simp only [hl0, List.length_nil]
        omega
    · rintro ⟨d, hfit, hat, rfl, rfl⟩
      obtain ⟨hat0, -⟩ := at_bytes.1 hat
      have hsends := List.length_eq_zero_iff.1 hfit.sends
      have hreceives := List.length_eq_zero_iff.1 hfit.receives
      have hexchanges := List.length_eq_zero_iff.1 hfit.exchanges
      have h0 := (hstatic m.sendStatics offset d.statics _).2
        ⟨hfit.statics, hfit.valid_statics, hat0, rfl⟩
      refine ⟨_, h0, ?_⟩
      rw [protocol_pure_eq_ok, Prod.mk.injEq, listed, length_bytes, hsends, hreceives, hexchanges,
        hfit.statics]
      simp

end HipcDescriptors

end SysAgent
