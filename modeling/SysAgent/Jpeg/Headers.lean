import Mathlib
import SysAgent.Jpeg.Walker

set_option autoImplicit false

/-! # The headers of a baseline file (`jpegDcDecode` in `jpeg_dc.c`)

The marker loop reads the segments before the scan, in any order. Each segment that a baseline file
can have is read back as what it was written for. -/

namespace SysAgent.JpegWalker

open Checked

/-- Reading takes the bytes off the rest of the file, wherever they are, and gives the value. -/
def Takes {α : Type} (data : List Nat) (read : Nat → Walk (α × Nat)) (bytes : List Nat)
    (value : α) : Prop :=
  ∀ pos rest, data.drop pos = bytes ++ rest → read pos = pure (value, pos + bytes.length)

section Headers

variable {data : List Nat}

theorem drop_add {pos : Nat} {bytes rest : List Nat} (h : data.drop pos = bytes ++ rest) :
    data.drop (pos + bytes.length) = rest := by
  rw [← List.drop_drop, h, List.drop_left]

theorem lt_of_drop {pos byte : Nat} {rest : List Nat} (h : data.drop pos = byte :: rest) :
    pos < data.length := by
  by_contra hpos
  rw [List.drop_eq_nil_of_le (not_lt.1 hpos)] at h
  cases h

theorem access_drop {α : Type} {pos byte : Nat} {rest : List Nat}
    (h : data.drop pos = byte :: rest) (f : Nat → Walk α) : access data pos >>= f = f byte := by
  have hlt := lt_of_drop h
  rw [access_bind hlt]
  rw [List.drop_eq_getElem_cons hlt] at h
  rw [(List.cons.inj h).1]

theorem drop_succ {pos byte : Nat} {rest : List Nat} (h : data.drop pos = byte :: rest) :
    data.drop (pos + 1) = rest := @drop_add data pos [byte] rest h

theorem takes_readU8 (byte : Nat) : Takes data (jpegReadU8 data) [byte] byte := by
  intro pos rest h
  rw [jpegReadU8, if_neg (not_le.2 (lt_of_drop h)), access_drop h]
  rfl

theorem takes_readU16 (value : Nat) :
    Takes data (jpegReadU16 data) (u16Bytes value) value := by
  intro pos rest h
  have hlow := drop_succ h
  rw [jpegReadU16, if_neg (not_le.2 (lt_of_drop hlow)), access_drop h, access_drop hlow,
    u16Bytes_value]
  rfl

theorem takes_readMany {α : Type} {read : Nat → Walk (α × Nat)} {write : α → List Nat}
    {values : List α} (h : ∀ value ∈ values, Takes data read (write value) value) {max index : Nat}
    (hmax : index + values.length ≤ max) :
    Takes data (readMany read max values.length index) (values.flatMap write) values := by
  intro pos rest hdrop
  induction values generalizing index pos with
  | nil => rfl
  | cons value values ih =>
    rw [List.length_cons] at hmax
    rw [List.flatMap_cons, List.append_assoc] at hdrop
    have hfirst := h value List.mem_cons_self pos _ hdrop
    have hrest := ih (fun other hmem => h other (List.mem_cons_of_mem _ hmem))
      (by omega : index + 1 + values.length ≤ max) _ (drop_add hdrop)
    rw [List.length_cons, readMany, require_bind (by omega), hfirst, pure_bind]
    dsimp only
    rw [hrest, pure_bind, List.flatMap_cons, List.length_append, Nat.add_assoc]

theorem takes_readBytes (bytes : List Nat) {max index : Nat} (hmax : index + bytes.length ≤ max) :
    Takes data (readMany (jpegReadU8 data) max bytes.length index) bytes bytes := by
  have h := @takes_readMany data Nat (jpegReadU8 data) (fun byte => [byte]) bytes
    (fun byte _ => takes_readU8 byte) max index hmax
  rwa [List.flatMap_singleton'] at h

/-- Reading a table of a segment. -/
theorem takes_parseTables {α : Type} {parseTable : JpegDecoder → Nat → Walk (JpegDecoder × Nat)}
    {write : α → List Nat} {apply : JpegDecoder → α → JpegDecoder} {tables : List α}
    (hwrite : ∀ table ∈ tables, 0 < (write table).length)
    (h : ∀ table ∈ tables, ∀ decoder,
      Takes data (parseTable decoder) (write table) (apply decoder table))
    {rounds : Nat} (hrounds : tables.length < rounds) {pos : Nat} {rest : List Nat}
    (hdrop : data.drop pos = tables.flatMap write ++ rest) {finish : Nat}
    (hfinish : finish = pos + (tables.flatMap write).length) (decoder : JpegDecoder) :
    parseTables parseTable finish rounds decoder pos =
      pure (tables.foldl apply decoder, finish) := by
  obtain ⟨rounds, rfl⟩ : ∃ fewer, rounds = fewer + 1 := ⟨rounds - 1, by omega⟩
  induction tables generalizing rounds decoder pos with
  | nil =>
    have hpos : pos = finish := by rw [hfinish]; rfl
    rw [parseTables, if_neg (by omega), if_pos hpos, hpos]
    rfl
  | cons table tables ih =>
    have hlength := hwrite table List.mem_cons_self
    rw [List.length_cons] at hrounds
    rw [List.flatMap_cons, List.length_append] at hfinish
    rw [List.flatMap_cons, List.append_assoc] at hdrop
    obtain ⟨fewer, rfl⟩ : ∃ fewer, rounds = fewer + 1 := ⟨rounds - 1, by omega⟩
    rw [parseTables, if_pos (by omega), h table List.mem_cons_self decoder pos _ hdrop, pure_bind]
    dsimp only
    rw [ih (fun other hmem => hwrite other (List.mem_cons_of_mem _ hmem))
      (fun other hmem => h other (List.mem_cons_of_mem _ hmem)) (drop_add hdrop)
      (by omega) _ fewer (by omega), List.foldl_cons]

theorem takes_parseQuantTable {table : QuantTable} (valid : table.Valid) (decoder : JpegDecoder) :
    Takes data (parseQuantTable data decoder) table.bytes (table.apply decoder) := by
  have hprecision := valid.precision
  have hid := valid.id
  have hmod : (16 * table.precision + table.id) % 16 = table.id := by omega
  have hdiv : (16 * table.precision + table.id) / 16 = table.precision := by omega
  intro pos rest h
  rw [QuantTable.bytes, List.cons_append] at h
  have hread := @takes_readMany data Nat
    (if table.precision = 0 then jpegReadU8 data else jpegReadU16 data)
    (fun value => if table.precision = 0 then [value] else u16Bytes value) table.values (by
      intro value _
      split_ifs
      · exact takes_readU8 value
      · exact takes_readU16 value) 64 0 (by rw [valid.values]) _ _ (drop_succ h)
  rw [valid.values] at hread
  rw [parseQuantTable, takes_readU8 _ pos _ h, pure_bind]
  dsimp only
  rw [hmod, hdiv, if_neg (by omega), require_bind (by omega)]
  dsimp only [List.length_singleton]
  rw [hread, pure_bind, QuantTable.bytes, List.length_cons, Nat.add_assoc, Nat.add_comm 1]
  rfl

theorem takes_parseHuffmanTable {table : HuffmanTable} (valid : table.Valid)
    (decoder : JpegDecoder) :
    Takes data (parseHuffmanTable data decoder) table.bytes (table.apply decoder) := by
  have hisAc := valid.isAc
  have hid := valid.id
  have hmod : (16 * table.isAc + table.id) % 16 = table.id := by omega
  have hdiv : (16 * table.isAc + table.id) / 16 = table.isAc := by omega
  have hlengths := valid.spec.lengths
  have htotal := valid.spec.total
  have hsize := valid.spec.size
  intro pos rest h
  rw [HuffmanTable.bytes, List.cons_append, List.append_assoc] at h
  have hcounts := takes_readBytes table.spec.counts (by omega : 1 + table.spec.counts.length ≤ 17)
    _ _ (drop_succ h)
  have hsymbols := takes_readBytes table.spec.symbols
    (by omega : 0 + table.spec.symbols.length ≤ 256) _ _ (drop_add (drop_succ h))
  rw [hlengths] at hcounts hsymbols
  rw [htotal] at hsymbols
  rw [parseHuffmanTable, takes_readU8 _ pos _ h, pure_bind]
  dsimp only
  rw [hmod, hdiv, if_neg (by omega), require_bind (by omega)]
  dsimp only [List.length_singleton]
  rw [hcounts, pure_bind]
  dsimp only
  rw [if_neg (by omega), hsymbols, pure_bind, HuffmanTable.bytes, List.length_cons,
    List.length_append, hlengths, htotal]
  have hend : pos + 1 + 16 + table.spec.counts.sum = pos + (16 + table.spec.counts.sum + 1) := by
    omega
  rw [hend]
  rfl

theorem takes_readComponent {component : FrameComponent} (hfactors : 0 < component.hFactor ∧
      component.hFactor ≤ 4 ∧ 0 < component.vFactor ∧ component.vFactor ≤ 4) :
    Takes data (readComponent data) [component.id, 16 * component.hFactor + component.vFactor,
      component.quantId] component := by
  have hdiv : (16 * component.hFactor + component.vFactor) / 16 = component.hFactor := by omega
  have hmod : (16 * component.hFactor + component.vFactor) % 16 = component.vFactor := by omega
  intro pos rest h
  have hsampling := drop_succ h
  have hquantId := drop_succ hsampling
  rw [readComponent, takes_readU8 _ pos _ h, pure_bind]
  dsimp only [List.length_singleton]
  rw [takes_readU8 _ _ _ hsampling, pure_bind]
  dsimp only [List.length_singleton]
  rw [takes_readU8 _ _ _ hquantId, pure_bind]
  dsimp only [List.length_singleton]
  rw [hdiv, hmod, if_neg (by omega)]
  rfl

theorem parseFrame_spec {file : JpegFile} (valid : file.Valid) (decoder : JpegDecoder) :
    Takes data (jpegParseFrame data decoder (file.frameBytes.length + 2) 0xC0) file.frameBytes
      (file.withFrame decoder) := by
  have hlength := @length_frameBytes file
  obtain ⟨hcount, hcount'⟩ := valid.count
  intro pos rest h
  rw [hlength, jpegParseFrame, if_neg (by decide)]
  unfold JpegFile.frameBytes at h
  rw [List.cons_append, List.append_assoc, List.append_assoc, List.cons_append] at h
  have hheight := drop_succ h
  have hwidth := drop_add hheight
  have hnumber := drop_add hwidth
  have hcomponents := @takes_readMany data FrameComponent (readComponent data)
    (fun component => [component.id, 16 * component.hFactor + component.vFactor,
      component.quantId]) (file.components.map FileComponent.toFrameComponent) (by
      intro component hmem
      obtain ⟨origin, horigin, rfl⟩ := List.mem_map.1 hmem
      exact takes_readComponent (valid.factors origin horigin)) 4 0
    (by rw [List.length_map]; omega) _ _ (by rw [List.flatMap_map]; exact drop_succ hnumber)
  rw [List.length_map] at hcomponents
  rw [takes_readU8 _ pos _ h, pure_bind]
  dsimp only [List.length_singleton]
  rw [if_neg (by decide), takes_readU16 _ _ _ hheight, pure_bind]
  dsimp only
  rw [takes_readU16 _ _ _ hwidth, pure_bind]
  dsimp only
  rw [takes_readU8 _ _ _ hnumber, pure_bind]
  dsimp only [List.length_singleton]
  rw [if_neg (by omega), hcomponents, pure_bind]
  dsimp only
  rw [if_pos ⟨valid.width.1, valid.height.1⟩, List.flatMap_map]
  have hend : pos + 1 + (u16Bytes file.height).length + (u16Bytes file.width).length + 1 +
      (file.components.flatMap fun component => [component.id,
        16 * component.hFactor + component.vFactor, component.quantId]).length =
          pos + file.frameBytes.length := by
    unfold JpegFile.frameBytes
    simp only [List.length_cons, List.length_append]
    omega
  exact congrArg (fun finish => pure (file.withFrame decoder, finish)) hend

theorem takes_parseScanComponents {file : JpegFile} {done todo : List FileComponent}
    (htables : ∀ component ∈ todo, component.acTable < 16)
    (hids : ((done ++ todo).map fun component => component.id).Nodup)
    (hcount : (done ++ todo).length ≤ 4) :
    Takes data (parseScanComponents data todo.length
        (done.map file.component ++ todo.map file.bareComponent))
      (todo.flatMap fun component =>
        [component.id, 16 * component.dcTable + component.acTable])
      ((done ++ todo).map file.component) := by
  intro pos rest h
  induction todo generalizing done pos with
  | nil =>
    rw [List.append_nil]
    simp [parseScanComponents]
  | cons component todo ih =>
    have hac := htables component List.mem_cons_self
    have hdiv : (16 * component.dcTable + component.acTable) / 16 = component.dcTable := by omega
    have hmod : (16 * component.dcTable + component.acTable) % 16 = component.acTable := by omega
    have hfresh : ∀ other ∈ done.map file.component,
        other.id ≠ (file.bareComponent component).id := by
      intro other hmem hsame
      obtain ⟨origin, horigin, rfl⟩ := List.mem_map.1 hmem
      rw [List.map_append, List.nodup_append] at hids
      exact hids.2.2 _ (List.mem_map_of_mem horigin) _
        (List.mem_map_of_mem List.mem_cons_self) hsame
    have hset : setTables component.id (16 * component.dcTable + component.acTable)
        (done.map file.component ++ file.bareComponent component :: todo.map file.bareComponent) =
          some (done.map file.component ++ file.component component ::
            todo.map file.bareComponent) := by
      have hset := @setTables_spec (done.map file.component) (todo.map file.bareComponent)
        (file.bareComponent component) hfresh (16 * component.dcTable + component.acTable)
      rw [hdiv, hmod] at hset
      exact hset
    rw [List.flatMap_cons, List.append_assoc] at h
    have htables' := drop_succ h
    have hnext := @ih (done ++ [component])
      (fun other hmem => htables other (List.mem_cons_of_mem _ hmem))
      (by rwa [List.append_assoc]) (by rwa [List.append_assoc]) (pos + 1 + 1) (drop_succ htables')
    rw [List.map_append, List.append_assoc, List.append_assoc] at hnext
    rw [List.length_cons, parseScanComponents, takes_readU8 _ pos _ h, pure_bind]
    dsimp only [List.length_singleton]
    rw [takes_readU8 _ _ _ htables', pure_bind]
    dsimp only [List.length_singleton]
    rw [require_bind (by simpa using hcount), List.map_cons, hset]
    refine hnext.trans ?_
    rw [List.flatMap_cons, List.length_append]
    congr 2
    simp only [List.length_cons, List.length_nil]
    omega

theorem parseScan_spec {file : JpegFile} (valid : file.Valid) {decoder : JpegDecoder}
    (hcomponents : decoder.components = frameComponents file.width file.height
      (file.components.map FileComponent.toFrameComponent)) {pos : Nat} {rest : List Nat}
    (h : data.drop pos = file.scanHeaderBytes ++ rest) :
    jpegParseScan data decoder (file.scanHeaderBytes.length + 2) pos =
      pure { decoder with components := file.components.map file.component } := by
  have hbare : decoder.components = file.components.map file.bareComponent := by
    rw [hcomponents, frameComponents, List.map_map]
    rfl
  have hlength : file.scanHeaderBytes.length + 2 = 6 + 2 * file.components.length := by
    unfold JpegFile.scanHeaderBytes
    simp only [List.length_cons, List.length_append, length_pairs, List.length_nil]
    omega
  obtain ⟨hcount, hcount'⟩ := valid.count
  unfold JpegFile.scanHeaderBytes at h
  rw [List.cons_append, List.append_assoc] at h
  have hpairs := drop_succ h
  have hset := @takes_parseScanComponents data file [] file.components
    (fun component hmem => by
      have htables := valid.tables component hmem
      omega) valid.ids hcount' _ _ hpairs
  rw [List.map_nil, List.nil_append, List.nil_append] at hset
  have hselection : readMany (jpegReadU8 data) 3 3 0 _ = _ :=
    takes_readBytes [0, 63, 0] (by decide) _ _ (drop_add hpairs)
  rw [hlength, jpegParseScan, takes_readU8 _ pos _ h, pure_bind]
  dsimp only [List.length_singleton]
  rw [hbare, List.length_map, if_neg (by omega), hset, pure_bind]
  dsimp only
  rw [hselection]
  rfl

theorem parseSegment_spec {segment : JpegSegment} (valid : segment.Valid)
    (decoder : JpegDecoder) :
    Takes data (parseSegment data segment.marker (segment.payload.length + 2) decoder)
      segment.payload (segment.apply decoder) := by
  have hcontent := valid.content
  intro pos rest h
  unfold parseSegment
  rw [Nat.add_sub_cancel]
  cases segment with
  | quant tables =>
    rw [JpegSegment.marker, if_neg (by decide), if_neg (by decide), if_pos rfl]
    have hle := @length_le_flatMap QuantTable QuantTable.bytes tables fun _ _ => Nat.succ_pos _
    exact @takes_parseTables data QuantTable _ QuantTable.bytes QuantTable.apply tables
      (fun _ _ => Nat.succ_pos _) (fun table hmem => takes_parseQuantTable (hcontent table hmem)) _
      (Nat.lt_succ_of_le hle) _ _ h _ rfl decoder
  | huffman tables =>
    rw [JpegSegment.marker, if_neg (by decide), if_pos rfl]
    have hle := @length_le_flatMap HuffmanTable HuffmanTable.bytes tables fun _ _ => Nat.succ_pos _
    exact @takes_parseTables data HuffmanTable _ HuffmanTable.bytes HuffmanTable.apply tables
      (fun _ _ => Nat.succ_pos _) (fun table hmem => takes_parseHuffmanTable (hcontent table hmem))
      _ (Nat.lt_succ_of_le hle) _ _ h _ rfl decoder
  | restart interval =>
    have htwo : ¬ (JpegSegment.restart interval).payload.length ≠ 2 := not_not_intro rfl
    rw [JpegSegment.marker, if_neg (by decide), if_neg (by decide), if_neg (by decide), if_pos rfl,
      if_neg htwo, takes_readU16 interval pos _ h]
    rfl
  | other marker payload =>
    obtain ⟨hlow, hhigh, -⟩ := hcontent
    have hframe : marker ∉ frameMarkers := by
      unfold frameMarkers
      simp only [List.mem_cons, List.not_mem_nil, or_false]
      omega
    rw [JpegSegment.marker, if_neg hframe, if_neg (by omega), if_neg (by omega), if_neg (by omega)]
    rfl

theorem takes_nextMarker {marker : Nat} (hzero : marker ≠ 0x00) (hfill : marker ≠ 0xFF) :
    Takes data (jpegNextMarker data) [0xFF, marker] marker := by
  intro pos rest h
  have hmarker := drop_succ h
  rw [jpegNextMarker, jpegNextMarkerFrom, if_pos (lt_of_drop hmarker), access_drop h,
    if_neg (by decide), access_drop hmarker, if_neg hfill, if_neg hzero]
  rfl

/-- The marker loop up to the payload of a segment. -/
theorem markerLoop_payload {marker pos : Nat} {payload rest : List Nat}
    (hmarker : marker ≠ 0x00 ∧ marker ≠ 0xFF ∧ marker ≠ 0xD9)
    (h : data.drop pos = segmentBytes marker payload ++ rest) (rounds : Nat) (sawFrame : Bool)
    (decoder : JpegDecoder) :
    data.drop (pos + 4) = payload ++ rest ∧
      markerLoop data (rounds + 1) sawFrame decoder pos =
        if marker = 0xDA then
          if sawFrame then
            jpegParseScan data decoder (payload.length + 2) (pos + 4) >>= fun decoder =>
              pure (decoder, pos + 4 + payload.length)
          else throw ()
        else
          parseSegment data marker (payload.length + 2) decoder (pos + 4) >>= fun r =>
            markerLoop data rounds (sawFrame || decide (marker ∈ frameMarkers)) r.1 r.2 := by
  obtain ⟨hzero, hfill, hend⟩ := hmarker
  rw [segmentBytes, List.cons_append, List.cons_append, List.append_assoc] at h
  have hlength := drop_succ (drop_succ h)
  have hpayload : data.drop (pos + 4) = payload ++ rest := drop_add hlength
  have hroom := congrArg List.length h
  simp only [List.length_drop, List.length_cons, List.length_append, u16Bytes, List.length_nil]
    at hroom
  refine ⟨hpayload, ?_⟩
  rw [markerLoop, takes_nextMarker hzero hfill pos _ h, pure_bind]
  dsimp only [List.length_cons, List.length_nil]
  rw [if_neg hend, takes_readU16 _ _ _ hlength, pure_bind]
  have hpos : pos + (0 + 1 + 1) + (u16Bytes (payload.length + 2)).length = pos + 4 := rfl
  dsimp only
  rw [Nat.add_sub_cancel, hpos, if_neg (by omega)]

/-- The marker loop goes on behind a segment that is read. -/
theorem markerLoop_step {marker pos : Nat} {payload rest : List Nat}
    {decoder decoder' : JpegDecoder}
    (hmarker : marker ≠ 0x00 ∧ marker ≠ 0xFF ∧ marker ≠ 0xD9 ∧ marker ≠ 0xDA)
    (hparse : Takes data (parseSegment data marker (payload.length + 2) decoder) payload decoder')
    (h : data.drop pos = segmentBytes marker payload ++ rest) (rounds : Nat) (sawFrame : Bool) :
    markerLoop data (rounds + 1) sawFrame decoder pos =
      markerLoop data rounds (sawFrame || decide (marker ∈ frameMarkers)) decoder'
        (pos + (segmentBytes marker payload).length) := by
  obtain ⟨hzero, hfill, hend, hscan⟩ := hmarker
  obtain ⟨hpayload, hloop⟩ := markerLoop_payload ⟨hzero, hfill, hend⟩ h rounds sawFrame decoder
  rw [hloop, if_neg hscan, hparse _ _ hpayload, pure_bind]
  have hlength : pos + 4 + payload.length = pos + (segmentBytes marker payload).length := by
    simp only [segmentBytes, u16Bytes, List.length_cons, List.length_append, List.length_nil]
    omega
  rw [hlength]

theorem markerLoop_segments {segments : List JpegSegment}
    (valid : ∀ segment ∈ segments, segment.Valid) {pos : Nat} {rest : List Nat}
    (h : data.drop pos = segments.flatMap JpegSegment.bytes ++ rest) (rounds : Nat)
    (sawFrame : Bool) (decoder : JpegDecoder) :
    markerLoop data (segments.length + rounds) sawFrame decoder pos =
      markerLoop data rounds sawFrame (segments.foldl JpegSegment.apply decoder)
        (pos + (segments.flatMap JpegSegment.bytes).length) := by
  induction segments generalizing decoder pos with
  | nil =>
    rw [List.length_nil, Nat.zero_add]
    rfl
  | cons segment segments ih =>
    have hvalid := valid segment List.mem_cons_self
    have hmarker : segment.marker ≠ 0x00 ∧ segment.marker ≠ 0xFF ∧ segment.marker ≠ 0xD9 ∧
        segment.marker ≠ 0xDA ∧ segment.marker ∉ frameMarkers := by
      have hcontent := hvalid.content
      cases segment with
      | quant tables => rw [JpegSegment.marker]; decide
      | huffman tables => rw [JpegSegment.marker]; decide
      | restart interval => rw [JpegSegment.marker]; decide
      | other marker payload =>
        obtain ⟨hlow, hhigh, -⟩ := hcontent
        unfold JpegSegment.marker frameMarkers
        simp only [List.mem_cons, List.not_mem_nil, or_false]
        omega
    obtain ⟨hzero, hfill, hend, hscan, hframe⟩ := hmarker
    have hrounds : (segment :: segments).length + rounds = segments.length + rounds + 1 := by
      rw [List.length_cons]
      omega
    rw [List.flatMap_cons, List.append_assoc] at h
    have hdrop : data.drop (pos + (segmentBytes segment.marker segment.payload).length) = _ :=
      drop_add h
    rw [hrounds, markerLoop_step ⟨hzero, hfill, hend, hscan⟩ (parseSegment_spec hvalid decoder) h,
      decide_eq_false hframe, Bool.or_false,
      ih (fun other hmem => valid other (List.mem_cons_of_mem _ hmem)) hdrop,
      List.foldl_cons, List.flatMap_cons, List.length_append, Nat.add_assoc, JpegSegment.bytes]

/-- The headers of a file are read up to its scan. -/
theorem readHeaders_encode {file : JpegFile} (valid : file.Valid)
    (hencode : file.encode = some data) :
    ∃ scanPos, encodeScan file.decoder file.content = some (data.drop scanPos) ∧
      jpegReadHeaders data = pure (file.decoder, scanPos) := by
  obtain ⟨scan, hscan, hdata⟩ := Option.map_eq_some_iff.1 hencode
  have hbefore : ∀ segment ∈ file.before, segment.Valid := fun segment hmem =>
    valid.segments segment (List.mem_append_left _ hmem)
  have hafter : ∀ segment ∈ file.after, segment.Valid := fun segment hmem =>
    valid.segments segment (List.mem_append_right _ hmem)
  have hfirst := @length_le_flatMap JpegSegment JpegSegment.bytes file.before
    fun _ _ => Nat.succ_pos _
  have hsecond := @length_le_flatMap JpegSegment JpegSegment.bytes file.after
    fun _ _ => Nat.succ_pos _
  have hlength := congrArg List.length hdata
  simp only [List.length_cons, List.length_append, segmentBytes, u16Bytes, List.length_nil]
    at hlength
  have hstart : data.drop 0 = 0xFF :: 0xD8 :: (file.before.flatMap JpegSegment.bytes ++
      (segmentBytes 0xC0 file.frameBytes ++ (file.after.flatMap JpegSegment.bytes ++
        (segmentBytes 0xDA file.scanHeaderBytes ++ scan)))) := hdata.symm
  have hbeforePos := drop_succ (drop_succ hstart)
  have hframePos := drop_add hbeforePos
  have hafterPos := drop_add hframePos
  have hscanHeader := drop_add hafterPos
  have hframe : Takes data (parseSegment data 0xC0 (file.frameBytes.length + 2)
      (file.before.foldl JpegSegment.apply emptyDecoder)) file.frameBytes
        (file.withFrame (file.before.foldl JpegSegment.apply emptyDecoder)) := by
    intro pos rest h
    rw [parseSegment, if_pos (by decide)]
    exact parseFrame_spec valid _ pos rest h
  obtain ⟨more, hmore⟩ : ∃ more, data.length =
      file.before.length + (file.after.length + (more + 1) + 1) :=
    ⟨data.length - (file.before.length + (file.after.length + 1 + 1)), by omega⟩
  obtain ⟨hpayload, hloop⟩ := markerLoop_payload (by decide) hscanHeader more true
    (file.withFrame (file.segments.foldl JpegSegment.apply emptyDecoder))
  refine ⟨_, hscan.trans (congrArg some (drop_add hpayload).symm), ?_⟩
  rw [jpegReadHeaders, if_neg (by omega), access_drop hstart, access_drop (drop_succ hstart),
    if_pos ⟨rfl, rfl⟩, hmore, markerLoop_segments hbefore hbeforePos,
    markerLoop_step (by decide) hframe hframePos, markerLoop_segments hafter hafterPos,
    foldl_withFrame, ← List.foldl_append]
  refine hloop.trans ?_
  rw [if_pos rfl, if_pos rfl, parseScan_spec valid rfl hpayload, pure_bind]
  rfl

end Headers

end SysAgent.JpegWalker
