import RerollSync.Support.Traversal
import RerollSync.Archive.Reader

/-!
# Footers of any shape

`decode_footer` does not check what a document holds.  It takes the fields of an entry
as they come, and where a field is used, its use raises or goes through.  Here segments
are read as the code reads them, whatever shape their footers have; `Footer` is the case
in which every field has the type that its entry declares.
-/

namespace RerollSync.Archive

open RerollSync.Support
open RerollSync.Store (Bytes)

/-- What Python makes of the values of a document: the integer that a float equals, if
any, `float.hex`, `repr`, and the text of an exception. -/
structure Python where
  floatInt : UInt64 → Option ℤ
  floatHex : UInt64 → String
  repr : Msgpack → String
  str : ArchiveError → String

namespace Msgpack

/-- Iterate over a value whose items are then subscripted.  The items of a string, a byte
string or a map cannot be. -/
def iterate : Msgpack → Except ArchiveError (List Msgpack)
  | .array items => .ok items
  | .str s => if s = "" then .ok [] else .error .shape
  | .bin [] | .map [] => .ok []
  | _ => .error .shape

/-- `__index__`. -/
def index : Msgpack → Option ℤ
  | .int n => some n
  | .bool b => some (if b then 1 else 0)
  | _ => none

/-- The integer that a value equals. -/
def number (py : Python) : Msgpack → Option ℤ
  | .float bits => py.floatInt bits
  | v => v.index

/-- A list or a dict cannot be a key. -/
def hashable : Msgpack → Bool
  | .array _ | .map _ => false
  | _ => true

/-- `value.hex()`. -/
def hexText (py : Python) : Msgpack → Except ArchiveError String
  | .bin data => .ok (hex data)
  | .float bits => .ok (py.floatHex bits)
  | _ => .error .shape

end Msgpack

/-! ## Decoding -/

/-- The fields of a `BlockEntry`. -/
structure BlockFields where
  offset : Msgpack
  length : Msgpack
  rawLength : Msgpack

/-- The fields of a `RecordEntry`. -/
structure RecordFields where
  sha256 : Msgpack
  blockNo : Msgpack
  offset : Msgpack
  length : Msgpack

/-- The fields of a `Footer`. -/
structure FooterFields where
  version : Msgpack
  blocks : List BlockFields
  records : List RecordFields

def blockFields (document : Msgpack) : Except ArchiveError BlockFields := do
  let offset ← document.get "offset"
  let length ← document.get "length"
  let rawLength ← document.get "raw_length"
  return ⟨offset, length, rawLength⟩

def recordFields (document : Msgpack) : Except ArchiveError RecordFields := do
  let sha256 ← document.get "sha256"
  let blockNo ← document.get "block_no"
  let offset ← document.get "offset"
  let length ← document.get "length"
  return ⟨sha256, blockNo, offset, length⟩

/-- `decode_footer`. -/
def decodeFooterFields (c : Codec) (segmentId : ℕ) (compressed : Bytes) :
    Except ArchiveError FooterFields := do
  let raw ← (c.decompress compressed).mapError (invalidFooter segmentId)
  let payload ← (c.unpackb raw).mapError (invalidFooter segmentId)
  let blocks ← (← (← payload.get "blocks").iterate).mapM blockFields
  let records ← (← (← payload.get "records").iterate).mapM recordFields
  let version ← payload.get "version"
  return ⟨version, blocks, records⟩

/-- `_footer_for` up to the check of the CRC. -/
def loadCompressedFooter (c : Codec) (disk : Disk) (segmentId : ℕ) :
    Except ArchiveError Bytes := do
  let file ← openSegment disk segmentId
  if file.length < trailerSize then
    .error (.corruptSegment segmentId ("file is " ++ toString file.length ++
      " bytes, shorter than the " ++ toString trailerSize ++ "-byte trailer"))
  else
    let (footerOffset, footerLength, expectedCrc) ←
      decodeTrailer c segmentId (file.drop (file.length - trailerSize))
    if footerOffset + footerLength + trailerSize > file.length then
      .error (.corruptSegment segmentId "trailer points outside the file")
    else
      let compressedFooter := slice file footerOffset footerLength
      if footerCrc32 c compressedFooter ≠ expectedCrc then
        .error (.corruptSegment segmentId "footer crc32 mismatch")
      else .ok compressedFooter

/-- `_footer_for`. -/
def loadFooterFields (c : Codec) (disk : Disk) (segmentId : ℕ) :
    Except ArchiveError FooterFields := do
  let compressed ← loadCompressedFooter c disk segmentId
  decodeFooterFields c segmentId compressed

/-! ## Reading -/

/-- The number fits the platform's offsets, as every offset within a file does. -/
def fitsOffset (file : Bytes) (n : ℤ) : Bool := n < 2 ^ 63 ∨ n ≤ file.length

/-- `handle.seek(offset)` and `handle.read(length)`. -/
def seekRead (file : Bytes) (offset length : Msgpack) : Except ArchiveError Bytes :=
  match offset.index with
  | none => .error .shape
  | some o =>
      if fitsOffset file o = false then .error .shape
      else if o < 0 then .error .invalidArgument
      else
        match length with
        | .nil => .ok (file.drop o.toNat)
        | length =>
            match length.index with
            | none => .error .shape
            | some l =>
                if l = -1 then .ok (file.drop o.toNat)
                else if l < 0 ∨ fitsOffset file l = false then .error .shape
                else .ok (slice file o.toNat l.toNat)

/-- An index of a slice, within a sequence of `n` items. -/
def clampIndex (n : ℕ) (i : ℤ) : ℕ := if i < 0 then (i + n).toNat else min i.toNat n

/-- `data[start:stop]`. -/
def pySlice (data : Bytes) (start stop : ℤ) : Bytes :=
  (data.take (clampIndex data.length stop)).drop (clampIndex data.length start)

/-- `payload[record.offset : record.offset + record.length]`. -/
def recordSlice (payload : Bytes) (offset length : Msgpack) : Except ArchiveError Bytes :=
  match offset.index, length.index with
  | some o, some l => .ok (pySlice payload o (o + l))
  | _, _ => .error .shape

/-- Where a footer says that a record lies. -/
structure FooterPosition where
  blockNo : Msgpack
  offset : Msgpack
  length : Msgpack

def RecordFields.position (r : RecordFields) : FooterPosition := ⟨r.blockNo, r.offset, r.length⟩

/-- `footer_records`. -/
def footerRecords (py : Python) (footer : FooterFields) :
    Except ArchiveError (List (String × FooterPosition)) :=
  footer.records.mapM fun r => do
    let sha256 ← r.sha256.hexText py
    return (sha256, r.position)

/-- The payload of a block. -/
def blockPayload (c : Codec) (file : Bytes) (block : BlockFields) : Except ArchiveError Bytes := do
  let compressed ← seekRead file block.offset block.length
  decompressBlock c compressed

/-- The records that a footer says lie in the `k`-th block. -/
def FooterFields.inBlock (py : Python) (footer : FooterFields) (k : ℕ) : List RecordFields :=
  footer.records.filter fun r => r.blockNo.number py = some (k : ℤ)

/-- A record as `iter_records` yields it. -/
def recordPair (py : Python) (payload : Bytes) (r : RecordFields) :
    Except ArchiveError (String × Bytes) := do
  let data ← recordSlice payload r.offset r.length
  let sha256 ← r.sha256.hexText py
  return (sha256, data)

/-- The records of one block, as `iter_records` yields them. -/
def blockPairsFields (c : Codec) (py : Python) (file : Bytes) (footer : FooterFields)
    (block : BlockFields × ℕ) : Except ArchiveError (List (String × Bytes)) := do
  let payload ← blockPayload c file block.1
  (footer.inBlock py block.2).mapM (recordPair py payload)

/-- `iter_records`, run to its end. -/
def iterRecordsFields (c : Codec) (py : Python) (file : Bytes) (footer : FooterFields) :
    Except ArchiveError (List (String × Bytes)) := do
  if footer.records.any fun r => !r.blockNo.hashable then .error .shape
  let pairs ← footer.blocks.zipIdx.mapM (blockPairsFields c py file footer)
  return pairs.flatten

/-- The columns of a `blobs` row that locate a record in its segment. -/
structure BlobPosition where
  blockNo : ℤ
  offset : ℤ
  length : ℤ
deriving DecidableEq

/-- `items[i]`. -/
def pyIndex {α : Type} (items : List α) (i : ℤ) : Except ArchiveError α :=
  let k := if i < 0 then i + items.length else i
  if k < 0 then .error .index
  else
    match items[k.toNat]? with
    | some item => .ok item
    | none => .error .index

/-- `SegmentReader.read`. -/
def readFields (c : Codec) (disk : Disk) (segmentId : ℕ) (sha256 : String)
    (position : BlobPosition) : Except ArchiveError Bytes := do
  let footer ← loadFooterFields c disk segmentId
  let entry ← pyIndex footer.blocks position.blockNo
  let file ← openSegment disk segmentId
  let block ← blockPayload c file entry
  let data := pySlice block position.offset (position.offset + position.length)
  if c.hexdigest data ≠ sha256 then
    .error (.corruptSegment segmentId ("record at block " ++ toString position.blockNo ++
      " offset " ++ toString position.offset ++ " failed its sha256 check"))
  else .ok data

/-! ## Entries with fields of their types -/

/-- The fields of an entry, as they are packed. -/
def BlockEntry.fields (b : BlockEntry) : BlockFields :=
  ⟨.int b.offset, .int b.length, .int b.rawLength⟩

def RecordEntry.fields (r : RecordEntry) : RecordFields :=
  ⟨.bin r.sha256, .int r.blockNo, .int r.offset, .int r.length⟩

def Footer.fields (footer : Footer) : FooterFields :=
  ⟨.int footer.version, footer.blocks.map BlockEntry.fields, footer.records.map RecordEntry.fields⟩

theorem eq_of_asNat {v : Msgpack} {n : ℕ} (h : v.asNat = .ok n) : v = .int n := by
  unfold Msgpack.asNat at h
  split at h
  · rw [Except.ok.inj h]
    rfl
  · cases h

theorem eq_of_asInt {v : Msgpack} {n : ℤ} (h : v.asInt = .ok n) : v = .int n := by
  unfold Msgpack.asInt at h
  split at h
  · rw [Except.ok.inj h]
  · cases h

theorem eq_of_asBytes {v : Msgpack} {data : Bytes} (h : v.asBytes = .ok data) : v = .bin data := by
  unfold Msgpack.asBytes at h
  split at h
  · rw [Except.ok.inj h]
  · cases h

theorem iterate_of_asList {v : Msgpack} {items : List Msgpack} (h : v.asList = .ok items) :
    v.iterate = .ok items := by
  unfold Msgpack.asList at h
  split at h
  · exact h
  · cases h

theorem blockFields_of_decodeBlock {document : Msgpack} {b : BlockEntry}
    (h : decodeBlock document = .ok b) : blockFields document = .ok b.fields := by
  obtain ⟨offset, hoffset, h⟩ := bind_eq_ok_iff.mp h
  obtain ⟨n, hn, h⟩ := bind_eq_ok_iff.mp h
  obtain ⟨length, hlength, h⟩ := bind_eq_ok_iff.mp h
  obtain ⟨m, hm, h⟩ := bind_eq_ok_iff.mp h
  obtain ⟨rawLength, hrawLength, h⟩ := bind_eq_ok_iff.mp h
  obtain ⟨l, hl, h⟩ := bind_eq_ok_iff.mp h
  obtain rfl := Except.ok.inj h
  rw [blockFields, hoffset, eq_of_asNat hn, hlength, eq_of_asNat hm, hrawLength, eq_of_asNat hl]
  rfl

theorem recordFields_of_decodeRecord {document : Msgpack} {r : RecordEntry}
    (h : decodeRecord document = .ok r) : recordFields document = .ok r.fields := by
  obtain ⟨sha256, hsha256, h⟩ := bind_eq_ok_iff.mp h
  obtain ⟨data, hdata, h⟩ := bind_eq_ok_iff.mp h
  obtain ⟨blockNo, hblockNo, h⟩ := bind_eq_ok_iff.mp h
  obtain ⟨k, hk, h⟩ := bind_eq_ok_iff.mp h
  obtain ⟨offset, hoffset, h⟩ := bind_eq_ok_iff.mp h
  obtain ⟨n, hn, h⟩ := bind_eq_ok_iff.mp h
  obtain ⟨length, hlength, h⟩ := bind_eq_ok_iff.mp h
  obtain ⟨m, hm, h⟩ := bind_eq_ok_iff.mp h
  obtain rfl := Except.ok.inj h
  rw [recordFields, hsha256, eq_of_asBytes hdata, hblockNo, eq_of_asNat hk, hoffset,
    eq_of_asNat hn, hlength, eq_of_asNat hm]
  rfl

/-- A footer that is decoded with the types of its entries is decoded. -/
theorem decodeFooterFields_of_decodeFooter {c : Codec} {segmentId : ℕ} {compressed : Bytes}
    {footer : Footer} (h : decodeFooter c segmentId compressed = .ok footer) :
    decodeFooterFields c segmentId compressed = .ok footer.fields := by
  obtain ⟨raw, hraw, h⟩ := bind_eq_ok_iff.mp h
  obtain ⟨payload, hpayload, h⟩ := bind_eq_ok_iff.mp h
  obtain ⟨v, hv, h⟩ := bind_eq_ok_iff.mp h
  obtain ⟨items, hitems, h⟩ := bind_eq_ok_iff.mp h
  obtain ⟨blocks, hblocks, h⟩ := bind_eq_ok_iff.mp h
  obtain ⟨v', hv', h⟩ := bind_eq_ok_iff.mp h
  obtain ⟨items', hitems', h⟩ := bind_eq_ok_iff.mp h
  obtain ⟨records, hrecords, h⟩ := bind_eq_ok_iff.mp h
  obtain ⟨version, hversion, h⟩ := bind_eq_ok_iff.mp h
  obtain ⟨n, hn, h⟩ := bind_eq_ok_iff.mp h
  obtain rfl := Except.ok.inj h
  refine bind_eq_ok_iff.mpr ⟨raw, hraw, bind_eq_ok_iff.mpr ⟨payload, hpayload, ?_⟩⟩
  refine bind_eq_ok_iff.mpr ⟨v, hv, bind_eq_ok_iff.mpr ⟨items, iterate_of_asList hitems, ?_⟩⟩
  refine bind_eq_ok_iff.mpr
    ⟨_, mapM_eq_ok_map hblocks fun _ _ => blockFields_of_decodeBlock, ?_⟩
  refine bind_eq_ok_iff.mpr ⟨v', hv', bind_eq_ok_iff.mpr ⟨items', iterate_of_asList hitems', ?_⟩⟩
  refine bind_eq_ok_iff.mpr
    ⟨_, mapM_eq_ok_map hrecords fun _ _ => recordFields_of_decodeRecord, ?_⟩
  exact bind_eq_ok_iff.mpr ⟨version, hversion, by rw [eq_of_asInt hn]; rfl⟩

theorem loadFooter_eq (c : Codec) (disk : Disk) (segmentId : ℕ) :
    loadFooter c disk segmentId = (do
      let compressed ← loadCompressedFooter c disk segmentId
      decodeFooter c segmentId compressed) := by
  rw [loadFooter, loadCompressedFooter]
  cases openSegment disk segmentId with
  | error e => rfl
  | ok file =>
      change (if _ then _ else _) = ((if _ then _ else _) >>= _)
      split
      · rfl
      · cases decodeTrailer c segmentId (file.drop (file.length - trailerSize)) with
        | error e => rfl
        | ok trailer =>
            change (if _ then _ else _) = ((if _ then _ else _) >>= _)
            split
            · rfl
            · split
              · rfl
              · rfl

/-- The same of reading the file. -/
theorem loadFooterFields_of_loadFooter {c : Codec} {disk : Disk} {segmentId : ℕ} {footer : Footer}
    (h : loadFooter c disk segmentId = .ok footer) :
    loadFooterFields c disk segmentId = .ok footer.fields := by
  rw [loadFooter_eq] at h
  obtain ⟨compressed, hcompressed, h⟩ := bind_eq_ok_iff.mp h
  exact bind_eq_ok_iff.mpr ⟨compressed, hcompressed, decodeFooterFields_of_decodeFooter h⟩

theorem seekRead_of_le {file : Bytes} {offset length : ℕ} (hoffset : offset ≤ file.length)
    (hlength : length ≤ file.length) :
    seekRead file (.int offset) (.int length) = .ok (slice file offset length) := by
  have hfits : ∀ {n : ℕ}, n ≤ file.length → fitsOffset file n = true := fun h =>
    decide_eq_true (Or.inr (Int.ofNat_le.mpr h))
  have hneg : ∀ n : ℕ, ¬(n : ℤ) < 0 := fun n => by omega
  have hone : ((length : ℕ) : ℤ) ≠ -1 := by omega
  simp [seekRead, Msgpack.index, hfits hoffset, hfits hlength, hneg, hone]

theorem pySlice_natCast (data : Bytes) (offset length : ℕ) :
    pySlice data offset (offset + length) = slice data offset length := by
  have hclamp : ∀ n : ℕ, clampIndex data.length n = min n data.length := fun n => by
    rw [clampIndex, if_neg (by omega), Int.toNat_natCast]
  rw [pySlice, ← Int.natCast_add, hclamp, hclamp, slice, List.drop_take]
  by_cases hoffset : offset ≤ data.length
  · rw [Nat.min_eq_left hoffset]
    by_cases hend : offset + length ≤ data.length
    · rw [Nat.min_eq_left hend, Nat.add_sub_cancel_left]
    · have hrest : (data.drop offset).length ≤ length := by rw [List.length_drop]; omega
      rw [Nat.min_eq_right (Nat.le_of_not_le hend), List.take_of_length_le hrest,
        List.take_of_length_le (by rw [List.length_drop])]
  · rw [List.drop_eq_nil_of_le (by omega), List.drop_eq_nil_of_le (by omega), List.take_nil,
      List.take_nil]

end RerollSync.Archive
