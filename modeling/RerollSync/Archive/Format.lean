import RerollSync.Support.Encoding
import RerollSync.Support.Exceptions
import RerollSync.Store.Schema

/-!
# The segment file format

`format.py`: the footer, a compressed msgpack document that indexes the blocks
and records of a segment, and the fixed trailer that locates the footer.  The
compressor, the packer and the hashes are parameters.
-/

namespace RerollSync.Archive

open RerollSync.Support
open RerollSync.Store (Bytes)

/-- `MAGIC`: `b"RSSEG1\0\0"`. -/
def magic : Bytes := [0x52, 0x53, 0x53, 0x45, 0x47, 0x31, 0, 0]

/-- `TRAILER_SIZE`. -/
def trailerSize : ℕ := 32

/-- `FOOTER_VERSION`. -/
def footerVersion : ℤ := 1

/-- `_RESERVED`. -/
def reserved : Bytes := [0, 0, 0, 0]

/-- `BlockEntry`. -/
structure BlockEntry where
  offset : ℕ
  length : ℕ
  rawLength : ℕ
deriving DecidableEq

/-- `RecordEntry`. -/
structure RecordEntry where
  sha256 : Bytes
  blockNo : ℕ
  offset : ℕ
  length : ℕ
deriving DecidableEq

/-- `Footer`. -/
structure Footer where
  version : ℤ
  blocks : List BlockEntry
  records : List RecordEntry
deriving DecidableEq

/-- The exceptions of the archive: `CorruptSegmentError`, the `RuntimeError` of a
sealed writer, `FileNotFoundError`, `FileExistsError`, the `OSError` of an invalid
argument, `struct.error`, the errors of `msgpack` and `zstandard` that are not caught,
`IndexError`, a document of another shape, the `KeyError` of an unknown hash, and
`sqlite3.IntegrityError`. -/
inductive ArchiveError
  | corruptSegment (segmentId : ℕ) (reason : String)
  | alreadySealed (segmentId : ℕ)
  | fileNotFound
  | fileExists
  | invalidArgument
  | struct
  | pack (message : String)
  | zstd (message : String)
  | index
  | shape
  | unknown (sha256 : String)
  | integrity
deriving DecidableEq

/-- The keys that `msgpack.unpackb` allows in a map. -/
inductive MsgpackKey
  | str (s : String)
  | bin (data : Bytes)
deriving DecidableEq

instance : Coe String MsgpackKey := ⟨.str⟩

/-- A msgpack document.  A map has each key once. -/
inductive Msgpack
  | nil
  | bool (b : Bool)
  | int (n : ℤ)
  | float (bits : UInt64)
  | str (s : String)
  | bin (data : Bytes)
  | array (items : List Msgpack)
  | map (entries : List (MsgpackKey × Msgpack))
  | ext (code : ℤ) (data : Bytes)

/-- What the archive uses of `zstandard`, `msgpack`, `zlib` and `hashlib`, and
Python's `repr` of a byte string; an error is the exception's text. -/
structure Codec where
  compress : ℤ → Bytes → Bytes
  decompress : Bytes → Except String Bytes
  packb : Msgpack → Except String Bytes
  unpackb : Bytes → Except String Msgpack
  crc32 : Bytes → UInt32
  sha256 : Bytes → Bytes
  reprBytes : Bytes → String

/-- `hashlib.sha256(data).hexdigest()`. -/
def Codec.hexdigest (c : Codec) (data : Bytes) : String := hex (c.sha256 data)

/-! ## Footer -/

/-- `{"offset": ..., "length": ..., "raw_length": ...}`. -/
def BlockEntry.document (b : BlockEntry) : Msgpack :=
  .map [("offset", .int b.offset), ("length", .int b.length), ("raw_length", .int b.rawLength)]

/-- `{"sha256": ..., "block_no": ..., "offset": ..., "length": ...}`. -/
def RecordEntry.document (r : RecordEntry) : Msgpack :=
  .map [("sha256", .bin r.sha256), ("block_no", .int r.blockNo), ("offset", .int r.offset),
    ("length", .int r.length)]

/-- The document of a footer. -/
def footerDocument (blocks : List BlockEntry) (records : List RecordEntry) : Msgpack :=
  .map [("version", .int footerVersion), ("blocks", .array (blocks.map BlockEntry.document)),
    ("records", .array (records.map RecordEntry.document))]

/-- `document[key]`. -/
def Msgpack.get (key : String) : Msgpack → Except ArchiveError Msgpack
  | .map entries =>
      match entries.find? fun e => e.1 = MsgpackKey.str key with
      | some e => .ok e.2
      | none => .error .shape
  | _ => .error .shape

def Msgpack.asList : Msgpack → Except ArchiveError (List Msgpack)
  | .array items => .ok items
  | _ => .error .shape

def Msgpack.asInt : Msgpack → Except ArchiveError ℤ
  | .int n => .ok n
  | _ => .error .shape

def Msgpack.asNat : Msgpack → Except ArchiveError ℕ
  | .int (.ofNat n) => .ok n
  | _ => .error .shape

def Msgpack.asBytes : Msgpack → Except ArchiveError Bytes
  | .bin data => .ok data
  | _ => .error .shape

def decodeBlock (document : Msgpack) : Except ArchiveError BlockEntry := do
  let offset ← (← document.get "offset").asNat
  let length ← (← document.get "length").asNat
  let rawLength ← (← document.get "raw_length").asNat
  return ⟨offset, length, rawLength⟩

def decodeRecord (document : Msgpack) : Except ArchiveError RecordEntry := do
  let sha256 ← (← document.get "sha256").asBytes
  let blockNo ← (← document.get "block_no").asNat
  let offset ← (← document.get "offset").asNat
  let length ← (← document.get "length").asNat
  return ⟨sha256, blockNo, offset, length⟩

/-- `compress_block`. -/
def compressBlock (c : Codec) (level : ℤ) (data : Bytes) : Bytes := c.compress level data

/-- `decompress_block`. -/
def decompressBlock (c : Codec) (data : Bytes) : Except ArchiveError Bytes :=
  (c.decompress data).mapError .zstd

/-- `encode_footer`. -/
def encodeFooter (c : Codec) (blocks : List BlockEntry) (records : List RecordEntry) (level : ℤ) :
    Except ArchiveError Bytes := do
  let packed ← (c.packb (footerDocument blocks records)).mapError .pack
  return compressBlock c level packed

/-- The exception a footer that cannot be decoded raises. -/
def invalidFooter (segmentId : ℕ) (message : String) : ArchiveError :=
  .corruptSegment segmentId ("footer is not valid: " ++ message)

/-- `decode_footer`. -/
def decodeFooter (c : Codec) (segmentId : ℕ) (compressed : Bytes) :
    Except ArchiveError Footer := do
  let raw ← (c.decompress compressed).mapError (invalidFooter segmentId)
  let payload ← (c.unpackb raw).mapError (invalidFooter segmentId)
  let blocks ← (← (← payload.get "blocks").asList).mapM decodeBlock
  let records ← (← (← payload.get "records").asList).mapM decodeRecord
  let version ← (← payload.get "version").asInt
  return ⟨version, blocks, records⟩

/-! ## Trailer -/

/-- `encode_trailer`: little-endian fields of 8, 8 and 4 bytes between the magic
and the reserved bytes. -/
def encodeTrailer (footerOffset footerLength footerCrc32 : ℕ) : Except ArchiveError Bytes :=
  if footerOffset < 256 ^ 8 ∧ footerLength < 256 ^ 8 ∧ footerCrc32 < 256 ^ 4 then
    .ok (magic ++ littleEndian 8 footerOffset ++ littleEndian 8 footerLength ++
      littleEndian 4 footerCrc32 ++ reserved)
  else .error .struct

/-- `decode_trailer`. -/
def decodeTrailer (c : Codec) (segmentId : ℕ) (data : Bytes) :
    Except ArchiveError (ℕ × ℕ × ℕ) :=
  if data.length ≠ trailerSize then
    .error (.corruptSegment segmentId ("trailer is " ++ toString data.length ++
      " bytes, expected " ++ toString trailerSize))
  else if data.take 8 ≠ magic then
    .error (.corruptSegment segmentId ("trailer magic " ++ c.reprBytes (data.take 8) ++
      " does not match " ++ c.reprBytes magic))
  else
    .ok (fromLittleEndian ((data.drop 8).take 8), fromLittleEndian ((data.drop 16).take 8),
      fromLittleEndian ((data.drop 24).take 4))

/-- `footer_crc32`. -/
def footerCrc32 (c : Codec) (compressedFooter : Bytes) : ℕ := (c.crc32 compressedFooter).toNat

/-! ## Round trips -/

/-- What the archive relies on: frames and footer documents round-trip, and the
hash is injective. -/
structure Codec.Faithful (c : Codec) : Prop where
  decompress_compress : ∀ level data, c.decompress (c.compress level data) = .ok data
  unpackb_packb : ∀ blocks records packed, c.packb (footerDocument blocks records) = .ok packed →
    c.unpackb packed = .ok (footerDocument blocks records)
  sha256_injective : Function.Injective c.sha256

theorem Codec.Faithful.hexdigest_injective {c : Codec} (h : c.Faithful) :
    Function.Injective c.hexdigest :=
  fun _ _ heq => h.sha256_injective (hex_injective heq)

theorem length_of_encodeTrailer {footerOffset footerLength footerCrc32 : ℕ} {trailer : Bytes}
    (h : encodeTrailer footerOffset footerLength footerCrc32 = .ok trailer) :
    trailer.length = trailerSize := by
  unfold encodeTrailer at h
  split at h
  · obtain rfl := Except.ok.inj h
    simp [magic, reserved, trailerSize]
  · cases h

/-- A trailer is decoded to what it was encoded from. -/
theorem decodeTrailer_of_encodeTrailer (c : Codec) (segmentId : ℕ)
    {footerOffset footerLength footerCrc32 : ℕ} {trailer : Bytes}
    (h : encodeTrailer footerOffset footerLength footerCrc32 = .ok trailer) :
    decodeTrailer c segmentId trailer = .ok (footerOffset, footerLength, footerCrc32) := by
  have hlength := length_of_encodeTrailer h
  unfold encodeTrailer at h
  split at h
  · rename_i hfits
    obtain ⟨hoffset, hlen, hcrc⟩ := hfits
    obtain rfl := Except.ok.inj h
    have hmagic : magic.length = 8 := rfl
    rw [decodeTrailer, if_neg (by simpa using hlength)]
    simp only [List.append_assoc]
    rw [if_neg (by rw [← hmagic, List.take_left]; simp)]
    have hdrop8 : ∀ l : Bytes, (magic ++ l).drop 8 = l := fun l => List.drop_left' hmagic
    have hdrop16 : ∀ (l : Bytes), (magic ++ (littleEndian 8 footerOffset ++ l)).drop 16 = l :=
      fun l => by rw [← List.append_assoc]; exact List.drop_left' (by simp [hmagic])
    have hdrop24 : ∀ (l : Bytes), (magic ++ (littleEndian 8 footerOffset ++
        (littleEndian 8 footerLength ++ l))).drop 24 = l := fun l => by
      rw [← List.append_assoc, ← List.append_assoc]
      exact List.drop_left' (by simp [hmagic])
    rw [hdrop8, hdrop16, hdrop24, List.take_left' (length_littleEndian _ _),
      List.take_left' (length_littleEndian _ _), List.take_left' (length_littleEndian _ _),
      fromLittleEndian_littleEndian hoffset, fromLittleEndian_littleEndian hlen,
      fromLittleEndian_littleEndian hcrc]
  · cases h

@[simp] theorem decodeBlock_document (b : BlockEntry) : decodeBlock b.document = .ok b := rfl

@[simp] theorem decodeRecord_document (r : RecordEntry) : decodeRecord r.document = .ok r := rfl

/-- Decoding the documents of entries one by one gives the entries. -/
theorem mapM_document {ε : Type} {decode : Msgpack → Except ArchiveError ε}
    {document : ε → Msgpack} (h : ∀ e, decode (document e) = .ok e) (l : List ε) :
    (l.map document).mapM decode = .ok l := by
  induction l with
  | nil => rfl
  | cons e l ih =>
      rw [List.map_cons, List.mapM_cons, h, ih]
      rfl

/-- A footer is decoded to what it was encoded from. -/
theorem decodeFooter_of_encodeFooter {c : Codec} (hc : c.Faithful) (segmentId : ℕ)
    {blocks : List BlockEntry} {records : List RecordEntry} {level : ℤ} {compressed : Bytes}
    (h : encodeFooter c blocks records level = .ok compressed) :
    decodeFooter c segmentId compressed = .ok ⟨footerVersion, blocks, records⟩ := by
  obtain ⟨packed, hpacked, hcompressed⟩ := bind_eq_ok_iff.mp h
  obtain rfl : compressBlock c level packed = compressed := Except.ok.inj hcompressed
  have hpack : c.packb (footerDocument blocks records) = .ok packed := by
    cases hpack : c.packb (footerDocument blocks records) with
    | error e => simp [hpack, Except.mapError] at hpacked
    | ok packed' => simpa [hpack, Except.mapError] using hpacked
  have hunpack := hc.unpackb_packb blocks records packed hpack
  have hblocks := mapM_document decodeBlock_document blocks
  have hrecords := mapM_document decodeRecord_document records
  simp only [decodeFooter, compressBlock, hc.decompress_compress, Except.mapError, hunpack, bind,
    Except.bind]
  simp [footerDocument, Msgpack.get, Msgpack.asList, Msgpack.asInt, hblocks, hrecords, pure,
    Except.pure]

end RerollSync.Archive
