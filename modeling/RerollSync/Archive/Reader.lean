import RerollSync.Archive.Writer

/-!
# The segment reader

`SegmentReader` of `reader.py`.  It caches footers and the most recently
decompressed blocks; what it returns does not depend on what is cached.
-/

namespace RerollSync.Archive

open RerollSync.Support
open RerollSync.Store (Bytes)

/-- `DEFAULT_BLOCK_CACHE_SIZE`. -/
def defaultBlockCacheSize : ℕ := 4

/-- The caches of a `SegmentReader`; the blocks are ordered by last use. -/
structure Reader where
  blockCacheSize : ℕ
  footers : Table ℕ Footer := ∅
  blocks : Table (ℕ × ℕ) Bytes := ∅

/-- A method of a reader: it may raise, and keeps what it has cached. -/
abbrev Read := EStateM ArchiveError Reader

/-- A computation that does not use the caches. -/
def Read.lift {α : Type} : Except ArchiveError α → Read α
  | .ok a => pure a
  | .error e => throw e

/-! ## Reading the files -/

/-- `open(self._segment_path(segment_id), "rb")`. -/
def openSegment (disk : Disk) (segmentId : ℕ) : Except ArchiveError Bytes :=
  match disk.get? (segmentId, .zst) with
  | some file => .ok file
  | none => .error .fileNotFound

/-- The part of `_footer_for` that reads the file. -/
def loadFooter (c : Codec) (disk : Disk) (segmentId : ℕ) : Except ArchiveError Footer := do
  let file ← openSegment disk segmentId
  if file.length < trailerSize then
    .error (.corruptSegment segmentId ("file is " ++ toString file.length ++
      " bytes, shorter than the " ++ toString trailerSize ++ "-byte trailer"))
  else
    let (footerOffset, footerLength, expectedCrc) ←
      decodeTrailer c segmentId (file.drop (file.length - trailerSize))
    if footerOffset + footerLength + trailerSize > file.length then
      .error (.corruptSegment segmentId "trailer points outside the file")
    else
      let compressedFooter := slice file footerOffset footerLength
      if footerCrc32 c compressedFooter ≠ expectedCrc then
        .error (.corruptSegment segmentId "footer crc32 mismatch")
      else decodeFooter c segmentId compressedFooter

/-- The part of `_block_bytes` that reads the file. -/
def loadBlock (c : Codec) (disk : Disk) (segmentId blockNo : ℕ) (footer : Footer) :
    Except ArchiveError Bytes :=
  match footer.blocks[blockNo]? with
  | none => .error .index
  | some entry => do
      let file ← openSegment disk segmentId
      decompressBlock c (slice file entry.offset entry.length)

/-- The payload of a block, read from the file. -/
def loadPayload (c : Codec) (disk : Disk) (segmentId blockNo : ℕ) : Except ArchiveError Bytes := do
  let footer ← loadFooter c disk segmentId
  loadBlock c disk segmentId blockNo footer

namespace Reader

/-- `_footer_for`. -/
def footerFor (c : Codec) (disk : Disk) (segmentId : ℕ) : Read Footer := do
  match (← get).footers.get? segmentId with
  | some cached => return cached
  | none =>
      let footer ← Read.lift (loadFooter c disk segmentId)
      modify fun r => { r with footers := r.footers.set segmentId footer }
      return footer

/-- `self._blocks.move_to_end(key)`. -/
def touchBlock (key : ℕ × ℕ) (data : Bytes) : Read Unit :=
  modify fun r => { r with blocks := (r.blocks.filter fun k _ => k ≠ key).insertNew key data }

/-- `self._blocks[key] = data`, evicting the block used least recently. -/
def storeBlock (key : ℕ × ℕ) (data : Bytes) : Read Unit :=
  modify fun r =>
    let blocks := r.blocks.set key data
    { r with blocks := if r.blockCacheSize < blocks.rows.length then blocks.dropFirst else blocks }

/-- `_block_bytes`. -/
def blockBytes (c : Codec) (disk : Disk) (segmentId blockNo : ℕ) : Read Bytes := do
  match (← get).blocks.get? (segmentId, blockNo) with
  | some cached =>
      touchBlock (segmentId, blockNo) cached
      return cached
  | none =>
      let footer ← footerFor c disk segmentId
      let data ← Read.lift (loadBlock c disk segmentId blockNo footer)
      storeBlock (segmentId, blockNo) data
      return data

/-- The check that ends `read`. -/
def checkRecord (c : Codec) (location : BlobLocation) (block : Bytes) :
    Except ArchiveError Bytes :=
  let data := slice block location.offset location.length
  if c.hexdigest data ≠ location.sha256 then
    .error (.corruptSegment location.segmentId ("record at block " ++ toString location.blockNo ++
      " offset " ++ toString location.offset ++ " failed its sha256 check"))
  else .ok data

/-- `read`. -/
def read (c : Codec) (disk : Disk) (location : BlobLocation) : Read Bytes := do
  let block ← blockBytes c disk location.segmentId location.blockNo
  Read.lift (checkRecord c location block)

/-- The records of one block, as `iter_records` yields them. -/
def blockPairs (c : Codec) (file : Bytes) (footer : Footer) (block : BlockEntry × ℕ) :
    Except ArchiveError (List (String × Bytes)) := do
  let payload ← decompressBlock c (slice file block.1.offset block.1.length)
  return (footer.records.filter fun r => r.blockNo = block.2).map fun r =>
    (hex r.sha256, slice payload r.offset r.length)

/-- `iter_records`, run to its end. -/
def iterRecords (c : Codec) (disk : Disk) (segmentId : ℕ) : Read (List (String × Bytes)) := do
  let footer ← footerFor c disk segmentId
  let file ← Read.lift (openSegment disk segmentId)
  let pairs ← Read.lift (footer.blocks.zipIdx.mapM (blockPairs c file footer))
  return pairs.flatten

end Reader

/-! ## The caches are transparent -/

/-- What is cached is what the files say. -/
structure Reader.Valid (c : Codec) (disk : Disk) (r : Reader) : Prop where
  footers : ∀ id footer, r.footers.get? id = some footer → loadFooter c disk id = .ok footer
  blocks : ∀ id blockNo data, r.blocks.get? (id, blockNo) = some data →
    loadPayload c disk id blockNo = .ok data

theorem Reader.valid_empty (c : Codec) (disk : Disk) (blockCacheSize : ℕ) :
    Reader.Valid c disk { blockCacheSize := blockCacheSize } :=
  ⟨fun _ _ h => by simp at h, fun _ _ _ h => by simp at h⟩

/-- Files that are never rewritten keep the caches valid. -/
theorem Reader.Valid.mono {c : Codec} {disk disk' : Disk} {r : Reader} (h : r.Valid c disk)
    (hkept : ∀ id file, disk.get? (id, .zst) = some file → disk'.get? (id, .zst) = some file) :
    r.Valid c disk' := by
  have hopen : ∀ {id file}, openSegment disk id = .ok file → openSegment disk' id = .ok file := by
    intro id file hfile
    unfold openSegment at hfile ⊢
    split at hfile
    · rename_i file' hget
      obtain rfl := Except.ok.inj hfile
      rw [hkept id file' hget]
    · cases hfile
  have hfooter : ∀ {id footer}, loadFooter c disk id = .ok footer →
      loadFooter c disk' id = .ok footer := by
    intro id footer hload
    obtain ⟨file, hfile, hrest⟩ := bind_eq_ok_iff.mp hload
    exact bind_eq_ok_iff.mpr ⟨file, hopen hfile, hrest⟩
  have hblock : ∀ {id blockNo footer data}, loadBlock c disk id blockNo footer = .ok data →
      loadBlock c disk' id blockNo footer = .ok data := by
    intro id blockNo footer data hload
    unfold loadBlock at hload ⊢
    split at hload
    · cases hload
    · obtain ⟨file, hfile, hrest⟩ := bind_eq_ok_iff.mp hload
      exact bind_eq_ok_iff.mpr ⟨file, hopen hfile, hrest⟩
  refine ⟨fun id footer hget => hfooter (h.footers id footer hget), fun id blockNo data hget => ?_⟩
  obtain ⟨footer, hload, hdata⟩ := bind_eq_ok_iff.mp (h.blocks id blockNo data hget)
  exact bind_eq_ok_iff.mpr ⟨footer, hfooter hload, hblock hdata⟩

/-- A method returns what the files say, or raises, and leaves valid caches. -/
def Reads {α : Type} (c : Codec) (disk : Disk) (m : Read α) (value : Except ArchiveError α) :
    Prop :=
  ∀ r : Reader, r.Valid c disk → ∃ r', Reader.Valid c disk r' ∧
    m r = (match value with
      | .ok a => EStateM.Result.ok a r'
      | .error e => EStateM.Result.error e r')

namespace Reads

variable {α β : Type} {c : Codec} {disk : Disk}

theorem lift (value : Except ArchiveError α) : Reads c disk (Read.lift value) value := by
  intro r hr
  cases value <;> exact ⟨r, hr, rfl⟩

theorem pure (a : α) : Reads c disk (Pure.pure a) (.ok a) := fun r hr => ⟨r, hr, rfl⟩

/-- Methods compose. -/
theorem bind {m : Read α} {value : Except ArchiveError α} {f : α → Read β}
    {g : α → Except ArchiveError β} (hm : Reads c disk m value)
    (hf : ∀ a, value = .ok a → Reads c disk (f a) (g a)) :
    Reads c disk (m >>= f) (value >>= g) := by
  intro r hr
  obtain ⟨r₁, hr₁, hrun⟩ := hm r hr
  cases value with
  | error e => exact ⟨r₁, hr₁, by simp only [Bind.bind, EStateM.bind, hrun]; rfl⟩
  | ok a =>
      obtain ⟨r₂, hr₂, hrest⟩ := hf a rfl r₁ hr₁
      exact ⟨r₂, hr₂, by simp only [Bind.bind, EStateM.bind, hrun]; exact hrest⟩

end Reads

variable {c : Codec} {disk : Disk}

/-- A method that looks at the caches first. -/
theorem Reads.of_get {α : Type} {f : Reader → Read α} {value : Except ArchiveError α}
    (h : ∀ r : Reader, r.Valid c disk → Reads c disk (f r) value) :
    Reads c disk (do f (← get)) value := fun r hr => h r hr r hr

/-- An update of the caches that keeps them valid. -/
theorem Reads.modify {f : Reader → Reader}
    (h : ∀ r : Reader, r.Valid c disk → Reader.Valid c disk (f r)) :
    Reads c disk (modify f) (.ok ()) := fun r hr => ⟨f r, h r hr, rfl⟩

theorem reads_footerFor (segmentId : ℕ) :
    Reads c disk (Reader.footerFor c disk segmentId) (loadFooter c disk segmentId) := by
  refine Reads.of_get fun r hr => ?_
  cases hget : r.footers.get? segmentId with
  | some cached =>
      rw [hr.footers segmentId cached hget]
      exact Reads.pure cached
  | none =>
      have hstore : ∀ footer, loadFooter c disk segmentId = .ok footer →
          Reads c disk (do
            modify fun r : Reader => { r with footers := r.footers.set segmentId footer }
            return footer) (.ok footer) := by
        intro footer hload
        have hmodify : Reads c disk
            (modify fun r : Reader => { r with footers := r.footers.set segmentId footer })
            (.ok ()) := by
          refine Reads.modify fun r hr => ⟨fun id footer' hfooter' => ?_, hr.blocks⟩
          rw [Table.get?_set] at hfooter'
          by_cases hid : id = segmentId
          · rw [if_pos hid] at hfooter'
            rw [hid, hload, Option.some.inj hfooter']
          · rw [if_neg hid] at hfooter'
            exact hr.footers id footer' hfooter'
        exact hmodify.bind (g := fun _ => .ok footer) fun _ _ => Reads.pure footer
      have hall := (@Reads.lift _ c disk (loadFooter c disk segmentId)).bind hstore
      cases hload : loadFooter c disk segmentId <;> rw [hload] at hall <;> exact hall

/-- Storing a payload, whichever block it evicts. -/
theorem Reader.Valid.store {r : Reader} (hr : r.Valid c disk) {segmentId blockNo : ℕ} {data : Bytes}
    (hload : loadPayload c disk segmentId blockNo = .ok data) {blocks : Table (ℕ × ℕ) Bytes}
    (hblocks : ∀ key data', blocks.get? key = some data' →
      (r.blocks.set (segmentId, blockNo) data).get? key = some data') :
    Reader.Valid c disk { r with blocks := blocks } where
  footers := hr.footers
  blocks id blockNo' data' hget := by
    have hset := hblocks _ _ hget
    rw [Table.get?_set] at hset
    by_cases hkey : (id, blockNo') = (segmentId, blockNo)
    · rw [if_pos hkey] at hset
      obtain ⟨rfl, rfl⟩ := Prod.mk.inj hkey
      rw [hload, Option.some.inj hset]
    · rw [if_neg hkey] at hset
      exact hr.blocks id blockNo' data' hset

theorem reads_blockBytes (segmentId blockNo : ℕ) :
    Reads c disk (Reader.blockBytes c disk segmentId blockNo)
      (loadPayload c disk segmentId blockNo) := by
  refine Reads.of_get fun r hr => ?_
  cases hget : r.blocks.get? (segmentId, blockNo) with
  | some cached =>
      have hload := hr.blocks segmentId blockNo cached hget
      rw [hload]
      refine Reads.bind (g := fun _ => .ok cached) (Reads.modify fun r hr => ?_)
        fun _ _ => Reads.pure cached
      refine hr.store hload fun key data' hkey => ?_
      rw [Table.get?_insertNew, Table.get?_filter, Table.get?_filter] at hkey
      rw [Table.get?_set]
      by_cases hk : key = (segmentId, blockNo)
      · rw [if_pos hk] at hkey ⊢
        rw [← hkey]
        cases r.blocks.get? (segmentId, blockNo) <;> simp
      · rw [if_neg hk] at hkey ⊢
        exact (Option.filter_eq_some_iff.mp hkey).1
  | none =>
      refine (reads_footerFor segmentId).bind fun footer hfooter => ?_
      have hstore : ∀ data, loadBlock c disk segmentId blockNo footer = .ok data →
          Reads c disk (do
            Reader.storeBlock (segmentId, blockNo) data
            return data) (.ok data) := by
        intro data hdata
        have hload : loadPayload c disk segmentId blockNo = .ok data :=
          bind_eq_ok_iff.mpr ⟨footer, hfooter, hdata⟩
        refine Reads.bind (g := fun _ => .ok data) (Reads.modify fun r hr => ?_)
          fun _ _ => Reads.pure data
        refine hr.store hload fun key data' hkey => ?_
        split at hkey
        · exact Table.get?_of_dropFirst hkey
        · exact hkey
      have hall := (Reads.lift (c := c) (loadBlock c disk segmentId blockNo footer)).bind hstore
      cases hdata : loadBlock c disk segmentId blockNo footer <;> rw [hdata] at hall <;> exact hall

theorem reads_read (location : BlobLocation) :
    Reads c disk (Reader.read c disk location) (do
      let block ← loadPayload c disk location.segmentId location.blockNo
      Reader.checkRecord c location block) :=
  (reads_blockBytes location.segmentId location.blockNo).bind fun _ _ => Reads.lift _

theorem reads_iterRecords (segmentId : ℕ) :
    Reads c disk (Reader.iterRecords c disk segmentId) (do
      let footer ← loadFooter c disk segmentId
      let file ← openSegment disk segmentId
      let pairs ← footer.blocks.zipIdx.mapM (Reader.blockPairs c file footer)
      .ok pairs.flatten) :=
  (reads_footerFor segmentId).bind fun _ _ => (Reads.lift _).bind fun _ _ =>
    (Reads.lift _).bind fun _ _ => Reads.pure _

/-! ## Reading a sealed segment -/

section Sealed

variable {settings : Settings} {blocks : List (List Bytes)} {footer trailer file : Bytes} {id : ℕ}

/-- The footer of a sealed segment, as it is decoded. -/
def footerOf (c : Codec) (settings : Settings) (blocks : List (List Bytes)) : Footer :=
  ⟨footerVersion, blockEntries c settings.level 0 blocks, recordEntries c 0 blocks⟩

theorem openSegment_of_get? (hfile : disk.get? (id, .zst) = some file) :
    openSegment disk id = .ok file := by
  rw [openSegment, hfile]

/-- The trailer locates the footer, and the footer is what the writer encoded. -/
theorem loadFooter_of_sealedFile (hc : c.Faithful) (hfile : disk.get? (id, .zst) = some file)
    (h : SealedFile c settings blocks footer trailer file) :
    loadFooter c disk id = .ok (footerOf c settings blocks) := by
  have hlength := length_of_encodeTrailer h.trailer_eq
  have htotal : file.length =
      (frames c settings.level blocks).length + footer.length + trailerSize := by
    rw [h.file_eq, List.length_append, List.length_append, hlength]
  have htrailer : file.drop (file.length - trailerSize) = trailer := by
    rw [h.file_eq]
    refine List.drop_left' ?_
    simp only [List.length_append, hlength]
    omega
  have hfooter : slice file (frames c settings.level blocks).length footer.length = footer := by
    rw [h.file_eq, slice, List.append_assoc, List.drop_left, List.take_left]
  refine bind_eq_ok_iff.mpr ⟨file, openSegment_of_get? hfile, ?_⟩
  rw [if_neg (by omega), htrailer]
  refine bind_eq_ok_iff.mpr ⟨_, decodeTrailer_of_encodeTrailer c id h.trailer_eq, ?_⟩
  simp only [hfooter, ne_eq, not_true_eq_false, if_false]
  rw [if_neg (by omega)]
  exact decodeFooter_of_encodeFooter hc id h.footer_eq

/-- Every frame is decompressed to the records of its block. -/
theorem decompress_frame (hc : c.Faithful) (h : SealedFile c settings blocks footer trailer file)
    {k : ℕ} {block : List Bytes} (hblock : blocks[k]? = some block) :
    decompressBlock c (slice file (frames c settings.level (blocks.take k)).length
      (frame c settings.level block).length) = .ok block.flatten := by
  rw [h.file_eq, List.append_assoc, slice_frames c settings.level hblock, frame, decompressBlock,
    compressBlock, hc.decompress_compress]
  rfl

theorem loadPayload_of_sealedFile (hc : c.Faithful) (hfile : disk.get? (id, .zst) = some file)
    (h : SealedFile c settings blocks footer trailer file) {k : ℕ} {block : List Bytes}
    (hblock : blocks[k]? = some block) : loadPayload c disk id k = .ok block.flatten := by
  refine bind_eq_ok_iff.mpr ⟨_, loadFooter_of_sealedFile hc hfile h, ?_⟩
  have hentry : (footerOf c settings blocks).blocks[k]? =
      some ⟨(frames c settings.level (blocks.take k)).length,
        (frame c settings.level block).length, block.flatten.length⟩ := by
    simp [footerOf, getElem?_blockEntries, hblock]
  rw [loadBlock, hentry]
  exact bind_eq_ok_iff.mpr ⟨file, openSegment_of_get? hfile, decompress_frame hc h hblock⟩

/-- A located record is read back, whatever the reader has cached. -/
theorem reads_of_located (hc : c.Faithful) (hfile : disk.get? (id, .zst) = some file)
    (h : SealedFile c settings blocks footer trailer file) {data : Bytes}
    {location : BlobLocation} (hlocated : Located c id blocks data location) :
    Reads c disk (Reader.read c disk location) (.ok data) := by
  obtain ⟨block, hblock, hslice, hsha, hid⟩ := hlocated.slice_eq
  have hvalue : (do
      let block ← loadPayload c disk location.segmentId location.blockNo
      Reader.checkRecord c location block) = .ok data := by
    refine bind_eq_ok_iff.mpr ⟨block.flatten, ?_, ?_⟩
    · rw [hid]
      exact loadPayload_of_sealedFile hc hfile h hblock
    · simp [Reader.checkRecord, hslice, hsha]
  rw [← hvalue]
  exact reads_read location

/-- The pairs of a block are its records under their hashes. -/
theorem blockPairs_of_sealedFile (hc : c.Faithful)
    (h : SealedFile c settings blocks footer trailer file) {k : ℕ} {block : List Bytes}
    (hblock : blocks[k]? = some block) (rawLength : ℕ) :
    Reader.blockPairs c file (footerOf c settings blocks)
      (⟨(frames c settings.level (blocks.take k)).length, (frame c settings.level block).length,
        rawLength⟩, k) = .ok (block.map fun data => (c.hexdigest data, data)) := by
  refine bind_eq_ok_iff.mpr ⟨block.flatten, decompress_frame hc h hblock, ?_⟩
  have hfilter := filter_recordEntries c 0 k blocks
  have hpairs := map_blockRecords c k [] block
  simp only [Nat.zero_add, hblock, Option.getD_some] at hfilter
  simp only [List.flatten_nil, List.length_nil, List.nil_append] at hpairs
  simp only [footerOf, hfilter]
  rw [← hpairs]
  rfl

/-- A computation over numbered entries, from what it does at each position. -/
theorem mapM_zipIdx {α β : Type} {f : α × ℕ → Except ArchiveError β} {l : List α} {l' : List β}
    {n : ℕ} (hlength : l.length = l'.length)
    (h : ∀ (k : ℕ) a b, l[k]? = some a → l'[k]? = some b → f (a, n + k) = .ok b) :
    (l.zipIdx n).mapM f = .ok l' := by
  induction l generalizing l' n with
  | nil =>
      obtain rfl : l' = [] := List.eq_nil_of_length_eq_zero hlength.symm
      rfl
  | cons a l ih =>
      cases l' with
      | nil => cases hlength
      | cons b l' =>
          rw [List.zipIdx_cons, List.mapM_cons]
          refine bind_eq_ok_iff.mpr ⟨b, by simpa using h 0 a b rfl rfl, ?_⟩
          refine bind_eq_ok_iff.mpr ⟨l', ih (by simpa using hlength) fun k a' b' ha hb => ?_, rfl⟩
          have hk := h (k + 1) a' b' (by simpa using ha) (by simpa using hb)
          rwa [show n + (k + 1) = n + 1 + k by omega] at hk

/-- Iterating a sealed segment yields its records in order. -/
theorem reads_iterRecords_of_sealedFile (hc : c.Faithful)
    (hfile : disk.get? (id, .zst) = some file)
    (h : SealedFile c settings blocks footer trailer file) :
    Reads c disk (Reader.iterRecords c disk id)
      (.ok (blocks.flatten.map fun data => (c.hexdigest data, data))) := by
  have hpairs : (footerOf c settings blocks).blocks.zipIdx.mapM
      (Reader.blockPairs c file (footerOf c settings blocks)) =
      .ok (blocks.map fun block => block.map fun data => (c.hexdigest data, data)) := by
    have hlength : (footerOf c settings blocks).blocks.length = blocks.length :=
      length_blockEntries c settings.level 0 blocks
    refine mapM_zipIdx (by simp [hlength]) fun k entry pairs hentry hpairs => ?_
    rw [footerOf, getElem?_blockEntries] at hentry
    obtain ⟨block, hblock, rfl⟩ := Option.map_eq_some_iff.mp hentry
    obtain rfl : (block.map fun data => (c.hexdigest data, data)) = pairs := by
      simpa [hblock] using hpairs
    simpa using blockPairs_of_sealedFile hc h hblock block.flatten.length
  have hvalue : (do
      let footer ← loadFooter c disk id
      let file ← openSegment disk id
      let pairs ← footer.blocks.zipIdx.mapM (Reader.blockPairs c file footer)
      .ok pairs.flatten) = .ok (blocks.flatten.map fun data => (c.hexdigest data, data)) := by
    refine bind_eq_ok_iff.mpr ⟨_, loadFooter_of_sealedFile hc hfile h, ?_⟩
    refine bind_eq_ok_iff.mpr ⟨file, openSegment_of_get? hfile, ?_⟩
    refine bind_eq_ok_iff.mpr ⟨_, hpairs, ?_⟩
    rw [List.map_flatten]
  rw [← hvalue]
  exact reads_iterRecords id

end Sealed

end RerollSync.Archive
