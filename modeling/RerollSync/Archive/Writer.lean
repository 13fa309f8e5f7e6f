import RerollSync.Archive.Layout

/-!
# The segment writer

`SegmentWriter` of `writer.py` over a directory of segment files.  Records go to
an open block; a block that would exceed its target is flushed as one frame; the
seal adds the footer and the trailer and renames the file.
-/

namespace RerollSync.Archive

open RerollSync.Support
open RerollSync.Store (Bytes)

/-! ## The directory -/

/-- The suffix of a segment file: `.open` while in progress, then `.zst`. -/
inductive Suffix
  | opened
  | zst
deriving DecidableEq

/-- A directory of segment files, by segment id and suffix. -/
abbrev Disk := Table (ℕ × Suffix) Bytes

namespace Disk

/-- `open(path, "xb")`. -/
def create (id : ℕ) (disk : Disk) : Except ArchiveError Disk :=
  match disk.get? (id, .opened) with
  | some _ => .error .fileExists
  | none => .ok (disk.set (id, .opened) [])

/-- `file.write(data)`, through the handle of an `.open` file. -/
def append (id : ℕ) (data : Bytes) (disk : Disk) : Disk :=
  disk.set (id, .opened) (((disk.get? (id, .opened)).getD []) ++ data)

/-- `os.rename(path, path.with_suffix(".zst"))`. -/
def rename (id : ℕ) (disk : Disk) : Except ArchiveError Disk :=
  match disk.get? (id, .opened) with
  | some data => .ok ((disk.filter fun key _ => key ≠ (id, .opened)).set (id, .zst) data)
  | none => .error .fileNotFound

end Disk

/-! ## The writer -/

/-- `DEFAULT_BLOCK_TARGET_BYTES`. -/
def defaultBlockTargetBytes : ℤ := 4 * 1024 * 1024

/-- `DEFAULT_LEVEL`. -/
def defaultLevel : ℤ := 10

/-- The arguments of a `SegmentWriter` that decide what it writes. -/
structure Settings where
  blockTargetBytes : ℤ := defaultBlockTargetBytes
  level : ℤ := defaultLevel

/-- `SegmentWriter`. -/
structure SegmentWriter where
  segmentId : ℕ
  blockTargetBytes : ℤ
  level : ℤ
  position : ℕ := 0
  compressedBytes : ℕ := 0
  blockNo : ℕ := 0
  blockBuffer : Bytes := []
  blockRawSize : ℕ := 0
  pendingRecords : ℕ := 0
  blocks : List BlockEntry := []
  records : List RecordEntry := []
  locations : Table String BlobLocation := ∅
  isSealed : Bool := false

/-- `SegmentStats`. -/
structure SegmentStats where
  segmentId : ℕ
  bytes : ℕ
  records : ℕ
  footerSha256 : String
deriving DecidableEq

namespace SegmentWriter

/-- `SegmentWriter(directory, segment_id, ...)`. -/
def create (settings : Settings) (segmentId : ℕ) (disk : Disk) :
    Except ArchiveError (SegmentWriter × Disk) := do
  let disk ← disk.create segmentId
  return ({ segmentId := segmentId, blockTargetBytes := settings.blockTargetBytes,
            level := settings.level }, disk)

/-- `_flush_block`. -/
def flushBlock (c : Codec) (w : SegmentWriter) (disk : Disk) : SegmentWriter × Disk :=
  let compressed := compressBlock c w.level w.blockBuffer
  ({ w with
      blocks := w.blocks ++ [⟨w.position, compressed.length, w.blockRawSize⟩]
      position := w.position + compressed.length
      compressedBytes := w.compressedBytes + compressed.length
      blockNo := w.blockNo + 1
      blockBuffer := []
      blockRawSize := 0
      pendingRecords := 0 },
    disk.append w.segmentId compressed)

/-- The record that `add` appends to the open block. -/
def appendRecord (c : Codec) (data : Bytes) (w : SegmentWriter) : BlobLocation × SegmentWriter :=
  let sha256 := c.hexdigest data
  let location : BlobLocation := ⟨sha256, w.segmentId, w.blockNo, w.blockRawSize, data.length⟩
  (location,
    { w with
      blockBuffer := w.blockBuffer ++ data
      blockRawSize := w.blockRawSize + data.length
      pendingRecords := w.pendingRecords + 1
      locations := w.locations.set sha256 location
      records := w.records ++
        [⟨(fromHex sha256).getD [], w.blockNo, w.blockRawSize, data.length⟩] })

/-- `data` no longer fits the open block. -/
def overflows (w : SegmentWriter) (data : Bytes) : Bool :=
  w.pendingRecords ≠ 0 ∧ w.blockTargetBytes < w.blockRawSize + data.length

/-- `add`. -/
def add (c : Codec) (data : Bytes) (w : SegmentWriter) (disk : Disk) :
    Except ArchiveError (BlobLocation × SegmentWriter × Disk) :=
  if w.isSealed then .error (.alreadySealed w.segmentId)
  else
    match w.locations.get? (c.hexdigest data) with
    | some existing => .ok (existing, w, disk)
    | none =>
        let (w, disk) := if w.overflows data then w.flushBlock c disk else (w, disk)
        let (location, w) := w.appendRecord c data
        .ok (location, w, disk)

/-- `seal` up to the `fsync`: the open block, the footer and the trailer. -/
def writeFooter (c : Codec) (w : SegmentWriter) (disk : Disk) :
    Except ArchiveError (SegmentStats × SegmentWriter × Disk) := do
  let (w, disk) := if w.pendingRecords ≠ 0 then w.flushBlock c disk else (w, disk)
  let footer ← encodeFooter c w.blocks w.records w.level
  let trailer ← encodeTrailer w.position footer.length (footerCrc32 c footer)
  let stats : SegmentStats :=
    { segmentId := w.segmentId
      bytes := w.position + footer.length + trailer.length
      records := w.records.length
      footerSha256 := c.hexdigest footer }
  return (stats, w, (disk.append w.segmentId footer).append w.segmentId trailer)

/-- `seal`. -/
def sealSegment (c : Codec) (w : SegmentWriter) (disk : Disk) :
    Except ArchiveError (SegmentStats × SegmentWriter × Disk) :=
  if w.isSealed then .error (.alreadySealed w.segmentId)
  else do
    let (stats, w, disk) ← w.writeFooter c disk
    let disk ← disk.rename w.segmentId
    return (stats, { w with isSealed := true }, disk)

end SegmentWriter

/-! ## What a writer holds -/

/-- A block meets its target, or it is one record that alone exceeds it. -/
def Packed (target : ℤ) (block : List Bytes) : Prop :=
  (block.flatten.length : ℤ) ≤ target ∨ block.length = 1

/-- The writer has flushed the blocks `flushed` to the file `file` and holds the
records `current` in its open block. -/
structure Holds (c : Codec) (w : SegmentWriter) (file : Bytes) (flushed : List (List Bytes))
    (current : List Bytes) : Prop where
  written : file = frames c w.level flushed
  position : w.position = file.length
  blockNo : w.blockNo = flushed.length
  blockBuffer : w.blockBuffer = current.flatten
  blockRawSize : w.blockRawSize = current.flatten.length
  pendingRecords : w.pendingRecords = current.length
  blocks : w.blocks = blockEntries c w.level 0 flushed
  records : w.records = recordEntries c 0 (flushed ++ [current])
  located : ∀ sha256 location, w.locations.get? sha256 = some location →
    ∃ data, c.hexdigest data = sha256 ∧
      Located c w.segmentId (flushed ++ [current]) data location
  known : ∀ data ∈ (flushed ++ [current]).flatten,
    (w.locations.get? (c.hexdigest data)).isSome = true
  nodup : (flushed ++ [current]).flatten.Nodup
  packed : ∀ block ∈ flushed, block ≠ [] ∧ Packed w.blockTargetBytes block
  open_packed : current = [] ∨ Packed w.blockTargetBytes current

namespace Holds

variable {c : Codec} {w : SegmentWriter} {file : Bytes} {flushed : List (List Bytes)}
  {current : List Bytes}

/-- A new writer holds nothing. -/
theorem create (settings : Settings) (segmentId : ℕ) :
    Holds c { segmentId := segmentId, blockTargetBytes := settings.blockTargetBytes,
              level := settings.level } [] [] [] where
  written := rfl
  position := rfl
  blockNo := rfl
  blockBuffer := rfl
  blockRawSize := rfl
  pendingRecords := rfl
  blocks := rfl
  records := rfl
  located _ _ h := by simp at h
  known _ h := by simp at h
  nodup := by simp
  packed _ h := by simp at h
  open_packed := Or.inl rfl

/-- Flushing closes the open block. -/
theorem flushBlock (h : Holds c w file flushed current) (hcurrent : current ≠ []) (disk : Disk) :
    Holds c (w.flushBlock c disk).1 (file ++ frame c w.level current)
      (flushed ++ [current]) [] where
  written := by rw [h.written, frames_snoc]; rfl
  position := by
    simp [SegmentWriter.flushBlock, h.position, h.blockBuffer, frame]
  blockNo := by simp [SegmentWriter.flushBlock, h.blockNo]
  blockBuffer := rfl
  blockRawSize := rfl
  pendingRecords := rfl
  blocks := by
    simp [SegmentWriter.flushBlock, blockEntries_snoc, h.blocks, h.position, h.written,
      h.blockBuffer, h.blockRawSize, frame]
  records := by
    rw [recordEntries_snoc_nil]
    exact h.records
  located sha256 location hget := by
    obtain ⟨data, hsha, hlocated⟩ := h.located sha256 location hget
    exact ⟨data, hsha, hlocated.mono (extends_append _ _)⟩
  known data hdata := h.known data (by simpa using hdata)
  nodup := by simpa using h.nodup
  packed block hblock := by
    rcases List.mem_append.mp hblock with hold | hnew
    · exact h.packed block hold
    · obtain rfl : block = current := by simpa using hnew
      exact ⟨hcurrent, h.open_packed.resolve_left hcurrent⟩
  open_packed := Or.inl rfl

/-- A record that is new, and fits the open block, is appended to it. -/
theorem appendRecord (h : Holds c w file flushed current) {data : Bytes}
    (hnew : w.locations.get? (c.hexdigest data) = none) (hfits : w.overflows data = false) :
    Holds c (w.appendRecord c data).2 file flushed (current ++ [data]) ∧
      Located c w.segmentId (flushed ++ [current ++ [data]]) data (w.appendRecord c data).1 := by
  have hnotmem : data ∉ (flushed ++ [current]).flatten := fun hmem => by
    simpa [hnew] using h.known data hmem
  have hlocated : Located c w.segmentId (flushed ++ [current ++ [data]]) data
      (w.appendRecord c data).1 := by
    refine ⟨flushed.length, current ++ [data], current.length, by simp, by simp, ?_⟩
    simp [SegmentWriter.appendRecord, h.blockNo, h.blockRawSize]
  refine ⟨?_, hlocated⟩
  constructor
  · exact h.written
  · exact h.position
  · exact h.blockNo
  · simp [SegmentWriter.appendRecord, h.blockBuffer]
  · simp [SegmentWriter.appendRecord, h.blockRawSize]
  · simp [SegmentWriter.appendRecord, h.pendingRecords]
  · exact h.blocks
  · rw [recordEntries_snoc, blockRecords_snoc, ← List.append_assoc, ← recordEntries_snoc]
    simp [SegmentWriter.appendRecord, h.records, h.blockNo, h.blockRawSize, Codec.hexdigest,
      fromHex_hex]
  · intro sha256 location hget
    simp only [SegmentWriter.appendRecord, Table.get?_set] at hget
    by_cases hsha : sha256 = c.hexdigest data
    · rw [if_pos hsha] at hget
      obtain rfl := Option.some.inj hget
      exact ⟨data, hsha.symm, hlocated⟩
    · rw [if_neg hsha] at hget
      obtain ⟨data', hsha', hlocated'⟩ := h.located sha256 location hget
      exact ⟨data', hsha', hlocated'.mono (extends_snoc _ _ _)⟩
  · intro data' hdata'
    simp only [SegmentWriter.appendRecord, Table.get?_set]
    by_cases hsha : c.hexdigest data' = c.hexdigest data
    · rw [if_pos hsha]
      rfl
    · rw [if_neg hsha]
      have hne : data' ≠ data := fun heq => hsha (by rw [heq])
      refine h.known data' ?_
      simpa [hne] using hdata'
  · have hsnoc : (flushed ++ [current ++ [data]]).flatten =
        (flushed ++ [current]).flatten ++ [data] := by simp
    rw [hsnoc]
    exact List.nodup_append.mpr ⟨h.nodup, by simp, fun a ha b hb heq => by
      obtain rfl : b = data := by simpa using hb
      exact hnotmem (heq ▸ ha)⟩
  · exact h.packed
  · right
    simp only [SegmentWriter.overflows, decide_eq_false_iff_not, not_and_or, not_not,
      not_lt] at hfits
    rcases hfits with hempty | hfits
    · right
      rw [h.pendingRecords, List.length_eq_zero_iff] at hempty
      simp [hempty]
    · left
      rw [h.blockRawSize] at hfits
      simpa [SegmentWriter.appendRecord] using hfits

end Holds

/-! ## A writer and its file -/

/-- An open writer, whose file and open block hold `blocks`. -/
def OpenOn (c : Codec) (w : SegmentWriter) (disk : Disk) (blocks : List (List Bytes)) : Prop :=
  w.isSealed = false ∧ ∃ file flushed current, disk.get? (w.segmentId, .opened) = some file ∧
    Holds c w file flushed current ∧ blocks = flushed ++ [current]

/-- The file of a sealed segment: the frames of its blocks, the footer that indexes
them, and the trailer that locates the footer. -/
structure SealedFile (c : Codec) (settings : Settings) (blocks : List (List Bytes))
    (footer trailer file : Bytes) : Prop where
  footer_eq : encodeFooter c (blockEntries c settings.level 0 blocks) (recordEntries c 0 blocks)
    settings.level = .ok footer
  trailer_eq : encodeTrailer (frames c settings.level blocks).length footer.length
    (footerCrc32 c footer) = .ok trailer
  file_eq : file = frames c settings.level blocks ++ footer ++ trailer
  packed : ∀ block ∈ blocks, Packed settings.blockTargetBytes block
  nodup : blocks.flatten.Nodup

/-- The arguments a writer was created with. -/
def SegmentWriter.settings (w : SegmentWriter) : Settings := ⟨w.blockTargetBytes, w.level⟩

/-- A record is kept once, where it was added first. -/
def insertRecord (records : List Bytes) (data : Bytes) : List Bytes :=
  if data ∈ records then records else records ++ [data]

/-- Other files are as they were. -/
def SameExcept (id : ℕ) (disk disk' : Disk) : Prop :=
  ∀ key, key ≠ (id, Suffix.opened) → disk'.get? key = disk.get? key

theorem sameExcept_append (id : ℕ) (data : Bytes) (disk : Disk) :
    SameExcept id disk (disk.append id data) := fun _ hkey => Table.get?_set_of_ne _ _ hkey

theorem Disk.get?_append {id : ℕ} {disk : Disk} {file : Bytes}
    (h : disk.get? (id, .opened) = some file) (data : Bytes) :
    (disk.append id data).get? (id, .opened) = some (file ++ data) := by
  rw [Disk.append, h, Table.get?_set_self, Option.getD_some]

theorem SameExcept.trans {id : ℕ} {disk disk' disk'' : Disk} (h : SameExcept id disk disk')
    (h' : SameExcept id disk' disk'') : SameExcept id disk disk'' :=
  fun key hkey => (h' key hkey).trans (h key hkey)

/-- Flushing writes the frame of the open block. -/
theorem Holds.get?_flushBlock {c : Codec} {w : SegmentWriter} {disk : Disk} {file : Bytes}
    {flushed : List (List Bytes)} {current : List Bytes} (h : Holds c w file flushed current)
    (hfile : disk.get? (w.segmentId, .opened) = some file) :
    (w.flushBlock c disk).2.get? (w.segmentId, .opened) =
      some (file ++ frame c w.level current) := by
  rw [frame, ← h.blockBuffer]
  exact Disk.get?_append hfile _

/-- Adding a record locates it, and keeps what was located before. -/
theorem add_of_openOn {c : Codec} {w : SegmentWriter} {disk : Disk} {blocks : List (List Bytes)}
    (hc : c.Faithful) (h : OpenOn c w disk blocks) (data : Bytes) :
    ∃ location w' disk' blocks', w.add c data disk = .ok (location, w', disk') ∧
      OpenOn c w' disk' blocks' ∧ Located c w.segmentId blocks' data location ∧
      Extends blocks blocks' ∧ blocks'.flatten = insertRecord blocks.flatten data ∧
      w'.segmentId = w.segmentId ∧ w'.settings = w.settings ∧
      SameExcept w.segmentId disk disk' := by
  obtain ⟨hopen, file, flushed, current, hfile, hholds, rfl⟩ := h
  cases hget : w.locations.get? (c.hexdigest data) with
  | some existing =>
      obtain ⟨data', hsha, hlocated⟩ := hholds.located _ existing hget
      obtain rfl : data' = data := hc.hexdigest_injective hsha
      refine ⟨existing, w, disk, flushed ++ [current], ?_, ⟨hopen, file, flushed, current, hfile,
        hholds, rfl⟩, hlocated, Extends.refl _, ?_, rfl, rfl, fun _ _ => rfl⟩
      · simp [SegmentWriter.add, hopen, hget]
      · rw [insertRecord, if_pos hlocated.mem]
  | none =>
      have hnew : data ∉ (flushed ++ [current]).flatten := fun hmem => by
        simpa [hget] using hholds.known data hmem
      by_cases hover : w.overflows data = true
      · -- The open block is closed first, and the record starts the next one.
        have hpending : w.pendingRecords ≠ 0 := by
          simp only [SegmentWriter.overflows, decide_eq_true_eq] at hover
          exact hover.1
        have hcurrent : current ≠ [] := fun hnil =>
          hpending (by rw [hholds.pendingRecords, hnil]; rfl)
        have hflushed := hholds.flushBlock hcurrent disk
        have hempty : (w.flushBlock c disk).1.overflows data = false := by
          simp [SegmentWriter.overflows, SegmentWriter.flushBlock]
        obtain ⟨hadded, hlocated⟩ := hflushed.appendRecord hget hempty
        refine ⟨((w.flushBlock c disk).1.appendRecord c data).1,
          ((w.flushBlock c disk).1.appendRecord c data).2, (w.flushBlock c disk).2,
          (flushed ++ [current]) ++ [[data]], ?_, ⟨hopen, _, _, _, ?_, hadded, rfl⟩, hlocated,
          extends_append _ _, ?_, rfl, rfl, sameExcept_append _ _ _⟩
        · simp [SegmentWriter.add, hopen, hget, hover]
        · exact hholds.get?_flushBlock hfile
        · rw [insertRecord, if_neg hnew]
          simp
      · have hfits : w.overflows data = false := by simpa using hover
        obtain ⟨hadded, hlocated⟩ := hholds.appendRecord hget hfits
        refine ⟨(w.appendRecord c data).1, (w.appendRecord c data).2, disk,
          flushed ++ [current ++ [data]], ?_, ⟨hopen, file, _, _, hfile, hadded, rfl⟩, hlocated,
          extends_snoc _ _ _, ?_, rfl, rfl, fun _ _ => rfl⟩
        · simp [SegmentWriter.add, hopen, hget, hfits]
        · rw [insertRecord, if_neg hnew]
          simp

/-- A seal that succeeds leaves the segment's file under its final name. -/
theorem sealSegment_of_openOn {c : Codec} {w w' : SegmentWriter} {disk disk' : Disk}
    {blocks : List (List Bytes)} {stats : SegmentStats} (h : OpenOn c w disk blocks)
    (hseal : w.sealSegment c disk = .ok (stats, w', disk')) :
    ∃ blocks' footer trailer file, SealedFile c w.settings blocks' footer trailer file ∧
      disk'.get? (w.segmentId, .zst) = some file ∧ disk'.get? (w.segmentId, .opened) = none ∧
      Extends blocks blocks' ∧ blocks'.flatten = blocks.flatten ∧
      w'.isSealed = true ∧ w'.segmentId = w.segmentId ∧ w'.settings = w.settings ∧
      (∀ key, key.1 ≠ w.segmentId → disk'.get? key = disk.get? key) := by
  obtain ⟨hopen, file, flushed, current, hfile, hholds, rfl⟩ := h
  -- The open block is flushed unless it is empty.
  obtain ⟨w₁, disk₁, file₁, blocks', hflush, hfile₁, hholds₁, hext, hflatten, hid, hsettings,
      hsame⟩ : ∃ w₁ disk₁ file₁ blocks',
      (if w.pendingRecords ≠ 0 then w.flushBlock c disk else (w, disk)) = (w₁, disk₁) ∧
      disk₁.get? (w.segmentId, .opened) = some file₁ ∧ Holds c w₁ file₁ blocks' [] ∧
      Extends (flushed ++ [current]) blocks' ∧ blocks'.flatten = (flushed ++ [current]).flatten ∧
      w₁.segmentId = w.segmentId ∧ w₁.settings = w.settings ∧
      SameExcept w.segmentId disk disk₁ := by
    by_cases hcurrent : current = []
    · subst hcurrent
      have hpending : w.pendingRecords = 0 := hholds.pendingRecords
      exact ⟨w, disk, file, flushed, by simp [hpending], hfile, hholds, extends_of_snoc_nil _,
        by simp, rfl, rfl, fun _ _ => rfl⟩
    · have hpending : w.pendingRecords ≠ 0 := by
        rw [hholds.pendingRecords]
        simpa using hcurrent
      exact ⟨_, _, file ++ frame c w.level current, flushed ++ [current], if_pos hpending,
        hholds.get?_flushBlock hfile, hholds.flushBlock hcurrent disk, Extends.refl _, rfl, rfl,
        rfl, sameExcept_append _ _ _⟩
  have hlevel : w₁.level = w.settings.level := congrArg Settings.level hsettings
  have htarget : w₁.blockTargetBytes = w.settings.blockTargetBytes :=
    congrArg Settings.blockTargetBytes hsettings
  have hrecords : w₁.records = recordEntries c 0 blocks' := by
    rw [hholds₁.records, recordEntries_snoc_nil]
  have hnodup : blocks'.flatten.Nodup := by simpa using hholds₁.nodup
  rw [SegmentWriter.sealSegment, if_neg (by simp [hopen]), SegmentWriter.writeFooter,
    hflush] at hseal
  obtain ⟨⟨stats', w₂, disk₂⟩, hwrite, hrest⟩ := bind_eq_ok_iff.mp hseal
  obtain ⟨footer, hfooter, hwrite⟩ := bind_eq_ok_iff.mp hwrite
  obtain ⟨trailer, htrailer, hwrite⟩ := bind_eq_ok_iff.mp hwrite
  obtain ⟨-, rfl, rfl⟩ : _ ∧ w₁ = w₂ ∧
      (disk₁.append w₁.segmentId footer).append w₁.segmentId trailer = disk₂ := by
    simpa using Except.ok.inj hwrite
  obtain ⟨disk₃, hrename, hrest⟩ := bind_eq_ok_iff.mp hrest
  obtain ⟨-, rfl, rfl⟩ : _ ∧ { w₁ with isSealed := true } = w' ∧ disk₃ = disk' := by
    simpa using Except.ok.inj hrest
  rw [hid] at hrename
  have hfinal : ((disk₁.append w.segmentId footer).append w.segmentId trailer).get?
      (w.segmentId, .opened) = some (file₁ ++ footer ++ trailer) :=
    Disk.get?_append (Disk.get?_append hfile₁ footer) trailer
  rw [Disk.rename, hfinal] at hrename
  obtain rfl := Except.ok.inj hrename
  have hframes : file₁ = frames c w.settings.level blocks' := by rw [hholds₁.written, hlevel]
  refine ⟨blocks', footer, trailer, file₁ ++ footer ++ trailer, ?_, Table.get?_set_self _ _ _, ?_,
    hext, hflatten, rfl, hid, hsettings, fun key hkey => ?_⟩
  · constructor
    · rw [← hfooter, hholds₁.blocks, hrecords, hlevel]
    · rw [← htrailer, hholds₁.position, hframes]
    · rw [hframes]
    · exact fun block hblock => htarget ▸ (hholds₁.packed block hblock).2
    · exact hnodup
  · rw [Table.get?_set_of_ne _ _ (by simp), Table.get?_filter]
    cases Table.get? _ (w.segmentId, Suffix.opened) <;> simp
  · have hne : ∀ suffix, key ≠ (w.segmentId, suffix) := fun suffix heq => hkey (by rw [heq])
    rw [Table.get?_set_of_ne _ _ (hne .zst), Table.get?_filter,
      sameExcept_append _ _ _ _ (hne .opened), sameExcept_append _ _ _ _ (hne .opened),
      hsame key (hne .opened)]
    cases disk.get? key <;> simp [hne .opened]

/-- Writing the footer keeps the writer's segment, and touches its file only. -/
theorem writeFooter_spec {c : Codec} {w w' : SegmentWriter} {disk disk' : Disk}
    {stats : SegmentStats} (h : w.writeFooter c disk = .ok (stats, w', disk')) :
    stats.segmentId = w.segmentId ∧ w'.segmentId = w.segmentId ∧
      SameExcept w.segmentId disk disk' ∧
      ∃ file, disk'.get? (w.segmentId, .opened) = some file := by
  obtain ⟨w₁, disk₁, hflush, hid, hsame⟩ : ∃ w₁ disk₁,
      (if w.pendingRecords ≠ 0 then w.flushBlock c disk else (w, disk)) = (w₁, disk₁) ∧
      w₁.segmentId = w.segmentId ∧ SameExcept w.segmentId disk disk₁ := by
    by_cases hpending : w.pendingRecords ≠ 0
    · exact ⟨_, _, if_pos hpending, rfl, sameExcept_append _ _ _⟩
    · exact ⟨w, disk, if_neg hpending, rfl, fun _ _ => rfl⟩
  rw [SegmentWriter.writeFooter, hflush] at h
  obtain ⟨footer, -, h⟩ := bind_eq_ok_iff.mp h
  obtain ⟨trailer, -, h⟩ := bind_eq_ok_iff.mp h
  obtain ⟨rfl, rfl, rfl⟩ : _ ∧ w₁ = w' ∧
      (disk₁.append w₁.segmentId footer).append w₁.segmentId trailer = disk' := by
    simpa using Except.ok.inj h
  refine ⟨hid, hid, ?_, ?_⟩
  · rw [hid]
    exact hsame.trans ((sameExcept_append _ footer disk₁).trans (sameExcept_append _ trailer _))
  · rw [hid]
    exact ⟨_, Table.get?_set_self _ _ _⟩

/-- A seal is the footer and the rename. -/
theorem sealSegment_of_writeFooter {c : Codec} {w w' : SegmentWriter} {disk disk' disk'' : Disk}
    {stats : SegmentStats} (hopen : w.isSealed = false)
    (hwrite : w.writeFooter c disk = .ok (stats, w', disk'))
    (hrename : disk'.rename w'.segmentId = .ok disk'') :
    w.sealSegment c disk = .ok (stats, { w' with isSealed := true }, disk'') := by
  rw [SegmentWriter.sealSegment, if_neg (by simp [hopen])]
  refine bind_eq_ok_iff.mpr ⟨(stats, w', disk'), hwrite, ?_⟩
  exact bind_eq_ok_iff.mpr ⟨disk'', hrename, rfl⟩

end RerollSync.Archive
