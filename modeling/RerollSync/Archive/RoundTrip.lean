import RerollSync.Archive.Session

/-!
# Archive round trips

After every segment of a session has been sealed, what was added is read back:
record by record, by iterating a segment, and by hash.  The footer of every file
describes the file it ends.
-/

namespace RerollSync.Archive

open RerollSync.Support
open RerollSync.Store (Bytes Db)

/-! ## Well-formed files -/

/-- The entries tile the bytes from `start` to `stop`. -/
def Tiles : ℕ → ℕ → List BlockEntry → Prop
  | start, stop, [] => start = stop
  | start, stop, entry :: entries =>
      entry.offset = start ∧ Tiles (start + entry.length) stop entries

/-- The records that a footer puts in a block. -/
def Footer.recordsIn (footer : Footer) (blockNo : ℕ) : List RecordEntry :=
  footer.records.filter fun r => r.blockNo = blockNo

/-- The entry describes the block with its number. -/
structure BlockFits (c : Codec) (settings : Settings) (file : Bytes) (footer : Footer) (blockNo : ℕ)
    (entry : BlockEntry) : Prop where
  payload : ∃ payload, decompressBlock c (slice file entry.offset entry.length) = .ok payload ∧
    payload.length = entry.rawLength
  rawLength : entry.rawLength = ((footer.recordsIn blockNo).map RecordEntry.length).sum
  target : (entry.rawLength : ℤ) ≤ settings.blockTargetBytes ∨
    (footer.recordsIn blockNo).length = 1

/-- The trailer of a file locates its footer, and the footer its blocks. -/
structure WellFormed (c : Codec) (settings : Settings) (segmentId : ℕ) (file : Bytes)
    (footerOffset footerLength : ℕ) (footer : Footer) : Prop where
  trailer : decodeTrailer c segmentId (file.drop (file.length - trailerSize)) =
    .ok (footerOffset, footerLength, footerCrc32 c (slice file footerOffset footerLength))
  length : footerOffset + footerLength + trailerSize = file.length
  decoded : decodeFooter c segmentId (slice file footerOffset footerLength) = .ok footer
  version : footer.version = footerVersion
  tiles : Tiles 0 footerOffset footer.blocks
  records : ∀ r ∈ footer.records, r.blockNo < footer.blocks.length
  blocks : ∀ (blockNo : ℕ) entry, footer.blocks[blockNo]? = some entry →
    BlockFits c settings file footer blockNo entry

theorem tiles_blockEntries (c : Codec) (level : ℤ) (start : ℕ) (blocks : List (List Bytes)) :
    Tiles start (start + (frames c level blocks).length) (blockEntries c level start blocks) := by
  induction blocks generalizing start with
  | nil => rfl
  | cons block blocks ih =>
      refine ⟨rfl, ?_⟩
      have hrest := ih (start + (frame c level block).length)
      simpa [frames, Nat.add_assoc] using hrest

theorem blockNo_lt_of_mem_recordEntries {c : Codec} {n : ℕ} {blocks : List (List Bytes)}
    {r : RecordEntry} (h : r ∈ recordEntries c n blocks) : r.blockNo < n + blocks.length := by
  induction blocks generalizing n with
  | nil => cases h
  | cons block blocks ih =>
      rw [List.length_cons]
      rcases List.mem_append.mp h with h | h
      · rw [blockNo_of_mem_blockRecords c h]
        omega
      · have := ih h
        omega

/-- A sealed file is well formed. -/
theorem wellFormed_of_sealedFile {c : Codec} {settings : Settings} {blocks : List (List Bytes)}
    {footer trailer file : Bytes} (hc : c.Faithful) (segmentId : ℕ)
    (h : SealedFile c settings blocks footer trailer file) :
    WellFormed c settings segmentId file (frames c settings.level blocks).length footer.length
      (footerOf c settings blocks) := by
  have hlength := length_of_encodeTrailer h.trailer_eq
  have htrailer : file.drop (file.length - trailerSize) = trailer := by
    rw [h.file_eq]
    refine List.drop_left' ?_
    simp only [List.length_append, hlength]
    omega
  have hfooter : slice file (frames c settings.level blocks).length footer.length = footer := by
    rw [h.file_eq, slice, List.append_assoc, List.drop_left, List.take_left]
  have hrecords : ∀ {k block}, blocks[k]? = some block →
      (footerOf c settings blocks).recordsIn k = blockRecords c k 0 block := by
    intro k block hblock
    have hfilter := filter_recordEntries c 0 k blocks
    simpa [Footer.recordsIn, footerOf, hblock] using hfilter
  constructor
  · rw [htrailer, hfooter]
    exact decodeTrailer_of_encodeTrailer c segmentId h.trailer_eq
  · rw [h.file_eq, List.length_append, List.length_append, hlength]
  · rw [hfooter]
    exact decodeFooter_of_encodeFooter hc segmentId h.footer_eq
  · rfl
  · simpa [footerOf] using tiles_blockEntries c settings.level 0 blocks
  · intro r hr
    rw [footerOf, length_blockEntries]
    simpa using blockNo_lt_of_mem_recordEntries hr
  · intro k entry hentry
    rw [footerOf, getElem?_blockEntries] at hentry
    obtain ⟨block, hblock, rfl⟩ := Option.map_eq_some_iff.mp hentry
    constructor
    · exact ⟨block.flatten, by simpa using decompress_frame hc h hblock, rfl⟩
    · rw [hrecords hblock, sum_blockRecords]
    · rw [hrecords hblock, length_blockRecords]
      exact h.packed block (List.mem_of_getElem? hblock)

/-! ## Sealed sessions -/

/-- Every segment has been sealed. -/
def Session.AllSealed (s : Session) : Prop :=
  ∀ id w, s.store.writers.get? id = some w → w.isSealed = true

namespace Session.Sound

variable {c : Codec} {settings : Settings} {s : Session}

theorem sealedOn (h : s.Sound c settings) (hsealed : s.AllSealed) {id : ℕ} {w : SegmentWriter}
    (hw : s.store.writers.get? id = some w) : SealedOn c settings s.store.disk id s.added := by
  have hholds := (h.writers id w hw).holds
  rwa [if_pos (hsealed id w hw)] at hholds

/-- A location that was returned is read back. -/
theorem reads_added (hc : c.Faithful) (h : s.Sound c settings) (hsealed : s.AllSealed)
    {x : Bytes × BlobLocation} (hx : x ∈ s.added) :
    Reads c s.store.disk (Reader.read c s.store.disk x.2) (.ok x.1) := by
  obtain ⟨w, hw⟩ := h.added x hx
  obtain ⟨blocks, footer, trailer, file, hfile, hget, hseg⟩ := h.sealedOn hsealed hw
  exact reads_of_located hc hget hfile (hseg.located x (List.mem_filter.mpr ⟨hx, by simp⟩))

/-- A segment yields the records added to it. -/
theorem reads_segment (hc : c.Faithful) (h : s.Sound c settings) (hsealed : s.AllSealed) {id : ℕ}
    {w : SegmentWriter} (hw : s.store.writers.get? id = some w) :
    Reads c s.store.disk (Reader.iterRecords c s.store.disk id)
      (.ok ((recordsOf id s.added).map fun data => (c.hexdigest data, data))) := by
  obtain ⟨blocks, footer, trailer, file, hfile, hget, hseg⟩ := h.sealedOn hsealed hw
  rw [← hseg.records]
  exact reads_iterRecords_of_sealedFile hc hget hfile

/-- What was stored is found by its hash. -/
theorem reads_stored (hc : c.Faithful) (h : s.Sound c settings) (hsealed : s.AllSealed)
    {data : Bytes} (hdata : data ∈ s.stored) :
    Reads c s.store.disk (ArchiveStore.get c s.store.disk s.store.db (c.hexdigest data))
      (.ok data) := by
  obtain ⟨location, hlocation⟩ := h.known data hdata
  obtain ⟨data', hmem, hsha⟩ := h.blobs _ location hlocation
  obtain rfl : data' = data := hc.hexdigest_injective hsha
  rw [ArchiveStore.get, hlocation]
  exact h.reads_added hc hsealed hmem

end Session.Sound

/-- **Round trip.**  Take any session whose segments have all been sealed, and any
reader whose caches agree with the files: a new one, or the store's own.  It reads
every location that was returned, it iterates the distinct records of every segment
in the order they were added first, the file of every segment is well formed, and
everything that was stored is found by its hash. -/
theorem archive_round_trip {c : Codec} {settings : Settings} {l : List Use} {t : Session}
    (hc : c.Faithful) (hrun : (sessions c settings).run Session.initial l = some t)
    (hsealed : t.AllSealed) :
    (∀ n, Reader.Valid c t.store.disk { blockCacheSize := n }) ∧
    t.store.reader.Valid c t.store.disk ∧
    ∀ r : Reader, r.Valid c t.store.disk →
      (∀ x ∈ t.added, (Reader.read c t.store.disk x.2).value r = .ok x.1 ∧
        ((Reader.read c t.store.disk x.2).after r).Valid c t.store.disk) ∧
      (∀ id w, t.store.writers.get? id = some w →
        (Reader.iterRecords c t.store.disk id).value r =
          .ok ((recordsOf id t.added).map fun data => (c.hexdigest data, data)) ∧
        ((Reader.iterRecords c t.store.disk id).after r).Valid c t.store.disk ∧
        ∃ file footerOffset footerLength footer, t.store.disk.get? (id, .zst) = some file ∧
          WellFormed c settings id file footerOffset footerLength footer) ∧
      ∀ data ∈ t.stored,
        (ArchiveStore.get c t.store.disk t.store.db (c.hexdigest data)).value r = .ok data ∧
        ((ArchiveStore.get c t.store.disk t.store.db (c.hexdigest data)).after r).Valid c
          t.store.disk := by
  have hsound : t.Sound c settings := Session.Sound.run hc hrun
  refine ⟨Reader.valid_empty c _, hsound.reader, fun r hr => ⟨fun x hx => ?_, fun id w hw => ?_,
    fun data hdata => ?_⟩⟩
  · have hreads := hsound.reads_added hc hsealed hx
    exact ⟨hreads.value_eq hr, hreads.valid_after hr⟩
  · have hreads := hsound.reads_segment hc hsealed hw
    obtain ⟨blocks, footer, trailer, file, hfile, hget, -⟩ := hsound.sealedOn hsealed hw
    exact ⟨hreads.value_eq hr, hreads.valid_after hr, file, _, _, _, hget,
      wellFormed_of_sealedFile hc id hfile⟩
  · have hreads := hsound.reads_stored hc hsealed hdata
    exact ⟨hreads.value_eq hr, hreads.valid_after hr⟩

/-! ### A session -/

/-- `b"abc"`. -/
def abc : Bytes := [97, 98, 99]

/-- The frame of `b"abc"`. -/
def abcFrame : Bytes := [40, 181, 47, 253, 32, 3, 25, 0, 0] ++ abc

/-- The hash of `b"abc"`. -/
def abcSha256 : Bytes :=
  (fromHex "ba7816bf8f01cfea414140de5dae2223b00361a396177a9cb410ff61f20015ad").getD []

def abcBlocks : List BlockEntry := [⟨0, 12, 3⟩]

def abcRecords : List RecordEntry := [⟨abcSha256, 0, 0, 3⟩]

/-- The footer of a segment with that block, packed. -/
def abcPacked : Bytes :=
  (fromHex ("83a776657273696f6e01a6626c6f636b739183a66f666673657400a66c656e6774680caa7261775f" ++
    "6c656e67746803a77265636f7264739184a6736861323536c420ba7816bf8f01cfea414140de5dae2223b003" ++
    "61a396177a9cb410ff61f20015ada8626c6f636b5f6e6f00a66f666673657400a66c656e67746803")).getD []

/-- The frame of the packed footer. -/
def abcFooter : Bytes :=
  (fromHex ("28b52ffd207c7d0300240683a776657273696f6e01a6626c6f636b739183a66f666673657400a66c" ++
    "656e6774680caa7261775f03a77265636f7264739184a6736861323536c420ba7816bf8f01cfea414140de5d" ++
    "ae2223b00361a396177a9cb410ff61f20015ada85f6e6f000303005c34a92d348863a50c")).getD []

/-- The hash of that frame. -/
def abcFooterSha256 : Bytes :=
  (fromHex "ba95f5c4ec7e29f4886c04bed2e62c924210adde3bcdf42562682c2faa835b3b").getD []

/-! The constants byte by byte, which are quicker to evaluate. -/

theorem abcSha256_eq : abcSha256 =
    [186, 120, 22, 191, 143, 1, 207, 234, 65, 65, 64, 222, 93, 174, 34, 35, 176, 3, 97, 163, 150,
     23, 122, 156, 180, 16, 255, 97, 242, 0, 21, 173] := by
  delta abcSha256 fromHex
  rw [toList_of_eq_ofList rfl]
  rfl

theorem abcPacked_eq : abcPacked =
    [131, 167, 118, 101, 114, 115, 105, 111, 110, 1, 166, 98, 108, 111, 99, 107, 115, 145, 131,
     166, 111, 102, 102, 115, 101, 116, 0, 166, 108, 101, 110, 103, 116, 104, 12, 170, 114, 97,
     119, 95, 108, 101, 110, 103, 116, 104, 3, 167, 114, 101, 99, 111, 114, 100, 115, 145, 132,
     166, 115, 104, 97, 50, 53, 54, 196, 32, 186, 120, 22, 191, 143, 1, 207, 234, 65, 65, 64, 222,
     93, 174, 34, 35, 176, 3, 97, 163, 150, 23, 122, 156, 180, 16, 255, 97, 242, 0, 21, 173, 168,
     98, 108, 111, 99, 107, 95, 110, 111, 0, 166, 111, 102, 102, 115, 101, 116, 0, 166, 108, 101,
     110, 103, 116, 104, 3] := by
  delta abcPacked fromHex
  rw [String.toList_append, String.toList_append, toList_of_eq_ofList rfl, toList_of_eq_ofList rfl,
    toList_of_eq_ofList rfl]
  decide +kernel

theorem abcFooter_eq : abcFooter =
    [40, 181, 47, 253, 32, 124, 125, 3, 0, 36, 6, 131, 167, 118, 101, 114, 115, 105, 111, 110, 1,
     166, 98, 108, 111, 99, 107, 115, 145, 131, 166, 111, 102, 102, 115, 101, 116, 0, 166, 108,
     101, 110, 103, 116, 104, 12, 170, 114, 97, 119, 95, 3, 167, 114, 101, 99, 111, 114, 100, 115,
     145, 132, 166, 115, 104, 97, 50, 53, 54, 196, 32, 186, 120, 22, 191, 143, 1, 207, 234, 65,
     65, 64, 222, 93, 174, 34, 35, 176, 3, 97, 163, 150, 23, 122, 156, 180, 16, 255, 97, 242, 0,
     21, 173, 168, 95, 110, 111, 0, 3, 3, 0, 92, 52, 169, 45, 52, 136, 99, 165, 12] := by
  delta abcFooter fromHex
  rw [String.toList_append, String.toList_append, toList_of_eq_ofList rfl, toList_of_eq_ofList rfl,
    toList_of_eq_ofList rfl]
  decide +kernel

theorem abcFooterSha256_eq : abcFooterSha256 =
    [186, 149, 245, 196, 236, 126, 41, 244, 136, 108, 4, 190, 210, 230, 44, 146, 66, 16, 173, 222,
     59, 205, 244, 37, 98, 104, 44, 47, 170, 131, 91, 59] := by
  delta abcFooterSha256 fromHex
  rw [toList_of_eq_ofList rfl]
  rfl

/-- A codec that does to one segment what the real one does, and marks what it is
given with a zero byte otherwise. -/
def exampleCodec : Codec where
  compress _ data :=
    if data = abc then abcFrame else if data = abcPacked then abcFooter else 0 :: data
  decompress data :=
    if data = abcFrame then .ok abc
    else if data = abcFooter then .ok abcPacked
    else match data with
      | 0 :: data => .ok data
      | _ => .error "Unknown frame descriptor"
  packb document :=
    match (do
      let blocks ← (← (← document.get "blocks").asList).mapM decodeBlock
      let records ← (← (← document.get "records").asList).mapM decodeRecord
      return (blocks, records)) with
    | .ok entries => if entries = (abcBlocks, abcRecords) then .ok abcPacked else .error "too large"
    | .error _ => .error "cannot serialize"
  unpackb data :=
    if data = abcPacked then .ok (footerDocument abcBlocks abcRecords) else .error "not valid"
  crc32 data := if data = abcFooter then 0x725f96bd else 0
  sha256 data :=
    if data = abc then abcSha256 else if data = abcFooter then abcFooterSha256 else 0 :: data
  reprBytes _ := "b'RSSEG1\\x00\\x00'"

/-- `exampleCodec`, given its constants. -/
def codecOf (packed footer hash footerHash : Bytes) : Codec where
  compress _ data :=
    if data = abc then abcFrame else if data = packed then footer else 0 :: data
  decompress data :=
    if data = abcFrame then .ok abc
    else if data = footer then .ok packed
    else match data with
      | 0 :: data => .ok data
      | _ => .error "Unknown frame descriptor"
  packb document :=
    match (do
      let blocks ← (← (← document.get "blocks").asList).mapM decodeBlock
      let records ← (← (← document.get "records").asList).mapM decodeRecord
      return (blocks, records)) with
    | .ok entries =>
        if entries = (abcBlocks, [⟨hash, 0, 0, 3⟩]) then .ok packed else .error "too large"
    | .error _ => .error "cannot serialize"
  unpackb data :=
    if data = packed then .ok (footerDocument abcBlocks [⟨hash, 0, 0, 3⟩]) else .error "not valid"
  crc32 data := if data = footer then 0x725f96bd else 0
  sha256 data :=
    if data = abc then hash else if data = footer then footerHash else 0 :: data
  reprBytes _ := "b'RSSEG1\\x00\\x00'"

theorem exampleCodec_eq :
    exampleCodec = codecOf abcPacked abcFooter abcSha256 abcFooterSha256 := rfl

theorem head?_abcFooter : abcFooter.head? = some 40 := by rw [abcFooter_eq, List.head?_cons]

theorem head?_abcSha256 : abcSha256.head? = some 0xba := by rw [abcSha256_eq]; rfl

theorem head?_abcFooterSha256 : abcFooterSha256.head? = some 0xba := by
  rw [abcFooterSha256_eq]
  rfl

theorem abcSha256_ne_abcFooterSha256 : abcSha256 ≠ abcFooterSha256 := by
  simp [abcSha256_eq, abcFooterSha256_eq]

/-- The hashes that `exampleCodec` knows are not marked. -/
theorem exampleSha256_ne_marked (data : Bytes) :
    abcSha256 ≠ 0 :: data ∧ abcFooterSha256 ≠ 0 :: data := by
  constructor
  · exact fun h => by simpa [head?_abcSha256] using congrArg List.head? h
  · exact fun h => by simpa [head?_abcFooterSha256] using congrArg List.head? h

theorem abcPacked_ne_abc : abcPacked ≠ abc := by
  simp [abcPacked_eq, abc]

theorem abcFooter_ne_abcFrame : abcFooter ≠ abcFrame := by
  simp [abcFooter_eq, abcFrame]

theorem exampleCodec_faithful : exampleCodec.Faithful where
  decompress_compress level data := by
    simp only [exampleCodec]
    by_cases habc : data = abc
    · simp only [habc, if_true]
    · by_cases hpacked : data = abcPacked
      · simp only [hpacked, abcPacked_ne_abc, abcFooter_ne_abcFrame, if_false, if_true]
      · have hframe : (0 :: data : Bytes) ≠ abcFrame := by simp [abcFrame]
        have hfooter : (0 :: data : Bytes) ≠ abcFooter := fun h => by
          simpa [head?_abcFooter] using congrArg List.head? h
        simp only [habc, hpacked, hframe, hfooter, if_false]
  unpackb_packb blocks records packed h := by
    have hdecoded : exampleCodec.packb (footerDocument blocks records) =
        if (blocks, records) = (abcBlocks, abcRecords) then .ok abcPacked
        else .error "too large" := by
      have hblocks := mapM_document decodeBlock_document blocks
      have hrecords := mapM_document decodeRecord_document records
      simp [exampleCodec, footerDocument, Msgpack.get, Msgpack.asList, hblocks, hrecords, bind,
        Except.bind, pure, Except.pure]
    rw [hdecoded] at h
    split at h
    · rename_i heq
      obtain ⟨rfl, rfl⟩ := Prod.mk.inj heq
      obtain rfl := Except.ok.inj h
      simp only [exampleCodec, if_true]
    · cases h
  sha256_injective data data' h := by
    have hmarked := exampleSha256_ne_marked
    have hne := abcSha256_ne_abcFooterSha256
    simp only [exampleCodec] at h
    split_ifs at h with h₁ h₂ h₃ h₄ h₅ h₆ h₇ h₈
    · exact h₁.trans h₂.symm
    · exact (hne h).elim
    · exact ((hmarked data').1 h).elim
    · exact (hne h.symm).elim
    · exact h₄.trans h₆.symm
    · exact ((hmarked data').2 h).elim
    · exact ((hmarked data).1 h.symm).elim
    · exact ((hmarked data).2 h.symm).elim
    · exact (List.cons.inj h).2

/-- A segment with a record that was added twice. -/
theorem archive_round_trip_abc :
    ∃ t, (sessions exampleCodec {}).run Session.initial
        [.add abc, .add abc, .sealWriter 0 "2024-01-01T00:00:00+00:00"] = some t ∧
      t.AllSealed ∧ t.stored = [abc, abc] ∧
      (ArchiveStore.get exampleCodec t.store.disk t.store.db (exampleCodec.hexdigest abc)).value
        t.store.reader = .ok abc := by
  have hsome : (((sessions exampleCodec {}).run Session.initial
      [.add abc, .add abc, .sealWriter 0 "2024-01-01T00:00:00+00:00"]).map fun t =>
        (t.store.writers.rows.all (·.2.isSealed), t.stored)) = some (true, [abc, abc]) := by
    rw [exampleCodec_eq, abcPacked_eq, abcFooter_eq, abcSha256_eq, abcFooterSha256_eq]
    decide +kernel
  obtain ⟨t, hrun, ht⟩ := Option.map_eq_some_iff.mp hsome
  obtain ⟨hall, hstored⟩ := Prod.mk.inj ht
  have hsealed : t.AllSealed := fun id w hw =>
    List.all_eq_true.mp hall (id, w) (Table.get?_eq_some_iff.mp hw)
  obtain ⟨-, hreader, hround⟩ := archive_round_trip exampleCodec_faithful hrun hsealed
  exact ⟨t, hrun, hsealed, hstored,
    ((hround t.store.reader hreader).2.2 abc (by simp [hstored])).1⟩

end RerollSync.Archive
