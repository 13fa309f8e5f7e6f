import RerollSync.Archive.VerifySoundness
import RerollSync.Archive.Placement

/-!
# Verifying a healthy archive

A segment that was sealed and not touched since has a footer that lists what was added to
it, at the positions that `add` returned.  The `blobs` table lists every byte string once,
in the segment that it was added to first.  This module compares the two over the sessions
of a store.
-/

namespace RerollSync.Archive

open RerollSync.Support
open RerollSync.Store (Bytes Db)

namespace ArchiveStore

/-- `sealed_segment_ids`. -/
def sealedSegmentIds (db : Db) : List ℕ :=
  (db.segments.filter fun _ row => row.sealedAt.isSome).orderByKey.keys

/-- `blob_rows_for_segment`. -/
def blobRowsForSegment (db : Db) (segmentId : ℕ) : Table String BlobPosition :=
  (db.blobs.filter fun _ row => row.segmentId = segmentId).orderByKey.modify fun _ row =>
    ⟨row.blockNo, row.offset, row.length⟩

end ArchiveStore

/-- `verify_archive` over all sealed segments reports no problem, and the check of sealed
segments of `fsck` no violation. -/
structure VerifiesClean (c : Codec) (py : Python) (s : ArchiveStore) : Prop where
  verify : verifyArchive c py s.disk (ArchiveStore.sealedSegmentIds s.db)
    (ArchiveStore.blobRowsForSegment s.db) = .ok []
  fsck : ∀ exampleLimit, checkSealedSegments c py s.disk (ArchiveStore.sealedSegmentIds s.db)
    (ArchiveStore.blobRowsForSegment s.db) exampleLimit = .ok none

/-! ## A sealed file -/

/-- The positions that the footer of a segment gives. -/
def footerEntries (c : Codec) (blocks : List (List Bytes)) : List (String × FooterPosition) :=
  (recordEntries c 0 blocks).map fun r => (hex r.sha256, r.fields.position)

section SealedFile

variable {c : Codec} {py : Python} {settings : Settings} {disk : Disk}
  {blocks : List (List Bytes)} {footer trailer file : Bytes} {id : ℕ}

theorem footerRecords_fields (footer : Footer) : footerRecords py footer.fields =
    .ok (footer.records.map fun r => (hex r.sha256, r.fields.position)) :=
  mapM_map_eq_ok fun _ _ => rfl

theorem inBlock_fields (footer : Footer) (k : ℕ) :
    footer.fields.inBlock py k = (footer.recordsIn k).map RecordEntry.fields := by
  rw [FooterFields.inBlock, Footer.fields, List.filter_map, Footer.recordsIn]
  refine congrArg _ (List.filter_congr fun r _ => ?_)
  simp [RecordEntry.fields, Msgpack.number, Msgpack.index]

theorem recordPair_fields (payload : Bytes) (r : RecordEntry) :
    recordPair py payload r.fields =
      .ok (hex r.sha256, slice payload r.offset r.length) := by
  rw [← pySlice_natCast]
  rfl

/-- A frame is read at its entry. -/
theorem blockPayload_of_sealedFile (hc : c.Faithful)
    (h : SealedFile c settings blocks footer trailer file) {k : ℕ} {block : List Bytes}
    (hblock : blocks[k]? = some block) (rawLength : ℕ) :
    blockPayload c file (BlockEntry.fields
      ⟨(frames c settings.level (blocks.take k)).length, (frame c settings.level block).length,
        rawLength⟩) = .ok block.flatten := by
  have hmap : (blocks.map (frame c settings.level))[k]? = some (frame c settings.level block) := by
    simp [hblock]
  have hle := length_take_flatten_add hmap
  rw [← List.map_take] at hle
  change (frames c settings.level (blocks.take k)).length + _ ≤
    (frames c settings.level blocks).length at hle
  have hfile : (frames c settings.level blocks).length ≤ file.length := by
    rw [h.file_eq, List.length_append, List.length_append]
    omega
  have hoffset := (Nat.le_add_right _ _).trans (hle.trans hfile)
  have hlength := (Nat.le_add_left _ _).trans (hle.trans hfile)
  exact bind_eq_ok_iff.mpr ⟨_, seekRead_of_le hoffset hlength, decompress_frame hc h hblock⟩

theorem blockPairsFields_of_sealedFile (hc : c.Faithful)
    (h : SealedFile c settings blocks footer trailer file) {k : ℕ} {block : List Bytes}
    (hblock : blocks[k]? = some block) (rawLength : ℕ) :
    blockPairsFields c py file (footerOf c settings blocks).fields
      (BlockEntry.fields ⟨(frames c settings.level (blocks.take k)).length,
        (frame c settings.level block).length, rawLength⟩, k) =
      .ok (block.map fun data => (c.hexdigest data, data)) := by
  refine bind_eq_ok_iff.mpr ⟨_, blockPayload_of_sealedFile hc h hblock rawLength, ?_⟩
  have hrecords : (footerOf c settings blocks).recordsIn k = blockRecords c k 0 block := by
    have hfilter := filter_recordEntries c 0 k blocks
    simpa [Footer.recordsIn, footerOf, hblock] using hfilter
  have hpairs := map_blockRecords c k [] block
  simp only [List.flatten_nil, List.length_nil, List.nil_append] at hpairs
  rw [inBlock_fields, hrecords, ← hpairs]
  exact mapM_map_eq_ok fun r _ => recordPair_fields block.flatten r

/-- The records of a sealed file are those of its blocks. -/
theorem iterRecordsFields_of_sealedFile (hc : c.Faithful)
    (h : SealedFile c settings blocks footer trailer file) :
    iterRecordsFields c py file (footerOf c settings blocks).fields =
      .ok (blocks.flatten.map fun data => (c.hexdigest data, data)) := by
  have hhashable : ∀ r ∈ (footerOf c settings blocks).fields.records,
      r.blockNo.hashable = true := by
    intro r hr
    obtain ⟨entry, -, rfl⟩ := List.mem_map.mp hr
    rfl
  have hpairs : (footerOf c settings blocks).fields.blocks.zipIdx.mapM
      (blockPairsFields c py file (footerOf c settings blocks).fields) =
      .ok (blocks.map fun block => block.map fun data => (c.hexdigest data, data)) := by
    have hlength : (footerOf c settings blocks).fields.blocks.length = blocks.length :=
      (List.length_map _).trans (length_blockEntries c settings.level 0 blocks)
    refine mapM_zipIdx (by simp [hlength]) fun k entry pairs hentry hpairs => ?_
    rw [Footer.fields, footerOf, List.getElem?_map, getElem?_blockEntries] at hentry
    obtain ⟨_, hfound, rfl⟩ := Option.map_eq_some_iff.mp hentry
    obtain ⟨block, hblock, rfl⟩ := Option.map_eq_some_iff.mp hfound
    obtain rfl : (block.map fun data => (c.hexdigest data, data)) = pairs := by
      simpa [hblock] using hpairs
    simpa using blockPairsFields_of_sealedFile hc h hblock block.flatten.length
  rw [iterRecordsFields_of_hashable hhashable, hpairs, List.map_flatten]
  rfl

variable (hc : c.Faithful) (h : SealedFile c settings blocks footer trailer file)
  (hfile : disk.get? (id, .zst) = some file) (rows : Table String BlobPosition)

include hc h hfile

theorem loadFooterFields_of_sealedFile :
    loadFooterFields c disk id = .ok (footerOf c settings blocks).fields :=
  loadFooterFields_of_loadFooter (loadFooter_of_sealedFile hc hfile h)

/-- Nothing is wrong with a sealed file but its positions. -/
theorem verifySegment_of_sealedFile : verifySegment c py disk id rows =
    .ok (positionProblems py (segmentName id) (footerEntries c blocks) rows) := by
  have hread : readSegment c py disk id = .ok (footerEntries c blocks,
      blocks.flatten.map fun data => (c.hexdigest data, data)) := by
    refine bind_eq_ok_iff.mpr ⟨_, loadFooterFields_of_sealedFile hc h hfile, ?_⟩
    refine bind_eq_ok_iff.mpr ⟨_, footerRecords_fields _, ?_⟩
    refine bind_eq_ok_iff.mpr ⟨file, openSegment_of_get? hfile, ?_⟩
    exact bind_eq_ok_iff.mpr ⟨_, iterRecordsFields_of_sealedFile hc h, rfl⟩
  have hdigests : digestProblems c (segmentName id)
      (blocks.flatten.map fun data => (c.hexdigest data, data)) = [] := by
    refine List.filterMap_eq_nil_iff.mpr fun pair hpair => ?_
    obtain ⟨data, -, rfl⟩ := List.mem_map.mp hpair
    exact if_pos rfl
  simp only [verifySegment, hread, reportCaught, hdigests, List.nil_append]

theorem checkOneSealedSegment_of_sealedFile : checkOneSealedSegment c py disk id rows =
    .ok (positionProblems py (segmentName id) (footerEntries c blocks) rows) := by
  have hread : (do footerRecords py (← loadFooterFields c disk id)) =
      .ok (footerEntries c blocks) :=
    bind_eq_ok_iff.mpr ⟨_, loadFooterFields_of_sealedFile hc h hfile, footerRecords_fields _⟩
  simp only [checkOneSealedSegment, hread, reportCaught]

end SealedFile

/-! ## Positions -/

section Positions

variable {c : Codec} {py : Python} {blocks : List (List Bytes)} {id : ℕ}

/-- The columns of a location. -/
def BlobLocation.position (location : BlobLocation) : BlobPosition :=
  ⟨location.blockNo, location.offset, location.length⟩

theorem getElem?_blockRecords (blockNo offset j : ℕ) (block : List Bytes) :
    (blockRecords c blockNo offset block)[j]? = block[j]?.map fun data =>
      ⟨c.sha256 data, blockNo, offset + (block.take j).flatten.length, data.length⟩ := by
  induction block generalizing offset j with
  | nil => simp [blockRecords]
  | cons d block ih =>
      cases j with
      | zero => simp [blockRecords]
      | succ j => simp [blockRecords, ih, Nat.add_assoc]

theorem map_sha256_blockRecords (blockNo offset : ℕ) (block : List Bytes) :
    (blockRecords c blockNo offset block).map RecordEntry.sha256 = block.map c.sha256 := by
  induction block generalizing offset with
  | nil => rfl
  | cons d block ih => simp [blockRecords, ih]

theorem map_sha256_recordEntries (n : ℕ) : (recordEntries c n blocks).map RecordEntry.sha256 =
    blocks.flatten.map c.sha256 := by
  induction blocks generalizing n with
  | nil => rfl
  | cons block blocks ih =>
      rw [recordEntries, List.map_append, map_sha256_blockRecords, ih, List.flatten_cons,
        List.map_append]

theorem keys_footerEntries :
    (footerEntries c blocks).map Prod.fst = blocks.flatten.map c.hexdigest := by
  have hkeys := congrArg (List.map hex) (@map_sha256_recordEntries c blocks 0)
  rw [List.map_map, List.map_map] at hkeys
  rw [footerEntries, List.map_map]
  exact hkeys

theorem nodup_keys_footerEntries (hc : c.Faithful) (hnodup : blocks.flatten.Nodup) :
    ((footerEntries c blocks).map Prod.fst).Nodup := by
  rw [keys_footerEntries]
  exact hnodup.map hc.hexdigest_injective

/-- A located record has its entry. -/
theorem Located.mem_recordEntries {data : Bytes} {location : BlobLocation}
    (h : Located c id blocks data location) :
    ⟨c.sha256 data, location.blockNo, location.offset, location.length⟩ ∈
      recordEntries c 0 blocks := by
  obtain ⟨k, block, j, hblock, hdata, rfl⟩ := h
  have hfilter := filter_recordEntries c 0 k blocks
  simp only [Nat.zero_add, hblock, Option.getD_some] at hfilter
  refine List.mem_of_mem_filter (p := fun r => r.blockNo = k) ?_
  rw [hfilter]
  refine List.mem_of_getElem? (i := j) ?_
  rw [getElem?_blockRecords, hdata]
  simp

theorem lastOf_footerEntries (hc : c.Faithful) (hnodup : blocks.flatten.Nodup) {data : Bytes}
    {location : BlobLocation} (h : Located c id blocks data location) :
    lastOf (footerEntries c blocks) (c.hexdigest data) =
      some ⟨.int location.blockNo, .int location.offset, .int location.length⟩ :=
  lastOf_of_mem (nodup_keys_footerEntries hc hnodup)
    (List.mem_map.mpr ⟨_, h.mem_recordEntries, rfl⟩)

theorem agrees_iff {location : BlobLocation} {row : BlobPosition} :
    FooterPosition.agrees py
      ⟨.int location.blockNo, .int location.offset, .int location.length⟩ row = true ↔
      location.position = row := by
  cases row
  simp [FooterPosition.agrees, Msgpack.number, Msgpack.index, BlobLocation.position]

theorem ArchiveStore.get?_blobRowsForSegment (db : Db) (segmentId : ℕ) (sha256 : String) :
    (ArchiveStore.blobRowsForSegment db segmentId).get? sha256 =
      ((ArchiveStore.locationFor sha256 db).filter fun location =>
        location.segmentId = segmentId).map BlobLocation.position := by
  rw [ArchiveStore.blobRowsForSegment, Table.get?_modify, Table.get?_orderByKey,
    Table.get?_filter, ArchiveStore.locationFor]
  cases db.blobs.get? sha256 with
  | none => rfl
  | some row =>
      by_cases hid : row.segmentId = segmentId
      · simp [Option.filter_some, hid, BlobLocation.position]
      · simp [Option.filter_some, hid]

end Positions

/-! ## Sessions -/

namespace Session.Sound

variable {c : Codec} {py : Python} {settings : Settings} {s : Session}

/-- The footer of a segment and its rows match when the rows of its records are its own. -/
theorem positionsMatch_iff (hc : c.Faithful) (h : s.Sound c settings) {id : ℕ}
    {blocks : List (List Bytes)} (hnodup : blocks.flatten.Nodup)
    (hholds : SegmentHolds c id s.added blocks) :
    PositionsMatch py (footerEntries c blocks) (ArchiveStore.blobRowsForSegment s.store.db id) ↔
      ∀ x ∈ addedTo id s.added, ∃ location,
        ArchiveStore.locationFor (c.hexdigest x.1) s.store.db = some location ∧
          location.segmentId = id := by
  constructor
  · intro hmatch x hx
    have hrel := hmatch (c.hexdigest x.1)
    rw [lastOf_footerEntries hc hnodup (hholds.located x hx),
      ArchiveStore.get?_blobRowsForSegment] at hrel
    cases hlocation : ArchiveStore.locationFor (c.hexdigest x.1) s.store.db with
    | none =>
        rw [hlocation] at hrel
        cases hrel
    | some location =>
        refine ⟨location, rfl, ?_⟩
        by_contra hid
        simp only [hlocation, Option.filter_some, hid, decide_false] at hrel
        cases hrel
  · intro hown sha256
    rw [ArchiveStore.get?_blobRowsForSegment]
    by_cases hkey : sha256 ∈ (footerEntries c blocks).map Prod.fst
    · rw [keys_footerEntries, hholds.records, recordsOf] at hkey
      obtain ⟨data, hdata, rfl⟩ := List.mem_map.mp hkey
      obtain ⟨x, hx, rfl⟩ := List.mem_map.mp (List.mem_eraseDups.mp hdata)
      obtain ⟨location, hlocation, hid⟩ := hown x hx
      obtain ⟨data, hmem, hsha⟩ := h.blobs _ location hlocation
      obtain rfl : data = x.1 := hc.hexdigest_injective hsha
      have hlocated := hholds.located (x.1, location) (List.mem_filter.mpr ⟨hmem, by simp [hid]⟩)
      rw [lastOf_footerEntries hc hnodup hlocated, hlocation]
      simp only [Option.filter_some, hid, decide_true, if_true, Option.map_some]
      exact Option.Rel.some (agrees_iff.mpr rfl)
    · rw [lastOf_eq_none_iff.mpr hkey]
      cases hlocation : ArchiveStore.locationFor sha256 s.store.db with
      | none => exact Option.Rel.none
      | some location =>
          have hother : location.segmentId ≠ id := fun hid => by
            obtain ⟨data, hmem, rfl⟩ := h.blobs _ location hlocation
            have hlocated := hholds.located (data, location)
              (List.mem_filter.mpr ⟨hmem, by simp [hid]⟩)
            rw [keys_footerEntries] at hkey
            exact hkey (List.mem_map_of_mem hlocated.mem)
          simp only [Option.filter_some, hother, decide_false, Bool.false_eq_true, if_false,
            Option.map_none]
          exact Option.Rel.none

/-- A sealed segment has no problem when its records have their rows in it. -/
theorem verifySegment_eq_nil_iff (hc : c.Faithful) (h : s.Sound c settings) {id : ℕ}
    {w : SegmentWriter} (hw : s.store.writers.get? id = some w) (hsealed : w.isSealed = true) :
    ∃ problems, verifySegment c py s.store.disk id (ArchiveStore.blobRowsForSegment s.store.db id) =
        .ok problems ∧
      checkOneSealedSegment c py s.store.disk id
        (ArchiveStore.blobRowsForSegment s.store.db id) = .ok problems ∧
      (problems = [] ↔ ∀ x ∈ addedTo id s.added, ∃ location,
        ArchiveStore.locationFor (c.hexdigest x.1) s.store.db = some location ∧
          location.segmentId = id) := by
  have hholds := (h.writers id w hw).holds
  rw [if_pos hsealed] at hholds
  obtain ⟨blocks, footer, trailer, file, hfile, hget, hseg⟩ := hholds
  refine ⟨_, verifySegment_of_sealedFile hc hfile hget _,
    checkOneSealedSegment_of_sealedFile hc hfile hget _, ?_⟩
  exact positionProblems_eq_nil_iff.trans (h.positionsMatch_iff hc hfile.nodup hseg)

end Session.Sound

/-- The ids that are listed are those of sealed segments. -/
theorem ArchiveStore.mem_sealedSegmentIds_iff {db : Db} {id : ℕ} :
    id ∈ ArchiveStore.sealedSegmentIds db ↔
      ∃ row, db.segments.get? id = some row ∧ row.sealedAt.isSome = true := by
  rw [ArchiveStore.sealedSegmentIds, ← not_iff_not, ← Table.get?_eq_none_iff,
    Table.get?_orderByKey, Table.get?_filter, Option.filter_eq_none_iff]
  simp

/-- No problem is reported when no segment has one. -/
theorem verifiesClean_iff_forall {c : Codec} {py : Python} {s : ArchiveStore}
    (hverify : ∀ id ∈ ArchiveStore.sealedSegmentIds s.db, ∃ problems,
      verifySegment c py s.disk id (ArchiveStore.blobRowsForSegment s.db id) = .ok problems ∧
      checkOneSealedSegment c py s.disk id (ArchiveStore.blobRowsForSegment s.db id) =
        .ok problems) :
    VerifiesClean c py s ↔ ∀ id ∈ ArchiveStore.sealedSegmentIds s.db,
      verifySegment c py s.disk id (ArchiveStore.blobRowsForSegment s.db id) = .ok [] := by
  obtain ⟨problems, hproblems⟩ := exists_mapM_eq_ok_iff.mpr fun id hid =>
    (hverify id hid).imp fun _ h => h.1
  obtain ⟨violations, hviolations⟩ := exists_mapM_eq_ok_iff.mpr fun id hid =>
    (hverify id hid).imp fun _ h => h.2
  have hsame : ∀ id ∈ ArchiveStore.sealedSegmentIds s.db,
      checkOneSealedSegment c py s.disk id (ArchiveStore.blobRowsForSegment s.db id) =
        verifySegment c py s.disk id (ArchiveStore.blobRowsForSegment s.db id) := by
    intro id hid
    obtain ⟨one, hone, hother⟩ := hverify id hid
    rw [hone, hother]
  rw [← flatten_eq_nil_iff_of_mapM_eq_ok hproblems]
  constructor
  · intro hclean
    have hreport := hclean.verify
    rw [verifyArchive, hproblems] at hreport
    exact Except.ok.inj hreport
  · intro hnil
    have hnone : violations.flatten = [] := by
      refine (flatten_eq_nil_iff_of_mapM_eq_ok hviolations).mpr fun id hid => ?_
      rw [hsame id hid]
      exact (flatten_eq_nil_iff_of_mapM_eq_ok hproblems).mp hnil id hid
    constructor
    · rw [verifyArchive, hproblems]
      exact congrArg Except.ok hnil
    · intro exampleLimit
      rw [checkSealedSegments, hviolations]
      change Except.ok (if violations.flatten.length = 0 then none else _) = Except.ok none
      rw [hnone]
      rfl

/-- `verify_archive` and `fsck` find nothing wrong with an archive that was not touched
exactly when no byte string lies in a sealed segment after it was put into another. -/
theorem verifiesClean_iff {c : Codec} {py : Python} {settings : Settings} {l : List Use}
    {t : Session} (hc : c.Faithful) (hstore : ∀ use ∈ l, use.OfStore)
    (hrun : (sessions c settings).run Session.initial l = some t) :
    VerifiesClean c py t.store ↔ (Placement.of l).AtHome := by
  have hs : t.Sound c settings := Session.Sound.run hc hrun
  have hf : t.Follows c (Placement.of l) := Session.Follows.run hc hstore hrun
  have hids : ∀ {id}, id ∈ ArchiveStore.sealedSegmentIds t.store.db ↔
      id ∈ (Placement.of l).sealedIds := by
    intro id
    rw [ArchiveStore.mem_sealedSegmentIds_iff]
    constructor
    · rintro ⟨row, hrow, hsealed⟩
      exact (hf.sealedRows id row hrow).mp hsealed
    · intro hid
      obtain ⟨w, hw⟩ := hf.started id hid
      obtain ⟨row, hrow⟩ := hs.segments id w hw
      exact ⟨row, hrow, (hf.sealedRows id row hrow).mpr hid⟩
  have hsegment : ∀ id ∈ ArchiveStore.sealedSegmentIds t.store.db, ∃ problems,
      verifySegment c py t.store.disk id (ArchiveStore.blobRowsForSegment t.store.db id) =
        .ok problems ∧
      checkOneSealedSegment c py t.store.disk id
        (ArchiveStore.blobRowsForSegment t.store.db id) = .ok problems ∧
      (problems = [] ↔ ∀ x ∈ addedTo id t.added, ∃ location,
        ArchiveStore.locationFor (c.hexdigest x.1) t.store.db = some location ∧
          location.segmentId = id) := by
    intro id hid
    obtain ⟨w, hw⟩ := hf.started id (hids.mp hid)
    exact hs.verifySegment_eq_nil_iff hc hw ((hf.sealedWriters id w hw).mpr (hids.mp hid))
  have hhome : ∀ data, (Placement.of l).home data =
      (ArchiveStore.locationFor (c.hexdigest data) t.store.db).map BlobLocation.segmentId := by
    intro data
    rw [hf.indexed, Placement.home, ← hf.placed, List.find?_map, Option.map_map, Option.map_map]
    rfl
  rw [verifiesClean_iff_forall fun id hid => (hsegment id hid).imp fun _ h => ⟨h.1, h.2.1⟩,
    Placement.AtHome, ← hf.placed]
  constructor
  · intro hclean y hy hid
    obtain ⟨x, hx, rfl⟩ := List.mem_map.mp hy
    obtain ⟨problems, hproblems, -, hnil⟩ := hsegment _ (hids.mpr hid)
    rw [hclean _ (hids.mpr hid)] at hproblems
    obtain ⟨location, hlocation, hsame⟩ := hnil.mp (Except.ok.inj hproblems).symm x
      (List.mem_filter.mpr ⟨hx, by simp⟩)
    rw [hhome, hlocation, Option.map_some, hsame]
  · intro hall id hid
    obtain ⟨problems, hproblems, -, hnil⟩ := hsegment id hid
    rw [hproblems, hnil.mpr fun x hx => ?_]
    obtain ⟨hmem, hsame⟩ := List.mem_filter.mp hx
    obtain rfl : x.2.segmentId = id := by simpa using hsame
    have hplaced := hall _ (List.mem_map_of_mem hmem) (hids.mp hid)
    rw [hhome] at hplaced
    exact Option.map_eq_some_iff.mp hplaced

/-- The same bytes twice in one segment. -/
theorem verifiesClean_abc :
    ∃ t, (sessions exampleCodec {}).run Session.initial
        [.add abc, .add abc, .sealWriter 0 "2024-01-01T00:00:00+00:00"] = some t ∧
      VerifiesClean exampleCodec examplePython t.store := by
  have hsome : ((sessions exampleCodec {}).run Session.initial
      [.add abc, .add abc, .sealWriter 0 "2024-01-01T00:00:00+00:00"]).isSome = true := by
    rw [exampleCodec_eq, abcPacked_eq, abcFooter_eq, abcSha256_eq, abcFooterSha256_eq]
    decide +kernel
  obtain ⟨t, hrun⟩ := Option.isSome_iff_exists.mp hsome
  exact ⟨t, hrun, (verifiesClean_iff exampleCodec_faithful (by decide) hrun).mpr (by decide)⟩

/-- The same bytes again, after the segment they are in was sealed. -/
def addedAgain : List Use :=
  [.add abc, .sealWriter 0 "2024-01-01T00:00:00+00:00",
    .add abc, .sealWriter 1 "2024-01-02T00:00:00+00:00"]

/-- The `blobs` table has no row for the second copy, and both checks report it. -/
theorem second_copy_reported :
    ∃ t, (sessions exampleCodec {}).run Session.initial addedAgain = some t ∧
      (verifyArchive exampleCodec examplePython t.store.disk
        (ArchiveStore.sealedSegmentIds t.store.db)
        (ArchiveStore.blobRowsForSegment t.store.db) = .ok
          ["segment 000001: footer record " ++ exampleCodec.hexdigest abc ++
            " has no blobs row"]) ∧
      ¬VerifiesClean exampleCodec examplePython t.store := by
  have hreport : (((sessions exampleCodec {}).run Session.initial addedAgain).map fun t =>
      verifyArchive exampleCodec examplePython t.store.disk
        (ArchiveStore.sealedSegmentIds t.store.db)
        (ArchiveStore.blobRowsForSegment t.store.db)) = some (.ok
          ["segment 000001: footer record " ++ exampleCodec.hexdigest abc ++
            " has no blobs row"]) := by
    rw [exampleCodec_eq, abcPacked_eq, abcFooter_eq, abcSha256_eq, abcFooterSha256_eq]
    decide +kernel
  obtain ⟨t, hrun, ht⟩ := Option.map_eq_some_iff.mp hreport
  refine ⟨t, hrun, ht, fun hclean => ?_⟩
  cases ht.symm.trans hclean.verify

end RerollSync.Archive
