import RerollSync.Archive.Store
import RerollSync.Dispatcher.Outcomes

/-!
# Bulk conversion from the archive

`BulkConvertSource.claim_batch` of `fetch.py`: claimed wheels are read back from
the archive, block by block.  An item whose bytes cannot be had is resolved at
once and left out of the batch.
-/

namespace RerollSync.Fetch

open RerollSync.Support RerollSync.Store RerollSync.Dispatcher RerollSync.Archive

/-- `f"{segment_id:06d}"`. -/
def paddedId (segmentId : ℕ) : String :=
  String.ofList (List.leftpad 6 '0' (toString segmentId).toList)

/-- `str` of a `CorruptSegmentError`. -/
def corruptMessage (segmentId : ℕ) (reason : String) : String :=
  "segment " ++ paddedId segmentId ++ ": " ++ reason

/-- The outcome `_skip_corrupt` applies. -/
def skipCorrupt (sha256 details : String) : Skip where
  reason := "corrupt_blob"
  subcategory := "CorruptSegmentError"
  details := "blob " ++ sha256 ++ ": " ++ details
  permanent := false
  rerollVersion := none

/-- The outcome of an item whose blob has no location. -/
def missingBlob (sha256 : String) : Retry :=
  ⟨"archive_blob_missing", "no blobs row for " ++ sha256⟩

/-- The outcome of an item whose segment is not on disk. -/
def missingSegment (segmentId : ℕ) : Retry :=
  ⟨"archive_segment_missing", "segment " ++ paddedId segmentId ++ " missing on disk"⟩

/-- What becomes of a claimed item: it is released, an outcome is applied to it, or
it is in the batch. -/
inductive BulkResult
  | released
  | retried (outcome : Retry)
  | skipped (outcome : Skip)
  | ready (filename : String) (data : Bytes)
deriving DecidableEq

/-- `_load_rows`: the filename and the blob of a wheel. -/
def loadRow (db : Db) (id : ℕ) : Option (String × Option String) :=
  (db.wheels.get? id).map fun row => (row.filename, row.blobSha256)

/-- The filename and the hash of an item that can be looked up. -/
def lookedUp (db : Db) (item : QueueItem) : Option (String × String) :=
  (loadRow db item.id).bind fun row => row.2.map fun sha256 => (row.1, sha256)

/-- `by_sha256`. -/
def bySha256 (db : Db) (items : List QueueItem) : Table String (List (QueueItem × String)) :=
  items.foldl (fun t item =>
    match lookedUp db item with
    | some (filename, sha256) => t.push sha256 (item, filename)
    | none => t) ∅

/-- The items of one hash that can be located. -/
def locatedItems (db : Db) (entry : String × List (QueueItem × String)) :
    List (BlobLocation × QueueItem × String) :=
  match ArchiveStore.locationFor entry.1 db with
  | some location => entry.2.map fun r => (location, r.1, r.2)
  | none => []

/-- `grouped`, in the order of its sorted keys. -/
def groupedItems (db : Db) (hashes : Table String (List (QueueItem × String))) :
    List (BlobLocation × QueueItem × String) :=
  let grouped : Table (ℕ × ℕ) (List (BlobLocation × QueueItem × String)) :=
    (hashes.rows.flatMap (locatedItems db)).foldl
      (fun t r => t.push (r.1.segmentId, r.1.blockNo) r) ∅
  (grouped.rows.insertionSort fun a b =>
    a.1.1 < b.1.1 ∨ (a.1.1 = b.1.1 ∧ a.1.2 ≤ b.1.2)).flatMap Prod.snd

/-- What the loop over `grouped` leaves: a result for every item it reached, and
the exception that ended it, if one did. -/
structure BulkBatch where
  results : List (QueueItem × BulkResult)
  raised : Option ArchiveError
  reader : Reader

/-- The loop over `grouped`. -/
def readItems (c : Codec) (disk : Disk) :
    List (BlobLocation × QueueItem × String) → Reader → BulkBatch
  | [], reader => ⟨[], none, reader⟩
  | (location, item, filename) :: rest, reader =>
      let proceed (result : BulkResult) (reader : Reader) : BulkBatch :=
        let batch := readItems c disk rest reader
        { batch with results := (item, result) :: batch.results }
      match Reader.read c disk location reader with
      | .ok data reader => proceed (.ready filename data) reader
      | .error .fileNotFound reader =>
          proceed (.retried (missingSegment location.segmentId)) reader
      | .error (.corruptSegment segmentId reason) reader =>
          proceed (.skipped (skipCorrupt location.sha256 (corruptMessage segmentId reason))) reader
      | .error e reader => ⟨[], some e, reader⟩

/-- `claim_batch` for the items of a claim; the rows and the locations are read from
two snapshots. -/
def claimBatch (c : Codec) (disk : Disk) (rows locations : Db) (items : List QueueItem)
    (reader : Reader) : BulkBatch :=
  let released := items.filter fun item => (lookedUp rows item).isNone
  let hashes := bySha256 rows items
  let missing := hashes.rows.filter fun entry => (ArchiveStore.locationFor entry.1 locations).isNone
  let batch := readItems c disk (groupedItems locations hashes) reader
  { batch with
    results := released.map (·, .released) ++
      missing.flatMap (fun entry => entry.2.map fun r => (r.1, .retried (missingBlob entry.1))) ++
      batch.results }

/-! ## Items by hash and by block -/

/-- The items that are looked up, with their hashes. -/
def hashedItems (db : Db) (items : List QueueItem) : List (String × QueueItem × String) :=
  items.filterMap fun item => (lookedUp db item).map fun row => (row.2, item, row.1)

theorem bySha256_eq (db : Db) (items : List QueueItem) : bySha256 db items =
    (hashedItems db items).foldl (fun t x => t.push x.1 x.2) ∅ := by
  rw [bySha256, hashedItems, List.foldl_filterMap]
  congr 1
  funext t item
  cases lookedUp db item <;> rfl

/-- Under each hash are the items that have it. -/
theorem mem_bySha256_iff {db : Db} {items : List QueueItem} {sha256 filename : String}
    {item : QueueItem} :
    (∃ entry ∈ (bySha256 db items).rows, entry.1 = sha256 ∧ (item, filename) ∈ entry.2) ↔
      item ∈ items ∧ lookedUp db item = some (filename, sha256) := by
  have hunder := Table.getD_get?_foldl_push Prod.fst Prod.snd (hashedItems db items)
    (∅ : Table String (List (QueueItem × String))) sha256
  rw [← bySha256_eq, Table.get?_empty, Option.getD_none, List.nil_append] at hunder
  have hleft : (∃ entry ∈ (bySha256 db items).rows, entry.1 = sha256 ∧
      (item, filename) ∈ entry.2) ↔
      (item, filename) ∈ ((bySha256 db items).get? sha256).getD [] := by
    constructor
    · rintro ⟨entry, hentry, rfl, hmem⟩
      rw [Table.get?_eq_some_iff.mpr hentry]
      exact hmem
    · intro hmem
      cases hget : (bySha256 db items).get? sha256 with
      | none => simp [hget] at hmem
      | some l =>
          rw [hget] at hmem
          exact ⟨(sha256, l), Table.get?_eq_some_iff.mp hget, rfl, hmem⟩
  rw [hleft, hunder]
  simp only [hashedItems, List.mem_map, List.mem_filter, List.mem_filterMap, decide_eq_true_eq]
  constructor
  · rintro ⟨x, ⟨⟨item', hitem, hx⟩, rfl⟩, heq⟩
    obtain ⟨row, hrow, rfl⟩ := Option.map_eq_some_iff.mp hx
    obtain ⟨rfl, rfl⟩ := Prod.mk.inj heq
    exact ⟨hitem, hrow⟩
  · rintro ⟨hitem, hrow⟩
    exact ⟨(sha256, item, filename), ⟨⟨item, hitem, by rw [hrow]; rfl⟩, rfl⟩, rfl⟩

/-- Grouping by block keeps the items that can be located. -/
theorem groupedItems_perm (db : Db) (hashes : Table String (List (QueueItem × String))) :
    (groupedItems db hashes).Perm (hashes.rows.flatMap (locatedItems db)) := by
  refine ((List.perm_insertionSort _ _).flatMap_right _).trans ?_
  refine (Table.perm_foldl_push (fun r : BlobLocation × QueueItem × String =>
    (r.1.segmentId, r.1.blockNo)) id _ ∅).trans ?_
  rw [List.map_id]
  exact List.Perm.refl _

theorem mem_groupedItems_iff {rows locations : Db} {items : List QueueItem}
    {location : BlobLocation} {item : QueueItem} {filename : String} :
    (location, item, filename) ∈ groupedItems locations (bySha256 rows items) ↔
      item ∈ items ∧ ∃ sha256, lookedUp rows item = some (filename, sha256) ∧
        ArchiveStore.locationFor sha256 locations = some location := by
  rw [(groupedItems_perm _ _).mem_iff, List.mem_flatMap]
  constructor
  · rintro ⟨entry, hentry, hmem⟩
    rw [locatedItems] at hmem
    cases hlocation : ArchiveStore.locationFor entry.1 locations with
    | none => simp [hlocation] at hmem
    | some found =>
        rw [hlocation] at hmem
        obtain ⟨r, hr, heq⟩ := List.mem_map.mp hmem
        obtain ⟨rfl, hr'⟩ := Prod.mk.inj heq
        obtain ⟨rfl, rfl⟩ := Prod.mk.inj hr'
        obtain ⟨hitem, hrow⟩ := mem_bySha256_iff.mp ⟨entry, hentry, rfl, hr⟩
        exact ⟨hitem, entry.1, hrow, hlocation⟩
  · rintro ⟨hitem, sha256, hrow, hlocation⟩
    obtain ⟨entry, hentry, rfl, hmem⟩ := mem_bySha256_iff.mpr ⟨hitem, hrow⟩
    refine ⟨entry, hentry, ?_⟩
    rw [locatedItems, hlocation]
    exact List.mem_map.mpr ⟨(item, filename), hmem, rfl⟩

/-! ## What becomes of an item -/

variable {c : Codec} {disk : Disk} {rows locations : Db} {items : List QueueItem} {reader : Reader}

theorem result_of_mem_readItems {entries : List (BlobLocation × QueueItem × String)}
    {item : QueueItem} {result : BulkResult}
    (h : (item, result) ∈ (readItems c disk entries reader).results) :
    (∃ filename data, result = .ready filename data) ∨
      (∃ segmentId, result = .retried (missingSegment segmentId)) ∨
      ∃ sha256 details, result = .skipped (skipCorrupt sha256 details) := by
  induction entries generalizing reader with
  | nil => cases h
  | cons entry rest ih =>
      obtain ⟨location, item', filename⟩ := entry
      simp only [readItems] at h
      split at h
      · rcases List.mem_cons.mp h with heq | hrest
        · exact Or.inl ⟨filename, _, (Prod.mk.inj heq).2⟩
        · exact ih hrest
      · rcases List.mem_cons.mp h with heq | hrest
        · exact Or.inr (Or.inl ⟨_, (Prod.mk.inj heq).2⟩)
        · exact ih hrest
      · rcases List.mem_cons.mp h with heq | hrest
        · exact Or.inr (Or.inr ⟨_, _, (Prod.mk.inj heq).2⟩)
        · exact ih hrest
      · cases h

/-- Only corruption makes `claim_batch` skip an item. -/
theorem skipCorrupt_of_mem_claimBatch {item : QueueItem} {skip : Skip}
    (h : (item, .skipped skip) ∈ (claimBatch c disk rows locations items reader).results) :
    ∃ sha256 details, skip = skipCorrupt sha256 details := by
  rcases List.mem_append.mp h with h | h
  · rcases List.mem_append.mp h with h | h
    · simp at h
    · simp at h
  · rcases result_of_mem_readItems h with ⟨_, _, h⟩ | ⟨_, h⟩ | ⟨sha256, details, h⟩
    · cases h
    · cases h
    · exact ⟨sha256, details, BulkResult.skipped.inj h⟩

/-- Only an item whose wheel has no blob is released. -/
theorem lookedUp_of_released {item : QueueItem}
    (h : (item, .released) ∈ (claimBatch c disk rows locations items reader).results) :
    item ∈ items ∧ lookedUp rows item = none := by
  rcases List.mem_append.mp h with h | h
  · rcases List.mem_append.mp h with h | h
    · simpa using h
    · simp at h
  · rcases result_of_mem_readItems h with ⟨_, _, h⟩ | ⟨_, h⟩ | ⟨_, _, h⟩ <;> cases h

end RerollSync.Fetch
