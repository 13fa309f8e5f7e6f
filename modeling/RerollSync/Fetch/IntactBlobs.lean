import RerollSync.Archive.RoundTrip
import RerollSync.Fetch.BulkConvert

/-!
# Bulk conversion of intact blobs

The row of a blob is committed when its bytes are in the buffer of an open segment, and the
file of the segment has its name only once it is sealed.  Until then `claim_batch` finds a
location whose file is missing.  This module says what becomes of every wheel that is
claimed, for any store that was not touched from outside.
-/

namespace RerollSync.Archive

open RerollSync.Support
open RerollSync.Store (Bytes Db)

/-! ## Reading a location -/

/-- What `read` returns or raises, as the files have it. -/
def readValue (c : Codec) (disk : Disk) (location : BlobLocation) : Except ArchiveError Bytes := do
  let block ← loadPayload c disk location.segmentId location.blockNo
  Reader.checkRecord c location block

variable {c : Codec} {settings : Settings} {disk : Disk} {s : Session}

theorem reads_readValue (location : BlobLocation) :
    Reads c disk (Reader.read c disk location) (readValue c disk location) := reads_read location

/-- A method has one value. -/
theorem Reads.unique {α : Type} {m : Read α} {value value' : Except ArchiveError α}
    (h : Reads c disk m value) (h' : Reads c disk m value') : value = value' := by
  have hempty := Reader.valid_empty c disk 0
  rw [← h.value_eq hempty, ← h'.value_eq hempty]

theorem readValue_of_no_file {location : BlobLocation}
    (h : disk.get? (location.segmentId, .zst) = none) :
    readValue c disk location = .error .fileNotFound := by
  have hopen : openSegment disk location.segmentId = .error .fileNotFound := by
    rw [openSegment, h]
  rw [readValue, loadPayload, loadFooter, hopen]
  rfl

/-- The segment has been sealed. -/
def Session.IsSealed (s : Session) (id : ℕ) : Prop :=
  ∃ w, s.store.writers.get? id = some w ∧ w.isSealed = true

/-- A record of a sealed segment is read, and a record of an open one has no file. -/
theorem Session.Sound.readValue_eq (hc : c.Faithful) (h : s.Sound c settings)
    {x : Bytes × BlobLocation} (hx : x ∈ s.added) :
    s.IsSealed x.2.segmentId ∧ readValue c s.store.disk x.2 = .ok x.1 ∨
      ¬s.IsSealed x.2.segmentId ∧ readValue c s.store.disk x.2 = .error .fileNotFound := by
  obtain ⟨w, hw⟩ := h.added x hx
  have hholds := (h.writers _ w hw).holds
  by_cases hsealed : w.isSealed = true
  · rw [if_pos hsealed] at hholds
    obtain ⟨blocks, footer, trailer, file, hfile, hget, hseg⟩ := hholds
    have hlocated := hseg.located x (List.mem_filter.mpr ⟨hx, by simp⟩)
    exact Or.inl ⟨⟨w, hw, hsealed⟩,
      (reads_readValue x.2).unique (reads_of_located hc hget hfile hlocated)⟩
  · rw [if_neg hsealed] at hholds
    obtain ⟨-, -, hzst, -⟩ := hholds
    refine Or.inr ⟨?_, readValue_of_no_file hzst⟩
    rintro ⟨w', hw', hsealed'⟩
    exact hsealed (Option.some.inj (hw.symm.trans hw') ▸ hsealed')

end RerollSync.Archive

namespace RerollSync.Fetch

open RerollSync.Support RerollSync.Store RerollSync.Dispatcher RerollSync.Archive

/-! ## Results -/

/-- What becomes of an item once its location is read, unless the exception is not caught. -/
def resultOfRead (location : BlobLocation) (filename : String) :
    Except ArchiveError Bytes → Option BulkResult
  | .ok data => some (.ready filename data)
  | .error .fileNotFound => some (.retried (missingSegment location.segmentId))
  | .error (.corruptSegment segmentId reason) =>
      some (.skipped (skipCorrupt location.sha256 (corruptMessage segmentId reason)))
  | .error _ => none

variable {c : Codec} {disk : Disk} {rows locations : Db} {items : List QueueItem} {reader : Reader}

/-- The loop gives each item the result of its own read, whatever is cached. -/
theorem mem_readItems_iff (entries : List (BlobLocation × QueueItem × String))
    (hreader : reader.Valid c disk)
    (hcaught : ∀ e ∈ entries, (resultOfRead e.1 e.2.2 (readValue c disk e.1)).isSome = true) :
    (readItems c disk entries reader).raised = none ∧
      ∀ item result, (item, result) ∈ (readItems c disk entries reader).results ↔
        ∃ e ∈ entries, e.2.1 = item ∧
          resultOfRead e.1 e.2.2 (readValue c disk e.1) = some result := by
  induction entries generalizing reader with
  | nil => simp [readItems]
  | cons entry rest ih =>
      obtain ⟨location, item', filename⟩ := entry
      obtain ⟨reader', hreader', hread⟩ := reads_readValue location reader hreader
      have hfirst := hcaught _ List.mem_cons_self
      obtain ⟨hraised, hrest⟩ := ih hreader' fun e he => hcaught e (List.mem_cons_of_mem _ he)
      obtain ⟨result, hresult⟩ := Option.isSome_iff_exists.mp hfirst
      have hcons : readItems c disk ((location, item', filename) :: rest) reader =
          { readItems c disk rest reader' with
            results := (item', result) :: (readItems c disk rest reader').results } := by
        rw [readItems, hread]
        revert hresult
        cases readValue c disk location with
        | ok data =>
            intro hresult
            rw [← Option.some.inj hresult]
        | error e =>
            intro hresult
            cases e <;> first | rw [← Option.some.inj hresult] | cases hresult
      rw [hcons]
      refine ⟨hraised, fun item result' => ?_⟩
      rw [List.mem_cons, hrest, List.exists_mem_cons_iff]
      refine or_congr_left ?_
      change _ ↔ item' = item ∧ resultOfRead location filename (readValue c disk location) = _
      rw [hresult, Prod.mk.injEq, Option.some.injEq]
      exact and_congr eq_comm eq_comm

/-- What becomes of the items of a claim whose locations can all be read. -/
theorem mem_claimBatch_iff (rows locations : Db) (items : List QueueItem)
    (hreader : reader.Valid c disk)
    (hcaught : ∀ item ∈ items, ∀ filename sha256 location,
      lookedUp rows item = some (filename, sha256) →
      ArchiveStore.locationFor sha256 locations = some location →
      (resultOfRead location filename (readValue c disk location)).isSome = true) :
    (claimBatch c disk rows locations items reader).raised = none ∧
      ∀ item result, (item, result) ∈ (claimBatch c disk rows locations items reader).results ↔
        item ∈ items ∧
          match lookedUp rows item with
          | none => result = .released
          | some (filename, sha256) =>
              match ArchiveStore.locationFor sha256 locations with
              | none => result = .retried (missingBlob sha256)
              | some location =>
                  resultOfRead location filename (readValue c disk location) = some result := by
  obtain ⟨hraised, hread⟩ := mem_readItems_iff
    (groupedItems locations (bySha256 rows items)) hreader fun e he => by
      obtain ⟨hitem, sha256, hrow, hlocation⟩ := mem_groupedItems_iff.mp he
      exact hcaught _ hitem _ sha256 _ hrow hlocation
  refine ⟨hraised, fun item result => ?_⟩
  have hreleased : (item, result) ∈ (items.filter fun item =>
        (lookedUp rows item).isNone).map (·, BulkResult.released) ↔
      item ∈ items ∧ lookedUp rows item = none ∧ result = .released := by
    simp only [List.mem_map, List.mem_filter, Option.isNone_iff_eq_none, Prod.mk.injEq]
    constructor
    · rintro ⟨_, ⟨hitem, hnone⟩, rfl, rfl⟩
      exact ⟨hitem, hnone, rfl⟩
    · rintro ⟨hitem, hnone, rfl⟩
      exact ⟨item, ⟨hitem, hnone⟩, rfl, rfl⟩
  have hmissing : (item, result) ∈ ((bySha256 rows items).rows.filter fun entry =>
        (ArchiveStore.locationFor entry.1 locations).isNone).flatMap (fun entry =>
          entry.2.map fun r => (r.1, BulkResult.retried (missingBlob entry.1))) ↔
      item ∈ items ∧ ∃ filename sha256, lookedUp rows item = some (filename, sha256) ∧
        ArchiveStore.locationFor sha256 locations = none ∧
          result = .retried (missingBlob sha256) := by
    simp only [List.mem_flatMap, List.mem_filter, Option.isNone_iff_eq_none, List.mem_map,
      Prod.mk.injEq]
    constructor
    · rintro ⟨entry, ⟨hentry, hnone⟩, r, hr, rfl, rfl⟩
      obtain ⟨hitem, hrow⟩ := mem_bySha256_iff.mp ⟨entry, hentry, rfl, hr⟩
      exact ⟨hitem, r.2, entry.1, hrow, hnone, rfl⟩
    · rintro ⟨hitem, filename, sha256, hrow, hnone, rfl⟩
      obtain ⟨entry, hentry, rfl, hmem⟩ := mem_bySha256_iff.mpr ⟨hitem, hrow⟩
      exact ⟨entry, ⟨hentry, hnone⟩, (item, filename), hmem, rfl, rfl⟩
  have hlocated : (∃ e ∈ groupedItems locations (bySha256 rows items), e.2.1 = item ∧
        resultOfRead e.1 e.2.2 (readValue c disk e.1) = some result) ↔
      item ∈ items ∧ ∃ filename sha256 location,
        lookedUp rows item = some (filename, sha256) ∧
          ArchiveStore.locationFor sha256 locations = some location ∧
            resultOfRead location filename (readValue c disk location) = some result := by
    constructor
    · rintro ⟨⟨location, _, filename⟩, he, rfl, hresult⟩
      obtain ⟨hitem, sha256, hrow, hlocation⟩ := mem_groupedItems_iff.mp he
      exact ⟨hitem, filename, sha256, location, hrow, hlocation, hresult⟩
    · rintro ⟨hitem, filename, sha256, location, hrow, hlocation, hresult⟩
      exact ⟨(location, item, filename),
        mem_groupedItems_iff.mpr ⟨hitem, sha256, hrow, hlocation⟩, rfl, hresult⟩
  rw [claimBatch, List.mem_append, List.mem_append, hread, hreleased, hmissing, hlocated,
    ← and_or_left, ← and_or_left]
  refine and_congr_right fun _ => ?_
  cases lookedUp rows item with
  | none => simp
  | some row =>
      obtain ⟨filename, sha256⟩ := row
      cases hlocation : ArchiveStore.locationFor sha256 locations with
      | none => simp [hlocation]
      | some location => simp [hlocation]

/-! ## Intact blobs -/

/-- Every wheel that was claimed is released, or it is in the batch with the bytes that were
added under its hash. -/
structure Intact (c : Codec) (stored : List Bytes) (rows : Db) (items : List QueueItem)
    (batch : BulkBatch) : Prop where
  returns : batch.raised = none
  resolved : ∀ item ∈ items, ∃ result, (item, result) ∈ batch.results
  intact : ∀ item result, (item, result) ∈ batch.results → result = .released ∨
    ∃ filename, ∃ data ∈ stored, result = .ready filename data ∧
      lookedUp rows item = some (filename, c.hexdigest data)

/-- Claimed wheels whose blobs were added to a store get their bytes back exactly when the
segments that their rows name have been sealed. -/
theorem intact_iff {settings : Archive.Settings} {l : List Use} {t : Session} (hc : c.Faithful)
    (hrun : (sessions c settings).run Session.initial l = some t)
    (hlinked : ∀ item ∈ items, ∀ filename sha256, lookedUp rows item = some (filename, sha256) →
      ∃ data ∈ t.stored, sha256 = c.hexdigest data)
    (hblobs : locations.blobs = t.store.db.blobs) (hreader : reader.Valid c t.store.disk) :
    Intact c t.stored rows items (claimBatch c t.store.disk rows locations items reader) ↔
      ∀ item ∈ items, ∀ filename sha256 location, lookedUp rows item = some (filename, sha256) →
        ArchiveStore.locationFor sha256 locations = some location →
          t.IsSealed location.segmentId := by
  have hs : t.Sound c settings := Session.Sound.run hc hrun
  have hlocate : ∀ sha256, ArchiveStore.locationFor sha256 locations =
      ArchiveStore.locationFor sha256 t.store.db := fun sha256 => by
    rw [ArchiveStore.locationFor, ArchiveStore.locationFor, hblobs]
  have hplace : ∀ item ∈ items, ∀ filename sha256,
      lookedUp rows item = some (filename, sha256) → ∃ data ∈ t.stored, ∃ location,
        sha256 = c.hexdigest data ∧ ArchiveStore.locationFor sha256 locations = some location ∧
          (data, location) ∈ t.added := by
    intro item hitem filename sha256 hrow
    obtain ⟨data, hdata, rfl⟩ := hlinked item hitem filename sha256 hrow
    obtain ⟨location, hlocation⟩ := hs.known data hdata
    obtain ⟨data', hmem, hsha⟩ := hs.blobs _ location hlocation
    obtain rfl : data' = data := hc.hexdigest_injective hsha
    exact ⟨data', hdata, location, rfl, (hlocate _).trans hlocation, hmem⟩
  obtain ⟨hraised, hmem⟩ := mem_claimBatch_iff rows locations items
    hreader fun item hitem filename sha256 location hrow hlocation => by
      obtain ⟨data, -, location', -, hlocation', hadded⟩ := hplace item hitem filename sha256 hrow
      obtain rfl := Option.some.inj (hlocation'.symm.trans hlocation)
      rcases hs.readValue_eq hc hadded with ⟨-, hvalue⟩ | ⟨-, hvalue⟩
      · rw [hvalue]
        rfl
      · rw [hvalue]
        rfl
  constructor
  · intro hintact item hitem filename sha256 location hrow hlocation
    obtain ⟨data, -, location', -, hlocation', hadded⟩ := hplace item hitem filename sha256 hrow
    obtain rfl := Option.some.inj (hlocation'.symm.trans hlocation)
    rcases hs.readValue_eq hc hadded with ⟨hsealed, -⟩ | ⟨-, hvalue⟩
    · exact hsealed
    · have hretried := (hmem item (.retried (missingSegment location'.segmentId))).mpr
        ⟨hitem, by simp only [hrow, hlocation, hvalue, resultOfRead]⟩
      rcases hintact.intact _ _ hretried with h | ⟨_, _, _, h, _⟩ <;> cases h
  · intro hsealed
    have hready : ∀ item ∈ items, ∀ filename sha256, lookedUp rows item = some (filename, sha256) →
        ∃ data ∈ t.stored, sha256 = c.hexdigest data ∧
          ∀ result, (item, result) ∈
            (claimBatch c t.store.disk rows locations items reader).results ↔
              result = .ready filename data := by
      intro item hitem filename sha256 hrow
      obtain ⟨data, hdata, location, rfl, hlocation, hadded⟩ :=
        hplace item hitem filename sha256 hrow
      refine ⟨data, hdata, rfl, fun result => ?_⟩
      rw [hmem]
      rcases hs.readValue_eq hc hadded with ⟨-, hvalue⟩ | ⟨hopen, -⟩
      · simp only [hitem, hrow, hlocation, hvalue, resultOfRead, Option.some.injEq, true_and]
        exact eq_comm
      · exact absurd (hsealed item hitem filename _ location hrow hlocation) hopen
    refine ⟨hraised, fun item hitem => ?_, fun item result hresult => ?_⟩
    · cases hrow : lookedUp rows item with
      | none => exact ⟨.released, (hmem _ _).mpr ⟨hitem, by simp only [hrow]⟩⟩
      | some row =>
          obtain ⟨data, -, -, hresult⟩ := hready item hitem row.1 row.2 hrow
          exact ⟨_, (hresult _).mpr rfl⟩
    · have hitem := ((hmem item result).mp hresult).1
      cases hrow : lookedUp rows item with
      | none =>
          have hone := ((hmem item result).mp hresult).2
          simp only [hrow] at hone
          exact Or.inl hone
      | some row =>
          obtain ⟨data, hdata, hsha, hone⟩ := hready item hitem row.1 row.2 hrow
          refine Or.inr ⟨row.1, data, hdata, (hone result).mp hresult, ?_⟩
          rw [← hsha]

/-- A wheel that is linked to `b"abc"`. -/
def abcWheel : WheelRow where
  filename := "abc-1.0-py3-none-any.whl"
  project := "abc"
  condaName := none
  state := .needConvert
  lane := 1
  url := "https://files.example/abc-1.0-py3-none-any.whl"
  wheelSha256 := none
  metadataSha256 := some (exampleCodec.hexdigest abc)
  size := some 3
  uploadTime := none
  requiresPython := none
  yanked := false
  yankedReason := none
  blobSha256 := some (exampleCodec.hexdigest abc)
  serial := 1
  changeSeq := 1
  deletedAt := none
  updatedAt := "2024-01-01T00:00:00+00:00"

def abcItem : QueueItem := ⟨7, "abc", 1, .needConvert⟩

/-- The database of a store, with that wheel. -/
def abcDb (s : ArchiveStore) : Db := { s.db with wheels := (∅ : Table ℕ WheelRow).set 7 abcWheel }

/-- In a sealed segment the bytes are found. -/
theorem intact_abc :
    ∃ t, (sessions exampleCodec {}).run Session.initial
        [.add abc, .sealWriter 0 "2024-01-01T00:00:00+00:00"] = some t ∧
      Intact exampleCodec t.stored (abcDb t.store) [abcItem]
        (claimBatch exampleCodec t.store.disk (abcDb t.store) (abcDb t.store) [abcItem]
          t.store.reader) := by
  have hsome : (((sessions exampleCodec {}).run Session.initial
      [.add abc, .sealWriter 0 "2024-01-01T00:00:00+00:00"]).map fun t =>
        ((t.store.writers.get? 0).map SegmentWriter.isSealed, t.stored,
          (ArchiveStore.locationFor (exampleCodec.hexdigest abc) t.store.db).map
            BlobLocation.segmentId)) = some (some true, [abc], some 0) := by
    rw [exampleCodec_eq, abcPacked_eq, abcFooter_eq, abcSha256_eq, abcFooterSha256_eq]
    decide +kernel
  obtain ⟨t, hrun, ht⟩ := Option.map_eq_some_iff.mp hsome
  obtain ⟨hflag, hrest⟩ := Prod.mk.inj ht
  obtain ⟨hstored, hsegment⟩ := Prod.mk.inj hrest
  obtain ⟨w, hw, hsealed⟩ := Option.map_eq_some_iff.mp hflag
  have hrow : ∀ filename sha256, lookedUp (abcDb t.store) abcItem = some (filename, sha256) →
      sha256 = exampleCodec.hexdigest abc := fun filename sha256 h =>
    (Prod.mk.inj (Option.some.inj h)).2.symm
  refine ⟨t, hrun, (intact_iff exampleCodec_faithful hrun ?_ rfl ?_).mpr ?_⟩
  · intro item hitem filename sha256 h
    obtain rfl := List.mem_singleton.mp hitem
    exact ⟨abc, by simp [hstored], hrow filename sha256 h⟩
  · exact (Session.Sound.run exampleCodec_faithful hrun).reader
  · intro item hitem filename sha256 location h hlocation
    obtain rfl := List.mem_singleton.mp hitem
    obtain rfl := hrow filename sha256 h
    have hzero : location.segmentId = 0 := by
      change ArchiveStore.locationFor (exampleCodec.hexdigest abc) t.store.db = some location
        at hlocation
      rw [hlocation] at hsegment
      exact Option.some.inj hsegment
    exact ⟨w, hzero ▸ hw, hsealed⟩

/-- In an open segment the bytes are there, and the wheel is charged with an attempt. -/
theorem open_segment_retried :
    ∃ t, (sessions exampleCodec {}).run Session.initial [.add abc] = some t ∧
      (claimBatch exampleCodec t.store.disk (abcDb t.store) (abcDb t.store) [abcItem]
        t.store.reader).results = [(abcItem, .retried (missingSegment 0))] ∧
      ¬Intact exampleCodec t.stored (abcDb t.store) [abcItem]
        (claimBatch exampleCodec t.store.disk (abcDb t.store) (abcDb t.store) [abcItem]
          t.store.reader) := by
  have hretried : (((sessions exampleCodec {}).run Session.initial [.add abc]).map fun t =>
      (claimBatch exampleCodec t.store.disk (abcDb t.store) (abcDb t.store) [abcItem]
        t.store.reader).results) = some [(abcItem, .retried (missingSegment 0))] := by
    rw [exampleCodec_eq, abcPacked_eq, abcFooter_eq, abcSha256_eq, abcFooterSha256_eq]
    decide
  obtain ⟨t, hrun, ht⟩ := Option.map_eq_some_iff.mp hretried
  refine ⟨t, hrun, ht, fun hintact => ?_⟩
  rcases hintact.intact abcItem (.retried (missingSegment 0)) (by simp [ht]) with
    h | ⟨_, _, _, h, _⟩ <;> cases h

end RerollSync.Fetch
