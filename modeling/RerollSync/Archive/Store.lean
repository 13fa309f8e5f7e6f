import RerollSync.Archive.Reader

/-!
# The archive store

`ArchiveStore` of `store.py`: segment ids, the current writer, and the
`segments` and `blobs` tables that say where every record lies.
-/

namespace RerollSync.Archive

open RerollSync.Support
open RerollSync.Store (Bytes Db BlobRow SegmentRow)

/-- The row of a location. -/
def BlobLocation.row (location : BlobLocation) : BlobRow :=
  ⟨location.segmentId, location.blockNo, location.offset, location.length⟩

/-- The row of a sealed segment. -/
def SegmentStats.row (stats : SegmentStats) (now : String) : SegmentRow :=
  ⟨some now, some stats.bytes, some stats.records, some stats.footerSha256⟩

/-- `ArchiveStore`: the directory, the database behind its connection, the writers
it has opened, which of them is current, and its reader. -/
structure ArchiveStore where
  disk : Disk
  db : Db
  writers : Table ℕ SegmentWriter
  current : Option ℕ
  reader : Reader

namespace ArchiveStore

/-- A store over an empty directory. -/
def initial (db : Db) : ArchiveStore :=
  ⟨∅, db, ∅, none, { blockCacheSize := defaultBlockCacheSize }⟩

/-- The largest id, plus one; zero when there is none. -/
def afterMax (ids : List ℕ) : ℕ := (ids.map (· + 1)).foldr max 0

/-- `_next_segment_id`; `_SEGMENT_FILENAME` matches names of six digits. -/
def nextSegmentId (disk : Disk) (db : Db) : ℕ :=
  max (afterMax db.segments.keys)
    (afterMax ((disk.keys.map Prod.fst).filter (· < 1000000)))

/-- The insert of `open_writer`, committed. -/
def insertSegmentRow (s : ArchiveStore) : Except ArchiveError (ℕ × ArchiveStore) :=
  let segmentId := nextSegmentId s.disk s.db
  match s.db.insertSegment segmentId with
  | some db => .ok (segmentId, { s with db := db })
  | none => .error .integrity

/-- The rest of `open_writer`. -/
def createWriter (settings : Settings) (segmentId : ℕ) (s : ArchiveStore) :
    Except ArchiveError ArchiveStore := do
  let (w, disk) ← SegmentWriter.create settings segmentId s.disk
  return { s with disk := disk, writers := s.writers.set segmentId w, current := some segmentId }

/-- `open_writer`. -/
def openWriter (settings : Settings) (s : ArchiveStore) : Except ArchiveError ArchiveStore := do
  let (segmentId, s) ← s.insertSegmentRow
  s.createWriter settings segmentId

/-- The writer with a segment id; every id in `current` has one. -/
def writer (id : ℕ) (s : ArchiveStore) : Except ArchiveError SegmentWriter :=
  match s.writers.get? id with
  | some w => .ok w
  | none => .error .index

/-- `current_writer`. -/
def currentWriter (settings : Settings) (s : ArchiveStore) :
    Except ArchiveError (ℕ × ArchiveStore) :=
  match s.current with
  | some id => .ok (id, s)
  | none => do
      let s ← s.openWriter settings
      return (s.current.getD 0, s)

/-- `SegmentWriter.add` of the writer with a segment id. -/
def addTo (c : Codec) (id : ℕ) (data : Bytes) (s : ArchiveStore) :
    Except ArchiveError (BlobLocation × ArchiveStore) := do
  let w ← s.writer id
  let (location, w, disk) ← w.add c data s.disk
  return (location, { s with disk := disk, writers := s.writers.set id w })

/-- The insert of `add`, committed. -/
def insertBlobRow (location : BlobLocation) (s : ArchiveStore) :
    Except ArchiveError ArchiveStore :=
  match s.db.insertBlob location.sha256 location.row with
  | some db => .ok { s with db := db }
  | none => .error .integrity

/-- `add`. -/
def add (c : Codec) (settings : Settings) (data : Bytes) (s : ArchiveStore) :
    Except ArchiveError (BlobLocation × ArchiveStore) := do
  let (id, s) ← s.currentWriter settings
  let (location, s) ← s.addTo c id data
  let s ← s.insertBlobRow location
  return (location, s)

/-- `seal_writer`. -/
def sealWriter (c : Codec) (id : ℕ) (now : String) (s : ArchiveStore) :
    Except ArchiveError (SegmentStats × ArchiveStore) := do
  let w ← s.writer id
  let (stats, w, disk) ← w.sealSegment c s.disk
  return (stats,
    { s with
      disk := disk
      db := s.db.updateSegment stats.segmentId (stats.row now)
      writers := s.writers.set id w
      current := if s.current = some id then none else s.current })

/-- `location_for`. -/
def locationFor (sha256 : String) (db : Db) : Option BlobLocation :=
  (db.blobs.get? sha256).map fun row =>
    ⟨sha256, row.segmentId, row.blockNo, row.offset, row.length⟩

/-- `get`. -/
def get (c : Codec) (disk : Disk) (db : Db) (sha256 : String) : Read Bytes :=
  match locationFor sha256 db with
  | none => throw (.unknown sha256)
  | some location => Reader.read c disk location

/-! ## What the tables say after a change -/

theorem get?_of_writer {id : ℕ} {s : ArchiveStore} {w : SegmentWriter} (h : s.writer id = .ok w) :
    s.writers.get? id = some w := by
  unfold writer at h
  cases hget : s.writers.get? id with
  | none => simp [hget] at h
  | some w' =>
      simp only [hget] at h
      rw [Except.ok.inj h]

/-- An insert that is not refused leaves the location of a hash that had one. -/
theorem locationFor_of_insertBlob {location : BlobLocation} {db db' : Db}
    (h : db.insertBlob location.sha256 location.row = some db') (sha256 : String) :
    locationFor sha256 db' =
      if sha256 = location.sha256 then some ((locationFor location.sha256 db).getD location)
      else locationFor sha256 db := by
  unfold Db.insertBlob at h
  cases hget : db.blobs.get? location.sha256 with
  | some row =>
      rw [hget, if_pos (by simp)] at h
      obtain rfl := Option.some.inj h
      by_cases hsha : sha256 = location.sha256
      · simp [locationFor, hsha, hget]
      · rw [if_neg hsha]
  | none =>
      rw [hget, if_neg (by simp)] at h
      obtain ⟨-, hdb⟩ := Option.ite_none_right_eq_some.mp h
      obtain rfl := Option.some.inj hdb
      by_cases hsha : sha256 = location.sha256
      · simp [locationFor, hsha, hget, Table.get?_insertNew, BlobLocation.row]
      · simp [locationFor, hsha, Table.get?_insertNew]

theorem segments_of_insertBlob {sha256 : String} {row : BlobRow} {db db' : Db}
    (h : db.insertBlob sha256 row = some db') : db'.segments = db.segments := by
  unfold Db.insertBlob at h
  split at h
  · rw [Option.some.inj h]
  · obtain ⟨-, hdb⟩ := Option.ite_none_right_eq_some.mp h
    obtain rfl := Option.some.inj hdb
    rfl

end ArchiveStore

end RerollSync.Archive
