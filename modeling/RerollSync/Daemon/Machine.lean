import RerollSync.Fetch.Recovery
import RerollSync.Pipeline.Provenance

/-!
# The daemon as a machine

The pipeline with what happens around it: the archive thread's commits to
`segments` and `blobs` on a connection of its own, the import that notes unlinked
blobs, restarts, and the recovery of a truncated segment.
-/

namespace RerollSync.Daemon

open RerollSync.Support RerollSync.Store RerollSync.Dispatcher RerollSync.Ingest
open RerollSync.Pipeline RerollSync.Fetch

/-- The steps.  `archive` is `ArchiveHandoff.process_one`: it stores the bytes,
records their location and applies the fetch's `Ok`.  Any stage may be anywhere
in its work when another step is taken. -/
inductive Event
  | pipeline (e : Pipeline.Event)
  | archive (i : ℕ) (data : Bytes) (location : BlobRow) (clock : Clock)
  | openSegment (segmentId : ℕ)
  | sealSegment (segmentId : ℕ) (row : SegmentRow)
  | noteUnlinked (filename : String) (row : UnlinkedBlobRow)
  | restart
  | recover (segmentId chunkSize : ℕ)

/-- `SELECT COALESCE(MAX(change_seq), 0) FROM wheels`. -/
def maxChangeSeq (db : Db) : ℕ := (db.wheels.rows.map fun r => r.2.changeSeq).foldr max 0

variable {M : Type}

/-- The transition function.  The stages submit the outcomes of their own work
only; the fetch's `Ok` is the handoff. -/
def step (env : Env M) (s : State) : Event → Option State
  | .pipeline (.archive _ _ _) => none
  | .pipeline e => (stages env).step s e
  | .archive i data location clock => do
      let db ← s.db.insertBlob (env.sha256 data) location
      Pipeline.step env { s with db := db } (.archive i data clock)
  | .openSegment segmentId => do
      let db ← s.db.insertSegment segmentId
      some { s with db := db }
  | .sealSegment segmentId row => some { s with db := s.db.updateSegment segmentId row }
  | .noteUnlinked filename row =>
      some { s with db := { s.db with unlinkedBlobs := s.db.unlinkedBlobs.set filename row } }
  | .restart => some (.initial s.db (maxChangeSeq s.db))
  | .recover segmentId chunkSize =>
      if 0 < chunkSize then
        some { s with db := recoverUnsealedSegment segmentId chunkSize s.changeSeq s.db }
      else none

/-- The daemon. -/
def machine (env : Env M) : Machine State Event := ⟨step env⟩

/-- The daemon over the database that `init_db` creates. -/
def start : State := .initial Db.empty 0

end RerollSync.Daemon
