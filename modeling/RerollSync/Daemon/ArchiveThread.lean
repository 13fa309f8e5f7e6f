import RerollSync.Archive.Session
import RerollSync.Daemon.Convertible

/-!
# The archive thread, statement by statement

`ArchiveHandoff.process_one` with every commit and every change to a file a step of
its own, among the steps of the pipeline.  A crash may come after any of them;
`Daemon._recover_archive` is what the next start makes of the files and the tables.
-/

namespace RerollSync.Daemon

open RerollSync.Support RerollSync.Store RerollSync.Dispatcher RerollSync.Ingest
open RerollSync.Pipeline RerollSync.Fetch RerollSync.Archive

/-- What the daemon runs with: the pipeline's environment, whose hash is the codec's,
and the arguments of the segment writers. -/
structure Setup (M : Type) where
  dispatcher : Dispatcher.Settings
  repr : String → String
  lib : Convert.Reroll M
  codec : Codec
  archive : Archive.Settings

def Setup.env {M : Type} (x : Setup M) : Env M := ⟨x.dispatcher, x.repr, x.lib, x.codec.hexdigest⟩

/-- `HandoffItem`: a fetched wheel and its bytes. -/
structure HandoffItem where
  held : Held
  data : Bytes
deriving DecidableEq

/-- How far `process_one` has come.  `allocated` is `open_writer` between its two
statements, called by `add`, or, with the item already `stored`, after a seal. -/
inductive Phase
  | idle
  | taken (item : HandoffItem)
  | allocated (item : HandoffItem) (segmentId : ℕ) (stored : Bool)
  | added (item : HandoffItem) (location : BlobLocation)
  | located (item : HandoffItem)
  | footed (item : HandoffItem) (stats : SegmentStats)
  | renamed (item : HandoffItem) (stats : SegmentStats)
  | sealed (item : HandoffItem)
  | stored (item : HandoffItem)
deriving DecidableEq

/-- The daemon's memory and its files. -/
structure Running where
  pipeline : State
  disk : Disk
  writers : Table ℕ SegmentWriter
  current : Option ℕ
  phase : Phase

namespace Running

/-- The store, as the archive thread sees it. -/
def store (s : Running) : ArchiveStore where
  disk := s.disk
  db := s.pipeline.db
  writers := s.writers
  current := s.current
  reader := { blockCacheSize := defaultBlockCacheSize }

/-- The store has changed. -/
def withStore (s : Running) (store : ArchiveStore) (phase : Phase) : Running where
  pipeline := { s.pipeline with db := store.db }
  disk := store.disk
  writers := store.writers
  current := store.current
  phase := phase

/-- What a statement of the thread needs from outside: the item that comes out of the
handoff queue, whether the segment is large or old enough, and the clock. -/
structure Choice where
  i : ℕ := 0
  data : Bytes := []
  shouldSeal : Bool := false
  clock : Clock := ⟨"", fun _ => ""⟩

variable {M : Type}

/-- `queue.get()`: a fetched item with bytes of the hash the index has given. -/
def take (x : Setup M) (i : ℕ) (data : Bytes) (s : Running) : Option Running := do
  let h ← s.pipeline.held[i]?
  match h.stage, h.loaded with
  | .fetch, .sidecar _ metadataSha256 =>
      if metadataSha256.all (· = x.codec.hexdigest data) then
        some { s with phase := .taken ⟨h, data⟩ }
      else none
  | _, _ => none

/-- The first statement of `open_writer`. -/
def allocate (item : HandoffItem) (stored : Bool) (s : Running) : Option Running :=
  match s.store.insertSegmentRow with
  | .ok (segmentId, store) => some (s.withStore store (.allocated item segmentId stored))
  | .error _ => none

/-- The next statement of the thread. -/
def advance (x : Setup M) (k : Choice) (s : Running) : Option Running :=
  match s.phase with
  | .idle => s.take x k.i k.data
  | .taken item =>
      match s.current with
      | none => s.allocate item false
      | some id =>
          match s.store.addTo x.codec id item.data with
          | .ok (location, store) => some (s.withStore store (.added item location))
          | .error _ => none
  | .allocated item id stored =>
      match s.store.createWriter x.archive id with
      | .ok store => some (s.withStore store (if stored then .stored item else .taken item))
      | .error _ => none
  | .added item location =>
      match s.store.insertBlobRow location with
      | .ok store => some (s.withStore store (.located item))
      | .error _ => none
  | .located item =>
      if k.shouldSeal then do
        let id ← s.current
        let w ← s.writers.get? id
        match w.writeFooter x.codec s.disk with
        | .ok (stats, w, disk) =>
            some { s with
              disk := disk
              writers := s.writers.set id w
              phase := .footed item stats }
        | .error _ => none
      else some { s with phase := .stored item }
  | .footed item stats => do
      let id ← s.current
      let w ← s.writers.get? id
      match s.disk.rename w.segmentId with
      | .ok disk =>
          some { s with
            disk := disk
            writers := s.writers.set id { w with isSealed := true }
            phase := .renamed item stats }
      | .error _ => none
  | .renamed item stats =>
      let db := s.pipeline.db.updateSegment stats.segmentId (stats.row k.clock.nowIso)
      some { s with pipeline := { s.pipeline with db := db }, phase := .sealed item }
  | .sealed item => s.allocate item true
  | .stored item =>
      if s.pipeline.held[k.i]? = some item.held then
        (Pipeline.step x.env s.pipeline (.archive k.i item.data k.clock)).map fun p =>
          { s with pipeline := p, phase := .idle }
      else none

/-! ## Recovery -/

/-- `_RECOVERY_CHUNK_SIZE`. -/
def recoveryChunkSize : ℕ := 500

/-- `_is_sealed`. -/
def isSealed (db : Db) (segmentId : ℕ) : Bool :=
  (db.segments.get? segmentId).any fun row => row.sealedAt.isSome

/-- `sorted(_open_segment_ids(...) - sealed_segment_ids())`. -/
def staleSegmentIds (db : Db) (disk : Disk) : List ℕ :=
  (((disk.keys.filter fun key => key.2 = .opened).map Prod.fst).filter fun id =>
    !isSealed db id).insertionSort (· ≤ ·)

/-- `_recover_stale_open_segments`. -/
def recoverStaleOpenSegments (db : Db) (disk : Disk) : Disk :=
  disk.modify fun key file => if key.2 = .opened ∧ isSealed db key.1 = false then [] else file

/-- The loop of `_recover_archive`. -/
def recoverSegments (segmentIds : List ℕ) (changeSeq : ℕ) (db : Db) : Db :=
  segmentIds.foldl
    (fun db segmentId => recoverUnsealedSegment segmentId recoveryChunkSize changeSeq db) db

/-- The next start after a crash: `Writer.start`, then `_recover_archive`. -/
def restart (s : Running) : Running where
  pipeline := .initial
    (recoverSegments (staleSegmentIds s.pipeline.db s.disk) (maxChangeSeq s.pipeline.db)
      s.pipeline.db) (maxChangeSeq s.pipeline.db)
  disk := recoverStaleOpenSegments s.pipeline.db s.disk
  writers := ∅
  current := none
  phase := .idle

/-! ## The machine -/

inductive RunningEvent
  | pipeline (e : Pipeline.Event)
  | thread (choice : Choice)
  | restart

/-- The blobs that a plan has found in `unlinked_blobs` are in `blobs`: the import
locates a blob before it notes it. -/
def Linkable (s : State) (e : Pipeline.Event) : Prop :=
  match e with
  | .applySync name _ => ∀ sync ∈ s.syncs.get? name, ∀ w ∈ newWheelsOf sync,
      ∀ sha256 ∈ w.blobSha256, (s.db.blobs.get? sha256).isSome
  | _ => True

instance (s : State) (e : Pipeline.Event) : Decidable (Linkable s e) := by
  unfold Linkable
  split <;> infer_instance

/-- The transition function: the other threads commit between any two statements of
the archive thread, and the process may die at any time. -/
def step (x : Setup M) (s : Running) : RunningEvent → Option Running
  | .pipeline e =>
      if Linkable s.pipeline e then
        (Daemon.step x.env s.pipeline (.pipeline e)).map fun p => { s with pipeline := p }
      else none
  | .thread choice => s.advance x choice
  | .restart => some s.restart

/-- The daemon and its archive thread. -/
def machine (x : Setup M) : Machine Running RunningEvent := ⟨step x⟩

/-- The daemon over an empty directory and the database that `init_db` creates. -/
def start : Running := ⟨Daemon.start, ∅, ∅, none, .idle⟩

end Running

end RerollSync.Daemon
