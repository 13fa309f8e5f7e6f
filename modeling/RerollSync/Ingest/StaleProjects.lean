import RerollSync.Ingest.Outcomes

/-!
# Syncing the stale projects

`ingest_stale_projects` of `ingest.py`: every eligible project is fetched and diffed by
a worker with a reader connection of its own, and the outcomes are applied one at a
time, as the workers complete.  A worker's reads see any of the states that were
committed before it completed.
-/

namespace RerollSync.Ingest

open RerollSync.Store RerollSync.Support

/-- `DEFAULT_PROJECT_CHUNK_SIZE`. -/
def defaultProjectChunkSize : ℤ := 5000

/-- `DEFAULT_UNLINKED_BLOB_CHUNK_SIZE`. -/
def defaultUnlinkedBlobChunkSize : ℕ := 500

/-! ## Backoff -/

/-- `ProjectBackoff`. -/
structure ProjectBackoff where
  maxAttempts : ℤ
  attempts : Table String ℕ
  nextAttemptAt : Table String ℚ
  quarantined : List String
deriving DecidableEq

namespace ProjectBackoff

/-- `attempts`. -/
def attemptsOf (b : ProjectBackoff) (project : String) : ℕ := (b.attempts.get? project).getD 0

/-- `record_failure`; `nextAt` is the time of the next attempt. -/
def recordFailure (b : ProjectBackoff) (project : String) (nextAt : ℚ) : ProjectBackoff where
  maxAttempts := b.maxAttempts
  attempts := b.attempts.set project (b.attemptsOf project + 1)
  nextAttemptAt := b.nextAttemptAt.set project nextAt
  quarantined :=
    if b.maxAttempts < (b.attemptsOf project + 1 : ℤ) ∧ project ∉ b.quarantined then
      project :: b.quarantined
    else b.quarantined

/-- `record_success`. -/
def recordSuccess (b : ProjectBackoff) (project : String) : ProjectBackoff where
  maxAttempts := b.maxAttempts
  attempts := b.attempts.filter fun key _ => key ≠ project
  nextAttemptAt := b.nextAttemptAt.filter fun key _ => key ≠ project
  quarantined := b.quarantined.filter (· ≠ project)

/-- `is_eligible`. -/
def isEligible (b : ProjectBackoff) (now : ℚ) (project : String) : Bool :=
  project ∉ b.quarantined ∧ (b.nextAttemptAt.get? project).all (· ≤ now)

end ProjectBackoff

/-- The `eligible_names`; `now` is the time each name is tested at. -/
def eligibleNames (projectNames : List String) (backoff : Option ProjectBackoff)
    (now : String → ℚ) : List String :=
  match backoff with
  | none => projectNames
  | some b => projectNames.filter fun name => b.isEligible (now name) name

/-! ## Reads at different times -/

/-- `_read_project_wheels` when page `k` is read from the state `dbs k`. -/
def readProjectWheelsAt (dbs : ℕ → Db) (turns : ℕ) (project : String) :
    Table String (ℕ × WheelRow) :=
  (keysetPagesAt (fun k => ((dbs k).wheels.filter fun _ row => row.project = project).rows)
    defaultProjectChunkSize turns 0 0).foldl (fun t r => t.set r.2.filename r) ∅

/-- `_read_unlinked_blobs` when chunk `k` is read from the state `dbs k`. -/
def readUnlinkedBlobsAt (dbs : ℕ → Db) (filenames : List String) : Table String String :=
  (Fetch.chunksOf defaultUnlinkedBlobChunkSize filenames).zipIdx.foldl (fun result chunk =>
    ((dbs chunk.2).unlinkedBlobs.rows.filter fun r => r.1 ∈ chunk.1).foldl
      (fun result r => result.set r.1 r.2.sha256) result) ∅

/-! ## The batch -/

/-- `IngestSummary`. -/
structure IngestSummary where
  inserted : ℕ := 0
  updated : ℕ := 0
  tombstoned : ℕ := 0
  projectsGone : ℕ := 0
  retried : List String := []
  rateLimited : List String := []
  quarantinedProjects : ℕ := 0
deriving DecidableEq

/-- What a call of `ingest_stale_projects` meets: what the index answers for each name,
and what its ops read besides the plans. -/
structure Batch where
  fetched : String → FetchedProject
  rerollVersion : String
  repr : String → String

/-- How the workers and the clock fall: the order in which the eligible projects
complete, which committed state every page and chunk of a worker is read from, and the
times that are recorded. -/
structure Schedule (eligible : List String) where
  order : List String
  perm : order.Perm eligible
  wheelsFrom : String → ℕ → ℕ
  unlinkedFrom : String → ℕ → ℕ
  appliedAt : String → String
  quarantinedAt : String → String
  nextAttemptAt : String → ℚ

/-- The state of the loop over the completed workers: the committed states from the
first on, and what the summary has so far. -/
structure IngestState where
  db : Db
  changeSeq : ℕ
  committed : List Db
  backoff : Option ProjectBackoff
  penalties : List (String × ℚ)
  summary : IngestSummary

namespace IngestState

def start (db : Db) (changeSeq : ℕ) (backoff : Option ProjectBackoff) : IngestState :=
  ⟨db, changeSeq, [db], backoff, [], {}⟩

/-- A committed state, the current one beyond the last. -/
def committedAt (s : IngestState) (k : ℕ) : Db := s.committed.getD k s.db

/-- What the writer commits. -/
def commit {α : Type} (s : IngestState) (r : Program.Result Db OpError α) : IngestState :=
  { s with db := r.db, changeSeq := r.counter, committed := s.committed ++ [r.db] }

section Complete

variable (batch : Batch) {eligible : List String} (schedule : Schedule eligible)

/-- The `ops` of a project are built with the time it is applied at. -/
def settingsAt (nowIso : String) : Settings := ⟨nowIso, batch.rerollVersion, batch.repr⟩

/-- `_fetch_and_sync_project` in the worker of a project. -/
def workerOutcome (s : IngestState) (name : String) : SyncOutcome :=
  match batch.fetched name with
  | .page page =>
      let localRows := readProjectWheelsAt (fun k => s.committedAt (schedule.wheelsFrom name k))
        (s.db.wheels.rows.length + 1) name
      let newFilenames := (remoteFiles page).keys.filter (· ∉ localRows.keys)
      let unlinked := readUnlinkedBlobsAt (fun k => s.committedAt (schedule.unlinkedFrom name k))
        (sorted newFilenames)
      .ok (planProject name page localRows unlinked.get?)
  | fetched => syncProject name fetched s.db

/-- The branch for a `SyncRetry`. -/
def retry (s : IngestState) (name : String) : Except OpError IngestState :=
  let s := { s with summary.retried := s.summary.retried ++ [name] }
  match s.backoff with
  | none => .ok s
  | some b =>
      let b' := b.recordFailure name (schedule.nextAttemptAt name)
      let s := { s with backoff := some b' }
      if name ∉ b.quarantined ∧ name ∈ b'.quarantined then
        let r := (quarantineErrorApply (settingsAt batch (schedule.quarantinedAt name)) name
          (b'.attemptsOf name)).runAtomic s.db s.changeSeq
        match r.value with
        | .error e => .error e
        | .ok _ =>
            .ok { s.commit r with
              summary.quarantinedProjects := s.summary.quarantinedProjects + 1 }
      else .ok s

/-- The branch for a plan or a project that is gone. -/
def succeed (s : IngestState) (name : String) (result : ApplyResult) : IngestState :=
  { s with
    backoff := s.backoff.map (·.recordSuccess name)
    summary :=
      { s.summary with
        inserted := s.summary.inserted + result.inserted
        updated := s.summary.updated + result.updated
        tombstoned := s.summary.tombstoned + result.tombstoned
        projectsGone := s.summary.projectsGone + if result.projectGone then 1 else 0 } }

/-- One turn of the loop over `as_completed(futures)`. -/
def complete (s : IngestState) (name : String) : Except OpError IngestState :=
  let outcome := s.workerOutcome batch schedule name
  let applied := applyProjectOutcome (settingsAt batch (schedule.appliedAt name)) name outcome
    s.db s.changeSeq
  match outcome, applied.value with
  | .retry _ _, _ => s.retry batch schedule name
  | .rateLimited child seconds, _ =>
      .ok { s with
        penalties := s.penalties ++ [(child, seconds)]
        summary.rateLimited := s.summary.rateLimited ++ [name] }
  | _, .ok (some result) => .ok ((s.commit applied).succeed name result)
  | _, .ok none => .error (.other "AssertionError")
  | _, .error e => .error e

end Complete

end IngestState

end RerollSync.Ingest
