import RerollSync.Support.Snapshot
import RerollSync.Ingest.Apply

/-!
# The archive connection's commits

`ArchiveStore.add` and `open_writer` commit on a connection of their own while
the writer runs a batch.  An op of the batch is lost exactly when such a commit
falls between the first statement of the batch and its first write.
-/

namespace RerollSync.Writer

open RerollSync.Support RerollSync.Store RerollSync.Dispatcher RerollSync.Ingest

/-- What the archive thread commits: the `blobs` row of `ArchiveStore.add`, the
`segments` row of `open_writer`. -/
inductive ArchiveCommit
  | add (sha256 : String) (row : BlobRow)
  | openWriter (segmentId : ℕ)

def ArchiveCommit.apply : ArchiveCommit → Db → Db
  | .add sha256 row, db => { db with blobs := db.blobs.insertNew sha256 row }
  | .openWriter segmentId, db =>
      { db with segments := db.segments.insertNew segmentId ⟨none, none, none, none⟩ }

/-- The archive commits by the statement of the batch they come right before. -/
def archiveCommits (schedule : ℕ → List ArchiveCommit) (k : ℕ) : List (Db → Db) :=
  (schedule k).map ArchiveCommit.apply

/-- The ops the dispatcher and the ingest submit. -/
inductive SubmittedOp
  | ok (settings : Dispatcher.Settings) (clock : Clock) (stage : Stage) (item : QueueItem)
      (outcome : Ok)
  | skip (settings : Dispatcher.Settings) (clock : Clock) (stage : Stage) (item : QueueItem)
      (outcome : Skip)
  | retry (settings : Dispatcher.Settings) (clock : Clock) (stage : Stage) (item : QueueItem)
      (outcome : Retry)
  | reprocessChunk (chunkIds : List ℕ) (selector : Selector) (nowIso : String)
  | unquarantineChunk (chunkIds : List ℕ) (nowIso : String)
  | syncProject (settings : Ingest.Settings) (plan : ProjectPlan)
  | gone (name nowIso : String)
  | projectQuarantined (settings : Ingest.Settings) (project : String) (attempts : ℕ)

/-- What `apply` returns. -/
inductive Applied
  | done
  | retry (result : RetryResult)
  | affected (rows : ℕ)
  | ingested (result : ApplyResult)
deriving DecidableEq

/-- `WriteOp.apply`. -/
def SubmittedOp.apply : SubmittedOp → Op Applied
  | .ok settings clock stage item outcome => do
      okApply settings clock stage item outcome
      return .done
  | .skip settings clock stage item outcome => do
      skipApply settings clock stage item outcome
      return .done
  | .retry settings clock stage item outcome => do
      let result ← retryApply settings clock stage item outcome
      return .retry result
  | .reprocessChunk chunkIds selector nowIso => do
      let rows ← reprocessChunkApply chunkIds selector nowIso
      return .affected rows
  | .unquarantineChunk chunkIds nowIso => do
      let rows ← unquarantineChunkApply chunkIds nowIso
      return .affected rows
  | .syncProject settings plan => do
      let result ← projectApply settings plan
      return .ingested result
  | .gone name nowIso => do
      let result ← goneApply name nowIso
      return .ingested result
  | .projectQuarantined settings project attempts => do
      quarantineErrorApply settings project attempts
      return .done

/-! ## Every op fails when its first write is refused -/

section FailsWhenBusy

open Snapshot

theorem failsWhenBusy_exec (f : Db → Db) (rowcount : Db → ℕ) :
    FailsWhenBusy OpError.locked (Op.exec f rowcount) := trivial

theorem failsWhenBusy_insert (f : Db → Option Db) :
    FailsWhenBusy OpError.locked (Op.insert f) := trivial

theorem failsWhenBusy_seq {α : Type} {g : ℕ → Op α} (h : ∀ n, FailsWhenBusy OpError.locked (g n)) :
    FailsWhenBusy OpError.locked (Program.seq >>= g) := failsWhenBusy_bind_right h

theorem failsWhenBusy_okApply (settings : Dispatcher.Settings) (clock : Clock) (stage : Stage)
    (item : QueueItem) (outcome : Ok) :
    FailsWhenBusy OpError.locked (okApply settings clock stage item outcome) :=
  failsWhenBusy_seq fun _ => failsWhenBusy_bind_left (failsWhenBusy_exec _ _)

theorem failsWhenBusy_skipApply (settings : Dispatcher.Settings) (clock : Clock) (stage : Stage)
    (item : QueueItem) (outcome : Skip) :
    FailsWhenBusy OpError.locked (skipApply settings clock stage item outcome) :=
  failsWhenBusy_seq fun _ => failsWhenBusy_bind_left (failsWhenBusy_exec _ _)

theorem failsWhenBusy_quarantine (settings : Dispatcher.Settings) (clock : Clock) (stage : Stage)
    (item : QueueItem) (outcome : Retry) (attempts : ℕ) :
    FailsWhenBusy OpError.locked (quarantine settings clock stage item outcome attempts) := by
  rw [quarantine]
  cases validateTransition item.state .quarantined with
  | error e => trivial
  | ok u => exact failsWhenBusy_seq fun _ => failsWhenBusy_bind_left (failsWhenBusy_exec _ _)

theorem failsWhenBusy_retryApply (settings : Dispatcher.Settings) (clock : Clock) (stage : Stage)
    (item : QueueItem) (outcome : Retry) :
    FailsWhenBusy OpError.locked (retryApply settings clock stage item outcome) := by
  refine failsWhenBusy_bind_right fun before => ?_
  by_cases h : before + 1 > settings.maxAttempts
  · simpa only [h, if_true] using
      failsWhenBusy_quarantine settings clock stage item outcome (before + 1)
  · simp only [h, if_false]
    exact failsWhenBusy_bind_left (failsWhenBusy_insert _)

/-- A sync writes the project's index row last, whatever its plan holds. -/
theorem failsWhenBusy_projectApply (settings : Ingest.Settings) (plan : ProjectPlan) :
    FailsWhenBusy OpError.locked (projectApply settings plan) :=
  failsWhenBusy_bind_right fun _ => failsWhenBusy_bind_right fun _ =>
    failsWhenBusy_bind_right fun _ => failsWhenBusy_bind_left (failsWhenBusy_exec _ _)

/-- The op for a gone project deletes the index row last, however many wheels
it tombstones. -/
theorem failsWhenBusy_goneApply (name nowIso : String) :
    FailsWhenBusy OpError.locked (goneApply name nowIso) :=
  failsWhenBusy_bind_right fun _ => failsWhenBusy_bind_right fun _ =>
    failsWhenBusy_bind_left (failsWhenBusy_exec _ _)

theorem failsWhenBusy_apply (op : SubmittedOp) : FailsWhenBusy OpError.locked op.apply := by
  cases op with
  | ok settings clock stage item outcome =>
      exact failsWhenBusy_bind_left (failsWhenBusy_okApply settings clock stage item outcome)
  | skip settings clock stage item outcome =>
      exact failsWhenBusy_bind_left (failsWhenBusy_skipApply settings clock stage item outcome)
  | retry settings clock stage item outcome =>
      exact failsWhenBusy_bind_left (failsWhenBusy_retryApply settings clock stage item outcome)
  | reprocessChunk chunkIds selector nowIso =>
      exact failsWhenBusy_bind_left (failsWhenBusy_bind_left (failsWhenBusy_exec _ _))
  | unquarantineChunk chunkIds nowIso =>
      exact failsWhenBusy_bind_left (failsWhenBusy_bind_left (failsWhenBusy_exec _ _))
  | syncProject settings plan =>
      exact failsWhenBusy_bind_left (failsWhenBusy_projectApply settings plan)
  | gone name nowIso => exact failsWhenBusy_bind_left (failsWhenBusy_goneApply name nowIso)
  | projectQuarantined settings project attempts =>
      exact failsWhenBusy_bind_left (failsWhenBusy_bind_left (failsWhenBusy_insert _))

end FailsWhenBusy

/-! ## Batches -/

/-- No op of a batch that would succeed on its own is lost to an archive commit. -/
def OpsKept (schedule : ℕ → List ArchiveCommit) (batch : List SubmittedOp) (db : Db)
    (changeSeq : ℕ) : Prop :=
  Snapshot.Kept (archiveCommits schedule) .locked (batch.map SubmittedOp.apply) db changeSeq

/-- What the ops of a batch do when the archive thread is idle. -/
def alone (schedule : ℕ → List ArchiveCommit) (batch : List SubmittedOp) (db : Db)
    (changeSeq : ℕ) : List (Except OpError Applied) :=
  (Snapshot.sequential (batch.map SubmittedOp.apply) (Snapshot.base (archiveCommits schedule) db)
    changeSeq).2

/-- The reads before the first write of a batch, and whether it writes. -/
def leadingReads (schedule : ℕ → List ArchiveCommit) (batch : List SubmittedOp) (db : Db)
    (changeSeq : ℕ) : ℕ × Bool :=
  Snapshot.leadingReads (batch.map SubmittedOp.apply)
    (Snapshot.base (archiveCommits schedule) db) changeSeq

/-- The archive thread does not commit between the first statement of the batch
and its first write. -/
def ArchiveQuiet (schedule : ℕ → List ArchiveCommit) (batch : List SubmittedOp) (db : Db)
    (changeSeq : ℕ) : Prop :=
  (leadingReads schedule batch db changeSeq).2 = true →
    ∀ k, 1 ≤ k → k ≤ (leadingReads schedule batch db changeSeq).1 → schedule k = []

/-- A batch loses no op to the archive connection if and only if the archive
thread does not commit between the first statement of the batch and its first
write, or no op of the batch would succeed anyway. -/
theorem opsKept_iff_archiveQuiet (schedule : ℕ → List ArchiveCommit) (batch : List SubmittedOp)
    (db : Db) (changeSeq : ℕ) :
    OpsKept schedule batch db changeSeq ↔
      ArchiveQuiet schedule batch db changeSeq ∨
        ∀ (i : ℕ) (a : Applied), (alone schedule batch db changeSeq)[i]? ≠ some (.ok a) := by
  have hbatch : ∀ p ∈ batch.map SubmittedOp.apply, Snapshot.FailsWhenBusy OpError.locked p := by
    intro p hp
    obtain ⟨op, -, rfl⟩ := List.mem_map.mp hp
    exact failsWhenBusy_apply op
  have hquiet : Snapshot.Undisturbed (archiveCommits schedule) (batch.map SubmittedOp.apply) db
      changeSeq ↔ ArchiveQuiet schedule batch db changeSeq := by
    simp only [Snapshot.Undisturbed, ArchiveQuiet, leadingReads, archiveCommits,
      List.map_eq_nil_iff]
  rw [OpsKept, Snapshot.kept_iff hbatch, hquiet]
  rfl

/-! ## A retry is lost -/

/-- A wheel waiting for its first fetch. -/
def pendingWheel : WheelRow where
  filename := "demo-1.0-py3-none-any.whl"
  project := "demo"
  condaName := none
  state := .needMetadata
  lane := 0
  url := "https://files.pythonhosted.org/demo-1.0-py3-none-any.whl"
  wheelSha256 := none
  metadataSha256 := none
  size := none
  uploadTime := none
  requiresPython := none
  yanked := false
  yankedReason := none
  blobSha256 := none
  serial := 1
  changeSeq := 1
  deletedAt := none
  updatedAt := "2026-01-01T00:00:00+00:00"

/-- A database with that wheel and the archive's open segment. -/
def pendingDb : Db :=
  { Db.empty with
    wheels := Table.empty.set 1 pendingWheel
    segments := Table.empty.set 0 ⟨none, none, none, none⟩ }

/-- The retry of a fetch that timed out. -/
def timedOut : SubmittedOp :=
  .retry ⟨"1.0", 8, fun _ => []⟩ ⟨"2026-01-01T00:00:01+00:00", fun _ => "2026-01-01T00:00:31+00:00"⟩
    .fetch ⟨1, "demo", 0, .needMetadata⟩ ⟨"pypi_transient_error", "timed out"⟩

/-- The archive thread stores a blob between the `SELECT` of the retry and its
`INSERT`. -/
def blobBeforeSecond (k : ℕ) : List ArchiveCommit :=
  if k = 1 then [.add "b1" ⟨0, 0, 0, 10⟩] else []

/-- The retry would be recorded as the first attempt; it raises instead, and no
`work` row is committed. -/
theorem archive_commit_loses_retry :
    alone blobBeforeSecond [timedOut] pendingDb 1 = [.ok (.retry (.retried 1))] ∧
      (Snapshot.commitBatch (archiveCommits blobBeforeSecond) .locked
        ([timedOut].map SubmittedOp.apply) pendingDb 1).2 = [.error .locked] ∧
      ¬OpsKept blobBeforeSecond [timedOut] pendingDb 1 := by
  have halone : alone blobBeforeSecond [timedOut] pendingDb 1 =
      [.ok (.retry (.retried 1))] := by decide
  have hlost : (Snapshot.commitBatch (archiveCommits blobBeforeSecond) .locked
      ([timedOut].map SubmittedOp.apply) pendingDb 1).2 = [.error .locked] := by decide +kernel
  refine ⟨halone, hlost, fun hkept => ?_⟩
  have h := hkept.1 0 (.retry (.retried 1)) (by
    change (alone blobBeforeSecond [timedOut] pendingDb 1)[0]? = _
    rw [halone]
    rfl)
  rw [hlost] at h
  cases h

end RerollSync.Writer
