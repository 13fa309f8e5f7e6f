import RerollSync.Dispatcher.Queue

/-!
# Campaigns

`Dispatcher.reprocess` and `unquarantine`: a campaign reads the ids of a chunk
from one snapshot and resets them in an op of its own, which runs later.  A chunk is
of a size that sqlite takes as a `LIMIT` and as a number of parameters, and the texts
of a selector have an encoding.
-/

namespace RerollSync.Dispatcher

open RerollSync.Store RerollSync.Support

/-- `Selector`. -/
inductive Selector
  | rerollVersionBelow (version : String)
  | state (state : WheelState)
  | project (project : String)
  | skippedOnly
deriving DecidableEq

/-! ## Chunk queries -/

/-- `_project_chunk_query`. -/
def projectChunkQuery (project : String) (lastId limit : ℕ) (db : Db) : List ℕ :=
  (((db.wheels.filter fun id row =>
    row.project = project ∧ row.state ≠ .deleted ∧ lastId < id).keys).insertionSort (· ≤ ·)).take
      limit

/-- `_state_chunk_query`. -/
def stateChunkQuery (state : WheelState) (cursor : Option Cursor) (limit : ℕ) (db : Db) :
    List (ℕ × WheelRow) :=
  queuePage (fun id row =>
    row.state = state ∧ row.state ≠ .deleted ∧ laneProjectIdKeyset cursor id row) limit db

/-- Not a tombstone: `JOIN wheels w ... WHERE w.state != DELETED`. -/
def live (db : Db) (id : ℕ) : Bool := (db.wheels.get? id).any fun row => row.state ≠ .deleted

/-- `_reroll_version_wheel_repodata_chunk_query`. -/
def rerollVersionWheelRepodataChunkQuery (version : String) (limit : ℕ) (db : Db) : List ℕ :=
  (((db.wheelRepodata.rows.filter fun r => r.2.rerollVersion < version ∧ live db r.1).insertionSort
    fun a b => a.2.rerollVersion ≤ b.2.rerollVersion).take limit).map Prod.fst

/-- `_reroll_version_skips_chunk_query`; the version of a non-permanent skip
that has none is null, and no comparison with null holds. -/
def rerollVersionSkipsChunkQuery (version : String) (limit : ℕ) (db : Db) : List ℕ :=
  (((db.skips.rows.filter fun r =>
    !r.2.permanent ∧ r.2.rerollVersion.any (· < version) ∧ live db r.1.1).insertionSort
      fun a b => a.2.rerollVersion.getD "" ≤ b.2.rerollVersion.getD "").take limit).map fun r =>
        r.1.1

/-- The position of a campaign's generator: `_project_chunks` and `_state_chunks`
keep a keyset cursor, `_reroll_version_below_chunks` two phases without one. -/
inductive ChunkPage
  | project (project : String) (lastId : ℕ)
  | state (state : WheelState) (cursor : Option Cursor)
  | rerollVersionWheelRepodata (version : String)
  | rerollVersionSkips (version : String)
deriving DecidableEq

/-- The ids a generator yields from one snapshot. -/
def ChunkPage.ids (page : ChunkPage) (chunkSize : ℕ) (db : Db) : List ℕ :=
  match page with
  | .project name lastId => projectChunkQuery name lastId chunkSize db
  | .state queue cursor => (stateChunkQuery queue cursor chunkSize db).map Prod.fst
  | .rerollVersionWheelRepodata version =>
      rerollVersionWheelRepodataChunkQuery version chunkSize db
  | .rerollVersionSkips version => (rerollVersionSkipsChunkQuery version chunkSize db).eraseDups

/-- The generator a selector is dispatched to: `_selector_chunks`. -/
def Selector.yields : Selector → ChunkPage → Bool
  | .rerollVersionBelow version, page =>
      page = .rerollVersionWheelRepodata version ∨ page = .rerollVersionSkips version
  | .project name, .project name' _ => name' = name
  | .state queue, .state queue' _ => queue' = queue
  | .skippedOnly, .state queue' _ => queue' = .skipped
  | _, _ => false

/-! ## Chunk ops -/

/-- `_reprocess_chunk_op._apply`; the result is the number of rows affected. -/
def reprocessChunkApply (chunkIds : List ℕ) (selector : Selector) (nowIso : String) : Op ℕ := do
  let _ ← Op.deleteRepodata fun id => id ∈ chunkIds
  if let .rerollVersionBelow version := selector then
    let _ ← Op.deleteSkips fun id row =>
      !row.permanent ∧ row.rerollVersion.any (· < version) ∧ id ∈ chunkIds
  let _ ← Op.deleteWork fun id _ => id ∈ chunkIds
  let affected ← Program.each (fun wheelId => do
    let seq ← Program.seq
    Op.updateWheel wheelId fun row =>
      { row with state := .needConvert, lane := 1, changeSeq := seq, updatedAt := nowIso })
    chunkIds
  return affected.sum

/-- `_quarantined_chunk_query`; without `ORDER BY`, sqlite scans the rows it
finds in an order of its own, here the order of the table. -/
def quarantinedChunkQuery (project : Option String) (limit : ℕ) (db : Db) : List ℕ :=
  ((db.wheels.filter fun _ row =>
    row.state = .quarantined ∧ project.all (· = row.project)).keys).take limit

/-- `_unquarantine_chunk_op._apply`. -/
def unquarantineChunkApply (chunkIds : List ℕ) (nowIso : String) : Op ℕ := do
  let _ ← Op.deleteWork fun id _ => id ∈ chunkIds
  let affected ← Program.each (fun wheelId => do
    let seq ← Program.seq
    Op.updateWheels (fun id row => id = wheelId ∧ row.state = .quarantined)
      (enterState .needMetadata seq nowIso))
    chunkIds
  return affected.sum

end RerollSync.Dispatcher
