import RerollSync.Ingest.Plan

/-!
# Applying a project sync

`_build_project_write_op` and `_build_gone_write_op` of `ingest.py`: the plan's
inserts, updates and tombstones and the `pypi_index` row in one op, and the
tombstoning of a project that is gone.
-/

namespace RerollSync.Ingest

open RerollSync.Store RerollSync.Support

/-- `NO_SIDECAR_SKIP_REASON`. -/
def noSidecarSkipReason : String := "no_sidecar"

/-- `DEFAULT_GONE_CHUNK_SIZE`. -/
def defaultGoneChunkSize : ℕ := 5000

/-- What the ops read besides the plan: `now_iso`, `reroll_version`, and Python's
`repr` of a string. -/
structure Settings where
  nowIso : String
  rerollVersion : String
  repr : String → String

/-- `ProjectApplyResult`. -/
structure ApplyResult where
  inserted : ℕ
  updated : ℕ
  tombstoned : ℕ
  projectGone : Bool := false
deriving DecidableEq

/-- The row inserted for a new wheel. -/
def newWheelRow (plan : ProjectPlan) (settings : Settings) (seq : ℕ) (w : NewWheel) :
    WheelRow where
  filename := w.filename
  project := plan.project
  condaName := none
  state := w.state
  lane := 0
  url := w.url
  wheelSha256 := w.wheelSha256
  metadataSha256 := w.metadataSha256
  size := w.size
  uploadTime := w.uploadTime
  requiresPython := w.requiresPython
  yanked := w.yanked
  yankedReason := w.yankedReason
  blobSha256 := w.blobSha256
  serial := plan.remoteSerial
  changeSeq := seq
  deletedAt := none
  updatedAt := settings.nowIso

/-- The assignments of `changes`. -/
def Changes.apply (c : Changes) (row : WheelRow) : WheelRow :=
  { row with
    deletedAt := if c.clearDeletedAt then none else row.deletedAt
    state := c.state.getD row.state
    url := c.url.getD row.url
    wheelSha256 := c.wheelSha256.getD row.wheelSha256
    metadataSha256 := c.metadataSha256.getD row.metadataSha256
    size := c.size.getD row.size
    uploadTime := c.uploadTime.getD row.uploadTime
    requiresPython := c.requiresPython.getD row.requiresPython
    yanked := (c.yanked.map Prod.fst).getD row.yanked
    yankedReason := (c.yanked.map Prod.snd).getD row.yankedReason
    blobSha256 := if c.clearBlobSha256 then none else row.blobSha256
    condaName := if c.clearCondaName then none else row.condaName }

/-- The id of the wheel that holds a filename. -/
def wheelIdOf (filename : String) (db : Db) : Option ℕ :=
  (db.wheels.rows.find? fun r => r.2.filename = filename).map Prod.fst

/-- The error row for a filename that another project holds. -/
def duplicateFilenameRow (settings : Settings) (project filename : String)
    (wheelId : Option ℕ) : ErrorRow where
  wheelId := wheelId
  errorCategory := "duplicate_filename"
  errorSubcat := some project
  details := some ("filename " ++ settings.repr filename ++
    " already exists under a different project")
  rerollVersion := settings.rerollVersion
  createdAt := settings.nowIso

/-- `_record_duplicate_filename`. -/
def recordDuplicateFilename (settings : Settings) (project filename : String) : Op Unit := do
  let wheelId ← Program.query (wheelIdOf filename)
  let _ ← Op.insert (Db.insertError (duplicateFilenameRow settings project filename wheelId))

/-- One turn of the loop over `new_wheels`: the number of rows inserted. -/
def insertNewWheel (settings : Settings) (plan : ProjectPlan) (w : NewWheel) : Op ℕ := do
  let seq ← Program.seq
  if ← Op.tryInsert (Db.insertWheel (newWheelRow plan settings seq w)) then
    match w.unlinkedBlobFilename with
    | none => return 1
    | some filename =>
        let _ ← Op.deleteUnlinkedBlob filename
        return 1
  else
    recordDuplicateFilename settings plan.project w.filename
    return 0

/-- One turn of the loop over `changed_wheels`. -/
def applyChange (settings : Settings) (change : ChangedWheel) : Op Unit := do
  let seq ← Program.seq
  let _ ← Op.updateWheel change.wheelId fun row =>
    { change.changes.apply row with changeSeq := seq, updatedAt := settings.nowIso }
  if change.deleteNoSidecarSkip then
    let _ ← Op.deleteSkips fun id row =>
      id = change.wheelId ∧ row.reason = noSidecarSkipReason ∧ row.permanent
  if change.deleteRepodata then
    let _ ← Op.deleteRepodata fun id => id = change.wheelId

/-- The assignments that tombstone a wheel. -/
def tombstoned (nowIso : String) (seq : ℕ) (row : WheelRow) : WheelRow :=
  { row with deletedAt := some nowIso, state := .deleted, changeSeq := seq, updatedAt := nowIso }

/-- One turn of the loops that tombstone. -/
def tombstone (nowIso : String) (wheelId : ℕ) : Op Unit := do
  let seq ← Program.seq
  let _ ← Op.updateWheel wheelId (tombstoned nowIso seq)

/-- `_build_project_write_op._apply`. -/
def projectApply (settings : Settings) (plan : ProjectPlan) : Op ApplyResult := do
  let inserted ← Program.each (insertNewWheel settings plan) plan.newWheels
  let updated ← Program.each (applyChange settings) plan.changedWheels
  let deleted ← Program.each (tombstone settings.nowIso) plan.vanishedWheelIds
  let _ ← Op.upsertIndex plan.project ⟨plan.remoteSerial, settings.nowIso⟩
  return ⟨inserted.sum, updated.length, deleted.length, false⟩

/-- `SELECT id FROM wheels WHERE project = ? AND deleted_at IS NULL`. -/
def liveWheelIds (project : String) (db : Db) : List ℕ :=
  (db.wheels.filter fun _ row => row.project = project ∧ row.deletedAt = none).keys

/-- The `while True` of `_build_gone_write_op._apply` from the rows of one
`SELECT` on.  A turn tombstones what it selected, so `turns` bounds the turns. -/
def goneLoop (name nowIso : String) : ℕ → List ℕ → Op ℕ
  | _, [] => return 0
  | 0, _ => return 0
  | turns + 1, ids => do
      let deleted ← Program.each (tombstone nowIso) ids
      let rows ← Program.query fun db => (liveWheelIds name db).take defaultGoneChunkSize
      let rest ← goneLoop name nowIso turns rows
      return deleted.length + rest

/-- `_build_gone_write_op._apply`. -/
def goneApply (name nowIso : String) : Op ApplyResult := do
  let ids ← Program.query (liveWheelIds name)
  let deleted ← goneLoop name nowIso ids.length (ids.take defaultGoneChunkSize)
  let _ ← Op.deleteIndex name
  return ⟨0, 0, deleted, true⟩

/-- `_build_quarantine_error_write_op._apply`. -/
def quarantineErrorApply (settings : Settings) (project : String) (attempts : ℕ) : Op Unit := do
  let _ ← Op.insert (Db.insertError
    { wheelId := none
      errorCategory := "project_ingest_quarantined"
      errorSubcat := some project
      details := some ("project " ++ settings.repr project ++ " quarantined after " ++
        toString attempts ++ " attempts")
      rerollVersion := settings.rerollVersion
      createdAt := settings.nowIso })

end RerollSync.Ingest
