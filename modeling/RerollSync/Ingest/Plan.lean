import RerollSync.Dispatcher.Reprocess
import Mathlib.Data.Rat.Init

/-!
# Planning a project sync

`sync_project` of `ingest.py`: the fetched page is compared with the rows of a
snapshot, and every write that makes the rows match is collected in a plan.  The reads
are in chunks that sqlite takes as a `LIMIT` and as a number of parameters.
-/

namespace RerollSync.Ingest

open RerollSync.Store RerollSync.Support

/-- `ProjectFile`. -/
structure ProjectFile where
  filename : String
  url : String
  wheelSha256 : Option String := none
  metadataSha256 : Option String := none
  hasMetadata : Bool := false
  size : Option ℤ := none
  uploadTime : Option String := none
  requiresPython : Option String := none
  yanked : Bool := false
  yankedReason : Option String := none
deriving DecidableEq

/-- `ProjectPage`. -/
structure ProjectPage where
  lastSerial : ℤ
  files : List ProjectFile
deriving DecidableEq

/-- `_NewWheel`. -/
structure NewWheel where
  filename : String
  url : String
  wheelSha256 : Option String
  metadataSha256 : Option String
  size : Option ℤ
  uploadTime : Option String
  requiresPython : Option String
  yanked : Bool
  yankedReason : Option String
  state : WheelState
  blobSha256 : Option String
  unlinkedBlobFilename : Option String
deriving DecidableEq

/-- The `changes` of a `_ChangedWheel`: the columns it sets.  `deleted_at`,
`blob_sha256` and `conda_name` are only ever set to null, `yanked` and
`yanked_reason` only together. -/
structure Changes where
  clearDeletedAt : Bool := false
  state : Option WheelState := none
  url : Option String := none
  wheelSha256 : Option (Option String) := none
  metadataSha256 : Option (Option String) := none
  size : Option (Option ℤ) := none
  uploadTime : Option (Option String) := none
  requiresPython : Option (Option String) := none
  yanked : Option (Bool × Option String) := none
  clearBlobSha256 : Bool := false
  clearCondaName : Bool := false
deriving DecidableEq

/-- `_ChangedWheel`. -/
structure ChangedWheel where
  wheelId : ℕ
  changes : Changes
  deleteNoSidecarSkip : Bool
  deleteRepodata : Bool
deriving DecidableEq

/-- `ProjectPlan`. -/
structure ProjectPlan where
  project : String
  remoteSerial : ℤ
  newWheels : List NewWheel
  changedWheels : List ChangedWheel
  vanishedWheelIds : List ℕ
deriving DecidableEq

/-- The state of a wheel nothing is archived for. -/
def initialState (file : ProjectFile) : WheelState :=
  if file.hasMetadata then .needMetadata else .noMetadata

/-- `_plan_new_wheel`. -/
def planNewWheel (file : ProjectFile) (unlinkedSha256 : Option String) : NewWheel where
  filename := file.filename
  url := file.url
  wheelSha256 := file.wheelSha256
  metadataSha256 := file.metadataSha256
  size := file.size
  uploadTime := file.uploadTime
  requiresPython := file.requiresPython
  yanked := file.yanked
  yankedReason := file.yankedReason
  state := if unlinkedSha256.isSome then .needConvert else initialState file
  blobSha256 := unlinkedSha256
  unlinkedBlobFilename := unlinkedSha256.map fun _ => file.filename

/-- The branch of `_diff_common` for a tombstoned row: every column is refreshed. -/
def restore (file : ProjectFile) : Changes where
  clearDeletedAt := true
  state := some (initialState file)
  url := some file.url
  wheelSha256 := some file.wheelSha256
  metadataSha256 := some file.metadataSha256
  size := some file.size
  uploadTime := some file.uploadTime
  requiresPython := some file.requiresPython
  yanked := some (file.yanked, file.yankedReason)
  clearBlobSha256 := true

/-- The archived bytes are not the ones the page names. -/
def hashMismatch (row : WheelRow) (file : ProjectFile) : Bool :=
  match row.blobSha256, file.metadataSha256 with
  | some blob, some hash => hash ≠ blob
  | _, _ => false

/-- A sidecar appeared for a wheel that had none. -/
def sidecarAppeared (row : WheelRow) (file : ProjectFile) : Bool :=
  row.state = .noMetadata ∧ file.hasMetadata

/-- A column of the diff: set when the page disagrees. -/
def differing {α : Type} [DecidableEq α] (stored remote : α) : Option α :=
  if stored = remote then none else some remote

/-- The branch of `_diff_common` for a live row. -/
def diffColumns (row : WheelRow) (file : ProjectFile) : Changes where
  state :=
    differing row.state
      (if hashMismatch row file ∨ sidecarAppeared row file then .needMetadata else row.state)
  url := differing row.url file.url
  wheelSha256 := differing row.wheelSha256 file.wheelSha256
  metadataSha256 := differing row.metadataSha256 file.metadataSha256
  size := differing row.size file.size
  uploadTime := differing row.uploadTime file.uploadTime
  requiresPython := differing row.requiresPython file.requiresPython
  yanked := differing (row.yanked, row.yankedReason) (file.yanked, file.yankedReason)
  clearBlobSha256 := hashMismatch row file
  clearCondaName := hashMismatch row file

/-- `_diff_common`. -/
def diffCommon (wheelId : ℕ) (row : WheelRow) (file : ProjectFile) : Option ChangedWheel :=
  if row.deletedAt.isSome then some ⟨wheelId, restore file, false, false⟩
  else if diffColumns row file = {} then none
  else some ⟨wheelId, diffColumns row file, sidecarAppeared row file, hashMismatch row file⟩

/-! ## Reading the snapshot -/

/-- `file.filename.endswith(".whl")`. -/
def isWheel (filename : String) : Bool := ".whl".toList <:+ filename.toList

/-- The page's wheels by filename; the last entry of a name counts. -/
def remoteFiles (page : ProjectPage) : Table String ProjectFile :=
  (page.files.filter fun file => isWheel file.filename).foldl
    (fun t file => t.set file.filename file) ∅

/-- `_read_project_wheels`: the project's rows by filename. -/
def readProjectWheels (project : String) (db : Db) : Table String (ℕ × WheelRow) :=
  ((db.wheels.filter fun _ row => row.project = project).rows.insertionSort
    fun a b => a.1 ≤ b.1).foldl (fun t r => t.set r.2.filename r) ∅

/-- `_read_unlinked_blobs`. -/
def readUnlinkedBlobs (db : Db) (filename : String) : Option String :=
  (db.unlinkedBlobs.get? filename).map UnlinkedBlobRow.sha256

/-- `sorted(...)`. -/
def sorted (filenames : List String) : List String := filenames.insertionSort fun a b => a ≤ b

/-- The plan of `sync_project`, from the local rows and the unlinked blobs it read. -/
def planProject (name : String) (page : ProjectPage) (localRows : Table String (ℕ × WheelRow))
    (unlinked : String → Option String) : ProjectPlan where
  project := name
  remoteSerial := page.lastSerial
  newWheels :=
    (sorted ((remoteFiles page).keys.filter (· ∉ localRows.keys))).filterMap fun filename =>
      ((remoteFiles page).get? filename).map fun file => planNewWheel file (unlinked filename)
  changedWheels :=
    (sorted ((remoteFiles page).keys.filter (· ∈ localRows.keys))).filterMap fun filename => do
      let file ← (remoteFiles page).get? filename
      let row ← localRows.get? filename
      diffCommon row.1 row.2 file
  vanishedWheelIds :=
    (sorted (localRows.keys.filter (· ∉ (remoteFiles page).keys))).filterMap fun filename => do
      let row ← localRows.get? filename
      if row.2.deletedAt = none then some row.1 else none

/-- What `client.fetch_project` returns or raises. -/
inductive FetchedProject
  | page (page : ProjectPage)
  | notFound
  | rateLimited (child : String) (retryAfter : Option ℚ)
  | transient (message : String)
  | protocolError (message : String)

/-- `ProjectSyncOutcome`. -/
inductive SyncOutcome
  | ok (plan : ProjectPlan)
  | gone (project : String)
  | retry (reason details : String)
  | rateLimited (child : String) (seconds : ℚ)

/-- `sync_project`. -/
def syncProject (name : String) (fetched : FetchedProject) (db : Db) : SyncOutcome :=
  match fetched with
  | .page page =>
      .ok (planProject name page (readProjectWheels name db) (readUnlinkedBlobs db))
  | .notFound => .gone name
  | .rateLimited child retryAfter => .rateLimited child (retryAfter.getD 0)
  | .transient message => .retry "transient" message
  | .protocolError message => .retry "protocol_error" message

/-! ## What a plan is made of -/

theorem get?_readProjectWheels {name : String} {db : Db} {filename : String} {id : ℕ}
    {row : WheelRow} (h : (readProjectWheels name db).get? filename = some (id, row)) :
    db.wheels.get? id = some row ∧ row.project = name ∧ row.filename = filename := by
  rcases Table.get?_foldl_set (fun r : ℕ × WheelRow => r.2.filename) (fun r => r) _ _ h with
    hempty | ⟨r, hr, hname, rfl⟩
  · simp at hempty
  · have hmem := (List.mem_insertionSort _).mp hr
    obtain ⟨hrows, hproject⟩ := List.mem_filter.mp hmem
    exact ⟨Table.get?_eq_some_iff.mpr hrows, by simpa using hproject, hname⟩

/-- What is known of a plan computed from a snapshot: every change is the diff of
a row of the project, every vanished id is a live row of it, and no row is
changed twice. -/
structure PlannedFrom (name : String) (db : Db) (plan : ProjectPlan) : Prop where
  project : plan.project = name
  new : ∀ w ∈ plan.newWheels, ∃ file unlinked, w = planNewWheel file unlinked
  changed : ∀ c ∈ plan.changedWheels, ∃ row file, db.wheels.get? c.wheelId = some row ∧
    row.project = name ∧ diffCommon c.wheelId row file = some c
  changedOnce : (plan.changedWheels.map ChangedWheel.wheelId).Nodup
  vanished : ∀ id ∈ plan.vanishedWheelIds, ∃ row, db.wheels.get? id = some row ∧
    row.project = name ∧ row.deletedAt = none

theorem wheelId_of_diffCommon {id : ℕ} {row : WheelRow} {file : ProjectFile} {c : ChangedWheel}
    (h : diffCommon id row file = some c) : c.wheelId = id := by
  unfold diffCommon at h
  split at h
  · cases h
    rfl
  · split at h
    · cases h
    · cases h
      rfl

theorem plannedFrom_planProject (name : String) (page : ProjectPage) (db : Db)
    (unlinked : String → Option String) :
    PlannedFrom name db (planProject name page (readProjectWheels name db) unlinked) where
  project := rfl
  new w hw := by
    obtain ⟨filename, -, hfile⟩ := List.mem_filterMap.mp hw
    obtain ⟨file, -, rfl⟩ := Option.map_eq_some_iff.mp hfile
    exact ⟨file, _, rfl⟩
  changed c hc := by
    obtain ⟨filename, -, hdiff⟩ := List.mem_filterMap.mp hc
    obtain ⟨file, -, hrest⟩ := Option.bind_eq_some_iff.mp hdiff
    obtain ⟨⟨id, row⟩, hrow, hcommon⟩ := Option.bind_eq_some_iff.mp hrest
    obtain ⟨hget, hproject, -⟩ := get?_readProjectWheels hrow
    obtain rfl := wheelId_of_diffCommon hcommon
    exact ⟨row, file, hget, hproject, hcommon⟩
  changedOnce := by
    have hkeys : (sorted ((remoteFiles page).keys.filter
        (· ∈ (readProjectWheels name db).keys))).Nodup :=
      (List.perm_insertionSort _ _).nodup_iff.mpr ((remoteFiles page).nodup.filter _)
    simp only [planProject, List.map_filterMap]
    refine hkeys.filterMap fun filename filename' id hid hid' => ?_
    have hname : ∀ filename, id ∈ Option.map ChangedWheel.wheelId
        (do
          let file ← (remoteFiles page).get? filename
          let row ← (readProjectWheels name db).get? filename
          diffCommon row.1 row.2 file) →
        ∃ row, db.wheels.get? id = some row ∧ row.filename = filename := by
      intro filename h
      obtain ⟨c, hdiff, rfl⟩ := Option.map_eq_some_iff.mp h
      obtain ⟨file, -, hrest⟩ := Option.bind_eq_some_iff.mp hdiff
      obtain ⟨⟨id, row⟩, hrow, hcommon⟩ := Option.bind_eq_some_iff.mp hrest
      obtain ⟨hget, -, hname⟩ := get?_readProjectWheels hrow
      obtain rfl := wheelId_of_diffCommon hcommon
      exact ⟨row, hget, hname⟩
    obtain ⟨row, hrow, rfl⟩ := hname filename hid
    obtain ⟨row', hrow', rfl⟩ := hname filename' hid'
    obtain rfl : row = row' := by simpa [hrow] using hrow'
    rfl
  vanished id hid := by
    obtain ⟨filename, -, hvanished⟩ := List.mem_filterMap.mp hid
    obtain ⟨⟨id', row⟩, hrow, hlive⟩ := Option.bind_eq_some_iff.mp hvanished
    obtain ⟨hdeleted, rfl⟩ : row.deletedAt = none ∧ id' = id := by simpa using hlive
    obtain ⟨hget, hproject, -⟩ := get?_readProjectWheels hrow
    exact ⟨row, hget, hproject, hdeleted⟩

/-- A changed wheel's file is on the page, a vanished wheel's is not. -/
theorem vanished_not_changed (name : String) (page : ProjectPage) (db : Db)
    (unlinked : String → Option String) :
    ∀ c ∈ (planProject name page (readProjectWheels name db) unlinked).changedWheels,
      c.wheelId ∉
        (planProject name page (readProjectWheels name db) unlinked).vanishedWheelIds := by
  intro c hc hvanished
  obtain ⟨filename, hfilename, hdiff⟩ := List.mem_filterMap.mp hc
  obtain ⟨file, -, hrest⟩ := Option.bind_eq_some_iff.mp hdiff
  obtain ⟨⟨id, row⟩, hrow, hcommon⟩ := Option.bind_eq_some_iff.mp hrest
  obtain rfl := wheelId_of_diffCommon hcommon
  obtain ⟨gone, hgone, hid⟩ := List.mem_filterMap.mp hvanished
  obtain ⟨⟨id', row'⟩, hrow', hlive⟩ := Option.bind_eq_some_iff.mp hid
  obtain ⟨-, rfl⟩ : row'.deletedAt = none ∧ id' = c.wheelId := by simpa using hlive
  obtain ⟨hget, -, rfl⟩ := get?_readProjectWheels hrow
  obtain ⟨hget', -, rfl⟩ := get?_readProjectWheels hrow'
  obtain rfl : row = row' := by simpa [hget] using hget'
  have hon := (List.mem_filter.mp ((List.perm_insertionSort _ _).mem_iff.mp hfilename)).1
  have hoff := (List.mem_filter.mp ((List.perm_insertionSort _ _).mem_iff.mp hgone)).2
  simp [hon] at hoff

end RerollSync.Ingest
