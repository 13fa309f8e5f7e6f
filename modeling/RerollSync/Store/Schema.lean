import RerollSync.Support.Table
import RerollSync.Support.Program
import Mathlib.Algebra.GroupWithZero.Nat
import Mathlib.Data.Int.Basic
import Mathlib.Data.List.MinMax

/-!
# The sqlite database

The tables of `schema.py` with all their columns, the wheel states and the
allowed transitions between them, and the statement shapes the ops are made
of.  An id is the primary key of its table's rows; a fresh one follows the
largest in use.  Foreign keys are enforced, as on the writer's connection.
-/

namespace RerollSync.Store

open RerollSync.Support

/-- A byte string. -/
abbrev Bytes := List UInt8

/-- `WheelState`. -/
inductive WheelState
  | needMetadata
  | noMetadata
  | needConvert
  | ready
  | skipped
  | quarantined
  | deleted
deriving DecidableEq, Repr

/-- `ALLOWED_TRANSITIONS`. -/
def allowedTransitions : WheelState → List WheelState
  | .needMetadata => [.needConvert, .noMetadata, .quarantined]
  | .noMetadata => [.needMetadata]
  | .needConvert => [.ready, .skipped, .quarantined]
  | .ready => [.needConvert, .deleted]
  | .skipped => [.needConvert]
  | .quarantined => [.needMetadata]
  | .deleted => []

/-- `Stage`: the values of the `stage` columns. -/
inductive Stage
  | fetch
  | convert
deriving DecidableEq, Repr

/-! ## Rows -/

/-- A row of `pypi_index`, keyed by project name. -/
structure IndexRow where
  serial : ℤ
  updatedAt : String
deriving DecidableEq

/-- A row of `wheels`, keyed by id. -/
structure WheelRow where
  filename : String
  project : String
  condaName : Option String
  state : WheelState
  lane : ℕ
  url : String
  wheelSha256 : Option String
  metadataSha256 : Option String
  size : Option ℤ
  uploadTime : Option String
  requiresPython : Option String
  yanked : Bool
  yankedReason : Option String
  blobSha256 : Option String
  serial : ℤ
  changeSeq : ℕ
  deletedAt : Option String
  updatedAt : String
deriving DecidableEq

/-- A row of `segments`, keyed by id. -/
structure SegmentRow where
  sealedAt : Option String
  bytes : Option ℕ
  records : Option ℕ
  footerSha : Option String
deriving DecidableEq

/-- A row of `blobs`, keyed by the hash of the bytes it locates. -/
structure BlobRow where
  segmentId : ℕ
  blockNo : ℕ
  offset : ℕ
  length : ℕ
deriving DecidableEq

/-- A row of `wheel_repodata`, keyed by wheel id. -/
structure RepodataRow where
  repodataZst : Bytes
  nameConvZst : Option Bytes
  requiresPrerelease : Bool
  rerollVersion : String
deriving DecidableEq

/-- A row of `skips`, keyed by wheel id and stage. -/
structure SkipRow where
  reason : String
  permanent : Bool
  rerollVersion : Option String
  createdAt : String
deriving DecidableEq

/-- A row of `work`, keyed by wheel id and stage. -/
structure WorkRow where
  attempts : ℕ
  nextAttemptAt : String
  lastError : Option String
  quarantinedAt : Option String
deriving DecidableEq

/-- A row of `errors`, keyed by id. -/
structure ErrorRow where
  wheelId : Option ℕ
  errorCategory : String
  errorSubcat : Option String
  details : Option String
  rerollVersion : String
  createdAt : String
deriving DecidableEq

/-- A row of `unlinked_blobs`, keyed by filename. -/
structure UnlinkedBlobRow where
  sha256 : String
  notedAt : String
deriving DecidableEq

/-- `SCHEMA`. -/
structure Db where
  pypiIndex : Table String IndexRow
  wheels : Table ℕ WheelRow
  segments : Table ℕ SegmentRow
  blobs : Table String BlobRow
  wheelRepodata : Table ℕ RepodataRow
  skips : Table (ℕ × Stage) SkipRow
  work : Table (ℕ × Stage) WorkRow
  errors : Table ℕ ErrorRow
  unlinkedBlobs : Table String UnlinkedBlobRow
deriving DecidableEq

/-- The database `init_db` creates. -/
def Db.empty : Db := ⟨∅, ∅, ∅, ∅, ∅, ∅, ∅, ∅, ∅⟩

/-- The id sqlite gives a new row. -/
def nextId {ρ : Type} (t : Table ℕ ρ) : ℕ := t.keys.foldr max 0 + 1

theorem get?_nextId {ρ : Type} (t : Table ℕ ρ) : t.get? (nextId t) = none := by
  refine Table.get?_eq_none_iff.mpr fun hmem => ?_
  have hle : nextId t ≤ t.keys.foldr max 0 := List.le_max_of_le' 0 hmem le_rfl
  simp only [nextId] at hle
  omega

/-! ## Statements

Each definition is the effect of one statement on the database.  An update or a
delete always succeeds; an insert is refused when it violates a constraint.
-/

namespace Db

/-- `UPDATE wheels SET ... WHERE ...`. -/
def updateWheels (p : ℕ → WheelRow → Bool) (f : WheelRow → WheelRow) (db : Db) : Db :=
  { db with wheels := db.wheels.modify fun id row => if p id row then f row else row }

/-- `UPDATE wheels SET ... WHERE id = ?`. -/
def updateWheel (id : ℕ) (f : WheelRow → WheelRow) (db : Db) : Db :=
  db.updateWheels (fun id' _ => id' = id) f

/-- `DELETE FROM wheel_repodata WHERE wheel_id IN (...)`. -/
def deleteRepodata (p : ℕ → Bool) (db : Db) : Db :=
  { db with wheelRepodata := db.wheelRepodata.filter fun id _ => !p id }

/-- `DELETE FROM skips WHERE ...`. -/
def deleteSkips (p : ℕ → SkipRow → Bool) (db : Db) : Db :=
  { db with skips := db.skips.filter fun key row => !p key.1 row }

/-- `DELETE FROM work WHERE ...`. -/
def deleteWork (p : ℕ → Stage → Bool) (db : Db) : Db :=
  { db with work := db.work.filter fun key _ => !p key.1 key.2 }

/-- `DELETE FROM unlinked_blobs WHERE filename = ?`. -/
def deleteUnlinkedBlob (filename : String) (db : Db) : Db :=
  { db with unlinkedBlobs := db.unlinkedBlobs.filter fun key _ => key ≠ filename }

/-- `INSERT INTO pypi_index ... ON CONFLICT(name) DO UPDATE`. -/
def upsertIndex (name : String) (row : IndexRow) (db : Db) : Db :=
  { db with pypiIndex := db.pypiIndex.set name row }

/-- `DELETE FROM pypi_index WHERE name = ?`. -/
def deleteIndex (name : String) (db : Db) : Db :=
  { db with pypiIndex := db.pypiIndex.filter fun key _ => key ≠ name }

/-- A foreign key to `wheels`. -/
def hasWheel (id : ℕ) (db : Db) : Bool := (db.wheels.get? id).isSome

/-- `INSERT INTO wheels`: filenames are unique. -/
def insertWheel (row : WheelRow) (db : Db) : Option Db :=
  if db.wheels.rows.any fun r => r.2.filename = row.filename then none
  else some { db with wheels := db.wheels.insertNew (nextId db.wheels) row }

/-- `INSERT INTO wheel_repodata ... ON CONFLICT(wheel_id) DO UPDATE`. -/
def upsertRepodata (id : ℕ) (row : RepodataRow) (db : Db) : Option Db :=
  if db.hasWheel id then some { db with wheelRepodata := db.wheelRepodata.set id row } else none

/-- `INSERT INTO skips ... ON CONFLICT(wheel_id, stage) DO UPDATE`. -/
def upsertSkip (id : ℕ) (stage : Stage) (row : SkipRow) (db : Db) : Option Db :=
  if db.hasWheel id then some { db with skips := db.skips.set (id, stage) row } else none

/-- `INSERT INTO work ... ON CONFLICT(wheel_id, stage) DO UPDATE SET ...`, where
`update` sets the named columns of a row already there. -/
def upsertWork (id : ℕ) (stage : Stage) (row : WorkRow) (update : WorkRow → WorkRow) (db : Db) :
    Option Db :=
  if db.hasWheel id then
    some { db with
      work := db.work.set (id, stage) (((db.work.get? (id, stage)).map update).getD row) }
  else none

/-- `INSERT INTO errors`. -/
def insertError (row : ErrorRow) (db : Db) : Option Db :=
  if row.wheelId.all (db.hasWheel ·) then
    some { db with errors := db.errors.insertNew (nextId db.errors) row }
  else none

/-- `INSERT INTO segments (id)`. -/
def insertSegment (id : ℕ) (db : Db) : Option Db :=
  if (db.segments.get? id).isSome then none
  else some { db with segments := db.segments.insertNew id ⟨none, none, none, none⟩ }

/-- `UPDATE segments SET sealed_at = ?, bytes = ?, records = ?, footer_sha = ? WHERE id = ?`. -/
def updateSegment (id : ℕ) (row : SegmentRow) (db : Db) : Db :=
  { db with segments := db.segments.modify fun id' row' => if id' = id then row else row' }

/-- `INSERT OR IGNORE INTO blobs`; the segment must exist. -/
def insertBlob (sha256 : String) (row : BlobRow) (db : Db) : Option Db :=
  if (db.blobs.get? sha256).isSome then some db
  else if (db.segments.get? row.segmentId).isSome then
    some { db with blobs := db.blobs.insertNew sha256 row }
  else none

/-- A statement on one wheel reaches that wheel only. -/
def atWheel (id : ℕ) (f : WheelRow → WheelRow) (id' : ℕ) (row : WheelRow) : WheelRow :=
  if id' = id then f row else row

theorem wheels_updateWheel (id : ℕ) (f : WheelRow → WheelRow) (db : Db) :
    (db.updateWheel id f).wheels = db.wheels.modify (atWheel id f) := by
  simp only [updateWheel, updateWheels]
  exact Table.modify_congr fun k r _ => by simp [atWheel]

@[simp] theorem hasWheel_updateWheels (p : ℕ → WheelRow → Bool) (f : WheelRow → WheelRow) (db : Db)
    (id : ℕ) : (db.updateWheels p f).hasWheel id = db.hasWheel id := by
  simp [hasWheel, updateWheels]

@[simp] theorem hasWheel_updateWheel (id id' : ℕ) (f : WheelRow → WheelRow) (db : Db) :
    (db.updateWheel id f).hasWheel id' = db.hasWheel id' := hasWheel_updateWheels _ _ _ _

theorem hasWheel_iff {id : ℕ} {db : Db} :
    db.hasWheel id = true ↔ ∃ row, db.wheels.get? id = some row := by
  rw [hasWheel, Option.isSome_iff_exists]

def addWheel (row : WheelRow) (db : Db) : Db :=
  { db with wheels := db.wheels.insertNew (nextId db.wheels) row }

def setRepodata (id : ℕ) (row : RepodataRow) (db : Db) : Db :=
  { db with wheelRepodata := db.wheelRepodata.set id row }

def setSkip (id : ℕ) (stage : Stage) (row : SkipRow) (db : Db) : Db :=
  { db with skips := db.skips.set (id, stage) row }

def setWork (id : ℕ) (stage : Stage) (row : WorkRow) (db : Db) : Db :=
  { db with work := db.work.set (id, stage) row }

def addError (row : ErrorRow) (db : Db) : Db :=
  { db with errors := db.errors.insertNew (nextId db.errors) row }

theorem upsertRepodata_eq {id : ℕ} {db : Db} (h : db.hasWheel id = true) (row : RepodataRow) :
    db.upsertRepodata id row = some (db.setRepodata id row) := if_pos h

theorem upsertSkip_eq {id : ℕ} {db : Db} (h : db.hasWheel id = true) (stage : Stage)
    (row : SkipRow) : db.upsertSkip id stage row = some (db.setSkip id stage row) := if_pos h

theorem upsertWork_eq {id : ℕ} {db : Db} (h : db.hasWheel id = true) (stage : Stage)
    (row : WorkRow) (update : WorkRow → WorkRow) :
    db.upsertWork id stage row update =
      some (db.setWork id stage (((db.work.get? (id, stage)).map update).getD row)) := if_pos h

theorem insertWheel_eq_some_iff {row : WheelRow} {db db' : Db} :
    db.insertWheel row = some db' ↔
      (∀ r ∈ db.wheels.rows, r.2.filename ≠ row.filename) ∧ db' = db.addWheel row := by
  rw [insertWheel, Option.ite_none_left_eq_some]
  refine and_congr (by simp) ?_
  rw [Option.some_inj]
  exact eq_comm

theorem insertError_eq {row : ErrorRow} {db : Db} (h : row.wheelId.all (db.hasWheel ·) = true) :
    db.insertError row = some (db.addError row) := if_pos h

end Db

/-! ## Ops -/

/-- The exceptions an op raises: `IllegalTransitionError`, `sqlite3.IntegrityError`,
`sqlite3.OperationalError` for a lock it cannot have, and any other. -/
inductive OpError
  | illegalTransition (current next : WheelState)
  | integrity
  | locked
  | other (exception : String)
deriving DecidableEq

/-- The body of a `WriteOp`: a program of statements over the database. -/
abbrev Op := Program Db OpError

namespace Op

/-- Execute a statement that violates no constraint; its row count is `rowcount`. -/
def exec (f : Db → Db) (rowcount : Db → ℕ) : Op ℕ :=
  Program.write fun db => .ok (f db, rowcount db)

/-- Execute an `INSERT`. -/
def insert (f : Db → Option Db) : Op ℕ :=
  Program.write fun db =>
    match f db with
    | some db' => .ok (db', 1)
    | none => .error .integrity

/-- Execute an `INSERT` inside `try: ... except sqlite3.IntegrityError`; `false`
when it was refused.  Every other error is raised. -/
def tryInsert (f : Db → Option Db) : Op Bool := do
  match ← Program.attempt (fun db =>
    match f db with
    | some db' => .ok (db', 1)
    | none => .error .integrity) with
  | .ok _ => return true
  | .error .integrity => return false
  | .error e => Program.raise e

def updateWheels (p : ℕ → WheelRow → Bool) (f : WheelRow → WheelRow) : Op ℕ :=
  exec (Db.updateWheels p f) fun db => (db.wheels.filter p).rows.length

def updateWheel (id : ℕ) (f : WheelRow → WheelRow) : Op ℕ :=
  updateWheels (fun id' _ => id' = id) f

def deleteRepodata (p : ℕ → Bool) : Op ℕ :=
  exec (Db.deleteRepodata p) fun db => (db.wheelRepodata.filter fun id _ => p id).rows.length

def deleteSkips (p : ℕ → SkipRow → Bool) : Op ℕ :=
  exec (Db.deleteSkips p) fun db => (db.skips.filter fun key row => p key.1 row).rows.length

def deleteWork (p : ℕ → Stage → Bool) : Op ℕ :=
  exec (Db.deleteWork p) fun db => (db.work.filter fun key _ => p key.1 key.2).rows.length

def deleteUnlinkedBlob (filename : String) : Op ℕ :=
  exec (Db.deleteUnlinkedBlob filename) fun db =>
    (db.unlinkedBlobs.filter fun key _ => key = filename).rows.length

def upsertIndex (name : String) (row : IndexRow) : Op ℕ := exec (Db.upsertIndex name row) fun _ => 1

def deleteIndex (name : String) : Op ℕ :=
  exec (Db.deleteIndex name) fun db =>
    (db.pypiIndex.filter fun key _ => key = name).rows.length

/-! ### Running the statements -/

@[simp] theorem run_exec (f : Db → Db) (rowcount : Db → ℕ) (db : Db) (n : ℕ) :
    (exec f rowcount).run db n = ⟨f db, n, .ok (rowcount db)⟩ := rfl

theorem run_insert (f : Db → Option Db) (db : Db) (n : ℕ) :
    (insert f).run db n =
      match f db with
      | some db' => ⟨db', n, .ok 1⟩
      | none => ⟨db, n, .error .integrity⟩ := by
  rw [insert, Program.run_write]
  cases f db <;> rfl

theorem run_insert_of_some {f : Db → Option Db} {db db' : Db} (h : f db = some db') (n : ℕ) :
    (insert f).run db n = ⟨db', n, .ok 1⟩ := by
  rw [run_insert, h]

theorem run_tryInsert (f : Db → Option Db) (db : Db) (n : ℕ) :
    (tryInsert f).run db n =
      match f db with
      | some db' => ⟨db', n, .ok true⟩
      | none => ⟨db, n, .ok false⟩ := by
  rw [tryInsert, Program.run_bind, Program.run_attempt]
  cases f db <;> rfl

section Keeps

variable {γ : Type} {part : Db → γ}

theorem keeps_exec {f : Db → Db} {rowcount : Db → ℕ} (h : ∀ db, part (f db) = part db) :
    (exec f rowcount).Keeps part := by
  refine Program.writes_write.mpr fun db db' count hok => ?_
  obtain ⟨rfl, -⟩ : f db = db' ∧ rowcount db = count := by simpa using hok
  exact h db

theorem keeps_of_insert {f : Db → Option Db} (h : ∀ db db', f db = some db' → part db' = part db)
    (db db' : Db) (count : ℕ)
    (hok : (match f db with
      | some db' => (.ok (db', 1) : Except OpError (Db × ℕ))
      | none => .error .integrity) = .ok (db', count)) : part db' = part db := by
  cases hf : f db with
  | none => simp [hf] at hok
  | some db'' =>
      obtain ⟨rfl, -⟩ : db'' = db' ∧ 1 = count := by simpa [hf] using hok
      exact h db _ hf

theorem keeps_insert {f : Db → Option Db} (h : ∀ db db', f db = some db' → part db' = part db) :
    (insert f).Keeps part := Program.writes_write.mpr (keeps_of_insert h)

theorem keeps_tryInsert {f : Db → Option Db}
    (h : ∀ db db', f db = some db' → part db' = part db) : (tryInsert f).Keeps part := by
  refine Program.writes_bind (Program.writes_attempt.mpr (keeps_of_insert h)) fun result => ?_
  rcases result with (_ | _ | _ | _) | count
  · exact Program.writes_raise _
  · exact Program.writes_pure _
  · exact Program.writes_raise _
  · exact Program.writes_raise _
  · exact Program.writes_pure _

end Keeps

/-- A loop that updates one wheel a turn, under a guard, stamping it with the
turn's sequence number.  A second update of the same wheel overwrites the first. -/
theorem run_each_updateWheels {α : Type} {body : ℕ → Op α} {p : WheelRow → Bool}
    {f : ℕ → WheelRow → WheelRow}
    (hbody : ∀ id db n, ∃ a, (body id).run db n =
      ⟨db.updateWheels (fun id' row => id' = id ∧ p row) (f (n + 1)), n + 1, .ok a⟩)
    (hf : ∀ n m row, p row = true → p (f n row) = true → f m (f n row) = f m row)
    (ids : List ℕ) (db : Db) (n : ℕ) :
    ∃ (wheels : Table ℕ WheelRow) (as : List α),
      (Program.each body ids).run db n =
        ⟨{ db with wheels := wheels }, n + ids.length, .ok as⟩ ∧
      as.length = ids.length ∧
      ∀ id, ∃ m, wheels.get? id =
        (db.wheels.get? id).map fun row => if id ∈ ids ∧ p row then f m row else row := by
  induction ids generalizing db n with
  | nil => exact ⟨db.wheels, [], rfl, rfl, fun id => ⟨0, by simp⟩⟩
  | cons i ids ih =>
      obtain ⟨a, hhead⟩ := hbody i db n
      obtain ⟨wheels, as, htail, hlength, hget⟩ := ih
        (db.updateWheels (fun id' row => id' = i ∧ p row) (f (n + 1))) (n + 1)
      refine ⟨wheels, a :: as, ?_, by simp [hlength], fun id => ?_⟩
      · refine ((Program.run_bind_ok hhead).trans (Program.run_bind_ok htail)).trans ?_
        simp [Db.updateWheels, Nat.add_assoc, Nat.add_comm 1]
      · obtain ⟨m, hm⟩ := hget id
        rw [hm, Db.updateWheels, Table.get?_modify]
        cases hrow : db.wheels.get? id with
        | none => exact ⟨0, rfl⟩
        | some row =>
            simp only [Option.map_some, Option.some.injEq, List.mem_cons]
            by_cases hguard : p row = true
            · by_cases hi : id = i
              · by_cases hagain : id ∈ ids ∧ p (f (n + 1) row) = true
                · refine ⟨m, ?_⟩
                  simp [hi, hguard, hi ▸ hagain.1, hagain.2, hf (n + 1) m row hguard hagain.2]
                · refine ⟨n + 1, ?_⟩
                  simp only [hi, hguard, and_self, decide_true, if_true, true_or]
                  rw [if_neg (hi ▸ hagain)]
              · exact ⟨m, by simp [hi, hguard]⟩
            · exact ⟨m, by simp [hguard]⟩

end Op

end RerollSync.Store
