import RerollSync.Support.Machine
import RerollSync.Dispatcher.Effects
import RerollSync.Ingest.Effects

/-!
# The pipeline as a machine

The stages, the project sync and the control campaigns against one database.
Each of them reads a snapshot first and commits an op later; in between, the
others commit.  An op commits atomically, in the order the writer receives it.
-/

namespace RerollSync.Pipeline

open RerollSync.Support RerollSync.Store RerollSync.Dispatcher RerollSync.Ingest
open RerollSync.Convert

/-- What the parts share: the dispatcher's settings, Python's `repr`, the `reroll`
package and the hash. -/
structure Env (M : Type) where
  dispatcher : Dispatcher.Settings
  repr : String → String
  lib : Reroll M
  sha256 : Bytes → String

/-- What a worker has read for a claimed item: nothing yet, the columns
`FetchStage._load_rows` reads, or the bytes to convert. -/
inductive Loaded
  | nothing
  | sidecar (filename : String) (metadataSha256 : Option String)
  | bytes (filename : String) (data : Bytes)
deriving DecidableEq

/-- An item on its way through a stage. -/
structure Held where
  stage : Stage
  item : QueueItem
  loaded : Loaded
deriving DecidableEq

/-- A project whose sync has been computed and not yet applied. -/
inductive PendingSync
  | plan (plan : ProjectPlan)
  | gone
deriving DecidableEq

structure State where
  db : Db
  changeSeq : ℕ
  queues : Queues
  held : List Held
  syncs : Table String PendingSync
  chunks : List (List ℕ × Selector)
  unquarantines : List (List ℕ)

/-- The system started over a database, with nothing under way. -/
def State.initial (db : Db) (changeSeq : ℕ) : State :=
  ⟨db, changeSeq, .initial, [], ∅, [], []⟩

/-- The steps.  `apply` is `apply_outcome` for any outcome but a rate limit,
`archive` is `ArchiveHandoff.process_one`: the `Ok` of a fetch and the handoff of
the same bytes to convert.  `i` is the position of an item or chunk under way. -/
inductive Event
  | claim (stage : Stage) (limit : ℕ) (nowIso : String)
  | loadSidecar (i : ℕ)
  | loadBytes (i : ℕ) (data : Bytes)
  | release (i : ℕ)
  | apply (i : ℕ) (outcome : Outcome) (clock : Clock)
  | archive (i : ℕ) (data : Bytes) (clock : Clock)
  | planSync (name : String) (fetched : FetchedProject)
  | applySync (name nowIso : String)
  | selectChunk (selector : Selector) (page : ChunkPage) (chunkSize : ℕ)
  | applyChunk (i : ℕ) (nowIso : String)
  | selectQuarantined (project : Option String) (chunkSize : ℕ)
  | applyUnquarantine (i : ℕ) (nowIso : String)

namespace State

/-- Run an op and commit it; an op that raises leaves no trace. -/
def commit {α : Type} (op : Op α) (s : State) : State :=
  let r := op.runAtomic s.db s.changeSeq
  { s with db := r.db, changeSeq := r.counter }

/-- Item `i` is done: `Dispatcher.release`. -/
def finish (i : ℕ) (h : Held) (s : State) : State :=
  { s with
    held := s.held.eraseIdx i
    queues := Dispatcher.release h.stage h.item.id s.queues }

/-- `apply_outcome`; an op that cannot be built is not submitted. -/
def applyOutcome {M : Type} (env : Env M) (i : ℕ) (h : Held) (outcome : Outcome) (clock : Clock)
    (s : State) : State :=
  match buildWriteOp env.dispatcher clock h.stage h.item outcome with
  | .error _ => s.finish i h
  | .ok op => (s.commit op).finish i h

/-- The fetch's `Ok`: the archive location carries the hash of the bytes. -/
def archived {M : Type} (env : Env M) (data : Bytes) : Outcome :=
  .ok ⟨.needConvert, .blobLink (env.sha256 data)⟩

/-- `ConvertStage.on_archived`: the item with the state the wheel has just been
given, and the bytes. -/
def feed (h : Held) (filename : String) (data : Bytes) (s : State) : State :=
  { s with
    held := s.held ++
      [⟨.convert, { h.item with state := .needConvert }, .bytes filename data⟩] }

/-- `ArchiveHandoff.process_one`. -/
def archive {M : Type} (env : Env M) (i : ℕ) (h : Held) (filename : String) (data : Bytes)
    (clock : Clock) (s : State) : State :=
  match buildWriteOp env.dispatcher clock h.stage h.item (archived env data) with
  | .error _ => s.finish i h
  | .ok op => ((s.commit op).finish i h).feed h filename data

/-- The sync of a project, computed from the database as it is now.  A sync that
is retried or rate limited writes nothing. -/
def planned (name : String) (fetched : FetchedProject) (s : State) : State :=
  match Ingest.syncProject name fetched s.db with
  | .ok plan => { s with syncs := s.syncs.set name (.plan plan) }
  | .gone _ => { s with syncs := s.syncs.set name .gone }
  | _ => s

/-- `apply_project_outcome`. -/
def applySync {M : Type} (env : Env M) (name nowIso : String) (sync : PendingSync) (s : State) :
    State :=
  let s := { s with syncs := s.syncs.filter fun key _ => key ≠ name }
  match sync with
  | .plan plan => s.commit (projectApply ⟨nowIso, env.dispatcher.rerollVersion, env.repr⟩ plan)
  | .gone => s.commit (goneApply name nowIso)

end State

variable {M : Type}

/-- The transition function; `none` means that the step cannot happen.  A project
has at most one sync under way: `ProjectSyncStage` drains distinct names and
applies a batch before it takes the next. -/
def step (env : Env M) (s : State) : Event → Option State
  | .claim stage limit nowIso =>
      let (items, queues) := Dispatcher.claim stage limit nowIso s.db s.queues
      some { s with
        queues := queues
        held := s.held ++ items.map fun item => ⟨stage, item, .nothing⟩ }
  | .loadSidecar i => do
      let h ← s.held[i]?
      let row ← s.db.wheels.get? h.item.id
      if h.stage = .fetch then
        some { s with
          held := s.held.set i { h with loaded := .sidecar row.filename row.metadataSha256 } }
      else none
  | .loadBytes i data => do
      let h ← s.held[i]?
      let row ← s.db.wheels.get? h.item.id
      if h.stage = .convert ∧ h.loaded = .nothing ∧ row.blobSha256 = some (env.sha256 data) then
        some { s with held := s.held.set i { h with loaded := .bytes row.filename data } }
      else none
  | .release i => do
      let h ← s.held[i]?
      some (s.finish i h)
  | .apply i outcome clock => do
      let h ← s.held[i]?
      some (s.applyOutcome env i h outcome clock)
  | .archive i data clock => do
      let h ← s.held[i]?
      match h.stage, h.loaded with
      | .fetch, .sidecar filename metadataSha256 =>
          if metadataSha256.all (· = env.sha256 data) then
            some (s.archive env i h filename data clock)
          else none
      | _, _ => none
  | .planSync name fetched =>
      if (s.syncs.get? name).isSome then none else some (s.planned name fetched)
  | .applySync name nowIso => do
      let sync ← s.syncs.get? name
      some (s.applySync env name nowIso sync)
  | .selectChunk selector page chunkSize =>
      if selector.yields page then
        some { s with chunks := s.chunks ++ [(page.ids chunkSize s.db, selector)] }
      else none
  | .applyChunk i nowIso => do
      let chunk ← s.chunks[i]?
      some ({ s with chunks := s.chunks.eraseIdx i }.commit
        (reprocessChunkApply chunk.1 chunk.2 nowIso))
  | .selectQuarantined project chunkSize =>
      some { s with
        unquarantines := s.unquarantines ++ [quarantinedChunkQuery project chunkSize s.db] }
  | .applyUnquarantine i nowIso => do
      let ids ← s.unquarantines[i]?
      some ({ s with unquarantines := s.unquarantines.eraseIdx i }.commit
        (unquarantineChunkApply ids nowIso))

/-- The pipeline. -/
def machine (env : Env M) : Machine State Event := ⟨step env⟩

/-! ## A small pipeline -/

/-- An environment for concrete runs: a `reroll` package that makes one record of
every wheel, and a hash that spells the bytes out. -/
def exampleEnv : Env Unit where
  dispatcher := ⟨"1.0", 5, fun _ => []⟩
  repr := id
  lib :=
    { decodeError := fun _ => ""
      reprList := fun _ => ""
      parse := fun _ => .ok ()
      getWheelRecords := fun _ filename _ => .ok [⟨"p", [], filename⟩] }
  sha256 data := ".".intercalate (data.map fun b => toString b.toNat)

/-- A wheel as the ingest inserts it, with a sidecar to fetch. -/
def exampleRow : WheelRow where
  filename := "p-1.0-py3-none-any.whl"
  project := "p"
  condaName := none
  state := .needMetadata
  lane := 0
  url := "https://files/p-1.0-py3-none-any.whl"
  wheelSha256 := none
  metadataSha256 := none
  size := none
  uploadTime := none
  requiresPython := none
  yanked := false
  yankedReason := none
  blobSha256 := none
  serial := 1
  changeSeq := 1
  deletedAt := none
  updatedAt := "t0"

/-- A database with that wheel. -/
def exampleDb : Db := { Db.empty with wheels := (∅ : Table ℕ WheelRow).set 1 exampleRow }

def exampleClock : Clock := ⟨"t1", fun _ => "t2"⟩

end RerollSync.Pipeline
