import RerollSync.Ingest.IndexPoll
import RerollSync.Ingest.IndexRows
import RerollSync.Support.Machine
import Mathlib.Data.List.Perm.Basic

/-!
# From the simple index to the project sync

`IndexPollStage` asks for the listing with the validators of the last answer, and enqueues
the projects that are stale here; `ProjectSyncStage` drains them and reconciles each with
its page.  The two stages take their steps in any order, and the server answers and changes
its listing as it likes.
-/

namespace RerollSync.Stages

open RerollSync.Store RerollSync.Support RerollSync.Ingest

/-! ## The server -/

/-- The listing that the server has, with its `ETag` and `Last-Modified`. -/
structure Listing where
  lastSerial : ℤ
  projects : List IndexProject
  etag : Option String
  lastModified : Option String

namespace Listing

/-- Whether the validators of a request match; `If-None-Match` goes before
`If-Modified-Since`. -/
def notModified (listing : Listing) (etag lastModified : Option String) : Bool :=
  match etag, lastModified with
  | some tag, _ => listing.etag = some tag
  | none, some date => listing.lastModified = some date
  | none, none => false

/-- `fetch_simple_index`; `header` is the `ETag` that a `304` comes with. -/
def fetchSimpleIndex (listing : Listing) (etag lastModified header : Option String) :
    SimpleIndex :=
  if listing.notModified etag lastModified then ⟨0, [], header.or etag, true⟩
  else ⟨listing.lastSerial, listing.projects, listing.etag, false⟩

end Listing

/-! ## The stages -/

/-- What an iteration of the poll is at: it reads the local serials page by page, and then
enqueues one name after another. -/
inductive PollPhase
  | idle
  | reading (index : SimpleIndex) (serials : Table String ℤ) (lastName : String)
  | enqueuing (names : List String)

namespace PollPhase

def ofNames (names : List String) : PollPhase :=
  if names.isEmpty then .idle else .enqueuing names

def isIdle : PollPhase → Bool
  | .idle => true
  | _ => false

end PollPhase

/-- A project of a sync's batch, and what its worker has fetched; `fresh` unless that was
before the listing was accepted. -/
structure Worker where
  name : String
  fetched : Option FetchedProject
  fresh : Bool

/-- What an iteration of the sync is at: its names are drained, or its workers have not all
completed. -/
inductive SyncBatch
  | idle
  | drained (names : List String)
  | working (workers : List Worker)

namespace SyncBatch

def ofWorkers (workers : List Worker) : SyncBatch :=
  if workers.isEmpty then .idle else .working workers

def isIdle : SyncBatch → Bool
  | .idle => true
  | _ => false

/-- A listing is accepted: what has been fetched was fetched before it. -/
def age : SyncBatch → SyncBatch
  | .working workers => .working (workers.map fun w => { w with fresh := w.fetched.isNone })
  | batch => batch

/-- The names that the batch is going to reconcile with a page fetched from now on, or with
one fetched after the listing. -/
def owed : SyncBatch → List String
  | .idle => []
  | .drained names => names
  | .working workers => (workers.filter Worker.fresh).map Worker.name

end SyncBatch

/-- How the worker of one project and its write fall. -/
structure Turn where
  wheelsFrom : ℕ → ℕ
  unlinkedFrom : ℕ → ℕ
  appliedAt : String
  quarantinedAt : String
  nextAttemptAt : ℚ

def Turn.schedule (turn : Turn) (name : String) : Schedule [name] where
  order := [name]
  perm := List.Perm.refl _
  wheelsFrom _ := turn.wheelsFrom
  unlinkedFrom _ := turn.unlinkedFrom
  appliedAt _ := turn.appliedAt
  quarantinedAt _ := turn.quarantinedAt
  nextAttemptAt _ := turn.nextAttemptAt

/-- What the two stages share: the database and the backoff, in the state of the loop of
`ingest_stale_projects`, the `_pending` names, the `_etag` of the poll stage and the
`_last_modified` of the client, and the server's listing.  `listed` are the projects of the
listing that was accepted last, and `reconciled` those that were reconciled with an answer
fetched after it. -/
structure Feed where
  ingest : IngestState
  pending : List String
  etag : Option String
  lastModified : Option String
  server : Listing
  poll : PollPhase
  sync : SyncBatch
  listed : List IndexProject
  reconciled : List String

/-- The steps.  `publish` is the server's.  `poll` is a poll that is answered with the
listing or a `304`, and one that fails, or that the breaker does not allow, changes nothing;
`readPage` reads a page of local serials, `pollRaise` is an error of a read, and
`enqueueNext` enqueues a stale project.  `enqueue` is a name from elsewhere.  `drain` begins
an iteration of the sync, `refuse` is a breaker that does not allow it, and `begin` filters
the names by backoff.  `fetch` is what a worker fetches and `complete` a turn of the loop
over the completed workers; `raise` is an exception of one of them, or of its write,
after a failure has been recorded, if any. -/
inductive FeedEvent
  | publish (listing : Listing)
  | poll (header : Option String)
  | readPage
  | pollRaise
  | enqueueNext
  | enqueue (name : String)
  | drain (batchLimit : ℕ)
  | refuse
  | begin (now : String → ℚ)
  | fetch (i : ℕ) (fetched : FetchedProject)
  | complete (i : ℕ) (turn : Turn)
  | raise (failed : Option (String × ℚ))

/-- `DEFAULT_SERIAL_MAP_CHUNK_SIZE`, and what the ops read besides the plans. -/
structure FeedSetup where
  chunkSize : ℤ := 5000
  rerollVersion : String
  repr : String → String

/-- `_pending[name] = None`, and `setdefault`: the keys of a `dict` keep their places. -/
def withPending (name : String) (pending : List String) : List String :=
  if name ∈ pending then pending else pending ++ [name]

namespace Feed

/-- The stages started over a database and a server. -/
def start (db : Db) (changeSeq : ℕ) (backoff : ProjectBackoff) (server : Listing) : Feed where
  ingest := .start db changeSeq (some backoff)
  pending := []
  etag := none
  lastModified := none
  server := server
  poll := .idle
  sync := .idle
  listed := []
  reconciled := []

/-- `poll_index` returns, and the stage keeps the `ETag` and enqueues what is stale. -/
def finishPoll (index : SimpleIndex) (serials : Table String ℤ) (s : Feed) : Feed :=
  { s with
    etag := index.etag.or s.etag
    poll := .ofNames (staleProjects index.projects serials) }

def step (x : FeedSetup) (s : Feed) : FeedEvent → Option Feed
  | .publish listing => some { s with server := listing }
  | .poll header =>
      match s.poll with
      | .idle =>
          let index := s.server.fetchSimpleIndex s.etag s.lastModified header
          if index.notModified then some { s with etag := index.etag.or s.etag }
          else some { s with
            lastModified := s.server.lastModified
            poll := .reading index ∅ ""
            sync := s.sync.age
            listed := index.projects
            reconciled := [] }
      | _ => none
  | .readPage =>
      match s.poll with
      | .reading index serials lastName =>
          let rows := limitRows x.chunkSize (rowsAfter s.ingest.db.pypiIndex.rows lastName)
          let serials := rows.foldl (fun serials row => serials.set row.1 row.2.serial) serials
          match rows.getLast? with
          | none => some (s.finishPoll index serials)
          | some row =>
              if rows.length < x.chunkSize then some (s.finishPoll index serials)
              else some { s with poll := .reading index serials row.1 }
      | _ => none
  | .pollRaise =>
      match s.poll with
      | .reading _ _ _ => some { s with poll := .idle }
      | _ => none
  | .enqueueNext =>
      match s.poll with
      | .enqueuing (name :: names) =>
          some { s with
            pending := withPending name s.pending
            poll := .ofNames names }
      | _ => none
  | .enqueue name => some { s with pending := withPending name s.pending }
  | .drain batchLimit =>
      match s.sync with
      | .idle =>
          if s.pending.take batchLimit = [] then none
          else some { s with
            pending := s.pending.drop batchLimit
            sync := .drained (s.pending.take batchLimit) }
      | _ => none
  | .refuse =>
      match s.sync with
      | .drained names =>
          some { s with
            pending := names.foldl (fun pending name => withPending name pending) s.pending
            sync := .idle }
      | _ => none
  | .begin now =>
      match s.sync with
      | .drained names =>
          some { s with
            ingest := .start s.ingest.db s.ingest.changeSeq s.ingest.backoff
            sync := .ofWorkers ((eligibleNames names s.ingest.backoff now).map (⟨·, none, true⟩)) }
      | _ => none
  | .fetch i fetched =>
      match s.sync with
      | .working workers =>
          if workers[i]?.any (·.fetched.isNone) then
            some { s with
              sync := .working (workers.modify i fun w => { w with fetched := some fetched }) }
          else none
      | _ => none
  | .complete i turn =>
      match s.sync with
      | .working workers => do
          let w ← workers[i]?
          let fetched ← w.fetched
          match s.ingest.complete ⟨fun _ => fetched, x.rerollVersion, x.repr⟩
              (turn.schedule w.name) w.name with
          | .error _ => none
          | .ok ingest =>
              some { s with
                ingest := ingest
                sync := .ofWorkers (workers.eraseIdx i)
                reconciled :=
                  if fetched.reconciles ∧ w.fresh then w.name :: s.reconciled
                  else s.reconciled }
      | _ => none
  | .raise failed =>
      match s.sync with
      | .idle => none
      | _ =>
          some { s with
            ingest := { s.ingest with
              backoff := failed.elim s.ingest.backoff fun f =>
                s.ingest.backoff.map (·.recordFailure f.1 f.2) }
            sync := .idle }

def machine (x : FeedSetup) : Machine Feed FeedEvent := ⟨step x⟩

/-! ## The property and the condition -/

/-- The project is listed with a newer serial than it has here, or it is unknown here. -/
def Stale (s : Feed) (project : IndexProject) : Prop :=
  (serialOf project.name s.ingest.db).all (· < project.serial) = true

/-- What a poll returns that no other step meets. -/
def nextPoll (x : FeedSetup) (s : Feed) : PollResult :=
  pollIndex (s.server.fetchSimpleIndex s.etag s.lastModified none) x.chunkSize s.ingest.db

/-- The next poll is not answered with a `304`, and it returns the project if it is listed
with a newer serial. -/
structure Returned (x : FeedSetup) (s : Feed) (name : String) : Prop where
  modified : (s.nextPoll x).notModified = false
  stale : ∀ project ∈ s.server.projects, project.name = name → s.Stale project →
    name ∈ (s.nextPoll x).staleProjects

/-- Between iterations, no project of the listing that is stale here is lost. -/
def NoneLost (x : FeedSetup) (s : Feed) : Prop :=
  s.poll.isIdle → s.sync.isIdle → ∀ project ∈ s.listed, s.Stale project →
    project.name ∈ s.pending ∨ s.Returned x project.name ∨ project.name ∈ s.reconciled

/-- The poll that is under way enqueues the project. -/
def Offered (s : Feed) (project : IndexProject) : Prop :=
  match s.poll with
  | .idle => False
  | .reading _ serials _ => (serials.get? project.name).all (· < project.serial) = true
  | .enqueuing names => project.name ∈ names

/-- The validators that are stored, and that no poll is about to replace, do not match. -/
def Asks (s : Feed) : Prop :=
  match s.poll with
  | .reading _ _ _ => False
  | .idle | .enqueuing _ => s.server.notModified s.etag s.lastModified = false

/-- The project need not be reconciled by the batch that is under way. -/
def Spared (s : Feed) (project : IndexProject) : Prop :=
  project.name ∈ s.pending ∨ project.name ∈ s.reconciled ∨ s.Offered project ∨ s.Asks

/-- The answer of a worker that lets its project go: none that it is reconciled with, or one
from before the listing that takes a serial back below the listed one. -/
def LetsGo (s : Feed) (i : ℕ) (project : IndexProject) : Prop :=
  match s.sync with
  | .working workers =>
      match workers[i]? with
      | some ⟨name, some fetched, fresh⟩ =>
          name = project.name ∧
            if fetched.reconciles then
              fresh = false ∧ ¬s.Stale project ∧ fetched.serial.all (· < project.serial) = true
            else fresh = true ∧ s.Stale project
      | _ => False
  | _ => False

/-- No step lets a stale project go that is not pending, reconciled or offered while the
validators match the listing, and the server takes none for its listing that they match
while a project is let go. -/
def Kept (s : Feed) : FeedEvent → Prop
  | .publish listing => ∀ project ∈ s.listed, s.Stale project →
      project.name ∈ s.sync.owed ∨ { s with server := listing }.Spared project
  | .pollRaise => ∀ project ∈ s.listed, s.Stale project →
      project.name ∈ s.sync.owed ∨ { s with poll := .idle }.Spared project
  | .begin now => ∀ project ∈ s.listed, s.Stale project → project.name ∈ s.sync.owed →
      project.name ∈ eligibleNames s.sync.owed s.ingest.backoff now ∨ s.Spared project
  | .complete i _ => ∀ project ∈ s.listed, s.LetsGo i project → s.Spared project
  | .raise _ => ∀ project ∈ s.listed, s.Stale project → project.name ∈ s.sync.owed →
      s.Spared project
  | _ => True

section Decidable

variable (s : Feed) (project : IndexProject)

instance decidableStale : Decidable (s.Stale project) :=
  inferInstanceAs (Decidable (Option.all _ _ = true))

instance decidableOffered : Decidable (s.Offered project) :=
  match h : s.poll with
  | .idle => isFalse (by simp [Offered, h])
  | .reading _ serials _ =>
      decidable_of_iff ((serials.get? project.name).all (· < project.serial) = true)
        (by simp [Offered, h])
  | .enqueuing names => decidable_of_iff (project.name ∈ names) (by simp [Offered, h])

instance decidableAsks : Decidable s.Asks :=
  match h : s.poll with
  | .idle | .enqueuing _ =>
      decidable_of_iff (s.server.notModified s.etag s.lastModified = false) (by simp [Asks, h])
  | .reading _ _ _ => isFalse (by simp [Asks, h])

instance decidableSpared : Decidable (s.Spared project) :=
  inferInstanceAs (Decidable (_ ∨ _ ∨ s.Offered project ∨ s.Asks))

instance decidableLetsGo (i : ℕ) : Decidable (s.LetsGo i project) :=
  match h : s.sync with
  | .idle | .drained _ => isFalse (by simp [LetsGo, h])
  | .working workers =>
      match hi : workers[i]? with
      | none | some ⟨_, none, _⟩ => isFalse (by simp [LetsGo, h, hi])
      | some ⟨name, some fetched, fresh⟩ =>
          decidable_of_iff (name = project.name ∧
            if fetched.reconciles then
              fresh = false ∧ ¬s.Stale project ∧ fetched.serial.all (· < project.serial) = true
            else fresh = true ∧ s.Stale project) (by simp [LetsGo, h, hi])

instance decidableKept : ∀ e, Decidable (s.Kept e)
  | .publish listing => inferInstanceAs (Decidable (∀ project ∈ s.listed, s.Stale project →
      project.name ∈ s.sync.owed ∨ { s with server := listing }.Spared project))
  | .pollRaise => inferInstanceAs (Decidable (∀ project ∈ s.listed, s.Stale project →
      project.name ∈ s.sync.owed ∨ { s with poll := .idle }.Spared project))
  | .begin now => inferInstanceAs (Decidable (∀ project ∈ s.listed, s.Stale project →
      project.name ∈ s.sync.owed →
        project.name ∈ eligibleNames s.sync.owed s.ingest.backoff now ∨ s.Spared project))
  | .complete i _ => inferInstanceAs (Decidable (∀ project ∈ s.listed,
      s.LetsGo i project → s.Spared project))
  | .raise _ => inferInstanceAs (Decidable (∀ project ∈ s.listed, s.Stale project →
      project.name ∈ s.sync.owed → s.Spared project))
  | .poll _ | .readPage | .enqueueNext | .enqueue _ | .drain _ | .refuse | .fetch _ _ =>
      isTrue trivial

end Decidable

/-! ## Steps -/

/-- Every project of the listing that is stale here is covered. -/
structure Followed (s : Feed) : Prop where
  covered : ∀ project ∈ s.listed, s.Stale project →
    project.name ∈ s.sync.owed ∨ s.Spared project
  index : ∀ index serials lastName, s.poll = .reading index serials lastName →
    index.projects = s.listed

variable {x : FeedSetup} {s s' : Feed} {project : IndexProject}

theorem mem_withPending {name name' : String} {pending : List String} :
    name' ∈ withPending name pending ↔ name' = name ∨ name' ∈ pending := by
  rw [withPending]
  split
  · next hmem =>
      exact ⟨Or.inr, fun h => h.elim (fun heq => heq ▸ hmem) id⟩
  · rw [List.mem_append, List.mem_singleton, or_comm]

theorem mem_foldl_withPending {name : String} {names pending : List String} :
    name ∈ names.foldl (fun pending name => withPending name pending) pending ↔
      name ∈ names ∨ name ∈ pending := by
  induction names generalizing pending with
  | nil => simp
  | cons head names ih =>
      rw [List.foldl_cons, ih, mem_withPending, List.mem_cons]
      tauto

theorem Followed.start (db : Db) (changeSeq : ℕ) (backoff : ProjectBackoff) (server : Listing) :
    (Feed.start db changeSeq backoff server).Followed where
  covered project hlisted := by simp [Feed.start] at hlisted
  index _ _ _ hpoll := by simp [Feed.start] at hpoll

/-- What a step of the sync does not touch. -/
structure SameFeed (s s' : Feed) : Prop where
  etag : s'.etag = s.etag
  lastModified : s'.lastModified = s.lastModified
  server : s'.server = s.server
  poll : s'.poll = s.poll
  listed : s'.listed = s.listed

theorem Spared.mono (h : s.Spared project) (hsame : SameFeed s s')
    (hpending : ∀ name ∈ s.pending, name ∈ s'.pending)
    (hreconciled : ∀ name ∈ s.reconciled, name ∈ s'.reconciled) : s'.Spared project := by
  rcases h with hmem | hmem | hoffered | hasks
  · exact Or.inl (hpending _ hmem)
  · exact Or.inr (Or.inl (hreconciled _ hmem))
  · refine Or.inr (Or.inr (Or.inl ?_))
    rw [Offered, hsame.poll]
    exact hoffered
  · refine Or.inr (Or.inr (Or.inr ?_))
    rw [Asks, hsame.poll, hsame.server, hsame.etag, hsame.lastModified]
    exact hasks

/-- A step of the sync that leaves every stale project covered. -/
theorem Followed.synced (h : s.Followed) (hsame : SameFeed s s')
    (hcovered : ∀ project ∈ s.listed, s'.Stale project →
      project.name ∈ s'.sync.owed ∨ s'.Spared project) : s'.Followed where
  covered := hsame.listed ▸ hcovered
  index index serials lastName hpoll := by
    rw [hsame.listed]
    exact h.index index serials lastName (hsame.poll ▸ hpoll)

theorem Followed.publish (h : s.Followed) {listing : Listing} (hkept : s.Kept (.publish listing))
    (hstep : s.step x (.publish listing) = some s') : s'.Followed := by
  obtain rfl := Option.some.inj hstep
  exact ⟨hkept, h.index⟩

theorem Followed.pollRaise (hkept : s.Kept .pollRaise)
    (hstep : s.step x .pollRaise = some s') : s'.Followed := by
  simp only [step] at hstep
  split at hstep
  · obtain rfl := Option.some.inj hstep
    exact ⟨hkept, fun _ _ _ hpoll => by cases hpoll⟩
  · cases hstep

/-- A poll that is answered with `304` finds nothing dropped, and one that is answered with
the listing is going to offer every project that is stale. -/
theorem Followed.poll (h : s.Followed) {header : Option String}
    (hstep : s.step x (.poll header) = some s') : s'.Followed := by
  simp only [step] at hstep
  split at hstep
  · next hidle =>
      cases hnot : s.server.notModified s.etag s.lastModified with
      | true =>
          simp only [Listing.fetchSimpleIndex, hnot, if_true] at hstep
          obtain rfl := Option.some.inj hstep
          refine ⟨fun project hlisted hstale => ?_, h.index⟩
          rcases h.covered project hlisted hstale with howed | hmem | hmem | hoffered | hasks
          · exact Or.inl howed
          · exact Or.inr (Or.inl hmem)
          · exact Or.inr (Or.inr (Or.inl hmem))
          · simp [Offered, hidle] at hoffered
          · simp [Asks, hidle, hnot] at hasks
      | false =>
          simp only [Listing.fetchSimpleIndex, hnot] at hstep
          obtain rfl := Option.some.inj hstep
          refine ⟨fun project _ _ => Or.inr (Or.inr (Or.inr (Or.inl ?_))), fun _ _ _ hpoll => ?_⟩
          · simp [Offered]
          · cases hpoll
            rfl
  · cases hstep

theorem offered_iff_of_ofNames {names : List String} (hpoll : s.poll = .ofNames names) :
    s.Offered project ↔ project.name ∈ names := by
  rw [Offered, hpoll]
  cases names with
  | nil => simp [PollPhase.ofNames]
  | cons name names => rfl

theorem ofNames_ne_reading {names : List String} {index : SimpleIndex} {serials : Table String ℤ}
    {lastName : String} : PollPhase.ofNames names ≠ .reading index serials lastName := by
  cases names <;> exact fun h => by cases h

/-- The rows of a read have the serials of the moment. -/
theorem older_of_rows {serials : Table String ℤ} {rows : List (String × IndexRow)}
    (hrows : ∀ row ∈ rows, row ∈ s.ingest.db.pypiIndex.rows) (hstale : s.Stale project)
    (holder : (serials.get? project.name).all (· < project.serial) = true) :
    ((rows.foldl (fun serials row => serials.set row.1 row.2.serial) serials).get?
      project.name).all (· < project.serial) = true := by
  rw [Option.all_eq_true]
  intro serial hserial
  rcases Table.get?_foldl_set (fun row : String × IndexRow => row.1)
      (fun row => row.2.serial) rows serials hserial with hold | ⟨row, hrow, hname, rfl⟩
  · exact (Option.all_eq_true _ _).mp holder serial hold
  · have hget : s.ingest.db.pypiIndex.get? project.name = some row.2 := by
      rw [← hname]
      exact Table.get?_eq_some_iff.mpr (hrows row hrow)
    rw [Stale, serialOf, hget] at hstale
    exact hstale

/-- The end of the reads enqueues what the poll offers. -/
theorem Followed.finishPoll {index : SimpleIndex} {serials : Table String ℤ}
    (hindex : index.projects = s.listed)
    (hcovered : ∀ project ∈ s.listed, s.Stale project →
      project.name ∈ s.sync.owed ∨ project.name ∈ s.pending ∨ project.name ∈ s.reconciled ∨
        (serials.get? project.name).all (· < project.serial) = true) :
    (s.finishPoll index serials).Followed := by
  refine ⟨fun project hlisted hstale => ?_, fun _ _ _ hpoll => (ofNames_ne_reading hpoll).elim⟩
  rcases hcovered project hlisted hstale with howed | hmem | hmem | holder
  · exact Or.inl howed
  · exact Or.inr (Or.inl hmem)
  · exact Or.inr (Or.inr (Or.inl hmem))
  · refine Or.inr (Or.inr (Or.inr (Or.inl ((offered_iff_of_ofNames rfl).mpr ?_))))
    exact mem_staleProjects_iff.mpr ⟨project, hindex ▸ hlisted, rfl, fun serial hserial =>
      of_decide_eq_true ((Option.all_eq_true _ _).mp holder serial hserial)⟩

/-- Reading on keeps what the poll offers. -/
theorem Followed.readPage (h : s.Followed) (hstep : s.step x .readPage = some s') :
    s'.Followed := by
  simp only [step] at hstep
  split at hstep
  · next index serials lastName hreading =>
      have hindex := h.index index serials lastName hreading
      have hrows : ∀ row ∈ limitRows x.chunkSize (rowsAfter s.ingest.db.pypiIndex.rows lastName),
          row ∈ s.ingest.db.pypiIndex.rows := fun row hrow =>
        (mem_rowsAfter.mp (mem_of_mem_limitRows hrow)).1
      generalize limitRows x.chunkSize (rowsAfter s.ingest.db.pypiIndex.rows lastName) = rows
        at hstep hrows
      have hcovered : ∀ project ∈ s.listed, s.Stale project →
          project.name ∈ s.sync.owed ∨ project.name ∈ s.pending ∨ project.name ∈ s.reconciled ∨
            ((rows.foldl (fun serials row => serials.set row.1 row.2.serial) serials).get?
              project.name).all (· < project.serial) = true := by
        intro project hlisted hstale
        rcases h.covered project hlisted hstale with howed | hmem | hmem | hoffered | hasks
        · exact Or.inl howed
        · exact Or.inr (Or.inl hmem)
        · exact Or.inr (Or.inr (Or.inl hmem))
        · simp only [Offered, hreading] at hoffered
          exact Or.inr (Or.inr (Or.inr (older_of_rows hrows hstale hoffered)))
        · simp [Asks, hreading] at hasks
      have hfinish := Followed.finishPoll hindex hcovered
      split at hstep
      · obtain rfl := Option.some.inj hstep
        exact hfinish
      · split at hstep
        · obtain rfl := Option.some.inj hstep
          exact hfinish
        · obtain rfl := Option.some.inj hstep
          refine ⟨fun project hlisted hstale => ?_, fun _ _ _ hpoll => ?_⟩
          · exact (hcovered project hlisted hstale).imp_right fun hmem =>
              hmem.imp_right fun hmem => hmem.imp_right Or.inl
          · cases hpoll
            exact hindex
  · cases hstep

/-- An enqueued project is pending. -/
theorem Followed.enqueueNext (h : s.Followed) (hstep : s.step x .enqueueNext = some s') :
    s'.Followed := by
  simp only [step] at hstep
  split at hstep
  · next name names henqueuing =>
      obtain rfl := Option.some.inj hstep
      refine ⟨fun project hlisted hstale => ?_,
        fun _ _ _ hpoll => (ofNames_ne_reading hpoll).elim⟩
      rcases h.covered project hlisted hstale with howed | hmem | hmem | hoffered | hasks
      · exact Or.inl howed
      · exact Or.inr (Or.inl (mem_withPending.mpr (Or.inr hmem)))
      · exact Or.inr (Or.inr (Or.inl hmem))
      · simp only [Offered, henqueuing, List.mem_cons] at hoffered
        rcases hoffered with hname | hmem
        · exact Or.inr (Or.inl (mem_withPending.mpr (Or.inl hname)))
        · exact Or.inr (Or.inr (Or.inr (Or.inl ((offered_iff_of_ofNames rfl).mpr hmem))))
      · refine Or.inr (Or.inr (Or.inr (Or.inr ?_)))
        simp only [Asks, henqueuing] at hasks
        cases names <;> exact hasks
  · cases hstep

theorem Followed.enqueue (h : s.Followed) {name : String}
    (hstep : s.step x (.enqueue name) = some s') : s'.Followed := by
  obtain rfl := Option.some.inj hstep
  refine h.synced ⟨rfl, rfl, rfl, rfl, rfl⟩ fun project hlisted hstale => ?_
  exact (h.covered project hlisted hstale).imp_right fun hspared =>
    hspared.mono ⟨rfl, rfl, rfl, rfl, rfl⟩ (fun _ hmem => mem_withPending.mpr (Or.inr hmem))
      fun _ hmem => hmem

/-- A drained name is pending no more, and the batch owes it. -/
theorem Followed.drain (h : s.Followed) {batchLimit : ℕ}
    (hstep : s.step x (.drain batchLimit) = some s') : s'.Followed := by
  simp only [step] at hstep
  split at hstep
  · next hidle =>
      obtain ⟨-, hstep⟩ := Option.ite_none_left_eq_some.mp hstep
      obtain rfl := Option.some.inj hstep
      refine h.synced ⟨rfl, rfl, rfl, rfl, rfl⟩ fun project hlisted hstale => ?_
      rcases h.covered project hlisted hstale with howed | hmem | hspared
      · simp [hidle, SyncBatch.owed] at howed
      · rw [← List.take_append_drop batchLimit s.pending] at hmem
        exact (List.mem_append.mp hmem).imp id Or.inl
      · exact Or.inr (Or.inr hspared)
  · cases hstep

theorem Followed.refuse (h : s.Followed) (hstep : s.step x .refuse = some s') : s'.Followed := by
  simp only [step] at hstep
  split at hstep
  · next names hdrained =>
      obtain rfl := Option.some.inj hstep
      refine h.synced ⟨rfl, rfl, rfl, rfl, rfl⟩ fun project hlisted hstale => Or.inr ?_
      rcases h.covered project hlisted hstale with howed | hspared
      · rw [hdrained] at howed
        exact Or.inl (mem_foldl_withPending.mpr (Or.inl howed))
      · exact hspared.mono ⟨rfl, rfl, rfl, rfl, rfl⟩
          (fun _ hmem => mem_foldl_withPending.mpr (Or.inr hmem)) fun _ hmem => hmem
  · cases hstep

theorem owed_ofWorkers (workers : List Worker) :
    (SyncBatch.ofWorkers workers).owed = (workers.filter Worker.fresh).map Worker.name := by
  cases workers <;> rfl

theorem owed_modify (workers : List Worker) (i : ℕ) {f : Worker → Worker}
    (hf : ∀ w, (f w).name = w.name ∧ (f w).fresh = w.fresh) :
    (SyncBatch.working (workers.modify i f)).owed = (SyncBatch.working workers).owed := by
  simp only [SyncBatch.owed]
  induction workers generalizing i with
  | nil => simp
  | cons w workers ih =>
      obtain ⟨hname, hfresh⟩ := hf w
      cases i with
      | zero => cases h : w.fresh <;> simp [hname, hfresh, h]
      | succ i => cases h : w.fresh <;> simp [h, ih i]

/-- Without one of its workers a batch owes what the others do. -/
theorem mem_owed_eraseIdx {workers : List Worker} {i : ℕ} {w : Worker} (hi : workers[i]? = some w)
    {name : String} (hmem : name ∈ (SyncBatch.working workers).owed) :
    name ∈ (SyncBatch.ofWorkers (workers.eraseIdx i)).owed ∨ w.fresh = true ∧ w.name = name := by
  rw [owed_ofWorkers]
  obtain ⟨w', hw', rfl⟩ := List.mem_map.mp hmem
  obtain ⟨hw', hfresh⟩ := List.mem_filter.mp hw'
  obtain ⟨hlt, rfl⟩ := List.getElem?_eq_some_iff.mp hi
  rcases List.mem_cons.mp ((List.getElem_cons_eraseIdx_perm hlt).mem_iff.mpr hw') with rfl | hrest
  · exact Or.inr ⟨hfresh, rfl⟩
  · exact Or.inl (List.mem_map_of_mem (List.mem_filter.mpr ⟨hrest, hfresh⟩))

/-- The names that backoff lets through are owed. -/
theorem Followed.begin (h : s.Followed) {now : String → ℚ} (hkept : s.Kept (.begin now))
    (hstep : s.step x (.begin now) = some s') : s'.Followed := by
  simp only [step] at hstep
  split at hstep
  · next names hdrained =>
      obtain rfl := Option.some.inj hstep
      refine h.synced ⟨rfl, rfl, rfl, rfl, rfl⟩ fun project hlisted hstale => ?_
      have hmono : s.Spared project → Spared { s with
          ingest := .start s.ingest.db s.ingest.changeSeq s.ingest.backoff
          sync := .ofWorkers ((eligibleNames names s.ingest.backoff now).map (⟨·, none, true⟩)) }
          project :=
        fun hspared => hspared.mono ⟨rfl, rfl, rfl, rfl, rfl⟩ (fun _ hmem => hmem)
          fun _ hmem => hmem
      rcases h.covered project hlisted hstale with howed | hspared
      · refine (hkept project hlisted hstale howed).imp (fun heligible => ?_) hmono
        rw [hdrained, SyncBatch.owed] at heligible
        rw [owed_ofWorkers, List.filter_eq_self.mpr (by simp)]
        simpa using heligible
      · exact Or.inr (hmono hspared)
  · cases hstep

/-- What a worker fetches is fetched after the listing, if it was owed. -/
theorem Followed.fetch (h : s.Followed) {i : ℕ} {fetched : FetchedProject}
    (hstep : s.step x (.fetch i fetched) = some s') : s'.Followed := by
  simp only [step] at hstep
  split at hstep
  · next workers hworking =>
      obtain ⟨-, hstep⟩ := Option.ite_none_right_eq_some.mp hstep
      obtain rfl := Option.some.inj hstep
      refine h.synced ⟨rfl, rfl, rfl, rfl, rfl⟩ fun project hlisted hstale => ?_
      have howed : (SyncBatch.working (workers.modify i fun w =>
          { w with fetched := some fetched })).owed = s.sync.owed := by
        rw [hworking]
        exact owed_modify workers i fun _ => ⟨rfl, rfl⟩
      exact (h.covered project hlisted hstale).imp (fun hmem => howed ▸ hmem) fun hspared =>
        hspared.mono ⟨rfl, rfl, rfl, rfl, rfl⟩ (fun _ hmem => hmem) fun _ hmem => hmem
  · cases hstep

/-- The worker that completes reconciles its project, or it lets it go. -/
theorem Followed.complete (h : s.Followed) {i : ℕ} {turn : Turn}
    (hkept : s.Kept (.complete i turn)) (hstep : s.step x (.complete i turn) = some s') :
    s'.Followed := by
  simp only [step] at hstep
  split at hstep
  · next workers hworking =>
      obtain ⟨⟨name, loaded, fresh⟩, hi, hstep⟩ := Option.bind_eq_some_iff.mp hstep
      obtain ⟨fetched, rfl, hstep⟩ := Option.bind_eq_some_iff.mp hstep
      split at hstep
      · cases hstep
      · next ingest hcomplete =>
          obtain rfl := Option.some.inj hstep
          refine h.synced ⟨rfl, rfl, rfl, rfl, rfl⟩ fun project hlisted hstale => ?_
          have hletsGo : s.LetsGo i project ↔ name = project.name ∧
              if fetched.reconciles then
                fresh = false ∧ ¬s.Stale project ∧ fetched.serial.all (· < project.serial) = true
              else fresh = true ∧ s.Stale project := by
            rw [LetsGo, hworking]
            simp only [hi]
          set reconciled :=
            if fetched.reconciles ∧ fresh then name :: s.reconciled else s.reconciled
          have hmono : s.Spared project → Spared { s with
              ingest := ingest
              sync := .ofWorkers (workers.eraseIdx i)
              reconciled := reconciled } project := fun hspared =>
            hspared.mono ⟨rfl, rfl, rfl, rfl, rfl⟩ (fun _ hmem => hmem) fun _ hmem => by
              change _ ∈ reconciled
              simp only [reconciled]
              split
              · exact List.mem_cons_of_mem _ hmem
              · exact hmem
          change (serialOf project.name ingest.db).all _ = true at hstale
          rw [serialOf_complete hcomplete] at hstale
          by_cases hreconciles : project.name = name ∧ fetched.reconciles = true
          · obtain ⟨hname, hreconciles⟩ := hreconciles
            rw [if_pos ⟨hname, hreconciles⟩] at hstale
            cases fresh with
            | true =>
                refine Or.inr (Or.inr (Or.inl ?_))
                simp [reconciled, hreconciles, hname]
            | false =>
                by_cases hbefore : s.Stale project
                · rcases h.covered project hlisted hbefore with howed | hspared
                  · rw [hworking] at howed
                    exact (mem_owed_eraseIdx hi howed).imp_right fun hw => by cases hw.1
                  · exact Or.inr (hmono hspared)
                · refine Or.inr (hmono (hkept project hlisted (hletsGo.mpr ⟨hname.symm, ?_⟩)))
                  rw [if_pos hreconciles]
                  exact ⟨rfl, hbefore, hstale⟩
          · rw [if_neg hreconciles] at hstale
            rcases h.covered project hlisted hstale with howed | hspared
            · rw [hworking] at howed
              refine (mem_owed_eraseIdx hi howed).imp_right fun hw => ?_
              obtain ⟨hfresh, hname⟩ := hw
              refine hmono (hkept project hlisted (hletsGo.mpr ⟨hname, ?_⟩))
              rw [if_neg fun hrec => hreconciles ⟨hname.symm, hrec⟩]
              exact ⟨hfresh, hstale⟩
            · exact Or.inr (hmono hspared)
  · cases hstep

theorem Followed.raise (h : s.Followed) {failed : Option (String × ℚ)}
    (hkept : s.Kept (.raise failed)) (hstep : s.step x (.raise failed) = some s') :
    s'.Followed := by
  simp only [step] at hstep
  split at hstep
  · cases hstep
  · obtain rfl := Option.some.inj hstep
    refine h.synced ⟨rfl, rfl, rfl, rfl, rfl⟩ fun project hlisted hstale => Or.inr ?_
    have hspared : s.Spared project :=
      (h.covered project hlisted hstale).elim (hkept project hlisted hstale) id
    exact hspared.mono ⟨rfl, rfl, rfl, rfl, rfl⟩ (fun _ hmem => hmem) fun _ hmem => hmem

/-- Every step keeps the stale projects covered, if what it drops is asked for again. -/
theorem Followed.step (h : s.Followed) {e : FeedEvent} (hkept : s.Kept e)
    (hstep : (machine x).step s e = some s') : s'.Followed := by
  change s.step x e = some s' at hstep
  cases e with
  | publish listing => exact h.publish hkept hstep
  | poll header => exact h.poll hstep
  | readPage => exact h.readPage hstep
  | pollRaise => exact Followed.pollRaise hkept hstep
  | enqueueNext => exact h.enqueueNext hstep
  | enqueue name => exact h.enqueue hstep
  | drain batchLimit => exact h.drain hstep
  | refuse => exact h.refuse hstep
  | begin now => exact h.begin hkept hstep
  | fetch i fetched => exact h.fetch hstep
  | complete i turn => exact h.complete hkept hstep
  | raise failed => exact h.raise hkept hstep

/-! ## Runs -/

/-- A poll whose validators do not match returns every project that is stale. -/
theorem returned_of_modified (hmodified : s.server.notModified s.etag s.lastModified = false)
    (name : String) : s.Returned x name := by
  have hpoll : s.nextPoll x = pollIndex ⟨s.server.lastSerial, s.server.projects, s.server.etag,
      false⟩ x.chunkSize s.ingest.db := by
    rw [nextPoll, Listing.fetchSimpleIndex, hmodified]
    rfl
  constructor
  · rw [hpoll]
    rfl
  · rintro project hproject rfl hstale
    rw [hpoll]
    refine mem_staleProjects_readLocalSerials_iff.mpr
      ⟨⟨project, hproject, rfl⟩, fun hcurrent => ?_⟩
    obtain ⟨row, hrow, hle⟩ := hcurrent.2 project hproject rfl
    rw [Stale, serialOf, hrow] at hstale
    have hlt : row.serial < project.serial := by simpa using hstale
    exact absurd hlt (not_lt.mpr hle)

theorem Followed.noneLost (h : s.Followed) : s.NoneLost x := by
  intro hpoll hsync project hlisted hstale
  cases hidle : s.poll with
  | reading index serials lastName => simp [hidle, PollPhase.isIdle] at hpoll
  | enqueuing names => simp [hidle, PollPhase.isIdle] at hpoll
  | idle =>
      rcases h.covered project hlisted hstale with howed | hmem | hmem | hoffered | hasks
      · cases hbatch : s.sync with
        | idle => simp [hbatch, SyncBatch.owed] at howed
        | drained names => simp [hbatch, SyncBatch.isIdle] at hsync
        | working workers => simp [hbatch, SyncBatch.isIdle] at hsync
      · exact Or.inl hmem
      · exact Or.inr (Or.inr hmem)
      · simp [Offered, hidle] at hoffered
      · simp only [Asks, hidle] at hasks
        exact Or.inr (Or.inl (returned_of_modified hasks _))

/-- In every run in which no stale project is let go while the validators that are stored
match the listing, no stale project is lost. -/
theorem noneLost_of_kept {db : Db} {changeSeq : ℕ} {backoff : ProjectBackoff} {server : Listing}
    {l : List FeedEvent} {t : Feed}
    (hrun : (machine x).run (start db changeSeq backoff server) l = some t)
    (hkept : (machine x).Along Kept (start db changeSeq backoff server) l) :
    (machine x).Always (NoneLost x) (start db changeSeq backoff server) l :=
  Machine.always_of_along (fun _ _ _ h hkept hstep => h.step hkept hstep)
    (fun _ h => h.noneLost) (Followed.start db changeSeq backoff server) hkept hrun

/-! ## A rate limit and a `304` -/

def exampleFeedSetup : FeedSetup where
  rerollVersion := "1.0"
  repr := id

/-- A listing with an `ETag` and one project. -/
def exampleListing : Listing := ⟨5, [⟨"p", 5⟩], some "e1", none⟩

def exampleTurn : Turn := ⟨fun _ => 0, fun _ => 0, "t1", "t1", 60⟩

/-- The project is found stale, and its worker fetches something. -/
def syncRun (fetched : FetchedProject) : List FeedEvent :=
  [.poll none, .readPage, .enqueueNext, .drain 32, .begin fun _ => 0, .fetch 0 fetched,
    .complete 0 exampleTurn]

/-- The stages started over an empty database and that listing. -/
def exampleStart : Feed := start Db.empty 0 ⟨5, ∅, ∅, []⟩ exampleListing

theorem noneLost_syncRun_of_page : ∃ t,
    (machine exampleFeedSetup).run exampleStart (syncRun (.page ⟨5, []⟩)) = some t ∧
      serialOf "p" t.ingest.db = some 5 ∧
      (machine exampleFeedSetup).Always (NoneLost exampleFeedSetup) exampleStart
        (syncRun (.page ⟨5, []⟩)) := by
  have hends : ((machine exampleFeedSetup).run exampleStart (syncRun (.page ⟨5, []⟩))).any
      (fun t => decide (serialOf "p" t.ingest.db = some 5)) = true := by
    decide
  have hkept : (machine exampleFeedSetup).Along Kept exampleStart (syncRun (.page ⟨5, []⟩)) := by
    decide
  obtain ⟨t, hrun, hend⟩ := (Option.any_eq_true _ _).mp hends
  exact ⟨t, hrun, of_decide_eq_true hend, noneLost_of_kept hrun hkept⟩

/-- The project's page is rate limited: the project is in the listing and unknown here, no
stage has it, and polls are answered with `304`. -/
theorem rateLimited_project_lost : ∃ t,
    (machine exampleFeedSetup).run exampleStart
        (syncRun (.rateLimited "pypi.org" none) ++ [.poll (some "e1")]) = some t ∧
      t.listed = [⟨"p", 5⟩] ∧ serialOf "p" t.ingest.db = none ∧ t.pending = [] ∧
      t.server.notModified t.etag t.lastModified = true ∧ t.reconciled = [] ∧
      ¬(machine exampleFeedSetup).Always (NoneLost exampleFeedSetup) exampleStart
        (syncRun (.rateLimited "pypi.org" none) ++ [.poll (some "e1")]) := by
  have hends : ((machine exampleFeedSetup).run exampleStart
      (syncRun (.rateLimited "pypi.org" none) ++ [.poll (some "e1")])).any (fun t =>
        decide (t.poll.isIdle = true ∧ t.sync.isIdle = true ∧ t.listed = [⟨"p", 5⟩] ∧
          serialOf "p" t.ingest.db = none ∧ t.pending = [] ∧
          t.server.notModified t.etag t.lastModified = true ∧ t.reconciled = [])) = true := by
    decide
  obtain ⟨t, hrun, hend⟩ := (Option.any_eq_true _ _).mp hends
  obtain ⟨hpoll, hsync, hlisted, hserial, hpending, hnot, hreconciled⟩ := of_decide_eq_true hend
  refine ⟨t, hrun, hlisted, hserial, hpending, hnot, hreconciled, fun halways => ?_⟩
  have hstale : t.Stale ⟨"p", 5⟩ := by simp [Stale, hserial]
  rcases halways _ t (List.prefix_refl _) hrun hpoll hsync ⟨"p", 5⟩ (by simp [hlisted]) hstale
    with hmem | hreturned | hmem
  · simp [hpending] at hmem
  · have hmodified := hreturned.modified
    simp [nextPoll, Listing.fetchSimpleIndex, hnot, pollIndex] at hmodified
  · simp [hreconciled] at hmem

end Feed

end RerollSync.Stages
