import RerollSync.Dispatcher.Queue
import Mathlib.Data.Rat.Init

/-!
# The fetch stage

`FetchStage.iterate` past its disk guard and its breaker: a batch is claimed, its
sidecars are downloaded over a pool, and every item goes to the handoff queue, has
its outcome applied, or is released.  What the calls of an iteration return, and
which of them raise, is an input.
-/

namespace RerollSync.Stages

open RerollSync.Store RerollSync.Support RerollSync.Dispatcher

/-- `FetchOutcome`. -/
inductive FetchOutcome
  | ok (data : Bytes) (sha256 : String)
  | skip (reason subcategory details : String) (permanent : Bool) (rerollVersion : Option String)
  | retry (reason details : String)
  | rateLimited (child : String) (retryAfter : Option ℚ)
deriving DecidableEq

/-- `_ClaimedRow`. -/
structure ClaimedRow where
  filename : String
  url : String
  metadataSha256 : Option String
deriving DecidableEq

/-- `HandoffItem`. -/
structure HandoffItem where
  queueItem : QueueItem
  filename : String
  data : Bytes
  sha256 : String
deriving DecidableEq

/-- What a stage tells its breaker at the end of an iteration. -/
inductive Verdict
  | success
  | failure
deriving DecidableEq

/-- The dispatcher's queues and the handoff queue. -/
structure FetchSide where
  queues : Queues
  handoff : List HandoffItem

/-- How an iteration ends: it lets an exception through, or it returns. -/
structure FetchExit where
  side : FetchSide
  raised : Bool
  verdict : Option Verdict

/-- What the loop over the futures meets at one of them: the worker's outcome, if
`future.result()` does not raise; whether the `put` or the `apply_outcome` that
follows returns; and whether the shutdown event is set by then. -/
structure Completion where
  worker : Option FetchOutcome
  handled : Bool := true
  shutdown : Bool := false
deriving DecidableEq

/-- What one iteration meets: whether `claim`, `_load_rows` and the submissions to the
pool return, the order in which the futures complete, and what each of them gives. -/
structure FetchTurn where
  limit : ℕ
  nowIso : String
  claims : Bool := true
  loads : Bool := true
  submits : Bool := true
  asCompleted : List (QueueItem × ClaimedRow) → List (QueueItem × ClaimedRow) := id
  perm : ∀ pairs, (asCompleted pairs).Perm pairs := by exact fun _ => .refl _
  completion : QueueItem → Completion

namespace FetchStage

/-- `_load_rows`. -/
def loadRow (db : Db) (item : QueueItem) : Option ClaimedRow :=
  (db.wheels.get? item.id).map fun row => ⟨row.filename, row.url, row.metadataSha256⟩

/-- `fetch_pairs`. -/
def fetchPairs (db : Db) (items : List QueueItem) : List (QueueItem × ClaimedRow) :=
  items.filterMap fun item => (loadRow db item).map fun row => (item, row)

/-- `release` of every item. -/
def releaseAll (items : List QueueItem) (queues : Queues) : Queues :=
  items.foldl (fun queues item => release .fetch item.id queues) queues

/-- The batch so far. -/
structure Batch where
  side : FetchSide
  sawOk : Bool := false
  sawTransientFailure : Bool := false

/-- An outcome is handed off or applied; `apply_outcome` releases the item even when
it raises. -/
def Batch.settle (batch : Batch) (item : QueueItem) (row : ClaimedRow) (handled : Bool) :
    FetchOutcome → Batch
  | .ok data sha256 =>
      { batch with
        sawOk := true
        side := if handled then
            { batch.side with
              handoff := batch.side.handoff ++ [⟨item, row.filename, data, sha256⟩] }
          else batch.side }
  | .retry _ _ =>
      { batch with
        sawTransientFailure := true
        side := { batch.side with queues := release .fetch item.id batch.side.queues } }
  | _ =>
      { batch with
        side := { batch.side with queues := release .fetch item.id batch.side.queues } }

/-- The end of `_dispatch_batch`. -/
def Batch.verdict (batch : Batch) : Option Verdict :=
  if batch.sawTransientFailure then some .failure
  else if batch.sawOk then some .success
  else none

/-- The loop over the completed futures and `_abandon_pending`; the flag says whether
an exception ends it. -/
def completeBatch (turn : FetchTurn) :
    List (QueueItem × ClaimedRow) → Batch → Batch × Bool
  | [], batch => (batch, false)
  | (item, row) :: pending, batch =>
      match (turn.completion item).worker with
      | none => (batch, true)
      | some outcome =>
          let batch := batch.settle item row (turn.completion item).handled outcome
          if !(turn.completion item).handled then (batch, true)
          else if (turn.completion item).shutdown then
            ({ batch with
              side := { batch.side with
                queues := releaseAll (pending.map Prod.fst) batch.side.queues } }, false)
          else completeBatch turn pending batch

/-- The part of `_dispatch_batch` that follows the submissions. -/
def finishBatch (turn : FetchTurn) (order : List (QueueItem × ClaimedRow)) (side : FetchSide) :
    FetchExit :=
  let batch := completeBatch turn order { side := side }
  ⟨batch.1.side, batch.2, if batch.2 then none else batch.1.verdict⟩

/-- `_dispatch_batch`. -/
def dispatchBatch (turn : FetchTurn) (db : Db) (items : List QueueItem) (side : FetchSide) :
    FetchExit :=
  if !turn.loads then ⟨side, true, none⟩
  else
    let missing := items.filter fun item => (loadRow db item).isNone
    let side := { side with queues := releaseAll missing side.queues }
    if fetchPairs db items = [] then ⟨side, false, none⟩
    else if !turn.submits then ⟨side, true, none⟩
    else finishBatch turn (turn.asCompleted (fetchPairs db items)) side

/-- `iterate` once the breaker has allowed it; the claim and `_load_rows` read two
snapshots. -/
def claimAndDispatch (turn : FetchTurn) (claimDb rowsDb : Db) (side : FetchSide) : FetchExit :=
  if !turn.claims then ⟨side, true, none⟩
  else
    let claimed := claim .fetch turn.limit turn.nowIso claimDb side.queues
    let side := { side with queues := claimed.2 }
    if claimed.1 = [] then ⟨side, false, none⟩
    else dispatchBatch turn rowsDb claimed.1 side

/-! ## What the breaker is told -/

/-- Neither the worker nor the call that takes its outcome raises. -/
def Smooth (turn : FetchTurn) (pair : QueueItem × ClaimedRow) : Prop :=
  (turn.completion pair.1).worker.isSome ∧ (turn.completion pair.1).handled = true

instance (turn : FetchTurn) (pair : QueueItem × ClaimedRow) : Decidable (Smooth turn pair) :=
  inferInstanceAs (Decidable (_ ∧ _))

/-- The files host answered with the sidecar, or failed to answer. -/
def Telling (turn : FetchTurn) (pair : QueueItem × ClaimedRow) : Bool :=
  match (turn.completion pair.1).worker with
  | some (.ok _ _) => true
  | some (.retry _ _) => true
  | _ => false

/-- The futures the loop comes to, unless one of them raises: those up to the first
at which the shutdown event is set. -/
def reached (turn : FetchTurn) :
    List (QueueItem × ClaimedRow) → List (QueueItem × ClaimedRow)
  | [] => []
  | pair :: pending =>
      pair :: if (turn.completion pair.1).shutdown then [] else reached turn pending

/-- The pairs of an iteration, in the order in which their futures complete. -/
def completed (turn : FetchTurn) (claimDb rowsDb : Db) (side : FetchSide) :
    List (QueueItem × ClaimedRow) :=
  turn.asCompleted
    (fetchPairs rowsDb (claim .fetch turn.limit turn.nowIso claimDb side.queues).1)

/-- Nothing raises, and a download the loop comes to was answered or failed. -/
def TellsBreaker (turn : FetchTurn) (claimDb rowsDb : Db) (side : FetchSide) : Prop :=
  turn.claims = true ∧ turn.loads = true ∧ turn.submits = true ∧
    (∀ pair ∈ reached turn (completed turn claimDb rowsDb side), Smooth turn pair) ∧
      ∃ pair ∈ reached turn (completed turn claimDb rowsDb side), Telling turn pair = true

instance (turn : FetchTurn) (claimDb rowsDb : Db) (side : FetchSide) :
    Decidable (TellsBreaker turn claimDb rowsDb side) :=
  inferInstanceAs (Decidable (_ ∧ _))

variable {turn : FetchTurn}

theorem Batch.verdict_isSome_iff {batch : Batch} : batch.verdict.isSome = true ↔
    batch.sawTransientFailure = true ∨ batch.sawOk = true := by
  unfold verdict
  cases batch.sawTransientFailure <;> cases batch.sawOk <;> simp

theorem Batch.verdict_settle (batch : Batch) {item : QueueItem} (row : ClaimedRow)
    (handled : Bool) {outcome : FetchOutcome}
    (h : (turn.completion item).worker = some outcome) :
    ((batch.settle item row handled outcome).verdict.isSome = true ↔
      batch.verdict.isSome = true ∨ Telling turn (item, row) = true) := by
  unfold Telling
  rw [h, verdict_isSome_iff, verdict_isSome_iff]
  cases outcome with
  | ok data sha256 => simp [settle]
  | retry reason details => simp [settle]
  | skip reason subcategory details permanent rerollVersion => simp [settle]
  | rateLimited child retryAfter => simp [settle]

theorem completeBatch_raises_iff {order : List (QueueItem × ClaimedRow)} {batch : Batch} :
    (completeBatch turn order batch).2 = false ↔ ∀ pair ∈ reached turn order, Smooth turn pair := by
  induction order generalizing batch with
  | nil => simp [completeBatch, reached]
  | cons pair pending ih =>
      obtain ⟨item, row⟩ := pair
      rw [completeBatch, reached, List.forall_mem_cons, Smooth]
      cases hworker : (turn.completion item).worker with
      | none => simp
      | some outcome =>
          cases hhandled : (turn.completion item).handled with
          | false => simp
          | true =>
              cases hshutdown : (turn.completion item).shutdown with
              | true => simp
              | false => simp [ih]

theorem verdict_completeBatch_iff {order : List (QueueItem × ClaimedRow)} (batch : Batch)
    (h : ∀ pair ∈ reached turn order, Smooth turn pair) :
    (completeBatch turn order batch).1.verdict.isSome = true ↔
      batch.verdict.isSome = true ∨ ∃ pair ∈ reached turn order, Telling turn pair = true := by
  induction order generalizing batch with
  | nil => simp [completeBatch, reached]
  | cons pair pending ih =>
      obtain ⟨item, row⟩ := pair
      rw [reached] at h ⊢
      obtain ⟨⟨hworker, hhandled⟩, hpending⟩ := List.forall_mem_cons.mp h
      obtain ⟨outcome, hworker⟩ := Option.isSome_iff_exists.mp hworker
      have hsettle := Batch.verdict_settle batch row true hworker
      rw [completeBatch, hworker]
      cases hshutdown : (turn.completion item).shutdown with
      | true =>
          rw [Batch.verdict_isSome_iff] at hsettle ⊢
          simpa [hhandled] using hsettle
      | false =>
          have hpending : ∀ pair ∈ reached turn pending, Smooth turn pair := by
            simpa [hshutdown] using hpending
          simp [hhandled, ih _ hpending, hsettle, or_assoc]

theorem verdict_finishBatch_iff {order : List (QueueItem × ClaimedRow)} {side : FetchSide} :
    (finishBatch turn order side).verdict.isSome = true ↔
      (∀ pair ∈ reached turn order, Smooth turn pair) ∧
        ∃ pair ∈ reached turn order, Telling turn pair = true := by
  have hraises : (completeBatch turn order ⟨side, false, false⟩).2 = false ↔
      ∀ pair ∈ reached turn order, Smooth turn pair := completeBatch_raises_iff
  rw [← hraises]
  unfold finishBatch
  cases hraised : (completeBatch turn order ⟨side, false, false⟩).2 with
  | true => simp [hraised]
  | false =>
      have hverdict := verdict_completeBatch_iff ⟨side, false, false⟩ (hraises.mp hraised)
      simpa only [hraised, Bool.false_eq_true, if_false, true_and, Batch.verdict,
        Option.isSome_none, false_or] using hverdict

/-- The breaker is told a result exactly when nothing raises and a download the loop
comes to was answered or failed. -/
theorem verdict_claimAndDispatch_iff {claimDb rowsDb : Db} {side : FetchSide} :
    (claimAndDispatch turn claimDb rowsDb side).verdict.isSome = true ↔
      TellsBreaker turn claimDb rowsDb side := by
  have hnil : reached turn (turn.asCompleted []) = [] := by
    rw [(turn.perm []).eq_nil]
    rfl
  unfold claimAndDispatch TellsBreaker completed
  cases turn.claims with
  | false => simp
  | true =>
      by_cases hclaimed : (claim .fetch turn.limit turn.nowIso claimDb side.queues).1 = []
      · simp [hclaimed, fetchPairs, hnil]
      · simp only [hclaimed, if_false, dispatchBatch]
        cases turn.loads with
        | false => simp
        | true =>
            by_cases hpairs : fetchPairs rowsDb
                (claim .fetch turn.limit turn.nowIso claimDb side.queues).1 = []
            · simp [hpairs, hnil]
            · cases turn.submits with
              | false => simp [hpairs]
              | true => simp [hpairs, verdict_finishBatch_iff]

end FetchStage

end RerollSync.Stages
