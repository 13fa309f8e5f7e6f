import RerollSync.Fetch.BulkConvert
import RerollSync.Pipeline.Machine
import RerollSync.Stages.FetchStage
import RerollSync.Support.Custody
import RerollSync.Support.Machine

/-!
# Ids in flight

`Dispatcher.claim` puts the ids it returns in flight, and only `apply_outcome` and
`release` take them out.  The fetch stage hands its ids to the handoff queue, from
which the archive thread takes them; `claim_batch` hands its ids to the batch it
returns, which the convert stage goes through.  Which calls return, and which of them
raise, is an input throughout.
-/

namespace RerollSync.Stages

open RerollSync.Store RerollSync.Support RerollSync.Dispatcher RerollSync.Fetch
open RerollSync.Archive RerollSync.Convert

/-! ## Bulk claims -/

/-- `BulkConvertReady`. -/
structure BulkConvertReady where
  queueItem : QueueItem
  filename : String
  data : Bytes
deriving DecidableEq

/-- What `read` of the archive's reader returns or raises for an item. -/
inductive BlobRead
  | data (data : Bytes)
  | fileNotFound
  | corruptSegment (segmentId : ℕ) (reason : String)
  | raised (exception : String)
deriving DecidableEq

/-- What a call of `claim_batch` meets: whether `claim`, `_load_rows` and
`_load_locations` return, what is read for an item, and whether its `apply_outcome`
returns. -/
structure BulkTurn where
  limit : ℕ
  nowIso : String
  claims : Bool := true
  loads : Bool := true
  locates : Bool := true
  read : QueueItem → BlobRead
  applies : QueueItem → Bool := fun _ => true

namespace BulkConvertSource

/-- What becomes of an item that is located; nothing when its read lets an exception
through. -/
def readResult (turn : BulkTurn) (entry : BlobLocation × QueueItem × String) :
    Option BulkResult :=
  match turn.read entry.2.1 with
  | .data data => some (.ready entry.2.2 data)
  | .fileNotFound => some (.retried (missingSegment entry.1.segmentId))
  | .corruptSegment segmentId reason =>
      some (.skipped (skipCorrupt entry.1.sha256 (corruptMessage segmentId reason)))
  | .raised _ => none

/-- The items in the order in which the loops over `by_sha256` and `grouped` resolve
them. -/
def resolutions (turn : BulkTurn) (rowsDb locationsDb : Db) (items : List QueueItem) :
    List (QueueItem × Option BulkResult) :=
  ((bySha256 rowsDb items).rows.filter fun entry =>
      (ArchiveStore.locationFor entry.1 locationsDb).isNone).flatMap (fun entry =>
        entry.2.map fun r => (r.1, some (.retried (missingBlob entry.1)))) ++
    (groupedItems locationsDb (bySha256 rowsDb items)).map fun entry =>
      (entry.2.1, readResult turn entry)

/-- The two loops: the batch, unless an exception ends them. -/
def resolve (turn : BulkTurn) :
    List (QueueItem × Option BulkResult) → Queues → Queues × Option (List BulkConvertReady)
  | [], queues => (queues, some [])
  | (_, none) :: _, queues => (queues, none)
  | (item, some (.ready filename data)) :: rest, queues =>
      ((resolve turn rest queues).1,
        (resolve turn rest queues).2.map (⟨item, filename, data⟩ :: ·))
  | (item, some _) :: rest, queues =>
      if turn.applies item then resolve turn rest (release .convert item.id queues)
      else (release .convert item.id queues, none)

/-- `release` of every item. -/
def releaseAll (items : List QueueItem) (queues : Queues) : Queues :=
  items.foldl (fun queues item => release .convert item.id queues) queues

/-- `claim_batch`: the batch, unless an exception ends the call. -/
def claimBatch (turn : BulkTurn) (claimDb rowsDb locationsDb : Db) (queues : Queues) :
    Queues × Option (List BulkConvertReady) :=
  if !turn.claims then (queues, none)
  else
    let claimed := claim .convert turn.limit turn.nowIso claimDb queues
    if claimed.1 = [] then (claimed.2, some [])
    else if !turn.loads then (claimed.2, none)
    else
      let unlinked := claimed.1.filter fun item => (lookedUp rowsDb item).isNone
      let queues := releaseAll unlinked claimed.2
      if (bySha256 rowsDb claimed.1).rows ≠ [] ∧ turn.locates = false then (queues, none)
      else resolve turn (resolutions turn rowsDb locationsDb claimed.1) queues

end BulkConvertSource

/-! ## Conversions -/

/-- What the convert loop meets at a completed future: the worker's outcome, if
`future.result()` does not raise, and whether `apply_outcome` and `on_applied` return. -/
structure ConvertCompletion where
  worker : Option ConvertOutcome
  applied : Bool := true
  hooked : Bool := true

/-- What `ConvertStage.iterate` meets once it has a batch. -/
structure ConvertTurn where
  submits : Bool := true
  asCompleted : List QueueItem → List QueueItem := id
  perm : ∀ items, (asCompleted items).Perm items := by exact fun _ => .refl _
  completion : QueueItem → ConvertCompletion

namespace ConvertStage

/-- The loop over the completed futures; `apply_outcome` releases the item even when it
raises. -/
def completeItems (turn : ConvertTurn) : List QueueItem → Queues → Queues
  | [], queues => queues
  | item :: pending, queues =>
      match (turn.completion item).worker with
      | none => queues
      | some _ =>
          if (turn.completion item).applied && (turn.completion item).hooked then
            completeItems turn pending (release .convert item.id queues)
          else release .convert item.id queues

/-- `iterate` from its batch on. -/
def convertItems (turn : ConvertTurn) (items : List QueueItem) (queues : Queues) : Queues :=
  if turn.submits then completeItems turn (turn.asCompleted items) queues else queues

end ConvertStage

/-! ## The holders -/

/-- `_ConvertQueueItem`. -/
structure ConvertQueueItem where
  queueItem : QueueItem
  filename : String
  data : Bytes
deriving DecidableEq

/-- Which of the calls of `process_one` return: `add`, `_maybe_seal`, `apply_outcome`,
`on_archived`. -/
structure ArchiveTurn where
  adds : Bool := true
  seals : Bool := true
  applies : Bool := true
  forwards : Bool := true
deriving DecidableEq

/-- The dispatcher and the handoff queue, the item that the archive thread has taken
from it, the fed queue, and the batch that `claim_batch` has returned. -/
structure Custody where
  side : FetchSide
  archiving : Option HandoffItem := none
  fed : List ConvertQueueItem := []
  ready : List BulkConvertReady := []

/-- A call returns or raises.  `process_one` is two events: it takes an item, and it
ends. -/
inductive CustodyEvent
  | fetch (turn : FetchTurn) (claimDb rowsDb : Db)
  | take
  | archived (turn : ArchiveTurn)
  | claimBatch (turn : BulkTurn) (claimDb rowsDb locationsDb : Db)
  | convert (turn : ConvertTurn)
  | convertFed (turn : ConvertTurn) (limit : ℕ)

namespace Custody

/-- Nothing claimed yet. -/
def start : Custody where
  side := ⟨.initial, []⟩

/-- `on_archived`. -/
def onArchived (s : Custody) (item : HandoffItem) : List ConvertQueueItem :=
  s.fed ++ [⟨{ item.queueItem with state := .needConvert }, item.filename, item.data⟩]

/-- `process_one` from the item it has taken on. -/
def archive (s : Custody) (item : HandoffItem) (turn : ArchiveTurn) : Custody :=
  if turn.adds && turn.seals then
    { s with
      side.queues := release .fetch item.queueItem.id s.side.queues
      archiving := none
      fed := if turn.applies && turn.forwards then s.onArchived item else s.fed }
  else { s with archiving := none }

/-- An iteration of the convert stage drains the fed queue, or it goes through a
claimed batch. -/
def step (s : Custody) : CustodyEvent → Option Custody
  | .fetch turn claimDb rowsDb =>
      some { s with side := (FetchStage.claimAndDispatch turn claimDb rowsDb s.side).side }
  | .take =>
      match s.archiving, s.side.handoff with
      | none, item :: rest =>
          some { s with
            side.handoff := rest
            archiving := some item }
      | _, _ => none
  | .archived turn => s.archiving.map fun item => s.archive item turn
  | .claimBatch turn claimDb rowsDb locationsDb =>
      if s.ready = [] then
        let exit := BulkConvertSource.claimBatch turn claimDb rowsDb locationsDb s.side.queues
        some { s with
          side.queues := exit.1
          ready := exit.2.getD [] }
      else none
  | .convert turn =>
      if s.ready = [] then none
      else
        some { s with
          side.queues := ConvertStage.convertItems turn
            (s.ready.map BulkConvertReady.queueItem) s.side.queues
          ready := [] }
  | .convertFed turn limit =>
      if s.ready = [] ∧ s.fed ≠ [] then
        some { s with
          side.queues := ConvertStage.convertItems turn
            ((s.fed.take limit).map ConvertQueueItem.queueItem) s.side.queues
          fed := s.fed.drop limit }
      else none

def machine : Machine Custody CustodyEvent := ⟨step⟩

/-- The ids that the handoff queue and the archive thread hold. -/
def fetchHolders (s : Custody) : List ℕ :=
  (s.side.handoff ++ s.archiving.toList).map fun item => item.queueItem.id

/-- The ids of the batch that `claim_batch` has returned. -/
def convertHolders (s : Custody) : List ℕ := s.ready.map fun item => item.queueItem.id

/-- Every id in flight has one live holder. -/
structure Kept (s : Custody) : Prop where
  fetch : Conserved (s.side.queues.inFlight .fetch) s.fetchHolders
  convert : Conserved (s.side.queues.inFlight .convert) s.convertHolders

end Custody

/-! ## Exits that leave nothing behind -/

/-- Every future that the loop comes to has an outcome that is handled, up to the
shutdown; the `apply_outcome` of the last item may raise. -/
def FetchStage.Settles (turn : FetchTurn) : List (QueueItem × ClaimedRow) → Prop
  | [] => True
  | (item, _) :: pending =>
      match (turn.completion item).worker with
      | none => False
      | some (.ok _ _) => (turn.completion item).handled = true ∧
          ((turn.completion item).shutdown = true ∨ Settles turn pending)
      | some _ =>
          if (turn.completion item).handled then
            (turn.completion item).shutdown = true ∨ Settles turn pending
          else pending = []

/-- An iteration of the fetch stage whose claim returns items gets their rows and, if
there are any, submits and settles them. -/
def FetchStage.Accounted (turn : FetchTurn) (claimDb rowsDb : Db) (side : FetchSide) : Prop :=
  let items := (claim .fetch turn.limit turn.nowIso claimDb side.queues).1
  turn.claims = true → items ≠ [] → turn.loads = true ∧ (fetchPairs rowsDb items ≠ [] →
    turn.submits = true ∧ Settles turn (turn.asCompleted (fetchPairs rowsDb items)))

/-- No read and no `apply_outcome` raises. -/
def BulkConvertSource.Returns (turn : BulkTurn) (steps : List (QueueItem × Option BulkResult)) :
    Prop :=
  ∀ step ∈ steps, ∃ result, step.2 = some result ∧
    ((∃ filename data, result = .ready filename data) ∨ turn.applies step.1 = true)

/-- No read raises and no `apply_outcome`, except that of the last item when no item is
ready. -/
def BulkConvertSource.Settles (turn : BulkTurn) :
    List (QueueItem × Option BulkResult) → Prop
  | [] => True
  | (_, none) :: _ => False
  | (_, some (.ready _ _)) :: rest => Returns turn rest
  | (item, some _) :: rest => if turn.applies item then Settles turn rest else rest = []

/-- A bulk claim that returns items gets their rows and locations, and settles them. -/
def BulkConvertSource.Accounted (turn : BulkTurn) (claimDb rowsDb locationsDb : Db)
    (queues : Queues) : Prop :=
  let items := (claim .convert turn.limit turn.nowIso claimDb queues).1
  turn.claims = true → items ≠ [] → turn.loads = true ∧
    ((bySha256 rowsDb items).rows ≠ [] →
      turn.locates = true ∧ Settles turn (resolutions turn rowsDb locationsDb items))

/-- Every future has an outcome whose `apply_outcome` and hook return; those of the last
item may raise. -/
def ConvertStage.Settles (turn : ConvertTurn) : List QueueItem → Prop
  | [] => True
  | item :: pending => (turn.completion item).worker.isSome = true ∧
      (if (turn.completion item).applied && (turn.completion item).hooked then
        Settles turn pending
      else pending = [])

/-- The condition on a call. -/
def Custody.Accounted (s : Custody) : CustodyEvent → Prop
  | .fetch turn claimDb rowsDb => FetchStage.Accounted turn claimDb rowsDb s.side
  | .archived turn => turn.adds = true ∧ turn.seals = true
  | .claimBatch turn claimDb rowsDb locationsDb =>
      BulkConvertSource.Accounted turn claimDb rowsDb locationsDb s.side.queues
  | .convert turn => turn.submits = true ∧ ConvertStage.Settles turn
      (turn.asCompleted (s.ready.map BulkConvertReady.queueItem))
  | _ => True

/-! ## Claims and releases -/

theorem mem_inFlight_release {stage : Stage} {wheelId id : ℕ} {queues : Queues} :
    id ∈ (release stage wheelId queues).inFlight stage ↔
      id ∈ queues.inFlight stage ∧ id ∉ [wheelId] := by
  simp [release]

theorem inFlight_release_of_ne {stage stage' : Stage} (h : stage' ≠ stage) (wheelId : ℕ)
    (queues : Queues) : (release stage wheelId queues).inFlight stage' = queues.inFlight stage' :=
  Function.update_of_ne h _ _

theorem mem_inFlight_foldl_release {stage : Stage} {items : List QueueItem} {queues : Queues}
    {id : ℕ} :
    id ∈ (items.foldl (fun queues item => release stage item.id queues) queues).inFlight stage ↔
      id ∈ queues.inFlight stage ∧ id ∉ items.map QueueItem.id := by
  induction items generalizing queues with
  | nil => simp
  | cons item items ih =>
      rw [List.foldl_cons, ih, mem_inFlight_release]
      simp [and_assoc]

theorem inFlight_foldl_release_of_ne {stage stage' : Stage} (h : stage' ≠ stage)
    (items : List QueueItem) (queues : Queues) :
    (items.foldl (fun queues item => release stage item.id queues) queues).inFlight stage' =
      queues.inFlight stage' := by
  induction items generalizing queues with
  | nil => rfl
  | cons item items ih => rw [List.foldl_cons, ih, inFlight_release_of_ne h]

/-! ## The fetch stage -/

namespace FetchStage

variable {turn : FetchTurn}

/-- The ids of the pairs. -/
def ids (pairs : List (QueueItem × ClaimedRow)) : List ℕ := pairs.map fun pair => pair.1.id

def handoffIds (items : List HandoffItem) : List ℕ := items.map fun item => item.queueItem.id

theorem mem_releaseAll_ids {pairs : List (QueueItem × ClaimedRow)} {queues : Queues} {id : ℕ} :
    id ∈ (releaseAll (pairs.map Prod.fst) queues).inFlight .fetch ↔
      id ∈ queues.inFlight .fetch ∧ id ∉ ids pairs := by
  rw [releaseAll, mem_inFlight_foldl_release, List.map_map]
  rfl

/-- A loop in which nothing raises settles its futures. -/
theorem settles_of_smooth {order : List (QueueItem × ClaimedRow)}
    (h : ∀ pair ∈ order, Smooth turn pair) : Settles turn order := by
  induction order with
  | nil => trivial
  | cons pair pending ih =>
      obtain ⟨item, row⟩ := pair
      obtain ⟨⟨hworker, hhandled⟩, hpending⟩ := List.forall_mem_cons.mp h
      obtain ⟨outcome, hworker⟩ := Option.isSome_iff_exists.mp hworker
      simp only at hworker hhandled
      rw [Settles, hworker]
      cases outcome <;> simp [hhandled, ih hpending]

/-- The loop from the item whose outcome has been handed off or applied on. -/
def afterSettle (turn : FetchTurn) (item : QueueItem) (pending : List (QueueItem × ClaimedRow))
    (batch : Batch) : Batch × Bool :=
  if !(turn.completion item).handled then (batch, true)
  else if (turn.completion item).shutdown then
    ({ batch with
      side := { batch.side with
        queues := releaseAll (pending.map Prod.fst) batch.side.queues } }, false)
  else completeBatch turn pending batch

/-- The loop over the completed futures hands off, releases and leaves behind. -/
theorem swept_completeBatch {order : List (QueueItem × ClaimedRow)} (batch : Batch)
    (hnodup : (ids order).Nodup) : ∃ held left,
      Swept (ids order) (handoffIds held) left (batch.side.queues.inFlight .fetch)
        ((completeBatch turn order batch).1.side.queues.inFlight .fetch) ∧
      (completeBatch turn order batch).1.side.handoff = batch.side.handoff ++ held ∧
      (completeBatch turn order batch).1.side.queues.inFlight .convert =
        batch.side.queues.inFlight .convert ∧
      (left = [] ↔ Settles turn order) := by
  induction order generalizing batch with
  | nil =>
      exact ⟨[], [], swept_nil _, (List.append_nil _).symm, rfl, iff_of_true rfl trivial⟩
  | cons pair pending ih =>
      obtain ⟨item, row⟩ := pair
      obtain ⟨hitem, hpending⟩ := List.nodup_cons.mp hnodup
      rw [completeBatch, Settles]
      cases hworker : (turn.completion item).worker with
      | none =>
          exact ⟨[], ids ((item, row) :: pending), swept_of_left _ hnodup,
            (List.append_nil _).symm, rfl, by simp [ids]⟩
      | some outcome =>
          have hrest : ∀ batch' : Batch, ∃ held left,
              Swept (ids pending) (handoffIds held) left (batch'.side.queues.inFlight .fetch)
                ((afterSettle turn item pending batch').1.side.queues.inFlight .fetch) ∧
              (afterSettle turn item pending batch').1.side.handoff =
                batch'.side.handoff ++ held ∧
              (afterSettle turn item pending batch').1.side.queues.inFlight .convert =
                batch'.side.queues.inFlight .convert ∧
              (left = [] ↔ if (turn.completion item).handled then
                (turn.completion item).shutdown = true ∨ Settles turn pending
              else pending = []) := by
            intro batch'
            unfold afterSettle
            cases (turn.completion item).handled with
            | false =>
                exact ⟨[], ids pending, swept_of_left _ hpending, (List.append_nil _).symm, rfl,
                  by simp [ids]⟩
            | true =>
                cases (turn.completion item).shutdown with
                | true =>
                    refine ⟨[], [], swept_of_released fun id => mem_releaseAll_ids,
                      (List.append_nil _).symm, ?_, by simp⟩
                    exact inFlight_foldl_release_of_ne (by decide) _ _
                | false => simpa using ih batch' hpending
          have hreleased : ∀ batch' : Batch,
              batch'.side.queues = release .fetch item.id batch.side.queues →
              batch'.side.handoff = batch.side.handoff → ∃ held left,
                Swept (ids ((item, row) :: pending)) (handoffIds held) left
                  (batch.side.queues.inFlight .fetch)
                  ((afterSettle turn item pending batch').1.side.queues.inFlight .fetch) ∧
                (afterSettle turn item pending batch').1.side.handoff =
                  batch.side.handoff ++ held ∧
                (afterSettle turn item pending batch').1.side.queues.inFlight .convert =
                  batch.side.queues.inFlight .convert ∧
                (left = [] ↔ if (turn.completion item).handled then
                  (turn.completion item).shutdown = true ∨ Settles turn pending
                else pending = []) := by
            intro batch' hqueues hhandoff
            obtain ⟨held, left, hswept, hheld, hconvert, hleft⟩ := hrest batch'
            rw [hqueues] at hswept hconvert
            rw [hhandoff] at hheld
            refine ⟨held, left, ?_, hheld, ?_, hleft⟩
            · exact hswept.release (fun id => mem_inFlight_release) fun id hid => by
                rwa [List.mem_singleton.mp hid]
            · rw [hconvert, inFlight_release_of_ne (by decide)]
          cases outcome with
          | ok data sha256 =>
              cases hhandled : (turn.completion item).handled with
              | false =>
                  exact ⟨[], ids ((item, row) :: pending), swept_of_left _ hnodup,
                    (List.append_nil _).symm, rfl, by simp [ids]⟩
              | true =>
                  obtain ⟨held, left, hswept, hheld, hconvert, hleft⟩ :=
                    hrest (batch.settle item row true (.ok data sha256))
                  rw [afterSettle, hhandled] at hswept hheld hconvert
                  rw [hhandled, if_pos rfl] at hleft
                  refine ⟨⟨item, row.filename, data, sha256⟩ :: held, left, hswept.keep hitem, ?_,
                    hconvert, by rw [hleft]; simp⟩
                  refine hheld.trans ?_
                  rw [Batch.settle, if_pos rfl, List.append_assoc]
                  rfl
          | skip reason subcategory details permanent rerollVersion => exact hreleased _ rfl rfl
          | retry reason details => exact hreleased _ rfl rfl
          | rateLimited child retryAfter => exact hreleased _ rfl rfl

theorem ids_fetchPairs (db : Db) (items : List QueueItem) :
    ids (fetchPairs db items) =
      (items.filter fun item => (loadRow db item).isSome).map QueueItem.id := by
  induction items with
  | nil => rfl
  | cons item items ih =>
      rw [fetchPairs, List.filterMap_cons] at *
      cases hrow : loadRow db item with
      | none => simpa [hrow] using ih
      | some row => simpa [hrow, ids] using ih

theorem swept_dispatchBatch (turn : FetchTurn) (db : Db) {items : List QueueItem}
    (side : FetchSide) (hitems : items ≠ []) (hnodup : (items.map QueueItem.id).Nodup) :
    ∃ held left, Swept (items.map QueueItem.id) (handoffIds held) left
        (side.queues.inFlight .fetch)
        ((dispatchBatch turn db items side).side.queues.inFlight .fetch) ∧
      (dispatchBatch turn db items side).side.handoff = side.handoff ++ held ∧
      (dispatchBatch turn db items side).side.queues.inFlight .convert =
        side.queues.inFlight .convert ∧
      (left = [] ↔ turn.loads = true ∧ (fetchPairs db items ≠ [] →
        turn.submits = true ∧ Settles turn (turn.asCompleted (fetchPairs db items)))) := by
  have hsplit : ((items.filter fun item => (loadRow db item).isNone).map QueueItem.id ++
      ids (fetchPairs db items)).Perm (items.map QueueItem.id) := by
    rw [ids_fetchPairs, ← List.map_append]
    refine List.Perm.map _ ?_
    have hnot : (fun item => (loadRow db item).isSome) =
        fun item => !(loadRow db item).isNone := by
      funext item
      rw [Option.not_isNone]
    rw [hnot]
    exact List.filter_append_perm _ items
  have hpairs : (ids (fetchPairs db items)).Nodup :=
    (List.nodup_append.mp (hsplit.nodup_iff.mpr hnodup)).2.1
  have hmissing : ∀ id ∈ (items.filter fun item => (loadRow db item).isNone).map QueueItem.id,
      id ∉ ids (fetchPairs db items) := fun id hid hid' =>
    (List.nodup_append.mp (hsplit.nodup_iff.mpr hnodup)).2.2 id hid id hid' rfl
  unfold dispatchBatch
  cases turn.loads with
  | false =>
      exact ⟨[], items.map QueueItem.id, swept_of_left _ hnodup, (List.append_nil _).symm, rfl,
        by simpa using hitems⟩
  | true =>
      have hreleased : ∀ id, id ∈ (releaseAll (items.filter fun item => (loadRow db item).isNone)
          side.queues).inFlight .fetch ↔ id ∈ side.queues.inFlight .fetch ∧
            id ∉ (items.filter fun item => (loadRow db item).isNone).map QueueItem.id :=
        fun id => mem_inFlight_foldl_release
      have hconvert : (releaseAll (items.filter fun item => (loadRow db item).isNone)
          side.queues).inFlight .convert = side.queues.inFlight .convert :=
        inFlight_foldl_release_of_ne (by decide) _ _
      by_cases hnone : fetchPairs db items = []
      · rw [hnone] at hsplit
        refine ⟨[], [], ?_, by simp [hnone], by simpa [hnone] using hconvert, by simp [hnone]⟩
        simp only [Bool.not_true, Bool.false_eq_true, if_false, hnone, if_true]
        refine swept_of_released fun id => ?_
        rw [hreleased, ← hsplit.mem_iff]
        simp [ids]
      · cases hsubmits : turn.submits with
        | false =>
            refine ⟨[], ids (fetchPairs db items), ?_, by simp [hnone],
              by simpa [hnone] using hconvert, by simp [ids, hnone]⟩
            simp only [Bool.not_true, Bool.false_eq_true, if_false, hnone, Bool.not_false, if_true]
            exact ((swept_of_left _ hpairs).release hreleased hmissing).perm hsplit
        | true =>
            have horder : (ids (turn.asCompleted (fetchPairs db items))).Perm
                (ids (fetchPairs db items)) := (turn.perm _).map _
            obtain ⟨held, left, hswept, hheld, hsame, hleft⟩ := swept_completeBatch
              { side := { side with
                  queues := releaseAll (items.filter fun item => (loadRow db item).isNone)
                    side.queues } } (horder.nodup_iff.mpr hpairs)
            refine ⟨held, left, ?_, ?_, ?_, ?_⟩
            · simp only [Bool.not_true, Bool.false_eq_true, if_false, hnone]
              exact ((hswept.perm horder).release hreleased hmissing).perm hsplit
            · simp only [Bool.not_true, Bool.false_eq_true, if_false, hnone]
              exact hheld
            · simp only [Bool.not_true, Bool.false_eq_true, if_false, hnone]
              exact hsame.trans hconvert
            · simpa [hnone] using hleft

/-- An iteration takes ids, hands some to the handoff queue and leaves others behind;
it leaves none exactly when the claim is accounted for. -/
theorem swept_claimAndDispatch (turn : FetchTurn) (claimDb rowsDb : Db) (side : FetchSide) :
    ∃ taken held left, taken.Nodup ∧ (∀ id ∈ taken, id ∉ side.queues.inFlight .fetch) ∧
      Swept taken (handoffIds held) left (side.queues.inFlight .fetch ++ taken)
        ((claimAndDispatch turn claimDb rowsDb side).side.queues.inFlight .fetch) ∧
      (claimAndDispatch turn claimDb rowsDb side).side.handoff = side.handoff ++ held ∧
      (claimAndDispatch turn claimDb rowsDb side).side.queues.inFlight .convert =
        side.queues.inFlight .convert ∧
      (left = [] ↔ Accounted turn claimDb rowsDb side) := by
  unfold claimAndDispatch Accounted
  cases turn.claims with
  | false =>
      refine ⟨[], [], [], List.nodup_nil, by simp, ?_, (List.append_nil _).symm, rfl, by simp⟩
      rw [List.append_nil]
      exact swept_nil _
  | true =>
      refine ⟨(claim .fetch turn.limit turn.nowIso claimDb side.queues).1.map QueueItem.id, ?_⟩
      by_cases hitems : (claim .fetch turn.limit turn.nowIso claimDb side.queues).1 = []
      · refine ⟨[], [], nodup_claim, fun id => not_mem_inFlight_of_claim, ?_, ?_, ?_, ?_⟩
        · simp only [Bool.not_true, Bool.false_eq_true, if_false, hitems, if_true]
          rw [inFlight_claim, hitems]
          exact swept_nil _
        · simp [hitems]
        · simp only [Bool.not_true, Bool.false_eq_true, if_false, hitems, if_true]
          exact inFlight_claim_of_ne (by decide)
        · simp [hitems]
      · obtain ⟨held, left, hswept, hheld, hconvert, hleft⟩ := swept_dispatchBatch turn rowsDb
          { side with queues := (claim .fetch turn.limit turn.nowIso claimDb side.queues).2 }
          hitems nodup_claim
        rw [inFlight_claim] at hswept
        rw [inFlight_claim_of_ne (by decide)] at hconvert
        refine ⟨held, left, nodup_claim, fun id => not_mem_inFlight_of_claim, ?_, ?_, ?_, ?_⟩
        · simpa only [Bool.not_true, Bool.false_eq_true, if_false, hitems] using hswept
        · simpa only [Bool.not_true, Bool.false_eq_true, if_false, hitems] using hheld
        · simpa only [Bool.not_true, Bool.false_eq_true, if_false, hitems] using hconvert
        · simpa [hitems] using hleft

end FetchStage

/-! ## Bulk claims and conversions -/

namespace BulkConvertSource

variable {turn : BulkTurn}

def stepIds (steps : List (QueueItem × Option BulkResult)) : List ℕ :=
  steps.map fun step => step.1.id

def readyIds (ready : List BulkConvertReady) : List ℕ := ready.map fun item => item.queueItem.id

/-- A step of an item that is not ready. -/
def Resolves (turn : BulkTurn) (item : QueueItem) (result : BulkResult) : Prop :=
  ∀ rest queues, resolve turn ((item, some result) :: rest) queues =
    if turn.applies item then resolve turn rest (release .convert item.id queues)
    else (release .convert item.id queues, none)

theorem ready_or_resolves (turn : BulkTurn) (item : QueueItem) (result : BulkResult) :
    (∃ filename data, result = .ready filename data) ∨ (Resolves turn item result ∧
      (∀ filename data, result ≠ .ready filename data) ∧
      ∀ rest, Settles turn ((item, some result) :: rest) ↔
        if turn.applies item then Settles turn rest else rest = []) := by
  cases result with
  | ready filename data => exact Or.inl ⟨filename, data, rfl⟩
  | released => exact Or.inr ⟨fun _ _ => rfl, by simp, fun _ => Iff.rfl⟩
  | retried outcome => exact Or.inr ⟨fun _ _ => rfl, by simp, fun _ => Iff.rfl⟩
  | skipped outcome => exact Or.inr ⟨fun _ _ => rfl, by simp, fun _ => Iff.rfl⟩

theorem resolve_returns_iff {steps : List (QueueItem × Option BulkResult)} {queues : Queues} :
    (resolve turn steps queues).2.isSome = true ↔ Returns turn steps := by
  induction steps generalizing queues with
  | nil => simp [resolve, Returns]
  | cons step rest ih =>
      obtain ⟨item, result⟩ := step
      rw [Returns, List.forall_mem_cons, ← Returns]
      cases result with
      | none => simp [resolve]
      | some result =>
          rcases ready_or_resolves turn item result with
            ⟨filename, data, rfl⟩ | ⟨hresolves, hnot, -⟩
          · simp [resolve, ih]
          · rw [hresolves]
            cases happlies : turn.applies item with
            | false => simp [hnot]
            | true => simp [ih]

theorem settles_of_returns {steps : List (QueueItem × Option BulkResult)}
    (h : Returns turn steps) : Settles turn steps := by
  induction steps with
  | nil => trivial
  | cons step rest ih =>
      obtain ⟨item, result⟩ := step
      obtain ⟨⟨result', hresult, happlies⟩, hrest⟩ := List.forall_mem_cons.mp h
      obtain rfl : result = some result' := hresult
      rcases ready_or_resolves turn item result' with ⟨filename, data, rfl⟩ | ⟨-, hnot, hsettles⟩
      · exact hrest
      · have happlies : turn.applies item = true := by
          rcases happlies with ⟨filename, data, hready⟩ | happlies
          · exact (hnot filename data hready).elim
          · exact happlies
        rw [hsettles, if_pos happlies]
        exact ih hrest

/-- The loops of `claim_batch` make a batch, release and leave behind. -/
theorem swept_resolve {steps : List (QueueItem × Option BulkResult)} (queues : Queues)
    (hnodup : (stepIds steps).Nodup) : ∃ left,
      Swept (stepIds steps) (readyIds ((resolve turn steps queues).2.getD [])) left
        (queues.inFlight .convert) ((resolve turn steps queues).1.inFlight .convert) ∧
      (resolve turn steps queues).1.inFlight .fetch = queues.inFlight .fetch ∧
      (left = [] ↔ Settles turn steps) := by
  induction steps generalizing queues with
  | nil => exact ⟨[], swept_nil _, rfl, iff_of_true rfl trivial⟩
  | cons step rest ih =>
      obtain ⟨item, result⟩ := step
      obtain ⟨hitem, hrest⟩ := List.nodup_cons.mp hnodup
      cases result with
      | none =>
          exact ⟨stepIds ((item, none) :: rest), swept_of_left _ hnodup, rfl, by
            simp [stepIds, Settles]⟩
      | some result =>
          rcases ready_or_resolves turn item result with
            ⟨filename, data, rfl⟩ | ⟨hresolves, -, hsettles⟩
          · obtain ⟨left, hswept, hfetch, hleft⟩ := ih queues hrest
            rw [resolve, Settles, ← resolve_returns_iff]
            cases hbatch : (resolve turn rest queues).2 with
            | none =>
                rw [hbatch] at hswept
                exact ⟨item.id :: left, hswept.lose hitem, hfetch, by simp⟩
            | some ready =>
                rw [hbatch] at hswept
                have hreturns : Returns turn rest := resolve_returns_iff.mp (by rw [hbatch]; rfl)
                exact ⟨left, hswept.keep hitem, hfetch, by
                  simpa using hleft.mpr (settles_of_returns hreturns)⟩
          · rw [hresolves, hsettles]
            have hreleased : ∀ id, id ∈ (release .convert item.id queues).inFlight .convert ↔
                id ∈ queues.inFlight .convert ∧ id ∉ [item.id] := fun id => mem_inFlight_release
            have hnot : ∀ id ∈ [item.id], id ∉ stepIds rest := fun id hid => by
              rwa [List.mem_singleton.mp hid]
            have hfetch : (release .convert item.id queues).inFlight .fetch =
                queues.inFlight .fetch := inFlight_release_of_ne (by decide) _ _
            cases turn.applies item with
            | false =>
                exact ⟨stepIds rest, (swept_of_left _ hrest).release hreleased hnot, hfetch, by
                  simp [stepIds]⟩
            | true =>
                obtain ⟨left, hswept, hsame, hleft⟩ := ih (release .convert item.id queues) hrest
                exact ⟨left, hswept.release hreleased hnot, hsame.trans hfetch, hleft⟩

theorem items_hashedItems (db : Db) (items : List QueueItem) :
    ((hashedItems db items).map Prod.snd).map Prod.fst =
      items.filter fun item => (lookedUp db item).isSome := by
  rw [hashedItems]
  induction items with
  | nil => rfl
  | cons item items ih =>
      rw [List.filterMap_cons]
      cases hrow : lookedUp db item with
      | none => simpa [hrow] using ih
      | some row => simpa [hrow] using ih

theorem perm_bySha256 (db : Db) (items : List QueueItem) :
    ((bySha256 db items).rows.flatMap fun entry => entry.2.map Prod.fst).Perm
      (items.filter fun item => (lookedUp db item).isSome) := by
  have hpushed : ((bySha256 db items).rows.flatMap Prod.snd).Perm
      ((hashedItems db items).map Prod.snd) := by
    rw [bySha256_eq]
    exact Table.perm_foldl_push Prod.fst Prod.snd _ ∅
  rw [← items_hashedItems]
  refine List.Perm.trans (List.Perm.of_eq ?_) (hpushed.map Prod.fst)
  rw [List.map_flatMap]

theorem perm_groupedItems (db : Db) (hashes : Table String (List (QueueItem × String))) :
    ((groupedItems db hashes).map fun entry => entry.2.1).Perm
      ((hashes.rows.filter fun entry => !(ArchiveStore.locationFor entry.1 db).isNone).flatMap
        fun entry => entry.2.map Prod.fst) := by
  refine ((groupedItems_perm db hashes).map _).trans (List.Perm.of_eq ?_)
  generalize hashes.rows = rows
  induction rows with
  | nil => rfl
  | cons entry rows ih =>
      rw [List.flatMap_cons, List.map_append, ih, List.filter_cons, locatedItems]
      cases ArchiveStore.locationFor entry.1 db with
      | none => simp
      | some location => simp [Function.comp_def]

/-- The resolved items are those that are looked up. -/
theorem perm_items_resolutions (turn : BulkTurn) (rowsDb locationsDb : Db)
    (items : List QueueItem) : ((resolutions turn rowsDb locationsDb items).map Prod.fst).Perm
      (items.filter fun item => (lookedUp rowsDb item).isSome) := by
  refine List.Perm.trans ?_ (perm_bySha256 rowsDb items)
  rw [resolutions, List.map_append, List.map_flatMap, List.map_map]
  refine ((perm_groupedItems locationsDb (bySha256 rowsDb items)).append_left _).trans ?_
  refine List.Perm.trans (List.Perm.of_eq ?_) ((List.filter_append_perm (fun entry =>
    (ArchiveStore.locationFor entry.1 locationsDb).isNone)
      (bySha256 rowsDb items).rows).flatMap_right _)
  rw [List.flatMap_append]
  simp [Function.comp_def]

/-- The claimed items are those released and those resolved. -/
theorem perm_resolutions (turn : BulkTurn) (rowsDb locationsDb : Db) (items : List QueueItem) :
    ((items.filter fun item => (lookedUp rowsDb item).isNone).map QueueItem.id ++
      stepIds (resolutions turn rowsDb locationsDb items)).Perm (items.map QueueItem.id) := by
  have hids : stepIds (resolutions turn rowsDb locationsDb items) =
      ((resolutions turn rowsDb locationsDb items).map Prod.fst).map QueueItem.id := by
    rw [List.map_map]
    rfl
  have hsome : (fun item => (lookedUp rowsDb item).isSome) =
      fun item => !(lookedUp rowsDb item).isNone := by
    funext item
    rw [Option.not_isNone]
  have hsteps := perm_items_resolutions turn rowsDb locationsDb items
  rw [hsome] at hsteps
  rw [hids, ← List.map_append]
  exact ((hsteps.append_left _).trans (List.filter_append_perm _ items)).map _

/-- Nothing is resolved exactly when nothing is looked up. -/
theorem stepIds_resolutions_eq_nil_iff {rowsDb locationsDb : Db} {items : List QueueItem} :
    stepIds (resolutions turn rowsDb locationsDb items) = [] ↔
      (bySha256 rowsDb items).rows = [] := by
  constructor
  · intro h
    have hsteps := perm_items_resolutions turn rowsDb locationsDb items
    rw [List.map_eq_nil_iff.mp h, List.map_nil, ← items_hashedItems] at hsteps
    have hnone : hashedItems rowsDb items = [] := by
      simpa using hsteps.symm.eq_nil
    rw [bySha256_eq, hnone]
    rfl
  · intro h
    simp only [resolutions, groupedItems, h, stepIds]
    rfl

/-- A bulk claim takes ids, makes a batch of some and leaves others behind; it leaves none
exactly when the claim is accounted for. -/
theorem swept_claimBatch (turn : BulkTurn) (claimDb rowsDb locationsDb : Db) (queues : Queues) :
    ∃ taken left, taken.Nodup ∧ (∀ id ∈ taken, id ∉ queues.inFlight .convert) ∧
      Swept taken
        (readyIds ((claimBatch turn claimDb rowsDb locationsDb queues).2.getD [])) left
        (queues.inFlight .convert ++ taken)
        ((claimBatch turn claimDb rowsDb locationsDb queues).1.inFlight .convert) ∧
      (claimBatch turn claimDb rowsDb locationsDb queues).1.inFlight .fetch =
        queues.inFlight .fetch ∧
      (left = [] ↔ Accounted turn claimDb rowsDb locationsDb queues) := by
  unfold claimBatch Accounted
  cases turn.claims with
  | false =>
      refine ⟨[], [], List.nodup_nil, by simp, ?_, rfl, by simp⟩
      rw [List.append_nil]
      exact swept_nil _
  | true =>
      refine ⟨(claim .convert turn.limit turn.nowIso claimDb queues).1.map QueueItem.id, ?_⟩
      have hnodup : ((claim .convert turn.limit turn.nowIso claimDb queues).1.map
        QueueItem.id).Nodup := nodup_claim
      have hfetch : (claim .convert turn.limit turn.nowIso claimDb queues).2.inFlight .fetch =
        queues.inFlight .fetch := inFlight_claim_of_ne (by decide)
      have hinFlight := @inFlight_claim .convert turn.limit turn.nowIso claimDb queues
      have hfresh : ∀ id ∈ (claim .convert turn.limit turn.nowIso claimDb queues).1.map
        QueueItem.id, id ∉ queues.inFlight .convert := fun id => not_mem_inFlight_of_claim
      rw [← hinFlight, ← hfetch]
      generalize claim .convert turn.limit turn.nowIso claimDb queues = claimed at *
      obtain ⟨items, queues'⟩ := claimed
      simp only at *
      by_cases hitems : items = []
      · refine ⟨[], hnodup, hfresh, ?_, ?_, ?_⟩
        · simpa [hitems, readyIds] using swept_nil (queues'.inFlight .convert)
        · simp [hitems]
        · simp [hitems]
      · cases hloads : turn.loads with
        | false =>
            refine ⟨items.map QueueItem.id, hnodup, hfresh, ?_, ?_, ?_⟩
            · simpa [hitems, readyIds] using swept_of_left (queues'.inFlight .convert) hnodup
            · simp [hitems]
            · simp [hitems]
        | true =>
            have hsplit := perm_resolutions turn rowsDb locationsDb items
            obtain ⟨-, hsteps, hdisjoint⟩ :=
              List.nodup_append.mp (hsplit.nodup_iff.mpr hnodup)
            have hreleased : ∀ id, id ∈ (releaseAll (items.filter fun item =>
                (lookedUp rowsDb item).isNone) queues').inFlight .convert ↔
                  id ∈ queues'.inFlight .convert ∧
                    id ∉ (items.filter fun item => (lookedUp rowsDb item).isNone).map
                      QueueItem.id := fun id => mem_inFlight_foldl_release
            have hsame : (releaseAll (items.filter fun item => (lookedUp rowsDb item).isNone)
                queues').inFlight .fetch = queues'.inFlight .fetch :=
              inFlight_foldl_release_of_ne (by decide) _ _
            have hnot : ∀ id ∈ (items.filter fun item => (lookedUp rowsDb item).isNone).map
                QueueItem.id, id ∉ stepIds (resolutions turn rowsDb locationsDb items) :=
              fun id hid hid' => hdisjoint id hid id hid' rfl
            by_cases hraises : (bySha256 rowsDb items).rows ≠ [] ∧ turn.locates = false
            · refine ⟨stepIds (resolutions turn rowsDb locationsDb items), hnodup, hfresh, ?_, ?_,
                ?_⟩
              · simp only [Bool.not_true, Bool.false_eq_true, if_false, hitems, if_pos hraises]
                exact ((swept_of_left _ hsteps).release hreleased hnot).perm hsplit
              · simpa [hitems, hraises] using hsame
              · rw [stepIds_resolutions_eq_nil_iff]
                simp [hitems, hraises]
            · obtain ⟨left, hswept, hfetch, hleft⟩ := swept_resolve (releaseAll
                (items.filter fun item => (lookedUp rowsDb item).isNone) queues') hsteps
              refine ⟨left, hnodup, hfresh, ?_, ?_, ?_⟩
              · simp only [Bool.not_true, Bool.false_eq_true, if_false, hitems, if_neg hraises]
                exact (hswept.release hreleased hnot).perm hsplit
              · simp only [Bool.not_true, Bool.false_eq_true, if_false, hitems, if_neg hraises]
                exact hfetch.trans hsame
              · rw [hleft]
                by_cases hrows : (bySha256 rowsDb items).rows = []
                · have hnil : resolutions turn rowsDb locationsDb items = [] :=
                    List.map_eq_nil_iff.mp (stepIds_resolutions_eq_nil_iff.mpr hrows)
                  simp [hrows, hnil, Settles]
                · have hlocates : turn.locates = true := by
                    simpa using fun h => hraises ⟨hrows, h⟩
                  simp [hitems, hrows, hlocates]

end BulkConvertSource

namespace ConvertStage

variable {turn : ConvertTurn}

/-- The convert loop releases and leaves behind. -/
theorem swept_completeItems {items : List QueueItem} (queues : Queues)
    (hnodup : (items.map QueueItem.id).Nodup) : ∃ left,
      Swept (items.map QueueItem.id) [] left (queues.inFlight .convert)
        ((completeItems turn items queues).inFlight .convert) ∧
      (left = [] ↔ Settles turn items) := by
  induction items generalizing queues with
  | nil => exact ⟨[], swept_nil _, iff_of_true rfl trivial⟩
  | cons item pending ih =>
      obtain ⟨hitem, hpending⟩ := List.nodup_cons.mp hnodup
      rw [completeItems, Settles]
      cases (turn.completion item).worker with
      | none => exact ⟨(item :: pending).map QueueItem.id, swept_of_left _ hnodup, by simp⟩
      | some outcome =>
          have hreleased : ∀ id, id ∈ (release .convert item.id queues).inFlight .convert ↔
              id ∈ queues.inFlight .convert ∧ id ∉ [item.id] := fun id => mem_inFlight_release
          have hnot : ∀ id ∈ [item.id], id ∉ pending.map QueueItem.id := fun id hid => by
            rwa [List.mem_singleton.mp hid]
          cases (turn.completion item).applied && (turn.completion item).hooked with
          | false =>
              exact ⟨pending.map QueueItem.id, (swept_of_left _ hpending).release hreleased hnot,
                by simp⟩
          | true =>
              obtain ⟨left, hswept, hleft⟩ := ih (release .convert item.id queues) hpending
              exact ⟨left, hswept.release hreleased hnot, by simpa using hleft⟩

variable (turn) in
/-- What the convert stage does to the ids of its batch. -/
theorem swept_convertItems {items : List QueueItem} (queues : Queues) (hitems : items ≠ [])
    (hnodup : (items.map QueueItem.id).Nodup) : ∃ left,
      Swept (items.map QueueItem.id) [] left (queues.inFlight .convert)
        ((convertItems turn items queues).inFlight .convert) ∧
      (left = [] ↔ turn.submits = true ∧ Settles turn (turn.asCompleted items)) := by
  unfold convertItems
  cases turn.submits with
  | false => exact ⟨items.map QueueItem.id, swept_of_left _ hnodup, by simpa using hitems⟩
  | true =>
      have horder : ((turn.asCompleted items).map QueueItem.id).Perm (items.map QueueItem.id) :=
        (turn.perm items).map _
      obtain ⟨left, hswept, hleft⟩ :=
        swept_completeItems queues (horder.nodup_iff.mpr hnodup)
      exact ⟨left, hswept.perm horder, by simpa using hleft⟩

theorem inFlight_completeItems_of_ne (items : List QueueItem) (queues : Queues) :
    (completeItems turn items queues).inFlight .fetch = queues.inFlight .fetch := by
  induction items generalizing queues with
  | nil => rfl
  | cons item pending ih =>
      have hsame : (release .convert item.id queues).inFlight .fetch = queues.inFlight .fetch :=
        inFlight_release_of_ne (by decide) _ _
      rw [completeItems]
      cases (turn.completion item).worker with
      | none => rfl
      | some outcome =>
          simp only
          split
          · rw [ih, hsame]
          · exact hsame

/-- A conversion puts nothing in flight. -/
theorem mem_of_mem_completeItems {items : List QueueItem} {queues : Queues} {id : ℕ}
    (h : id ∈ (completeItems turn items queues).inFlight .convert) :
    id ∈ queues.inFlight .convert := by
  induction items generalizing queues with
  | nil => exact h
  | cons item pending ih =>
      rw [completeItems] at h
      cases hworker : (turn.completion item).worker with
      | none => rwa [hworker] at h
      | some outcome =>
          rw [hworker] at h
          simp only at h
          split at h
          · exact (mem_inFlight_release.mp (ih h)).1
          · exact (mem_inFlight_release.mp h).1

end ConvertStage

/-! ## The holders of a run -/

namespace Custody

/-- The holders hold ids in flight, each a different one; the ids of a batch are the
only ones in flight for a conversion that anything can release. -/
structure Holding (s : Custody) : Prop where
  fetch : Owned (s.side.queues.inFlight .fetch) s.fetchHolders
  convert : Owned (s.side.queues.inFlight .convert) s.convertHolders

theorem holding_start : start.Holding := ⟨owned_nil _, owned_nil _⟩

theorem kept_start : start.Kept := by
  constructor <;> intro id hid <;> cases hid

variable {s s' : Custody}

/-- What a step does to the ids of the fetch stage, when the holders own theirs. -/
theorem holding_fetch (turn : FetchTurn) (claimDb rowsDb : Db) (h : s.Holding)
    (hstep : step s (.fetch turn claimDb rowsDb) = some s') :
    s'.Holding ∧ (s.Kept → (s'.Kept ↔ FetchStage.Accounted turn claimDb rowsDb s.side)) := by
  obtain rfl := Option.some.inj hstep
  obtain ⟨taken, held, left, hnodup, hfresh, hswept, hheld, hconvert, hleft⟩ :=
    FetchStage.swept_claimAndDispatch turn claimDb rowsDb s.side
  have hperm : (s.fetchHolders ++ FetchStage.handoffIds held).Perm
      (((FetchStage.claimAndDispatch turn claimDb rowsDb s.side).side.handoff ++
        s.archiving.toList).map fun item => item.queueItem.id) := by
    rw [hheld, fetchHolders, FetchStage.handoffIds, ← List.map_append]
    refine List.Perm.map _ ?_
    rw [List.append_assoc, List.append_assoc]
    exact List.perm_append_comm.append_left _
  have hown := h.fetch.append hnodup hfresh
  refine ⟨⟨(hswept.owned hown).perm hperm, ?_⟩, fun hkept => ?_⟩
  · exact hconvert ▸ h.convert
  · rw [← hleft, ← hswept.conserved_iff hown (hkept.fetch.append h.fetch hnodup hfresh)]
    constructor
    · exact fun hkept' => hkept'.fetch.perm hperm.symm
    · exact fun hconserved => ⟨hconserved.perm hperm, hconvert ▸ hkept.convert⟩

theorem perm_fetchHolders_take {item : HandoffItem} {rest : List HandoffItem}
    (harchiving : s.archiving = none) (hhandoff : s.side.handoff = item :: rest) :
    s.fetchHolders.Perm ((rest ++ [item]).map fun item => item.queueItem.id) := by
  rw [fetchHolders, harchiving, hhandoff, Option.toList_none, List.append_nil]
  exact (List.perm_append_singleton item rest).symm.map _

/-- Taking an item from the handoff queue moves its id. -/
theorem holding_take (h : s.Holding) (hstep : step s .take = some s') :
    s'.Holding ∧ (s.Kept → s'.Kept) := by
  simp only [step] at hstep
  split at hstep
  · next item rest harchiving hhandoff =>
      obtain rfl := Option.some.inj hstep
      have hperm := perm_fetchHolders_take harchiving hhandoff
      exact ⟨⟨h.fetch.perm hperm, h.convert⟩, fun hkept =>
        ⟨hkept.fetch.perm hperm, hkept.convert⟩⟩
  · cases hstep

/-- The end of `process_one` releases the id of its item, or it leaves it behind. -/
theorem holding_archived (turn : ArchiveTurn) (h : s.Holding)
    (hstep : step s (.archived turn) = some s') :
    s'.Holding ∧ (s.Kept → (s'.Kept ↔ turn.adds = true ∧ turn.seals = true)) := by
  obtain ⟨item, harchiving, rfl⟩ := Option.map_eq_some_iff.mp hstep
  have hholders : s.fetchHolders =
      FetchStage.handoffIds s.side.handoff ++ [item.queueItem.id] := by
    rw [fetchHolders, harchiving, List.map_append]
    rfl
  have hown := h.fetch
  rw [hholders] at hown
  cases hreturns : turn.adds && turn.seals with
  | true =>
      have hswept : Swept [item.queueItem.id] [] [] (s.side.queues.inFlight .fetch)
          ((release .fetch item.queueItem.id s.side.queues).inFlight .fetch) :=
        swept_of_released fun id => mem_inFlight_release
      have hconvert : (release .fetch item.queueItem.id s.side.queues).inFlight .convert =
          s.side.queues.inFlight .convert := inFlight_release_of_ne (by decide) _ _
      have hreturns' := (Bool.and_eq_true_iff.mp hreturns)
      rw [archive, if_pos hreturns]
      refine ⟨⟨?_, hconvert ▸ h.convert⟩, fun hkept => iff_of_true ⟨?_, ?_⟩ hreturns'⟩
      · simpa [fetchHolders, FetchStage.handoffIds] using hswept.owned hown
      · have hconserved := hkept.fetch
        rw [hholders] at hconserved
        simpa [fetchHolders, FetchStage.handoffIds] using
          (hswept.conserved_iff hown hconserved).mpr rfl
      · exact hconvert ▸ hkept.convert
  | false =>
      have hswept : Swept [item.queueItem.id] [] [item.queueItem.id]
          (s.side.queues.inFlight .fetch) (s.side.queues.inFlight .fetch) :=
        swept_of_left _ (List.nodup_singleton _)
      have hraises : ¬(turn.adds = true ∧ turn.seals = true) := fun hboth => by
        rw [Bool.and_eq_true_iff.mpr hboth] at hreturns
        cases hreturns
      rw [archive, hreturns, if_neg Bool.false_ne_true]
      refine ⟨⟨?_, h.convert⟩, fun hkept => iff_of_false (fun hkept' => ?_) hraises⟩
      · simpa [fetchHolders, FetchStage.handoffIds] using hswept.owned hown
      · have hconserved := hkept.fetch
        rw [hholders] at hconserved
        refine absurd ((hswept.conserved_iff hown hconserved).mp ?_) (List.cons_ne_nil _ _)
        simpa [fetchHolders, FetchStage.handoffIds] using hkept'.fetch

/-- A bulk claim. -/
theorem holding_claimBatch (turn : BulkTurn) (claimDb rowsDb locationsDb : Db) (h : s.Holding)
    (hstep : step s (.claimBatch turn claimDb rowsDb locationsDb) = some s') :
    s'.Holding ∧ (s.Kept → (s'.Kept ↔
      BulkConvertSource.Accounted turn claimDb rowsDb locationsDb s.side.queues)) := by
  simp only [step] at hstep
  split at hstep
  · next hready =>
      obtain rfl := Option.some.inj hstep
      obtain ⟨taken, left, hnodup, hfresh, hswept, hfetch, hleft⟩ :=
        BulkConvertSource.swept_claimBatch turn claimDb rowsDb locationsDb s.side.queues
      have hnone : s.convertHolders = [] := by rw [convertHolders, hready, List.map_nil]
      have hown := h.convert.append hnodup hfresh
      rw [hnone] at hown
      have howned := hswept.owned hown
      rw [List.nil_append] at howned
      refine ⟨⟨hfetch ▸ h.fetch, howned⟩, fun hkept => ?_⟩
      have hconserved := hkept.convert.append h.convert hnodup hfresh
      rw [hnone] at hconserved
      rw [← hleft, ← hswept.conserved_iff hown hconserved, List.nil_append]
      constructor
      · exact Kept.convert
      · exact fun hconserved' => ⟨hfetch ▸ hkept.fetch, hconserved'⟩
  · cases hstep

theorem inFlight_convertItems_fetch (turn : ConvertTurn) (items : List QueueItem)
    (queues : Queues) :
    (ConvertStage.convertItems turn items queues).inFlight .fetch = queues.inFlight .fetch := by
  unfold ConvertStage.convertItems
  split
  · exact ConvertStage.inFlight_completeItems_of_ne _ _
  · rfl

/-- The conversion of a claimed batch. -/
theorem holding_convert (turn : ConvertTurn) (h : s.Holding)
    (hstep : step s (.convert turn) = some s') :
    s'.Holding ∧ (s.Kept → (s'.Kept ↔ turn.submits = true ∧ ConvertStage.Settles turn
      (turn.asCompleted (s.ready.map BulkConvertReady.queueItem)))) := by
  simp only [step] at hstep
  split at hstep
  · cases hstep
  · next hready =>
      obtain rfl := Option.some.inj hstep
      have hids : (s.ready.map BulkConvertReady.queueItem).map QueueItem.id =
          s.convertHolders := by
        rw [List.map_map]
        rfl
      obtain ⟨left, hswept, hleft⟩ := ConvertStage.swept_convertItems turn
        s.side.queues (mt List.map_eq_nil_iff.mp hready) (hids.symm ▸ h.convert.nodup)
      rw [hids] at hswept
      have hfetch := inFlight_convertItems_fetch turn
        (s.ready.map BulkConvertReady.queueItem) s.side.queues
      have hown : Owned (s.side.queues.inFlight .convert) ([] ++ s.convertHolders) := h.convert
      refine ⟨⟨hfetch ▸ h.fetch, hswept.owned hown⟩, fun hkept => ?_⟩
      rw [← hleft, ← hswept.conserved_iff hown hkept.convert]
      constructor
      · exact Kept.convert
      · exact fun hconserved => ⟨hfetch ▸ hkept.fetch, hconserved⟩

/-- The conversion of fed items releases no id that a batch holds. -/
theorem holding_convertFed (turn : ConvertTurn) (limit : ℕ) (h : s.Holding)
    (hstep : step s (.convertFed turn limit) = some s') :
    s'.Holding ∧ (s.Kept → s'.Kept) := by
  simp only [step] at hstep
  split at hstep
  · next hfed =>
      obtain rfl := Option.some.inj hstep
      have hfetch := inFlight_convertItems_fetch turn
        ((s.fed.take limit).map ConvertQueueItem.queueItem) s.side.queues
      have hnone : s.convertHolders = [] := by rw [convertHolders, hfed.1, List.map_nil]
      refine ⟨⟨hfetch ▸ h.fetch, ?_⟩, fun hkept => ⟨hfetch ▸ hkept.fetch, ?_⟩⟩
      · exact hnone ▸ owned_nil _
      · intro id hid
        refine absurd (hkept.convert id ?_) (by rw [hnone]; simp)
        simp only [ConvertStage.convertItems] at hid
        split at hid
        · exact ConvertStage.mem_of_mem_completeItems hid
        · exact hid
  · cases hstep

theorem holding_step {e : CustodyEvent} (h : s.Holding) (hstep : step s e = some s') :
    s'.Holding ∧ (s.Kept → (s'.Kept ↔ Accounted s e)) := by
  cases e with
  | fetch turn claimDb rowsDb => exact holding_fetch turn claimDb rowsDb h hstep
  | take =>
      exact (holding_take h hstep).imp_right fun hkept hs => iff_of_true (hkept hs) trivial
  | archived turn => exact holding_archived turn h hstep
  | claimBatch turn claimDb rowsDb locationsDb =>
      exact holding_claimBatch turn claimDb rowsDb locationsDb h hstep
  | convert turn => exact holding_convert turn h hstep
  | convertFed turn limit =>
      exact (holding_convertFed turn limit h hstep).imp_right fun hkept hs =>
        iff_of_true (hkept hs) trivial

/-- Every id in flight has one live holder throughout a run exactly when every call
accounts for the ids it has taken. -/
theorem kept_throughout_iff {l : List CustodyEvent} {s : Custody}
    (hrun : machine.run start l = some s) :
    machine.Always Kept start l ↔ machine.Along Accounted start l :=
  Machine.always_iff_along (fun _ _ _ h hstep => (holding_step h hstep).1)
    (fun _ _ _ h hkept hstep => (holding_step h hstep).2 hkept) holding_start kept_start hrun

/-- An iteration of the fetch stage that claims one item, whose worker gives the
outcome, if any. -/
def fetchOne (worker : Option FetchOutcome) : FetchTurn where
  limit := 1
  nowIso := "t1"
  completion := fun _ => ⟨worker, true, false⟩

/-- The wheel is fetched, taken by the archive thread, archived and converted. -/
def oneWheel : List CustodyEvent :=
  [.fetch (fetchOne (some (.ok [1] "s1"))) Pipeline.exampleDb Pipeline.exampleDb, .take,
    .archived {},
    .convertFed { completion := fun _ => ⟨some (.retry ⟨"parse_timeout", ""⟩), true, true⟩ } 256]

theorem kept_throughout_oneWheel : machine.Always Kept start oneWheel := by
  have hends : (machine.run start oneWheel).isSome = true := by decide
  obtain ⟨s, hrun⟩ := Option.isSome_iff_exists.mp hends
  refine (kept_throughout_iff hrun).mpr ⟨fun _ _ => ⟨rfl, fun _ => ⟨rfl, ?_⟩⟩, trivial,
    ⟨rfl, rfl⟩, trivial, trivial⟩
  exact FetchStage.settles_of_smooth fun _ _ => ⟨rfl, rfl⟩

/-- A worker that lets an exception through leaves the id in flight: no one holds it,
and no later claim returns it. -/
theorem raising_worker_leaves_id : ∃ s,
    machine.run start [.fetch (fetchOne none) Pipeline.exampleDb Pipeline.exampleDb] = some s ∧
      s.side.queues.inFlight .fetch = [1] ∧ s.fetchHolders = [] ∧ ¬s.Kept ∧
      ∀ limit nowIso, (claim .fetch limit nowIso Pipeline.exampleDb s.side.queues).1 = [] := by
  have hends : (machine.run start
      [.fetch (fetchOne none) Pipeline.exampleDb Pipeline.exampleDb]).any (fun s =>
        decide (s.side.queues.inFlight .fetch = [1] ∧ s.fetchHolders = [])) = true := by
    decide
  obtain ⟨s, hrun, hend⟩ := (Option.any_eq_true _ _).mp hends
  obtain ⟨hinFlight, hholders⟩ := of_decide_eq_true hend
  refine ⟨s, hrun, hinFlight, hholders, fun hkept => ?_, fun limit nowIso => ?_⟩
  · have hone := hkept.fetch 1 (by rw [hinFlight]; exact List.mem_singleton_self 1)
    rw [hholders] at hone
    cases hone
  · refine List.eq_nil_iff_forall_not_mem.mpr fun item hitem => ?_
    obtain ⟨-, row, hrow, -⟩ := mem_claim hitem
    have hid : item.id = 1 := by
      rw [Pipeline.exampleDb, Table.get?_set] at hrow
      by_contra hne
      rw [if_neg hne] at hrow
      cases hrow
    refine not_mem_inFlight_of_claim (List.mem_map_of_mem hitem) ?_
    rw [hinFlight, hid]
    exact List.mem_singleton_self 1

end Custody

end RerollSync.Stages
