import RerollSync.Pipeline.Commits
import RerollSync.Stages.InFlight

/-!
# Two paths to a conversion

A wheel whose bytes have been archived is in the convert queue as soon as the `Ok` of its
fetch is committed.  `on_archived` hands it to the convert stage a moment later, without a
claim, and the convert stage claims from the queue when nothing has been handed to it.
Here the archive thread and the convert stage take their steps in any order.
-/

namespace RerollSync.Stages

open RerollSync.Store RerollSync.Support RerollSync.Dispatcher RerollSync.Fetch
open RerollSync.Convert

/-- What an iteration of the convert stage is at: it is over, it has found the fed queue
empty and `claim_batch` comes next, or the items of its batch have no outcome yet. -/
inductive ConvertBatch
  | idle
  | drained (limit : ℕ)
  | fed (items : List ConvertQueueItem)
  | bulk (items : List QueueItem)

namespace ConvertBatch

/-- The items that have no outcome yet. -/
def pending : ConvertBatch → List QueueItem
  | .idle | .drained _ => []
  | .fed items => items.map ConvertQueueItem.queueItem
  | .bulk items => items

/-- The batch of some items; an iteration is over when there are none. -/
def ofFed (items : List ConvertQueueItem) : ConvertBatch :=
  if items.isEmpty then .idle else .fed items

def ofBulk (items : List QueueItem) : ConvertBatch :=
  if items.isEmpty then .idle else .bulk items

/-- The batch once an item has its outcome. -/
def erase (i : ℕ) : ConvertBatch → ConvertBatch
  | .fed items => ofFed (items.eraseIdx i)
  | .bulk items => ofBulk (items.eraseIdx i)
  | batch => batch

end ConvertBatch

/-- What the two threads share: the database, the dispatcher's queues, the items of the fetch
stage that the archive thread has not come to, the item whose `Ok` is committed and that
`on_archived` hands over next, the fed queue and the batch.  `archived` and `settled` are
the wheels whose bytes were archived, and those that were given the outcome that ends their
conversion, each as often as that happened. -/
structure Paths where
  db : Db
  counter : ℕ
  queues : Queues
  fetching : List QueueItem
  forwarding : Option HandoffItem
  fed : List ConvertQueueItem
  batch : ConvertBatch
  archived : List ℕ
  settled : List ℕ

/-- The steps.  `fetch` claims wheels, and `fail` gives one of them another outcome than its
bytes; `commit` and `forward` are `apply_outcome` and `on_archived` of `process_one`.
`drain` and `claimBatch` begin an iteration of the convert stage, and `complete` gives an
item of its batch an outcome: the worker's, or one that `claim_batch` applies.  `release` is
that of a wheel without a blob.  `renew` is a project sync that finds other metadata for a
wheel. -/
inductive PathEvent
  | fetch (limit : ℕ) (nowIso : String)
  | fail (i : ℕ) (outcome : Outcome) (clock : Clock)
  | commit (i : ℕ) (fetched : HandoffItem) (clock : Clock)
  | forward
  | drain (limit : ℕ)
  | claimBatch (nowIso : String)
  | complete (i : ℕ) (outcome : ConvertOutcome) (clock : Clock)
  | release (i : ℕ)
  | renew (id : ℕ) (change : WheelRow → WheelRow)

/-- The dispatcher's settings, the archive's hash, and the size of the fed queue, zero for
no bound. -/
structure PathSetup where
  dispatcher : Dispatcher.Settings
  hexdigest : Bytes → String
  queueMaxsize : ℕ := 10000

/-- The state of a wheel. -/
def stateAt (db : Db) (id : ℕ) : Option WheelState := (db.wheels.get? id).map WheelRow.state

namespace Paths

/-- The threads started over a database; the wheels that are to be converted were
archived before. -/
def start (db : Db) (counter : ℕ) : Paths where
  db := db
  counter := counter
  queues := .initial
  fetching := []
  forwarding := none
  fed := []
  batch := .idle
  archived := (db.wheels.filter fun _ row => row.state = .needConvert).keys
  settled := []

/-- `apply_outcome`; an op that cannot be built is not submitted. -/
def applyOutcome (x : PathSetup) (clock : Clock) (stage : Stage) (item : QueueItem)
    (outcome : Outcome) (s : Paths) : Paths :=
  match buildWriteOp x.dispatcher clock stage item outcome with
  | .error _ => { s with queues := Dispatcher.release stage item.id s.queues }
  | .ok op =>
      let r := op.runAtomic s.db s.counter
      { s with
        db := r.db
        counter := r.counter
        queues := Dispatcher.release stage item.id s.queues }

/-- The outcome that ends a conversion puts the wheel in another state; a retry that is
deferred does not. -/
def settle (x : PathSetup) (item : QueueItem) (outcome : Outcome) (s : Paths) : List ℕ :=
  if (target x.dispatcher .convert item s.db outcome).isSome then s.settled ++ [item.id]
  else s.settled

def step (x : PathSetup) (s : Paths) : PathEvent → Option Paths
  | .fetch limit nowIso =>
      let (items, queues) := claim .fetch limit nowIso s.db s.queues
      some { s with
        queues := queues
        fetching := s.fetching ++ items }
  | .fail i outcome clock =>
      match s.fetching[i]? with
      | some item =>
          if target x.dispatcher .fetch item s.db outcome = some .needConvert then none
          else some ({ s with fetching := s.fetching.eraseIdx i }.applyOutcome x clock .fetch
            item outcome)
      | none => none
  | .commit i fetched clock =>
      match s.forwarding, s.fetching[i]? with
      | none, some item =>
          some ({ s with
            fetching := s.fetching.eraseIdx i
            forwarding := some { fetched with queueItem := item }
            archived := s.archived ++ [item.id] }.applyOutcome x clock .fetch item
              (.ok ⟨.needConvert, .blobLink (x.hexdigest fetched.data)⟩))
      | _, _ => none
  | .forward =>
      match s.forwarding with
      | some item =>
          if x.queueMaxsize = 0 ∨ s.fed.length < x.queueMaxsize then
            some { s with
              forwarding := none
              fed := s.fed ++
                [⟨{ item.queueItem with state := .needConvert }, item.filename, item.data⟩] }
          else none
      | none => none
  | .drain limit =>
      match s.batch with
      | .idle =>
          if s.fed.take limit = [] then some { s with batch := .drained limit }
          else some { s with
            fed := s.fed.drop limit
            batch := .fed (s.fed.take limit) }
      | _ => none
  | .claimBatch nowIso =>
      match s.batch with
      | .drained limit =>
          let (items, queues) := claim .convert limit nowIso s.db s.queues
          some { s with
            queues := queues
            batch := .ofBulk items }
      | _ => none
  | .complete i outcome clock =>
      match s.batch.pending[i]? with
      | some item =>
          let adapted := adaptConvertOutcome outcome x.dispatcher.rerollVersion
          some ({ s with
            batch := s.batch.erase i
            settled := s.settle x item adapted }.applyOutcome x clock .convert item adapted)
      | none => none
  | .release i =>
      match s.batch with
      | .bulk items => items[i]?.map fun item =>
          { s with
            queues := Dispatcher.release .convert item.id s.queues
            batch := s.batch.erase i }
      | _ => none
  | .renew id change =>
      some { s with
        db := s.db.updateWheel id fun row => { change row with state := .needMetadata } }

def machine (x : PathSetup) : Machine Paths PathEvent := ⟨step x⟩

/-! ## The property and the condition -/

/-- The wheels that are handed to the convert stage: from the fed queue on. -/
def fedIds (s : Paths) : List ℕ :=
  (s.fed.map fun item => item.queueItem.id) ++
    match s.batch with
    | .fed items => items.map fun item => item.queueItem.id
    | _ => []

/-- The wheels of a batch that was claimed. -/
def bulkIds (s : Paths) : List ℕ :=
  match s.batch with
  | .bulk items => items.map QueueItem.id
  | _ => []

/-- What was archived has been given its outcome once, or it is still to be converted. -/
def Once (s : Paths) : Prop :=
  ∀ id, s.settled.count id + (if stateAt s.db id = some .needConvert then 1 else 0) =
    s.archived.count id

/-- No wheel is on both paths, and each archived version has one outcome. -/
structure Single (s : Paths) : Prop where
  apart : ∀ id ∈ s.fedIds, id ∉ s.bulkIds
  once : s.Once

/-- The wheels that are committed and not yet in a batch. -/
def handedOver (s : Paths) : List ℕ :=
  (s.forwarding.toList.map fun item => item.queueItem.id) ++
    s.fed.map fun item => item.queueItem.id

/-- A claim of the convert stage returns no wheel that is on its way from the archive
thread, and no wheel is renewed while it is to be converted. -/
def Spaced (s : Paths) : PathEvent → Prop
  | .claimBatch nowIso =>
      match s.batch with
      | .drained limit => ∀ item ∈ (claim .convert limit nowIso s.db s.queues).1,
          item.id ∉ s.handedOver
      | _ => True
  | .renew id _ => stateAt s.db id ≠ some .needConvert
  | _ => True

end Paths

/-! ## States of wheels -/

section States

open Pipeline Paths

variable {db : Db} {item : QueueItem} {s : Paths}

theorem stateAt_updateWheel (id : ℕ) (f : WheelRow → WheelRow) (id' : ℕ) :
    stateAt (db.updateWheel id f) id' =
      if id' = id then (db.wheels.get? id').map fun row => (f row).state else stateAt db id' := by
  rw [stateAt, Db.wheels_updateWheel, Table.get?_modify, Option.map_map]
  by_cases hid : id' = id
  · rw [if_pos hid]
    exact Option.map_congr fun row _ => by simp [Db.atWheel, hid]
  · rw [if_neg hid, stateAt]
    exact Option.map_congr fun row _ => by simp [Db.atWheel, hid]

theorem hasWheel_of_stateAt {id : ℕ} {state : WheelState} (h : stateAt db id = some state) :
    db.hasWheel id = true := by
  obtain ⟨row, hrow, -⟩ := Option.map_eq_some_iff.mp h
  exact Db.hasWheel_iff.mpr ⟨row, hrow⟩

/-- An outcome puts its wheel into its target, and leaves the others. -/
theorem stateAt_applyOutcome (x : PathSetup) (clock : Clock) (stage : Stage) (outcome : Outcome)
    (hwheel : s.db.hasWheel item.id = true) (id : ℕ) :
    stateAt (s.applyOutcome x clock stage item outcome).db id =
      if id = item.id then (stateAt s.db id).map fun state =>
        (target x.dispatcher stage item s.db outcome).getD state
      else stateAt s.db id := by
  have hget : ∀ {wheels : Table ℕ WheelRow} {f : WheelRow → WheelRow},
      wheels = s.db.wheels.modify (Db.atWheel item.id f) →
      (∀ row, (f row).state = (target x.dispatcher stage item s.db outcome).getD row.state) →
      (wheels.get? id).map WheelRow.state = if id = item.id then (stateAt s.db id).map fun state =>
        (target x.dispatcher stage item s.db outcome).getD state else stateAt s.db id := by
    intro wheels f hwheels hstate
    rw [hwheels, Table.get?_modify, Option.map_map]
    by_cases hid : id = item.id
    · rw [if_pos hid, stateAt, Option.map_map]
      exact Option.map_congr fun row _ => by simp [Db.atWheel, hid, hstate]
    · rw [if_neg hid, stateAt]
      exact Option.map_congr fun row _ => by simp [Db.atWheel, hid]
  rw [stateAt, applyOutcome]
  cases hbuild : buildWriteOp x.dispatcher clock stage item outcome with
  | error e =>
      have hnone : target x.dispatcher stage item s.db outcome = none := by
        cases htarget : target x.dispatcher stage item s.db outcome with
        | none => rfl
        | some next =>
            obtain ⟨op, hop⟩ := @buildWriteOp_of_target _ clock _ _ _ _ _ htarget
            rw [hbuild] at hop
            cases hop
      refine hget (f := fun row => row) (Table.modify_eq_self fun _ _ => ?_).symm fun row => ?_
      · simp [Db.atWheel]
      · rw [hnone, Option.getD_none]
  | ok op =>
      refine hget (runAtomic_outcome s.counter hbuild hwheel).1 fun row => ?_
      cases htarget : target x.dispatcher stage item s.db outcome with
      | none => rw [outcomeRow_of_target_none hbuild htarget, Option.getD_none]
      | some next => rw [outcomeRow_state htarget, Option.getD_some]

/-- It changes nothing else that the threads share. -/
theorem applyOutcome_eq (x : PathSetup) (clock : Clock) (stage : Stage) (item : QueueItem)
    (outcome : Outcome) (s : Paths) :
    ∃ db counter, s.applyOutcome x clock stage item outcome =
      { s with
        db := db
        counter := counter
        queues := Dispatcher.release stage item.id s.queues } := by
  rw [applyOutcome]
  cases buildWriteOp x.dispatcher clock stage item outcome with
  | error e => exact ⟨_, _, rfl⟩
  | ok op => exact ⟨_, _, rfl⟩

end States

/-! ## The invariant -/

namespace ConvertBatch

theorem pending_ofFed (items : List ConvertQueueItem) :
    (ofFed items).pending = items.map ConvertQueueItem.queueItem := by
  cases items <;> rfl

theorem pending_ofBulk (items : List QueueItem) : (ofBulk items).pending = items := by
  cases items <;> rfl

theorem pending_erase (i : ℕ) (batch : ConvertBatch) :
    (batch.erase i).pending = batch.pending.eraseIdx i := by
  cases batch with
  | idle => rfl
  | drained limit => rfl
  | fed items => rw [erase, pending_ofFed, pending, List.eraseIdx_map]
  | bulk items => rw [erase, pending_ofBulk, pending]

end ConvertBatch

namespace Paths

/-- The wheels that are committed and have no outcome yet, wherever they are held. -/
def held (s : Paths) : List ℕ := s.handedOver ++ s.batch.pending.map QueueItem.id

/-- Every wheel is held once, in the state of the queue that it was in. -/
structure Ordered (s : Paths) : Prop where
  fetching : (s.fetching.map QueueItem.id).Nodup
  inFlight : ∀ item ∈ s.fetching, item.id ∈ s.queues.inFlight .fetch
  claimed : ∀ item ∈ s.fetching,
    item.state = .needMetadata ∧ stateAt s.db item.id = some .needMetadata
  heldOnce : s.held.Nodup
  queued : ∀ id ∈ s.held, stateAt s.db id = some .needConvert
  fed : ∀ item ∈ s.fed, item.queueItem.state = .needConvert
  pending : ∀ item ∈ s.batch.pending, item.state = .needConvert
  once : s.Once

variable {x : PathSetup} {s s' : Paths}

theorem Ordered.single (h : s.Ordered) : s.Single where
  apart id hfed hbulk := by
    have hheld := h.heldOnce
    rw [held, handedOver] at hheld
    cases hbatch : s.batch with
    | bulk items =>
        simp only [fedIds, bulkIds, hbatch, List.append_nil] at hfed hbulk
        rw [hbatch] at hheld
        exact (List.nodup_append.mp hheld).2.2 id (List.mem_append_right _ hfed) id hbulk rfl
    | idle => simp [bulkIds, hbatch] at hbulk
    | drained limit => simp [bulkIds, hbatch] at hbulk
    | fed items => simp [bulkIds, hbatch] at hbulk
  once := h.once

theorem Once.congr (h : s.Once) (harchived : s'.archived = s.archived)
    (hsettled : s'.settled = s.settled)
    (hstate : ∀ id, stateAt s'.db id = some .needConvert ↔ stateAt s.db id = some .needConvert) :
    s'.Once := fun id => by
  rw [harchived, hsettled, ← h id]
  simp only [hstate]

/-! ## Steps -/

theorem Ordered.start (db : Db) (counter : ℕ) : (Paths.start db counter).Ordered where
  fetching := List.nodup_nil
  inFlight := by simp [Paths.start]
  claimed := by simp [Paths.start]
  heldOnce := by simp [held, handedOver, Paths.start, ConvertBatch.pending]
  queued := by simp [held, handedOver, Paths.start, ConvertBatch.pending]
  fed := by simp [Paths.start]
  pending := by simp [Paths.start, ConvertBatch.pending]
  once id := by
    have hkeys : ((db.wheels.filter fun _ row => row.state = .needConvert).keys.Nodup) :=
      (db.wheels.filter _).nodup
    have hmem : id ∈ (db.wheels.filter fun _ row => row.state = .needConvert).keys ↔
        stateAt db id = some .needConvert := by
      rw [← not_iff_not, ← Table.get?_eq_none_iff, Table.get?_filter, Option.filter_eq_none_iff,
        stateAt]
      simp
    change 0 + (if stateAt db id = some .needConvert then 1 else 0) = _
    rw [Nat.zero_add]
    by_cases hstate : stateAt db id = some .needConvert
    · rw [if_pos hstate]
      exact (List.count_eq_one_of_mem hkeys (hmem.mpr hstate)).symm
    · rw [if_neg hstate]
      exact (List.count_eq_zero_of_not_mem fun h => hstate (hmem.mp h)).symm

/-- A claim of the fetch stage takes wheels that nobody holds. -/
theorem Ordered.fetch (h : s.Ordered) {limit : ℕ} {nowIso : String}
    (hstep : s.step x (.fetch limit nowIso) = some s') : s'.Ordered := by
  obtain rfl := Option.some.inj hstep
  constructor
  · change ((s.fetching ++ (claim .fetch limit nowIso s.db s.queues).1).map QueueItem.id).Nodup
    rw [List.map_append]
    refine List.nodup_append.mpr ⟨h.fetching, nodup_claim, ?_⟩
    rintro id hid _ hclaimed rfl
    obtain ⟨item, hitem, rfl⟩ := List.mem_map.mp hid
    exact not_mem_inFlight_of_claim hclaimed (h.inFlight item hitem)
  · intro item hitem
    change item.id ∈ (claim .fetch limit nowIso s.db s.queues).2.inFlight .fetch
    rw [inFlight_claim]
    rcases List.mem_append.mp hitem with hold | hnew
    · exact List.mem_append_left _ (h.inFlight item hold)
    · exact List.mem_append_right _ (List.mem_map_of_mem hnew)
  · intro item hitem
    rcases List.mem_append.mp hitem with hold | hnew
    · exact h.claimed item hold
    · obtain ⟨hstate, row, hrow, hneed, -⟩ := mem_claim hnew
      exact ⟨hstate, by rw [stateAt, hrow, Option.map_some, hneed]; rfl⟩
  · exact h.heldOnce
  · exact h.queued
  · exact h.fed
  · exact h.pending
  · exact h.once

/-- What is held moves on, or is let go. -/
theorem Ordered.moved (h : s.Ordered) (left : List ℕ) (hdb : s'.db = s.db)
    (hfetching : s'.fetching = s.fetching)
    (hqueues : s'.queues.inFlight .fetch = s.queues.inFlight .fetch)
    (harchived : s'.archived = s.archived) (hsettled : s'.settled = s.settled)
    (hheld : s.held.Perm (left ++ s'.held))
    (hfed : ∀ item ∈ s'.fed, item.queueItem.state = .needConvert)
    (hpending : ∀ item ∈ s'.batch.pending, item.state = .needConvert) : s'.Ordered where
  fetching := hfetching ▸ h.fetching
  inFlight := by
    rw [hfetching, hqueues]
    exact h.inFlight
  claimed := by
    rw [hfetching, hdb]
    exact h.claimed
  heldOnce := (List.nodup_append.mp (hheld.nodup_iff.mp h.heldOnce)).2.1
  queued id hid := by
    rw [hdb]
    exact h.queued id (hheld.mem_iff.mpr (List.mem_append_right _ hid))
  fed := hfed
  pending := hpending
  once := h.once.congr harchived hsettled fun id => by rw [hdb]

/-- Handing an item over moves it to the fed queue. -/
theorem Ordered.forward (h : s.Ordered) (hstep : s.step x .forward = some s') : s'.Ordered := by
  simp only [step] at hstep
  split at hstep
  · next item hforwarding =>
      obtain ⟨-, hstep⟩ := Option.ite_none_right_eq_some.mp hstep
      obtain rfl := Option.some.inj hstep
      refine h.moved [] rfl rfl rfl rfl rfl ?_ (fun item' hitem' => ?_) h.pending
      · simp only [held, handedOver, hforwarding, Option.toList_some, Option.toList_none,
          List.map_append, List.map_cons, List.map_nil, List.nil_append]
        exact List.perm_append_comm.append_right _
      · rcases List.mem_append.mp hitem' with hold | hnew
        · exact h.fed item' hold
        · rw [List.mem_singleton.mp hnew]
  · cases hstep

/-- Draining moves items from the fed queue to the batch. -/
theorem Ordered.drain (h : s.Ordered) {limit : ℕ} (hstep : s.step x (.drain limit) = some s') :
    s'.Ordered := by
  simp only [step] at hstep
  split at hstep
  · next hidle =>
      split at hstep
      · obtain rfl := Option.some.inj hstep
        refine h.moved [] rfl rfl rfl rfl rfl ?_ h.fed (by simp [ConvertBatch.pending])
        simp only [held, handedOver, hidle, ConvertBatch.pending]
        exact List.Perm.refl _
      · obtain rfl := Option.some.inj hstep
        refine h.moved [] rfl rfl rfl rfl rfl ?_
          (fun item hitem => h.fed item (List.mem_of_mem_drop hitem)) (fun item hitem => ?_)
        · have hfed : (s.fed.map fun item => item.queueItem.id).Perm
              ((s.fed.drop limit).map (fun item => item.queueItem.id) ++
                (s.fed.take limit).map fun item => item.queueItem.id) := by
            rw [← List.map_append]
            refine List.Perm.map _ ?_
            exact (List.Perm.of_eq (List.take_append_drop limit s.fed).symm).trans
              List.perm_append_comm
          simp only [held, handedOver, hidle, ConvertBatch.pending, List.map_nil, List.append_nil,
            List.map_map, List.nil_append, List.append_assoc]
          exact hfed.append_left _
        · obtain ⟨entry, hentry, rfl⟩ := List.mem_map.mp hitem
          exact h.fed entry (List.mem_of_mem_take hentry)
  · cases hstep

/-- A claim that takes nothing that is on its way keeps the paths apart. -/
theorem Ordered.claimBatch (h : s.Ordered) {nowIso : String}
    (hspaced : s.Spaced (.claimBatch nowIso))
    (hstep : s.step x (.claimBatch nowIso) = some s') : s'.Ordered := by
  simp only [step] at hstep
  split at hstep
  · next limit hdrained =>
      obtain rfl := Option.some.inj hstep
      simp only [Spaced, hdrained] at hspaced
      have hheld : s.held = s.handedOver := by
        simp only [held, hdrained, ConvertBatch.pending, List.map_nil, List.append_nil]
      have hqueued := h.queued
      have honce := h.heldOnce
      rw [hheld] at hqueued honce
      constructor
      · exact h.fetching
      · intro item hitem
        change item.id ∈ (claim .convert limit nowIso s.db s.queues).2.inFlight .fetch
        rw [inFlight_claim_of_ne (by decide)]
        exact h.inFlight item hitem
      · exact h.claimed
      · change (s.handedOver ++ (ConvertBatch.ofBulk _).pending.map QueueItem.id).Nodup
        rw [ConvertBatch.pending_ofBulk]
        refine List.nodup_append.mpr ⟨honce, nodup_claim, ?_⟩
        rintro id hid _ hclaimed rfl
        obtain ⟨item, hitem, rfl⟩ := List.mem_map.mp hclaimed
        exact hspaced item hitem hid
      · intro id hid
        change id ∈ s.handedOver ++ (ConvertBatch.ofBulk _).pending.map QueueItem.id at hid
        rw [ConvertBatch.pending_ofBulk] at hid
        rcases List.mem_append.mp hid with hold | hnew
        · exact hqueued id hold
        · obtain ⟨item, hitem, rfl⟩ := List.mem_map.mp hnew
          obtain ⟨-, row, hrow, hneed, -⟩ := mem_claim hitem
          change stateAt s.db item.id = _
          rw [stateAt, hrow, Option.map_some, hneed]
          rfl
      · exact h.fed
      · intro item hitem
        change item ∈ (ConvertBatch.ofBulk _).pending at hitem
        rw [ConvertBatch.pending_ofBulk] at hitem
        exact (mem_claim hitem).1
      · exact h.once
  · cases hstep

/-- An item and the rest of its list. -/
theorem perm_eraseIdx {l : List QueueItem} {i : ℕ} {item : QueueItem} (hi : l[i]? = some item) :
    (l.map QueueItem.id).Perm (item.id :: (l.eraseIdx i).map QueueItem.id) := by
  obtain ⟨hlt, rfl⟩ := List.getElem?_eq_some_iff.mp hi
  rw [← List.map_cons (f := QueueItem.id)]
  exact (List.getElem_cons_eraseIdx_perm hlt).symm.map _

/-- The other items of the fetch stage, when one of them is done. -/
theorem Ordered.others (h : s.Ordered) {i : ℕ} {item : QueueItem}
    (hi : s.fetching[i]? = some item) : ((s.fetching.eraseIdx i).map QueueItem.id).Nodup ∧
      ∀ other ∈ s.fetching.eraseIdx i, other ∈ s.fetching ∧ other.id ≠ item.id := by
  obtain ⟨hnot, hnodup⟩ := List.nodup_cons.mp ((perm_eraseIdx hi).nodup_iff.mp h.fetching)
  exact ⟨hnodup, fun other hother => ⟨List.mem_of_mem_eraseIdx hother, fun heq =>
    hnot (heq ▸ List.mem_map_of_mem hother)⟩⟩

theorem Ordered.not_mem_held (h : s.Ordered) {item : QueueItem} (hitem : item ∈ s.fetching) :
    item.id ∉ s.held := fun hid => by
  have hstate := (h.claimed item hitem).2
  rw [h.queued item.id hid] at hstate
  cases hstate

/-- An outcome of a fetch, or the archive thread's, releases its item and leaves the others
of the fetch stage as they are. -/
theorem Ordered.released (h : s.Ordered) {i : ℕ} {item : QueueItem}
    (hi : s.fetching[i]? = some item) {db : Db}
    (hstate : ∀ id, id ≠ item.id → stateAt db id = stateAt s.db id) :
    (∀ other ∈ s.fetching.eraseIdx i,
      other.id ∈ (Dispatcher.release .fetch item.id s.queues).inFlight .fetch) ∧
    ∀ other ∈ s.fetching.eraseIdx i,
      other.state = .needMetadata ∧ stateAt db other.id = some .needMetadata := by
  constructor
  · intro other hother
    obtain ⟨hmem, hne⟩ := (h.others hi).2 other hother
    exact mem_inFlight_release.mpr ⟨h.inFlight other hmem, by simpa using hne⟩
  · intro other hother
    obtain ⟨hmem, hne⟩ := (h.others hi).2 other hother
    rw [hstate other.id hne]
    exact h.claimed other hmem

/-- A fetch without bytes. -/
theorem Ordered.fail (h : s.Ordered) {i : ℕ} {outcome : Outcome} {clock : Clock}
    (hstep : s.step x (.fail i outcome clock) = some s') : s'.Ordered := by
  simp only [step] at hstep
  split at hstep
  · next item hi =>
      obtain ⟨htarget, hstep⟩ := Option.ite_none_left_eq_some.mp hstep
      have hitem := List.mem_of_getElem? hi
      obtain ⟨hclaimed, hneed⟩ := h.claimed item hitem
      set s₁ : Paths := { s with fetching := s.fetching.eraseIdx i } with hs₁
      have hstate := stateAt_applyOutcome (s := s₁) x clock .fetch outcome
        (hasWheel_of_stateAt hneed)
      obtain ⟨db, counter, heq⟩ := applyOutcome_eq x clock .fetch item outcome s₁
      rw [heq] at hstep hstate
      obtain rfl := Option.some.inj hstep
      have hother : ∀ id, id ≠ item.id → stateAt db id = stateAt s.db id := fun id hid =>
        (hstate id).trans (if_neg hid)
      have hself : stateAt db item.id ≠ some .needConvert := by
        rw [hstate, if_pos rfl, hneed, Option.map_some]
        intro hconvert
        refine htarget ?_
        cases hnext : target x.dispatcher .fetch item s.db outcome with
        | none => simp [hs₁, hnext] at hconvert
        | some next => simpa [hs₁, hnext] using hconvert
      obtain ⟨hinFlight, hothers⟩ := h.released hi hother
      refine ⟨(h.others hi).1, hinFlight, hothers, h.heldOnce, fun id hid => ?_, h.fed, h.pending,
        h.once.congr rfl rfl fun id => ?_⟩
      · have hne : id ≠ item.id := fun heq => h.not_mem_held hitem (heq ▸ hid)
        exact (hother id hne).trans (h.queued id hid)
      · by_cases hid : id = item.id
        · subst hid
          exact iff_of_false hself (by simp [hneed])
        · change stateAt db id = _ ↔ _
          rw [hother id hid]
  · cases hstep

/-- The commit of a fetch's `Ok` puts one more version into the convert queue. -/
theorem Ordered.commit (h : s.Ordered) {i : ℕ} {fetched : HandoffItem} {clock : Clock}
    (hstep : s.step x (.commit i fetched clock) = some s') : s'.Ordered := by
  simp only [step] at hstep
  split at hstep
  · next item hforwarding hi =>
      have hitem := List.mem_of_getElem? hi
      obtain ⟨hclaimed, hneed⟩ := h.claimed item hitem
      set s₁ : Paths := { s with
        fetching := s.fetching.eraseIdx i
        forwarding := some { fetched with queueItem := item }
        archived := s.archived ++ [item.id] } with hs₁
      have hstate := stateAt_applyOutcome (s := s₁) x clock .fetch
        (.ok ⟨.needConvert, .blobLink (x.hexdigest fetched.data)⟩) (hasWheel_of_stateAt hneed)
      obtain ⟨db, counter, heq⟩ := applyOutcome_eq x clock .fetch item
        (.ok ⟨.needConvert, .blobLink (x.hexdigest fetched.data)⟩) s₁
      rw [heq] at hstep hstate
      obtain rfl := Option.some.inj hstep
      have hother : ∀ id, id ≠ item.id → stateAt db id = stateAt s.db id := fun id hid =>
        (hstate id).trans (if_neg hid)
      have hself : stateAt db item.id = some .needConvert := by
        have htarget : target x.dispatcher .fetch item s.db
            (.ok ⟨.needConvert, .blobLink (x.hexdigest fetched.data)⟩) = some .needConvert := by
          rw [target, hclaimed]
          rfl
        rw [hstate, if_pos rfl]
        change ((stateAt s.db item.id).map fun state =>
          (target x.dispatcher .fetch item s.db _).getD state) = _
        rw [hneed, htarget]
        rfl
      have hheld : (s.handedOver ++ s.batch.pending.map QueueItem.id) = s.held := rfl
      have hnone : s.handedOver = s.fed.map fun item => item.queueItem.id := by
        rw [handedOver, hforwarding]
        rfl
      obtain ⟨hinFlight, hothers⟩ := h.released hi hother
      refine ⟨(h.others hi).1, hinFlight, hothers, ?_, fun id hid => ?_, h.fed, h.pending,
        fun id => ?_⟩
      · change ([item.id] ++ (s.fed.map fun item => item.queueItem.id) ++
          s.batch.pending.map QueueItem.id).Nodup
        rw [List.append_assoc, ← hnone, hheld]
        exact List.nodup_cons.mpr ⟨h.not_mem_held hitem, h.heldOnce⟩
      · change id ∈ [item.id] ++ (s.fed.map fun item => item.queueItem.id) ++
          s.batch.pending.map QueueItem.id at hid
        rw [List.append_assoc, ← hnone, hheld] at hid
        rcases List.mem_cons.mp hid with rfl | hold
        · exact hself
        · have hne : id ≠ item.id := fun heq => h.not_mem_held hitem (heq ▸ hold)
          exact (hother id hne).trans (h.queued id hold)
      · change s.settled.count id + (if stateAt db id = _ then 1 else 0) =
          (s.archived ++ [item.id]).count id
        rw [List.count_append, ← h.once id, Nat.add_assoc]
        refine congrArg _ ?_
        by_cases hid : id = item.id
        · subst hid
          simp [hself, hneed]
        · have hne : item.id ≠ id := fun heq => hid heq.symm
          rw [hother id hid]
          simp [hne]
  · cases hstep

/-- Taking an item out of the batch leaves the other wheels that are held. -/
theorem held_erase {i : ℕ} {item : QueueItem} (hi : s.batch.pending[i]? = some item) :
    s.held.Perm (item.id :: (s.handedOver ++ (s.batch.erase i).pending.map QueueItem.id)) := by
  rw [held, ConvertBatch.pending_erase]
  exact ((perm_eraseIdx hi).append_left _).trans List.perm_middle

/-- An item of the batch gets its outcome. -/
theorem Ordered.complete (h : s.Ordered) {i : ℕ} {outcome : ConvertOutcome} {clock : Clock}
    (hstep : s.step x (.complete i outcome clock) = some s') : s'.Ordered := by
  simp only [step] at hstep
  split at hstep
  · next item hi =>
      have hclaimed := h.pending item (List.mem_of_getElem? hi)
      have hperm := held_erase hi
      have hneed := h.queued item.id (hperm.mem_iff.mpr List.mem_cons_self)
      obtain ⟨hnot, hnodup⟩ := List.nodup_cons.mp (hperm.nodup_iff.mp h.heldOnce)
      set adapted := adaptConvertOutcome outcome x.dispatcher.rerollVersion
      set s₁ : Paths := { s with
        batch := s.batch.erase i
        settled := s.settle x item adapted } with hs₁
      have hstate := stateAt_applyOutcome (s := s₁) x clock .convert adapted
        (hasWheel_of_stateAt hneed)
      obtain ⟨db, counter, heq⟩ := applyOutcome_eq x clock .convert item adapted s₁
      rw [heq] at hstep hstate
      obtain rfl := Option.some.inj hstep
      have hother : ∀ id, id ≠ item.id → stateAt db id = stateAt s.db id := fun id hid =>
        (hstate id).trans (if_neg hid)
      refine ⟨h.fetching, fun other hother' => ?_, fun other hother' => ?_, hnodup,
        fun id hid => ?_, h.fed, fun other hother' => ?_, fun id => ?_⟩
      · change other.id ∈ (Dispatcher.release .convert item.id s.queues).inFlight .fetch
        rw [inFlight_release_of_ne (by decide)]
        exact h.inFlight other hother'
      · obtain ⟨hneeds, hmetadata⟩ := h.claimed other hother'
        refine ⟨hneeds, (hother other.id fun hid => ?_).trans hmetadata⟩
        rw [hid, hneed] at hmetadata
        cases hmetadata
      · have hmem : id ∈ s.handedOver ++ (s.batch.erase i).pending.map QueueItem.id := hid
        have hne : id ≠ item.id := fun heq => hnot (heq ▸ hmem)
        exact (hother id hne).trans (h.queued id (hperm.mem_iff.mpr (List.mem_cons_of_mem _ hmem)))
      · change other ∈ (s.batch.erase i).pending at hother'
        rw [ConvertBatch.pending_erase] at hother'
        exact h.pending other (List.mem_of_mem_eraseIdx hother')
      · -- The outcome ends the conversion exactly when it moves the wheel.
        change (s.settle x item adapted).count id + (if stateAt db id = _ then 1 else 0) =
          s.archived.count id
        rw [← h.once id]
        by_cases hid : id = item.id
        · subst hid
          have hself := (hstate item.id).trans (if_pos rfl)
          change stateAt db item.id = (stateAt s.db item.id).map fun state =>
            (target x.dispatcher .convert item s.db adapted).getD state at hself
          rw [hneed, Option.map_some] at hself
          rw [hself, hneed, settle]
          cases htarget : target x.dispatcher .convert item s.db adapted with
          | none => simp
          | some next =>
              have hmoved : next ≠ .needConvert := by
                have hmem := Pipeline.mem_allowedTransitions_of_target htarget
                rw [hclaimed] at hmem
                rintro rfl
                revert hmem
                decide
              simp [hmoved]
        · have hne : item.id ≠ id := fun heq => hid heq.symm
          rw [hother id hid, settle]
          split <;> simp [hne]
  · cases hstep

/-- Releasing an item of the batch lets it go. -/
theorem Ordered.release (h : s.Ordered) {i : ℕ} (hstep : s.step x (.release i) = some s') :
    s'.Ordered := by
  simp only [step] at hstep
  split at hstep
  · next items hbulk =>
      obtain ⟨item, hi, rfl⟩ := Option.map_eq_some_iff.mp hstep
      have hpending : s.batch.pending[i]? = some item := by rw [hbulk]; exact hi
      refine h.moved [item.id] rfl rfl (inFlight_release_of_ne (by decide) _ _) rfl rfl
        (held_erase hpending) h.fed fun other hother => ?_
      change other ∈ (s.batch.erase i).pending at hother
      rw [ConvertBatch.pending_erase] at hother
      exact h.pending other (List.mem_of_mem_eraseIdx hother)
  · cases hstep

/-- A wheel that is not to be converted can be renewed. -/
theorem Ordered.renew (h : s.Ordered) {id : ℕ} {change : WheelRow → WheelRow}
    (hspaced : s.Spaced (.renew id change)) (hstep : s.step x (.renew id change) = some s') :
    s'.Ordered := by
  obtain rfl := Option.some.inj hstep
  have hstate := @stateAt_updateWheel s.db id
    fun row => { change row with state := .needMetadata }
  have hother : ∀ id', id' ≠ id → stateAt (s.db.updateWheel id fun row =>
      { change row with state := .needMetadata }) id' = stateAt s.db id' := fun id' hid =>
    (hstate id').trans (if_neg hid)
  refine ⟨h.fetching, h.inFlight, fun item hitem => ?_, h.heldOnce, fun id' hid' => ?_, h.fed,
    h.pending, h.once.congr rfl rfl fun id' => ?_⟩
  · obtain ⟨hclaimed, hneed⟩ := h.claimed item hitem
    refine ⟨hclaimed, ?_⟩
    by_cases hid : item.id = id
    · obtain ⟨row, hrow, -⟩ := Option.map_eq_some_iff.mp hneed
      refine (hstate item.id).trans ?_
      rw [if_pos hid, hrow, Option.map_some]
    · exact (hother item.id hid).trans hneed
  · have hneed := h.queued id' hid'
    have hne : id' ≠ id := fun heq => hspaced (heq ▸ hneed)
    exact (hother id' hne).trans hneed
  · by_cases hid : id' = id
    · refine iff_of_false (fun hneed => ?_) (hid ▸ hspaced)
      rw [hstate, if_pos hid] at hneed
      obtain ⟨row, -, hrow⟩ := Option.map_eq_some_iff.mp hneed
      cases hrow
    · change stateAt (s.db.updateWheel id _) id' = _ ↔ _
      rw [hother id' hid]

/-- Every step keeps the order, if claims and renewals do. -/
theorem Ordered.step (h : s.Ordered) {e : PathEvent} (hspaced : s.Spaced e)
    (hstep : (machine x).step s e = some s') : s'.Ordered := by
  change s.step x e = some s' at hstep
  cases e with
  | fetch limit nowIso => exact h.fetch hstep
  | fail i outcome clock => exact h.fail hstep
  | commit i fetched clock => exact h.commit hstep
  | forward => exact h.forward hstep
  | drain limit => exact h.drain hstep
  | claimBatch nowIso => exact h.claimBatch hspaced hstep
  | complete i outcome clock => exact h.complete hstep
  | release i => exact h.release hstep
  | renew id change => exact h.renew hspaced hstep

/-- In every interleaving whose claims take no wheel that is on its way to the fed queue, a
wheel is on one path at a time, and each archived version is given one outcome. -/
theorem single_of_spaced {db : Db} {counter : ℕ} {l : List PathEvent} {t : Paths}
    (hrun : (machine x).run (start db counter) l = some t)
    (hspaced : (machine x).Along Spaced (start db counter) l) :
    (machine x).Always Single (start db counter) l :=
  Machine.always_of_along (fun _ _ _ h hspaced hstep => h.step hspaced hstep)
    (fun _ h => h.single) (Ordered.start db counter) hspaced hrun

/-! ## A claim between the commit and the fed queue -/

def exampleSetup : PathSetup where
  dispatcher := Pipeline.exampleEnv.dispatcher
  hexdigest := Pipeline.exampleEnv.sha256

/-- The bytes that the archive thread takes, and what becomes of their conversion. -/
def exampleFetched : HandoffItem :=
  ⟨⟨1, "p", 0, .needMetadata⟩, "p-1.0-py3-none-any.whl", [65], "65"⟩

def exampleSkipped : ConvertOutcome := .skip ⟨"bad_metadata", "", "", true, none⟩

/-- The wheel is forwarded before the convert stage looks for it. -/
def drainedRun : List PathEvent :=
  [.fetch 10 "t1", .commit 0 exampleFetched Pipeline.exampleClock, .forward, .drain 256,
    .complete 0 exampleSkipped Pipeline.exampleClock]

theorem single_of_drained :
    ∃ t, (machine exampleSetup).run (start Pipeline.exampleDb 1) drainedRun = some t ∧
      t.archived = [1] ∧ t.settled = [1] ∧
      (machine exampleSetup).Always Single (start Pipeline.exampleDb 1) drainedRun := by
  have hends : ((machine exampleSetup).run (start Pipeline.exampleDb 1) drainedRun).any (fun t =>
      decide (t.archived = [1] ∧ t.settled = [1])) = true := by
    decide
  have hspaced : (machine exampleSetup).Along Spaced (start Pipeline.exampleDb 1) drainedRun :=
    Machine.along_of_forall (by simp [drainedRun, Spaced]) _
  obtain ⟨t, hrun, hend⟩ := (Option.any_eq_true _ _).mp hends
  obtain ⟨harchived, hsettled⟩ := of_decide_eq_true hend
  exact ⟨t, hrun, harchived, hsettled, single_of_spaced hrun hspaced⟩

/-- The convert stage finds the fed queue empty, and claims the wheel between its commit and
`on_archived`. -/
def claimedRun : List PathEvent :=
  [.fetch 10 "t1", .drain 256, .commit 0 exampleFetched Pipeline.exampleClock, .claimBatch "t1",
    .forward]

/-- It completes the batch, and then the one that it drains. -/
def twiceRun : List PathEvent :=
  claimedRun ++ [.complete 0 exampleSkipped Pipeline.exampleClock, .drain 256,
    .complete 0 exampleSkipped Pipeline.exampleClock]

/-- The wheel is in the fed queue and in the claimed batch, and its one version is given two
outcomes. -/
theorem claimed_and_fed :
    ∃ s t, (machine exampleSetup).run (start Pipeline.exampleDb 1) claimedRun = some s ∧
      s.fedIds = [1] ∧ s.bulkIds = [1] ∧
      (machine exampleSetup).run (start Pipeline.exampleDb 1) twiceRun = some t ∧
      t.archived = [1] ∧ t.settled = [1, 1] ∧
      ¬(machine exampleSetup).Always Single (start Pipeline.exampleDb 1) claimedRun ∧
      ¬(machine exampleSetup).Always Single (start Pipeline.exampleDb 1) twiceRun := by
  have hclaimed : ((machine exampleSetup).run (start Pipeline.exampleDb 1) claimedRun).any
      (fun s => decide (s.fedIds = [1] ∧ s.bulkIds = [1])) = true := by
    decide
  have htwice : ((machine exampleSetup).run (start Pipeline.exampleDb 1) twiceRun).any
      (fun t => decide (t.archived = [1] ∧ t.settled = [1, 1])) = true := by
    decide
  obtain ⟨s, hs, hboth⟩ := (Option.any_eq_true _ _).mp hclaimed
  obtain ⟨t, ht, hcounts⟩ := (Option.any_eq_true _ _).mp htwice
  obtain ⟨hfed, hbulk⟩ := of_decide_eq_true hboth
  obtain ⟨harchived, hsettled⟩ := of_decide_eq_true hcounts
  have hnot : ¬s.Single := fun h => h.apart 1 (by simp [hfed]) (by simp [hbulk])
  exact ⟨s, t, hs, hfed, hbulk, ht, harchived, hsettled,
    fun h => hnot (h claimedRun s (List.prefix_refl _) hs),
    fun h => hnot (h claimedRun s (List.prefix_append _ _) hs)⟩

end Paths

end RerollSync.Stages
