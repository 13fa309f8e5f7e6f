import RerollSync.Daemon.Metadata
import RerollSync.Daemon.SkipVersions
import RerollSync.Store.Frame

/-!
# Wheels that wait for conversion

Bulk conversion reads a wheel in `NEED_CONVERT` back from the archive, so it needs
the wheel's blob.  A campaign puts wheels into that state without asking for one.
-/

namespace RerollSync.Daemon

open RerollSync.Support RerollSync.Store RerollSync.Dispatcher RerollSync.Ingest
open RerollSync.Pipeline RerollSync.Fetch RerollSync.Fsck

variable {M : Type} {env : Env M}

/-! ## The archive's tables through a step -/

theorem archive_commit {α : Type} {op : Op α} (h : op.Keeps Db.archive) (s : State) :
    (s.commit op).db.archive = s.db.archive := h.runAtomic s.db s.changeSeq

theorem archive_applyOutcome (i : ℕ) (h : Held) (outcome : Outcome) (clock : Clock) (s : State) :
    (s.applyOutcome env i h outcome clock).db.archive = s.db.archive := by
  rw [State.applyOutcome]
  split
  · rfl
  · next op hbuild => exact archive_commit (disciplined_buildWriteOp _ _ _ _ hbuild).archive s

theorem archive_handoff (i : ℕ) (h : Held) (filename : String) (data : Bytes) (clock : Clock)
    (s : State) : (s.archive env i h filename data clock).db.archive = s.db.archive := by
  rw [State.db_archive]
  exact archive_applyOutcome i h _ clock s

/-- No step of the pipeline writes to `blobs` or to `segments`. -/
theorem archive_pipeline {s s' : State} {e : Pipeline.Event}
    (hstep : Pipeline.step env s e = some s') : s'.db.archive = s.db.archive := by
  cases e with
  | claim stage limit nowIso =>
      obtain rfl := Option.some.inj hstep
      rfl
  | loadSidecar i =>
      obtain ⟨h, -, hrest⟩ := Option.bind_eq_some_iff.mp hstep
      obtain ⟨row, -, hrest⟩ := Option.bind_eq_some_iff.mp hrest
      obtain ⟨-, hrest⟩ := Option.ite_none_right_eq_some.mp hrest
      obtain rfl := Option.some.inj hrest
      rfl
  | loadBytes i data =>
      obtain ⟨h, -, hrest⟩ := Option.bind_eq_some_iff.mp hstep
      obtain ⟨row, -, hrest⟩ := Option.bind_eq_some_iff.mp hrest
      obtain ⟨-, hrest⟩ := Option.ite_none_right_eq_some.mp hrest
      obtain rfl := Option.some.inj hrest
      rfl
  | release i =>
      obtain ⟨h, -, hrest⟩ := Option.bind_eq_some_iff.mp hstep
      obtain rfl := Option.some.inj hrest
      rfl
  | apply i outcome clock =>
      obtain ⟨h, -, hrest⟩ := Option.bind_eq_some_iff.mp hstep
      obtain rfl := Option.some.inj hrest
      exact archive_applyOutcome i h outcome clock s
  | archive i data clock =>
      obtain ⟨h, -, hrest⟩ := Option.bind_eq_some_iff.mp hstep
      split at hrest
      · obtain ⟨-, hrest⟩ := Option.ite_none_right_eq_some.mp hrest
        obtain rfl := Option.some.inj hrest
        exact archive_handoff i h _ data clock s
      · cases hrest
  | planSync name fetched =>
      obtain ⟨-, hrest⟩ := Option.ite_none_left_eq_some.mp hstep
      obtain rfl := Option.some.inj hrest
      unfold State.planned
      split <;> rfl
  | applySync name nowIso =>
      obtain ⟨sync, -, hrest⟩ := Option.bind_eq_some_iff.mp hstep
      obtain rfl := Option.some.inj hrest
      cases sync with
      | plan plan => exact archive_commit (disciplined_projectApply _ plan).archive _
      | gone => exact archive_commit (disciplined_goneApply name nowIso).archive _
  | selectChunk selector page chunkSize =>
      obtain ⟨-, hrest⟩ := Option.ite_none_right_eq_some.mp hstep
      obtain rfl := Option.some.inj hrest
      rfl
  | applyChunk i nowIso =>
      obtain ⟨chunk, -, hrest⟩ := Option.bind_eq_some_iff.mp hstep
      obtain rfl := Option.some.inj hrest
      exact archive_commit (disciplined_reprocessChunkApply _ _ nowIso).archive _
  | selectQuarantined project chunkSize =>
      obtain rfl := Option.some.inj hstep
      rfl
  | applyUnquarantine i nowIso =>
      obtain ⟨ids, -, hrest⟩ := Option.bind_eq_some_iff.mp hstep
      obtain rfl := Option.some.inj hrest
      exact archive_commit (disciplined_unquarantineChunkApply _ nowIso).archive _

theorem blobs_handoff (i : ℕ) (h : Held) (filename : String) (data : Bytes) (clock : Clock)
    (s : State) : (s.archive env i h filename data clock).db.blobs = s.db.blobs :=
  congrArg Prod.fst (archive_handoff i h filename data clock s)

theorem blobs_pipeline {s s' : State} {e : Pipeline.Event}
    (hstep : Pipeline.step env s e = some s') : s'.db.blobs = s.db.blobs :=
  congrArg Prod.fst (archive_pipeline hstep)

/-- A blob that is inserted is there, and so are those that were. -/
theorem get?_insertBlob {sha256 : String} {row : BlobRow} {db db' : Db}
    (h : db.insertBlob sha256 row = some db') :
    (∃ blob, db'.blobs.get? sha256 = some blob) ∧
      ∀ key blob, db.blobs.get? key = some blob → db'.blobs.get? key = some blob := by
  unfold Db.insertBlob at h
  by_cases hsome : (db.blobs.get? sha256).isSome = true
  · obtain rfl := Option.some.inj ((if_pos hsome).symm.trans h)
    exact ⟨Option.isSome_iff_exists.mp hsome, fun _ _ hget => hget⟩
  · have hnone : db.blobs.get? sha256 = none := Option.not_isSome_iff_eq_none.mp hsome
    obtain ⟨-, heq⟩ := Option.ite_none_right_eq_some.mp ((if_neg hsome).symm.trans h)
    obtain rfl := Option.some.inj heq
    refine ⟨⟨row, by simp [Table.get?_insertNew, hnone]⟩, fun key blob hget => ?_⟩
    have hne : key ≠ sha256 := by
      rintro rfl
      simp [hnone] at hget
    simp [Table.get?_insertNew, hne, hget]

/-! ## The invariant -/

/-- The blob is in the archive. -/
def InBlobs (db : Db) (blobSha256 : Option String) : Prop :=
  ∃ sha256 blob, blobSha256 = some sha256 ∧ db.blobs.get? sha256 = some blob

instance (db : Db) (blobSha256 : Option String) : Decidable (InBlobs db blobSha256) :=
  decidable_of_iff (blobSha256.any fun sha256 => (db.blobs.get? sha256).isSome) <| by
    cases blobSha256 <;> simp [InBlobs, Option.isSome_iff_exists]

/-- Every wheel that waits for conversion has its blob in the archive. -/
def QueueArchived (db : Db) : Prop :=
  ∀ id row, db.wheels.get? id = some row → row.state = .needConvert → InBlobs db row.blobSha256

/-- A wheel that a campaign resets is archived, and a change does not take the blob
of a wheel that waits for conversion. -/
def ConvertSafe (db : Db) (move : Move) (w : Wheel) : Prop :=
  match move with
  | .reprocessed _ _ => InBlobs db w.row.blobSha256
  | .changed _ change => change.changes.state = none → w.row.state = .needConvert →
      change.changes.clearBlobSha256 = false
  | _ => True

instance (db : Db) (move : Move) (w : Wheel) : Decidable (ConvertSafe db move w) :=
  match move with
  | .reprocessed _ _ => inferInstanceAs (Decidable (InBlobs db w.row.blobSha256))
  | .changed _ change => inferInstanceAs (Decidable (change.changes.state = none →
      w.row.state = .needConvert → change.changes.clearBlobSha256 = false))
  | .archived _ _ | .converted _ _ _ | .skipped _ _ | .quarantined _ _ _ | .deferred _ _ _
  | .tombstoned _ | .unquarantined _ | .recovered => isTrue trivial

/-- The new wheels of a sync. -/
def newWheelsOf : PendingSync → List NewWheel
  | .plan plan => plan.newWheels
  | .gone => []

/-- The blobs that a plan has found in `unlinked_blobs` are in the archive when its
new wheels are inserted. -/
def NewWheelsArchived (s : State) (e : Event) : Prop :=
  match e with
  | .pipeline (.applySync name _) => ∀ sync ∈ s.syncs.get? name, ∀ w ∈ newWheelsOf sync,
      (∀ r ∈ s.db.wheels.rows, r.2.filename ≠ w.filename) → w.state = .needConvert →
        InBlobs s.db w.blobSha256
  | _ => True

/-- A step puts only archived wheels into the convert queue. -/
def Archiving (env : Env M) (s : State) (e : Event) : Prop :=
  Guarded env (ConvertSafe s.db) s e ∧ NewWheelsArchived s e

instance (s : State) (e : Event) : Decidable (NewWheelsArchived s e) := by
  unfold NewWheelsArchived
  split <;> infer_instance

instance (s : State) (e : Event) : Decidable (Archiving env s e) := by
  unfold Archiving
  infer_instance

/-- Only a recovery takes blobs out of the archive. -/
theorem inBlobs_step {s s' : State} {e : Event} (hstep : step env s e = some s')
    (hrecover : ∀ segmentId chunkSize, e ≠ .recover segmentId chunkSize)
    {blobSha256 : Option String} (h : InBlobs s.db blobSha256) : InBlobs s'.db blobSha256 := by
  obtain ⟨sha256, blob, rfl, hget⟩ := h
  suffices hblobs : s'.db.blobs.get? sha256 = some blob from ⟨sha256, blob, rfl, hblobs⟩
  cases e with
  | pipeline e => rw [blobs_pipeline (step_pipeline hstep).2.1, hget]
  | archive i data location clock =>
      obtain ⟨db, h, filename, hinsert, -, -, -, rfl⟩ := step_archive hstep
      rw [blobs_handoff]
      exact (get?_insertBlob hinsert).2 sha256 blob hget
  | openSegment segmentId =>
      obtain ⟨db, hinsert, hrest⟩ := Option.bind_eq_some_iff.mp hstep
      obtain ⟨segments, rfl⟩ := db_insertSegment hinsert
      obtain rfl := Option.some.inj hrest
      exact hget
  | sealSegment segmentId row =>
      obtain rfl := Option.some.inj hstep
      exact hget
  | noteUnlinked filename row =>
      obtain rfl := Option.some.inj hstep
      exact hget
  | restart =>
      obtain rfl := Option.some.inj hstep
      exact hget
  | recover segmentId chunkSize => exact (hrecover segmentId chunkSize rfl).elim

/-- A wheel that is linked to a blob by a fetch is linked to one in the archive. -/
theorem inBlobs_of_archived {s s' : State} {e : Event} (hstep : step env s e = some s') {id : ℕ}
    {row : WheelRow} {clock : Clock} {sha256 : String}
    (hmove : moveAt env s e id row = some (.archived clock sha256)) :
    InBlobs s'.db (some sha256) := by
  rcases comesFrom_of_moveAt hmove with ⟨i, next, rfl⟩ | ⟨i, data, location, rfl, rfl⟩
  · obtain ⟨hproduced, hrest, -⟩ := step_pipeline hstep
    obtain ⟨h, hheld, -⟩ := Option.bind_eq_some_iff.mp hrest
    obtain ⟨_, _, _, -, -, -, heq⟩ := converted_of_produced hproduced hheld
    cases (Ok.mk.inj heq).2
  · obtain ⟨db, h, filename, hinsert, -, -, -, rfl⟩ := step_archive hstep
    obtain ⟨blob, hblob⟩ := (get?_insertBlob hinsert).1
    exact ⟨_, blob, rfl, by rw [blobs_handoff]; exact hblob⟩

/-- A recovery takes the wheels out of the queue whose blobs it deletes. -/
theorem queueArchived_recover {segmentId chunkSize changeSeq : ℕ} {db : Db}
    (hqueue : QueueArchived db) :
    QueueArchived (recoverUnsealedSegment segmentId chunkSize changeSeq db) := by
  have hunlinked := unlinked_recoverUnsealedSegment segmentId chunkSize changeSeq db
  intro id row' hrow' hstate
  rw [hunlinked.wheels] at hrow'
  obtain ⟨row, hrow, rfl⟩ := Option.map_eq_some_iff.mp hrow'
  rw [unlinkedRow] at hstate ⊢
  split at hstate
  · cases hstate
  · next hlinked =>
      rw [if_neg hlinked]
      obtain ⟨sha256, blob, hblob, hget⟩ := hqueue id row hrow hstate
      refine ⟨sha256, blob, hblob, ?_⟩
      rw [hunlinked.blobs, if_neg, hget]
      intro hmem
      exact hlinked ⟨by simpa [hblob] using hmem, by simp [hstate]⟩

theorem queueArchived_step {s s' : State} {e : Event} (hs : Intact s) (hqueue : QueueArchived s.db)
    (harchiving : Archiving env s e) (hstep : step env s e = some s') : QueueArchived s'.db := by
  by_cases hrecover : ∃ segmentId chunkSize, e = .recover segmentId chunkSize
  · obtain ⟨segmentId, chunkSize, rfl⟩ := hrecover
    obtain ⟨-, hrest⟩ := Option.ite_none_right_eq_some.mp hstep
    obtain rfl := Option.some.inj hrest
    exact queueArchived_recover hqueue
  · have hkept : ∀ {blobSha256}, InBlobs s.db blobSha256 → InBlobs s'.db blobSha256 :=
      inBlobs_step hstep fun segmentId chunkSize he => hrecover ⟨segmentId, chunkSize, he⟩
    have hmoves := moves_step hs hstep
    intro id row' hrow' hstate
    cases hrow : s.db.wheels.get? id with
    | none =>
        have hborn := hmoves.fresh id row' hrow hrow'
        cases e with
        | pipeline e =>
            cases e with
            | applySync name nowIso =>
                obtain ⟨plan, hsync, w, hw, hfree, m, rfl⟩ := hborn
                exact hkept (harchiving.2 (.plan plan) hsync w hw hfree hstate)
            | _ => exact hborn.elim
        | _ => exact hborn.elim
    | some row =>
        obtain ⟨m, hwheel⟩ := hmoves.kept id row hrow
        obtain ⟨hget, -⟩ := Db.wheel?_eq_some_iff.mp hwheel
        obtain rfl : row' = (moved m (s.db.wheelAt id row) (moveAt env s e id row)).row :=
          Option.some.inj (hrow'.symm.trans hget)
        cases hmove : moveAt env s e id row with
        | none =>
            rw [hmove] at hstate
            exact hkept (hqueue id row hrow hstate)
        | some move =>
            rw [hmove] at hstate
            have hsafe := harchiving.1 id row hrow move hmove
            have henters : move.enters row.state = .needConvert :=
              (state_apply m (s.db.wheelAt id row) move).symm.trans hstate
            cases move with
            | archived clock sha256 => exact inBlobs_of_archived hstep hmove
            | deferred clock stage outcome => exact hkept (hqueue id row hrow henters)
            | changed settings change =>
                obtain ⟨_, _, hdiff⟩ : ∃ row file, diffCommon change.wheelId row file =
                    some change := real_of_moveAt hs hmove
                rcases changed_cases hdiff settings m (s.db.wheelAt id row) with
                  ⟨hchange, hsame⟩ | ⟨state, hwhich, -, hnew⟩
                · have hneed : row.state = .needConvert := hsame.symm.trans hstate
                  have hblob := blobSha256_changed settings change m (s.db.wheelAt id row)
                  rw [hsafe hchange hneed, if_neg Bool.false_ne_true] at hblob
                  exact hkept (hblob ▸ hqueue id row hrow hneed)
                · have hqueued : state = .needConvert := hnew.symm.trans hstate
                  subst hqueued
                  simp at hwhich
            | reprocessed selector nowIso => exact hkept hsafe
            | unquarantined nowIso =>
                by_cases hquarantined : row.state = .quarantined
                · rw [Move.enters, if_pos hquarantined] at henters
                  cases henters
                · rw [Move.enters, if_neg hquarantined] at henters
                  have hsame : (moved m (s.db.wheelAt id row) (some (.unquarantined nowIso))).row =
                      row := if_neg hquarantined
                  rw [hsame]
                  exact hkept (hqueue id row hrow henters)
            | _ => cases henters

/-! ## What bulk conversion claims -/

/-- Every wheel that waits for conversion is archived, fsck reports none that is not,
and bulk conversion releases nothing that it has claimed. -/
structure ConvertQueueReady (s : State) : Prop where
  archived : ∀ id row, s.db.wheels.get? id = some row → row.state = .needConvert →
    ∃ sha256 blob, row.blobSha256 = some sha256 ∧ s.db.blobs.get? sha256 = some blob
  fsck2 : needConvertWithoutBlobQuery s.db = []
  unreleased : ∀ limit nowIso c disk reader item, (item, .released) ∉
    (claimBatch c disk s.db s.db (claim .convert limit nowIso s.db s.queues).1 reader).results

theorem convertQueueReady_of_queueArchived {s : State} (hqueue : QueueArchived s.db) :
    ConvertQueueReady s where
  archived := hqueue
  fsck2 := by
    refine wheelsWhere_eq_nil_iff.mpr fun id w hw => ?_
    obtain ⟨hrow, -⟩ := Db.wheel?_eq_some_iff.mp hw
    rw [decide_eq_false_iff_not]
    rintro ⟨hstate, hnone⟩
    obtain ⟨sha256, blob, hblob, hget⟩ := hqueue id w.row hrow hstate
    simp [hblob, hget] at hnone
  unreleased limit nowIso c disk reader item hreleased := by
    obtain ⟨hclaimed, hlooked⟩ := lookedUp_of_released hreleased
    obtain ⟨-, row, hrow, hstate, -⟩ := mem_claim hclaimed
    obtain ⟨sha256, -, hblob, -⟩ := hqueue item.id row hrow hstate
    simp [Fetch.lookedUp, loadRow, hrow, hblob] at hlooked

/-- Every wheel that waits for conversion can be converted throughout a run in which
campaigns reset archived wheels only, no sync takes the blob of a wheel that waits
for conversion and keeps it waiting, and the blobs of new wheels are in the archive. -/
theorem convertQueueReady_throughout {t : State} {l : List Event}
    (hrun : (machine env).run start l = some t)
    (harchiving : (machine env).Along (Archiving env) start l) :
    (machine env).Always ConvertQueueReady start l := by
  refine Machine.always_of_along (Q := fun s => Intact s ∧ QueueArchived s.db) ?_ ?_
    ⟨intact_start, fun id row hrow _ => ?_⟩ harchiving hrun
  · rintro s e s' ⟨hs, hqueue⟩ hC hstep
    exact ⟨intact_step hs hstep, queueArchived_step hs hqueue hC hstep⟩
  · intro s hs
    exact convertQueueReady_of_queueArchived hs.2
  · cases hrow

/-- A campaign over the project of the wheel. -/
def campaignEvents : List Event :=
  [.pipeline (.selectChunk (.project "p") (.project "p" 0) 500), .pipeline (.applyChunk 0 "t3")]

theorem convertQueueReady_reprocessed :
    (machine exampleEnv).Always ConvertQueueReady start (publishedRun ++ campaignEvents) := by
  obtain ⟨t, ht⟩ : ∃ t, (machine exampleEnv).run start (publishedRun ++ campaignEvents) = some t :=
    Option.isSome_iff_exists.mp (by decide)
  exact convertQueueReady_throughout ht (by decide)

/-- A campaign over a project whose wheel is not fetched yet. -/
def unarchivedRun : List Event := syncEvents ["a.whl"] ++ campaignEvents

/-- The wheel waits for conversion without a blob, and bulk conversion claims it only
to release it. -/
theorem reprocessed_wheel_unconvertible :
    ∃ t item, (machine exampleEnv).run start unarchivedRun = some t ∧
      (item, BulkResult.released) ∈ (claimBatch Archive.exampleCodec truncatedDisk t.db t.db
        (claim .convert 1 "t4" t.db t.queues).1 { blockCacheSize := 4 }).results ∧
      ¬ConvertQueueReady t := by
  have hrun : ((machine exampleEnv).run start unarchivedRun).map (fun t =>
      (claimBatch Archive.exampleCodec truncatedDisk t.db t.db
        (claim .convert 1 "t4" t.db t.queues).1 { blockCacheSize := 4 }).results) =
      some [(⟨1, "p", 1, .needConvert⟩, .released)] := by
    decide
  obtain ⟨t, ht, hbatch⟩ := Option.map_eq_some_iff.mp hrun
  have hreleased : ((⟨1, "p", 1, .needConvert⟩ : QueueItem), BulkResult.released) ∈
      (claimBatch Archive.exampleCodec truncatedDisk t.db t.db
        (claim .convert 1 "t4" t.db t.queues).1 { blockCacheSize := 4 }).results := by
    rw [hbatch]
    exact List.mem_singleton.mpr rfl
  exact ⟨t, _, ht, hreleased, fun hready => hready.unreleased 1 "t4" _ _ _ _ hreleased⟩

end RerollSync.Daemon
