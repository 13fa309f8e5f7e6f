import RerollSync.Daemon.Lanes
import RerollSync.Daemon.Steps
import RerollSync.Store.Frame

/-!
# Change sequence numbers

An incremental reader of `wheels` remembers the largest `change_seq` it has seen.  The
numbers come from the writer's counter, which survives a restart only as the column's
maximum; an op that is rolled back does not give its numbers back.
-/

namespace RerollSync.Daemon

open RerollSync.Support RerollSync.Store RerollSync.Dispatcher RerollSync.Ingest
open RerollSync.Fetch RerollSync.Pipeline

/-! ## The ops of the system -/

/-- `_gc_errors_op._apply`; without `ORDER BY`, the rows come in an order of sqlite's
own, here the order of the table. -/
def gcErrorsApply (cutoffIso : String) (chunkSize : ℕ) : Op ℕ :=
  let expired (db : Db) : List ℕ :=
    ((db.errors.filter fun _ row => row.createdAt < cutoffIso).keys).take chunkSize
  Op.exec (fun db => { db with errors := db.errors.filter fun id _ => id ∉ expired db })
    fun db => (expired db).length

/-- `_seal_write_op._apply`. -/
def sealApply (segmentId : ℕ) (row : SegmentRow) : Op Unit := do
  let _ ← Op.exec (Db.updateSegment segmentId row) fun db =>
    (db.segments.filter fun id _ => id = segmentId).rows.length

/-- The ops that the threads submit. -/
inductive SystemOp
  | stageOutcome (settings : Dispatcher.Settings) (clock : Clock) (stage : Stage) (item : QueueItem)
      (outcome : Outcome)
  | reprocessChunk (chunkIds : List ℕ) (selector : Selector) (nowIso : String)
  | unquarantineChunk (chunkIds : List ℕ) (nowIso : String)
  | syncProject (settings : Ingest.Settings) (plan : ProjectPlan)
  | gone (name nowIso : String)
  | projectQuarantined (settings : Ingest.Settings) (project : String) (attempts : ℕ)
  | sealSegment (segmentId : ℕ) (row : SegmentRow)
  | recoverSegment (chunk : List String)
  | gcErrors (cutoffIso : String) (chunkSize : ℕ)

/-- The body of an op; its result does not matter here.  An outcome whose op cannot be
built is not submitted. -/
def SystemOp.apply : SystemOp → Op Unit
  | .stageOutcome settings clock stage item outcome =>
      match buildWriteOp settings clock stage item outcome with
      | .ok op => op
      | .error _ => pure ()
  | .reprocessChunk chunkIds selector nowIso => do
      let _ ← reprocessChunkApply chunkIds selector nowIso
  | .unquarantineChunk chunkIds nowIso => do
      let _ ← unquarantineChunkApply chunkIds nowIso
  | .syncProject settings plan => do
      let _ ← projectApply settings plan
  | .gone name nowIso => do
      let _ ← goneApply name nowIso
  | .projectQuarantined settings project attempts => quarantineErrorApply settings project attempts
  | .sealSegment segmentId row => sealApply segmentId row
  | .recoverSegment chunk => do
      let _ ← recoverChunkApply chunk
  | .gcErrors cutoffIso chunkSize => do
      let _ ← gcErrorsApply cutoffIso chunkSize

/-- The statements that other connections commit: the archive thread's and the
import's. -/
inductive ForeignWrite
  | openSegment (segmentId : ℕ)
  | addBlob (sha256 : String) (row : BlobRow)
  | noteUnlinked (filename : String) (row : UnlinkedBlobRow)

/-- What such a statement leaves; a refused one leaves the database alone. -/
def ForeignWrite.run (db : Db) : ForeignWrite → Db
  | .openSegment segmentId => (db.insertSegment segmentId).getD db
  | .addBlob sha256 row => (db.insertBlob sha256 row).getD db
  | .noteUnlinked filename row =>
      { db with unlinkedBlobs := db.unlinkedBlobs.set filename row }

/-! ## The writer's database -/

/-- The database as others see it, as the open batch sees it, and the writer's counter. -/
structure Written where
  committed : Db
  working : Db
  changeSeq : ℕ

/-- `raise` is an op that one of its statements ends, after it has drawn some numbers;
`rollback` ends a batch that cannot be committed, and `restart` is the next
`Writer.start`.  `commit` ends a batch anywhere. -/
inductive WriterEvent
  | apply (op : SystemOp)
  | raise (drawn : ℕ)
  | commit
  | rollback
  | foreign (write : ForeignWrite)
  | restart

/-- `Writer.start` over a database. -/
def Written.started (db : Db) : Written := ⟨db, db, maxChangeSeq db⟩

/-- The transition function. -/
def writerStep (s : Written) : WriterEvent → Option Written
  | .apply op =>
      let r := op.apply.runAtomic s.working s.changeSeq
      some { s with working := r.db, changeSeq := r.counter }
  | .raise drawn => some { s with changeSeq := s.changeSeq + drawn }
  | .commit => some { s with committed := s.working }
  | .rollback => some { s with working := s.committed }
  | .foreign write =>
      some { s with committed := write.run s.committed, working := write.run s.working }
  | .restart => some (.started s.committed)

/-- The writer and its restarts. -/
def writing : Machine Written WriterEvent := ⟨writerStep⟩

/-- `SELECT id FROM wheels WHERE change_seq > ?`. -/
def changedSince (seen : ℕ) (db : Db) : List ℕ := stampedAfter WheelRow.changeSeq seen db.wheels

/-! ## What an op leaves -/

/-- A recovery op finds no wheel to reset. -/
def Unreset (s : Written) (e : WriterEvent) : Prop :=
  match e with
  | .apply (.recoverSegment chunk) => linkedWheelIds chunk s.working = []
  | _ => True

instance (s : Written) (e : WriterEvent) : Decidable (Unreset s e) := by
  unfold Unreset
  split <;> infer_instance

theorem keeps_wheels_sealApply (segmentId : ℕ) (row : SegmentRow) :
    (sealApply segmentId row).Keeps Db.wheels :=
  Program.writes_bind (Op.keeps_exec fun _ => rfl) fun _ => Program.writes_pure _

theorem disciplined_gcErrorsApply (cutoffIso : String) (chunkSize : ℕ) :
    (gcErrorsApply cutoffIso chunkSize).Disciplined none := by
  refine Op.disciplined_exec ?_
  exact fun db => rfl

theorem restamped_of_same {lo hi : ℕ} {t t' : Table ℕ WheelRow}
    (h : ∀ id, t'.get? id = t.get? id) : Restamped WheelRow.changeSeq lo hi t t' :=
  fun id => Or.inl (h id)

theorem get?_recoverEffect_of_unlinked {chunk : List String} {db : Db}
    (hnone : linkedWheelIds chunk db = []) (id : ℕ) :
    (recoverEffect chunk db).wheels.get? id = db.wheels.get? id := by
  rw [(unlinked_recoverEffect chunk db).wheels]
  cases hrow : db.wheels.get? id with
  | none => rfl
  | some row =>
      rw [Option.map_some, unlinkedRow_of_get? hrow, hnone]
      simp

/-- The ops but recovery stamp what they change, and a recovery op that finds no wheel
changes none. -/
theorem restamped_apply {s : Written} {op : SystemOp} (h : Unreset s (.apply op)) :
    Restamped WheelRow.changeSeq s.changeSeq
      (op.apply.runAtomic s.working s.changeSeq).counter s.working.wheels
      (op.apply.runAtomic s.working s.changeSeq).db.wheels := by
  have hunit : ∀ {α : Type} {op : Op α}, op.Disciplined none →
      (do let _ ← op : Op Unit).Disciplined none := fun h =>
    Op.disciplined_bind h fun _ => Op.disciplined_pure ()
  cases op with
  | stageOutcome settings clock stage item outcome =>
      refine Op.Disciplined.restamped ?_ _ _
      rw [SystemOp.apply]
      split
      · next op hbuild => exact disciplined_buildWriteOp settings clock stage item hbuild
      · exact Op.disciplined_pure ()
  | reprocessChunk chunkIds selector nowIso =>
      exact (hunit (disciplined_reprocessChunkApply chunkIds selector nowIso)).restamped _ _
  | unquarantineChunk chunkIds nowIso =>
      exact (hunit (disciplined_unquarantineChunkApply chunkIds nowIso)).restamped _ _
  | syncProject settings plan =>
      exact (hunit (disciplined_projectApply settings plan)).restamped _ _
  | gone name nowIso => exact (hunit (disciplined_goneApply name nowIso)).restamped _ _
  | projectQuarantined settings project attempts =>
      exact (disciplined_quarantineErrorApply settings project attempts).restamped _ _
  | sealSegment segmentId row =>
      have hwheels := (keeps_wheels_sealApply segmentId row).runAtomic s.working s.changeSeq
      exact restamped_of_same fun id => congrArg (·.get? id) hwheels
  | gcErrors cutoffIso chunkSize =>
      exact (hunit (disciplined_gcErrorsApply cutoffIso chunkSize)).restamped _ _
  | recoverSegment chunk =>
      refine restamped_of_same fun id => ?_
      obtain ⟨count, hrun⟩ := runAtomic_recoverChunkApply chunk s.working s.changeSeq
      have hdb : ((SystemOp.apply (.recoverSegment chunk)).runAtomic s.working s.changeSeq).db =
          recoverEffect chunk s.working := by
        rw [SystemOp.apply, Program.db_runAtomic_bind_pure, hrun]
      rw [hdb]
      exact get?_recoverEffect_of_unlinked h id

/-! ## Runs -/

/-- The counter is past every number in use, and the open batch has stamped what it has
changed. -/
structure Ordered (s : Written) : Prop where
  committed : maxChangeSeq s.committed ≤ s.changeSeq
  working : maxChangeSeq s.working ≤ s.changeSeq
  fresher : Fresher WheelRow.changeSeq s.committed.wheels s.working.wheels

theorem ordered_started (db : Db) : Ordered (.started db) := ⟨le_rfl, le_rfl, Fresher.refl _⟩

theorem wheels_foreign (db : Db) (write : ForeignWrite) : (write.run db).wheels = db.wheels := by
  cases write with
  | openSegment segmentId =>
      cases hinsert : db.insertSegment segmentId with
      | none => simp [ForeignWrite.run, hinsert]
      | some db' =>
          obtain ⟨segments, rfl⟩ := db_insertSegment hinsert
          simp [ForeignWrite.run, hinsert]
  | addBlob sha256 row =>
      cases hinsert : db.insertBlob sha256 row with
      | none => simp [ForeignWrite.run, hinsert]
      | some db' =>
          obtain ⟨blobs, rfl⟩ := db_insertBlob hinsert
          simp [ForeignWrite.run, hinsert]
  | noteUnlinked filename row => rfl

/-- What a step commits is fresher than what was there. -/
theorem ordered_step {s s' : Written} {e : WriterEvent} (hs : Ordered s) (hunreset : Unreset s e)
    (hstep : writerStep s e = some s') :
    Ordered s' ∧ Fresher WheelRow.changeSeq s.committed.wheels s'.committed.wheels := by
  cases e with
  | apply op =>
      obtain rfl := Option.some.inj hstep
      have hrestamped := restamped_apply hunreset
      have hcounter : s.changeSeq ≤ (op.apply.runAtomic s.working s.changeSeq).counter := by
        rw [Program.counter_runAtomic]
        exact Program.le_counter_run _ _ _
      refine ⟨⟨hs.committed.trans hcounter, ?_, ?_⟩, Fresher.refl _⟩
      · exact hrestamped.highWater_le hcounter hs.working
      · exact hs.fresher.trans (hrestamped.fresher hs.working)
  | raise drawn =>
      obtain rfl := Option.some.inj hstep
      exact ⟨⟨Nat.le_add_right_of_le hs.committed, Nat.le_add_right_of_le hs.working, hs.fresher⟩,
        Fresher.refl _⟩
  | commit =>
      obtain rfl := Option.some.inj hstep
      exact ⟨⟨hs.working, hs.working, Fresher.refl _⟩, hs.fresher⟩
  | rollback =>
      obtain rfl := Option.some.inj hstep
      exact ⟨⟨hs.committed, hs.committed, Fresher.refl _⟩, Fresher.refl _⟩
  | foreign write =>
      obtain rfl := Option.some.inj hstep
      have hcommitted := wheels_foreign s.committed write
      have hworking := wheels_foreign s.working write
      have hseq : ∀ {db db' : Db}, db'.wheels = db.wheels → maxChangeSeq db' = maxChangeSeq db :=
        congrArg (highWater WheelRow.changeSeq)
      refine ⟨⟨?_, ?_, ?_⟩, ?_⟩
      · exact (hseq hcommitted).trans_le hs.committed
      · exact (hseq hworking).trans_le hs.working
      · simp only [hcommitted, hworking]
        exact hs.fresher
      · simp only [hcommitted]
        exact Fresher.refl _
  | restart =>
      obtain rfl := Option.some.inj hstep
      exact ⟨ordered_started _, Fresher.refl _⟩

theorem ordered_run {s t : Written} {l : List WriterEvent} (hs : Ordered s)
    (hunreset : writing.Along Unreset s l) (hrun : writing.run s l = some t) :
    Ordered t ∧ Fresher WheelRow.changeSeq s.committed.wheels t.committed.wheels := by
  refine Machine.run_invariant_along (P := fun t => Ordered t ∧
    Fresher WheelRow.changeSeq s.committed.wheels t.committed.wheels) ?_
    ⟨hs, Fresher.refl _⟩ hunreset hrun
  rintro u e u' ⟨hu, hfresher⟩ hC hstep
  obtain ⟨hu', hfresher'⟩ := ordered_step hu hC hstep
  exact ⟨hu', hfresher.trans hfresher'⟩

/-- Every wheel of `after` that is not as in `before` carries a number beyond all those
of `earlier`, so that a reader that has seen `earlier` finds it. -/
structure ChangesFresh (earlier before after : Db) : Prop where
  kept : ∀ id row, before.wheels.get? id = some row → ∃ row', after.wheels.get? id = some row'
  stamped : ∀ id row, after.wheels.get? id = some row → before.wheels.get? id ≠ some row →
    ∀ id' row', earlier.wheels.get? id' = some row' → row'.changeSeq < row.changeSeq
  selected : ∀ id row, after.wheels.get? id = some row → before.wheels.get? id ≠ some row →
    id ∈ changedSince (maxChangeSeq earlier) after

/-- What a run commits is fresh with respect to all that it has committed before. -/
def FreshThroughout (db : Db) (l : List WriterEvent) : Prop :=
  ∀ l₁ l₂ l₃ s u t, l₁ ++ l₂ ++ l₃ = l → writing.run (.started db) l₁ = some s →
    writing.run s l₂ = some u → writing.run u l₃ = some t →
    ChangesFresh s.committed u.committed t.committed

/-- Every change that is committed in a run carries a fresh number, if no recovery op of
the run resets a wheel. -/
theorem freshThroughout_of_unreset (db : Db) (l : List WriterEvent)
    (hunreset : writing.Along Unreset (.started db) l) : FreshThroughout db l := by
  rintro l₁ l₂ l₃ s u t rfl hs hu ht
  have hsu := Machine.run_append_eq_some.mpr ⟨s, hs, hu⟩
  obtain ⟨h₁₂, h₃⟩ := (Machine.along_append hsu).mp hunreset
  obtain ⟨h₁, h₂⟩ := (Machine.along_append hs).mp h₁₂
  obtain ⟨hordered, -⟩ := ordered_run (ordered_started db) h₁ hs
  obtain ⟨hordered', hearlier⟩ := ordered_run hordered h₂ hu
  obtain ⟨-, hlater⟩ := ordered_run hordered' h₃ ht
  have hbeyond : ∀ id row, t.committed.wheels.get? id = some row →
      u.committed.wheels.get? id ≠ some row → maxChangeSeq s.committed < row.changeSeq :=
    fun id row hrow hne => hearlier.highWater_le.trans_lt (hlater.changed id row hrow hne)
  refine ⟨fun id row hrow => ?_, fun id row hrow hne id' row' hrow' => ?_,
    fun id row hrow hne => ?_⟩
  · obtain ⟨row', hrow', -⟩ := hlater.kept id row hrow
    exact ⟨row', hrow'⟩
  · exact (le_highWater hrow').trans_lt (hbeyond id row hrow hne)
  · exact mem_stampedAfter.mpr ⟨row, hrow, hbeyond id row hrow hne⟩

/-- A wheel is synced, fetched and archived, in a batch each. -/
def committedRun : List WriterEvent :=
  [.apply (.syncProject ⟨"t0", "1.0", id⟩
      (planProject "p" (examplePageOf ["a.whl"]) ∅ fun _ => none)), .commit,
    .foreign (.openSegment 0), .foreign (.addBlob "65" exampleLocation),
    .apply (.stageOutcome exampleEnv.dispatcher exampleClock .fetch ⟨1, "p", 0, .needMetadata⟩
      (.ok ⟨.needConvert, .blobLink "65"⟩)), .commit, .restart]

/-- Another op raises, and the wheel is converted. -/
theorem freshThroughout_converted :
    FreshThroughout Db.empty (committedRun ++ [.raise 2,
      .apply (.stageOutcome exampleEnv.dispatcher exampleClock .convert ⟨1, "p", 0, .needConvert⟩
        (.ok ⟨.ready, .convertOk ⟨[], [], "p", false⟩ "1.0"⟩)), .commit]) :=
  freshThroughout_of_unreset _ _ (by decide)

/-- The segment turns out to be truncated: the wheel is reset under its old number. -/
theorem recovered_wheel_keeps_changeSeq :
    ¬FreshThroughout Db.empty (committedRun ++ [.apply (.recoverSegment ["65"]), .commit]) := by
  have hrun : (writing.run (.started Db.empty) committedRun).bind (fun s =>
      (writing.run s [.apply (.recoverSegment ["65"]), .commit]).map fun t =>
        ((s.committed.wheels.get? 1).map fun row => (row.state, row.changeSeq),
          (t.committed.wheels.get? 1).map fun row => (row.state, row.changeSeq))) =
      some (some (.needConvert, 2), some (.needMetadata, 2)) := by
    decide
  obtain ⟨s, hs, hrest⟩ := Option.bind_eq_some_iff.mp hrun
  obtain ⟨t, ht, hpair⟩ := Option.map_eq_some_iff.mp hrest
  obtain ⟨hbefore, hafter⟩ := Prod.mk.inj hpair
  obtain ⟨row, hrow, hold⟩ := Option.map_eq_some_iff.mp hbefore
  obtain ⟨row', hrow', hnew⟩ := Option.map_eq_some_iff.mp hafter
  intro hfresh
  have hchanges := hfresh committedRun [] _ s s t (by simp) hs rfl ht
  have hlt := hchanges.stamped 1 row' hrow' (fun hsame => ?_) 1 row hrow
  · have hseq : row.changeSeq = row'.changeSeq :=
      (Prod.mk.inj hold).2.trans (Prod.mk.inj hnew).2.symm
    omega
  · obtain rfl : row = row' := Option.some.inj (hrow.symm.trans hsame)
    have hstate := (Prod.mk.inj hold).1.symm.trans (Prod.mk.inj hnew).1
    cases hstate

end RerollSync.Daemon
