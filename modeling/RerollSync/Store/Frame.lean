import RerollSync.Dispatcher.Effects
import RerollSync.Ingest.Apply
import RerollSync.Support.Stamps

/-!
# What the ops leave alone

The rows of `blobs` and of `segments` belong to the archive thread: no op of the
dispatcher and no op of the ingest writes there.  A wheel that such an op changes
carries a `change_seq` that the op has drawn itself.
-/

namespace RerollSync.Store

open RerollSync.Support RerollSync.Dispatcher RerollSync.Ingest

variable {lo hi : ℕ} {α β : Type}

/-! ## Disciplined ops -/

/-- The sequence numbers after `lo`, up to `hi`. -/
def between (lo hi seq : ℕ) : Prop := lo < seq ∧ seq ≤ hi

/-- Every wheel that is not as in `t` has a `change_seq` after `lo`, up to `hi`. -/
def RestampedSince (lo hi : ℕ) (t : Table ℕ WheelRow) (db : Db) : Prop :=
  Restamped WheelRow.changeSeq lo hi t db.wheels

/-- The tables of the archive thread. -/
def Db.archive (db : Db) : Table String BlobRow × Table ℕ SegmentRow := (db.blobs, db.segments)

/-- The op leaves the tables of the archive thread alone, and it stamps the wheels it
changes with numbers that it draws, or that were drawn before. -/
structure Op.Disciplined (drawn : Option ℕ) (op : Op α) : Prop where
  archive : op.Keeps Db.archive
  wheels : ∀ lo hi, (∀ seq ∈ drawn, between lo hi seq) → ∀ t,
    Program.Triple (between lo hi) (RestampedSince lo hi t) op fun _ => RestampedSince lo hi t

/-- The tables that a disciplined op is careful with. -/
def Db.guarded (db : Db) :
    (Table String BlobRow × Table ℕ SegmentRow) × Table ℕ WheelRow := (db.archive, db.wheels)

/-- A guarded insert keeps what the row it adds is no part of. -/
theorem Db.part_of_ite {γ : Type} {part : Db → γ} {c : Prop} [Decidable c] {db db' inserted : Db}
    (hpart : part inserted = part db) (h : (if c then some inserted else none) = some db') :
    part db' = part db := by
  obtain ⟨-, heq⟩ := Option.ite_none_right_eq_some.mp h
  exact Option.some.inj heq ▸ hpart

theorem restampedSince_updateWheels {seq : ℕ} (hseq : between lo hi seq) {p : ℕ → WheelRow → Bool}
    {f : WheelRow → WheelRow} (hf : ∀ row, (f row).changeSeq = seq) {t : Table ℕ WheelRow} {db : Db}
    (h : RestampedSince lo hi t db) : RestampedSince lo hi t (db.updateWheels p f) := by
  intro id
  have hget : (db.updateWheels p f).wheels.get? id =
      (db.wheels.get? id).map fun row => if p id row then f row else row :=
    Table.get?_modify _ _ _
  cases hrow : db.wheels.get? id with
  | none =>
      rw [hget, hrow, Option.map_none, ← hrow]
      exact h id
  | some row =>
      by_cases hp : p id row = true
      · refine Or.inr ⟨f row, by rw [hget, hrow, Option.map_some, if_pos hp], ?_⟩
        rw [hf row]
        exact hseq
      · rw [hget, hrow, Option.map_some, if_neg hp, ← hrow]
        exact h id

theorem restampedSince_insertWheel {row : WheelRow} (hrow : between lo hi row.changeSeq)
    {t : Table ℕ WheelRow} {db db' : Db} (hinsert : db.insertWheel row = some db')
    (h : RestampedSince lo hi t db) : RestampedSince lo hi t db' := by
  obtain ⟨-, rfl⟩ := Db.insertWheel_eq_some_iff.mp hinsert
  intro id
  have hget : (db.addWheel row).wheels.get? id =
      if id = nextId db.wheels then some row else db.wheels.get? id := by
    rw [Db.addWheel, Table.get?_insertNew, get?_nextId]
    rfl
  by_cases hid : id = nextId db.wheels
  · exact Or.inr ⟨row, by rw [hget, if_pos hid], hrow⟩
  · rw [hget, if_neg hid]
    exact h id

namespace Op

variable {drawn : Option ℕ}

/-- What a disciplined op leaves is stamped with the numbers drawn in its run. -/
theorem Disciplined.restamped {op : Op α} (h : op.Disciplined none) (db : Db) (n : ℕ) :
    Restamped WheelRow.changeSeq n (op.runAtomic db n).counter db.wheels
      (op.runAtomic db n).db.wheels := by
  rw [Program.runAtomic]
  rcases hrun : op.run db n with ⟨db', n', e | a⟩
  · exact Restamped.refl _
  · refine h.wheels n n' (fun _ hnone => by cases hnone) db.wheels db n db' n' a
      (Restamped.refl _) (fun m hlt hle => ⟨hlt, hle⟩) hrun

theorem disciplined_pure (a : α) : Disciplined drawn (Pure.pure a : Op α) where
  archive := Program.writes_pure a
  wheels _ _ _ _ := Program.Triple.pure a fun _ h => h

theorem disciplined_raise (e : OpError) : Disciplined drawn (Program.raise e : Op α) where
  archive := Program.writes_raise e
  wheels _ _ _ _ := Program.Triple.raise e

theorem disciplined_query (q : Db → α) : Disciplined drawn (Program.query q : Op α) where
  archive := Program.writes_query q
  wheels _ _ _ _ := Program.Triple.query q fun _ h => h

theorem disciplined_of_keeps {op : Op α} (h : op.Keeps Db.guarded) : Disciplined drawn op where
  archive := h.mono fun _ _ => congrArg Prod.fst
  wheels lo hi _ t := Program.Triple.of_keeps (h.mono fun _ _ => congrArg Prod.snd)
    (P := Restamped WheelRow.changeSeq lo hi t)

theorem disciplined_exec {f : Db → Db} {rowcount : Db → ℕ}
    (h : ∀ db, (f db).guarded = db.guarded) : Disciplined drawn (exec f rowcount) :=
  disciplined_of_keeps (keeps_exec h)

theorem disciplined_insert {f : Db → Option Db}
    (h : ∀ db db', f db = some db' → db'.guarded = db.guarded) : Disciplined drawn (insert f) :=
  disciplined_of_keeps (keeps_insert h)

theorem disciplined_bind {op : Op α} {g : α → Op β} (hop : Disciplined drawn op)
    (hg : ∀ a, Disciplined drawn (g a)) : Disciplined drawn (op >>= g) where
  archive := Program.writes_bind hop.archive fun a => (hg a).archive
  wheels lo hi hdrawn t := (hop.wheels lo hi hdrawn t).bind fun a => (hg a).wheels lo hi hdrawn t

/-- What follows a drawn number may stamp wheels with it. -/
theorem disciplined_seq_bind {g : ℕ → Op α} (h : ∀ seq, Disciplined (some seq) (g seq)) :
    Disciplined drawn (Program.seq >>= g) where
  archive := Program.writes_bind Program.writes_seq fun seq => (h seq).archive
  wheels lo hi _ t := Program.Triple.seq_bind fun seq hseq =>
    (h seq).wheels lo hi (fun _ hsome => Option.some.inj hsome ▸ hseq) t

theorem disciplined_each {f : β → Op α} (h : ∀ b, Disciplined drawn (f b)) (l : List β) :
    Disciplined drawn (Program.each f l) where
  archive := Program.writes_each fun b _ => (h b).archive
  wheels lo hi hdrawn t := Program.Triple.each fun b _ => (h b).wheels lo hi hdrawn t

/-- An update that writes the number that has been drawn. -/
theorem disciplined_updateWheels {seq : ℕ} {p : ℕ → WheelRow → Bool} {f : WheelRow → WheelRow}
    (hf : ∀ row, (f row).changeSeq = seq) : Disciplined (some seq) (updateWheels p f) where
  archive := keeps_exec fun _ => rfl
  wheels lo hi hdrawn t := by
    refine Program.Triple.write fun db db' count h hok => ?_
    obtain ⟨rfl, -⟩ := Prod.mk.inj (Except.ok.inj hok)
    exact restampedSince_updateWheels (hdrawn seq rfl) hf h

theorem disciplined_insertWheel {seq : ℕ} {row : WheelRow} (hrow : row.changeSeq = seq) :
    Disciplined (some seq) (tryInsert (Db.insertWheel row)) where
  archive := by
    refine keeps_tryInsert fun db db' h => ?_
    obtain ⟨-, rfl⟩ := Db.insertWheel_eq_some_iff.mp h
    rfl
  wheels lo hi hdrawn t := by
    intro db n db' n' inserted h _ hrun
    rw [run_tryInsert] at hrun
    cases hinsert : db.insertWheel row with
    | none =>
        rw [hinsert] at hrun
        obtain ⟨rfl, -, -⟩ := Program.Result.mk.inj hrun
        exact h
    | some db'' =>
        rw [hinsert] at hrun
        obtain ⟨rfl, -, -⟩ := Program.Result.mk.inj hrun
        exact restampedSince_insertWheel (hrow ▸ hdrawn seq rfl) hinsert h

end Op

/-! ## Ops of the dispatcher -/

section Dispatcher

variable (settings : Dispatcher.Settings) (clock : Clock) (stage : Stage) (item : QueueItem)

/-- The wheel has a number drawn by the op, if it exists. -/
def StampedAt (lo hi : ℕ) (id : ℕ) (db : Db) : Prop :=
  ∀ row, db.wheels.get? id = some row → between lo hi row.changeSeq

/-- An op that has stamped a wheel may go on to change it. -/
theorem triple_stampedAt (id : ℕ) {f : WheelRow → WheelRow}
    (hf : ∀ row, (f row).changeSeq = row.changeSeq) (t : Table ℕ WheelRow) :
    Program.Triple (between lo hi) (fun db => RestampedSince lo hi t db ∧ StampedAt lo hi id db)
      (Op.updateWheel id f) fun _ => RestampedSince lo hi t := by
  refine Program.Triple.write fun db db' count h hok => ?_
  obtain ⟨rfl, -⟩ := Prod.mk.inj (Except.ok.inj hok)
  intro id'
  have hget : (db.updateWheel id f).wheels.get? id' =
      (db.wheels.get? id').map (Db.atWheel id f id') := by
    rw [Db.wheels_updateWheel, Table.get?_modify]
  cases hrow : db.wheels.get? id' with
  | none =>
      have hsame := hget.trans (congrArg _ hrow)
      refine (h.1 id').imp (fun hold => hsame.trans (hrow.symm.trans hold)) ?_
      rintro ⟨row, hnew, hrange⟩
      exact ⟨row, hsame.trans (hrow.symm.trans hnew), hrange⟩
  | some row =>
      by_cases hid : id' = id
      · refine Or.inr ⟨f row, ?_, ?_⟩
        · exact hget.trans (by rw [hrow, Option.map_some, Db.atWheel, if_pos hid])
        · rw [hf row]
          exact h.2 row (hid ▸ hrow)
      · have hsame : (db.updateWheel id f).wheels.get? id' = db.wheels.get? id' := by
          rw [hget, hrow, Option.map_some, Db.atWheel, if_neg hid]
        exact hsame ▸ h.1 id'

/-- The payload of an `Ok` changes the wheel that has just been stamped. -/
theorem triple_payload (id : ℕ) (payload : StagePayload) (t : Table ℕ WheelRow) :
    Program.Triple (between lo hi) (fun db => RestampedSince lo hi t db ∧ StampedAt lo hi id db)
      (payload.run settings id) fun _ => RestampedSince lo hi t := by
  cases payload with
  | blobLink blobSha256 =>
      refine Program.Triple.bind (triple_stampedAt id ?_ t) fun _ => ?_
      · exact fun row => rfl
      · exact Program.Triple.pure () fun _ h => h
  | convertOk outcome rerollVersion =>
      have hinsert : (Op.insert (Db.upsertRepodata id
          (repodataRow settings outcome rerollVersion))).Keeps Db.wheels :=
        Op.keeps_insert fun _ _ => Db.part_of_ite rfl
      refine Program.Triple.bind (Program.Triple.of_keeps hinsert (P := fun wheels =>
        Restamped WheelRow.changeSeq lo hi t wheels ∧
          ∀ row, wheels.get? id = some row → between lo hi row.changeSeq)) fun _ => ?_
      refine Program.Triple.bind (triple_stampedAt id ?_ t) fun _ => ?_
      · exact fun row => rfl
      · exact Program.Triple.pure () fun _ h => h

theorem keeps_archive_payload (id : ℕ) (payload : StagePayload) :
    (payload.run settings id).Keeps Db.archive := by
  cases payload with
  | blobLink blobSha256 =>
      exact Program.writes_bind (Op.keeps_exec fun _ => rfl) fun _ => Program.writes_pure _
  | convertOk outcome rerollVersion =>
      refine Program.writes_bind (Op.keeps_insert fun _ _ => Db.part_of_ite rfl) fun _ => ?_
      exact Program.writes_bind (Op.keeps_exec fun _ => rfl) fun _ => Program.writes_pure _

theorem disciplined_okApply (outcome : Ok) :
    (okApply settings clock stage item outcome).Disciplined none := by
  refine Op.disciplined_seq_bind fun seq => ⟨?_, fun lo hi hdrawn t => ?_⟩
  · refine Program.writes_bind (Op.keeps_exec fun _ => rfl) fun _ => ?_
    refine Program.writes_bind (keeps_archive_payload settings item.id outcome.write) fun _ => ?_
    exact Program.writes_bind (Op.keeps_exec fun _ => rfl) fun _ => Program.writes_pure _
  · have hseq : between lo hi seq := hdrawn seq rfl
    have hstamped : Program.Triple (between lo hi) (RestampedSince lo hi t)
        (Op.updateWheel item.id (enterState outcome.nextState seq clock.nowIso))
        fun _ db => RestampedSince lo hi t db ∧ StampedAt lo hi item.id db := by
      refine Program.Triple.write fun db db' count h hok => ?_
      obtain ⟨rfl, -⟩ := Prod.mk.inj (Except.ok.inj hok)
      refine ⟨restampedSince_updateWheels hseq (fun _ => rfl) h, fun row hrow => ?_⟩
      obtain ⟨row', -, rfl⟩ := Option.map_eq_some_iff.mp
        ((Table.get?_modify _ _ _).symm.trans hrow)
      simpa [enterState] using hseq
    have hrest : (do
        let _ ← Op.deleteWork fun id stage' => id = item.id ∧ stage' = stage
        : Op Unit).Disciplined (some seq) :=
      Op.disciplined_bind (Op.disciplined_exec fun _ => rfl) fun _ => Op.disciplined_pure _
    refine hstamped.bind fun _ => ?_
    exact (triple_payload settings item.id outcome.write t).bind fun _ =>
      hrest.wheels lo hi hdrawn t

theorem disciplined_skipApply (outcome : Skip) :
    (skipApply settings clock stage item outcome).Disciplined none := by
  refine Op.disciplined_seq_bind fun seq => ?_
  refine Op.disciplined_bind (Op.disciplined_updateWheels fun _ => rfl) fun _ => ?_
  refine Op.disciplined_bind (Op.disciplined_insert fun _ _ => Db.part_of_ite rfl) fun _ => ?_
  refine Op.disciplined_bind (Op.disciplined_insert fun _ _ => Db.part_of_ite rfl) fun _ => ?_
  exact Op.disciplined_bind (Op.disciplined_exec fun _ => rfl) fun _ => Op.disciplined_pure _

theorem disciplined_quarantine (outcome : Retry) (attempts : ℕ) :
    (quarantine settings clock stage item outcome attempts).Disciplined none := by
  unfold quarantine
  split
  · exact Op.disciplined_raise _
  · refine Op.disciplined_seq_bind fun seq => ?_
    refine Op.disciplined_bind (Op.disciplined_updateWheels fun _ => rfl) fun _ => ?_
    refine Op.disciplined_bind (Op.disciplined_insert fun _ _ => Db.part_of_ite rfl) fun _ => ?_
    refine Op.disciplined_bind (Op.disciplined_insert fun _ _ => Db.part_of_ite rfl) fun _ => ?_
    exact Op.disciplined_pure _

theorem disciplined_retryApply (outcome : Retry) :
    (retryApply settings clock stage item outcome).Disciplined none := by
  refine Op.disciplined_bind (Op.disciplined_query _) fun before => ?_
  by_cases hattempts : before + 1 > settings.maxAttempts
  · rw [if_pos hattempts]
    exact disciplined_quarantine settings clock stage item outcome (before + 1)
  · rw [if_neg hattempts]
    refine Op.disciplined_bind (Op.disciplined_insert fun _ _ => Db.part_of_ite rfl) fun _ => ?_
    exact Op.disciplined_pure _

theorem disciplined_buildWriteOp {outcome : Outcome} {op : Op Unit}
    (h : buildWriteOp settings clock stage item outcome = .ok op) : op.Disciplined none := by
  cases outcome with
  | ok outcome =>
      obtain ⟨-, rfl⟩ := map_validateTransition_eq_ok.mp h
      exact disciplined_okApply settings clock stage item outcome
  | skip outcome =>
      obtain ⟨-, rfl⟩ := map_validateTransition_eq_ok.mp h
      exact disciplined_skipApply settings clock stage item outcome
  | retry outcome =>
      obtain rfl := Except.ok.inj h
      exact Op.disciplined_bind (disciplined_retryApply settings clock stage item outcome) fun _ =>
        Op.disciplined_pure _

theorem disciplined_reprocessChunkApply (chunkIds : List ℕ) (selector : Selector)
    (nowIso : String) :
    (reprocessChunkApply chunkIds selector nowIso).Disciplined none := by
  have hrest : (do
      let _ ← Op.deleteWork fun id _ => id ∈ chunkIds
      let affected ← Program.each (fun wheelId => do
        let seq ← Program.seq
        Op.updateWheel wheelId (reprocessedRow nowIso seq))
        chunkIds
      return affected.sum : Op ℕ).Disciplined none := by
    refine Op.disciplined_bind (Op.disciplined_exec fun _ => rfl) fun _ => ?_
    refine Op.disciplined_bind (Op.disciplined_each (fun id => ?_) chunkIds) fun _ =>
      Op.disciplined_pure _
    exact Op.disciplined_seq_bind fun seq => Op.disciplined_updateWheels fun _ => rfl
  refine Op.disciplined_bind (Op.disciplined_exec fun _ => rfl) fun _ => ?_
  cases selector with
  | rerollVersionBelow version =>
      exact Op.disciplined_bind (Op.disciplined_exec fun _ => rfl) fun _ => hrest
  | _ => exact hrest

theorem disciplined_unquarantineChunkApply (chunkIds : List ℕ) (nowIso : String) :
    (unquarantineChunkApply chunkIds nowIso).Disciplined none := by
  refine Op.disciplined_bind (Op.disciplined_exec fun _ => rfl) fun _ => ?_
  refine Op.disciplined_bind (Op.disciplined_each (fun id => ?_) chunkIds) fun _ =>
    Op.disciplined_pure _
  exact Op.disciplined_seq_bind fun seq => Op.disciplined_updateWheels fun _ => rfl

end Dispatcher

/-! ## Ops of the ingest -/

section Ingest

variable (settings : Ingest.Settings)

theorem disciplined_insertNewWheel (plan : ProjectPlan) (w : NewWheel) :
    (insertNewWheel settings plan w).Disciplined none := by
  refine Op.disciplined_seq_bind fun seq => ?_
  refine Op.disciplined_bind (Op.disciplined_insertWheel rfl) fun inserted => ?_
  cases inserted with
  | false =>
      refine Op.disciplined_bind (Op.disciplined_bind (Op.disciplined_query _) fun _ => ?_)
        fun _ => Op.disciplined_pure _
      exact Op.disciplined_bind (Op.disciplined_insert fun _ _ => Db.part_of_ite rfl)
        fun _ => Op.disciplined_pure _
  | true =>
      cases hunlinked : w.unlinkedBlobFilename with
      | none => exact Op.disciplined_pure _
      | some filename =>
          exact Op.disciplined_bind (Op.disciplined_exec fun _ => rfl) fun _ =>
            Op.disciplined_pure _

theorem disciplined_applyChange (change : ChangedWheel) :
    (applyChange settings change).Disciplined none := by
  refine Op.disciplined_seq_bind fun seq => ?_
  refine Op.disciplined_bind (Op.disciplined_updateWheels fun _ => rfl) fun _ => ?_
  have hrepodata : (if change.deleteRepodata then do
      let _ ← Op.deleteRepodata fun id => id = change.wheelId
      else pure () : Op Unit).Disciplined (some seq) := by
    split
    · exact Op.disciplined_bind (Op.disciplined_exec fun _ => rfl) fun _ => Op.disciplined_pure _
    · exact Op.disciplined_pure _
  by_cases hskip : change.deleteNoSidecarSkip = true
  · simp only [hskip, if_true]
    exact Op.disciplined_bind (Op.disciplined_exec fun _ => rfl) fun _ => hrepodata
  · simp only [hskip]
    exact hrepodata

theorem disciplined_tombstone (nowIso : String) (wheelId : ℕ) :
    (tombstone nowIso wheelId).Disciplined none := by
  refine Op.disciplined_seq_bind fun seq => ?_
  exact Op.disciplined_bind (Op.disciplined_updateWheels fun _ => rfl) fun _ =>
    Op.disciplined_pure _

theorem disciplined_projectApply (plan : ProjectPlan) :
    (projectApply settings plan).Disciplined none := by
  refine Op.disciplined_bind (Op.disciplined_each (disciplined_insertNewWheel settings plan) _)
    fun _ => ?_
  refine Op.disciplined_bind (Op.disciplined_each (disciplined_applyChange settings) _) fun _ => ?_
  refine Op.disciplined_bind (Op.disciplined_each (disciplined_tombstone settings.nowIso) _)
    fun _ => ?_
  exact Op.disciplined_bind (Op.disciplined_exec fun _ => rfl) fun _ => Op.disciplined_pure _

theorem disciplined_goneLoop (name nowIso : String) (turns : ℕ) (ids : List ℕ) :
    (goneLoop name nowIso turns ids).Disciplined none := by
  induction turns generalizing ids with
  | zero => cases ids <;> exact Op.disciplined_pure _
  | succ turns ih =>
      cases ids with
      | nil => exact Op.disciplined_pure _
      | cons id ids =>
          refine Op.disciplined_bind (Op.disciplined_each (disciplined_tombstone nowIso) _)
            fun _ => ?_
          refine Op.disciplined_bind (Op.disciplined_query _) fun rows => ?_
          exact Op.disciplined_bind (ih rows) fun _ => Op.disciplined_pure _

theorem disciplined_goneApply (name nowIso : String) :
    (goneApply name nowIso).Disciplined none := by
  refine Op.disciplined_bind (Op.disciplined_query _) fun ids => ?_
  refine Op.disciplined_bind (disciplined_goneLoop name nowIso _ _) fun _ => ?_
  exact Op.disciplined_bind (Op.disciplined_exec fun _ => rfl) fun _ => Op.disciplined_pure _

theorem disciplined_quarantineErrorApply (project : String) (attempts : ℕ) :
    (quarantineErrorApply settings project attempts).Disciplined none := by
  refine Op.disciplined_bind (Op.disciplined_insert fun _ _ => Db.part_of_ite rfl) fun _ => ?_
  exact Op.disciplined_pure _

end Ingest

end RerollSync.Store
