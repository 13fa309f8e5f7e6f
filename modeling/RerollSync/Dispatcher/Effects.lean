import RerollSync.Dispatcher.Reprocess

/-!
# What the dispatcher's ops leave

One equation for each op: the database it leaves, as a composition of updates
of the one it found.  Later modules use these and never run an op again.
-/

namespace RerollSync.Dispatcher

open RerollSync.Store RerollSync.Support RerollSync.Convert

section StageOps

variable (settings : Settings) (clock : Clock) (stage : Stage) (item : QueueItem)

/-- The effect of a payload writer. -/
def StagePayload.effect (wheelId : ℕ) (db : Db) : StagePayload → Db
  | .blobLink blobSha256 =>
      db.updateWheel wheelId fun row => { row with blobSha256 := some blobSha256 }
  | .convertOk outcome rerollVersion =>
      (db.setRepodata wheelId (repodataRow settings outcome rerollVersion)).updateWheel wheelId
        fun row => { row with condaName := some outcome.condaName }

/-- The work rows of the item at its stage. -/
def ownWork (id : ℕ) (stage' : Stage) : Bool := id = item.id ∧ stage' = stage

/-- The effect of an `Ok`. -/
def okEffect (outcome : Ok) (seq : ℕ) (db : Db) : Db :=
  (outcome.write.effect settings item.id
    (db.updateWheel item.id (enterState outcome.nextState seq clock.nowIso))).deleteWork
      (ownWork stage item)

/-- The skip row of a `Skip`. -/
def skipRow (outcome : Skip) : SkipRow where
  reason := outcome.reason
  permanent := outcome.permanent
  rerollVersion := if outcome.permanent then none else outcome.rerollVersion
  createdAt := clock.nowIso

/-- The error row of a `Skip` or of a `Retry` that quarantines. -/
def errorRow (category : String) (subcat : Option String) (details : String) : ErrorRow where
  wheelId := some item.id
  errorCategory := category
  errorSubcat := subcat
  details := some details
  rerollVersion := settings.rerollVersion
  createdAt := clock.nowIso

/-- The effect of a `Skip`. -/
def skipEffect (outcome : Skip) (seq : ℕ) (db : Db) : Db :=
  ((((db.updateWheel item.id (enterState .skipped seq clock.nowIso)).setSkip item.id stage
    (skipRow clock outcome)).addError
      (errorRow settings clock item outcome.reason (some outcome.subcategory)
        outcome.details)).deleteWork (ownWork stage item))

/-- The effect of a `Retry` that quarantines. -/
def quarantineEffect (outcome : Retry) (attempts seq : ℕ) (db : Db) : Db :=
  (((db.updateWheel item.id (enterState .quarantined seq clock.nowIso)).setWork item.id stage
    ⟨attempts, clock.nowIso, some outcome.details, some clock.nowIso⟩).addError
      (errorRow settings clock item outcome.reason none outcome.details))

/-- The effect of a `Retry` that defers. -/
def deferEffect (outcome : Retry) (attempts : ℕ) (db : Db) : Db :=
  db.setWork item.id stage
    { attempts := attempts
      nextAttemptAt := clock.nextAttemptAt attempts
      lastError := some outcome.details
      quarantinedAt := (db.work.get? (item.id, stage)).bind WorkRow.quarantinedAt }

variable {settings clock stage item} {db : Db} (n : ℕ)

theorem run_payload (write : StagePayload) (hwheel : db.hasWheel item.id = true) :
    (write.run settings item.id).run db n =
      ⟨write.effect settings item.id db, n, .ok ()⟩ := by
  cases write with
  | blobLink blobSha256 => rfl
  | convertOk outcome rerollVersion =>
      exact Program.run_bind_ok (Op.run_insert_of_some (Db.upsertRepodata_eq hwheel _) n)

theorem runAtomic_okApply (outcome : Ok) (hwheel : db.hasWheel item.id = true) :
    (okApply settings clock stage item outcome).runAtomic db n =
      ⟨okEffect settings clock stage item outcome (n + 1) db, n + 1, .ok ()⟩ := by
  refine Program.runAtomic_of_ok ?_
  have hupdated : (db.updateWheel item.id
      (enterState outcome.nextState (n + 1) clock.nowIso)).hasWheel item.id = true := by
    simpa using hwheel
  exact (Program.run_bind_ok (Program.run_seq db n)).trans <|
    (Program.run_bind_ok rfl).trans <|
    (Program.run_bind_ok (run_payload (n + 1) outcome.write hupdated)).trans rfl

theorem runAtomic_skipApply (outcome : Skip) (hwheel : db.hasWheel item.id = true) :
    (skipApply settings clock stage item outcome).runAtomic db n =
      ⟨skipEffect settings clock stage item outcome (n + 1) db, n + 1, .ok ()⟩ := by
  refine Program.runAtomic_of_ok ?_
  have hupdated : (db.updateWheel item.id
      (enterState .skipped (n + 1) clock.nowIso)).hasWheel item.id = true := by
    simpa using hwheel
  exact (Program.run_bind_ok (Program.run_seq db n)).trans <|
    (Program.run_bind_ok rfl).trans <|
    (Program.run_bind_ok (Op.run_insert_of_some (Db.upsertSkip_eq hupdated _ _) _)).trans <|
    (Program.run_bind_ok (Op.run_insert_of_some (Db.insertError_eq (by exact hupdated)) _)).trans
      rfl

/-- A `Retry` over budget quarantines the wheel, if its claimed state allows. -/
theorem runAtomic_retryApply_of_quarantine (outcome : Retry)
    (hwheel : db.hasWheel item.id = true)
    (hattempts : settings.maxAttempts < attemptsOf item.id stage db + 1)
    (hallowed : .quarantined ∈ allowedTransitions item.state) :
    (retryApply settings clock stage item outcome).runAtomic db n =
      ⟨quarantineEffect settings clock stage item outcome (attemptsOf item.id stage db + 1)
        (n + 1) db, n + 1, .ok (.quarantined (attemptsOf item.id stage db + 1))⟩ := by
  refine Program.runAtomic_of_ok ?_
  have hupdated : (db.updateWheel item.id
      (enterState .quarantined (n + 1) clock.nowIso)).hasWheel item.id = true := by
    simpa using hwheel
  refine (Program.run_bind_ok (Program.run_query _ db n)).trans ?_
  rw [if_pos hattempts, quarantine, validateTransition, if_pos hallowed]
  refine (Program.run_bind_ok (Program.run_seq db n)).trans <|
    (Program.run_bind_ok rfl).trans <|
    (Program.run_bind_ok (Op.run_insert_of_some (Db.upsertWork_eq hupdated _ _ _) _)).trans <|
    (Program.run_bind_ok (Op.run_insert_of_some (Db.insertError_eq (by exact hupdated)) _)).trans
      ?_
  cases hwork : db.work.get? (item.id, stage) <;>
    simp [quarantineEffect, hwork, Db.updateWheel, Db.updateWheels, errorRow]

/-- A `Retry` over budget raises when the claimed state cannot be quarantined. -/
theorem runAtomic_retryApply_of_illegal (outcome : Retry)
    (hattempts : settings.maxAttempts < attemptsOf item.id stage db + 1)
    (hallowed : .quarantined ∉ allowedTransitions item.state) :
    (retryApply settings clock stage item outcome).runAtomic db n =
      ⟨db, n, .error (.illegalTransition item.state .quarantined)⟩ := by
  have hrun : (retryApply settings clock stage item outcome).run db n =
      ⟨db, n, .error (.illegalTransition item.state .quarantined)⟩ := by
    refine (Program.run_bind_ok (Program.run_query _ db n)).trans ?_
    rw [if_pos hattempts, quarantine, validateTransition, if_neg hallowed]
    rfl
  rw [Program.runAtomic, hrun]

/-- A `Retry` within budget defers the wheel. -/
theorem runAtomic_retryApply_of_defer (outcome : Retry) (hwheel : db.hasWheel item.id = true)
    (hattempts : ¬settings.maxAttempts < attemptsOf item.id stage db + 1) :
    (retryApply settings clock stage item outcome).runAtomic db n =
      ⟨deferEffect clock stage item outcome (attemptsOf item.id stage db + 1) db, n,
        .ok (.retried (attemptsOf item.id stage db + 1))⟩ := by
  refine Program.runAtomic_of_ok ?_
  refine (Program.run_bind_ok (Program.run_query _ db n)).trans ?_
  rw [if_neg hattempts]
  refine (Program.run_bind_ok
    (Op.run_insert_of_some (Db.upsertWork_eq hwheel _ _ _) _)).trans ?_
  cases hwork : db.work.get? (item.id, stage) <;> simp [deferEffect, hwork]

/-! ### Any outcome -/

variable (settings clock stage item db)

/-- A `Retry` that gives up: it exceeds the budget, and the claimed state can be
quarantined. -/
def quarantines : Prop :=
  settings.maxAttempts < attemptsOf item.id stage db + 1 ∧
    .quarantined ∈ allowedTransitions item.state

instance : Decidable (quarantines settings stage item db) := inferInstanceAs (Decidable (_ ∧ _))

/-- The state an outcome puts the wheel in, if its op is built and does not raise. -/
def target : Outcome → Option WheelState
  | .ok outcome =>
      if outcome.nextState ∈ allowedTransitions item.state then some outcome.nextState else none
  | .skip _ => if .skipped ∈ allowedTransitions item.state then some .skipped else none
  | .retry _ => if quarantines settings stage item db then some .quarantined else none

/-- The row that an `Ok` leaves. -/
def okRow (outcome : Ok) (seq : ℕ) (row : WheelRow) : WheelRow :=
  match outcome.write with
  | .blobLink blobSha256 =>
      { enterState outcome.nextState seq clock.nowIso row with blobSha256 := some blobSha256 }
  | .convertOk converted _ =>
      { enterState outcome.nextState seq clock.nowIso row with
        condaName := some converted.condaName }

/-- The row that an outcome leaves. -/
def outcomeRow (seq : ℕ) (row : WheelRow) : Outcome → WheelRow
  | .ok outcome => okRow clock outcome seq row
  | .skip _ => enterState .skipped seq clock.nowIso row
  | .retry _ =>
      if quarantines settings stage item db then enterState .quarantined seq clock.nowIso row
      else row

/-- The repodata rows that an outcome leaves. -/
def outcomeRepodata : Outcome → Table ℕ RepodataRow
  | .ok ⟨_, .convertOk converted rerollVersion⟩ =>
      db.wheelRepodata.set item.id (repodataRow settings converted rerollVersion)
  | _ => db.wheelRepodata

variable {settings clock stage item db}

theorem wheels_okEffect (outcome : Ok) (seq : ℕ) :
    (okEffect settings clock stage item outcome seq db).wheels =
      db.wheels.modify (Db.atWheel item.id (okRow clock outcome seq)) := by
  rcases outcome with ⟨nextState, blobSha256 | ⟨converted, rerollVersion⟩⟩ <;>
  · simp only [okEffect, StagePayload.effect, Db.deleteWork, Db.setRepodata, Db.updateWheel,
      Db.updateWheels, Table.modify_modify]
    refine Table.modify_congr fun id row _ => ?_
    by_cases hid : id = item.id <;> simp [hid, Db.atWheel, okRow]

theorem map_validateTransition_eq_ok {β : Type} {current nextState : WheelState} {f : Unit → β}
    {b : β} :
    (validateTransition current nextState).map f = .ok b ↔
      nextState ∈ allowedTransitions current ∧ f () = b := by
  by_cases h : nextState ∈ allowedTransitions current <;>
    simp [validateTransition, h, Except.map]

/-- What the op of an outcome leaves of the wheels and of their repodata. -/
theorem runAtomic_outcome {outcome : Outcome} {op : Op Unit}
    (hbuild : buildWriteOp settings clock stage item outcome = .ok op)
    (hwheel : db.hasWheel item.id = true) :
    (op.runAtomic db n).db.wheels = db.wheels.modify
        (Db.atWheel item.id fun row =>
          outcomeRow settings clock stage item db (n + 1) row outcome) ∧
      (op.runAtomic db n).db.wheelRepodata = outcomeRepodata settings item db outcome := by
  cases outcome with
  | ok outcome =>
      obtain ⟨-, rfl⟩ := map_validateTransition_eq_ok.mp hbuild
      rw [runAtomic_okApply n outcome hwheel]
      refine ⟨wheels_okEffect outcome (n + 1), ?_⟩
      rcases outcome with ⟨nextState, blobSha256 | ⟨converted, rerollVersion⟩⟩ <;> rfl
  | skip outcome =>
      obtain ⟨-, rfl⟩ := map_validateTransition_eq_ok.mp hbuild
      rw [runAtomic_skipApply n outcome hwheel]
      exact ⟨Db.wheels_updateWheel _ _ _, rfl⟩
  | retry outcome =>
      obtain rfl : (do
        let _ ← retryApply settings clock stage item outcome
        pure () : Op Unit) = op := by simpa [buildWriteOp] using hbuild
      rw [Program.db_runAtomic_bind_pure]
      by_cases hattempts : settings.maxAttempts < attemptsOf item.id stage db + 1
      · by_cases hallowed : .quarantined ∈ allowedTransitions item.state
        · rw [runAtomic_retryApply_of_quarantine n outcome hwheel hattempts hallowed]
          refine ⟨(Db.wheels_updateWheel _ _ _).trans ?_, rfl⟩
          simp only [outcomeRow, quarantines, hattempts, hallowed, and_self, if_true]
        · rw [runAtomic_retryApply_of_illegal n outcome hattempts hallowed]
          refine ⟨(Table.modify_eq_self fun id row => ?_).symm, rfl⟩
          simp [Db.atWheel, outcomeRow, quarantines, hallowed]
      · rw [runAtomic_retryApply_of_defer n outcome hwheel hattempts]
        refine ⟨(Table.modify_eq_self fun id row => ?_).symm, rfl⟩
        simp [Db.atWheel, outcomeRow, quarantines, hattempts]

end StageOps

/-! ## Campaigns -/

section Campaigns

variable (chunkIds : List ℕ) (nowIso : String)

/-- A wheel that a reprocess chunk resets. -/
def reprocessedRow (seq : ℕ) (row : WheelRow) : WheelRow :=
  { row with state := .needConvert, lane := 1, changeSeq := seq, updatedAt := nowIso }

/-- The skip rows a reprocess chunk clears. -/
def clearedSkip (selector : Selector) (id : ℕ) (row : SkipRow) : Bool :=
  match selector with
  | .rerollVersionBelow version =>
      !row.permanent ∧ row.rerollVersion.any (· < version) ∧ id ∈ chunkIds
  | _ => false

/-- The database after the deletions of a reprocess chunk. -/
def reprocessCleared (selector : Selector) (db : Db) : Db :=
  { db with
    wheelRepodata := db.wheelRepodata.filter fun id _ => !decide (id ∈ chunkIds)
    skips := db.skips.filter fun key row => !clearedSkip chunkIds selector key.1 row
    work := db.work.filter fun key _ => !decide (key.1 ∈ chunkIds) }

theorem run_reprocess_deletions {α : Type} (selector : Selector) (rest : Op α) (db : Db) (n : ℕ) :
    (do
      let _ ← Op.deleteRepodata fun id => id ∈ chunkIds
      if let .rerollVersionBelow version := selector then
        let _ ← Op.deleteSkips fun id row =>
          !row.permanent ∧ row.rerollVersion.any (· < version) ∧ id ∈ chunkIds
      let _ ← Op.deleteWork fun id _ => id ∈ chunkIds
      rest : Op α).run db n = rest.run (reprocessCleared chunkIds selector db) n := by
  cases selector with
  | rerollVersionBelow version => rfl
  | _ =>
      have hskips : (db.skips.filter fun _ _ => !false) = db.skips :=
        Table.filter_eq_self fun _ _ => rfl
      simp only [reprocessCleared, clearedSkip, hskips]
      rfl

/-- A reprocess chunk resets every wheel of its ids, whatever state it is in. -/
theorem runAtomic_reprocessChunkApply (selector : Selector) (db : Db) (n : ℕ) :
    ∃ (wheels : Table ℕ WheelRow) (affected : ℕ),
      (reprocessChunkApply chunkIds selector nowIso).runAtomic db n =
        ⟨{ reprocessCleared chunkIds selector db with wheels := wheels },
          n + chunkIds.length, .ok affected⟩ ∧
      ∀ id, ∃ m, wheels.get? id =
        (db.wheels.get? id).map fun row =>
          if id ∈ chunkIds then reprocessedRow nowIso m row else row := by
  have hbody : ∀ id (db : Db) n, ∃ a, (do
      let seq ← Program.seq
      Op.updateWheel id (reprocessedRow nowIso seq) : Op ℕ).run db n =
        ⟨db.updateWheels (fun id' row => id' = id ∧ true) (reprocessedRow nowIso (n + 1)), n + 1,
          .ok a⟩ := by
    intro id db n
    simp only [and_true]
    exact ⟨_, rfl⟩
  obtain ⟨wheels, as, hloop, -, hget⟩ := Op.run_each_updateWheels (p := fun _ => true) hbody
    (fun _ _ _ _ _ => rfl) chunkIds (reprocessCleared chunkIds selector db) n
  refine ⟨wheels, as.sum, Program.runAtomic_of_ok ?_, fun id => ?_⟩
  · exact (run_reprocess_deletions chunkIds selector _ db n).trans
      (Program.run_bind_ok hloop)
  · obtain ⟨m, hm⟩ := hget id
    exact ⟨m, by simpa [reprocessCleared] using hm⟩

/-- The updates of a chunk of distinct wheels: each row is hit once, and the wheel at
position `k` gets the `k`-th of the sequence numbers that follow. -/
theorem run_each_updateWheel_of_nodup {f : ℕ → WheelRow → WheelRow} {ids : List ℕ}
    (hnodup : ids.Nodup) (db : Db) (n : ℕ) (hwheels : ∀ id ∈ ids, db.hasWheel id = true) :
    ∃ wheels : Table ℕ WheelRow,
      (Program.each (fun id => do
        let seq ← Program.seq
        Op.updateWheel id (f seq) : ℕ → Op ℕ) ids).run db n =
          ⟨{ db with wheels := wheels }, n + ids.length, .ok (ids.map fun _ => 1)⟩ ∧
      ∀ id, wheels.get? id = (db.wheels.get? id).map fun row =>
        if id ∈ ids then f (n + ids.idxOf id + 1) row else row := by
  induction ids generalizing db n with
  | nil => exact ⟨db.wheels, rfl, fun id => by simp⟩
  | cons i ids ih =>
      obtain ⟨hi, hids⟩ := List.nodup_cons.mp hnodup
      obtain ⟨hwheel, hrest⟩ := List.forall_mem_cons.mp hwheels
      obtain ⟨row, hrow⟩ := Db.hasWheel_iff.mp hwheel
      have hcount : (db.wheels.filter fun id _ => decide (id = i)).rows.length = 1 := by
        rw [Table.rows_filter_key hrow, List.length_singleton]
      have hhead : (do
          let seq ← Program.seq
          Op.updateWheel i (f seq) : Op ℕ).run db n =
            ⟨db.updateWheel i (f (n + 1)), n + 1, .ok 1⟩ := by
        refine Eq.trans (b := ⟨db.updateWheel i (f (n + 1)), n + 1,
          .ok (db.wheels.filter fun id _ => decide (id = i)).rows.length⟩) rfl ?_
        rw [hcount]
      obtain ⟨wheels, htail, hget⟩ := ih hids (db.updateWheel i (f (n + 1))) (n + 1)
        fun id hid => by rw [Db.hasWheel_updateWheel]; exact hrest id hid
      refine ⟨wheels, ?_, fun id => ?_⟩
      · refine ((Program.run_bind_ok hhead).trans (Program.run_bind_ok htail)).trans ?_
        simp [Db.updateWheel, Db.updateWheels, Nat.add_assoc, Nat.add_comm 1]
      · rw [hget, Db.wheels_updateWheel, Table.get?_modify, Option.map_map]
        congr 1
        funext row
        by_cases hid : id = i
        · subst hid
          simp [hi, Db.atWheel]
        · simp [hid, Ne.symm hid, Db.atWheel, Nat.add_assoc, Nat.add_comm 1]

/-- A reprocess chunk of distinct wheels. -/
theorem runAtomic_reprocessChunkApply_of_nodup {chunkIds : List ℕ} (hnodup : chunkIds.Nodup)
    (nowIso : String) (selector : Selector) {db : Db} (n : ℕ)
    (hwheels : ∀ id ∈ chunkIds, db.hasWheel id = true) :
    ∃ wheels : Table ℕ WheelRow,
      (reprocessChunkApply chunkIds selector nowIso).runAtomic db n =
        ⟨{ reprocessCleared chunkIds selector db with wheels := wheels },
          n + chunkIds.length, .ok chunkIds.length⟩ ∧
      ∀ id, wheels.get? id = (db.wheels.get? id).map fun row =>
        if id ∈ chunkIds then reprocessedRow nowIso (n + chunkIds.idxOf id + 1) row else row := by
  obtain ⟨wheels, hloop, hget⟩ := run_each_updateWheel_of_nodup
    (f := reprocessedRow nowIso) hnodup (reprocessCleared chunkIds selector db) n hwheels
  refine ⟨wheels, Program.runAtomic_of_ok ?_, hget⟩
  refine (run_reprocess_deletions chunkIds selector _ db n).trans
    ((Program.run_bind_ok hloop).trans ?_)
  simp

/-- An unquarantine chunk resets the wheels of its ids that are quarantined when
it runs. -/
theorem runAtomic_unquarantineChunkApply (db : Db) (n : ℕ) :
    ∃ (wheels : Table ℕ WheelRow) (affected : ℕ),
      (unquarantineChunkApply chunkIds nowIso).runAtomic db n =
        ⟨{ db with
            wheels := wheels
            work := db.work.filter fun key _ => !decide (key.1 ∈ chunkIds) },
          n + chunkIds.length, .ok affected⟩ ∧
      ∀ id, ∃ m, wheels.get? id =
        (db.wheels.get? id).map fun row =>
          if id ∈ chunkIds ∧ row.state = .quarantined then enterState .needMetadata m nowIso row
          else row := by
  have hbody : ∀ id (db : Db) n, ∃ a, (do
      let seq ← Program.seq
      Op.updateWheels (fun id' row => id' = id ∧ row.state = .quarantined)
        (enterState .needMetadata seq nowIso) : Op ℕ).run db n =
        ⟨db.updateWheels (fun id' row => id' = id ∧ decide (row.state = .quarantined))
          (enterState .needMetadata (n + 1) nowIso), n + 1, .ok a⟩ := by
    intro id db n
    simp only [decide_eq_true_eq]
    exact ⟨_, rfl⟩
  obtain ⟨wheels, as, hloop, -, hget⟩ := Op.run_each_updateWheels
    (p := fun row => row.state = .quarantined)
    (f := fun seq => enterState .needMetadata seq nowIso) hbody
    (fun _ _ _ _ h => by simp [enterState] at h) chunkIds
    { db with work := db.work.filter fun key _ => !decide (key.1 ∈ chunkIds) } n
  refine ⟨wheels, as.sum, Program.runAtomic_of_ok ?_, fun id => ?_⟩
  · exact (Program.run_bind_ok rfl).trans (Program.run_bind_ok hloop)
  · obtain ⟨m, hm⟩ := hget id
    exact ⟨m, by simpa using hm⟩

end Campaigns

end RerollSync.Dispatcher
