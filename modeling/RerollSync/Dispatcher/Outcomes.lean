import RerollSync.Convert

/-!
# Stage outcomes

`Dispatcher.apply_outcome` of `dispatcher.py` and the payload writers of both
stages.  The op for an outcome is built from the queue item captured at the
claim; what it does to the wheel happens when the writer runs it.
-/

namespace RerollSync.Dispatcher

open RerollSync.Store RerollSync.Support RerollSync.Convert

/-- `QueueItem`. -/
structure QueueItem where
  id : ℕ
  project : String
  lane : ℕ
  state : WheelState
deriving DecidableEq

/-- `StagePayloadWriter`: `_blob_link_writer` of the fetch stage and
`_convert_ok_writer` of the convert stage, with what they close over. -/
inductive StagePayload
  | blobLink (blobSha256 : String)
  | convertOk (outcome : ConvertOk) (rerollVersion : String)
deriving DecidableEq

/-- `Ok`. -/
structure Ok where
  nextState : WheelState
  write : StagePayload
deriving DecidableEq

/-- `Skip`. -/
structure Skip where
  reason : String
  subcategory : String
  details : String
  permanent : Bool
  rerollVersion : Option String
deriving DecidableEq

/-- `Retry`. -/
structure Retry where
  reason : String
  details : String
deriving DecidableEq

/-- `Outcome`, less `RateLimited`, which writes nothing to the database. -/
inductive Outcome
  | ok (outcome : Ok)
  | skip (outcome : Skip)
  | retry (outcome : Retry)
deriving DecidableEq

/-- `adapt_convert_outcome`. -/
def adaptConvertOutcome (outcome : ConvertOutcome) (rerollVersion : String) : Outcome :=
  match outcome with
  | .ok outcome => .ok ⟨.ready, .convertOk outcome rerollVersion⟩
  | .skip s => .skip ⟨s.reason, s.subcategory, s.details, s.permanent, s.rerollVersion⟩
  | .retry r => .retry ⟨r.reason, r.details⟩

/-- What the ops read from the dispatcher: its settings, and `compress_json` of
the JSON forms. -/
structure Settings where
  rerollVersion : String
  maxAttempts : ℕ
  compressJson : List String → Bytes

/-- The clock readings of one application: `now_iso`, and the rendered
`next_attempt_at` of the `attempts`-th failure, jitter drawn. -/
structure Clock where
  nowIso : String
  nextAttemptAt : ℕ → String

/-- `_validate_transition`. -/
def validateTransition (current nextState : WheelState) : Except OpError Unit :=
  if nextState ∈ allowedTransitions current then .ok ()
  else .error (.illegalTransition current nextState)

/-- The row `_convert_ok_writer` stores. -/
def repodataRow (settings : Settings) (outcome : ConvertOk) (rerollVersion : String) :
    RepodataRow where
  repodataZst := settings.compressJson (outcome.records.map WheelRecord.json)
  nameConvZst := some (settings.compressJson (outcome.resolutions.map NameResolution.json))
  requiresPrerelease := outcome.requiresPrerelease
  rerollVersion := rerollVersion

/-- `UPDATE wheels SET state = ?, change_seq = ?, updated_at = ?`. -/
def enterState (state : WheelState) (seq : ℕ) (nowIso : String) (row : WheelRow) : WheelRow :=
  { row with state := state, changeSeq := seq, updatedAt := nowIso }

/-- The payload writers. -/
def StagePayload.run (settings : Settings) (wheelId : ℕ) : StagePayload → Op Unit
  | .blobLink blobSha256 => do
      let _ ← Op.updateWheel wheelId fun row => { row with blobSha256 := some blobSha256 }
  | .convertOk outcome rerollVersion => do
      let _ ← Op.insert (Db.upsertRepodata wheelId (repodataRow settings outcome rerollVersion))
      let _ ← Op.updateWheel wheelId fun row => { row with condaName := some outcome.condaName }

/-- `_ok_op._apply`. -/
def okApply (settings : Settings) (clock : Clock) (stage : Stage) (item : QueueItem)
    (outcome : Ok) : Op Unit := do
  let seq ← Program.seq
  let _ ← Op.updateWheel item.id (enterState outcome.nextState seq clock.nowIso)
  outcome.write.run settings item.id
  let _ ← Op.deleteWork fun id stage' => id = item.id ∧ stage' = stage

/-- `_skip_op._apply`. -/
def skipApply (settings : Settings) (clock : Clock) (stage : Stage) (item : QueueItem)
    (outcome : Skip) : Op Unit := do
  let seq ← Program.seq
  let _ ← Op.updateWheel item.id (enterState .skipped seq clock.nowIso)
  let _ ← Op.insert (Db.upsertSkip item.id stage
    { reason := outcome.reason
      permanent := outcome.permanent
      rerollVersion := if outcome.permanent then none else outcome.rerollVersion
      createdAt := clock.nowIso })
  let _ ← Op.insert (Db.insertError
    { wheelId := some item.id
      errorCategory := outcome.reason
      errorSubcat := some outcome.subcategory
      details := some outcome.details
      rerollVersion := settings.rerollVersion
      createdAt := clock.nowIso })
  let _ ← Op.deleteWork fun id stage' => id = item.id ∧ stage' = stage

/-- What a retry did: `("quarantined", attempts)` or `("retried", attempts)`. -/
inductive RetryResult
  | quarantined (attempts : ℕ)
  | retried (attempts : ℕ)
deriving DecidableEq

/-- The branch of `_retry_op._apply` that gives up. -/
def quarantine (settings : Settings) (clock : Clock) (stage : Stage) (item : QueueItem)
    (outcome : Retry) (attempts : ℕ) : Op RetryResult := do
  match validateTransition item.state .quarantined with
  | .error e => Program.raise e
  | .ok () =>
      let seq ← Program.seq
      let _ ← Op.updateWheel item.id (enterState .quarantined seq clock.nowIso)
      let row : WorkRow :=
        { attempts := attempts
          nextAttemptAt := clock.nowIso
          lastError := some outcome.details
          quarantinedAt := some clock.nowIso }
      let _ ← Op.insert (Db.upsertWork item.id stage row fun _ => row)
      let _ ← Op.insert (Db.insertError
        { wheelId := some item.id
          errorCategory := outcome.reason
          errorSubcat := none
          details := some outcome.details
          rerollVersion := settings.rerollVersion
          createdAt := clock.nowIso })
      return .quarantined attempts

/-- The branch of `_retry_op._apply` that defers. -/
def defer (clock : Clock) (stage : Stage) (item : QueueItem) (outcome : Retry) (attempts : ℕ) :
    Op RetryResult := do
  let row : WorkRow :=
    { attempts := attempts
      nextAttemptAt := clock.nextAttemptAt attempts
      lastError := some outcome.details
      quarantinedAt := none }
  let _ ← Op.insert (Db.upsertWork item.id stage row fun old =>
    { row with quarantinedAt := old.quarantinedAt })
  return .retried attempts

/-- The attempts recorded for a wheel at a stage; none without a `work` row. -/
def attemptsOf (id : ℕ) (stage : Stage) (db : Db) : ℕ :=
  ((db.work.get? (id, stage)).map WorkRow.attempts).getD 0

/-- `_retry_op._apply`. -/
def retryApply (settings : Settings) (clock : Clock) (stage : Stage) (item : QueueItem)
    (outcome : Retry) : Op RetryResult := do
  let before ← Program.query (attemptsOf item.id stage)
  let attempts := before + 1
  if attempts > settings.maxAttempts then quarantine settings clock stage item outcome attempts
  else defer clock stage item outcome attempts

/-- `_build_write_op`: `Ok` and `Skip` check the claimed state when the op is
built, `Retry` only if it quarantines, inside the op. -/
def buildWriteOp (settings : Settings) (clock : Clock) (stage : Stage) (item : QueueItem) :
    Outcome → Except OpError (Op Unit)
  | .ok outcome =>
      (validateTransition item.state outcome.nextState).map fun _ =>
        okApply settings clock stage item outcome
  | .skip outcome =>
      (validateTransition item.state .skipped).map fun _ =>
        skipApply settings clock stage item outcome
  | .retry outcome => .ok do
      let _ ← retryApply settings clock stage item outcome

end RerollSync.Dispatcher
