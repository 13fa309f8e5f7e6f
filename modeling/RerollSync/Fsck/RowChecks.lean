import RerollSync.Support.Paging
import RerollSync.Support.Table
import RerollSync.Store.Schema

/-!
# The row checks of fsck, chunk by chunk

Fsck reads a database that may break every rule the daemon keeps, so here a row is
keyed by its rowid alone and its state is any integer.  A row check is a base query
of rowids and values; `_chunked_scan` reads it a chunk at a time, and the check
reports what one query of the whole table would.  A chunk has room in a `LIMIT` of
sqlite, which is below `2 ^ 63`.
-/

namespace RerollSync.Fsck

open RerollSync.Support RerollSync.Store

/-! ## The tables as fsck reads them -/

/-- `int(state)`. -/
def stateValue : WheelState → ℤ
  | .needMetadata => 0
  | .noMetadata => 1
  | .needConvert => 2
  | .ready => 3
  | .skipped => 4
  | .quarantined => 5
  | .deleted => 6

/-- The members of `WheelState`, in order. -/
def wheelStates : List WheelState :=
  [.needMetadata, .noMetadata, .needConvert, .ready, .skipped, .quarantined, .deleted]

/-- A row of `wheels`; its id is its rowid. -/
structure WheelRecord where
  condaName : Option String
  state : ℤ
  metadataSha256 : Option String
  blobSha256 : Option String
  changeSeq : ℤ
  deletedAt : Option String
  updatedAt : String

/-- A row of `skips`. -/
structure SkipRecord where
  wheelId : ℤ
  permanent : ℤ
  rerollVersion : Option String

/-- A row of `work`. -/
structure WorkRecord where
  wheelId : ℤ
  attempts : ℤ
  quarantinedAt : Option String

/-- A row of `blobs`. -/
structure BlobRecord where
  sha256 : String
  segmentId : ℤ

/-- The tables by rowid.  The rowid of `wheel_repodata` is its wheel id and that of
`segments` its id; nothing else of theirs is read. -/
structure Tables where
  wheels : Table ℤ WheelRecord
  wheelRepodata : Table ℤ Unit
  skips : Table ℤ SkipRecord
  work : Table ℤ WorkRecord
  blobs : Table ℤ BlobRecord
  segments : Table ℤ Unit

/-- What a check selects as `value`. -/
inductive Value
  | id (n : ℤ)
  | sha256 (s : String)
deriving DecidableEq, Repr

/-- `Violation`. -/
structure Violation where
  invariant : String
  description : String
  count : ℕ
  exampleIds : List Value
  informational : Bool
deriving DecidableEq, Repr

namespace Tables

variable (t : Tables)

/-! ## Base queries

The rows a query matches, each under its `cursor_rowid`.  The joins are on a primary
key, so they repeat no row.
-/

/-- `SELECT id AS value, rowid AS cursor_rowid FROM wheels WHERE ...`. -/
def wheelsWhere (p : ℤ → WheelRecord → Bool) : Table ℤ Value :=
  (t.wheels.filter p).modify fun id _ => .id id

/-- `JOIN wheels w ON w.id = ... WHERE ...`. -/
def joinsWheel (id : ℤ) (p : WheelRecord → Bool) : Bool := (t.wheels.get? id).any p

/-- `_ready_without_repodata_query`. -/
def readyWithoutRepodataQuery : Table ℤ Value :=
  t.wheelsWhere fun id w => w.state = stateValue .ready ∧ id ∉ t.wheelRepodata.keys

/-- `_repodata_without_ready_query`. -/
def repodataWithoutReadyQuery : Table ℤ Value :=
  (t.wheelRepodata.filter fun id _ => t.joinsWheel id fun w => w.state ≠ stateValue .ready).modify
    fun id _ => .id id

/-- `_need_convert_without_blob_query`. -/
def needConvertWithoutBlobQuery : Table ℤ Value :=
  t.wheelsWhere fun _ w => w.state = stateValue .needConvert ∧
    w.blobSha256.all fun sha256 => !t.blobs.rows.any fun b => b.2.sha256 = sha256

/-- `_need_metadata_with_blob_query`. -/
def needMetadataWithBlobQuery : Table ℤ Value :=
  t.wheelsWhere fun _ w => w.state = stateValue .needMetadata ∧ w.blobSha256.isSome

/-- `_no_metadata_with_metadata_sha256_query`. -/
def noMetadataWithMetadataSha256Query : Table ℤ Value :=
  t.wheelsWhere fun _ w => w.state = stateValue .noMetadata ∧ w.metadataSha256.isSome

/-- `_skipped_without_skips_row_query`. -/
def skippedWithoutSkipsRowQuery : Table ℤ Value :=
  t.wheelsWhere fun id w => w.state = stateValue .skipped ∧
    !t.skips.rows.any fun sk => sk.2.wheelId = id

/-- `_quarantined_without_work_row_query`. -/
def quarantinedWithoutWorkRowQuery : Table ℤ Value :=
  t.wheelsWhere fun id w => w.state = stateValue .quarantined ∧
    !t.work.rows.any fun wk => wk.2.wheelId = id ∧ wk.2.quarantinedAt.isSome

/-- `_deleted_without_deleted_at_query`. -/
def deletedWithoutDeletedAtQuery : Table ℤ Value :=
  t.wheelsWhere fun _ w => w.state = stateValue .deleted ∧ w.deletedAt.isNone

/-- `_deleted_at_without_deleted_state_query`. -/
def deletedAtWithoutDeletedStateQuery : Table ℤ Value :=
  t.wheelsWhere fun _ w => w.deletedAt.isSome ∧ w.state ≠ stateValue .deleted

/-- `_invalid_state_query`. -/
def invalidStateQuery : Table ℤ Value :=
  t.wheelsWhere fun _ w => w.state ∉ wheelStates.map stateValue

/-- `SELECT wheel_id AS value, rowid AS cursor_rowid FROM skips WHERE ...`. -/
def skipsWhere (p : SkipRecord → Bool) : Table ℤ Value :=
  (t.skips.filter fun _ sk => p sk).modify fun _ sk => .id sk.wheelId

/-- `_permanent_skip_with_reroll_version_query`. -/
def permanentSkipWithRerollVersionQuery : Table ℤ Value :=
  t.skipsWhere fun sk => sk.permanent = 1 ∧ sk.rerollVersion.isSome

/-- `_non_permanent_skip_without_reroll_version_query`. -/
def nonPermanentSkipWithoutRerollVersionQuery : Table ℤ Value :=
  t.skipsWhere fun sk => sk.permanent = 0 ∧ sk.rerollVersion.isNone

/-- `_stale_skip_query`. -/
def staleSkipQuery : Table ℤ Value :=
  t.skipsWhere fun sk => t.joinsWheel sk.wheelId fun w => w.state ≠ stateValue .skipped

/-- `SELECT wheel_id AS value, rowid AS cursor_rowid FROM work WHERE ...`. -/
def workWhere (p : WorkRecord → Bool) : Table ℤ Value :=
  (t.work.filter fun _ wk => p wk).modify fun _ wk => .id wk.wheelId

/-- `_work_row_for_terminal_wheel_query`; the states are `_TERMINAL_FOR_WORK`. -/
def workRowForTerminalWheelQuery : Table ℤ Value :=
  t.workWhere fun wk => t.joinsWheel wk.wheelId fun w =>
    w.state ∈ [WheelState.ready, .skipped, .noMetadata, .deleted].map stateValue

/-- The query of `_check_attempts_exceeds_max`. -/
def attemptsExceedsMaxQuery (maxAttempts : ℤ) : Table ℤ Value :=
  t.workWhere fun wk => wk.attempts > maxAttempts

/-- The query of `_check_max_attempts_without_quarantine`. -/
def maxAttemptsWithoutQuarantineQuery (maxAttempts : ℤ) : Table ℤ Value :=
  t.workWhere fun wk => wk.attempts = maxAttempts ∧ wk.quarantinedAt.isNone

/-- `_blob_sha256_unresolved_query`. -/
def blobSha256UnresolvedQuery : Table ℤ Value :=
  t.wheelsWhere fun _ w =>
    w.blobSha256.any fun sha256 => !t.blobs.rows.any fun b => b.2.sha256 = sha256

/-- `SELECT sha256 AS value, rowid AS cursor_rowid FROM blobs WHERE ...`. -/
def blobsWhere (p : BlobRecord → Bool) : Table ℤ Value :=
  (t.blobs.filter fun _ b => p b).modify fun _ b => .sha256 b.sha256

/-- `_blob_segment_unresolved_query`. -/
def blobSegmentUnresolvedQuery : Table ℤ Value :=
  t.blobsWhere fun b => b.segmentId ∉ t.segments.keys

/-- `_orphaned_blob_query`. -/
def orphanedBlobQuery : Table ℤ Value :=
  t.blobsWhere fun b => !t.wheels.rows.any fun w => w.2.blobSha256 = some b.sha256

/-- `_conda_name_outside_ready_query`. -/
def condaNameOutsideReadyQuery : Table ℤ Value :=
  t.wheelsWhere fun _ w => w.condaName.isSome ∧ w.state ≠ stateValue .ready

/-- `_tombstoned_with_repodata_query`. -/
def tombstonedWithRepodataQuery : Table ℤ Value :=
  t.wheelsWhere fun id w => w.state = stateValue .deleted ∧ id ∈ t.wheelRepodata.keys

end Tables

/-- `_RowCheck`. -/
structure RowCheck where
  invariant : String
  description : String
  baseQuery : Tables → Table ℤ Value
  informational : Bool := false

/-- The row checks of `run`, in its order: `_ROW_CHECKS`, `_check_invalid_state`,
`_check_attempts_exceeds_max` and `_check_max_attempts_without_quarantine`. -/
def rowChecks (maxAttempts : ℤ) : List RowCheck :=
  [{ invariant := "1a_ready_without_repodata"
     description := "state = READY but no wheel_repodata row"
     baseQuery := Tables.readyWithoutRepodataQuery },
   { invariant := "1b_repodata_without_ready"
     description := "wheel_repodata row exists but state != READY"
     baseQuery := Tables.repodataWithoutReadyQuery },
   { invariant := "2_need_convert_without_blob"
     description := "state = NEED_CONVERT but blob_sha256 is unset or unresolved"
     baseQuery := Tables.needConvertWithoutBlobQuery },
   { invariant := "3_need_metadata_with_blob"
     description := "state = NEED_METADATA but blob_sha256 is set"
     baseQuery := Tables.needMetadataWithBlobQuery },
   { invariant := "4_no_metadata_with_metadata_sha256"
     description := "state = NO_METADATA but metadata_sha256 is set"
     baseQuery := Tables.noMetadataWithMetadataSha256Query },
   { invariant := "5_skipped_without_skips_row"
     description := "state = SKIPPED but no skips row exists"
     baseQuery := Tables.skippedWithoutSkipsRowQuery },
   { invariant := "6_quarantined_without_work_row"
     description := "state = QUARANTINED but no quarantined work row exists"
     baseQuery := Tables.quarantinedWithoutWorkRowQuery },
   { invariant := "7a_deleted_without_deleted_at"
     description := "state = DELETED but deleted_at is unset"
     baseQuery := Tables.deletedWithoutDeletedAtQuery },
   { invariant := "7b_deleted_at_without_deleted_state"
     description := "deleted_at is set but state != DELETED"
     baseQuery := Tables.deletedAtWithoutDeletedStateQuery },
   { invariant := "9a_permanent_skip_with_reroll_version"
     description := "skips.permanent = 1 but reroll_version is set"
     baseQuery := Tables.permanentSkipWithRerollVersionQuery },
   { invariant := "9b_non_permanent_skip_without_reroll_version"
     description := "skips.permanent = 0 but reroll_version is unset"
     baseQuery := Tables.nonPermanentSkipWithoutRerollVersionQuery },
   { invariant := "10_stale_skip"
     description := "skips row exists for a wheel not in SKIPPED"
     baseQuery := Tables.staleSkipQuery },
   { invariant := "11_work_row_for_terminal_wheel"
     description := "work row exists for a wheel in a terminal state"
     baseQuery := Tables.workRowForTerminalWheelQuery },
   { invariant := "13_blob_sha256_unresolved"
     description := "wheels.blob_sha256 does not resolve to a blobs row"
     baseQuery := Tables.blobSha256UnresolvedQuery },
   { invariant := "14_blob_segment_unresolved"
     description := "blobs.segment_id does not resolve to a segments row"
     baseQuery := Tables.blobSegmentUnresolvedQuery },
   { invariant := "16_orphaned_blob"
     description := "blob is referenced by no wheel (expected; blobs are never GC'd)"
     baseQuery := Tables.orphanedBlobQuery
     informational := true },
   { invariant := "19_conda_name_outside_ready"
     description := "conda_name is set for a wheel not in READY"
     baseQuery := Tables.condaNameOutsideReadyQuery },
   { invariant := "20_tombstoned_with_repodata"
     description := "tombstoned wheel still has a wheel_repodata row"
     baseQuery := Tables.tombstonedWithRepodataQuery
     informational := true },
   { invariant := "8_state_outside_wheelstate"
     description := "wheels.state has a value outside WheelState"
     baseQuery := Tables.invalidStateQuery },
   { invariant := "12a_attempts_exceeds_max"
     description := "work.attempts exceeds max_attempts (" ++ toString maxAttempts ++ ")"
     baseQuery := fun t => t.attemptsExceedsMaxQuery maxAttempts },
   { invariant := "12b_max_attempts_without_quarantine"
     description := "work.attempts = max_attempts (" ++ toString maxAttempts ++
       ") without quarantined_at set"
     baseQuery := fun t => t.maxAttemptsWithoutQuarantineQuery maxAttempts }]

/-! ## The scan -/

/-- What the connection decides: which of a check's reads go over their budget, and the
order in which a query without `ORDER BY` returns its rows. -/
structure Reader where
  overBudget : ℕ → Bool
  arrange : {α : Type} → ℕ → List α → List α
  perm : ∀ {α : Type} (n : ℕ) (rows : List α), (arrange n rows).Perm rows

/-- How a check can fail: `ReadTxnBudgetExceeded` of a strict `read_txn`, and
`page[-1]` of a page with no rows. -/
inductive FsckError
  | readTxnBudgetExceeded
  | indexError
deriving DecidableEq, Repr

/-- What a check comes to in a number of turns of its loop: `none` when it is not over. -/
abbrev Run (α : Type) := Option (Except FsckError α)

/-- The run is over, with a result in `P` unless a read went over its budget. -/
def Ends {α : Type} (reader : Reader) (P : α → Prop) (run : Run α) : Prop :=
  (∃ a, run = some (.ok a) ∧ P a) ∨
    run = some (.error .readTxnBudgetExceeded) ∧ ∃ n, reader.overBudget n = true

/-- `_chunked_scan`: the values it yields.  `reads` have been made so far. -/
def chunkedScan (reader : Reader) (base : Table ℤ Value) (chunkSize : ℕ) :
    ℕ → ℕ → Option ℤ → Run (List Value)
  | 0, _, _ => none
  | turns + 1, reads, cursor =>
      let rows := (rowsFrom base.rows cursor).take (chunkSize + 1)
      if reader.overBudget reads then some (.error .readTxnBudgetExceeded)
      else if rows = [] then some (.ok [])
      else
        let page := rows.take chunkSize
        if rows.length ≤ chunkSize then some (.ok (page.map Prod.snd))
        else
          match page.getLast? with
          | none => some (.error .indexError)
          | some last =>
              (chunkedScan reader base chunkSize turns (reads + 1) (some last.1)).map
                fun rest => rest.map (page.map Prod.snd ++ ·)

/-- The body of the loop of `_run_row_check`. -/
def tally (exampleLimit : ℕ) (acc : ℕ × List Value) (value : Value) : ℕ × List Value :=
  (acc.1 + 1, if acc.2.length < exampleLimit then acc.2 ++ [value] else acc.2)

/-- What a check says of the count and the examples it ends with. -/
def RowCheck.violation (check : RowCheck) (found : ℕ × List Value) : Option Violation :=
  if found.1 = 0 then none
  else
    some
      { invariant := check.invariant
        description := check.description
        count := found.1
        exampleIds := found.2
        informational := check.informational }

/-- `_run_row_check`. -/
def runRowCheck (check : RowCheck) (t : Tables) (reader : Reader) (chunkSize exampleLimit : ℕ)
    (turns : ℕ) : Run (Option Violation) :=
  (chunkedScan reader (check.baseQuery t) chunkSize turns 0 none).map fun values =>
    values.map fun values => check.violation (values.foldl (tally exampleLimit) (0, []))

/-- The check on the whole table at once: every row the base query matches counts, and
the first of them in cursor order are the examples. -/
def RowCheck.wholeTable (check : RowCheck) (t : Tables) (exampleLimit : ℕ) : Option Violation :=
  check.violation ((check.baseQuery t).rows.length,
    ((check.baseQuery t).orderByKey.rows.map Prod.snd).take exampleLimit)

variable {reader : Reader} {chunkSize : ℕ}

theorem Ends.map {α β : Type} {P : α → Prop} {Q : β → Prop} {run : Run α} {f : α → β}
    (h : Ends reader P run) (hf : ∀ a, P a → Q (f a)) :
    Ends reader Q (run.map fun r => r.map f) := by
  rcases h with ⟨a, rfl, ha⟩ | ⟨rfl, hover⟩
  · exact Or.inl ⟨f a, rfl, hf a ha⟩
  · exact Or.inr ⟨rfl, hover⟩

theorem ends_of_overBudget {α : Type} {P : α → Prop} {n : ℕ} (h : reader.overBudget n = true) :
    Ends reader P (some (.error .readTxnBudgetExceeded)) :=
  Or.inr ⟨rfl, n, h⟩

/-- The scan yields the rows behind its cursor, in cursor order. -/
theorem ends_chunkedScan (base : Table ℤ Value) (hchunk : 0 < chunkSize) {turns : ℕ} (reads : ℕ)
    {cursor : Option ℤ} (hturns : (rowsFrom base.rows cursor).length < turns) :
    Ends reader (· = (rowsFrom base.rows cursor).map Prod.snd)
      (chunkedScan reader base chunkSize turns reads cursor) := by
  induction turns generalizing reads cursor with
  | zero => exact absurd hturns (Nat.not_lt_zero _)
  | succ turns ih =>
      rw [chunkedScan]
      by_cases hover : reader.overBudget reads = true
      · simp only [hover, if_true]
        exact ends_of_overBudget hover
      simp only [hover]
      by_cases hnil : (rowsFrom base.rows cursor).take (chunkSize + 1) = []
      · have hempty : rowsFrom base.rows cursor = [] :=
          (List.take_eq_nil_iff.mp hnil).resolve_left (Nat.succ_ne_zero _)
        rw [if_pos hnil, hempty]
        exact Or.inl ⟨[], rfl, rfl⟩
      rw [if_neg hnil]
      by_cases hlast : ((rowsFrom base.rows cursor).take (chunkSize + 1)).length ≤ chunkSize
      · rw [if_pos hlast, take_of_length_overfetch_le hlast]
        exact Or.inl ⟨_, rfl, rfl⟩
      · obtain ⟨row, hrow, hsplit, hless⟩ :=
          exists_getLast?_overfetch base.nodup hchunk (Nat.lt_of_not_le hlast)
        simp only [hlast, if_false, hrow]
        refine (ih (reads + 1) (by omega)).map fun values hvalues => ?_
        rw [hvalues, ← List.map_append, hsplit]

theorem foldl_tally (exampleLimit : ℕ) (values : List Value) (n : ℕ) (examples : List Value)
    (hexamples : examples.length ≤ exampleLimit) :
    values.foldl (tally exampleLimit) (n, examples) =
      (n + values.length, (examples ++ values).take exampleLimit) := by
  induction values generalizing n examples with
  | nil => simp [List.take_of_length_le hexamples]
  | cons value values ih =>
      rw [List.foldl_cons, tally]
      by_cases hroom : examples.length < exampleLimit
      · rw [if_pos hroom, ih _ _ (by rw [List.length_append]; exact hroom)]
        simp [Nat.add_assoc, Nat.add_comm 1]
      · have hfull : examples.length = exampleLimit := by omega
        rw [if_neg hroom, ih _ _ hexamples]
        simp [Nat.add_assoc, Nat.add_comm 1, ← hfull]

/-- A row check reports what the whole table shows, whatever the size of its chunks. -/
theorem ends_runRowCheck (check : RowCheck) (t : Tables) (hchunk : 0 < chunkSize)
    (exampleLimit : ℕ) {turns : ℕ} (hturns : (check.baseQuery t).rows.length < turns) :
    Ends reader (· = check.wholeTable t exampleLimit)
      (runRowCheck check t reader chunkSize exampleLimit turns) := by
  have hordered : (check.baseQuery t).orderByKey.rows = rowsFrom (check.baseQuery t).rows none :=
    rowsFrom_none.symm
  rw [← length_rowsFrom_none] at hturns
  refine (ends_chunkedScan _ hchunk 0 hturns).map fun values hvalues => ?_
  rw [foldl_tally exampleLimit values 0 [] (Nat.zero_le _), hvalues, RowCheck.wholeTable, hordered,
    List.length_map, length_rowsFrom_none, Nat.zero_add, List.nil_append]

end RerollSync.Fsck
