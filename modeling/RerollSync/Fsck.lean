import RerollSync.Store.Wheel

/-!
# The invariants of fsck

The row checks of `fsck.py` over `wheels` and the tables that belong to it.  Each
is a query, and what a query returns is what the check reports.
-/

namespace RerollSync.Fsck

open RerollSync.Support RerollSync.Store

/-- `_TERMINAL_FOR_WORK`. -/
def terminalForWork : List WheelState := [.ready, .skipped, .noMetadata, .deleted]

/-! ## Queries -/

/-- The ids of the wheels that satisfy `p`. -/
def wheelsWhere (p : Wheel → Bool) (db : Db) : List ℕ :=
  (db.wheels.filter fun id row => p (db.wheelAt id row)).keys

/-- The wheel ids of the rows of a table whose wheels satisfy `p`. -/
def rowsOfWheels {ρ : Type} (t : Table (ℕ × Stage) ρ) (p : WheelRow → Bool) (db : Db) : List ℕ :=
  (t.filter fun key _ => (db.wheels.get? key.1).any p).keys.map Prod.fst

/-- `_ready_without_repodata_query`: invariant 1a. -/
def readyWithoutRepodataQuery : Db → List ℕ :=
  wheelsWhere fun w => w.row.state = .ready ∧ w.repodata = none

/-- `_repodata_without_ready_query`: invariant 1b. -/
def repodataWithoutReadyQuery (db : Db) : List ℕ :=
  (db.wheelRepodata.filter fun id _ => (db.wheels.get? id).any fun row => row.state ≠ .ready).keys

/-- `_need_convert_without_blob_query`: invariant 2. -/
def needConvertWithoutBlobQuery (db : Db) : List ℕ :=
  wheelsWhere (fun w => w.row.state = .needConvert ∧
    w.row.blobSha256.all fun sha256 => db.blobs.get? sha256 = none) db

/-- `_need_metadata_with_blob_query`: invariant 3. -/
def needMetadataWithBlobQuery : Db → List ℕ :=
  wheelsWhere fun w => w.row.state = .needMetadata ∧ w.row.blobSha256 ≠ none

/-- `_skipped_without_skips_row_query`: invariant 5. -/
def skippedWithoutSkipsRowQuery : Db → List ℕ :=
  wheelsWhere fun w => w.row.state = .skipped ∧ ∀ stage, w.skips stage = none

/-- `_permanent_skip_with_reroll_version_query`: invariant 9. -/
def permanentSkipWithRerollVersionQuery (db : Db) : List ℕ :=
  (db.skips.filter fun _ row => row.permanent ∧ row.rerollVersion ≠ none).keys.map Prod.fst

/-- `_non_permanent_skip_without_reroll_version_query`: invariant 9. -/
def nonPermanentSkipWithoutRerollVersionQuery (db : Db) : List ℕ :=
  (db.skips.filter fun _ row => !row.permanent ∧ row.rerollVersion = none).keys.map Prod.fst

/-- `_stale_skip_query`: invariant 10. -/
def staleSkipQuery (db : Db) : List ℕ :=
  rowsOfWheels db.skips (fun row => row.state ≠ .skipped) db

/-- `_work_row_for_terminal_wheel_query`: invariant 11. -/
def workRowForTerminalWheelQuery (db : Db) : List ℕ :=
  rowsOfWheels db.work (fun row => row.state ∈ terminalForWork) db

/-- `_check_attempts_exceeds_max`: invariant 12a. -/
def attemptsExceedsMaxQuery (maxAttempts : ℕ) (db : Db) : List ℕ :=
  (db.work.filter fun _ row => row.attempts > maxAttempts).keys.map Prod.fst

/-- `_check_max_attempts_without_quarantine`: invariant 12b. -/
def maxAttemptsWithoutQuarantineQuery (maxAttempts : ℕ) (db : Db) : List ℕ :=
  (db.work.filter fun _ row =>
    row.attempts = maxAttempts ∧ row.quarantinedAt = none).keys.map Prod.fst

/-- `_conda_name_outside_ready_query`: invariant 19. -/
def condaNameOutsideReadyQuery : Db → List ℕ :=
  wheelsWhere fun w => w.row.condaName ≠ none ∧ w.row.state ≠ .ready

/-- `_tombstoned_with_repodata_query`: invariant 20. -/
def tombstonedWithRepodataQuery : Db → List ℕ :=
  wheelsWhere fun w => w.repodata ≠ none ∧ w.row.state = .deleted

/-! ## What a silent query says -/

theorem keys_filter_eq_nil_iff {κ ρ : Type} [DecidableEq κ] {t : Table κ ρ} {p : κ → ρ → Bool} :
    (t.filter p).keys = [] ↔ ∀ key row, t.get? key = some row → p key row = false := by
  rw [Table.keys, List.map_eq_nil_iff]
  simp only [Table.filter, List.filter_eq_nil_iff, Bool.not_eq_true, Prod.forall,
    Table.get?_eq_some_iff]

theorem wheelsWhere_eq_nil_iff {p : Wheel → Bool} {db : Db} :
    wheelsWhere p db = [] ↔ ∀ id w, db.wheel? id = some w → p w = false := by
  rw [wheelsWhere, keys_filter_eq_nil_iff]
  constructor
  · intro h id w hw
    obtain ⟨hrow, hat⟩ := Db.wheel?_eq_some_iff.mp hw
    exact hat ▸ h id w.row hrow
  · intro h id row hrow
    exact h id _ (Db.wheel?_of_get? hrow)

theorem rowsOfWheels_eq_nil_iff {ρ : Type} {t : Table (ℕ × Stage) ρ} {p : WheelRow → Bool}
    {db : Db} : rowsOfWheels t p db = [] ↔ ∀ id row, db.wheels.get? id = some row → p row = true →
      ∀ stage, t.get? (id, stage) = none := by
  rw [rowsOfWheels, List.map_eq_nil_iff, keys_filter_eq_nil_iff]
  constructor
  · intro h id row hrow hp stage
    by_contra hsome
    obtain ⟨r, hr⟩ := Option.ne_none_iff_exists'.mp hsome
    have hfalse := h (id, stage) r hr
    rw [hrow, Option.any_some, hp] at hfalse
    exact Bool.false_ne_true hfalse.symm
  · intro h key r hr
    rw [Bool.eq_false_iff]
    intro hany
    obtain ⟨row, hrow, hp⟩ := (Option.any_eq_true _ _).mp hany
    have hnone := h key.1 row hrow hp key.2
    rw [hr] at hnone
    cases hnone

end RerollSync.Fsck
