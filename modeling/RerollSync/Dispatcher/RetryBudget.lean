import RerollSync.Support.Machine
import RerollSync.Dispatcher.Effects
import RerollSync.Pipeline.Machine
import RerollSync.Fsck

/-!
# The retry budget of the dispatcher and of fsck

A `Retry` quarantines its wheel when the attempts exceed `max_attempts`, so a wheel
reaches `max_attempts` without being quarantined, and has one attempt more when it is.
Both are violations of invariant 12: fsck is silent on a database until the first wheel
spends its budget.
-/

namespace RerollSync.Dispatcher

open RerollSync.Store RerollSync.Support RerollSync.Fsck

/-! ## Operations -/

/-- What a dispatcher does to the wheels: `apply_outcome` for any outcome but a rate limit,
and the chunks of a campaign and of `unquarantine`. -/
inductive Operation
  | outcome (clock : Clock) (stage : Stage) (item : QueueItem) (outcome : Outcome)
  | reprocess (chunkIds : List ℕ) (selector : Selector) (nowIso : String)
  | unquarantine (chunkIds : List ℕ) (nowIso : String)

/-- The database and the writer's counter. -/
structure Ledger where
  db : Db
  changeSeq : ℕ

/-- Run an op; one that raises leaves no trace. -/
def Ledger.commit {α : Type} (op : Op α) (s : Ledger) : Ledger :=
  let r := op.runAtomic s.db s.changeSeq
  ⟨r.db, r.counter⟩

/-- The operations of a dispatcher, on wheels that exist.  An op that cannot be built is
not submitted. -/
def operations (settings : Settings) : Machine Ledger Operation where
  step s
    | .outcome clock stage item outcome =>
        if s.db.hasWheel item.id then
          match buildWriteOp settings clock stage item outcome with
          | .error _ => some s
          | .ok op => some (s.commit op)
        else none
    | .reprocess chunkIds selector nowIso =>
        some (s.commit (reprocessChunkApply chunkIds selector nowIso))
    | .unquarantine chunkIds nowIso => some (s.commit (unquarantineChunkApply chunkIds nowIso))

/-- fsck reports neither 12a nor 12b. -/
def WithinBudget (maxAttempts : ℕ) (db : Db) : Prop :=
  attemptsExceedsMaxQuery maxAttempts db = [] ∧
    maxAttemptsWithoutQuarantineQuery maxAttempts db = []

/-- A `Retry` over the budget raises, and one that reaches it finds the wheel quarantined
already. -/
def LeavesBudget (settings : Settings) (s : Ledger) : Operation → Prop
  | .outcome _ stage item (.retry _) =>
      (settings.maxAttempts < attemptsOf item.id stage s.db + 1 →
        .quarantined ∉ allowedTransitions item.state) ∧
      (attemptsOf item.id stage s.db + 1 = settings.maxAttempts →
        (s.db.work.get? (item.id, stage)).bind WorkRow.quarantinedAt ≠ none)
  | _ => True

instance decidableLeavesBudget (settings : Settings) (s : Ledger) :
    ∀ a, Decidable (LeavesBudget settings s a)
  | .outcome _ _ _ (.retry _) => inferInstanceAs (Decidable (_ ∧ _))
  | .outcome _ _ _ (.ok _) | .outcome _ _ _ (.skip _) | .reprocess _ _ _ | .unquarantine _ _ =>
      inferInstanceAs (Decidable True)

/-! ## The work table after an operation -/

/-- What fsck accepts of a row. -/
def RowWithinBudget (maxAttempts : ℕ) (row : WorkRow) : Prop :=
  row.attempts ≤ maxAttempts ∧ (row.attempts = maxAttempts → row.quarantinedAt ≠ none)

theorem withinBudget_iff {maxAttempts : ℕ} {db : Db} : WithinBudget maxAttempts db ↔
    ∀ key row, db.work.get? key = some row → RowWithinBudget maxAttempts row := by
  rw [WithinBudget, attemptsExceedsMaxQuery, maxAttemptsWithoutQuarantineQuery,
    List.map_eq_nil_iff, List.map_eq_nil_iff, keys_filter_eq_nil_iff, keys_filter_eq_nil_iff]
  simp only [decide_eq_false_iff_not, not_and, not_lt, gt_iff_lt]
  exact ⟨fun h key row hrow => ⟨h.1 key row hrow, h.2 key row hrow⟩,
    fun h => ⟨fun key row hrow => (h key row hrow).1, fun key row hrow => (h key row hrow).2⟩⟩

theorem WithinBudget.filter {maxAttempts : ℕ} {db db' : Db} {p : ℕ × Stage → WorkRow → Bool}
    (h : WithinBudget maxAttempts db) (hwork : db'.work = db.work.filter p) :
    WithinBudget maxAttempts db' := by
  rw [withinBudget_iff] at h ⊢
  intro key row hrow
  rw [hwork, Table.get?_filter] at hrow
  exact h key row (Option.filter_eq_some_iff.mp hrow).1

/-- A row that is written is the only new one. -/
theorem withinBudget_set_iff {maxAttempts : ℕ} {db db' : Db} {key : ℕ × Stage} {row : WorkRow}
    (h : WithinBudget maxAttempts db) (hwork : db'.work = db.work.set key row) :
    WithinBudget maxAttempts db' ↔ RowWithinBudget maxAttempts row := by
  rw [withinBudget_iff] at h ⊢
  rw [hwork]
  constructor
  · intro h'
    exact h' key row (by rw [Table.get?_set, if_pos rfl])
  · intro hrow key' row' hrow'
    rw [Table.get?_set] at hrow'
    split at hrow'
    · obtain rfl := Option.some_inj.mp hrow'
      exact hrow
    · exact h key' row' hrow'

section Retry

variable {settings : Settings} {clock : Clock} {stage : Stage} {item : QueueItem}

/-- A `Retry` writes the row of its wheel with the attempts it has counted. -/
theorem withinBudget_retryApply_iff {s : Ledger} (outcome : Retry)
    (h : WithinBudget settings.maxAttempts s.db) (hwheel : s.db.hasWheel item.id = true) :
    WithinBudget settings.maxAttempts
        ((retryApply settings clock stage item outcome).runAtomic s.db s.changeSeq).db ↔
      LeavesBudget settings s (.outcome clock stage item (.retry outcome)) := by
  rw [LeavesBudget]
  by_cases hattempts : settings.maxAttempts < attemptsOf item.id stage s.db + 1
  · by_cases hallowed : .quarantined ∈ allowedTransitions item.state
    · rw [runAtomic_retryApply_of_quarantine _ outcome hwheel hattempts hallowed,
        withinBudget_set_iff h rfl]
      exact iff_of_false (fun hrow => absurd hrow.1 (Nat.not_le_of_lt hattempts))
        fun hleaves => hleaves.1 hattempts hallowed
    · rw [runAtomic_retryApply_of_illegal _ outcome hattempts hallowed]
      exact iff_of_true h ⟨fun _ => hallowed, fun heq => absurd heq (Nat.ne_of_gt hattempts)⟩
  · rw [runAtomic_retryApply_of_defer _ outcome hwheel hattempts, withinBudget_set_iff h rfl]
    exact and_congr_left' (iff_of_true (Nat.le_of_not_lt hattempts) fun h => absurd h hattempts)

/-- Any other outcome only deletes work rows. -/
theorem withinBudget_outcome_iff {s : Ledger} {outcome : Outcome} {op : Op Unit}
    (hbuild : buildWriteOp settings clock stage item outcome = .ok op)
    (h : WithinBudget settings.maxAttempts s.db) (hwheel : s.db.hasWheel item.id = true) :
    WithinBudget settings.maxAttempts (s.commit op).db ↔
      LeavesBudget settings s (.outcome clock stage item outcome) := by
  cases outcome with
  | ok outcome =>
      obtain ⟨-, rfl⟩ := map_validateTransition_eq_ok.mp hbuild
      rw [Ledger.commit, runAtomic_okApply _ outcome hwheel]
      refine iff_of_true (h.filter (p := fun key _ => !ownWork stage item key.1 key.2) ?_) trivial
      rcases outcome with ⟨nextState, blobSha256 | ⟨converted, rerollVersion⟩⟩
      · rfl
      · rfl
  | skip outcome =>
      obtain ⟨-, rfl⟩ := map_validateTransition_eq_ok.mp hbuild
      rw [Ledger.commit, runAtomic_skipApply _ outcome hwheel]
      exact iff_of_true (h.filter (p := fun key _ => !ownWork stage item key.1 key.2) rfl) trivial
  | retry outcome =>
      obtain rfl : (do
        let _ ← retryApply settings clock stage item outcome
        pure () : Op Unit) = op := by simpa [buildWriteOp] using hbuild
      rw [Ledger.commit, Program.db_runAtomic_bind_pure]
      exact withinBudget_retryApply_iff outcome h hwheel

end Retry

/-! ## Runs -/

theorem withinBudget_step_iff {settings : Settings} {s s' : Ledger} {a : Operation}
    (h : WithinBudget settings.maxAttempts s.db)
    (hstep : (operations settings).step s a = some s') :
    WithinBudget settings.maxAttempts s'.db ↔ LeavesBudget settings s a := by
  cases a with
  | outcome clock stage item outcome =>
      simp only [operations] at hstep
      split at hstep
      · next hwheel =>
          cases hbuild : buildWriteOp settings clock stage item outcome with
          | error e =>
              simp only [hbuild, Option.some.injEq] at hstep
              subst hstep
              -- a `Retry` is always built
              cases outcome with
              | retry outcome => cases hbuild
              | _ => exact iff_of_true h trivial
          | ok op =>
              simp only [hbuild, Option.some.injEq] at hstep
              subst hstep
              exact withinBudget_outcome_iff hbuild h hwheel
      · cases hstep
  | reprocess chunkIds selector nowIso =>
      obtain ⟨wheels, affected, hrun, -⟩ :=
        runAtomic_reprocessChunkApply chunkIds nowIso selector s.db s.changeSeq
      obtain rfl := Option.some_inj.mp hstep
      rw [Ledger.commit, hrun]
      exact iff_of_true (h.filter (p := fun key _ => !decide (key.1 ∈ chunkIds)) rfl) trivial
  | unquarantine chunkIds nowIso =>
      obtain ⟨wheels, affected, hrun, -⟩ :=
        runAtomic_unquarantineChunkApply chunkIds nowIso s.db s.changeSeq
      obtain rfl := Option.some_inj.mp hstep
      rw [Ledger.commit, hrun]
      exact iff_of_true (h.filter (p := fun key _ => !decide (key.1 ∈ chunkIds)) rfl) trivial

/-- From a database on which fsck is silent, it stays silent exactly as long as every
`Retry` stays below the budget. -/
theorem withinBudget_throughout_iff {settings : Settings} {s t : Ledger} {l : List Operation}
    (hclean : WithinBudget settings.maxAttempts s.db)
    (hrun : (operations settings).run s l = some t) :
    (operations settings).Always (fun s => WithinBudget settings.maxAttempts s.db) s l ↔
      (operations settings).Along (LeavesBudget settings) s l :=
  Machine.always_iff_along (Q := fun _ => True) (fun _ _ _ _ _ => trivial)
    (fun _ _ _ _ h hstep => withinBudget_step_iff h hstep) trivial hclean hrun

def exampleSettings : Settings := ⟨"1.0.0", 8, fun _ => []⟩

/-- The metadata of wheel 1 cannot be fetched. -/
def failedFetch : Operation :=
  .outcome Pipeline.exampleClock .fetch ⟨1, "p", 0, .needMetadata⟩ (.retry ⟨"transient", "timeout"⟩)

theorem withinBudget_exampleDb : WithinBudget 8 Pipeline.exampleDb := by
  refine ⟨?_, ?_⟩ <;> decide

/-- Seven failures leave the wheel below the budget. -/
theorem withinBudget_sevenFailures :
    (operations exampleSettings).Always (fun s => WithinBudget 8 s.db) ⟨Pipeline.exampleDb, 1⟩
      (List.replicate 7 failedFetch) := by
  obtain ⟨t, hrun⟩ := Option.isSome_iff_exists.mp (by decide :
    ((operations exampleSettings).run ⟨Pipeline.exampleDb, 1⟩
      (List.replicate 7 failedFetch)).isSome = true)
  exact (withinBudget_throughout_iff withinBudget_exampleDb hrun).mpr (by decide)

/-- The eighth failure leaves the wheel in the queue with 8 attempts, and the ninth
quarantines it with 9. -/
theorem fsck_reports_spent_budget :
    ((operations exampleSettings).run ⟨Pipeline.exampleDb, 1⟩ (List.replicate 8 failedFetch)).any
      (fun t => maxAttemptsWithoutQuarantineQuery 8 t.db = [1]) = true ∧
    ((operations exampleSettings).run ⟨Pipeline.exampleDb, 1⟩ (List.replicate 9 failedFetch)).any
      (fun t => attemptsExceedsMaxQuery 8 t.db = [1] ∧
        (t.db.wheels.get? 1).map WheelRow.state = some .quarantined) = true ∧
    ¬(operations exampleSettings).Always (fun s => WithinBudget 8 s.db) ⟨Pipeline.exampleDb, 1⟩
      (List.replicate 8 failedFetch) := by
  have hreports : ((operations exampleSettings).run ⟨Pipeline.exampleDb, 1⟩
      (List.replicate 8 failedFetch)).any
      (fun t => maxAttemptsWithoutQuarantineQuery 8 t.db = [1]) = true := by decide
  refine ⟨hreports, by decide, fun halways => ?_⟩
  obtain ⟨t, hrun, hreport⟩ := (Option.any_eq_true _ _).mp hreports
  have hsilent := (halways _ t List.prefix_rfl hrun).2
  rw [of_decide_eq_true hreport] at hsilent
  exact List.cons_ne_nil _ _ hsilent

end RerollSync.Dispatcher
