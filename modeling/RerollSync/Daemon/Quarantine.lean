import RerollSync.Daemon.Steps
import RerollSync.Daemon.Lanes

/-!
# Quarantine and claimability

A quarantine is recorded twice: in the state of the wheel, and in the `work` row
that the queues look at.  Some moves put a wheel into a queue without a look at its
`work` rows; those are the moves that let the two records disagree.
-/

namespace RerollSync.Daemon

open RerollSync.Support RerollSync.Store RerollSync.Dispatcher RerollSync.Ingest
open RerollSync.Pipeline

/-! ## The changes of a plan -/

/-- A change puts a wheel in a state to be fetched, or in none. -/
theorem state_of_diffCommon {id : ℕ} {row : WheelRow} {file : ProjectFile} {change : ChangedWheel}
    (h : diffCommon id row file = some change) :
    change.changes.state = none ∨ change.changes.state = some .needMetadata ∨
      change.changes.state = some .noMetadata := by
  unfold diffCommon at h
  by_cases hdeleted : row.deletedAt.isSome = true
  · rw [if_pos hdeleted] at h
    obtain rfl := Option.some.inj h
    by_cases hmetadata : file.hasMetadata <;> simp [restore, initialState, hmetadata]
  · rw [if_neg hdeleted] at h
    obtain ⟨-, h⟩ := Option.ite_none_left_eq_some.mp h
    obtain rfl := Option.some.inj h
    by_cases hreset : hashMismatch row file ∨ sidecarAppeared row file
    · by_cases hstate : row.state = .needMetadata <;>
        simp [diffColumns, hreset, differing, hstate]
    · simp [diffColumns, hreset, differing]

/-- A change leaves a wheel in its state, or has it wait for its metadata, or for a
sidecar. -/
theorem changed_cases {id : ℕ} {row : WheelRow} {file : ProjectFile} {change : ChangedWheel}
    (hdiff : diffCommon id row file = some change) (settings : Ingest.Settings) (m : ℕ)
    (w : Wheel) :
    (change.changes.state = none ∧
      (Move.apply m w (.changed settings change)).row.state = w.row.state) ∨
    ∃ state, (state = .needMetadata ∨ state = .noMetadata) ∧ change.changes.state = some state ∧
      (Move.apply m w (.changed settings change)).row.state = state := by
  have henters := state_apply m w (.changed settings change)
  rw [Move.enters] at henters
  rcases state_of_diffCommon hdiff with hstate | hstate | hstate
  · rw [hstate, Option.getD_none] at henters
    exact Or.inl ⟨hstate, henters⟩
  · rw [hstate, Option.getD_some] at henters
    exact Or.inr ⟨_, Or.inl rfl, hstate, henters⟩
  · rw [hstate, Option.getD_some] at henters
    exact Or.inr ⟨_, Or.inr rfl, hstate, henters⟩

/-! ## The invariant of a wheel -/

/-- The wheel is quarantined at the stage. -/
def quarantinedAt (w : Wheel) (stage : Stage) : Bool :=
  (w.work stage).any fun work => work.quarantinedAt.isSome

/-- The state of the wheel agrees with its `work` rows. -/
def QuarantineMarked (w : Wheel) : Prop :=
  (w.row.state = .quarantined → ∃ stage, quarantinedAt w stage = true) ∧
    (w.row.state = .needMetadata ∨ w.row.state = .needConvert →
      ∀ stage, quarantinedAt w stage = false)

/-- The moves that put a wheel into a queue and keep its `work` rows find none that
is quarantined. -/
def QuarantineSafe (move : Move) (w : Wheel) : Prop :=
  match move with
  | .archived _ _ => quarantinedAt w .convert = false
  | .changed _ change =>
      change.changes.state = some .needMetadata → ∀ stage, quarantinedAt w stage = false
  | .recovered => ∀ stage, quarantinedAt w stage = false
  | _ => True

instance (move : Move) (w : Wheel) : Decidable (QuarantineSafe move w) := by
  unfold QuarantineSafe
  split <;> infer_instance

theorem keeping_quarantineMarked : Keeping QuarantineMarked QuarantineSafe where
  born row hrow := by
    obtain ⟨plan, settings, m, file, unlinked, rfl⟩ := hrow
    refine ⟨fun hquarantined => ?_, fun _ _ => rfl⟩
    cases unlinked <;> by_cases hmetadata : file.hasMetadata <;>
      simp [newWheelRow, planNewWheel, initialState, hmetadata] at hquarantined
  iff_safe move m w hreal hw := by
    cases move with
    | archived clock sha256 =>
        have hfetch : quarantinedAt (Move.apply m w (.archived clock sha256)) .fetch = false := rfl
        have hconvert : quarantinedAt (Move.apply m w (.archived clock sha256)) .convert =
            quarantinedAt w .convert := rfl
        refine ⟨fun h => hconvert.symm.trans (h.2 (Or.inr rfl) .convert), fun h =>
          ⟨fun hstate => ?_, fun _ stage => ?_⟩⟩
        · cases hstate
        · cases stage with
          | fetch => exact hfetch
          | convert => exact hconvert.trans h
    | converted clock repodata condaName =>
        simp [QuarantineMarked, QuarantineSafe, Move.apply, enterState]
    | skipped clock outcome =>
        simp [QuarantineMarked, QuarantineSafe, Move.apply, enterState]
    | quarantined clock stage outcome =>
        simp only [QuarantineMarked, QuarantineSafe, Move.apply, enterState, iff_true]
        refine ⟨fun _ => ⟨stage, ?_⟩, by simp⟩
        simp [quarantinedAt]
    | deferred clock stage outcome =>
        have hsame : ∀ stage',
            quarantinedAt (Move.apply m w (.deferred clock stage outcome)) stage' =
            quarantinedAt w stage' := by
          intro stage'
          by_cases hstage : stage' = stage
          · subst hstage
            cases hwork : w.work stage' <;> simp [quarantinedAt, Move.apply, hwork]
          · simp [quarantinedAt, Move.apply, hstage]
        have hstate :
            (Move.apply m w (.deferred clock stage outcome)).row.state = w.row.state := rfl
        simp only [QuarantineSafe, iff_true]
        simpa only [QuarantineMarked, hsame, hstate] using hw
    | changed settings change =>
        obtain ⟨row, file, hdiff⟩ := hreal
        have hsame : ∀ stage, quarantinedAt (Move.apply m w (.changed settings change)) stage =
            quarantinedAt w stage := fun _ => rfl
        rcases changed_cases hdiff settings m w with
          ⟨hnone, hstate⟩ | ⟨_, rfl | rfl, hsome, hstate⟩
        · simp only [QuarantineSafe, hnone, reduceCtorEq, false_imp_iff, iff_true]
          simpa only [QuarantineMarked, hsame, hstate] using hw
        · simp only [QuarantineSafe, hsome, true_imp_iff, QuarantineMarked, hsame, hstate]
          simp
        · simp only [QuarantineSafe, hsome, QuarantineMarked, hsame, hstate]
          simp
    | tombstoned nowIso =>
        simp [QuarantineMarked, QuarantineSafe, Move.apply, Ingest.tombstoned]
    | reprocessed selector nowIso =>
        simp [QuarantineMarked, QuarantineSafe, Move.apply, reprocessedRow, quarantinedAt]
    | unquarantined nowIso =>
        simp only [QuarantineMarked, QuarantineSafe, Move.apply, quarantinedAt, Option.any_none,
          implies_true, and_true, iff_true]
        by_cases hstate : w.row.state = .quarantined <;> simp [hstate, enterState]
    | recovered =>
        simp [QuarantineMarked, QuarantineSafe, quarantinedAt, Move.apply, Fetch.recoveredRow]

/-! ## What the queues see -/

/-- A claim from the front of the queue that takes all of it returns the wheel. -/
def Claimable (stage : Stage) (nowIso : String) (s : State) (id : ℕ) : Prop :=
  ∃ item ∈ (claim stage s.db.wheels.rows.length nowIso s.db
    { s.queues with cursors := fun _ => none }).1, item.id = id

/-- Quarantine and claimability agree: a quarantined wheel has a quarantined `work`
row, a wheel in a queue has none, and it can be claimed once its backoff is over. -/
structure QuarantineAgrees (s : State) : Prop where
  quarantined : ∀ id row, s.db.wheels.get? id = some row → row.state = .quarantined →
    ∃ stage work, s.db.work.get? (id, stage) = some work ∧ work.quarantinedAt ≠ none
  queued : ∀ id row queue, s.db.wheels.get? id = some row → row.state = queueState queue →
    ∀ stage work, s.db.work.get? (id, stage) = some work → work.quarantinedAt = none
  claimable : ∀ id row stage nowIso, s.db.wheels.get? id = some row →
    row.state = queueState stage → id ∉ s.queues.inFlight stage →
    (∀ work, s.db.work.get? (id, stage) = some work → ¬nowIso < work.nextAttemptAt) →
    Claimable stage nowIso s id

theorem claimable_of_eligible {stage : Stage} {nowIso : String} {s : State} {id : ℕ}
    {row : WheelRow} (hrow : s.db.wheels.get? id = some row)
    (heligible : eligible stage nowIso s.db s.queues id row = true) :
    Claimable stage nowIso s id := by
  have hmem : (id, row) ∈ page stage s.db.wheels.rows.length nowIso s.db
      { s.queues with cursors := fun _ => none } := by
    rw [page, List.take_of_length_le]
    · exact (List.mem_insertionSort queueLe).mpr (mem_claimable.mpr ⟨hrow, heligible, rfl⟩)
    · rw [List.length_insertionSort]
      exact List.length_filter_le _ _
  rw [Claimable, claim_eq]
  exact ⟨_, List.mem_map.mpr ⟨_, hmem, rfl⟩, rfl⟩

theorem queueState_cases (stage : Stage) :
    queueState stage = .needMetadata ∨ queueState stage = .needConvert := by
  cases stage
  · exact Or.inl rfl
  · exact Or.inr rfl

theorem quarantinedAt_wheelAt {db : Db} {id : ℕ} {row : WheelRow} {stage : Stage} :
    quarantinedAt (db.wheelAt id row) stage = true ↔
      ∃ work, db.work.get? (id, stage) = some work ∧ work.quarantinedAt ≠ none := by
  cases hwork : db.work.get? (id, stage) <;>
    simp [quarantinedAt, Db.wheelAt, hwork, Option.isSome_iff_ne_none]

/-- The agreement is a property of the wheels one by one. -/
theorem quarantineAgrees_iff {s : State} :
    QuarantineAgrees s ↔ AllWheels QuarantineMarked s.db := by
  constructor
  · intro h id w hw
    obtain ⟨hrow, hat⟩ := Db.wheel?_eq_some_iff.mp hw
    rw [hat]
    refine ⟨fun hstate => ?_, fun hstate stage => ?_⟩
    · obtain ⟨stage, work, hwork⟩ := h.quarantined id w.row hrow hstate
      exact ⟨stage, quarantinedAt_wheelAt.mpr ⟨work, hwork⟩⟩
    · rw [Bool.eq_false_iff]
      intro hmarked
      obtain ⟨work, hwork, hquarantined⟩ := quarantinedAt_wheelAt.mp hmarked
      rcases hstate with hstate | hstate
      · exact hquarantined (h.queued id w.row .fetch hrow hstate stage work hwork)
      · exact hquarantined (h.queued id w.row .convert hrow hstate stage work hwork)
  · intro h
    have hqueued : ∀ id row queue, s.db.wheels.get? id = some row → row.state = queueState queue →
        ∀ stage work, s.db.work.get? (id, stage) = some work → work.quarantinedAt = none := by
      intro id row queue hrow hstate stage work hwork
      by_contra hquarantined
      have hfalse := (h id _ (Db.wheel?_of_get? hrow)).2 (hstate ▸ queueState_cases queue) stage
      exact Bool.eq_false_iff.mp hfalse (quarantinedAt_wheelAt.mpr ⟨work, hwork, hquarantined⟩)
    refine ⟨fun id row hrow hstate => ?_, hqueued,
      fun id row stage nowIso hrow hstate hflight hpast => claimable_of_eligible hrow ?_⟩
    · obtain ⟨stage, hmarked⟩ := (h id _ (Db.wheel?_of_get? hrow)).1 hstate
      obtain ⟨work, hwork⟩ := quarantinedAt_wheelAt.mp hmarked
      exact ⟨stage, work, hwork⟩
    · rw [eligible, decide_eq_true_eq]
      refine ⟨hstate, ?_, hflight⟩
      cases hwork : s.db.work.get? (id, stage) with
      | none => simp
      | some work =>
          have hnone := hqueued id row stage hrow hstate stage work hwork
          simp [deferring, hnone, hpast work hwork]

variable {M : Type} {env : Env M}

/-- Quarantine and claimability agree throughout a run exactly when no sync, no
recovery and no fetched wheel enters a queue over a quarantined `work` row. -/
theorem quarantineAgrees_throughout_iff {t : State} {l : List Event}
    (hrun : (machine env).run start l = some t) :
    (machine env).Always QuarantineAgrees start l ↔
      (machine env).Along (Guarded env QuarantineSafe) start l := by
  rw [← always_iff_guarded keeping_quarantineMarked hrun]
  simp only [Machine.Always, quarantineAgrees_iff]

/-- A wheel is claimed and fails as often as it takes to be quarantined. -/
def quarantineEvents (stage : Stage) : List Event :=
  (List.replicate 6 [.pipeline (.claim stage 2 "t3"),
    .pipeline (.apply 0 (.retry ⟨"transient", "timeout"⟩) exampleClock)]).flatten

/-- A wheel is quarantined and released by an operator. -/
def releasedRun : List Event :=
  syncEvents ["a.whl"] ++ quarantineEvents .fetch ++
    [.pipeline (.selectQuarantined none 500), .pipeline (.applyUnquarantine 0 "t4")]

theorem quarantineAgrees_released :
    (machine exampleEnv).Always QuarantineAgrees start releasedRun := by
  obtain ⟨t, ht⟩ : ∃ t, (machine exampleEnv).run start releasedRun = some t :=
    Option.isSome_iff_exists.mp (by decide)
  exact (quarantineAgrees_throughout_iff ht).mpr (by decide)

/-- A wheel is quarantined, its file leaves the index and comes back. -/
def restoredRun : List Event :=
  syncEvents ["a.whl"] ++ quarantineEvents .fetch ++ syncEvents [] ++ syncEvents ["a.whl"]

/-- The restored wheel waits in the fetch queue, and no claim will ever return it. -/
theorem restored_wheel_unclaimable :
    ∃ t, (machine exampleEnv).run start restoredRun = some t ∧ ¬QuarantineAgrees t := by
  have hrun : ((machine exampleEnv).run start restoredRun).map (fun t =>
      ((t.db.wheels.get? 1).map WheelRow.state,
        (t.db.work.get? (1, .fetch)).map WorkRow.quarantinedAt)) =
      some (some .needMetadata, some (some "t1")) := by
    decide
  obtain ⟨t, ht, hpair⟩ := Option.map_eq_some_iff.mp hrun
  obtain ⟨row, hrow, hstate⟩ := Option.map_eq_some_iff.mp (Prod.mk.inj hpair).1
  obtain ⟨work, hwork, hquarantined⟩ := Option.map_eq_some_iff.mp (Prod.mk.inj hpair).2
  refine ⟨t, ht, fun hagrees => ?_⟩
  have hnone := hagrees.queued 1 row .fetch hrow hstate .fetch work hwork
  simp [hquarantined] at hnone

end RerollSync.Daemon
