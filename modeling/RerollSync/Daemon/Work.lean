import RerollSync.Daemon.Skips

/-!
# Work rows of terminal wheels

The outcomes of a stage delete the `work` row of that stage.  Tombstones move a
wheel to a terminal state from outside, and an outcome of the other stage does
not look at the row either.
-/

namespace RerollSync.Daemon

open RerollSync.Support RerollSync.Store RerollSync.Dispatcher RerollSync.Ingest
open RerollSync.Pipeline RerollSync.Fsck

/-! ## The invariant of a wheel -/

/-- The wheel has no `work` row. -/
def Idle (w : Wheel) : Prop := ∀ stage, w.work stage = none

/-- A wheel in a terminal state has no `work` row. -/
def TerminalIdle (w : Wheel) : Prop := w.row.state ∈ terminalForWork → Idle w

/-- What takes a wheel to a terminal state finds no `work` row but the one it
deletes, and no failure is recorded for a wheel in such a state. -/
def WorkSafe (move : Move) (w : Wheel) : Prop :=
  match move with
  | .converted _ _ _ | .skipped _ _ => w.work .fetch = none
  | .deferred _ _ _ => w.row.state ∉ terminalForWork
  | .changed _ change => change.changes.state = some .noMetadata → Idle w
  | .tombstoned _ => Idle w
  | _ => True

instance (w : Wheel) : Decidable (Idle w) := by
  unfold Idle
  infer_instance

instance (move : Move) (w : Wheel) : Decidable (WorkSafe move w) :=
  match move with
  | .converted _ _ _ | .skipped _ _ => inferInstanceAs (Decidable (w.work .fetch = none))
  | .deferred _ _ _ => inferInstanceAs (Decidable (w.row.state ∉ terminalForWork))
  | .changed _ change =>
      inferInstanceAs (Decidable (change.changes.state = some .noMetadata → Idle w))
  | .tombstoned _ => inferInstanceAs (Decidable (Idle w))
  | .archived _ _ | .quarantined _ _ _ | .reprocessed _ _ | .unquarantined _ | .recovered =>
      isTrue trivial

theorem terminalIdle_of_not_mem {w : Wheel} (state : WheelState) (hstate : w.row.state = state)
    (hnot : state ∉ terminalForWork) : TerminalIdle w := fun hmem => (hnot (hstate ▸ hmem)).elim

theorem terminalIdle_iff_idle {w : Wheel} (state : WheelState) (hstate : w.row.state = state)
    (hmem : state ∈ terminalForWork) : TerminalIdle w ↔ Idle w := by
  rw [TerminalIdle, hstate]
  exact imp_iff_right hmem

/-- When the row of one stage is deleted, that of the other counts. -/
theorem idle_update_convert {row : WheelRow} {repodata : Option RepodataRow}
    {skips : Stage → Option SkipRow} {work : Stage → Option WorkRow} :
    Idle ⟨row, repodata, skips, Function.update work .convert none⟩ ↔ work .fetch = none := by
  constructor
  · intro h
    simpa using h .fetch
  · intro h stage
    cases stage
    · simpa using h
    · simp

theorem keeping_terminalIdle : Keeping TerminalIdle WorkSafe where
  born row hrow := fun _ _ => rfl
  iff_safe move m w hreal hw := by
    cases move with
    | archived clock sha256 =>
        exact iff_of_true (terminalIdle_of_not_mem .needConvert rfl (by decide)) trivial
    | converted clock repodata condaName =>
        exact (terminalIdle_iff_idle .ready rfl (by decide)).trans idle_update_convert
    | skipped clock outcome =>
        exact (terminalIdle_iff_idle .skipped rfl (by decide)).trans idle_update_convert
    | quarantined clock stage outcome =>
        exact iff_of_true (terminalIdle_of_not_mem .quarantined rfl (by decide)) trivial
    | deferred clock stage outcome =>
        constructor
        · intro h hmem
          have hsome := h hmem stage
          simp [Move.apply] at hsome
        · intro hnot
          exact terminalIdle_of_not_mem w.row.state rfl hnot
    | changed settings change =>
        obtain ⟨row, file, hdiff⟩ := hreal
        rcases changed_cases hdiff settings m w with
          ⟨hstate, hkept⟩ | ⟨_, rfl | rfl, hstate, henters⟩
        · refine iff_of_true (fun hmem => ?_) (by simp [WorkSafe, hstate])
          exact hw (hkept ▸ hmem)
        · refine iff_of_true (terminalIdle_of_not_mem _ henters (by decide)) ?_
          simp [WorkSafe, hstate]
        · rw [terminalIdle_iff_idle _ henters (by decide), WorkSafe, imp_iff_right hstate]
          exact Iff.rfl
    | tombstoned nowIso => exact terminalIdle_iff_idle .deleted rfl (by decide)
    | reprocessed selector nowIso =>
        exact iff_of_true (terminalIdle_of_not_mem .needConvert rfl (by decide)) trivial
    | unquarantined nowIso => exact iff_of_true (fun _ _ => rfl) trivial
    | recovered =>
        exact iff_of_true (terminalIdle_of_not_mem .needMetadata rfl (by decide)) trivial

/-! ## What fsck reports -/

/-- No wheel in a terminal state has a `work` row, so none has a failed attempt to
its account, and fsck reports none. -/
structure TerminalWheelsIdle (db : Db) : Prop where
  work : ∀ id row, db.wheels.get? id = some row → row.state ∈ terminalForWork →
    ∀ stage, db.work.get? (id, stage) = none
  attempts : ∀ id row, db.wheels.get? id = some row → row.state ∈ terminalForWork →
    ∀ stage, attemptsOf id stage db = 0
  fsck11 : workRowForTerminalWheelQuery db = []

theorem terminalWheelsIdle_iff {db : Db} : TerminalWheelsIdle db ↔ AllWheels TerminalIdle db := by
  constructor
  · intro h id w hw
    obtain ⟨hrow, hat⟩ := Db.wheel?_eq_some_iff.mp hw
    have hwork : w.work = fun stage => db.work.get? (id, stage) := congrArg Wheel.work hat
    rw [TerminalIdle, Idle, hwork]
    exact h.work id w.row hrow
  · intro h
    have hwheel : ∀ id row, db.wheels.get? id = some row → row.state ∈ terminalForWork →
        ∀ stage, db.work.get? (id, stage) = none :=
      fun id row hrow => h id _ (Db.wheel?_of_get? hrow)
    refine ⟨hwheel, fun id row hrow hmem stage => ?_,
      rowsOfWheels_eq_nil_iff.mpr fun id row hrow hmem => ?_⟩
    · rw [attemptsOf, hwheel id row hrow hmem stage]
      rfl
    · exact hwheel id row hrow (of_decide_eq_true hmem)

variable {M : Type} {env : Env M}

/-- No terminal wheel has a `work` row throughout a run exactly when no tombstone,
no outcome and no sync takes a wheel with one to a terminal state. -/
theorem terminalWheelsIdle_throughout_iff {t : State} {l : List Event}
    (hrun : (machine env).run start l = some t) :
    (machine env).Always (TerminalWheelsIdle ·.db) start l ↔
      (machine env).Along (Guarded env WorkSafe) start l := by
  rw [← always_iff_guarded keeping_terminalIdle hrun]
  simp only [Machine.Always, terminalWheelsIdle_iff]

/-- A wheel is claimed for fetch and fails. -/
def failedRun : List Event :=
  syncEvents ["a.whl"] ++ [.pipeline (.claim .fetch 2 "t1"),
    .pipeline (.apply 0 (.retry ⟨"transient", "timeout"⟩) exampleClock)]

/-- The failed wheel is fetched at the second attempt, converted, and its file
leaves the index. -/
def recoveredRun : List Event :=
  failedRun ++ [.openSegment 0, .pipeline (.claim .fetch 2 "t3"), .pipeline (.loadSidecar 0),
    .archive 0 [65] exampleLocation exampleClock,
    .pipeline (.apply 0 (.ok (exampleOk "a.whl")) exampleClock)] ++ syncEvents []

theorem terminalWheelsIdle_recovered :
    (machine exampleEnv).Always (TerminalWheelsIdle ·.db) start recoveredRun := by
  obtain ⟨t, ht⟩ : ∃ t, (machine exampleEnv).run start recoveredRun = some t :=
    Option.isSome_iff_exists.mp (by decide)
  exact (terminalWheelsIdle_throughout_iff ht).mpr (by decide)

/-- The file of a wheel that has failed once leaves the index. -/
theorem tombstone_keeps_work_row :
    ∃ t, (machine exampleEnv).run start (failedRun ++ syncEvents []) = some t ∧
      ¬TerminalWheelsIdle t.db := by
  have hrun : ((machine exampleEnv).run start (failedRun ++ syncEvents [])).map (fun t =>
      ((t.db.wheels.get? 1).map WheelRow.state, attemptsOf 1 .fetch t.db)) =
      some (some .deleted, 1) := by
    decide
  obtain ⟨t, ht, hpair⟩ := Option.map_eq_some_iff.mp hrun
  obtain ⟨hstate, hattempts⟩ := Prod.mk.inj hpair
  obtain ⟨row, hrow, hdeleted⟩ := Option.map_eq_some_iff.mp hstate
  refine ⟨t, ht, fun hidle => ?_⟩
  have hzero := hidle.attempts 1 row hrow (by simp [hdeleted, terminalForWork]) .fetch
  omega

end RerollSync.Daemon
