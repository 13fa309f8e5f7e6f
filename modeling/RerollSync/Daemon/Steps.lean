import RerollSync.Daemon.Moves

/-!
# The wheels through a run of the daemon

Every step of the daemon moves the wheels as its event says.  An invariant of
single wheels is checked move by move, and `always_iff_guarded` makes of that a
statement about runs: the invariant holds throughout a run exactly when no step
of it makes a move that breaks the invariant.
-/

namespace RerollSync.Daemon

open RerollSync.Support RerollSync.Store RerollSync.Dispatcher RerollSync.Ingest
open RerollSync.Pipeline RerollSync.Fetch

variable {M : Type} {env : Env M}

/-! ## The move an event makes -/

/-- The move of the wheel that an outcome is applied to. -/
def outcomeMove (env : Env M) (db : Db) (h : Held) (clock : Clock) : Outcome → Option Move
  | .ok ⟨_, .blobLink sha256⟩ => some (.archived clock sha256)
  | .ok ⟨_, .convertOk outcome rerollVersion⟩ =>
      some (.converted clock (repodataRow env.dispatcher outcome rerollVersion) outcome.condaName)
  | .skip outcome => if h.stage = .convert then some (.skipped clock outcome) else none
  | .retry outcome =>
      if quarantines env.dispatcher h.stage h.item db then
        some (.quarantined clock h.stage outcome)
      else some (.deferred clock h.stage outcome)

/-- The move that an event makes of a wheel, if it makes one. -/
def moveAt (env : Env M) (s : State) : Event → ℕ → WheelRow → Option Move
  | .pipeline (.apply i outcome clock), id, _ =>
      s.held[i]?.bind fun h =>
        if id = h.item.id then outcomeMove env s.db h clock outcome else none
  | .pipeline (.applySync name nowIso), id, row =>
      (s.syncs.get? name).bind fun sync => syncMove (env.ingest nowIso) name id row sync
  | .pipeline (.applyChunk i nowIso), id, row =>
      s.chunks[i]?.bind fun chunk => chunkMove chunk.1 (.reprocessed chunk.2 nowIso) id row
  | .pipeline (.applyUnquarantine i nowIso), id, row =>
      s.unquarantines[i]?.bind fun ids => chunkMove ids (.unquarantined nowIso) id row
  | .archive i data _ clock, id, row =>
      s.held[i]?.bind fun h => only h.item.id (.archived clock (env.sha256 data)) id row
  | .recover segmentId chunkSize, id, row =>
      unlinkMove (recoveryChunks segmentId chunkSize s.db).flatten id row
  | _, _, _ => none

/-- The rows that an event inserts: those of the new wheels of a plan. -/
def bornAt (env : Env M) (s : State) : Event → WheelRow → Prop
  | .pipeline (.applySync name nowIso), row =>
      ∃ plan, s.syncs.get? name = some (.plan plan) ∧ Inserts (env.ingest nowIso) plan s.db row
  | _, _ => False

/-! ## What is under way -/

/-- A plan as `sync_project` computes it from some snapshot. -/
def Planned (name : String) (plan : ProjectPlan) : Prop :=
  ∃ page db, plan = planProject name page (readProjectWheels name db) (readUnlinkedBlobs db)

/-- What holds in every state: the work under way fits the database, every row of
the other tables belongs to a wheel, and the plans are plans. -/
structure Intact (s : State) : Prop where
  sound : Sound s
  attached : s.db.Attached
  planned : ∀ name plan, s.syncs.get? name = some (.plan plan) → Planned name plan

theorem intact_start : Intact start :=
  ⟨sound_initial _ _, Db.attached_empty, by simp [start, State.initial]⟩

/-- A step of the pipeline computes a plan, or leaves the plans it found. -/
theorem planned_step {s s' : State} {e : Pipeline.Event}
    (hs : ∀ name plan, s.syncs.get? name = some (.plan plan) → Planned name plan)
    (hstep : Pipeline.step env s e = some s') {name : String} {plan : ProjectPlan}
    (hsync : s'.syncs.get? name = some (.plan plan)) : Planned name plan := by
  cases e with
  | claim stage limit nowIso =>
      obtain rfl := Option.some.inj hstep
      exact hs name plan hsync
  | loadSidecar i =>
      obtain ⟨h, -, hrest⟩ := Option.bind_eq_some_iff.mp hstep
      obtain ⟨row, -, hrest⟩ := Option.bind_eq_some_iff.mp hrest
      obtain ⟨-, hrest⟩ := Option.ite_none_right_eq_some.mp hrest
      obtain rfl := Option.some.inj hrest
      exact hs name plan hsync
  | loadBytes i data =>
      obtain ⟨h, -, hrest⟩ := Option.bind_eq_some_iff.mp hstep
      obtain ⟨row, -, hrest⟩ := Option.bind_eq_some_iff.mp hrest
      obtain ⟨-, hrest⟩ := Option.ite_none_right_eq_some.mp hrest
      obtain rfl := Option.some.inj hrest
      exact hs name plan hsync
  | release i =>
      obtain ⟨h, -, hrest⟩ := Option.bind_eq_some_iff.mp hstep
      obtain rfl := Option.some.inj hrest
      exact hs name plan hsync
  | apply i outcome clock =>
      obtain ⟨h, -, hrest⟩ := Option.bind_eq_some_iff.mp hstep
      obtain rfl := Option.some.inj hrest
      unfold State.applyOutcome at hsync
      split at hsync <;> exact hs name plan hsync
  | archive i data clock =>
      obtain ⟨h, -, hrest⟩ := Option.bind_eq_some_iff.mp hstep
      split at hrest
      · obtain ⟨-, hrest⟩ := Option.ite_none_right_eq_some.mp hrest
        obtain rfl := Option.some.inj hrest
        unfold State.archive at hsync
        split at hsync <;> exact hs name plan hsync
      · cases hrest
  | planSync name' fetched =>
      obtain ⟨-, hrest⟩ := Option.ite_none_left_eq_some.mp hstep
      obtain rfl := Option.some.inj hrest
      have hset : ∀ sync : PendingSync, (∀ plan, sync = .plan plan → Planned name' plan) →
          (s.syncs.set name' sync).get? name = some (.plan plan) → Planned name plan := by
        intro sync hnew hget
        rcases Table.get?_set_eq_some_iff.mp hget with ⟨rfl, heq⟩ | ⟨-, hold⟩
        · exact hnew plan heq
        · exact hs name plan hold
      cases fetched with
      | page page =>
          refine hset (.plan _) (fun plan' hplan => ?_) hsync
          exact ⟨page, s.db, (PendingSync.plan.inj hplan).symm⟩
      | notFound => exact hset .gone (fun plan' hplan => PendingSync.noConfusion hplan) hsync
      | rateLimited child retryAfter => exact hs name plan hsync
      | transient message => exact hs name plan hsync
      | protocolError message => exact hs name plan hsync
  | applySync name' nowIso =>
      obtain ⟨sync, -, hrest⟩ := Option.bind_eq_some_iff.mp hstep
      obtain rfl := Option.some.inj hrest
      have hsyncs : (s.applySync env name' nowIso sync).syncs =
          s.syncs.filter fun key _ => key ≠ name' := by
        cases sync <;> rfl
      rw [hsyncs, Table.get?_filter, Option.filter_eq_some_iff] at hsync
      exact hs name plan hsync.1
  | selectChunk selector page chunkSize =>
      obtain ⟨-, hrest⟩ := Option.ite_none_right_eq_some.mp hstep
      obtain rfl := Option.some.inj hrest
      exact hs name plan hsync
  | applyChunk i nowIso =>
      obtain ⟨chunk, -, hrest⟩ := Option.bind_eq_some_iff.mp hstep
      obtain rfl := Option.some.inj hrest
      exact hs name plan hsync
  | selectQuarantined project chunkSize =>
      obtain rfl := Option.some.inj hstep
      exact hs name plan hsync
  | applyUnquarantine i nowIso =>
      obtain ⟨ids, -, hrest⟩ := Option.bind_eq_some_iff.mp hstep
      obtain rfl := Option.some.inj hrest
      exact hs name plan hsync

/-! ## Every step makes its moves -/

/-- An outcome that its stage submits moves its wheel. -/
theorem moves_applyOutcome {s : State} {i : ℕ} {h : Held} {outcome : Outcome} {clock : Clock}
    (hs : Sound s) (hheld : s.held[i]? = some h)
    (hproduced : produced env s (.apply i outcome clock) = true) :
    Moves (fun id _ => if id = h.item.id then outcomeMove env s.db h clock outcome else none) unborn
      s.db (s.applyOutcome env i h outcome clock).db := by
  have hwheel := hasWheel_of_held hs hheld
  have hstate := (hs.held h (List.mem_of_getElem? hheld)).1
  cases outcome with
  | ok ok =>
      obtain ⟨filename, data, outcome, hstage, -, -, rfl⟩ := converted_of_produced hproduced hheld
      have hallowed : WheelState.ready ∈ allowedTransitions h.item.state := by
        rw [hstate, hstage]
        decide
      simp only [State.applyOutcome, buildWriteOp, map_validateTransition_eq_ok.mpr
        ⟨hallowed, rfl⟩, State.finish, State.commit, runAtomic_okApply _ _ hwheel, hstage]
      exact moves_okEffect_convertOk outcome _ _ hwheel
  | skip skip =>
      cases hstage : h.stage with
      | fetch =>
          have hnot : WheelState.skipped ∉ allowedTransitions h.item.state := by
            rw [hstate, hstage]
            decide
          have hdb : (s.applyOutcome env i h (.skip skip) clock).db = s.db := by
            simp [State.applyOutcome, buildWriteOp, validateTransition, hnot, Except.map,
              State.finish]
          refine (Moves.of_same (congrArg Db.wheels hdb) (congrArg Db.wheelRepodata hdb)
            (congrArg Db.skips hdb) (congrArg Db.work hdb)).congr (fun id row => ?_) fun _ => id
          simp [outcomeMove, hstage]
      | convert =>
          have hallowed : WheelState.skipped ∈ allowedTransitions h.item.state := by
            rw [hstate, hstage]
            decide
          simp only [State.applyOutcome, buildWriteOp, map_validateTransition_eq_ok.mpr
            ⟨hallowed, rfl⟩, State.finish, State.commit, runAtomic_skipApply _ _ hwheel, hstage,
            outcomeMove, if_true]
          exact moves_skipEffect skip _ hwheel
  | retry retry =>
      have hallowed : WheelState.quarantined ∈ allowedTransitions h.item.state := by
        rw [hstate]
        cases h.stage <;> decide
      have hdb : (s.applyOutcome env i h (.retry retry) clock).db =
          ((retryApply env.dispatcher clock h.stage h.item retry).runAtomic s.db s.changeSeq).db :=
        Program.db_runAtomic_bind_pure _ (fun _ => ()) s.db s.changeSeq
      rw [hdb]
      by_cases hattempts : env.dispatcher.maxAttempts < attemptsOf h.item.id h.stage s.db + 1
      · rw [runAtomic_retryApply_of_quarantine _ retry hwheel hattempts hallowed]
        refine (moves_quarantineEffect retry _ hwheel).congr (fun id row => ?_) fun _ => id
        simp [only, outcomeMove, quarantines, hattempts, hallowed]
      · rw [runAtomic_retryApply_of_defer _ retry hwheel hattempts]
        refine (moves_deferEffect retry hwheel).congr (fun id row => ?_) fun _ => id
        simp [only, outcomeMove, quarantines, hattempts]

/-- The handoff of a fetched wheel moves it. -/
theorem moves_archive {s : State} {i : ℕ} {h : Held} {filename : String} {data : Bytes}
    {clock : Clock} (hs : Sound s) (hheld : s.held[i]? = some h) (hstage : h.stage = .fetch) :
    Moves (only h.item.id (.archived clock (env.sha256 data))) unborn s.db
      (s.archive env i h filename data clock).db := by
  have hwheel := hasWheel_of_held hs hheld
  have hstate := (hs.held h (List.mem_of_getElem? hheld)).1
  have hallowed : WheelState.needConvert ∈ allowedTransitions h.item.state := by
    rw [hstate, hstage]
    decide
  rw [State.db_archive]
  simp only [State.applyOutcome, State.archived, buildWriteOp, map_validateTransition_eq_ok.mpr
    ⟨hallowed, rfl⟩, State.finish, State.commit, runAtomic_okApply _ _ hwheel, hstage]
  exact moves_okEffect_blobLink _ _ hwheel

/-- A sync is applied as it was planned. -/
theorem moves_applySync {s : State} (hs : Intact s) {name : String} {sync : PendingSync}
    (hsync : s.syncs.get? name = some sync) (nowIso : String) :
    Moves (fun id row => syncMove (env.ingest nowIso) name id row sync)
      (bornAt env s (.pipeline (.applySync name nowIso))) s.db
      (s.applySync env name nowIso sync).db := by
  cases sync with
  | plan plan =>
      have hfits : PlanFits name s.db plan := hs.sound.syncs name _ hsync
      obtain ⟨page, db, rfl⟩ := hs.planned name _ hsync
      obtain ⟨db', n', result, hrun, hsynced⟩ := runAtomic_projectApply (env.ingest nowIso)
        hfits.changedOnce hfits.hasWheel s.changeSeq
      have hdb : (s.applySync env name nowIso (.plan _)).db = db' :=
        congrArg Program.Result.db hrun
      rw [hdb]
      refine (moves_of_synced hsynced hfits.changedOnce (vanished_not_changed name page db _)
        name).congr (fun _ _ => rfl) fun row hrow => ⟨_, hsync, hrow⟩
  | gone =>
      obtain ⟨wheels, n', result, hrun, hget⟩ := runAtomic_goneApply name nowIso s.db s.changeSeq
      have hdb : (s.applySync env name nowIso .gone).db =
          { s.db with
            wheels := wheels
            pypiIndex := s.db.pypiIndex.filter fun key _ => key ≠ name } :=
        congrArg Program.Result.db hrun
      have hmoves : Moves (fun id row => syncMove (env.ingest nowIso) name id row .gone) unborn s.db
          (s.applySync env name nowIso .gone).db := by
        rw [hdb]
        exact moves_of_gone hget rfl rfl rfl
      exact hmoves.congr (fun _ _ => rfl) fun _ hborn => hborn.elim

/-- A step that leaves the tables of the wheels alone. -/
theorem moves_of_quiet {s s' : State} {e : Event} (hwheels : s'.db.wheels = s.db.wheels)
    (hrepodata : s'.db.wheelRepodata = s.db.wheelRepodata) (hskips : s'.db.skips = s.db.skips)
    (hwork : s'.db.work = s.db.work) (hquiet : ∀ id row, moveAt env s e id row = none) :
    Moves (moveAt env s e) (bornAt env s e) s.db s'.db :=
  (Moves.of_same hwheels hrepodata hskips hwork).congr (fun id row => (hquiet id row).symm)
    fun _ hborn => hborn.elim

/-- Locating a blob changes `blobs` only. -/
theorem db_insertBlob {sha256 : String} {row : BlobRow} {db db' : Db}
    (h : db.insertBlob sha256 row = some db') : ∃ blobs, db' = { db with blobs := blobs } := by
  unfold Db.insertBlob at h
  split at h
  · exact ⟨db.blobs, (Option.some.inj h).symm⟩
  · obtain ⟨-, hdb⟩ := Option.ite_none_right_eq_some.mp h
    exact ⟨_, (Option.some.inj hdb).symm⟩

theorem db_insertSegment {segmentId : ℕ} {db db' : Db}
    (h : db.insertSegment segmentId = some db') :
    ∃ segments, db' = { db with segments := segments } := by
  obtain ⟨-, hdb⟩ := Option.ite_none_left_eq_some.mp h
  exact ⟨_, (Option.some.inj hdb).symm⟩

/-- The work under way fits a database with the same wheels. -/
theorem sound_of_wheels {s s' : State} (hs : Sound s) (hwheels : s'.db.wheels = s.db.wheels)
    (hheld : s'.held = s.held) (hsyncs : s'.syncs = s.syncs) : Sound s' := by
  have hkeeps : Keeps none s.db s'.db := fun id row hrow =>
    ⟨row, by rw [hwheels, hrow], KeepsRow.refl _ row⟩
  refine ⟨fun h hh => (hs.held h (hheld ▸ hh)).mono hkeeps, fun name sync hsync => ?_⟩
  exact (hs.syncs name sync (hsyncs ▸ hsync)).mono hkeeps (by simp)

/-- A step of the pipeline other than the handoff, unfolded. -/
theorem step_pipeline {s s' : State} {e : Pipeline.Event}
    (hstep : step env s (.pipeline e) = some s') :
    produced env s e = true ∧ Pipeline.step env s e = some s' ∧
      ∀ i data clock, e ≠ .archive i data clock := by
  have hnot : ∀ i data clock, e ≠ .archive i data clock := by
    rintro i data clock rfl
    cases hstep
  have hstages : (stages env).step s e = some s' := by
    cases e with
    | archive i data clock => exact (hnot i data clock rfl).elim
    | _ => exact hstep
  obtain ⟨hproduced, hrest⟩ := Option.ite_none_right_eq_some.mp hstages
  exact ⟨hproduced, hrest, hnot⟩

/-- The handoff, unfolded: the location is recorded, and a fetched item moves on. -/
theorem step_archive {s s' : State} {i : ℕ} {data : Bytes} {location : BlobRow} {clock : Clock}
    (hstep : step env s (.archive i data location clock) = some s') :
    ∃ db h filename, s.db.insertBlob (env.sha256 data) location = some db ∧
      s.held[i]? = some h ∧ h.stage = .fetch ∧ h.loaded.filename = some filename ∧
      s' = ({ s with db := db } : State).archive env i h filename data clock := by
  obtain ⟨db, hinsert, hrest⟩ := Option.bind_eq_some_iff.mp hstep
  obtain ⟨h, hheld, hrest⟩ := Option.bind_eq_some_iff.mp hrest
  split at hrest
  · next filename metadataSha256 hstage hloaded =>
      obtain ⟨-, hrest⟩ := Option.ite_none_right_eq_some.mp hrest
      refine ⟨db, h, filename, hinsert, hheld, hstage, ?_, (Option.some.inj hrest).symm⟩
      rw [hloaded]
      rfl
  · cases hrest

theorem moves_pipeline {s s' : State} (hs : Intact s) {e : Pipeline.Event}
    (hproduced : produced env s e = true) (hstep : Pipeline.step env s e = some s')
    (hnot : ∀ i data clock, e ≠ .archive i data clock) :
    Moves (moveAt env s (.pipeline e)) (bornAt env s (.pipeline e)) s.db s'.db := by
  cases e with
  | claim stage limit nowIso =>
      obtain rfl := Option.some.inj hstep
      exact moves_of_quiet rfl rfl rfl rfl fun _ _ => rfl
  | loadSidecar i =>
      obtain ⟨h, -, hrest⟩ := Option.bind_eq_some_iff.mp hstep
      obtain ⟨row, -, hrest⟩ := Option.bind_eq_some_iff.mp hrest
      obtain ⟨-, hrest⟩ := Option.ite_none_right_eq_some.mp hrest
      obtain rfl := Option.some.inj hrest
      exact moves_of_quiet rfl rfl rfl rfl fun _ _ => rfl
  | loadBytes i data =>
      obtain ⟨h, -, hrest⟩ := Option.bind_eq_some_iff.mp hstep
      obtain ⟨row, -, hrest⟩ := Option.bind_eq_some_iff.mp hrest
      obtain ⟨-, hrest⟩ := Option.ite_none_right_eq_some.mp hrest
      obtain rfl := Option.some.inj hrest
      exact moves_of_quiet rfl rfl rfl rfl fun _ _ => rfl
  | release i =>
      obtain ⟨h, -, hrest⟩ := Option.bind_eq_some_iff.mp hstep
      obtain rfl := Option.some.inj hrest
      exact moves_of_quiet rfl rfl rfl rfl fun _ _ => rfl
  | apply i outcome clock =>
      obtain ⟨h, hheld, hrest⟩ := Option.bind_eq_some_iff.mp hstep
      obtain rfl := Option.some.inj hrest
      refine (moves_applyOutcome hs.sound hheld hproduced).congr (fun id row => ?_) fun _ => id
      simp only [moveAt, hheld, Option.bind_some]
  | archive i data clock => exact (hnot i data clock rfl).elim
  | planSync name fetched =>
      obtain ⟨-, hrest⟩ := Option.ite_none_left_eq_some.mp hstep
      obtain rfl := Option.some.inj hrest
      have hdb : (s.planned name fetched).db = s.db := by
        unfold State.planned
        split <;> rfl
      exact moves_of_quiet (congrArg Db.wheels hdb) (congrArg Db.wheelRepodata hdb)
        (congrArg Db.skips hdb) (congrArg Db.work hdb) fun _ _ => rfl
  | applySync name nowIso =>
      obtain ⟨sync, hsync, hrest⟩ := Option.bind_eq_some_iff.mp hstep
      obtain rfl := Option.some.inj hrest
      refine (moves_applySync hs hsync nowIso).congr (fun id row => ?_) fun _ => id
      simp only [moveAt, hsync, Option.bind_some]
  | selectChunk selector page chunkSize =>
      obtain ⟨-, hrest⟩ := Option.ite_none_right_eq_some.mp hstep
      obtain rfl := Option.some.inj hrest
      exact moves_of_quiet rfl rfl rfl rfl fun _ _ => rfl
  | applyChunk i nowIso =>
      obtain ⟨⟨ids, selector⟩, hchunk, hrest⟩ := Option.bind_eq_some_iff.mp hstep
      obtain rfl := Option.some.inj hrest
      obtain ⟨wheels, affected, hrun, hget⟩ :=
        runAtomic_reprocessChunkApply ids nowIso selector s.db s.changeSeq
      simp only [State.commit, hrun]
      refine (moves_reprocessed hget).congr (fun id row => ?_) fun _ => id
      simp only [moveAt, hchunk, Option.bind_some]
  | selectQuarantined project chunkSize =>
      obtain rfl := Option.some.inj hstep
      exact moves_of_quiet rfl rfl rfl rfl fun _ _ => rfl
  | applyUnquarantine i nowIso =>
      obtain ⟨ids, hids, hrest⟩ := Option.bind_eq_some_iff.mp hstep
      obtain rfl := Option.some.inj hrest
      obtain ⟨wheels, affected, hrun, hget⟩ :=
        runAtomic_unquarantineChunkApply ids nowIso s.db s.changeSeq
      simp only [State.commit, hrun]
      refine (moves_unquarantined hget).congr (fun id row => ?_) fun _ => id
      simp only [moveAt, hids, Option.bind_some]

theorem moves_step {s s' : State} {e : Event} (hs : Intact s) (hstep : step env s e = some s') :
    Moves (moveAt env s e) (bornAt env s e) s.db s'.db := by
  cases e with
  | pipeline e =>
      obtain ⟨hproduced, hrest, hnot⟩ := step_pipeline hstep
      exact moves_pipeline hs hproduced hrest hnot
  | archive i data location clock =>
      obtain ⟨db, h, filename, hinsert, hheld, hstage, -, rfl⟩ := step_archive hstep
      obtain ⟨blobs, rfl⟩ := db_insertBlob hinsert
      have hlocated : Sound { s with db := { s.db with blobs := blobs } } :=
        sound_of_wheels hs.sound rfl rfl rfl
      have hmoves : Moves (only h.item.id (.archived clock (env.sha256 data))) unborn
          { s.db with blobs := blobs }
          (State.archive env i h filename data clock
            { s with db := { s.db with blobs := blobs } }).db :=
        moves_archive hlocated hheld hstage
      refine Moves.congr ⟨hmoves.kept, hmoves.fresh, fun id hnone h =>
        hmoves.unowned id hnone ⟨h.1, h.2, h.3⟩⟩ (fun id row => ?_) fun _ hborn => hborn.elim
      simp only [moveAt, hheld, Option.bind_some]
  | openSegment segmentId =>
      obtain ⟨db, hinsert, hrest⟩ := Option.bind_eq_some_iff.mp hstep
      obtain ⟨segments, rfl⟩ := db_insertSegment hinsert
      obtain rfl := Option.some.inj hrest
      exact moves_of_quiet rfl rfl rfl rfl fun _ _ => rfl
  | sealSegment segmentId row =>
      obtain rfl := Option.some.inj hstep
      exact moves_of_quiet rfl rfl rfl rfl fun _ _ => rfl
  | noteUnlinked filename row =>
      obtain rfl := Option.some.inj hstep
      exact moves_of_quiet rfl rfl rfl rfl fun _ _ => rfl
  | restart =>
      obtain rfl := Option.some.inj hstep
      exact moves_of_quiet rfl rfl rfl rfl fun _ _ => rfl
  | recover segmentId chunkSize =>
      obtain ⟨-, hrest⟩ := Option.ite_none_right_eq_some.mp hstep
      obtain rfl := Option.some.inj hrest
      exact (moves_of_unlinked (unlinked_recoverUnsealedSegment segmentId chunkSize s.changeSeq
        s.db)).congr (fun _ _ => rfl) fun _ hborn => hborn.elim

/-! ## What holds in every state -/

theorem sound_step {s s' : State} {e : Event} (hs : Sound s) (hstep : step env s e = some s') :
    Sound s' := by
  cases e with
  | pipeline e =>
      exact Pipeline.sound_step hs (step_pipeline hstep).2.1
  | archive i data location clock =>
      obtain ⟨db, hinsert, hrest⟩ := Option.bind_eq_some_iff.mp hstep
      obtain ⟨blobs, rfl⟩ := db_insertBlob hinsert
      have hlocated : Sound { s with db := { s.db with blobs := blobs } } :=
        sound_of_wheels hs rfl rfl rfl
      exact Pipeline.sound_step hlocated hrest
  | openSegment segmentId =>
      obtain ⟨db, hinsert, hrest⟩ := Option.bind_eq_some_iff.mp hstep
      obtain ⟨segments, rfl⟩ := db_insertSegment hinsert
      obtain rfl := Option.some.inj hrest
      exact sound_of_wheels hs rfl rfl rfl
  | sealSegment segmentId row =>
      obtain rfl := Option.some.inj hstep
      exact sound_of_wheels hs rfl rfl rfl
  | noteUnlinked filename row =>
      obtain rfl := Option.some.inj hstep
      exact sound_of_wheels hs rfl rfl rfl
  | restart =>
      obtain rfl := Option.some.inj hstep
      exact sound_initial _ _
  | recover segmentId chunkSize =>
      obtain ⟨-, hrest⟩ := Option.ite_none_right_eq_some.mp hstep
      obtain rfl := Option.some.inj hrest
      have hkeeps : Keeps none s.db
          (recoverUnsealedSegment segmentId chunkSize s.changeSeq s.db) := by
        refine keeps_of_map (f := fun _ _ => unlinkedRow
          (recoveryChunks segmentId chunkSize s.db).flatten) (fun id => ⟨0, ?_⟩) fun id m row => ?_
        · exact (unlinked_recoverUnsealedSegment segmentId chunkSize s.changeSeq s.db).wheels id
        · unfold unlinkedRow
          split
          · exact ⟨rfl, rfl, fun _ => rfl⟩
          · exact KeepsRow.refl _ row
      exact ⟨fun h hh => (hs.held h hh).mono hkeeps, fun name sync hsync =>
        (hs.syncs name sync hsync).mono hkeeps (by simp)⟩

theorem intact_step {s s' : State} {e : Event} (hs : Intact s) (hstep : step env s e = some s') :
    Intact s' := by
  refine ⟨sound_step hs.sound hstep, (moves_step hs hstep).attached hs.attached, ?_⟩
  intro name plan hsync
  cases e with
  | pipeline e =>
      exact planned_step hs.planned (step_pipeline hstep).2.1 hsync
  | archive i data location clock =>
      obtain ⟨db, -, hrest⟩ := Option.bind_eq_some_iff.mp hstep
      exact planned_step (s := { s with db := db }) hs.planned hrest hsync
  | openSegment segmentId =>
      obtain ⟨db, -, hrest⟩ := Option.bind_eq_some_iff.mp hstep
      obtain rfl := Option.some.inj hrest
      exact hs.planned name plan hsync
  | sealSegment segmentId row =>
      obtain rfl := Option.some.inj hstep
      exact hs.planned name plan hsync
  | noteUnlinked filename row =>
      obtain rfl := Option.some.inj hstep
      exact hs.planned name plan hsync
  | restart =>
      obtain rfl := Option.some.inj hstep
      simp [State.initial] at hsync
  | recover segmentId chunkSize =>
      obtain ⟨-, hrest⟩ := Option.ite_none_right_eq_some.mp hstep
      obtain rfl := Option.some.inj hrest
      exact hs.planned name plan hsync

/-! ## Invariants of single wheels -/

/-- Every wheel satisfies `P`. -/
def AllWheels (P : Wheel → Prop) (db : Db) : Prop := ∀ id w, db.wheel? id = some w → P w

/-- A step makes only moves that `safe` allows. -/
def Guarded (env : Env M) (safe : Move → Wheel → Prop) (s : State) (e : Event) : Prop :=
  ∀ id row, s.db.wheels.get? id = some row →
    ∀ move, moveAt env s e id row = some move → safe move (s.db.wheelAt id row)

instance decidableGuarded (env : Env M) (safe : Move → Wheel → Prop)
    [∀ move w, Decidable (safe move w)] (s : State) (e : Event) :
    Decidable (Guarded env safe s e) :=
  decidable_of_iff (∀ r ∈ s.db.wheels.rows,
      (moveAt env s e r.1 r.2).all (safe · (s.db.wheelAt r.1 r.2)) = true) <| by
    rw [Guarded, Table.forall_get?_iff (P := fun id row => ∀ move,
      moveAt env s e id row = some move → safe move (s.db.wheelAt id row))]
    refine forall₂_congr fun r _ => ?_
    cases moveAt env s e r.1 r.2 <;> simp

/-- A row as the ingest inserts it. -/
def NewRow (row : WheelRow) : Prop :=
  ∃ plan settings m file unlinked, row = newWheelRow plan settings m (planNewWheel file unlinked)

/-- A change that a plan can hold: the diff of some row. -/
def Move.Real : Move → Prop
  | .changed _ change => ∃ row file, diffCommon change.wheelId row file = some change
  | _ => True

theorem real_of_outcomeMove {db : Db} {h : Held} {clock : Clock} {outcome : Outcome} {move : Move}
    (hmove : outcomeMove env db h clock outcome = some move) : move.Real := by
  rcases outcome with ⟨next, sha256 | ⟨outcome, rerollVersion⟩⟩ | skip | retry
  · obtain rfl := Option.some.inj hmove
    trivial
  · obtain rfl := Option.some.inj hmove
    trivial
  · obtain ⟨-, heq⟩ := Option.ite_none_right_eq_some.mp hmove
    obtain rfl := Option.some.inj heq
    trivial
  · by_cases hquarantines : quarantines env.dispatcher h.stage h.item db
    · obtain rfl := Option.some.inj ((if_pos hquarantines).symm.trans hmove)
      trivial
    · obtain rfl := Option.some.inj ((if_neg hquarantines).symm.trans hmove)
      trivial

theorem real_of_syncMove {settings : Ingest.Settings} {name : String} {sync : PendingSync}
    (hplanned : ∀ plan, sync = .plan plan → Planned name plan) {id : ℕ} {row : WheelRow}
    {move : Move} (hmove : syncMove settings name id row sync = some move) : move.Real := by
  cases sync with
  | plan plan =>
      by_cases hid : id ∈ plan.vanishedWheelIds
      · obtain rfl := Option.some.inj ((if_pos hid).symm.trans hmove)
        trivial
      · obtain ⟨c, hc, rfl⟩ := Option.map_eq_some_iff.mp ((if_neg hid).symm.trans hmove)
        obtain ⟨page, db, rfl⟩ := hplanned plan rfl
        obtain ⟨row, file, -, -, hdiff⟩ :=
          (plannedFrom_planProject name page db _).changed c (List.mem_of_find?_eq_some hc)
        exact ⟨row, file, hdiff⟩
  | gone =>
      obtain ⟨-, heq⟩ := Option.ite_none_right_eq_some.mp hmove
      obtain rfl := Option.some.inj heq
      trivial

theorem real_of_moveAt {s : State} (hs : Intact s) {e : Event} {id : ℕ} {row : WheelRow}
    {move : Move} (h : moveAt env s e id row = some move) : move.Real := by
  cases e with
  | pipeline e =>
      cases e with
      | apply i outcome clock =>
          obtain ⟨held, -, hmove⟩ := Option.bind_eq_some_iff.mp h
          exact real_of_outcomeMove (Option.ite_none_right_eq_some.mp hmove).2
      | applySync name nowIso =>
          obtain ⟨sync, hsync, hmove⟩ := Option.bind_eq_some_iff.mp h
          exact real_of_syncMove (fun plan hplan => hs.planned name plan (hplan ▸ hsync)) hmove
      | applyChunk i nowIso =>
          obtain ⟨chunk, -, hmove⟩ := Option.bind_eq_some_iff.mp h
          obtain ⟨-, heq⟩ := Option.ite_none_right_eq_some.mp hmove
          exact Option.some.inj heq ▸ trivial
      | applyUnquarantine i nowIso =>
          obtain ⟨ids, -, hmove⟩ := Option.bind_eq_some_iff.mp h
          obtain ⟨-, heq⟩ := Option.ite_none_right_eq_some.mp hmove
          exact Option.some.inj heq ▸ trivial
      | _ => cases h
  | archive i data location clock =>
      obtain ⟨held, -, hmove⟩ := Option.bind_eq_some_iff.mp h
      obtain ⟨-, heq⟩ := Option.ite_none_right_eq_some.mp hmove
      exact Option.some.inj heq ▸ trivial
  | recover segmentId chunkSize =>
      obtain ⟨-, heq⟩ := Option.ite_none_right_eq_some.mp h
      exact Option.some.inj heq ▸ trivial
  | _ => cases h

/-- A wheel is linked to a blob by the event that has archived it, or that applies
the link, and skipped by the one that applies the skip. -/
def Move.ComesFrom (env : Env M) (s : State) (e : Event) : Move → Prop
  | .archived clock sha256 =>
      (∃ i next, e = .pipeline (.apply i (.ok ⟨next, .blobLink sha256⟩) clock)) ∨
        ∃ i data location, e = .archive i data location clock ∧ sha256 = env.sha256 data
  | .skipped clock skip => ∃ i h, e = .pipeline (.apply i (.skip skip) clock) ∧
      s.held[i]? = some h ∧ h.stage = .convert
  | _ => True

theorem comesFrom_of_moveAt {s : State} {e : Event} {id : ℕ} {row : WheelRow} {move : Move}
    (hmove : moveAt env s e id row = some move) : move.ComesFrom env s e := by
  cases e with
  | pipeline e =>
      cases e with
      | apply i outcome clock =>
          obtain ⟨h, hheld, hmove⟩ := Option.bind_eq_some_iff.mp hmove
          obtain ⟨-, hmove⟩ := Option.ite_none_right_eq_some.mp hmove
          rcases outcome with ⟨next, sha256 | ⟨outcome, rerollVersion⟩⟩ | skip | retry
          · obtain rfl := Option.some.inj hmove
            exact Or.inl ⟨i, next, rfl⟩
          · obtain rfl := Option.some.inj hmove
            trivial
          · obtain ⟨hstage, heq⟩ := Option.ite_none_right_eq_some.mp hmove
            obtain rfl := Option.some.inj heq
            exact ⟨i, h, rfl, hheld, hstage⟩
          · by_cases hquarantines : quarantines env.dispatcher h.stage h.item s.db
            · obtain rfl := Option.some.inj ((if_pos hquarantines).symm.trans hmove)
              trivial
            · obtain rfl := Option.some.inj ((if_neg hquarantines).symm.trans hmove)
              trivial
      | applySync name nowIso =>
          obtain ⟨sync, -, hmove⟩ := Option.bind_eq_some_iff.mp hmove
          cases sync with
          | plan plan =>
              by_cases hid : id ∈ plan.vanishedWheelIds
              · obtain rfl := Option.some.inj ((if_pos hid).symm.trans hmove)
                trivial
              · obtain ⟨c, -, rfl⟩ := Option.map_eq_some_iff.mp ((if_neg hid).symm.trans hmove)
                trivial
          | gone =>
              obtain ⟨-, heq⟩ := Option.ite_none_right_eq_some.mp hmove
              exact Option.some.inj heq ▸ trivial
      | applyChunk i nowIso =>
          obtain ⟨chunk, -, hmove⟩ := Option.bind_eq_some_iff.mp hmove
          obtain ⟨-, heq⟩ := Option.ite_none_right_eq_some.mp hmove
          exact Option.some.inj heq ▸ trivial
      | applyUnquarantine i nowIso =>
          obtain ⟨ids, -, hmove⟩ := Option.bind_eq_some_iff.mp hmove
          obtain ⟨-, heq⟩ := Option.ite_none_right_eq_some.mp hmove
          exact Option.some.inj heq ▸ trivial
      | _ => cases hmove
  | archive i data location clock =>
      obtain ⟨h, -, hmove⟩ := Option.bind_eq_some_iff.mp hmove
      obtain ⟨-, heq⟩ := Option.ite_none_right_eq_some.mp hmove
      obtain rfl := Option.some.inj heq
      exact Or.inr ⟨i, data, location, rfl, rfl⟩
  | recover segmentId chunkSize =>
      obtain ⟨-, heq⟩ := Option.ite_none_right_eq_some.mp hmove
      exact Option.some.inj heq ▸ trivial
  | _ => cases hmove

theorem newRow_of_bornAt {s : State} (hs : Intact s) {e : Event} {row : WheelRow}
    (h : bornAt env s e row) : NewRow row := by
  cases e with
  | pipeline e =>
      cases e with
      | applySync name nowIso =>
          obtain ⟨plan, hsync, w, hw, -, m, rfl⟩ := h
          obtain ⟨page, db, rfl⟩ := hs.planned name plan hsync
          obtain ⟨file, unlinked, rfl⟩ := (plannedFrom_planProject name page db _).new w hw
          exact ⟨_, _, m, file, unlinked, rfl⟩
      | _ => exact h.elim
  | _ => exact h.elim

/-- An invariant of single wheels, with the moves that keep it. -/
structure Keeping (P : Wheel → Prop) (safe : Move → Wheel → Prop) : Prop where
  born : ∀ row, NewRow row → P ⟨row, none, fun _ => none, fun _ => none⟩
  iff_safe : ∀ move m w, move.Real → P w → (P (move.apply m w) ↔ safe move w)

variable {P : Wheel → Prop} {safe : Move → Wheel → Prop}

theorem allWheels_step_iff (hkeeping : Keeping P safe) {s s' : State} {e : Event} (hs : Intact s)
    (hP : AllWheels P s.db) (hstep : step env s e = some s') :
    AllWheels P s'.db ↔ Guarded env safe s e := by
  have hmoves := moves_step hs hstep
  constructor
  · intro hP' id row hrow move hmove
    obtain ⟨m, hwheel⟩ := hmoves.kept id row hrow
    rw [hmove] at hwheel
    exact (hkeeping.iff_safe move m _ (real_of_moveAt hs hmove)
      (hP id _ (Db.wheel?_of_get? hrow))).mp (hP' id _ hwheel)
  · intro hguarded id w hw
    cases hrow : s.db.wheels.get? id with
    | none =>
        obtain ⟨hget, hat⟩ := Db.wheel?_eq_some_iff.mp hw
        rw [hat, (hmoves.unowned id hrow (hs.attached id hrow)).wheelAt]
        exact hkeeping.born w.row (newRow_of_bornAt hs (hmoves.fresh id w.row hrow hget))
    | some row =>
        obtain ⟨m, hwheel⟩ := hmoves.kept id row hrow
        have hbefore := hP id _ (Db.wheel?_of_get? hrow)
        obtain rfl : moved m (s.db.wheelAt id row) (moveAt env s e id row) = w := by
          simpa [hwheel] using hw
        cases hmove : moveAt env s e id row with
        | none => exact hbefore
        | some move =>
            exact (hkeeping.iff_safe move m _ (real_of_moveAt hs hmove) hbefore).mpr
              (hguarded id row hrow move hmove)

theorem allWheels_start : AllWheels P start.db := fun _ _ h => by cases h

/-- An invariant of single wheels holds throughout a run exactly when every move of
the run is safe. -/
theorem always_iff_guarded (hkeeping : Keeping P safe) {t : State} {l : List Event}
    (hrun : (machine env).run start l = some t) :
    (machine env).Always (fun s => AllWheels P s.db) start l ↔
      (machine env).Along (Guarded env safe) start l :=
  Machine.always_iff_along (Q := Intact) (fun _ _ _ hs hstep => intact_step hs hstep)
    (fun _ _ _ hs hP hstep => allWheels_step_iff hkeeping hs hP hstep) intact_start allWheels_start
    hrun

end RerollSync.Daemon
