import RerollSync.Pipeline.Machine

/-!
# What a step commits

One inductive lists everything a step can do to the wheels and their repodata,
under an invariant that every step preserves: items under way name wheels that
exist, and a plan still fits the project it was computed for.
-/

namespace RerollSync.Pipeline

open RerollSync.Support RerollSync.Store RerollSync.Dispatcher RerollSync.Ingest

variable {M : Type} {env : Env M}

/-! ## Stage outcomes -/

/-- The outcome that a step submits, and for which item. -/
def Event.submits (env : Env M) : Event → Option (ℕ × Outcome × Clock)
  | .apply i outcome clock => some (i, outcome, clock)
  | .archive i data clock => some (i, State.archived env data, clock)
  | _ => none

/-- The settings of a sync's op. -/
def Env.ingest (env : Env M) (nowIso : String) : Ingest.Settings :=
  ⟨nowIso, env.dispatcher.rerollVersion, env.repr⟩

section Outcomes

variable {settings : Dispatcher.Settings} {clock : Clock} {stage : Stage} {item : QueueItem}
  {db : Db} {outcome : Outcome}

/-- An op that can be built for an outcome without a target changes no wheel. -/
theorem outcomeRow_of_target_none {op : Op Unit}
    (hbuild : buildWriteOp settings clock stage item outcome = .ok op)
    (htarget : target settings stage item db outcome = none) (seq : ℕ) (row : WheelRow) :
    outcomeRow settings clock stage item db seq row outcome = row := by
  cases outcome with
  | ok outcome =>
      obtain ⟨hmem, -⟩ := map_validateTransition_eq_ok.mp hbuild
      simp [target, hmem] at htarget
  | skip outcome =>
      obtain ⟨hmem, -⟩ := map_validateTransition_eq_ok.mp hbuild
      simp [target, hmem] at htarget
  | retry outcome =>
      have hnot : ¬quarantines settings stage item db := by simpa [target] using htarget
      simp [outcomeRow, hnot]

theorem outcomeRepodata_of_target_none {op : Op Unit}
    (hbuild : buildWriteOp settings clock stage item outcome = .ok op)
    (htarget : target settings stage item db outcome = none) :
    outcomeRepodata settings item db outcome = db.wheelRepodata := by
  cases outcome with
  | ok outcome =>
      obtain ⟨hmem, -⟩ := map_validateTransition_eq_ok.mp hbuild
      simp [target, hmem] at htarget
  | skip outcome => rfl
  | retry outcome => rfl

/-- An outcome with a target has an op. -/
theorem buildWriteOp_of_target {next : WheelState}
    (htarget : target settings stage item db outcome = some next) :
    ∃ op, buildWriteOp settings clock stage item outcome = .ok op := by
  cases outcome with
  | ok outcome =>
      obtain ⟨hmem, -⟩ := Option.ite_none_right_eq_some.mp htarget
      exact ⟨_, map_validateTransition_eq_ok.mpr ⟨hmem, rfl⟩⟩
  | skip outcome =>
      obtain ⟨hmem, -⟩ := Option.ite_none_right_eq_some.mp htarget
      exact ⟨_, map_validateTransition_eq_ok.mpr ⟨hmem, rfl⟩⟩
  | retry outcome => exact ⟨_, rfl⟩

/-- The target is reached along an edge from the claimed state. -/
theorem mem_allowedTransitions_of_target {next : WheelState}
    (htarget : target settings stage item db outcome = some next) :
    next ∈ allowedTransitions item.state := by
  cases outcome with
  | ok outcome =>
      obtain ⟨hmem, hnext⟩ := Option.ite_none_right_eq_some.mp htarget
      exact Option.some.inj hnext ▸ hmem
  | skip outcome =>
      obtain ⟨hmem, hnext⟩ := Option.ite_none_right_eq_some.mp htarget
      exact Option.some.inj hnext ▸ hmem
  | retry outcome =>
      obtain ⟨hquarantines, hnext⟩ := Option.ite_none_right_eq_some.mp htarget
      exact Option.some.inj hnext ▸ hquarantines.2

/-- An outcome moves the wheel to its target. -/
theorem outcomeRow_state {next : WheelState}
    (htarget : target settings stage item db outcome = some next) (seq : ℕ) (row : WheelRow) :
    (outcomeRow settings clock stage item db seq row outcome).state = next := by
  cases outcome with
  | ok outcome =>
      obtain ⟨-, hnext⟩ := Option.ite_none_right_eq_some.mp htarget
      rw [← Option.some.inj hnext]
      rcases outcome with ⟨nextState, blobSha256 | ⟨converted, rerollVersion⟩⟩ <;> rfl
  | skip outcome =>
      obtain ⟨-, hnext⟩ := Option.ite_none_right_eq_some.mp htarget
      exact Option.some.inj hnext
  | retry outcome =>
      obtain ⟨hquarantines, hnext⟩ := Option.ite_none_right_eq_some.mp htarget
      rw [outcomeRow, if_pos hquarantines]
      exact Option.some.inj hnext

variable (settings clock stage item db outcome) in
theorem outcomeRow_keeps (seq : ℕ) (row : WheelRow) :
    (outcomeRow settings clock stage item db seq row outcome).filename = row.filename ∧
      (outcomeRow settings clock stage item db seq row outcome).project = row.project ∧
      (outcomeRow settings clock stage item db seq row outcome).deletedAt = row.deletedAt := by
  cases outcome with
  | ok outcome =>
      rcases outcome with ⟨nextState, blobSha256 | ⟨converted, rerollVersion⟩⟩ <;>
        exact ⟨rfl, rfl, rfl⟩
  | skip outcome => exact ⟨rfl, rfl, rfl⟩
  | retry outcome =>
      by_cases h : quarantines settings stage item db <;> simp [outcomeRow, h, enterState]

end Outcomes

namespace State

/-- The handoff commits what the fetch's `Ok` commits. -/
theorem db_archive (env : Env M) (i : ℕ) (h : Held) (filename : String) (data : Bytes)
    (clock : Clock) (s : State) :
    (s.archive env i h filename data clock).db =
      (s.applyOutcome env i h (archived env data) clock).db := by
  rw [archive, applyOutcome]
  cases buildWriteOp env.dispatcher clock h.stage h.item (archived env data) <;> rfl

/-- An outcome without a target leaves the wheels and their repodata alone. -/
theorem applyOutcome_of_target_none {i : ℕ} {h : Held} {outcome : Outcome} {clock : Clock}
    {s : State} (hwheel : s.db.hasWheel h.item.id = true)
    (htarget : target env.dispatcher h.stage h.item s.db outcome = none) :
    (s.applyOutcome env i h outcome clock).db.wheels = s.db.wheels ∧
      (s.applyOutcome env i h outcome clock).db.wheelRepodata = s.db.wheelRepodata := by
  cases hbuild : buildWriteOp env.dispatcher clock h.stage h.item outcome with
  | error e => simp [applyOutcome, hbuild, finish]
  | ok op =>
      obtain ⟨hwheels, hrepodata⟩ := runAtomic_outcome s.changeSeq hbuild hwheel
      simp only [applyOutcome, hbuild, finish, commit, hwheels, hrepodata]
      refine ⟨Table.modify_eq_self fun id row => ?_, outcomeRepodata_of_target_none hbuild htarget⟩
      simp [Db.atWheel, outcomeRow_of_target_none hbuild htarget]

/-- An outcome with a target updates its wheel, and stores what it carries. -/
theorem applyOutcome_of_target {i : ℕ} {h : Held} {outcome : Outcome} {clock : Clock}
    {s : State} {next : WheelState} (hwheel : s.db.hasWheel h.item.id = true)
    (htarget : target env.dispatcher h.stage h.item s.db outcome = some next) :
    (s.applyOutcome env i h outcome clock).db.wheels = s.db.wheels.modify
        (Db.atWheel h.item.id fun row => outcomeRow env.dispatcher clock h.stage h.item s.db
          (s.changeSeq + 1) row outcome) ∧
      (s.applyOutcome env i h outcome clock).db.wheelRepodata =
        outcomeRepodata env.dispatcher h.item s.db outcome := by
  obtain ⟨op, hbuild⟩ : ∃ op, buildWriteOp env.dispatcher clock h.stage h.item outcome = .ok op :=
    buildWriteOp_of_target htarget
  obtain ⟨hwheels, hrepodata⟩ := runAtomic_outcome s.changeSeq hbuild hwheel
  simp only [applyOutcome, hbuild, finish, commit, hwheels, hrepodata, and_self]

end State

/-! ## Work under way -/

/-- The filename a worker has read for an item. -/
def Loaded.filename : Loaded → Option String
  | .nothing => none
  | .sidecar filename _ => some filename
  | .bytes filename _ => some filename

/-- An item was claimed in the state of its queue, and its wheel exists under the
filename that was read for it. -/
def HeldFits (db : Db) (h : Held) : Prop :=
  h.item.state = queueState h.stage ∧ ∃ row, db.wheels.get? h.item.id = some row ∧
    ∀ filename, h.loaded.filename = some filename → row.filename = filename

/-- The states a sync may put a live wheel in. -/
def entryStates : List WheelState := [.needMetadata, .noMetadata, .needConvert]

/-- A change restores a wheel to a state, or it leaves a live wheel live. -/
def ChangeFits (c : Changes) (row : WheelRow) : Prop :=
  (∀ next, c.state = some next → next ∈ entryStates) ∧
    if c.clearDeletedAt then c.state.isSome = true else row.deletedAt = none

/-- A plan for the project `name` fits the database: it names wheels of the
project, and its changes fit them. -/
structure PlanFits (name : String) (db : Db) (plan : ProjectPlan) : Prop where
  project : plan.project = name
  new : ∀ w ∈ plan.newWheels, w.state ∈ entryStates
  changed : ∀ c ∈ plan.changedWheels, ∃ row, db.wheels.get? c.wheelId = some row ∧
    row.project = name ∧ ChangeFits c.changes row
  changedOnce : (plan.changedWheels.map ChangedWheel.wheelId).Nodup
  vanished : ∀ id ∈ plan.vanishedWheelIds, ∃ row, db.wheels.get? id = some row ∧
    row.project = name

def SyncFits (name : String) (db : Db) : PendingSync → Prop
  | .plan plan => PlanFits name db plan
  | .gone => True

/-- Everything under way fits the database. -/
structure Sound (s : State) : Prop where
  held : ∀ h ∈ s.held, HeldFits s.db h
  syncs : ∀ name sync, s.syncs.get? name = some sync → SyncFits name s.db sync

theorem sound_initial (db : Db) (changeSeq : ℕ) : Sound (.initial db changeSeq) :=
  ⟨by simp [State.initial], by simp [State.initial]⟩

theorem initialState_mem (file : ProjectFile) : initialState file ∈ entryStates := by
  by_cases h : file.hasMetadata <;> simp [initialState, h, entryStates]

theorem planNewWheel_state_mem (file : ProjectFile) (unlinked : Option String) :
    (planNewWheel file unlinked).state ∈ entryStates := by
  cases unlinked with
  | none => exact initialState_mem file
  | some sha256 => simp [planNewWheel, entryStates]

/-- The diff of a row fits the row. -/
theorem changeFits_of_diffCommon {id : ℕ} {row : WheelRow} {file : ProjectFile} {c : ChangedWheel}
    (h : diffCommon id row file = some c) : ChangeFits c.changes row := by
  unfold diffCommon at h
  by_cases hdeleted : row.deletedAt.isSome = true
  · rw [if_pos hdeleted] at h
    obtain rfl := Option.some.inj h
    refine ⟨fun next hnext => ?_, by simp [restore]⟩
    exact Option.some.inj hnext ▸ initialState_mem file
  · rw [if_neg hdeleted] at h
    obtain ⟨-, h⟩ := Option.ite_none_left_eq_some.mp h
    obtain rfl := Option.some.inj h
    refine ⟨fun next hnext => ?_, by simpa [diffColumns] using hdeleted⟩
    by_cases hreset : hashMismatch row file ∨ sidecarAppeared row file
    · obtain ⟨-, rfl⟩ : ¬row.state = .needMetadata ∧ .needMetadata = next := by
        simpa [diffColumns, hreset, differing] using hnext
      simp [entryStates]
    · simp [diffColumns, hreset, differing] at hnext

theorem planFits_of_plannedFrom {name : String} {db : Db} {plan : ProjectPlan}
    (h : PlannedFrom name db plan) : PlanFits name db plan where
  project := h.project
  new w hw := by
    obtain ⟨file, unlinked, rfl⟩ := h.new w hw
    exact planNewWheel_state_mem file unlinked
  changed c hc := by
    obtain ⟨row, file, hrow, hproject, hdiff⟩ := h.changed c hc
    exact ⟨row, hrow, hproject, changeFits_of_diffCommon hdiff⟩
  changedOnce := h.changedOnce
  vanished id hid := by
    obtain ⟨row, hrow, hproject, -⟩ := h.vanished id hid
    exact ⟨row, hrow, hproject⟩

theorem PlanFits.hasWheel {name : String} {db : Db} {plan : ProjectPlan}
    (h : PlanFits name db plan) : ∀ id ∈ plan.wheelIds, db.hasWheel id = true := by
  intro id hid
  rcases List.mem_append.mp hid with hchanged | hvanished
  · obtain ⟨c, hc, rfl⟩ := List.mem_map.mp hchanged
    obtain ⟨row, hrow, -⟩ := h.changed c hc
    exact Db.hasWheel_iff.mpr ⟨row, hrow⟩
  · obtain ⟨row, hrow, -⟩ := h.vanished id hvanished
    exact Db.hasWheel_iff.mpr ⟨row, hrow⟩

/-! ## The commits -/

/-- The steps that submit no op. -/
def Event.quiet : Event → Bool
  | .claim .. | .loadSidecar .. | .loadBytes .. | .release .. => true
  | .planSync .. | .selectChunk .. | .selectQuarantined .. => true
  | _ => false

/-- The database after a step, as far as wheels and repodata go. -/
inductive Commit (env : Env M) (s : State) : Event → Db → Prop
  | quiet {e : Event} (he : e.quiet = true) : Commit env s e s.db
  | unmoved {e : Event} {i : ℕ} {outcome : Outcome} {clock : Clock} {h : Held} {db' : Db}
      (he : e.submits env = some (i, outcome, clock)) (hheld : s.held[i]? = some h)
      (htarget : target env.dispatcher h.stage h.item s.db outcome = none)
      (wheels : db'.wheels = s.db.wheels)
      (wheelRepodata : db'.wheelRepodata = s.db.wheelRepodata) : Commit env s e db'
  | moved {e : Event} {i : ℕ} {outcome : Outcome} {clock : Clock} {h : Held} {next : WheelState}
      {db' : Db} (he : e.submits env = some (i, outcome, clock)) (hheld : s.held[i]? = some h)
      (htarget : target env.dispatcher h.stage h.item s.db outcome = some next)
      (wheels : db'.wheels = s.db.wheels.modify (Db.atWheel h.item.id fun row =>
        outcomeRow env.dispatcher clock h.stage h.item s.db (s.changeSeq + 1) row outcome))
      (wheelRepodata : db'.wheelRepodata =
        outcomeRepodata env.dispatcher h.item s.db outcome) : Commit env s e db'
  | planned {name nowIso : String} {plan : ProjectPlan} {db' : Db} (hfits : PlanFits name s.db plan)
      (hsync : s.syncs.get? name = some (.plan plan))
      (synced : Synced (env.ingest nowIso) plan s.db db') :
      Commit env s (.applySync name nowIso) db'
  | gone {name nowIso : String} {db' : Db} (hsync : s.syncs.get? name = some .gone)
      (wheels : ∀ id, ∃ m, db'.wheels.get? id =
        (s.db.wheels.get? id).map (goneRow name nowIso m))
      (wheelRepodata : db'.wheelRepodata = s.db.wheelRepodata) :
      Commit env s (.applySync name nowIso) db'
  | reprocessed {i : ℕ} {nowIso : String} {ids : List ℕ} {selector : Selector} {db' : Db}
      (hchunk : s.chunks[i]? = some (ids, selector))
      (wheels : ∀ id, ∃ m, db'.wheels.get? id = (s.db.wheels.get? id).map fun row =>
        if id ∈ ids then reprocessedRow nowIso m row else row)
      (wheelRepodata : db'.wheelRepodata =
        s.db.wheelRepodata.filter fun id _ => !decide (id ∈ ids)) :
      Commit env s (.applyChunk i nowIso) db'
  | unquarantined {i : ℕ} {nowIso : String} {ids : List ℕ} {db' : Db}
      (hids : s.unquarantines[i]? = some ids)
      (wheels : ∀ id, ∃ m, db'.wheels.get? id = (s.db.wheels.get? id).map fun row =>
        if id ∈ ids ∧ row.state = .quarantined then enterState .needMetadata m nowIso row
        else row)
      (wheelRepodata : db'.wheelRepodata = s.db.wheelRepodata) :
      Commit env s (.applyUnquarantine i nowIso) db'

theorem hasWheel_of_held {s : State} (hs : Sound s) {i : ℕ} {h : Held}
    (hheld : s.held[i]? = some h) : s.db.hasWheel h.item.id = true := by
  obtain ⟨-, row, hrow, -⟩ := hs.held h (List.mem_of_getElem? hheld)
  exact Db.hasWheel_iff.mpr ⟨row, hrow⟩

/-- A step that submits an outcome commits it, or commits nothing to a wheel. -/
theorem commit_applyOutcome {s : State} (hs : Sound s) {e : Event} {i : ℕ} {h : Held}
    {outcome : Outcome} {clock : Clock} (he : e.submits env = some (i, outcome, clock))
    (hheld : s.held[i]? = some h) : Commit env s e (s.applyOutcome env i h outcome clock).db := by
  have hwheel := hasWheel_of_held hs hheld
  cases htarget : target env.dispatcher h.stage h.item s.db outcome with
  | none =>
      obtain ⟨hwheels, hrepodata⟩ := State.applyOutcome_of_target_none hwheel htarget
      exact .unmoved he hheld htarget hwheels hrepodata
  | some next =>
      obtain ⟨hwheels, hrepodata⟩ := State.applyOutcome_of_target hwheel htarget
      exact .moved he hheld htarget hwheels hrepodata

/-! ## One step -/

/-- An item whose bytes or columns have been read fits, if it fitted before. -/
theorem HeldFits.load {db : Db} {h : Held} {row : WheelRow} (hfits : HeldFits db h)
    (hrow : db.wheels.get? h.item.id = some row) {loaded : Loaded}
    (hloaded : loaded.filename = some row.filename) :
    HeldFits db { h with loaded := loaded } := by
  refine ⟨hfits.1, row, hrow, fun filename hf => ?_⟩
  simpa [hloaded] using hf

/-- A sync computed from a snapshot fits it. -/
theorem syncFits_planned {name : String} {fetched : FetchedProject} {s : State} (hs : Sound s)
    {name' : String} {sync : PendingSync}
    (h : (s.planned name fetched).syncs.get? name' = some sync) : SyncFits name' s.db sync := by
  have hset : ∀ new : PendingSync, SyncFits name s.db new →
      (s.syncs.set name new).get? name' = some sync → SyncFits name' s.db sync := by
    intro new hnew hget
    rw [Table.get?_set] at hget
    by_cases hname : name' = name
    · rw [if_pos hname] at hget
      obtain rfl := Option.some.inj hget
      rwa [hname]
    · rw [if_neg hname] at hget
      exact hs.syncs name' sync hget
  cases fetched with
  | page page =>
      have hfrom := plannedFrom_planProject name page s.db (readUnlinkedBlobs s.db)
      exact hset (.plan _) (planFits_of_plannedFrom hfrom) h
  | notFound => exact hset .gone trivial h
  | rateLimited child retryAfter => exact hs.syncs name' sync h
  | transient message => exact hs.syncs name' sync h
  | protocolError message => exact hs.syncs name' sync h

/-- The project whose sync a step applies. -/
def Event.syncs : Event → Option String
  | .applySync name _ => some name
  | _ => none

/-- Everything a step can do: what it commits, and that the work under way after
it fits the database before it. -/
structure Stepped (env : Env M) (s : State) (e : Event) (s' : State) : Prop where
  commit : Commit env s e s'.db
  held : ∀ h ∈ s'.held, HeldFits s.db h
  syncs : ∀ name sync, s'.syncs.get? name = some sync →
    SyncFits name s.db sync ∧ e.syncs ≠ some name

theorem stepped_of_quiet {s s' : State} {e : Event} (hs : Sound s) (he : e.quiet = true)
    (hdb : s'.db = s.db) (hsyncs : s'.syncs = s.syncs) (hheld : ∀ h ∈ s'.held, HeldFits s.db h) :
    Stepped env s e s' where
  commit := by
    rw [hdb]
    exact .quiet he
  held := hheld
  syncs name sync hsync := by
    refine ⟨hs.syncs name sync (hsyncs ▸ hsync), ?_⟩
    cases e <;> simp [Event.quiet, Event.syncs] at he ⊢

/-- An outcome leaves what is under way for the other items. -/
theorem stepped_apply {s : State} (hs : Sound s) {i : ℕ} {h : Held} (hheld : s.held[i]? = some h)
    (outcome : Outcome) (clock : Clock) :
    Stepped env s (.apply i outcome clock) (s.applyOutcome env i h outcome clock) where
  commit := commit_applyOutcome hs rfl hheld
  held h' hh' := by
    have hmem : h' ∈ s.held.eraseIdx i := by
      unfold State.applyOutcome at hh'
      split at hh' <;> exact hh'
    exact hs.held h' (List.mem_of_mem_eraseIdx hmem)
  syncs name sync hsync := by
    unfold State.applyOutcome at hsync
    split at hsync <;> exact ⟨hs.syncs name sync hsync, by simp [Event.syncs]⟩

/-- The handoff moves the item on to convert, with the filename read for it. -/
theorem stepped_archive {s : State} (hs : Sound s) {i : ℕ} {h : Held}
    (hheld : s.held[i]? = some h) {filename : String}
    (hloaded : h.loaded.filename = some filename) (data : Bytes) (clock : Clock) :
    Stepped env s (.archive i data clock) (s.archive env i h filename data clock) where
  commit := by
    rw [State.db_archive]
    exact commit_applyOutcome hs rfl hheld
  held h' hh' := by
    have hmem : h' ∈ s.held.eraseIdx i ∨
        h' = ⟨.convert, { h.item with state := .needConvert }, .bytes filename data⟩ := by
      unfold State.archive at hh'
      split at hh'
      · exact Or.inl hh'
      · rcases List.mem_append.mp hh' with hold | hnew
        · exact Or.inl hold
        · exact Or.inr (by simpa using hnew)
    rcases hmem with hold | rfl
    · exact hs.held h' (List.mem_of_mem_eraseIdx hold)
    · obtain ⟨-, row, hrow, hname⟩ := hs.held h (List.mem_of_getElem? hheld)
      exact ⟨rfl, row, hrow, fun f hf => hname f (hloaded.trans hf)⟩
  syncs name sync hsync := by
    unfold State.archive at hsync
    split at hsync <;> exact ⟨hs.syncs name sync hsync, by simp [Event.syncs]⟩

/-- A plan that fits, and the op for a gone project, commit without raising. -/
theorem stepped_applySync {s : State} (hs : Sound s) {name : String} {sync : PendingSync}
    (hsync : s.syncs.get? name = some sync) (nowIso : String) :
    Stepped env s (.applySync name nowIso) (s.applySync env name nowIso sync) where
  commit := by
    cases sync with
    | plan plan =>
        have hfits : PlanFits name s.db plan := hs.syncs name _ hsync
        obtain ⟨db', n', result, hrun, hsynced⟩ := runAtomic_projectApply (env.ingest nowIso)
          hfits.changedOnce hfits.hasWheel s.changeSeq
        refine .planned hfits hsync ?_
        have hdb : (s.applySync env name nowIso (.plan plan)).db = db' :=
          congrArg Program.Result.db hrun
        rwa [hdb]
    | gone =>
        obtain ⟨wheels, n', result, hrun, hget⟩ :=
          runAtomic_goneApply name nowIso s.db s.changeSeq
        refine .gone hsync ?_ ?_ <;> simp only [State.applySync, State.commit, hrun]
        exact hget
  held h' hh' := by
    cases sync <;> exact hs.held h' hh'
  syncs name' sync' hsync' := by
    have hkept : (s.syncs.filter fun key _ => key ≠ name).get? name' = some sync' := by
      cases sync <;> exact hsync'
    rw [Table.get?_filter, Option.filter_eq_some_iff] at hkept
    obtain ⟨hold, hne⟩ := hkept
    refine ⟨hs.syncs name' sync' hold, fun heq => ?_⟩
    obtain rfl : name = name' := Option.some.inj heq
    simp at hne

/-- What a step does. -/
theorem stepped_of_step {s s' : State} {e : Event} (hs : Sound s) (hstep : step env s e = some s') :
    Stepped env s e s' := by
  have hset : ∀ {i : ℕ} {h h' : Held}, HeldFits s.db h → h' ∈ s.held.set i h →
      HeldFits s.db h' := fun hfits hmem => by
    rcases List.mem_or_eq_of_mem_set hmem with hold | rfl
    · exact hs.held _ hold
    · exact hfits
  cases e with
  | claim stage limit nowIso =>
      obtain rfl := Option.some.inj hstep
      refine stepped_of_quiet hs rfl rfl rfl fun h' hh' => ?_
      rcases List.mem_append.mp hh' with hold | hnew
      · exact hs.held h' hold
      · obtain ⟨item, hitem, rfl⟩ := List.mem_map.mp hnew
        obtain ⟨hstate, row, hrow, -⟩ := mem_claim hitem
        exact ⟨hstate, row, hrow, fun _ hf => by simp [Loaded.filename] at hf⟩
  | loadSidecar i =>
      obtain ⟨h, hheld, hrest⟩ := Option.bind_eq_some_iff.mp hstep
      obtain ⟨row, hrow, hrest⟩ := Option.bind_eq_some_iff.mp hrest
      obtain ⟨-, hrest⟩ := Option.ite_none_right_eq_some.mp hrest
      obtain rfl := Option.some.inj hrest
      have hfits := (hs.held h (List.mem_of_getElem? hheld)).load hrow
        (show (Loaded.sidecar row.filename row.metadataSha256).filename = some row.filename
          from rfl)
      exact stepped_of_quiet hs rfl rfl rfl fun h' hh' => hset hfits hh'
  | loadBytes i data =>
      obtain ⟨h, hheld, hrest⟩ := Option.bind_eq_some_iff.mp hstep
      obtain ⟨row, hrow, hrest⟩ := Option.bind_eq_some_iff.mp hrest
      obtain ⟨-, hrest⟩ := Option.ite_none_right_eq_some.mp hrest
      obtain rfl := Option.some.inj hrest
      have hfits := (hs.held h (List.mem_of_getElem? hheld)).load hrow
        (show (Loaded.bytes row.filename data).filename = some row.filename from rfl)
      exact stepped_of_quiet hs rfl rfl rfl fun h' hh' => hset hfits hh'
  | release i =>
      obtain ⟨h, hheld, hrest⟩ := Option.bind_eq_some_iff.mp hstep
      obtain rfl := Option.some.inj hrest
      exact stepped_of_quiet hs rfl rfl rfl fun h' hh' =>
        hs.held h' (List.mem_of_mem_eraseIdx hh')
  | apply i outcome clock =>
      obtain ⟨h, hheld, hrest⟩ := Option.bind_eq_some_iff.mp hstep
      obtain rfl := Option.some.inj hrest
      exact stepped_apply hs hheld outcome clock
  | archive i data clock =>
      obtain ⟨h, hheld, hrest⟩ := Option.bind_eq_some_iff.mp hstep
      split at hrest
      · rename_i filename metadataSha256 hstage hloaded
        obtain ⟨-, hrest⟩ := Option.ite_none_right_eq_some.mp hrest
        obtain rfl := Option.some.inj hrest
        exact stepped_archive hs hheld (by rw [hloaded]; rfl) data clock
      · cases hrest
  | planSync name fetched =>
      obtain ⟨-, hrest⟩ := Option.ite_none_left_eq_some.mp hstep
      obtain rfl := Option.some.inj hrest
      obtain ⟨hdb, hheld⟩ : (s.planned name fetched).db = s.db ∧
          (s.planned name fetched).held = s.held := by
        unfold State.planned
        split <;> exact ⟨rfl, rfl⟩
      refine ⟨by rw [hdb]; exact .quiet rfl, by rw [hheld]; exact hs.held, ?_⟩
      exact fun name' sync hsync => ⟨syncFits_planned hs hsync, by simp [Event.syncs]⟩
  | applySync name nowIso =>
      obtain ⟨sync, hsync, hrest⟩ := Option.bind_eq_some_iff.mp hstep
      obtain rfl := Option.some.inj hrest
      exact stepped_applySync hs hsync nowIso
  | selectChunk selector page chunkSize =>
      obtain ⟨-, hrest⟩ := Option.ite_none_right_eq_some.mp hstep
      obtain rfl := Option.some.inj hrest
      exact stepped_of_quiet hs rfl rfl rfl hs.held
  | applyChunk i nowIso =>
      obtain ⟨⟨ids, selector⟩, hchunk, hrest⟩ := Option.bind_eq_some_iff.mp hstep
      obtain rfl := Option.some.inj hrest
      obtain ⟨wheels, affected, hrun, hget⟩ :=
        runAtomic_reprocessChunkApply ids nowIso selector s.db s.changeSeq
      refine ⟨.reprocessed hchunk ?_ ?_, hs.held, fun name sync hsync =>
        ⟨hs.syncs name sync hsync, by simp [Event.syncs]⟩⟩ <;> simp only [State.commit, hrun]
      · exact hget
      · rfl
  | selectQuarantined project chunkSize =>
      obtain rfl := Option.some.inj hstep
      exact stepped_of_quiet hs rfl rfl rfl hs.held
  | applyUnquarantine i nowIso =>
      obtain ⟨ids, hids, hrest⟩ := Option.bind_eq_some_iff.mp hstep
      obtain rfl := Option.some.inj hrest
      obtain ⟨wheels, affected, hrun, hget⟩ :=
        runAtomic_unquarantineChunkApply ids nowIso s.db s.changeSeq
      refine ⟨.unquarantined hids ?_ ?_, hs.held, fun name sync hsync =>
        ⟨hs.syncs name sync hsync, by simp [Event.syncs]⟩⟩ <;> simp only [State.commit, hrun]
      exact hget

end RerollSync.Pipeline
