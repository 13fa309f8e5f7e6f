import RerollSync.Store.Wheel
import RerollSync.Daemon.Machine

/-!
# What an op does to a wheel

Every op moves a wheel, with the rows that belong to it, in one of ten ways.
The database after an op is described wheel by wheel here, and the invariants of
the later modules look at moves only.
-/

namespace RerollSync.Daemon

open RerollSync.Support RerollSync.Store RerollSync.Dispatcher RerollSync.Ingest
open RerollSync.Pipeline RerollSync.Fetch

/-- What an op can do to a wheel. -/
inductive Move
  | archived (clock : Clock) (sha256 : String)
  | converted (clock : Clock) (repodata : RepodataRow) (condaName : String)
  | skipped (clock : Clock) (outcome : Skip)
  | quarantined (clock : Clock) (stage : Stage) (outcome : Retry)
  | deferred (clock : Clock) (stage : Stage) (outcome : Retry)
  | changed (settings : Ingest.Settings) (change : ChangedWheel)
  | tombstoned (nowIso : String)
  | reprocessed (selector : Selector) (nowIso : String)
  | unquarantined (nowIso : String)
  | recovered

/-- The attempts at a stage, with the one that has just failed. -/
def attempted (w : Wheel) (stage : Stage) : ℕ := ((w.work stage).map WorkRow.attempts).getD 0 + 1

/-- The skip rows that a change deletes of its wheel. -/
def clearsSkip (change : ChangedWheel) (row : SkipRow) : Bool :=
  change.deleteNoSidecarSkip && decide (row.reason = noSidecarSkipReason ∧ row.permanent)

/-- The skip rows that a campaign deletes of the wheels it resets. -/
def campaignClears (selector : Selector) (row : SkipRow) : Bool :=
  match selector with
  | .rerollVersionBelow version => !row.permanent ∧ row.rerollVersion.any (· < version)
  | _ => false

/-- The wheel after a move that draws the sequence number `m`. -/
def Move.apply (m : ℕ) (w : Wheel) : Move → Wheel
  | .archived clock sha256 =>
      { w with
        row := okRow clock ⟨.needConvert, .blobLink sha256⟩ m w.row
        work := Function.update w.work .fetch none }
  | .converted clock repodata condaName =>
      { w with
        row := { enterState .ready m clock.nowIso w.row with condaName := some condaName }
        repodata := some repodata
        work := Function.update w.work .convert none }
  | .skipped clock outcome =>
      { w with
        row := enterState .skipped m clock.nowIso w.row
        skips := Function.update w.skips .convert (some (skipRow clock outcome))
        work := Function.update w.work .convert none }
  | .quarantined clock stage outcome =>
      { w with
        row := enterState .quarantined m clock.nowIso w.row
        work := Function.update w.work stage
          (some ⟨attempted w stage, clock.nowIso, some outcome.details, some clock.nowIso⟩) }
  | .deferred clock stage outcome =>
      { w with
        work := Function.update w.work stage
          (some ⟨attempted w stage, clock.nextAttemptAt (attempted w stage), some outcome.details,
            (w.work stage).bind WorkRow.quarantinedAt⟩) }
  | .changed settings change =>
      { w with
        row := changedRow settings change m w.row
        repodata := if change.deleteRepodata then none else w.repodata
        skips := fun stage => (w.skips stage).filter fun row => !clearsSkip change row }
  | .tombstoned nowIso => { w with row := Ingest.tombstoned nowIso m w.row }
  | .reprocessed selector nowIso =>
      { w with
        row := reprocessedRow nowIso m w.row
        repodata := none
        skips := fun stage => (w.skips stage).filter fun row => !campaignClears selector row
        work := fun _ => none }
  | .unquarantined nowIso =>
      { w with
        row := if w.row.state = .quarantined then enterState .needMetadata m nowIso w.row else w.row
        work := fun _ => none }
  | .recovered => { w with row := recoveredRow w.row, repodata := none }

/-- The state a move leaves. -/
def Move.enters (move : Move) (state : WheelState) : WheelState :=
  match move with
  | .archived _ _ | .reprocessed _ _ => .needConvert
  | .converted _ _ _ => .ready
  | .skipped _ _ => .skipped
  | .quarantined _ _ _ => .quarantined
  | .deferred _ _ _ => state
  | .changed _ change => change.changes.state.getD state
  | .tombstoned _ => .deleted
  | .unquarantined _ => if state = .quarantined then .needMetadata else state
  | .recovered => .needMetadata

theorem state_apply (m : ℕ) (w : Wheel) (move : Move) :
    (move.apply m w).row.state = move.enters w.row.state := by
  cases move with
  | unquarantined nowIso =>
      by_cases hstate : w.row.state = .quarantined <;>
        simp [Move.apply, Move.enters, enterState, hstate]
  | _ => rfl

/-- A wheel that an op may have moved. -/
def moved (m : ℕ) (w : Wheel) (move : Option Move) : Wheel := move.elim w (Move.apply m w)

/-! ## Ops, wheel by wheel -/

/-- Nothing is inserted. -/
def unborn (_ : WheelRow) : Prop := False

/-- An op moves the wheels as `move` says, inserts rows that `born` describes, and
gives nothing to an id that has no wheel. -/
structure Moves (move : ℕ → WheelRow → Option Move) (born : WheelRow → Prop) (db db' : Db) :
    Prop where
  kept : ∀ id row, db.wheels.get? id = some row →
    ∃ m, db'.wheel? id = some (moved m (db.wheelAt id row) (move id row))
  fresh : ∀ id row, db.wheels.get? id = none → db'.wheels.get? id = some row → born row
  unowned : ∀ id, db.wheels.get? id = none → db.Unowned id → db'.Unowned id

namespace Moves

variable {move : ℕ → WheelRow → Option Move} {born : WheelRow → Prop} {db db' : Db}

theorem wheels_eq_none (h : Moves move born db db') {id : ℕ}
    (hnone : db'.wheels.get? id = none) : db.wheels.get? id = none := by
  by_contra hsome
  obtain ⟨row, hrow⟩ := Option.ne_none_iff_exists'.mp hsome
  obtain ⟨m, hwheel⟩ := h.kept id row hrow
  rw [Db.wheel?_eq_none_iff.mpr hnone] at hwheel
  cases hwheel

theorem attached (h : Moves move born db db') (hattached : db.Attached) : db'.Attached :=
  fun id hnone =>
    h.unowned id (h.wheels_eq_none hnone) (hattached id (h.wheels_eq_none hnone))

theorem congr {move' : ℕ → WheelRow → Option Move} {born' : WheelRow → Prop}
    (h : Moves move born db db') (hmove : ∀ id row, move id row = move' id row)
    (hborn : ∀ row, born row → born' row) : Moves move' born' db db' where
  kept id row hrow := hmove id row ▸ h.kept id row hrow
  fresh id row hnone hsome := hborn row (h.fresh id row hnone hsome)
  unowned := h.unowned

/-- A step that leaves the tables of the wheels alone. -/
theorem of_same (hwheels : db'.wheels = db.wheels)
    (hrepodata : db'.wheelRepodata = db.wheelRepodata) (hskips : db'.skips = db.skips)
    (hwork : db'.work = db.work) : Moves (fun _ _ => none) unborn db db' where
  kept id row hrow := by
    rw [Db.wheel?_of_get? (hwheels.symm ▸ hrow)]
    simp only [Db.wheelAt, hrepodata, hskips, hwork, moved, Option.elim, exists_const]
  fresh id row hnone hsome := by
    rw [hwheels, hnone] at hsome
    cases hsome
  unowned id _ h := ⟨hrepodata ▸ h.wheelRepodata, hskips ▸ h.skips, hwork ▸ h.work⟩

end Moves

/-- A move of a single wheel. -/
def only (id : ℕ) (move : Move) (id' : ℕ) (_ : WheelRow) : Option Move :=
  if id' = id then some move else none

section StageOps

variable {settings : Dispatcher.Settings} {clock : Clock} {stage : Stage} {item : QueueItem}
  {db : Db}

/-- An op on one wheel moves that wheel. -/
theorem moves_only {i : ℕ} {move : Move} {db db' : Db} (m : ℕ) {f : WheelRow → WheelRow}
    (hwheels : db'.wheels = db.wheels.modify (Db.atWheel i f))
    (hself : ∀ row, db'.wheelAt i (f row) = move.apply m (db.wheelAt i row))
    (hother : ∀ id row, id ≠ i → db'.wheelAt id row = db.wheelAt id row)
    (hunowned : ∀ id, id ≠ i → db.Unowned id → db'.Unowned id) (hwheel : db.hasWheel i = true) :
    Moves (only i move) unborn db db' where
  kept id row hrow := by
    refine ⟨m, ?_⟩
    have hget : db'.wheels.get? id = some (Db.atWheel i f id row) := by
      rw [hwheels, Table.get?_modify, hrow, Option.map_some]
    rw [Db.wheel?_of_get? hget]
    by_cases hid : id = i
    · subst hid
      simp only [Db.atWheel, if_true, hself, only, moved, Option.elim]
    · simp only [Db.atWheel, if_neg hid, hother id row hid, only, moved, Option.elim]
  fresh id row hnone hsome := by
    rw [hwheels, Table.get?_modify, hnone] at hsome
    cases hsome
  unowned id hnone := hunowned id (Db.ne_of_hasWheel hwheel hnone)

theorem wheelAt_deleteOwnWork (db : Db) (id : ℕ) (row : WheelRow) :
    (db.deleteWork (ownWork stage item)).wheelAt id row =
      if id = item.id then
        { db.wheelAt id row with work := Function.update (db.wheelAt id row).work stage none }
      else db.wheelAt id row := by
  rw [Db.wheelAt_deleteWork]
  by_cases hid : id = item.id
  · rw [if_pos hid, Wheel.mk.injEq]
    refine ⟨rfl, rfl, rfl, funext fun stage' => ?_⟩
    by_cases hstage : stage' = stage <;> simp [ownWork, hid, hstage]
  · simp [ownWork, hid]

theorem moves_okEffect_blobLink (sha256 : String) (seq : ℕ)
    (hwheel : db.hasWheel item.id = true) :
    Moves (only item.id (.archived clock sha256)) unborn db
      (okEffect settings clock .fetch item ⟨.needConvert, .blobLink sha256⟩ seq db) := by
  refine moves_only seq (wheels_okEffect _ seq) (fun row => ?_) (fun id row hid => ?_)
    (fun id hid h => ?_) hwheel
  · simp only [okEffect, StagePayload.effect, wheelAt_deleteOwnWork, if_true]
    rfl
  · simp only [okEffect, StagePayload.effect, wheelAt_deleteOwnWork, if_neg hid]
    rfl
  · exact ((h.updateWheel _ _).updateWheel _ _).deleteWork _

theorem moves_okEffect_convertOk (outcome : Convert.ConvertOk) (rerollVersion : String) (seq : ℕ)
    (hwheel : db.hasWheel item.id = true) :
    Moves (only item.id (.converted clock (repodataRow settings outcome rerollVersion)
      outcome.condaName)) unborn db
      (okEffect settings clock .convert item ⟨.ready, .convertOk outcome rerollVersion⟩ seq
        db) := by
  refine moves_only seq (wheels_okEffect _ seq) (fun row => ?_) (fun id row hid => ?_)
    (fun id hid h => ?_) hwheel
  · simp only [okEffect, StagePayload.effect, wheelAt_deleteOwnWork, Db.wheelAt_updateWheel,
      Db.wheelAt_setRepodata, if_true]
    rfl
  · simp only [okEffect, StagePayload.effect, wheelAt_deleteOwnWork, Db.wheelAt_updateWheel,
      Db.wheelAt_setRepodata, if_neg hid]
  · exact (((h.updateWheel _ _).setRepodata hid _).updateWheel _ _).deleteWork _

theorem moves_skipEffect (outcome : Skip) (seq : ℕ) (hwheel : db.hasWheel item.id = true) :
    Moves (only item.id (.skipped clock outcome)) unborn db
      (skipEffect settings clock .convert item outcome seq db) := by
  refine moves_only seq (Db.wheels_updateWheel _ _ _) (fun row => ?_) (fun id row hid => ?_)
    (fun id hid h => ?_) hwheel
  · simp only [skipEffect, wheelAt_deleteOwnWork, Db.wheelAt_addError, Db.wheelAt_setSkip,
      Db.wheelAt_updateWheel, if_true]
    rfl
  · simp only [skipEffect, wheelAt_deleteOwnWork, Db.wheelAt_addError, Db.wheelAt_setSkip,
      Db.wheelAt_updateWheel, if_neg hid]
  · exact (((h.updateWheel _ _).setSkip hid _ _).addError _).deleteWork _

theorem moves_quarantineEffect (outcome : Retry) (seq : ℕ) (hwheel : db.hasWheel item.id = true) :
    Moves (only item.id (.quarantined clock stage outcome)) unborn db
      (quarantineEffect settings clock stage item outcome (attemptsOf item.id stage db + 1) seq
        db) := by
  refine moves_only seq (Db.wheels_updateWheel _ _ _) (fun row => ?_) (fun id row hid => ?_)
    (fun id hid h => ?_) hwheel
  · simp only [quarantineEffect, Db.wheelAt_addError, Db.wheelAt_setWork, Db.wheelAt_updateWheel,
      if_true]
    rfl
  · simp only [quarantineEffect, Db.wheelAt_addError, Db.wheelAt_setWork, Db.wheelAt_updateWheel,
      if_neg hid]
  · exact ((h.updateWheel _ _).setWork hid _ _).addError _

theorem moves_deferEffect (outcome : Retry) (hwheel : db.hasWheel item.id = true) :
    Moves (only item.id (.deferred clock stage outcome)) unborn db
      (deferEffect clock stage item outcome (attemptsOf item.id stage db + 1) db) := by
  have hwheels : db.wheels = db.wheels.modify (Db.atWheel item.id id) :=
    (Table.modify_eq_self fun id row => by simp [Db.atWheel]).symm
  refine moves_only 0 hwheels (fun row => ?_) (fun id row hid => ?_) (fun id hid h => ?_) hwheel
  · simp only [deferEffect, Db.wheelAt_setWork, if_true]
    rfl
  · simp only [deferEffect, Db.wheelAt_setWork, if_neg hid]
  · exact h.setWork hid stage _

end StageOps

/-! ## Syncs, campaigns and recoveries -/

/-- An op that keeps every wheel and adds no row to the other tables. -/
theorem moves_of_kept {move : ℕ → WheelRow → Option Move} {born : WheelRow → Prop} {db db' : Db}
    (hkept : ∀ id row, db.wheels.get? id = some row → ∃ m row',
      db'.wheels.get? id = some row' ∧
        db'.wheelAt id row' = moved m (db.wheelAt id row) (move id row))
    (hfresh : ∀ id row, db.wheels.get? id = none → db'.wheels.get? id = some row → born row)
    (hrepodata : ∀ id, db.wheelRepodata.get? id = none → db'.wheelRepodata.get? id = none)
    (hskips : ∀ key, db.skips.get? key = none → db'.skips.get? key = none)
    (hwork : ∀ key, db.work.get? key = none → db'.work.get? key = none) :
    Moves move born db db' where
  kept id row hrow := by
    obtain ⟨m, row', hrow', hwheel⟩ := hkept id row hrow
    exact ⟨m, by rw [Db.wheel?_of_get? hrow', hwheel]⟩
  fresh := hfresh
  unowned id _ h := ⟨hrepodata id h.wheelRepodata, fun stage => hskips _ (h.skips stage),
    fun stage => hwork _ (h.work stage)⟩

/-- The move of a wheel when a sync is applied. -/
def syncMove (settings : Ingest.Settings) (name : String) (id : ℕ) (row : WheelRow) :
    PendingSync → Option Move
  | .plan plan =>
      if id ∈ plan.vanishedWheelIds then some (.tombstoned settings.nowIso)
      else (plan.changedWheels.find? fun c => c.wheelId = id).map (.changed settings)
  | .gone =>
      if row.project = name ∧ row.deletedAt = none then some (.tombstoned settings.nowIso) else none

/-- Of a list with distinct keys, only the entry found by a key counts for it. -/
theorem any_and_wheelId {changes : List ChangedWheel}
    (hnodup : (changes.map ChangedWheel.wheelId).Nodup) (p : ChangedWheel → Bool) (id : ℕ) :
    (changes.any fun c => p c && decide (id = c.wheelId)) =
      (changes.find? fun c => c.wheelId = id).any p := by
  induction changes with
  | nil => rfl
  | cons c changes ih =>
      obtain ⟨hnotin, hrest⟩ := List.nodup_cons.mp hnodup
      rw [List.any_cons, ih hrest]
      by_cases hid : c.wheelId = id
      · have hnone : (changes.find? fun c => c.wheelId = id) = none := by
          rw [List.find?_eq_none]
          intro c' hc' heq
          exact hnotin (List.mem_map.mpr ⟨c', hc', by simpa [hid] using heq⟩)
        simp [hid, hnone]
      · simp [hid, Ne.symm hid]

theorem any_deletesRepodata {changes : List ChangedWheel}
    (hnodup : (changes.map ChangedWheel.wheelId).Nodup) (id : ℕ) :
    changes.any (·.deletesRepodata id) =
      (changes.find? fun c => c.wheelId = id).any ChangedWheel.deleteRepodata :=
  any_and_wheelId hnodup ChangedWheel.deleteRepodata id

theorem any_deletesSkip {changes : List ChangedWheel}
    (hnodup : (changes.map ChangedWheel.wheelId).Nodup) (id : ℕ) (stage : Stage) (row : SkipRow) :
    changes.any (·.deletesSkip (id, stage) row) =
      (changes.find? fun c => c.wheelId = id).any (clearsSkip · row) := by
  rw [← any_and_wheelId hnodup (clearsSkip · row) id]
  congr 1
  funext c
  by_cases hid : id = c.wheelId <;> simp [ChangedWheel.deletesSkip, clearsSkip, hid]

theorem moves_of_synced {settings : Ingest.Settings} {plan : ProjectPlan} {db db' : Db}
    (h : Synced settings plan db db') (hnodup : (plan.changedWheels.map ChangedWheel.wheelId).Nodup)
    (hdisjoint : ∀ c ∈ plan.changedWheels, c.wheelId ∉ plan.vanishedWheelIds) (name : String) :
    Moves (fun id row => syncMove settings name id row (.plan plan))
      (Inserts settings plan db) db db' := by
  refine moves_of_kept (fun id row hrow => ?_) h.fresh (fun id hnone => ?_)
    (fun key hnone => ?_) fun key hnone => ?_
  · obtain ⟨m, m', hget⟩ := h.kept id row hrow
    have hat : ∀ row', db'.wheelAt id row' =
        { row := row'
          repodata := (db.wheelRepodata.get? id).filter fun _ =>
            !(plan.changedWheels.find? fun c => c.wheelId = id).any ChangedWheel.deleteRepodata
          skips := fun stage => (db.skips.get? (id, stage)).filter fun skip =>
            !(plan.changedWheels.find? fun c => c.wheelId = id).any (clearsSkip · skip)
          work := fun stage => db.work.get? (id, stage) } := by
      intro row'
      simp only [Db.wheelAt, h.wheelRepodata, h.skips, h.work, Table.get?_filter,
        any_deletesRepodata hnodup, any_deletesSkip hnodup]
    cases hfind : plan.changedWheels.find? fun c => c.wheelId = id with
    | none =>
        refine ⟨m', _, hget, ?_⟩
        have hsame : ∀ row', db'.wheelAt id row' = { db.wheelAt id row with row := row' } := by
          intro row'
          rw [hat row', hfind]
          simp [Db.wheelAt]
        rw [hsame, plannedRow, hfind]
        by_cases hid : id ∈ plan.vanishedWheelIds
        · simp [syncMove, hid, moved, Move.apply, Db.wheelAt]
        · simp [syncMove, hid, hfind, moved, Db.wheelAt]
    | some c =>
        have hc : c ∈ plan.changedWheels := List.mem_of_find?_eq_some hfind
        have hcid : c.wheelId = id := by simpa using List.find?_some hfind
        have hid : id ∉ plan.vanishedWheelIds := hcid ▸ hdisjoint c hc
        refine ⟨m, _, hget, ?_⟩
        rw [hat, hfind, plannedRow, hfind, if_neg hid]
        simp only [syncMove, if_neg hid, hfind, Option.map_some, moved, Option.elim, Move.apply,
          Db.wheelAt, Option.any_some, Wheel.mk.injEq, true_and, and_true]
        cases c.deleteRepodata <;> simp
  · rw [h.wheelRepodata]
    exact Db.get?_filter_eq_none hnone _
  · rw [h.skips]
    exact Db.get?_filter_eq_none hnone _
  · rw [h.work]
    exact hnone

/-- An op that rewrites rows of `wheels` and nothing else a wheel owns. -/
theorem moves_of_rows {move : ℕ → WheelRow → Option Move} {db db' : Db}
    {f : ℕ → WheelRow → WheelRow}
    (hget : ∀ id, ∃ m, db'.wheels.get? id = (db.wheels.get? id).map (f m))
    (hmove : ∀ id m row, { db.wheelAt id row with row := f m row } =
      moved m (db.wheelAt id row) (move id row))
    (hrepodata : db'.wheelRepodata = db.wheelRepodata) (hskips : db'.skips = db.skips)
    (hwork : db'.work = db.work) : Moves move unborn db db' := by
  refine moves_of_kept (fun id row hrow => ?_) (fun id row hnone hsome => ?_)
    (fun id hnone => ?_) (fun key hnone => ?_) fun key hnone => ?_
  · obtain ⟨m, hm⟩ := hget id
    refine ⟨m, f m row, by rw [hm, hrow, Option.map_some], ?_⟩
    rw [← hmove id m row]
    simp only [Db.wheelAt, hrepodata, hskips, hwork]
  · obtain ⟨m, hm⟩ := hget id
    simp [hm, hnone] at hsome
  · rwa [hrepodata]
  · rwa [hskips]
  · rwa [hwork]

theorem moves_of_gone {settings : Ingest.Settings} {name : String} {db db' : Db}
    (hget : ∀ id, ∃ m, db'.wheels.get? id = (db.wheels.get? id).map
      (goneRow name settings.nowIso m))
    (hrepodata : db'.wheelRepodata = db.wheelRepodata) (hskips : db'.skips = db.skips)
    (hwork : db'.work = db.work) :
    Moves (fun id row => syncMove settings name id row .gone) unborn db db' := by
  refine moves_of_rows hget (fun id m row => ?_) hrepodata hskips hwork
  by_cases hlive : row.project = name ∧ row.deletedAt = none
  · simp [syncMove, goneRow, hlive, moved, Move.apply, Db.wheelAt]
  · simp [syncMove, goneRow, hlive, moved, Db.wheelAt]

/-- The move of a wheel when a chunk of a campaign is applied. -/
def chunkMove (ids : List ℕ) (move : Move) (id : ℕ) (_ : WheelRow) : Option Move :=
  if id ∈ ids then some move else none

theorem moves_reprocessed {ids : List ℕ} {selector : Selector} {nowIso : String} {db : Db}
    {wheels : Table ℕ WheelRow}
    (hget : ∀ id, ∃ m, wheels.get? id = (db.wheels.get? id).map fun row =>
      if id ∈ ids then reprocessedRow nowIso m row else row) :
    Moves (chunkMove ids (.reprocessed selector nowIso)) unborn db
      { reprocessCleared ids selector db with wheels := wheels } := by
  refine moves_of_kept (fun id row hrow => ?_) (fun id row hnone hsome => ?_)
    (fun id hnone => ?_) (fun key hnone => ?_) fun key hnone => ?_
  · obtain ⟨m, hm⟩ := hget id
    refine ⟨m, _, by rw [hm, hrow, Option.map_some], ?_⟩
    by_cases hid : id ∈ ids
    · have hcleared : ∀ skip, clearedSkip ids selector id skip = campaignClears selector skip := by
        intro skip
        cases selector <;> simp [clearedSkip, campaignClears, hid]
      simp [chunkMove, hid, moved, Move.apply, Db.wheelAt, reprocessCleared, hcleared]
    · have hcleared : ∀ skip, clearedSkip ids selector id skip = false := by
        intro skip
        cases selector <;> simp [clearedSkip, hid]
      simp [chunkMove, hid, moved, Db.wheelAt, reprocessCleared, hcleared]
  · obtain ⟨m, hm⟩ := hget id
    simp [hm, hnone] at hsome
  · exact Db.get?_filter_eq_none hnone _
  · exact Db.get?_filter_eq_none hnone _
  · exact Db.get?_filter_eq_none hnone _

theorem moves_unquarantined {ids : List ℕ} {nowIso : String} {db : Db}
    {wheels : Table ℕ WheelRow}
    (hget : ∀ id, ∃ m, wheels.get? id = (db.wheels.get? id).map fun row =>
      if id ∈ ids ∧ row.state = .quarantined then enterState .needMetadata m nowIso row
      else row) :
    Moves (chunkMove ids (.unquarantined nowIso)) unborn db
      { db with
        wheels := wheels
        work := db.work.filter fun key _ => !decide (key.1 ∈ ids) } := by
  refine moves_of_kept (fun id row hrow => ?_) (fun id row hnone hsome => ?_)
    (fun _ hnone => hnone) (fun _ hnone => hnone) fun key hnone => ?_
  · obtain ⟨m, hm⟩ := hget id
    refine ⟨m, _, by rw [hm, hrow, Option.map_some], ?_⟩
    by_cases hid : id ∈ ids <;> simp [chunkMove, hid, moved, Move.apply, Db.wheelAt]
  · obtain ⟨m, hm⟩ := hget id
    simp [hm, hnone] at hsome
  · exact Db.get?_filter_eq_none hnone _

/-- The move of a wheel when the blobs `sha256s` are lost. -/
def unlinkMove (sha256s : List String) (_ : ℕ) (row : WheelRow) : Option Move :=
  if row.blobSha256.any (· ∈ sha256s) ∧ row.state ≠ .deleted then some .recovered else none

theorem moves_of_unlinked {sha256s : List String} {db db' : Db} (h : Unlinked sha256s db db') :
    Moves (unlinkMove sha256s) unborn db db' := by
  refine moves_of_kept (fun id row hrow => ?_) (fun id row hnone hsome => ?_)
    (fun id hnone => ?_) (fun key hnone => ?_) fun key hnone => ?_
  · refine ⟨0, unlinkedRow sha256s row, by rw [h.wheels, hrow, Option.map_some], ?_⟩
    have hlinked : id ∈ linkedWheelIds sha256s db ↔
        row.blobSha256.any (· ∈ sha256s) = true ∧ row.state ≠ .deleted := by
      rw [mem_linkedWheelIds, hrow]
      simp
    by_cases hid : row.blobSha256.any (· ∈ sha256s) = true ∧ row.state ≠ .deleted
    · simp [unlinkMove, hid, moved, Move.apply, Db.wheelAt, h.wheelRepodata, h.skips, h.work,
        hlinked, unlinkedRow]
    · simp [unlinkMove, hid, moved, Db.wheelAt, h.wheelRepodata, h.skips, h.work, hlinked,
        unlinkedRow]
  · rw [h.wheels, hnone] at hsome
    cases hsome
  · rw [h.wheelRepodata, hnone, ite_self]
  · rwa [h.skips]
  · rwa [h.work]

end RerollSync.Daemon
