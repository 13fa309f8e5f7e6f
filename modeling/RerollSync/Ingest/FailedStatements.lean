import RerollSync.Ingest.Outcomes

/-!
# Statements that fail

The ops of an ingest with a fault at any of their statements: sqlite may refuse a
statement for a reason that is not the uniqueness of a filename.  A fault is raised out
of the op, whose savepoint is rolled back, except for an `IntegrityError` of the `INSERT`
of a wheel, which the op takes for a filename that is held already.
-/

namespace RerollSync.Ingest

open RerollSync.Store RerollSync.Support

/-- The statements of the ops, by what they are about. -/
inductive Statement
  | insertWheel (filename : String)
  | deleteUnlinkedBlob (filename : String)
  | selectWheel (filename : String)
  | insertError (filename : String)
  | updateWheel (id : ℕ)
  | deleteSkips (id : ℕ)
  | deleteRepodata (id : ℕ)
  | tombstone (id : ℕ)
  | upsertIndex
  | selectProject
  | selectAgain (turns : ℕ)
  | deleteIndex
deriving DecidableEq

/-- What statements raise. -/
abbrev Faults := Statement → Option OpError

/-- A statement that raises its fault. -/
def faulty {α : Type} (fault : Option OpError) (statement : Op α) : Op α :=
  match fault with
  | none => statement
  | some e => Program.raise e

/-- An `INSERT` inside `try: ... except sqlite3.IntegrityError` that raises its fault. -/
def faultyTry (fault : Option OpError) (f : Db → Option Db) : Op Bool :=
  match fault with
  | none => Op.tryInsert f
  | some .integrity => return false
  | some e => Program.raise e

/-! ## The ops under faults -/

section Ops

variable (faults : Faults) (settings : Settings)

/-- `_record_duplicate_filename`. -/
def recordDuplicateFilenameUnder (project filename : String) : Op Unit := do
  let wheelId ← faulty (faults (.selectWheel filename)) (Program.query (wheelIdOf filename))
  let _ ← faulty (faults (.insertError filename))
    (Op.insert (Db.insertError (duplicateFilenameRow settings project filename wheelId)))

/-- One turn of the loop over `new_wheels`. -/
def insertNewWheelUnder (plan : ProjectPlan) (w : NewWheel) : Op ℕ := do
  let seq ← Program.seq
  if ← faultyTry (faults (.insertWheel w.filename))
      (Db.insertWheel (newWheelRow plan settings seq w)) then
    match w.unlinkedBlobFilename with
    | none => return 1
    | some filename =>
        let _ ← faulty (faults (.deleteUnlinkedBlob filename)) (Op.deleteUnlinkedBlob filename)
        return 1
  else
    recordDuplicateFilenameUnder faults settings plan.project w.filename
    return 0

/-- One turn of the loop over `changed_wheels`. -/
def applyChangeUnder (change : ChangedWheel) : Op Unit := do
  let seq ← Program.seq
  let _ ← faulty (faults (.updateWheel change.wheelId)) (Op.updateWheel change.wheelId fun row =>
    { change.changes.apply row with changeSeq := seq, updatedAt := settings.nowIso })
  if change.deleteNoSidecarSkip then
    let _ ← faulty (faults (.deleteSkips change.wheelId)) (Op.deleteSkips fun id row =>
      id = change.wheelId ∧ row.reason = noSidecarSkipReason ∧ row.permanent)
  if change.deleteRepodata then
    let _ ← faulty (faults (.deleteRepodata change.wheelId))
      (Op.deleteRepodata fun id => id = change.wheelId)

/-- One turn of the loops that tombstone. -/
def tombstoneUnder (nowIso : String) (wheelId : ℕ) : Op Unit := do
  let seq ← Program.seq
  let _ ← faulty (faults (.tombstone wheelId)) (Op.updateWheel wheelId (tombstoned nowIso seq))

/-- `_build_project_write_op._apply`. -/
def projectApplyUnder (plan : ProjectPlan) : Op ApplyResult := do
  let inserted ← Program.each (insertNewWheelUnder faults settings plan) plan.newWheels
  let updated ← Program.each (applyChangeUnder faults settings) plan.changedWheels
  let deleted ← Program.each (tombstoneUnder faults settings.nowIso) plan.vanishedWheelIds
  let _ ← faulty (faults .upsertIndex)
    (Op.upsertIndex plan.project ⟨plan.remoteSerial, settings.nowIso⟩)
  return ⟨inserted.sum, updated.length, deleted.length, false⟩

/-- The `while True` of `_build_gone_write_op._apply`. -/
def goneLoopUnder (name nowIso : String) : ℕ → List ℕ → Op ℕ
  | _, [] => return 0
  | 0, _ => return 0
  | turns + 1, ids => do
      let deleted ← Program.each (tombstoneUnder faults nowIso) ids
      let rows ← faulty (faults (.selectAgain turns))
        (Program.query fun db => (liveWheelIds name db).take defaultGoneChunkSize)
      let rest ← goneLoopUnder name nowIso turns rows
      return deleted.length + rest

/-- `_build_gone_write_op._apply`. -/
def goneApplyUnder (name nowIso : String) : Op ApplyResult := do
  let ids ← faulty (faults .selectProject) (Program.query (liveWheelIds name))
  let deleted ← goneLoopUnder faults name nowIso ids.length (ids.take defaultGoneChunkSize)
  let _ ← faulty (faults .deleteIndex) (Op.deleteIndex name)
  return ⟨0, 0, deleted, true⟩

end Ops

/-- Without faults the op is the one of `_build_project_write_op`. -/
theorem projectApplyUnder_none (settings : Settings) (plan : ProjectPlan) :
    projectApplyUnder (fun _ => none) settings plan = projectApply settings plan := rfl

/-! ## A fault is raised, or it is that of a new wheel -/

variable {faults : Faults} {settings : Settings} {plan : ProjectPlan} {db : Db} {n : ℕ}

theorem raisesOrRuns_faulty {α : Type} (fault : Option OpError) (statement : Op α) (db : Db)
    (n : ℕ) : (faulty fault statement).RaisesOrRuns statement db n := by
  cases fault with
  | none => exact .refl statement db n
  | some e => exact .raise e

theorem raisesOrRuns_faultyTry {fault : Option OpError} {f : Db → Option Db}
    (h : fault = some .integrity → f db = none) (n : ℕ) :
    (faultyTry fault f).RaisesOrRuns (Op.tryInsert f) db n := by
  rcases fault with _ | _ | _ | _ | _
  · exact .refl _ db n
  · exact .raise _
  · refine Or.inr ?_
    rw [Op.run_tryInsert, h rfl]
    rfl
  · exact .raise _
  · exact .raise _

theorem raisesOrRuns_insertNewWheel {w : NewWheel}
    (h : db.named w.filename = none → faults (.insertWheel w.filename) ≠ some .integrity)
    (n : ℕ) : (insertNewWheelUnder faults settings plan w).RaisesOrRuns
      (insertNewWheel settings plan w) db n := by
  refine (Program.RaisesOrRuns.refl Program.seq db n).bind fun db' n' seq hseq => ?_
  obtain ⟨rfl, rfl, -⟩ := Program.Result.mk.inj hseq
  refine (raisesOrRuns_faultyTry (fun hfault => ?_) _).bind fun db' n' inserted _ => ?_
  · rw [Db.insertWheel, if_pos]
    by_contra hfree
    refine h ?_ hfault
    rw [Db.named, List.find?_eq_none]
    intro r hr heq
    exact hfree (List.any_eq_true.mpr ⟨r, hr, heq⟩)
  · cases inserted with
    | true =>
        cases w.unlinkedBlobFilename with
        | none => exact .refl _ _ _
        | some filename =>
            exact (raisesOrRuns_faulty _ _ _ _).bind fun _ _ _ _ => .refl _ _ _
    | false =>
        refine Program.RaisesOrRuns.bind ?_ fun _ _ _ _ => .refl _ _ _
        refine (raisesOrRuns_faulty _ _ _ _).bind fun _ _ _ _ => ?_
        exact (raisesOrRuns_faulty _ _ _ _).bind fun _ _ _ _ => .refl _ _ _

theorem raisesOrRuns_newWheels {ws : List NewWheel} (hdb : db.Constrained)
    (hnames : (ws.map NewWheel.filename).Nodup)
    (h : ∀ w ∈ ws, db.named w.filename = none → faults (.insertWheel w.filename) ≠ some .integrity)
    (n : ℕ) : (Program.each (insertNewWheelUnder faults settings plan) ws).RaisesOrRuns
      (Program.each (insertNewWheel settings plan) ws) db n := by
  induction ws generalizing db n with
  | nil => exact .refl _ db n
  | cons w ws ih =>
      obtain ⟨hnot, hrest⟩ := List.nodup_cons.mp hnames
      refine (raisesOrRuns_insertNewWheel (h w (by simp)) n).bind fun db' n' i hrun => ?_
      obtain ⟨db₁, i₁, hrun₁, hone, -⟩ := run_insertNewWheel_all settings plan hdb w n
      obtain ⟨rfl, -, -⟩ := Program.Result.mk.inj (hrun.symm.trans hrun₁)
      refine (ih hone.constrained hrest (fun w' hw' hnone => ?_) n').bind
        fun _ _ _ _ => .refl _ _ _
      refine h w' (by simp [hw']) ?_
      rw [← hnone, hone.named_eq fun w'' hw'' => ?_]
      rw [List.mem_singleton.mp hw'']
      exact fun heq => hnot (List.mem_map.mpr ⟨w', hw', heq.symm⟩)

theorem raisesOrRuns_applyChange (c : ChangedWheel) (db : Db) (n : ℕ) :
    (applyChangeUnder faults settings c).RaisesOrRuns (applyChange settings c) db n := by
  obtain ⟨wheelId, changes, deletesSkip, deletesRepodata⟩ := c
  refine (Program.RaisesOrRuns.refl Program.seq db n).bind fun db' n' seq _ => ?_
  refine (raisesOrRuns_faulty _ _ _ _).bind fun _ _ _ _ => ?_
  cases deletesSkip with
  | true =>
      refine (raisesOrRuns_faulty _ _ _ _).bind fun _ _ _ _ => ?_
      cases deletesRepodata with
      | true => exact (raisesOrRuns_faulty _ _ _ _).bind fun _ _ _ _ => .refl _ _ _
      | false => exact .refl _ _ _
  | false =>
      cases deletesRepodata with
      | true => exact (raisesOrRuns_faulty _ _ _ _).bind fun _ _ _ _ => .refl _ _ _
      | false => exact .refl _ _ _

theorem raisesOrRuns_tombstone (nowIso : String) (id : ℕ) (db : Db) (n : ℕ) :
    (tombstoneUnder faults nowIso id).RaisesOrRuns (tombstone nowIso id) db n := by
  refine (Program.RaisesOrRuns.refl Program.seq db n).bind fun db' n' seq _ => ?_
  exact (raisesOrRuns_faulty _ _ _ _).bind fun _ _ _ _ => .refl _ _ _

theorem raisesOrRuns_projectApply (hdb : db.Constrained)
    (hnames : (plan.newWheels.map NewWheel.filename).Nodup)
    (h : ∀ w ∈ plan.newWheels, db.named w.filename = none →
      faults (.insertWheel w.filename) ≠ some .integrity) (n : ℕ) :
    (projectApplyUnder faults settings plan).RaisesOrRuns (projectApply settings plan) db n := by
  refine (raisesOrRuns_newWheels hdb hnames h n).bind fun db₁ n₁ _ _ => ?_
  refine (Program.RaisesOrRuns.each (fun c _ => raisesOrRuns_applyChange c) db₁ n₁).bind
    fun db₂ n₂ _ _ => ?_
  refine (Program.RaisesOrRuns.each (fun id _ => raisesOrRuns_tombstone _ id) db₂ n₂).bind
    fun db₃ n₃ _ _ => ?_
  exact (raisesOrRuns_faulty _ _ db₃ n₃).bind fun _ _ _ _ => .refl _ _ _

theorem raisesOrRuns_goneLoop (name nowIso : String) (turns : ℕ) (ids : List ℕ) (db : Db) (n : ℕ) :
    (goneLoopUnder faults name nowIso turns ids).RaisesOrRuns (goneLoop name nowIso turns ids)
      db n := by
  induction turns generalizing ids db n with
  | zero => cases ids <;> exact .refl _ _ _
  | succ turns ih =>
      cases ids with
      | nil => exact .refl _ _ _
      | cons id ids =>
          refine (Program.RaisesOrRuns.each (fun id _ => raisesOrRuns_tombstone _ id) db n).bind
            fun db₁ n₁ _ _ => ?_
          refine (raisesOrRuns_faulty _ _ db₁ n₁).bind fun db₂ n₂ rows _ => ?_
          exact (ih rows db₂ n₂).bind fun _ _ _ _ => .refl _ _ _

theorem raisesOrRuns_goneApply (name nowIso : String) (db : Db) (n : ℕ) :
    (goneApplyUnder faults name nowIso).RaisesOrRuns (goneApply name nowIso) db n := by
  refine (raisesOrRuns_faulty _ _ db n).bind fun db₁ n₁ ids _ => ?_
  refine (raisesOrRuns_goneLoop name nowIso _ _ db₁ n₁).bind fun db₂ n₂ _ _ => ?_
  exact (raisesOrRuns_faulty _ _ db₂ n₂).bind fun _ _ _ _ => .refl _ _ _

/-! ## A refused wheel stays away -/

/-- A write that gives no row a filename. -/
def LeavesFree (filename : String) (f : Db → Except OpError (Db × ℕ)) : Prop :=
  ∀ db db' count, f db = .ok (db', count) → db.named filename = none → db'.named filename = none

theorem leavesFree_of_wheels {filename : String} {f : Db → Except OpError (Db × ℕ)}
    (h : ∀ db db' count, f db = .ok (db', count) → db'.wheels = db.wheels) :
    LeavesFree filename f := by
  intro db db' count hok hnone
  rw [Db.named_congr (h db db' count hok), hnone]

theorem leavesFree_exec {filename : String} {f : Db → Db} {rowcount : Db → ℕ}
    (h : ∀ db, (f db).wheels = db.wheels) :
    (Op.exec f rowcount).Writes (LeavesFree filename) := by
  refine Program.writes_write.mpr (leavesFree_of_wheels fun db db' count hok => ?_)
  obtain ⟨rfl, -⟩ : f db = db' ∧ rowcount db = count := by simpa using hok
  exact h db

theorem leavesFree_updateWheel {filename : String} {id : ℕ} {f : WheelRow → WheelRow}
    (hf : ∀ row, (f row).filename = row.filename) :
    (Op.updateWheel id f).Writes (LeavesFree filename) := by
  refine Program.writes_write.mpr fun db db' count hok hnone => ?_
  obtain ⟨rfl, -⟩ : Db.updateWheels (fun id' _ => id' = id) f db = db' ∧ _ = count := by
    simpa using hok
  refine Db.named_eq_none_iff.mpr fun id' row hrow => ?_
  simp only [Db.updateWheels, Table.get?_modify, Option.map_eq_some_iff] at hrow
  obtain ⟨row', hrow', rfl⟩ := hrow
  have hname := Db.named_eq_none_iff.mp hnone id' row' hrow'
  split
  · rwa [hf]
  · exact hname

theorem leavesFree_insertWheel {filename : String} {row : WheelRow}
    (hne : row.filename ≠ filename) :
    (Op.tryInsert (Db.insertWheel row)).Writes (LeavesFree filename) := by
  refine Program.writes_bind (Program.writes_attempt.mpr fun db db' count hok hnone => ?_)
    fun result => ?_
  · cases hinsert : db.insertWheel row with
    | none => simp [hinsert] at hok
    | some db'' =>
        obtain ⟨rfl, -⟩ : db'' = db' ∧ 1 = count := by simpa [hinsert] using hok
        rw [(Db.insertWheel_eq_some_iff.mp hinsert).2]
        refine Db.named_eq_none_iff.mpr fun id r hr => ?_
        rw [Db.get?_addWheel] at hr
        by_cases hid : id = nextId db.wheels
        · rw [if_pos hid] at hr
          rw [← Option.some.inj hr]
          exact hne
        · rw [if_neg hid] at hr
          exact Db.named_eq_none_iff.mp hnone id r hr
  · rcases result with (_ | _ | _ | _) | count
    · exact Program.writes_raise _
    · exact Program.writes_pure _
    · exact Program.writes_raise _
    · exact Program.writes_raise _
    · exact Program.writes_pure _

theorem writes_faulty {α : Type} {P : (Db → Except OpError (Db × ℕ)) → Prop}
    {fault : Option OpError} {statement : Op α} (h : statement.Writes P) :
    (faulty fault statement).Writes P := by
  cases fault with
  | none => exact h
  | some e => trivial

theorem leavesFree_faultyTry {filename : String} {fault : Option OpError} {row : WheelRow}
    (h : row.filename = filename → fault = some .integrity) :
    (faultyTry fault (Db.insertWheel row)).Writes (LeavesFree filename) := by
  by_cases hname : row.filename = filename
  · rw [h hname]
    exact Program.writes_pure false
  · rcases fault with _ | _ | _ | _ | _
    · exact leavesFree_insertWheel hname
    · trivial
    · trivial
    · trivial
    · trivial

theorem leavesFree_recordDuplicateFilename (project : String) {filename name : String} :
    (recordDuplicateFilenameUnder faults settings project filename).Writes (LeavesFree name) := by
  refine Program.writes_bind (writes_faulty (Program.writes_query _)) fun wheelId => ?_
  refine Program.writes_bind (writes_faulty ?_) fun _ => Program.writes_pure _
  refine Program.writes_write.mpr (leavesFree_of_wheels fun db db' count hok => ?_)
  cases hinsert : db.insertError (duplicateFilenameRow settings project filename wheelId) with
  | none => simp [hinsert] at hok
  | some db'' =>
      obtain ⟨rfl, -⟩ : db'' = db' ∧ 1 = count := by simpa [hinsert] using hok
      rw [Db.insertError, Option.ite_none_right_eq_some] at hinsert
      rw [← Option.some.inj hinsert.2]

theorem leavesFree_insertNewWheel {filename : String} {w : NewWheel}
    (h : w.filename = filename → faults (.insertWheel w.filename) = some .integrity) :
    (insertNewWheelUnder faults settings plan w).Writes (LeavesFree filename) := by
  refine Program.writes_bind Program.writes_seq fun seq => ?_
  refine Program.writes_bind (leavesFree_faultyTry h) fun inserted => ?_
  cases inserted with
  | true =>
      cases w.unlinkedBlobFilename with
      | none => exact Program.writes_pure _
      | some name =>
          exact Program.writes_bind (writes_faulty (leavesFree_exec fun _ => rfl))
            fun _ => Program.writes_pure _
  | false =>
      exact Program.writes_bind (leavesFree_recordDuplicateFilename _)
        fun _ => Program.writes_pure _

theorem leavesFree_applyChange {filename : String} (c : ChangedWheel) :
    (applyChangeUnder faults settings c).Writes (LeavesFree filename) := by
  obtain ⟨wheelId, changes, deletesSkip, deletesRepodata⟩ := c
  refine Program.writes_bind Program.writes_seq fun seq => ?_
  refine Program.writes_bind (writes_faulty (leavesFree_updateWheel fun _ => rfl)) fun _ => ?_
  have hrepodata : Program.Writes (LeavesFree filename) (if deletesRepodata = true then do
      let _ ← faulty (faults (.deleteRepodata wheelId)) (Op.deleteRepodata fun id => id = wheelId)
      else (Pure.pure () : Op Unit)) := by
    cases deletesRepodata with
    | true =>
        exact Program.writes_bind (writes_faulty (leavesFree_exec fun _ => rfl))
          fun _ => Program.writes_pure _
    | false => exact Program.writes_pure _
  cases deletesSkip with
  | true =>
      exact Program.writes_bind (writes_faulty (leavesFree_exec fun _ => rfl)) fun _ => hrepodata
  | false => exact hrepodata

theorem leavesFree_tombstone {filename nowIso : String} (id : ℕ) :
    (tombstoneUnder faults nowIso id).Writes (LeavesFree filename) :=
  Program.writes_bind Program.writes_seq fun _ =>
    Program.writes_bind (writes_faulty (leavesFree_updateWheel fun _ => rfl))
      fun _ => Program.writes_pure _

theorem leavesFree_projectApply {filename : String}
    (h : ∀ w ∈ plan.newWheels, w.filename = filename →
      faults (.insertWheel w.filename) = some .integrity) :
    (projectApplyUnder faults settings plan).Writes (LeavesFree filename) := by
  refine Program.writes_bind (Program.writes_each fun w hw => leavesFree_insertNewWheel (h w hw))
    fun _ => ?_
  refine Program.writes_bind (Program.writes_each fun c _ => leavesFree_applyChange c) fun _ => ?_
  refine Program.writes_bind (Program.writes_each fun id _ => leavesFree_tombstone id) fun _ => ?_
  exact Program.writes_bind (writes_faulty (leavesFree_exec fun _ => rfl))
    fun _ => Program.writes_pure _

/-! ## An op with refused wheels returns -/

section Returns

variable (hfaults : ∀ s e, faults s = some e → ∃ f, s = .insertWheel f ∧ e = .integrity)

include hfaults

theorem returns_faulty {α : Type} {s : Statement} (hs : ∀ f, s ≠ .insertWheel f)
    {statement : Op α} (h : statement.Returns) : (faulty (faults s) statement).Returns := by
  cases hfault : faults s with
  | none => exact h
  | some e =>
      obtain ⟨f, heq, -⟩ := hfaults s e hfault
      exact absurd heq (hs f)

theorem returns_exec {s : Statement} (hs : ∀ f, s ≠ .insertWheel f) (f : Db → Db)
    (rowcount : Db → ℕ) : (faulty (faults s) (Op.exec f rowcount)).Returns :=
  returns_faulty hfaults hs fun db n => ⟨f db, n, rowcount db, rfl⟩

theorem returns_insertWheel (filename : String) (f : Db → Option Db) :
    (faultyTry (faults (.insertWheel filename)) f).Returns := by
  cases hfault : faults (.insertWheel filename) with
  | none =>
      intro db n
      have hrun := Op.run_tryInsert f db n
      cases hf : f db with
      | none =>
          rw [hf] at hrun
          exact ⟨db, n, false, hrun⟩
      | some db' =>
          rw [hf] at hrun
          exact ⟨db', n, true, hrun⟩
  | some e =>
      obtain ⟨-, -, rfl⟩ := hfaults _ _ hfault
      exact Program.Returns.pure false

theorem returns_recordDuplicateFilename (project filename : String) :
    (recordDuplicateFilenameUnder faults settings project filename).Returns := by
  have hselect : faults (.selectWheel filename) = none := by
    cases hfault : faults (.selectWheel filename) with
    | none => rfl
    | some e =>
        obtain ⟨f, heq, -⟩ := hfaults _ e hfault
        cases heq
  have hinsert : faults (.insertError filename) = none := by
    cases hfault : faults (.insertError filename) with
    | none => rfl
    | some e =>
        obtain ⟨f, heq, -⟩ := hfaults _ e hfault
        cases heq
  intro db n
  have hwheel : (duplicateFilenameRow settings project filename
      (wheelIdOf filename db)).wheelId.all (db.hasWheel ·) = true := by
    change (wheelIdOf filename db).all (db.hasWheel ·) = true
    cases hid : wheelIdOf filename db with
    | none => rfl
    | some id =>
        obtain ⟨r, hr, rfl⟩ := Option.map_eq_some_iff.mp hid
        exact Db.hasWheel_iff.mpr ⟨r.2, Table.get?_eq_some_iff.mpr (List.mem_of_find?_eq_some hr)⟩
  refine ⟨db.addError (duplicateFilenameRow settings project filename (wheelIdOf filename db)), n,
    (), ?_⟩
  rw [recordDuplicateFilenameUnder, hselect, hinsert]
  exact (Program.run_bind_ok (Program.run_query _ db n)).trans <| Program.run_bind_ok <|
    Op.run_insert_of_some (Db.insertError_eq hwheel) n

theorem returns_insertNewWheel (w : NewWheel) :
    (insertNewWheelUnder faults settings plan w).Returns := by
  refine Program.Returns.seq.bind fun seq => ?_
  refine (returns_insertWheel hfaults w.filename _).bind fun inserted => ?_
  cases inserted with
  | true =>
      cases w.unlinkedBlobFilename with
      | none => exact Program.Returns.pure 1
      | some filename =>
          exact (returns_exec hfaults (by simp) _ _).bind fun _ => Program.Returns.pure 1
  | false =>
      exact (returns_recordDuplicateFilename hfaults _ _).bind fun _ => Program.Returns.pure 0

theorem returns_applyChange (c : ChangedWheel) : (applyChangeUnder faults settings c).Returns := by
  obtain ⟨wheelId, changes, deletesSkip, deletesRepodata⟩ := c
  refine Program.Returns.seq.bind fun seq => ?_
  refine (returns_exec hfaults (by simp) _ _).bind fun _ => ?_
  have hrepodata : Program.Returns (if deletesRepodata = true then do
      let _ ← faulty (faults (.deleteRepodata wheelId)) (Op.deleteRepodata fun id => id = wheelId)
      else (Pure.pure () : Op Unit)) := by
    cases deletesRepodata with
    | true => exact (returns_exec hfaults (by simp) _ _).bind fun _ => Program.Returns.pure ()
    | false => exact Program.Returns.pure ()
  cases deletesSkip with
  | true => exact (returns_exec hfaults (by simp) _ _).bind fun _ => hrepodata
  | false => exact hrepodata

theorem returns_tombstone (nowIso : String) (id : ℕ) :
    (tombstoneUnder faults nowIso id).Returns :=
  Program.Returns.seq.bind fun _ =>
    (returns_exec hfaults (by simp) _ _).bind fun _ => Program.Returns.pure ()

variable (settings plan) in
theorem returns_projectApply : (projectApplyUnder faults settings plan).Returns := by
  refine (Program.Returns.each (returns_insertNewWheel hfaults) _).bind fun _ => ?_
  refine (Program.Returns.each (returns_applyChange hfaults) _).bind fun _ => ?_
  refine (Program.Returns.each (returns_tombstone hfaults _) _).bind fun _ => ?_
  exact (returns_exec hfaults (by simp) _ _).bind fun _ => Program.Returns.pure _

end Returns

/-! ## Serial and rows -/

/-- The rows that a plan was computed from are still those of the project. -/
def Held (name : String) (db : Db) (rows : Table String (ℕ × WheelRow)) : Prop :=
  ∀ f r, rows.get? f = some r →
    ∃ row, db.wheels.get? r.1 = some row ∧ row.project = name ∧ row.filename = f

/-- The rows of other projects that have a new wheel's filename, and the archived bytes
of a filename that is taken, are left alone. -/
structure OthersKept (plan : ProjectPlan) (db db' : Db) : Prop where
  named : ∀ w ∈ plan.newWheels, ∀ r, db.named w.filename = some r →
    r.2.project ≠ plan.project → db'.named w.filename = some r
  unlinkedBlobs : ∀ w ∈ plan.newWheels, ∀ r, db.named w.filename = some r →
    db'.unlinkedBlobs.get? w.filename = db.unlinkedBlobs.get? w.filename

/-- The op of a plan leaves nothing, or it leaves all of the plan: its rows, the deletions
that go with them, the serial, and one error for each filename that is taken. -/
def MovesTogether (faults : Faults) (settings : Settings) (plan : ProjectPlan) (db : Db) (n : ℕ) :
    Prop :=
  let run := (projectApplyUnder faults settings plan).runAtomic db n
  (∃ e, run.value = .error e ∧ run.db = db) ∨
    (∃ result, run.value = .ok result) ∧ Applied settings plan db run.db ∧ OthersKept plan db run.db

/-- The op of a project that is gone leaves nothing, or every tombstone and no serial. -/
def GoneTogether (faults : Faults) (settings : Settings) (name : String) (db : Db) (n : ℕ) : Prop :=
  let run := (goneApplyUnder faults name settings.nowIso).runAtomic db n
  (∃ e, run.value = .error e ∧ run.db = db) ∨
    (∃ result, run.value = .ok result) ∧ GoneSynced settings name db run.db

section Plan

variable {name : String} {page : ProjectPage} {rows : Table String (ℕ × WheelRow)}
  {unlinked : String → Option String} {db' : Db}

variable (settings page unlinked n) in
theorem Held.applied (hheld : Held name db rows) (hdb : db.Constrained) :
    ∃ db' n' result,
      (projectApply settings (planProject name page rows unlinked)).runAtomic db n =
        ⟨db', n', .ok result⟩ ∧
      Applied settings (planProject name page rows unlinked) db db' := by
  have hids : ∀ id ∈ (planProject name page rows unlinked).wheelIds, db.hasWheel id = true := by
    intro id hid
    obtain ⟨f, row, hrow⟩ := exists_local_of_mem_wheelIds hid
    obtain ⟨row', hrow', -⟩ := hheld f _ hrow
    exact Db.hasWheel_iff.mpr ⟨row', hrow'⟩
  have hinj : ∀ f f' r r', rows.get? f = some r → rows.get? f' = some r' → r.1 = r'.1 → f = f' := by
    intro f f' r r' hr hr' hid
    obtain ⟨row, hrow, -, hname⟩ := hheld f r hr
    obtain ⟨row', hrow', -, hname'⟩ := hheld f' r' hr'
    rw [hid, hrow'] at hrow
    rw [← hname, ← hname', Option.some.inj hrow]
  obtain ⟨db', hrun, happlied⟩ := runAtomic_projectApply_applied settings
    (nodup_changedWheels hinj) nodup_filename_newWheels hdb hids n
  exact ⟨db', _, _, hrun, happlied⟩

theorem Held.othersKept (hheld : Held name db rows)
    (h : Applied settings (planProject name page rows unlinked) db db') :
    OthersKept (planProject name page rows unlinked) db db' where
  named w _ r hnamed hother := by
    obtain ⟨m, m', hrow⟩ := h.row w.filename r hnamed
    rw [hrow, plannedRow_of_not_mem]
    intro hid
    obtain ⟨f, row, hlocal⟩ := exists_local_of_mem_wheelIds hid
    obtain ⟨row', hrow', hproject, -⟩ := hheld f _ hlocal
    rw [(Db.get?_of_named hnamed).1] at hrow'
    rw [← Option.some.inj hrow'] at hproject
    exact hother hproject
  unlinkedBlobs w _ r hnamed := by
    rw [h.unlinkedBlobs, if_neg]
    rintro ⟨w', hw', hname⟩
    obtain ⟨hmem, hfree⟩ := List.mem_filter.mp hw'
    obtain ⟨file, -, -, heq⟩ := mem_newWheels_iff.mp hmem
    have hsame : w'.filename = w.filename := by
      rw [heq] at hname ⊢
      obtain ⟨blob, -, hfile⟩ := Option.map_eq_some_iff.mp hname
      exact hfile
    rw [hsame, hnamed] at hfree
    cases hfree

theorem goneTogether (hdb : db.Constrained) (faults : Faults) :
    GoneTogether faults settings name db n := by
  have hgone : GoneSynced settings name db ((goneApply name settings.nowIso).runAtomic db n).db :=
    goneSynced_applyProjectOutcome settings n hdb
  obtain ⟨wheels, n', result, hrun, -⟩ := runAtomic_goneApply name settings.nowIso db n
  have hraises : (goneApplyUnder faults name settings.nowIso).RaisesOrRuns
      (goneApply name settings.nowIso) db n := raisesOrRuns_goneApply name settings.nowIso db n
  rcases hraises.runAtomic with hraised | hsame
  · exact Or.inl hraised
  · refine Or.inr ⟨⟨result, ?_⟩, ?_⟩
    · rw [hsame, hrun]
    · rw [hsame]
      exact hgone

variable (settings page unlinked n) in
/-- Whatever the statements of an ingest's op raise, the op leaves nothing or all of its
plan, exactly when no `INSERT` of a new wheel violates a constraint other than the
uniqueness of its filename. -/
theorem serial_moves_with_rows_iff (hdb : db.Constrained) (hheld : Held name db rows)
    (violates : String → Bool) :
    ((∀ faults : Faults,
        (∀ f, faults (.insertWheel f) = some .integrity ↔ violates f = true) →
          MovesTogether faults settings (planProject name page rows unlinked) db n) ∧
      ∀ faults, GoneTogether faults settings name db n) ↔
    ∀ w ∈ (planProject name page rows unlinked).newWheels, db.named w.filename = none →
      violates w.filename = false := by
  obtain ⟨db', n', result, hrun, happlied⟩ := hheld.applied settings n page unlinked hdb
  constructor
  · rintro ⟨hmoves, -⟩ w hw hnone
    by_contra hviolates
    have hviolates : violates w.filename = true := by simpa using hviolates
    -- nothing raises but the inserts that violate a constraint
    let faults : Faults := fun s =>
      match s with
      | .insertWheel f => if violates f then some .integrity else none
      | _ => none
    have hfaults : ∀ s e, faults s = some e → ∃ f, s = .insertWheel f ∧ e = .integrity := by
      intro s e hfault
      cases s with
      | insertWheel f =>
          obtain ⟨-, heq⟩ := Option.ite_none_right_eq_some.mp hfault
          exact ⟨f, rfl, (Option.some.inj heq).symm⟩
      | _ => cases hfault
    have hinsert : ∀ f, faults (.insertWheel f) = some .integrity ↔ violates f = true := by
      intro f
      by_cases hf : violates f = true <;> simp [faults, hf]
    obtain ⟨db₁, n₁, result₁, hrun₁⟩ := returns_projectApply settings
      (planProject name page rows unlinked) hfaults db n
    have hatomic := Program.runAtomic_of_ok hrun₁
    have hfree : db₁.named w.filename = none := by
      have hwrites : (projectApplyUnder faults settings
          (planProject name page rows unlinked)).Writes (LeavesFree w.filename) :=
        leavesFree_projectApply fun w' _ hname => (hinsert _).mpr (hname ▸ hviolates)
      have hleft := Program.run_rel
        (R := fun db db' : Db => db.named w.filename = none → db'.named w.filename = none)
        (fun _ => id) (fun _ _ _ h h' => h' ∘ h) hwrites db n
      rw [hrun₁] at hleft
      exact hleft hnone
    have hmoved := hmoves faults hinsert
    simp only [MovesTogether, hatomic] at hmoved
    rcases hmoved with ⟨e, hraised, -⟩ | ⟨-, happlied₁, -⟩
    · cases hraised
    · obtain ⟨id, m, -, hadded⟩ := happlied₁.added w hw hnone
      rw [hfree] at hadded
      cases hadded
  · intro hviolates
    refine ⟨fun faults hinsert => ?_, goneTogether hdb⟩
    have hcaught : ∀ w ∈ (planProject name page rows unlinked).newWheels,
        db.named w.filename = none → faults (.insertWheel w.filename) ≠ some .integrity := by
      intro w hw hnone hfault
      rw [hinsert, hviolates w hw hnone] at hfault
      cases hfault
    have hraises : (projectApplyUnder faults settings
        (planProject name page rows unlinked)).RaisesOrRuns
          (projectApply settings (planProject name page rows unlinked)) db n :=
      raisesOrRuns_projectApply hdb nodup_filename_newWheels hcaught n
    rcases hraises.runAtomic with hraised | hsame
    · exact Or.inl hraised
    · rw [hrun] at hsame
      refine Or.inr ?_
      rw [hsame]
      exact ⟨⟨result, rfl⟩, happlied, hheld.othersKept happlied⟩

end Plan

/-- A page of one wheel. -/
def oneWheelPage : ProjectPage :=
  ⟨5, [{ filename := "p-1.0-py3-none-any.whl", url := "https://files/p-1.0-py3-none-any.whl" }]⟩

theorem held_empty (name : String) (db : Db) : Held name db ∅ := fun _ _ hr => by cases hr

theorem serial_moves_with_one_wheel :
    (∀ faults : Faults, (∀ f, faults (.insertWheel f) = some .integrity ↔ false = true) →
      MovesTogether faults ⟨"t1", "v", id⟩ (planProject "p" oneWheelPage ∅ fun _ => none)
        Db.empty 0) ∧
      ∀ faults, GoneTogether faults ⟨"t1", "v", id⟩ "p" Db.empty 0 :=
  (serial_moves_with_rows_iff ⟨"t1", "v", id⟩ 0 oneWheelPage (fun _ => none) Db.constrained_empty
    (held_empty "p" Db.empty) fun _ => false).mpr fun _ _ _ => rfl

/-- The wheel of a page whose `url` is null violates `NOT NULL`. -/
def nullUrl : Faults
  | .insertWheel _ => some .integrity
  | _ => none

/-- A wheel that sqlite refuses for its null `url` is recorded as a duplicate, and the
serial moves without its row. -/
theorem serial_moves_without_row :
    let run := (projectApplyUnder nullUrl ⟨"t1", "v", id⟩
      (planProject "p" oneWheelPage ∅ fun _ => none)).runAtomic Db.empty 0
    run.db.pypiIndex.get? "p" = some ⟨5, "t1"⟩ ∧ run.db.wheels.rows = [] ∧
      run.db.errors.rows.map (fun r => r.2.errorCategory) = ["duplicate_filename"] ∧
        ¬MovesTogether nullUrl ⟨"t1", "v", id⟩ (planProject "p" oneWheelPage ∅ fun _ => none)
          Db.empty 0 := by
  have hrun : ((projectApplyUnder nullUrl ⟨"t1", "v", id⟩
      (planProject "p" oneWheelPage ∅ fun _ => none)).runAtomic Db.empty 0).db.wheels.rows = [] ∧
        ((projectApplyUnder nullUrl ⟨"t1", "v", id⟩
          (planProject "p" oneWheelPage ∅ fun _ => none)).runAtomic Db.empty 0).db ≠ Db.empty := by
    decide
  refine ⟨by decide, hrun.1, by decide, ?_⟩
  rintro (⟨e, -, hsame⟩ | ⟨-, happlied, -⟩)
  · exact hrun.2 hsame
  · have hnew : ∃ w ∈ (planProject "p" oneWheelPage ∅ fun _ => none).newWheels,
        Db.empty.named w.filename = none := by decide
    obtain ⟨w, hw, hnone⟩ := hnew
    obtain ⟨id, m, -, hadded⟩ := happlied.added w hw hnone
    rw [Db.named, hrun.1] at hadded
    cases hadded

end RerollSync.Ingest
