import RerollSync.Ingest.Apply
import RerollSync.Store.Filenames

/-!
# What the ingest's ops leave

The database after a project's plan, and after a project is gone, in terms of
the database before.
-/

namespace RerollSync.Ingest

open RerollSync.Store RerollSync.Support

variable {settings : Settings} {plan : ProjectPlan}

/-! ## New wheels -/

/-- The database with a new wheel's row in it. -/
def insertEffect (settings : Settings) (plan : ProjectPlan) (seq : ℕ) (w : NewWheel) (db : Db) :
    Db :=
  match w.unlinkedBlobFilename with
  | none => db.addWheel (newWheelRow plan settings seq w)
  | some filename => (db.addWheel (newWheelRow plan settings seq w)).deleteUnlinkedBlob filename

variable (settings) in
/-- A filename that no wheel holds: the row is inserted. -/
theorem run_insertNewWheel_of_free {w : NewWheel} {db : Db} (hfree : db.named w.filename = none)
    (n : ℕ) : (insertNewWheel settings plan w).run db n =
      ⟨insertEffect settings plan (n + 1) w db, n + 1, .ok 1⟩ := by
  have hinsert : db.insertWheel (newWheelRow plan settings (n + 1) w) =
      some (db.addWheel (newWheelRow plan settings (n + 1) w)) := by
    refine Db.insertWheel_eq_some_iff.mpr ⟨fun r hr => ?_, rfl⟩
    exact Db.named_eq_none_iff.mp hfree r.1 r.2 (Table.get?_eq_some_iff.mpr hr)
  have htry := Op.run_tryInsert (Db.insertWheel (newWheelRow plan settings (n + 1) w)) db (n + 1)
  rw [hinsert] at htry
  refine (Program.run_bind_ok (Program.run_seq db n)).trans
    ((Program.run_bind_ok htry).trans ?_)
  cases hunlinked : w.unlinkedBlobFilename with
  | none => simp [insertEffect, hunlinked]
  | some filename =>
      simp only [if_true, insertEffect, hunlinked]
      rfl

variable (settings) in
/-- A filename that a wheel holds: the refusal is recorded and nothing else changes. -/
theorem run_insertNewWheel_of_taken {w : NewWheel} {db : Db} {r : ℕ × WheelRow}
    (htaken : db.named w.filename = some r) (n : ℕ) :
    (insertNewWheel settings plan w).run db n =
      ⟨db.addError (duplicateFilenameRow settings plan.project w.filename (some r.1)), n + 1,
        .ok 0⟩ := by
  obtain ⟨hrow, hname⟩ := Db.get?_of_named htaken
  have hinsert : db.insertWheel (newWheelRow plan settings (n + 1) w) = none := by
    cases h : db.insertWheel (newWheelRow plan settings (n + 1) w) with
    | none => rfl
    | some db' =>
        have hfree := (Db.insertWheel_eq_some_iff.mp h).1 r (Table.get?_eq_some_iff.mp hrow)
        exact (hfree hname).elim
  have htry := Op.run_tryInsert (Db.insertWheel (newWheelRow plan settings (n + 1) w)) db (n + 1)
  rw [hinsert] at htry
  have hid : wheelIdOf w.filename db = some r.1 := congrArg (Option.map Prod.fst) htaken
  have hwheel : db.hasWheel r.1 = true := Db.hasWheel_iff.mpr ⟨r.2, hrow⟩
  have herror : (recordDuplicateFilename settings plan.project w.filename).run db (n + 1) =
      ⟨db.addError (duplicateFilenameRow settings plan.project w.filename (some r.1)), n + 1,
        .ok ()⟩ := by
    refine (Program.run_bind_ok (Program.run_query _ db (n + 1))).trans ?_
    rw [hid]
    exact Program.run_bind_ok
      (Op.run_insert_of_some (Db.insertError_eq (by simpa [duplicateFilenameRow])) _)
  exact (Program.run_bind_ok (Program.run_seq db n)).trans <|
    (Program.run_bind_ok htry).trans (Program.run_bind_ok herror)

/-- A row that a plan inserts: that of a new wheel whose filename no wheel holds. -/
def Inserts (settings : Settings) (plan : ProjectPlan) (db : Db) (row : WheelRow) : Prop :=
  ∃ w ∈ plan.newWheels, (∀ r ∈ db.wheels.rows, r.2.filename ≠ w.filename) ∧
    ∃ m, row = newWheelRow plan settings m w

/-- What inserting new wheels does to the database: rows already there stay, the
rows that appear are new wheels of the plan, and the tables of other stages are
untouched. -/
structure Inserted (settings : Settings) (plan : ProjectPlan) (db db' : Db) : Prop where
  kept : ∀ id row, db.wheels.get? id = some row → db'.wheels.get? id = some row
  fresh : ∀ id row, db.wheels.get? id = none → db'.wheels.get? id = some row →
    Inserts settings plan db row
  wheelRepodata : db'.wheelRepodata = db.wheelRepodata
  skips : db'.skips = db.skips
  work : db'.work = db.work
  segments : db'.segments = db.segments
  blobs : db'.blobs = db.blobs
  pypiIndex : db'.pypiIndex = db.pypiIndex

variable (settings plan) in
theorem Inserted.refl (db : Db) : Inserted settings plan db db :=
  ⟨fun _ _ h => h, fun _ _ hnone hsome => by simp [hnone] at hsome, rfl, rfl, rfl, rfl, rfl, rfl⟩

theorem Inserted.trans {db db' db'' : Db} (h : Inserted settings plan db db')
    (h' : Inserted settings plan db' db'') : Inserted settings plan db db'' where
  kept id row hrow := h'.kept id row (h.kept id row hrow)
  fresh id row hnone hsome := by
    cases hmid : db'.wheels.get? id with
    | none =>
        obtain ⟨w, hw, hfree, m, rfl⟩ := h'.fresh id row hmid hsome
        refine ⟨w, hw, fun r hr => hfree r ?_, m, rfl⟩
        exact Table.get?_eq_some_iff.mp (h.kept r.1 r.2 (Table.get?_eq_some_iff.mpr hr))
    | some row' =>
        obtain rfl : row' = row := by simpa [h'.kept id row' hmid] using hsome
        exact h.fresh id row' hnone hmid
  wheelRepodata := h'.wheelRepodata.trans h.wheelRepodata
  skips := h'.skips.trans h.skips
  work := h'.work.trans h.work
  segments := h'.segments.trans h.segments
  blobs := h'.blobs.trans h.blobs
  pypiIndex := h'.pypiIndex.trans h.pypiIndex

variable (settings) in
/-- A fresh id leaves the other rows alone. -/
theorem inserted_insertNew {w : NewWheel} (hw : w ∈ plan.newWheels) {db : Db}
    (hfree : ∀ r ∈ db.wheels.rows, r.2.filename ≠ w.filename) (m : ℕ) :
    Inserted settings plan db (db.addWheel (newWheelRow plan settings m w)) where
  kept id row hrow := by
    have hne : id ≠ nextId db.wheels := fun h => by
      rw [h, get?_nextId] at hrow
      cases hrow
    rw [Db.addWheel, Table.get?_insertNew, if_neg hne, hrow]
  fresh id row hnone hsome := by
    rw [Db.addWheel, Table.get?_insertNew, get?_nextId] at hsome
    by_cases hid : id = nextId db.wheels
    · rw [if_pos hid] at hsome
      exact ⟨w, hw, hfree, m, by simpa using hsome.symm⟩
    · rw [if_neg hid, hnone] at hsome
      cases hsome
  wheelRepodata := rfl
  skips := rfl
  work := rfl
  segments := rfl
  blobs := rfl
  pypiIndex := rfl

variable (settings) in
/-- A turn of the loop over the new wheels never raises: it inserts the row, or
records the filename as a duplicate. -/
theorem run_insertNewWheel {w : NewWheel} (hw : w ∈ plan.newWheels) (db : Db) (n : ℕ) :
    ∃ db' inserted, (insertNewWheel settings plan w).run db n = ⟨db', n + 1, .ok inserted⟩ ∧
      Inserted settings plan db db' := by
  cases hnamed : db.named w.filename with
  | some r =>
      have hrefl := Inserted.refl settings plan db
      exact ⟨_, 0, run_insertNewWheel_of_taken settings hnamed n,
        ⟨hrefl.kept, hrefl.fresh, rfl, rfl, rfl, rfl, rfl, rfl⟩⟩
  | none =>
      have hfree : ∀ r ∈ db.wheels.rows, r.2.filename ≠ w.filename := fun r hr =>
        Db.named_eq_none_iff.mp hnamed r.1 r.2 (Table.get?_eq_some_iff.mpr hr)
      have hrow := inserted_insertNew settings hw hfree (n + 1)
      refine ⟨_, 1, run_insertNewWheel_of_free settings hnamed n, ?_⟩
      unfold insertEffect
      split
      · exact hrow
      · exact ⟨hrow.kept, hrow.fresh, rfl, rfl, rfl, rfl, rfl, rfl⟩

variable (settings) in
theorem run_each_insertNewWheel {l : List NewWheel} (hl : ∀ w ∈ l, w ∈ plan.newWheels) (db : Db)
    (n : ℕ) :
    ∃ db' inserted, (Program.each (insertNewWheel settings plan) l).run db n =
      ⟨db', n + l.length, .ok inserted⟩ ∧ Inserted settings plan db db' := by
  induction l generalizing db n with
  | nil => exact ⟨db, [], rfl, Inserted.refl settings plan db⟩
  | cons w l ih =>
      obtain ⟨db₁, a, hhead, hfirst⟩ := run_insertNewWheel settings (hl w (by simp)) db n
      obtain ⟨db₂, as, htail, hrest⟩ := ih (fun w' hw' => hl w' (by simp [hw'])) db₁ (n + 1)
      refine ⟨db₂, a :: as, ?_, hfirst.trans hrest⟩
      refine ((Program.run_bind_ok hhead).trans (Program.run_bind_ok htail)).trans ?_
      simp [Nat.add_assoc, Nat.add_comm 1]

/-! ## Changed wheels -/

/-- The row that a change leaves. -/
def changedRow (settings : Settings) (change : ChangedWheel) (seq : ℕ) (row : WheelRow) :
    WheelRow :=
  { change.changes.apply row with changeSeq := seq, updatedAt := settings.nowIso }

/-- The skip rows a change deletes. -/
def ChangedWheel.deletesSkip (change : ChangedWheel) (key : ℕ × Stage) (row : SkipRow) : Bool :=
  change.deleteNoSidecarSkip &&
    decide (key.1 = change.wheelId ∧ row.reason = noSidecarSkipReason ∧ row.permanent)

/-- The repodata rows a change deletes. -/
def ChangedWheel.deletesRepodata (change : ChangedWheel) (id : ℕ) : Bool :=
  change.deleteRepodata && decide (id = change.wheelId)

/-- The effect of one change. -/
def changeEffect (settings : Settings) (change : ChangedWheel) (seq : ℕ) (db : Db) : Db :=
  { db.updateWheel change.wheelId (changedRow settings change seq) with
    skips := db.skips.filter fun key row => !change.deletesSkip key row
    wheelRepodata := db.wheelRepodata.filter fun id _ => !change.deletesRepodata id }

theorem run_applyChange (change : ChangedWheel) (db : Db) (n : ℕ) :
    (applyChange settings change).run db n =
      ⟨changeEffect settings change (n + 1) db, n + 1, .ok ()⟩ := by
  rcases change with ⟨id, changes, deleteSkip, deleteRepodata⟩
  have hskips : (db.skips.filter fun _ _ => !false) = db.skips :=
    Table.filter_eq_self fun _ _ => rfl
  have hrepodata : (db.wheelRepodata.filter fun _ _ => !false) = db.wheelRepodata :=
    Table.filter_eq_self fun _ _ => rfl
  cases deleteSkip <;> cases deleteRepodata <;>
    simp only [changeEffect, ChangedWheel.deletesSkip, ChangedWheel.deletesRepodata,
      Bool.false_and, Bool.true_and, hskips, hrepodata] <;>
    rfl

variable (settings) in
/-- The row of a wheel after all changes of a plan; a plan changes a wheel once. -/
theorem run_each_applyChange {changes : List ChangedWheel}
    (hnodup : (changes.map ChangedWheel.wheelId).Nodup) (db : Db) (n : ℕ) :
    ∃ (wheels : Table ℕ WheelRow) (as : List Unit),
      (Program.each (applyChange settings) changes).run db n =
        ⟨{ db with
            wheels := wheels
            skips := db.skips.filter fun key row => !changes.any (·.deletesSkip key row)
            wheelRepodata := db.wheelRepodata.filter fun id _ =>
              !changes.any (·.deletesRepodata id) },
          n + changes.length, .ok as⟩ ∧
      as.length = changes.length ∧
      ∀ id, ∃ m, wheels.get? id = (db.wheels.get? id).map fun row =>
        match changes.find? fun c => c.wheelId = id with
        | some c => changedRow settings c m row
        | none => row := by
  induction changes generalizing db n with
  | nil =>
      refine ⟨db.wheels, [], ?_, rfl, fun id => ⟨0, by simp⟩⟩
      rw [Table.filter_eq_self (by simp), Table.filter_eq_self (by simp)]
      rfl
  | cons c changes ih =>
      obtain ⟨hnotin, hrest⟩ := List.nodup_cons.mp hnodup
      obtain ⟨wheels, as, hrun, hlength, hget⟩ :=
        ih hrest (changeEffect settings c (n + 1) db) (n + 1)
      refine ⟨wheels, () :: as, ?_, by simp [hlength], fun id => ?_⟩
      · refine ((Program.run_bind_ok (run_applyChange c db n)).trans
          (Program.run_bind_ok hrun)).trans ?_
        simp [changeEffect, Db.updateWheel, Db.updateWheels, Table.filter_filter, Nat.add_assoc,
          Nat.add_comm 1, Bool.not_or]
      · obtain ⟨m, hm⟩ := hget id
        have hfirst : (changeEffect settings c (n + 1) db).wheels.get? id =
            (db.wheels.get? id).map
              (Db.atWheel c.wheelId (changedRow settings c (n + 1)) id) := by
          rw [changeEffect]
          simp only [Db.wheels_updateWheel, Table.get?_modify]
        rw [hm, hfirst]
        by_cases hid : c.wheelId = id
        · have hnone : (changes.find? fun c => c.wheelId = id) = none := by
            rw [List.find?_eq_none]
            intro c' hc' heq
            exact hnotin (List.mem_map.mpr ⟨c', hc', by simpa [hid] using heq⟩)
          refine ⟨n + 1, ?_⟩
          cases db.wheels.get? id <;> simp [hid, hnone, Db.atWheel]
        · refine ⟨m, ?_⟩
          cases db.wheels.get? id <;> simp [hid, Ne.symm hid, Db.atWheel]

/-! ## Tombstones -/

theorem run_each_tombstone (nowIso : String) (ids : List ℕ) (db : Db) (n : ℕ) :
    ∃ (wheels : Table ℕ WheelRow) (as : List Unit),
      (Program.each (tombstone nowIso) ids).run db n =
        ⟨{ db with wheels := wheels }, n + ids.length, .ok as⟩ ∧
      as.length = ids.length ∧
      ∀ id, ∃ m, wheels.get? id = (db.wheels.get? id).map fun row =>
        if id ∈ ids then tombstoned nowIso m row else row := by
  have hbody : ∀ id (db : Db) n, ∃ a, (tombstone nowIso id).run db n =
      ⟨db.updateWheels (fun id' _ => id' = id ∧ true) (tombstoned nowIso (n + 1)), n + 1,
        .ok a⟩ := by
    intro id db n
    simp only [and_true]
    exact ⟨(), rfl⟩
  obtain ⟨wheels, as, hrun, hlength, hget⟩ := Op.run_each_updateWheels (p := fun _ => true)
    hbody (fun _ _ _ _ _ => rfl) ids db n
  refine ⟨wheels, as, hrun, hlength, fun id => ?_⟩
  obtain ⟨m, hm⟩ := hget id
  exact ⟨m, by simpa using hm⟩

/-! ## A project's plan -/

/-- The row that a plan leaves in place of a row that was there. -/
def plannedRow (settings : Settings) (plan : ProjectPlan) (id m m' : ℕ) (row : WheelRow) :
    WheelRow :=
  let changed :=
    match plan.changedWheels.find? fun c => c.wheelId = id with
    | some c => changedRow settings c m row
    | none => row
  if id ∈ plan.vanishedWheelIds then tombstoned settings.nowIso m' changed else changed

/-- The rows a plan names. -/
def ProjectPlan.wheelIds (plan : ProjectPlan) : List ℕ :=
  plan.changedWheels.map ChangedWheel.wheelId ++ plan.vanishedWheelIds

/-- What a plan does to the database. -/
structure Synced (settings : Settings) (plan : ProjectPlan) (db db' : Db) : Prop where
  kept : ∀ id row, db.wheels.get? id = some row →
    ∃ m m', db'.wheels.get? id = some (plannedRow settings plan id m m' row)
  fresh : ∀ id row, db.wheels.get? id = none → db'.wheels.get? id = some row →
    Inserts settings plan db row
  wheelRepodata : db'.wheelRepodata =
    db.wheelRepodata.filter fun id _ => !plan.changedWheels.any (·.deletesRepodata id)
  skips : db'.skips = db.skips.filter fun key row => !plan.changedWheels.any (·.deletesSkip key row)
  work : db'.work = db.work
  segments : db'.segments = db.segments
  blobs : db'.blobs = db.blobs
  pypiIndex : db'.pypiIndex = db.pypiIndex.set plan.project ⟨plan.remoteSerial, settings.nowIso⟩

variable (settings) in
/-- A plan that names each changed wheel once, and only wheels that exist, is
applied without raising. -/
theorem runAtomic_projectApply (hnodup : (plan.changedWheels.map ChangedWheel.wheelId).Nodup)
    {db : Db} (hids : ∀ id ∈ plan.wheelIds, db.hasWheel id = true) (n : ℕ) :
    ∃ db' n' result, (projectApply settings plan).runAtomic db n = ⟨db', n', .ok result⟩ ∧
      Synced settings plan db db' := by
  obtain ⟨db₁, inserted, hrun₁, hinserted⟩ := run_each_insertNewWheel settings
    (fun w (h : w ∈ plan.newWheels) => h) db n
  obtain ⟨wheels₂, updated, hrun₂, -, hget₂⟩ := run_each_applyChange settings
    hnodup db₁ (n + plan.newWheels.length)
  obtain ⟨wheels₃, deleted, hrun₃, -, hget₃⟩ := run_each_tombstone settings.nowIso
    plan.vanishedWheelIds
    { db₁ with
      wheels := wheels₂
      skips := db₁.skips.filter fun key row => !plan.changedWheels.any (·.deletesSkip key row)
      wheelRepodata := db₁.wheelRepodata.filter fun id _ =>
        !plan.changedWheels.any (·.deletesRepodata id) }
    (n + plan.newWheels.length + plan.changedWheels.length)
  refine ⟨_, _, _, Program.runAtomic_of_ok <| (Program.run_bind_ok hrun₁).trans <|
    (Program.run_bind_ok hrun₂).trans <| (Program.run_bind_ok hrun₃).trans <|
    (Program.run_bind_ok rfl).trans rfl, ?_⟩
  constructor
  · intro id row hrow
    obtain ⟨m, hm⟩ := hget₂ id
    obtain ⟨m', hm'⟩ := hget₃ id
    refine ⟨m, m', hm'.trans ?_⟩
    simp [hm, hinserted.kept id row hrow, plannedRow]
  · intro id row hnone hsome
    have hnot : id ∉ plan.wheelIds := fun hmem => by
      obtain ⟨row', hrow'⟩ := Db.hasWheel_iff.mp (hids id hmem)
      simp [hnone] at hrow'
    obtain ⟨hnotChanged, hnotVanished⟩ := not_or.mp (List.mem_append.not.mp hnot)
    have hfind : (plan.changedWheels.find? fun c => c.wheelId = id) = none := by
      rw [List.find?_eq_none]
      intro c hc heq
      exact hnotChanged (List.mem_map.mpr ⟨c, hc, by simpa using heq⟩)
    obtain ⟨m, hm⟩ := hget₂ id
    obtain ⟨m', hm'⟩ := hget₃ id
    have hsome : wheels₃.get? id = some row := hsome
    refine hinserted.fresh id row hnone ?_
    cases hrow : db₁.wheels.get? id with
    | none => simp [hm', hm, hrow] at hsome
    | some row' => simpa [hm', hm, hrow, hfind, hnotVanished] using hsome
  · simp only [Db.upsertIndex, hinserted.wheelRepodata]
  · simp only [Db.upsertIndex, hinserted.skips]
  · exact hinserted.work
  · exact hinserted.segments
  · exact hinserted.blobs
  · simp only [Db.upsertIndex, hinserted.pypiIndex]

/-! ## A project that is gone -/

theorem mem_liveWheelIds {name : String} {db : Db} {id : ℕ} :
    id ∈ liveWheelIds name db ↔
      ∃ row, db.wheels.get? id = some row ∧ row.project = name ∧ row.deletedAt = none := by
  constructor
  · intro h
    obtain ⟨⟨id, row⟩, hrow, rfl⟩ := List.mem_map.mp h
    obtain ⟨hmem, hlive⟩ := List.mem_filter.mp hrow
    exact ⟨row, Table.get?_eq_some_iff.mpr hmem, by simpa using hlive⟩
  · rintro ⟨row, hrow, hlive⟩
    exact List.mem_map.mpr ⟨(id, row), List.mem_filter.mpr
      ⟨Table.get?_eq_some_iff.mp hrow, by simpa using hlive⟩, rfl⟩

/-- The row of a wheel after its project is gone. -/
def goneRow (name nowIso : String) (m : ℕ) (row : WheelRow) : WheelRow :=
  if row.project = name ∧ row.deletedAt = none then tombstoned nowIso m row else row

/-- A turn that tombstones some of the live wheels leaves the others. -/
theorem liveWheelIds_after (name : String) {nowIso : String} {db : Db} {ids : List ℕ}
    {wheels : Table ℕ WheelRow} (hget : ∀ id, ∃ m, wheels.get? id = (db.wheels.get? id).map
      fun row => if id ∈ ids then tombstoned nowIso m row else row) (id : ℕ) :
    id ∈ liveWheelIds name { db with wheels := wheels } ↔
      id ∈ liveWheelIds name db ∧ id ∉ ids := by
  obtain ⟨m, hm⟩ := hget id
  simp only [mem_liveWheelIds, hm]
  by_cases hid : id ∈ ids
  · simp [hid, tombstoned]
  · simp [hid]

/-- The live wheels are those that a turn tombstones and those it leaves. -/
theorem perm_liveWheelIds_after (name : String) {nowIso : String} {db : Db} {ids : List ℕ}
    {wheels : Table ℕ WheelRow} (hget : ∀ id, ∃ m, wheels.get? id = (db.wheels.get? id).map
      fun row => if id ∈ ids then tombstoned nowIso m row else row) {k : ℕ}
    (hids : (liveWheelIds name db).take k = ids) :
    (ids ++ liveWheelIds name { db with wheels := wheels }).Perm (liveWheelIds name db) := by
  have hlive := liveWheelIds_after name hget
  have hnodup : (liveWheelIds name db).Nodup := Table.nodup _
  have hsub : ∀ id ∈ ids, id ∈ liveWheelIds name db := fun id hid =>
    List.mem_of_mem_take (hids ▸ hid)
  have hdisjoint : List.Disjoint ids (liveWheelIds name { db with wheels := wheels }) :=
    fun id hid hafter => ((hlive id).mp hafter).2 hid
  have hafter : (liveWheelIds name { db with wheels := wheels }).Nodup := Table.nodup _
  refine (List.perm_ext_iff_of_nodup (List.nodup_append'.mpr
    ⟨hids ▸ hnodup.sublist (List.take_sublist k _), hafter, hdisjoint⟩) hnodup).mpr ?_
  intro id
  rw [List.mem_append, hlive]
  constructor
  · rintro (hid | ⟨hid, -⟩)
    · exact hsub id hid
    · exact hid
  · intro hid
    by_cases hmem : id ∈ ids
    · exact Or.inl hmem
    · exact Or.inr ⟨hid, hmem⟩

theorem goneRow_of_no_live {name nowIso : String} {db : Db} (h : liveWheelIds name db = [])
    (id m : ℕ) : db.wheels.get? id = (db.wheels.get? id).map (goneRow name nowIso m) := by
  cases hrow : db.wheels.get? id with
  | none => rfl
  | some row =>
      have hnot : ¬(row.project = name ∧ row.deletedAt = none) := fun hlive => by
        have hmem := mem_liveWheelIds.mpr ⟨row, hrow, hlive⟩
        simp [h] at hmem
      simp [goneRow, hnot]

/-- As many turns as there are live wheels are enough: the loop ends with every
wheel of the project tombstoned. -/
theorem run_goneLoop (name nowIso : String) (turns : ℕ) (db : Db) (n : ℕ)
    (hturns : (liveWheelIds name db).length ≤ turns) :
    ∃ (wheels : Table ℕ WheelRow) (n' deleted : ℕ),
      (goneLoop name nowIso turns ((liveWheelIds name db).take defaultGoneChunkSize)).run db n =
        ⟨{ db with wheels := wheels }, n', .ok deleted⟩ ∧
      deleted = (liveWheelIds name db).length ∧
      ∀ id, ∃ m, wheels.get? id = (db.wheels.get? id).map (goneRow name nowIso m) := by
  induction turns generalizing db n with
  | zero =>
      have hnil : liveWheelIds name db = [] := List.eq_nil_of_length_eq_zero (by omega)
      exact ⟨db.wheels, n, 0, by rw [hnil]; rfl, by rw [hnil]; rfl,
        fun id => ⟨0, goneRow_of_no_live hnil id 0⟩⟩
  | succ turns ih =>
      cases hids : (liveWheelIds name db).take defaultGoneChunkSize with
      | nil =>
          have hnil : liveWheelIds name db = [] := by
            simpa [defaultGoneChunkSize] using hids
          exact ⟨db.wheels, n, 0, rfl, by rw [hnil]; rfl,
            fun id => ⟨0, goneRow_of_no_live hnil id 0⟩⟩
      | cons i ids =>
          obtain ⟨wheels₁, as, hrun₁, hlength₁, hget₁⟩ := run_each_tombstone nowIso (i :: ids) db n
          have hlive := liveWheelIds_after name hget₁
          have hi : i ∈ liveWheelIds name db :=
            List.mem_of_mem_take (hids ▸ List.mem_cons_self)
          have hshorter : (liveWheelIds name { db with wheels := wheels₁ }).length ≤ turns := by
            have hsub : liveWheelIds name { db with wheels := wheels₁ } ⊆
                (liveWheelIds name db).erase i := by
              intro id hid
              obtain ⟨hmem, hnot⟩ := (hlive id).mp hid
              have hne : id ≠ i := fun h => hnot (by rw [h]; exact List.mem_cons_self)
              exact (List.mem_erase_of_ne hne).mpr hmem
            have hnodup : (liveWheelIds name { db with wheels := wheels₁ }).Nodup :=
              Table.nodup _
            have hle := (List.subperm_of_subset hnodup hsub).length_le
            rw [List.length_erase_of_mem hi] at hle
            omega
          obtain ⟨wheels, n', deleted, hrun, hdeleted, hget⟩ :=
            ih { db with wheels := wheels₁ } (n + (i :: ids).length) hshorter
          refine ⟨wheels, n', as.length + deleted, ?_, ?_, fun id => ?_⟩
          · exact (Program.run_bind_ok hrun₁).trans <|
              (Program.run_bind_ok (Program.run_query _ _ _)).trans <|
              (Program.run_bind_ok hrun).trans rfl
          · rw [hlength₁, hdeleted, ← List.length_append]
            exact (perm_liveWheelIds_after name hget₁ hids).length_eq
          · obtain ⟨m, hm⟩ := hget id
            obtain ⟨m₁, hm₁⟩ := hget₁ id
            cases hrow : db.wheels.get? id with
            | none => exact ⟨0, by simp [hm, hm₁, hrow]⟩
            | some row =>
                by_cases hid : id ∈ i :: ids
                · have hmem : id ∈ liveWheelIds name db := List.mem_of_mem_take (hids ▸ hid)
                  obtain ⟨row', hrow', hproject, hdeleted⟩ := mem_liveWheelIds.mp hmem
                  obtain rfl : row' = row := by simpa [hrow'] using hrow
                  refine ⟨m₁, ?_⟩
                  rw [hm, hm₁, hrow, Option.map_some, Option.map_some, Option.map_some,
                    if_pos hid]
                  simp [goneRow, tombstoned, hproject, hdeleted]
                · refine ⟨m, ?_⟩
                  rw [hm, hm₁, hrow, Option.map_some, if_neg hid]

/-- After the op for a gone project every wheel of it is tombstoned. -/
theorem runAtomic_goneApply (name nowIso : String) (db : Db) (n : ℕ) :
    ∃ (wheels : Table ℕ WheelRow) (n' : ℕ) (result : ApplyResult),
      (goneApply name nowIso).runAtomic db n =
        ⟨{ db with
            wheels := wheels
            pypiIndex := db.pypiIndex.filter fun key _ => key ≠ name }, n', .ok result⟩ ∧
      ∀ id, ∃ m, wheels.get? id = (db.wheels.get? id).map (goneRow name nowIso m) := by
  obtain ⟨wheels, n', deleted, hrun, -, hget⟩ :=
    run_goneLoop name nowIso (liveWheelIds name db).length db n le_rfl
  refine ⟨wheels, n', ⟨0, 0, deleted, true⟩, Program.runAtomic_of_ok ?_, hget⟩
  exact (Program.run_bind_ok (Program.run_query _ _ _)).trans <|
    (Program.run_bind_ok hrun).trans <| (Program.run_bind_ok rfl).trans rfl

end RerollSync.Ingest
