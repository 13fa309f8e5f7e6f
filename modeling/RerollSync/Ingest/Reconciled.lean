import RerollSync.Ingest.Effects
import RerollSync.Ingest.Planned

/-!
# A project after its sync

The database that a project's plan leaves, read by filename: which row every
filename names, what is left of the unlinked blobs, and which errors are recorded.
-/

namespace RerollSync.Ingest

open RerollSync.Store RerollSync.Support

variable {settings : Settings} {plan : ProjectPlan} {db db' db'' : Db}

/-! ## New wheels, by filename -/

theorem errors_addError (row : ErrorRow) (db : Db) :
    (db.addError row).errors.rows.map Prod.snd = db.errors.rows.map Prod.snd ++ [row] := by
  have hfresh : nextId db.errors ∉ db.errors.keys :=
    Table.get?_eq_none_iff.mp (get?_nextId db.errors)
  simp [Db.addError, Table.insertNew, hfresh]

/-- The errors recorded for the new wheels whose filename is held. -/
def refusals (settings : Settings) (plan : ProjectPlan) (ws : List NewWheel) (db : Db) :
    List ErrorRow :=
  ws.filterMap fun w => (db.named w.filename).map fun r =>
    duplicateFilenameRow settings plan.project w.filename (some r.1)

/-- The new wheels whose filename is free. -/
def accepted (ws : List NewWheel) (db : Db) : List NewWheel :=
  ws.filter fun w => (db.named w.filename).isNone

/-- What inserting new wheels of distinct names leaves. -/
structure InsertedAll (settings : Settings) (plan : ProjectPlan) (ws : List NewWheel)
    (db db' : Db) : Prop where
  constrained : db'.Constrained
  kept : ∀ f r, db.named f = some r → db'.named f = some r
  absent : ∀ f, db.named f = none → (∀ w ∈ ws, w.filename ≠ f) → db'.named f = none
  added : ∀ w ∈ ws, db.named w.filename = none → ∃ id m, db.wheels.get? id = none ∧
    db'.named w.filename = some (id, newWheelRow plan settings m w)
  unlinkedBlobs : ∀ f, db'.unlinkedBlobs.get? f =
    if ∃ w ∈ accepted ws db, w.unlinkedBlobFilename = some f then none
    else db.unlinkedBlobs.get? f
  errors : db'.errors.rows.map Prod.snd =
    db.errors.rows.map Prod.snd ++ refusals settings plan ws db

variable (settings plan) in
theorem insertedAll_nil (h : db.Constrained) : InsertedAll settings plan [] db db :=
  ⟨h, fun _ _ hr => hr, fun _ hnone _ => hnone, fun w hw => by simp at hw,
    fun f => by simp [accepted], by simp [refusals]⟩

/-- The lookup of another name is not disturbed. -/
theorem InsertedAll.named_eq {ws : List NewWheel} (h : InsertedAll settings plan ws db db')
    {f : String} (hf : ∀ w ∈ ws, w.filename ≠ f) : db'.named f = db.named f := by
  cases hnamed : db.named f with
  | none => exact h.absent f hnamed hf
  | some r => exact h.kept f r hnamed

theorem InsertedAll.cons {w : NewWheel} {ws : List NewWheel} (hdb : db.Constrained)
    (h : InsertedAll settings plan [w] db db') (h' : InsertedAll settings plan ws db' db'')
    (hnew : ∀ w' ∈ ws, w'.filename ≠ w.filename) : InsertedAll settings plan (w :: ws) db db'' := by
  have hothers : ∀ w' ∈ ws, db'.named w'.filename = db.named w'.filename := fun w' hw' =>
    h.named_eq fun w'' hw'' => by
      rw [List.mem_singleton.mp hw'']
      exact (hnew w' hw').symm
  have haccepted : accepted ws db' = accepted ws db :=
    List.filter_congr fun w' hw' => by rw [hothers w' hw']
  have hrefusals : refusals settings plan ws db' = refusals settings plan ws db :=
    List.filterMap_congr fun w' hw' => by rw [hothers w' hw']
  refine ⟨h'.constrained, fun f r hr => h'.kept f r (h.kept f r hr), ?_, ?_, ?_, ?_⟩
  · intro f hnone hnot
    refine h'.absent f (h.absent f hnone fun w' hw' => ?_) fun w' hw' => hnot w' (by simp [hw'])
    rw [List.mem_singleton.mp hw']
    exact hnot w (by simp)
  · intro w' hw' hnone
    rcases List.mem_cons.mp hw' with rfl | hw'
    · obtain ⟨id, m, hid, hrow⟩ := h.added w' (by simp) hnone
      exact ⟨id, m, hid, h'.kept _ _ hrow⟩
    · obtain ⟨id, m, hid, hrow⟩ := h'.added w' hw' (by rw [hothers w' hw', hnone])
      refine ⟨id, m, ?_, hrow⟩
      cases hget : db.wheels.get? id with
      | none => rfl
      | some row =>
          obtain ⟨hkept, -⟩ := Db.get?_of_named (h.kept _ _ (hdb.named_of_get? hget))
          rw [hid] at hkept
          cases hkept
  · intro f
    rw [h'.unlinkedBlobs, h.unlinkedBlobs, haccepted]
    by_cases hw : (db.named w.filename).isNone = true
    · have hsingle : accepted [w] db = [w] := List.filter_cons_of_pos hw
      have hcons : accepted (w :: ws) db = w :: accepted ws db := List.filter_cons_of_pos hw
      rw [hsingle, hcons]
      by_cases hf : w.unlinkedBlobFilename = some f <;> simp [hf]
    · have hsingle : accepted [w] db = [] := List.filter_cons_of_neg hw
      have hcons : accepted (w :: ws) db = accepted ws db := List.filter_cons_of_neg hw
      rw [hsingle, hcons]
      simp
  · rw [h'.errors, h.errors, hrefusals, List.append_assoc]
    cases hnamed : db.named w.filename <;> simp [refusals, hnamed]

variable (settings plan) in
theorem insertedAll_insertEffect (hdb : db.Constrained) {w : NewWheel}
    (hfree : db.named w.filename = none) (seq : ℕ) :
    InsertedAll settings plan [w] db (insertEffect settings plan seq w db) := by
  have hwheels : (insertEffect settings plan seq w db).wheels =
      (db.addWheel (newWheelRow plan settings seq w)).wheels := by
    unfold insertEffect
    split <;> rfl
  have hnamed : ∀ f, (insertEffect settings plan seq w db).named f =
      if f = w.filename then some (nextId db.wheels, newWheelRow plan settings seq w)
      else db.named f := fun f => (Db.named_congr hwheels).trans (hdb.named_addWheel hfree)
  refine ⟨(hdb.addWheel hfree).congr hwheels, ?_, ?_, ?_, ?_, ?_⟩
  · intro f r hr
    rw [hnamed, if_neg, hr]
    rintro rfl
    rw [hfree] at hr
    cases hr
  · intro f hnone hnot
    rw [hnamed, if_neg fun h => hnot w (by simp) h.symm, hnone]
  · intro w' hw' _
    obtain rfl := List.mem_singleton.mp hw'
    exact ⟨nextId db.wheels, seq, get?_nextId _, by rw [hnamed, if_pos rfl]⟩
  · intro f
    unfold insertEffect
    cases hunlinked : w.unlinkedBlobFilename with
    | none => simp [accepted, hfree, hunlinked, Db.addWheel]
    | some g =>
        by_cases hg : g = f
        · simp [accepted, hfree, hunlinked, Db.deleteUnlinkedBlob, hg]
        · simp [accepted, hfree, hunlinked, Db.deleteUnlinkedBlob, Db.addWheel, hg, Ne.symm hg]
  · have herrors : (insertEffect settings plan seq w db).errors = db.errors := by
      unfold insertEffect
      split <;> rfl
    simp [herrors, refusals, hfree]

variable (settings plan) in
theorem insertedAll_addError (hdb : db.Constrained) {w : NewWheel} {r : ℕ × WheelRow}
    (htaken : db.named w.filename = some r) :
    InsertedAll settings plan [w] db
      (db.addError (duplicateFilenameRow settings plan.project w.filename (some r.1))) := by
  refine ⟨hdb.congr rfl, fun f r hr => hr, fun f hnone _ => hnone, ?_, ?_, ?_⟩
  · intro w' hw' hnone
    rw [List.mem_singleton.mp hw', htaken] at hnone
    cases hnone
  · intro f
    simp [accepted, htaken, Db.addError]
  · rw [errors_addError]
    simp [refusals, htaken]

variable (settings plan) in
theorem run_insertNewWheel_all (hdb : db.Constrained) (w : NewWheel) (n : ℕ) :
    ∃ db' i, (insertNewWheel settings plan w).run db n = ⟨db', n + 1, .ok i⟩ ∧
      InsertedAll settings plan [w] db db' ∧ i = (accepted [w] db).length := by
  cases hnamed : db.named w.filename with
  | none => exact ⟨_, 1, run_insertNewWheel_of_free settings hnamed n,
      insertedAll_insertEffect settings plan hdb hnamed (n + 1), by simp [accepted, hnamed]⟩
  | some r => exact ⟨_, 0, run_insertNewWheel_of_taken settings hnamed n,
      insertedAll_addError settings plan hdb hnamed, by simp [accepted, hnamed]⟩

variable (settings plan) in
theorem run_each_insertNewWheel_all {ws : List NewWheel}
    (hnames : (ws.map NewWheel.filename).Nodup) (hdb : db.Constrained) (n : ℕ) :
    ∃ db' inserted, (Program.each (insertNewWheel settings plan) ws).run db n =
      ⟨db', n + ws.length, .ok inserted⟩ ∧ InsertedAll settings plan ws db db' ∧
        inserted.sum = (accepted ws db).length := by
  induction ws generalizing db n with
  | nil => exact ⟨db, [], rfl, insertedAll_nil settings plan hdb, rfl⟩
  | cons w ws ih =>
      obtain ⟨hnot, hrest⟩ := List.nodup_cons.mp hnames
      have hnew : ∀ w' ∈ ws, w'.filename ≠ w.filename := fun w' hw' heq =>
        hnot (List.mem_map.mpr ⟨w', hw', heq⟩)
      obtain ⟨db₁, i, hhead, hone, hi⟩ := run_insertNewWheel_all settings plan hdb w n
      obtain ⟨db₂, is, htail, hall, his⟩ := ih hrest hone.constrained (n + 1)
      refine ⟨db₂, i :: is, ?_, hone.cons hdb hall hnew, ?_⟩
      · refine ((Program.run_bind_ok hhead).trans (Program.run_bind_ok htail)).trans ?_
        simp [Nat.add_assoc, Nat.add_comm 1]
      · have haccepted : accepted ws db₁ = accepted ws db :=
          List.filter_congr fun w' hw' => by
            rw [hone.named_eq fun w'' hw'' => by
              rw [List.mem_singleton.mp hw'']
              exact (hnew w' hw').symm]
        rw [List.sum_cons, his, hi, haccepted, ← List.length_append, accepted, accepted, accepted,
          ← List.filter_append, List.singleton_append]

/-! ## A plan, by filename -/

/-- What a plan leaves. -/
structure Applied (settings : Settings) (plan : ProjectPlan) (db db' : Db) : Prop where
  constrained : db'.Constrained
  row : ∀ f r, db.named f = some r →
    ∃ m m', db'.named f = some (r.1, plannedRow settings plan r.1 m m' r.2)
  absent : ∀ f, db.named f = none → (∀ w ∈ plan.newWheels, w.filename ≠ f) → db'.named f = none
  added : ∀ w ∈ plan.newWheels, db.named w.filename = none → ∃ id m, db.wheels.get? id = none ∧
    db'.named w.filename = some (id, newWheelRow plan settings m w)
  wheelRepodata : db'.wheelRepodata =
    db.wheelRepodata.filter fun id _ => !plan.changedWheels.any (·.deletesRepodata id)
  skips : db'.skips = db.skips.filter fun key row => !plan.changedWheels.any (·.deletesSkip key row)
  pypiIndex : db'.pypiIndex = db.pypiIndex.set plan.project ⟨plan.remoteSerial, settings.nowIso⟩
  unlinkedBlobs : ∀ f, db'.unlinkedBlobs.get? f =
    if ∃ w ∈ accepted plan.newWheels db, w.unlinkedBlobFilename = some f then none
    else db.unlinkedBlobs.get? f
  errors : db'.errors.rows.map Prod.snd =
    db.errors.rows.map Prod.snd ++ refusals settings plan plan.newWheels db

theorem filename_plannedRow (id m m' : ℕ) (row : WheelRow) :
    (plannedRow settings plan id m m' row).filename = row.filename := by
  have hchanged : ∀ change : ChangedWheel,
      (changedRow settings change m row).filename = row.filename := fun _ => rfl
  unfold plannedRow
  cases plan.changedWheels.find? fun c => c.wheelId = id with
  | none =>
      by_cases hid : id ∈ plan.vanishedWheelIds
      · simp [hid, tombstoned]
      · simp [hid]
  | some c =>
      by_cases hid : id ∈ plan.vanishedWheelIds
      · simp [hid, tombstoned, hchanged]
      · simp [hid, hchanged]

/-- A row that the plan does not name stays as it is. -/
theorem plannedRow_of_not_mem {id : ℕ} (h : id ∉ plan.wheelIds) (m m' : ℕ) (row : WheelRow) :
    plannedRow settings plan id m m' row = row := by
  obtain ⟨hchanged, hvanished⟩ := not_or.mp (List.mem_append.not.mp h)
  have hfind : (plan.changedWheels.find? fun c => c.wheelId = id) = none := by
    rw [List.find?_eq_none]
    intro c hc heq
    exact hchanged (List.mem_map.mpr ⟨c, hc, by simpa using heq⟩)
  simp [plannedRow, hfind, hvanished]

variable (settings) in
/-- A plan over rows that exist, with no row changed twice and no name new twice, is
applied without raising, and draws a number for every row it names. -/
theorem runAtomic_projectApply_applied
    (hnodup : (plan.changedWheels.map ChangedWheel.wheelId).Nodup)
    (hnames : (plan.newWheels.map NewWheel.filename).Nodup) (hdb : db.Constrained)
    (hids : ∀ id ∈ plan.wheelIds, db.hasWheel id = true) (n : ℕ) :
    ∃ db', (projectApply settings plan).runAtomic db n =
      ⟨db', n + plan.newWheels.length + plan.changedWheels.length + plan.vanishedWheelIds.length,
        .ok ⟨(accepted plan.newWheels db).length, plan.changedWheels.length,
          plan.vanishedWheelIds.length, false⟩⟩ ∧ Applied settings plan db db' := by
  obtain ⟨db₁, inserted, hrun₁, hall, hsum⟩ :=
    run_each_insertNewWheel_all settings plan hnames hdb n
  obtain ⟨db₁', inserted', hrun₁', hinserted⟩ := run_each_insertNewWheel settings
    (fun w (h : w ∈ plan.newWheels) => h) db n
  obtain rfl : db₁' = db₁ := congrArg Program.Result.db (hrun₁'.symm.trans hrun₁)
  obtain ⟨wheels₂, updated, hrun₂, hlength₂, hget₂⟩ := run_each_applyChange settings
    hnodup db₁' (n + plan.newWheels.length)
  obtain ⟨wheels₃, deleted, hrun₃, hlength₃, hget₃⟩ := run_each_tombstone settings.nowIso
    plan.vanishedWheelIds
    { db₁' with
      wheels := wheels₂
      skips := db₁'.skips.filter fun key row => !plan.changedWheels.any (·.deletesSkip key row)
      wheelRepodata := db₁'.wheelRepodata.filter fun id _ =>
        !plan.changedWheels.any (·.deletesRepodata id) }
    (n + plan.newWheels.length + plan.changedWheels.length)
  choose m hm using hget₂
  choose m' hm' using hget₃
  have hget : ∀ id, wheels₃.get? id = (db₁'.wheels.get? id).map fun row =>
      plannedRow settings plan id (m id) (m' id) row := by
    intro id
    rw [hm', hm, Option.map_map]
    rfl
  have hfilename : ∀ id row, (plannedRow settings plan id (m id) (m' id) row).filename =
      row.filename := fun id row => filename_plannedRow id (m id) (m' id) row
  let db₃ : Db := { db₁' with
    wheels := wheels₃
    skips := db₁'.skips.filter fun key row => !plan.changedWheels.any (·.deletesSkip key row)
    wheelRepodata := db₁'.wheelRepodata.filter fun id _ =>
      !plan.changedWheels.any (·.deletesRepodata id) }
  refine ⟨db₃.upsertIndex plan.project ⟨plan.remoteSerial, settings.nowIso⟩, ?_, ?_⟩
  · have hcounts : (⟨inserted.sum, updated.length, deleted.length, false⟩ : ApplyResult) =
        ⟨(accepted plan.newWheels db).length, plan.changedWheels.length,
          plan.vanishedWheelIds.length, false⟩ := by rw [hsum, hlength₂, hlength₃]
    rw [← hcounts]
    exact Program.runAtomic_of_ok <| (Program.run_bind_ok hrun₁).trans <|
      (Program.run_bind_ok hrun₂).trans <| (Program.run_bind_ok hrun₃).trans <|
      (Program.run_bind_ok rfl).trans rfl
  have hnamed : ∀ f,
      (db₃.upsertIndex plan.project ⟨plan.remoteSerial, settings.nowIso⟩).named f =
        (db₁'.named f).map fun r => (r.1, plannedRow settings plan r.1 (m r.1) (m' r.1) r.2) :=
    fun f => hall.constrained.named_modified hget hfilename
  constructor
  · exact hall.constrained.modified hget hfilename
  · intro f r hr
    exact ⟨m r.1, m' r.1, by rw [hnamed, hall.kept f r hr]; rfl⟩
  · intro f hnone hnot
    rw [hnamed, hall.absent f hnone hnot]
    rfl
  · intro w hw hnone
    obtain ⟨id, seq, hid, hrow⟩ := hall.added w hw hnone
    refine ⟨id, seq, hid, ?_⟩
    have hnot : id ∉ plan.wheelIds := fun hmem => by
      obtain ⟨row, hexists⟩ := Db.hasWheel_iff.mp (hids id hmem)
      rw [hid] at hexists
      cases hexists
    rw [hnamed, hrow, Option.map_some, plannedRow_of_not_mem hnot]
  · simp only [db₃, Db.upsertIndex, hinserted.wheelRepodata]
  · simp only [db₃, Db.upsertIndex, hinserted.skips]
  · exact congrArg (Table.set · _ _) hinserted.pypiIndex
  · exact hall.unlinkedBlobs
  · exact hall.errors

/-! ## A page, by filename -/

/-- The local rows that a plan is computed from are those of the project. -/
def LocalRows (name : String) (db : Db) (rows : Table String (ℕ × WheelRow)) : Prop :=
  ∀ f r, rows.get? f = some r ↔ db.named f = some r ∧ r.2.project = name

/-- The row that a sync leaves in place of one whose file is on the page. -/
def onPageRow (settings : Settings) (m id : ℕ) (row : WheelRow) (file : ProjectFile) : WheelRow :=
  match diffCommon id row file with
  | none => row
  | some c => changedRow settings c m row

/-- The row that a sync leaves in place of one whose file is not on the page. -/
def offPageRow (settings : Settings) (m : ℕ) (row : WheelRow) : WheelRow :=
  if row.deletedAt = none then tombstoned settings.nowIso m row else row

/-- What the sync of a page leaves. -/
structure Reconciled (settings : Settings) (name : String) (page : ProjectPage)
    (unlinked : String → Option String) (db db' : Db) : Prop where
  constrained : db'.Constrained
  onPage : ∀ f id row file, db.named f = some (id, row) → row.project = name →
    (remoteFiles page).get? f = some file →
      ∃ m, db'.named f = some (id, onPageRow settings m id row file)
  offPage : ∀ f id row, db.named f = some (id, row) → row.project = name →
    (remoteFiles page).get? f = none → ∃ m, db'.named f = some (id, offPageRow settings m row)
  others : ∀ f r, db.named f = some r → r.2.project ≠ name → db'.named f = some r
  added : ∀ f file, db.named f = none → (remoteFiles page).get? f = some file →
    ∃ plan id m, plan.project = name ∧ plan.remoteSerial = page.lastSerial ∧
      db.wheels.get? id = none ∧
        db'.named f = some (id, newWheelRow plan settings m (planNewWheel file (unlinked f)))
  absent : ∀ f, db.named f = none → (remoteFiles page).get? f = none → db'.named f = none
  pypiIndex : db'.pypiIndex = db.pypiIndex.set name ⟨page.lastSerial, settings.nowIso⟩

section Page

variable {name : String} {page : ProjectPage} {rows : Table String (ℕ × WheelRow)}
  {unlinked : String → Option String}

theorem LocalRows.id_inj (h : LocalRows name db rows) {f f' : String} {r r' : ℕ × WheelRow}
    (hr : rows.get? f = some r) (hr' : rows.get? f' = some r')
    (hid : r.1 = r'.1) : f = f' ∧ r = r' := by
  obtain ⟨hget, hname⟩ := Db.get?_of_named ((h f r).mp hr).1
  obtain ⟨hget', hname'⟩ := Db.get?_of_named ((h f' r').mp hr').1
  rw [hid, hget'] at hget
  have hrow : r = r' := Prod.ext hid (Option.some.inj hget).symm
  subst hrow
  exact ⟨hname.symm.trans hname', rfl⟩

/-- No row is changed twice when the rows have ids of their own. -/
theorem nodup_changedWheels (hids : ∀ f f' r r', rows.get? f = some r → rows.get? f' = some r' →
    r.1 = r'.1 → f = f') :
    ((planProject name page rows unlinked).changedWheels.map ChangedWheel.wheelId).Nodup := by
  have hkeys : (sorted ((remoteFiles page).keys.filter (· ∈ rows.keys))).Nodup :=
    (List.perm_insertionSort _ _).nodup_iff.mpr ((remoteFiles page).nodup.filter _)
  simp only [planProject, List.map_filterMap]
  refine hkeys.filterMap fun f f' id hid hid' => ?_
  have hrow : ∀ f, id ∈ Option.map ChangedWheel.wheelId
      (do
        let file ← (remoteFiles page).get? f
        let row ← rows.get? f
        diffCommon row.1 row.2 file) → ∃ row, rows.get? f = some (id, row) := by
    intro f h
    obtain ⟨c, hdiff, rfl⟩ := Option.map_eq_some_iff.mp h
    obtain ⟨file, -, hrest⟩ := Option.bind_eq_some_iff.mp hdiff
    obtain ⟨⟨id, row⟩, hrow, hcommon⟩ := Option.bind_eq_some_iff.mp hrest
    obtain rfl := wheelId_of_diffCommon hcommon
    exact ⟨row, hrow⟩
  obtain ⟨row, hget⟩ := hrow f hid
  obtain ⟨row', hget'⟩ := hrow f' hid'
  exact hids f f' _ _ hget hget' rfl

theorem LocalRows.find?_changedWheels (h : LocalRows name db rows) {f : String} {id : ℕ}
    {row : WheelRow} (hr : rows.get? f = some (id, row)) :
    (planProject name page rows unlinked).changedWheels.find? (fun c => c.wheelId = id) =
      ((remoteFiles page).get? f).bind (diffCommon id row) := by
  have honly : ∀ c ∈ (planProject name page rows unlinked).changedWheels, c.wheelId = id →
      ((remoteFiles page).get? f).bind (diffCommon id row) = some c := by
    intro c hc hid
    obtain ⟨f', file, row', hfile, hrow', hcommon⟩ := mem_changedWheels_iff.mp hc
    obtain ⟨rfl, hrows⟩ := h.id_inj hr hrow' hid.symm
    obtain ⟨hid', rfl⟩ := Prod.mk.inj hrows
    rw [hfile, Option.bind_some, hid', hcommon]
  cases hdiff : ((remoteFiles page).get? f).bind (diffCommon id row) with
  | none =>
      rw [List.find?_eq_none]
      intro c hc hid
      rw [honly c hc (by simpa using hid)] at hdiff
      cases hdiff
  | some c =>
      obtain ⟨file, hfile, hcommon⟩ := Option.bind_eq_some_iff.mp hdiff
      have hid := wheelId_of_diffCommon hcommon
      have hmem : c ∈ (planProject name page rows unlinked).changedWheels :=
        mem_changedWheels_iff.mpr ⟨f, file, row, hfile, by rw [hid, hr], by rw [hid, hcommon]⟩
      cases hfind : (planProject name page rows unlinked).changedWheels.find?
          (fun c => c.wheelId = id) with
      | none => exact (List.find?_eq_none.mp hfind c hmem (by simpa using hid)).elim
      | some c' =>
          have hc' := honly c' (List.mem_of_find?_eq_some hfind)
            (by simpa using List.find?_some hfind)
          rw [← hdiff, hc']

theorem LocalRows.mem_vanishedWheelIds (h : LocalRows name db rows) {f : String} {id : ℕ}
    {row : WheelRow} (hr : rows.get? f = some (id, row)) :
    id ∈ (planProject name page rows unlinked).vanishedWheelIds ↔
      (remoteFiles page).get? f = none ∧ row.deletedAt = none := by
  rw [mem_vanishedWheelIds_iff]
  constructor
  · rintro ⟨f', row', hoff, hrow', hdeleted⟩
    obtain ⟨rfl, hrows⟩ := h.id_inj hr hrow' rfl
    obtain ⟨-, rfl⟩ := Prod.mk.inj hrows
    exact ⟨hoff, hdeleted⟩
  · rintro ⟨hoff, hdeleted⟩
    exact ⟨f, row, hoff, hr, hdeleted⟩

theorem exists_local_of_mem_wheelIds {id : ℕ}
    (h : id ∈ (planProject name page rows unlinked).wheelIds) :
    ∃ f row, rows.get? f = some (id, row) := by
  rcases List.mem_append.mp h with hchanged | hvanished
  · obtain ⟨c, hc, rfl⟩ := List.mem_map.mp hchanged
    obtain ⟨f, file, row, -, hrow, -⟩ := mem_changedWheels_iff.mp hc
    exact ⟨f, row, hrow⟩
  · obtain ⟨f, row, -, hrow, -⟩ := mem_vanishedWheelIds_iff.mp hvanished
    exact ⟨f, row, hrow⟩

variable (settings page unlinked) in
/-- A plan computed from the project's rows reconciles the project with the page. -/
theorem runAtomic_projectApply_reconciled (hlocal : LocalRows name db rows)
    (hdb : db.Constrained) (n : ℕ) :
    ∃ db', (projectApply settings (planProject name page rows unlinked)).runAtomic db n =
      ⟨db', n + (planProject name page rows unlinked).newWheels.length +
          (planProject name page rows unlinked).changedWheels.length +
          (planProject name page rows unlinked).vanishedWheelIds.length,
        .ok ⟨(accepted (planProject name page rows unlinked).newWheels db).length,
          (planProject name page rows unlinked).changedWheels.length,
          (planProject name page rows unlinked).vanishedWheelIds.length, false⟩⟩ ∧
        Applied settings (planProject name page rows unlinked) db db' ∧
          Reconciled settings name page unlinked db db' := by
  have hids : ∀ id ∈ (planProject name page rows unlinked).wheelIds, db.hasWheel id = true := by
    intro id hid
    obtain ⟨f, row, hrow⟩ := exists_local_of_mem_wheelIds hid
    exact Db.hasWheel_iff.mpr ⟨row, (Db.get?_of_named ((hlocal f _).mp hrow).1).1⟩
  obtain ⟨db', hrun, happlied⟩ := runAtomic_projectApply_applied settings
    (nodup_changedWheels fun f f' r r' hr hr' hid => (hlocal.id_inj hr hr' hid).1)
    nodup_filename_newWheels hdb hids n
  refine ⟨db', hrun, happlied, happlied.constrained, ?_, ?_, ?_, ?_, ?_, happlied.pypiIndex⟩
  · intro f id row file hnamed hproject hfile
    have hr := (hlocal f (id, row)).mpr ⟨hnamed, hproject⟩
    obtain ⟨m, m', hrow⟩ := happlied.row f _ hnamed
    refine ⟨m, hrow.trans ?_⟩
    have hnot : id ∉ (planProject name page rows unlinked).vanishedWheelIds := by
      rw [hlocal.mem_vanishedWheelIds hr, hfile]
      simp
    rw [plannedRow, hlocal.find?_changedWheels hr, hfile, if_neg hnot, Option.bind_some,
      onPageRow]
    cases diffCommon id row file <;> rfl
  · intro f id row hnamed hproject hoff
    have hr := (hlocal f (id, row)).mpr ⟨hnamed, hproject⟩
    obtain ⟨m, m', hrow⟩ := happlied.row f _ hnamed
    refine ⟨m', hrow.trans ?_⟩
    rw [plannedRow, hlocal.find?_changedWheels hr, hoff, Option.bind_none, offPageRow]
    by_cases hdeleted : row.deletedAt = none
    · rw [if_pos hdeleted, if_pos ((hlocal.mem_vanishedWheelIds hr).mpr ⟨hoff, hdeleted⟩)]
    · rw [if_neg hdeleted, if_neg fun hmem =>
        hdeleted ((hlocal.mem_vanishedWheelIds hr).mp hmem).2]
  · intro f r hnamed hproject
    obtain ⟨m, m', hrow⟩ := happlied.row f r hnamed
    have hnot : r.1 ∉ (planProject name page rows unlinked).wheelIds := by
      intro hid
      obtain ⟨f', row', hrow'⟩ := exists_local_of_mem_wheelIds hid
      obtain ⟨hnamed', hproject'⟩ := (hlocal f' _).mp hrow'
      have hget := (Db.get?_of_named hnamed).1
      rw [(Db.get?_of_named hnamed').1] at hget
      rw [← Option.some.inj hget] at hproject
      exact hproject hproject'
    rw [hrow, plannedRow_of_not_mem hnot]
  · intro f file hnone hfile
    have hname : (planNewWheel file (unlinked f)).filename = f := filename_remoteFiles hfile
    have hfree : rows.get? f = none := by
      cases hr : rows.get? f with
      | none => rfl
      | some r => rw [((hlocal f r).mp hr).1] at hnone; cases hnone
    have hmem : planNewWheel file (unlinked f) ∈
        (planProject name page rows unlinked).newWheels :=
      mem_newWheels_iff.mpr ⟨file, by rw [hname, hfile], by rw [hname, hfree], by rw [hname]⟩
    obtain ⟨id, m, hid, hrow⟩ := happlied.added _ hmem (by rw [hname, hnone])
    exact ⟨_, id, m, rfl, rfl, hid, by rw [← hrow, hname]⟩
  · intro f hnone hoff
    refine happlied.absent f hnone fun w hw hname => ?_
    obtain ⟨file, hfile, -, -⟩ := mem_newWheels_iff.mp hw
    rw [hname, hoff] at hfile
    cases hfile

end Page

end RerollSync.Ingest
