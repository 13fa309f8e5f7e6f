import RerollSync.Ingest.Convergence

/-!
# The outcome of a sync

`apply_project_outcome` of `ingest.py`: the write of a plan or of a project that is
gone, submitted to the writer; nothing is written for a retry or a rate limit.
-/

namespace RerollSync.Ingest

open RerollSync.Store RerollSync.Support

/-- The op of an outcome. -/
def writeOp (settings : Settings) (name : String) : SyncOutcome → Option (Op ApplyResult)
  | .ok plan => some (projectApply settings plan)
  | .gone _ => some (goneApply name settings.nowIso)
  | .retry _ _ => none
  | .rateLimited _ _ => none

/-- `apply_project_outcome`, from the writer's side. -/
def applyProjectOutcome (settings : Settings) (name : String) (outcome : SyncOutcome) (db : Db)
    (n : ℕ) : Program.Result Db OpError (Option ApplyResult) :=
  match writeOp settings name outcome with
  | none => ⟨db, n, .ok none⟩
  | some op => ⟨(op.runAtomic db n).db, (op.runAtomic db n).counter,
      (op.runAtomic db n).value.map some⟩

/-! ## After a page -/

variable {settings : Settings} {name : String} {page : ProjectPage} {db db' : Db} {n : ℕ}

theorem refusals_eq_nil_iff {plan : ProjectPlan} {ws : List NewWheel} :
    refusals settings plan ws db = [] ↔ ∀ w ∈ ws, db.named w.filename = none := by
  simp [refusals, List.filterMap_eq_nil_iff]

theorem unowned_iff_newWheels (hdb : db.Constrained) {unlinked : String → Option String} :
    Unowned name page db ↔
      ∀ w ∈ (planProject name page (readProjectWheels name db) unlinked).newWheels,
        db.named w.filename = none := by
  constructor
  · intro h w hw
    obtain ⟨file, hfile, hnone, -⟩ := mem_newWheels_iff.mp hw
    by_contra hsome
    obtain ⟨r, hr⟩ := Option.ne_none_iff_exists'.mp hsome
    have hlocal := (get?_readProjectWheels_iff hdb).mpr ⟨hr, h _ file r.1 r.2 hfile hr⟩
    rw [hnone] at hlocal
    cases hlocal
  · intro h f file id row hfile hnamed
    by_contra hother
    have hnone : (readProjectWheels name db).get? f = none := by
      rw [Option.eq_none_iff_forall_not_mem]
      intro r hr
      obtain ⟨hr, hproject⟩ := (get?_readProjectWheels_iff hdb).mp hr
      rw [hnamed] at hr
      rw [← Option.some.inj hr] at hproject
      exact hother hproject
    have hname : (planNewWheel file (unlinked f)).filename = f := filename_remoteFiles hfile
    have hmem : planNewWheel file (unlinked f) ∈
        (planProject name page (readProjectWheels name db) unlinked).newWheels :=
      mem_newWheels_iff.mpr ⟨file, by rw [hname, hfile], by rw [hname, hnone], by rw [hname]⟩
    have hfree := h _ hmem
    rw [hname, hnamed] at hfree
    cases hfree

/-- What the sync of a fetched page leaves: the project reconciled with the page, and an
error for each wheel that is filed under another name. -/
structure PageSynced (settings : Settings) (name : String) (page : ProjectPage) (db db' : Db) :
    Prop where
  reconciled : Reconciled settings name page (readUnlinkedBlobs db) db db'
  errors : ∃ refused : List ErrorRow, db'.errors.rows.map Prod.snd =
    db.errors.rows.map Prod.snd ++ refused ∧ (refused = [] ↔ Unowned name page db)

variable (settings page n) in
theorem pageSynced_applyProjectOutcome (hdb : db.Constrained) : PageSynced settings name page db
    (applyProjectOutcome settings name (syncProject name (.page page) db) db n).db := by
  obtain ⟨db', hrun, happlied, hreconciled⟩ := runAtomic_projectApply_reconciled settings page
    (readUnlinkedBlobs db) (localRows_readProjectWheels hdb) hdb n
  have hafter : (applyProjectOutcome settings name (syncProject name (.page page) db) db n).db =
      db' := congrArg Program.Result.db hrun
  rw [hafter]
  refine ⟨hreconciled, _, happlied.errors, ?_⟩
  rw [refusals_eq_nil_iff, unowned_iff_newWheels hdb]

/-- A wheel of the page that no other project holds has a live row with the page's
columns. -/
theorem Reconciled.published {unlinked : String → Option String}
    (h : Reconciled settings name page unlinked db db') {f : String} {file : ProjectFile}
    (hfile : (remoteFiles page).get? f = some file)
    (howned : ∀ r, db.named f = some r → r.2.project = name) :
    ∃ id row, db'.named f = some (id, row) ∧ row.project = name ∧ row.deletedAt = none ∧
      Published row file := by
  cases hbefore : db.named f with
  | none =>
      obtain ⟨plan, id, m, hproject, -, -, hadded⟩ := h.added f file hbefore hfile
      exact ⟨id, _, hadded, hproject, rfl, ⟨rfl, rfl, rfl, rfl, rfl, rfl, rfl, rfl⟩⟩
  | some r =>
      have hproject := howned r hbefore
      obtain ⟨m, hon⟩ := h.onPage f r.1 r.2 file hbefore hproject hfile
      have hsettled : Settled (onPageRow settings m r.1 r.2 file) file :=
        settled_onPageRow m r.1 r.2 file
      exact ⟨r.1, _, hon, (project_onPageRow m r.1 r.2 file).trans hproject, hsettled.live,
        hsettled.toPublished⟩

/-- A page without wheels changes nothing under a name that has tombstones only. -/
theorem Reconciled.named_of_tombstones {unlinked : String → Option String}
    (h : Reconciled settings name page unlinked db db')
    (hoff : ∀ f, (remoteFiles page).get? f = none)
    (htombstones : ∀ f id row, db.named f = some (id, row) → row.project = name →
      row.deletedAt ≠ none) (f : String) : db'.named f = db.named f := by
  cases hbefore : db.named f with
  | none => exact h.absent f hbefore (hoff f)
  | some r =>
      by_cases hname : r.2.project = name
      · obtain ⟨m, hrow⟩ := h.offPage f r.1 r.2 hbefore hname (hoff f)
        rw [hrow, offPageRow, if_neg (htombstones f r.1 r.2 hbefore hname)]
      · exact h.others f r hbefore hname

/-! ## After a project is gone -/

/-- What the op for a gone project leaves. -/
structure GoneSynced (settings : Settings) (name : String) (db db' : Db) : Prop where
  constrained : db'.Constrained
  named : ∀ f, ∃ m, db'.named f =
    (db.named f).map fun r => (r.1, goneRow name settings.nowIso m r.2)
  pypiIndex : db'.pypiIndex = db.pypiIndex.filter fun key _ => key ≠ name
  skips : db'.skips = db.skips
  wheelRepodata : db'.wheelRepodata = db.wheelRepodata
  unlinkedBlobs : db'.unlinkedBlobs = db.unlinkedBlobs
  errors : db'.errors = db.errors

variable (settings n) in
theorem goneSynced_applyProjectOutcome (hdb : db.Constrained) : GoneSynced settings name db
    (applyProjectOutcome settings name (syncProject name .notFound db) db n).db := by
  obtain ⟨wheels, n', result, hrun, hget⟩ := runAtomic_goneApply name settings.nowIso db n
  have hafter : (applyProjectOutcome settings name (syncProject name .notFound db) db n).db =
      { db with
        wheels := wheels
        pypiIndex := db.pypiIndex.filter fun key _ => key ≠ name } :=
    congrArg Program.Result.db hrun
  choose m hm using hget
  have hfilename : ∀ id row,
      (goneRow name settings.nowIso (m id) row).filename = row.filename := by
    intro id row
    unfold goneRow
    split <;> rfl
  rw [hafter]
  refine ⟨hdb.modified hm hfilename, fun f => ?_, rfl, rfl, rfl, rfl, rfl⟩
  cases hnamed : db.named f with
  | none => exact ⟨0, by rw [hdb.named_modified hm hfilename, hnamed]; rfl⟩
  | some r => exact ⟨m r.1, by rw [hdb.named_modified hm hfilename, hnamed]; rfl⟩

end RerollSync.Ingest
