import RerollSync.Ingest.StaleProjects

/-!
# Projects with filenames of their own

The projects of a batch whose filenames are disjoint do not meet: the plan of each is
the one it would have alone, whichever states its worker read, and its writes leave in
the tables what they leave alone, up to the numbering of rows and the times that are
recorded.
-/

namespace RerollSync.Ingest

open RerollSync.Store RerollSync.Support

/-! ## Contents -/

/-- A row without its number and times. -/
def erased (row : WheelRow) : WheelRow :=
  { row with changeSeq := 0, updatedAt := "", deletedAt := row.deletedAt.map fun _ => "" }

def erasedError (row : ErrorRow) : ErrorRow := { row with createdAt := "" }

/-- The row of a filename. -/
def shown (f : String) (db : Db) : Option WheelRow := (db.named f).map fun r => erased r.2

def serialOf (name : String) (db : Db) : Option ℤ := (db.pypiIndex.get? name).map IndexRow.serial

def errorsOf (db : Db) : List ErrorRow := db.errors.rows.map fun r => erasedError r.2

variable {settings settings' : Settings} {name : String} {page : ProjectPage}
  {unlinked : String → Option String} {d d' b b' : Db} {f : String}

/-- The rows that were there keep their ids and projects. -/
theorem Reconciled.kept (h : Reconciled settings name page unlinked d d') {r : ℕ × WheelRow}
    (hr : d.named f = some r) :
    ∃ row, d'.named f = some (r.1, row) ∧ row.project = r.2.project := by
  by_cases hproject : r.2.project = name
  · cases hfile : (remoteFiles page).get? f with
    | none =>
        obtain ⟨m, hoff⟩ := h.offPage f r.1 r.2 hr hproject hfile
        exact ⟨_, hoff, project_offPageRow m r.2⟩
    | some file =>
        obtain ⟨m, hon⟩ := h.onPage f r.1 r.2 file hr hproject hfile
        exact ⟨_, hon, project_onPageRow m r.1 r.2 file⟩
  · exact ⟨r.2, h.others f r hr hproject, rfl⟩

section Batch

variable (batch : Batch) (before : Db)

/-- The filenames of a project: those of its page's wheels and those of its rows. -/
def Touches (name f : String) : Prop :=
  (∃ page file, batch.fetched name = .page page ∧ (remoteFiles page).get? f = some file) ∨
    ∃ r, before.named f = some r ∧ r.2.project = name

/-- The sync of a project alone. -/
def aloneRun (name : String) : Program.Result Db OpError (Option ApplyResult) :=
  applyProjectOutcome (IngestState.settingsAt batch "") name
    (syncProject name (batch.fetched name) before) before 0

/-- A database in which a project has not been synced yet. -/
structure Unsynced (name : String) (d : Db) : Prop where
  constrained : d.Constrained
  rows : ∀ f r, r.2.project = name → (d.named f = some r ↔ before.named f = some r)
  named : ∀ f, Touches batch before name f → d.named f = before.named f
  unlinkedBlobs : ∀ f, Touches batch before name f →
    d.unlinkedBlobs.get? f = before.unlinkedBlobs.get? f
  serial : serialOf name d = serialOf name before

/-- What the outcome of a project does to a database in which it has not been synced. -/
structure Landed (name : String) (d d' : Db) : Prop where
  constrained : d'.Constrained
  touched : ∀ f, Touches batch before name f → shown f d' = shown f (aloneRun batch before name).db
  untouched : ∀ f, ¬Touches batch before name f → d'.named f = d.named f
  kept : ∀ f r, d.named f = some r → ∃ row, d'.named f = some (r.1, row)
  foreign : ∀ f r, r.2.project ≠ name → (d'.named f = some r ↔ d.named f = some r)
  owned : ∀ f r, d'.named f = some r → r.2.project = name → Touches batch before name f
  serial : serialOf name d' = serialOf name (aloneRun batch before name).db
  otherSerials : ∀ other, other ≠ name → serialOf other d' = serialOf other d
  unlinkedBlobs : ∀ f, Touches batch before name f →
    d'.unlinkedBlobs.get? f = (aloneRun batch before name).db.unlinkedBlobs.get? f
  otherBlobs : ∀ f, ¬Touches batch before name f →
    d'.unlinkedBlobs.get? f = d.unlinkedBlobs.get? f
  skips : ∃ p, d'.skips = d.skips.filter p ∧
    (aloneRun batch before name).db.skips = before.skips.filter p
  wheelRepodata : ∃ p, d'.wheelRepodata = d.wheelRepodata.filter p ∧
    (aloneRun batch before name).db.wheelRepodata = before.wheelRepodata.filter p
  errors : ∃ l, errorsOf d' = errorsOf d ++ l ∧
    errorsOf (aloneRun batch before name).db = errorsOf before ++ l

variable {batch before}

theorem Unsynced.localRows (hbefore : before.Constrained) (h : Unsynced batch before name d) :
    LocalRows name d (readProjectWheels name before) := by
  intro f r
  rw [get?_readProjectWheels_iff hbefore]
  exact ⟨fun hr => ⟨(h.rows f r hr.2).mpr hr.1, hr.2⟩, fun hr => ⟨(h.rows f r hr.2).mp hr.1, hr.2⟩⟩

/-! ## The outcome of a page -/

section Page

variable (hpage : batch.fetched name = .page page)

include hpage

end Page

/-! ## The outcome of a project that is gone -/

variable (batch before) in
/-- A database in which the projects of `S` have been synced and no others. -/
structure Progress (S : List String) (d : Db) : Prop where
  constrained : d.Constrained
  touched : ∀ a ∈ S, ∀ f, Touches batch before a f →
    shown f d = shown f (aloneRun batch before a).db
  untouched : ∀ f, (∀ a ∈ S, ¬Touches batch before a f) → d.named f = before.named f
  kept : ∀ f r, before.named f = some r → ∃ row, d.named f = some (r.1, row)
  foreign : ∀ f r, r.2.project ∉ S → (d.named f = some r ↔ before.named f = some r)
  owned : ∀ f r, d.named f = some r → Touches batch before r.2.project f
  serial : ∀ a ∈ S, serialOf a d = serialOf a (aloneRun batch before a).db
  otherSerials : ∀ other, other ∉ S → serialOf other d = serialOf other before
  unlinkedBlobs : ∀ a ∈ S, ∀ f, Touches batch before a f →
    d.unlinkedBlobs.get? f = (aloneRun batch before a).db.unlinkedBlobs.get? f
  otherBlobs : ∀ f, (∀ a ∈ S, ¬Touches batch before a f) →
    d.unlinkedBlobs.get? f = before.unlinkedBlobs.get? f
  skips : ∀ key row, d.skips.get? key = some row ↔ before.skips.get? key = some row ∧
    ∀ a ∈ S, (aloneRun batch before a).db.skips.get? key = some row
  wheelRepodata : ∀ id row, d.wheelRepodata.get? id = some row ↔
    before.wheelRepodata.get? id = some row ∧
      ∀ a ∈ S, (aloneRun batch before a).db.wheelRepodata.get? id = some row

variable {S : List String}

theorem get?_trimmed_iff {κ ρ : Type} [DecidableEq κ] {t t' alone base : Table κ ρ}
    {P : Prop} (h : ∃ p, t' = t.filter p ∧ alone = base.filter p) {k : κ} {r : ρ}
    (ht : t.get? k = some r ↔ base.get? k = some r ∧ P) :
    t'.get? k = some r ↔ base.get? k = some r ∧ alone.get? k = some r ∧ P := by
  obtain ⟨p, rfl, rfl⟩ := h
  rw [Table.get?_filter, Table.get?_filter, Option.filter_eq_some_iff, Option.filter_eq_some_iff,
    ht]
  tauto

/-- One more project. -/
theorem Progress.land (h : Progress batch before S d) (hname : name ∉ S)
    (hdisjoint : ∀ a ∈ S, ∀ f, Touches batch before a f → ¬Touches batch before name f)
    (hland : Landed batch before name d d') : Progress batch before (name :: S) d' where
  constrained := hland.constrained
  touched a ha f hf := by
    rcases List.mem_cons.mp ha with rfl | ha
    · exact hland.touched f hf
    · rw [shown, hland.untouched f (hdisjoint a ha f hf)]
      exact h.touched a ha f hf
  untouched f hnot := by
    rw [hland.untouched f (hnot name (by simp)), h.untouched f fun a ha => hnot a (by simp [ha])]
  kept f r hr := by
    obtain ⟨row, hrow⟩ := h.kept f r hr
    exact hland.kept f (r.1, row) hrow
  foreign f r hproject := by
    obtain ⟨hne, hproject⟩ := not_or.mp (mt List.mem_cons.mpr hproject)
    rw [hland.foreign f r hne, h.foreign f r hproject]
  owned f r hr := by
    by_cases hproject : r.2.project = name
    · rw [hproject]
      exact hland.owned f r hr hproject
    · exact h.owned f r ((hland.foreign f r hproject).mp hr)
  serial a ha := by
    rcases List.mem_cons.mp ha with rfl | ha
    · exact hland.serial
    · rw [hland.otherSerials a fun heq => hname (heq ▸ ha), h.serial a ha]
  otherSerials other hother := by
    obtain ⟨hne, hother⟩ := not_or.mp (mt List.mem_cons.mpr hother)
    rw [hland.otherSerials other hne, h.otherSerials other hother]
  unlinkedBlobs a ha f hf := by
    rcases List.mem_cons.mp ha with rfl | ha
    · exact hland.unlinkedBlobs f hf
    · rw [hland.otherBlobs f (hdisjoint a ha f hf), h.unlinkedBlobs a ha f hf]
  otherBlobs f hnot := by
    rw [hland.otherBlobs f (hnot name (by simp)), h.otherBlobs f fun a ha => hnot a (by simp [ha])]
  skips key row := by
    rw [get?_trimmed_iff hland.skips (h.skips key row), List.forall_mem_cons]
  wheelRepodata id row := by
    rw [get?_trimmed_iff hland.wheelRepodata (h.wheelRepodata id row), List.forall_mem_cons]

/-- Errors are no part of what a worker reads. -/
theorem Progress.addError (h : Progress batch before S d) (row : ErrorRow) :
    Progress batch before S (d.addError row) :=
  ⟨h.constrained.congr rfl, h.touched, h.untouched, h.kept, h.foreign, h.owned, h.serial,
    h.otherSerials, h.unlinkedBlobs, h.otherBlobs, h.skips, h.wheelRepodata⟩

end Batch

end RerollSync.Ingest
