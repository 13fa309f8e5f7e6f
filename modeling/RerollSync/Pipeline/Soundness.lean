import RerollSync.Pipeline.Commits

/-!
# Soundness of the work under way

No step takes a wheel away, renames it or moves it to another project, and only
the sync of a project sets or clears deletion times in it.  So what was claimed
or planned keeps fitting the database until it is applied.
-/

namespace RerollSync.Pipeline

open RerollSync.Support RerollSync.Store RerollSync.Dispatcher RerollSync.Ingest

variable {M : Type} {env : Env M}

/-! ## What a commit keeps -/

/-- A row afterwards is the row before, as far as others rely on it: its filename,
its project and, outside a project being synced, its deletion time. -/
structure KeepsRow (synced : Option String) (row row' : WheelRow) : Prop where
  filename : row'.filename = row.filename
  project : row'.project = row.project
  deletedAt : synced ≠ some row.project → row'.deletedAt = row.deletedAt

theorem KeepsRow.refl (synced : Option String) (row : WheelRow) : KeepsRow synced row row :=
  ⟨rfl, rfl, fun _ => rfl⟩

/-- Every row stays and is kept. -/
def Keeps (synced : Option String) (db db' : Db) : Prop :=
  ∀ id row, db.wheels.get? id = some row →
    ∃ row', db'.wheels.get? id = some row' ∧ KeepsRow synced row row'

/-- An update of the rows in place that keeps each of them. -/
theorem keeps_of_map {synced : Option String} {db db' : Db} {f : ℕ → ℕ → WheelRow → WheelRow}
    (hget : ∀ id, ∃ m, db'.wheels.get? id = (db.wheels.get? id).map (f id m))
    (hf : ∀ id m row, KeepsRow synced row (f id m row)) : Keeps synced db db' := by
  intro id row hrow
  obtain ⟨m, hm⟩ := hget id
  exact ⟨f id m row, by rw [hm, hrow, Option.map_some], hf id m row⟩

/-- What a plan leaves of a row: a tombstone, a changed row, or the row. -/
theorem plannedRow_cases (settings : Ingest.Settings) (plan : ProjectPlan) (id m m' : ℕ)
    (row : WheelRow) :
    (id ∈ plan.vanishedWheelIds ∧ ∃ changed : WheelRow, changed.filename = row.filename ∧
      changed.project = row.project ∧
      plannedRow settings plan id m m' row = tombstoned settings.nowIso m' changed) ∨
    (id ∉ plan.vanishedWheelIds ∧ ∃ c ∈ plan.changedWheels, c.wheelId = id ∧
      plannedRow settings plan id m m' row = changedRow settings c m row) ∨
    (id ∉ plan.wheelIds ∧ plannedRow settings plan id m m' row = row) := by
  cases hfind : plan.changedWheels.find? fun c => c.wheelId = id with
  | none =>
      have hnot : id ∉ plan.changedWheels.map ChangedWheel.wheelId := by
        rintro hmem
        obtain ⟨c, hc, hid⟩ := List.mem_map.mp hmem
        simpa [hid] using List.find?_eq_none.mp hfind c hc
      by_cases hid : id ∈ plan.vanishedWheelIds
      · exact Or.inl ⟨hid, row, rfl, rfl, by simp [plannedRow, hfind, hid]⟩
      · refine Or.inr (Or.inr ⟨?_, by simp [plannedRow, hfind, hid]⟩)
        exact List.mem_append.not.mpr (not_or.mpr ⟨hnot, hid⟩)
  | some c =>
      have hc : c ∈ plan.changedWheels := List.mem_of_find?_eq_some hfind
      have hcid : c.wheelId = id := by simpa using List.find?_some hfind
      by_cases hid : id ∈ plan.vanishedWheelIds
      · refine Or.inl ⟨hid, changedRow settings c m row, rfl, rfl, ?_⟩
        simp [plannedRow, hfind, hid]
      · exact Or.inr (Or.inl ⟨hid, c, hc, hcid, by simp [plannedRow, hfind, hid]⟩)

/-- A plan that fits names rows of its project only. -/
theorem PlanFits.project_eq {name : String} {db : Db} {plan : ProjectPlan}
    (h : PlanFits name db plan) {id : ℕ} (hid : id ∈ plan.wheelIds) {row : WheelRow}
    (hrow : db.wheels.get? id = some row) : row.project = name := by
  rcases List.mem_append.mp hid with hchanged | hvanished
  · obtain ⟨c, hc, rfl⟩ := List.mem_map.mp hchanged
    obtain ⟨row', hrow', hproject, -⟩ := h.changed c hc
    obtain rfl : row' = row := by simpa [hrow'] using hrow
    exact hproject
  · obtain ⟨row', hrow', hproject⟩ := h.vanished id hvanished
    obtain rfl : row' = row := by simpa [hrow'] using hrow
    exact hproject

theorem plannedRow_keeps {name : String} {db : Db} {plan : ProjectPlan}
    (hfits : PlanFits name db plan) (settings : Ingest.Settings) {id : ℕ} {row : WheelRow}
    (hrow : db.wheels.get? id = some row) (m m' : ℕ) :
    KeepsRow (some name) row (plannedRow settings plan id m m' row) := by
  have hnamed : id ∈ plan.wheelIds → some name ≠ some row.project → False := fun hid hne =>
    hne (congrArg some (hfits.project_eq hid hrow).symm)
  rcases plannedRow_cases settings plan id m m' row with
    ⟨hid, changed, hname, hproject, heq⟩ | ⟨-, c, hc, hcid, heq⟩ | ⟨-, heq⟩
  · rw [heq]
    exact ⟨hname, hproject, fun hne => (hnamed (List.mem_append_right _ hid) hne).elim⟩
  · rw [heq]
    have hid : id ∈ plan.wheelIds :=
      List.mem_append_left _ (List.mem_map.mpr ⟨c, hc, hcid⟩)
    exact ⟨rfl, rfl, fun hne => (hnamed hid hne).elim⟩
  · rw [heq]
    exact KeepsRow.refl _ row

theorem goneRow_keeps (name nowIso : String) (m : ℕ) (row : WheelRow) :
    KeepsRow (some name) row (goneRow name nowIso m row) := by
  by_cases hlive : row.project = name ∧ row.deletedAt = none
  · rw [goneRow, if_pos hlive]
    exact ⟨rfl, rfl, fun hne => (hne (congrArg some hlive.1.symm)).elim⟩
  · rw [goneRow, if_neg hlive]
    exact KeepsRow.refl _ row

/-- Every commit keeps every row. -/
theorem Commit.keeps {s : State} {e : Event} {db' : Db} (h : Commit env s e db') :
    Keeps e.syncs s.db db' := by
  cases h with
  | quiet he => exact fun id row hrow => ⟨row, hrow, KeepsRow.refl _ row⟩
  | unmoved he hheld htarget wheels =>
      exact fun id row hrow => ⟨row, by rw [wheels, hrow], KeepsRow.refl _ row⟩
  | @moved _ i outcome clock h next _ he hheld htarget wheels =>
      refine keeps_of_map (f := fun id _ => Db.atWheel h.item.id (fun row =>
        outcomeRow env.dispatcher clock h.stage h.item s.db (s.changeSeq + 1) row outcome) id)
        (fun id => ⟨0, by rw [wheels, Table.get?_modify]⟩) fun id _ row => ?_
      by_cases hid : id = h.item.id
      · rw [Db.atWheel, if_pos hid]
        obtain ⟨hname, hproject, hdeleted⟩ := outcomeRow_keeps env.dispatcher clock h.stage h.item
          s.db outcome (s.changeSeq + 1) row
        exact ⟨hname, hproject, fun _ => hdeleted⟩
      · rw [Db.atWheel, if_neg hid]
        exact KeepsRow.refl _ row
  | planned hfits hsync synced =>
      intro id row hrow
      obtain ⟨m, m', hget⟩ := synced.kept id row hrow
      exact ⟨_, hget, plannedRow_keeps hfits _ hrow m m'⟩
  | gone hsync wheels => exact keeps_of_map wheels fun _ m row => goneRow_keeps _ _ m row
  | @reprocessed i nowIso ids selector _ hchunk wheels =>
      refine keeps_of_map (f := fun id m row =>
        if id ∈ ids then reprocessedRow nowIso m row else row) wheels fun id m row => ?_
      by_cases hid : id ∈ ids
      · rw [if_pos hid]
        exact ⟨rfl, rfl, fun _ => rfl⟩
      · rw [if_neg hid]
        exact KeepsRow.refl _ row
  | @unquarantined i nowIso ids _ hids wheels =>
      refine keeps_of_map (f := fun id m row =>
        if id ∈ ids ∧ row.state = .quarantined then enterState .needMetadata m nowIso row
        else row) wheels fun id m row => ?_
      by_cases hid : id ∈ ids ∧ row.state = .quarantined
      · rw [if_pos hid]
        exact ⟨rfl, rfl, fun _ => rfl⟩
      · rw [if_neg hid]
        exact KeepsRow.refl _ row

/-! ## Fitting work stays fitting -/

section Mono

variable {synced : Option String} {db db' : Db}

theorem HeldFits.mono {h : Held} (hfits : HeldFits db h) (hkeeps : Keeps synced db db') :
    HeldFits db' h := by
  obtain ⟨hstate, row, hrow, hname⟩ := hfits
  obtain ⟨row', hrow', hkept⟩ := hkeeps _ row hrow
  exact ⟨hstate, row', hrow', fun filename hf => hkept.filename.trans (hname filename hf)⟩

theorem PlanFits.mono {name : String} {plan : ProjectPlan} (hfits : PlanFits name db plan)
    (hkeeps : Keeps synced db db') (hother : synced ≠ some name) : PlanFits name db' plan where
  project := hfits.project
  new := hfits.new
  changed c hc := by
    obtain ⟨row, hrow, rfl, hstate, hfit⟩ := hfits.changed c hc
    obtain ⟨row', hrow', hkept⟩ := hkeeps _ row hrow
    refine ⟨row', hrow', hkept.project, hstate, ?_⟩
    rwa [hkept.deletedAt hother]
  changedOnce := hfits.changedOnce
  vanished id hid := by
    obtain ⟨row, hrow, hproject⟩ := hfits.vanished id hid
    obtain ⟨row', hrow', hkept⟩ := hkeeps _ row hrow
    exact ⟨row', hrow', hkept.project.trans hproject⟩

theorem SyncFits.mono {name : String} {sync : PendingSync} (hfits : SyncFits name db sync)
    (hkeeps : Keeps synced db db') (hother : synced ≠ some name) : SyncFits name db' sync := by
  cases sync with
  | plan plan => exact PlanFits.mono hfits hkeeps hother
  | gone => trivial

end Mono

/-! ## The invariant -/

/-- Every step keeps the work under way fitting. -/
theorem sound_step {s s' : State} {e : Event} (hs : Sound s) (hstep : step env s e = some s') :
    Sound s' := by
  obtain ⟨hcommit, hheld, hsyncs⟩ := stepped_of_step hs hstep
  refine ⟨fun h hh => (hheld h hh).mono hcommit.keeps, fun name sync hsync => ?_⟩
  obtain ⟨hfits, hother⟩ := hsyncs name sync hsync
  exact hfits.mono hcommit.keeps hother

end RerollSync.Pipeline
