import RerollSync.Ingest.Plan
import RerollSync.Store.Filenames
import RerollSync.Support.Paging
import RerollSync.Fetch.Recovery

/-!
# The plan of a page

What `sync_project` reads and what its plan holds, by filename: the local rows are
read page by page and the unlinked blobs chunk by chunk, and what is read does not
depend on the sizes of either.
-/

namespace RerollSync.Ingest

open RerollSync.Store RerollSync.Support

/-! ## Reading in pages -/

theorem get?_readProjectWheels_iff {name : String} {db : Db} (h : db.Constrained)
    {filename : String} {r : ℕ × WheelRow} :
    (readProjectWheels name db).get? filename = some r ↔
      db.named filename = some r ∧ r.2.project = name := by
  have hmem : ∀ x : ℕ × WheelRow, x ∈ ((db.wheels.filter fun _ row =>
      row.project = name).rows.insertionSort fun a b => a.1 ≤ b.1) ↔
        db.wheels.get? x.1 = some x.2 ∧ x.2.project = name := by
    intro x
    rw [List.mem_insertionSort, Table.get?_eq_some_iff]
    simp [Table.filter]
  rw [readProjectWheels, Table.get?_foldl_set_iff]
  · constructor
    · rintro ⟨x, hx, rfl, rfl⟩
      obtain ⟨hget, hproject⟩ := (hmem x).mp hx
      exact ⟨h.named_of_get? hget, hproject⟩
    · rintro ⟨hnamed, hproject⟩
      obtain ⟨hget, hname⟩ := Db.get?_of_named hnamed
      exact ⟨r, (hmem r).mpr ⟨hget, hproject⟩, hname, rfl⟩
  · intro x hx y hy hname
    have hx := h.named_of_get? ((hmem x).mp hx).1
    have hy := h.named_of_get? ((hmem y).mp hy).1
    rw [hname, hy] at hx
    exact (Option.some.inj hx).symm

/-- What chunks of a size look up. -/
def lookedUp (chunkSize : ℤ) (db : Db) (filename : String) : Option String :=
  if 0 < chunkSize then readUnlinkedBlobs db filename else none

theorem filename_remoteFiles {page : ProjectPage} {filename : String} {file : ProjectFile}
    (h : (remoteFiles page).get? filename = some file) : file.filename = filename := by
  rcases Table.get?_foldl_set ProjectFile.filename (fun file => file) _ _ h with
    hempty | ⟨file', -, hname, rfl⟩
  · simp at hempty
  · exact hname

theorem mem_sorted {filenames : List String} {filename : String} :
    filename ∈ sorted filenames ↔ filename ∈ filenames := List.mem_insertionSort _

section Plan

variable {name : String} {page : ProjectPage} {rows : Table String (ℕ × WheelRow)}
  {unlinked : String → Option String}

theorem mem_newWheels_iff {w : NewWheel} :
    w ∈ (planProject name page rows unlinked).newWheels ↔
      ∃ file, (remoteFiles page).get? w.filename = some file ∧ rows.get? w.filename = none ∧
        w = planNewWheel file (unlinked w.filename) := by
  simp only [planProject, List.mem_filterMap, mem_sorted, List.mem_filter, Table.mem_keys_iff,
    Option.map_eq_some_iff, decide_eq_true_eq]
  constructor
  · rintro ⟨filename, ⟨-, hnew⟩, file, hfile, rfl⟩
    have hname : (planNewWheel file (unlinked filename)).filename = filename :=
      filename_remoteFiles hfile
    rw [hname]
    refine ⟨file, hfile, ?_, rfl⟩
    simpa [Table.mem_keys_iff, Option.eq_none_iff_forall_not_mem] using hnew
  · rintro ⟨file, hfile, hnew, hw⟩
    exact ⟨w.filename, ⟨⟨file, hfile⟩, by simp [hnew]⟩, file, hfile, hw.symm⟩

theorem nodup_filename_newWheels :
    ((planProject name page rows unlinked).newWheels.map NewWheel.filename).Nodup := by
  have hkeys : (sorted ((remoteFiles page).keys.filter (· ∉ rows.keys))).Nodup :=
    (List.perm_insertionSort _ _).nodup_iff.mpr ((remoteFiles page).nodup.filter _)
  simp only [planProject, List.map_filterMap]
  refine hkeys.filterMap fun f f' g hg hg' => ?_
  have hname : ∀ f, g ∈ Option.map NewWheel.filename
      (((remoteFiles page).get? f).map fun file => planNewWheel file (unlinked f)) → g = f := by
    intro f h
    obtain ⟨w, hw, rfl⟩ := Option.map_eq_some_iff.mp h
    obtain ⟨file, hfile, rfl⟩ := Option.map_eq_some_iff.mp hw
    exact filename_remoteFiles hfile
  rw [← hname f hg, ← hname f' hg']

theorem mem_changedWheels_iff {c : ChangedWheel} :
    c ∈ (planProject name page rows unlinked).changedWheels ↔
      ∃ filename file row, (remoteFiles page).get? filename = some file ∧
        rows.get? filename = some (c.wheelId, row) ∧ diffCommon c.wheelId row file = some c := by
  simp only [planProject, List.mem_filterMap, mem_sorted, List.mem_filter, Table.mem_keys_iff,
    decide_eq_true_eq]
  constructor
  · rintro ⟨filename, -, hdiff⟩
    obtain ⟨file, hfile, hrest⟩ := Option.bind_eq_some_iff.mp hdiff
    obtain ⟨⟨id, row⟩, hrow, hcommon⟩ := Option.bind_eq_some_iff.mp hrest
    obtain rfl := wheelId_of_diffCommon hcommon
    exact ⟨filename, file, row, hfile, hrow, hcommon⟩
  · rintro ⟨filename, file, row, hfile, hrow, hcommon⟩
    refine ⟨filename, ⟨⟨file, hfile⟩, _, hrow⟩, ?_⟩
    simp [hfile, hrow, hcommon]

theorem mem_vanishedWheelIds_iff {id : ℕ} :
    id ∈ (planProject name page rows unlinked).vanishedWheelIds ↔
      ∃ filename row, (remoteFiles page).get? filename = none ∧
        rows.get? filename = some (id, row) ∧ row.deletedAt = none := by
  simp only [planProject, List.mem_filterMap, mem_sorted, List.mem_filter, Table.mem_keys_iff,
    decide_eq_true_eq]
  constructor
  · rintro ⟨filename, ⟨-, hoff⟩, hvanished⟩
    obtain ⟨⟨id', row⟩, hrow, hlive⟩ := Option.bind_eq_some_iff.mp hvanished
    obtain ⟨hdeleted, rfl⟩ : row.deletedAt = none ∧ id' = id := by simpa using hlive
    refine ⟨filename, row, ?_, hrow, hdeleted⟩
    simpa [Option.eq_none_iff_forall_not_mem] using hoff
  · rintro ⟨filename, row, hoff, hrow, hdeleted⟩
    refine ⟨filename, ⟨⟨_, hrow⟩, by simp [hoff]⟩, ?_⟩
    simp [hrow, hdeleted]

end Plan

end RerollSync.Ingest
