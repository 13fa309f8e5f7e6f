import RerollSync.Store.Schema
import RerollSync.Support.Paging
import Mathlib.Data.String.Basic

/-!
# Polling the simple index

`poll_index` of `ingest.py`: the listing is compared with the local serials, which
are read one page at a time.  The serials go by name, and the stale projects are
those of the listing that are unknown or older here.
-/

namespace RerollSync.Ingest

open RerollSync.Store RerollSync.Support

/-- `IndexProject`. -/
structure IndexProject where
  name : String
  serial : ℤ
deriving DecidableEq

/-- `SimpleIndex`. -/
structure SimpleIndex where
  lastSerial : ℤ
  projects : List IndexProject
  etag : Option String
  notModified : Bool
deriving DecidableEq

/-- `PollResult`. -/
structure PollResult where
  notModified : Bool
  etag : Option String
  remoteGlobalSerial : Option ℤ
  staleProjects : List String
deriving DecidableEq

/-- `_read_local_serials`: the names are read from the empty one on. -/
def readLocalSerials (chunkSize : ℤ) (db : Db) : Table String ℤ :=
  (keysetPages db.pypiIndex.rows chunkSize (db.pypiIndex.rows.length + 1) "").foldl
    (fun serials row => serials.set row.1 row.2.serial) ∅

/-- `_stale_projects`. -/
def staleProjects (remoteProjects : List IndexProject) (localSerials : Table String ℤ) :
    List String :=
  (remoteProjects.filter fun project =>
    (localSerials.get? project.name).all (· < project.serial)).map IndexProject.name

/-- `poll_index`, from what `fetch_simple_index` returns. -/
def pollIndex (index : SimpleIndex) (chunkSize : ℤ) (db : Db) : PollResult :=
  if index.notModified then ⟨true, index.etag, none, []⟩
  else ⟨false, index.etag, some index.lastSerial,
    staleProjects index.projects (readLocalSerials chunkSize db)⟩

/-! ## The local serials -/

theorem empty_lt_iff {s : String} : "" < s ↔ s ≠ "" := by
  rw [String.lt_iff_toList_lt]
  cases h : s.toList with
  | nil =>
      have hempty : s = "" := String.toList_inj.mp (by simpa using h)
      simp [hempty]
  | cons c l =>
      have hne : s ≠ "" := fun hempty => by simp [hempty] at h
      simp [hne]

/-- Pages of any size but zero read every local serial, except that of a project with
an empty name. -/
theorem get?_readLocalSerials {chunkSize : ℤ} (hchunk : chunkSize ≠ 0) {db : Db} {name : String}
    {serial : ℤ} : (readLocalSerials chunkSize db).get? name = some serial ↔
      name ≠ "" ∧ ∃ row, db.pypiIndex.get? name = some row ∧ row.serial = serial := by
  have hpages : keysetPages db.pypiIndex.rows chunkSize (db.pypiIndex.rows.length + 1) "" =
      rowsAfter db.pypiIndex.rows "" := by
    refine keysetPages_eq db.pypiIndex.nodup hchunk (Nat.lt_succ_of_le ?_)
    rw [rowsAfter, List.length_insertionSort]
    exact List.length_filter_le _ _
  have hunique : ∀ x ∈ rowsAfter db.pypiIndex.rows "", ∀ y ∈ rowsAfter db.pypiIndex.rows "",
      x.1 = y.1 → x.2.serial = y.2.serial := by
    intro x hx y hy hkey
    have hx' : db.pypiIndex.get? x.1 = some x.2 :=
      Table.get?_eq_some_iff.mpr (mem_rowsAfter.mp hx).1
    have hy' : db.pypiIndex.get? y.1 = some y.2 :=
      Table.get?_eq_some_iff.mpr (mem_rowsAfter.mp hy).1
    rw [hkey, hy'] at hx'
    rw [Option.some.inj hx']
  rw [readLocalSerials, hpages, Table.get?_foldl_set_iff hunique]
  constructor
  · rintro ⟨row, hrow, rfl, rfl⟩
    obtain ⟨hmem, hlt⟩ := mem_rowsAfter.mp hrow
    exact ⟨empty_lt_iff.mp hlt, row.2, Table.get?_eq_some_iff.mpr hmem, rfl⟩
  · rintro ⟨hname, row, hrow, rfl⟩
    exact ⟨(name, row), mem_rowsAfter.mpr
      ⟨Table.get?_eq_some_iff.mp hrow, empty_lt_iff.mpr hname⟩, rfl, rfl⟩

theorem readLocalSerials_zero (db : Db) : readLocalSerials 0 db = ∅ := by
  rw [readLocalSerials, keysetPages_zero]
  rfl

/-! ## The stale projects -/

/-- What is known here of a project is not what the listing says: the project is
unknown or older, or it is known and no longer listed. -/
def Differs (listing : List IndexProject) (db : Db) (name : String) : Prop :=
  (∃ project ∈ listing, project.name = name ∧
    ∀ row, db.pypiIndex.get? name = some row → row.serial < project.serial) ∨
  ((db.pypiIndex.get? name).isSome ∧ ∀ project ∈ listing, project.name ≠ name)

/-- A listed project that is up to date here. -/
def Current (listing : List IndexProject) (db : Db) (name : String) : Prop :=
  (∃ project ∈ listing, project.name = name) ∧
    ∀ project ∈ listing, project.name = name →
      ∃ row, db.pypiIndex.get? name = some row ∧ project.serial ≤ row.serial

theorem mem_staleProjects_iff {listing : List IndexProject} {serials : Table String ℤ}
    {name : String} : name ∈ staleProjects listing serials ↔
      ∃ project ∈ listing, project.name = name ∧
        ∀ serial, serials.get? name = some serial → serial < project.serial := by
  have hall : ∀ project : IndexProject,
      (serials.get? project.name).all (· < project.serial) = true ↔
        ∀ serial, serials.get? project.name = some serial → serial < project.serial := by
    intro project
    cases serials.get? project.name with
    | none => simp
    | some serial => simp
  rw [staleProjects, List.mem_map]
  constructor
  · rintro ⟨project, hproject, rfl⟩
    obtain ⟨hmem, hstale⟩ := List.mem_filter.mp hproject
    exact ⟨project, hmem, rfl, (hall project).mp hstale⟩
  · rintro ⟨project, hmem, rfl, hstale⟩
    exact ⟨project, List.mem_filter.mpr ⟨hmem, (hall project).mpr hstale⟩, rfl⟩

/-- The stale projects are the listed ones that are unknown, older here, or beyond
the reach of the pages. -/
theorem mem_staleProjects_readLocalSerials_iff {listing : List IndexProject} {chunkSize : ℤ}
    {db : Db} {name : String} :
    name ∈ staleProjects listing (readLocalSerials chunkSize db) ↔
      (∃ project ∈ listing, project.name = name) ∧
        (Current listing db name → name = "" ∨ chunkSize = 0) := by
  rw [mem_staleProjects_iff]
  by_cases hchunk : chunkSize = 0
  · rw [hchunk, readLocalSerials_zero]
    simp
  · simp only [get?_readLocalSerials hchunk, hchunk, or_false]
    constructor
    · rintro ⟨project, hmem, rfl, hstale⟩
      refine ⟨⟨project, hmem, rfl⟩, fun hcurrent => ?_⟩
      by_contra hname
      obtain ⟨row, hrow, hle⟩ := hcurrent.2 project hmem rfl
      exact absurd (hstale row.serial ⟨hname, row, hrow, rfl⟩) (not_lt.mpr hle)
    · rintro ⟨⟨project, hmem, rfl⟩, hnot⟩
      by_cases hname : project.name = ""
      · exact ⟨project, hmem, rfl, fun _ h => (h.1 hname).elim⟩
      · by_contra hnone
        push Not at hnone
        refine hname (hnot ⟨⟨project, hmem, rfl⟩, fun project' hmem' heq => ?_⟩)
        obtain ⟨serial, ⟨-, row, hrow, rfl⟩, hle⟩ := hnone project' hmem' heq
        exact ⟨row, hrow, hle⟩

/-- The stale set is the set of projects that differ from the listing exactly when
every local project is listed, and the listed ones that are up to date have names and
are read. -/
theorem staleProjects_eq_differs_iff (lastSerial : ℤ) (projects : List IndexProject)
    (etag : Option String) (chunkSize : ℤ) (db : Db) :
    (∀ name, name ∈ (pollIndex ⟨lastSerial, projects, etag, false⟩ chunkSize db).staleProjects ↔
        Differs projects db name) ↔
      (∀ name, (db.pypiIndex.get? name).isSome → ∃ project ∈ projects, project.name = name) ∧
        ∀ name, Current projects db name → name ≠ "" ∧ chunkSize ≠ 0 := by
  have hstale : ∀ name,
      name ∈ (pollIndex ⟨lastSerial, projects, etag, false⟩ chunkSize db).staleProjects ↔
        (∃ project ∈ projects, project.name = name) ∧
          (Current projects db name → name = "" ∨ chunkSize = 0) :=
    fun name => mem_staleProjects_readLocalSerials_iff
  have hlisted : ∀ name, (∃ project ∈ projects, project.name = name) →
      (Differs projects db name ↔ ¬Current projects db name) := by
    intro name hname
    constructor
    · rintro (⟨project, hmem, hproject, hlt⟩ | ⟨-, hnone⟩) hcurrent
      · obtain ⟨row, hrow, hle⟩ := hcurrent.2 project hmem hproject
        exact absurd (hlt row hrow) (not_lt.mpr hle)
      · obtain ⟨project, hmem, hproject⟩ := hname
        exact hnone project hmem hproject
    · intro hnot
      by_contra hsame
      refine hnot ⟨hname, fun project hmem hproject => ?_⟩
      by_contra hnone
      push Not at hnone
      exact hsame (Or.inl ⟨project, hmem, hproject, hnone⟩)
  simp only [hstale]
  constructor
  · intro h
    constructor
    · intro name hlocal
      by_contra hnone
      have hdiffers : Differs projects db name :=
        Or.inr ⟨hlocal, fun project hmem hproject => hnone ⟨project, hmem, hproject⟩⟩
      exact hnone ((h name).mpr hdiffers).1
    · intro name hcurrent
      by_contra hreach
      have hreach : name = "" ∨ chunkSize = 0 := by
        by_contra hnot
        exact hreach (not_or.mp hnot)
      exact (hlisted name hcurrent.1).mp ((h name).mp ⟨hcurrent.1, fun _ => hreach⟩) hcurrent
  · rintro ⟨hgone, hreach⟩ name
    constructor
    · rintro ⟨hname, hread⟩
      refine (hlisted name hname).mpr fun hcurrent => ?_
      obtain ⟨hne, hchunk⟩ := hreach name hcurrent
      exact (hread hcurrent).elim hne hchunk
    · intro hdiffers
      have hname : ∃ project ∈ projects, project.name = name := by
        rcases hdiffers with ⟨project, hmem, hproject, -⟩ | ⟨hlocal, -⟩
        · exact ⟨project, hmem, hproject⟩
        · exact hgone name hlocal
      exact ⟨hname, fun hcurrent => ((hlisted name hname).mp hdiffers hcurrent).elim⟩

/-- A project known here that the listing no longer names is not found stale. -/
theorem deleted_project_not_stale :
    ∃ db : Db, db.pypiIndex.get? "gone" = some ⟨5, "t0"⟩ ∧
      (pollIndex ⟨7, [⟨"kept", 7⟩], none, false⟩ 5000 db).staleProjects = ["kept"] ∧
      ¬∀ name, name ∈ (pollIndex ⟨7, [⟨"kept", 7⟩], none, false⟩ 5000 db).staleProjects ↔
        Differs [⟨"kept", 7⟩] db name := by
  have hstale : (pollIndex ⟨7, [⟨"kept", 7⟩], none, false⟩ 5000
      (Db.empty.upsertIndex "gone" ⟨5, "t0"⟩)).staleProjects = ["kept"] := by decide
  refine ⟨Db.empty.upsertIndex "gone" ⟨5, "t0"⟩, rfl, hstale, fun h => ?_⟩
  have hdiffers : Differs [⟨"kept", 7⟩] (Db.empty.upsertIndex "gone" ⟨5, "t0"⟩) "gone" :=
    Or.inr ⟨rfl, by decide⟩
  have hmem := (h "gone").mpr hdiffers
  rw [hstale] at hmem
  simp at hmem

end RerollSync.Ingest
