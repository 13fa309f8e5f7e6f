import RerollSync.Ingest.IndexPoll
import RerollSync.Ingest.Outcomes

/-!
# Spellings of a project name

`fetch_project` of `pypi_client.py` normalizes the name it is given, and nothing else
does: two spellings fetch the same page, while the rows, the recorded serials and the
new wheels of a sync go by the spelling.
-/

namespace RerollSync.Ingest

open RerollSync.Store RerollSync.Support

/-! ## The page of a name -/

/-- `[-_.]`. -/
def isSeparator (c : Char) : Bool := c = '-' ∨ c = '_' ∨ c = '.'

/-- `_PEP503_SEPARATORS.sub("-", name)`: a run of separators is one hyphen; `inRun` is
set inside of a run. -/
def subSeparators (inRun : Bool) : List Char → List Char
  | [] => []
  | c :: cs =>
      if isSeparator c then
        if inRun then subSeparators true cs else '-' :: subSeparators true cs
      else c :: subSeparators false cs

/-- `_normalize_project_name`; `lower` is Python's `str.lower`. -/
def normalizeProjectName (lower : String → String) (name : String) : String :=
  lower (String.ofList (subSeparators false name.toList))

/-- `_URL_UNRESERVED`. -/
def urlUnreserved : List Char :=
  "ABCDEFGHIJKLMNOPQRSTUVWXYZabcdefghijklmnopqrstuvwxyz0123456789-._~".toList

/-- A byte as two upper-case hexadecimal digits. -/
def hexByte (byte : UInt8) : List Char :=
  let digits := "0123456789ABCDEF".toList
  [digits.getD (byte.toNat / 16) '0', digits.getD (byte.toNat % 16) '0']

/-- `_percent_encode`. -/
def percentEncode (value : String) : String :=
  String.ofList <| value.toUTF8.toList.flatMap fun byte =>
    if Char.ofNat byte.toNat ∈ urlUnreserved then [Char.ofNat byte.toNat] else '%' :: hexByte byte

/-- `fetch_project`; `server` is what the index answers for a path. -/
def fetchProject (lower : String → String) (server : String → FetchedProject) (name : String) :
    FetchedProject :=
  server (percentEncode (normalizeProjectName lower name))

/-- `sync_project` and `apply_project_outcome` for a name. -/
def syncNamed (settings : Settings) (lower : String → String) (server : String → FetchedProject)
    (name : String) (db : Db) (n : ℕ) : Program.Result Db OpError (Option ApplyResult) :=
  applyProjectOutcome settings name (syncProject name (fetchProject lower server name) db) db n

/-! ## One sync -/

variable {settings : Settings} {lower : String → String} {server : String → FetchedProject}
  {a b name : String} {page : ProjectPage} {db : Db} {n : ℕ}

variable (settings n) in
theorem pageSynced_syncNamed (hfetch : fetchProject lower server name = .page page)
    (hdb : db.Constrained) :
    PageSynced settings name page db (syncNamed settings lower server name db n).db := by
  rw [syncNamed, hfetch]
  exact pageSynced_applyProjectOutcome settings page n hdb

/-! ## Two spellings -/

/-- The database after the syncs of two names, one after the other. -/
def syncedBoth (settings settings' : Settings) (lower : String → String)
    (server : String → FetchedProject) (a b : String) (db : Db) (n : ℕ) : Db :=
  let first := syncNamed settings lower server a db n
  (syncNamed settings' lower server b first.db first.counter).db

/-- The page's wheels are held under the two names, if at all. -/
def HeldBy (a b : String) (page : ProjectPage) (db : Db) : Prop :=
  ∀ f file id row, (remoteFiles page).get? f = some file → db.named f = some (id, row) →
    row.project = a ∨ row.project = b

/-- The live rows of the two names are the wheels of the page. -/
structure Shows (a b : String) (page : ProjectPage) (db : Db) : Prop where
  published : ∀ f file, (remoteFiles page).get? f = some file → ∃ id row,
    db.named f = some (id, row) ∧ (row.project = a ∨ row.project = b) ∧ row.deletedAt = none ∧
      Published row file
  tombstoned : ∀ f id row, db.named f = some (id, row) → row.project = a ∨ row.project = b →
    (remoteFiles page).get? f = none → row.deletedAt ≠ none

/-- Two spellings are one project: after a sync under either the live rows are those of
two syncs under the first and no error is recorded, a listing that carries either
spelling finds neither stale, and a later page synced under either is shown. -/
structure OneProject (settings settings' : Settings) (lower : String → String)
    (server : String → FetchedProject) (a b : String) (page : ProjectPage) (db : Db) (n : ℕ) :
    Prop where
  liveRows : ∀ id row, row.deletedAt = none →
    ((syncedBoth settings settings' lower server a b db n).wheels.get? id = some row ↔
      (syncedBoth settings settings' lower server a a db n).wheels.get? id = some row)
  noDuplicates : (syncedBoth settings settings' lower server a b db n).errors.rows.map Prod.snd =
    db.errors.rows.map Prod.snd
  notStale : ∀ name, name = a ∨ name = b → ∀ index : SimpleIndex,
    (∀ project ∈ index.projects, project.name = name → project.serial ≤ page.lastSerial) →
      name ∉ (pollIndex index 5000
        (syncedBoth settings settings' lower server a b db n)).staleProjects
  updated : ∀ name, name = a ∨ name = b → ∀ later server' settings'' m,
    fetchProject lower server' name = .page later →
      HeldBy a b later (syncedBoth settings settings' lower server a b db n) →
        Shows a b later (syncNamed settings'' lower server' name
          (syncedBoth settings settings' lower server a b db n) m).db

section Spellings

variable {settings' : Settings}

theorem isWheel_of_remoteFiles {f : String} {file : ProjectFile}
    (h : (remoteFiles page).get? f = some file) : isWheel f = true := by
  rcases Table.get?_foldl_set ProjectFile.filename (fun file => file) _ _ h with
    hempty | ⟨file', hmem, hname, -⟩
  · simp at hempty
  · rw [← hname]
    exact (List.mem_filter.mp hmem).2

/-- A listing finds a project stale that is up to date only when its name is empty. -/
theorem not_mem_staleProjects_iff {row : IndexRow} (hrow : db.pypiIndex.get? name = some row) :
    (∀ index : SimpleIndex,
      (∀ project ∈ index.projects, project.name = name → project.serial ≤ row.serial) →
        name ∉ (pollIndex index 5000 db).staleProjects) ↔ name ≠ "" := by
  constructor
  · rintro h rfl
    refine h ⟨0, [⟨"", row.serial⟩], none, false⟩ ?_ ?_
    · intro project hmem _
      rw [List.mem_singleton.mp hmem]
    · exact mem_staleProjects_readLocalSerials_iff.mpr ⟨⟨_, List.mem_singleton.mpr rfl, rfl⟩,
        fun _ => Or.inl rfl⟩
  · intro hname index hserials hstale
    rw [pollIndex] at hstale
    split at hstale
    · exact List.not_mem_nil hstale
    · obtain ⟨hlisted, hcurrent⟩ := mem_staleProjects_readLocalSerials_iff.mp hstale
      rcases hcurrent ⟨hlisted, fun project hmem heq => ⟨row, hrow, hserials project hmem heq⟩⟩ with
        hempty | hzero
      · exact hname hempty
      · exact absurd hzero (by decide)

theorem serial_syncedBoth {db₁ db₂ : Db} (h₁ : PageSynced settings a page db db₁)
    (h₂ : PageSynced settings' b page db₁ db₂) (hname : name = a ∨ name = b) :
    ∃ row, db₂.pypiIndex.get? name = some row ∧ row.serial = page.lastSerial := by
  rw [h₂.reconciled.pypiIndex, h₁.reconciled.pypiIndex, Table.get?_set]
  by_cases hb : name = b
  · rw [if_pos hb]
    exact ⟨_, rfl, rfl⟩
  · have ha : name = a := hname.resolve_right hb
    rw [if_neg hb, Table.get?_set, if_pos ha]
    exact ⟨_, rfl, rfl⟩

/-- The page's wheels are held by no third name exactly when neither sync records an
error. -/
theorem noDuplicates_iff {db₁ db₂ : Db} (h₁ : PageSynced settings a page db db₁)
    (h₂ : PageSynced settings' b page db₁ db₂) :
    db₂.errors.rows.map Prod.snd = db.errors.rows.map Prod.snd ↔
      Unowned a page db ∧ Unowned b page db₁ := by
  obtain ⟨refused, herrors, hrefused⟩ := h₁.errors
  obtain ⟨refused', herrors', hrefused'⟩ := h₂.errors
  rw [herrors', herrors, ← hrefused, ← hrefused', List.append_assoc]
  constructor
  · intro h
    simpa using h
  · rintro ⟨rfl, rfl⟩
    simp

/-- After a sync the page's wheels are held by the project. -/
theorem PageSynced.unowned {db' : Db} (h : PageSynced settings name page db db')
    (howned : Unowned name page db) : Unowned name page db' := by
  intro f file id row hfile hnamed
  obtain ⟨id', row', hnamed', hproject, -⟩ := h.reconciled.published hfile
    fun r hr => howned f file r.1 r.2 hfile hr
  rw [hnamed] at hnamed'
  rw [(Prod.mk.inj (Option.some.inj hnamed')).2]
  exact hproject

theorem oneProject_self_iff (hfetch : fetchProject lower server a = .page page)
    (hdb : db.Constrained) : OneProject settings settings' lower server a a page db n ↔
      a ≠ "" ∧ Unowned a page db := by
  have h₁ := pageSynced_syncNamed settings n hfetch hdb
  have h₂ := pageSynced_syncNamed settings' (syncNamed settings lower server a db n).counter hfetch
    h₁.reconciled.constrained
  obtain ⟨row, hrow, hserial⟩ := serial_syncedBoth h₁ h₂ (Or.inl rfl)
  constructor
  · intro h
    have hstale := h.notStale a (Or.inl rfl)
    rw [← hserial] at hstale
    exact ⟨(not_mem_staleProjects_iff hrow).mp hstale,
      ((noDuplicates_iff h₁ h₂).mp h.noDuplicates).1⟩
  · rintro ⟨hname, howned⟩
    refine ⟨fun _ _ _ => Iff.rfl, (noDuplicates_iff h₁ h₂).mpr ⟨howned, h₁.unowned howned⟩, ?_, ?_⟩
    · intro name hspelling
      obtain rfl : name = a := or_self_iff.mp hspelling
      rw [← hserial]
      exact (not_mem_staleProjects_iff hrow).mpr hname
    · intro name hspelling later server' settings'' m hlater hheld
      obtain rfl : name = a := or_self_iff.mp hspelling
      have h₃ := pageSynced_syncNamed settings'' m hlater h₂.reconciled.constrained
      constructor
      · intro f file hfile
        obtain ⟨id, row, hnamed, hproject, hrest⟩ := h₃.reconciled.published hfile
          fun r hr => or_self_iff.mp (hheld f file r.1 r.2 hfile hr)
        exact ⟨id, row, hnamed, Or.inl hproject, hrest⟩
      · intro f id row hnamed hproject hoff
        exact h₃.reconciled.tombstone hnamed (or_self_iff.mp hproject) hoff

/-- Two different spellings are one project only where there is nothing to show: the page
has no wheels, no wheel is filed under either, and the second has no live row. -/
def NothingToShow (a b : String) (page : ProjectPage) (db : Db) : Prop :=
  (∀ f, (remoteFiles page).get? f = none) ∧
    (∀ id row, db.wheels.get? id = some row → row.project = a ∨ row.project = b →
      isWheel row.filename = false) ∧
    ∀ id row, db.wheels.get? id = some row → row.project = b → row.deletedAt ≠ none

/-- The sync of a page without wheels leaves a row of every filename under its name. -/
theorem PageSynced.named_kept {db' : Db} (h : PageSynced settings name page db db')
    (hoff : ∀ f, (remoteFiles page).get? f = none) {f : String} {id : ℕ} {row : WheelRow}
    (hnamed : db.named f = some (id, row)) :
    ∃ row', db'.named f = some (id, row') ∧ row'.project = row.project := by
  by_cases hname : row.project = name
  · obtain ⟨m, hrow⟩ := h.reconciled.offPage f id row hnamed hname (hoff f)
    exact ⟨_, hrow, project_offPageRow m row⟩
  · exact ⟨row, h.reconciled.others f _ hnamed hname, rfl⟩

/-- A row of one spelling is not updated by a sync under another. -/
theorem not_shows_of_other {db' : Db} {f : String} {id : ℕ} {row : WheelRow} {later : ProjectPage}
    {file : ProjectFile} (h : PageSynced settings name later db db')
    (hnamed : db.named f = some (id, row)) (hother : row.project ≠ name)
    (hfile : (remoteFiles later).get? f = some file) (hurl : file.url ≠ row.url) :
    ¬Shows a b later db' := by
  intro hshows
  obtain ⟨id', row', hnamed', -, -, hpublished⟩ := hshows.published f file hfile
  rw [h.reconciled.others f _ hnamed hother] at hnamed'
  rw [← (Prod.mk.inj (Option.some.inj hnamed')).2] at hpublished
  exact hurl hpublished.url.symm

/-- The page of one file. -/
theorem get?_remoteFiles_singleton {file file' : ProjectFile} {serial : ℤ} {f : String}
    (h : (remoteFiles ⟨serial, [file]⟩).get? f = some file') : f = file.filename := by
  rcases Table.get?_foldl_set ProjectFile.filename (fun file => file) _ _ h with
    hempty | ⟨file'', hmem, hname, -⟩
  · simp at hempty
  · rw [← hname, List.mem_singleton.mp (List.mem_filter.mp hmem).1]

theorem nothingToShow_of_oneProject (hdb : db.Constrained) (hne : a ≠ b)
    (hfetch : fetchProject lower server a = .page page)
    (hfetch' : fetchProject lower server b = .page page)
    (h : OneProject settings settings' lower server a b page db n) : NothingToShow a b page db := by
  have h₁ := pageSynced_syncNamed settings n hfetch hdb
  have hdb₁ := h₁.reconciled.constrained
  have h₂ := pageSynced_syncNamed settings' (syncNamed settings lower server a db n).counter
    hfetch' hdb₁
  have h₂' := pageSynced_syncNamed settings' (syncNamed settings lower server a db n).counter
    hfetch hdb₁
  have hdb₂ := h₂.reconciled.constrained
  obtain ⟨howned, howned'⟩ := (noDuplicates_iff h₁ h₂).mp h.noDuplicates
  have hoff : ∀ f, (remoteFiles page).get? f = none := by
    intro f
    by_contra hsome
    obtain ⟨file, hfile⟩ := Option.ne_none_iff_exists'.mp hsome
    obtain ⟨id, row, hnamed, hproject, -⟩ := h₁.reconciled.published hfile
      fun r hr => howned f file r.1 r.2 hfile hr
    exact hne (hproject.symm.trans (howned' f file id row hfile hnamed))
  refine ⟨hoff, fun id row hrow hproject => ?_, fun id row hrow hproject hlive => ?_⟩
  · by_contra hwheel
    have hwheel : isWheel row.filename = true := by simpa using hwheel
    obtain ⟨row₁, hnamed₁, hproject₁⟩ := h₁.named_kept hoff (hdb.named_of_get? hrow)
    obtain ⟨row₂, hnamed₂, hproject₂⟩ := h₂.named_kept hoff hnamed₁
    have hspelling : row₂.project = row.project := hproject₂.trans hproject₁
    let file : ProjectFile := { filename := row.filename, url := row₂.url ++ "/" }
    have hfile : (remoteFiles ⟨0, [file]⟩).get? row.filename = some file := by
      simp [remoteFiles, file, hwheel]
    have hurl : file.url ≠ row₂.url := by
      intro heq
      have hlength := congrArg String.length heq
      simp [file] at hlength
    obtain ⟨name, hname, hother⟩ : ∃ name, (name = a ∨ name = b) ∧ row₂.project ≠ name := by
      rcases hproject with ha | hb
      · exact ⟨b, Or.inr rfl, by rw [hspelling, ha]; exact hne⟩
      · exact ⟨a, Or.inl rfl, by rw [hspelling, hb]; exact hne.symm⟩
    have hheld : HeldBy a b ⟨0, [file]⟩ (syncedBoth settings settings' lower server a b db n) := by
      intro f file' id' row' hfile' hnamed'
      obtain rfl := get?_remoteFiles_singleton hfile'
      rw [show (syncedBoth settings settings' lower server a b db n).named row.filename = _ from
        hnamed₂] at hnamed'
      rw [← (Prod.mk.inj (Option.some.inj hnamed')).2, hspelling]
      exact hproject
    have hshows := h.updated name hname ⟨0, [file]⟩ (fun _ => .page ⟨0, [file]⟩) settings 0 rfl
      hheld
    exact not_shows_of_other (pageSynced_syncNamed settings 0 rfl hdb₂) hnamed₂ hother hfile hurl
      hshows
  · have hnamed := hdb.named_of_get? hrow
    have hother : row.project ≠ a := by
      rw [hproject]
      exact hne.symm
    have hnamed₁ := h₁.reconciled.others _ _ hnamed hother
    have hkept := (Db.get?_of_named (h₂'.reconciled.others _ _ hnamed₁ hother)).1
    have hnamed₂ := hdb₂.named_of_get? ((h.liveRows id row hlive).mpr hkept)
    exact h₂.reconciled.tombstone hnamed₂ hproject (hoff _) hlive

theorem oneProject_of_nothingToShow (hdb : db.Constrained)
    (hfetch : fetchProject lower server a = .page page)
    (hfetch' : fetchProject lower server b = .page page) (hnames : a ≠ "" ∧ b ≠ "")
    (h : NothingToShow a b page db) :
    OneProject settings settings' lower server a b page db n := by
  obtain ⟨hoff, hwheels, htombstones⟩ := h
  have h₁ := pageSynced_syncNamed settings n hfetch hdb
  have hdb₁ := h₁.reconciled.constrained
  have h₂ := pageSynced_syncNamed settings' (syncNamed settings lower server a db n).counter
    hfetch' hdb₁
  have h₂' := pageSynced_syncNamed settings' (syncNamed settings lower server a db n).counter
    hfetch hdb₁
  have hdb₂ : (syncedBoth settings settings' lower server a b db n).Constrained :=
    h₂.reconciled.constrained
  have hdb₂' : (syncedBoth settings settings' lower server a a db n).Constrained :=
    h₂'.reconciled.constrained
  have howned : ∀ name db, Unowned name page db := fun name db f file id row hfile => by
    rw [hoff] at hfile
    cases hfile
  -- the first sync leaves tombstones under both names, so the second changes no row
  have htombstones₁ : ∀ f id row, (syncNamed settings lower server a db n).db.named f =
      some (id, row) → row.project = a ∨ row.project = b → row.deletedAt ≠ none := by
    intro f id row hnamed hproject
    by_cases ha : row.project = a
    · exact h₁.reconciled.tombstone hnamed ha (hoff f)
    · have hbefore := (h₁.reconciled.named_iff (r := (id, row)) ha).mp hnamed
      exact htombstones id row (Db.get?_of_named hbefore).1 (hproject.resolve_left ha)
  have hsame : ∀ f, (syncedBoth settings settings' lower server a b db n).named f =
      (syncNamed settings lower server a db n).db.named f :=
    h₂.reconciled.named_of_tombstones hoff fun f id row hnamed hb =>
      htombstones₁ f id row hnamed (Or.inr hb)
  have hsame' : ∀ f, (syncedBoth settings settings' lower server a a db n).named f =
      (syncNamed settings lower server a db n).db.named f :=
    h₂'.reconciled.named_of_tombstones hoff fun f id row hnamed ha =>
      htombstones₁ f id row hnamed (Or.inl ha)
  have hwheels₂ : ∀ f id row, (syncedBoth settings settings' lower server a b db n).named f =
      some (id, row) → row.project = a ∨ row.project = b → isWheel f = false := by
    intro f id row hnamed hproject
    rw [hsame] at hnamed
    cases hbefore : db.named f with
    | none =>
        rw [h₁.reconciled.absent f hbefore (hoff f)] at hnamed
        cases hnamed
    | some r =>
        obtain ⟨row', hrow', hproject'⟩ := h₁.named_kept hoff hbefore
        rw [hrow'] at hnamed
        rw [← (Prod.mk.inj (Option.some.inj hnamed)).2, hproject'] at hproject
        obtain ⟨hget, hname⟩ := Db.get?_of_named hbefore
        rw [← hname]
        exact hwheels r.1 r.2 hget hproject
  refine ⟨fun id row _ => ?_, (noDuplicates_iff h₁ h₂).mpr ⟨howned _ _, howned _ _⟩, ?_, ?_⟩
  · rw [hdb₂.get?_iff_named, hdb₂'.get?_iff_named, hsame, hsame']
  · intro name hspelling
    obtain ⟨row, hrow, hserial⟩ := serial_syncedBoth h₁ h₂ hspelling
    rw [← hserial]
    refine (not_mem_staleProjects_iff hrow).mpr ?_
    rcases hspelling with rfl | rfl
    · exact hnames.1
    · exact hnames.2
  · intro name hspelling later server' settings'' m hlater hheld
    have h₃ := pageSynced_syncNamed settings'' m hlater hdb₂
    have hunowned : Unowned name later (syncedBoth settings settings' lower server a b db n) := by
      intro f file id row hfile hnamed
      have hwheel := hwheels₂ f id row hnamed (hheld f file id row hfile hnamed)
      rw [isWheel_of_remoteFiles hfile] at hwheel
      cases hwheel
    constructor
    · intro f file hfile
      obtain ⟨id, row, hnamed, hproject, hrest⟩ := h₃.reconciled.published hfile
        fun r hr => hunowned f file r.1 r.2 hfile hr
      exact ⟨id, row, hnamed, by rwa [hproject], hrest⟩
    · intro f id row hnamed hproject hlisted
      by_cases hname : row.project = name
      · exact h₃.reconciled.tombstone hnamed hname hlisted
      · have hbefore := (h₃.reconciled.named_iff (r := (id, row)) hname).mp hnamed
        exact htombstones₁ f id row ((hsame f).symm.trans hbefore) hproject

variable (settings settings' n) in
/-- Two spellings of a name are one project exactly when they are the same (and no wheel
of the page is held under another name), or when there is nothing to show. -/
theorem oneProject_iff (hdb : db.Constrained)
    (hsame : normalizeProjectName lower a = normalizeProjectName lower b)
    (hfetch : fetchProject lower server a = .page page) :
    OneProject settings settings' lower server a b page db n ↔
      (a ≠ "" ∧ b ≠ "") ∧ ((a = b ∧ Unowned a page db) ∨ (a ≠ b ∧ NothingToShow a b page db)) := by
  have hfetch' : fetchProject lower server b = .page page := by
    rw [← hfetch, fetchProject, fetchProject, hsame]
  by_cases hne : a = b
  · subst hne
    rw [oneProject_self_iff hfetch hdb]
    simp
  · constructor
    · intro h
      have h₁ := pageSynced_syncNamed settings n hfetch hdb
      have h₂ := pageSynced_syncNamed settings' (syncNamed settings lower server a db n).counter
        hfetch' h₁.reconciled.constrained
      have hnonempty : ∀ name, name = a ∨ name = b → name ≠ "" := by
        intro name hspelling
        obtain ⟨row, hrow, hserial⟩ := serial_syncedBoth h₁ h₂ hspelling
        have hstale := h.notStale name hspelling
        rw [← hserial] at hstale
        exact (not_mem_staleProjects_iff hrow).mp hstale
      exact ⟨⟨hnonempty a (Or.inl rfl), hnonempty b (Or.inr rfl)⟩,
        Or.inr ⟨hne, nothingToShow_of_oneProject hdb hne hfetch hfetch' h⟩⟩
    · rintro ⟨hnames, ⟨hab, -⟩ | ⟨-, hnothing⟩⟩
      · exact absurd hab hne
      · exact oneProject_of_nothingToShow hdb hfetch hfetch' hnames hnothing

/-- `str.lower` on ASCII names. -/
def lowerAscii (name : String) : String := String.ofList (name.toList.map Char.toLower)

/-- A page of one wheel. -/
def wheelPage : ProjectPage :=
  ⟨5, [{ filename := "my_pkg-1.0-py3-none-any.whl", url := "https://files/my_pkg" }]⟩

theorem fetchProject_wheelPage (name : String) :
    fetchProject lowerAscii (fun _ => .page wheelPage) name = .page wheelPage := rfl

theorem oneProject_same_spelling : OneProject ⟨"t1", "v", id⟩ ⟨"t2", "v", id⟩ lowerAscii
    (fun _ => .page wheelPage) "my-pkg" "my-pkg" wheelPage Db.empty 0 :=
  (oneProject_iff ⟨"t1", "v", id⟩ 0 ⟨"t2", "v", id⟩ Db.constrained_empty rfl
    (fetchProject_wheelPage "my-pkg")).mpr
      ⟨by decide, Or.inl ⟨rfl, fun _ _ _ _ _ hnamed => by cases hnamed⟩⟩

theorem normalize_spellings : normalizeProjectName lowerAscii "My.Pkg" =
    normalizeProjectName lowerAscii "my__pkg" := by
  decide

/-- The second spelling's sync records the wheels of the first as duplicates. -/
theorem spellings_not_oneProject :
    normalizeProjectName lowerAscii "My.Pkg" = normalizeProjectName lowerAscii "my__pkg" ∧
      ¬OneProject ⟨"t1", "v", id⟩ ⟨"t2", "v", id⟩ lowerAscii (fun _ => .page wheelPage)
        "My.Pkg" "my__pkg" wheelPage Db.empty 0 := by
  refine ⟨normalize_spellings, fun h => ?_⟩
  have hnothing := nothingToShow_of_oneProject Db.constrained_empty (by decide)
    (fetchProject_wheelPage "My.Pkg") (fetchProject_wheelPage "my__pkg") h
  have hfile : ((remoteFiles wheelPage).get? "my_pkg-1.0-py3-none-any.whl").isSome = true := by
    decide
  rw [hnothing.1] at hfile
  cases hfile

end Spellings

end RerollSync.Ingest
