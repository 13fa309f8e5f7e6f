import RerollSync.Ingest.Outcomes
import RerollSync.Support.Machine

/-!
# Older pages

Syncs of any projects follow one another, with whatever serials their pages carry.
A sync stores the serial and the rows of the page it fetched, so that a project keeps
the newest page it was synced with as long as no sync fetches an older one.
-/

namespace RerollSync.Ingest

open RerollSync.Store RerollSync.Support

/-- The database, and the page with the greatest serial that one of its projects was
synced with since it was last gone. -/
structure History where
  db : Db
  changeSeq : ℕ
  newest : Option ProjectPage

/-- A sync of a project: what `fetch_project` answers. -/
structure Sync where
  settings : Settings
  project : String
  fetched : FetchedProject

namespace History

/-- The newest page after another fetch; of two with one serial it is the later one. -/
def newer (newest : Option ProjectPage) : FetchedProject → Option ProjectPage
  | .page page =>
      match newest with
      | none => some page
      | some best => if best.lastSerial ≤ page.lastSerial then some page else some best
  | .notFound => none
  | .rateLimited _ _ => newest
  | .transient _ => newest
  | .protocolError _ => newest

/-- The database after a sync. -/
def synced (s : History) (e : Sync) : Program.Result Db OpError (Option ApplyResult) :=
  applyProjectOutcome e.settings e.project (syncProject e.project e.fetched s.db) s.db s.changeSeq

/-- The history of `name` after a sync of some project. -/
def after (name : String) (s : History) (e : Sync) : History where
  db := (s.synced e).db
  changeSeq := (s.synced e).counter
  newest := if e.project = name then newer s.newest e.fetched else s.newest

def machine (name : String) : Machine History Sync := ⟨fun s e => some (s.after name e)⟩

/-! ## The rows of a page -/

/-- The rows of a project are those of a page: every wheel of the page has a row, which
is live and has the page's columns unless another project holds it, and every other row
of the project is a tombstone. -/
structure ShowsPage (name : String) (page : ProjectPage) (db : Db) : Prop where
  published : ∀ f file, (remoteFiles page).get? f = some file → ∃ id row,
    db.named f = some (id, row) ∧
      (row.project = name → row.deletedAt = none ∧ Published row file)
  tombstoned : ∀ f id row, db.named f = some (id, row) → row.project = name →
    (remoteFiles page).get? f = none → row.deletedAt ≠ none

variable {settings : Settings} {name project : String} {page : ProjectPage} {db db' : Db}

theorem ShowsPage.of_pageSynced (h : PageSynced settings name page db db') :
    ShowsPage name page db' where
  published f file hfile := by
    by_cases howned : ∀ r, db.named f = some r → r.2.project = name
    · obtain ⟨id, row, hnamed, -, hrest⟩ := h.reconciled.published hfile howned
      exact ⟨id, row, hnamed, fun _ => hrest⟩
    · push Not at howned
      obtain ⟨r, hr, hother⟩ := howned
      exact ⟨r.1, r.2, h.reconciled.others f r hr hother, fun hproject => absurd hproject hother⟩
  tombstoned _ _ _ hnamed hproject hoff := h.reconciled.tombstone hnamed hproject hoff

/-- The rows of a page stay when those of the project do and no name is given up. -/
theorem ShowsPage.congr (h : ShowsPage name page db)
    (hrows : ∀ f r, r.2.project = name → (db'.named f = some r ↔ db.named f = some r))
    (hkept : ∀ f r, db.named f = some r → (db'.named f).isSome = true) :
    ShowsPage name page db' where
  published f file hfile := by
    obtain ⟨id, row, hnamed, hshown⟩ := h.published f file hfile
    obtain ⟨r, hr⟩ := Option.isSome_iff_exists.mp (hkept f _ hnamed)
    refine ⟨r.1, r.2, hr, fun hproject => ?_⟩
    rw [(hrows f r hproject).mp hr] at hnamed
    obtain rfl := Option.some.inj hnamed
    exact hshown hproject
  tombstoned f id row hnamed hproject hoff :=
    h.tombstoned f id row ((hrows f (id, row) hproject).mp hnamed) hproject hoff

theorem ShowsPage.of_other (h : ShowsPage name page db) {other : ProjectPage}
    (hsynced : PageSynced settings project other db db') (hne : project ≠ name) :
    ShowsPage name page db' := by
  refine h.congr (fun f r hproject => ?_) fun f r hr => ?_
  · exact hsynced.reconciled.named_iff fun heq => hne (heq.symm.trans hproject)
  · by_cases hproject : r.2.project = project
    · cases hfile : (remoteFiles other).get? f with
      | none =>
          obtain ⟨m, hrow⟩ := hsynced.reconciled.offPage f r.1 r.2 hr hproject hfile
          simp [hrow]
      | some file =>
          obtain ⟨m, hrow⟩ := hsynced.reconciled.onPage f r.1 r.2 file hr hproject hfile
          simp [hrow]
    · simp [hsynced.reconciled.others f r hr hproject]

theorem ShowsPage.of_otherGone (h : ShowsPage name page db)
    (hgone : GoneSynced settings project db db') (hne : project ≠ name) :
    ShowsPage name page db' := by
  refine h.congr (fun f r hproject => ?_) fun f r hr => ?_
  · obtain ⟨m, hrow⟩ := hgone.named f
    rw [hrow]
    cases hnamed : db.named f with
    | none => simp
    | some r' =>
        rw [Option.map_some, Option.some.injEq, Option.some.injEq]
        by_cases hother : r'.2.project = project ∧ r'.2.deletedAt = none
        · refine iff_of_false (fun heq => ?_) fun heq => ?_
          · rw [← heq, goneRow, if_pos hother] at hproject
            exact hne (hother.1.symm.trans hproject)
          · rw [heq] at hother
            exact hne (hother.1.symm.trans hproject)
        · rw [goneRow, if_neg hother]
  · obtain ⟨m, hrow⟩ := hgone.named f
    simp [hrow, hr]

/-! ## Never rolled back -/

/-- The sync does not lower the stored serial, and after it the rows are those of the
newest page. -/
def NeverRolledBack (name : String) (s : History) (e : Sync) : Prop :=
  (∀ row row', s.db.pypiIndex.get? name = some row →
    (s.after name e).db.pypiIndex.get? name = some row' → row.serial ≤ row'.serial) ∧
  ∀ page, (s.after name e).newest = some page → ShowsPage name page (s.after name e).db

/-- A page of the project is not older than the stored serial. -/
def NotOlder (name : String) (s : History) (e : Sync) : Prop :=
  ∀ page row, e.project = name → e.fetched = .page page →
    s.db.pypiIndex.get? name = some row → row.serial ≤ page.lastSerial

/-- The stored serial and the rows are those of the newest page. -/
structure Tracks (name : String) (s : History) : Prop where
  constrained : s.db.Constrained
  unknown : s.newest = none → s.db.pypiIndex.get? name = none
  known : ∀ page, s.newest = some page →
    ShowsPage name page s.db ∧
      ∃ row, s.db.pypiIndex.get? name = some row ∧ row.serial = page.lastSerial

variable {s s' : History} {e : Sync}

theorem Tracks.congr (h : s.Tracks name) (hconstrained : s'.db.Constrained)
    (hnewest : s'.newest = s.newest)
    (hindex : s'.db.pypiIndex.get? name = s.db.pypiIndex.get? name)
    (hshows : ∀ page, ShowsPage name page s.db → ShowsPage name page s'.db) : s'.Tracks name where
  constrained := hconstrained
  unknown hnone := by
    rw [hindex]
    exact h.unknown (hnewest ▸ hnone)
  known page hpage := by
    obtain ⟨hpage, hserial⟩ := h.known page (hnewest ▸ hpage)
    rw [hindex]
    exact ⟨hshows page hpage, hserial⟩

/-- A fetch that finds no page and does not find the project gone writes nothing. -/
def Silent : FetchedProject → Prop
  | .page _ => False
  | .notFound => False
  | .rateLimited _ _ => True
  | .transient _ => True
  | .protocolError _ => True

theorem fetched_cases (fetched : FetchedProject) :
    (∃ page, fetched = .page page) ∨ fetched = .notFound ∨ Silent fetched := by
  cases fetched with
  | page page => exact Or.inl ⟨page, rfl⟩
  | notFound => exact Or.inr (Or.inl rfl)
  | rateLimited child retryAfter => exact Or.inr (Or.inr trivial)
  | transient message => exact Or.inr (Or.inr trivial)
  | protocolError message => exact Or.inr (Or.inr trivial)

variable (name s) in
theorem after_of_silent (h : Silent e.fetched) :
    (s.after name e).db = s.db ∧ (s.after name e).newest = s.newest := by
  obtain ⟨settings, project, fetched⟩ := e
  cases fetched with
  | page page => exact h.elim
  | notFound => exact h.elim
  | rateLimited child retryAfter => exact ⟨rfl, ite_self _⟩
  | transient message => exact ⟨rfl, ite_self _⟩
  | protocolError message => exact ⟨rfl, ite_self _⟩

theorem pageSynced_after (h : s.Tracks name) (hfetched : e.fetched = .page page) :
    PageSynced e.settings e.project page s.db (s.after name e).db := by
  have hsynced : PageSynced e.settings e.project page s.db
      (applyProjectOutcome e.settings e.project (syncProject e.project (.page page) s.db) s.db
        s.changeSeq).db :=
    pageSynced_applyProjectOutcome e.settings page s.changeSeq h.constrained
  rw [← hfetched] at hsynced
  exact hsynced

theorem goneSynced_after (h : s.Tracks name) (hfetched : e.fetched = .notFound) :
    GoneSynced e.settings e.project s.db (s.after name e).db := by
  have hgone : GoneSynced e.settings e.project s.db
      (applyProjectOutcome e.settings e.project (syncProject e.project .notFound s.db) s.db
        s.changeSeq).db :=
    goneSynced_applyProjectOutcome e.settings s.changeSeq h.constrained
  rw [← hfetched] at hgone
  exact hgone

/-- A sync of another project leaves the serial. -/
theorem index_of_other (h : s.Tracks name) (hne : e.project ≠ name) :
    (s.after name e).db.pypiIndex.get? name = s.db.pypiIndex.get? name := by
  rcases fetched_cases e.fetched with ⟨other, hfetched⟩ | hfetched | hsilent
  · rw [(pageSynced_after h hfetched).reconciled.pypiIndex, Table.get?_set_of_ne _ _ hne.symm]
  · rw [(goneSynced_after h hfetched).pypiIndex, Table.get?_filter_key]
    simp [hne.symm]
  · rw [(after_of_silent name s hsilent).1]

theorem Tracks.after_of_other (h : s.Tracks name) (hne : e.project ≠ name) :
    (s.after name e).Tracks name := by
  have hnewest : (s.after name e).newest = s.newest := if_neg hne
  have hindex := index_of_other h hne
  rcases fetched_cases e.fetched with ⟨other, hfetched⟩ | hfetched | hsilent
  · have hsynced := pageSynced_after h hfetched
    exact h.congr hsynced.reconciled.constrained hnewest hindex
      fun page hshows => hshows.of_other hsynced hne
  · have hgone := goneSynced_after h hfetched
    exact h.congr hgone.constrained hnewest hindex
      fun page hshows => hshows.of_otherGone hgone hne
  · have hdb := (after_of_silent name s hsilent).1
    exact h.congr (hdb ▸ h.constrained) hnewest hindex fun page hshows => hdb ▸ hshows

/-- A page that is not older than the stored serial is the newest. -/
theorem newest_after (h : s.Tracks name) (hnot : s.NotOlder name e) (hname : e.project = name)
    (hfetched : e.fetched = .page page) : (s.after name e).newest = some page := by
  have hafter : (s.after name e).newest = newer s.newest (.page page) := by
    rw [← hfetched]
    exact if_pos hname
  rw [hafter]
  cases hnewest : s.newest with
  | none => rfl
  | some best =>
      obtain ⟨-, row, hrow, hserial⟩ := h.known best hnewest
      have hle := hnot page row hname hfetched hrow
      rw [hserial] at hle
      exact if_pos hle

theorem Tracks.step (h : s.Tracks name) (hnot : s.NotOlder name e) :
    (s.after name e).Tracks name := by
  by_cases hname : e.project = name
  · rcases fetched_cases e.fetched with ⟨page, hfetched⟩ | hfetched | hsilent
    · have hsynced := pageSynced_after h hfetched
      have hnewest := newest_after h hnot hname hfetched
      rw [hname] at hsynced
      refine ⟨hsynced.reconciled.constrained, fun hnone => ?_, fun page' hpage' => ?_⟩
      · rw [hnewest] at hnone
        cases hnone
      · rw [hnewest] at hpage'
        obtain rfl := Option.some.inj hpage'
        refine ⟨.of_pageSynced hsynced, ⟨page.lastSerial, e.settings.nowIso⟩, ?_, rfl⟩
        rw [hsynced.reconciled.pypiIndex, Table.get?_set_self]
    · have hgone := goneSynced_after h hfetched
      have hnewest : (s.after name e).newest = none := by
        rw [after, if_pos hname, hfetched]
        rfl
      refine ⟨hgone.constrained, fun _ => ?_, fun page hpage => ?_⟩
      · rw [hgone.pypiIndex, Table.get?_filter_key, hname]
        simp
      · rw [hnewest] at hpage
        cases hpage
    · obtain ⟨hdb, hnewest⟩ := after_of_silent name s hsilent
      exact h.congr (hdb ▸ h.constrained) hnewest (by rw [hdb]) fun page hshows => hdb ▸ hshows
  · exact h.after_of_other hname

/-- A sync does not roll the project back exactly when its page is not older. -/
theorem Tracks.neverRolledBack_iff (h : s.Tracks name) :
    s.NeverRolledBack name e ↔ s.NotOlder name e := by
  constructor
  · rintro ⟨hserial, -⟩ page row hname hfetched hrow
    have hsynced := pageSynced_after h hfetched
    refine hserial row ⟨page.lastSerial, e.settings.nowIso⟩ hrow ?_
    rw [hsynced.reconciled.pypiIndex, hname, Table.get?_set_self]
  · intro hnot
    have htracks := h.step hnot
    refine ⟨fun row row' hrow hrow' => ?_, fun page hpage => (htracks.known page hpage).1⟩
    by_cases hname : e.project = name
    · rcases fetched_cases e.fetched with ⟨page, hfetched⟩ | hfetched | hsilent
      · rw [(pageSynced_after h hfetched).reconciled.pypiIndex, hname, Table.get?_set_self] at hrow'
        rw [← Option.some.inj hrow']
        exact hnot page row hname hfetched hrow
      · rw [(goneSynced_after h hfetched).pypiIndex, Table.get?_filter_key, hname] at hrow'
        simp at hrow'
      · rw [(after_of_silent name s hsilent).1, hrow] at hrow'
        rw [Option.some.inj hrow']
    · rw [index_of_other h hname, hrow] at hrow'
      rw [Option.some.inj hrow']

/-- In every run of syncs from a database that does not know a project, the project is
never rolled back exactly when no page of it is older than the serial stored before. -/
theorem neverRolledBack_throughout_iff {db : Db} (hdb : db.Constrained)
    (hunknown : db.pypiIndex.get? name = none) (n : ℕ) (l : List Sync) :
    (machine name).Along (NeverRolledBack name) ⟨db, n, none⟩ l ↔
      (machine name).Along (NotOlder name) ⟨db, n, none⟩ l := by
  have hstart : Tracks name ⟨db, n, none⟩ :=
    ⟨hdb, fun _ => hunknown, fun page hpage => by cases hpage⟩
  obtain ⟨t, hrun⟩ : ∃ t, (machine name).run ⟨db, n, none⟩ l = some t := by
    generalize (⟨db, n, none⟩ : History) = s
    induction l generalizing s with
    | nil => exact ⟨s, rfl⟩
    | cons e l ih => exact ih (s.after name e)
  refine Machine.along_iff_of_invariant (P := Tracks name) ?_ (fun s e _ h _ =>
    h.neverRolledBack_iff) hstart hrun
  intro s e s' h hnever hstep
  obtain rfl := Option.some.inj hstep
  exact h.step (h.neverRolledBack_iff.mp hnever)

/-- A sync of project `p` that fetches a page of one wheel, with a serial. -/
def syncAt (serial : ℤ) : Sync where
  settings := ⟨"t1", "v", id⟩
  project := "p"
  fetched := .page ⟨serial, [{ filename := "p-1.0-py3-none-any.whl", url := "https://files/p" }]⟩

theorem neverRolledBack_growing :
    (machine "p").Along (NeverRolledBack "p") ⟨Db.empty, 0, none⟩ [syncAt 5, syncAt 10] := by
  refine (neverRolledBack_throughout_iff Db.constrained_empty rfl 0 _).mpr ⟨?_, ?_, trivial⟩
  · intro page row _ _ hrow
    cases hrow
  · intro page row _ hpage hrow
    have hserial : row.serial = 5 := by
      rw [← Option.some.inj hrow]
      rfl
    rw [hserial, ← FetchedProject.page.inj hpage]
    decide

/-- A stale copy of the page, served after a newer one, rolls the serial back. -/
theorem stale_copy_rolls_back :
    ¬(machine "p").Along (NeverRolledBack "p") ⟨Db.empty, 0, none⟩ [syncAt 10, syncAt 5] := by
  rintro ⟨-, ⟨hserial, -⟩, -⟩
  exact absurd (hserial ⟨10, "t1"⟩ ⟨5, "t1"⟩ rfl rfl) (by decide)

end History

end RerollSync.Ingest
