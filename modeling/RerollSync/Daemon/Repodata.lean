import RerollSync.Daemon.Quarantine
import RerollSync.Fsck

/-!
# Repodata and conda names follow READY

A conversion writes `wheel_repodata`, `conda_name` and the state together.  What
takes a wheel out of `READY` afterwards clears a part of them only, and a wheel
can get its repodata back by a detour through `DELETED`.
-/

namespace RerollSync.Daemon

open RerollSync.Support RerollSync.Store RerollSync.Dispatcher RerollSync.Ingest
open RerollSync.Pipeline RerollSync.Fsck

/-! ## The invariant of a wheel -/

/-- A published wheel has repodata; repodata belong to a published wheel or to a
tombstone, and a conda name to a published wheel. -/
structure FollowsReady (w : Wheel) : Prop where
  ready : w.row.state = .ready → w.repodata ≠ none
  repodata : w.repodata ≠ none → w.row.state = .ready ∨ w.row.state = .deleted
  condaName : w.row.condaName ≠ none → w.row.state = .ready

/-- The wheel has neither repodata nor a conda name. -/
def Unpublished (w : Wheel) : Prop := w.repodata = none ∧ w.row.condaName = none

/-- What takes a wheel out of `READY` finds it unpublished, or clears what it has
published; a change that leaves it in `READY` leaves its repodata. -/
def RepodataSafe (move : Move) (w : Wheel) : Prop :=
  match move with
  | .archived _ _ | .skipped _ _ | .quarantined _ _ _ => Unpublished w
  | .changed _ change =>
      if change.changes.state = none then w.row.state = .ready → change.deleteRepodata = false
      else (change.deleteRepodata = true ∨ w.repodata = none) ∧
        (change.changes.clearCondaName = true ∨ w.row.condaName = none)
  | .tombstoned _ | .reprocessed _ _ => w.row.condaName = none
  | _ => True

instance (w : Wheel) : Decidable (Unpublished w) := by
  unfold Unpublished
  infer_instance

instance (move : Move) (w : Wheel) : Decidable (RepodataSafe move w) :=
  match move with
  | .archived _ _ | .skipped _ _ | .quarantined _ _ _ => inferInstanceAs (Decidable (Unpublished w))
  | .changed _ change => inferInstanceAs (Decidable
      (if change.changes.state = none then w.row.state = .ready → change.deleteRepodata = false
      else (change.deleteRepodata = true ∨ w.repodata = none) ∧
        (change.changes.clearCondaName = true ∨ w.row.condaName = none)))
  | .tombstoned _ | .reprocessed _ _ => inferInstanceAs (Decidable (w.row.condaName = none))
  | .converted _ _ _ | .deferred _ _ _ | .unquarantined _ | .recovered => isTrue trivial

/-- In the other states a wheel is unpublished. -/
theorem followsReady_iff_unpublished {w : Wheel} (state : WheelState)
    (hstate : w.row.state = state) (hne : state ≠ .ready ∧ state ≠ .deleted) :
    FollowsReady w ↔ Unpublished w := by
  subst hstate
  obtain ⟨hready, hdeleted⟩ := hne
  constructor
  · intro h
    refine ⟨?_, ?_⟩
    · by_contra hrepodata
      exact (h.repodata hrepodata).elim hready hdeleted
    · by_contra hconda
      exact hready (h.condaName hconda)
  · rintro ⟨hrepodata, hconda⟩
    exact ⟨fun h => (hready h).elim, fun h => (h hrepodata).elim, fun h => (h hconda).elim⟩

theorem unpublished_changed (settings : Ingest.Settings) (change : ChangedWheel) (m : ℕ)
    (w : Wheel) : Unpublished (Move.apply m w (.changed settings change)) ↔
      (change.deleteRepodata = true ∨ w.repodata = none) ∧
        (change.changes.clearCondaName = true ∨ w.row.condaName = none) := by
  refine and_congr ?_ ?_
  · cases hdelete : change.deleteRepodata <;> simp [Move.apply, hdelete]
  · cases hclear : change.changes.clearCondaName <;>
      simp [Move.apply, changedRow, Changes.apply, hclear]

/-- A change that assigns no state. -/
theorem followsReady_changed_of_stays {settings : Ingest.Settings} {change : ChangedWheel} {m : ℕ}
    {w : Wheel} (hw : FollowsReady w)
    (hsame : (Move.apply m w (.changed settings change)).row.state = w.row.state) :
    FollowsReady (Move.apply m w (.changed settings change)) ↔
      (w.row.state = .ready → change.deleteRepodata = false) := by
  have hrepodata : (Move.apply m w (.changed settings change)).repodata ≠ none ↔
      change.deleteRepodata = false ∧ w.repodata ≠ none := by
    cases hdelete : change.deleteRepodata <;> simp [Move.apply, hdelete]
  have hconda : (Move.apply m w (.changed settings change)).row.condaName ≠ none →
      w.row.condaName ≠ none := by
    cases hclear : change.changes.clearCondaName <;>
      simp [Move.apply, changedRow, Changes.apply, hclear]
  constructor
  · intro h hready
    exact (hrepodata.mp (h.ready (hsame.trans hready))).1
  · intro h
    refine ⟨fun hready => ?_, fun hsome => ?_, fun hsome => ?_⟩
    · rw [hsame] at hready
      exact hrepodata.mpr ⟨h hready, hw.ready hready⟩
    · rw [hsame]
      exact hw.repodata (hrepodata.mp hsome).2
    · rw [hsame]
      exact hw.condaName (hconda hsome)

theorem keeping_followsReady : Keeping FollowsReady RepodataSafe where
  born row hrow := by
    obtain ⟨plan, settings, m, file, unlinked, rfl⟩ := hrow
    refine ⟨fun hready => ?_, fun h => (h rfl).elim, fun h => (h rfl).elim⟩
    cases unlinked <;> by_cases hmetadata : file.hasMetadata <;>
      simp [newWheelRow, planNewWheel, initialState, hmetadata] at hready
  iff_safe move m w hreal hw := by
    cases move with
    | archived clock sha256 => exact followsReady_iff_unpublished .needConvert rfl (by decide)
    | converted clock repodata condaName =>
        refine iff_of_true ⟨fun _ => ?_, fun _ => Or.inl rfl, fun _ => rfl⟩ trivial
        exact Option.some_ne_none repodata
    | skipped clock outcome => exact followsReady_iff_unpublished .skipped rfl (by decide)
    | quarantined clock stage outcome =>
        exact followsReady_iff_unpublished .quarantined rfl (by decide)
    | deferred clock stage outcome =>
        exact iff_of_true ⟨hw.ready, hw.repodata, hw.condaName⟩ trivial
    | changed settings change =>
        obtain ⟨row, file, hdiff⟩ := hreal
        rcases changed_cases hdiff settings m w with
          ⟨hstate, hkept⟩ | ⟨state, hwhich, hstate, henters⟩
        · rw [RepodataSafe, if_pos hstate]
          exact followsReady_changed_of_stays hw hkept
        · rw [RepodataSafe, if_neg (by simp [hstate]), ← unpublished_changed settings change m w]
          refine followsReady_iff_unpublished state henters ?_
          rcases hwhich with rfl | rfl <;> decide
    | tombstoned nowIso =>
        constructor
        · intro h
          by_contra hconda
          cases h.condaName hconda
        · intro hconda
          exact ⟨fun h => (by cases h), fun _ => Or.inr rfl, fun h => (h hconda).elim⟩
    | reprocessed selector nowIso =>
        refine (followsReady_iff_unpublished .needConvert rfl (by decide)).trans ?_
        exact and_iff_right rfl
    | unquarantined nowIso =>
        refine iff_of_true ?_ trivial
        by_cases hstate : w.row.state = .quarantined
        · have hrow : (Move.apply m w (.unquarantined nowIso)).row =
              enterState .needMetadata m nowIso w.row := if_pos hstate
          have hnone : Unpublished w :=
            (followsReady_iff_unpublished .quarantined hstate (by decide)).mp hw
          refine (followsReady_iff_unpublished .needMetadata (congrArg WheelRow.state hrow)
            (by decide)).mpr ⟨hnone.1, (congrArg WheelRow.condaName hrow).trans hnone.2⟩
        · have hsame : (Move.apply m w (.unquarantined nowIso)).row = w.row := if_neg hstate
          exact ⟨fun h => hw.ready (hsame ▸ h), fun h => hsame ▸ hw.repodata h,
            fun h => hsame ▸ hw.condaName (hsame ▸ h)⟩
    | recovered =>
        exact iff_of_true
          ((followsReady_iff_unpublished .needMetadata rfl (by decide)).mpr ⟨rfl, rfl⟩) trivial

/-! ## What fsck reports -/

/-- Repodata and conda names follow `READY`, and fsck says so. -/
structure RepodataFollowsReady (db : Db) : Prop where
  ready : ∀ id row, db.wheels.get? id = some row → row.state = .ready →
    db.wheelRepodata.get? id ≠ none
  repodata : ∀ id row, db.wheels.get? id = some row → db.wheelRepodata.get? id ≠ none →
    row.state = .ready ∨ row.state = .deleted
  condaName : ∀ id row, db.wheels.get? id = some row → row.condaName ≠ none → row.state = .ready
  fsck1a : readyWithoutRepodataQuery db = []
  fsck1b : ∀ id ∈ repodataWithoutReadyQuery db, id ∈ tombstonedWithRepodataQuery db
  fsck19 : condaNameOutsideReadyQuery db = []

theorem repodataFollowsReady_iff {db : Db} :
    RepodataFollowsReady db ↔ AllWheels FollowsReady db := by
  constructor
  · intro h id w hw
    obtain ⟨hrow, hat⟩ := Db.wheel?_eq_some_iff.mp hw
    have hrepodata : w.repodata = db.wheelRepodata.get? id := congrArg Wheel.repodata hat
    exact ⟨fun hready => hrepodata ▸ h.ready id w.row hrow hready,
      fun hsome => h.repodata id w.row hrow (hrepodata ▸ hsome), h.condaName id w.row hrow⟩
  · intro h
    have hwheel : ∀ id row, db.wheels.get? id = some row → FollowsReady (db.wheelAt id row) :=
      fun id row hrow => h id _ (Db.wheel?_of_get? hrow)
    refine
      { ready := fun id row hrow => (hwheel id row hrow).ready
        repodata := fun id row hrow => (hwheel id row hrow).repodata
        condaName := fun id row hrow => (hwheel id row hrow).condaName
        fsck1a := wheelsWhere_eq_nil_iff.mpr fun id w hw => ?_
        fsck1b := fun id hid => ?_
        fsck19 := wheelsWhere_eq_nil_iff.mpr fun id w hw => ?_ }
    · simpa using (h id w hw).ready
    · simp only [repodataWithoutReadyQuery, Table.keys, Table.filter, List.mem_map, List.mem_filter,
        Option.any_eq_true, decide_eq_true_eq] at hid
      obtain ⟨⟨id, repodata⟩, ⟨hrepodata, row, hrow, hready⟩, rfl⟩ := hid
      have hsome : db.wheelRepodata.get? id = some repodata := Table.get?_eq_some_iff.mpr hrepodata
      have hstate : row.state = .deleted :=
        ((hwheel id row hrow).repodata (by simp [Db.wheelAt, hsome])).resolve_left hready
      simp only [tombstonedWithRepodataQuery, wheelsWhere, Table.keys, Table.filter, List.mem_map,
        List.mem_filter]
      exact ⟨(id, row), ⟨Table.get?_eq_some_iff.mp hrow, by simp [Db.wheelAt, hsome, hstate]⟩, rfl⟩
    · have hconda := (h id w hw).condaName
      by_cases hnone : w.row.condaName = none <;> simp_all

variable {M : Type} {env : Env M}

/-- Repodata and conda names follow `READY` throughout a run exactly when whatever
takes a wheel out of `READY` leaves nothing published behind. -/
theorem repodataFollowsReady_throughout_iff {t : State} {l : List Event}
    (hrun : (machine env).run start l = some t) :
    (machine env).Always (RepodataFollowsReady ·.db) start l ↔
      (machine env).Along (Guarded env RepodataSafe) start l := by
  rw [← always_iff_guarded keeping_followsReady hrun]
  simp only [Machine.Always, repodataFollowsReady_iff]

/-- What convert makes of the example's bytes. -/
def exampleOk (filename : String) : Ok :=
  ⟨.ready, .convertOk ⟨[⟨"p", [], filename⟩], [], "p", false⟩ "1.0"⟩

/-- A wheel is synced, fetched and archived. -/
def archivedRun : List Event :=
  syncEvents ["a.whl"] ++
  [.openSegment 0, .pipeline (.claim .fetch 2 "t1"), .pipeline (.loadSidecar 0),
    .archive 0 [65] exampleLocation exampleClock]

/-- The archived wheel is converted. -/
def publishedRun : List Event :=
  archivedRun ++ [.pipeline (.apply 0 (.ok (exampleOk "a.whl")) exampleClock)]

theorem repodataFollowsReady_published :
    (machine exampleEnv).Always (RepodataFollowsReady ·.db) start
      (publishedRun ++ [.restart, .recover 0 1000]) := by
  obtain ⟨t, ht⟩ : ∃ t, (machine exampleEnv).run start
      (publishedRun ++ [.restart, .recover 0 1000]) = some t :=
    Option.isSome_iff_exists.mp (by decide)
  exact (repodataFollowsReady_throughout_iff ht).mpr (by decide)

/-- A published wheel leaves the index and comes back: it waits for its metadata
with the repodata and the conda name of its former life. -/
theorem restored_wheel_keeps_repodata :
    ∃ t, (machine exampleEnv).run start (publishedRun ++ syncEvents [] ++ syncEvents ["a.whl"]) =
      some t ∧ ¬RepodataFollowsReady t.db := by
  have hrun : ((machine exampleEnv).run start
      (publishedRun ++ syncEvents [] ++ syncEvents ["a.whl"])).map (fun t =>
        (t.db.wheels.get? 1).map fun row => (row.state, row.condaName)) =
      some (some (.needMetadata, some "p")) := by
    decide
  obtain ⟨t, ht, hsome⟩ := Option.map_eq_some_iff.mp hrun
  obtain ⟨row, hrow, hpair⟩ := Option.map_eq_some_iff.mp hsome
  obtain ⟨hstate, hconda⟩ := Prod.mk.inj hpair
  refine ⟨t, ht, fun hfollows => ?_⟩
  have hready := hfollows.condaName 1 row hrow (by simp [hconda])
  simp [hstate] at hready

end RerollSync.Daemon
