import RerollSync.Daemon.Work

/-!
# Wheels that wait for their metadata

A wheel in `NEED_METADATA` is not archived yet.  A quarantine keeps the blob of a
wheel that had one, and an operator sends every quarantined wheel back to fetch.
-/

namespace RerollSync.Daemon

open RerollSync.Support RerollSync.Store RerollSync.Dispatcher RerollSync.Ingest
open RerollSync.Pipeline RerollSync.Fsck

/-! ## The invariant of a wheel -/

/-- A wheel in `NEED_METADATA` has no blob. -/
def Unarchived (w : Wheel) : Prop := w.row.state = .needMetadata → w.row.blobSha256 = none

/-- What sends a wheel back to fetch clears its blob, or finds none. -/
def MetadataSafe (move : Move) (w : Wheel) : Prop :=
  match move with
  | .changed _ change => change.changes.state = some .needMetadata →
      change.changes.clearBlobSha256 = true ∨ w.row.blobSha256 = none
  | .unquarantined _ => w.row.state = .quarantined → w.row.blobSha256 = none
  | _ => True

instance (move : Move) (w : Wheel) : Decidable (MetadataSafe move w) :=
  match move with
  | .changed _ change => inferInstanceAs (Decidable (change.changes.state = some .needMetadata →
      change.changes.clearBlobSha256 = true ∨ w.row.blobSha256 = none))
  | .unquarantined _ =>
      inferInstanceAs (Decidable (w.row.state = .quarantined → w.row.blobSha256 = none))
  | .archived _ _ | .converted _ _ _ | .skipped _ _ | .quarantined _ _ _ | .deferred _ _ _
  | .tombstoned _ | .reprocessed _ _ | .recovered => isTrue trivial

theorem unarchived_of_ne {w : Wheel} (state : WheelState) (hstate : w.row.state = state)
    (hne : state ≠ .needMetadata) : Unarchived w := fun h => (hne (hstate ▸ h)).elim

theorem unarchived_iff {w : Wheel} (hstate : w.row.state = .needMetadata) :
    Unarchived w ↔ w.row.blobSha256 = none := imp_iff_right hstate

theorem blobSha256_changed (settings : Ingest.Settings) (change : ChangedWheel) (m : ℕ)
    (w : Wheel) : (Move.apply m w (.changed settings change)).row.blobSha256 =
      if change.changes.clearBlobSha256 then none else w.row.blobSha256 := rfl

theorem keeping_unarchived : Keeping Unarchived MetadataSafe where
  born row hrow := by
    obtain ⟨plan, settings, m, file, unlinked, rfl⟩ := hrow
    cases unlinked with
    | none => exact fun _ => rfl
    | some sha256 => exact unarchived_of_ne .needConvert rfl (by decide)
  iff_safe move m w hreal hw := by
    cases move with
    | archived clock sha256 =>
        exact iff_of_true (unarchived_of_ne .needConvert rfl (by decide)) trivial
    | converted clock repodata condaName =>
        exact iff_of_true (unarchived_of_ne .ready rfl (by decide)) trivial
    | skipped clock outcome =>
        exact iff_of_true (unarchived_of_ne .skipped rfl (by decide)) trivial
    | quarantined clock stage outcome =>
        exact iff_of_true (unarchived_of_ne .quarantined rfl (by decide)) trivial
    | deferred clock stage outcome => exact iff_of_true hw trivial
    | changed settings change =>
        obtain ⟨row, file, hdiff⟩ := hreal
        have hblob := blobSha256_changed settings change m w
        rcases changed_cases hdiff settings m w with
          ⟨hstate, hkept⟩ | ⟨_, rfl | rfl, hstate, henters⟩
        · refine iff_of_true (fun hneed => ?_) (by simp [MetadataSafe, hstate])
          rw [hblob, hw (hkept ▸ hneed), ite_self]
        · rw [unarchived_iff henters, hblob, MetadataSafe, imp_iff_right hstate]
          cases hclear : change.changes.clearBlobSha256 <;> simp
        · refine iff_of_true (unarchived_of_ne _ henters (by decide)) ?_
          simp [MetadataSafe, hstate]
    | tombstoned nowIso =>
        exact iff_of_true (unarchived_of_ne .deleted rfl (by decide)) trivial
    | reprocessed selector nowIso =>
        exact iff_of_true (unarchived_of_ne .needConvert rfl (by decide)) trivial
    | unquarantined nowIso =>
        rw [MetadataSafe]
        by_cases hstate : w.row.state = .quarantined
        · have hrow : (Move.apply m w (.unquarantined nowIso)).row =
              enterState .needMetadata m nowIso w.row := if_pos hstate
          rw [unarchived_iff (congrArg WheelRow.state hrow), imp_iff_right hstate, hrow]
          exact Iff.rfl
        · have hrow : (Move.apply m w (.unquarantined nowIso)).row = w.row := if_neg hstate
          refine iff_of_true ?_ fun h => (hstate h).elim
          rw [Unarchived, hrow]
          exact hw
    | recovered => exact iff_of_true (fun _ => rfl) trivial

/-! ## What fsck reports -/

/-- No wheel that waits for its metadata has a blob, and fsck reports none. -/
structure MetadataUnarchived (db : Db) : Prop where
  unarchived : ∀ id row, db.wheels.get? id = some row → row.state = .needMetadata →
    row.blobSha256 = none
  fsck3 : needMetadataWithBlobQuery db = []

theorem metadataUnarchived_iff {db : Db} : MetadataUnarchived db ↔ AllWheels Unarchived db := by
  constructor
  · intro h id w hw
    exact h.unarchived id w.row (Db.wheel?_eq_some_iff.mp hw).1
  · intro h
    refine ⟨fun id row hrow => h id _ (Db.wheel?_of_get? hrow),
      wheelsWhere_eq_nil_iff.mpr fun id w hw => ?_⟩
    rw [decide_eq_false_iff_not]
    exact fun hboth => hboth.2 (h id w hw hboth.1)

variable {M : Type} {env : Env M}

/-- No wheel that waits for its metadata has a blob throughout a run exactly when no
archived wheel is sent back to fetch by an operator, or by a sync that keeps its
blob. -/
theorem metadataUnarchived_throughout_iff {t : State} {l : List Event}
    (hrun : (machine env).run start l = some t) :
    (machine env).Always (MetadataUnarchived ·.db) start l ↔
      (machine env).Along (Guarded env MetadataSafe) start l := by
  rw [← always_iff_guarded keeping_unarchived hrun]
  simp only [Machine.Always, metadataUnarchived_iff]

theorem metadataUnarchived_released :
    (machine exampleEnv).Always (MetadataUnarchived ·.db) start releasedRun := by
  obtain ⟨t, ht⟩ : ∃ t, (machine exampleEnv).run start releasedRun = some t :=
    Option.isSome_iff_exists.mp (by decide)
  exact (metadataUnarchived_throughout_iff ht).mpr (by decide)

/-- An archived wheel fails to convert until it is quarantined, and an operator
releases it. -/
def refetchedRun : List Event :=
  archivedRun ++ [.restart] ++ quarantineEvents .convert ++
    [.pipeline (.selectQuarantined none 500), .pipeline (.applyUnquarantine 0 "t4")]

/-- The released wheel waits for its metadata with the blob it had. -/
theorem released_wheel_keeps_blob :
    ∃ t, (machine exampleEnv).run start refetchedRun = some t ∧ ¬MetadataUnarchived t.db := by
  have hrun : ((machine exampleEnv).run start refetchedRun).map (fun t =>
      (t.db.wheels.get? 1).map fun row => (row.state, row.blobSha256)) =
      some (some (.needMetadata, some "65")) := by
    decide
  obtain ⟨t, ht, hsome⟩ := Option.map_eq_some_iff.mp hrun
  obtain ⟨row, hrow, hpair⟩ := Option.map_eq_some_iff.mp hsome
  obtain ⟨hstate, hblob⟩ := Prod.mk.inj hpair
  refine ⟨t, ht, fun hunarchived => ?_⟩
  have hnone := hunarchived.unarchived 1 row hrow hstate
  simp [hblob] at hnone

end RerollSync.Daemon
