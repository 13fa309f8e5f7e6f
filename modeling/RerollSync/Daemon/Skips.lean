import RerollSync.Daemon.Repodata

/-!
# Skips rows and skipped wheels

A `Skip` outcome writes the `skips` row and the state together.  Later ops move the
state on; only a version campaign, and a sidecar that appears, delete `skips` rows.
-/

namespace RerollSync.Daemon

open RerollSync.Support RerollSync.Store RerollSync.Dispatcher RerollSync.Ingest
open RerollSync.Pipeline RerollSync.Fsck

/-! ## The invariant of a wheel -/

/-- The wheel has no `skips` row. -/
def Unskipped (w : Wheel) : Prop := ∀ stage, w.skips stage = none

/-- A wheel is `SKIPPED` exactly when it has a `skips` row. -/
def SkipsMatch (w : Wheel) : Prop := w.row.state = .skipped ↔ ¬Unskipped w

/-- What takes a wheel out of `SKIPPED` finds no `skips` row of it, or deletes them
all; a change that leaves it there leaves one. -/
def SkipsSafe (move : Move) (w : Wheel) : Prop :=
  match move with
  | .archived _ _ | .converted _ _ _ | .quarantined _ _ _ | .tombstoned _ | .recovered =>
      Unskipped w
  | .changed _ change =>
      if change.changes.state = none then
        w.row.state = .skipped → ∃ stage, (w.skips stage).any fun row => !clearsSkip change row
      else ∀ stage, (w.skips stage).all (clearsSkip change)
  | .reprocessed selector _ => ∀ stage, (w.skips stage).all (campaignClears selector)
  | _ => True

instance (w : Wheel) : Decidable (Unskipped w) := by
  unfold Unskipped
  infer_instance

instance (move : Move) (w : Wheel) : Decidable (SkipsSafe move w) :=
  match move with
  | .archived _ _ | .converted _ _ _ | .quarantined _ _ _ | .tombstoned _ | .recovered =>
      inferInstanceAs (Decidable (Unskipped w))
  | .changed _ change => inferInstanceAs (Decidable (if change.changes.state = none then
        w.row.state = .skipped → ∃ stage, (w.skips stage).any fun row => !clearsSkip change row
      else ∀ stage, (w.skips stage).all (clearsSkip change)))
  | .reprocessed selector _ =>
      inferInstanceAs (Decidable (∀ stage, (w.skips stage).all (campaignClears selector)))
  | .skipped _ _ | .deferred _ _ _ | .unquarantined _ => isTrue trivial

/-- In the other states a wheel has no `skips` row. -/
theorem skipsMatch_iff_unskipped {w : Wheel} (state : WheelState) (hstate : w.row.state = state)
    (hne : state ≠ .skipped) : SkipsMatch w ↔ Unskipped w := by
  rw [SkipsMatch, hstate, iff_false_left hne, not_not]

/-- The `skips` rows that remain when those that satisfy `p` are deleted. -/
theorem unskipped_filter_iff {row : WheelRow} {repodata : Option RepodataRow}
    {skips : Stage → Option SkipRow} {work : Stage → Option WorkRow} {p : SkipRow → Bool} :
    Unskipped ⟨row, repodata, fun stage => (skips stage).filter fun skip => !p skip, work⟩ ↔
      ∀ stage, (skips stage).all p = true := by
  refine forall_congr' fun stage => ?_
  cases hskip : skips stage <;> simp [Option.filter, hskip]

theorem keeping_skipsMatch : Keeping SkipsMatch SkipsSafe where
  born row hrow := by
    obtain ⟨plan, settings, m, file, unlinked, rfl⟩ := hrow
    refine (skipsMatch_iff_unskipped _ rfl ?_).mpr fun _ => rfl
    cases unlinked <;> by_cases hmetadata : file.hasMetadata <;>
      simp [newWheelRow, planNewWheel, initialState, hmetadata]
  iff_safe move m w hreal hw := by
    cases move with
    | archived clock sha256 => exact skipsMatch_iff_unskipped .needConvert rfl (by decide)
    | converted clock repodata condaName => exact skipsMatch_iff_unskipped .ready rfl (by decide)
    | skipped clock outcome =>
        refine iff_of_true (iff_of_true rfl fun hnone => ?_) trivial
        have hsome := hnone .convert
        simp [Move.apply] at hsome
    | quarantined clock stage outcome =>
        exact skipsMatch_iff_unskipped .quarantined rfl (by decide)
    | deferred clock stage outcome => exact iff_of_true hw trivial
    | changed settings change =>
        obtain ⟨row, file, hdiff⟩ := hreal
        rcases changed_cases hdiff settings m w with
          ⟨hstate, hsame⟩ | ⟨state, hwhich, hstate, henters⟩
        · have hremain : ¬Unskipped (Move.apply m w (.changed settings change)) ↔
              ∃ stage, (w.skips stage).any (fun row => !clearsSkip change row) = true := by
            rw [Move.apply, unskipped_filter_iff, not_forall]
            refine exists_congr fun stage => ?_
            cases hskip : w.skips stage <;> simp
          rw [SkipsSafe, if_pos hstate, SkipsMatch, hsame, hremain]
          refine ⟨fun h => h.mp, fun h => ⟨h, ?_⟩⟩
          rintro ⟨stage, hany⟩
          refine hw.mpr fun hnone => ?_
          rw [hnone stage] at hany
          exact Bool.false_ne_true hany
        · rw [SkipsSafe, if_neg (by simp [hstate]), ← unskipped_filter_iff (p := clearsSkip change)]
          refine skipsMatch_iff_unskipped state henters ?_
          rcases hwhich with rfl | rfl <;> decide
    | tombstoned nowIso => exact skipsMatch_iff_unskipped .deleted rfl (by decide)
    | reprocessed selector nowIso =>
        exact (skipsMatch_iff_unskipped .needConvert rfl (by decide)).trans unskipped_filter_iff
    | unquarantined nowIso =>
        refine iff_of_true ?_ trivial
        have hskips : Unskipped (Move.apply m w (.unquarantined nowIso)) ↔ Unskipped w := Iff.rfl
        by_cases hstate : w.row.state = .quarantined
        · refine (skipsMatch_iff_unskipped .needMetadata ?_ (by decide)).mpr ?_
          · rw [state_apply, Move.enters, if_pos hstate]
          · exact hskips.mpr ((skipsMatch_iff_unskipped .quarantined hstate (by decide)).mp hw)
        · rw [SkipsMatch, hskips, state_apply, Move.enters, if_neg hstate]
          exact hw
    | recovered => exact skipsMatch_iff_unskipped .needMetadata rfl (by decide)

/-! ## What fsck reports -/

/-- `skips` rows exist exactly for the skipped wheels, and fsck says so. -/
structure SkipsFollowState (db : Db) : Prop where
  skipped : ∀ id row, db.wheels.get? id = some row → row.state = .skipped →
    ∃ stage, db.skips.get? (id, stage) ≠ none
  skips : ∀ id stage, db.skips.get? (id, stage) ≠ none →
    ∃ row, db.wheels.get? id = some row ∧ row.state = .skipped
  fsck5 : skippedWithoutSkipsRowQuery db = []
  fsck10 : staleSkipQuery db = []

theorem skipsFollowState_iff {db : Db} (hattached : db.Attached) :
    SkipsFollowState db ↔ AllWheels SkipsMatch db := by
  constructor
  · intro h id w hw
    obtain ⟨hrow, hat⟩ := Db.wheel?_eq_some_iff.mp hw
    have hskips : w.skips = fun stage => db.skips.get? (id, stage) := congrArg Wheel.skips hat
    rw [SkipsMatch, Unskipped, hskips, not_forall]
    refine ⟨h.skipped id w.row hrow, fun ⟨stage, hsome⟩ => ?_⟩
    obtain ⟨row, hrow', hstate⟩ := h.skips id stage hsome
    obtain rfl : row = w.row := Option.some.inj (hrow'.symm.trans hrow)
    exact hstate
  · intro h
    have hwheel : ∀ id row, db.wheels.get? id = some row →
        (row.state = .skipped ↔ ∃ stage, db.skips.get? (id, stage) ≠ none) := by
      intro id row hrow
      have hmatch := h id _ (Db.wheel?_of_get? hrow)
      rwa [SkipsMatch, Unskipped, not_forall] at hmatch
    refine
      { skipped := fun id row hrow => (hwheel id row hrow).mp
        skips := fun id stage hsome => ?_
        fsck5 := wheelsWhere_eq_nil_iff.mpr fun id w hw => ?_
        fsck10 := rowsOfWheels_eq_nil_iff.mpr fun id row hrow hstate stage => ?_ }
    · cases hrow : db.wheels.get? id with
      | none => exact (hsome ((hattached id hrow).skips stage)).elim
      | some row => exact ⟨row, rfl, (hwheel id row hrow).mpr ⟨stage, hsome⟩⟩
    · rw [decide_eq_false_iff_not]
      rintro ⟨hstate, hnone⟩
      exact (h id w hw).mp hstate hnone
    · by_contra hsome
      exact of_decide_eq_true hstate ((hwheel id row hrow).mpr ⟨stage, hsome⟩)

variable {M : Type} {env : Env M}

/-- `skips` rows exist exactly for the skipped wheels throughout a run exactly when
whatever takes a wheel out of `SKIPPED` deletes its `skips` rows. -/
theorem skipsFollowState_throughout_iff {t : State} {l : List Event}
    (hrun : (machine env).run start l = some t) :
    (machine env).Always (SkipsFollowState ·.db) start l ↔
      (machine env).Along (Guarded env SkipsSafe) start l := by
  rw [← always_iff_guarded keeping_skipsMatch hrun]
  exact Machine.always_congr (Q := Intact) (fun _ _ _ hs hstep => intact_step hs hstep)
    (fun _ hs => skipsFollowState_iff hs.attached) intact_start

/-- The archived wheel is skipped. -/
def skippedRun : List Event :=
  archivedRun ++ [.pipeline (.apply 0
    (.skip ⟨"reroll_conversion_failed", "RerollScopeError", "", false, some "1.0"⟩) exampleClock)]

/-- A campaign for the next version retries the skipped wheel. -/
def retriedRun : List Event :=
  skippedRun ++ [.pipeline (.selectChunk (.rerollVersionBelow "2.0") (.rerollVersionSkips "2.0")
    5000), .pipeline (.applyChunk 0 "t2")]

theorem skipsFollowState_retried :
    (machine exampleEnv).Always (SkipsFollowState ·.db) start retriedRun := by
  obtain ⟨t, ht⟩ : ∃ t, (machine exampleEnv).run start retriedRun = some t :=
    Option.isSome_iff_exists.mp (by decide)
  exact (skipsFollowState_throughout_iff ht).mpr (by decide)

/-- A campaign over the project of the skipped wheel resets it, and its `skips` row
stays. -/
theorem reset_wheel_keeps_skips_row :
    ∃ t, (machine exampleEnv).run start
      (skippedRun ++ [.pipeline (.selectChunk (.project "p") (.project "p" 0) 5000),
        .pipeline (.applyChunk 0 "t2")]) = some t ∧ ¬SkipsFollowState t.db := by
  have hrun : ((machine exampleEnv).run start
      (skippedRun ++ [.pipeline (.selectChunk (.project "p") (.project "p" 0) 5000),
        .pipeline (.applyChunk 0 "t2")])).map (fun t =>
        ((t.db.wheels.get? 1).map WheelRow.state, (t.db.skips.get? (1, .convert)).isSome)) =
      some (some .needConvert, true) := by
    decide
  obtain ⟨t, ht, hpair⟩ := Option.map_eq_some_iff.mp hrun
  obtain ⟨hstate, hskip⟩ := Prod.mk.inj hpair
  obtain ⟨row, hrow, hneed⟩ := Option.map_eq_some_iff.mp hstate
  refine ⟨t, ht, fun hfollows => ?_⟩
  obtain ⟨row', hrow', hskipped⟩ := hfollows.skips 1 .convert (Option.ne_none_iff_isSome.mpr hskip)
  obtain rfl : row' = row := Option.some.inj (hrow'.symm.trans hrow)
  simp [hneed] at hskipped

end RerollSync.Daemon
