import RerollSync.Fsck.ChangeSeq

/-!
# Consistent tables

What the invariants of fsck ask of the tables, said without its queries: which states
agree with which rows, and which references resolve.  The checks that are not merely
informational are silent exactly on the tables that satisfy it.
-/

namespace RerollSync.Fsck

open RerollSync.Support RerollSync.Store

namespace Tables

/-- Some row of `blobs` has the hash. -/
def HasBlob (t : Tables) (sha256 : String) : Prop :=
  ∃ rowid b, t.blobs.get? rowid = some b ∧ b.sha256 = sha256

/-- The state of a wheel and the rows that belong to it. -/
structure WheelConsistent (t : Tables) (id : ℤ) (w : WheelRecord) : Prop where
  state : ∃ s : WheelState, w.state = stateValue s
  repodata : w.state = stateValue .ready ↔ id ∈ t.wheelRepodata.keys
  needConvert : w.state = stateValue .needConvert → w.blobSha256 ≠ none
  needMetadata : w.state = stateValue .needMetadata → w.blobSha256 = none
  noMetadata : w.state = stateValue .noMetadata → w.metadataSha256 = none
  skipped : w.state = stateValue .skipped →
    ∃ rowid sk, t.skips.get? rowid = some sk ∧ sk.wheelId = id
  quarantined : w.state = stateValue .quarantined →
    ∃ rowid wk, t.work.get? rowid = some wk ∧ wk.wheelId = id ∧ wk.quarantinedAt ≠ none
  deleted : w.state = stateValue .deleted ↔ w.deletedAt ≠ none
  blob : ∀ sha256, w.blobSha256 = some sha256 → t.HasBlob sha256
  condaName : w.condaName ≠ none → w.state = stateValue .ready

/-- A skip says when it may be reconsidered, and its wheel is skipped. -/
structure SkipConsistent (t : Tables) (sk : SkipRecord) : Prop where
  permanent : sk.permanent = 1 → sk.rerollVersion = none
  transient : sk.permanent = 0 → sk.rerollVersion ≠ none
  current : ∀ w, t.wheels.get? sk.wheelId = some w → w.state = stateValue .skipped

/-- A work row stays within the budget, and its wheel has work left. -/
structure WorkConsistent (t : Tables) (maxAttempts : ℤ) (wk : WorkRecord) : Prop where
  attempts : wk.attempts ≤ maxAttempts
  quarantined : wk.attempts = maxAttempts → wk.quarantinedAt ≠ none
  unfinished : ∀ w, t.wheels.get? wk.wheelId = some w →
    ∀ s ∈ [WheelState.ready, .skipped, .noMetadata, .deleted], w.state ≠ stateValue s

/-- The invariants together. -/
structure Consistent (t : Tables) (maxAttempts : ℤ) : Prop where
  wheels : ∀ id w, t.wheels.get? id = some w → t.WheelConsistent id w
  skips : ∀ rowid sk, t.skips.get? rowid = some sk → t.SkipConsistent sk
  work : ∀ rowid wk, t.work.get? rowid = some wk → t.WorkConsistent maxAttempts wk
  blobs : ∀ rowid b, t.blobs.get? rowid = some b → b.segmentId ∈ t.segments.keys
  changeSeq : ∀ id w id' w', t.wheels.get? id = some w → t.wheels.get? id' = some w' →
    w.changeSeq = w'.changeSeq → w.updatedAt = w'.updatedAt

/-! ## Silent queries -/

variable {t : Tables}

theorem rows_filter_modify_eq_nil_iff {ρ : Type} {s : Table ℤ ρ} {p : ℤ → ρ → Bool}
    {f : ℤ → ρ → Value} :
    ((s.filter p).modify f).rows = [] ↔ ∀ id row, s.get? id = some row → p id row = false := by
  rw [Table.modify, List.map_eq_nil_iff, Table.filter, List.filter_eq_nil_iff]
  simp only [Bool.not_eq_true, Prod.forall, Table.get?_eq_some_iff]

theorem any_blobs_eq_true_iff {sha256 : String} :
    (t.blobs.rows.any fun b => b.2.sha256 = sha256) = true ↔ t.HasBlob sha256 := by
  simp only [List.any_eq_true, decide_eq_true_eq, Prod.exists, Table.get?_eq_some_iff, HasBlob]

theorem any_blobs_eq_false_iff {sha256 : String} :
    (t.blobs.rows.any fun b => b.2.sha256 = sha256) = false ↔ ¬t.HasBlob sha256 := by
  rw [← Bool.not_eq_true, any_blobs_eq_true_iff]

theorem any_skips_eq_false_iff {id : ℤ} :
    (t.skips.rows.any fun sk => sk.2.wheelId = id) = false ↔
      ¬∃ rowid sk, t.skips.get? rowid = some sk ∧ sk.wheelId = id := by
  rw [← Bool.not_eq_true]
  simp only [List.any_eq_true, decide_eq_true_eq, Prod.exists, Table.get?_eq_some_iff]

theorem any_work_eq_false_iff {id : ℤ} :
    (t.work.rows.any fun wk => wk.2.wheelId = id ∧ wk.2.quarantinedAt.isSome) = false ↔
      ¬∃ rowid wk, t.work.get? rowid = some wk ∧ wk.wheelId = id ∧ wk.quarantinedAt ≠ none := by
  rw [← Bool.not_eq_true]
  simp only [List.any_eq_true, decide_eq_true_eq, Prod.exists, Table.get?_eq_some_iff,
    Option.isSome_iff_ne_none]

theorem joinsWheel_eq_false_iff {id : ℤ} {p : WheelRecord → Bool} :
    t.joinsWheel id p = false ↔ ∀ w, t.wheels.get? id = some w → p w = false := by
  rw [joinsWheel, Option.any_eq_false]

theorem mem_wheelStates_iff {n : ℤ} :
    n ∈ wheelStates.map stateValue ↔ ∃ s : WheelState, n = stateValue s := by
  rw [List.mem_map]
  constructor
  · rintro ⟨s, -, rfl⟩
    exact ⟨s, rfl⟩
  · rintro ⟨s, rfl⟩
    exact ⟨s, by cases s <;> decide, rfl⟩

/-- The queries of the checks that are not informational select nothing. -/
def Silent (t : Tables) (maxAttempts : ℤ) : Prop :=
  ∀ check ∈ rowChecks maxAttempts, check.informational = false → (check.baseQuery t).rows = []

theorem silent_iff {maxAttempts : ℤ} :
    t.Silent maxAttempts ↔
      t.readyWithoutRepodataQuery.rows = [] ∧ t.repodataWithoutReadyQuery.rows = [] ∧
      t.needConvertWithoutBlobQuery.rows = [] ∧ t.needMetadataWithBlobQuery.rows = [] ∧
      t.noMetadataWithMetadataSha256Query.rows = [] ∧ t.skippedWithoutSkipsRowQuery.rows = [] ∧
      t.quarantinedWithoutWorkRowQuery.rows = [] ∧ t.deletedWithoutDeletedAtQuery.rows = [] ∧
      t.deletedAtWithoutDeletedStateQuery.rows = [] ∧
      t.permanentSkipWithRerollVersionQuery.rows = [] ∧
      t.nonPermanentSkipWithoutRerollVersionQuery.rows = [] ∧ t.staleSkipQuery.rows = [] ∧
      t.workRowForTerminalWheelQuery.rows = [] ∧ t.blobSha256UnresolvedQuery.rows = [] ∧
      t.blobSegmentUnresolvedQuery.rows = [] ∧ t.condaNameOutsideReadyQuery.rows = [] ∧
      t.invalidStateQuery.rows = [] ∧ (t.attemptsExceedsMaxQuery maxAttempts).rows = [] ∧
      (t.maxAttemptsWithoutQuarantineQuery maxAttempts).rows = [] := by
  simp [Silent, rowChecks]

/-- The row checks are silent exactly on tables that are consistent, sequence numbers aside. -/
theorem silent_iff_consistent {maxAttempts : ℤ} :
    t.Silent maxAttempts ↔
      (∀ id w, t.wheels.get? id = some w → t.WheelConsistent id w) ∧
      (∀ rowid sk, t.skips.get? rowid = some sk → t.SkipConsistent sk) ∧
      (∀ rowid wk, t.work.get? rowid = some wk → t.WorkConsistent maxAttempts wk) ∧
      ∀ rowid b, t.blobs.get? rowid = some b → b.segmentId ∈ t.segments.keys := by
  rw [silent_iff]
  simp only [readyWithoutRepodataQuery, repodataWithoutReadyQuery, needConvertWithoutBlobQuery,
    needMetadataWithBlobQuery, noMetadataWithMetadataSha256Query, skippedWithoutSkipsRowQuery,
    quarantinedWithoutWorkRowQuery, deletedWithoutDeletedAtQuery,
    deletedAtWithoutDeletedStateQuery, permanentSkipWithRerollVersionQuery,
    nonPermanentSkipWithoutRerollVersionQuery, staleSkipQuery, workRowForTerminalWheelQuery,
    blobSha256UnresolvedQuery, blobSegmentUnresolvedQuery, condaNameOutsideReadyQuery,
    invalidStateQuery, attemptsExceedsMaxQuery, maxAttemptsWithoutQuarantineQuery, wheelsWhere,
    skipsWhere, workWhere, blobsWhere, rows_filter_modify_eq_nil_iff, decide_eq_false_iff_not,
    joinsWheel_eq_false_iff, Option.any_eq_false, Option.all_eq_true, Bool.not_eq_true',
    Bool.not_eq_false', any_blobs_eq_true_iff, any_blobs_eq_false_iff, any_skips_eq_false_iff,
    any_work_eq_false_iff]
  simp only [Option.isSome_iff_ne_none, Option.isNone_iff_eq_none, mem_wheelStates_iff, not_and,
    not_not, gt_iff_lt, not_lt]
  constructor
  · rintro ⟨hready, hrepodata, hconvert, hmetadata, hno, hskipped, hquarantined, hdeleted,
      hdeletedAt, hpermanent, htransient, hstale, hterminal, hblob, hsegment, hconda, hstate,
      hattempts, hspent⟩
    refine ⟨fun id w hw => ?_, fun rowid sk hsk => ?_, fun rowid wk hwk => ?_, hsegment⟩
    · refine ⟨hstate id w hw, ⟨hready id w hw, fun hkey => ?_⟩, fun h hnone => ?_,
        hmetadata id w hw, hno id w hw, hskipped id w hw, hquarantined id w hw,
        ⟨hdeleted id w hw, hdeletedAt id w hw⟩, hblob id w hw, hconda id w hw⟩
      · obtain ⟨row, hrow⟩ := Table.mem_keys_iff.mp hkey
        exact hrepodata id row hrow w hw
      · exact hconvert id w hw h fun sha256 hsha => by simp [hnone] at hsha
    · exact ⟨hpermanent rowid sk hsk, htransient rowid sk hsk, hstale rowid sk hsk⟩
    · refine ⟨hattempts rowid wk hwk, hspent rowid wk hwk, fun w hw s hs heq => ?_⟩
      exact hterminal rowid wk hwk w hw (List.mem_map.mpr ⟨s, hs, heq.symm⟩)
  · rintro ⟨hwheels, hskips, hwork, hblobs⟩
    refine ⟨fun id w hw => (hwheels id w hw).repodata.mp, fun id row hrow w hw => ?_,
      fun id w hw h hnone => ?_, fun id w hw => (hwheels id w hw).needMetadata,
      fun id w hw => (hwheels id w hw).noMetadata, fun id w hw => (hwheels id w hw).skipped,
      fun id w hw => (hwheels id w hw).quarantined, fun id w hw => (hwheels id w hw).deleted.mp,
      fun id w hw => (hwheels id w hw).deleted.mpr, fun id sk hsk => (hskips id sk hsk).permanent,
      fun id sk hsk => (hskips id sk hsk).transient, fun id sk hsk => (hskips id sk hsk).current,
      fun id wk hwk w hw hmem => ?_, fun id w hw => (hwheels id w hw).blob, hblobs,
      fun id w hw => (hwheels id w hw).condaName, fun id w hw => (hwheels id w hw).state,
      fun id wk hwk => (hwork id wk hwk).attempts, fun id wk hwk => (hwork id wk hwk).quarantined⟩
    · have hkey : id ∈ t.wheelRepodata.keys :=
        List.mem_map_of_mem (Table.get?_eq_some_iff.mp hrow)
      exact (hwheels id w hw).repodata.mpr hkey
    · obtain ⟨sha256, hsha⟩ := Option.ne_none_iff_exists'.mp ((hwheels id w hw).needConvert h)
      exact hnone sha256 hsha ((hwheels id w hw).blob sha256 hsha)
    · obtain ⟨s, hs, heq⟩ := List.mem_map.mp hmem
      exact (hwork id wk hwk).unfinished w hw s hs heq.symm

/-- There are no duplicates exactly when a sequence number stands for one time. -/
theorem duplicates_eq_nil_iff :
    t.duplicates = [] ↔ ∀ id w id' w', t.wheels.get? id = some w → t.wheels.get? id' = some w' →
      w.changeSeq = w'.changeSeq → w.updatedAt = w'.updatedAt := by
  simp only [duplicates, List.filter_eq_nil_iff, decide_eq_true_eq, Table.get?_eq_some_iff]
  constructor
  · intro h id w id' w' hw hw' hseq
    by_contra hne
    exact h (id, w) hw ⟨(id', w'), hw', hseq.symm, fun heq => hne heq.symm⟩
  · rintro h w hw ⟨w', hw', hseq, hne⟩
    exact hne (h w'.1 w'.2 w.1 w.2 hw' hw hseq)

theorem consistent_iff {maxAttempts : ℤ} :
    t.Consistent maxAttempts ↔ t.Silent maxAttempts ∧ t.duplicates = [] := by
  rw [silent_iff_consistent, duplicates_eq_nil_iff]
  constructor
  · rintro ⟨hwheels, hskips, hwork, hblobs, hseq⟩
    exact ⟨⟨hwheels, hskips, hwork, hblobs⟩, hseq⟩
  · rintro ⟨⟨hwheels, hskips, hwork, hblobs⟩, hseq⟩
    exact ⟨hwheels, hskips, hwork, hblobs, hseq⟩

end Tables

end RerollSync.Fsck
