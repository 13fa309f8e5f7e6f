import RerollSync.Daemon.Skips
import RerollSync.Dispatcher.Campaign
import RerollSync.Fetch.BulkConvert
import RerollSync.Archive.RoundTrip

/-!
# Skips and version campaigns

A version campaign finds a `skips` row by its `reroll_version`, and a row without
one is permanent.  The stages that skip a wheel have to tell the version.
-/

namespace RerollSync.Daemon

open RerollSync.Support RerollSync.Store RerollSync.Dispatcher RerollSync.Ingest
open RerollSync.Pipeline RerollSync.Convert RerollSync.Fetch RerollSync.Fsck

variable {M : Type} {env : Env M}

/-! ## The skips that stages produce -/

/-- A skip of `convert`, on any bytes. -/
def FromConvert (env : Env M) (skip : Skip) : Prop :=
  ∃ data filename outcome, converted env filename data = .ok outcome ∧
    adaptConvertOutcome outcome env.dispatcher.rerollVersion = .skip skip

/-- A skip of `BulkConvertSource`, on any archive and any database. -/
def FromArchive (skip : Skip) : Prop :=
  ∃ c disk rows locations items reader item,
    (item, BulkResult.skipped skip) ∈ (claimBatch c disk rows locations items reader).results

/-- The skips that are applied are those that stages produce. -/
def SkipProduced (env : Env M) (_ : State) (e : Event) : Prop :=
  match e with
  | .pipeline (.apply _ (.skip skip) _) => FromConvert env skip ∨ FromArchive skip
  | _ => True

/-- No wheel is skipped at convert for a corrupt blob. -/
def BlobsIntact (s : State) (e : Event) : Prop :=
  match e with
  | .pipeline (.apply i (.skip skip) _) => ∀ h, s.held[i]? = some h → h.stage = .convert →
      ¬FromArchive skip
  | _ => True

theorem attributed_of_fromConvert {skip : Skip} (h : FromConvert env skip) :
    skip.permanent = true ∨ skip.rerollVersion ≠ none := by
  obtain ⟨data, filename, outcome, hconvert, hadapt⟩ := h
  cases outcome with
  | ok outcome => cases hadapt
  | retry outcome => cases hadapt
  | skip outcome =>
      obtain rfl := Outcome.skip.inj hadapt
      have hattributed := attributedTo_of_convert hconvert
      rw [ConvertSkip.AttributedTo] at hattributed
      cases hpermanent : outcome.permanent <;> simp [hpermanent, hattributed]

theorem unattributed_of_fromArchive {skip : Skip} (h : FromArchive skip) :
    skip.permanent = false ∧ skip.rerollVersion = none := by
  obtain ⟨c, disk, rows, locations, items, reader, item, hmem⟩ := h
  obtain ⟨sha256, details, rfl⟩ := skipCorrupt_of_mem_claimBatch hmem
  exact ⟨rfl, rfl⟩

/-! ## The invariant of a wheel -/

/-- A row has no version exactly when it is permanent. -/
def Attributed (row : SkipRow) : Prop := row.rerollVersion = none ↔ row.permanent = true

instance (row : SkipRow) : Decidable (Attributed row) := by
  unfold Attributed
  infer_instance

/-- Every `skips` row of the wheel is attributed. -/
def SkipsAttributed (w : Wheel) : Prop := ∀ stage row, w.skips stage = some row → Attributed row

/-- A skip that is not permanent tells the version. -/
def VersionSafe (move : Move) (_ : Wheel) : Prop :=
  match move with
  | .skipped _ outcome => outcome.permanent = true ∨ outcome.rerollVersion ≠ none
  | _ => True

theorem attributed_skipRow (clock : Clock) (outcome : Skip) :
    Attributed (skipRow clock outcome) ↔
      outcome.permanent = true ∨ outcome.rerollVersion ≠ none := by
  cases hpermanent : outcome.permanent <;> simp [Attributed, skipRow, hpermanent]

/-- A move that adds no `skips` row. -/
theorem skipsAttributed_of_sub {w w' : Wheel} (hw : SkipsAttributed w)
    (h : ∀ stage row, w'.skips stage = some row → w.skips stage = some row) :
    SkipsAttributed w' := fun stage row hrow => hw stage row (h stage row hrow)

theorem keeping_skipsAttributed : Keeping SkipsAttributed VersionSafe where
  born row hrow := by
    intro stage skip hskip
    cases hskip
  iff_safe move m w hreal hw := by
    cases move with
    | skipped clock outcome =>
        rw [VersionSafe, ← attributed_skipRow clock]
        constructor
        · intro h
          exact h .convert _ (by simp [Move.apply])
        · intro h stage row hrow
          simp only [Move.apply] at hrow
          by_cases hstage : stage = .convert
          · subst hstage
            rw [Function.update_self] at hrow
            exact Option.some.inj hrow ▸ h
          · rw [Function.update_of_ne hstage] at hrow
            exact hw stage row hrow
    | changed settings change =>
        refine iff_of_true (skipsAttributed_of_sub hw fun stage row hrow => ?_) trivial
        exact (Option.filter_eq_some_iff.mp hrow).1
    | reprocessed selector nowIso =>
        refine iff_of_true (skipsAttributed_of_sub hw fun stage row hrow => ?_) trivial
        exact (Option.filter_eq_some_iff.mp hrow).1
    | _ => exact iff_of_true hw trivial

/-! ## What a campaign reaches -/

/-- Every `skips` row is permanent or carries a version, and a campaign for any
later version clears it unless its wheel is a tombstone. -/
structure SkipsRetryable (db : Db) : Prop where
  attributed : ∀ key row, db.skips.get? key = some row →
    (row.rerollVersion = none ↔ row.permanent = true)
  cleared : ∀ key row, db.skips.get? key = some row → row.permanent = false →
    live db key.1 = true → ∃ version, row.rerollVersion = some version ∧
      ∀ bound chunkSize nowIso changeSeq, version < bound → 0 < chunkSize →
        (reprocessVersionBelow bound chunkSize nowIso db changeSeq).db.skips.get? key = none
  fsck9 : permanentSkipWithRerollVersionQuery db = [] ∧
    nonPermanentSkipWithoutRerollVersionQuery db = []

theorem skipsRetryable_iff {db : Db} (hattached : db.Attached) :
    SkipsRetryable db ↔ AllWheels SkipsAttributed db := by
  constructor
  · intro h id w hw stage row hrow
    obtain ⟨-, hat⟩ := Db.wheel?_eq_some_iff.mp hw
    rw [hat] at hrow
    exact h.attributed (id, stage) row hrow
  · intro h
    have hattributed : ∀ key row, db.skips.get? key = some row → Attributed row := by
      rintro ⟨id, stage⟩ row hrow
      cases hwheel : db.wheels.get? id with
      | none =>
          rw [(hattached id hwheel).skips stage] at hrow
          cases hrow
      | some wheel => exact h id _ (Db.wheel?_of_get? hwheel) stage row hrow
    refine ⟨hattributed, fun key row hrow hpermanent hlive => ?_, ?_, ?_⟩
    · obtain ⟨version, hversion⟩ : ∃ version, row.rerollVersion = some version := by
        refine Option.ne_none_iff_exists'.mp fun hnone => ?_
        have htrue := (hattributed key row hrow).mp hnone
        simp [hpermanent] at htrue
      refine ⟨version, hversion, fun bound chunkSize nowIso changeSeq hlt hpos => ?_⟩
      refine skips_reprocessVersionBelow hpos nowIso changeSeq hrow hpermanent ?_ hlive
      rw [hversion]
      exact decide_eq_true hlt
    · rw [permanentSkipWithRerollVersionQuery, List.map_eq_nil_iff, keys_filter_eq_nil_iff]
      intro key row hrow
      rw [decide_eq_false_iff_not]
      exact fun hboth => hboth.2 ((hattributed key row hrow).mpr hboth.1)
    · rw [nonPermanentSkipWithoutRerollVersionQuery, List.map_eq_nil_iff, keys_filter_eq_nil_iff]
      intro key row hrow
      rw [decide_eq_false_iff_not]
      rintro ⟨hpermanent, hnone⟩
      simp [(hattributed key row hrow).mp hnone] at hpermanent

/-! ## Runs -/

/-- Of the skips that stages produce, those of corrupt blobs are the ones that tell
no version. -/
theorem guarded_iff_blobsIntact {s : State} {e : Event} (hs : Intact s)
    (hproduced : SkipProduced env s e) :
    Guarded env VersionSafe s e ↔ BlobsIntact s e := by
  constructor
  · intro hguarded
    cases e with
    | pipeline e =>
        cases e with
        | apply i outcome clock =>
            cases outcome with
            | skip skip =>
                intro h hheld hstage hcorrupt
                obtain ⟨row, hrow⟩ := Db.hasWheel_iff.mp (hasWheel_of_held hs.sound hheld)
                have hmove : moveAt env s (.pipeline (.apply i (.skip skip) clock)) h.item.id
                    row = some (.skipped clock skip) := by
                  simp [moveAt, hheld, outcomeMove, hstage]
                obtain ⟨hpermanent, hversion⟩ := unattributed_of_fromArchive hcorrupt
                rcases hguarded _ row hrow _ hmove with htrue | hsome
                · exact Bool.false_ne_true (hpermanent.symm.trans htrue)
                · exact hsome hversion
            | _ => trivial
        | _ => trivial
    | _ => trivial
  · intro hintact id row hrow move hmove
    cases move with
    | skipped clock skip =>
        obtain ⟨i, h, rfl, hheld, hstage⟩ := comesFrom_of_moveAt hmove
        exact attributed_of_fromConvert (hproduced.resolve_right (hintact h hheld hstage))
    | _ => trivial

/-- Every `skips` row can be reached by a version campaign throughout a run exactly
when no wheel is skipped for a corrupt blob. -/
theorem skipsRetryable_throughout_iff {t : State} {l : List Event}
    (hrun : (machine env).run start l = some t)
    (hproduced : (machine env).Along (SkipProduced env) start l) :
    (machine env).Always (SkipsRetryable ·.db) start l ↔
      (machine env).Along BlobsIntact start l := by
  have hboth : (machine env).Along
      (fun s e => Guarded env VersionSafe s e ∧ SkipProduced env s e) start l ↔
      (machine env).Along (fun s e => BlobsIntact s e ∧ SkipProduced env s e) start l :=
    Machine.along_iff_of_invariant (P := Intact) (fun _ _ _ hs _ hstep => intact_step hs hstep)
      (fun _ _ _ hs _ => and_congr_left fun hproduced => guarded_iff_blobsIntact hs hproduced)
      intact_start hrun
  rw [Machine.along_and, Machine.along_and, and_iff_left hproduced, and_iff_left hproduced] at hboth
  rw [← hboth, ← always_iff_guarded keeping_skipsAttributed hrun]
  exact Machine.always_congr (Q := Intact) (fun _ _ _ hs hstep => intact_step hs hstep)
    (fun _ hs => skipsRetryable_iff hs.attached) intact_start

/-- A wheel with bytes that are no UTF-8 is archived. -/
def undecodableRun : List Event :=
  syncEvents ["a.whl"] ++
  [.openSegment 0, .pipeline (.claim .fetch 2 "t1"), .pipeline (.loadSidecar 0),
    .archive 0 [255] exampleLocation exampleClock]

/-- What convert makes of these bytes. -/
def undecodableSkip : Skip := ⟨"invalid_metadata_encoding", "UnicodeDecodeError", "", true, none⟩

theorem fromConvert_undecodableSkip : FromConvert exampleEnv undecodableSkip :=
  ⟨[255], "a.whl", _, rfl, by decide⟩

theorem skipsRetryable_undecodable :
    (machine exampleEnv).Always (SkipsRetryable ·.db) start
      (undecodableRun ++ [.pipeline (.apply 0 (.skip undecodableSkip) exampleClock)]) := by
  obtain ⟨t, ht⟩ : ∃ t, (machine exampleEnv).run start
      (undecodableRun ++ [.pipeline (.apply 0 (.skip undecodableSkip) exampleClock)]) = some t :=
    Option.isSome_iff_exists.mp (by decide)
  refine (skipsRetryable_throughout_iff ht (Machine.along_of_forall ?_ _)).mpr
    (Machine.along_of_forall ?_ _)
  · simp [undecodableRun, syncEvents, SkipProduced, fromConvert_undecodableSkip]
  · have hintact : ¬FromArchive undecodableSkip := fun h =>
      Bool.false_ne_true (unattributed_of_fromArchive h).1.symm
    simp [undecodableRun, syncEvents, BlobsIntact, hintact]

/-- An archived wheel is claimed for convert after a restart. -/
def reclaimedRun : List Event := archivedRun ++ [.restart, .pipeline (.claim .convert 1 "t2")]

/-- An archive whose segment has lost all but one byte. -/
def truncatedDisk : Archive.Disk := (∅ : Archive.Disk).set (0, .zst) [0]

/-- The outcome `BulkConvertSource` applies to the wheel. -/
def corruptSkip : Skip :=
  skipCorrupt "65" "segment 000000: file is 1 bytes, shorter than the 32-byte trailer"

/-- A wheel that is skipped because its segment is truncated is in the reach of no
version campaign. -/
theorem corrupt_blob_unretryable :
    ∃ s t item, (machine exampleEnv).run start reclaimedRun = some s ∧
      s.held.map Held.item = [item] ∧
      (item, BulkResult.skipped corruptSkip) ∈ (claimBatch Archive.exampleCodec truncatedDisk s.db
        s.db [item] { blockCacheSize := 4 }).results ∧
      (machine exampleEnv).step s (.pipeline (.apply 0 (.skip corruptSkip) exampleClock)) = some t ∧
      ¬SkipsRetryable t.db := by
  have hrun : ((machine exampleEnv).run start reclaimedRun).bind (fun s =>
      ((machine exampleEnv).step s
        (.pipeline (.apply 0 (.skip corruptSkip) exampleClock))).map fun t =>
        (s.held.map Held.item,
          (claimBatch Archive.exampleCodec truncatedDisk s.db s.db [⟨1, "p", 0, .needConvert⟩]
            { blockCacheSize := 4 }).results,
          (t.db.skips.get? (1, .convert)).map fun row => (row.permanent, row.rerollVersion))) =
      some ([⟨1, "p", 0, .needConvert⟩], [(⟨1, "p", 0, .needConvert⟩, .skipped corruptSkip)],
        some (false, none)) := by
    decide
  obtain ⟨s, hs, hrest⟩ := Option.bind_eq_some_iff.mp hrun
  obtain ⟨t, ht, hpair⟩ := Option.map_eq_some_iff.mp hrest
  obtain ⟨hheld, hbatch, hskip⟩ : _ ∧ _ ∧ _ := by simpa only [Prod.mk.injEq] using hpair
  obtain ⟨row, hrow, hunattributed⟩ := Option.map_eq_some_iff.mp hskip
  refine ⟨s, t, _, hs, hheld, by rw [hbatch]; exact List.mem_singleton.mpr rfl, ht,
    fun hretryable => ?_⟩
  obtain ⟨hpermanent, hversion⟩ := Prod.mk.inj hunattributed
  have htrue := (hretryable.attributed (1, .convert) row hrow).mp hversion
  exact Bool.false_ne_true (hpermanent.symm.trans htrue)

end RerollSync.Daemon
