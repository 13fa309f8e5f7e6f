import RerollSync.Daemon.ThreadInvariant

/-!
# Recovery after a crash

The daemon may die between any two statements.  The recovery restores what the
archive stands for exactly when the crash comes at a safe point.
-/

namespace RerollSync.Daemon

open RerollSync.Support RerollSync.Store RerollSync.Dispatcher RerollSync.Ingest
open RerollSync.Pipeline RerollSync.Fetch RerollSync.Archive

namespace Running

variable {M : Type} {x : Setup M} {s s' : Running}

/-! ## The recovery -/

theorem mem_staleSegmentIds {db : Db} {disk : Disk} {id : ℕ} :
    id ∈ staleSegmentIds db disk ↔
      (∃ file, disk.get? (id, .opened) = some file) ∧ isSealed db id = false := by
  simp only [staleSegmentIds, List.mem_insertionSort, List.mem_filter, List.mem_map, Table.keys,
    Prod.exists, exists_and_right, exists_eq_right, Bool.not_eq_true', decide_eq_true_eq,
    Table.get?_eq_some_iff]

theorem get?_recoverStaleOpenSegments (db : Db) (disk : Disk) (id : ℕ) :
    (recoverStaleOpenSegments db disk).get? (id, .zst) = disk.get? (id, .zst) := by
  rw [recoverStaleOpenSegments, Table.get?_modify]
  cases disk.get? (id, .zst) <;> simp

theorem segments_recoverSegments (ids : List ℕ) (n : ℕ) (db : Db) :
    (recoverSegments ids n db).segments = db.segments := by
  induction ids generalizing db with
  | nil => rfl
  | cons id ids ih =>
      rw [recoverSegments, List.foldl_cons]
      exact (ih _).trans (segments_recoverUnsealedSegment id _ n db)

/-- The loop takes the blobs of all its segments away, and nothing else. -/
theorem unlinked_recoverSegments (ids : List ℕ) (n : ℕ) (db : Db) :
    ∃ sha256s, Unlinked sha256s db (recoverSegments ids n db) ∧ ∀ sha256, sha256 ∈ sha256s ↔
      ∃ blob, db.blobs.get? sha256 = some blob ∧ blob.segmentId ∈ ids := by
  induction ids generalizing db with
  | nil => exact ⟨[], Unlinked.refl db, by simp⟩
  | cons id ids ih =>
      have hfirst := unlinked_recoverUnsealedSegment id recoveryChunkSize n db
      have hmem : ∀ {sha256}, sha256 ∈ (recoveryChunks id recoveryChunkSize db).flatten ↔ _ :=
        mem_recoveryChunks (by decide)
      obtain ⟨sha256s, hrest, hrestmem⟩ :=
        ih (recoverUnsealedSegment id recoveryChunkSize n db)
      refine ⟨_, hfirst.trans hrest, fun sha256 => ?_⟩
      rw [List.mem_append, hmem, hrestmem, hfirst.blobs]
      by_cases hgone : sha256 ∈ (recoveryChunks id recoveryChunkSize db).flatten
      · obtain ⟨blob, hblob, hid⟩ := hmem.mp hgone
        simp [hgone, hblob, hid]
      · have hnot := mt hmem.mpr hgone
        simp only [hgone, if_false, List.mem_cons]
        constructor
        · rintro (hblob | ⟨blob, hblob, hid⟩)
          · exact (hnot hblob).elim
          · exact ⟨blob, hblob, Or.inr hid⟩
        · rintro ⟨blob, hblob, hid | hid⟩
          · exact (hnot ⟨blob, hblob, hid⟩).elim
          · exact Or.inr ⟨blob, hblob, hid⟩

/-- The daemon may die here: no segment has been renamed without being recorded as
sealed, and no wheel that has left the index is linked to a segment in progress. -/
structure CutSafe (s : Running) : Prop where
  recorded : unrecorded s.phase = none
  undeleted : ∀ r ∈ s.pipeline.db.wheels.rows, r.2.state = .deleted →
    ∀ sha256 ∈ r.2.blobSha256, ∀ blob ∈ s.pipeline.db.blobs.get? sha256,
      blob.segmentId ∉ staleSegmentIds s.pipeline.db s.disk

instance (s : Running) : Decidable (CutSafe s) :=
  decidable_of_iff (unrecorded s.phase = none ∧ ∀ r ∈ s.pipeline.db.wheels.rows,
    r.2.state = .deleted → ∀ sha256 ∈ r.2.blobSha256, ∀ blob ∈ s.pipeline.db.blobs.get? sha256,
      blob.segmentId ∉ staleSegmentIds s.pipeline.db s.disk)
    ⟨fun h => ⟨h.1, h.2⟩, fun h => ⟨h.1, h.2⟩⟩

/-- What the recovery after a crash in `s` restores. -/
structure Recovered (x : Setup M) (s : Running) : Prop where
  readable : ∀ id row, s.restart.pipeline.db.wheels.get? id = some row →
    ∀ sha256 ∈ row.blobSha256, ∃ location file data,
      ArchiveStore.locationFor sha256 s.restart.pipeline.db = some location ∧
      s.restart.disk.get? (location.segmentId, .zst) = some file ∧
      x.codec.hexdigest data = sha256 ∧
      (ArchiveStore.get x.codec s.restart.disk s.restart.pipeline.db sha256).value
        s.restart.store.reader = .ok data
  sealed : ∀ id file, s.restart.disk.get? (id, .zst) = some file →
    isSealed s.restart.pipeline.db id = true
  untruncated : ∀ sha256 blob, s.restart.pipeline.db.blobs.get? sha256 = some blob →
    blob.segmentId ∉ staleSegmentIds s.pipeline.db s.disk
  kept : ∀ id row, s.pipeline.db.wheels.get? id = some row → ∀ sha256 ∈ row.blobSha256,
    ∀ blob, s.pipeline.db.blobs.get? sha256 = some blob →
      blob.segmentId ∉ staleSegmentIds s.pipeline.db s.disk →
        s.restart.pipeline.db.wheels.get? id = some row ∧
        s.restart.pipeline.db.wheelRepodata.get? id = s.pipeline.db.wheelRepodata.get? id

section Restart

/-- What the recovery takes away: the blobs of the stale segments. -/
theorem unlinked_restart (s : Running) :
    ∃ sha256s, Unlinked sha256s s.pipeline.db s.restart.pipeline.db ∧ ∀ sha256,
      sha256 ∈ sha256s ↔ ∃ blob, s.pipeline.db.blobs.get? sha256 = some blob ∧
        blob.segmentId ∈ staleSegmentIds s.pipeline.db s.disk :=
  unlinked_recoverSegments _ _ _

theorem isSealed_restart (s : Running) (id : ℕ) :
    isSealed s.restart.pipeline.db id = isSealed s.pipeline.db id := by
  rw [isSealed, isSealed]
  exact congrArg (fun segments => (Table.get? segments id).any fun row : SegmentRow =>
    row.sealedAt.isSome) (segments_recoverSegments _ _ _)

/-- A blob that the recovery leaves lies in a sealed segment. -/
theorem archived_restart (h : Sound x s) {sha256 : String} {location : BlobLocation}
    (hlocation : ArchiveStore.locationFor sha256 s.restart.pipeline.db = some location) :
    ArchiveStore.locationFor sha256 s.pipeline.db = some location ∧
      location.segmentId ∉ staleSegmentIds s.pipeline.db s.disk ∧
      ∃ data, x.codec.hexdigest data = sha256 ∧ ArchivedAt x s.restart.disk location data := by
  obtain ⟨sha256s, hunlinked, hmem⟩ := unlinked_restart s
  obtain ⟨blob, hblob, rfl⟩ := Option.map_eq_some_iff.mp hlocation
  rw [hunlinked.blobs] at hblob
  obtain ⟨hnot, hblob⟩ := Option.ite_none_left_eq_some.mp hblob
  have hsurvives : blob.segmentId ∉ staleSegmentIds s.pipeline.db s.disk := fun hstale =>
    hnot ((hmem sha256).mpr ⟨blob, hblob, hstale⟩)
  have hbefore := congrArg (Option.map fun row : BlobRow =>
    (⟨sha256, row.segmentId, row.blockNo, row.offset, row.length⟩ : BlobLocation)) hblob
  obtain ⟨data, hsha, harchived | ⟨blocks, hheld, -⟩⟩ := h.filed.blobs sha256 _ hbefore
  · refine ⟨hbefore, hsurvives, data, hsha, harchived.mono fun id file hfile => ?_⟩
    exact (get?_recoverStaleOpenSegments _ _ id).trans hfile
  · obtain ⟨file, hfile⟩ := hheld.file
    obtain ⟨-, hunsealed⟩ := h.filed.opened _ file hfile
    exact (hsurvives (mem_staleSegmentIds.mpr ⟨⟨file, hfile⟩, hunsealed⟩)).elim

/-- After a crash at a safe point every wheel is still linked to a blob. -/
theorem linked_restart (h : Sound x s) (hsafe : CutSafe s) : Linked s.restart.pipeline.db := by
  obtain ⟨sha256s, hunlinked, hmem⟩ := unlinked_restart s
  intro id row' hrow' sha256 hsha
  rw [hunlinked.wheels] at hrow'
  obtain ⟨row, hrow, rfl⟩ := Option.map_eq_some_iff.mp hrow'
  rw [unlinkedRow] at hsha
  split at hsha
  · cases hsha
  · next hkept =>
      obtain ⟨blob, hblob⟩ := h.linked id row hrow sha256 hsha
      refine ⟨blob, ?_⟩
      rw [hunlinked.blobs, if_neg, hblob]
      intro hgone
      obtain ⟨blob', hblob', hstale⟩ := (hmem sha256).mp hgone
      have hdeleted : row.state = .deleted := by
        by_contra hlive
        exact hkept ⟨by rw [Option.mem_def.mp hsha]; simpa using hgone, hlive⟩
      exact hsafe.undeleted (id, row) (Table.get?_eq_some_iff.mp hrow) hdeleted sha256 hsha blob'
        hblob' hstale

theorem intact_restart (h : Intact s.pipeline) : Intact s.restart.pipeline := by
  have hinitial : Intact (.initial s.pipeline.db (maxChangeSeq s.pipeline.db)) :=
    ⟨sound_initial _ _, h.attached, by simp [State.initial]⟩
  suffices hloop : ∀ (ids : List ℕ) (p : State), Intact p →
      Intact { p with db := recoverSegments ids p.changeSeq p.db } from
    hloop (staleSegmentIds s.pipeline.db s.disk) (.initial s.pipeline.db _) hinitial
  intro ids
  induction ids with
  | nil => exact fun p hp => hp
  | cons id ids ih =>
      intro p hp
      refine ih { p with db := recoverUnsealedSegment id recoveryChunkSize p.changeSeq p.db } ?_
      have hstep : Daemon.step exampleEnv p (.recover id recoveryChunkSize) = some
          { p with db := recoverUnsealedSegment id recoveryChunkSize p.changeSeq p.db } :=
        by simp [Daemon.step, recoveryChunkSize]
      exact intact_step hp hstep

theorem Sound.restart (h : Sound x s) (hsafe : CutSafe s) : Sound x s.restart := by
  refine ⟨intact_restart h.intact, linked_restart h hsafe, ⟨?_, ?_, ?_, ?_⟩, ?_⟩
  · intro id suffix file hfile
    obtain ⟨file', hfile', -⟩ :=
      Option.map_eq_some_iff.mp ((Table.get?_modify _ _ _).symm.trans hfile)
    obtain ⟨row, hrow⟩ := h.filed.rows id suffix file' hfile'
    exact ⟨row, (congrArg (Table.get? · id) (segments_recoverSegments _ _ _)).trans hrow⟩
  · intro id file hfile
    obtain ⟨file', hfile', -⟩ :=
      Option.map_eq_some_iff.mp ((Table.get?_modify _ _ _).symm.trans hfile)
    obtain ⟨hnone, hunsealed⟩ := h.filed.opened id file' hfile'
    exact ⟨(get?_recoverStaleOpenSegments _ _ id).trans hnone,
      (isSealed_restart s id).trans hunsealed⟩
  · intro id file hfile
    refine Or.inl ((isSealed_restart s id).trans ?_)
    refine (h.filed.sealed id file ((get?_recoverStaleOpenSegments _ _ id).symm.trans
      hfile)).resolve_right ?_
    rw [hsafe.recorded]
    simp
  · intro sha256 location hlocation
    obtain ⟨-, -, data, hsha, harchived⟩ := archived_restart h hlocation
    exact ⟨data, hsha, Or.inl harchived⟩
  · intro id hcurrent
    cases hcurrent

/-- The recovery restores the archive exactly after a crash at a safe point. -/
theorem recovered_iff (hc : x.codec.Faithful) (h : Sound x s) : Recovered x s ↔ CutSafe s := by
  obtain ⟨sha256s, hunlinked, hmem⟩ := unlinked_restart s
  constructor
  · intro hrecovered
    constructor
    · by_contra hnone
      obtain ⟨id, hid⟩ := Option.ne_none_iff_exists'.mp hnone
      cases hphase : s.phase with
      | renamed item stats =>
          have hfits := h.fits
          rw [hphase] at hfits
          obtain ⟨-, -, ⟨file, hfile⟩, hunsealed⟩ := hfits
          have hsealed := hrecovered.sealed _ file
            ((get?_recoverStaleOpenSegments _ _ _).trans hfile)
          rw [isSealed_restart, hunsealed] at hsealed
          cases hsealed
      | _ =>
          rw [hphase] at hid
          cases hid
    · intro r hr hdeleted sha256 hsha blob hblob hstale
      have hrow : s.pipeline.db.wheels.get? r.1 = some r.2 := Table.get?_eq_some_iff.mpr hr
      have hrow' : s.restart.pipeline.db.wheels.get? r.1 = some r.2 := by
        rw [hunlinked.wheels, hrow, Option.map_some, unlinkedRow,
          if_neg fun hlive => hlive.2 hdeleted]
      obtain ⟨location, -, -, hlocation, -⟩ := hrecovered.readable r.1 r.2 hrow' sha256 hsha
      obtain ⟨blob', hblob', -⟩ := Option.map_eq_some_iff.mp hlocation
      rw [hunlinked.blobs, if_pos ((hmem sha256).mpr ⟨blob, hblob, hstale⟩)] at hblob'
      cases hblob'
  · intro hsafe
    have hlinked := linked_restart h hsafe
    constructor
    · intro id row hrow sha256 hsha
      obtain ⟨blob, hblob⟩ := hlinked id row hrow sha256 hsha
      have hlocation : ArchiveStore.locationFor sha256 s.restart.pipeline.db =
          some ⟨sha256, blob.segmentId, blob.blockNo, blob.offset, blob.length⟩ := by
        rw [ArchiveStore.locationFor, hblob, Option.map_some]
      obtain ⟨-, -, data, hdata, blocks, footer, trailer, file, hsealed, hfile, hlocated⟩ :=
        archived_restart h hlocation
      refine ⟨_, file, data, hlocation, hfile, hdata, ?_⟩
      rw [ArchiveStore.get, hlocation]
      exact (reads_of_located hc hfile hsealed hlocated).value_eq (Reader.valid_empty _ _ _)
    · intro id file hfile
      refine (isSealed_restart s id).trans ((h.filed.sealed id file
        ((get?_recoverStaleOpenSegments _ _ id).symm.trans hfile)).resolve_right ?_)
      rw [hsafe.recorded]
      simp
    · intro sha256 blob hblob hstale
      rw [hunlinked.blobs] at hblob
      obtain ⟨hnot, hblob⟩ := Option.ite_none_left_eq_some.mp hblob
      exact hnot ((hmem sha256).mpr ⟨blob, hblob, hstale⟩)
    · intro id row hrow sha256 hsha blob hblob hsurvives
      have hnot : sha256 ∉ sha256s := by
        intro hgone
        obtain ⟨blob', hblob', hstale⟩ := (hmem sha256).mp hgone
        obtain rfl : blob = blob' := Option.some.inj (hblob.symm.trans hblob')
        exact hsurvives hstale
      have hsame : unlinkedRow sha256s row = row := by
        refine if_neg ?_
        rintro ⟨hany, -⟩
        rw [Option.mem_def.mp hsha] at hany
        exact hnot (by simpa using hany)
      refine ⟨by rw [hunlinked.wheels, hrow, Option.map_some, hsame], ?_⟩
      rw [hunlinked.wheelRepodata, if_neg]
      intro hlinkedTo
      obtain ⟨row', hrow', hany, -⟩ := mem_linkedWheelIds.mp hlinkedTo
      obtain rfl : row = row' := Option.some.inj (hrow.symm.trans hrow')
      rw [Option.mem_def.mp hsha] at hany
      exact hnot (by simpa using hany)

end Restart

/-! ## Runs -/

/-- The recovery after a crash restores the archive. -/
def Restores (x : Setup M) (s : Running) : RunningEvent → Prop
  | .restart => Recovered x s
  | _ => True

/-- A crash comes at a safe point. -/
def CrashesSafely (s : Running) : RunningEvent → Prop
  | .restart => CutSafe s
  | _ => True

instance (s : Running) (e : RunningEvent) : Decidable (CrashesSafely s e) :=
  match e with
  | .restart => inferInstanceAs (Decidable (CutSafe s))
  | .pipeline _ => isTrue trivial
  | .thread _ => isTrue trivial

/-- In every run of the daemon, with crashes anywhere, every recovery restores the
archive exactly when every crash comes at a safe point. -/
theorem restores_throughout_iff (hc : x.codec.Faithful) {t : Running} {l : List RunningEvent}
    (hrun : (machine x).run start l = some t) :
    (machine x).Along (Restores x) start l ↔ (machine x).Along CrashesSafely start l := by
  have hiff : ∀ s e, Sound x s → (Restores x s e ↔ CrashesSafely s e) := by
    intro s e hs
    cases e with
    | restart => exact recovered_iff hc hs
    | _ => exact Iff.rfl
  refine Machine.along_iff_of_invariant (P := Sound x) ?_ (fun s e _ hs _ => hiff s e hs)
    Sound.start hrun
  intro s e s' hs hrestores hstep
  cases e with
  | pipeline e =>
      obtain ⟨hlinkable, hstep⟩ := Option.ite_none_right_eq_some.mp hstep
      obtain ⟨p, hp, rfl⟩ := Option.map_eq_some_iff.mp hstep
      exact hs.pipeline hlinkable hp
  | thread k => exact hs.advance hc hstep
  | restart =>
      obtain rfl := Option.some.inj hstep
      exact hs.restart ((hiff s .restart hs).mp hrestores)

/-- A daemon for concrete runs. -/
def exampleSetup : Setup Unit :=
  ⟨exampleEnv.dispatcher, exampleEnv.repr, exampleEnv.lib, exampleCodec, {}⟩

/-- A sync of project `p` that finds these wheels. -/
def syncedWith (filenames : List String) : List RunningEvent :=
  [.pipeline (.planSync "p" (.page (examplePageOf filenames))), .pipeline (.applySync "p" "t0")]

/-- A wheel is fetched and archived in a segment that stays open. -/
def openRun : List RunningEvent :=
  syncedWith ["a.whl"] ++
  [.pipeline (.claim .fetch 2 "t1"), .pipeline (.loadSidecar 0), .thread { data := abc },
    .thread {}, .thread {}, .thread {}, .thread {}, .thread {}, .thread { clock := exampleClock }]

/-- After a crash the wheel is to be fetched again. -/
theorem restores_openRun :
    ∃ t, (machine exampleSetup).run start (openRun ++ [.restart]) = some t ∧
      ((t.pipeline.db.wheels.get? 1).map fun row => (row.state, row.blobSha256)) =
        some (.needMetadata, none) ∧
      (machine exampleSetup).Along (Restores exampleSetup) start (openRun ++ [.restart]) := by
  have hcompute : ((machine exampleSetup).run start (openRun ++ [.restart])).map (fun t =>
      (t.pipeline.db.wheels.get? 1).map fun row => (row.state, row.blobSha256)) =
      some (some (.needMetadata, none)) := by
    decide
  obtain ⟨t, hrun, hrow⟩ := Option.map_eq_some_iff.mp hcompute
  exact ⟨t, hrun, hrow,
    (restores_throughout_iff exampleCodec_faithful hrun).mpr (by decide)⟩

/-- The file of the archived wheel leaves the index, and the daemon dies: the blob is
taken away and the tombstone keeps its link. -/
theorem tombstone_keeps_dangling_link :
    ∃ s, (machine exampleSetup).run start (openRun ++ syncedWith []) = some s ∧
      ¬(machine exampleSetup).Along (Restores exampleSetup) start
        (openRun ++ syncedWith [] ++ [.restart]) := by
  have hcompute : ((machine exampleSetup).run start (openRun ++ syncedWith [])).map (fun s =>
      ((s.restart.pipeline.db.wheels.get? 1).bind WheelRow.blobSha256,
        s.restart.pipeline.db.blobs.rows)) = some (some (exampleCodec.hexdigest abc), []) := by
    decide
  obtain ⟨s, hrun, hfacts⟩ := Option.map_eq_some_iff.mp hcompute
  obtain ⟨hlink, hblobs⟩ := Prod.mk.inj hfacts
  obtain ⟨row, hrow, hsha⟩ := Option.bind_eq_some_iff.mp hlink
  refine ⟨s, hrun, fun hrestores => ?_⟩
  have hrecovered : Recovered exampleSetup s := ((Machine.along_append hrun).mp hrestores).2.1
  obtain ⟨location, -, -, hlocation, -⟩ := hrecovered.readable 1 row hrow _ hsha
  obtain ⟨blob, hblob, -⟩ := Option.map_eq_some_iff.mp hlocation
  have hmem := Table.get?_eq_some_iff.mp hblob
  rw [hblobs] at hmem
  cases hmem

end Running

end RerollSync.Daemon
