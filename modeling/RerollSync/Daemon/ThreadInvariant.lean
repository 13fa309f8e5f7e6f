import RerollSync.Daemon.ArchiveThread

/-!
# The archive thread at work

What the files and the tables say of each other between any two statements of the
archive thread, whatever the other threads commit in between.
-/

namespace RerollSync.Daemon

open RerollSync.Support RerollSync.Store RerollSync.Dispatcher RerollSync.Ingest
open RerollSync.Pipeline RerollSync.Fetch RerollSync.Archive

/-! ## Linked wheels -/

/-- Every wheel that is linked to a blob is linked to one in the archive. -/
def Linked (db : Db) : Prop :=
  ∀ id row, db.wheels.get? id = some row → ∀ sha256 ∈ row.blobSha256,
    ∃ blob, db.blobs.get? sha256 = some blob

/-- A move links a wheel to no blob but the one that has just been fetched. -/
theorem blobSha256_apply (move : Move) (m : ℕ) (w : Wheel) {sha256 : String}
    (h : (move.apply m w).row.blobSha256 = some sha256) :
    w.row.blobSha256 = some sha256 ∨ ∃ clock, move = .archived clock sha256 := by
  cases move with
  | archived clock sha256' =>
      obtain rfl := Option.some.inj h
      exact Or.inr ⟨clock, rfl⟩
  | changed settings change =>
      rw [blobSha256_changed] at h
      exact Or.inl (Option.ite_none_left_eq_some.mp h).2
  | unquarantined nowIso =>
      by_cases hstate : w.row.state = .quarantined
      · have hrow : (Move.apply m w (.unquarantined nowIso)).row =
            enterState .needMetadata m nowIso w.row := if_pos hstate
        exact Or.inl ((congrArg WheelRow.blobSha256 hrow).symm.trans h)
      · have hrow : (Move.apply m w (.unquarantined nowIso)).row = w.row := if_neg hstate
        exact Or.inl ((congrArg WheelRow.blobSha256 hrow).symm.trans h)
  | recovered => cases h
  | _ => exact Or.inl h

variable {M : Type}

/-- A step that takes no blob away leaves every wheel linked, when the wheels that it
inserts are. -/
theorem linked_step {env : Env M} {s s' : State} {e : Event} (hs : Intact s) (h : Linked s.db)
    (hstep : Daemon.step env s e = some s')
    (hrecover : ∀ segmentId chunkSize, e ≠ .recover segmentId chunkSize)
    (hborn : ∀ row, bornAt env s e row → ∀ sha256 ∈ row.blobSha256,
      ∃ blob, s.db.blobs.get? sha256 = some blob) : Linked s'.db := by
  have hkept : ∀ {sha256}, (∃ blob, s.db.blobs.get? sha256 = some blob) →
      ∃ blob, s'.db.blobs.get? sha256 = some blob := by
    rintro sha256 ⟨blob, hblob⟩
    obtain ⟨_, blob', heq, hblob'⟩ := inBlobs_step hstep hrecover ⟨sha256, blob, rfl, hblob⟩
    exact ⟨blob', Option.some.inj heq ▸ hblob'⟩
  have hmoves := moves_step hs hstep
  intro id row' hrow' sha256 hsha
  cases hrow : s.db.wheels.get? id with
  | none => exact hkept (hborn row' (hmoves.fresh id row' hrow hrow') sha256 hsha)
  | some row =>
      obtain ⟨m, hwheel⟩ := hmoves.kept id row hrow
      obtain ⟨hget, -⟩ := Db.wheel?_eq_some_iff.mp hwheel
      obtain rfl : row' = (moved m (s.db.wheelAt id row) (moveAt env s e id row)).row :=
        Option.some.inj (hrow'.symm.trans hget)
      cases hmove : moveAt env s e id row with
      | none =>
          rw [hmove] at hsha
          exact hkept (h id row hrow sha256 hsha)
      | some move =>
          rw [hmove] at hsha
          rcases blobSha256_apply move m _ hsha with hold | ⟨clock, rfl⟩
          · exact hkept (h id row hrow sha256 hold)
          · obtain ⟨_, blob, heq, hblob⟩ := inBlobs_of_archived hstep hmove
            exact ⟨blob, Option.some.inj heq ▸ hblob⟩

namespace Running

variable {x : Setup M} {s s' : Running}

/-! ## Files and tables -/

/-- The bytes lie in a sealed segment, at the location. -/
def ArchivedAt (x : Setup M) (disk : Disk) (location : BlobLocation) (data : Bytes) : Prop :=
  ∃ blocks footer trailer file, SealedFile x.codec x.archive blocks footer trailer file ∧
    disk.get? (location.segmentId, .zst) = some file ∧
    Located x.codec location.segmentId blocks data location

/-- What a seal has computed, when its footer is written and the rename is to come. -/
def footerOf : Phase → Option SegmentStats
  | .footed _ stats => some stats
  | _ => none

/-- The segment that has been renamed and not yet recorded as sealed. -/
def unrecorded : Phase → Option ℕ
  | .renamed _ stats => some stats.segmentId
  | _ => none

/-- The writer of a segment. -/
structure Owns (x : Setup M) (w : SegmentWriter) (id : ℕ) : Prop where
  segmentId : w.segmentId = id
  settings : w.settings = x.archive

/-- The current writer holds `blocks`, in its file and its open block, or has held
them when it came to write the footer. -/
def Writing (x : Setup M) (s : Running) (id : ℕ) (blocks : List (List Bytes)) : Prop :=
  s.current = some id ∧ ∃ w, s.writers.get? id = some w ∧
    match footerOf s.phase with
    | none => OpenOn x.codec w s.disk blocks ∧ Owns x w id
    | some stats => ∃ w₀ disk₀, OpenOn x.codec w₀ disk₀ blocks ∧ Owns x w₀ id ∧
        w₀.writeFooter x.codec disk₀ = .ok (stats, w, s.disk)

theorem writing_iff {id : ℕ} {blocks : List (List Bytes)} (hphase : footerOf s.phase = none) :
    Writing x s id blocks ↔ s.current = some id ∧ ∃ w, s.writers.get? id = some w ∧
      OpenOn x.codec w s.disk blocks ∧ Owns x w id := by
  rw [Writing, hphase]

/-- A segment that is being written has its `.open` file. -/
theorem Writing.file {id : ℕ} {blocks : List (List Bytes)} (h : Writing x s id blocks) :
    ∃ file, s.disk.get? (id, .opened) = some file := by
  obtain ⟨-, w, -, hw⟩ := h
  cases hphase : footerOf s.phase with
  | none =>
      rw [hphase] at hw
      obtain ⟨⟨-, file, flushed, current, hfile, -⟩, howns⟩ := hw
      exact ⟨file, howns.segmentId ▸ hfile⟩
  | some stats =>
      rw [hphase] at hw
      obtain ⟨w₀, disk₀, -, howns, hwrite⟩ := hw
      obtain ⟨-, -, -, hfile⟩ := writeFooter_spec hwrite
      exact howns.segmentId ▸ hfile

/-- What holds between the files and the tables `segments` and `blobs`. -/
structure Filed (x : Setup M) (s : Running) : Prop where
  rows : ∀ id suffix file, s.disk.get? (id, suffix) = some file →
    ∃ row, s.pipeline.db.segments.get? id = some row
  opened : ∀ id file, s.disk.get? (id, .opened) = some file →
    s.disk.get? (id, .zst) = none ∧ isSealed s.pipeline.db id = false
  sealed : ∀ id file, s.disk.get? (id, .zst) = some file →
    isSealed s.pipeline.db id = true ∨ unrecorded s.phase = some id
  blobs : ∀ sha256 location, ArchiveStore.locationFor sha256 s.pipeline.db = some location →
    ∃ data, x.codec.hexdigest data = sha256 ∧ (ArchivedAt x s.disk location data ∨
      ∃ blocks, Writing x s location.segmentId blocks ∧
        Located x.codec location.segmentId blocks data location)

/-- The current writer, if there is one, is open. -/
def CurrentOpen (x : Setup M) (s : Running) : Prop :=
  ∀ id, s.current = some id → ∃ blocks, Writing x s id blocks

/-- No segment is being written. -/
def Unwritten (x : Setup M) (s : Running) : Prop := ∀ id blocks, ¬Writing x s id blocks

/-- The bytes of the item have a `blobs` row. -/
def Has (x : Setup M) (s : Running) (item : HandoffItem) : Prop :=
  ∃ blob, s.pipeline.db.blobs.get? (x.codec.hexdigest item.data) = some blob

/-- What the thread relies on in a phase. -/
def Fits (x : Setup M) (s : Running) : Phase → Prop
  | .idle | .taken _ => CurrentOpen x s
  | .allocated item id stored => Unwritten x s ∧ (stored = true → Has x s item) ∧
      (∃ row, s.pipeline.db.segments.get? id = some row) ∧ isSealed s.pipeline.db id = false ∧
      ∀ suffix, s.disk.get? (id, suffix) = none
  | .added item location => ∃ blocks, Writing x s location.segmentId blocks ∧
      Located x.codec location.segmentId blocks item.data location
  | .located item => Has x s item ∧ ∃ id blocks, Writing x s id blocks
  | .footed item stats => Has x s item ∧ ∃ blocks, Writing x s stats.segmentId blocks
  | .renamed item stats => Has x s item ∧ Unwritten x s ∧
      (∃ file, s.disk.get? (stats.segmentId, .zst) = some file) ∧
      isSealed s.pipeline.db stats.segmentId = false
  | .sealed item => Has x s item ∧ Unwritten x s
  | .stored item => Has x s item ∧ CurrentOpen x s

/-- The invariant of the daemon between two restarts. -/
structure Sound (x : Setup M) (s : Running) : Prop where
  intact : Intact s.pipeline
  linked : Linked s.pipeline.db
  filed : Filed x s
  fits : Fits x s s.phase

/-! ## What the other threads leave alone -/

/-- The archive is as it was. -/
structure Alike (s s' : Running) : Prop where
  archive : s'.pipeline.db.archive = s.pipeline.db.archive
  disk : s'.disk = s.disk
  writers : s'.writers = s.writers
  current : s'.current = s.current
  footer : footerOf s'.phase = footerOf s.phase
  unrecorded : unrecorded s'.phase = unrecorded s.phase

namespace Alike

theorem blobs (h : Alike s s') : s'.pipeline.db.blobs = s.pipeline.db.blobs :=
  congrArg Prod.fst h.archive

theorem segments (h : Alike s s') : s'.pipeline.db.segments = s.pipeline.db.segments :=
  congrArg Prod.snd h.archive

theorem isSealed (h : Alike s s') (id : ℕ) :
    isSealed s'.pipeline.db id = isSealed s.pipeline.db id := by
  rw [Running.isSealed, h.segments, Running.isSealed]

theorem writing_iff (h : Alike s s') {id : ℕ} {blocks : List (List Bytes)} :
    Writing x s' id blocks ↔ Writing x s id blocks := by
  rw [Writing, Writing, h.current, h.writers, h.footer, h.disk]

theorem has_iff (h : Alike s s') {item : HandoffItem} : Has x s' item ↔ Has x s item := by
  rw [Has, Has, h.blobs]

theorem filed (h : Alike s s') (hs : Filed x s) : Filed x s' where
  rows id suffix file hfile := by
    rw [h.segments]
    exact hs.rows id suffix file (h.disk ▸ hfile)
  opened id file hfile := by
    rw [h.disk, h.isSealed]
    exact hs.opened id file (h.disk ▸ hfile)
  sealed id file hfile := by
    rw [h.isSealed, h.unrecorded]
    exact hs.sealed id file (h.disk ▸ hfile)
  blobs sha256 location hlocation := by
    rw [ArchiveStore.locationFor, h.blobs] at hlocation
    rw [h.disk]
    simp only [h.writing_iff]
    exact hs.blobs sha256 location hlocation

theorem fits (h : Alike s s') {phase : Phase} (hs : Fits x s phase) : Fits x s' phase := by
  cases phase <;>
    simpa only [Fits, CurrentOpen, Unwritten, h.writing_iff, h.has_iff, h.segments, h.isSealed,
      h.disk, h.current] using hs

end Alike

/-! ## The statements of the thread -/

theorem ArchivedAt.mono {disk disk' : Disk} {location : BlobLocation} {data : Bytes}
    (h : ArchivedAt x disk location data)
    (hdisk : ∀ id file, disk.get? (id, .zst) = some file → disk'.get? (id, .zst) = some file) :
    ArchivedAt x disk' location data := by
  obtain ⟨blocks, footer, trailer, file, hfile, hget, hlocated⟩ := h
  exact ⟨blocks, footer, trailer, file, hfile, hdisk _ file hget, hlocated⟩

/-- The archive thread's tables are no concern of the pipeline's. -/
theorem intact_of_archive {s : State} (hs : Intact s) (blobs : Table String BlobRow)
    (segments : Table ℕ SegmentRow) :
    Intact { s with db := { s.db with blobs := blobs, segments := segments } } := by
  refine ⟨sound_of_wheels hs.sound rfl rfl rfl, fun id hnone => ?_, hs.planned⟩
  have hunowned := hs.attached id hnone
  exact ⟨hunowned.wheelRepodata, hunowned.skips, hunowned.work⟩

theorem isSealed_insertSegment {id : ℕ} {db db' : Db} (h : db.insertSegment id = some db')
    (id' : ℕ) : isSealed db' id' = isSealed db id' := by
  obtain ⟨hfree, hdb⟩ := Option.ite_none_left_eq_some.mp h
  obtain rfl := Option.some.inj hdb
  have hnone : db.segments.get? id = none := by simpa using hfree
  simp only [isSealed, Table.get?_insertNew]
  by_cases hid : id' = id
  · simp [hid, hnone]
  · rw [if_neg hid]

theorem isSealed_updateSegment (id : ℕ) (row : SegmentRow) (db : Db) (id' : ℕ) :
    isSealed (db.updateSegment id row) id' =
      if id' = id then (db.segments.get? id).isSome && row.sealedAt.isSome
      else isSealed db id' := by
  simp only [isSealed, Db.updateSegment, Table.get?_modify]
  by_cases hid : id' = id
  · subst hid
    cases db.segments.get? id' <;> simp
  · cases db.segments.get? id' <;> simp [hid]

namespace Sound

/-- The thread goes on, and the archive stays as it is. -/
theorem goOn (h : Sound x s) (phase : Phase) (hfooter : footerOf phase = footerOf s.phase)
    (hunrecorded : unrecorded phase = unrecorded s.phase) (hfits : Fits x s phase) :
    Sound x { s with phase := phase } := by
  have halike : Alike s { s with phase := phase } := ⟨rfl, rfl, rfl, rfl, hfooter, hunrecorded⟩
  exact ⟨h.intact, h.linked, halike.filed h.filed, halike.fits hfits⟩

theorem take (h : Sound x s) (hphase : s.phase = .idle) {i : ℕ} {data : Bytes}
    (htake : s.take x i data = some s') : Sound x s' := by
  obtain ⟨held, -, hrest⟩ := Option.bind_eq_some_iff.mp htake
  split at hrest
  · obtain ⟨-, hrest⟩ := Option.ite_none_right_eq_some.mp hrest
    obtain rfl := Option.some.inj hrest
    have hfits := h.fits
    rw [hphase] at hfits
    exact h.goOn _ (by rw [hphase]; rfl) (by rw [hphase]; rfl) hfits
  · cases hrest

/-- A segment row for an id that no file has. -/
theorem allocate (h : Sound x s) {item : HandoffItem} {stored : Bool}
    (hfooter : footerOf s.phase = none) (hunrecorded : unrecorded s.phase = none)
    (hunwritten : Unwritten x s) (hhas : stored = true → Has x s item)
    (hallocate : s.allocate item stored = some s') : Sound x s' := by
  unfold Running.allocate ArchiveStore.insertSegmentRow at hallocate
  set id := ArchiveStore.nextSegmentId s.store.disk s.store.db
  cases hinsert : s.pipeline.db.insertSegment id with
  | none => simp [store, hinsert] at hallocate
  | some db =>
      simp only [store, hinsert, Option.some.injEq] at hallocate
      subst hallocate
      have hsealed := isSealed_insertSegment hinsert
      obtain ⟨hfree, hdb⟩ := Option.ite_none_left_eq_some.mp hinsert
      obtain rfl := Option.some.inj hdb
      have hnorow : s.pipeline.db.segments.get? id = none := by simpa using hfree
      have hnofile : ∀ suffix, s.disk.get? (id, suffix) = none := by
        intro suffix
        by_contra hsome
        obtain ⟨file, hfile⟩ := Option.ne_none_iff_exists'.mp hsome
        obtain ⟨row, hrow⟩ := h.filed.rows id suffix file hfile
        rw [hnorow] at hrow
        cases hrow
      have hwriting : ∀ id' blocks, ¬Writing x (s.withStore
          { s.store with db := { s.pipeline.db with
            segments := s.pipeline.db.segments.insertNew id ⟨none, none, none, none⟩ } }
          (.allocated item id stored)) id' blocks := by
        rintro id' blocks ⟨hcurrent, w, hw, hopen⟩
        exact hunwritten id' blocks ((writing_iff hfooter).mpr ⟨hcurrent, w, hw, hopen⟩)
      refine ⟨intact_of_archive h.intact _ _, h.linked, ⟨?_, ?_, ?_, ?_⟩, ?_⟩
      · intro id' suffix file hfile
        obtain ⟨row, hrow⟩ := h.filed.rows id' suffix file hfile
        refine ⟨row, ?_⟩
        have hne : id' ≠ id := by
          rintro rfl
          rw [hnorow] at hrow
          cases hrow
        exact (Table.get?_insertNew _ _ _ _).trans ((if_neg hne).trans hrow)
      · intro id' file hfile
        obtain ⟨hzst, hopen⟩ := h.filed.opened id' file hfile
        exact ⟨hzst, (hsealed id').trans hopen⟩
      · intro id' file hfile
        refine Or.inl ((hsealed id').trans ?_)
        exact (h.filed.sealed id' file hfile).resolve_right (by rw [hunrecorded]; simp)
      · intro sha256 location hlocation
        obtain ⟨data, hsha, harchived | ⟨blocks, hheld, -⟩⟩ :=
          h.filed.blobs sha256 location hlocation
        · exact ⟨data, hsha, Or.inl harchived⟩
        · exact (hunwritten _ blocks hheld).elim
      · refine ⟨hwriting, hhas, ⟨⟨none, none, none, none⟩, ?_⟩, ?_, hnofile⟩
        · exact (Table.get?_insertNew _ _ _ _).trans (by rw [if_pos rfl, hnorow]; rfl)
        · refine (hsealed id).trans ?_
          rw [isSealed, hnorow]
          rfl

/-- A new writer for the segment that has just been allocated. -/
theorem createWriter (h : Sound x s) {item : HandoffItem} {id : ℕ} {stored : Bool}
    (hphase : s.phase = .allocated item id stored) {store : ArchiveStore}
    (hcreate : s.store.createWriter x.archive id = .ok store) :
    Sound x (s.withStore store (if stored then .stored item else .taken item)) := by
  have hfits := h.fits
  rw [hphase] at hfits
  obtain ⟨hunwritten, hhas, hrow, hunsealed, hnofile⟩ := hfits
  obtain ⟨⟨w, disk⟩, hw, hstore⟩ := bind_eq_ok_iff.mp hcreate
  obtain ⟨disk', hdisk, hw⟩ := bind_eq_ok_iff.mp hw
  obtain ⟨hnew, rfl⟩ := Prod.mk.inj (Except.ok.inj hw)
  obtain rfl := Except.ok.inj hstore
  obtain rfl : disk' = s.disk.set (id, .opened) [] := by
    rw [Disk.create, Running.store, hnofile .opened] at hdisk
    exact (Except.ok.inj hdisk).symm
  have hkept : ∀ key : ℕ × Suffix, key ≠ (id, .opened) →
      (s.disk.set (id, .opened) []).get? key = s.disk.get? key := fun key hkey =>
    Table.get?_set_of_ne _ _ hkey
  have hfooter : footerOf (if stored then Phase.stored item else .taken item) = none := by
    cases stored <;> rfl
  have hopen : OpenOn x.codec w (s.disk.set (id, .opened) []) [[]] ∧ Owns x w id := by
    subst hnew
    exact ⟨⟨rfl, [], [], [], Table.get?_set_self _ _ _, Holds.create x.archive id, rfl⟩, rfl, rfl⟩
  set s' := s.withStore { s.store with
    disk := s.disk.set (id, .opened) []
    writers := s.writers.set id w
    current := some id } (if stored then .stored item else .taken item) with hs'
  have hcurrent : CurrentOpen x s' := by
    intro id' hid
    obtain rfl : id = id' := Option.some.inj hid
    exact ⟨[[]], (writing_iff hfooter).mpr
      ⟨rfl, w, Table.get?_set_self _ _ _, hopen⟩⟩
  refine ⟨h.intact, h.linked, ⟨?_, ?_, ?_, ?_⟩, ?_⟩
  · intro id' suffix file hfile
    by_cases hkey : ((id', suffix) : ℕ × Suffix) = (id, .opened)
    · obtain ⟨rfl, -⟩ := Prod.mk.inj hkey
      exact hrow
    · exact h.filed.rows id' suffix file ((hkept _ hkey).symm.trans hfile)
  · intro id' file hfile
    have hzst : (s.disk.set (id, .opened) []).get? (id', .zst) = s.disk.get? (id', .zst) :=
      hkept _ (by simp)
    by_cases hid : id' = id
    · subst hid
      exact ⟨hzst.trans (hnofile .zst), hunsealed⟩
    · obtain ⟨hnone, hopened⟩ :=
        h.filed.opened id' file ((hkept _ (by simp [hid])).symm.trans hfile)
      exact ⟨hzst.trans hnone, hopened⟩
  · intro id' file hfile
    have hfile' : s.disk.get? (id', .zst) = some file := (hkept _ (by simp)).symm.trans hfile
    refine Or.inl ((h.filed.sealed id' file hfile').resolve_right ?_)
    rw [hphase]
    simp [unrecorded]
  · intro sha256 location hlocation
    obtain ⟨data, hsha, harchived | ⟨blocks, hheld, -⟩⟩ := h.filed.blobs sha256 location hlocation
    · refine ⟨data, hsha, Or.inl (harchived.mono fun id' file hfile => ?_)⟩
      exact (hkept _ (by simp)).trans hfile
    · exact (hunwritten _ blocks hheld).elim
  · cases stored with
    | false => exact hcurrent
    | true => exact ⟨hhas rfl, hcurrent⟩

/-- A record is added to the current segment. -/
theorem addTo (hc : x.codec.Faithful) (h : Sound x s) {item : HandoffItem}
    (hphase : s.phase = .taken item) {id : ℕ} (hcurrent : s.current = some id)
    {location : BlobLocation} {store : ArchiveStore}
    (hadd : s.store.addTo x.codec id item.data = .ok (location, store)) :
    Sound x (s.withStore store (.added item location)) := by
  have hfooter : footerOf s.phase = none := by rw [hphase]; rfl
  have hfits := h.fits
  rw [hphase] at hfits
  obtain ⟨blocks, hblocks⟩ := hfits id hcurrent
  obtain ⟨-, w, hget, hopen, howns⟩ := (writing_iff hfooter).mp hblocks
  obtain ⟨w', hwriter, hadd⟩ := bind_eq_ok_iff.mp hadd
  obtain rfl : w = w' := Option.some.inj (hget.symm.trans (ArchiveStore.get?_of_writer hwriter))
  obtain ⟨⟨location', w', disk'⟩, hresult, hadd⟩ := bind_eq_ok_iff.mp hadd
  obtain ⟨rfl, rfl⟩ := Prod.mk.inj (Except.ok.inj hadd)
  -- whatever the writer held, it holds with the record
  have hgrows : ∀ blocks, OpenOn x.codec w s.disk blocks → ∃ blocks', Extends blocks blocks' ∧
      OpenOn x.codec w' disk' blocks' ∧ Located x.codec id blocks' item.data location' ∧
      Owns x w' id ∧ SameExcept id s.disk disk' := by
    intro blocks hopen
    obtain ⟨location₂, w₂, disk₂, blocks', heq, hopen', hlocated, hext, -, hid', hsettings,
      hsame⟩ := add_of_openOn hc hopen item.data
    obtain ⟨rfl, rfl, rfl⟩ : location' = location₂ ∧ w' = w₂ ∧ disk' = disk₂ := by
      simpa using hresult.symm.trans heq
    rw [howns.segmentId] at hlocated hid' hsame
    exact ⟨blocks', hext, hopen', hlocated, ⟨hid', hsettings.trans howns.settings⟩, hsame⟩
  obtain ⟨blocks₁, -, hopen₁, hlocated₁, howns₁, hsame⟩ := hgrows blocks hopen
  have hkept : ∀ key, key ≠ (id, Suffix.opened) → disk'.get? key = s.disk.get? key := hsame
  have hzst : ∀ id', disk'.get? (id', .zst) = s.disk.get? (id', .zst) := fun id' =>
    hkept _ (by simp)
  have hfile : ∃ file, s.disk.get? (id, .opened) = some file := hblocks.file
  have hwriting : ∀ {blocks}, OpenOn x.codec w' disk' blocks → Writing x
      (s.withStore { s.store with disk := disk', writers := s.writers.set id w' }
        (.added item location')) id blocks := fun hopen' =>
    (writing_iff rfl).mpr ⟨hcurrent, w', Table.get?_set_self _ _ _, hopen', howns₁⟩
  refine ⟨h.intact, h.linked, ⟨?_, ?_, ?_, ?_⟩, ?_⟩
  · intro id' suffix file hfile'
    by_cases hkey : ((id', suffix) : ℕ × Suffix) = (id, .opened)
    · obtain ⟨rfl, -⟩ := Prod.mk.inj hkey
      obtain ⟨file, hfile⟩ := hfile
      exact h.filed.rows id' .opened file hfile
    · exact h.filed.rows id' suffix file ((hkept _ hkey).symm.trans hfile')
  · intro id' file hfile'
    obtain ⟨file', hfile'⟩ : ∃ file, s.disk.get? (id', .opened) = some file := by
      by_cases hid : id' = id
      · exact hid ▸ hfile
      · exact ⟨file, (hkept _ (by simp [hid])).symm.trans hfile'⟩
    obtain ⟨hnone, hunsealed⟩ := h.filed.opened id' file' hfile'
    exact ⟨(hzst id').trans hnone, hunsealed⟩
  · intro id' file hfile'
    refine Or.inl ((h.filed.sealed id' file ((hzst id').symm.trans hfile')).resolve_right ?_)
    rw [hphase]
    simp [unrecorded]
  · intro sha256 location hlocation
    obtain ⟨data, hsha, harchived | ⟨blocks, hheld, hlocated⟩⟩ :=
      h.filed.blobs sha256 location hlocation
    · exact ⟨data, hsha, Or.inl (harchived.mono fun id' file hfile' => (hzst id').trans hfile')⟩
    · obtain ⟨hid, w'', hget', hopen', -⟩ := (writing_iff hfooter).mp hheld
      obtain rfl : id = location.segmentId := Option.some.inj (hcurrent.symm.trans hid)
      obtain rfl : w = w'' := Option.some.inj (hget.symm.trans hget')
      obtain ⟨blocks', hext, hopen'', -⟩ := hgrows blocks hopen'
      exact ⟨data, hsha, Or.inr ⟨blocks', hwriting hopen'', hlocated.mono hext⟩⟩
  · obtain ⟨-, -, -, -, hsegment⟩ := hlocated₁.slice_eq
    exact ⟨blocks₁, hsegment ▸ hwriting hopen₁, hsegment ▸ hlocated₁⟩

/-- The row of the record that has been added. -/
theorem insertBlobRow (h : Sound x s) {item : HandoffItem} {location : BlobLocation}
    (hphase : s.phase = .added item location) {store : ArchiveStore}
    (hinsert : s.store.insertBlobRow location = .ok store) :
    Sound x (s.withStore store (.located item)) := by
  have hfits := h.fits
  rw [hphase] at hfits
  obtain ⟨blocks, hwriting, hlocated⟩ := hfits
  obtain ⟨-, -, -, hsha, -⟩ := hlocated.slice_eq
  unfold ArchiveStore.insertBlobRow at hinsert
  cases hdb : s.pipeline.db.insertBlob location.sha256 location.row with
  | none => simp [Running.store, hdb] at hinsert
  | some db =>
      simp only [Running.store, hdb, Except.ok.injEq] at hinsert
      subst hinsert
      have hwriting' : ∀ {id blocks}, Writing x s id blocks → Writing x
          (s.withStore { s.store with db := db } (.located item)) id blocks := by
        rintro id blocks ⟨hcurrent, w, hw, hopen⟩
        rw [hphase] at hopen
        exact ⟨hcurrent, w, hw, hopen⟩
      have hsegments := ArchiveStore.segments_of_insertBlob hdb
      have hsealed : ∀ id, isSealed db id = isSealed s.pipeline.db id := by
        intro id
        rw [isSealed, hsegments, isSealed]
      obtain ⟨blobs, rfl⟩ := db_insertBlob hdb
      refine ⟨intact_of_archive h.intact _ _, ?_, ⟨h.filed.rows, h.filed.opened, ?_, ?_⟩, ?_, ?_⟩
      · intro id row hrow sha256 hsha256
        obtain ⟨blob, hblob⟩ := h.linked id row hrow sha256 hsha256
        exact ⟨blob, (get?_insertBlob hdb).2 sha256 blob hblob⟩
      · intro id file hfile
        refine Or.inl ((h.filed.sealed id file hfile).resolve_right ?_)
        rw [hphase]
        simp [unrecorded]
      · intro sha256 location' hlocation
        have hlookup := (ArchiveStore.locationFor_of_insertBlob hdb sha256).symm.trans hlocation
        have hold : ∀ {sha256 location'}, ArchiveStore.locationFor sha256 s.pipeline.db =
            some location' → ∃ data, x.codec.hexdigest data = sha256 ∧
              (ArchivedAt x s.disk location' data ∨ ∃ blocks, Writing x (s.withStore { s.store with
                db := { s.pipeline.db with blobs := blobs } } (.located item)) location'.segmentId
                blocks ∧ Located x.codec location'.segmentId blocks data location') := by
          intro sha256 location' hlocation
          obtain ⟨data, hsha, hwhere⟩ := h.filed.blobs sha256 location' hlocation
          refine ⟨data, hsha, hwhere.imp id ?_⟩
          rintro ⟨blocks, hheld, hlocated⟩
          exact ⟨blocks, hwriting' hheld, hlocated⟩
        by_cases heq : sha256 = location.sha256
        · rw [if_pos heq] at hlookup
          cases hfound : ArchiveStore.locationFor location.sha256 s.pipeline.db with
          | some existing =>
              obtain rfl : existing = location' := by simpa [hfound] using hlookup
              exact heq ▸ hold hfound
          | none =>
              obtain rfl : location = location' := by simpa [hfound] using hlookup
              exact ⟨item.data, hsha.symm.trans heq.symm,
                Or.inr ⟨blocks, hwriting' hwriting, hlocated⟩⟩
        · rw [if_neg heq] at hlookup
          exact hold hlookup
      · obtain ⟨blob, hblob⟩ := (get?_insertBlob hdb).1
        exact ⟨blob, hsha ▸ hblob⟩
      · exact ⟨location.segmentId, blocks, hwriting' hwriting⟩

/-- The footer of the current segment is written. -/
theorem writeFooter (h : Sound x s) {item : HandoffItem} (hphase : s.phase = .located item)
    {id : ℕ} (hcurrent : s.current = some id) {w w' : SegmentWriter} {disk : Disk}
    {stats : SegmentStats} (hget : s.writers.get? id = some w)
    (hwrite : w.writeFooter x.codec s.disk = .ok (stats, w', disk)) :
    Sound x { s with
      disk := disk
      writers := s.writers.set id w'
      phase := .footed item stats } := by
  have hfooter : footerOf s.phase = none := by rw [hphase]; rfl
  have hfits := h.fits
  rw [hphase] at hfits
  obtain ⟨hhas, id', blocks, hblocks⟩ := hfits
  obtain rfl : id = id' := Option.some.inj (hcurrent.symm.trans hblocks.1)
  have hfile := hblocks.file
  have hwriting : ∀ {id' blocks}, Writing x s id' blocks → Writing x { s with
      disk := disk
      writers := s.writers.set id w'
      phase := .footed item stats } id' blocks := by
    intro id' blocks hheld
    obtain ⟨hid, w'', hget', hopen, howns⟩ := (writing_iff hfooter).mp hheld
    obtain rfl : id = id' := Option.some.inj (hcurrent.symm.trans hid)
    obtain rfl : w = w'' := Option.some.inj (hget.symm.trans hget')
    exact ⟨hcurrent, w', Table.get?_set_self _ _ _, w, s.disk, hopen, howns, hwrite⟩
  obtain ⟨-, w'', hget', -, howns⟩ := (writing_iff hfooter).mp hblocks
  obtain rfl : w = w'' := Option.some.inj (hget.symm.trans hget')
  obtain ⟨hstats, -, hsame, -⟩ := writeFooter_spec hwrite
  rw [howns.segmentId] at hstats hsame
  have hkept : ∀ key, key ≠ (id, Suffix.opened) → disk.get? key = s.disk.get? key := hsame
  refine ⟨h.intact, h.linked, ⟨?_, ?_, ?_, ?_⟩, hhas, blocks, hstats ▸ hwriting hblocks⟩
  · intro id' suffix file hfile'
    by_cases hkey : ((id', suffix) : ℕ × Suffix) = (id, .opened)
    · obtain ⟨rfl, -⟩ := Prod.mk.inj hkey
      obtain ⟨file, hfile⟩ := hfile
      exact h.filed.rows id' .opened file hfile
    · exact h.filed.rows id' suffix file ((hkept _ hkey).symm.trans hfile')
  · intro id' file hfile'
    obtain ⟨file', hfile'⟩ : ∃ file, s.disk.get? (id', .opened) = some file := by
      by_cases hid : id' = id
      · exact hid ▸ hfile
      · exact ⟨file, (hkept _ (by simp [hid])).symm.trans hfile'⟩
    obtain ⟨hnone, hunsealed⟩ := h.filed.opened id' file' hfile'
    exact ⟨(hkept _ (by simp)).trans hnone, hunsealed⟩
  · intro id' file hfile'
    refine Or.inl ((h.filed.sealed id' file ((hkept _ (by simp)).symm.trans hfile')).resolve_right
      ?_)
    rw [hphase]
    simp [unrecorded]
  · intro sha256 location hlocation
    obtain ⟨data, hsha, harchived | ⟨blocks, hheld, hlocated⟩⟩ :=
      h.filed.blobs sha256 location hlocation
    · refine ⟨data, hsha, Or.inl (harchived.mono fun id' file hfile' => ?_)⟩
      exact (hkept _ (by simp)).trans hfile'
    · exact ⟨data, hsha, Or.inr ⟨blocks, hwriting hheld, hlocated⟩⟩

/-- The file of the current segment gets its final name. -/
theorem rename (h : Sound x s) {item : HandoffItem} {stats : SegmentStats}
    (hphase : s.phase = .footed item stats) {id : ℕ} (hcurrent : s.current = some id)
    {w : SegmentWriter} (hget : s.writers.get? id = some w) {disk : Disk}
    (hrename : s.disk.rename w.segmentId = .ok disk) :
    Sound x { s with
      disk := disk
      writers := s.writers.set id { w with isSealed := true }
      phase := .renamed item stats } := by
  have hfits := h.fits
  rw [hphase] at hfits
  obtain ⟨hhas, blocks, hblocks⟩ := hfits
  obtain rfl : id = stats.segmentId := Option.some.inj (hcurrent.symm.trans hblocks.1)
  -- a seal makes a sealed file of whatever the writer held
  have hseals : ∀ {id' blocks}, Writing x s id' blocks → id' = stats.segmentId ∧
      ∃ blocks' footer trailer file, SealedFile x.codec x.archive blocks' footer trailer file ∧
        disk.get? (stats.segmentId, .zst) = some file ∧
        disk.get? (stats.segmentId, .opened) = none ∧ Extends blocks blocks' ∧
        ∀ key, key.1 ≠ stats.segmentId → disk.get? key = s.disk.get? key := by
    rintro id' blocks ⟨hid, w', hget', hfooted⟩
    obtain rfl : stats.segmentId = id' := Option.some.inj (hcurrent.symm.trans hid)
    obtain rfl : w = w' := Option.some.inj (hget.symm.trans hget')
    rw [hphase] at hfooted
    obtain ⟨w₀, disk₀, hopen, howns, hwrite⟩ := hfooted
    have hseal := sealSegment_of_writeFooter hopen.1 hwrite hrename
    obtain ⟨blocks', footer, trailer, file, hsealed, hzst, hgone, hext, -, -, -, -, hothers⟩ :=
      sealSegment_of_openOn hopen hseal
    rw [howns.settings] at hsealed
    rw [howns.segmentId] at hzst hgone
    refine ⟨rfl, blocks', footer, trailer, file, hsealed, hzst, hgone, hext, fun key hkey => ?_⟩
    obtain ⟨-, hid₀, hsame, -⟩ := writeFooter_spec hwrite
    rw [howns.segmentId] at hothers hsame
    exact (hothers key hkey).trans (hsame key fun heq => hkey (by rw [heq])).symm
  obtain ⟨-, -, -, -, file, -, hzst, hgone, -, hothers⟩ := hseals hblocks
  obtain ⟨openFile, hopenFile⟩ := hblocks.file
  obtain ⟨hnozst, hunsealed⟩ := h.filed.opened _ openFile hopenFile
  have hkept : ∀ id' file', s.disk.get? (id', .zst) = some file' →
      disk.get? (id', .zst) = some file' := by
    intro id' file' hfile'
    have hne : id' ≠ stats.segmentId := by
      rintro rfl
      rw [hnozst] at hfile'
      cases hfile'
    exact (hothers _ hne).trans hfile'
  refine ⟨h.intact, h.linked, ⟨?_, ?_, ?_, ?_⟩, hhas, ?_, ⟨file, hzst⟩, hunsealed⟩
  · intro id' suffix file' hfile'
    by_cases hid : id' = stats.segmentId
    · subst hid
      exact h.filed.rows _ .opened openFile hopenFile
    · exact h.filed.rows id' suffix file' ((hothers _ hid).symm.trans hfile')
  · intro id' file' hfile'
    have hne : id' ≠ stats.segmentId := by
      rintro rfl
      rw [hgone] at hfile'
      cases hfile'
    obtain ⟨hnone, hopened⟩ := h.filed.opened id' file' ((hothers _ hne).symm.trans hfile')
    exact ⟨(hothers _ hne).trans hnone, hopened⟩
  · intro id' file' hfile'
    by_cases hid : id' = stats.segmentId
    · exact Or.inr (congrArg some hid.symm)
    · refine Or.inl ((h.filed.sealed id' file' ((hothers _ hid).symm.trans hfile')).resolve_right
        ?_)
      rw [hphase]
      simp [unrecorded]
  · intro sha256 location hlocation
    obtain ⟨data, hsha, harchived | ⟨blocks, hheld, hlocated⟩⟩ :=
      h.filed.blobs sha256 location hlocation
    · exact ⟨data, hsha, Or.inl (harchived.mono hkept)⟩
    · obtain ⟨hid, blocks', footer, trailer, file', hsealed, hfile', -, hext, -⟩ := hseals hheld
      exact ⟨data, hsha, Or.inl ⟨blocks', footer, trailer, file', hsealed, hid ▸ hfile',
        hlocated.mono hext⟩⟩
  · intro id' blocks hheld
    obtain ⟨hid, w', hget', hopen, -⟩ := (writing_iff rfl).mp hheld
    obtain rfl : stats.segmentId = id' := Option.some.inj (hcurrent.symm.trans hid)
    obtain rfl := Option.some.inj ((Table.get?_set_self _ _ _).symm.trans hget')
    cases hopen.1

/-- The row of the segment is updated. -/
theorem commitSeal (h : Sound x s) {item : HandoffItem} {stats : SegmentStats}
    (hphase : s.phase = .renamed item stats) (now : String) :
    Sound x { s with
      pipeline := { s.pipeline with
        db := s.pipeline.db.updateSegment stats.segmentId (stats.row now) }
      phase := .sealed item } := by
  have hfits := h.fits
  rw [hphase] at hfits
  obtain ⟨hhas, hunwritten, ⟨file, hzst⟩, -⟩ := hfits
  obtain ⟨row, hrow⟩ := h.filed.rows _ .zst file hzst
  have hsealed := isSealed_updateSegment stats.segmentId (stats.row now) s.pipeline.db
  have hwriting : ∀ id blocks, ¬Writing x { s with
      pipeline := { s.pipeline with
        db := s.pipeline.db.updateSegment stats.segmentId (stats.row now) }
      phase := .sealed item } id blocks := by
    rintro id blocks ⟨hcurrent, w, hw, hopen⟩
    refine hunwritten id blocks ⟨hcurrent, w, hw, ?_⟩
    rw [hphase]
    exact hopen
  refine ⟨intact_of_archive h.intact _ _, h.linked, ⟨?_, ?_, ?_, ?_⟩, hhas, hwriting⟩
  · intro id suffix file hfile
    obtain ⟨row, hrow⟩ := h.filed.rows id suffix file hfile
    exact ⟨_, (Table.get?_modify _ _ _).trans (by rw [hrow]; rfl)⟩
  · intro id file' hfile'
    obtain ⟨hnone, hunsealed⟩ := h.filed.opened id file' hfile'
    have hne : id ≠ stats.segmentId := by
      rintro rfl
      rw [hnone] at hzst
      cases hzst
    exact ⟨hnone, (hsealed id).trans ((if_neg hne).trans hunsealed)⟩
  · intro id file' hfile'
    refine Or.inl ((hsealed id).trans ?_)
    by_cases hid : id = stats.segmentId
    · rw [if_pos hid, hrow]
      rfl
    · rw [if_neg hid]
      refine (h.filed.sealed id file' hfile').resolve_right ?_
      rw [hphase]
      exact fun heq => hid (Option.some.inj heq).symm
  · intro sha256 location hlocation
    obtain ⟨data, hsha, harchived | ⟨blocks, hheld, -⟩⟩ := h.filed.blobs sha256 location hlocation
    · exact ⟨data, hsha, Or.inl harchived⟩
    · exact (hunwritten _ blocks hheld).elim

/-- A step of another thread. -/
theorem pipeline (h : Sound x s) {e : Pipeline.Event} {p : State}
    (hlinkable : Linkable s.pipeline e)
    (hstep : Daemon.step x.env s.pipeline (.pipeline e) = some p) :
    Sound x { s with pipeline := p } := by
  have halike : Alike s { s with pipeline := p } :=
    ⟨archive_pipeline (step_pipeline hstep).2.1, rfl, rfl, rfl, rfl, rfl⟩
  refine ⟨intact_step h.intact hstep, ?_, halike.filed h.filed, halike.fits h.fits⟩
  refine linked_step h.intact h.linked hstep (by simp) fun row hborn sha256 hsha => ?_
  cases e with
  | applySync name nowIso =>
      obtain ⟨plan, hsync, w, hw, -, m, rfl⟩ := hborn
      exact Option.isSome_iff_exists.mp (hlinkable (.plan plan) hsync w hw sha256 hsha)
  | _ => exact hborn.elim

/-- The `Ok` of the fetch links the wheel to the blob that is there. -/
theorem applyOk (h : Sound x s) {item : HandoffItem} (hphase : s.phase = .stored item) {i : ℕ}
    {clock : Clock} {p : State}
    (hstep : Pipeline.step x.env s.pipeline (.archive i item.data clock) = some p) :
    Sound x { s with pipeline := p, phase := .idle } := by
  have hfits := h.fits
  rw [hphase] at hfits
  obtain ⟨⟨blob, hblob⟩, hcurrent⟩ := hfits
  have halike : Alike s { s with pipeline := p, phase := .idle } :=
    ⟨archive_pipeline hstep, rfl, rfl, rfl, by rw [hphase]; rfl, by rw [hphase]; rfl⟩
  have hdaemon : Daemon.step x.env s.pipeline (.archive i item.data blob clock) = some p := by
    have hinsert : s.pipeline.db.insertBlob (x.env.sha256 item.data) blob =
        some s.pipeline.db := by
      refine if_pos ?_
      exact Option.isSome_iff_exists.mpr ⟨blob, hblob⟩
    exact Option.bind_eq_some_iff.mpr ⟨s.pipeline.db, hinsert, hstep⟩
  refine ⟨intact_step h.intact hdaemon, ?_, halike.filed h.filed,
    halike.fits (show Fits x s .idle from hcurrent)⟩
  exact linked_step h.intact h.linked hdaemon (by simp) fun row hborn => hborn.elim

/-- Whatever the thread does next. -/
theorem advance (hc : x.codec.Faithful) (h : Sound x s) {k : Choice}
    (hadvance : s.advance x k = some s') : Sound x s' := by
  cases hphase : s.phase with
  | idle =>
      simp only [Running.advance, hphase] at hadvance
      exact h.take hphase hadvance
  | taken item =>
      have hfooter : footerOf s.phase = none := by rw [hphase]; rfl
      have hunrecorded : unrecorded s.phase = none := by rw [hphase]; rfl
      cases hcurrent : s.current with
      | none =>
          simp only [Running.advance, hphase, hcurrent] at hadvance
          refine h.allocate hfooter hunrecorded (fun id blocks hheld => ?_) (by simp) hadvance
          rw [hheld.1] at hcurrent
          cases hcurrent
      | some id =>
          cases hadd : s.store.addTo x.codec id item.data with
          | error e => simp [Running.advance, hphase, hcurrent, hadd] at hadvance
          | ok result =>
              obtain ⟨location, store⟩ := result
              simp only [Running.advance, hphase, hcurrent, hadd, Option.some.injEq] at hadvance
              exact hadvance ▸ h.addTo hc hphase hcurrent hadd
  | allocated item id stored =>
      cases hcreate : s.store.createWriter x.archive id with
      | error e => simp [Running.advance, hphase, hcreate] at hadvance
      | ok store =>
          simp only [Running.advance, hphase, hcreate, Option.some.injEq] at hadvance
          exact hadvance ▸ h.createWriter hphase hcreate
  | added item location =>
      cases hinsert : s.store.insertBlobRow location with
      | error e => simp [Running.advance, hphase, hinsert] at hadvance
      | ok store =>
          simp only [Running.advance, hphase, hinsert, Option.some.injEq] at hadvance
          exact hadvance ▸ h.insertBlobRow hphase hinsert
  | located item =>
      simp only [Running.advance, hphase] at hadvance
      by_cases hseal : k.shouldSeal = true
      · rw [if_pos hseal] at hadvance
        obtain ⟨id, hcurrent, hadvance⟩ := Option.bind_eq_some_iff.mp hadvance
        obtain ⟨w, hget, hadvance⟩ := Option.bind_eq_some_iff.mp hadvance
        cases hwrite : w.writeFooter x.codec s.disk with
        | error e => simp [hwrite] at hadvance
        | ok result =>
            obtain ⟨stats, w', disk⟩ := result
            simp only [hwrite, Option.some.injEq] at hadvance
            exact hadvance ▸ h.writeFooter hphase hcurrent hget hwrite
      · rw [if_neg hseal] at hadvance
        obtain rfl := Option.some.inj hadvance
        have hfits := h.fits
        rw [hphase] at hfits
        refine h.goOn _ (by rw [hphase]; rfl) (by rw [hphase]; rfl) ⟨hfits.1, ?_⟩
        intro id hcurrent
        obtain ⟨-, id', blocks, hblocks⟩ := hfits
        obtain rfl : id' = id := Option.some.inj (hblocks.1.symm.trans hcurrent)
        exact ⟨blocks, hblocks⟩
  | footed item stats =>
      simp only [Running.advance, hphase] at hadvance
      obtain ⟨id, hcurrent, hadvance⟩ := Option.bind_eq_some_iff.mp hadvance
      obtain ⟨w, hget, hadvance⟩ := Option.bind_eq_some_iff.mp hadvance
      cases hrename : s.disk.rename w.segmentId with
      | error e => simp [hrename] at hadvance
      | ok disk =>
          simp only [hrename, Option.some.injEq] at hadvance
          exact hadvance ▸ h.rename hphase hcurrent hget hrename
  | renamed item stats =>
      simp only [Running.advance, hphase, Option.some.injEq] at hadvance
      exact hadvance ▸ h.commitSeal hphase k.clock.nowIso
  | sealed item =>
      simp only [Running.advance, hphase] at hadvance
      have hfits := h.fits
      rw [hphase] at hfits
      exact h.allocate (by rw [hphase]; rfl) (by rw [hphase]; rfl) hfits.2 (fun _ => hfits.1)
        hadvance
  | stored item =>
      simp only [Running.advance, hphase] at hadvance
      obtain ⟨-, hadvance⟩ := Option.ite_none_right_eq_some.mp hadvance
      obtain ⟨p, hstep, rfl⟩ := Option.map_eq_some_iff.mp hadvance
      exact h.applyOk hphase hstep

theorem start : Sound x Running.start where
  intact := intact_start
  linked id row hrow := by cases hrow
  filed := by
    constructor
    · intro id suffix file hfile
      cases hfile
    · intro id file hfile
      cases hfile
    · intro id file hfile
      cases hfile
    · intro sha256 location hlocation
      cases hlocation
  fits id hcurrent := by cases hcurrent

end Sound

end Running

end RerollSync.Daemon
