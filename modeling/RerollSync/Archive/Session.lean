import RerollSync.Archive.Store
import RerollSync.Support.Machine

/-!
# Archive sessions

A store in use: records are added, writers are opened and sealed, and the store's
reader is used in between, in any order.  The invariant says what every writer,
every `blobs` row and every cache stands for.
-/

namespace RerollSync.Archive

open RerollSync.Support
open RerollSync.Store (Bytes Db BlobRow SegmentRow)

/-- What a method of the reader returns or raises. -/
def Read.value {α : Type} (m : Read α) (r : Reader) : Except ArchiveError α :=
  match m r with
  | .ok a _ => .ok a
  | .error e _ => .error e

/-- The reader after a method. -/
def Read.after {α : Type} (m : Read α) (r : Reader) : Reader :=
  match m r with
  | .ok _ r' => r'
  | .error _ r' => r'

/-- A method leaves valid caches. -/
theorem Reads.valid_after {α : Type} {c : Codec} {disk : Disk} {m : Read α}
    {value : Except ArchiveError α} (h : Reads c disk m value) {r : Reader} (hr : r.Valid c disk) :
    (m.after r).Valid c disk := by
  obtain ⟨r', hr', hrun⟩ := h r hr
  cases value <;> simpa only [Read.after, hrun] using hr'

/-- A method returns its value whatever is cached. -/
theorem Reads.value_eq {α : Type} {c : Codec} {disk : Disk} {m : Read α}
    {value : Except ArchiveError α} (h : Reads c disk m value) {r : Reader} (hr : r.Valid c disk) :
    m.value r = value := by
  obtain ⟨r', -, hrun⟩ := h r hr
  cases value <;> simp only [Read.value, hrun]

/-- What `get` returns or raises does not depend on the caches. -/
theorem reads_get {c : Codec} {disk : Disk} (db : Db) (sha256 : String) :
    Reads c disk (ArchiveStore.get c disk db sha256)
      (match ArchiveStore.locationFor sha256 db with
      | none => .error (.unknown sha256)
      | some location => do
          let block ← loadPayload c disk location.segmentId location.blockNo
          Reader.checkRecord c location block) := by
  unfold ArchiveStore.get
  cases ArchiveStore.locationFor sha256 db with
  | none => exact Reads.lift (.error (.unknown sha256))
  | some location => exact reads_read location

/-- A store, the locations that `SegmentWriter.add` has returned, and what
`ArchiveStore.add` was called with. -/
structure Session where
  store : ArchiveStore
  added : List (Bytes × BlobLocation)
  stored : List Bytes

/-- A session over an empty directory and an empty database. -/
def Session.initial : Session := ⟨.initial .empty, [], []⟩

inductive Use
  | add (data : Bytes)
  | addTo (id : ℕ) (data : Bytes)
  | openWriter
  | sealWriter (id : ℕ) (now : String)
  | get (sha256 : String)
  | read (location : BlobLocation)
  | iterRecords (id : ℕ)

/-- Use the store's reader. -/
def Session.useReader {α : Type} (m : Read α) (s : Session) : Session :=
  { s with store := { s.store with reader := m.after s.store.reader } }

/-- A writer that is already sealed says so and nothing changes; any other
exception ends the session. -/
def Session.raised (s : Session) : ArchiveError → Option Session
  | .alreadySealed _ => some s
  | _ => none

/-- One call. -/
def Session.step (c : Codec) (settings : Settings) (s : Session) : Use → Option Session
  | .add data =>
      match s.store.add c settings data with
      | .ok (location, store) => some ⟨store, s.added ++ [(data, location)], s.stored ++ [data]⟩
      | .error _ => none
  | .addTo id data =>
      match s.store.addTo c id data with
      | .ok (location, store) => some ⟨store, s.added ++ [(data, location)], s.stored⟩
      | .error e => s.raised e
  | .openWriter =>
      match s.store.openWriter settings with
      | .ok store => some { s with store := store }
      | .error _ => none
  | .sealWriter id now =>
      match s.store.sealWriter c id now with
      | .ok (_, store) => some { s with store := store }
      | .error e => s.raised e
  | .get sha256 => some (s.useReader (ArchiveStore.get c s.store.disk s.store.db sha256))
  | .read location => some (s.useReader (Reader.read c s.store.disk location))
  | .iterRecords id => some (s.useReader (Reader.iterRecords c s.store.disk id))

/-- Sessions with a given codec and given arguments for the writers. -/
def sessions (c : Codec) (settings : Settings) : Machine Session Use := ⟨Session.step c settings⟩

/-! ## The invariant -/

/-- What was added to a segment. -/
def addedTo (id : ℕ) (added : List (Bytes × BlobLocation)) : List (Bytes × BlobLocation) :=
  added.filter fun x => x.2.segmentId = id

/-- The distinct records added to a segment, each where it was added first. -/
def recordsOf (id : ℕ) (added : List (Bytes × BlobLocation)) : List Bytes :=
  ((addedTo id added).map Prod.fst).eraseDups

/-- The blocks of a segment hold what was added to it, where `add` said. -/
structure SegmentHolds (c : Codec) (id : ℕ) (added : List (Bytes × BlobLocation))
    (blocks : List (List Bytes)) : Prop where
  located : ∀ x ∈ addedTo id added, Located c id blocks x.1 x.2
  records : blocks.flatten = recordsOf id added

/-- The file of a sealed segment is there and holds what was added. -/
def SealedOn (c : Codec) (settings : Settings) (disk : Disk) (id : ℕ)
    (added : List (Bytes × BlobLocation)) : Prop :=
  ∃ blocks footer trailer file, SealedFile c settings blocks footer trailer file ∧
    disk.get? (id, .zst) = some file ∧ SegmentHolds c id added blocks

/-- An open writer holds what was added, and no sealed file has its id. -/
def Writing (c : Codec) (disk : Disk) (id : ℕ) (w : SegmentWriter)
    (added : List (Bytes × BlobLocation)) : Prop :=
  ∃ blocks, OpenOn c w disk blocks ∧ disk.get? (id, .zst) = none ∧ SegmentHolds c id added blocks

/-- A writer and the files it stands for. -/
structure WriterFits (c : Codec) (settings : Settings) (disk : Disk)
    (added : List (Bytes × BlobLocation)) (id : ℕ) (w : SegmentWriter) : Prop where
  segmentId : w.segmentId = id
  settings_eq : w.settings = settings
  holds : if w.isSealed then SealedOn c settings disk id added else Writing c disk id w added

/-- The invariant of a session. -/
structure Session.Sound (c : Codec) (settings : Settings) (s : Session) : Prop where
  writers : ∀ id w, s.store.writers.get? id = some w →
    WriterFits c settings s.store.disk s.added id w
  current : ∀ id, s.store.current = some id →
    ∃ w, s.store.writers.get? id = some w ∧ w.isSealed = false
  segments : ∀ id w, s.store.writers.get? id = some w →
    ∃ row, s.store.db.segments.get? id = some row
  files : ∀ id suffix file, s.store.disk.get? (id, suffix) = some file →
    ∃ w, s.store.writers.get? id = some w
  added : ∀ x ∈ s.added, ∃ w, s.store.writers.get? x.2.segmentId = some w
  blobs : ∀ sha256 location, ArchiveStore.locationFor sha256 s.store.db = some location →
    ∃ data, (data, location) ∈ s.added ∧ c.hexdigest data = sha256
  known : ∀ data ∈ s.stored,
    ∃ location, ArchiveStore.locationFor (c.hexdigest data) s.store.db = some location
  reader : s.store.reader.Valid c s.store.disk

section Transfer

variable {c : Codec} {settings : Settings} {disk disk' : Disk}
  {added added' : List (Bytes × BlobLocation)} {id : ℕ}

theorem SegmentHolds.congr {blocks : List (List Bytes)} (h : SegmentHolds c id added blocks)
    (hadded : addedTo id added' = addedTo id added) : SegmentHolds c id added' blocks where
  located := by
    rw [hadded]
    exact h.located
  records := by rw [h.records, recordsOf, recordsOf, hadded]

/-- A writer whose files and records did not change still fits. -/
theorem WriterFits.congr {w : SegmentWriter} (h : WriterFits c settings disk added id w)
    (hdisk : ∀ suffix, disk'.get? (id, suffix) = disk.get? (id, suffix))
    (hadded : addedTo id added' = addedTo id added) : WriterFits c settings disk' added' id w where
  segmentId := h.segmentId
  settings_eq := h.settings_eq
  holds := by
    have hholds := h.holds
    cases hsealed : w.isSealed with
    | true =>
        rw [hsealed, if_pos rfl] at hholds
        rw [if_pos rfl]
        obtain ⟨blocks, footer, trailer, file, hfile, hget, hseg⟩ := hholds
        exact ⟨blocks, footer, trailer, file, hfile, (hdisk .zst).trans hget, hseg.congr hadded⟩
    | false =>
        rw [hsealed, if_neg (by simp)] at hholds
        rw [if_neg (by simp)]
        obtain ⟨blocks, ⟨hopen, file, flushed, current, hget, hw⟩, hzst, hseg⟩ := hholds
        refine ⟨blocks, ⟨hopen, file, flushed, current, ?_, hw⟩, (hdisk .zst).trans hzst,
          hseg.congr hadded⟩
        rw [h.segmentId] at hget ⊢
        exact (hdisk .opened).trans hget

theorem addedTo_append (data : Bytes) (location : BlobLocation) :
    addedTo id (added ++ [(data, location)]) =
      if location.segmentId = id then addedTo id added ++ [(data, location)]
      else addedTo id added := by
  by_cases h : location.segmentId = id <;> simp [addedTo, h]

theorem recordsOf_append {data : Bytes} {location : BlobLocation} (h : location.segmentId = id) :
    recordsOf id (added ++ [(data, location)]) = insertRecord (recordsOf id added) data := by
  rw [recordsOf, addedTo_append, if_pos h, List.map_append, List.eraseDups_append, recordsOf,
    insertRecord]
  by_cases hmem : data ∈ ((addedTo id added).map Prod.fst).eraseDups
  · rw [if_pos hmem]
    have hmem' : data ∈ (addedTo id added).map Prod.fst := by simpa using hmem
    simp [List.removeAll, hmem']
  · rw [if_neg hmem]
    have hmem' : data ∉ (addedTo id added).map Prod.fst := by simpa using hmem
    simp [List.removeAll, hmem', List.eraseDups_cons]

end Transfer

/-! ## Steps -/

namespace Session.Sound

variable {c : Codec} {settings : Settings} {s : Session}

/-- Other segments are untouched by a change to one. -/
theorem others {disk' : Disk} {added' : List (Bytes × BlobLocation)} {id : ℕ}
    (h : s.Sound c settings)
    (hdisk : ∀ key : ℕ × Suffix, key.1 ≠ id → disk'.get? key = s.store.disk.get? key)
    (hadded : ∀ id', id' ≠ id → addedTo id' added' = addedTo id' s.added) {id' : ℕ}
    (hne : id' ≠ id) {w : SegmentWriter} (hw : s.store.writers.get? id' = some w) :
    WriterFits c settings disk' added' id' w :=
  (h.writers id' w hw).congr (fun suffix => hdisk (id', suffix) hne) (hadded id' hne)

/-- A new writer starts a segment that nothing names yet. -/
theorem createWriter (h : s.Sound c settings) {id : ℕ} {store : ArchiveStore}
    (hsegment : ∃ row, s.store.db.segments.get? id = some row)
    (hfresh : s.store.writers.get? id = none)
    (hcreate : s.store.createWriter settings id = .ok store) :
    Session.Sound c settings { s with store := store } := by
  obtain ⟨⟨w, disk⟩, hw, hstore⟩ := bind_eq_ok_iff.mp hcreate
  obtain ⟨disk', hdisk, hw⟩ := bind_eq_ok_iff.mp hw
  obtain ⟨rfl, rfl⟩ := Prod.mk.inj (Except.ok.inj hw)
  obtain rfl := Except.ok.inj hstore
  have hnofile : ∀ suffix, s.store.disk.get? (id, suffix) = none := by
    intro suffix
    cases hget : s.store.disk.get? (id, suffix) with
    | none => rfl
    | some file =>
        obtain ⟨w, hw⟩ := h.files id suffix file hget
        simp [hfresh] at hw
  obtain rfl : disk' = s.store.disk.set (id, .opened) [] := by
    rw [Disk.create, hnofile .opened] at hdisk
    exact (Except.ok.inj hdisk).symm
  have hnone : addedTo id s.added = [] := by
    refine List.filter_eq_nil_iff.mpr fun x hx hid => ?_
    obtain ⟨w, hw⟩ := h.added x hx
    rw [show x.2.segmentId = id by simpa using hid, hfresh] at hw
    cases hw
  have hkept : ∀ key : ℕ × Suffix, key.1 ≠ id →
      (s.store.disk.set (id, .opened) []).get? key = s.store.disk.get? key := fun key hkey =>
    Table.get?_set_of_ne _ _ fun heq => hkey (by rw [heq])
  constructor
  · intro id' w' hw'
    rw [Table.get?_set] at hw'
    by_cases hid : id' = id
    · rw [if_pos hid] at hw'
      obtain rfl := Option.some.inj hw'
      subst hid
      refine ⟨rfl, rfl, ?_⟩
      rw [if_neg (by simp)]
      refine ⟨[] ++ [[]], ⟨rfl, [], [], [], Table.get?_set_self _ _ _, Holds.create settings id',
        rfl⟩, ?_, ?_, ?_⟩
      · rw [Table.get?_set_of_ne _ _ (by simp), hnofile]
      · simp [hnone]
      · simp [recordsOf, hnone]
    · rw [if_neg hid] at hw'
      exact h.others hkept (fun _ _ => rfl) hid hw'
  · intro id' hcurrent
    obtain rfl : id = id' := by simpa using hcurrent
    exact ⟨_, Table.get?_set_self _ _ _, rfl⟩
  · intro id' w' hw'
    rw [Table.get?_set] at hw'
    by_cases hid : id' = id
    · exact hid ▸ hsegment
    · rw [if_neg hid] at hw'
      exact h.segments id' w' hw'
  · intro id' suffix file hfile
    rw [Table.get?_set]
    by_cases hid : id' = id
    · exact ⟨_, if_pos hid⟩
    · rw [if_neg hid]
      rw [hkept (id', suffix) hid] at hfile
      exact h.files id' suffix file hfile
  · intro x hx
    obtain ⟨w', hw'⟩ := h.added x hx
    rw [Table.get?_set]
    by_cases hid : x.2.segmentId = id
    · exact ⟨_, if_pos hid⟩
    · exact ⟨w', by rw [if_neg hid, hw']⟩
  · exact h.blobs
  · exact h.known
  · refine h.reader.mono fun id' file hfile => ?_
    rw [Table.get?_set_of_ne _ _ (by simp), hfile]

/-- Opening a writer keeps the invariant. -/
theorem openWriter (h : s.Sound c settings) {store : ArchiveStore}
    (hopen : s.store.openWriter settings = .ok store) :
    Session.Sound c settings { s with store := store } := by
  obtain ⟨⟨id, store₁⟩, hinsert, hcreate⟩ := bind_eq_ok_iff.mp hopen
  unfold ArchiveStore.insertSegmentRow at hinsert
  cases hdb : s.store.db.insertSegment (ArchiveStore.nextSegmentId s.store.disk s.store.db) with
  | none => simp [hdb] at hinsert
  | some db =>
      simp only [hdb] at hinsert
      obtain ⟨rfl, rfl⟩ := Prod.mk.inj (Except.ok.inj hinsert)
      obtain ⟨hfree, hdb⟩ := Option.ite_none_left_eq_some.mp hdb
      obtain rfl := Option.some.inj hdb
      set id := ArchiveStore.nextSegmentId s.store.disk s.store.db
      have hfresh : s.store.writers.get? id = none := by
        cases hw : s.store.writers.get? id with
        | none => rfl
        | some w =>
            obtain ⟨row, hrow⟩ := h.segments id w hw
            simp [hrow] at hfree
      have hinserted : Session.Sound c settings { s with store := { s.store with
          db := { s.store.db with
            segments := s.store.db.segments.insertNew id ⟨none, none, none, none⟩ } } } := by
        refine ⟨h.writers, h.current, fun id' w hw => ?_, h.files, h.added, h.blobs, h.known,
          h.reader⟩
        obtain ⟨row, hrow⟩ := h.segments id' w hw
        simp only [Table.get?_insertNew]
        by_cases hid : id' = id
        · exact ⟨_, if_pos hid⟩
        · exact ⟨row, by rw [if_neg hid, hrow]⟩
      have hrow : ∃ row, (s.store.db.segments.insertNew id ⟨none, none, none, none⟩).get? id =
          some row := by
        rw [Table.get?_insertNew, if_pos rfl]
        exact ⟨_, rfl⟩
      exact hinserted.createWriter hrow hfresh hcreate

/-- A record added to a segment that is still open. -/
theorem addTo (hc : c.Faithful) (h : s.Sound c settings) {id : ℕ} {data : Bytes}
    {location : BlobLocation} {store : ArchiveStore}
    (hadd : s.store.addTo c id data = .ok (location, store)) :
    Session.Sound c settings ⟨store, s.added ++ [(data, location)], s.stored⟩ ∧
      location.sha256 = c.hexdigest data := by
  obtain ⟨w, hwriter, hadd⟩ := bind_eq_ok_iff.mp hadd
  have hw := ArchiveStore.get?_of_writer hwriter
  obtain ⟨⟨location₁, w', disk'⟩, hresult, hadd⟩ := bind_eq_ok_iff.mp hadd
  obtain ⟨rfl, rfl⟩ := Prod.mk.inj (Except.ok.inj hadd)
  obtain ⟨hid, hsettings, hholds⟩ := h.writers id w hw
  have hopened : w.isSealed = false := by
    cases hflag : w.isSealed with
    | false => rfl
    | true => simp [SegmentWriter.add, hflag] at hresult
  rw [if_neg (by simp [hopened])] at hholds
  obtain ⟨blocks, hopen, hzst, hseg⟩ := hholds
  obtain ⟨location₂, w₂, disk₂, blocks', heq, hopen', hlocated, hext, hflatten, hid', hsettings',
    hsame⟩ := add_of_openOn hc hopen data
  obtain ⟨rfl, rfl, rfl⟩ : location₁ = location₂ ∧ w' = w₂ ∧ disk' = disk₂ := by
    simpa using hresult.symm.trans heq
  obtain ⟨-, -, -, hsha, hsegment⟩ := hlocated.slice_eq
  rw [hid] at hsegment hsame hlocated hid'
  have hkept : ∀ key : ℕ × Suffix, key.1 ≠ id → disk'.get? key = s.store.disk.get? key :=
    fun key hkey => hsame key fun heq => hkey (by rw [heq])
  have hkeptZst : ∀ id', disk'.get? (id', .zst) = s.store.disk.get? (id', .zst) :=
    fun id' => hsame _ (by simp)
  refine ⟨?_, hsha⟩
  constructor
  · intro id' w'' hw''
    rcases Table.get?_set_eq_some_iff.mp hw'' with ⟨rfl, rfl⟩ | ⟨hne, hold⟩
    · refine ⟨hid', hsettings'.trans hsettings, ?_⟩
      rw [if_neg (by simp [hopen'.1])]
      refine ⟨blocks', hopen', (hkeptZst id).trans hzst, fun x hx => ?_, ?_⟩
      · rw [addedTo_append, if_pos hsegment] at hx
        rcases List.mem_append.mp hx with hold | hnew
        · exact (hseg.located x hold).mono hext
        · obtain rfl : x = (data, location₁) := by simpa using hnew
          exact hlocated
      · rw [hflatten, hseg.records, recordsOf_append hsegment]
    · refine h.others hkept (fun id' hne => ?_) hne hold
      rw [addedTo_append, if_neg (fun hid => hne (hid.symm.trans hsegment))]
  · intro id' hcurrent
    obtain ⟨w'', hw'', hopened'⟩ := h.current id' hcurrent
    by_cases heq : id' = id
    · exact ⟨w', heq ▸ Table.get?_set_self _ _ _, hopen'.1⟩
    · exact ⟨w'', (Table.get?_set_of_ne _ _ heq).trans hw'', hopened'⟩
  · intro id' w'' hw''
    rcases Table.get?_set_eq_some_iff.mp hw'' with ⟨rfl, rfl⟩ | ⟨-, hold⟩
    · exact h.segments id w hw
    · exact h.segments id' w'' hold
  · intro id' suffix file hfile
    refine Table.exists_get?_set ?_
    by_cases heq : id' = id
    · exact ⟨w, heq ▸ hw⟩
    · exact h.files id' suffix file ((hkept (id', suffix) heq).symm.trans hfile)
  · intro x hx
    refine Table.exists_get?_set ?_
    rcases List.mem_append.mp hx with hold | hnew
    · exact h.added x hold
    · obtain rfl : x = (data, location₁) := by simpa using hnew
      exact ⟨w, by rw [hsegment, hw]⟩
  · intro sha256 location hget
    obtain ⟨data', hmem, hsha'⟩ := h.blobs sha256 location hget
    exact ⟨data', by simp [hmem], hsha'⟩
  · exact h.known
  · exact h.reader.mono fun id' file hfile => (hkeptZst id').trans hfile

/-- The row of a record that was added. -/
theorem insertBlobRow (h : s.Sound c settings) {data : Bytes} {location : BlobLocation}
    {store : ArchiveStore} (hmem : (data, location) ∈ s.added)
    (hsha : location.sha256 = c.hexdigest data)
    (hinsert : s.store.insertBlobRow location = .ok store) :
    Session.Sound c settings ⟨store, s.added, s.stored ++ [data]⟩ := by
  unfold ArchiveStore.insertBlobRow at hinsert
  cases hdb : s.store.db.insertBlob location.sha256 location.row with
  | none => simp [hdb] at hinsert
  | some db =>
      simp only [hdb] at hinsert
      obtain rfl := Except.ok.inj hinsert
      refine ⟨h.writers, h.current, fun id w hw => ?_, h.files, h.added, ?_, ?_, h.reader⟩
      · simp only [ArchiveStore.segments_of_insertBlob hdb]
        exact h.segments id w hw
      · intro sha256 location' hget
        rw [ArchiveStore.locationFor_of_insertBlob hdb] at hget
        by_cases heq : sha256 = location.sha256
        · rw [if_pos heq] at hget
          cases hold : ArchiveStore.locationFor location.sha256 s.store.db with
          | some existing =>
              obtain rfl : existing = location' := by simpa [hold] using hget
              exact heq ▸ h.blobs _ existing hold
          | none =>
              obtain rfl : location = location' := by simpa [hold] using hget
              exact ⟨data, hmem, hsha.symm.trans heq.symm⟩
        · rw [if_neg heq] at hget
          exact h.blobs sha256 location' hget
      · intro data' hdata'
        rw [ArchiveStore.locationFor_of_insertBlob hdb]
        by_cases heq : c.hexdigest data' = location.sha256
        · exact ⟨_, if_pos heq⟩
        · rw [if_neg heq]
          rcases List.mem_append.mp hdata' with hold | hnew
          · exact h.known data' hold
          · obtain rfl : data' = data := by simpa using hnew
            exact (heq hsha.symm).elim

/-- A call of `add`. -/
theorem add (hc : c.Faithful) (h : s.Sound c settings) {data : Bytes} {location : BlobLocation}
    {store : ArchiveStore} (hadd : s.store.add c settings data = .ok (location, store)) :
    Session.Sound c settings ⟨store, s.added ++ [(data, location)], s.stored ++ [data]⟩ := by
  obtain ⟨⟨id, store₁⟩, hwriter, hadd⟩ := bind_eq_ok_iff.mp hadd
  obtain ⟨⟨location₁, store₂⟩, haddTo, hadd⟩ := bind_eq_ok_iff.mp hadd
  obtain ⟨store₃, hinsert, hadd⟩ := bind_eq_ok_iff.mp hadd
  obtain ⟨rfl, rfl⟩ := Prod.mk.inj (Except.ok.inj hadd)
  have hopened : Session.Sound c settings { s with store := store₁ } := by
    unfold ArchiveStore.currentWriter at hwriter
    cases hcurrent : s.store.current with
    | some id' =>
        simp only [hcurrent] at hwriter
        obtain ⟨-, rfl⟩ := Prod.mk.inj (Except.ok.inj hwriter)
        exact h
    | none =>
        simp only [hcurrent] at hwriter
        obtain ⟨store, hopen, hwriter⟩ := bind_eq_ok_iff.mp hwriter
        obtain ⟨-, rfl⟩ := Prod.mk.inj (Except.ok.inj hwriter)
        exact h.openWriter hopen
  obtain ⟨hadded, hsha⟩ := hopened.addTo hc haddTo
  exact hadded.insertBlobRow (by simp) hsha hinsert

/-- Sealing a writer. -/
theorem sealWriter (h : s.Sound c settings) {id : ℕ} {now : String} {stats : SegmentStats}
    {store : ArchiveStore} (hseal : s.store.sealWriter c id now = .ok (stats, store)) :
    Session.Sound c settings { s with store := store } := by
  obtain ⟨w, hwriter, hseal⟩ := bind_eq_ok_iff.mp hseal
  have hw := ArchiveStore.get?_of_writer hwriter
  obtain ⟨⟨stats', w', disk'⟩, hsealed, hstore⟩ := bind_eq_ok_iff.mp hseal
  obtain ⟨rfl, rfl⟩ := Prod.mk.inj (Except.ok.inj hstore)
  obtain ⟨hid, hsettings, hholds⟩ := h.writers id w hw
  have hopened : w.isSealed = false := by
    cases hflag : w.isSealed with
    | false => rfl
    | true => simp [SegmentWriter.sealSegment, hflag] at hsealed
  rw [if_neg (by simp [hopened])] at hholds
  obtain ⟨blocks, hopen, hzst, hseg⟩ := hholds
  obtain ⟨blocks', footer, trailer, file, hfile, hget, -, hext, hflatten, hflag, hid', hsettings',
    hkept⟩ := sealSegment_of_openOn hopen hsealed
  rw [hid] at hget hkept hid'
  constructor
  · intro id' w'' hw''
    rw [Table.get?_set] at hw''
    by_cases heq : id' = id
    · rw [if_pos heq] at hw''
      obtain rfl := Option.some.inj hw''
      subst heq
      refine ⟨hid', hsettings'.trans hsettings, ?_⟩
      rw [if_pos hflag]
      exact ⟨blocks', footer, trailer, file, hsettings ▸ hfile, hget,
        fun x hx => (hseg.located x hx).mono hext, hflatten.trans hseg.records⟩
    · rw [if_neg heq] at hw''
      exact h.others hkept (fun _ _ => rfl) heq hw''
  · intro id' hcurrent
    have hne : s.store.current = some id' ∧ id' ≠ id := by
      by_cases hid : s.store.current = some id
      · simp [hid] at hcurrent
      · rw [if_neg hid] at hcurrent
        exact ⟨hcurrent, fun heq => hid (heq ▸ hcurrent)⟩
    obtain ⟨w'', hw'', hopened'⟩ := h.current id' hne.1
    exact ⟨w'', by rw [Table.get?_set_of_ne _ _ hne.2, hw''], hopened'⟩
  · intro id' w'' hw''
    obtain ⟨w₃, hw₃⟩ : ∃ w, s.store.writers.get? id' = some w := by
      rw [Table.get?_set] at hw''
      by_cases heq : id' = id
      · exact ⟨w, heq ▸ hw⟩
      · exact ⟨w'', by rw [if_neg heq] at hw''; exact hw''⟩
    obtain ⟨row, hrow⟩ := h.segments id' w₃ hw₃
    simp [Db.updateSegment, hrow]
  · intro id' suffix file' hfile'
    refine Table.exists_get?_set ?_
    by_cases heq : id' = id
    · exact ⟨w, heq ▸ hw⟩
    · rw [hkept (id', suffix) heq] at hfile'
      exact h.files id' suffix file' hfile'
  · exact fun x hx => Table.exists_get?_set (h.added x hx)
  · exact h.blobs
  · exact h.known
  · refine h.reader.mono fun id' file' hfile' => ?_
    by_cases heq : id' = id
    · simp [heq, hzst] at hfile'
    · exact (hkept (id', .zst) heq).trans hfile'

theorem raised (h : s.Sound c settings) {e : ArchiveError} {s' : Session}
    (hraised : s.raised e = some s') : s'.Sound c settings := by
  unfold Session.raised at hraised
  split at hraised
  · exact Option.some.inj hraised ▸ h
  · cases hraised

/-- The reader only fills its caches. -/
theorem useReader (h : s.Sound c settings) {α : Type} {m : Read α}
    {value : Except ArchiveError α} (hm : Reads c s.store.disk m value) :
    Session.Sound c settings (s.useReader m) :=
  ⟨h.writers, h.current, h.segments, h.files, h.added, h.blobs, h.known,
    hm.valid_after h.reader⟩

/-- An empty session. -/
theorem initial : Session.Sound c settings Session.initial := by
  constructor
  · intro id w hw
    simp [Session.initial, ArchiveStore.initial] at hw
  · intro id hcurrent
    simp [Session.initial, ArchiveStore.initial] at hcurrent
  · intro id w hw
    simp [Session.initial, ArchiveStore.initial] at hw
  · intro id suffix file hfile
    simp [Session.initial, ArchiveStore.initial] at hfile
  · intro x hx
    simp [Session.initial] at hx
  · intro sha256 location hget
    simp [Session.initial, ArchiveStore.initial, ArchiveStore.locationFor, Db.empty] at hget
  · intro x hx
    simp [Session.initial] at hx
  · exact Reader.valid_empty c _ _

/-- Every call keeps the invariant. -/
theorem step (hc : c.Faithful) (h : s.Sound c settings) {use : Use} {s' : Session}
    (hstep : (sessions c settings).step s use = some s') : s'.Sound c settings := by
  change Session.step c settings s use = some s' at hstep
  cases use with
  | add data =>
      cases hadd : s.store.add c settings data with
      | error e => simp [Session.step, hadd] at hstep
      | ok result =>
          obtain ⟨location, store⟩ := result
          simp only [Session.step, hadd, Option.some.injEq] at hstep
          exact hstep ▸ h.add hc hadd
  | addTo id data =>
      cases hadd : s.store.addTo c id data with
      | error e =>
          simp only [Session.step, hadd] at hstep
          exact h.raised hstep
      | ok result =>
          obtain ⟨location, store⟩ := result
          simp only [Session.step, hadd, Option.some.injEq] at hstep
          exact hstep ▸ (h.addTo hc hadd).1
  | openWriter =>
      cases hopen : s.store.openWriter settings with
      | error e => simp [Session.step, hopen] at hstep
      | ok store =>
          simp only [Session.step, hopen, Option.some.injEq] at hstep
          exact hstep ▸ h.openWriter hopen
  | sealWriter id now =>
      cases hseal : s.store.sealWriter c id now with
      | error e =>
          simp only [Session.step, hseal] at hstep
          exact h.raised hstep
      | ok result =>
          obtain ⟨stats, store⟩ := result
          simp only [Session.step, hseal, Option.some.injEq] at hstep
          exact hstep ▸ h.sealWriter hseal
  | get sha256 =>
      obtain rfl := Option.some.inj hstep
      exact h.useReader (reads_get s.store.db sha256)
  | read location =>
      obtain rfl := Option.some.inj hstep
      exact h.useReader (reads_read location)
  | iterRecords id =>
      obtain rfl := Option.some.inj hstep
      exact h.useReader (reads_iterRecords id)

/-- The invariant holds in every session. -/
theorem run (hc : c.Faithful) {l : List Use} {t : Session}
    (hrun : (sessions c settings).run Session.initial l = some t) : t.Sound c settings :=
  Machine.run_invariant (fun _ _ _ hs hstep => Session.Sound.step hc hs hstep) Session.Sound.initial
    hrun

end Session.Sound

end RerollSync.Archive
