import RerollSync.Dispatcher.Effects

/-!
# Recovering an unsealed segment

`recover_unsealed_segment` of `fetch.py`: the wheels whose bytes lay in a
truncated segment are to be fetched again, and the segment's `blobs` rows go.
The hashes are read once, and every chunk of them is an op of its own.
-/

namespace RerollSync.Fetch

open RerollSync.Support RerollSync.Store

/-- `DELETE FROM blobs WHERE sha256 IN (...)`. -/
def deleteBlobs (sha256s : List String) (db : Db) : Db :=
  { db with blobs := db.blobs.filter fun sha256 _ => !decide (sha256 ∈ sha256s) }

/-- `SELECT id FROM wheels WHERE blob_sha256 IN (...) AND state != DELETED`. -/
def linkedWheelIds (sha256s : List String) (db : Db) : List ℕ :=
  (db.wheels.filter fun _ row => row.blobSha256.any (· ∈ sha256s) ∧ row.state ≠ .deleted).keys

/-- The assignments of a recovery: neither `change_seq` nor `updated_at` is among
them. -/
def recoveredRow (row : WheelRow) : WheelRow :=
  { row with state := .needMetadata, blobSha256 := none, condaName := none }

/-- `_recover_chunk_write_op._apply`; the result is the number of wheels reset. -/
def recoverChunkApply (chunk : List String) : Op ℕ := do
  let wheelIds ← Program.query (linkedWheelIds chunk)
  if wheelIds ≠ [] then
    let _ ← Op.updateWheels (fun id _ => id ∈ wheelIds) recoveredRow
    let _ ← Op.deleteRepodata fun id => id ∈ wheelIds
  let _ ← Op.exec (deleteBlobs chunk) fun db =>
    (db.blobs.filter fun sha256 _ => sha256 ∈ chunk).rows.length
  return wheelIds.length

/-- `blob_rows_for_segment`. -/
def blobRowsForSegment (segmentId : ℕ) (db : Db) : List (String × BlobRow) :=
  (db.blobs.filter fun _ row => row.segmentId = segmentId).rows.insertionSort fun a b => a.1 ≤ b.1

/-- `sha256s[start : start + chunk_size]` for the starts of
`range(0, len(sha256s), chunk_size)`. -/
def chunksOf (chunkSize : ℕ) (sha256s : List String) : List (List String) :=
  (List.range ((sha256s.length + chunkSize - 1) / chunkSize)).map fun k =>
    (sha256s.drop (k * chunkSize)).take chunkSize

/-- The ops of a recovery, one for each chunk. -/
def recoveryChunks (segmentId chunkSize : ℕ) (db : Db) : List (List String) :=
  chunksOf chunkSize ((blobRowsForSegment segmentId db).map Prod.fst)

/-- `recover_unsealed_segment`: no op of it draws a sequence number. -/
def recoverUnsealedSegment (segmentId chunkSize : ℕ) (changeSeq : ℕ) (db : Db) : Db :=
  (recoveryChunks segmentId chunkSize db).foldl
    (fun db chunk => ((recoverChunkApply chunk).runAtomic db changeSeq).db) db

/-! ## The hashes of a recovery -/

theorem mem_chunksOf {chunkSize : ℕ} (hpos : 0 < chunkSize) {sha256s : List String}
    {sha256 : String} : (∃ chunk ∈ chunksOf chunkSize sha256s, sha256 ∈ chunk) ↔
      sha256 ∈ sha256s := by
  constructor
  · rintro ⟨chunk, hchunk, hmem⟩
    obtain ⟨k, -, rfl⟩ := List.mem_map.mp hchunk
    exact List.mem_of_mem_drop (List.mem_of_mem_take hmem)
  · intro hmem
    obtain ⟨i, hi, rfl⟩ := List.getElem_of_mem hmem
    refine ⟨_, List.mem_map.mpr ⟨i / chunkSize, List.mem_range.mpr ?_, rfl⟩, ?_⟩
    · rw [Nat.div_lt_iff_lt_mul hpos, Nat.mul_comm]
      have hceil := Nat.lt_mul_div_succ (sha256s.length + chunkSize - 1) hpos
      rw [Nat.mul_add, Nat.mul_one] at hceil
      omega
    · rw [List.mem_take_iff_getElem]
      have hsplit : i / chunkSize * chunkSize + i % chunkSize = i := Nat.div_add_mod' i chunkSize
      have hlt := Nat.mod_lt i hpos
      refine ⟨i % chunkSize, ?_, ?_⟩
      · rw [List.length_drop]
        omega
      · simp only [List.getElem_drop, hsplit]

theorem mem_blobRowsForSegment {segmentId : ℕ} {db : Db} {sha256 : String} :
    sha256 ∈ (blobRowsForSegment segmentId db).map Prod.fst ↔
      ∃ row, db.blobs.get? sha256 = some row ∧ row.segmentId = segmentId := by
  simp only [blobRowsForSegment, List.mem_map, List.mem_insertionSort, Table.filter,
    List.mem_filter, Prod.exists, exists_and_right, exists_eq_right, decide_eq_true_eq,
    Table.get?_eq_some_iff]

/-! ## What a recovery leaves -/

/-- The row of a wheel after the blobs `sha256s` are gone. -/
def unlinkedRow (sha256s : List String) (row : WheelRow) : WheelRow :=
  if row.blobSha256.any (· ∈ sha256s) ∧ row.state ≠ .deleted then recoveredRow row else row

theorem mem_linkedWheelIds {sha256s : List String} {db : Db} {id : ℕ} :
    id ∈ linkedWheelIds sha256s db ↔ ∃ row, db.wheels.get? id = some row ∧
      row.blobSha256.any (· ∈ sha256s) = true ∧ row.state ≠ .deleted := by
  simp only [linkedWheelIds, Table.keys, Table.filter, List.mem_map, List.mem_filter, Prod.exists,
    exists_and_right, exists_eq_right, decide_eq_true_eq, Table.get?_eq_some_iff]

/-- The effect of one chunk. -/
def recoverEffect (chunk : List String) (db : Db) : Db :=
  { db with
    wheels := db.wheels.modify fun _ => unlinkedRow chunk
    wheelRepodata := db.wheelRepodata.filter fun id _ => !decide (id ∈ linkedWheelIds chunk db)
    blobs := db.blobs.filter fun sha256 _ => !decide (sha256 ∈ chunk) }

theorem unlinkedRow_of_get? {sha256s : List String} {db : Db} {id : ℕ} {row : WheelRow}
    (hrow : db.wheels.get? id = some row) :
    unlinkedRow sha256s row =
      if id ∈ linkedWheelIds sha256s db then recoveredRow row else row := by
  have hiff : id ∈ linkedWheelIds sha256s db ↔
      row.blobSha256.any (· ∈ sha256s) = true ∧ row.state ≠ .deleted := by
    rw [mem_linkedWheelIds, hrow]
    simp
  simp only [unlinkedRow, hiff]

theorem runAtomic_recoverChunkApply (chunk : List String) (db : Db) (n : ℕ) :
    ∃ count, (recoverChunkApply chunk).runAtomic db n = ⟨recoverEffect chunk db, n, .ok count⟩ := by
  have hwheels : (db.wheels.modify fun _ => unlinkedRow chunk) = db.wheels.modify fun id row =>
      if id ∈ linkedWheelIds chunk db then recoveredRow row else row :=
    Table.modify_congr fun id row hrow => unlinkedRow_of_get? hrow
  refine ⟨(linkedWheelIds chunk db).length, Program.runAtomic_of_ok ?_⟩
  refine (Program.run_bind_ok (Program.run_query _ db n)).trans ?_
  by_cases hids : linkedWheelIds chunk db = []
  · -- no wheel is linked: the op skips both statements on wheels
    have hrepodata : (db.wheelRepodata.filter fun _ _ => !false) = db.wheelRepodata :=
      Table.filter_eq_self fun _ _ => rfl
    have hkept : (db.wheels.modify fun _ row => row) = db.wheels :=
      Table.modify_eq_self fun _ _ => rfl
    simp only [recoverEffect, hwheels, hids, List.not_mem_nil, if_false, decide_false, hrepodata,
      hkept, ne_eq, not_true_eq_false]
    rfl
  · simp only [recoverEffect, hwheels, hids, ne_eq, not_false_eq_true, if_true]
    have hupdate : db.updateWheels (fun id _ => id ∈ linkedWheelIds chunk db) recoveredRow =
        { db with wheels := db.wheels.modify fun id row =>
            if id ∈ linkedWheelIds chunk db then recoveredRow row else row } := by
      simp only [Db.updateWheels, decide_eq_true_eq]
    exact (Program.run_bind_ok (by rw [Op.updateWheels, Op.run_exec, hupdate])).trans rfl

/-- What the loss of the blobs `sha256s` does to the database. -/
structure Unlinked (sha256s : List String) (db db' : Db) : Prop where
  wheels : ∀ id, db'.wheels.get? id = (db.wheels.get? id).map (unlinkedRow sha256s)
  wheelRepodata : ∀ id, db'.wheelRepodata.get? id =
    if id ∈ linkedWheelIds sha256s db then none else db.wheelRepodata.get? id
  blobs : ∀ sha256, db'.blobs.get? sha256 =
    if sha256 ∈ sha256s then none else db.blobs.get? sha256
  skips : db'.skips = db.skips
  work : db'.work = db.work

theorem unlinked_recoverEffect (chunk : List String) (db : Db) :
    Unlinked chunk db (recoverEffect chunk db) where
  wheels id := Table.get?_modify _ _ id
  wheelRepodata id := by
    refine (Table.get?_filter_key db.wheelRepodata _ id).trans ?_
    by_cases hid : id ∈ linkedWheelIds chunk db <;> simp [hid]
  blobs sha256 := by
    refine (Table.get?_filter_key db.blobs _ sha256).trans ?_
    by_cases hmem : sha256 ∈ chunk <;> simp [hmem]
  skips := rfl
  work := rfl

theorem unlinkedRow_nil (row : WheelRow) : unlinkedRow [] row = row := by
  refine if_neg ?_
  rintro ⟨hlinked, -⟩
  cases hblob : row.blobSha256 <;> simp [hblob] at hlinked

theorem linkedWheelIds_nil (db : Db) : linkedWheelIds [] db = [] := by
  refine List.eq_nil_iff_forall_not_mem.mpr fun id hmem => ?_
  obtain ⟨row, -, hlinked, -⟩ := mem_linkedWheelIds.mp hmem
  cases hblob : row.blobSha256 <;> simp [hblob] at hlinked

theorem Unlinked.refl (db : Db) : Unlinked [] db db where
  wheels id := by
    cases hrow : db.wheels.get? id with
    | none => rfl
    | some row => rw [Option.map_some, unlinkedRow_nil]
  wheelRepodata id := by rw [linkedWheelIds_nil, if_neg List.not_mem_nil]
  blobs sha256 := by rw [if_neg List.not_mem_nil]
  skips := rfl
  work := rfl

/-- A wheel that has lost its blob is linked to none. -/
theorem unlinkedRow_append (sha256s sha256s' : List String) (row : WheelRow) :
    unlinkedRow sha256s' (unlinkedRow sha256s row) = unlinkedRow (sha256s ++ sha256s') row := by
  by_cases hlive : row.state = .deleted
  · simp [unlinkedRow, hlive]
  · cases hblob : row.blobSha256 with
    | none => simp [unlinkedRow, hblob]
    | some sha256 =>
        by_cases hmem : sha256 ∈ sha256s
        · simp [unlinkedRow, hblob, hlive, hmem, recoveredRow]
        · simp [unlinkedRow, hblob, hlive, hmem]

theorem Unlinked.trans {sha256s sha256s' : List String} {db db' db'' : Db}
    (h : Unlinked sha256s db db') (h' : Unlinked sha256s' db' db'') :
    Unlinked (sha256s ++ sha256s') db db'' where
  wheels id := by
    rw [h'.wheels, h.wheels, Option.map_map]
    exact congrArg (Option.map · _) (funext (unlinkedRow_append sha256s sha256s'))
  wheelRepodata id := by
    have hlinked : id ∈ linkedWheelIds (sha256s ++ sha256s') db ↔
        id ∈ linkedWheelIds sha256s db ∨ id ∈ linkedWheelIds sha256s' db' := by
      simp only [mem_linkedWheelIds, h.wheels]
      cases hrow : db.wheels.get? id with
      | none => simp
      | some row =>
          cases hblob : row.blobSha256 with
          | none => simp [unlinkedRow, hblob]
          | some sha256 =>
              by_cases hmem : sha256 ∈ sha256s <;> by_cases hlive : row.state = .deleted <;>
                simp [unlinkedRow, hblob, hmem, hlive, recoveredRow]
    rw [h'.wheelRepodata, h.wheelRepodata]
    by_cases hid : id ∈ linkedWheelIds sha256s db <;>
      by_cases hid' : id ∈ linkedWheelIds sha256s' db' <;> simp [hlinked, hid, hid']
  blobs sha256 := by
    rw [h'.blobs, h.blobs]
    by_cases hmem : sha256 ∈ sha256s <;> by_cases hmem' : sha256 ∈ sha256s' <;> simp [hmem, hmem']
  skips := h'.skips.trans h.skips
  work := h'.work.trans h.work

/-- The loop over the chunks. -/
theorem unlinked_foldl (n : ℕ) (chunks : List (List String)) (db : Db) :
    Unlinked chunks.flatten db
      (chunks.foldl (fun db chunk => ((recoverChunkApply chunk).runAtomic db n).db) db) := by
  induction chunks generalizing db with
  | nil => exact Unlinked.refl db
  | cons chunk chunks ih =>
      obtain ⟨count, hrun⟩ := runAtomic_recoverChunkApply chunk db n
      rw [List.foldl_cons, hrun]
      exact (unlinked_recoverEffect chunk db).trans (ih (recoverEffect chunk db))

/-- A recovery takes the blobs of its segment away, and nothing else. -/
theorem unlinked_recoverUnsealedSegment (segmentId chunkSize changeSeq : ℕ) (db : Db) :
    Unlinked (recoveryChunks segmentId chunkSize db).flatten db
      (recoverUnsealedSegment segmentId chunkSize changeSeq db) :=
  unlinked_foldl changeSeq _ db

theorem mem_recoveryChunks {segmentId chunkSize : ℕ} (hpos : 0 < chunkSize) {db : Db}
    {sha256 : String} : sha256 ∈ (recoveryChunks segmentId chunkSize db).flatten ↔
      ∃ row, db.blobs.get? sha256 = some row ∧ row.segmentId = segmentId := by
  rw [List.mem_flatten, recoveryChunks, mem_chunksOf hpos, mem_blobRowsForSegment]

/-- A recovery leaves `segments` alone. -/
theorem segments_recoverUnsealedSegment (segmentId chunkSize changeSeq : ℕ) (db : Db) :
    (recoverUnsealedSegment segmentId chunkSize changeSeq db).segments = db.segments := by
  suffices hloop : ∀ (chunks : List (List String)) (db : Db), (chunks.foldl
      (fun db chunk => ((recoverChunkApply chunk).runAtomic db changeSeq).db) db).segments =
        db.segments from hloop _ db
  intro chunks
  induction chunks with
  | nil => exact fun _ => rfl
  | cons chunk chunks ih =>
      intro db
      obtain ⟨count, hrun⟩ := runAtomic_recoverChunkApply chunk db changeSeq
      rw [List.foldl_cons, hrun]
      exact ih (recoverEffect chunk db)

end RerollSync.Fetch
