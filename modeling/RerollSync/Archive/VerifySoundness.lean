import RerollSync.Support.Traversal
import RerollSync.Archive.Verify
import RerollSync.Archive.RoundTrip

/-!
# What a clean report says

`verify_archive` goes through the blocks that a footer lists.  A frame that is no frame
raises an error of the decompressor, which is not caught, and a record in a block that the
footer does not list is never read.  For any content of a segment's file, this module says
when the verification returns a report, and when a clean report means that every row of
the segment can be read.
-/

namespace RerollSync.Archive

open RerollSync.Support
open RerollSync.Store (Bytes)

/-- A report is returned, and where it has no problem for a segment, the bytes of every
row of the segment are read and have the hash that is the row's key. -/
structure VerifySound (c : Codec) (py : Python) (disk : Disk) (segmentIds : List ℕ)
    (rows : ℕ → Table String BlobPosition) : Prop where
  returns : ∃ problems, verifyArchive c py disk segmentIds rows = .ok problems
  reads : ∀ id ∈ segmentIds, verifySegment c py disk id (rows id) = .ok [] →
    ∀ sha256 position, (rows id).get? sha256 = some position →
      ∃ data, readFields c disk id sha256 position = .ok data ∧ c.hexdigest data = sha256

/-! ## The condition -/

/-- The seek to the block raises `OSError`. -/
def BlockFields.Unseekable (block : BlockFields) : Prop :=
  ∃ o, block.offset.index = some o ∧ o < 0

/-- The block has a frame, and the records that it is said to hold have integers for
their ranges. -/
def BlockReads (c : Codec) (py : Python) (file : Bytes) (footer : FooterFields) (k : ℕ)
    (block : BlockFields) : Prop :=
  (∃ payload, blockPayload c file block = .ok payload) ∧
    ∀ r ∈ footer.inBlock py k, r.offset.index.isSome = true ∧ r.length.index.isSome = true

/-- A record of a block does not have the hash that is claimed. -/
def HasWrongBytes (c : Codec) (py : Python) (file : Bytes) (footer : FooterFields) : Prop :=
  ∃ (k : ℕ) (block : BlockFields) (payload : Bytes) (r : RecordFields) (pair : String × Bytes),
    footer.blocks[k]? = some block ∧ blockPayload c file block = .ok payload ∧
      r ∈ footer.inBlock py k ∧ recordPair py payload r = .ok pair ∧
      c.hexdigest pair.2 ≠ pair.1

/-- The row names no block after the last one; a negative number counts from the end, and
finds the bytes of the row there. -/
def NamesBlock (c : Codec) (file : Bytes) (footer : FooterFields) (sha256 : String)
    (position : BlobPosition) : Prop :=
  position.blockNo < footer.blocks.length ∧
    (position.blockNo < 0 → ∃ block payload, pyIndex footer.blocks position.blockNo = .ok block ∧
      blockPayload c file block = .ok payload ∧
      c.hexdigest (pySlice payload position.offset (position.offset + position.length)) = sha256)

/-- What a footer must be like. -/
structure FooterFields.Verifiable (c : Codec) (py : Python) (file : Bytes) (footer : FooterFields)
    (entries : List (String × FooterPosition)) (rows : Table String BlobPosition) : Prop where
  hashable : ∀ r ∈ footer.records, r.blockNo.hashable = true
  blocks : ∀ (k : ℕ) block, footer.blocks[k]? = some block →
    (∃ j < k, ∃ earlier, footer.blocks[j]? = some earlier ∧ earlier.Unseekable) ∨
      block.Unseekable ∨ BlockReads c py file footer k block
  named : (∃ block ∈ footer.blocks, block.Unseekable) ∨ HasWrongBytes c py file footer ∨
    ¬PositionsMatch py entries rows ∨
    ∀ sha256 position, rows.get? sha256 = some position → NamesBlock c file footer sha256 position

/-- What the file of a segment must be like. -/
def Verifiable (c : Codec) (py : Python) (disk : Disk) (segmentId : ℕ)
    (rows : Table String BlobPosition) : Prop :=
  match loadFooterFields c disk segmentId with
  | .error e => e.isCaught = true
  | .ok footer => ∃ file entries, openSegment disk segmentId = .ok file ∧
      footerRecords py footer = .ok entries ∧ footer.Verifiable c py file entries rows

/-! ## Blocks -/

section Blocks

variable {c : Codec} {py : Python} {file : Bytes} {footer : FooterFields} {k : ℕ}
  {block : BlockFields}

theorem BlockFields.Unseekable.blockPayload_eq (h : block.Unseekable) :
    blockPayload c file block = .error .invalidArgument := by
  obtain ⟨o, ho, hneg⟩ := h
  have hfits : fitsOffset file o = true := decide_eq_true (Or.inl (by omega))
  have hseek : seekRead file block.offset block.length = .error .invalidArgument := by
    simp [seekRead, ho, hfits, hneg]
  rw [blockPayload, hseek]
  rfl

theorem seekRead_eq_error {offset length : Msgpack} {e : ArchiveError}
    (h : seekRead file offset length = .error e) :
    e = .shape ∨ ∃ o, offset.index = some o ∧ o < 0 := by
  rw [seekRead] at h
  cases ho : offset.index with
  | none =>
      rw [ho] at h
      exact Or.inl (Except.error.inj h).symm
  | some o =>
      simp only [ho] at h
      split at h
      · exact Or.inl (Except.error.inj h).symm
      · split at h
        · next hneg => exact Or.inr ⟨o, rfl, hneg⟩
        · split at h
          · cases h
          · split at h
            · exact Or.inl (Except.error.inj h).symm
            · split at h
              · cases h
              · split at h
                · exact Or.inl (Except.error.inj h).symm
                · cases h

/-- A block that can be sought raises something that is not caught, if it raises. -/
theorem isCaught_of_blockPayload_eq_error {e : ArchiveError}
    (h : blockPayload c file block = .error e) : e.isCaught = true ↔ block.Unseekable := by
  by_cases hneg : block.Unseekable
  · rw [hneg.blockPayload_eq] at h
    obtain rfl := Except.error.inj h
    exact iff_of_true rfl hneg
  · refine iff_of_false ?_ hneg
    rw [blockPayload] at h
    cases hseek : seekRead file block.offset block.length with
    | error e' =>
        rw [hseek] at h
        obtain rfl := Except.error.inj h
        rcases seekRead_eq_error hseek with rfl | hneg'
        · exact Bool.false_ne_true
        · exact absurd hneg' hneg
    | ok compressed =>
        rw [hseek] at h
        change decompressBlock c compressed = .error e at h
        rw [decompressBlock] at h
        cases hframe : c.decompress compressed with
        | error message =>
            rw [hframe] at h
            obtain rfl := Except.error.inj h
            exact Bool.false_ne_true
        | ok payload =>
            rw [hframe] at h
            cases h

theorem recordPair_eq_error {payload : Bytes} {r : RecordFields} {e : ArchiveError}
    (h : recordPair py payload r = .error e) : e.isCaught = false := by
  rw [recordPair, recordSlice] at h
  split at h
  · cases hhex : r.sha256.hexText py with
    | error e' =>
        rw [hhex] at h
        obtain rfl : e' = e := Except.error.inj h
        revert hhex
        cases r.sha256 <;> intro hhex <;> cases hhex <;> rfl
    | ok text =>
        rw [hhex] at h
        cases h
  · obtain rfl : ArchiveError.shape = e := Except.error.inj h
    rfl

theorem exists_recordPair_iff {payload : Bytes} {r : RecordFields}
    (hhex : ∃ text, r.sha256.hexText py = .ok text) :
    (∃ pair, recordPair py payload r = .ok pair) ↔
      r.offset.index.isSome = true ∧ r.length.index.isSome = true := by
  obtain ⟨text, hhex⟩ := hhex
  rw [recordPair, recordSlice, hhex]
  cases r.offset.index with
  | none => exact iff_of_false (by rintro ⟨pair, h⟩; cases h) (by simp)
  | some o =>
      cases r.length.index with
      | none => exact iff_of_false (by rintro ⟨pair, h⟩; cases h) (by simp)
      | some l => exact iff_of_true ⟨_, rfl⟩ ⟨rfl, rfl⟩

/-- The pairs of a block are there when the block reads. -/
theorem exists_blockPairsFields_iff
    (hhex : ∀ r ∈ footer.records, ∃ text, r.sha256.hexText py = .ok text) :
    (∃ pairs, blockPairsFields c py file footer (block, k) = .ok pairs) ↔
      BlockReads c py file footer k block := by
  have hpairs : ∀ payload,
      (∃ pairs, (footer.inBlock py k).mapM (recordPair py payload) = .ok pairs) ↔
      ∀ r ∈ footer.inBlock py k, r.offset.index.isSome = true ∧ r.length.index.isSome = true := by
    intro payload
    rw [exists_mapM_eq_ok_iff]
    exact forall₂_congr fun r hr => exists_recordPair_iff (hhex r (List.mem_of_mem_filter hr))
  rw [BlockReads, blockPairsFields]
  cases hpayload : blockPayload c file block with
  | error e => exact iff_of_false (by rintro ⟨pairs, h⟩; cases h) (by simp)
  | ok payload =>
      rw [← hpairs payload]
      exact (and_iff_right ⟨payload, rfl⟩).symm

theorem isCaught_of_blockPairsFields_eq_error {e : ArchiveError}
    (h : blockPairsFields c py file footer (block, k) = .error e) :
    e.isCaught = true ↔ block.Unseekable := by
  rw [blockPairsFields] at h
  cases hpayload : blockPayload c file block with
  | error e' =>
      rw [hpayload] at h
      obtain rfl := Except.error.inj h
      exact isCaught_of_blockPayload_eq_error hpayload
  | ok payload =>
      rw [hpayload] at h
      change (footer.inBlock py k).mapM (recordPair py payload) = .error e at h
      obtain ⟨-, r, -, hr, -⟩ := mapM_eq_error_iff.mp h
      refine iff_of_false ?_ fun hneg => ?_
      · rw [recordPair_eq_error hr]
        exact Bool.false_ne_true
      · rw [hneg.blockPayload_eq] at hpayload
        cases hpayload

theorem Unseekable.not_blockReads (h : block.Unseekable) :
    ¬BlockReads c py file footer k block := by
  rintro ⟨⟨payload, hpayload⟩, -⟩
  rw [h.blockPayload_eq] at hpayload
  cases hpayload

theorem mem_blockPairsFields_iff {pairs : List (String × Bytes)} {pair : String × Bytes}
    (h : blockPairsFields c py file footer (block, k) = .ok pairs) :
    pair ∈ pairs ↔ ∃ payload, blockPayload c file block = .ok payload ∧
      ∃ r ∈ footer.inBlock py k, recordPair py payload r = .ok pair := by
  rw [blockPairsFields] at h
  cases hpayload : blockPayload c file block with
  | error e =>
      rw [hpayload] at h
      cases h
  | ok payload =>
      rw [hpayload] at h
      change (footer.inBlock py k).mapM (recordPair py payload) = .ok pairs at h
      rw [mem_iff_of_mapM_eq_ok h]
      simp

end Blocks

/-! ## Segments -/

section Segments

variable {c : Codec} {py : Python} {disk : Disk} {file : Bytes} {footer : FooterFields}
  {entries : List (String × FooterPosition)} {rows : Table String BlobPosition}

theorem iterRecordsFields_of_hashable (h : ∀ r ∈ footer.records, r.blockNo.hashable = true) :
    iterRecordsFields c py file footer =
      (footer.blocks.zipIdx.mapM (blockPairsFields c py file footer)).map List.flatten := by
  have hany : (footer.records.any fun r => !r.blockNo.hashable) = false :=
    List.any_eq_false.mpr fun r hr => by simp [h r hr]
  rw [iterRecordsFields, hany]
  rfl

theorem iterRecordsFields_of_not_hashable
    (h : ¬∀ r ∈ footer.records, r.blockNo.hashable = true) :
    iterRecordsFields c py file footer = .error .shape := by
  have hany : (footer.records.any fun r => !r.blockNo.hashable) = true := by
    by_contra hnone
    rw [Bool.not_eq_true, List.any_eq_false] at hnone
    exact h fun r hr => by simpa using hnone r hr
  rw [iterRecordsFields, hany]
  rfl

theorem exists_hexText (h : footerRecords py footer = .ok entries) :
    ∀ r ∈ footer.records, ∃ text, r.sha256.hexText py = .ok text := by
  intro r hr
  obtain ⟨entry, hentry⟩ := exists_mapM_eq_ok_iff.mp ⟨entries, h⟩ r hr
  cases hhex : r.sha256.hexText py with
  | error e =>
      rw [hhex] at hentry
      cases hentry
  | ok text => exact ⟨text, rfl⟩

theorem mem_footerRecords_iff (h : footerRecords py footer = .ok entries) {sha256 : String}
    {p : FooterPosition} : (sha256, p) ∈ entries ↔
      ∃ r ∈ footer.records, r.sha256.hexText py = .ok sha256 ∧ r.position = p := by
  rw [mem_iff_of_mapM_eq_ok h]
  refine exists_congr fun r => and_congr_right fun _ => ?_
  cases r.sha256.hexText py with
  | error e => exact iff_of_false (fun h => by cases h) (fun h => by cases h.1)
  | ok text =>
      constructor
      · intro h
        obtain ⟨rfl, rfl⟩ := Prod.mk.inj (Except.ok.inj h)
        exact ⟨rfl, rfl⟩
      · rintro ⟨h, rfl⟩
        rw [Except.ok.inj h]
        rfl

/-- The digests of what is read are those claimed. -/
theorem forall_pairs_iff (hhashable : ∀ r ∈ footer.records, r.blockNo.hashable = true)
    {pairs : List (String × Bytes)} (h : iterRecordsFields c py file footer = .ok pairs) :
    (∀ pair ∈ pairs, c.hexdigest pair.2 = pair.1) ↔ ¬HasWrongBytes c py file footer := by
  rw [iterRecordsFields_of_hashable hhashable] at h
  cases hbs : footer.blocks.zipIdx.mapM (blockPairsFields c py file footer) with
  | error e =>
      rw [hbs] at h
      cases h
  | ok bs =>
      rw [hbs] at h
      obtain rfl : bs.flatten = pairs := Except.ok.inj h
      have hall := exists_zipIdx_mapM_eq_ok_iff.mp ⟨bs, hbs⟩
      constructor
      · rintro hdigests ⟨k, block, payload, r, pair, hblock, hpayload, hr, hpair, hwrong⟩
        obtain ⟨ps, hps⟩ := hall k block hblock
        refine hwrong (hdigests pair (List.mem_flatten.mpr ⟨ps, ?_, ?_⟩))
        · exact (mem_iff_of_mapM_eq_ok hbs).mpr
            ⟨(block, k), List.mem_zipIdx_iff_getElem?.mpr hblock, hps⟩
        · exact (mem_blockPairsFields_iff hps).mpr ⟨payload, hpayload, r, hr, hpair⟩
      · intro hright pair hpair
        obtain ⟨ps, hps, hpair⟩ := List.mem_flatten.mp hpair
        obtain ⟨⟨block, k⟩, hblock, hps⟩ := (mem_iff_of_mapM_eq_ok hbs).mp hps
        obtain ⟨payload, hpayload, r, hr, hpair⟩ := (mem_blockPairsFields_iff hps).mp hpair
        by_contra hwrong
        exact hright ⟨k, block, payload, r, pair, List.mem_zipIdx_iff_getElem?.mp hblock, hpayload,
          hr, hpair, hwrong⟩

variable (hentries : footerRecords py footer = .ok entries)
  (hhashable : ∀ r ∈ footer.records, r.blockNo.hashable = true)

include hentries hhashable

theorem iterRecordsFields_eq_error_iff {e : ArchiveError} :
    iterRecordsFields c py file footer = .error e ↔
      ∃ (k : ℕ) (block : BlockFields), footer.blocks[k]? = some block ∧
        blockPairsFields c py file footer (block, k) = .error e ∧
        ∀ j < k, ∀ earlier, footer.blocks[j]? = some earlier →
          BlockReads c py file footer j earlier := by
  have hmap : ∀ x : Except ArchiveError (List (List (String × Bytes))),
      x.map List.flatten = .error e ↔ x = .error e := by
    intro x
    cases x <;> simp [Except.map]
  rw [iterRecordsFields_of_hashable hhashable, hmap, zipIdx_mapM_eq_error_iff]
  simp only [exists_blockPairsFields_iff (exists_hexText hentries)]

theorem exists_iterRecordsFields_iff : (∃ pairs, iterRecordsFields c py file footer = .ok pairs) ↔
    ∀ (k : ℕ) block, footer.blocks[k]? = some block → BlockReads c py file footer k block := by
  have hmap : ∀ x : Except ArchiveError (List (List (String × Bytes))),
      (∃ pairs, x.map List.flatten = .ok pairs) ↔ ∃ bs, x = .ok bs := by
    intro x
    cases x <;> simp [Except.map]
  rw [iterRecordsFields_of_hashable hhashable, hmap, exists_zipIdx_mapM_eq_ok_iff]
  simp only [exists_blockPairsFields_iff (exists_hexText hentries)]

/-- Whatever is raised is caught when the blocks read, up to the first that cannot be
sought. -/
theorem isCaught_of_iterRecordsFields_iff :
    (∀ e, iterRecordsFields c py file footer = .error e → e.isCaught = true) ↔
      ∀ (k : ℕ) block, footer.blocks[k]? = some block →
        (∃ j < k, ∃ earlier, footer.blocks[j]? = some earlier ∧ earlier.Unseekable) ∨
          block.Unseekable ∨ BlockReads c py file footer k block := by
  constructor
  · intro h k block hblock
    cases hiter : iterRecordsFields c py file footer with
    | ok pairs =>
        exact Or.inr (Or.inr
          ((exists_iterRecordsFields_iff hentries hhashable).mp ⟨pairs, hiter⟩ k block hblock))
    | error e =>
        obtain ⟨j, failing, hj, herror, hbefore⟩ :=
          (iterRecordsFields_eq_error_iff hentries hhashable).mp hiter
        have hneg := (isCaught_of_blockPairsFields_eq_error herror).mp (h e hiter)
        rcases lt_trichotomy j k with hlt | rfl | hgt
        · exact Or.inl ⟨j, hlt, failing, hj, hneg⟩
        · obtain rfl := Option.some_inj.mp (hj.symm.trans hblock)
          exact Or.inr (Or.inl hneg)
        · exact Or.inr (Or.inr (hbefore k hgt block hblock))
  · intro h e hiter
    obtain ⟨k, block, hblock, herror, hbefore⟩ :=
      (iterRecordsFields_eq_error_iff hentries hhashable).mp hiter
    refine (isCaught_of_blockPairsFields_eq_error herror).mpr ?_
    rcases h k block hblock with ⟨j, hj, earlier, hearlier, hneg⟩ | hneg | hreads
    · exact absurd (hbefore j hj earlier hearlier) (Unseekable.not_blockReads hneg)
    · exact hneg
    · obtain ⟨pairs, hpairs⟩ := (exists_blockPairsFields_iff (exists_hexText hentries)).mpr hreads
      rw [hpairs] at herror
      cases herror

end Segments

/-! ## Rows -/

section Rows

variable {c : Codec} {py : Python} {disk : Disk} {segmentId : ℕ} {file : Bytes}
  {footer : FooterFields} {entries : List (String × FooterPosition)}
  {rows : Table String BlobPosition}

theorem number_of_index {v : Msgpack} {n : ℤ} (h : v.index = some n) : v.number py = some n := by
  cases v <;> first | exact h | cases h

/-- The record of a row, which lies in a block that reads, has the row's bytes. -/
theorem hexdigest_of_agrees (hentries : footerRecords py footer = .ok entries)
    (hright : ¬HasWrongBytes c py file footer) {sha256 : String} {p : FooterPosition}
    {position : BlobPosition} (hp : (sha256, p) ∈ entries) (hagrees : p.agrees py position = true)
    {k : ℕ} {block : BlockFields} (hblock : footer.blocks[k]? = some block)
    (hk : position.blockNo = k) {payload : Bytes}
    (hpayload : blockPayload c file block = .ok payload)
    (hreads : BlockReads c py file footer k block) :
    c.hexdigest (pySlice payload position.offset (position.offset + position.length)) = sha256 := by
  obtain ⟨r, hr, hhex, rfl⟩ := (mem_footerRecords_iff hentries).mp hp
  obtain ⟨hblockNo, hoffset, hlength⟩ := of_decide_eq_true hagrees
  have hin : r ∈ footer.inBlock py k :=
    List.mem_filter.mpr ⟨hr, decide_eq_true (hk ▸ hblockNo)⟩
  obtain ⟨ho, hl⟩ := hreads.2 r hin
  obtain ⟨o, ho⟩ := Option.isSome_iff_exists.mp ho
  obtain ⟨l, hl⟩ := Option.isSome_iff_exists.mp hl
  obtain rfl : o = position.offset := Option.some_inj.mp ((number_of_index ho).symm.trans hoffset)
  obtain rfl : l = position.length := Option.some_inj.mp ((number_of_index hl).symm.trans hlength)
  by_contra hwrong
  refine hright ⟨k, block, payload, r, (sha256, _), hblock, hpayload, hin, ?_, hwrong⟩
  rw [recordPair, recordSlice, ho, hl, hhex]
  rfl

theorem readFields_eq_ok_iff (hfooter : loadFooterFields c disk segmentId = .ok footer)
    (hfile : openSegment disk segmentId = .ok file) {sha256 : String} {position : BlobPosition} :
    (∃ data, readFields c disk segmentId sha256 position = .ok data ∧ c.hexdigest data = sha256) ↔
      ∃ block payload, pyIndex footer.blocks position.blockNo = .ok block ∧
        blockPayload c file block = .ok payload ∧
        c.hexdigest (pySlice payload position.offset (position.offset + position.length)) =
          sha256 := by
  constructor
  · rintro ⟨data, h, -⟩
    obtain ⟨footer', hfooter', h⟩ := bind_eq_ok_iff.mp h
    obtain rfl := Except.ok.inj (hfooter.symm.trans hfooter')
    obtain ⟨block, hblock, h⟩ := bind_eq_ok_iff.mp h
    obtain ⟨file', hfile', h⟩ := bind_eq_ok_iff.mp h
    obtain rfl := Except.ok.inj (hfile.symm.trans hfile')
    obtain ⟨payload, hpayload, h⟩ := bind_eq_ok_iff.mp h
    dsimp only at h
    split at h
    · cases h
    · next hsha => exact ⟨block, payload, hblock, hpayload, not_not.mp hsha⟩
  · rintro ⟨block, payload, hblock, hpayload, hsha⟩
    refine ⟨pySlice payload position.offset (position.offset + position.length), ?_, hsha⟩
    refine bind_eq_ok_iff.mpr ⟨footer, hfooter, bind_eq_ok_iff.mpr ⟨block, hblock, ?_⟩⟩
    refine bind_eq_ok_iff.mpr ⟨file, hfile, bind_eq_ok_iff.mpr ⟨payload, hpayload, ?_⟩⟩
    exact if_neg (not_not.mpr hsha)

theorem pyIndex_of_nonneg {α : Type} {items : List α} {i : ℤ} (hnonneg : 0 ≤ i) {item : α} :
    pyIndex items i = .ok item ↔ items[i.toNat]? = some item := by
  rw [pyIndex]
  simp only [if_neg (not_lt.mpr hnonneg)]
  cases items[i.toNat]? <;> simp

/-- When a footer verifies clean, the rows are read that name a block. -/
theorem reads_iff_namesBlock (hfooter : loadFooterFields c disk segmentId = .ok footer)
    (hfile : openSegment disk segmentId = .ok file)
    (hentries : footerRecords py footer = .ok entries)
    (hreads : ∀ (k : ℕ) block, footer.blocks[k]? = some block →
      BlockReads c py file footer k block)
    (hright : ¬HasWrongBytes c py file footer) (hmatch : PositionsMatch py entries rows)
    {sha256 : String} {position : BlobPosition} (hrow : rows.get? sha256 = some position) :
    (∃ data, readFields c disk segmentId sha256 position = .ok data ∧ c.hexdigest data = sha256) ↔
      NamesBlock c file footer sha256 position := by
  rw [readFields_eq_ok_iff hfooter hfile, NamesBlock]
  by_cases hneg : position.blockNo < 0
  · have hlt : position.blockNo < footer.blocks.length := by omega
    simp only [hlt, hneg, true_and, true_implies]
  · have hnonneg : 0 ≤ position.blockNo := not_lt.mp hneg
    simp only [hneg, false_implies, and_true, pyIndex_of_nonneg hnonneg]
    constructor
    · rintro ⟨block, payload, hblock, -⟩
      have hlt := (List.getElem?_eq_some_iff.mp hblock).1
      omega
    · intro hlt
      obtain ⟨block, hblock⟩ : ∃ block, footer.blocks[position.blockNo.toNat]? = some block :=
        ⟨_, List.getElem?_eq_getElem (by omega)⟩
      have hblockReads := hreads _ block hblock
      obtain ⟨payload, hpayload⟩ := hblockReads.1
      refine ⟨block, payload, hblock, hpayload, ?_⟩
      have hrel := hmatch sha256
      rw [hrow] at hrel
      cases hlast : lastOf entries sha256 with
      | none =>
          rw [hlast] at hrel
          cases hrel
      | some p =>
          rw [hlast] at hrel
          cases hrel with
          | some hagrees =>
              exact hexdigest_of_agrees hentries hright (mem_of_lastOf hlast) hagrees hblock
                (Int.toNat_of_nonneg hnonneg).symm hpayload hblockReads

end Rows

/-! ## Reports -/

section Reports

variable {c : Codec} {py : Python} {disk : Disk} {segmentId : ℕ}
  {rows : Table String BlobPosition}

theorem exists_reportCaught_iff {α : Type} {name : String} {body : Except ArchiveError α}
    {report : α → List String} : (∃ problems, reportCaught py name body report = .ok problems) ↔
      ∀ e, body = .error e → e.isCaught = true := by
  cases body with
  | ok a => simp [reportCaught]
  | error e => by_cases hcaught : e.isCaught = true <;> simp [reportCaught, hcaught]

theorem reportCaught_eq_nil_iff {α : Type} {name : String} {body : Except ArchiveError α}
    {report : α → List String} :
    reportCaught py name body report = .ok [] ↔ ∃ a, body = .ok a ∧ report a = [] := by
  cases body with
  | ok a => simp [reportCaught]
  | error e => by_cases hcaught : e.isCaught = true <;> simp [reportCaught, hcaught]

theorem digestProblems_eq_nil_iff {name : String} {pairs : List (String × Bytes)} :
    digestProblems c name pairs = [] ↔ ∀ pair ∈ pairs, c.hexdigest pair.2 = pair.1 := by
  rw [digestProblems, List.filterMap_eq_nil_iff]
  refine forall₂_congr fun pair _ => ?_
  by_cases h : c.hexdigest pair.2 = pair.1 <;> simp [h]

theorem exists_openSegment {footer : FooterFields}
    (h : loadFooterFields c disk segmentId = .ok footer) :
    ∃ file, openSegment disk segmentId = .ok file := by
  obtain ⟨compressed, h, -⟩ := bind_eq_ok_iff.mp h
  obtain ⟨file, hfile, -⟩ := bind_eq_ok_iff.mp h
  exact ⟨file, hfile⟩

theorem footerRecords_eq_error {footer : FooterFields} {e : ArchiveError}
    (h : footerRecords py footer = .error e) : e.isCaught = false := by
  obtain ⟨-, r, -, hr, -⟩ := mapM_eq_error_iff.mp h
  cases hhex : r.sha256.hexText py with
  | ok text =>
      rw [hhex] at hr
      cases hr
  | error e' =>
      rw [hhex] at hr
      obtain rfl : e' = e := Except.error.inj hr
      revert hhex
      cases r.sha256 <;> intro hhex <;> cases hhex <;> rfl

/-- A footer whose positions are read. -/
theorem readSegment_eq {footer : FooterFields} {file : Bytes}
    {entries : List (String × FooterPosition)}
    (hfooter : loadFooterFields c disk segmentId = .ok footer)
    (hfile : openSegment disk segmentId = .ok file)
    (hentries : footerRecords py footer = .ok entries) :
    readSegment c py disk segmentId =
      (iterRecordsFields c py file footer).map fun pairs => (entries, pairs) := by
  rw [readSegment, hfooter]
  change (footerRecords py footer >>= _) = _
  rw [hentries]
  change (openSegment disk segmentId >>= _) = _
  rw [hfile]
  change (iterRecordsFields c py file footer >>= _) = _
  cases iterRecordsFields c py file footer <;> rfl

/-- What is raised while the records are read, and what a clean report is about. -/
theorem verifiable_footer_iff {footer : FooterFields} {file : Bytes}
    {entries : List (String × FooterPosition)}
    (hfooter : loadFooterFields c disk segmentId = .ok footer)
    (hfile : openSegment disk segmentId = .ok file)
    (hentries : footerRecords py footer = .ok entries) :
    ((∀ e, iterRecordsFields c py file footer = .error e → e.isCaught = true) ∧
      ((∃ pairs, iterRecordsFields c py file footer = .ok pairs ∧
          (∀ pair ∈ pairs, c.hexdigest pair.2 = pair.1) ∧ PositionsMatch py entries rows) →
        ∀ sha256 position, rows.get? sha256 = some position →
          ∃ data, readFields c disk segmentId sha256 position = .ok data ∧
            c.hexdigest data = sha256)) ↔
      footer.Verifiable c py file entries rows := by
  by_cases hhashable : ∀ r ∈ footer.records, r.blockNo.hashable = true
  · rw [isCaught_of_iterRecordsFields_iff hentries hhashable]
    by_cases hstops : ∃ block ∈ footer.blocks, block.Unseekable
    · -- the verification ends with a problem, if it returns
      obtain ⟨block, hblock, hneg⟩ := hstops
      obtain ⟨k, hk⟩ := List.mem_iff_getElem?.mp hblock
      have hnot : ¬∃ pairs, iterRecordsFields c py file footer = .ok pairs := fun h =>
        Unseekable.not_blockReads hneg
          ((exists_iterRecordsFields_iff hentries hhashable).mp h k block hk)
      constructor
      · rintro ⟨hblocks, -⟩
        exact ⟨hhashable, hblocks, Or.inl ⟨block, hblock, hneg⟩⟩
      · intro h
        refine ⟨h.blocks, ?_⟩
        rintro ⟨pairs, hpairs, -⟩
        exact absurd ⟨pairs, hpairs⟩ hnot
    · have hblocks : (∀ (k : ℕ) block, footer.blocks[k]? = some block →
          (∃ j < k, ∃ earlier, footer.blocks[j]? = some earlier ∧ earlier.Unseekable) ∨
            block.Unseekable ∨ BlockReads c py file footer k block) ↔
          ∃ pairs, iterRecordsFields c py file footer = .ok pairs := by
        rw [exists_iterRecordsFields_iff hentries hhashable]
        refine forall₃_congr fun k block hblock => ⟨fun h => ?_, fun h => Or.inr (Or.inr h)⟩
        rcases h with ⟨j, -, earlier, hearlier, hneg⟩ | hneg | hreads
        · exact absurd ⟨earlier, List.mem_of_getElem? hearlier, hneg⟩ hstops
        · exact absurd ⟨block, List.mem_of_getElem? hblock, hneg⟩ hstops
        · exact hreads
      have hnames : (∃ pairs, iterRecordsFields c py file footer = .ok pairs) →
          ((∃ pairs, iterRecordsFields c py file footer = .ok pairs ∧
            (∀ pair ∈ pairs, c.hexdigest pair.2 = pair.1) ∧ PositionsMatch py entries rows) ↔
          ¬HasWrongBytes c py file footer ∧ PositionsMatch py entries rows) := by
        rintro ⟨pairs, hpairs⟩
        rw [← forall_pairs_iff hhashable hpairs]
        constructor
        · rintro ⟨pairs', hpairs', h⟩
          obtain rfl := Except.ok.inj (hpairs.symm.trans hpairs')
          exact h
        · exact fun h => ⟨pairs, hpairs, h⟩
      constructor
      · rintro ⟨hreturns, hsound⟩
        refine ⟨hhashable, hreturns, ?_⟩
        have hok := hblocks.mp hreturns
        rw [hnames hok] at hsound
        by_cases hwrong : HasWrongBytes c py file footer
        · exact Or.inr (Or.inl hwrong)
        · by_cases hmatch : PositionsMatch py entries rows
          · refine Or.inr (Or.inr (Or.inr fun sha256 position hrow => ?_))
            exact (reads_iff_namesBlock hfooter hfile hentries
              ((exists_iterRecordsFields_iff hentries hhashable).mp hok) hwrong hmatch hrow).mp
              (hsound ⟨hwrong, hmatch⟩ sha256 position hrow)
          · exact Or.inr (Or.inr (Or.inl hmatch))
      · intro h
        have hok := hblocks.mp h.blocks
        refine ⟨h.blocks, ?_⟩
        rw [hnames hok]
        rintro ⟨hright, hmatch⟩ sha256 position hrow
        rcases h.named with hstop | hwrong | hdiffer | hnamed
        · exact absurd hstop hstops
        · exact absurd hwrong hright
        · exact absurd hmatch hdiffer
        · exact (reads_iff_namesBlock hfooter hfile hentries
            ((exists_iterRecordsFields_iff hentries hhashable).mp hok) hright hmatch hrow).mpr
            (hnamed sha256 position hrow)
  · refine iff_of_false ?_ fun h => hhashable h.hashable
    rintro ⟨hreturns, -⟩
    have := hreturns _ (iterRecordsFields_of_not_hashable hhashable)
    cases this

/-- The verification of a segment returns, and a clean report is right, exactly when the
segment's file is as it must be. -/
theorem verifiable_iff :
    ((∃ problems, verifySegment c py disk segmentId rows = .ok problems) ∧
      (verifySegment c py disk segmentId rows = .ok [] →
        ∀ sha256 position, rows.get? sha256 = some position →
          ∃ data, readFields c disk segmentId sha256 position = .ok data ∧
            c.hexdigest data = sha256)) ↔
      Verifiable c py disk segmentId rows := by
  rw [verifySegment, exists_reportCaught_iff, reportCaught_eq_nil_iff, Verifiable]
  cases hfooter : loadFooterFields c disk segmentId with
  | error e =>
      have hbody : readSegment c py disk segmentId = .error e := by
        rw [readSegment, hfooter]
        rfl
      simp [hbody]
  | ok footer =>
      obtain ⟨file, hfile⟩ := exists_openSegment hfooter
      cases hentries : footerRecords py footer with
      | error e =>
          have hbody : readSegment c py disk segmentId = .error e := by
            rw [readSegment, hfooter]
            change (footerRecords py footer >>= _) = _
            rw [hentries]
            rfl
          simp [hbody, hentries, footerRecords_eq_error hentries]
      | ok entries =>
          rw [readSegment_eq hfooter hfile hentries]
          have hraises : ∀ e, (iterRecordsFields c py file footer).map (fun pairs =>
              (entries, pairs)) = .error e ↔ iterRecordsFields c py file footer = .error e := by
            intro e
            cases iterRecordsFields c py file footer <;> simp [Except.map]
          have hclean : (∃ read, (iterRecordsFields c py file footer).map (fun pairs =>
              (entries, pairs)) = .ok read ∧ digestProblems c (segmentName segmentId) read.2 ++
                positionProblems py (segmentName segmentId) read.1 rows = []) ↔
              ∃ pairs, iterRecordsFields c py file footer = .ok pairs ∧
                (∀ pair ∈ pairs, c.hexdigest pair.2 = pair.1) ∧ PositionsMatch py entries rows := by
            cases iterRecordsFields c py file footer with
            | error e => simp [Except.map]
            | ok pairs =>
                simp [Except.map, digestProblems_eq_nil_iff, positionProblems_eq_nil_iff]
          simp only [hraises, hclean]
          refine (verifiable_footer_iff hfooter hfile hentries).trans ?_
          constructor
          · exact fun h => ⟨file, entries, hfile, hentries, h⟩
          · rintro ⟨file', entries', hfile', hentries', h⟩
            obtain rfl := Except.ok.inj (hfile.symm.trans hfile')
            obtain rfl := Except.ok.inj (hentries.symm.trans hentries')
            exact h

/-- `verify_archive` returns a report in which no problem for a segment means that its rows
are read, exactly when the files are as they must be. -/
theorem verifySound_iff {segmentIds : List ℕ} {rows : ℕ → Table String BlobPosition} :
    VerifySound c py disk segmentIds rows ↔
      ∀ id ∈ segmentIds, Verifiable c py disk id (rows id) := by
  have hreturns : (∃ problems, verifyArchive c py disk segmentIds rows = .ok problems) ↔
      ∀ id ∈ segmentIds, ∃ problems, verifySegment c py disk id (rows id) = .ok problems := by
    rw [← exists_mapM_eq_ok_iff, verifyArchive]
    cases segmentIds.mapM fun id => verifySegment c py disk id (rows id) with
    | error e => exact iff_of_false (by rintro ⟨problems, h⟩; cases h) (by simp)
    | ok problems => exact iff_of_true ⟨_, rfl⟩ ⟨problems, rfl⟩
  constructor
  · intro h id hid
    exact verifiable_iff.mp ⟨hreturns.mp h.returns id hid, h.reads id hid⟩
  · intro h
    exact ⟨hreturns.mpr fun id hid => (verifiable_iff.mpr (h id hid)).1,
      fun id hid => (verifiable_iff.mpr (h id hid)).2⟩

end Reports

/-- An interpreter for documents without floats. -/
def examplePython : Python := ⟨fun _ => none, fun _ => "", fun _ => "", fun _ => ""⟩

/-- The file of a segment with one record, whose frame has lost its magic number. -/
def damagedFile : Bytes :=
  0xff :: abcFrame.drop 1 ++ abcFooter ++
    (encodeTrailer 12 abcFooter.length (footerCrc32 exampleCodec abcFooter)).toOption.getD []

def damagedDisk : Disk := (∅ : Disk).set (0, .zst) damagedFile

/-- The footer is intact, and the frame is not: the verification raises. -/
theorem verification_raises :
    (verifyArchive exampleCodec examplePython damagedDisk [0] fun _ => ∅) =
      .error (.zstd "Unknown frame descriptor") ∧
    ¬VerifySound exampleCodec examplePython damagedDisk [0] fun _ => ∅ := by
  have hraises : (verifyArchive exampleCodec examplePython damagedDisk [0] fun _ => ∅) =
      .error (.zstd "Unknown frame descriptor") := by
    delta damagedDisk damagedFile
    rw [exampleCodec_eq, abcPacked_eq, abcFooter_eq, abcSha256_eq, abcFooterSha256_eq]
    decide +kernel
  refine ⟨hraises, fun h => ?_⟩
  obtain ⟨problems, hreport⟩ := h.returns
  rw [hraises] at hreport
  cases hreport

end RerollSync.Archive
