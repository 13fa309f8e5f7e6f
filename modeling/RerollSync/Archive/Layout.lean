import RerollSync.Archive.Format

/-!
# The layout of a segment

What a segment is meant to hold: blocks of records.  The frames, the block
entries and the record entries of the file are functions of the blocks, and
every record is found again from its entry.
-/

namespace RerollSync.Archive

open RerollSync.Support
open RerollSync.Store (Bytes)

/-- `BlobLocation`. -/
structure BlobLocation where
  sha256 : String
  segmentId : ℕ
  blockNo : ℕ
  offset : ℕ
  length : ℕ
deriving DecidableEq

/-- `data[offset : offset + length]`. -/
def slice (data : Bytes) (offset length : ℕ) : Bytes := (data.drop offset).take length

/-! ## Positions in a concatenation -/

section Concatenation

variable {α : Type}

/-- A part of a concatenation starts where the parts before it end. -/
theorem take_drop_flatten {l : List (List α)} {j : ℕ} {x : List α} (h : l[j]? = some x) :
    (l.flatten.drop (l.take j).flatten.length).take x.length = x := by
  induction l generalizing j with
  | nil => cases h
  | cons y l ih =>
      cases j with
      | zero =>
          obtain rfl : y = x := by simpa using h
          simp
      | succ j =>
          rw [List.flatten_cons, List.take_succ_cons, List.flatten_cons, List.length_append,
            List.drop_length_add_append]
          exact ih (by simpa using h)

theorem length_take_flatten_add {l : List (List α)} {j : ℕ} {x : List α} (h : l[j]? = some x) :
    (l.take j).flatten.length + x.length ≤ l.flatten.length := by
  induction l generalizing j with
  | nil => cases h
  | cons y l ih =>
      cases j with
      | zero =>
          obtain rfl : y = x := by simpa using h
          simp
      | succ j =>
          have hrest := ih (j := j) (by simpa using h)
          simp only [List.take_succ_cons, List.flatten_cons, List.length_append]
          omega

end Concatenation

section Layout

variable (c : Codec) (level : ℤ)

/-- The frame of a block. -/
def frame (block : List Bytes) : Bytes := compressBlock c level block.flatten

/-- The frames of a segment. -/
def frames (blocks : List (List Bytes)) : Bytes := (blocks.map (frame c level)).flatten

/-- The block entries, with the first frame at `offset`. -/
def blockEntries : ℕ → List (List Bytes) → List BlockEntry
  | _, [] => []
  | offset, block :: blocks =>
      ⟨offset, (frame c level block).length, block.flatten.length⟩ ::
        blockEntries (offset + (frame c level block).length) blocks

/-- The record entries of a block, with the first record at `offset`. -/
def blockRecords (blockNo : ℕ) : ℕ → List Bytes → List RecordEntry
  | _, [] => []
  | offset, data :: block =>
      ⟨c.sha256 data, blockNo, offset, data.length⟩ ::
        blockRecords blockNo (offset + data.length) block

/-- The record entries, with the first block numbered `blockNo`. -/
def recordEntries : ℕ → List (List Bytes) → List RecordEntry
  | _, [] => []
  | blockNo, block :: blocks => blockRecords c blockNo 0 block ++ recordEntries (blockNo + 1) blocks

/-! ## Growing a layout -/

theorem frames_snoc (blocks : List (List Bytes)) (block : List Bytes) :
    frames c level (blocks ++ [block]) = frames c level blocks ++ frame c level block := by
  simp [frames]

theorem blockEntries_snoc (offset : ℕ) (blocks : List (List Bytes)) (block : List Bytes) :
    blockEntries c level offset (blocks ++ [block]) = blockEntries c level offset blocks ++
      [⟨offset + (frames c level blocks).length, (frame c level block).length,
        block.flatten.length⟩] := by
  induction blocks generalizing offset with
  | nil => simp [blockEntries, frames]
  | cons b blocks ih => simp [blockEntries, ih, frames, Nat.add_assoc]

theorem blockRecords_snoc (blockNo offset : ℕ) (block : List Bytes) (data : Bytes) :
    blockRecords c blockNo offset (block ++ [data]) = blockRecords c blockNo offset block ++
      [⟨c.sha256 data, blockNo, offset + block.flatten.length, data.length⟩] := by
  induction block generalizing offset with
  | nil => simp [blockRecords]
  | cons d block ih => simp [blockRecords, ih, Nat.add_assoc]

theorem recordEntries_snoc (blockNo : ℕ) (blocks : List (List Bytes)) (block : List Bytes) :
    recordEntries c blockNo (blocks ++ [block]) =
      recordEntries c blockNo blocks ++ blockRecords c (blockNo + blocks.length) 0 block := by
  induction blocks generalizing blockNo with
  | nil => simp [recordEntries]
  | cons b blocks ih =>
      simp [recordEntries, ih, Nat.add_assoc, Nat.add_comm 1]

/-- An open block without records adds no entries. -/
theorem recordEntries_snoc_nil (blockNo : ℕ) (blocks : List (List Bytes)) :
    recordEntries c blockNo (blocks ++ [[]]) = recordEntries c blockNo blocks := by
  rw [recordEntries_snoc, blockRecords, List.append_nil]

/-! ## Entries and what they locate -/

theorem length_blockEntries (offset : ℕ) (blocks : List (List Bytes)) :
    (blockEntries c level offset blocks).length = blocks.length := by
  induction blocks generalizing offset with
  | nil => rfl
  | cons b blocks ih => simp [blockEntries, ih]

theorem getElem?_blockEntries (offset k : ℕ) (blocks : List (List Bytes)) :
    (blockEntries c level offset blocks)[k]? = blocks[k]?.map fun block =>
      ⟨offset + (frames c level (blocks.take k)).length, (frame c level block).length,
        block.flatten.length⟩ := by
  induction blocks generalizing offset k with
  | nil => simp [blockEntries]
  | cons b blocks ih =>
      cases k with
      | zero => simp [blockEntries, frames]
      | succ k => simp [blockEntries, ih, frames, Nat.add_assoc]

/-- A frame is found at its entry, whatever follows the frames. -/
theorem slice_frames {blocks : List (List Bytes)} {k : ℕ} {block : List Bytes}
    (h : blocks[k]? = some block) (rest : Bytes) :
    slice (frames c level blocks ++ rest) (frames c level (blocks.take k)).length
      (frame c level block).length = frame c level block := by
  have hmap : (blocks.map (frame c level))[k]? = some (frame c level block) := by simp [h]
  have hle := length_take_flatten_add hmap
  have hfound := take_drop_flatten hmap
  simp only [← List.map_take] at hle hfound
  change (frames c level (blocks.take k)).length + _ ≤ (frames c level blocks).length at hle
  change ((frames c level blocks).drop (frames c level (blocks.take k)).length).take _ = _ at hfound
  rw [slice, List.drop_append_of_le_length (by omega),
    List.take_append_of_le_length (by rw [List.length_drop]; omega), hfound]

theorem blockNo_of_mem_blockRecords {blockNo offset : ℕ} {block : List Bytes} {r : RecordEntry}
    (h : r ∈ blockRecords c blockNo offset block) : r.blockNo = blockNo := by
  induction block generalizing offset with
  | nil => cases h
  | cons d block ih =>
      rcases List.mem_cons.mp h with rfl | h
      · rfl
      · exact ih h

theorem le_blockNo_of_mem_recordEntries {n : ℕ} {blocks : List (List Bytes)} {r : RecordEntry}
    (h : r ∈ recordEntries c n blocks) : n ≤ r.blockNo := by
  induction blocks generalizing n with
  | nil => cases h
  | cons b blocks ih =>
      rcases List.mem_append.mp h with h | h
      · exact (blockNo_of_mem_blockRecords c h).ge
      · exact le_trans (Nat.le_succ n) (ih h)

/-- The entries that name a block are the entries of its records. -/
theorem filter_recordEntries (n k : ℕ) (blocks : List (List Bytes)) :
    (recordEntries c n blocks).filter (fun r => r.blockNo = n + k) =
      blockRecords c (n + k) 0 (blocks[k]?.getD []) := by
  induction blocks generalizing n k with
  | nil => rfl
  | cons b blocks ih =>
      rw [recordEntries, List.filter_append]
      cases k with
      | zero =>
          have hfirst : (blockRecords c n 0 b).filter (fun r => r.blockNo = n) =
              blockRecords c n 0 b :=
            List.filter_eq_self.mpr fun r hr => by simpa using blockNo_of_mem_blockRecords c hr
          have hrest : (recordEntries c (n + 1) blocks).filter (fun r => r.blockNo = n) = [] :=
            List.filter_eq_nil_iff.mpr fun r hr => by
              have := le_blockNo_of_mem_recordEntries c hr
              simp only [decide_eq_true_eq]
              omega
          simp [hfirst, hrest]
      | succ k =>
          have hfirst : (blockRecords c n 0 b).filter (fun r => r.blockNo = n + (k + 1)) = [] :=
            List.filter_eq_nil_iff.mpr fun r hr => by
              have := blockNo_of_mem_blockRecords c hr
              simp only [decide_eq_true_eq]
              omega
          have hrest := ih (n + 1) k
          rw [show n + 1 + k = n + (k + 1) by omega] at hrest
          rw [hfirst, hrest, List.nil_append, List.getElem?_cons_succ]

/-- Reading the entries of a block out of its payload gives its records. -/
theorem map_blockRecords (blockNo : ℕ) (before block : List Bytes) :
    (blockRecords c blockNo before.flatten.length block).map (fun r =>
      (hex r.sha256, slice (before ++ block).flatten r.offset r.length)) =
      block.map fun data => (c.hexdigest data, data) := by
  induction block generalizing before with
  | nil => rfl
  | cons d block ih =>
      have hslice : slice (before ++ d :: block).flatten before.flatten.length d.length = d := by
        simp [slice]
      have hrest := ih (before ++ [d])
      simp only [List.append_assoc, List.singleton_append, List.flatten_append,
        List.length_append, List.flatten_cons, List.flatten_nil, List.append_nil] at hrest
      rw [blockRecords, List.map_cons, List.map_cons, hslice]
      refine congrArg₂ _ rfl ?_
      simpa using hrest

theorem sum_blockRecords (blockNo offset : ℕ) (block : List Bytes) :
    ((blockRecords c blockNo offset block).map RecordEntry.length).sum = block.flatten.length := by
  induction block generalizing offset with
  | nil => rfl
  | cons d block ih => simp [blockRecords, ih]

theorem length_blockRecords (blockNo offset : ℕ) (block : List Bytes) :
    (blockRecords c blockNo offset block).length = block.length := by
  induction block generalizing offset with
  | nil => rfl
  | cons d block ih => simp [blockRecords, ih]

end Layout

/-! ## Locations -/

/-- The location is where `data` lies in the blocks. -/
def Located (c : Codec) (segmentId : ℕ) (blocks : List (List Bytes)) (data : Bytes)
    (location : BlobLocation) : Prop :=
  ∃ k block j, blocks[k]? = some block ∧ block[j]? = some data ∧
    location = ⟨c.hexdigest data, segmentId, k, (block.take j).flatten.length, data.length⟩

/-- The blocks have grown: new blocks at the end, new records at the end of a block. -/
def Extends (blocks blocks' : List (List Bytes)) : Prop :=
  ∀ (k : ℕ) (block : List Bytes), blocks[k]? = some block → block ≠ [] →
    ∃ more, blocks'[k]? = some (block ++ more)

theorem Extends.refl (blocks : List (List Bytes)) : Extends blocks blocks :=
  fun _ _ h _ => ⟨[], by simpa using h⟩

theorem extends_append (blocks more : List (List Bytes)) : Extends blocks (blocks ++ more) := by
  intro k block h _
  have hk : k < blocks.length := (List.getElem?_eq_some_iff.mp h).1
  exact ⟨[], by rw [List.getElem?_append_left hk, h, List.append_nil]⟩

theorem extends_snoc (blocks : List (List Bytes)) (block more : List Bytes) :
    Extends (blocks ++ [block]) (blocks ++ [block ++ more]) := by
  intro k b h _
  by_cases hk : k < blocks.length
  · rw [List.getElem?_append_left hk] at h ⊢
    exact ⟨[], by rw [h, List.append_nil]⟩
  · rw [List.getElem?_append_right (by omega)] at h ⊢
    obtain ⟨hzero, rfl⟩ : k - blocks.length = 0 ∧ block = b := by
      cases hk' : k - blocks.length with
      | zero => simpa [hk'] using h
      | succ n => simp [hk'] at h
    exact ⟨more, by simp [hzero]⟩

/-- An open block without records can be dropped. -/
theorem extends_of_snoc_nil (blocks : List (List Bytes)) : Extends (blocks ++ [[]]) blocks := by
  intro k block h hne
  by_cases hk : k < blocks.length
  · rw [List.getElem?_append_left hk] at h
    exact ⟨[], by rw [h, List.append_nil]⟩
  · rw [List.getElem?_append_right (by omega)] at h
    obtain rfl : block = [] := by
      cases hk' : k - blocks.length with
      | zero => simpa [hk', eq_comm] using h
      | succ n => simp [hk'] at h
    exact (hne rfl).elim

/-- A record stays where it is while the blocks grow. -/
theorem Located.mono {c : Codec} {segmentId : ℕ} {blocks blocks' : List (List Bytes)} {data : Bytes}
    {location : BlobLocation} (h : Located c segmentId blocks data location)
    (hext : Extends blocks blocks') : Located c segmentId blocks' data location := by
  obtain ⟨k, block, j, hblock, hdata, rfl⟩ := h
  have hj : j < block.length := (List.getElem?_eq_some_iff.mp hdata).1
  obtain ⟨more, hmore⟩ := hext k block hblock (List.ne_nil_of_length_pos (by omega))
  refine ⟨k, block ++ more, j, hmore, ?_, ?_⟩
  · rw [List.getElem?_append_left hj, hdata]
  · rw [List.take_append_of_le_length hj.le]

/-- A located record is a record of the blocks. -/
theorem Located.mem {c : Codec} {segmentId : ℕ} {blocks : List (List Bytes)} {data : Bytes}
    {location : BlobLocation} (h : Located c segmentId blocks data location) :
    data ∈ blocks.flatten := by
  obtain ⟨k, block, j, hblock, hdata, -⟩ := h
  exact List.mem_flatten.mpr ⟨block, List.mem_of_getElem? hblock, List.mem_of_getElem? hdata⟩

/-- The record is the slice of its block's payload that its location names. -/
theorem Located.slice_eq {c : Codec} {segmentId : ℕ} {blocks : List (List Bytes)} {data : Bytes}
    {location : BlobLocation} (h : Located c segmentId blocks data location) :
    ∃ block, blocks[location.blockNo]? = some block ∧
      slice block.flatten location.offset location.length = data ∧
      location.sha256 = c.hexdigest data ∧ location.segmentId = segmentId := by
  obtain ⟨k, block, j, hblock, hdata, rfl⟩ := h
  exact ⟨block, hblock, take_drop_flatten hdata, rfl, rfl⟩

end RerollSync.Archive
