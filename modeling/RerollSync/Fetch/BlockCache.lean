import RerollSync.Fetch.IntactBlobs

/-!
# The block cache

`SegmentReader` keeps the blocks it has decompressed last.  This module says which blocks
a sequence of reads decompresses, that the cache never holds more blocks than it may, and
that reads that come block by block decompress each block at most once.
-/

namespace RerollSync.Support.Table

variable {κ ρ : Type*} [DecidableEq κ] {t : Table κ ρ} {k : κ} {r : ρ}

/-- A new key comes last. -/
theorem rows_insertNew_of_get?_none (h : t.get? k = none) (r : ρ) :
    (t.insertNew k r).rows = t.rows ++ [(k, r)] := by
  rw [insertNew, dif_neg (get?_eq_none_iff.mp h)]

theorem rows_set_of_get?_none (h : t.get? k = none) (r : ρ) :
    (t.set k r).rows = t.rows ++ [(k, r)] := by
  have hsame : t.modify (fun k' r' => if k' = k then r else r') = t := by
    refine (modify_congr fun k' r' hget => ?_).trans (modify_eq_self fun _ r' => rfl)
    rw [if_neg]
    rintro rfl
    rw [h] at hget
    cases hget
  rw [set, hsame, rows_insertNew_of_get?_none h]

/-- Moving a key to the end leaves as many rows. -/
theorem length_rows_moveToEnd (h : t.get? k = some r) (r' : ρ) :
    ((t.filter fun k' _ => k' ≠ k).insertNew k r').rows.length ≤ t.rows.length := by
  have hnone : (t.filter fun k' _ => decide (k' ≠ k)).get? k = none := by
    rw [get?_filter_key]
    simp
  have hfewer : (t.rows.filter fun row => decide (row.1 ≠ k)).length < t.rows.length := by
    refine List.length_filter_lt_length_iff_exists.mpr ⟨(k, r), get?_eq_some_iff.mp h, ?_⟩
    simp
  rw [rows_insertNew_of_get?_none hnone, List.length_append]
  exact hfewer

end RerollSync.Support.Table

namespace RerollSync.Archive

open RerollSync.Support
open RerollSync.Store (Bytes)

/-- What a method returns or raises, and the reader it leaves. -/
def Read.outcome {α : Type} (m : Read α) (r : Reader) : Except ArchiveError α × Reader :=
  match m r with
  | .ok a r' => (.ok a, r')
  | .error e r' => (.error e, r')

/-- The key of a block in the cache. -/
def BlobLocation.block (location : BlobLocation) : ℕ × ℕ := (location.segmentId, location.blockNo)

/-- Reads one after the other, whatever they return or raise. -/
def readAll (c : Codec) (disk : Disk) :
    List BlobLocation → Reader → List (Except ArchiveError Bytes) × Reader
  | [], r => ([], r)
  | location :: rest, r =>
      let (answer, r) := (Reader.read c disk location).outcome r
      let (answers, r) := readAll c disk rest r
      (answer :: answers, r)

/-- The blocks that the reads decompress, in order: `read` decompresses the block of its
location when it is not cached. -/
def decompressed (c : Codec) (disk : Disk) : List BlobLocation → Reader → List (ℕ × ℕ)
  | [], _ => []
  | location :: rest, r =>
      let later := decompressed c disk rest ((Reader.read c disk location).outcome r).2
      if (r.blocks.get? location.block).isNone then location.block :: later else later

variable {c : Codec} {disk : Disk} {location : BlobLocation} {r : Reader}

/-! ## One read -/

theorem Reads.outcome {α : Type} {m : Read α} {value : Except ArchiveError α}
    (h : Reads c disk m value) (hr : r.Valid c disk) :
    (m.outcome r).1 = value ∧ (m.outcome r).2.Valid c disk := by
  obtain ⟨r', hr', hrun⟩ := h r hr
  cases value <;> (rw [Read.outcome, hrun]; exact ⟨rfl, hr'⟩)

theorem outcome_bind {α β : Type} (m : Read α) (f : α → Read β) (r : Reader) :
    (m >>= f : Read β).outcome r =
      match m.outcome r with
      | (.ok a, r') => (f a).outcome r'
      | (.error e, r') => (.error e, r') := by
  simp only [Read.outcome, bind, EStateM.bind]
  cases m r <;> rfl

theorem outcome_lift {α : Type} (value : Except ArchiveError α) (r : Reader) :
    (Read.lift value).outcome r = (value, r) := by
  cases value <;> rfl

/-- `self`, in the reader's monad. -/
theorem get_eq (r : Reader) : (EStateM.get : Read Reader) r = .ok r r := rfl

/-- Looking up a footer changes no block. -/
theorem outcome_footerFor (c : Codec) (disk : Disk) (segmentId : ℕ) (r : Reader) :
    ∃ footers, ((Reader.footerFor c disk segmentId).outcome r).2 =
      { r with footers := footers } := by
  rcases hcached : r.footers.get? segmentId with _ | cached
  · rcases hload : loadFooter c disk segmentId with e | footer
    · exact ⟨r.footers, by
        simp only [Reader.footerFor, Read.outcome, bind, EStateM.bind, get, getThe,
          MonadStateOf.get, get_eq, hcached, hload]
        rfl⟩
    · exact ⟨r.footers.set segmentId footer, by
        simp only [Reader.footerFor, Read.outcome, bind, EStateM.bind, get, getThe,
          MonadStateOf.get, get_eq, hcached, hload]
        rfl⟩
  · exact ⟨r.footers, by
      simp only [Reader.footerFor, Read.outcome, bind, EStateM.bind, get, getThe,
        MonadStateOf.get, get_eq, hcached]
      rfl⟩

/-- A block that is cached is returned as it is, whatever the files say, and moved to the
end. -/
theorem outcome_blockBytes_of_cached (c : Codec) (disk : Disk) {segmentId blockNo : ℕ}
    {data : Bytes} (h : r.blocks.get? (segmentId, blockNo) = some data) :
    (Reader.blockBytes c disk segmentId blockNo).outcome r =
      (.ok data, { r with
        blocks := (r.blocks.filter fun k _ => k ≠ (segmentId, blockNo)).insertNew
          (segmentId, blockNo) data }) := by
  simp only [Reader.blockBytes, Read.outcome, bind, EStateM.bind, get, getThe, MonadStateOf.get,
    get_eq, h]
  rfl

/-- A block that is not cached is loaded, and stored if that succeeds. -/
theorem outcome_blockBytes_of_not_cached (c : Codec) (disk : Disk) {segmentId blockNo : ℕ}
    (h : r.blocks.get? (segmentId, blockNo) = none) :
    ∃ footers, (∃ e, (Reader.blockBytes c disk segmentId blockNo).outcome r =
        (.error e, { r with footers := footers })) ∨
      ∃ data, (Reader.blockBytes c disk segmentId blockNo).outcome r =
        (.ok data, { r with
          footers := footers
          blocks :=
            if r.blockCacheSize < (r.blocks.set (segmentId, blockNo) data).rows.length then
              (r.blocks.set (segmentId, blockNo) data).dropFirst
            else r.blocks.set (segmentId, blockNo) data }) := by
  obtain ⟨footers, hfooters⟩ := outcome_footerFor c disk segmentId r
  have hblock : (Reader.blockBytes c disk segmentId blockNo).outcome r =
      (do
        let footer ← Reader.footerFor c disk segmentId
        let data ← Read.lift (loadBlock c disk segmentId blockNo footer)
        Reader.storeBlock (segmentId, blockNo) data
        return data : Read Bytes).outcome r := by
    simp only [Reader.blockBytes, Read.outcome, bind, EStateM.bind, get, getThe, MonadStateOf.get,
      get_eq, h]
  refine ⟨footers, ?_⟩
  rw [hblock, outcome_bind]
  rcases hfooter : (Reader.footerFor c disk segmentId).outcome r with ⟨answer, r'⟩
  rw [hfooter] at hfooters
  obtain rfl : r' = { r with footers := footers } := hfooters
  cases answer with
  | error e => exact Or.inl ⟨e, rfl⟩
  | ok footer =>
      dsimp only
      rw [outcome_bind, outcome_lift]
      cases loadBlock c disk segmentId blockNo footer with
      | error e => exact Or.inl ⟨e, rfl⟩
      | ok data => exact Or.inr ⟨data, rfl⟩

/-- The reader that a read leaves is the one that looking up the block leaves. -/
theorem outcome_read (c : Codec) (disk : Disk) (location : BlobLocation) (r : Reader) :
    ((Reader.read c disk location).outcome r).2 =
      ((Reader.blockBytes c disk location.segmentId location.blockNo).outcome r).2 := by
  rw [Reader.read, outcome_bind]
  rcases (Reader.blockBytes c disk location.segmentId location.blockNo).outcome r with ⟨answer, r'⟩
  cases answer with
  | error e => rfl
  | ok block =>
      dsimp only
      rw [outcome_lift]

/-- No read makes the cache grow beyond its size. -/
theorem length_blocks_read (c : Codec) (disk : Disk) (location : BlobLocation)
    (h : r.blocks.rows.length ≤ r.blockCacheSize) :
    ((Reader.read c disk location).outcome r).2.blocks.rows.length ≤ r.blockCacheSize ∧
      ((Reader.read c disk location).outcome r).2.blockCacheSize = r.blockCacheSize := by
  rw [outcome_read]
  cases hget : r.blocks.get? (location.segmentId, location.blockNo) with
  | some data =>
      rw [outcome_blockBytes_of_cached c disk hget]
      exact ⟨(Table.length_rows_moveToEnd hget data).trans h, rfl⟩
  | none =>
      obtain ⟨footers, ⟨e, hload⟩ | ⟨data, hload⟩⟩ :=
        outcome_blockBytes_of_not_cached c disk hget
      · rw [hload]
        exact ⟨h, rfl⟩
      · rw [hload]
        refine ⟨?_, rfl⟩
        have hset := congrArg List.length (Table.rows_set_of_get?_none hget data)
        rw [List.length_append, List.length_singleton] at hset
        dsimp only
        split
        · rw [Table.dropFirst, List.length_tail]
          omega
        · omega

/-- A block that has been read is cached. -/
theorem isSome_block_of_read (hsize : 1 ≤ r.blockCacheSize) {data : Bytes}
    (hread : ((Reader.read c disk location).outcome r).1 = .ok data) :
    (((Reader.read c disk location).outcome r).2.blocks.get? location.block).isSome = true ∧
      ((Reader.read c disk location).outcome r).2.blockCacheSize = r.blockCacheSize := by
  rw [outcome_read, BlobLocation.block]
  cases hget : r.blocks.get? (location.segmentId, location.blockNo) with
  | some cached =>
      rw [outcome_blockBytes_of_cached c disk hget]
      exact ⟨by simp [Table.get?_insertNew], rfl⟩
  | none =>
      obtain ⟨footers, ⟨e, hload⟩ | ⟨block, hload⟩⟩ :=
        outcome_blockBytes_of_not_cached c disk hget
      · rw [Reader.read, outcome_bind, hload] at hread
        cases hread
      · rw [hload]
        refine ⟨?_, rfl⟩
        have hset := Table.rows_set_of_get?_none hget block
        have hlast : ((location.segmentId, location.blockNo), block) ∈
            (r.blocks.set (location.segmentId, location.blockNo) block).rows := by
          rw [hset]
          exact List.mem_append_right _ (List.mem_singleton_self _)
        dsimp only
        split
        next hfull =>
          -- what is evicted is the first of at least two blocks
          rw [Option.isSome_iff_exists]
          refine ⟨block, Table.get?_eq_some_iff.mpr ?_⟩
          change _ ∈ (r.blocks.set (location.segmentId, location.blockNo) block).rows.tail
          rw [hset]
          cases hrows : r.blocks.rows with
          | nil =>
              rw [hset, hrows] at hfull
              simp only [List.nil_append, List.length_singleton] at hfull
              omega
          | cons first rest =>
              exact List.mem_append_right _ (List.mem_singleton_self _)
        next => rw [Table.get?_eq_some_iff.mpr hlast]; rfl

/-! ## Sequences of reads -/

/-- Reads return what the files say, whatever is cached and however much may be. -/
theorem readAll_fst (hr : r.Valid c disk) (ls : List BlobLocation) :
    (readAll c disk ls r).1 = ls.map (readValue c disk) := by
  induction ls generalizing r with
  | nil => rfl
  | cons location ls ih =>
      obtain ⟨hanswer, hvalid⟩ := (reads_readValue location).outcome hr
      rw [List.map_cons, ← ih hvalid, ← hanswer]
      rfl

/-- The cache never holds more blocks than its size. -/
theorem length_blocks_readAll (h : r.blocks.rows.length ≤ r.blockCacheSize)
    (ls : List BlobLocation) :
    (readAll c disk ls r).2.blocks.rows.length ≤ r.blockCacheSize := by
  induction ls generalizing r with
  | nil => exact h
  | cons location ls ih =>
      obtain ⟨hlength, hsize⟩ := length_blocks_read c disk location h
      have hrest := ih (hlength.trans_eq hsize.symm)
      rw [hsize] at hrest
      exact hrest

theorem mem_of_mem_decompressed {ls : List BlobLocation} {key : ℕ × ℕ}
    (h : key ∈ decompressed c disk ls r) : key ∈ ls.map BlobLocation.block := by
  induction ls generalizing r with
  | nil => cases h
  | cons location ls ih =>
      rw [List.map_cons, List.mem_cons]
      simp only [decompressed] at h
      split at h
      · exact (List.mem_cons.mp h).imp_right ih
      · exact Or.inr (ih h)

/-- The order in which `claim_batch` goes through the blocks. -/
def blockLE (a b : ℕ × ℕ) : Prop := a.1 < b.1 ∨ (a.1 = b.1 ∧ a.2 ≤ b.2)

theorem blockLE_antisymm {a b : ℕ × ℕ} (h : blockLE a b) (h' : blockLE b a) : a = b := by
  unfold blockLE at h h'
  exact Prod.ext (by omega) (by omega)

/-- Reads that come block by block decompress no block twice, and not the one that was read
last. -/
theorem nodup_decompressed_of_sorted {ls : List BlobLocation} {last : ℕ × ℕ}
    (hsize : 1 ≤ r.blockCacheSize) (hr : r.Valid c disk)
    (hlast : (r.blocks.get? last).isSome = true)
    (hsorted : (ls.map BlobLocation.block).Pairwise blockLE)
    (hafter : ∀ key ∈ ls.map BlobLocation.block, blockLE last key)
    (hread : ∀ location ∈ ls, ∃ data, readValue c disk location = .ok data) :
    (decompressed c disk ls r).Nodup ∧ last ∉ decompressed c disk ls r := by
  induction ls generalizing r last with
  | nil => exact ⟨List.nodup_nil, List.not_mem_nil⟩
  | cons location ls ih =>
      obtain ⟨hfirst, hrest⟩ := List.pairwise_cons.mp hsorted
      obtain ⟨data, hdata⟩ := hread location List.mem_cons_self
      obtain ⟨hanswer, hvalid⟩ := (reads_readValue location).outcome hr
      obtain ⟨hcached, hsame⟩ := isSome_block_of_read hsize (hanswer.trans hdata)
      obtain ⟨hnodup, hnot⟩ := ih (hsame ▸ hsize) hvalid hcached hrest hfirst
        fun l hl => hread l (List.mem_cons_of_mem _ hl)
      have hle : blockLE last location.block := hafter _ List.mem_cons_self
      -- a block that comes back later would be the one that is read now
      have hlater : last ≠ location.block → last ∉ decompressed c disk ls
          ((Reader.read c disk location).outcome r).2 := fun hne hmem =>
        hne (blockLE_antisymm hle (hfirst last (mem_of_mem_decompressed hmem)))
      simp only [decompressed]
      split
      next hmiss =>
        have hne : last ≠ location.block := by
          rintro rfl
          rw [Option.isNone_iff_eq_none] at hmiss
          simp [hmiss] at hlast
        exact ⟨List.nodup_cons.mpr ⟨hnot, hnodup⟩,
          List.not_mem_cons_of_ne_of_not_mem hne (hlater hne)⟩
      next =>
        refine ⟨hnodup, ?_⟩
        by_cases heq : last = location.block
        · rw [heq]
          exact hnot
        · exact hlater heq

theorem nodup_decompressed {ls : List BlobLocation} (hsize : 1 ≤ r.blockCacheSize)
    (hr : r.Valid c disk) (hsorted : (ls.map BlobLocation.block).Pairwise blockLE)
    (hread : ∀ location ∈ ls, ∃ data, readValue c disk location = .ok data) :
    (decompressed c disk ls r).Nodup := by
  cases ls with
  | nil => exact List.nodup_nil
  | cons location ls =>
      obtain ⟨hfirst, hrest⟩ := List.pairwise_cons.mp hsorted
      obtain ⟨data, hdata⟩ := hread location List.mem_cons_self
      obtain ⟨hanswer, hvalid⟩ := (reads_readValue location).outcome hr
      obtain ⟨hcached, hsame⟩ := isSome_block_of_read hsize (hanswer.trans hdata)
      obtain ⟨hnodup, hnot⟩ := nodup_decompressed_of_sorted (hsame ▸ hsize) hvalid hcached hrest
        hfirst fun l hl => hread l (List.mem_cons_of_mem _ hl)
      simp only [decompressed]
      split
      · exact List.nodup_cons.mpr ⟨hnot, hnodup⟩
      · exact hnodup

end RerollSync.Archive

namespace RerollSync.Fetch

open RerollSync.Support RerollSync.Store RerollSync.Dispatcher RerollSync.Archive

variable {c : Codec} {disk : Disk} {rows locations : Db} {items : List QueueItem} {reader : Reader}

/-! ## The reads of a claim -/

/-- The locations that `claim_batch` reads, in order. -/
def batchReads (rows locations : Db) (items : List QueueItem) : List BlobLocation :=
  (groupedItems locations (bySha256 rows items)).map Prod.fst

/-- The groups are read in the order of their blocks. -/
theorem pairwise_groupedItems (db : Db) (hashes : Table String (List (QueueItem × String))) :
    ((groupedItems db hashes).map fun r => r.1.block).Pairwise blockLE := by
  rw [List.pairwise_map, groupedItems]
  generalize hgrouped : (hashes.rows.flatMap (locatedItems db)).foldl
    (fun t r => t.push (r.1.segmentId, r.1.blockNo) r)
    (∅ : Table (ℕ × ℕ) (List (BlobLocation × QueueItem × String))) = grouped
  have hgroup : ∀ group ∈ grouped.rows, ∀ r ∈ group.2, r.1.block = group.1 := by
    intro group hmem r hr
    have hunder := Table.getD_get?_foldl_push
      (fun r : BlobLocation × QueueItem × String => (r.1.segmentId, r.1.blockNo)) id
      (hashes.rows.flatMap (locatedItems db)) ∅ group.1
    simp only [id_eq] at hunder
    rw [hgrouped, Table.get?_eq_some_iff.mpr hmem, Option.getD_some, Table.get?_empty,
      Option.getD_none, List.nil_append, List.map_id] at hunder
    rw [hunder] at hr
    exact of_decide_eq_true (List.mem_filter.mp hr).2
  have : Std.Total fun a b : (ℕ × ℕ) × List (BlobLocation × QueueItem × String) =>
      a.1.1 < b.1.1 ∨ (a.1.1 = b.1.1 ∧ a.1.2 ≤ b.1.2) := ⟨fun a b => by omega⟩
  have : IsTrans _ fun a b : (ℕ × ℕ) × List (BlobLocation × QueueItem × String) =>
      a.1.1 < b.1.1 ∨ (a.1.1 = b.1.1 ∧ a.1.2 ≤ b.1.2) := ⟨fun a b c => by omega⟩
  have hsorted := List.pairwise_insertionSort (fun a b :
      (ℕ × ℕ) × List (BlobLocation × QueueItem × String) =>
    a.1.1 < b.1.1 ∨ (a.1.1 = b.1.1 ∧ a.1.2 ≤ b.1.2)) grouped.rows
  refine List.pairwise_flatMap.mpr ⟨fun group hmem => ?_, hsorted.imp_of_mem ?_⟩
  · have hin := hgroup group ((List.mem_insertionSort _).mp hmem)
    refine List.pairwise_of_forall_mem_list fun r hr r' hr' => ?_
    rw [hin r hr, hin r' hr']
    exact Or.inr ⟨rfl, le_refl _⟩
  · intro a b ha hb hle r hr r' hr'
    rw [hgroup a ((List.mem_insertionSort _).mp ha) r hr,
      hgroup b ((List.mem_insertionSort _).mp hb) r' hr']
    exact hle

/-- When every location can be read, every item of the loop is ready. -/
theorem readItems_of_readable (entries : List (BlobLocation × QueueItem × String))
    (hreader : reader.Valid c disk)
    (hread : ∀ e ∈ entries, ∃ data, readValue c disk e.1 = .ok data) :
    (readItems c disk entries reader).raised = none ∧
      (readItems c disk entries reader).results.map Prod.fst = entries.map (·.2.1) ∧
      (readItems c disk entries reader).reader =
        (readAll c disk (entries.map Prod.fst) reader).2 := by
  induction entries generalizing reader with
  | nil => exact ⟨rfl, rfl, rfl⟩
  | cons entry rest ih =>
      obtain ⟨location, item, filename⟩ := entry
      obtain ⟨data, hdata⟩ := hread _ List.mem_cons_self
      obtain ⟨reader', hvalid, hrun⟩ := reads_readValue location reader hreader
      rw [hdata] at hrun
      obtain ⟨hraised, hresults, hleft⟩ := ih hvalid fun e he => hread e (List.mem_cons_of_mem _ he)
      have hcons : readItems c disk ((location, item, filename) :: rest) reader =
          { readItems c disk rest reader' with
            results := (item, .ready filename data) ::
              (readItems c disk rest reader').results } := by
        rw [readItems, hrun]
      have houtcome : (Reader.read c disk location).outcome reader = (.ok data, reader') := by
        rw [Read.outcome, hrun]
      rw [hcons]
      refine ⟨hraised, congrArg (item :: ·) hresults, hleft.trans ?_⟩
      rw [List.map_cons, readAll, houtcome]

/-- Every item that can be looked up is under its hash, once. -/
theorem perm_bySha256 (rows : Db) (items : List QueueItem)
    (h : ∀ item ∈ items, (lookedUp rows item).isSome = true) :
    (((bySha256 rows items).rows.flatMap Prod.snd).map Prod.fst).Perm items := by
  rw [bySha256_eq]
  have hperm := Table.perm_foldl_push (fun x : String × QueueItem × String => x.1) Prod.snd
    (hashedItems rows items) ∅
  refine (hperm.map Prod.fst).trans (List.Perm.of_eq ?_)
  change ((hashedItems rows items).map Prod.snd).map Prod.fst = items
  rw [List.map_map]
  clear hperm
  induction items with
  | nil => rfl
  | cons item items ih =>
      obtain ⟨row, hrow⟩ := Option.isSome_iff_exists.mp (h item List.mem_cons_self)
      rw [hashedItems, List.filterMap_cons, hrow, Option.map_some, List.map_cons]
      exact congrArg (item :: ·) (ih fun item' hitem' => h item' (List.mem_cons_of_mem _ hitem'))

/-- The blob of a wheel is where its row says, in an intact sealed segment. -/
def Archived (c : Codec) (disk : Disk) (data : Bytes) (location : BlobLocation) : Prop :=
  ∃ settings blocks footer trailer file, disk.get? (location.segmentId, .zst) = some file ∧
    SealedFile c settings blocks footer trailer file ∧
    Located c location.segmentId blocks data location

theorem Archived.readValue_eq (hc : c.Faithful) {data : Bytes} {location : BlobLocation}
    (h : Archived c disk data location) : readValue c disk location = .ok data := by
  obtain ⟨settings, blocks, footer, trailer, file, hfile, hseg, hlocated⟩ := h
  exact (reads_readValue location).unique (reads_of_located hc hfile hseg hlocated)

/-- What a session has added to a segment that it has sealed is archived. -/
theorem archived_of_isSealed {settings : Archive.Settings} {s : Session} (h : s.Sound c settings)
    {x : Bytes × BlobLocation} (hx : x ∈ s.added) (hsealed : s.IsSealed x.2.segmentId) :
    Archived c s.store.disk x.1 x.2 := by
  obtain ⟨w, hw, hsealed⟩ := hsealed
  have hholds := (h.writers _ w hw).holds
  rw [if_pos hsealed] at hholds
  obtain ⟨blocks, footer, trailer, file, hfile, hget, hseg⟩ := hholds
  exact ⟨_, blocks, footer, trailer, file, hget, hfile,
    hseg.located x (List.mem_filter.mpr ⟨hx, by simp⟩)⟩

/-- The wheel of the item is linked to a blob that is archived. -/
def Linked (c : Codec) (disk : Disk) (rows locations : Db) (item : QueueItem) : Prop :=
  ∃ filename data location, lookedUp rows item = some (filename, c.hexdigest data) ∧
    ArchiveStore.locationFor (c.hexdigest data) locations = some location ∧
    Archived c disk data location

/-- One `claim_batch` returns one ready item for each claimed wheel, with the bytes of its
blob, and decompresses no block twice. -/
structure EachBlockOnce (c : Codec) (disk : Disk) (rows locations : Db) (items : List QueueItem)
    (reader : Reader) : Prop where
  returns : (claimBatch c disk rows locations items reader).raised = none
  items_perm : ((claimBatch c disk rows locations items reader).results.map Prod.fst).Perm items
  ready : ∀ item result,
    (item, result) ∈ (claimBatch c disk rows locations items reader).results →
      ∃ filename data, lookedUp rows item = some (filename, c.hexdigest data) ∧
        result = .ready filename data
  reads : (claimBatch c disk rows locations items reader).reader =
    (readAll c disk (batchReads rows locations items) reader).2
  once : (decompressed c disk (batchReads rows locations items) reader).Nodup

/-- Reads return what a reader without a cache returns, and the blocks retained are no more
than the cache may hold. -/
structure Transparent (c : Codec) (disk : Disk) (blockCacheSize : ℕ) (ls : List BlobLocation) :
    Prop where
  values : (readAll c disk ls { blockCacheSize := blockCacheSize }).1 = ls.map (readValue c disk)
  uncached : (readAll c disk ls { blockCacheSize := blockCacheSize }).1 =
    (readAll c disk ls { blockCacheSize := 0 }).1
  retained : ∀ ls', ls' <+: ls →
    (readAll c disk ls' { blockCacheSize := blockCacheSize }).2.blocks.rows.length ≤ blockCacheSize

theorem transparent (c : Codec) (disk : Disk) (blockCacheSize : ℕ) (ls : List BlobLocation) :
    Transparent c disk blockCacheSize ls where
  values := readAll_fst (Reader.valid_empty c disk blockCacheSize) ls
  uncached := (readAll_fst (Reader.valid_empty c disk blockCacheSize) ls).trans
    (readAll_fst (Reader.valid_empty c disk 0) ls).symm
  retained ls' _ := length_blocks_readAll (Nat.zero_le _) ls'

theorem eachBlockOnce_of_linked (hc : c.Faithful) (hsize : 1 ≤ reader.blockCacheSize)
    (hreader : reader.Valid c disk)
    (hlinked : ∀ item ∈ items, Linked c disk rows locations item) :
    EachBlockOnce c disk rows locations items reader := by
  have hlooked : ∀ item ∈ items, (lookedUp rows item).isSome = true := fun item hitem => by
    obtain ⟨filename, data, -, hrow, -⟩ := hlinked item hitem
    rw [hrow]
    rfl
  have hplaced : ∀ item ∈ items, ∀ filename sha256, lookedUp rows item = some (filename, sha256) →
      ∃ data location, sha256 = c.hexdigest data ∧
        ArchiveStore.locationFor sha256 locations = some location ∧
        readValue c disk location = .ok data := fun item hitem filename sha256 hrow => by
    obtain ⟨filename', data, location, hrow', hlocation, harchived⟩ := hlinked item hitem
    obtain ⟨rfl, rfl⟩ := Prod.mk.inj (Option.some.inj (hrow'.symm.trans hrow))
    exact ⟨data, location, rfl, hlocation, harchived.readValue_eq hc⟩
  have hread : ∀ e ∈ groupedItems locations (bySha256 rows items),
      ∃ data, readValue c disk e.1 = .ok data := fun e he => by
    obtain ⟨hitem, sha256, hrow, hlocation⟩ := mem_groupedItems_iff.mp he
    obtain ⟨data, location, -, hlocation', hvalue⟩ := hplaced _ hitem _ _ hrow
    obtain rfl := Option.some.inj (hlocation'.symm.trans hlocation)
    exact ⟨data, hvalue⟩
  obtain ⟨hraised, hfst, hleft⟩ := readItems_of_readable _ hreader hread
  have hempty : ∀ entry ∈ (bySha256 rows items).rows,
      ArchiveStore.locationFor entry.1 locations = none → entry.2 = [] := by
    intro entry hentry hnone
    refine List.eq_nil_iff_forall_not_mem.mpr fun r hr => ?_
    obtain ⟨hitem, hrow⟩ := mem_bySha256_iff.mp ⟨entry, hentry, rfl, hr⟩
    obtain ⟨-, location, -, hlocation, -⟩ := hplaced _ hitem _ _ hrow
    rw [hnone] at hlocation
    cases hlocation
  have hreleased : (items.filter fun item => (lookedUp rows item).isNone) = [] :=
    List.filter_eq_nil_iff.mpr fun item hitem => by
      rw [← Option.not_isSome, hlooked item hitem]
      simp
  have hmissing : ((bySha256 rows items).rows.filter fun entry =>
      (ArchiveStore.locationFor entry.1 locations).isNone).flatMap (fun entry =>
        entry.2.map fun r => (r.1, BulkResult.retried (missingBlob entry.1))) = [] := by
    refine List.flatMap_eq_nil_iff.mpr fun entry hentry => ?_
    obtain ⟨hmem, hnone⟩ := List.mem_filter.mp hentry
    rw [hempty entry hmem (Option.isNone_iff_eq_none.mp hnone), List.map_nil]
  have hresults : (claimBatch c disk rows locations items reader).results =
      (readItems c disk (groupedItems locations (bySha256 rows items)) reader).results := by
    rw [claimBatch]
    dsimp only
    rw [hreleased, hmissing]
    rfl
  have hlocated : ((bySha256 rows items).rows.flatMap (locatedItems locations)).map (·.2.1) =
      ((bySha256 rows items).rows.flatMap Prod.snd).map Prod.fst := by
    rw [List.map_flatMap, List.map_flatMap]
    refine List.flatMap_congr fun entry hentry => ?_
    rw [locatedItems]
    cases hlocation : ArchiveStore.locationFor entry.1 locations with
    | none => rw [hempty entry hentry hlocation, List.map_nil, List.map_nil]
    | some location => rw [List.map_map]; rfl
  refine ⟨hraised, ?_, fun item result hmem => ?_, hleft, ?_⟩
  · rw [hresults, hfst]
    refine ((groupedItems_perm _ _).map _).trans ?_
    rw [hlocated]
    exact perm_bySha256 rows items hlooked
  · obtain ⟨-, hmem'⟩ := mem_claimBatch_iff rows locations items hreader
      fun item hitem filename sha256 location hrow hlocation => by
        obtain ⟨data, location', -, hlocation', hvalue⟩ := hplaced item hitem filename sha256 hrow
        obtain rfl := Option.some.inj (hlocation'.symm.trans hlocation)
        rw [hvalue]
        rfl
    obtain ⟨hitem, hresult⟩ := (hmem' item result).mp hmem
    obtain ⟨filename, data, location, hrow, hlocation, harchived⟩ := hlinked item hitem
    simp only [hrow, hlocation, harchived.readValue_eq hc, resultOfRead, Option.some.injEq]
      at hresult
    exact ⟨filename, data, hrow, hresult.symm⟩
  · have hsorted := pairwise_groupedItems locations (bySha256 rows items)
    refine nodup_decompressed hsize hreader ?_ fun location hlocation => ?_
    · rw [batchReads, List.map_map]
      exact hsorted
    · obtain ⟨e, he, rfl⟩ := List.mem_map.mp hlocation
      exact hread e he

/-- Whatever is claimed in whatever order, a claim of archived blobs decompresses each block
once and returns every wheel's bytes; and whatever is read in whatever order, the cache does
not show. -/
theorem eachBlockOnce_and_transparent (hc : c.Faithful) (disk : Disk) :
    (∀ rows locations items reader, 1 ≤ reader.blockCacheSize → reader.Valid c disk →
      (∀ item ∈ items, Linked c disk rows locations item) →
        EachBlockOnce c disk rows locations items reader) ∧
      ∀ blockCacheSize ls, Transparent c disk blockCacheSize ls :=
  ⟨fun _ _ _ _ hsize hreader hlinked => eachBlockOnce_of_linked hc hsize hreader hlinked,
    transparent c disk⟩

/-- A database of a store with two wheels that share the blob of `b"abc"`. -/
def twinDb (s : ArchiveStore) : Db :=
  { s.db with wheels := ((∅ : Table ℕ WheelRow).set 7 abcWheel).set 8 abcWheel }

/-- Two wheels that share a blob are read with a cache of one block. -/
theorem eachBlockOnce_twins :
    ∃ t, (sessions exampleCodec {}).run Session.initial
        [.add abc, .sealWriter 0 "2024-01-01T00:00:00+00:00"] = some t ∧
      EachBlockOnce exampleCodec t.store.disk (twinDb t.store) (twinDb t.store)
        [abcItem, { abcItem with id := 8 }] { blockCacheSize := 1 } := by
  have hsome : (((sessions exampleCodec {}).run Session.initial
      [.add abc, .sealWriter 0 "2024-01-01T00:00:00+00:00"]).map fun t =>
        ((t.store.writers.get? 0).map SegmentWriter.isSealed, t.added.map fun x =>
          (x.1, x.2.segmentId, decide (ArchiveStore.locationFor (exampleCodec.hexdigest abc)
            (twinDb t.store) = some x.2)))) = some (some true, [(abc, 0, true)]) := by
    rw [exampleCodec_eq, abcPacked_eq, abcFooter_eq, abcSha256_eq, abcFooterSha256_eq]
    decide +kernel
  obtain ⟨t, hrun, ht⟩ := Option.map_eq_some_iff.mp hsome
  obtain ⟨hflag, hadded⟩ := Prod.mk.inj ht
  obtain ⟨w, hw, hsealed⟩ := Option.map_eq_some_iff.mp hflag
  obtain ⟨x, hx, hfacts⟩ := List.mem_map.mp (hadded ▸ List.mem_singleton_self _)
  obtain ⟨hdata, hfacts⟩ := Prod.mk.inj hfacts
  obtain ⟨hsegment, hlocation⟩ := Prod.mk.inj hfacts
  have harchived := archived_of_isSealed (Session.Sound.run exampleCodec_faithful hrun) hx
    ⟨w, hsegment ▸ hw, hsealed⟩
  rw [hdata] at harchived
  have hlinked : ∀ item, lookedUp (twinDb t.store) item =
      some (abcWheel.filename, exampleCodec.hexdigest abc) →
      Linked exampleCodec t.store.disk (twinDb t.store) (twinDb t.store) item :=
    fun item hrow => ⟨_, abc, x.2, hrow, of_decide_eq_true hlocation, harchived⟩
  refine ⟨t, hrun, (eachBlockOnce_and_transparent exampleCodec_faithful t.store.disk).1 _ _ _ _
    (le_refl 1) (Reader.valid_empty _ _ 1) fun item hitem => ?_⟩
  simp only [List.mem_cons, List.not_mem_nil, or_false] at hitem
  rcases hitem with rfl | rfl
  · exact hlinked _ rfl
  · exact hlinked _ rfl

end RerollSync.Fetch
