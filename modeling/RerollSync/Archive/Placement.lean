import RerollSync.Archive.Session

/-!
# Where bytes are placed

Each `add` of a store puts its bytes into the segment that is current, and the `blobs` table
keeps the segment that they were put into first.  A placement is the history of a store
without its files: which bytes went where, and which segments were sealed.  Every session
follows the placement of its calls.
-/

namespace RerollSync.Archive

open RerollSync.Support
open RerollSync.Store (Bytes Db SegmentRow)

/-- The next segment, the current one, the bytes that were put into segments, and the
segments that were sealed. -/
structure Placement where
  next : ℕ := 0
  current : Option ℕ := none
  placed : List (Bytes × ℕ) := []
  sealedIds : List ℕ := []

namespace Placement

/-- Start a segment. -/
def startSegment (p : Placement) : Placement :=
  { p with next := p.next + 1, current := some p.next }

/-- Put bytes into the current segment. -/
def place (data : Bytes) (id : ℕ) (p : Placement) : Placement :=
  { p with placed := p.placed ++ [(data, id)] }

def step (p : Placement) : Use → Placement
  | .add data =>
      match p.current with
      | some id => p.place data id
      | none => p.startSegment.place data p.next
  | .openWriter => p.startSegment
  | .sealWriter id _ =>
      { p with
        sealedIds := id :: p.sealedIds
        current := if p.current = some id then none else p.current }
  | _ => p

/-- The placement of a list of calls. -/
def of (l : List Use) : Placement := l.foldl step {}

/-- The segment that bytes were put into first. -/
def home (data : Bytes) (p : Placement) : Option ℕ :=
  (p.placed.find? fun x => x.1 = data).map Prod.snd

/-- What lies in a sealed segment was put there first. -/
def AtHome (p : Placement) : Prop :=
  ∀ x ∈ p.placed, x.2 ∈ p.sealedIds → p.home x.1 = some x.2

instance (p : Placement) : Decidable p.AtHome :=
  inferInstanceAs (Decidable (∀ x ∈ p.placed, x.2 ∈ p.sealedIds → p.home x.1 = some x.2))

end Placement

/-- The call is one of the store's, or of its reader's. -/
def Use.OfStore : Use → Prop
  | .addTo _ _ => False
  | _ => True

instance : DecidablePred Use.OfStore
  | .addTo _ _ => inferInstanceAs (Decidable False)
  | .add _ | .openWriter | .sealWriter _ _ | .get _ | .read _ | .iterRecords _ =>
      inferInstanceAs (Decidable True)

/-- A session and the placement of its calls. -/
structure Session.Follows (c : Codec) (s : Session) (p : Placement) : Prop where
  segments : s.store.db.segments.keys = List.range p.next
  current : s.store.current = p.current
  placed : s.added.map (fun x => (x.1, x.2.segmentId)) = p.placed
  sealedRows : ∀ id row, s.store.db.segments.get? id = some row →
    (row.sealedAt.isSome = true ↔ id ∈ p.sealedIds)
  sealedWriters : ∀ id w, s.store.writers.get? id = some w →
    (w.isSealed = true ↔ id ∈ p.sealedIds)
  started : ∀ id ∈ p.sealedIds, ∃ w, s.store.writers.get? id = some w
  indexed : ∀ data, ArchiveStore.locationFor (c.hexdigest data) s.store.db =
    (s.added.find? fun x => x.1 = data).map Prod.snd

/-! ## Segment ids -/

namespace ArchiveStore

theorem afterMax_le_iff {ids : List ℕ} {n : ℕ} : afterMax ids ≤ n ↔ ∀ id ∈ ids, id < n := by
  rw [afterMax]
  induction ids with
  | nil => simp
  | cons id ids ih =>
      rw [List.map_cons, List.foldr_cons, max_le_iff, ih, List.forall_mem_cons]
      exact Iff.rfl

/-- The ids of segments are consecutive. -/
theorem nextSegmentId_eq {disk : Disk} {db : Db} {n : ℕ} (hkeys : db.segments.keys = List.range n)
    (hdisk : ∀ key ∈ disk.keys, key.1 < n) : nextSegmentId disk db = n := by
  have hfiles : afterMax ((disk.keys.map Prod.fst).filter (· < 1000000)) ≤ n := by
    refine afterMax_le_iff.mpr fun id hid => ?_
    obtain ⟨key, hkey, rfl⟩ := List.mem_map.mp (List.mem_filter.mp hid).1
    exact hdisk key hkey
  have hrows : afterMax db.segments.keys = n := by
    rw [hkeys]
    refine le_antisymm (afterMax_le_iff.mpr fun id => List.mem_range.mp) ?_
    cases n with
    | zero => exact Nat.zero_le _
    | succ n => exact afterMax_le_iff.mp le_rfl n (List.mem_range.mpr (Nat.lt_succ_self n))
  rw [nextSegmentId, hrows, max_eq_left hfiles]

end ArchiveStore

/-! ## Steps -/

namespace Session.Follows

variable {c : Codec} {settings : Settings} {s : Session} {p : Placement}

theorem initial : Session.initial.Follows c {} where
  segments := rfl
  current := rfl
  placed := rfl
  sealedRows _ _ h := by simp [Session.initial, ArchiveStore.initial, Db.empty] at h
  sealedWriters _ _ h := by simp [Session.initial, ArchiveStore.initial] at h
  started _ h := by simp at h
  indexed _ := by simp [Session.initial, ArchiveStore.initial, Db.empty, ArchiveStore.locationFor]

/-- A segment that has a writer has been started. -/
theorem lt_next (h : s.Follows c p) (hs : s.Sound c settings) {id : ℕ} {w : SegmentWriter}
    (hw : s.store.writers.get? id = some w) : id < p.next := by
  obtain ⟨row, hrow⟩ := hs.segments id w hw
  rw [← List.mem_range, ← h.segments]
  exact List.mem_map_of_mem (Table.get?_eq_some_iff.mp hrow)

theorem nextSegmentId_eq (h : s.Follows c p) (hs : s.Sound c settings) :
    ArchiveStore.nextSegmentId s.store.disk s.store.db = p.next := by
  refine ArchiveStore.nextSegmentId_eq h.segments fun key hkey => ?_
  obtain ⟨⟨⟨id, suffix⟩, file⟩, hmem, rfl⟩ := List.mem_map.mp hkey
  obtain ⟨w, hw⟩ := hs.files id suffix file (Table.get?_eq_some_iff.mpr hmem)
  exact h.lt_next hs hw

/-- A new writer starts the next segment. -/
theorem openWriter (h : s.Follows c p) (hs : s.Sound c settings) {store : ArchiveStore}
    (hopen : s.store.openWriter settings = .ok store) :
    Session.Follows c { s with store := store } p.startSegment := by
  obtain ⟨⟨id, store₁⟩, hinsert, hcreate⟩ := bind_eq_ok_iff.mp hopen
  obtain ⟨⟨w, disk⟩, hw, hstore⟩ := bind_eq_ok_iff.mp hcreate
  obtain ⟨disk', hdisk, hw⟩ := bind_eq_ok_iff.mp hw
  obtain ⟨rfl, rfl⟩ := Prod.mk.inj (Except.ok.inj hw)
  obtain rfl := Except.ok.inj hstore
  rw [ArchiveStore.insertSegmentRow, h.nextSegmentId_eq hs] at hinsert
  have hnot : p.next ∉ s.store.db.segments.keys := by simp [h.segments]
  have hfree : s.store.db.segments.get? p.next = none := Table.get?_eq_none_iff.mpr hnot
  have hunsealed : p.next ∉ p.sealedIds := fun hmem => by
    obtain ⟨w, hw⟩ := h.started p.next hmem
    exact lt_irrefl _ (h.lt_next hs hw)
  rw [Db.insertSegment, hfree] at hinsert
  obtain ⟨rfl, rfl⟩ := Prod.mk.inj (Except.ok.inj hinsert)
  constructor
  · change (s.store.db.segments.insertNew p.next _).keys = List.range (p.next + 1)
    rw [Table.keys_insertNew_of_notMem hnot, h.segments, List.range_succ]
  · rfl
  · exact h.placed
  · intro id row hrow
    rw [Table.get?_insertNew] at hrow
    by_cases hid : id = p.next
    · rw [if_pos hid, hfree] at hrow
      obtain rfl := Option.some.inj hrow
      exact iff_of_false Bool.false_ne_true (hid ▸ hunsealed)
    · rw [if_neg hid] at hrow
      exact h.sealedRows id row hrow
  · intro id w hw
    rcases Table.get?_set_eq_some_iff.mp hw with ⟨rfl, rfl⟩ | ⟨-, hold⟩
    · exact iff_of_false Bool.false_ne_true hunsealed
    · exact h.sealedWriters id w hold
  · exact fun id hid => Table.exists_get?_set (h.started id hid)
  · exact h.indexed

/-- A record goes to the segment of the writer. -/
theorem segmentId_of_addTo (hc : c.Faithful) (hs : s.Sound c settings) {id : ℕ} {data : Bytes}
    {location : BlobLocation} {store : ArchiveStore}
    (hadd : s.store.addTo c id data = .ok (location, store)) :
    location.segmentId = id ∧ store.current = s.store.current ∧ store.db = s.store.db ∧
      ∃ w w' : SegmentWriter, s.store.writers.get? id = some w ∧ w'.isSealed = w.isSealed ∧
        store.writers = s.store.writers.set id w' := by
  obtain ⟨w, hwriter, hadd⟩ := bind_eq_ok_iff.mp hadd
  have hw := ArchiveStore.get?_of_writer hwriter
  obtain ⟨⟨location₁, w', disk'⟩, hresult, hadd⟩ := bind_eq_ok_iff.mp hadd
  obtain ⟨rfl, rfl⟩ := Prod.mk.inj (Except.ok.inj hadd)
  have hopened : w.isSealed = false := by
    cases hflag : w.isSealed with
    | false => rfl
    | true => simp [SegmentWriter.add, hflag] at hresult
  obtain ⟨hid, -, hholds⟩ := hs.writers id w hw
  rw [if_neg (by simp [hopened])] at hholds
  obtain ⟨blocks, hopen, -, -⟩ := hholds
  obtain ⟨location₂, w₂, disk₂, blocks', heq, hopen', hlocated, -, -, -, -, -⟩ :=
    add_of_openOn hc hopen data
  obtain ⟨rfl, rfl, rfl⟩ : location₁ = location₂ ∧ w' = w₂ ∧ disk' = disk₂ := by
    simpa using hresult.symm.trans heq
  obtain ⟨-, -, -, -, hsegment⟩ := hlocated.slice_eq
  exact ⟨hsegment.trans hid, rfl, rfl, w, w', hw, hopen'.1.trans hopened.symm, rfl⟩

/-- A call of `add` with a writer that is open. -/
theorem addToCurrent (hc : c.Faithful) (h : s.Follows c p) (hs : s.Sound c settings) {id : ℕ}
    {data : Bytes} {location : BlobLocation} {store store' : ArchiveStore}
    (hadd : s.store.addTo c id data = .ok (location, store))
    (hinsert : store.insertBlobRow location = .ok store') :
    Session.Follows c ⟨store', s.added ++ [(data, location)], s.stored ++ [data]⟩
      (p.place data id) := by
  obtain ⟨hadded, hsha⟩ := hs.addTo hc hadd
  obtain ⟨hsegment, hcurrent, hdb, w, w', hw, hflag, hwriters⟩ := segmentId_of_addTo hc hs hadd
  rw [ArchiveStore.insertBlobRow, hdb] at hinsert
  cases hblob : s.store.db.insertBlob location.sha256 location.row with
  | none => simp [hblob] at hinsert
  | some db =>
      simp only [hblob] at hinsert
      obtain rfl := Except.ok.inj hinsert
      have hsegments : db.segments = s.store.db.segments :=
        ArchiveStore.segments_of_insertBlob hblob
      constructor
      · exact (congrArg Table.keys hsegments).trans h.segments
      · exact hcurrent.trans h.current
      · simp [Placement.place, h.placed, hsegment]
      · intro id' row hrow
        exact h.sealedRows id' row (by rw [← hsegments]; exact hrow)
      · intro id' w'' hw''
        rw [hwriters] at hw''
        rcases Table.get?_set_eq_some_iff.mp hw'' with ⟨rfl, rfl⟩ | ⟨-, hold⟩
        · rw [hflag]
          exact h.sealedWriters _ w hw
        · exact h.sealedWriters id' w'' hold
      · intro id' hid'
        rw [hwriters]
        exact Table.exists_get?_set (h.started id' hid')
      · intro data'
        rw [ArchiveStore.locationFor_of_insertBlob hblob, List.find?_append, hsha]
        by_cases heq : data' = data
        · subst heq
          rw [if_pos rfl, h.indexed]
          cases s.added.find? fun x => x.1 = data' with
          | none => simp
          | some x => simp
        · rw [if_neg fun hdigest => heq (hc.hexdigest_injective hdigest), h.indexed]
          have hne : ¬data = data' := fun h => heq h.symm
          simp [hne]

/-- A call of `add`. -/
theorem add (hc : c.Faithful) (h : s.Follows c p) (hs : s.Sound c settings) {data : Bytes}
    {location : BlobLocation} {store : ArchiveStore}
    (hadd : s.store.add c settings data = .ok (location, store)) :
    Session.Follows c ⟨store, s.added ++ [(data, location)], s.stored ++ [data]⟩
      (p.step (.add data)) := by
  obtain ⟨⟨id, store₁⟩, hwriter, hadd⟩ := bind_eq_ok_iff.mp hadd
  obtain ⟨⟨location₁, store₂⟩, haddTo, hadd⟩ := bind_eq_ok_iff.mp hadd
  obtain ⟨store₃, hinsert, hadd⟩ := bind_eq_ok_iff.mp hadd
  obtain ⟨rfl, rfl⟩ := Prod.mk.inj (Except.ok.inj hadd)
  unfold ArchiveStore.currentWriter at hwriter
  rw [h.current] at hwriter
  rw [Placement.step]
  cases hcurrent : p.current with
  | some id' =>
      simp only [hcurrent] at hwriter
      obtain ⟨rfl, rfl⟩ := Prod.mk.inj (Except.ok.inj hwriter)
      exact h.addToCurrent hc hs haddTo hinsert
  | none =>
      simp only [hcurrent] at hwriter
      obtain ⟨store, hopen, hwriter⟩ := bind_eq_ok_iff.mp hwriter
      obtain ⟨rfl, rfl⟩ := Prod.mk.inj (Except.ok.inj hwriter)
      have hopened := h.openWriter hs hopen
      rw [show store.current = some p.next from hopened.current] at haddTo
      exact hopened.addToCurrent hc (hs.openWriter hopen) haddTo hinsert

/-- The stats of a seal name the segment that is sealed. -/
theorem segmentId_of_sealSegment {w w' : SegmentWriter} {disk disk' : Disk} {stats : SegmentStats}
    (hseal : w.sealSegment c disk = .ok (stats, w', disk')) :
    stats.segmentId = w.segmentId ∧ w'.isSealed = true := by
  rw [SegmentWriter.sealSegment] at hseal
  split at hseal
  · cases hseal
  · obtain ⟨⟨stats₁, w₁, disk₁⟩, hwrite, hseal⟩ := bind_eq_ok_iff.mp hseal
    obtain ⟨disk₂, -, hseal⟩ := bind_eq_ok_iff.mp hseal
    obtain ⟨rfl, hrest⟩ := Prod.mk.inj (Except.ok.inj hseal)
    obtain ⟨rfl, -⟩ := Prod.mk.inj hrest
    refine ⟨?_, rfl⟩
    have hid : (if w.pendingRecords ≠ 0 then w.flushBlock c disk else (w, disk)).1.segmentId =
        w.segmentId := by
      split <;> rfl
    rw [SegmentWriter.writeFooter] at hwrite
    generalize (if w.pendingRecords ≠ 0 then w.flushBlock c disk else (w, disk)) = flushed
      at hwrite hid
    obtain ⟨footer, -, hwrite⟩ := bind_eq_ok_iff.mp hwrite
    obtain ⟨trailer, -, hwrite⟩ := bind_eq_ok_iff.mp hwrite
    obtain ⟨rfl, -⟩ := Prod.mk.inj (Except.ok.inj hwrite)
    exact hid

/-- Only a sealed writer says that it is sealed. -/
theorem isSealed_of_sealSegment_eq_error {w : SegmentWriter} {disk : Disk} {id : ℕ}
    (hseal : w.sealSegment c disk = .error (.alreadySealed id)) : w.isSealed = true := by
  by_contra hopen
  rw [SegmentWriter.sealSegment, if_neg hopen] at hseal
  cases hwrite : w.writeFooter c disk with
  | ok result =>
      rw [hwrite] at hseal
      change (result.2.2.rename result.2.1.segmentId >>= _) = _ at hseal
      rw [Disk.rename] at hseal
      split at hseal <;> cases hseal
  | error e =>
      rw [hwrite] at hseal
      obtain rfl := Except.error.inj hseal
      rw [SegmentWriter.writeFooter] at hwrite
      generalize (if w.pendingRecords ≠ 0 then w.flushBlock c disk else (w, disk)) = flushed
        at hwrite
      change (encodeFooter c flushed.1.blocks flushed.1.records flushed.1.level >>= _) = _ at hwrite
      cases hfooter : encodeFooter c flushed.1.blocks flushed.1.records flushed.1.level with
      | error e =>
          rw [hfooter] at hwrite
          obtain rfl := Except.error.inj hwrite
          rw [encodeFooter] at hfooter
          cases hpack : c.packb (footerDocument flushed.1.blocks flushed.1.records) <;>
            rw [hpack] at hfooter <;> cases hfooter
      | ok footer =>
          rw [hfooter] at hwrite
          change (encodeTrailer flushed.1.position footer.length (footerCrc32 c footer) >>= _) = _
            at hwrite
          rw [encodeTrailer] at hwrite
          split at hwrite <;> cases hwrite

/-- Sealing a writer. -/
theorem sealWriter (h : s.Follows c p) (hs : s.Sound c settings) {id : ℕ} {now : String}
    {stats : SegmentStats} {store : ArchiveStore}
    (hseal : s.store.sealWriter c id now = .ok (stats, store)) :
    Session.Follows c { s with store := store } (p.step (.sealWriter id now)) := by
  obtain ⟨w, hwriter, hseal⟩ := bind_eq_ok_iff.mp hseal
  have hw := ArchiveStore.get?_of_writer hwriter
  obtain ⟨⟨stats', w', disk'⟩, hsealed, hstore⟩ := bind_eq_ok_iff.mp hseal
  obtain ⟨rfl, rfl⟩ := Prod.mk.inj (Except.ok.inj hstore)
  obtain ⟨hstats, hflag⟩ := segmentId_of_sealSegment hsealed
  rw [(hs.writers id w hw).segmentId] at hstats
  have hmem : ∀ {id'}, id' ≠ id → (id' ∈ id :: p.sealedIds ↔ id' ∈ p.sealedIds) := fun hne => by
    simp [hne]
  constructor
  · exact (Table.keys_modify _ _).trans h.segments
  · change (if s.store.current = some id then none else s.store.current) = _
    rw [h.current]
    rfl
  · exact h.placed
  · intro id' row hrow
    rw [Db.updateSegment, hstats] at hrow
    obtain ⟨row', hrow', rfl⟩ :=
      Option.map_eq_some_iff.mp ((Table.get?_modify _ _ _).symm.trans hrow)
    by_cases hid : id' = id
    · rw [if_pos hid]
      exact iff_of_true rfl (by simp [Placement.step, hid])
    · rw [if_neg hid]
      exact (h.sealedRows id' row' hrow').trans (hmem hid).symm
  · intro id' w'' hw''
    by_cases hid : id' = id
    · subst hid
      rw [Table.get?_set_self] at hw''
      obtain rfl := Option.some.inj hw''
      exact iff_of_true hflag (by simp [Placement.step])
    · rw [Table.get?_set_of_ne _ _ hid] at hw''
      exact (h.sealedWriters id' w'' hw'').trans (hmem hid).symm
  · intro id' hid'
    refine Table.exists_get?_set ?_
    rcases List.mem_cons.mp hid' with rfl | hold
    · exact ⟨w, hw⟩
    · exact h.started id' hold
  · exact h.indexed

/-- Sealing a sealed writer raises, and changes nothing. -/
theorem sealAgain (h : s.Follows c p) (hs : s.Sound c settings) {id sealedId : ℕ} {now : String}
    (hseal : s.store.sealWriter c id now = .error (.alreadySealed sealedId)) :
    s.Follows c (p.step (.sealWriter id now)) := by
  cases hw : s.store.writers.get? id with
  | none =>
      rw [ArchiveStore.sealWriter, ArchiveStore.writer, hw] at hseal
      cases hseal
  | some w =>
      rw [ArchiveStore.sealWriter, ArchiveStore.writer, hw] at hseal
      change (w.sealSegment c s.store.disk >>= _) = _ at hseal
      have hflag : w.isSealed = true := by
        cases hresult : w.sealSegment c s.store.disk with
        | ok result =>
            rw [hresult] at hseal
            cases hseal
        | error e =>
            rw [hresult] at hseal
            obtain rfl := Except.error.inj hseal
            exact isSealed_of_sealSegment_eq_error hresult
      have hmem : ∀ id', id' ∈ id :: p.sealedIds ↔ id' ∈ p.sealedIds := fun id' => by
        have hid := (h.sealedWriters id w hw).mp hflag
        exact ⟨fun h => (List.mem_cons.mp h).elim (fun heq => heq ▸ hid) fun h => h,
          List.mem_cons_of_mem _⟩
      have hcurrent : p.current ≠ some id := fun hcurrent => by
        obtain ⟨w', hw', hopen⟩ := hs.current id (h.current.trans hcurrent)
        obtain rfl : w = w' := Option.some.inj (hw.symm.trans hw')
        rw [hflag] at hopen
        cases hopen
      exact ⟨h.segments, h.current.trans (if_neg hcurrent).symm, h.placed,
        fun id' row hrow => (h.sealedRows id' row hrow).trans (hmem id').symm,
        fun id' w' hw' => (h.sealedWriters id' w' hw').trans (hmem id').symm,
        fun id' hid' => h.started id' ((hmem id').mp hid'), h.indexed⟩

/-- The reader only fills its caches. -/
theorem useReader (h : s.Follows c p) {α : Type} (m : Read α) : (s.useReader m).Follows c p :=
  ⟨h.segments, h.current, h.placed, h.sealedRows, h.sealedWriters, h.started, h.indexed⟩

/-- Every call of the store keeps a session on its placement. -/
theorem step (hc : c.Faithful) (h : s.Follows c p) (hs : s.Sound c settings) {use : Use}
    (hstore : use.OfStore) {s' : Session} (hstep : (sessions c settings).step s use = some s') :
    s'.Follows c (p.step use) := by
  change Session.step c settings s use = some s' at hstep
  cases use with
  | add data =>
      cases hadd : s.store.add c settings data with
      | error e => simp [Session.step, hadd] at hstep
      | ok result =>
          obtain ⟨location, store⟩ := result
          simp only [Session.step, hadd, Option.some.injEq] at hstep
          exact hstep ▸ h.add hc hs hadd
  | addTo id data => exact hstore.elim
  | openWriter =>
      cases hopen : s.store.openWriter settings with
      | error e => simp [Session.step, hopen] at hstep
      | ok store =>
          simp only [Session.step, hopen, Option.some.injEq] at hstep
          exact hstep ▸ h.openWriter hs hopen
  | sealWriter id now =>
      cases hseal : s.store.sealWriter c id now with
      | error e =>
          simp only [Session.step, hseal] at hstep
          unfold Session.raised at hstep
          split at hstep
          · exact Option.some.inj hstep ▸ h.sealAgain hs hseal
          · cases hstep
      | ok result =>
          obtain ⟨stats, store⟩ := result
          simp only [Session.step, hseal, Option.some.injEq] at hstep
          exact hstep ▸ h.sealWriter hs hseal
  | get sha256 =>
      obtain rfl := Option.some.inj hstep
      exact h.useReader _
  | read location =>
      obtain rfl := Option.some.inj hstep
      exact h.useReader _
  | iterRecords id =>
      obtain rfl := Option.some.inj hstep
      exact h.useReader _

/-- A session follows the placement of its calls. -/
theorem run (hc : c.Faithful) {l : List Use} (hstore : ∀ use ∈ l, use.OfStore) {t : Session}
    (hrun : (sessions c settings).run Session.initial l = some t) :
    t.Follows c (Placement.of l) := by
  have hboth : t.Sound c settings ∧ t.Follows c (Placement.of l) :=
    Machine.run_simulates (R := fun s p => Session.Sound c settings s ∧ Session.Follows c s p)
      (fun s p use huse s' h hstep =>
        ⟨h.1.step hc hstep, h.2.step hc h.1 (hstore use huse) hstep⟩)
      ⟨Session.Sound.initial, initial⟩ hrun
  exact hboth.2

end Session.Follows

end RerollSync.Archive
