import RerollSync.Daemon.Machine

/-!
# Live work before backfill

Lane 0 is incremental work, lane 1 backfill.  A page of a queue is sorted by lane,
but it is read behind a cursor, and what appears behind the cursor has to wait.
-/

namespace RerollSync.Daemon

open RerollSync.Support RerollSync.Store RerollSync.Dispatcher RerollSync.Ingest
open RerollSync.Pipeline

/-! ## The order of a queue -/

theorem lane_le_of_queueLe {a b : ℕ × WheelRow} (h : queueLe a b) : a.2.lane ≤ b.2.lane := by
  rcases h with hlt | ⟨heq, -⟩ | ⟨heq, -⟩
  · exact hlt.le
  · exact heq.le
  · exact heq.le

/-- The rows a page leaves out come after those it holds. -/
theorem lane_le_of_page {l : List (ℕ × WheelRow)} {limit : ℕ} {a b : ℕ × WheelRow}
    (ha : a ∈ (l.insertionSort queueLe).take limit) (hb : b ∈ l)
    (hnot : b ∉ (l.insertionSort queueLe).take limit) : a.2.lane ≤ b.2.lane :=
  lane_le_of_queueLe (rel_of_not_mem_page ha hb hnot)

/-! ## Strict priority -/

/-- A wheel that is in the stage's state, not in flight, and neither deferred nor
quarantined. -/
def eligible (stage : Stage) (nowIso : String) (db : Db) (queues : Queues) (id : ℕ)
    (row : WheelRow) : Bool :=
  row.state = queueState stage ∧ ¬(db.work.get? (id, stage)).any (deferring nowIso) ∧
    id ∉ queues.inFlight stage

/-- A claim that returns backfill leaves no live wheel unclaimed. -/
def LiveFirst (stage : Stage) (limit : ℕ) (nowIso : String) (db : Db) (queues : Queues) : Prop :=
  (∃ item ∈ (claim stage limit nowIso db queues).1, item.lane = 1) →
    ∀ id row, db.wheels.get? id = some row → row.lane = 0 →
      eligible stage nowIso db (claim stage limit nowIso db queues).2 id row = false

/-- The eligible wheels of a lane that lie after the stage's cursor. -/
def waiting (stage : Stage) (nowIso : String) (db : Db) (queues : Queues) (lane : ℕ) :
    List (ℕ × WheelRow) :=
  db.wheels.rows.filter fun r => eligible stage nowIso db queues r.1 r.2 ∧
    laneProjectIdKeyset (queues.cursors stage) r.1 r.2 ∧ r.2.lane = lane

/-- No live wheel lies behind the cursor, or the page gets no backfill: live wheels
fill it, or no backfill lies after the cursor. -/
def LiveReached (stage : Stage) (limit : ℕ) (nowIso : String) (db : Db) (queues : Queues) : Prop :=
  (∀ id row, db.wheels.get? id = some row → row.lane = 0 →
      eligible stage nowIso db queues id row = true →
      laneProjectIdKeyset (queues.cursors stage) id row = true) ∨
    limit ≤ (waiting stage nowIso db queues 0).length ∨ waiting stage nowIso db queues 1 = []

section Claim

variable {stage : Stage} {limit : ℕ} {nowIso : String} {db : Db} {queues : Queues}

/-- The rows a claim takes its page from. -/
def claimable (stage : Stage) (nowIso : String) (db : Db) (queues : Queues) :
    List (ℕ × WheelRow) :=
  db.wheels.rows.filter fun r => eligible stage nowIso db queues r.1 r.2 ∧
    laneProjectIdKeyset (queues.cursors stage) r.1 r.2

theorem claimQuery_eq : claimQuery stage (queues.cursors stage) (queues.inFlight stage) nowIso limit
    db = ((claimable stage nowIso db queues).insertionSort queueLe).take limit := by
  have hp : ∀ r : ℕ × WheelRow, decide (r.2.state = queueState stage ∧
      laneProjectIdKeyset (queues.cursors stage) r.1 r.2 = true ∧
        (¬(db.work.get? (r.1, stage)).any (deferring nowIso) = true) ∧
          r.1 ∉ queues.inFlight stage) =
      decide (eligible stage nowIso db queues r.1 r.2 = true ∧
        laneProjectIdKeyset (queues.cursors stage) r.1 r.2 = true) := by
    intro r
    rw [decide_eq_decide, eligible, decide_eq_true_eq]
    tauto
  simp only [claimQuery, queuePage, claimable, hp]

theorem mem_claimable {r : ℕ × WheelRow} : r ∈ claimable stage nowIso db queues ↔
    db.wheels.get? r.1 = some r.2 ∧ eligible stage nowIso db queues r.1 r.2 = true ∧
      laneProjectIdKeyset (queues.cursors stage) r.1 r.2 = true := by
  rw [claimable, List.mem_filter, decide_eq_true_eq, Table.get?_eq_some_iff]

theorem mem_waiting {lane : ℕ} {r : ℕ × WheelRow} : r ∈ waiting stage nowIso db queues lane ↔
    r ∈ claimable stage nowIso db queues ∧ r.2.lane = lane := by
  rw [waiting, claimable, List.mem_filter, List.mem_filter, decide_eq_true_eq, decide_eq_true_eq]
  tauto

theorem nodup_rows (db : Db) : db.wheels.rows.Nodup := List.Nodup.of_map Prod.fst db.wheels.nodup

/-- The page of a claim. -/
def page (stage : Stage) (limit : ℕ) (nowIso : String) (db : Db) (queues : Queues) :
    List (ℕ × WheelRow) :=
  ((claimable stage nowIso db queues).insertionSort queueLe).take limit

theorem mem_claimable_of_page {r : ℕ × WheelRow} (h : r ∈ page stage limit nowIso db queues) :
    r ∈ claimable stage nowIso db queues :=
  (List.mem_insertionSort queueLe).mp (List.mem_of_mem_take h)

theorem claim_eq : (claim stage limit nowIso db queues).1 =
    (page stage limit nowIso db queues).map fun r =>
      ⟨r.1, r.2.project, r.2.lane, queueState stage⟩ := by
  rw [claim, claimQuery_eq, page]

theorem exists_item_iff {lane : ℕ} :
    (∃ item ∈ (claim stage limit nowIso db queues).1, item.lane = lane) ↔
      ∃ r ∈ page stage limit nowIso db queues, r.2.lane = lane := by
  simp only [claim_eq, List.mem_map, exists_exists_and_eq_and]

/-- After a claim the eligible wheels are those that were and are not on the page. -/
theorem eligible_after_claim {id : ℕ} {row : WheelRow} (hrow : db.wheels.get? id = some row) :
    eligible stage nowIso db (claim stage limit nowIso db queues).2 id row = true ↔
      eligible stage nowIso db queues id row = true ∧
        (id, row) ∉ page stage limit nowIso db queues := by
  have hflight : (claim stage limit nowIso db queues).2.inFlight stage =
      queues.inFlight stage ++ (page stage limit nowIso db queues).map Prod.fst := by
    have hids : ((page stage limit nowIso db queues).map fun r : ℕ × WheelRow =>
        (⟨r.1, r.2.project, r.2.lane, queueState stage⟩ : QueueItem)).map QueueItem.id =
        (page stage limit nowIso db queues).map Prod.fst := by
      rw [List.map_map]
      rfl
    rw [← hids]
    simp only [claim, claimQuery_eq, Function.update_self, page]
  have hpage : id ∈ (page stage limit nowIso db queues).map Prod.fst ↔
      (id, row) ∈ page stage limit nowIso db queues := by
    constructor
    · intro hid
      obtain ⟨⟨id, row'⟩, hmem, rfl⟩ := List.mem_map.mp hid
      obtain rfl : row' = row := by
        simpa [hrow] using (mem_claimable.mp (mem_claimable_of_page hmem)).1.symm
      exact hmem
    · exact fun hmem => List.mem_map.mpr ⟨_, hmem, rfl⟩
  simp only [eligible, hflight, List.mem_append, hpage, decide_eq_true_eq]
  tauto

/-- Live wheels after the cursor are on every page that has backfill. -/
theorem waiting_subset_page {r : ℕ × WheelRow} (hr : r ∈ page stage limit nowIso db queues)
    (hlane : r.2.lane = 1) :
    ∀ a ∈ waiting stage nowIso db queues 0, a ∈ page stage limit nowIso db queues := by
  intro a ha
  by_contra hnot
  obtain ⟨hmem, hzero⟩ := mem_waiting.mp ha
  have hle := lane_le_of_page hr hmem hnot
  omega

/-- A claim puts live work first exactly when all of it has been reached. -/
theorem liveFirst_iff_liveReached :
    LiveFirst stage limit nowIso db queues ↔ LiveReached stage limit nowIso db queues := by
  rw [LiveFirst, exists_item_iff]
  constructor
  · intro hfirst
    by_contra hnot
    obtain ⟨hbehind, hroom, hbackfill⟩ : (¬∀ id row, db.wheels.get? id = some row →
        row.lane = 0 → eligible stage nowIso db queues id row = true →
          laneProjectIdKeyset (queues.cursors stage) id row = true) ∧
        (waiting stage nowIso db queues 0).length < limit ∧
          waiting stage nowIso db queues 1 ≠ [] := by
      simpa only [LiveReached, not_or, not_le] using hnot
    push Not at hbehind
    obtain ⟨id, row, hrow, hzero, heligible, hcursor⟩ := hbehind
    obtain ⟨b, hb⟩ := List.exists_mem_of_ne_nil _ hbackfill
    obtain ⟨hbmem, hbone⟩ := mem_waiting.mp hb
    -- the page has backfill: otherwise it holds live wheels only, and is not full
    have hpage : ∃ r ∈ page stage limit nowIso db queues, r.2.lane = 1 := by
      by_contra hnone
      push Not at hnone
      have hbnot : b ∉ page stage limit nowIso db queues := fun hmem => hnone b hmem hbone
      have hlive : ∀ a ∈ page stage limit nowIso db queues,
          a ∈ waiting stage nowIso db queues 0 := by
        intro a ha
        have hle := lane_le_of_page ha hbmem hbnot
        have hne := hnone a ha
        exact mem_waiting.mpr ⟨mem_claimable_of_page ha, by omega⟩
      have hnodup : (page stage limit nowIso db queues).Nodup :=
        ((List.perm_insertionSort queueLe _).nodup_iff.mpr ((nodup_rows db).filter _)).sublist
          (List.take_sublist _ _)
      have hle := (List.subperm_of_subset hnodup hlive).length_le
      have hshort : (page stage limit nowIso db queues).length < limit := by omega
      refine hbnot ?_
      rw [page, List.take_of_length_le]
      · exact (List.mem_insertionSort queueLe).mpr hbmem
      · rw [page, List.length_take] at hshort
        omega
    have hleft := hfirst hpage id row hrow hzero
    refine Bool.eq_false_iff.mp hleft ((eligible_after_claim hrow).mpr ⟨heligible, fun hmem => ?_⟩)
    exact hcursor (mem_claimable.mp (mem_claimable_of_page hmem)).2.2
  · rintro hreached ⟨r, hr, hlane⟩ id row hrow hzero
    rw [Bool.eq_false_iff]
    intro hleft
    obtain ⟨heligible, hnot⟩ := (eligible_after_claim hrow).mp hleft
    have hsub := waiting_subset_page hr hlane
    rcases hreached with hbehind | hfull | hnone
    · refine hnot (hsub _ (mem_waiting.mpr ⟨mem_claimable.mpr ⟨hrow, heligible, ?_⟩, hzero⟩))
      exact hbehind id row hrow hzero heligible
    · -- live wheels fill the page, and it holds one more
      have hnodup : (r :: waiting stage nowIso db queues 0).Nodup := by
        refine List.nodup_cons.mpr ⟨fun hmem => ?_, (nodup_rows db).filter _⟩
        have hzero := (mem_waiting.mp hmem).2
        omega
      have hle := (List.subperm_of_subset hnodup
        (List.cons_subset.mpr ⟨hr, hsub⟩)).length_le
      have htake : (page stage limit nowIso db queues).length ≤ limit := List.length_take_le _ _
      rw [List.length_cons] at hle
      omega
    · have hmem : r ∈ waiting stage nowIso db queues 1 :=
        mem_waiting.mpr ⟨mem_claimable_of_page hr, hlane⟩
      simp [hnone] at hmem

end Claim

/-! ## A campaign that overtakes live work -/

/-- A page of the index with these wheels, each with a sidecar. -/
def examplePageOf (filenames : List String) : ProjectPage where
  lastSerial := 1
  files := filenames.map fun filename =>
    { filename := filename, url := "https://files/" ++ filename, hasMetadata := true }

/-- A sync of project `p` that finds these wheels. -/
def syncEvents (filenames : List String) : List Event :=
  [.pipeline (.planSync "p" (.page (examplePageOf filenames))), .pipeline (.applySync "p" "t0")]

/-- Where the archive thread puts the example's bytes. -/
def exampleLocation : BlobRow := ⟨0, 0, 0, 1⟩

/-- Two wheels are fetched and reset by a campaign, one of them is claimed, and a
third wheel is fetched. -/
def overtakenRun : List Event :=
  syncEvents ["a.whl", "b.whl"] ++
  [.openSegment 0, .pipeline (.claim .fetch 2 "t1"), .pipeline (.loadSidecar 0),
    .pipeline (.loadSidecar 1), .archive 0 [65] exampleLocation exampleClock,
    .archive 0 [66] exampleLocation exampleClock,
    .pipeline (.selectChunk (.project "p") (.project "p" 0) 5000), .pipeline (.applyChunk 0 "t1"),
    .pipeline (.claim .convert 1 "t1")] ++
  syncEvents ["a.whl", "b.whl", "c.whl"] ++
  [.pipeline (.claim .fetch 1 "t1"), .pipeline (.loadSidecar 3),
    .archive 3 [67] exampleLocation exampleClock]

/-- The next claim returns the second wheel of the campaign, and leaves the live
wheel unclaimed. -/
theorem backfill_overtakes_live :
    ∃ t, (machine exampleEnv).run start overtakenRun = some t ∧
      ¬LiveFirst .convert 1 "t1" t.db t.queues := by
  have hrun : ((machine exampleEnv).run start overtakenRun).map (fun t =>
      ((claim .convert 1 "t1" t.db t.queues).1.map fun item => (item.id, item.lane),
        t.db.wheels.rows.map fun r => (r.1, r.2.lane,
          eligible .convert "t1" t.db (claim .convert 1 "t1" t.db t.queues).2 r.1 r.2))) =
      some ([(2, 1)], [(1, 1, false), (2, 1, false), (3, 0, true)]) := by
    decide
  obtain ⟨t, ht, hpair⟩ := Option.map_eq_some_iff.mp hrun
  obtain ⟨hitems, hrows⟩ := Prod.mk.inj hpair
  refine ⟨t, ht, fun hfirst => ?_⟩
  have hclaimed : (2, 1) ∈ (claim .convert 1 "t1" t.db t.queues).1.map fun item =>
      (item.id, item.lane) := by
    rw [hitems]
    exact List.mem_singleton.mpr rfl
  have hthird : (3, 0, true) ∈ t.db.wheels.rows.map fun r => (r.1, r.2.lane,
      eligible .convert "t1" t.db (claim .convert 1 "t1" t.db t.queues).2 r.1 r.2) := by
    rw [hrows]
    exact List.mem_of_getElem? (i := 2) rfl
  obtain ⟨item, hitem, hlane⟩ := List.mem_map.mp hclaimed
  obtain ⟨r, hr, heq⟩ := List.mem_map.mp hthird
  have hnone := hfirst ⟨item, hitem, (Prod.mk.inj hlane).2⟩ r.1 r.2
    (Table.get?_eq_some_iff.mpr hr) (Prod.mk.inj (Prod.mk.inj heq).2).1
  exact Bool.false_ne_true (hnone.symm.trans (Prod.mk.inj (Prod.mk.inj heq).2).2)

end RerollSync.Daemon
