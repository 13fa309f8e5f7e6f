import RerollSync.Dispatcher.Effects

/-!
# The version campaign

`reprocess(RerollVersionBelow(version))` with no other writer: two loops run the
same bounded query again and again, and each chunk of what it returns is an op
that deletes the rows the query has found.
-/

namespace RerollSync.Dispatcher

open RerollSync.Store RerollSync.Support

/-- What a campaign has done so far: `total` is the number of rows updated. -/
structure Progress where
  db : Db
  changeSeq : ℕ
  total : ℕ

/-- The op of one chunk, submitted and waited for. -/
def Progress.reprocess (p : Progress) (chunkIds : List ℕ) (selector : Selector) (nowIso : String) :
    Progress :=
  let r := (reprocessChunkApply chunkIds selector nowIso).runAtomic p.db p.changeSeq
  ⟨r.db, r.counter, p.total + r.value.toOption.getD 0⟩

/-- A `while True` of `_reroll_version_below_chunks` with the ops of its chunks:
`rows` is what its query returns, `ids` what it yields of them.  The counter tells
the ops apart, so the clock is read at it.  Every turn deletes a row that the query
has found, so `turns` bounds the turns. -/
def versionLoop (rows : Db → List ℕ) (ids : List ℕ → List ℕ) (selector : Selector) (chunkSize : ℕ)
    (nowIso : ℕ → String) : ℕ → Progress → Progress
  | 0, p => p
  | turns + 1, p =>
      if rows p.db = [] then p
      else
        let p' := p.reprocess (ids (rows p.db)) selector (nowIso p.changeSeq)
        if (rows p.db).length < chunkSize then p'
        else versionLoop rows ids selector chunkSize nowIso turns p'

/-- The loop over `wheel_repodata`. -/
def wheelRepodataLoop (version : String) (chunkSize : ℕ) (nowIso : ℕ → String) :
    ℕ → Progress → Progress :=
  versionLoop (rerollVersionWheelRepodataChunkQuery version chunkSize) id
    (.rerollVersionBelow version) chunkSize nowIso

/-- The loop over `skips`. -/
def skipsLoop (version : String) (chunkSize : ℕ) (nowIso : ℕ → String) : ℕ → Progress → Progress :=
  versionLoop (rerollVersionSkipsChunkQuery version chunkSize) List.eraseDups
    (.rerollVersionBelow version) chunkSize nowIso

/-- `reprocess(RerollVersionBelow(version))`. -/
def reprocessVersionBelow (version : String) (chunkSize : ℕ) (nowIso : ℕ → String) (db : Db)
    (changeSeq : ℕ) : Progress :=
  let p :=
    wheelRepodataLoop version chunkSize nowIso db.wheelRepodata.rows.length ⟨db, changeSeq, 0⟩
  skipsLoop version chunkSize nowIso p.db.skips.rows.length p

/-! ## One chunk -/

theorem live_eq_true_iff {db : Db} {id : ℕ} :
    live db id = true ↔ ∃ row, db.wheels.get? id = some row ∧ row.state ≠ .deleted := by
  simp [live, Option.any_eq_true]

section Chunk

variable (p : Progress) (chunkIds : List ℕ) (selector : Selector) (nowIso : String)

theorem wheelRepodata_reprocess : (p.reprocess chunkIds selector nowIso).db.wheelRepodata =
    p.db.wheelRepodata.filter fun id _ => !decide (id ∈ chunkIds) := by
  obtain ⟨wheels, affected, hrun, -⟩ :=
    runAtomic_reprocessChunkApply chunkIds nowIso selector p.db p.changeSeq
  rw [Progress.reprocess, hrun]
  rfl

theorem skips_reprocess : (p.reprocess chunkIds selector nowIso).db.skips =
    p.db.skips.filter fun key row => !clearedSkip chunkIds selector key.1 row := by
  obtain ⟨wheels, affected, hrun, -⟩ :=
    runAtomic_reprocessChunkApply chunkIds nowIso selector p.db p.changeSeq
  rw [Progress.reprocess, hrun]
  rfl

/-- A chunk of live wheels leaves the tombstones as they are. -/
theorem live_reprocess (hlive : ∀ id ∈ chunkIds, live p.db id = true) (id : ℕ) :
    live (p.reprocess chunkIds selector nowIso).db id = live p.db id := by
  obtain ⟨wheels, affected, hrun, hget⟩ :=
    runAtomic_reprocessChunkApply chunkIds nowIso selector p.db p.changeSeq
  obtain ⟨m, hm⟩ := hget id
  rw [Progress.reprocess, hrun]
  by_cases hid : id ∈ chunkIds
  · obtain ⟨row, hrow, hstate⟩ := live_eq_true_iff.mp (hlive id hid)
    simp [live, hm, hid, hrow, hstate, reprocessedRow]
  · simp [live, hm, hid]

end Chunk

/-- Skip rows are deleted only, and the tombstones stay what they are. -/
structure Shrinks (db db' : Db) : Prop where
  skips : ∀ key row, db'.skips.get? key = some row → db.skips.get? key = some row
  live : ∀ id, live db' id = live db id

theorem Shrinks.refl (db : Db) : Shrinks db db := ⟨fun _ _ h => h, fun _ => rfl⟩

theorem Shrinks.trans {db db' db'' : Db} (h : Shrinks db db') (h' : Shrinks db' db'') :
    Shrinks db db'' :=
  ⟨fun key row hget => h.skips key row (h'.skips key row hget),
    fun id => (h'.live id).trans (h.live id)⟩

theorem shrinks_reprocess (p : Progress) {chunkIds : List ℕ} (selector : Selector)
    (nowIso : String) (hlive : ∀ id ∈ chunkIds, live p.db id = true) :
    Shrinks p.db (p.reprocess chunkIds selector nowIso).db where
  skips key row hget := by
    rw [skips_reprocess, Table.get?_filter] at hget
    exact (Option.filter_eq_some_iff.mp hget).1
  live := live_reprocess p chunkIds selector nowIso hlive

/-! ## The loops -/

section Loop

variable {rows : Db → List ℕ} {ids : List ℕ → List ℕ} {selector : Selector} {chunkSize : ℕ}
  {nowIso : ℕ → String}

/-- A loop whose query finds live wheels only. -/
theorem shrinks_versionLoop (hlive : ∀ db, ∀ id ∈ ids (rows db), live db id = true) (turns : ℕ)
    (p : Progress) :
    Shrinks p.db (versionLoop rows ids selector chunkSize nowIso turns p).db := by
  induction turns generalizing p with
  | zero => exact Shrinks.refl _
  | succ turns ih =>
      rw [versionLoop]
      have hturn := shrinks_reprocess p selector (nowIso p.changeSeq) (hlive p.db)
      split
      · exact Shrinks.refl _
      · split
        · exact hturn
        · exact hturn.trans (ih _)

end Loop

/-! ### The loop over repodata -/

theorem live_of_mem_wheelRepodataQuery {version : String} {limit : ℕ} {db : Db} {id : ℕ}
    (h : id ∈ rerollVersionWheelRepodataChunkQuery version limit db) : live db id = true := by
  obtain ⟨r, hr, rfl⟩ := List.mem_map.mp h
  have hmem := (List.mem_insertionSort _).mp (List.mem_of_mem_take hr)
  exact (of_decide_eq_true (List.mem_filter.mp hmem).2).2

theorem shrinks_wheelRepodataLoop (version : String) (chunkSize : ℕ) (nowIso : ℕ → String)
    (turns : ℕ) (p : Progress) :
    Shrinks p.db (wheelRepodataLoop version chunkSize nowIso turns p).db :=
  shrinks_versionLoop (fun _ _ hid => live_of_mem_wheelRepodataQuery hid) turns p

/-- Every turn of the loop deletes repodata. -/
theorem wheelRepodataLoop_lessens {version : String} {limit : ℕ} (p : Progress)
    (selector : Selector) (nowIso : String)
    (hrows : rerollVersionWheelRepodataChunkQuery version limit p.db ≠ []) :
    (p.reprocess (rerollVersionWheelRepodataChunkQuery version limit p.db) selector
      nowIso).db.wheelRepodata.rows.length < p.db.wheelRepodata.rows.length := by
  obtain ⟨id, hid⟩ := List.exists_mem_of_ne_nil _ hrows
  obtain ⟨r, hr, rfl⟩ := List.mem_map.mp hid
  have hmem := (List.mem_filter.mp ((List.mem_insertionSort _).mp (List.mem_of_mem_take hr))).1
  rw [wheelRepodata_reprocess]
  exact List.length_filter_lt_length_iff_exists.mpr ⟨r, hmem, by simp [hid]⟩

/-- The skip rows that a campaign is to clear. -/
def staleSkips (version : String) (db : Db) : List ((ℕ × Stage) × SkipRow) :=
  db.skips.rows.filter fun r =>
    !r.2.permanent ∧ r.2.rerollVersion.any (· < version) ∧ live db r.1.1

theorem mem_staleSkips {version : String} {db : Db} {r : (ℕ × Stage) × SkipRow} :
    r ∈ staleSkips version db ↔ db.skips.get? r.1 = some r.2 ∧ r.2.permanent = false ∧
      r.2.rerollVersion.any (· < version) = true ∧ live db r.1.1 = true := by
  rw [staleSkips, List.mem_filter, decide_eq_true_eq, Table.get?_eq_some_iff]
  simp

theorem length_skipsQuery (version : String) (limit : ℕ) (db : Db) :
    (rerollVersionSkipsChunkQuery version limit db).length =
      min limit (staleSkips version db).length := by
  rw [rerollVersionSkipsChunkQuery, List.length_map, List.length_take, List.length_insertionSort]
  rfl

theorem exists_stale_of_mem_skipsQuery {version : String} {limit : ℕ} {db : Db} {id : ℕ}
    (h : id ∈ rerollVersionSkipsChunkQuery version limit db) :
    ∃ r ∈ staleSkips version db, r.1.1 = id := by
  obtain ⟨r, hr, rfl⟩ := List.mem_map.mp h
  exact ⟨r, (List.mem_insertionSort _).mp (List.mem_of_mem_take hr), rfl⟩

theorem live_of_mem_skipsQuery {version : String} {limit : ℕ} {db : Db} {id : ℕ}
    (h : id ∈ (rerollVersionSkipsChunkQuery version limit db).eraseDups) : live db id = true := by
  obtain ⟨r, hr, rfl⟩ := exists_stale_of_mem_skipsQuery (List.mem_eraseDups.mp h)
  exact (mem_staleSkips.mp hr).2.2.2

theorem clearedSkip_of_stale {chunkIds : List ℕ} {version : String} {id : ℕ} {row : SkipRow}
    (hpermanent : row.permanent = false) (hversion : row.rerollVersion.any (· < version) = true)
    (hid : id ∈ chunkIds) : clearedSkip chunkIds (.rerollVersionBelow version) id row = true :=
  decide_eq_true ⟨by simp [hpermanent], hversion, hid⟩

/-- A turn of the loop clears the stale rows it has found. -/
theorem mem_staleSkips_of_reprocess {version : String} {p : Progress} {chunkIds : List ℕ}
    {nowIso : String} (hlive : ∀ id ∈ chunkIds, live p.db id = true)
    {r : (ℕ × Stage) × SkipRow}
    (h : r ∈ staleSkips version
      (p.reprocess chunkIds (.rerollVersionBelow version) nowIso).db) :
    r ∈ staleSkips version p.db ∧ r.1.1 ∉ chunkIds := by
  obtain ⟨hget, hpermanent, hversion, hlive'⟩ := mem_staleSkips.mp h
  rw [live_reprocess p chunkIds _ nowIso hlive] at hlive'
  rw [skips_reprocess, Table.get?_filter] at hget
  obtain ⟨hrow, hkept⟩ := Option.filter_eq_some_iff.mp hget
  refine ⟨mem_staleSkips.mpr ⟨hrow, hpermanent, hversion, hlive'⟩, fun hid => ?_⟩
  rw [clearedSkip_of_stale hpermanent hversion hid] at hkept
  cases hkept

/-- Every turn of the loop deletes a skip row. -/
theorem skipsLoop_lessens {version : String} {limit : ℕ} (p : Progress) (nowIso : String)
    (hrows : rerollVersionSkipsChunkQuery version limit p.db ≠ []) :
    (p.reprocess (rerollVersionSkipsChunkQuery version limit p.db).eraseDups
      (.rerollVersionBelow version) nowIso).db.skips.rows.length < p.db.skips.rows.length := by
  obtain ⟨id, hid⟩ := List.exists_mem_of_ne_nil _ hrows
  obtain ⟨r, hr, rfl⟩ := exists_stale_of_mem_skipsQuery hid
  obtain ⟨hget, hpermanent, hversion, -⟩ := mem_staleSkips.mp hr
  rw [skips_reprocess]
  refine List.length_filter_lt_length_iff_exists.mpr ⟨r, Table.get?_eq_some_iff.mp hget, ?_⟩
  simp only [clearedSkip_of_stale hpermanent hversion (List.mem_eraseDups.mpr hid)]
  exact Bool.false_ne_true

theorem shrinks_skipsLoop (version : String) (chunkSize : ℕ) (nowIso : ℕ → String) (turns : ℕ)
    (p : Progress) : Shrinks p.db (skipsLoop version chunkSize nowIso turns p).db :=
  shrinks_versionLoop (fun _ _ hid => live_of_mem_skipsQuery hid) turns p

/-- The loop ends when no stale row is left. -/
theorem staleSkips_skipsLoop {version : String} {chunkSize : ℕ} (hpos : 0 < chunkSize)
    (nowIso : ℕ → String) {turns : ℕ} {p : Progress} (hturns : p.db.skips.rows.length ≤ turns) :
    staleSkips version (skipsLoop version chunkSize nowIso turns p).db = [] := by
  induction turns generalizing p with
  | zero =>
      have hnil : p.db.skips.rows = [] := List.eq_nil_of_length_eq_zero (Nat.le_zero.mp hturns)
      rw [skipsLoop, versionLoop, staleSkips, hnil, List.filter_nil]
  | succ turns ih =>
      rw [skipsLoop, versionLoop]
      by_cases hrows : rerollVersionSkipsChunkQuery version chunkSize p.db = []
      · have hlength := length_skipsQuery version chunkSize p.db
        rw [hrows, List.length_nil] at hlength
        rw [if_pos hrows]
        exact List.eq_nil_of_length_eq_zero (by omega)
      · have hsmaller := skipsLoop_lessens p (nowIso p.changeSeq) hrows
        rw [if_neg hrows]
        by_cases hshort : (rerollVersionSkipsChunkQuery version chunkSize p.db).length < chunkSize
        · -- a short page holds every stale row
          simp only [if_pos hshort]
          rw [List.eq_nil_iff_forall_not_mem]
          intro r hr
          obtain ⟨hstale, hnot⟩ := mem_staleSkips_of_reprocess
            (fun id hid => live_of_mem_skipsQuery hid) hr
          have hlength := length_skipsQuery version chunkSize p.db
          refine hnot (List.mem_eraseDups.mpr (List.mem_map.mpr ⟨r, ?_, rfl⟩))
          rw [List.take_of_length_le]
          · exact (List.mem_insertionSort _).mpr hstale
          · rw [List.length_insertionSort]
            change (staleSkips version p.db).length ≤ chunkSize
            omega
        · simp only [if_neg hshort]
          exact ih (by omega)

/-! ## The campaign -/

theorem shrinks_reprocessVersionBelow (version : String) (chunkSize : ℕ) (nowIso : ℕ → String)
    (db : Db) (changeSeq : ℕ) :
    Shrinks db (reprocessVersionBelow version chunkSize nowIso db changeSeq).db :=
  (shrinks_wheelRepodataLoop version chunkSize nowIso _ ⟨db, changeSeq, 0⟩).trans
    (shrinks_skipsLoop version chunkSize nowIso _ _)

/-- A campaign clears every skip row that is not permanent and carries an older
version, of every wheel that is not a tombstone. -/
theorem skips_reprocessVersionBelow {version : String} {chunkSize : ℕ} (hpos : 0 < chunkSize)
    (nowIso : ℕ → String) {db : Db} (changeSeq : ℕ) {key : ℕ × Stage} {row : SkipRow}
    (hrow : db.skips.get? key = some row) (hpermanent : row.permanent = false)
    (hversion : row.rerollVersion.any (· < version) = true) (hlive : live db key.1 = true) :
    (reprocessVersionBelow version chunkSize nowIso db changeSeq).db.skips.get? key = none := by
  rw [← Option.not_isSome_iff_eq_none]
  intro hsome
  obtain ⟨row', hrow'⟩ := Option.isSome_iff_exists.mp hsome
  have hshrinks := shrinks_reprocessVersionBelow version chunkSize nowIso db changeSeq
  obtain rfl : row = row' := Option.some.inj (hrow.symm.trans (hshrinks.skips key row' hrow'))
  have hstale : (key, row) ∈ staleSkips version
      (reprocessVersionBelow version chunkSize nowIso db changeSeq).db :=
    mem_staleSkips.mpr ⟨hrow', hpermanent, hversion, (hshrinks.live key.1).trans hlive⟩
  rw [reprocessVersionBelow, staleSkips_skipsLoop hpos nowIso le_rfl] at hstale
  cases hstale

end RerollSync.Dispatcher
