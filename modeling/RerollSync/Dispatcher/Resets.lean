import RerollSync.Dispatcher.Campaign

/-!
# What a campaign resets

The wheels that a selector matches, the counts that `preview_selector` makes of them,
and what a series of chunks leaves: every wheel of the series is reset once.
-/

namespace RerollSync.Dispatcher

open RerollSync.Store RerollSync.Support

/-! ## Previews -/

/-- `SelectorPreview`. -/
structure SelectorPreview where
  wheelCount : ℕ
  skipsToClearCount : ℕ
deriving DecidableEq

/-- `_project_count_query`. -/
def projectCountQuery (project : String) (db : Db) : ℕ :=
  (db.wheels.filter fun _ row => row.project = project ∧ row.state ≠ .deleted).rows.length

/-- `_state_count_query`. -/
def stateCountQuery (state : WheelState) (db : Db) : ℕ :=
  (db.wheels.filter fun _ row => row.state = state ∧ row.state ≠ .deleted).rows.length

/-- The wheels whose repodata a version campaign finds. -/
def staleRepodata (version : String) (db : Db) : List ℕ :=
  (db.wheelRepodata.filter fun id row => row.rerollVersion < version ∧ live db id).keys

/-- `_reroll_version_wheel_count_query`. -/
def rerollVersionWheelCountQuery (version : String) (db : Db) : ℕ :=
  (staleRepodata version db ++ (staleSkips version db).map fun r => r.1.1).dedup.length

/-- `_reroll_version_skips_row_count_query`. -/
def rerollVersionSkipsRowCountQuery (version : String) (db : Db) : ℕ :=
  (staleSkips version db).length

/-- `preview_selector`. -/
def previewSelector (db : Db) : Selector → SelectorPreview
  | .project project => ⟨projectCountQuery project db, 0⟩
  | .state state => ⟨stateCountQuery state db, 0⟩
  | .skippedOnly => ⟨stateCountQuery .skipped db, 0⟩
  | .rerollVersionBelow version =>
      ⟨rerollVersionWheelCountQuery version db, rerollVersionSkipsRowCountQuery version db⟩

/-! ## Resets -/

/-- The wheels of `order` are reset, each once: the one at position `k` has the `k`-th
of the sequence numbers that follow.  No other wheel is touched. -/
structure Progress.Reset (p p' : Progress) (order : List ℕ) : Prop where
  nodup : order.Nodup
  total : p'.total = p.total + order.length
  changeSeq : p'.changeSeq = p.changeSeq + order.length
  wheels : ∀ id, ∃ nowIso, p'.db.wheels.get? id = (p.db.wheels.get? id).map fun row =>
    if id ∈ order then reprocessedRow nowIso (p.changeSeq + order.idxOf id + 1) row else row

theorem Progress.Reset.refl (p : Progress) : p.Reset p [] :=
  ⟨List.nodup_nil, rfl, rfl, fun id => ⟨"", by simp⟩⟩

/-- Two series that share no wheel. -/
theorem Progress.Reset.trans {p p' p'' : Progress} {order order' : List ℕ}
    (h : p.Reset p' order) (h' : p'.Reset p'' order') (hdisjoint : ∀ id ∈ order, id ∉ order') :
    p.Reset p'' (order ++ order') where
  nodup := List.nodup_append.mpr
    ⟨h.nodup, h'.nodup, fun id hid id' hid' heq => hdisjoint id hid (heq ▸ hid')⟩
  total := by rw [h'.total, h.total, List.length_append, Nat.add_assoc]
  changeSeq := by rw [h'.changeSeq, h.changeSeq, List.length_append, Nat.add_assoc]
  wheels id := by
    obtain ⟨nowIso, hid⟩ := h.wheels id
    obtain ⟨nowIso', hid'⟩ := h'.wheels id
    rw [hid', hid, Option.map_map, h.changeSeq]
    by_cases hmem : id ∈ order
    · refine ⟨nowIso, ?_⟩
      congr 1
      funext row
      simp [hmem, hdisjoint id hmem, List.idxOf_append_of_mem hmem]
    · refine ⟨nowIso', ?_⟩
      congr 1
      funext row
      simp [hmem, List.idxOf_append_of_notMem hmem, Nat.add_assoc]

/-- One chunk of distinct wheels. -/
theorem Progress.reset_reprocess (p : Progress) {chunkIds : List ℕ} (hnodup : chunkIds.Nodup)
    (hwheels : ∀ id ∈ chunkIds, p.db.hasWheel id = true) (selector : Selector) (nowIso : String) :
    p.Reset (p.reprocess chunkIds selector nowIso) chunkIds := by
  obtain ⟨wheels, hrun, hget⟩ :=
    runAtomic_reprocessChunkApply_of_nodup hnodup nowIso selector p.changeSeq hwheels
  refine ⟨hnodup, ?_, ?_, fun id => ⟨nowIso, ?_⟩⟩
  · rw [Progress.reprocess, hrun]
    rfl
  · rw [Progress.reprocess, hrun]
  · rw [Progress.reprocess, hrun]
    exact hget id

end RerollSync.Dispatcher
