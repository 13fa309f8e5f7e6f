import RerollSync.Dispatcher.KeysetCampaign
import Mathlib.Data.List.Dedup

/-!
# The version campaign against its preview

Both phases of `reprocess(RerollVersionBelow(version))` delete what they have matched,
a row of one phase also when the other has found its wheel.  So every chunk takes its
wheels from those that still match, and the campaign ends when none does.
-/

namespace RerollSync.Dispatcher

open RerollSync.Store RerollSync.Support

variable {version : String} {chunkSize : ℕ} {nowIso : ℕ → String}

/-! ## What a chunk clears -/

theorem mem_staleRepodata {db : Db} {id : ℕ} : id ∈ staleRepodata version db ↔
    ∃ row, db.wheelRepodata.get? id = some row ∧ row.rerollVersion < version ∧
      live db id = true := by
  rw [staleRepodata, Table.keys, List.mem_map]
  constructor
  · rintro ⟨r, hr, rfl⟩
    obtain ⟨hr, hp⟩ := List.mem_filter.mp hr
    exact ⟨r.2, Table.get?_eq_some_iff.mpr hr, of_decide_eq_true hp⟩
  · rintro ⟨row, hrow, hp⟩
    exact ⟨(id, row), List.mem_filter.mpr ⟨Table.get?_eq_some_iff.mp hrow, decide_eq_true hp⟩, rfl⟩

theorem matches_rerollVersionBelow {db : Db} {id : ℕ} :
    (Selector.rerollVersionBelow version).Matches db id ↔
      id ∈ staleRepodata version db ∨ ∃ r ∈ staleSkips version db, r.1.1 = id := by
  rw [Selector.Matches, mem_staleRepodata]
  constructor
  · rintro ⟨hlive, ⟨row, hrow, hversion⟩ | ⟨stage, row, hrow, hpermanent, hversion⟩⟩
    · exact Or.inl ⟨row, hrow, hversion, hlive⟩
    · exact Or.inr ⟨((id, stage), row),
        mem_staleSkips.mpr ⟨hrow, hpermanent, hversion, hlive⟩, rfl⟩
  · rintro (⟨row, hrow, hversion, hlive⟩ | ⟨r, hr, rfl⟩)
    · exact ⟨hlive, Or.inl ⟨row, hrow, hversion⟩⟩
    · obtain ⟨hrow, hpermanent, hversion, hlive⟩ := mem_staleSkips.mp hr
      exact ⟨hlive, Or.inr ⟨r.1.2, r.2, hrow, hpermanent, hversion⟩⟩

/-- The wheels of `order` are reset, which all matched, and their repodata and their stale
skips are gone. -/
structure Progress.Clears (version : String) (p p' : Progress) (order : List ℕ) : Prop where
  reset : p.Reset p' order
  matched : ∀ id ∈ order, (Selector.rerollVersionBelow version).Matches p.db id
  repodata : ∀ id, p'.db.wheelRepodata.get? id =
    if id ∈ order then none else p.db.wheelRepodata.get? id
  skips : ∀ key row, p'.db.skips.get? key = some row ↔ p.db.skips.get? key = some row ∧
    ¬((key, row) ∈ staleSkips version p.db ∧ key.1 ∈ order)
  live : ∀ id, live p'.db id = live p.db id

variable {p p' p'' : Progress} {order order' : List ℕ}

theorem Progress.Clears.refl (version : String) (p : Progress) : p.Clears version p [] where
  reset := Progress.Reset.refl p
  matched _ hid := absurd hid List.not_mem_nil
  repodata _ := by simp
  skips _ _ := by simp
  live _ := rfl

/-- The stale skips of the other wheels stay. -/
theorem Progress.Clears.mem_staleSkips_iff (h : p.Clears version p' order)
    {r : (ℕ × Stage) × SkipRow} :
    r ∈ staleSkips version p'.db ↔ r ∈ staleSkips version p.db ∧ r.1.1 ∉ order := by
  rw [mem_staleSkips, h.skips, h.live]
  constructor
  · rintro ⟨⟨hrow, hnot⟩, hpermanent, hversion, hlive⟩
    have hstale := mem_staleSkips.mpr ⟨hrow, hpermanent, hversion, hlive⟩
    exact ⟨hstale, fun hid => hnot ⟨hstale, hid⟩⟩
  · rintro ⟨hstale, hid⟩
    obtain ⟨hrow, hpermanent, hversion, hlive⟩ := mem_staleSkips.mp hstale
    exact ⟨⟨hrow, fun hboth => hid hboth.2⟩, hpermanent, hversion, hlive⟩

/-- The stale repodata of the other wheels stays. -/
theorem Progress.Clears.mem_staleRepodata_iff (h : p.Clears version p' order) {id : ℕ} :
    id ∈ staleRepodata version p'.db ↔ id ∈ staleRepodata version p.db ∧ id ∉ order := by
  rw [mem_staleRepodata, mem_staleRepodata, h.repodata, h.live]
  by_cases hid : id ∈ order
  · simp [hid]
  · simp [hid]

/-- The other wheels still match. -/
theorem Progress.Clears.matches_iff (h : p.Clears version p' order) {id : ℕ} :
    (Selector.rerollVersionBelow version).Matches p'.db id ↔
      (Selector.rerollVersionBelow version).Matches p.db id ∧ id ∉ order := by
  rw [matches_rerollVersionBelow, matches_rerollVersionBelow, h.mem_staleRepodata_iff,
    or_and_right]
  refine or_congr_right ⟨?_, ?_⟩
  · rintro ⟨r, hr, rfl⟩
    obtain ⟨hstale, hid⟩ := h.mem_staleSkips_iff.mp hr
    exact ⟨⟨r, hstale, rfl⟩, hid⟩
  · rintro ⟨⟨r, hstale, rfl⟩, hid⟩
    exact ⟨r, h.mem_staleSkips_iff.mpr ⟨hstale, hid⟩, rfl⟩

theorem Progress.Clears.trans (h : p.Clears version p' order) (h' : p'.Clears version p'' order') :
    p.Clears version p'' (order ++ order') where
  reset := h.reset.trans h'.reset fun id hid hid' => (h.matches_iff.mp (h'.matched id hid')).2 hid
  matched id hid := by
    rcases List.mem_append.mp hid with hid | hid
    · exact h.matched id hid
    · exact (h.matches_iff.mp (h'.matched id hid)).1
  repodata id := by
    rw [h'.repodata, h.repodata]
    by_cases hid : id ∈ order
    · simp [hid]
    · simp [hid]
  skips key row := by
    rw [h'.skips, h.skips, h.mem_staleSkips_iff, List.mem_append]
    tauto
  live id := (h'.live id).trans (h.live id)

variable (version) in
/-- The op of a chunk of distinct wheels that match. -/
theorem Progress.clears_reprocess (p : Progress) {chunkIds : List ℕ} (hnodup : chunkIds.Nodup)
    (hmatches : ∀ id ∈ chunkIds, (Selector.rerollVersionBelow version).Matches p.db id)
    (now : String) :
    p.Clears version (p.reprocess chunkIds (.rerollVersionBelow version) now) chunkIds := by
  have hlive : ∀ id ∈ chunkIds, Dispatcher.live p.db id = true := fun id hid => (hmatches id hid).1
  have hkept := live_reprocess p chunkIds (.rerollVersionBelow version) now hlive
  refine ⟨p.reset_reprocess hnodup (fun id hid => ?_) _ now, hmatches, fun id => ?_,
    fun key row => ?_, hkept⟩
  · obtain ⟨row, hrow, -⟩ := live_eq_true_iff.mp (hlive id hid)
    exact Db.hasWheel_iff.mpr ⟨row, hrow⟩
  · rw [wheelRepodata_reprocess, Table.get?_filter]
    by_cases hid : id ∈ chunkIds
    · simp [hid]
    · simp [hid]
  · rw [skips_reprocess, Table.get?_filter, Option.filter_eq_some_iff, Bool.not_eq_true',
      mem_staleSkips]
    refine and_congr_right fun hrow => ?_
    rw [Bool.eq_false_iff, clearedSkip, Ne, decide_eq_true_eq, Bool.not_eq_true']
    refine not_congr ⟨?_, ?_⟩
    · rintro ⟨hpermanent, hversion, hid⟩
      exact ⟨⟨hrow, hpermanent, hversion, hlive _ hid⟩, hid⟩
    · rintro ⟨⟨-, hpermanent, hversion, -⟩, hid⟩
      exact ⟨hpermanent, hversion, hid⟩

/-! ## The phases -/

/-- A phase whose query finds matching wheels goes through chunks of them. -/
theorem exists_clears_versionLoop {rows : Db → List ℕ} {ids : List ℕ → List ℕ}
    (hnodup : ∀ db, (ids (rows db)).Nodup)
    (hmatches : ∀ db, ∀ id ∈ ids (rows db), (Selector.rerollVersionBelow version).Matches db id)
    (turns : ℕ) (p : Progress) :
    ∃ order, p.Clears version (versionLoop rows ids (.rerollVersionBelow version) chunkSize nowIso
      turns p) order := by
  induction turns generalizing p with
  | zero => exact ⟨[], Progress.Clears.refl version p⟩
  | succ turns ih =>
      have hturn := p.clears_reprocess version (hnodup p.db) (hmatches p.db) (nowIso p.changeSeq)
      rw [versionLoop]
      split
      · exact ⟨[], Progress.Clears.refl version p⟩
      · split
        · exact ⟨_, hturn⟩
        · obtain ⟨order, hrest⟩ := ih (p.reprocess (ids (rows p.db)) (.rerollVersionBelow version)
            (nowIso p.changeSeq))
          exact ⟨_, hturn.trans hrest⟩

/-- The rows that the query for repodata chooses from, in its order. -/
def repodataRows (version : String) (db : Db) : List ℕ :=
  ((db.wheelRepodata.rows.filter fun r => decide (r.2.rerollVersion < version ∧
    live db r.1)).insertionSort fun a b => a.2.rerollVersion ≤ b.2.rerollVersion).map Prod.fst

theorem wheelRepodataQuery_eq (version : String) (limit : ℕ) (db : Db) :
    rerollVersionWheelRepodataChunkQuery version limit db =
      (repodataRows version db).take limit := List.map_take

theorem perm_repodataRows (version : String) (db : Db) :
    (repodataRows version db).Perm (staleRepodata version db) :=
  (List.perm_insertionSort _ _).map Prod.fst

variable (version chunkSize nowIso) in
theorem exists_clears_wheelRepodataLoop (turns : ℕ) (p : Progress) :
    ∃ order, p.Clears version (wheelRepodataLoop version chunkSize nowIso turns p) order := by
  refine exists_clears_versionLoop (fun db => ?_) (fun db id hid => ?_) turns p
  · rw [id_eq, wheelRepodataQuery_eq]
    refine List.Nodup.sublist (List.take_sublist _ _) ?_
    exact (perm_repodataRows version db).nodup_iff.mpr (Table.nodup _)
  · rw [id_eq, wheelRepodataQuery_eq] at hid
    exact matches_rerollVersionBelow.mpr
      (Or.inl ((perm_repodataRows version db).mem_iff.mp (List.mem_of_mem_take hid)))

theorem nodup_eraseDups (l : List ℕ) : l.eraseDups.Nodup := by
  induction hn : l.length using Nat.strong_induction_on generalizing l with
  | _ n ih =>
      cases l with
      | nil => exact List.nodup_nil
      | cons a l =>
          rw [List.eraseDups_cons]
          refine List.nodup_cons.mpr ⟨fun hmem => ?_, ih _ ?_ _ rfl⟩
          · have h := (List.mem_filter.mp (List.mem_eraseDups.mp hmem)).2
            simp at h
          · have h := List.length_filter_le (fun b => !b == a) l
            rw [List.length_cons] at hn
            omega

variable (version chunkSize nowIso) in
theorem exists_clears_skipsLoop (turns : ℕ) (p : Progress) :
    ∃ order, p.Clears version (skipsLoop version chunkSize nowIso turns p) order := by
  refine exists_clears_versionLoop (fun db => nodup_eraseDups _) (fun db id hid => ?_) turns p
  obtain ⟨r, hr, hid⟩ := exists_stale_of_mem_skipsQuery (List.mem_eraseDups.mp hid)
  exact matches_rerollVersionBelow.mpr (Or.inr ⟨r, hr, hid⟩)

/-- The first phase ends when no stale repodata is left. -/
theorem staleRepodata_wheelRepodataLoop (hpos : 1 ≤ chunkSize) {turns : ℕ} {p : Progress}
    (hturns : p.db.wheelRepodata.rows.length ≤ turns) :
    staleRepodata version (wheelRepodataLoop version chunkSize nowIso turns p).db = [] := by
  induction turns generalizing p with
  | zero =>
      have hnil : p.db.wheelRepodata.rows = [] :=
        List.eq_nil_of_length_eq_zero (Nat.le_zero.mp hturns)
      simp [wheelRepodataLoop, versionLoop, staleRepodata, Table.filter, Table.keys, hnil]
  | succ turns ih =>
      have hstale := (perm_repodataRows version p.db).length_eq
      rw [wheelRepodataLoop, versionLoop]
      by_cases hrows : rerollVersionWheelRepodataChunkQuery version chunkSize p.db = []
      · rw [if_pos hrows]
        rw [wheelRepodataQuery_eq, List.take_eq_nil_iff] at hrows
        have hnil := hrows.resolve_left (by omega)
        rw [hnil, List.length_nil] at hstale
        exact List.eq_nil_of_length_eq_zero hstale.symm
      · rw [if_neg hrows, id_eq]
        by_cases hshort : (rerollVersionWheelRepodataChunkQuery version chunkSize
            p.db).length < chunkSize
        · -- a short page holds all that is stale
          simp only [if_pos hshort]
          have hall : rerollVersionWheelRepodataChunkQuery version chunkSize p.db =
              repodataRows version p.db := by
            rw [wheelRepodataQuery_eq, List.length_take] at hshort
            rw [wheelRepodataQuery_eq, List.take_of_length_le (by omega)]
          rw [hall]
          have hnodup : (repodataRows version p.db).Nodup :=
            (perm_repodataRows version p.db).nodup_iff.mpr (Table.nodup _)
          have hturn := p.clears_reprocess version hnodup (fun id hid =>
            matches_rerollVersionBelow.mpr
              (Or.inl ((perm_repodataRows version p.db).mem_iff.mp hid))) (nowIso p.changeSeq)
          refine List.eq_nil_iff_forall_not_mem.mpr fun id hid => ?_
          obtain ⟨hbefore, hnot⟩ := hturn.mem_staleRepodata_iff.mp hid
          exact hnot ((perm_repodataRows version p.db).mem_iff.mpr hbefore)
        · simp only [if_neg hshort]
          have hsmaller := wheelRepodataLoop_lessens p (.rerollVersionBelow version)
            (nowIso p.changeSeq) hrows
          exact ih (by omega)

/-! ## The campaign -/

/-- A wheel counts once in the preview, whatever it matches in. -/
theorem length_eq_wheelCount {db : Db} {order : List ℕ} (hnodup : order.Nodup)
    (h : ∀ id, id ∈ order ↔ (Selector.rerollVersionBelow version).Matches db id) :
    order.length = rerollVersionWheelCountQuery version db := by
  refine length_eq_of_mem_iff hnodup (List.nodup_dedup _) fun id => ?_
  rw [h, matches_rerollVersionBelow, List.mem_dedup, List.mem_append, List.mem_map]

theorem nodup_rows {κ ρ : Type} (t : Table κ ρ) : t.rows.Nodup := t.nodup.of_map

/-- The campaign clears the wheels that match, and none matches any more. -/
theorem exists_clears_reprocessVersionBelow (hpos : 1 ≤ chunkSize) (version : String)
    (nowIso : ℕ → String) (db : Db) (changeSeq : ℕ) :
    ∃ order, Progress.Clears version ⟨db, changeSeq, 0⟩
        (reprocessVersionBelow version chunkSize nowIso db changeSeq) order ∧
      (∀ id, id ∈ order ↔ (Selector.rerollVersionBelow version).Matches db id) ∧
      staleRepodata version (reprocessVersionBelow version chunkSize nowIso db changeSeq).db = [] ∧
      staleSkips version (reprocessVersionBelow version chunkSize nowIso db changeSeq).db = [] := by
  obtain ⟨order₁, h₁⟩ := exists_clears_wheelRepodataLoop version chunkSize nowIso
    db.wheelRepodata.rows.length ⟨db, changeSeq, 0⟩
  have hstale₁ : staleRepodata version (wheelRepodataLoop version chunkSize nowIso
      db.wheelRepodata.rows.length ⟨db, changeSeq, 0⟩).db = [] :=
    staleRepodata_wheelRepodataLoop hpos le_rfl
  rw [reprocessVersionBelow]
  generalize wheelRepodataLoop version chunkSize nowIso db.wheelRepodata.rows.length
    ⟨db, changeSeq, 0⟩ = p₁ at *
  obtain ⟨order₂, h₂⟩ := exists_clears_skipsLoop version chunkSize nowIso
    p₁.db.skips.rows.length p₁
  have hstale₂ : staleSkips version (skipsLoop version chunkSize nowIso p₁.db.skips.rows.length
    p₁).db = [] := staleSkips_skipsLoop hpos nowIso le_rfl
  generalize skipsLoop version chunkSize nowIso p₁.db.skips.rows.length p₁ = p at *
  have hboth := h₁.trans h₂
  have hrepodata : staleRepodata version p.db = [] := by
    refine List.eq_nil_iff_forall_not_mem.mpr fun id hid => ?_
    have hbefore := (h₂.mem_staleRepodata_iff.mp hid).1
    rw [hstale₁] at hbefore
    exact List.not_mem_nil hbefore
  have hnone : ∀ id, ¬(Selector.rerollVersionBelow version).Matches p.db id := fun id hid => by
    rcases matches_rerollVersionBelow.mp hid with hid | ⟨r, hr, -⟩
    · exact List.not_mem_nil (hrepodata ▸ hid)
    · exact List.not_mem_nil (hstale₂ ▸ hr)
  refine ⟨order₁ ++ order₂, hboth, fun id => ⟨hboth.matched id, fun hid => ?_⟩, hrepodata, hstale₂⟩
  by_contra hnot
  exact hnone id (hboth.matches_iff.mpr ⟨hid, hnot⟩)

/-- The skip rows that stay are those that were not stale. -/
theorem get?_skips_reprocessVersionBelow (hpos : 1 ≤ chunkSize) {db : Db} {changeSeq : ℕ}
    {key : ℕ × Stage} {row : SkipRow} :
    (reprocessVersionBelow version chunkSize nowIso db changeSeq).db.skips.get? key = some row ↔
      db.skips.get? key = some row ∧ (key, row) ∉ staleSkips version db := by
  obtain ⟨order, hclears, horder, -, -⟩ :=
    exists_clears_reprocessVersionBelow hpos version nowIso db changeSeq
  rw [hclears.skips]
  refine and_congr_right fun _ => not_congr (and_iff_left_of_imp fun hstale => ?_)
  exact (horder key.1).mpr (matches_rerollVersionBelow.mpr (Or.inr ⟨_, hstale, rfl⟩))

/-- A wheel whose repodata and whose skip are both of version 0.1.0. -/
def staleDb : Db :=
  { Db.empty with
    wheels := (∅ : Table ℕ WheelRow).set 1 { Pipeline.exampleRow with state := .skipped }
    wheelRepodata := (∅ : Table ℕ RepodataRow).set 1 ⟨[], none, false, "0.1.0"⟩
    skips := (∅ : Table (ℕ × Stage) SkipRow).set (1, .convert)
      ⟨"no wheel tag", false, some "0.1.0", "t0"⟩ }

end RerollSync.Dispatcher
