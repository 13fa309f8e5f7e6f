import RerollSync.Support.Dotted
import RerollSync.Dispatcher.VersionCampaign

/-!
# Version campaigns and the order of versions

`reroll_version` is a text column, and the queries of a version campaign compare texts.
What a campaign finds is what precedes its bound as a version when every version stored is
aligned with the bound.
-/

namespace RerollSync.Dispatcher

open RerollSync.Store RerollSync.Support

variable {bound : List ℕ} {chunkSize : ℕ} {nowIso : ℕ → String} {db : Db} {changeSeq : ℕ}

/-! ## Older results -/

/-- The text is of a version that precedes the bound. -/
def Older (bound : List ℕ) (stored : String) : Prop :=
  ∃ version, stored = dotted version ∧ version < bound

/-- The wheel has repodata of an older version. -/
def OlderRepodata (bound : List ℕ) (db : Db) (id : ℕ) : Prop :=
  live db id = true ∧ ∃ row, db.wheelRepodata.get? id = some row ∧ Older bound row.rerollVersion

/-- The key is of a skip of an older version, which is not permanent. -/
def OlderSkip (bound : List ℕ) (db : Db) (key : ℕ × Stage) : Prop :=
  live db key.1 = true ∧ ∃ row, db.skips.get? key = some row ∧ row.permanent = false ∧
    ∃ stored, row.rerollVersion = some stored ∧ Older bound stored

/-- The wheel has an older result. -/
def OlderResult (bound : List ℕ) (db : Db) (id : ℕ) : Prop :=
  OlderRepodata bound db id ∨ ∃ stage, OlderSkip bound db (id, stage)

/-- The queries find the wheels with older rows, the campaign resets these and clears the
rows, and the preview counts them. -/
structure ByVersion (bound : List ℕ) (db : Db) (changeSeq : ℕ) (p : Progress) : Prop where
  repodataFound : ∀ id,
    (∃ limit, id ∈ rerollVersionWheelRepodataChunkQuery (dotted bound) limit db) ↔
      OlderRepodata bound db id
  skipsFound : ∀ id, (∃ limit, id ∈ rerollVersionSkipsChunkQuery (dotted bound) limit db) ↔
    ∃ stage, OlderSkip bound db (id, stage)
  resets : ∃ order, Progress.Reset ⟨db, changeSeq, 0⟩ p order ∧
    ∀ id, id ∈ order ↔ OlderResult bound db id
  repodataCleared : ∀ id row, p.db.wheelRepodata.get? id = some row ↔
    db.wheelRepodata.get? id = some row ∧ ¬OlderResult bound db id
  skipsCleared : ∀ key row, p.db.skips.get? key = some row ↔
    db.skips.get? key = some row ∧ ¬OlderSkip bound db key
  wheelCount : ∃ ids : List ℕ, ids.Nodup ∧ (∀ id, id ∈ ids ↔ OlderResult bound db id) ∧
    (previewSelector db (.rerollVersionBelow (dotted bound))).wheelCount = ids.length
  skipsToClearCount : ∃ keys : List (ℕ × Stage),
    keys.Nodup ∧ (∀ key, key ∈ keys ↔ OlderSkip bound db key) ∧
    (previewSelector db (.rerollVersionBelow (dotted bound))).skipsToClearCount = keys.length

/-- The versions stored are numbers between dots. -/
structure DottedVersions (db : Db) : Prop where
  repodata : ∀ id row, db.wheelRepodata.get? id = some row →
    ∃ version, row.rerollVersion = dotted version
  skips : ∀ key row stored, db.skips.get? key = some row → row.rerollVersion = some stored →
    ∃ version, stored = dotted version

/-- The versions that a campaign compares are aligned with its bound. -/
structure AlignedVersions (bound : List ℕ) (db : Db) : Prop where
  repodata : ∀ id row version, live db id = true → db.wheelRepodata.get? id = some row →
    row.rerollVersion = dotted version → Aligned version bound
  skips : ∀ key row version, live db key.1 = true → db.skips.get? key = some row →
    row.permanent = false → row.rerollVersion = some (dotted version) → Aligned version bound

/-! ## Texts for versions -/

theorem older_dotted_iff {version : List ℕ} : Older bound (dotted version) ↔ version < bound := by
  refine ⟨?_, fun h => ⟨version, rfl, h⟩⟩
  rintro ⟨version', heq, hlt⟩
  rwa [dotted_injective heq]

theorem lt_iff_older_iff {version : List ℕ} :
    (dotted version < dotted bound ↔ Older bound (dotted version)) ↔ Aligned version bound := by
  rw [older_dotted_iff, dotted_lt_dotted_iff]

theorem mem_staleRepodata_iff_older (hdotted : DottedVersions db)
    (haligned : AlignedVersions bound db) {id : ℕ} :
    id ∈ staleRepodata (dotted bound) db ↔ OlderRepodata bound db id := by
  rw [mem_staleRepodata, OlderRepodata, ← exists_and_left]
  refine exists_congr fun row => ?_
  constructor
  · rintro ⟨hrow, hversion, hlive⟩
    obtain ⟨version, heq⟩ := hdotted.repodata id row hrow
    refine ⟨hlive, hrow, ?_⟩
    rw [heq] at hversion ⊢
    exact (lt_iff_older_iff.mpr (haligned.repodata id row version hlive hrow heq)).mp hversion
  · rintro ⟨hlive, hrow, version, heq, hlt⟩
    refine ⟨hrow, ?_, hlive⟩
    rw [heq]
    exact (lt_iff_older_iff.mpr (haligned.repodata id row version hlive hrow heq)).mpr
      ⟨version, rfl, hlt⟩

theorem mem_staleSkips_iff_older (hdotted : DottedVersions db)
    (haligned : AlignedVersions bound db) {key : ℕ × Stage} {row : SkipRow}
    (hrow : db.skips.get? key = some row) :
    (key, row) ∈ staleSkips (dotted bound) db ↔ OlderSkip bound db key := by
  rw [mem_staleSkips, OlderSkip]
  constructor
  · rintro ⟨-, hpermanent, hversion, hlive⟩
    obtain ⟨stored, hstored, hlt⟩ := (Option.any_eq_true _ _).mp hversion
    obtain ⟨version, rfl⟩ := hdotted.skips key row stored hrow hstored
    refine ⟨hlive, row, hrow, hpermanent, _, hstored, ?_⟩
    exact (lt_iff_older_iff.mpr
      (haligned.skips key row version hlive hrow hpermanent hstored)).mp (of_decide_eq_true hlt)
  · rintro ⟨hlive, row', hrow', hpermanent, stored, hstored, version, rfl, hlt⟩
    obtain rfl := Option.some_inj.mp (hrow.symm.trans hrow')
    refine ⟨hrow, hpermanent, ?_, hlive⟩
    rw [hstored, Option.any_some, decide_eq_true_eq]
    exact (lt_iff_older_iff.mpr
      (haligned.skips key row version hlive hrow hpermanent hstored)).mpr ⟨version, rfl, hlt⟩

theorem exists_staleSkips_iff_older (hdotted : DottedVersions db)
    (haligned : AlignedVersions bound db) {id : ℕ} :
    (∃ r ∈ staleSkips (dotted bound) db, r.1.1 = id) ↔ ∃ stage, OlderSkip bound db (id, stage) := by
  constructor
  · rintro ⟨r, hr, rfl⟩
    exact ⟨r.1.2, (mem_staleSkips_iff_older hdotted haligned (mem_staleSkips.mp hr).1).mp hr⟩
  · rintro ⟨stage, hskip⟩
    obtain ⟨row, hrow, -⟩ := hskip.2
    exact ⟨((id, stage), row), (mem_staleSkips_iff_older hdotted haligned hrow).mpr hskip, rfl⟩

theorem matches_iff_olderResult (hdotted : DottedVersions db)
    (haligned : AlignedVersions bound db) {id : ℕ} :
    (Selector.rerollVersionBelow (dotted bound)).Matches db id ↔ OlderResult bound db id := by
  rw [matches_rerollVersionBelow, mem_staleRepodata_iff_older hdotted haligned,
    exists_staleSkips_iff_older hdotted haligned]
  rfl

/-! ## What the queries find -/

theorem exists_mem_wheelRepodataQuery_iff {version : String} {id : ℕ} :
    (∃ limit, id ∈ rerollVersionWheelRepodataChunkQuery version limit db) ↔
      id ∈ staleRepodata version db := by
  simp only [wheelRepodataQuery_eq]
  constructor
  · rintro ⟨limit, hid⟩
    exact (perm_repodataRows version db).mem_iff.mp (List.mem_of_mem_take hid)
  · intro hid
    refine ⟨(repodataRows version db).length, ?_⟩
    rw [List.take_length]
    exact (perm_repodataRows version db).mem_iff.mpr hid

theorem exists_mem_skipsQuery_iff {version : String} {id : ℕ} :
    (∃ limit, id ∈ rerollVersionSkipsChunkQuery version limit db) ↔
      ∃ r ∈ staleSkips version db, r.1.1 = id := by
  constructor
  · rintro ⟨limit, hid⟩
    exact exists_stale_of_mem_skipsQuery hid
  · rintro ⟨r, hr, rfl⟩
    refine ⟨(staleSkips version db).length, ?_⟩
    rw [rerollVersionSkipsChunkQuery, List.take_of_length_le]
    · exact List.mem_map_of_mem ((List.mem_insertionSort _).mpr hr)
    · rw [List.length_insertionSort]
      rfl

theorem nodup_keys_staleSkips (version : String) (db : Db) :
    ((staleSkips version db).map Prod.fst).Nodup :=
  db.skips.nodup.sublist (List.filter_sublist.map _)

/-! ## The campaign -/

/-- A campaign finds, clears and counts what its texts say is stale. -/
theorem byVersion_of_aligned (hpos : 1 ≤ chunkSize) (hdotted : DottedVersions db)
    (haligned : AlignedVersions bound db) :
    ByVersion bound db changeSeq
      (reprocessVersionBelow (dotted bound) chunkSize nowIso db changeSeq) := by
  obtain ⟨order, hclears, horder, -, -⟩ :=
    exists_clears_reprocessVersionBelow hpos (dotted bound) nowIso db changeSeq
  have hresult : ∀ id, id ∈ order ↔ OlderResult bound db id := fun id =>
    (horder id).trans (matches_iff_olderResult hdotted haligned)
  refine ⟨fun id => ?_, fun id => ?_, ⟨order, hclears.reset, hresult⟩, fun id row => ?_,
    fun key row => ?_, ⟨order, hclears.reset.nodup, hresult, ?_⟩,
    ⟨(staleSkips (dotted bound) db).map Prod.fst, nodup_keys_staleSkips _ _, fun key => ?_, ?_⟩⟩
  · exact exists_mem_wheelRepodataQuery_iff.trans (mem_staleRepodata_iff_older hdotted haligned)
  · exact exists_mem_skipsQuery_iff.trans (exists_staleSkips_iff_older hdotted haligned)
  · rw [hclears.repodata, ← hresult]
    by_cases hid : id ∈ order
    · simp [hid]
    · simp [hid]
  · rw [get?_skips_reprocessVersionBelow hpos]
    exact and_congr_right fun hrow =>
      not_congr (mem_staleSkips_iff_older hdotted haligned hrow)
  · exact (length_eq_wheelCount hclears.reset.nodup horder).symm
  · rw [List.mem_map]
    constructor
    · rintro ⟨r, hr, rfl⟩
      exact (mem_staleSkips_iff_older hdotted haligned (mem_staleSkips.mp hr).1).mp hr
    · intro hskip
      obtain ⟨row, hrow, -⟩ := hskip.2
      exact ⟨(key, row), (mem_staleSkips_iff_older hdotted haligned hrow).mpr hskip, rfl⟩
  · rw [List.length_map]
    rfl

/-- A row whose version is not aligned is found though it is not older, or the other way. -/
theorem aligned_of_byVersion (hpos : 1 ≤ chunkSize)
    (h : ByVersion bound db changeSeq
      (reprocessVersionBelow (dotted bound) chunkSize nowIso db changeSeq)) :
    AlignedVersions bound db := by
  refine ⟨fun id row version hlive hrow heq => ?_,
    fun key row version hlive hrow hpermanent hstored => ?_⟩
  · have hfound := h.repodataFound id
    rw [exists_mem_wheelRepodataQuery_iff, mem_staleRepodata, OlderRepodata] at hfound
    simp only [hrow, Option.some.injEq, exists_eq_left', hlive, and_true, true_and, heq] at hfound
    exact lt_iff_older_iff.mp hfound
  · have hcleared := h.skipsCleared key row
    rw [get?_skips_reprocessVersionBelow hpos] at hcleared
    have hstale := not_iff_not.mp ((and_congr_right_iff.mp hcleared) hrow)
    rw [mem_staleSkips, OlderSkip] at hstale
    simp only [hrow, hstored, hpermanent, hlive, Option.any_some, decide_eq_true_eq, true_and,
      and_true, Option.some.injEq, exists_eq_left'] at hstale
    exact lt_iff_older_iff.mp hstale

/-- Exactly where the versions compared are aligned with the bound, the campaign is about
the older results. -/
theorem byVersion_iff (hpos : 1 ≤ chunkSize) (hdotted : DottedVersions db) :
    ByVersion bound db changeSeq
        (reprocessVersionBelow (dotted bound) chunkSize nowIso db changeSeq) ↔
      AlignedVersions bound db :=
  ⟨aligned_of_byVersion hpos, byVersion_of_aligned hpos hdotted⟩

theorem get?_set_singleton {κ ρ : Type} [DecidableEq κ] {key key' : κ} {row row' : ρ}
    (h : ((∅ : Table κ ρ).set key row).get? key' = some row') : key' = key ∧ row' = row := by
  rw [Table.get?_set] at h
  split at h
  · next heq => exact ⟨heq, (Option.some_inj.mp h).symm⟩
  · cases h

theorem dottedVersions_staleDb : DottedVersions staleDb where
  repodata id row hrow := by
    obtain ⟨-, rfl⟩ := get?_set_singleton hrow
    exact ⟨[0, 1, 0], by decide⟩
  skips key row stored hrow hstored := by
    obtain ⟨-, rfl⟩ := get?_set_singleton hrow
    exact ⟨[0, 1, 0], by rw [← Option.some_inj, ← hstored]; decide⟩

/-- Version 0.1.0 precedes 0.2.0, also as a text. -/
theorem byVersion_staleDb :
    ByVersion [0, 2, 0] staleDb 3
      (reprocessVersionBelow (dotted [0, 2, 0]) 1 (fun _ => "t1") staleDb 3) := by
  have haligned : ∀ version, dotted version = "0.1.0" → Aligned version [0, 2, 0] := by
    intro version heq
    obtain rfl : version = [0, 1, 0] :=
      dotted_injective (heq.trans (by decide : "0.1.0" = dotted [0, 1, 0]))
    simp [Aligned, StartsBelow, decimals_of_lt]
  refine (byVersion_iff le_rfl dottedVersions_staleDb).mpr ⟨?_, ?_⟩
  · intro id row version _ hrow heq
    obtain ⟨-, rfl⟩ := get?_set_singleton hrow
    exact haligned version heq.symm
  · intro key row version _ hrow _ heq
    obtain ⟨-, rfl⟩ := get?_set_singleton hrow
    exact haligned version (Option.some_inj.mp heq).symm

/-- A wheel that was converted by version 0.9.0. -/
def convertedDb : Db :=
  { Db.empty with
    wheels := (∅ : Table ℕ WheelRow).set 1 { Pipeline.exampleRow with state := .ready }
    wheelRepodata := (∅ : Table ℕ RepodataRow).set 1 ⟨[], none, false, "0.9.0"⟩ }

/-- The campaign for what is below 0.10.0 passes it over. -/
theorem older_repodata_not_found :
    dotted [0, 10, 0] = "0.10.0" ∧ DottedVersions convertedDb ∧
    (previewSelector convertedDb (.rerollVersionBelow "0.10.0") = ⟨0, 0⟩) ∧
    (reprocessVersionBelow "0.10.0" 5000 (fun _ => "t1") convertedDb 3).db = convertedDb ∧
    ¬ByVersion [0, 10, 0] convertedDb 3
      (reprocessVersionBelow (dotted [0, 10, 0]) 5000 (fun _ => "t1") convertedDb 3) := by
  refine ⟨by decide, ⟨fun id row hrow => ?_, fun key row _ hrow => ?_⟩,
    by decide, by decide, fun h => ?_⟩
  · obtain ⟨-, rfl⟩ := get?_set_singleton hrow
    exact ⟨[0, 9, 0], by decide⟩
  · cases hrow
  · have haligned := (aligned_of_byVersion (by decide) h).repodata 1 _ [0, 9, 0]
      (by decide) rfl (by decide)
    -- 9 has fewer decimals than 10, and starts higher
    simp only [Aligned, StartsBelow, reduceIte, Nat.reduceEqDiff] at haligned
    exact absurd (haligned.1 (by decide)) (by decide)

end RerollSync.Dispatcher
