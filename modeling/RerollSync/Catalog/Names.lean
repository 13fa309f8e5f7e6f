import RerollSync.Catalog.Accepted

/-!
# Names in a database

What a statement finds under a name, up to case, in a database that got a table or indexes.
-/

namespace RerollSync.Catalog

open RerollSync.Support

/-! ## Finding by name -/

namespace Database

variable {db : Database} {name key table : String} {info : TableInfo}

theorem findTable_eq_some_iff : db.findTable name = some (key, info) ↔
    db.tables.get? key = some info ∧ folded key = folded name := by
  rw [Table.get?_eq_some_iff]
  constructor
  · intro h
    exact ⟨List.mem_of_find?_eq_some h, by simpa using List.find?_some h⟩
  · rintro ⟨hmem, hkey⟩
    have hne : db.findTable name ≠ none := by
      intro hnone
      refine findTable_eq_none_iff.mp hnone ?_
      exact hkey ▸ List.mem_map_of_mem (List.mem_map_of_mem hmem)
    obtain ⟨found, hfound⟩ := Option.ne_none_iff_exists'.mp hne
    have hname : folded found.1 = folded name := by simpa using List.find?_some hfound
    have hrows : (db.tables.rows.map (folded ∘ Prod.fst)).Nodup := by
      rw [← List.map_map]
      exact db.distinct
    rw [hfound, List.inj_on_of_nodup_map hrows (List.mem_of_find?_eq_some hfound) hmem
      (hname.trans hkey.symm)]

theorem existingTable_eq_some_iff : db.existingTable name = some info ↔
    db.findTable name = some (name, info) ∧ info.kind ≠ .view := by
  rw [existingTable, Option.filter_eq_some_iff, findTable_eq_some_iff]
  simp

theorem hasIndex_eq_true_iff : db.hasIndex name = true ↔ ∃ table info,
    db.tables.get? table = some info ∧ ∃ key ∈ info.indexList.keys, folded key = folded name := by
  simp [hasIndex, Table.get?_eq_some_iff]

/-! ## A table beside the others -/

theorem get?_addTable (h : db.findTable name = none) : (db.addTable name info h).tables.get? key =
    if key = name then some info else db.tables.get? key := by
  have hnone : db.tables.get? name = none :=
    Table.get?_eq_none_iff.mpr (mt List.mem_map_of_mem (findTable_eq_none_iff.mp h))
  rw [addTable, Table.get?_insertNew, hnone, Option.getD_none]

theorem findTable_addTable (h : db.findTable name = none) :
    (db.addTable name info h).findTable name = some (name, info) :=
  findTable_eq_some_iff.mpr ⟨by rw [get?_addTable, if_pos rfl], rfl⟩

theorem findTable_addTable_of_ne (h : db.findTable name = none)
    (hne : folded table ≠ folded name) :
    (db.addTable name info h).findTable table = db.findTable table := by
  refine Option.ext fun ⟨key, info'⟩ => ?_
  rw [findTable_eq_some_iff, findTable_eq_some_iff, get?_addTable]
  refine and_congr_left fun hkey => ?_
  rw [if_neg]
  rintro rfl
  exact hne hkey.symm

theorem hasIndex_addTable (h : db.findTable name = none) :
    (db.addTable name info h).hasIndex table = true ↔ db.hasIndex table = true ∨
      ∃ key ∈ info.indexList.keys, folded key = folded table := by
  simp only [hasIndex_eq_true_iff, get?_addTable]
  constructor
  · rintro ⟨t, info', hget, hkeys⟩
    by_cases ht : t = name
    · rw [if_pos ht] at hget
      obtain rfl := Option.some.inj hget
      exact Or.inr hkeys
    · rw [if_neg ht] at hget
      exact Or.inl ⟨t, info', hget, hkeys⟩
  · rintro (⟨t, info', hget, hkeys⟩ | hkeys)
    · refine ⟨t, info', ?_, hkeys⟩
      rw [if_neg, hget]
      rintro rfl
      exact findTable_eq_none_iff.mp h
        (List.mem_map_of_mem (Table.mem_keys_iff.mpr ⟨info', hget⟩))
    · exact ⟨name, info, if_pos rfl, hkeys⟩

/-! ## Indexes on a table -/

/-- Indexes are added to the table of exactly this name. -/
def withIndexes (db : Database) (name table : String) (made : List Index) : Database :=
  db.alterTable name fun info => info.indexed table made

theorem get?_withIndexes {made : List Index} : (db.withIndexes name table made).tables.get? key =
    (db.tables.get? key).map fun info => if key = name then info.indexed table made else info := by
  rw [withIndexes, alterTable, Table.get?_modify]

theorem withIndexes_nil : db.withIndexes name table [] = db := by
  have hsame : (db.tables.modify fun key info =>
      if key = name then info.indexed table [] else info) = db.tables := by
    refine Table.modify_eq_self fun key info => ?_
    split <;> rfl
  obtain ⟨vacuum, version, tables, distinct⟩ := db
  simp only [withIndexes, alterTable, hsame]

theorem withIndexes_append {made made' : List Index} :
    (db.withIndexes name table made).withIndexes name table made' =
      db.withIndexes name table (made ++ made') := by
  simp only [withIndexes, alterTable, Table.modify_modify]
  congr 2
  funext key info
  by_cases hkey : key = name
  · simp [hkey, TableInfo.indexed]
  · simp [hkey]

theorem findTable_withIndexes {made : List Index} (hfind : db.findTable table = some (name, info))
    {statement : String} : (db.withIndexes name statement made).findTable table =
      some (name, info.indexed statement made) := by
  obtain ⟨hget, hname⟩ := findTable_eq_some_iff.mp hfind
  refine findTable_eq_some_iff.mpr ⟨?_, hname⟩
  rw [get?_withIndexes, hget, Option.map_some, if_pos rfl]

theorem findTable_withIndexes_of_ne {made : List Index} {statement : String}
    (hne : folded table ≠ folded name) :
    (db.withIndexes name statement made).findTable table = db.findTable table := by
  refine Option.ext fun ⟨key, info⟩ => ?_
  rw [findTable_eq_some_iff, findTable_eq_some_iff, get?_withIndexes]
  refine and_congr_left fun hkey => ?_
  have hkey' : key ≠ name := by
    rintro rfl
    exact hne hkey.symm
  simp only [hkey', if_false, Option.map_id']

theorem findTable_withIndexes_eq_none_iff {made : List Index} {statement : String} :
    (db.withIndexes name statement made).findTable table = none ↔ db.findTable table = none := by
  rw [findTable_eq_none_iff, findTable_eq_none_iff, withIndexes, alterTable, Table.keys_modify]

end Database

theorem mem_keys_indexed {table key : String} {info : TableInfo} {made : List Index} :
    key ∈ (info.indexed table made).indexList.keys ↔
      key ∈ info.indexList.keys ∨ key ∈ made.map Index.name := by
  induction made generalizing info with
  | nil => simp [TableInfo.indexed]
  | cons idx made ih =>
      have hset : key ∈ (info.withIndex table idx).indexList.keys ↔
          key ∈ info.indexList.keys ∨ key = idx.name := by
        rw [TableInfo.withIndex, Table.mem_keys_iff, Table.mem_keys_iff, Table.get?_set]
        by_cases hkey : key = idx.name <;> simp [hkey]
      rw [TableInfo.indexed, List.foldl_cons, ← TableInfo.indexed, ih, hset, List.map_cons,
        List.mem_cons, or_assoc]

namespace Database

variable {db : Database} {name table : String}

theorem hasIndex_withIndexes {made : List Index} {statement : String} :
    (db.withIndexes name statement made).hasIndex table = true ↔ db.hasIndex table = true ∨
      name ∈ db.tables.keys ∧ ∃ idx ∈ made, folded idx.name = folded table := by
  simp only [hasIndex_eq_true_iff, get?_withIndexes, Option.map_eq_some_iff]
  constructor
  · rintro ⟨t, _, ⟨info, hget, rfl⟩, key, hkey, hfolded⟩
    by_cases ht : t = name
    · rw [if_pos ht] at hkey
      rcases mem_keys_indexed.mp hkey with hkey | hkey
      · exact Or.inl ⟨t, info, hget, key, hkey, hfolded⟩
      · obtain ⟨idx, hidx, rfl⟩ := List.mem_map.mp hkey
        exact Or.inr ⟨Table.mem_keys_iff.mpr ⟨info, ht ▸ hget⟩, idx, hidx, hfolded⟩
    · rw [if_neg ht] at hkey
      exact Or.inl ⟨t, info, hget, key, hkey, hfolded⟩
  · rintro (⟨t, info, hget, key, hkey, hfolded⟩ | ⟨hname, idx, hidx, hfolded⟩)
    · refine ⟨t, _, ⟨info, hget, rfl⟩, key, ?_, hfolded⟩
      split
      · exact mem_keys_indexed.mpr (Or.inl hkey)
      · exact hkey
    · obtain ⟨info, hget⟩ := Table.mem_keys_iff.mp hname
      refine ⟨name, _, ⟨info, hget, rfl⟩, idx.name, ?_, hfolded⟩
      rw [if_pos rfl]
      exact mem_keys_indexed.mpr (Or.inr (List.mem_map_of_mem hidx))

theorem hasIndex_withIndexes_of_ne {made : List Index} {statement : String}
    (hne : ∀ idx ∈ made, folded idx.name ≠ folded table) :
    (db.withIndexes name statement made).hasIndex table = db.hasIndex table := by
  rw [Bool.eq_iff_iff, hasIndex_withIndexes]
  refine or_iff_left ?_
  rintro ⟨-, idx, hidx, hfolded⟩
  exact hne idx hidx hfolded

end Database

theorem kind_indexed {table : String} {info : TableInfo} {made : List Index} :
    (info.indexed table made).kind = info.kind := by
  induction made generalizing info with
  | nil => rfl
  | cons idx made ih => exact @ih (info.withIndex table idx)

end RerollSync.Catalog
