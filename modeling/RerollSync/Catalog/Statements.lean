import RerollSync.Catalog.Names
import Mathlib.Data.List.Pairwise

/-!
# What the statements create

`CREATE TABLE` and `CREATE INDEX` under sqlite's rules for names: when one of them is
refused, and what they leave of a database whatever comes of them.
-/

namespace RerollSync.Catalog

open RerollSync.Support

/-! ## The indexes of a table -/

/-- sqlite does not refuse an index of a table. -/
structure Indexable (db : Database) (info : TableInfo) (idx : Index) : Prop where
  kind : info.kind = .table
  name : db.findTable idx.name = none
  columns : db.hasIndex idx.name = true ∨ ∀ col ∈ idx.namedColumns, info.columnNamed col ≠ none

namespace Database

variable {db db' : Database} {name table : String} {info : TableInfo} {idx : Index}

theorem createIndex_eq_ok_iff (hfind : db.findTable table = some (name, info)) :
    db.createIndex table idx = .ok db' ↔ Indexable db info idx ∧
      db' = db.withIndexes name table ([idx].filter fun idx => !db.hasIndex idx.name) := by
  rw [createIndex, hfind]
  dsimp only
  cases hkind : info.kind with
  | view =>
      refine iff_of_false (by simp) fun h => ?_
      cases hkind.symm.trans h.1.kind
  | virtualTable =>
      refine iff_of_false (by simp) fun h => ?_
      cases hkind.symm.trans h.1.kind
  | table =>
      cases hname : db.findTable idx.name with
      | some found =>
          refine iff_of_false (by simp) fun h => ?_
          rw [h.1.name] at hname
          cases hname
      | none =>
          cases hindex : db.hasIndex idx.name with
          | true =>
              have hable : Indexable db info idx := ⟨hkind, hname, Or.inl hindex⟩
              simp [hable, hindex, withIndexes_nil, eq_comm]
          | false =>
              cases hfirst : idx.namedColumns.find? fun col => info.columnNamed col = none with
              | some col =>
                  have hmissing : info.columnNamed col = none := by
                    simpa using List.find?_some hfirst
                  refine iff_of_false (by simp) fun h => ?_
                  rcases h.1.columns with hindex' | hall
                  · simp [hindex'] at hindex
                  · exact hall col (List.mem_of_find?_eq_some hfirst) hmissing
              | none =>
                  have hall : ∀ col ∈ idx.namedColumns, info.columnNamed col ≠ none := by
                    simpa using List.find?_eq_none.mp hfirst
                  have hable : Indexable db info idx := ⟨hkind, hname, Or.inr hall⟩
                  simp [hable, hindex, withIndexes, TableInfo.indexed, eq_comm]

/-- Other indexes of the same table make no difference to one. -/
theorem indexable_withIndexes_iff {made : List Index} {statement : String}
    (hne : ∀ other ∈ made, folded other.name ≠ folded idx.name) :
    Indexable (db.withIndexes name statement made) (info.indexed statement made) idx ↔
      Indexable db info idx := by
  have hindex : (db.withIndexes name statement made).hasIndex idx.name = db.hasIndex idx.name :=
    hasIndex_withIndexes_of_ne hne
  constructor
  · rintro ⟨hkind, hname, hcolumns⟩
    rw [kind_indexed] at hkind
    rw [hindex, columnNamed_indexed] at hcolumns
    exact ⟨hkind, findTable_withIndexes_eq_none_iff.mp hname, hcolumns⟩
  · rintro ⟨hkind, hname, hcolumns⟩
    refine ⟨kind_indexed.trans hkind, findTable_withIndexes_eq_none_iff.mpr hname, ?_⟩
    rwa [hindex, columnNamed_indexed]

/-- `CREATE INDEX` for one index after the other: all are there at the end when none is
refused, and otherwise those before the first that is. -/
theorem createIndexes_spec {indexes : List Index}
    (hnames : (indexes.map fun idx => folded idx.name).Nodup) :
    ∀ {db : Database} {info : TableInfo}, db.findTable table = some (name, info) →
      ((createIndexes table indexes db).2 = .ok () ↔ ∀ idx ∈ indexes, Indexable db info idx) ∧
        ∃ done, done <+: indexes ∧ (∀ idx ∈ done, Indexable db info idx) ∧
          ((createIndexes table indexes db).2 = .ok () → done = indexes) ∧
          (createIndexes table indexes db).1 =
            db.withIndexes name table (done.filter fun idx => !db.hasIndex idx.name) := by
  induction indexes with
  | nil =>
      intro db info _
      exact ⟨by simp [createIndexes], [], List.nil_prefix, by simp, fun _ => rfl,
        withIndexes_nil.symm⟩
  | cons idx indexes ih =>
      intro db info hfind
      obtain ⟨hidx, hnames⟩ := List.nodup_cons.mp hnames
      have hne : ∀ other ∈ indexes, ∀ made ∈ [idx].filter fun idx => !db.hasIndex idx.name,
          folded made.name ≠ folded other.name := by
        intro other hother made hmade heq
        obtain rfl := List.mem_singleton.mp (List.mem_filter.mp hmade).1
        exact hidx (List.mem_map.mpr ⟨other, hother, heq.symm⟩)
      rw [createIndexes]
      cases hstep : db.createIndex table idx with
      | error e =>
          have hnot : ¬Indexable db info idx := by
            intro h
            rw [(createIndex_eq_ok_iff hfind).mpr ⟨h, rfl⟩] at hstep
            cases hstep
          exact ⟨by simp [hnot], [], List.nil_prefix, by simp, by simp, withIndexes_nil.symm⟩
      | ok db' =>
          obtain ⟨hable, hdb'⟩ := (createIndex_eq_ok_iff hfind).mp hstep
          have hfind' := hdb' ▸ findTable_withIndexes hfind
          obtain ⟨hok, done, hbegin, hdone, hall, hleft⟩ := ih hnames hfind'
          have hiff : ∀ other ∈ indexes,
              (Indexable db' (info.indexed table ([idx].filter fun idx => !db.hasIndex idx.name))
                other ↔ Indexable db info other) := fun other hother =>
            hdb' ▸ indexable_withIndexes_iff (hne other hother)
          have hsame : ∀ other ∈ done, (!db'.hasIndex other.name) = !db.hasIndex other.name := by
            intro other hother
            rw [hdb', hasIndex_withIndexes_of_ne (hne other (hbegin.subset hother))]
          refine ⟨?_, idx :: done, by simpa using hbegin, ?_, fun h => by rw [hall h], ?_⟩
          · rw [hok, List.forall_mem_cons, and_iff_right hable]
            exact forall₂_congr hiff
          · rw [List.forall_mem_cons]
            exact ⟨hable, fun other hother =>
              (hiff other (hbegin.subset hother)).mp (hdone other hother)⟩
          · rw [List.filter_congr hsame] at hleft
            dsimp only
            rw [hleft, hdb', withIndexes_append, ← List.filter_append, List.singleton_append]

end Database

/-! ## The names of the schema -/

/-- The names that the statements of a declaration give, and sqlite for them. -/
def Declaration.ownNames (d : Declaration) : List String :=
  d.name :: (d.indexes.map Index.name ++ d.created.indexList.keys)

/-- No two names of the schema are the same for sqlite. -/
theorem ownNames_schema : ((schema.flatMap Declaration.ownNames).map folded).Nodup := by
  decide +kernel

section OwnNames

variable {d d' : Declaration} {name name' : String}

theorem nodup_ownNames (hd : d ∈ schema) : (d.ownNames.map folded).Nodup := by
  have h := ownNames_schema
  rw [List.map_flatMap, List.nodup_flatMap] at h
  exact h.1 d hd

theorem folded_ne_of_ne (hd : d ∈ schema) (hd' : d' ∈ schema) (hne : d ≠ d')
    (hname : name ∈ d.ownNames) (hname' : name' ∈ d'.ownNames) : folded name ≠ folded name' := by
  have h := ownNames_schema
  rw [List.map_flatMap, List.nodup_flatMap] at h
  have : Std.Symm (Function.onFun List.Disjoint fun d : Declaration => d.ownNames.map folded) :=
    ⟨fun _ _ hdisjoint => hdisjoint.symm⟩
  have hdisjoint := h.2.forall hd hd' hne
  intro heq
  exact hdisjoint (List.mem_map_of_mem hname) (heq ▸ List.mem_map_of_mem hname')

theorem name_mem_ownNames (d : Declaration) : d.name ∈ d.ownNames := List.mem_cons_self

theorem index_mem_ownNames {idx : Index} (h : idx ∈ d.indexes) : idx.name ∈ d.ownNames :=
  List.mem_cons_of_mem _ (List.mem_append_left _ (List.mem_map_of_mem h))

theorem key_mem_ownNames (h : name ∈ d.created.indexList.keys) : name ∈ d.ownNames :=
  List.mem_cons_of_mem _ (List.mem_append_right _ h)

theorem nodup_indexNames (hd : d ∈ schema) :
    (d.indexes.map fun idx => folded idx.name).Nodup := by
  have h := (nodup_ownNames hd).of_cons
  rw [List.map_append, List.map_map] at h
  exact (List.nodup_append.mp h).1

theorem folded_index_ne (hd : d ∈ schema) {idx : Index} (hidx : idx ∈ d.indexes) :
    folded idx.name ≠ folded d.name := by
  intro heq
  refine (List.nodup_cons.mp (nodup_ownNames hd)).1 ?_
  exact heq ▸ List.mem_map_of_mem (List.mem_append_left _ (List.mem_map_of_mem hidx))

theorem folded_key_ne (hd : d ∈ schema) {idx : Index} (hidx : idx ∈ d.indexes)
    (hname : name ∈ d.created.indexList.keys) : folded name ≠ folded idx.name := by
  have h := (nodup_ownNames hd).of_cons
  rw [List.map_append] at h
  intro heq
  exact (List.nodup_append.mp h).2.2 _ (List.mem_map_of_mem (List.mem_map_of_mem hidx)) _
    (List.mem_map_of_mem hname) heq.symm

end OwnNames

/-! ## The statements of a declaration -/

/-- Everything that the statements of a declaration can leave behind: nothing new when they
are refused at once, a new table, or what has the name of the table already, and in both cases
indexes whose names were free. -/
inductive Creates (d : Declaration) (db : Database) : Database → Prop
  | refused (hfind : db.findTable d.name = none) (hindex : db.hasIndex d.name = true) :
      Creates d db db
  | new (hfind : db.findTable d.name = none) {made : List Index} (hmade : made.Sublist d.indexes)
      (hfree : ∀ idx ∈ made, db.hasIndex idx.name = false) :
      Creates d db ((db.addTable d.name d.created hfind).withIndexes d.name d.name made)
  | found {name : String} {info : TableInfo} (hfind : db.findTable d.name = some (name, info))
      {made : List Index} (hmade : made.Sublist d.indexes)
      (hfree : ∀ idx ∈ made, Indexable db info idx ∧ db.hasIndex idx.name = false) :
      Creates d db (db.withIndexes name d.name made)

namespace Database

variable {d : Declaration} {db db' : Database} {name : String} {info : TableInfo}

theorem create_of_findTable_some (h : db.findTable d.name = some (name, info)) :
    db.create d = createIndexes d.name d.indexes db := by
  have hne : db.findTable d.name ≠ none := by simp [h]
  rw [create, createTable, dif_neg hne]

theorem create_of_hasIndex (h : db.findTable d.name = none) (hindex : db.hasIndex d.name = true) :
    db.create d = (db, .error (.indexNamed d.name)) := by
  rw [create, createTable, dif_pos h, if_pos hindex]

theorem create_of_findTable_none (h : db.findTable d.name = none)
    (hindex : db.hasIndex d.name = false) :
    db.create d = createIndexes d.name d.indexes (db.addTable d.name d.created h) := by
  rw [create, createTable, dif_pos h, if_neg (by simp [hindex])]

theorem creates_create (hd : d ∈ schema) (db : Database) : Creates d db (db.create d).1 := by
  cases hfind : db.findTable d.name with
  | some found =>
      obtain ⟨name, info⟩ := found
      obtain ⟨-, done, hdone, hable, -, hleft⟩ := createIndexes_spec (nodup_indexNames hd) hfind
      rw [create_of_findTable_some hfind, hleft]
      refine .found hfind (List.filter_sublist.trans hdone.sublist) fun idx hidx => ?_
      obtain ⟨hmem, hfree⟩ := List.mem_filter.mp hidx
      exact ⟨hable idx hmem, by simpa using hfree⟩
  | none =>
      cases hindex : db.hasIndex d.name with
      | true =>
          rw [create_of_hasIndex hfind hindex]
          exact .refused hfind hindex
      | false =>
          obtain ⟨-, done, hdone, -, -, hleft⟩ :=
            createIndexes_spec (nodup_indexNames hd) (findTable_addTable hfind)
          rw [create_of_findTable_none hfind hindex, hleft]
          refine .new hfind (List.filter_sublist.trans hdone.sublist) fun idx hidx => ?_
          have hfree := (List.mem_filter.mp hidx).2
          rw [Bool.not_eq_true', Bool.eq_false_iff, ne_eq, hasIndex_addTable, not_or] at hfree
          exact Bool.eq_false_iff.mpr hfree.1

/-- The statements are not refused when every index that is missing can be put on what has
the name of the table, or nothing has it. -/
theorem create_ok_iff (hd : d ∈ schema) : (db.create d).2 = .ok () ↔
    (db.findTable d.name = none →
      db.hasIndex d.name = false ∧ ∀ idx ∈ d.indexes, db.findTable idx.name = none) ∧
    ∀ name info, db.findTable d.name = some (name, info) →
      ∀ idx ∈ d.indexes, Indexable db info idx := by
  cases hfind : db.findTable d.name with
  | some found =>
      obtain ⟨name, info⟩ := found
      rw [create_of_findTable_some hfind, (createIndexes_spec (nodup_indexNames hd) hfind).1]
      simp
  | none =>
      cases hindex : db.hasIndex d.name with
      | true => simp [create_of_hasIndex hfind hindex]
      | false =>
          have hcolumns : ∀ d ∈ schema, ∀ idx ∈ d.indexes, ∀ col ∈ idx.namedColumns,
              d.created.columnNamed col ≠ none := by
            decide +kernel
          rw [create_of_findTable_none hfind hindex,
            (createIndexes_spec (nodup_indexNames hd) (findTable_addTable hfind)).1]
          simp only [true_and, forall_const, reduceCtorEq, false_imp_iff, implies_true, and_true]
          refine forall₂_congr fun idx hidx => ?_
          have hname : (db.addTable d.name d.created hfind).findTable idx.name =
              db.findTable idx.name := findTable_addTable_of_ne hfind (folded_index_ne hd hidx)
          rw [← hname]
          exact ⟨Indexable.name, fun hnone => ⟨rfl, hnone, Or.inr (hcolumns d hd idx hidx)⟩⟩

/-- After the statements every index of the table is there, on it or elsewhere. -/
theorem hasIndex_of_create_ok (hd : d ∈ schema) (hok : (db.create d).2 = .ok ()) :
    ∀ idx ∈ d.indexes, (db.create d).1.hasIndex idx.name = true := by
  have hspec : ∀ {db : Database} {name : String} {info : TableInfo},
      db.findTable d.name = some (name, info) →
        (createIndexes d.name d.indexes db).2 = .ok () →
          ∀ idx ∈ d.indexes, (createIndexes d.name d.indexes db).1.hasIndex idx.name = true := by
    intro db name info hfind hok idx hidx
    obtain ⟨-, done, -, -, hall, hleft⟩ := createIndexes_spec (nodup_indexNames hd) hfind
    rw [hleft, hall hok, hasIndex_withIndexes]
    cases hindex : db.hasIndex idx.name with
    | true => exact Or.inl rfl
    | false =>
        refine Or.inr ⟨Table.mem_keys_iff.mpr ⟨info, (findTable_eq_some_iff.mp hfind).1⟩, idx, ?_⟩
        exact ⟨List.mem_filter.mpr ⟨hidx, by simp [hindex]⟩, rfl⟩
  cases hfind : db.findTable d.name with
  | some found =>
      rw [create_of_findTable_some hfind] at hok ⊢
      exact hspec hfind hok
  | none =>
      cases hindex : db.hasIndex d.name with
      | true => simp [create_of_hasIndex hfind hindex] at hok
      | false =>
          rw [create_of_findTable_none hfind hindex] at hok ⊢
          exact hspec (findTable_addTable hfind) hok

end Database

/-! ## What the statements leave alone -/

namespace Creates

open Database

variable {d d' : Declaration} {db db' : Database} {name : String} {info : TableInfo}

theorem findTable_of_ne (h : Creates d db db') (hne : folded name ≠ folded d.name) :
    db'.findTable name = db.findTable name := by
  cases h with
  | refused => rfl
  | new hfind => rw [findTable_withIndexes_of_ne hne, findTable_addTable_of_ne hfind hne]
  | found hfind =>
      rw [findTable_withIndexes_of_ne]
      rwa [(findTable_eq_some_iff.mp hfind).2]

theorem hasIndex_of_ne (h : Creates d db db')
    (hne : ∀ own ∈ d.ownNames, folded own ≠ folded name) :
    db'.hasIndex name = db.hasIndex name := by
  have hindexes : ∀ {made : List Index}, made.Sublist d.indexes →
      ∀ idx ∈ made, folded idx.name ≠ folded name := fun hmade idx hidx =>
    hne idx.name (index_mem_ownNames (hmade.subset hidx))
  cases h with
  | refused => rfl
  | new hfind hmade =>
      rw [hasIndex_withIndexes_of_ne (hindexes hmade), Bool.eq_iff_iff, hasIndex_addTable]
      refine or_iff_left ?_
      rintro ⟨key, hkey, heq⟩
      exact hne key (key_mem_ownNames hkey) heq
  | found hfind hmade => exact hasIndex_withIndexes_of_ne (hindexes hmade)

theorem hasIndex_mono (h : Creates d db db') (hindex : db.hasIndex name = true) :
    db'.hasIndex name = true := by
  cases h with
  | refused => exact hindex
  | new hfind => exact hasIndex_withIndexes.mpr (Or.inl ((hasIndex_addTable hfind).mpr
      (Or.inl hindex)))
  | found => exact hasIndex_withIndexes.mpr (Or.inl hindex)

theorem get?_of_ne (h : Creates d db db') (hget : db.tables.get? name = some info)
    (hne : folded name ≠ folded d.name) : db'.tables.get? name = some info := by
  have hfind : db'.findTable name = some (name, info) :=
    (h.findTable_of_ne hne).trans (findTable_eq_some_iff.mpr ⟨hget, rfl⟩)
  exact (findTable_eq_some_iff.mp hfind).1

/-- What has the name of the declaration gets indexes at most. -/
theorem get?_of_eq (h : Creates d db db') (hget : db.tables.get? name = some info)
    (heq : folded name = folded d.name) : ∃ made : List Index, made.Sublist d.indexes ∧
      (∀ idx ∈ made, Indexable db info idx ∧ db.hasIndex idx.name = false) ∧
      db'.tables.get? name = some (info.indexed d.name made) := by
  have hfind' : db.findTable d.name = some (name, info) := findTable_eq_some_iff.mpr ⟨hget, heq⟩
  cases h with
  | refused => exact ⟨[], List.nil_sublist _, by simp, hget⟩
  | new hfind =>
      rw [hfind'] at hfind
      cases hfind
  | @found name' info' hfind made hmade hfree =>
      rw [hfind'] at hfind
      obtain ⟨rfl, rfl⟩ := Prod.mk.inj (Option.some.inj hfind)
      exact ⟨made, hmade, hfree, by rw [get?_withIndexes, hget, Option.map_some, if_pos rfl]⟩

/-- What was not there before is the table of the declaration. -/
theorem eq_of_get? (h : Creates d db db') (hget : db'.tables.get? name = some info)
    (hnone : db.tables.get? name = none) : name = d.name ∧ ∃ made : List Index,
      made.Sublist d.indexes ∧ info = d.created.indexed d.name made := by
  cases h with
  | refused =>
      rw [hnone] at hget
      cases hget
  | @new hfind made hmade =>
      rw [get?_withIndexes, get?_addTable] at hget
      by_cases hname : name = d.name
      · rw [if_pos hname, Option.map_some, if_pos hname] at hget
        exact ⟨hname, made, hmade, (Option.some.inj hget).symm⟩
      · rw [if_neg hname, hnone] at hget
        cases hget
  | found =>
      rw [get?_withIndexes, hnone] at hget
      cases hget

theorem pragmas (h : Creates d db db') :
    db'.autoVacuum = db.autoVacuum ∧ db'.userVersion = db.userVersion := by
  cases h <;> exact ⟨rfl, rfl⟩

end Creates

end RerollSync.Catalog
