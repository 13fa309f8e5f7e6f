import RerollSync.Catalog.InitDb

/-!
# What the check of a table accepts

A table has no problems exactly when it has the declared columns, keys and indexes, and a
table that has just been created has none.
-/

namespace RerollSync.Catalog

open RerollSync.Support

/-- A table is the declared one, up to the case of the types and to what is not compared. -/
structure Conforms (py : Python) (info : TableInfo) (d : Declaration) : Prop where
  columns : ∀ name, name ∈ info.columns.keys ↔ name ∈ d.columns.map Column.name
  types : ∀ col ∈ d.columns, ∀ actual, info.columns.get? col.name = some actual →
    py.upper actual.type = py.upper col.type ∧ actual.notnull = col.notNull
  primaryKey : info.existingPrimaryKey = d.primaryKey
  unique : ∃ actual, info.existingUniqueColumns = .ok actual ∧
    ∀ col ∈ d.columns, some col.name ∈ actual ↔ col.unique = true
  foreignKeys : ∀ fk, fk ∈ info.foreignKeys ↔ fk ∈ d.expectedForeignKeys
  indexes : ∃ actual, info.existingIndexes py = .ok actual ∧
    (∀ name, name ∈ actual.keys ↔ name ∈ d.indexes.map Index.name) ∧
    ∀ idx ∈ d.indexes, actual.get? idx.name = some (idx.columns.map some,
      idx.condition.map fun condition => normalizeWhere condition.toList)

/-! ## No problems -/

theorem lacking_eq_nil_iff {α : Type} [DecidableEq α] {names others : List α} :
    lacking names others = [] ↔ ∀ name ∈ names, name ∈ others := by
  rw [lacking, List.dedup_eq_nil, List.filter_eq_nil_iff]
  simp

theorem sortedNames_eq_nil_iff {names : List String} : sortedNames names = [] ↔ names = [] := by
  rw [sortedNames, ← List.length_eq_zero_iff, List.length_insertionSort, List.length_eq_zero_iff]

theorem sortedKeys_eq_ok_nil_iff {keys : List (String × String × Option String)} :
    sortedKeys keys = .ok [] ↔ keys = [] := by
  constructor
  · intro h
    rw [sortedKeys] at h
    split at h
    · cases h
    · have hlength := congrArg List.length (Except.ok.inj h)
      rw [List.length_insertionSort] at hlength
      exact List.length_eq_zero_iff.mp hlength
  · rintro rfl
    rfl

theorem columnProblems_eq_nil_iff {py : Python} {info : TableInfo} {col : Column} :
    columnProblems py info col = [] ↔ ∀ actual, info.columns.get? col.name = some actual →
      py.upper actual.type = py.upper col.type ∧ actual.notnull = col.notNull := by
  rw [columnProblems]
  cases info.columns.get? col.name with
  | none => simp
  | some actual => simp

theorem mem_expectedUnique_iff {d : Declaration} {col : Column} (hcol : col ∈ d.columns) :
    col.name ∈ (d.columns.filter Column.unique).map Column.name ↔ col.unique = true := by
  rw [List.mem_map]
  constructor
  · rintro ⟨other, hother, hname⟩
    obtain ⟨hmem, hunique⟩ := List.mem_filter.mp hother
    rwa [← List.inj_on_of_nodup_map d.columnNames hmem hcol hname]
  · intro hunique
    exact ⟨col, List.mem_filter.mpr ⟨hcol, hunique⟩, rfl⟩

theorem uniqueProblems_eq_nil_iff {d : Declaration} {info : TableInfo}
    {actual : List (Option String)} {col : Column} (hcol : col ∈ d.columns)
    (hkeys : col.name ∈ info.columns.keys) :
    uniqueProblems d info actual col = [] ↔ (some col.name ∈ actual ↔ col.unique = true) := by
  rw [uniqueProblems, ← mem_expectedUnique_iff hcol]
  simp only [hkeys, true_and]
  by_cases hexpected : col.name ∈ (d.columns.filter Column.unique).map Column.name <;>
    by_cases hactual : some col.name ∈ actual <;>
      simp [hexpected, hactual]

theorem indexProblems_eq_nil_iff {py : Python}
    {existing : Table String (List (Option String) × Option (List Char))} {idx : Index} :
    indexProblems py existing idx = [] ↔ ∀ actual, existing.get? idx.name = some actual →
      actual = (idx.columns.map some,
        idx.condition.map fun condition => normalizeWhere condition.toList) := by
  rw [indexProblems]
  cases existing.get? idx.name with
  | none => simp
  | some actual => simp [Prod.ext_iff]

/-- `_validate_table` comes to an end without a problem for a table that is the declared one,
and for no other. -/
theorem validateTable_eq_ok_nil_iff {py : Python} {info : TableInfo} {d : Declaration} :
    validateTable py info d = .ok [] ↔ Conforms py info d := by
  constructor
  · intro h
    obtain ⟨unique, hunique, h⟩ := bind_eq_ok_iff.mp h
    obtain ⟨missingKeys, hmissingKeys, h⟩ := bind_eq_ok_iff.mp h
    obtain ⟨unexpectedKeys, hunexpectedKeys, h⟩ := bind_eq_ok_iff.mp h
    obtain ⟨existing, hexisting, h⟩ := bind_eq_ok_iff.mp h
    have hnil := Except.ok.inj h
    simp only [List.append_eq_nil_iff, List.map_eq_nil_iff, sortedNames_eq_nil_iff,
      lacking_eq_nil_iff, List.flatMap_eq_nil_iff, columnProblems_eq_nil_iff,
      indexProblems_eq_nil_iff, ite_eq_right_iff, List.cons_ne_nil, imp_false, not_not] at hnil
    obtain ⟨⟨⟨⟨⟨⟨⟨⟨⟨hmissing, hextra⟩, htypes⟩, hkey⟩, hproblems⟩, rfl⟩, rfl⟩, hidx⟩, hidx'⟩,
      hindexes⟩ := hnil
    have hfk := lacking_eq_nil_iff.mp (sortedKeys_eq_ok_nil_iff.mp hmissingKeys)
    have hfk' := lacking_eq_nil_iff.mp (sortedKeys_eq_ok_nil_iff.mp hunexpectedKeys)
    have hpresent : ∀ col ∈ d.columns, col.name ∈ info.columns.keys := fun col hcol =>
      hmissing col.name (List.mem_map_of_mem hcol)
    refine
      { columns := fun name => ⟨hextra name, hmissing name⟩
        types := htypes
        primaryKey := hkey
        unique := ⟨unique, hunique, fun col hcol =>
          (uniqueProblems_eq_nil_iff hcol (hpresent col hcol)).mp (hproblems col hcol)⟩
        foreignKeys := fun fk => ⟨hfk' fk, hfk fk⟩
        indexes := ⟨existing, hexisting, fun name => ⟨hidx' name, hidx name⟩, ?_⟩ }
    intro idx hmem
    cases hget : existing.get? idx.name with
    | none =>
        exact absurd (hidx idx.name (List.mem_map_of_mem hmem)) (Table.get?_eq_none_iff.mp hget)
    | some actual => rw [hindexes idx hmem actual hget]
  · intro h
    obtain ⟨unique, hunique, hcols⟩ := h.unique
    obtain ⟨existing, hexisting, hnames, hindexes⟩ := h.indexes
    have hfk := sortedKeys_eq_ok_nil_iff.mpr
      (lacking_eq_nil_iff.mpr fun fk hfk => (h.foreignKeys fk).mpr hfk)
    have hfk' := sortedKeys_eq_ok_nil_iff.mpr
      (lacking_eq_nil_iff.mpr fun fk hfk => (h.foreignKeys fk).mp hfk)
    have hpresent : ∀ col ∈ d.columns, col.name ∈ info.columns.keys := fun col hcol =>
      (h.columns col.name).mpr (List.mem_map_of_mem hcol)
    refine bind_eq_ok_iff.mpr ⟨unique, hunique, bind_eq_ok_iff.mpr ⟨[], hfk,
      bind_eq_ok_iff.mpr ⟨[], hfk', bind_eq_ok_iff.mpr ⟨existing, hexisting, congrArg _ ?_⟩⟩⟩⟩
    simp only [List.append_eq_nil_iff, List.map_eq_nil_iff, sortedNames_eq_nil_iff,
      lacking_eq_nil_iff, List.flatMap_eq_nil_iff, columnProblems_eq_nil_iff,
      indexProblems_eq_nil_iff, ite_eq_right_iff, List.cons_ne_nil, imp_false, not_not]
    refine ⟨⟨⟨⟨⟨⟨⟨⟨⟨?_, ?_⟩, h.types⟩, h.primaryKey⟩, ?_⟩, trivial⟩, trivial⟩, ?_⟩, ?_⟩, ?_⟩
    · exact fun name hname => (h.columns name).mpr hname
    · exact fun name hname => (h.columns name).mp hname
    · exact fun col hcol =>
        (uniqueProblems_eq_nil_iff hcol (hpresent col hcol)).mpr (hcols col hcol)
    · exact fun name hname => (hnames name).mpr hname
    · exact fun name hname => (hnames name).mp hname
    · intro idx hidx actual hget
      rw [hindexes idx hidx] at hget
      exact (Option.some.inj hget).symm

theorem mem_keys_of_existingIndexes {py : Python} {info : TableInfo}
    {actual : Table String (List (Option String) × Option (List Char))}
    (h : info.existingIndexes py = .ok actual) {name : String} (hname : name ∈ actual.keys) :
    name ∈ info.indexList.keys := by
  rw [TableInfo.existingIndexes] at h
  split at h
  · cases h
  · rw [← Except.ok.inj h, Table.keys_modify] at hname
    exact (List.filter_sublist.map Prod.fst).subset hname

/-! ## What the statements of a table make -/

/-- What is shown of a table that got indexes. -/
def TableInfo.indexed (table : String) (info : TableInfo) (made : List Index) : TableInfo :=
  made.foldl (TableInfo.withIndex table) info

/-- What is shown of a table once its indexes are there. -/
def Declaration.finished (d : Declaration) : TableInfo := d.created.indexed d.name d.indexes

/-- A Python that knows ASCII. -/
def Python.ascii7 : Python where
  isWord c := c.isAlphanum || c == '_'
  upper := String.toUpper
  reprNames names := "[" ++ ", ".intercalate (names.map fun name => name.getD "None") ++ "]"
  reprCondition clause := clause.getD "None"
  ascii _ _ := rfl

theorem whereAt_congr {py : Python} {cs : List Char} (h : ∀ c ∈ cs, c.toNat < 128) :
    whereAt py cs = whereAt .ascii7 cs := by
  unfold whereAt
  split
  · rename_i w x e r e' rest
    have hhead : rest.head?.any py.isWord = rest.head?.any Python.ascii7.isWord := by
      cases hrest : rest with
      | nil => rfl
      | cons c cs =>
          simp only [List.head?_cons, Option.any_some]
          exact py.ascii c (h c (by simp [hrest]))
    rw [hhead]
  · rfl

theorem searchWhere_congr {py : Python} {cs : List Char} (h : ∀ c ∈ cs, c.toNat < 128)
    (b : Bool) : searchWhere py b cs = searchWhere .ascii7 b cs := by
  induction cs generalizing b with
  | nil => rfl
  | cons c cs ih =>
      have htail : ∀ c ∈ cs, c.toNat < 128 := fun x hx => h x (List.mem_cons_of_mem c hx)
      have hword : py.isWord c = Python.ascii7.isWord c := py.ascii c (h c List.mem_cons_self)
      simp only [searchWhere, whereAt_congr h, hword, ih htail]

theorem extractWhereClause_congr {py : Python} {sql : String}
    (h : ∀ c ∈ sql.toList, c.toNat < 128) :
    extractWhereClause py sql = extractWhereClause .ascii7 sql := by
  rw [extractWhereClause, extractWhereClause, searchWhere_congr h]

def Index.storedText (idx : Index) (table : String) : List Char :=
  "CREATE INDEX ".toList ++ idx.name.toList ++ " ON ".toList ++ table.toList ++ " (".toList ++
    ", ".toList.intercalate (idx.columns.map String.toList) ++ ")".toList ++
    match idx.condition with
    | none => []
    | some condition => " WHERE ".toList ++ condition.toList

/-- The text piece by piece, which is quicker to evaluate. -/
theorem toList_storedSql (idx : Index) (table : String) :
    (idx.storedSql table).toList = idx.storedText table := by
  obtain ⟨name, columns, condition⟩ := idx
  delta Index.storedSql Index.storedText
  cases condition with
  | none => simp only [String.toList_append, String.toList_intercalate, String.toList_empty]
  | some condition => simp only [String.toList_append, String.toList_intercalate]

theorem columnNamed_indexed {table : String} {info : TableInfo} {made : List Index} :
    (info.indexed table made).columnNamed = info.columnNamed := by
  induction made generalizing info with
  | nil => rfl
  | cons idx made ih => exact @ih (info.withIndex table idx)

/-- A declared index is read back from its text. -/
theorem existingIndexes_finished (py : Python) : ∀ d ∈ schema, ∃ actual,
    d.finished.existingIndexes py = .ok actual ∧ actual.keys = d.indexes.map Index.name ∧
      ∀ idx ∈ d.indexes, actual.get? idx.name = some (idx.columns.map some,
        idx.condition.map fun condition => normalizeWhere condition.toList) := by
  intro d hd
  have hreadable : ∀ d ∈ schema, d.finished.unreadable .c = none := by
    decide +kernel
  have hnames : ∀ d ∈ schema, ((d.finished.indexList.filter fun _ idx => idx.origin = .c).keys =
      d.indexes.map Index.name) := by
    decide +kernel
  have hstored : ∀ d ∈ schema, ∀ idx ∈ d.indexes, d.finished.indexList.get? idx.name =
      some ⟨.c, some (idx.columns.map some), idx.storedSql d.name⟩ := by
    decide +kernel
  have hascii : ∀ d ∈ schema, ∀ idx ∈ d.indexes,
      (idx.storedText d.name).all (·.toNat < 128) = true := by
    decide +kernel
  have hextract : ∀ d ∈ schema, ∀ idx ∈ d.indexes,
      (searchWhere .ascii7 false (idx.storedText d.name)).map normalizeWhere =
        idx.condition.map fun condition => normalizeWhere condition.toList := by
    decide +kernel
  refine ⟨_, by rw [TableInfo.existingIndexes, hreadable d hd], ?_, fun idx hidx => ?_⟩
  · rw [Table.keys_modify, hnames d hd]
  · have hchars : ∀ c ∈ (idx.storedSql d.name).toList, c.toNat < 128 := by
      intro c hc
      rw [toList_storedSql] at hc
      exact of_decide_eq_true (List.all_eq_true.mp (hascii d hd idx hidx) c hc)
    rw [Table.get?_modify, Table.get?_filter, hstored d hd idx hidx]
    simp only [Option.filter_some, decide_true, if_true, Option.map_some, Option.getD_some,
      extractWhereClause_congr hchars]
    rw [extractWhereClause, toList_storedSql, hextract d hd idx hidx]

/-- A table that has just been created has no problems. -/
theorem finished_conforms (py : Python) : ∀ d ∈ schema, Conforms py d.finished d := by
  intro d hd
  have hcolumns : ∀ d ∈ schema, d.finished.columns.keys = d.columns.map Column.name := by
    decide +kernel
  have htypes : ∀ d ∈ schema, ∀ col ∈ d.columns,
      d.finished.columns.get? col.name = some (d.columnInfo col).2 := by
    decide +kernel
  have hkey : ∀ d ∈ schema, d.finished.existingPrimaryKey = d.primaryKey := by
    decide +kernel
  have hunique : ∀ d ∈ schema, d.finished.existingUniqueColumns =
      .ok ((d.columns.filter Column.unique).map fun col => some col.name) := by
    decide +kernel
  have hkeys : ∀ d ∈ schema, d.finished.foreignKeys = d.expectedForeignKeys := by
    decide +kernel
  obtain ⟨actual, hactual, hnames, hget⟩ := existingIndexes_finished py d hd
  exact
    { columns := fun name => by rw [hcolumns d hd]
      types := by
        intro col hcol actual hget
        rw [htypes d hd col hcol] at hget
        obtain rfl := Option.some.inj hget
        exact ⟨rfl, rfl⟩
      primaryKey := hkey d hd
      unique := by
        refine ⟨_, hunique d hd, fun col hcol => ?_⟩
        rw [← mem_expectedUnique_iff hcol]
        simp
      foreignKeys := fun fk => by rw [hkeys d hd]
      indexes := ⟨actual, hactual, fun name => by rw [hnames], hget⟩ }

end RerollSync.Catalog
