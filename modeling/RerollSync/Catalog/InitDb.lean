import RerollSync.Catalog.Declarations
import RerollSync.Support.Exceptions
import RerollSync.Support.PyString
import RerollSync.Support.Table
import Mathlib.Data.List.Dedup

/-!
# Creating and checking the database

`init_db` creates the tables that a database does not have, and compares the ones that it
has with what is declared.  A database is here what the pragmas and `sqlite_master` show of
it; that sqlite can read and write the file is taken for granted.

sqlite compares names up to the case of ASCII letters.  Tables and views share their names,
and an index is not named like one of them.  `_table_exists` compares names exactly, and
does not see views.
-/

namespace RerollSync.Catalog

open RerollSync.Support

/-! ## What sqlite shows -/

/-- A name as sqlite compares it. -/
def folded (name : String) : List Char := name.toList.map Char.toLower

/-- A row of `PRAGMA table_info`, by the name of the column. -/
structure ColumnInfo where
  type : String
  notnull : Bool
  pk : ℕ
deriving DecidableEq

/-- What an index comes from: `CREATE INDEX`, a `UNIQUE` constraint, or the primary key. -/
inductive Origin
  | c
  | u
  | pk
deriving DecidableEq

/-- A row of `PRAGMA index_list`, by the name of the index, with its text and with what
`PRAGMA index_info({name})` returns for it: a column that is an expression has no name, and
there is no result for a name that needs quotes, with which the statement is not one. -/
structure IndexInfo where
  origin : Origin
  columns : Option (List (Option String))
  sql : String
deriving DecidableEq

inductive Kind
  | table
  | virtualTable
  | view
deriving DecidableEq

/-- What sqlite shows of a table or a view.  A foreign key is a column, the table that it
refers to, and the column there, if it is given.  Generated columns are not in
`PRAGMA table_info`. -/
structure TableInfo where
  kind : Kind
  columns : Table String ColumnInfo
  generated : List String
  indexList : Table String IndexInfo
  foreignKeys : List (String × String × Option String)
deriving DecidableEq

/-- A database file: its tables and views, of which no two have the same name up to case. -/
structure Database where
  autoVacuum : ℤ
  userVersion : ℤ
  tables : Table String TableInfo
  distinct : (tables.keys.map folded).Nodup

namespace Database

/-- The table or view that a statement means by a name. -/
def findTable (db : Database) (name : String) : Option (String × TableInfo) :=
  db.tables.rows.find? fun t => folded t.1 = folded name

/-- Some table has the index that a statement means by a name. -/
def hasIndex (db : Database) (name : String) : Bool :=
  db.tables.rows.any fun t => t.2.indexList.keys.any fun key => folded key = folded name

/-- `_table_exists`, with what there is to see of the table. -/
def existingTable (db : Database) (name : String) : Option TableInfo :=
  (db.tables.get? name).filter fun info => info.kind ≠ .view

theorem findTable_eq_none_iff {db : Database} {name : String} :
    db.findTable name = none ↔ folded name ∉ db.tables.keys.map folded := by
  simp [findTable, Table.keys]

/-- Put a table beside the others. -/
def addTable (db : Database) (name : String) (info : TableInfo) (h : db.findTable name = none) :
    Database where
  autoVacuum := db.autoVacuum
  userVersion := db.userVersion
  tables := db.tables.insertNew name info
  distinct := by
    have hnew : folded name ∉ db.tables.keys.map folded := findTable_eq_none_iff.mp h
    rw [Table.keys_insertNew_of_notMem (mt List.mem_map_of_mem hnew), List.map_append,
      List.nodup_append]
    refine ⟨db.distinct, List.nodup_singleton _, ?_⟩
    rintro a ha _ hb rfl
    exact hnew (List.mem_singleton.mp hb ▸ ha)

/-- Change the table of exactly this name. -/
def alterTable (db : Database) (name : String) (f : TableInfo → TableInfo) : Database where
  autoVacuum := db.autoVacuum
  userVersion := db.userVersion
  tables := db.tables.modify fun key info => if key = name then f info else info
  distinct := by
    rw [Table.keys_modify]
    exact db.distinct

end Database

/-! ## Creating -/

/-- What `CREATE TABLE` shows of a column. -/
def Declaration.columnInfo (d : Declaration) (col : Column) : String × ColumnInfo :=
  (col.name, ⟨col.type, col.notNull,
    if col.name ∈ d.primaryKey then d.primaryKey.idxOf col.name + 1 else 0⟩)

/-- Whether the primary key is the rowid, which needs no index. -/
def Declaration.keyIsRowid (d : Declaration) : Bool :=
  d.columns.any fun col => d.primaryKey = [col.name] ∧ col.type = "INTEGER"

/-- The constraints that get an index of their own. -/
def Declaration.constraints (d : Declaration) : List IndexInfo :=
  (d.columns.filter Column.unique).map (fun col => ⟨.u, some [some col.name], ""⟩) ++
    if d.keyIsRowid then [] else [⟨.pk, some (d.primaryKey.map some), ""⟩]

/-- `sqlite_autoindex_TABLE_N`. -/
def autoindexName (table : String) (n : ℕ) : String :=
  "sqlite_autoindex_" ++ table ++ "_" ++ toString (n + 1)

/-- Insert what has a name. -/
def ofEntries {ρ : Type} (entries : List (String × ρ)) : Table String ρ :=
  entries.foldl (fun t e => t.set e.1 e.2) ∅

/-- The foreign keys of a declaration. -/
def Declaration.expectedForeignKeys (d : Declaration) : List (String × String × Option String) :=
  d.columns.filterMap fun col =>
    col.references.map fun r => (col.name, r.refTable, some r.refColumn)

/-- What is shown of a table that `create_table_sql` has just created. -/
def Declaration.created (d : Declaration) : TableInfo where
  kind := .table
  columns := ofEntries (d.columns.map d.columnInfo)
  generated := []
  indexList := ofEntries (d.constraints.mapIdx fun n info => (autoindexName d.name n, info))
  foreignKeys := d.expectedForeignKeys

/-- The text that sqlite keeps of `Index.to_sql`. -/
def Index.storedSql (idx : Index) (table : String) : String :=
  "CREATE INDEX " ++ idx.name ++ " ON " ++ table ++ " (" ++ ", ".intercalate idx.columns ++ ")" ++
    match idx.condition with
    | none => ""
    | some condition => " WHERE " ++ condition

/-- The columns that `Index.to_sql` names; sqlite complains of the first one before that of
the condition.  A condition of the schema is about its first word. -/
def Index.namedColumns (idx : Index) : List String :=
  let condition := idx.condition.bind fun condition => (splitWords condition.toList).head?
  idx.columns.take 1 ++ condition.toList.map String.ofList ++ idx.columns.drop 1

/-- The column that a statement means by a name, as the table spells it. -/
def TableInfo.columnNamed (info : TableInfo) (name : String) : Option String :=
  (info.columns.keys ++ info.generated).find? fun key => folded key = folded name

/-- What is shown of a table that got an index. -/
def TableInfo.withIndex (table : String) (info : TableInfo) (idx : Index) : TableInfo :=
  { info with
    indexList := info.indexList.set idx.name
      ⟨.c, some (idx.columns.map info.columnNamed), idx.storedSql table⟩ }

/-- Why sqlite refuses to create something. -/
inductive SqliteError
  | indexNamed (name : String)
  | noSuchTable (name : String)
  | viewIndexed
  | virtualTableIndexed
  | tableNamed (name : String)
  | noSuchColumn (name : String)
deriving DecidableEq

namespace Database

/-- `CREATE TABLE IF NOT EXISTS`. -/
def createTable (db : Database) (d : Declaration) : Except SqliteError Database :=
  if h : db.findTable d.name = none then
    if db.hasIndex d.name then .error (.indexNamed d.name)
    else .ok (db.addTable d.name d.created h)
  else .ok db

/-- `CREATE INDEX IF NOT EXISTS`. -/
def createIndex (table : String) (db : Database) (idx : Index) : Except SqliteError Database :=
  match db.findTable table with
  | none => .error (.noSuchTable table)
  | some (name, info) =>
      match info.kind with
      | .view => .error .viewIndexed
      | .virtualTable => .error .virtualTableIndexed
      | .table =>
          if (db.findTable idx.name).isSome then .error (.tableNamed idx.name)
          else if db.hasIndex idx.name then .ok db
          else
            match idx.namedColumns.find? fun col => info.columnNamed col = none with
            | some col => .error (.noSuchColumn col)
            | none => .ok (db.alterTable name fun info => info.withIndex table idx)

def createIndexes (table : String) : List Index → Database → Database × Except SqliteError Unit
  | [], db => (db, .ok ())
  | idx :: indexes, db =>
      match db.createIndex table idx with
      | .ok db' => createIndexes table indexes db'
      | .error e => (db, .error e)

/-- The statements for a table that is missing.  What they have created is not undone by an
error that comes after it: outside of a transaction each is one of its own. -/
def create (db : Database) (d : Declaration) : Database × Except SqliteError Unit :=
  match db.createTable d with
  | .ok db' => createIndexes d.name d.indexes db'
  | .error e => (db, .error e)

end Database

/-! ## Checking -/

/-- What the interpreter knows of characters, and how it writes values into messages. -/
structure Python where
  isWord : Char → Bool
  upper : String → String
  reprNames : List (Option String) → String
  reprCondition : Option String → String
  ascii : ∀ c, c.toNat < 128 → isWord c = (c.isAlphanum || c == '_')

/-- The exceptions that leave `init_db`: `AutoVacuumError`, `SchemaVersionError`,
`SchemaMismatchError`, those of the statements that create something and of
`PRAGMA index_info`, and a `TypeError` of `sorted`. -/
inductive InitError
  | autoVacuum (found : ℤ)
  | schemaVersion (found : ℤ)
  | schemaMismatch (table : String) (problems : List String)
  | refused (error : SqliteError)
  | unreadableIndex (name : String)
  | typeError
deriving DecidableEq

namespace TableInfo

/-- `_existing_primary_key`. -/
def existingPrimaryKey (info : TableInfo) : List String :=
  ((info.columns.rows.filter fun col => 0 < col.2.pk).insertionSort fun a b =>
    a.2.pk < b.2.pk ∨ a.2.pk = b.2.pk ∧ a.1 ≤ b.1).map Prod.fst

/-- An index of the origin for which `PRAGMA index_info` raises. -/
def unreadable (info : TableInfo) (origin : Origin) : Option String :=
  (info.indexList.rows.find? fun idx => idx.2.origin = origin ∧ idx.2.columns = none).map Prod.fst

/-- `_existing_unique_columns`. -/
def existingUniqueColumns (info : TableInfo) : Except InitError (List (Option String)) :=
  match info.unreadable .u with
  | some name => .error (.unreadableIndex name)
  | none => .ok <| info.indexList.rows.filterMap fun idx =>
      match idx.2.origin, idx.2.columns with
      | .u, some [name] => some name
      | _, _ => none

end TableInfo

/-- `_normalize_where`, of a clause. -/
def normalizeWhere (clause : List Char) : List Char := [' '].intercalate (splitWords clause)

/-- The rest after `WHERE` with a word boundary, if the text starts with that. -/
def whereAt (py : Python) : List Char → Option (List Char)
  | w :: h :: e :: r :: e' :: rest =>
      if [w, h, e, r, e'].map Char.toUpper = ['W', 'H', 'E', 'R', 'E'] ∧ !rest.head?.any py.isWord
      then some rest
      else none
  | _ => none

/-- `re.search(r"\bWHERE\b(.*)$", ...)`, behind a character that is of a word or is not. -/
def searchWhere (py : Python) (behindWord : Bool) : List Char → Option (List Char)
  | [] => none
  | c :: cs =>
      match behindWord, whereAt py (c :: cs) with
      | false, some rest => some rest
      | _, _ => searchWhere py (py.isWord c) cs

/-- `_extract_where_clause`. -/
def extractWhereClause (py : Python) (sql : String) : Option (List Char) :=
  (searchWhere py false sql.toList).map normalizeWhere

/-- `_existing_indexes`. -/
def TableInfo.existingIndexes (py : Python) (info : TableInfo) :
    Except InitError (Table String (List (Option String) × Option (List Char))) :=
  match info.unreadable .c with
  | some name => .error (.unreadableIndex name)
  | none => .ok <| (info.indexList.filter fun _ idx => idx.origin = .c).modify fun _ idx =>
      (idx.columns.getD [], extractWhereClause py idx.sql)

/-- `sorted`. -/
def sortedNames (names : List String) : List String := names.insertionSort fun a b => a ≤ b

def boolText (b : Bool) : String := if b then "True" else "False"

def condText (clause : Option (List Char)) : Option String := clause.map String.ofList

/-- `sorted` of foreign keys, which compares `None` with a text when two keys differ only
there. -/
def sortedKeys (keys : List (String × String × Option String)) :
    Except InitError (List (String × String × Option String)) :=
  if keys.any fun a => keys.any fun b =>
      a.1 = b.1 ∧ a.2.1 = b.2.1 ∧ a.2.2 = none ∧ b.2.2 ≠ none then
    .error .typeError
  else
    .ok <| keys.insertionSort fun a b =>
      a.1 < b.1 ∨ a.1 = b.1 ∧ (a.2.1 < b.2.1 ∨ a.2.1 = b.2.1 ∧ a.2.2.getD "" ≤ b.2.2.getD "")

/-- The problem that a list of foreign keys is about. -/
def keyProblem (what : String) (fk : String × String × Option String) : String :=
  what ++ " foreign key " ++ fk.1 ++ " -> " ++ fk.2.1 ++ "." ++ fk.2.2.getD "None"

/-- The names of one set that the other one lacks. -/
def lacking {α : Type} [DecidableEq α] (names others : List α) : List α :=
  (names.filter fun name => name ∉ others).dedup

/-- The problems of a column's type and of its `NOT NULL`. -/
def columnProblems (py : Python) (info : TableInfo) (col : Column) : List String :=
  match info.columns.get? col.name with
  | none => []
  | some actual =>
      (if py.upper actual.type ≠ py.upper col.type then
        ["column '" ++ col.name ++ "' type mismatch: expected " ++ col.type ++ ", found " ++
          actual.type]
      else []) ++
      if actual.notnull ≠ col.notNull then
        ["column '" ++ col.name ++ "' NOT NULL mismatch: expected " ++ boolText col.notNull ++
          ", found " ++ boolText actual.notnull]
      else []

/-- The problem of a column's `UNIQUE`. -/
def uniqueProblems (d : Declaration) (info : TableInfo) (actualUnique : List (Option String))
    (col : Column) : List String :=
  let expected := decide (col.name ∈ (d.columns.filter Column.unique).map Column.name)
  let actual := decide (some col.name ∈ actualUnique)
  if col.name ∈ info.columns.keys ∧ expected ≠ actual then
    ["column '" ++ col.name ++ "' UNIQUE mismatch: expected " ++ boolText expected ++ ", found " ++
      boolText actual]
  else []

/-- The problems of an index's columns and of its `WHERE` clause. -/
def indexProblems (py : Python)
    (existingIndexes : Table String (List (Option String) × Option (List Char))) (idx : Index) :
    List String :=
  match existingIndexes.get? idx.name with
  | none => []
  | some actual =>
      let expected := idx.condition.map fun condition => normalizeWhere condition.toList
      (if actual.1 ≠ idx.columns.map some then
        ["index '" ++ idx.name ++ "' columns mismatch: expected " ++
          py.reprNames (idx.columns.map some) ++ ", found " ++ py.reprNames actual.1]
      else []) ++
      if actual.2 ≠ expected then
        ["index '" ++ idx.name ++ "' WHERE clause mismatch: expected " ++
          py.reprCondition (condText expected) ++ ", found " ++
          py.reprCondition (condText actual.2)]
      else []

/-- `_validate_table`. -/
def validateTable (py : Python) (info : TableInfo) (d : Declaration) :
    Except InitError (List String) := do
  let expectedNames := d.columns.map Column.name
  let existingNames := info.columns.keys
  let actualUnique ← info.existingUniqueColumns
  let missingKeys ← sortedKeys (lacking d.expectedForeignKeys info.foreignKeys)
  let unexpectedKeys ← sortedKeys (lacking info.foreignKeys d.expectedForeignKeys)
  let existingIndexes ← info.existingIndexes py
  let expectedIndexes := d.indexes.map Index.name
  return (sortedNames (lacking expectedNames existingNames)).map (fun name =>
      "missing column '" ++ name ++ "'") ++
    (sortedNames (lacking existingNames expectedNames)).map (fun name =>
      "unexpected column '" ++ name ++ "'") ++
    d.columns.flatMap (columnProblems py info) ++
    (if info.existingPrimaryKey ≠ d.primaryKey then
      ["primary key mismatch: expected " ++ py.reprNames (d.primaryKey.map some) ++ ", found " ++
        py.reprNames (info.existingPrimaryKey.map some)]
    else []) ++
    d.columns.flatMap (uniqueProblems d info actualUnique) ++
    missingKeys.map (keyProblem "missing") ++
    unexpectedKeys.map (keyProblem "unexpected") ++
    (sortedNames (lacking expectedIndexes existingIndexes.keys)).map (fun name =>
      "missing index '" ++ name ++ "'") ++
    (sortedNames (lacking existingIndexes.keys expectedIndexes)).map (fun name =>
      "unexpected index '" ++ name ++ "'") ++
    d.indexes.flatMap (indexProblems py existingIndexes)

/-! ## The database -/

/-- What `init_db` does about one table of the schema. -/
def initTable (py : Python) (db : Database) (d : Declaration) :
    Database × Except InitError Unit :=
  match db.existingTable d.name with
  | some info =>
      match validateTable py info d with
      | .ok [] => (db, .ok ())
      | .ok problems => (db, .error (.schemaMismatch d.name problems))
      | .error e => (db, .error e)
  | none =>
      match db.create d with
      | (db', .ok ()) => (db', .ok ())
      | (db', .error e) => (db', .error (.refused e))

/-- The loop of `init_db`. -/
def initTables (py : Python) : List Declaration → Database → Database × Except InitError Unit
  | [], db => (db, .ok ())
  | d :: schema, db =>
      match initTable py db d with
      | (db', .ok ()) => initTables py schema db'
      | (db', .error e) => (db', .error e)

/-- `init_db`; the file is missing or holds a database. -/
def initDb (py : Python) (file : Option Database) : Database × Except InitError Unit :=
  match file with
  | none => initTables py schema ⟨2, schemaVersion, ∅, List.nodup_nil⟩
  | some db =>
      if db.autoVacuum ≠ 2 then (db, .error (.autoVacuum db.autoVacuum))
      else if db.userVersion ≠ schemaVersion then (db, .error (.schemaVersion db.userVersion))
      else initTables py schema db

end RerollSync.Catalog
