import Mathlib.Data.Int.Notation
import Mathlib.Data.List.Nodup

/-!
# The declared schema

The tables of `schema.py`, with what `_validate_table` compares of them.
-/

namespace RerollSync.Catalog

/-- `ForeignKey`. -/
structure ForeignKey where
  refTable : String
  refColumn : String
deriving DecidableEq

/-- `Column`. -/
structure Column where
  name : String
  type : String
  notNull : Bool := false
  unique : Bool := false
  references : Option ForeignKey := none
deriving DecidableEq

/-- `Index`. -/
structure Index where
  name : String
  columns : List String
  condition : Option String := none
deriving DecidableEq

/-- `Table`.  Names are not given twice, and the primary key is made of columns. -/
structure Declaration where
  name : String
  columns : List Column
  primaryKey : List String
  indexes : List Index := []
  columnNames : (columns.map Column.name).Nodup := by decide +kernel
  keyColumns : ∀ name ∈ primaryKey, name ∈ columns.map Column.name := by decide +kernel
  keyNames : primaryKey.Nodup := by decide +kernel
  indexNames : (indexes.map Index.name).Nodup := by decide +kernel

/-! ## The tables -/

def pypiIndex : Declaration where
  name := "pypi_index"
  columns :=
    [{ name := "name", type := "TEXT", notNull := true },
     { name := "serial", type := "INTEGER", notNull := true },
     { name := "updated_at", type := "TEXT", notNull := true }]
  primaryKey := ["name"]

def wheels : Declaration where
  name := "wheels"
  columns :=
    [{ name := "id", type := "INTEGER" },
     { name := "filename", type := "TEXT", notNull := true, unique := true },
     { name := "project", type := "TEXT", notNull := true },
     { name := "conda_name", type := "TEXT" },
     { name := "state", type := "INTEGER", notNull := true },
     { name := "lane", type := "INTEGER", notNull := true },
     { name := "url", type := "TEXT", notNull := true },
     { name := "wheel_sha256", type := "TEXT" },
     { name := "metadata_sha256", type := "TEXT" },
     { name := "size", type := "INTEGER" },
     { name := "upload_time", type := "TEXT" },
     { name := "requires_python", type := "TEXT" },
     { name := "yanked", type := "INTEGER", notNull := true },
     { name := "yanked_reason", type := "TEXT" },
     { name := "blob_sha256", type := "TEXT" },
     { name := "serial", type := "INTEGER", notNull := true },
     { name := "change_seq", type := "INTEGER", notNull := true },
     { name := "deleted_at", type := "TEXT" },
     { name := "updated_at", type := "TEXT", notNull := true }]
  primaryKey := ["id"]
  indexes :=
    [{ name := "ix_wheels_queue", columns := ["state", "lane", "project", "id"] },
     { name := "ix_wheels_conda_name", columns := ["conda_name"],
       condition := some "conda_name IS NOT NULL" },
     { name := "ix_wheels_project", columns := ["project", "id"] },
     { name := "ix_wheels_change_seq", columns := ["change_seq"] }]

def segments : Declaration where
  name := "segments"
  columns :=
    [{ name := "id", type := "INTEGER" },
     { name := "sealed_at", type := "TEXT" },
     { name := "bytes", type := "INTEGER" },
     { name := "records", type := "INTEGER" },
     { name := "footer_sha", type := "TEXT" }]
  primaryKey := ["id"]

def blobs : Declaration where
  name := "blobs"
  columns :=
    [{ name := "sha256", type := "TEXT", notNull := true },
     { name := "segment_id", type := "INTEGER", notNull := true,
       references := some ⟨"segments", "id"⟩ },
     { name := "block_no", type := "INTEGER", notNull := true },
     { name := "offset", type := "INTEGER", notNull := true },
     { name := "length", type := "INTEGER", notNull := true }]
  primaryKey := ["sha256"]
  indexes := [{ name := "ix_blobs_segment", columns := ["segment_id", "block_no"] }]

def wheelRepodata : Declaration where
  name := "wheel_repodata"
  columns :=
    [{ name := "wheel_id", type := "INTEGER", notNull := true,
       references := some ⟨"wheels", "id"⟩ },
     { name := "repodata_zst", type := "BLOB", notNull := true },
     { name := "name_conv_zst", type := "BLOB" },
     { name := "requires_prerelease", type := "INTEGER", notNull := true },
     { name := "reroll_version", type := "TEXT", notNull := true }]
  primaryKey := ["wheel_id"]
  indexes :=
    [{ name := "ix_wheel_repodata_version", columns := ["reroll_version"] },
     { name := "ix_wheel_repodata_prerelease", columns := ["requires_prerelease"],
       condition := some "requires_prerelease = 1" }]

def skips : Declaration where
  name := "skips"
  columns :=
    [{ name := "wheel_id", type := "INTEGER", notNull := true,
       references := some ⟨"wheels", "id"⟩ },
     { name := "stage", type := "TEXT", notNull := true },
     { name := "reason", type := "TEXT", notNull := true },
     { name := "permanent", type := "INTEGER", notNull := true },
     { name := "reroll_version", type := "TEXT" },
     { name := "created_at", type := "TEXT", notNull := true }]
  primaryKey := ["wheel_id", "stage"]
  indexes :=
    [{ name := "ix_skips_retryable", columns := ["reroll_version"],
       condition := some "permanent = 0" }]

def work : Declaration where
  name := "work"
  columns :=
    [{ name := "wheel_id", type := "INTEGER", notNull := true,
       references := some ⟨"wheels", "id"⟩ },
     { name := "stage", type := "TEXT", notNull := true },
     { name := "attempts", type := "INTEGER", notNull := true },
     { name := "next_attempt_at", type := "TEXT", notNull := true },
     { name := "last_error", type := "TEXT" },
     { name := "quarantined_at", type := "TEXT" }]
  primaryKey := ["wheel_id", "stage"]
  indexes :=
    [{ name := "ix_work_ready", columns := ["stage", "next_attempt_at"],
       condition := some "quarantined_at IS NULL" }]

def errors : Declaration where
  name := "errors"
  columns :=
    [{ name := "id", type := "INTEGER" },
     { name := "wheel_id", type := "INTEGER", references := some ⟨"wheels", "id"⟩ },
     { name := "error_category", type := "TEXT", notNull := true },
     { name := "error_subcat", type := "TEXT" },
     { name := "details", type := "TEXT" },
     { name := "reroll_version", type := "TEXT", notNull := true },
     { name := "created_at", type := "TEXT", notNull := true }]
  primaryKey := ["id"]
  indexes := [{ name := "ix_errors_cat", columns := ["error_category", "created_at"] }]

def unlinkedBlobs : Declaration where
  name := "unlinked_blobs"
  columns :=
    [{ name := "filename", type := "TEXT", notNull := true },
     { name := "sha256", type := "TEXT", notNull := true },
     { name := "noted_at", type := "TEXT", notNull := true }]
  primaryKey := ["filename"]

/-- `SCHEMA`. -/
def schema : List Declaration :=
  [pypiIndex, wheels, segments, blobs, wheelRepodata, skips, work, errors, unlinkedBlobs]

/-- `SCHEMA_VERSION`. -/
def schemaVersion : ℤ := 1

end RerollSync.Catalog
