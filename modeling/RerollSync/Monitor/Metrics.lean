import RerollSync.Monitor.Record
import RerollSync.Support.JsonText

/-!
# Metrics

`render_metrics` goes through the fields of a health record and writes a line for every number
that it finds.
-/

namespace RerollSync.Monitor

open RerollSync.Support

/-! ## Fields as the exporter sees them -/

/-- A value of a field; `float` is of the type of times and rates. -/
inductive Value (F : Type)
  | none
  | bool (b : Bool)
  | int (n : ℤ)
  | float (x : F)
  | str (s : String)

/-- A key of a mapping. -/
inductive Key
  | str (s : String)
  | int (n : ℤ)
deriving DecidableEq

/-- A field of a dataclass that is in a mapping. -/
inductive SubValue (F : Type)
  | value (v : Value F)
  | mapping (entries : List (Key × Value F))

/-- A value of a mapping. -/
inductive Item (F : Type)
  | value (v : Value F)
  | record (fields : List (String × SubValue F))

/-- A field of `Health`. -/
inductive FieldValue (F : Type)
  | value (v : Value F)
  | mapping (entries : List (Key × Item F))

section Fields

variable {F : Type}

def Value.ofOption {α : Type} (f : α → Value F) : Option α → Value F
  | .none => .none
  | .some x => f x

/-- The fields of `StageQueue`. -/
def StageQueue.fields (q : StageQueue F) : List (String × SubValue F) :=
  [("depth", .value (.int q.depth)),
   ("depth_by_lane", .mapping (q.depthByLane.rows.map fun r => (.int r.1, .int r.2))),
   ("in_flight", .value (.int q.inFlight)),
   ("oldest_pending_age_seconds", .value (.ofOption .float q.oldestPendingAgeSeconds)),
   ("throughput_ema", .value (.float q.throughputEma)),
   ("ok_count", .value (.int q.okCount)),
   ("skip_count", .value (.int q.skipCount)),
   ("retry_count", .value (.int q.retryCount)),
   ("rate_limited_count", .value (.int q.rateLimitedCount))]

/-- The fields of `StageHealth`. -/
def StageHealth.fields (s : StageHealth F) : List (String × SubValue F) :=
  [("paused", .value (.bool s.paused)),
   ("last_run_at", .value (.ofOption .float s.lastRunAt)),
   ("last_success_at", .value (.ofOption .float s.lastSuccessAt)),
   ("consecutive_failures", .value (.int s.consecutiveFailures))]

/-- The fields of `DependencyHealth`. -/
def DependencyHealth.fields (d : DependencyHealth F) : List (String × SubValue F) :=
  [("state", .value (.str d.state)),
   ("consecutive_failures", .value (.int d.consecutiveFailures)),
   ("next_trial_at", .value (.ofOption .float d.nextTrialAt))]

/-- The fields of `ChildLimiterSnapshot`. -/
def ChildLimiterSnapshot.fields (c : ChildLimiterSnapshot F) : List (String × SubValue F) :=
  [("available", .value (.float c.available)),
   ("acquired", .value (.int c.acquired)),
   ("denied", .value (.int c.denied)),
   ("penalty_deadline", .value (.float c.penaltyDeadline))]

/-- A mapping of dataclasses. -/
def records {ρ : Type} (fields : ρ → List (String × SubValue F)) (t : Table String ρ) :
    FieldValue F :=
  .mapping (t.rows.map fun r => (.str r.1, .record (fields r.2)))

/-- A mapping of counts. -/
def counts (t : Table String ℤ) : FieldValue F :=
  .mapping (t.rows.map fun r => (.str r.1, .value (.int r.2)))

/-- The fields of `Health`, in their order. -/
def Health.fields (h : Health F) : List (String × FieldValue F) :=
  [("snapshot_at", .value (.float h.snapshotAt)),
   ("index_lag", .value (.int h.indexLag)),
   ("remote_last_serial", .value (.ofOption .int h.remoteLastSerial)),
   ("local_max_serial", .value (.int h.localMaxSerial)),
   ("last_index_poll_at", .value (.ofOption .float h.lastIndexPollAt)),
   ("last_index_change_at", .value (.ofOption .float h.lastIndexChangeAt)),
   ("projects_indexed", .value (.int h.projectsIndexed)),
   ("projects_stale", .value (.int h.projectsStale)),
   ("pipeline_backlog", .value (.int h.pipelineBacklog)),
   ("wheels_synced", .value (.int h.wheelsSynced)),
   ("queues", records StageQueue.fields h.queues),
   ("state_counts", counts h.stateCounts),
   ("quarantined_count", .value (.int h.quarantinedCount)),
   ("skipped_count", .value (.int h.skippedCount)),
   ("requires_prerelease_count", .value (.int h.requiresPrereleaseCount)),
   ("wal_bytes", .value (.int h.walBytes)),
   ("seconds_since_truncate_checkpoint",
      .value (.ofOption .float h.secondsSinceTruncateCheckpoint)),
   ("consecutive_checkpoint_failures", .value (.int h.consecutiveCheckpointFailures)),
   ("longest_read_txn_ms", .value (.float h.longestReadTxnMs)),
   ("read_txn_budget_violations", .value (.int h.readTxnBudgetViolations)),
   ("db_bytes", .value (.int h.dbBytes)),
   ("freelist_count", .value (.int h.freelistCount)),
   ("writer_queue_depth", .value (.int h.writerQueueDepth)),
   ("writer_failed_ops", .value (.int h.writerFailedOps)),
   ("segments_sealed", .value (.int h.segmentsSealed)),
   ("segments_open", .value (.int h.segmentsOpen)),
   ("open_segment_age_seconds", .value (.ofOption .float h.openSegmentAgeSeconds)),
   ("open_segment_bytes", .value (.int h.openSegmentBytes)),
   ("unsealed_records", .value (.int h.unsealedRecords)),
   ("archive_bytes", .value (.int h.archiveBytes)),
   ("disk_free_bytes", .value (.ofOption .int h.diskFreeBytes)),
   ("limiter_global_available", .value (.float h.limiterGlobalAvailable)),
   ("limiter_children", records ChildLimiterSnapshot.fields h.limiterChildren),
   ("stages", records StageHealth.fields h.stages),
   ("dependencies", records DependencyHealth.fields h.dependencies),
   ("error_counts_1h", counts h.errorCounts1h),
   ("error_counts_24h", counts h.errorCounts24h)]

end Fields

/-! ## The exporter -/

/-- `METRIC_PREFIX`. -/
def metricPrefix : String := "reroll_sync_"

/-- `_COUNTER_FAMILIES`. -/
def counterFamilies : List String :=
  ["writer_failed_ops", "read_txn_budget_violations", "segments_sealed", "archive_bytes",
   "queues_ok_count", "queues_skip_count", "queues_retry_count", "queues_rate_limited_count",
   "limiter_children_acquired", "limiter_children_denied"]

/-- `_DEPENDENCY_STATE_CODES`. -/
def dependencyStateCodes : List (String × ℤ) := [("closed", 0), ("half_open", 1), ("open", 2)]

/-- `_LABEL_NAMES`. -/
def labelNames : List (String × String) :=
  [("state_counts", "state"), ("error_counts_1h", "category"), ("error_counts_24h", "category"),
   ("queues", "stage"), ("stages", "stage"), ("dependencies", "dependency"),
   ("limiter_children", "child")]

/-- `_INNER_LABEL_NAMES`. -/
def innerLabelNames : List ((String × String) × String) :=
  [(("queues", "depth_by_lane"), "lane")]

/-- `str`, of a key. -/
def Key.text : Key → List Char
  | .str s => s.toList
  | .int n => intText n

/-- `str.replace`, of a character. -/
def replaceChar (old : Char) (new text : List Char) : List Char :=
  text.flatMap fun c => if c = old then new else [c]

/-- `_escape_label_value`. -/
def escapeLabelValue (value : Key) : List Char :=
  replaceChar '\n' ['\\', 'n']
    (replaceChar '"' ['\\', '"'] (replaceChar '\\' ['\\', '\\'] value.text))

/-- `_render_labels`. -/
def renderLabels (labels : List (String × Key)) : List Char :=
  if labels = [] then []
  else
    '{' :: ([','].intercalate
      (labels.map fun l => l.1.toList ++ '=' :: '"' :: (escapeLabelValue l.2 ++ ['"'])) ++ ['}'])

/-- What is written for a number. -/
inductive Numeric (F : Type)
  | int (n : ℤ)
  | float (x : F)

/-- `_to_numeric`. -/
def toNumeric {F : Type} : Value F → Option (Numeric F)
  | .none => none
  | .bool b => some (.int b.toInt)
  | .int n => some (.int n)
  | .float x => some (.float x)
  | .str s => (dependencyStateCodes.lookup s).map .int

/-- The lists `lines` and `emitted_types`. -/
structure Rendered where
  lines : List (List Char)
  emittedTypes : List String

section Render

variable {F : Type} (floatText : F → List Char)

def Numeric.text : Numeric F → List Char
  | .int n => intText n
  | .float x => floatText x

/-- `_emit`. -/
def emit (out : Rendered) (metricName : String) (value : Value F) (labels : List (String × Key)) :
    Rendered :=
  match toNumeric value with
  | none => out
  | some numeric =>
      let fullName := metricPrefix ++ metricName
      let out :=
        if fullName ∈ out.emittedTypes then out
        else
          { lines := out.lines ++
              ["# TYPE ".toList ++ fullName.toList ++ [' '] ++
                (if metricName ∈ counterFamilies then "counter".toList else "gauge".toList)]
            emittedTypes := fullName :: out.emittedTypes }
      { out with
        lines := out.lines ++
          [fullName.toList ++ renderLabels labels ++ [' '] ++ numeric.text floatText] }

/-- `_render_dataclass_item`. -/
def renderDataclassItem (fieldName labelName : String) (key : Key) (out : Rendered)
    (item : List (String × SubValue F)) : Rendered :=
  item.foldl (fun out sub =>
    let metricName := fieldName ++ "_" ++ sub.1
    match sub.2 with
    | .mapping entries =>
        let innerLabel := (innerLabelNames.lookup (fieldName, sub.1)).getD "item"
        entries.foldl (fun out entry =>
          emit floatText out metricName entry.2 [(labelName, key), (innerLabel, entry.1)]) out
    | .value v => emit floatText out metricName v [(labelName, key)]) out

/-- `_render_mapping`. -/
def renderMapping (out : Rendered) (fieldName : String) (entries : List (Key × Item F)) :
    Rendered :=
  let labelName := (labelNames.lookup fieldName).getD "key"
  entries.foldl (fun out entry =>
    match entry.2 with
    | .record fields => renderDataclassItem floatText fieldName labelName entry.1 out fields
    | .value v => emit floatText out fieldName v [(labelName, entry.1)]) out

/-- The loop of `render_metrics`. -/
def renderFields (fields : List (String × FieldValue F)) : Rendered :=
  fields.foldl (fun out field =>
    match field.2 with
    | .mapping entries => renderMapping floatText out field.1 entries
    | .value v => emit floatText out field.1 v []) ⟨[], []⟩

/-- `render_metrics`. -/
def renderMetrics (health : Health F) : List Char :=
  ['\n'].intercalate (renderFields floatText health.fields).lines ++ ['\n']

end Render

end RerollSync.Monitor
