import RerollSync.Support.Table

/-!
# The health record

What `health.snapshot` gathers, over the type of its times, ages and rates.
-/

namespace RerollSync.Monitor

open RerollSync.Support

/-- `StageQueue`. -/
structure StageQueue (F : Type) where
  depth : ℤ
  depthByLane : Table ℤ ℤ
  inFlight : ℤ
  oldestPendingAgeSeconds : Option F
  throughputEma : F
  okCount : ℤ
  skipCount : ℤ
  retryCount : ℤ
  rateLimitedCount : ℤ
deriving DecidableEq

/-- `StageHealth`. -/
structure StageHealth (F : Type) where
  paused : Bool
  lastRunAt : Option F
  lastSuccessAt : Option F
  consecutiveFailures : ℤ
deriving DecidableEq

/-- `DependencyHealth`. -/
structure DependencyHealth (F : Type) where
  state : String
  consecutiveFailures : ℤ
  nextTrialAt : Option F
deriving DecidableEq

/-- `ChildLimiterSnapshot`. -/
structure ChildLimiterSnapshot (F : Type) where
  available : F
  acquired : ℤ
  denied : ℤ
  penaltyDeadline : F
deriving DecidableEq

/-- `Health`. -/
structure Health (F : Type) where
  snapshotAt : F
  indexLag : ℤ
  remoteLastSerial : Option ℤ
  localMaxSerial : ℤ
  lastIndexPollAt : Option F
  lastIndexChangeAt : Option F
  projectsIndexed : ℤ
  projectsStale : ℤ
  pipelineBacklog : ℤ
  wheelsSynced : ℤ
  queues : Table String (StageQueue F)
  stateCounts : Table String ℤ
  quarantinedCount : ℤ
  skippedCount : ℤ
  requiresPrereleaseCount : ℤ
  walBytes : ℤ
  secondsSinceTruncateCheckpoint : Option F
  consecutiveCheckpointFailures : ℤ
  longestReadTxnMs : F
  readTxnBudgetViolations : ℤ
  dbBytes : ℤ
  freelistCount : ℤ
  writerQueueDepth : ℤ
  writerFailedOps : ℤ
  segmentsSealed : ℤ
  segmentsOpen : ℤ
  openSegmentAgeSeconds : Option F
  openSegmentBytes : ℤ
  unsealedRecords : ℤ
  archiveBytes : ℤ
  diskFreeBytes : Option ℤ
  limiterGlobalAvailable : F
  limiterChildren : Table String (ChildLimiterSnapshot F)
  stages : Table String (StageHealth F)
  dependencies : Table String (DependencyHealth F)
  errorCounts1h : Table String ℤ
  errorCounts24h : Table String ℤ
deriving DecidableEq

end RerollSync.Monitor
