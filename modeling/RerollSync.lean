import RerollSync.Support.Machine
import RerollSync.Support.Table
import RerollSync.Support.Stamps
import RerollSync.RateLimit.TokenBucket
import RerollSync.RateLimit.Hierarchical
import RerollSync.RateLimit.Acquire
import RerollSync.RateLimit.GlobalCap
import RerollSync.RateLimit.FixedClock
import RerollSync.RateLimit.BlockedAcquire
import RerollSync.RateLimit.Borrowing
import RerollSync.Support.Transaction
import RerollSync.Writer.Batch
import RerollSync.Writer.Loop
import RerollSync.Writer.Invariant
import RerollSync.Writer.Batching
import RerollSync.Writer.Resolution
import RerollSync.Writer.Deadlock
import RerollSync.Support.Program
import RerollSync.Store.Schema
import RerollSync.Convert
import RerollSync.Dispatcher.Outcomes
import RerollSync.Dispatcher.Queue
import RerollSync.Dispatcher.Reprocess
import RerollSync.Ingest.Plan
import RerollSync.Ingest.Apply
import RerollSync.Support.Snapshot
import RerollSync.Writer.ForeignCommits
import RerollSync.Dispatcher.Effects
import RerollSync.Dispatcher.Campaign
import RerollSync.Ingest.Effects
import RerollSync.Pipeline.Machine
import RerollSync.Pipeline.Commits
import RerollSync.Pipeline.Soundness
import RerollSync.Pipeline.Transitions
import RerollSync.Pipeline.Provenance
import RerollSync.Support.Encoding
import RerollSync.Archive.Format
import RerollSync.Archive.Layout
import RerollSync.Archive.Writer
import RerollSync.Archive.Reader
import RerollSync.Archive.Store
import RerollSync.Archive.Session
import RerollSync.Archive.RoundTrip
import RerollSync.Store.Frame
import RerollSync.Fetch.Recovery
import RerollSync.Fetch.BulkConvert
import RerollSync.Store.Wheel
import RerollSync.Fsck
import RerollSync.Daemon.Machine
import RerollSync.Daemon.Moves
import RerollSync.Daemon.Steps
import RerollSync.Daemon.Lanes
import RerollSync.Daemon.Quarantine
import RerollSync.Daemon.Repodata
import RerollSync.Daemon.Skips
import RerollSync.Daemon.Work
import RerollSync.Daemon.Metadata
import RerollSync.Daemon.Convertible
import RerollSync.Daemon.ArchiveThread
import RerollSync.Daemon.ThreadInvariant
import RerollSync.Daemon.CrashRecovery
import RerollSync.Daemon.ChangeSeq
import RerollSync.Daemon.SkipVersions
import RerollSync.Breaker.CircuitBreaker
import RerollSync.Breaker.HalfOpen
import RerollSync.Support.Paging
import RerollSync.Stages.FetchStage
import RerollSync.Ingest.IndexPoll
import RerollSync.Store.Filenames
import RerollSync.Ingest.Reconciled
import RerollSync.Ingest.Planned
import RerollSync.Ingest.Convergence
import RerollSync.Ingest.Outcomes
import RerollSync.Ingest.ProjectNames
import RerollSync.Ingest.Rollback
import RerollSync.Ingest.FailedStatements
import RerollSync.Ingest.StaleProjects
import RerollSync.Ingest.DisjointProjects
import RerollSync.Ingest.OrderIndependence
import RerollSync.Stages.Breakers
import RerollSync.Support.Custody
import RerollSync.Stages.InFlight
import RerollSync.Fetch.ByteBudgetedQueue
import RerollSync.Dispatcher.ClaimPasses
import RerollSync.Dispatcher.KeysetCampaign
import RerollSync.Dispatcher.VersionCampaign
import RerollSync.Support.Dotted
import RerollSync.Dispatcher.VersionOrder
import RerollSync.Dispatcher.RetryBudget
import RerollSync.Archive.Documents
import RerollSync.Archive.Verify
import RerollSync.Support.Traversal
import RerollSync.Archive.VerifySoundness
import RerollSync.Archive.Placement
import RerollSync.Archive.HealthyArchive
import RerollSync.Fetch.IntactBlobs
import RerollSync.Stages.ConvertPaths
import RerollSync.Ingest.IndexRows
import RerollSync.Stages.ProjectFeed
import RerollSync.Daemon.HandoffDrain
import RerollSync.Breaker.CallHistory
import RerollSync.RateLimit.Refusals
import RerollSync.RateLimit.Penalties
import RerollSync.RateLimit.Reserves
import RerollSync.RateLimit.Waits
import RerollSync.Fetch.BlockCache
import RerollSync.Fsck.RowChecks
import RerollSync.Fsck.ChangeSeq
import RerollSync.Fsck.Consistent
import RerollSync.Fsck.Run
import RerollSync.Support.Pacing
import RerollSync.Stages.StageLoop
import RerollSync.Stages.LoopRuns
import RerollSync.Daemon.Identity
import RerollSync.Support.LowerCase
import RerollSync.Client.ProjectUrl
import RerollSync.Support.Calendar
import RerollSync.Support.IsoFormat
import RerollSync.Dispatcher.Timestamps
import RerollSync.Cli.Errors
import RerollSync.Daemon.Unquarantine
import RerollSync.Writer.TransactionGuard
import RerollSync.Support.Numeral
import RerollSync.Support.Decoding
import RerollSync.Support.Json
import RerollSync.Control.ReadLine
import RerollSync.Control.Server
import RerollSync.Client.ResponseBody
import RerollSync.Support.PyString
import RerollSync.Client.HttpDate
import RerollSync.Client.RetryAfter
import RerollSync.Support.Exceptions
import RerollSync.Support.Ascii
import RerollSync.Support.JsonString
import RerollSync.Support.JsonText
import RerollSync.Fetch.FetchOne
import RerollSync.Fetch.FetchEscapes
import RerollSync.Control.Client
import RerollSync.Control.Exchange
import RerollSync.Catalog.Prepared
import RerollSync.Monitor.Scrape
import RerollSync.Daemon.OrderlyShutdown
