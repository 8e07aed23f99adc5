import GoSync.Event
import GoSync.Lib.Bucket
import GoSync.Lib.Plan
import GoSync.Capture.Batch
import GoSync.Capture.Catalog
import GoSync.Lib.GroupFifo
import GoSync.Queue.Fifo
import GoSync.Queue.Invariant
import GoSync.Queue.Store
import GoSync.Queue.Traced
import GoSync.Capture.Decode
import GoSync.Capture.Collector
import GoSync.Capture.Backlog
import GoSync.Capture.Grammar
import GoSync.Capture.Plans
import GoSync.Capture.Attempts
import GoSync.Encoding
import GoSync.Lib.Paging
import GoSync.Server.ColumnType
import GoSync.Server.Config
import GoSync.Server.Store
import GoSync.Server.Target
import GoSync.Lib.Outcome
import GoSync.Server.Frame
import GoSync.Server.ExactlyOnce
import GoSync.Capture.Replay
import GoSync.Server.Application
import GoSync.Server.Replica
import GoSync.Server.InOrder
import GoSync.Replication.Acceptance
import GoSync.Replication.Sequence
import GoSync.Lib.Run
import GoSync.Server.Applied
import GoSync.Server.Contents
import GoSync.Server.Snapshot
import GoSync.Server.MissingColumn
import GoSync.Server.RowChange
import GoSync.Replication.Mirror
import GoSync.Producer.Batch
import GoSync.SqlServer.Rows
import GoSync.Producer.Process
import GoSync.SqlServer.Collector
import GoSync.SqlServer.Polling
import GoSync.SqlServer.Commits
import GoSync.SqlServerLegacy.Rows
import GoSync.SqlServerLegacy.Collector
import GoSync.SqlServerLegacy.Draining
import GoSync.SqlServerLegacy.Statements
import GoSync.MySql.Rows
import GoSync.MySql.Collector
import GoSync.Lib.SlashPath
import GoSync.ServerConfig.Config
import GoSync.ServerConfig.Accepted
import GoSync.ServerConfig.TargetOverlap
import GoSync.FileStore.Names
import GoSync.ServerConfig.Storage
import GoSync.Reload.Service
import GoSync.Reload.Leaks
import GoSync.FileStore.Directory
import GoSync.FileWatch.Changes
import GoSync.FileWatch.Mirror
import GoSync.App.Controller
import GoSync.App.Exclusive
import GoSync.Delivery.Sender
import GoSync.Server.Session
import GoSync.App.Scan
import GoSync.Reconciliation.Handshake
import GoSync.Delivery.Http
import GoSync.Delivery.Ordered
import GoSync.Server.FileEvents
import GoSync.Server.FileTracking
import GoSync.FileWatch.Collector
import GoSync.FileWatch.Convergence
import GoSync.Lib.Sha256
import GoSync.MySql.Values
import GoSync.Reconcile.Digest
import GoSync.Reconcile.Injective
import GoSync.Reconcile.Multiset
import GoSync.Reconcile.Texts
import GoSync.Reconcile.Scan
import GoSync.Reconcile.Dialect
import GoSync.Reconcile.Drift
import GoSync.FileWatch.RoundTrip
import GoSync.Server.Statements
import GoSync.Replication.FileColumns
import GoSync.Server.Publication
import GoSync.Replication.SnapshotOrder
import GoSync.Capture.Filter
import GoSync.MySql.Checkpoints
import GoSync.Lib.Chunking
import GoSync.Producer.Chunks
import GoSync.Server.Paged
import GoSync.Queue.Eviction
import GoSync.App.Fingerprint
import GoSync.Lib.SqlText
import GoSync.Server.Activation
import GoSync.Server.Narrowing
import GoSync.Server.Sql
import GoSync.Server.Generations
import GoSync.Reconciliation.Repairs
import GoSync.MySql.Streaming
