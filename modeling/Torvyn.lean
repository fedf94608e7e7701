import Torvyn.Cli.Trace
import Torvyn.Contracts.ByteSize
import Torvyn.Contracts.Compatibility
import Torvyn.Contracts.Diagnostics
import Torvyn.Contracts.Linker
import Torvyn.Contracts.Package
import Torvyn.Contracts.Releases
import Torvyn.Contracts.Soundness
import Torvyn.Contracts.Validator
import Torvyn.Data.Batches
import Torvyn.Data.BitMix
import Torvyn.Data.Disk
import Torvyn.Data.Exclusive
import Torvyn.Data.FaultyFiles
import Torvyn.Data.FileTree
import Torvyn.Data.FreeList
import Torvyn.Data.Groups
import Torvyn.Data.GuardedRun
import Torvyn.Data.Heap
import Torvyn.Data.Hex
import Torvyn.Data.Json
import Torvyn.Data.JsonText
import Torvyn.Data.KeyMap
import Torvyn.Data.Levenshtein
import Torvyn.Data.LexicalPath
import Torvyn.Data.Paths
import Torvyn.Data.Ranks
import Torvyn.Data.ReverseIndex
import Torvyn.Data.RingBuffer
import Torvyn.Data.Utf8
import Torvyn.Engine.Accounts
import Torvyn.Engine.Cache
import Torvyn.Engine.Claims
import Torvyn.Engine.HostState
import Torvyn.Engine.HostedFlow
import Torvyn.Engine.Invoker
import Torvyn.Engine.Stores
import Torvyn.Engine.WasiContext
import Torvyn.Engine.Wrappers
import Torvyn.Graph.Acyclic
import Torvyn.Graph.Adjacency
import Torvyn.Graph.CycleSearch
import Torvyn.Graph.CycleStart
import Torvyn.Graph.Dataflow
import Torvyn.Graph.Kahn
import Torvyn.Graph.Paths
import Torvyn.Graph.Search
import Torvyn.Host.Flows
import Torvyn.Host.Run
import Torvyn.Linker.BuilderAgreement
import Torvyn.Linker.Exactness
import Torvyn.Linker.HostNames
import Torvyn.Linker.Link
import Torvyn.Linker.Providers
import Torvyn.Linker.Resolver
import Torvyn.Linker.Roles
import Torvyn.Linker.Topology
import Torvyn.Observability.Collector
import Torvyn.Observability.CompletionStats
import Torvyn.Observability.ConcurrentHistogram
import Torvyn.Observability.Delta
import Torvyn.Observability.Events
import Torvyn.Observability.Registry
import Torvyn.Observability.SpanWindow
import Torvyn.Observability.Tracer
import Torvyn.Packaging.Artifact
import Torvyn.Packaging.Cache
import Torvyn.Packaging.CacheRuns
import Torvyn.Packaging.Containment
import Torvyn.Packaging.Extraction
import Torvyn.Packaging.Pack
import Torvyn.Packaging.Provenance
import Torvyn.Packaging.Reference
import Torvyn.Packaging.Resolution
import Torvyn.Packaging.RoundTrip
import Torvyn.Pipeline.Builder
import Torvyn.Pipeline.Check
import Torvyn.Pipeline.Convert
import Torvyn.Pipeline.CycleReport
import Torvyn.Pipeline.Instantiate
import Torvyn.Pipeline.Isolation
import Torvyn.Pipeline.KnownKeys
import Torvyn.Pipeline.Lifecycle
import Torvyn.Pipeline.LoadConfig
import Torvyn.Pipeline.Manifest
import Torvyn.Pipeline.Residue
import Torvyn.Pipeline.Rollback
import Torvyn.Pipeline.Shutdown
import Torvyn.Pipeline.Topology
import Torvyn.Reactor.Agreement
import Torvyn.Reactor.Buffering
import Torvyn.Reactor.Cancelled
import Torvyn.Reactor.Channels
import Torvyn.Reactor.Coordinator
import Torvyn.Reactor.Credit
import Torvyn.Reactor.Dataflow
import Torvyn.Reactor.Deadline
import Torvyn.Reactor.Delivery
import Torvyn.Reactor.Drain
import Torvyn.Reactor.Driver
import Torvyn.Reactor.Drivers
import Torvyn.Reactor.Execution
import Torvyn.Reactor.Fairness
import Torvyn.Reactor.FanIn
import Torvyn.Reactor.Fatal
import Torvyn.Reactor.Flow
import Torvyn.Reactor.Hysteresis
import Torvyn.Reactor.Independence
import Torvyn.Reactor.Invariant
import Torvyn.Reactor.Linear
import Torvyn.Reactor.LinearRun
import Torvyn.Reactor.Loss
import Torvyn.Reactor.Metrics
import Torvyn.Reactor.Pause
import Torvyn.Reactor.Policy
import Torvyn.Reactor.Provenance
import Torvyn.Reactor.Queries
import Torvyn.Reactor.Queue
import Torvyn.Reactor.QueueRefinement
import Torvyn.Reactor.Queued
import Torvyn.Reactor.Readiness
import Torvyn.Reactor.Record
import Torvyn.Reactor.Retention
import Torvyn.Reactor.Run
import Torvyn.Reactor.Scheduling
import Torvyn.Reactor.Spawning
import Torvyn.Reactor.Stall
import Torvyn.Reactor.Stream
import Torvyn.Reactor.Tasks
import Torvyn.Reactor.Termination
import Torvyn.Reactor.Topology
import Torvyn.Reactor.WellFormed
import Torvyn.Reactor.Work
import Torvyn.Reactor.Yielding
import Torvyn.Resources.Accounting
import Torvyn.Resources.Atomicity
import Torvyn.Resources.BorrowState
import Torvyn.Resources.Bounds
import Torvyn.Resources.Budget
import Torvyn.Resources.BudgetBound
import Torvyn.Resources.BufferStore
import Torvyn.Resources.Conservation
import Torvyn.Resources.ContentType
import Torvyn.Resources.Custody
import Torvyn.Resources.Effects
import Torvyn.Resources.FreeStack
import Torvyn.Resources.Handle
import Torvyn.Resources.Indices
import Torvyn.Resources.Isolation
import Torvyn.Resources.LedgerExact
import Torvyn.Resources.Manager
import Torvyn.Resources.Ownership
import Torvyn.Resources.Payload
import Torvyn.Resources.Pool
import Torvyn.Resources.Reclaim
import Torvyn.Resources.Slab
import Torvyn.Resources.Table
import Torvyn.Resources.Terminal
import Torvyn.Security.Amplification
import Torvyn.Security.AuditLog
import Torvyn.Security.Capability
import Torvyn.Security.CapabilityText
import Torvyn.Security.HotPath
import Torvyn.Security.NetContainment
import Torvyn.Security.PathContainment
import Torvyn.Security.Preopens
import Torvyn.Security.Resolver
import Torvyn.Security.Sandbox
import Torvyn.Security.ScopeText
import Torvyn.Text
import Torvyn.Types
