import TimedCache.Assembly
import TimedCache.Deployment.Concurrent
import TimedCache.ManagementApi.Server
import TimedCache.ResponseCache.Layer
import TimedCache.Proofs.Glob.Token
import TimedCache.Proofs.Glob.Reading
import TimedCache.Proofs.Glob.Escape
import TimedCache.Proofs.Run
import TimedCache.Proofs.Table
import TimedCache.Proofs.TtlMap
import TimedCache.Proofs.Store.Live
import TimedCache.Proofs.Store.Refinement
import TimedCache.Proofs.Remote.Conversation
import TimedCache.Proofs.Remote.Server
import TimedCache.Proofs.Remote.Site
import TimedCache.Proofs.Remote.Step
import TimedCache.Proofs.Remote.Interchange
import TimedCache.Proofs.Remote.Traffic
import TimedCache.Proofs.Remote.Namespace
import TimedCache.Proofs.ResponseCache.Fingerprint
import TimedCache.Proofs.Store.Ledger
import TimedCache.Proofs.Base64
import TimedCache.Proofs.Text.Percent
import TimedCache.Proofs.Text.Blank
import TimedCache.Proofs.Json.Strings
import TimedCache.Proofs.Json.Numbers
import TimedCache.Proofs.Json.Documents
import TimedCache.Proofs.Json.Values
import TimedCache.Proofs.ResponseCache.Snapshot
import TimedCache.Proofs.Deployment.Backend
import TimedCache.Proofs.Deployment.Crowd
import TimedCache.Proofs.ReadThrough
import TimedCache.Proofs.Attempt
import TimedCache.Proofs.EntityCache
import TimedCache.Proofs.ResponseCache.Hit
import TimedCache.Proofs.ResponseCache.Exclusion
import TimedCache.Proofs.ResponseCache.Bypass
import TimedCache.Proofs.ResponseCache.Service
import TimedCache.Proofs.Lifetime
import TimedCache.Proofs.Store.Interference
import TimedCache.Proofs.Store.Failure
import TimedCache.Proofs.Store.Lock
import TimedCache.Proofs.Store.Frame
import TimedCache.Proofs.Store.Counter
import TimedCache.Proofs.Store.Invalidation
import TimedCache.Proofs.ContextTree
import TimedCache.Proofs.Deployment.Interlude
import TimedCache.Proofs.Deployment.Sweeping
import TimedCache.Proofs.Deployment.Refusal
import TimedCache.Proofs.DocumentRoundTrip
import TimedCache.Proofs.ManagementApi.Acceptance
import TimedCache.Proofs.ManagementApi.History
import TimedCache.Proofs.ManagementApi.Faithful
import TimedCache.Proofs.ManagementApi.Reachable
import TimedCache.Proofs.Registry
import TimedCache.Proofs.Deployment.KeyLog
import TimedCache.Proofs.Deployment.Beside
import TimedCache.Proofs.HealthProbes
import TimedCache.Proofs.DomainKey
import TimedCache.Proofs.Deployment.Alone
import TimedCache.Proofs.BulkWork
import TimedCache.Proofs.Chain
import TimedCache.Proofs.EntityCache.Exactness
import TimedCache.Proofs.Store.Batch
import TimedCache.Proofs.Store.OwnWrite
import TimedCache.Proofs.Remote.Purge
import TimedCache.Proofs.DocumentHealing
import TimedCache.Proofs.Glob.Bounds
import TimedCache.Proofs.Remote.Removals
import TimedCache.Proofs.Remote.Repetition
import TimedCache.Proofs.ResponseCache.AfterWrite
