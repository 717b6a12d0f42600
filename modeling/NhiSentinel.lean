import NhiSentinel.Base.Value
import NhiSentinel.Base.Text
import NhiSentinel.Base.Rego
import NhiSentinel.Base.Redis
import NhiSentinel.Base.Observe
import NhiSentinel.Base.Python
import NhiSentinel.Base.DateTime
import NhiSentinel.Base.Calendar
import NhiSentinel.Base.Json
import NhiSentinel.Base.JsonAscii
import NhiSentinel.Base.JsonRead
import NhiSentinel.Base.HashChain
import NhiSentinel.Base.Program
import NhiSentinel.Base.Lockstep
import NhiSentinel.Base.Interleave
import NhiSentinel.Base.IndexedTable
import NhiSentinel.Base.Subscription
import NhiSentinel.Base.Register
import NhiSentinel.Base.Keyed
import NhiSentinel.Base.Words
import NhiSentinel.Base.Replace
import NhiSentinel.Base.Cedar
import NhiSentinel.Base.CedarText
import NhiSentinel.Base.Sql
import NhiSentinel.Base.Rounding
import NhiSentinel.Base.Tally
import NhiSentinel.Base.Calls
import NhiSentinel.Identity.ManifestSchema
import NhiSentinel.Identity.TokenManager
import NhiSentinel.Identity.Api
import NhiSentinel.Identity.Calls
import NhiSentinel.Identity.Atomicity
import NhiSentinel.Identity.Interleaving
import NhiSentinel.Identity.Provisioner
import NhiSentinel.Identity.KeyAgreement
import NhiSentinel.Identity.Revocation
import NhiSentinel.Identity.Roster
import NhiSentinel.Identity.Administration
import NhiSentinel.Identity.Realm
import NhiSentinel.Identity.Operations
import NhiSentinel.Identity.Lifecycle
import NhiSentinel.Identity.TokenLifetime
import NhiSentinel.Identity.Introspection
import NhiSentinel.Audit.Schema
import NhiSentinel.Audit.Producer
import NhiSentinel.Audit.Chain
import NhiSentinel.Audit.Api
import NhiSentinel.Audit.Verification
import NhiSentinel.Audit.Deployment
import NhiSentinel.Audit.Conservation
import NhiSentinel.Audit.Store
import NhiSentinel.Audit.Consumer
import NhiSentinel.Audit.Wire
import NhiSentinel.Audit.Pipeline
import NhiSentinel.Audit.Query
import NhiSentinel.Anomaly.Scorer
import NhiSentinel.Anomaly.Service
import NhiSentinel.Anomaly.Suspension
import NhiSentinel.Anomaly.Isolation
import NhiSentinel.Anomaly.Window
import NhiSentinel.Anomaly.Burst
import NhiSentinel.Anomaly.Counter
import NhiSentinel.Anomaly.Sidecar
import NhiSentinel.Anomaly.Baseline
import NhiSentinel.Anomaly.Stream
import NhiSentinel.Anomaly.Statistics
import NhiSentinel.Policy.Modules
import NhiSentinel.Policy.Main
import NhiSentinel.Policy.Decision
import NhiSentinel.Policy.Reason
import NhiSentinel.Policy.Scope
import NhiSentinel.Policy.Approval
import NhiSentinel.Policy.Authorization
import NhiSentinel.Policy.Resource
import NhiSentinel.Pep.Models
import NhiSentinel.Pep.Client
import NhiSentinel.Pep.Runs
import NhiSentinel.Pep.Mediation
import NhiSentinel.Pep.Outcome
import NhiSentinel.Pep.Wire
import NhiSentinel.Pep.RateLimit
import NhiSentinel.Pep.CedarEvaluator
import NhiSentinel.Pep.CedarUids
import NhiSentinel.Pep.ContextFlow
import NhiSentinel.Approval.Models
import NhiSentinel.Approval.Queue
import NhiSentinel.Approval.Handoff
import NhiSentinel.Approval.Record
import NhiSentinel.Approval.Ledger
import NhiSentinel.Approval.Refinement
import NhiSentinel.Approval.History
import NhiSentinel.Approval.Concurrent
import NhiSentinel.Approval.Race
import NhiSentinel.Approval.Expiry
import NhiSentinel.Approval.Points
import NhiSentinel.Approval.Listing
import NhiSentinel.Approval.Api
import NhiSentinel.Agents.ToolRegistry
import NhiSentinel.Agents.Agent
import NhiSentinel.Agents.Runs
import NhiSentinel.Agents.Trail
import NhiSentinel.Agents.Coverage
import NhiSentinel.Agents.Record
import NhiSentinel.Agents.Storage
import NhiSentinel.Agents.System
import NhiSentinel.Agents.Approvals
import NhiSentinel.Agents.Bindings
import NhiSentinel.Agents.S3Handlers
import NhiSentinel.Agents.TokenFlow
import NhiSentinel.Agents.Handlers
import NhiSentinel.Agents.Confinement
