import EdonPlatform.Lib.Run
import EdonPlatform.Lib.Fallible
import EdonPlatform.Lib.Dict
import EdonPlatform.Lib.Table
import EdonPlatform.Lib.Base64
import EdonPlatform.Common.Json
import EdonPlatform.Common.CanonicalJson
import EdonPlatform.Common.Python
import EdonPlatform.Common.JsValue
import EdonPlatform.World.Mutations
import EdonPlatform.World.Store
import EdonPlatform.World.Transactions
import EdonPlatform.World.Integrity
import EdonPlatform.World.Verification
import EdonPlatform.World.Messages
import EdonPlatform.World.Floating
import EdonPlatform.World.Restorability
import EdonPlatform.Outbox.Store
import EdonPlatform.Kernel.Tokens
import EdonPlatform.Kernel.Parsing
import EdonPlatform.Kernel.Commit
import EdonPlatform.Outbox.Protocol
import EdonPlatform.Outbox.DueTime
import EdonPlatform.Operations.State
import EdonPlatform.Operations.Planning
import EdonPlatform.Operations.Control
import EdonPlatform.Operations.Ledger
import EdonPlatform.Operations.Effects
import EdonPlatform.Operations.Goals
import EdonPlatform.Operations.Resources
import EdonPlatform.Operations.Runs
import EdonPlatform.Operations.Progress
import EdonPlatform.Operations.LivePlans
import EdonPlatform.Operations.Supersession
import EdonPlatform.Operations.Registers
import EdonPlatform.Operations.Saga
import EdonPlatform.Operations.Mirroring
import EdonPlatform.Operations.Concurrency
import EdonPlatform.Operations.Scheduling
import EdonPlatform.Operations.Document
import EdonPlatform.Cerebrum.Adapter
import EdonPlatform.Platform.Outbox
import EdonPlatform.Platform.Worker
import EdonPlatform.Platform.Signing
import EdonPlatform.Lib.Sorting
import EdonPlatform.Lib.Precedence
import EdonPlatform.Lib.Register
import EdonPlatform.Memory.Store
import EdonPlatform.Memory.Noninterference
import EdonPlatform.Memory.Recording
import EdonPlatform.Memory.Concurrency
import EdonPlatform.Platform.Events
import EdonPlatform.Platform.Repositories
import EdonPlatform.Platform.Server
import EdonPlatform.Platform.Agreement
import EdonPlatform.Platform.Review
import EdonPlatform.Platform.Release
import EdonPlatform.Platform.Transitions
import EdonPlatform.Platform.Executions
import EdonPlatform.Platform.Reconstruction
import EdonPlatform.Platform.TimeGate
import EdonPlatform.Platform.Idempotency
import EdonPlatform.ActionNet.Store
import EdonPlatform.Lib.Interleaving
import EdonPlatform.Lib.HashChain
import EdonPlatform.Lib.Representation
import EdonPlatform.Lib.Doubles
import EdonPlatform.Registry.Store
import EdonPlatform.Registry.Invariant
import EdonPlatform.Registry.Concurrency
import EdonPlatform.Supervisor.Cycle
import EdonPlatform.Platform.Compiler
import EdonPlatform.Platform.CompiledOnce
import EdonPlatform.Platform.CurrentCandidate
import EdonPlatform.Platform.Mediation
import EdonPlatform.Platform.CompleteMediation
import EdonPlatform.Platform.FacilityScope
import EdonPlatform.Platform.RepositoryCalls
import EdonPlatform.Platform.RepositoryAgreement
import EdonPlatform.Common.PyValue
import EdonPlatform.Common.KeyScan
import EdonPlatform.Gateway.Payload
import EdonPlatform.Gateway.Models
import EdonPlatform.Gateway.Protocols
import EdonPlatform.Gateway.Store
import EdonPlatform.Gateway.Gating
import EdonPlatform.ActionNet.GlobalExperience
import EdonPlatform.Optimization.Adapter
import EdonPlatform.Optimization.Completeness
import EdonPlatform.Provenance.Graph
import EdonPlatform.Cerebrum.Operations
import EdonPlatform.Cerebrum.TimeGate
import EdonPlatform.KeyFirewall
import EdonPlatform.Federation.Store
import EdonPlatform.Federation.Hierarchy
import EdonPlatform.Federation.Escalation
import EdonPlatform.Federation.Aggregation
import EdonPlatform.Federation.Routing
import EdonPlatform.ActionNet.ModelVersions
import EdonPlatform.Lib.Grouping
import EdonPlatform.Compiler.Reconciliation
import EdonPlatform.Compiler.Candidates
import EdonPlatform.Operations.Dispatch
import EdonPlatform.Operations.Records
import EdonPlatform.Operations.Readiness
import EdonPlatform.Operations.Cancellation
import EdonPlatform.Operations.AgentStatus
import EdonPlatform.Operations.Proposals
import EdonPlatform.World.Replay
import EdonPlatform.Kernel.Verification
import EdonPlatform.Kernel.Consistency
import EdonPlatform.Kernel.Retry
import EdonPlatform.Platform.Replay
import EdonPlatform.Platform.Submission
import EdonPlatform.Platform.EffectiveDecision
import EdonPlatform.Platform.TransitionLog
import EdonPlatform.Platform.Oidc
import EdonPlatform.Platform.Canonicalize
import EdonPlatform.Platform.ReceiptService
import EdonPlatform.Platform.Custody
import EdonPlatform.Platform.Delivery
import EdonPlatform.Cerebrum.Comparisons
import EdonPlatform.Operations.Topology
import EdonPlatform.Evaluation.Reference
import EdonPlatform.Institutional.CanonicalForm
import EdonPlatform.Institutional.Counterfactuals
import EdonPlatform.Compiler.Permutation
import EdonPlatform.Runtime.Agreement
import EdonPlatform.Qualification.Agreement
import EdonPlatform.ActionNet.Experiences
import EdonPlatform.ActionNet.StoreInvariants
