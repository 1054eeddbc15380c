import ZkRuntime.Bench.Barrier
import ZkRuntime.Bench.Chronology
import ZkRuntime.Bench.Collector
import ZkRuntime.Bench.EventOrder
import ZkRuntime.Bench.FrameTransport
import ZkRuntime.Bench.Helpers.Accepted
import ZkRuntime.Bench.Helpers.BarrierOrder
import ZkRuntime.Bench.Helpers.BarrierPlaces
import ZkRuntime.Bench.Helpers.BarrierSteps
import ZkRuntime.Bench.Helpers.CleanPath
import ZkRuntime.Bench.Helpers.Collecting
import ZkRuntime.Bench.Helpers.Decision
import ZkRuntime.Bench.Helpers.Exchange
import ZkRuntime.Bench.Helpers.Findings
import ZkRuntime.Bench.Helpers.Folding
import ZkRuntime.Bench.Helpers.Rows
import ZkRuntime.Bench.Helpers.Summary
import ZkRuntime.Bench.Honesty
import ZkRuntime.Bench.Model.Barrier
import ZkRuntime.Bench.Model.Collect
import ZkRuntime.Bench.Model.Events
import ZkRuntime.Bench.Model.GroupAudit
import ZkRuntime.Bench.Model.GroupRss
import ZkRuntime.Bench.Model.Link
import ZkRuntime.Bench.Model.ResourcePolicy
import ZkRuntime.Bench.Model.RunCheck
import ZkRuntime.Bench.Model.Stream
import ZkRuntime.Bench.Observation
import ZkRuntime.Bench.Recording
import ZkRuntime.Bench.Replay
import ZkRuntime.Common.Base64
import ZkRuntime.Common.Bytes
import ZkRuntime.Common.Count
import ZkRuntime.Common.Decimal
import ZkRuntime.Common.Fair
import ZkRuntime.Common.JsonPlain
import ZkRuntime.Common.JsonRoom
import ZkRuntime.Common.JsonRoundTrip
import ZkRuntime.Common.JsonString
import ZkRuntime.Common.JsonText
import ZkRuntime.Common.JsonToken
import ZkRuntime.Common.JsonValue
import ZkRuntime.Common.Quote
import ZkRuntime.Common.Refusal
import ZkRuntime.Common.Run
import ZkRuntime.Common.Sha256
import ZkRuntime.Common.Sync
import ZkRuntime.Common.Table
import ZkRuntime.Common.TextCodec
import ZkRuntime.Common.Unquote
import ZkRuntime.Common.Utf8
import ZkRuntime.Coordinator.Accounting
import ZkRuntime.Coordinator.Binding
import ZkRuntime.Coordinator.Canonical
import ZkRuntime.Coordinator.Cooldown
import ZkRuntime.Coordinator.Dialing
import ZkRuntime.Coordinator.Disabled
import ZkRuntime.Coordinator.Durability
import ZkRuntime.Coordinator.Fencing
import ZkRuntime.Coordinator.Finalization
import ZkRuntime.Coordinator.Fingerprints
import ZkRuntime.Coordinator.Generations
import ZkRuntime.Coordinator.Helpers.Attending
import ZkRuntime.Coordinator.Helpers.History
import ZkRuntime.Coordinator.Helpers.Joining
import ZkRuntime.Coordinator.Helpers.Lookup
import ZkRuntime.Coordinator.Helpers.Moves
import ZkRuntime.Coordinator.Helpers.Ownership
import ZkRuntime.Coordinator.Helpers.Pass
import ZkRuntime.Coordinator.Helpers.Process
import ZkRuntime.Coordinator.Helpers.Retrying
import ZkRuntime.Coordinator.Helpers.Rounds
import ZkRuntime.Coordinator.Helpers.Schedule
import ZkRuntime.Coordinator.Helpers.Settling
import ZkRuntime.Coordinator.Helpers.Spec
import ZkRuntime.Coordinator.Helpers.Steps
import ZkRuntime.Coordinator.Helpers.StoreLaw
import ZkRuntime.Coordinator.Helpers.Tally
import ZkRuntime.Coordinator.Helpers.Tracking
import ZkRuntime.Coordinator.Model.Fingerprint
import ZkRuntime.Coordinator.Model.Job
import ZkRuntime.Coordinator.Model.Process
import ZkRuntime.Coordinator.Model.Registry
import ZkRuntime.Coordinator.Model.Schedule
import ZkRuntime.Coordinator.Model.Scheduler
import ZkRuntime.Coordinator.Model.Session
import ZkRuntime.Coordinator.Model.State
import ZkRuntime.Coordinator.Model.System
import ZkRuntime.Coordinator.Model.Transport
import ZkRuntime.Coordinator.Model.WorkerCalls
import ZkRuntime.Coordinator.Model.Workers
import ZkRuntime.Coordinator.RoundRobin
import ZkRuntime.Coordinator.Scheduling
import ZkRuntime.Coordinator.Shutdown
import ZkRuntime.Coordinator.Startup
import ZkRuntime.Coordinator.Transitions
import ZkRuntime.Coordinator.Verification
import ZkRuntime.Coordinator.WorkerEvents
import ZkRuntime.Executor.Delivery
import ZkRuntime.Executor.ForcedShutdown
import ZkRuntime.Executor.Helpers.Places
import ZkRuntime.Executor.Helpers.Progress
import ZkRuntime.Executor.Helpers.Stages
import ZkRuntime.Executor.Helpers.Steps
import ZkRuntime.Executor.Model.Executor
import ZkRuntime.Lifecycle.Admission
import ZkRuntime.Lifecycle.Model.Gate
import ZkRuntime.RpcAuth.Endpoints
import ZkRuntime.RpcAuth.Helpers.Addresses
import ZkRuntime.RpcAuth.Helpers.HostPort
import ZkRuntime.RpcAuth.Model.Credentials
import ZkRuntime.RpcAuth.Model.Endpoint
import ZkRuntime.RpcAuth.Model.Identity
import ZkRuntime.RpcAuth.Model.NetIp
import ZkRuntime.RpcAuth.Model.Policy
import ZkRuntime.RpcAuth.Model.Url
import ZkRuntime.RpcAuth.RoundTrip
import ZkRuntime.Worker.Agreement
import ZkRuntime.Worker.Model.Proving
import ZkRuntime.Worker.Model.Service
import ZkRuntime.Worker.Model.Task
import ZkRuntime.Worker.Proving
import ZkRuntime.Zk.Grammar
import ZkRuntime.Zk.Helpers.Escapes
import ZkRuntime.Zk.Model.Payload
import ZkRuntime.Zk.Payload
import ZkRuntime.Zk.Surrogates
