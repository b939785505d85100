import InfraPlatform.ControlPlane.Placement
import InfraPlatform.ControlPlane.Replicas
import InfraPlatform.ControlPlane.Capacity
import InfraPlatform.ControlPlane.Overcommit
import InfraPlatform.ControlPlane.Leak
import InfraPlatform.ControlPlane.Fencing
import InfraPlatform.ControlPlane.RetryDecision
import InfraPlatform.ControlPlane.Lifecycle
import InfraPlatform.ControlPlane.Serial
import InfraPlatform.ControlPlane.Passes
import InfraPlatform.ControlPlane.StartOnce
import InfraPlatform.ControlPlane.RetryBudget
import InfraPlatform.ControlPlane.Concurrency
import InfraPlatform.Orchestrator.Model
import InfraPlatform.Orchestrator.System
import InfraPlatform.Orchestrator.Ownership
import InfraPlatform.Orchestrator.Lifecycle
import InfraPlatform.Orchestrator.Cancel
import InfraPlatform.Lib.Ring
import InfraPlatform.Proxy.Model
import InfraPlatform.Proxy.Ring
import InfraPlatform.Proxy.Serve
import InfraPlatform.Proxy.Failover
import InfraPlatform.Lib.Bucket
import InfraPlatform.Lib.Json
import InfraPlatform.ControlPlane.Bolt
import InfraPlatform.Lib.Streak
import InfraPlatform.Proxy.Health
import InfraPlatform.Proxy.Discovery
import InfraPlatform.Orchestrator.Pool
import InfraPlatform.Orchestrator.Shutdown
import InfraPlatform.Orchestrator.Refusal
import InfraPlatform.ControlPlane.Cancellation
import InfraPlatform.ControlPlane.Drain
import InfraPlatform.ControlPlane.Orphans
import InfraPlatform.ControlPlane.Reports
import InfraPlatform.ControlPlane.Timestamps
import InfraPlatform.ControlPlane.Rejection
import InfraPlatform.Orchestrator.Backoff
import InfraPlatform.Orchestrator.Dispatch
import InfraPlatform.Orchestrator.Outcome
import InfraPlatform.Orchestrator.Timestamps
import InfraPlatform.Lib.Greedy
import InfraPlatform.ControlPlane.Scheduling
import InfraPlatform.ControlPlane.Recovery
import InfraPlatform.ControlPlane.Convergence
import InfraPlatform.Proxy.Balance
import InfraPlatform.ControlPlane.Services
import InfraPlatform.Proxy.Reuse
import InfraPlatform.ControlPlane.Labels
import InfraPlatform.Lib.Percent
import InfraPlatform.Proxy.Director
import InfraPlatform.Proxy.Retry
import InfraPlatform.ControlPlane.Execution
import InfraPlatform.Orchestrator.Priority
import InfraPlatform.ControlPlane.Slots
import InfraPlatform.Orchestrator.Errors
import InfraPlatform.Proxy.Gauge
import InfraPlatform.Proxy.Load
import InfraPlatform.ControlPlane.Loops
import InfraPlatform.Lib.Endless
import InfraPlatform.Orchestrator.Contexts
import InfraPlatform.Orchestrator.HardGate
import InfraPlatform.Orchestrator.Progress
import InfraPlatform.ControlPlane.Backends
import InfraPlatform.Platform.Discovery
import InfraPlatform.ControlPlane.BoltCalls
import InfraPlatform.ControlPlane.Durable
import InfraPlatform.Lib.Account
import InfraPlatform.Proxy.Accounting
import InfraPlatform.Orchestrator.Metrics
