import FlowFabric.Atomicity
import FlowFabric.Buffering
import FlowFabric.Capability
import FlowFabric.Cascade
import FlowFabric.CircuitBreaker
import FlowFabric.ClaimScan
import FlowFabric.Cleanup
import FlowFabric.Closing
import FlowFabric.ConcurrencyCap
import FlowFabric.Described
import FlowFabric.Early
import FlowFabric.EligibleOrder
import FlowFabric.ExecutionIds
import FlowFabric.FlowSnapshot
import FlowFabric.Growing
import FlowFabric.HexDecoding
import FlowFabric.Idempotency
import FlowFabric.Lanes
import FlowFabric.ListSuspended
import FlowFabric.Missed
import FlowFabric.Overshoot
import FlowFabric.Postgres.BudgetGate
import FlowFabric.Postgres.CancelFlow
import FlowFabric.Postgres.Capabilities
import FlowFabric.Postgres.DependencyGate
import FlowFabric.Postgres.DueTime
import FlowFabric.Postgres.EdgeVerdict
import FlowFabric.Postgres.KeyCustody
import FlowFabric.Postgres.Reading
import FlowFabric.Postgres.Repair
import FlowFabric.Postgres.RetryBound
import FlowFabric.Postgres.SkippedReplay
import FlowFabric.Postgres.StaleSuspension
import FlowFabric.Postgres.StreamTail
import FlowFabric.Postgres.SuspendDedup
import FlowFabric.Projector
import FlowFabric.Purge
import FlowFabric.RateWindow
import FlowFabric.Renewal
import FlowFabric.RetryPolicy
import FlowFabric.Rotation
import FlowFabric.Satisfiable
import FlowFabric.SiblingCancel
