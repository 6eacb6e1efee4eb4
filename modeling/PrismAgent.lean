import PrismAgent.Concurrent.Sprints
import PrismAgent.Planning.Keys
import PrismAgent.State.Identities
import PrismAgent.Text.Joined
import PrismAgent.Orchestration.Nodes
import PrismAgent.Provisioning.RunIds
import PrismAgent.ColdStart.SubPlans
import PrismAgent.Concurrent.Synthesis
import PrismAgent.Concurrent.Deliveries
import PrismAgent.Chain.Running
import PrismAgent.Chain.Trail
import PrismAgent.Provisioning.Start
import PrismAgent.Provisioning.Retry
import PrismAgent.Provisioning.Worker
import PrismAgent.Application.AgentRuns
import PrismAgent.RunIdentity.Runs
import PrismAgent.RunIdentity.Identity
import PrismAgent.RunIdentity.Handlers
import PrismAgent.RunIdentity.Lineage
import PrismAgent.Handler.Emits
import PrismAgent.Tenancy.Workspaces
import PrismAgent.Staleness.Versions
import PrismAgent.Planning.Lossless
import PrismAgent.Planning.Agent
import PrismAgent.Capabilities.WorkitemTools
import PrismAgent.State.RoundTrip
import PrismAgent.Handler.Resume
import PrismAgent.Recovery.Recovers
import PrismAgent.Recovery.Branches
import PrismAgent.Recovery.Saves
import PrismAgent.Recovery.Redelivery
import PrismAgent.Effect.Faults
import PrismAgent.Sequential.Runs
import PrismAgent.Sequential.Invariant
import PrismAgent.Sequential.Entry
import PrismAgent.Sequential.Order
import PrismAgent.Safety.Execution
import PrismAgent.Safety.Planning
import PrismAgent.Application.RecursionRunner
import PrismAgent.Application.Writes
import PrismAgent.Handler.Chained
import PrismAgent.Handler.Entry
import PrismAgent.Join.Absorbing
import PrismAgent.Join.Completions
import PrismAgent.Application.Frame
import PrismAgent.Application.SubAgentCoordinator
import PrismAgent.Application.DomainEventHandler
import PrismAgent.Application.ActionEventHandler
import PrismAgent.Application.Planner
import PrismAgent.Application.Runtime
import PrismAgent.State.PrismApi
import PrismAgent.State.Store
import PrismAgent.Registries.Definitions
import PrismAgent.Domain.Results
import PrismAgent.Domain.Events
import PrismAgent.Domain.Plans
import PrismAgent.Domain.Json
import PrismAgent.Join.FaultFreeJoin
import PrismAgent.Effect.WeakestPrecondition
import PrismAgent.Hydration.Stability
import PrismAgent.Cascade.Finite
import PrismAgent.Backlog.Protection
import PrismAgent.Backlog.TreeCreation
import PrismAgent.Runner.Drains
import PrismAgent.Join.Outputs
import PrismAgent.Planning.Defects
import PrismAgent.Backlog.Whitelist
import PrismAgent.Backlog.Signals
import PrismAgent.Chain.Skips
import PrismAgent.Backlog.Critic
import PrismAgent.Planning.Generation
import PrismAgent.Join.Unknown
import PrismAgent.Hydration.PullRequests
import PrismAgent.Backlog.RollUp
import PrismAgent.Backlog.Repeats
import PrismAgent.Backlog.Calendar
import PrismAgent.Planning.Materialized
import PrismAgent.Backlog.Resolver
import PrismAgent.Backlog.Unresolved
import PrismAgent.Backlog.Normalized
import PrismAgent.State.Refines
import PrismAgent.Delivery.Runs
import PrismAgent.Wire.Delivered
import PrismAgent.State.HandedOut
import PrismAgent.Listing.Runs
