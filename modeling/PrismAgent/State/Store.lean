import PrismAgent.Domain.AgentRun
import Mathlib.Logic.Function.Basic

/-!
# State stores

The operations of `infrastructure/state/base.py` as a class, each an atomic
function of the store's state. A read also returns the state after it, because
the API-backed store restores records while it reads.

The world outside a store is `StateApi`: the run state that the durable
transport or the API returns for the payloads put so far, and the hash behind
name-based ids.
-/

namespace PrismAgent

/-- A state record as it is persisted; the constructors are the record kinds. -/
inductive StateRecord
  | plan (plan : AgentPlan)
  | contextSnapshot (snapshot : ContextSnapshot)
  | actionResult (result : ToolResult)
  | taskGraph (graph : TaskGraph)
  | subAgentResult (runId : String) (result : SubAgentResult)
  | idempotencyKey (key : String)

/-- A payload put under a workspace and a run. -/
structure StoredMemory where
  workspaceId : String
  runId : String
  memoryId : String
  record : StateRecord

/-- What `fetch_run_state` returns: the decoded records, the API's action records
and the status of the run. -/
structure RunState where
  memories : List StateRecord := []
  actions : List ActionRecord := []
  runStatus : Option String := none

structure StateApi where
  fetchRunState : List StoredMemory → String → String → RunState
  uuid5 : String → String

class StateStore (σ : Type) where
  savePlan : StateApi → AgentPlan → σ → σ
  getPlan : StateApi → String → String → σ → Option AgentPlan × σ
  saveTaskGraph : StateApi → TaskGraph → σ → σ
  getTaskGraph : StateApi → String → String → σ → Option TaskGraph × σ
  saveSubAgentResult : StateApi → String → String → SubAgentResult → σ → σ
  getSubAgentResults : StateApi → String → String → σ → List SubAgentResult × σ
  claimReadyNodes : StateApi → String → String → σ → List SubTask × σ
  advanceTaskGraph :
    StateApi → String → String → String → SubTaskStatus → σ → Option TaskGraphAdvance × σ
  updatePlan : StateApi → AgentPlan → σ → σ
  saveContextSnapshot : StateApi → ContextSnapshot → σ → σ
  getContextSnapshot : StateApi → String → String → σ → Option ContextSnapshot × σ
  saveActionResult : StateApi → ToolResult → σ → σ
  getActionResult : StateApi → String → String → σ → Option ToolResult × σ
  appendTraceEvent : StateApi → TraceEvent → σ → σ
  checkIdempotencyKey : StateApi → String → σ → Bool × σ
  recordIdempotencyKey : StateApi → String → σ → σ

/-- The in-memory store; every table is keyed as in the source. -/
structure MemoryStateStore where
  plans : String × String → Option AgentPlan := fun _ => none
  taskGraphs : String × String → Option TaskGraph := fun _ => none
  subAgentResults : String × String → Dict String SubAgentResult := fun _ => []
  contextSnapshots : String × String → Option ContextSnapshot := fun _ => none
  actionResults : String × String → Option ToolResult := fun _ => none
  traces : List TraceEvent := []
  idempotencyKeys : Finset String := ∅

namespace MemoryStateStore

open Function (update)

variable (store : MemoryStateStore)

def savePlan (plan : AgentPlan) : MemoryStateStore :=
  { store with plans := update store.plans (plan.workspaceId, plan.planId) (some plan) }

def getPlan (workspaceId planId : String) : Option AgentPlan :=
  store.plans (workspaceId, planId)

def saveTaskGraph (graph : TaskGraph) : MemoryStateStore :=
  { store with
    taskGraphs := update store.taskGraphs (graph.workspaceId, graph.planId) (some graph) }

def getTaskGraph (workspaceId planId : String) : Option TaskGraph :=
  store.taskGraphs (workspaceId, planId)

def saveSubAgentResult (workspaceId runId : String) (result : SubAgentResult) :
    MemoryStateStore :=
  { store with
    subAgentResults := update store.subAgentResults (workspaceId, runId)
      (Dict.insert (store.subAgentResults (workspaceId, runId)) result.nodeId result) }

def getSubAgentResults (workspaceId runId : String) : List SubAgentResult :=
  Dict.values (store.subAgentResults (workspaceId, runId))

def claimReadyNodes (workspaceId runId : String) : List SubTask × MemoryStateStore :=
  match store.getTaskGraph workspaceId runId with
  | none => ([], store)
  | some graph => (graph.claimReady.2, store.saveTaskGraph graph.claimReady.1)

def advanceTaskGraph (workspaceId runId nodeId : String) (status : SubTaskStatus) :
    Option TaskGraphAdvance × MemoryStateStore :=
  match store.getTaskGraph workspaceId runId with
  | none => (none, store)
  | some graph =>
      (some (graph.planAdvance nodeId status),
        store.saveTaskGraph (graph.planAdvance nodeId status).graph)

def updatePlan (plan : AgentPlan) : MemoryStateStore := store.savePlan plan

def saveContextSnapshot (snapshot : ContextSnapshot) : MemoryStateStore :=
  { store with
    contextSnapshots := update store.contextSnapshots
      (snapshot.workspaceId, snapshot.snapshotId) (some snapshot) }

def getContextSnapshot (workspaceId snapshotRef : String) : Option ContextSnapshot :=
  store.contextSnapshots (workspaceId, snapshotRef)

def saveActionResult (result : ToolResult) : MemoryStateStore :=
  { store with
    actionResults := update store.actionResults (result.planId, result.actionId)
      (some result) }

def getActionResult (planId actionId : String) : Option ToolResult :=
  store.actionResults (planId, actionId)

def appendTraceEvent (traceEvent : TraceEvent) : MemoryStateStore :=
  { store with traces := store.traces ++ [traceEvent] }

def checkIdempotencyKey (key : String) : Bool := key ∈ store.idempotencyKeys

def recordIdempotencyKey (key : String) : MemoryStateStore :=
  { store with idempotencyKeys := insert key store.idempotencyKeys }

end MemoryStateStore

instance : StateStore MemoryStateStore where
  savePlan _ plan store := store.savePlan plan
  getPlan _ workspaceId planId store := (store.getPlan workspaceId planId, store)
  saveTaskGraph _ graph store := store.saveTaskGraph graph
  getTaskGraph _ workspaceId planId store := (store.getTaskGraph workspaceId planId, store)
  saveSubAgentResult _ workspaceId runId result store :=
    store.saveSubAgentResult workspaceId runId result
  getSubAgentResults _ workspaceId runId store :=
    (store.getSubAgentResults workspaceId runId, store)
  claimReadyNodes _ workspaceId runId store := store.claimReadyNodes workspaceId runId
  advanceTaskGraph _ workspaceId runId nodeId status store :=
    store.advanceTaskGraph workspaceId runId nodeId status
  updatePlan _ plan store := store.updatePlan plan
  saveContextSnapshot _ snapshot store := store.saveContextSnapshot snapshot
  getContextSnapshot _ workspaceId snapshotRef store :=
    (store.getContextSnapshot workspaceId snapshotRef, store)
  saveActionResult _ result store := store.saveActionResult result
  getActionResult _ planId actionId store := (store.getActionResult planId actionId, store)
  appendTraceEvent _ traceEvent store := store.appendTraceEvent traceEvent
  checkIdempotencyKey _ key store := (store.checkIdempotencyKey key, store)
  recordIdempotencyKey _ key store := store.recordIdempotencyKey key

end PrismAgent
