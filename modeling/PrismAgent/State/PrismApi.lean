import PrismAgent.State.Store

/-!
# The API-backed state store

`infrastructure/state/prism_api_state_store.py`: a fallback store in front of a
durable transport. Writes go to the fallback and, when memories are persisted,
to the transport under a run id; reads first replay the run's records into the
fallback, and a plan is hydrated with the action and run statuses that the API
reports. An operation is one function here, also where the source fetches, computes
and puts a task graph without comparing: what is said of a store is said of operations
that do not overlap.
-/

namespace PrismAgent

structure PrismApiStateStore where
  fallbackStore : MemoryStateStore := {}
  persistAgentMemories : Bool := false
  /-- The payloads put into the transport so far, oldest first. -/
  memories : List StoredMemory := []
  idempotencyLocations : Dict String (String × String) := []

namespace PrismApiStateStore

variable (api : StateApi) (store : PrismApiStateStore)

/-- The store with another fallback. -/
def withFallback (fallback : MemoryStateStore) : PrismApiStateStore :=
  { store with fallbackStore := fallback }

def stateMemoryId (parts : List String) : String :=
  stableAgentRunUuid api.uuid5 ("state" :: parts)

def persistStateMemory (workspaceId memoryId runId : String) (record : StateRecord) :
    PrismApiStateStore :=
  if store.persistAgentMemories then
    { store with
      memories := store.memories ++
        [{ workspaceId := workspaceId, runId := runId, memoryId := memoryId
           record := record }] }
  else store

def persistPlan (plan : AgentPlan) : PrismApiStateStore :=
  store.persistStateMemory plan.workspaceId (stateMemoryId api [plan.planId, "plan"])
    plan.planId (.plan plan)

def persistTaskGraph (graph : TaskGraph) : PrismApiStateStore :=
  store.persistStateMemory graph.workspaceId (stateMemoryId api [graph.planId, "task_graph"])
    graph.planId (.taskGraph graph)

def persistSubAgentResult (workspaceId runId : String) (result : SubAgentResult) :
    PrismApiStateStore :=
  store.persistStateMemory workspaceId
    (stateMemoryId api [runId, result.nodeId, "sub_agent_result"]) runId
    (.subAgentResult runId result)

def persistContextSnapshot (snapshot : ContextSnapshot) : PrismApiStateStore :=
  match snapshot.planId with
  | none => store
  | some planId =>
      store.persistStateMemory snapshot.workspaceId
        (stateMemoryId api [planId, snapshot.snapshotId, "context"]) planId
        (.contextSnapshot snapshot)

/-- The plan a result belongs to, found through the locations of its keys. -/
def planForResult (result : ToolResult) : Option AgentPlan :=
  match (Dict.values store.idempotencyLocations).find? fun loc => loc.2 = result.planId with
  | some (workspaceId, runId) => store.fallbackStore.getPlan workspaceId runId
  | none => none

def persistActionResult (result : ToolResult) : PrismApiStateStore :=
  match store.planForResult result with
  | none => store
  | some plan =>
      store.persistStateMemory plan.workspaceId
        (stateMemoryId api [result.planId, result.actionId, "result"]) result.planId
        (.actionResult result)

def persistIdempotencyKey (workspaceId runId key : String) : PrismApiStateStore :=
  store.persistStateMemory workspaceId (stateMemoryId api ["idempotency", key]) runId
    (.idempotencyKey key)

def rememberPlanIdempotency (plan : AgentPlan) : PrismApiStateStore :=
  { store with
    idempotencyLocations := plan.actions.foldl
      (fun locations action =>
        Dict.insert locations action.idempotencyKey (plan.workspaceId, plan.planId))
      store.idempotencyLocations }

/-- Replay one record of run `runId`. -/
def loadRecord (workspaceId runId : String) (store : PrismApiStateStore) :
    StateRecord → PrismApiStateStore
  | .plan plan =>
      (store.withFallback (store.fallbackStore.savePlan plan)).rememberPlanIdempotency plan
  | .contextSnapshot snapshot =>
      store.withFallback (store.fallbackStore.saveContextSnapshot snapshot)
  | .actionResult result => store.withFallback (store.fallbackStore.saveActionResult result)
  | .taskGraph graph => store.withFallback (store.fallbackStore.saveTaskGraph graph)
  | .subAgentResult resultRunId result =>
      let target := if resultRunId = "" then runId else resultRunId
      store.withFallback (store.fallbackStore.saveSubAgentResult workspaceId target result)
  | .idempotencyKey key =>
      if key = "" then store
      else
        { store.withFallback (store.fallbackStore.recordIdempotencyKey key) with
          idempotencyLocations :=
            Dict.insert store.idempotencyLocations key (workspaceId, runId) }

def loadStateMemories (workspaceId runId : String) (state : RunState) : PrismApiStateStore :=
  state.memories.foldl (loadRecord workspaceId runId) store

def runState (workspaceId runId : String) : RunState :=
  api.fetchRunState store.memories workspaceId runId

def restoreRunState (workspaceId runId : String) : PrismApiStateStore :=
  store.loadStateMemories workspaceId runId (store.runState api workspaceId runId)

/-- The record of an action, by its own id or by its API id; a later record with
one id wins. -/
def recordFor (records : List ActionRecord) (action : PlannedAction) : Option ActionRecord :=
  let find := fun id => records.reverse.find? fun record => record.actionId = id
  (find action.actionId).or (find (actionApiId api.uuid5 action))

/-- Apply the API's action and run statuses to a plan. -/
def hydratePlanState (plan : AgentPlan) (state : RunState) : AgentPlan :=
  let hydrated := plan.actions.foldl
    (fun hydrated action =>
      match recordFor api state.actions action with
      | none => hydrated
      | some record =>
          let status := actionStatusFromRecord record action.status
          if status ≠ action.status then hydrated.replaceAction (action.withStatus status)
          else hydrated)
    plan
  let runStatus := planStatusFromRun state.runStatus hydrated.status
  if runStatus ≠ hydrated.status then { hydrated with status := runStatus } else hydrated

def savePlan (plan : AgentPlan) : PrismApiStateStore :=
  ((store.withFallback (store.fallbackStore.savePlan plan)).rememberPlanIdempotency
    plan).persistPlan api plan

def updatePlan (plan : AgentPlan) : PrismApiStateStore :=
  ((store.withFallback (store.fallbackStore.updatePlan plan)).rememberPlanIdempotency
    plan).persistPlan api plan

/-- Restore the run and hydrate its plan. The fallback keeps the hydrated plan,
which is the stored one when hydration changed nothing. -/
def getPlan (workspaceId planId : String) : Option AgentPlan × PrismApiStateStore :=
  let state := store.runState api workspaceId planId
  let restored := store.loadStateMemories workspaceId planId state
  match restored.fallbackStore.getPlan workspaceId planId with
  | none => (none, restored)
  | some plan =>
      let hydrated := hydratePlanState api plan state
      (some hydrated, restored.withFallback (restored.fallbackStore.updatePlan hydrated))

def saveTaskGraph (graph : TaskGraph) : PrismApiStateStore :=
  (store.withFallback (store.fallbackStore.saveTaskGraph graph)).persistTaskGraph api graph

def getTaskGraph (workspaceId planId : String) : Option TaskGraph × PrismApiStateStore :=
  let restored := store.restoreRunState api workspaceId planId
  (restored.fallbackStore.getTaskGraph workspaceId planId, restored)

def saveSubAgentResult (workspaceId runId : String) (result : SubAgentResult) :
    PrismApiStateStore :=
  (store.withFallback (store.fallbackStore.saveSubAgentResult workspaceId runId
    result)).persistSubAgentResult api workspaceId runId result

def getSubAgentResults (workspaceId runId : String) :
    List SubAgentResult × PrismApiStateStore :=
  let restored := store.restoreRunState api workspaceId runId
  (restored.fallbackStore.getSubAgentResults workspaceId runId, restored)

def claimReadyNodes (workspaceId runId : String) : List SubTask × PrismApiStateStore :=
  match store.getTaskGraph api workspaceId runId with
  | (none, restored) => ([], restored)
  | (some graph, restored) =>
      if graph.claimReady.2 ≠ [] then
        (graph.claimReady.2, restored.saveTaskGraph api graph.claimReady.1.bumped)
      else ([], restored)

def advanceTaskGraph (workspaceId runId nodeId : String) (status : SubTaskStatus) :
    Option TaskGraphAdvance × PrismApiStateStore :=
  match store.getTaskGraph api workspaceId runId with
  | (none, restored) => (none, restored)
  | (some graph, restored) =>
      let advance := graph.planAdvance nodeId status
      if advance.alreadyProcessed then (some advance, restored)
      else (some advance, restored.saveTaskGraph api advance.graph.bumped)

def saveContextSnapshot (snapshot : ContextSnapshot) : PrismApiStateStore :=
  (store.withFallback (store.fallbackStore.saveContextSnapshot
    snapshot)).persistContextSnapshot api snapshot

def getContextSnapshot (workspaceId snapshotRef : String) : Option ContextSnapshot :=
  store.fallbackStore.getContextSnapshot workspaceId snapshotRef

def saveActionResult (result : ToolResult) : PrismApiStateStore :=
  (store.withFallback (store.fallbackStore.saveActionResult result)).persistActionResult api
    result

def getActionResult (planId actionId : String) : Option ToolResult :=
  store.fallbackStore.getActionResult planId actionId

def appendTraceEvent (traceEvent : TraceEvent) : PrismApiStateStore :=
  store.withFallback (store.fallbackStore.appendTraceEvent traceEvent)

def checkIdempotencyKey (key : String) : Bool × PrismApiStateStore :=
  if store.fallbackStore.checkIdempotencyKey key then (true, store)
  else
    match store.idempotencyLocations.lookup key with
    | none => (false, store)
    | some (workspaceId, runId) => checkWorkspaceIdempotencyKey workspaceId runId
where
  /-- `check_workspace_idempotency_key` for a key with a known run. -/
  checkWorkspaceIdempotencyKey (workspaceId runId : String) : Bool × PrismApiStateStore :=
    match candidateRunId runId key with
    | none => (false, store)
    | some candidate =>
        let restored := store.restoreRunState api workspaceId candidate
        (restored.fallbackStore.checkIdempotencyKey key, restored)
  /-- The run id, or for an empty one the run the key itself names. -/
  candidateRunId (runId key : String) : Option String :=
    if runId ≠ "" then some runId
    else if "feature_provisioning:".toList.isPrefixOf key.toList then
      some (String.ofList (key.toList.drop "feature_provisioning:".toList.length))
    else none

def recordIdempotencyKey (key : String) : PrismApiStateStore :=
  let recorded := store.withFallback (store.fallbackStore.recordIdempotencyKey key)
  match store.idempotencyLocations.lookup key with
  | none => recorded
  | some (workspaceId, runId) =>
      match checkIdempotencyKey.candidateRunId runId key with
      | none => recorded
      | some candidate => recorded.persistIdempotencyKey api workspaceId candidate key

/-- The store of a new invocation: an empty fallback over the same transport. -/
def fresh : PrismApiStateStore :=
  { persistAgentMemories := store.persistAgentMemories, memories := store.memories }

end PrismApiStateStore

instance : StateStore PrismApiStateStore where
  savePlan api plan store := store.savePlan api plan
  getPlan api workspaceId planId store := store.getPlan api workspaceId planId
  saveTaskGraph api graph store := store.saveTaskGraph api graph
  getTaskGraph api workspaceId planId store := store.getTaskGraph api workspaceId planId
  saveSubAgentResult api workspaceId runId result store :=
    store.saveSubAgentResult api workspaceId runId result
  getSubAgentResults api workspaceId runId store :=
    store.getSubAgentResults api workspaceId runId
  claimReadyNodes api workspaceId runId store := store.claimReadyNodes api workspaceId runId
  advanceTaskGraph api workspaceId runId nodeId status store :=
    store.advanceTaskGraph api workspaceId runId nodeId status
  updatePlan api plan store := store.updatePlan api plan
  saveContextSnapshot api snapshot store := store.saveContextSnapshot api snapshot
  getContextSnapshot _ workspaceId snapshotRef store :=
    (store.getContextSnapshot workspaceId snapshotRef, store)
  saveActionResult api result store := store.saveActionResult api result
  getActionResult _ planId actionId store := (store.getActionResult planId actionId, store)
  appendTraceEvent _ traceEvent store := store.appendTraceEvent traceEvent
  checkIdempotencyKey api key store := store.checkIdempotencyKey api key
  recordIdempotencyKey api key store := store.recordIdempotencyKey api key

end PrismAgent
