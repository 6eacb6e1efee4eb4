import PrismAgent.Application.DomainEventHandler

/-!
# The subagent coordinator

`SubAgentCoordinator.handle` plans the nodes of a task graph as sub-plans, joins
their completions, runs the synthesizer and finalizes the shared run.
-/

namespace PrismAgent

namespace SubAgentCoordinator

open SubAgentRunner (subPlanId)

def SUBAGENT_RESULTS_KEY : String := "subagent_results"

/-- File a trace under the event's own ids. -/
abbrev trace (event : RuntimeEvent) (eventName : String) : App Unit :=
  PrismAgent.trace event eventName event.planId?

def enqueueAction (envelope : EventEnvelope) (subPlan : AgentPlan) (action : PlannedAction) :
    App Unit := do
  let eventId ← perform .uuid4
  perform (.enqueue (.wrap (agentActionEvent eventId subPlan.workspaceId subPlan.projectId
    subPlan.planId action.actionId envelope.event.correlationId
    (envelope.event.causality.child envelope.eventId))))

def enqueueCompleted (envelope : EventEnvelope) (graph : TaskGraph) (nodeId status : String) :
    App Unit := do
  let eventId ← perform .uuid4
  perform (.enqueue (.wrap (subAgentCompletedEvent eventId graph.workspaceId graph.projectId
    graph.planId nodeId status envelope.event.correlationId
    (envelope.event.causality.child envelope.eventId) [])))

/-- `_resume_existing_subplan`: continue a sub-plan, or settle its node by the
status it stopped in. -/
def resumeExistingSubplan (envelope : EventEnvelope) (graph : TaskGraph) (node : SubTask)
    (subPlan : AgentPlan) : App Unit := do
  let event := envelope.event
  match subPlan.nextPendingAction with
  | some nextAction => do
      enqueueAction envelope subPlan nextAction
      trace event "subagent.resumed"
  | none =>
      match subPlan.status with
      | .completed | .planned => do
          trace event "subagent.resumed"
          enqueueCompleted envelope graph node.nodeId "completed"
      | .waitingForApproval => do
          trace event "subagent.resumed"
          enqueueCompleted envelope graph node.nodeId "waiting_for_approval"
      | .failed | .cancelled | .replanRequired => do
          trace event "subagent.resumed"
          enqueueCompleted envelope graph node.nodeId "failed"
      | .running => trace event "subagent.in_flight"

/-- `_inject_results`: the saved results become an entity of the context. -/
def injectResults (context : AgentContext) (workspaceId runId : String) : App AgentContext := do
  let results ← perform (.getSubAgentResults workspaceId runId)
  return {
    context with
    entities := Dict.insert context.entities SUBAGENT_RESULTS_KEY
      (.arr (results.map SubAgentResult.toJson)) }

/-- The context a node is planned with: the synthesizer sees the saved results. -/
def planningContext (event : RuntimeEvent) (graph : TaskGraph) (node : SubTask)
    (snapshot : ContextSnapshot) (runId : String) : App AgentContext :=
  if graph.isSynthesizer node.nodeId then
    injectResults snapshot.context event.workspaceId runId
  else pure snapshot.context

/-- Plan a node that has no sub-plan yet and enqueue its first action. -/
def planNode (registries : Registries) (envelope : EventEnvelope) (graph : TaskGraph)
    (node : SubTask) (snapshot : ContextSnapshot) (runId : String) : App Unit := do
  let event := envelope.event
  let context ← planningContext event graph node snapshot runId
  let workflow ← liftExcept (registries.workflows.get context.workflowId)
  trace event "subagent.planning"
  let subPlan ← SubAgentRunner.planForNode registries node context snapshot.ref workflow runId
  perform (.savePlan subPlan)
  sync (.planCreated subPlan)
  match subPlan.nextPendingAction with
  | none => do
      trace event "subagent.empty"
      enqueueCompleted envelope graph node.nodeId "completed"
  | some firstAction => do
      enqueueAction envelope subPlan firstAction
      trace event "subagent.started"

/-- `_handle_task`. -/
def handleTask (registries : Registries) (envelope : EventEnvelope) (runId nodeId : String) :
    App Unit := do
  let event := envelope.event
  match ← perform (.getTaskGraph event.workspaceId runId) with
  | none => trace event "orchestration.graph_missing"
  | some graph =>
      match graph.getNode nodeId with
      | none => trace event "orchestration.node_missing"
      | some node =>
          if node.status = .completed ∨ node.status = .failed then
            trace event "subagent.skipped"
          else
            match ← perform (.getPlan event.workspaceId (subPlanId runId node.nodeId)) with
            | some subPlan => resumeExistingSubplan envelope graph node subPlan
            | none =>
                match ← perform (.getContextSnapshot event.workspaceId
                  (graph.contextSnapshotRef.getD "")) with
                | none => trace event "orchestration.context_missing"
                | some snapshot => planNode registries envelope graph node snapshot runId

/-- The outputs of a sub-plan's actions by tool name, as far as saved. -/
def actionOutputs (planId : String) : List PlannedAction → Fields → App Fields
  | [], outputs => pure outputs
  | action :: actions, outputs => do
      match ← perform (.getActionResult planId action.actionId) with
      | some result =>
          actionOutputs planId actions (Dict.insert outputs action.toolName (.obj result.output))
      | none => actionOutputs planId actions outputs

def buildResult (nodeId : String) : Option AgentPlan → App SubAgentResult
  | none => return { nodeId := nodeId }
  | some subPlan => do
      let outputs ← actionOutputs subPlan.planId subPlan.actions []
      return {
        nodeId := nodeId
        skillIds := subPlan.skillIds
        summary := nodeId ++ ": completed " ++ toString outputs.length ++ " action(s)."
        structuredOutput := [("outputs", .obj outputs)] }

def storeResult (workspaceId runId nodeId : String) : App Unit := do
  let subPlan ← perform (.getPlan workspaceId (subPlanId runId nodeId))
  let result ← buildResult nodeId subPlan
  perform (.saveSubAgentResult workspaceId runId result)

def dispatchNode (envelope : EventEnvelope) (graph : TaskGraph) (node : SubTask) :
    App Unit := do
  let eventId ← perform .uuid4
  perform (.enqueue (.wrap (subAgentTaskEvent eventId graph.workspaceId graph.projectId
    graph.planId node.nodeId envelope.event.correlationId
    (envelope.event.causality.child envelope.eventId))))
  trace envelope.event "subagent.dispatched"

def dispatchNodes (envelope : EventEnvelope) (graph : TaskGraph) : List SubTask → App Unit
  | [] => pure ()
  | node :: nodes => do
      dispatchNode envelope graph node
      dispatchNodes envelope graph nodes

/-- The message of a failed node. -/
def failureMessage (event : RuntimeEvent) : String :=
  match event.payload.lookup "message" with
  | some message => if message.truthy then message.toStr else "subagent_failed"
  | none => "subagent_failed"

/-- Dispatch the synthesizer that an advance claimed. -/
def dispatchSynthesizer (envelope : EventEnvelope) (advance : TaskGraphAdvance) : App Unit :=
  match advance.dispatchSynthesizer with
  | some synthesizer => dispatchNode envelope advance.graph synthesizer
  | none => pure ()

def completeRun (event : RuntimeEvent) (runId : String) (advance : TaskGraphAdvance) :
    App Unit :=
  if advance.runCompleted then do
    sync (.runCompletedById event.workspaceId runId)
    trace event "orchestration.completed"
  else pure ()

def blockRun (event : RuntimeEvent) (runId : String) (advance : TaskGraphAdvance) :
    App Unit :=
  if advance.blocked then do
    sync (.runFailed event.workspaceId runId "orchestration_blocked")
    trace event "orchestration.blocked"
  else pure ()

def failRun (event : RuntimeEvent) (runId : String) : App Unit := do
  sync (.runFailed event.workspaceId runId (failureMessage event))
  trace event "orchestration.failed"

/-- Act on an advance that is new and did not fail the run. -/
def followAdvance (envelope : EventEnvelope) (runId : String) (advance : TaskGraphAdvance) :
    App Unit := do
  dispatchNodes envelope advance.graph advance.newlyReady
  dispatchSynthesizer envelope advance
  completeRun envelope.event runId advance
  blockRun envelope.event runId advance

/-- Save the result of a node that completed; the synthesizer has none. -/
def recordResult (event : RuntimeEvent) (runId nodeId : String) (status : SubTaskStatus)
    (advance : TaskGraphAdvance) : App Unit :=
  if status = .completed ∧ advance.isSynthesizer = false then
    storeResult event.workspaceId runId nodeId
  else pure ()

/-- Act on an advance that recorded a new status. -/
def settleAdvance (envelope : EventEnvelope) (runId nodeId : String) (status : SubTaskStatus)
    (advance : TaskGraphAdvance) : App Unit := do
  recordResult envelope.event runId nodeId status advance
  if advance.runFailed then failRun envelope.event runId
  else followAdvance envelope runId advance

/-- `_handle_completed` for a terminal settle. -/
def handleSettled (envelope : EventEnvelope) (runId nodeId : String) (status : SubTaskStatus) :
    App Unit := do
  match ← perform (.advanceTaskGraph envelope.event.workspaceId runId nodeId status) with
  | none => trace envelope.event "orchestration.graph_missing"
  | some advance =>
      if advance.alreadyProcessed then trace envelope.event "orchestration.duplicate"
      else settleAdvance envelope runId nodeId status advance

/-- `_handle_completed`: a settle that is neither completed nor failed pauses the
run. -/
def handleCompleted (envelope : EventEnvelope) (runId nodeId status : String) : App Unit :=
  if status = "completed" then handleSettled envelope runId nodeId .completed
  else if status = "failed" then handleSettled envelope runId nodeId .failed
  else trace envelope.event "orchestration.waiting"

def handle (registries : Registries) (envelope : EventEnvelope) : App Unit :=
  match envelope.event.kind with
  | .subagentTask runId nodeId => handleTask registries envelope runId nodeId
  | .subagentCompleted runId nodeId status => handleCompleted envelope runId nodeId status
  | _ => .raise (.typeError "SubAgentCoordinator only handles subagent events.")

end SubAgentCoordinator

end PrismAgent
