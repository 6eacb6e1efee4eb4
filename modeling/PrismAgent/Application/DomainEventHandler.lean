import PrismAgent.Application.Planner

/-!
# Starting a run

`DomainEventHandler.handle` with what it is built from: the context provider, the
orchestrator and the subagent runner. An orchestrated workflow starts a task
graph, any other workflow one plan.
-/

namespace PrismAgent

def ROOT_NODE_ID : String := "root"

def SYNTHESIZER_NODE_ID : String := "synthesizer"

def DEFAULT_MODEL_TIER : String := "pro"

namespace ContextProvider

/-- `_required_context`: an orchestrated workflow whose nodes are all scoped needs
only the declared entities in some scope. -/
def requiredContext (workflow : WorkflowDefinition) (declared : List String) : List String :=
  match workflow.orchestration with
  | none => declared
  | some orchestration =>
      if orchestration.defaultGraph = [] then declared
      else
        let nodes := orchestration.defaultGraph ++ orchestration.synthesizer.toList
        if nodes.any fun node => node.contextScope.isEmpty then declared
        else declared.filter fun entity => nodes.any fun node => entity ∈ node.contextScope

/-- Hydrate the context of an event. What the API client returns for entities,
permissions and versions is left open. -/
def hydrate (registries : Registries) (envelope : EventEnvelope)
    (workflow : WorkflowDefinition) : App ContextSnapshot := do
  let prompt ← liftExcept
    (registries.prompts.getWorkflow workflow.promptId workflow.promptVersion)
  let required := requiredContext workflow prompt.requiredContext
  let entities ← perform (.fetchContextEntities envelope.event required)
  let permissions ← perform (.fetchPermissions envelope.event)
  let entityVersions ← perform (.captureEntityVersions envelope.event entities)
  let snapshotId ← perform .uuid4
  let context : AgentContext :=
    { workspaceId := envelope.event.workspaceId
      projectId := envelope.event.projectId
      sourceEvent := envelope
      workflowId := workflow.workflowId
      entities := entities
      retrievedDocuments :=
        (envelope.event.payload.lookup "retrieved_documents").getD (.arr [])
      permissions := permissions
      entityVersions := entityVersions
      previousAgentOutputs :=
        (envelope.event.payload.lookup "previous_agent_outputs").getD (.arr [])
      runtimeMetadata :=
        [("trigger_event_type", .str envelope.event.eventType),
          ("trigger_kind", .str envelope.event.kind.name)] }
  return {
    snapshotId := snapshotId
    workspaceId := context.workspaceId
    projectId := context.projectId
    workflowId := context.workflowId
    context := context }

end ContextProvider

namespace Orchestrator

/-- The single-node graph of a workflow that is not orchestrated; its plan id is
set by the caller. -/
def buildTaskGraph (planId : String) (context : AgentContext)
    (workflow : WorkflowDefinition) : TaskGraph :=
  { planId := planId
    workspaceId := context.workspaceId
    projectId := context.projectId
    nodes :=
      [{ nodeId := ROOT_NODE_ID
         skillIds := workflow.requiredSkills
         objective := workflow.goal
         modelTier := DEFAULT_MODEL_TIER }] }

def resolveTier (skills : SkillRegistry) (nodeDef : OrchestrationNodeDef)
    (skillIds : List String) : String :=
  match nodeDef.modelTier with
  | some tier => if tier = "" then fallback else tier
  | none => fallback
where
  /-- The tier of the first skill, when it is registered. -/
  fallback : String :=
    match skillIds with
    | [] => DEFAULT_MODEL_TIER
    | skillId :: _ =>
        match skills.modelTier skillId with
        | .ok tier => tier
        | .error _ => DEFAULT_MODEL_TIER

def buildNode (skills : SkillRegistry) (workflow : WorkflowDefinition)
    (nodeDef : OrchestrationNodeDef) (fallbackNodeId : String)
    (defaultDependsOn : List String) : Except Exc SubTask :=
  let nodeId := if nodeDef.node = "" then fallbackNodeId else nodeDef.node
  let skillIds := nodeDef.skillIds
  if skillIds = [] then
    .error (.valueError ("Orchestration node '" ++ nodeId ++ "' in workflow '" ++ workflow.id ++
      "' declares no skill."))
  else
    .ok
      { nodeId := nodeId
        skillIds := skillIds
        objective := if nodeDef.objective = "" then workflow.goal else nodeDef.objective
        dependsOn := if nodeDef.dependsOn = [] then defaultDependsOn else nodeDef.dependsOn
        contextScope := nodeDef.contextScope
        modelTier := resolveTier skills nodeDef skillIds }

/-- The nodes of a declared graph, `index` naming the ones without a name. -/
def buildNodes (skills : SkillRegistry) (workflow : WorkflowDefinition) :
    List OrchestrationNodeDef → ℕ → Except Exc (List SubTask)
  | [], _ => .ok []
  | nodeDef :: nodeDefs, index => do
      let node ← buildNode skills workflow nodeDef ("node_" ++ toString index) []
      let nodes ← buildNodes skills workflow nodeDefs (index + 1)
      return node :: nodes

/-- The declared synthesizer; by default it waits for all nodes. -/
def buildSynthesizer (skills : SkillRegistry) (workflow : WorkflowDefinition)
    (nodes : List SubTask) : Option OrchestrationNodeDef → Except Exc (Option SubTask)
  | none => .ok none
  | some nodeDef => do
      let node ← buildNode skills workflow nodeDef SYNTHESIZER_NODE_ID (nodes.map (·.nodeId))
      return some node

def buildOrchestratedGraph (skills : SkillRegistry) (planId : String)
    (context : AgentContext) (workflow : WorkflowDefinition) : Except Exc TaskGraph :=
  match workflow.orchestration with
  | none => .ok (buildTaskGraph planId context workflow)
  | some orchestration =>
      if orchestration.defaultGraph = [] then .ok (buildTaskGraph planId context workflow)
      else do
        let nodes ← buildNodes skills workflow orchestration.defaultGraph 0
        let synthesizer ← buildSynthesizer skills workflow nodes orchestration.synthesizer
        return {
          planId := planId
          workspaceId := context.workspaceId
          projectId := context.projectId
          nodes := nodes
          synthesizerNode := synthesizer }

end Orchestrator

namespace SubAgentRunner

def subPlanId (agentRunId nodeId : String) : String := agentRunId ++ "::" ++ nodeId

/-- Python's `xs or None`. -/
def orNone (xs : List String) : Option (List String) := if xs = [] then none else some xs

/-- Plan one node: the root as the whole workflow, any other node scoped to its
skills and entities under a plan id of its own. -/
def planForNode (registries : Registries) (node : SubTask) (context : AgentContext)
    (contextSnapshotRef : String) (workflow : WorkflowDefinition) (agentRunId : String) :
    App AgentPlan :=
  if node.nodeId = ROOT_NODE_ID then
    Planner.createPlan registries context contextSnapshotRef workflow agentRunId {}
  else do
    let plan ← Planner.createPlan registries context contextSnapshotRef workflow agentRunId
      { planId := some (subPlanId agentRunId node.nodeId)
        skillIds := orNone node.skillIds
        contextScope := node.contextScope
        modelTier := if node.modelTier = "" then none else some node.modelTier }
    return { plan with parentRunId := some agentRunId, nodeId := some node.nodeId }

end SubAgentRunner

namespace DomainEventHandler

/-- File a trace under the ids of the envelope's event. -/
abbrev trace (envelope : EventEnvelope) (eventName : String) (planId : Option String)
    (actionId : Option String := none) : App Unit :=
  PrismAgent.trace envelope.event eventName planId actionId

/-- `_replan_requested`. -/
def replanRequested (envelope : EventEnvelope) : Bool :=
  ((envelope.event.payload.lookup "_agent_replan").map Json.isObj).getD false

/-- Start a run at the agent-run sync; `false` when it is terminal already. -/
def unlessTerminal (envelope : EventEnvelope) (agentRunId : String) (call : SyncCall) :
    App Bool := do
  match ← (sync call).attempt with
  | .ok _ => return true
  | .error (.runAlreadyTerminal _ _) =>
      trace envelope "run.terminal_skip" (some agentRunId)
      return false
  | .error exc => .raise exc

/-- Dispatch the claimed nodes of a new graph, in order. -/
def dispatchReady (envelope : EventEnvelope) (workspaceId agentRunId : String)
    (projectId : Option String) : List SubTask → App Unit
  | [] => pure ()
  | node :: nodes => do
      let eventId ← perform .uuid4
      perform (.enqueue (.wrap (subAgentTaskEvent eventId workspaceId projectId agentRunId
        node.nodeId envelope.event.correlationId
        (envelope.event.causality.child envelope.eventId))))
      trace envelope "subagent.dispatched" (some agentRunId)
      dispatchReady envelope workspaceId agentRunId projectId nodes

/-- Save a new graph with its snapshot, claim its ready nodes and dispatch them. -/
def startGraph (envelope : EventEnvelope) (snapshot : ContextSnapshot) (agentRunId : String)
    (graph : TaskGraph) : App Unit := do
  let workspaceId := snapshot.context.workspaceId
  perform (.saveContextSnapshot { snapshot with planId := some agentRunId })
  perform (.saveTaskGraph graph)
  trace envelope "orchestration.started" (some agentRunId)
  match ← perform (.claimReadyNodes workspaceId agentRunId) with
  | [] => do
      sync (.runFailed workspaceId agentRunId "Orchestration produced no runnable node.")
      trace envelope "orchestration.empty" (some agentRunId)
  | ready => dispatchReady envelope workspaceId agentRunId graph.projectId ready

/-- `_handle_orchestrated`. -/
def handleOrchestrated (registries : Registries) (envelope : EventEnvelope)
    (workflow : WorkflowDefinition) (snapshot : ContextSnapshot) (agentRunId : String) :
    App Unit := do
  let workspaceId := snapshot.context.workspaceId
  match ← perform (.getTaskGraph workspaceId agentRunId) with
  | some _ => trace envelope "orchestration.resumed" (some agentRunId)
  | none =>
      match ← unlessTerminal envelope agentRunId
        (.runStarted snapshot.context agentRunId workflow.goal workflow.promptVersion) with
      | false => pure ()
      | true => do
          let graph ← liftExcept (Orchestrator.buildOrchestratedGraph registries.skills
            agentRunId snapshot.context workflow)
          startGraph envelope snapshot agentRunId
            { graph with contextSnapshotRef := some snapshot.ref }

/-- Enqueue the first action of a plan, or fail a plan that has nothing to run. -/
def enqueueFirstAction (envelope : EventEnvelope) (plan : AgentPlan) : App Unit :=
  match plan.nextPendingAction with
  | none =>
      if plan.status.stopped then trace envelope "plan.no_pending_actions" (some plan.planId)
      else do
        let failedPlan := { plan with status := .failed }
        perform (.updatePlan failedPlan)
        sync (.runFailed failedPlan.workspaceId failedPlan.planId
          "Planner produced no executable actions after retry attempts.")
        trace envelope "plan.empty" (some failedPlan.planId)
        trace envelope "plan.failed" (some failedPlan.planId)
  | some firstAction => do
      let eventId ← perform .uuid4
      perform (.enqueue (.wrap (agentActionEvent eventId plan.workspaceId plan.projectId
        plan.planId firstAction.actionId envelope.event.correlationId
        (envelope.event.causality.child envelope.eventId))))
      trace envelope "action.enqueued" (some plan.planId) (some firstAction.actionId)

/-- Plan the run; a failure fails the run and is raised again. -/
def buildPlan (registries : Registries) (workflow : WorkflowDefinition)
    (snapshot : ContextSnapshot) (agentRunId : String) : App AgentPlan :=
  Effect.Program.tryCatch
    (do
      let graph := Orchestrator.buildTaskGraph agentRunId snapshot.context workflow
      perform (.saveTaskGraph graph)
      match graph.nodes with
      | [] => .raise (.valueError "list index out of range")
      | rootNode :: _ =>
          SubAgentRunner.planForNode registries rootNode snapshot.context snapshot.ref workflow
            agentRunId)
    fun exc => do
      sync (.runFailed snapshot.context.workspaceId agentRunId exc.toStr)
      .raise exc

/-- Tell the agent-run sync that the run replans. -/
def resumeRun (envelope : EventEnvelope) (snapshot : ContextSnapshot) (agentRunId : String) :
    App Bool := do
  match ← unlessTerminal envelope agentRunId
    (.runRunning snapshot.context.workspaceId agentRunId) with
  | true => do
      trace envelope "plan.replanning" (some agentRunId)
      return true
  | false => return false

/-- Tell the agent-run sync that the run starts, or that it replans. -/
def startRun (envelope : EventEnvelope) (workflow : WorkflowDefinition)
    (snapshot : ContextSnapshot) (agentRunId : String) (replan : Bool) : App Bool :=
  if replan then resumeRun envelope snapshot agentRunId
  else
    unlessTerminal envelope agentRunId
      (.runStarted snapshot.context agentRunId workflow.goal workflow.promptVersion)

/-- Save a new plan with its snapshot and enqueue its first action. -/
def savePlan (envelope : EventEnvelope) (snapshot : ContextSnapshot) (plan : AgentPlan)
    (replan : Bool) : App Unit := do
  perform (.saveContextSnapshot { snapshot with planId := some plan.planId })
  perform (.savePlan plan)
  sync (.planCreated plan)
  trace envelope (if replan then "plan.replanned" else "plan.created") (some plan.planId)
  enqueueFirstAction envelope plan

/-- Make a plan for the run, in place of one that asked for a replan or as the
first; nothing when the run is terminal. -/
def startPlan (registries : Registries) (envelope : EventEnvelope)
    (workflow : WorkflowDefinition) (snapshot : ContextSnapshot) (agentRunId : String)
    (replan : Bool) : App Unit := do
  match ← startRun envelope workflow snapshot agentRunId replan with
  | false => pure ()
  | true => do
      let plan ← buildPlan registries workflow snapshot agentRunId
      savePlan envelope snapshot plan replan

/-- Resume the run's plan, or make one. -/
def handlePlan (registries : Registries) (envelope : EventEnvelope)
    (workflow : WorkflowDefinition) (snapshot : ContextSnapshot) (agentRunId : String) :
    App Unit := do
  match ← perform (.getPlan snapshot.context.workspaceId agentRunId) with
  | none => startPlan registries envelope workflow snapshot agentRunId false
  | some plan =>
      if plan.status = .replanRequired ∧ replanRequested envelope = true then
        startPlan registries envelope workflow snapshot agentRunId true
      else do
        perform (.saveContextSnapshot { snapshot with planId := some plan.planId })
        trace envelope "plan.resumed" (some plan.planId)
        enqueueFirstAction envelope plan

/-- Whether the workflow declares a task graph. -/
def isOrchestrated (workflow : WorkflowDefinition) : Bool :=
  match workflow.orchestration with
  | some orchestration => !orchestration.defaultGraph.isEmpty
  | none => false

def handle (registries : Registries) (envelope : EventEnvelope) : App Unit :=
  match (route registries.workflows envelope).workflow with
  | none => trace envelope "event.ignored" none
  | some workflow => do
      let snapshot ← ContextProvider.hydrate registries envelope workflow
      let agentRunId := resolveAgentRunId snapshot.context
      if isOrchestrated workflow then
        handleOrchestrated registries envelope workflow snapshot agentRunId
      else handlePlan registries envelope workflow snapshot agentRunId

end DomainEventHandler

end PrismAgent
