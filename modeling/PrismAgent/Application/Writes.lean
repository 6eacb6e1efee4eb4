import PrismAgent.Application.Frame

/-!
# What the handlers write

The parts of the world that each function of the handlers may write, as
`Writes` clauses. What a function does not list here it leaves alone.
-/

namespace PrismAgent

open Effect

/-- The parts that only announce what happened. -/
def announced : List Part := [.queue, .syncCalls, .traces]

theorem trace_writes {parts : List Part} (h : .traces ∈ parts) (event : RuntimeEvent)
    (eventName : String) (planId actionId : Option String) :
    Writes parts (trace event eventName planId actionId) :=
  .perform (by simpa [Call.writesIn, Call.writes] using h)

namespace ContextProvider

theorem hydrate_writes (registries : Registries) (envelope : EventEnvelope)
    (workflow : WorkflowDefinition) : Writes [] (hydrate registries envelope workflow) := by
  refine .bind (.liftExcept _) fun prompt => ?_
  refine .bind (.perform rfl) fun entities => .bind (.perform rfl) fun permissions => ?_
  refine .bind (.perform rfl) fun entityVersions => .bind (.perform rfl) fun snapshotId => ?_
  exact .pure _

/-- A hydrated context is that of the envelope. -/
theorem hydrate_mayReturn {registries : Registries} {envelope : EventEnvelope}
    {workflow : WorkflowDefinition} {snapshot : ContextSnapshot}
    (h : (hydrate registries envelope workflow).MayReturn snapshot) :
    snapshot.context.workspaceId = envelope.event.workspaceId ∧
      snapshot.context.sourceEvent = envelope := by
  unfold hydrate at h
  simp only [Program.mayReturn_bind, mayReturn_liftExcept] at h
  obtain ⟨prompt, -, entities, -, permissions, -, versions, -, snapshotId, -, hsnapshot⟩ := h
  obtain rfl := (Program.mayReturn_pure _).1 hsnapshot
  exact ⟨rfl, rfl⟩

/-- A hydrated context is filed under its own workspace. -/
theorem hydrate_workspaceId {registries : Registries} {envelope : EventEnvelope}
    {workflow : WorkflowDefinition} {snapshot : ContextSnapshot}
    (h : (hydrate registries envelope workflow).MayReturn snapshot) :
    snapshot.context.workspaceId = snapshot.workspaceId := by
  unfold hydrate at h
  simp only [Program.mayReturn_bind, mayReturn_liftExcept] at h
  obtain ⟨prompt, -, entities, -, permissions, -, versions, -, snapshotId, -, hsnapshot⟩ := h
  obtain rfl := (Program.mayReturn_pure _).1 hsnapshot
  rfl

end ContextProvider

namespace Planner

theorem createPlan_writes (registries : Registries) (context : AgentContext)
    (contextSnapshotRef : String) (workflow : WorkflowDefinition) (agentRunId : String)
    (scope : Scope) :
    Writes [] (createPlan registries context contextSnapshotRef workflow agentRunId scope) := by
  refine .bind (.liftExcept _) fun prompt => .bind (.liftExcept _) fun skills => ?_
  refine .bind (.liftExcept _) fun allowedToolNames => .bind (.liftExcept _) fun tools => ?_
  refine .bind (.liftExcept _) fun toolPolicy => .bind (.perform rfl) fun proposed => ?_
  exact .bind (.liftExcept _) fun _ => .pure _

/-- A created plan is what the planning agent proposes, normalized. -/
theorem createPlan_mayReturn {registries : Registries} {context : AgentContext}
    {contextSnapshotRef agentRunId : String} {workflow : WorkflowDefinition} {scope : Scope}
    {plan : AgentPlan} (h : (createPlan registries context contextSnapshotRef workflow
      agentRunId scope).MayReturn plan) :
    ∃ form proposed, form.planId = orElseText scope.planId agentRunId ∧
      form.context = context ∧ form.contextSnapshotRef = contextSnapshotRef ∧
      form.idempotencyPrefix = idempotencyPrefix context agentRunId scope.planId ∧
      plan = normalizePlanForRuntime form proposed := by
  unfold createPlan at h
  simp only [Program.mayReturn_bind, mayReturn_liftExcept] at h
  obtain ⟨prompt, -, skills, -, allowed, -, tools, -, toolPolicy, -, proposed, -, u, -,
    hplan⟩ := h
  exact ⟨_, proposed, rfl, rfl, rfl, rfl, ((Program.mayReturn_pure _).1 hplan).symm⟩

end Planner

open SubAgentRunner (subPlanId)

theorem runId_ne_subPlanId (runId nodeId : String) : runId ≠ subPlanId runId nodeId := by
  intro heq
  have hlength := congrArg String.length heq
  have hsep : "::".length = 2 := rfl
  simp only [subPlanId, String.length_append, hsep] at hlength
  omega

theorem orElseText_subPlanId (runId nodeId other : String) :
    orElseText (some (subPlanId runId nodeId)) other = subPlanId runId nodeId := by
  unfold orElseText
  dsimp only
  rw [if_neg]
  intro h
  have hlength := congrArg String.length h
  simp [subPlanId] at hlength

/-- A node's plan has the run's id for the root and a sub-plan id for any other node. -/
theorem SubAgentRunner.planForNode_mayReturn {registries : Registries} {node : SubTask}
    {context : AgentContext} {contextSnapshotRef agentRunId : String}
    {workflow : WorkflowDefinition} {plan : AgentPlan}
    (h : (planForNode registries node context contextSnapshotRef workflow agentRunId).MayReturn
      plan) :
    (node.nodeId = ROOT_NODE_ID ∧ plan.planId = agentRunId) ∨
      (node.nodeId ≠ ROOT_NODE_ID ∧ plan.planId = subPlanId agentRunId node.nodeId ∧
        plan.parentRunId = some agentRunId ∧ plan.nodeId = some node.nodeId) := by
  unfold planForNode at h
  split at h
  next hroot =>
    obtain ⟨form, proposed, hform, -, -, -, rfl⟩ := Planner.createPlan_mayReturn h
    exact .inl ⟨hroot, hform⟩
  next hroot =>
    obtain ⟨created, hcreated, hplan⟩ := Program.mayReturn_bind.1 h
    obtain ⟨form, proposed, hform, -, -, -, rfl⟩ := Planner.createPlan_mayReturn hcreated
    obtain rfl := (Program.mayReturn_pure _).1 hplan
    exact .inr ⟨hroot, hform.trans (orElseText_subPlanId _ _ _), rfl, rfl⟩

theorem SubAgentRunner.planForNode_writes (registries : Registries) (node : SubTask)
    (context : AgentContext) (contextSnapshotRef : String) (workflow : WorkflowDefinition)
    (agentRunId : String) :
    Writes [] (planForNode registries node context contextSnapshotRef workflow
      agentRunId) := by
  unfold planForNode
  split
  · exact Planner.createPlan_writes _ _ _ _ _ _
  · exact .bind (Planner.createPlan_writes _ _ _ _ _ _) fun _ => .pure _

namespace DomainEventHandler

variable (envelope : EventEnvelope)

theorem unlessTerminal_writes (agentRunId : String) (call : SyncCall) :
    Writes [.syncCalls, .traces] (unlessTerminal envelope agentRunId call) := by
  refine .bind (.attempt (.perform rfl)) fun r => ?_
  split
  · exact .pure _
  · exact .bind (trace_writes (by decide) _ _ _ _) fun _ => .pure _
  · exact .raise _

theorem dispatchReady_writes (workspaceId agentRunId : String) (projectId : Option String)
    (nodes : List SubTask) :
    Writes announced (dispatchReady envelope workspaceId agentRunId projectId nodes) := by
  induction nodes with
  | nil => exact .pure _
  | cons node nodes ih =>
      refine .bind (.perform rfl) fun eventId => .bind (.perform rfl) fun _ => ?_
      exact .bind (trace_writes (by decide) _ _ _ _) fun _ => ih

/-- Starting a graph writes no plan. -/
theorem startGraph_writes (snapshot : ContextSnapshot) (agentRunId : String)
    (graph : TaskGraph) :
    Writes (.contextSnapshots :: .taskGraphs :: announced)
      (startGraph envelope snapshot agentRunId graph) := by
  refine .bind (.perform rfl) fun _ => .bind (.perform rfl) fun _ => ?_
  refine .bind (trace_writes (by decide) _ _ _ _) fun _ => .bind (.perform rfl) fun ready => ?_
  split
  · exact .bind (.perform rfl) fun _ => trace_writes (by decide) _ _ _ _
  · exact (dispatchReady_writes envelope _ _ _ _).mono (by decide)

theorem handleOrchestrated_writes (registries : Registries) (workflow : WorkflowDefinition)
    (snapshot : ContextSnapshot) (agentRunId : String) :
    Writes (.contextSnapshots :: .taskGraphs :: announced)
      (handleOrchestrated registries envelope workflow snapshot agentRunId) := by
  refine .bind (.perform rfl) fun found => ?_
  split
  · exact trace_writes (by decide) _ _ _ _
  · refine .bind ((unlessTerminal_writes envelope _ _).mono (by decide)) fun started => ?_
    split
    · exact .pure _
    · exact .bind (.liftExcept _) fun graph => startGraph_writes envelope _ _ _

theorem startRun_writes (workflow : WorkflowDefinition) (snapshot : ContextSnapshot)
    (agentRunId : String) (replan : Bool) :
    Writes [.syncCalls, .traces] (startRun envelope workflow snapshot agentRunId replan) := by
  unfold startRun
  split
  · refine .bind (unlessTerminal_writes envelope _ _) fun running => ?_
    split
    · exact .bind (trace_writes (by decide) _ _ _ _) fun _ => .pure _
    · exact .pure _
  · exact unlessTerminal_writes envelope _ _

theorem buildPlan_writes (registries : Registries) (workflow : WorkflowDefinition)
    (snapshot : ContextSnapshot) (agentRunId : String) :
    Writes [.taskGraphs, .syncCalls]
      (buildPlan registries workflow snapshot agentRunId) := by
  refine .tryCatch (.bind (.perform rfl) fun _ => ?_) fun exc => ?_
  · split
    · exact .raise _
    · exact (SubAgentRunner.planForNode_writes _ _ _ _ _ _).mono (by simp)
  · exact .bind (.perform rfl) fun _ => .raise _

theorem enqueueFirstAction_writes (plan : AgentPlan) :
    Writes (.plans :: announced) (enqueueFirstAction envelope plan) := by
  unfold enqueueFirstAction
  split
  · split
    · exact trace_writes (by decide) _ _ _ _
    · refine .bind (.perform rfl) fun _ => .bind (.perform rfl) fun _ => ?_
      exact .bind (trace_writes (by decide) _ _ _ _) fun _ => trace_writes (by decide) _ _ _ _
  · refine .bind (.perform rfl) fun _ => .bind (.perform rfl) fun _ => ?_
    exact trace_writes (by decide) _ _ _ _

/-- The parts that the start of a run may write. -/
def starting : List Part := .plans :: .taskGraphs :: .contextSnapshots :: announced

theorem startPlan_writes (registries : Registries) (workflow : WorkflowDefinition)
    (snapshot : ContextSnapshot) (agentRunId : String) (replan : Bool) :
    Writes starting (startPlan registries envelope workflow snapshot agentRunId replan) := by
  refine .bind ((startRun_writes envelope _ _ _ _).mono (by decide)) fun started => ?_
  split
  · exact .pure _
  · refine .bind ((buildPlan_writes _ _ _ _).mono (by decide)) fun plan => ?_
    refine .bind (.perform rfl) fun _ => .bind (.perform rfl) fun _ => ?_
    refine .bind (.perform rfl) fun _ => .bind (trace_writes (by decide) _ _ _ _) fun _ => ?_
    exact (enqueueFirstAction_writes envelope _).mono (by decide)

/-- Handling a domain event executes nothing and consumes no key. -/
theorem handle_writes (registries : Registries) :
    Writes starting (handle registries envelope) := by
  unfold handle
  split
  · exact trace_writes (by decide) _ _ _ _
  · refine .bind ((ContextProvider.hydrate_writes _ _ _).mono (by simp)) fun snapshot => ?_
    dsimp only
    split
    · exact (handleOrchestrated_writes envelope _ _ _ _).mono (by decide)
    · refine .bind (.perform rfl) fun found => ?_
      split
      · exact startPlan_writes envelope _ _ _ _ _
      · split
        · exact startPlan_writes envelope _ _ _ _ _
        · refine .bind (.perform rfl) fun _ => .bind (trace_writes (by decide) _ _ _ _) fun _ => ?_
          exact (enqueueFirstAction_writes envelope _).mono (by decide)

end DomainEventHandler

namespace SubAgentCoordinator

variable (envelope : EventEnvelope)

theorem enqueueAction_writes (subPlan : AgentPlan) (action : PlannedAction) :
    Writes [.queue] (enqueueAction envelope subPlan action) :=
  .bind (.perform rfl) fun _ => .perform rfl

theorem enqueueCompleted_writes (graph : TaskGraph) (nodeId status : String) :
    Writes [.queue] (enqueueCompleted envelope graph nodeId status) :=
  .bind (.perform rfl) fun _ => .perform rfl

theorem resumeExistingSubplan_writes (graph : TaskGraph) (node : SubTask)
    (subPlan : AgentPlan) :
    Writes announced (resumeExistingSubplan envelope graph node subPlan) := by
  have hcompleted : ∀ status, Writes announced (do
      trace envelope.event "subagent.resumed"
      enqueueCompleted envelope graph node.nodeId status) := fun status =>
    .bind (trace_writes (by decide) _ _ _ _) fun _ =>
      (enqueueCompleted_writes envelope _ _ _).mono (by decide)
  unfold resumeExistingSubplan
  split
  · exact .bind ((enqueueAction_writes envelope _ _).mono (by decide)) fun _ =>
      trace_writes (by decide) _ _ _ _
  · split
    · exact hcompleted _
    · exact hcompleted _
    · exact hcompleted _
    · exact hcompleted _
    · exact hcompleted _
    · exact hcompleted _
    · exact trace_writes (by decide) _ _ _ _

theorem planningContext_writes (event : RuntimeEvent) (graph : TaskGraph) (node : SubTask)
    (snapshot : ContextSnapshot) (runId : String) :
    Writes [] (planningContext event graph node snapshot runId) := by
  unfold planningContext
  split
  · exact .bind (.perform rfl) fun _ => .pure _
  · exact .pure _

theorem planNode_writes (registries : Registries) (graph : TaskGraph) (node : SubTask)
    (snapshot : ContextSnapshot) (runId : String) :
    Writes (.plans :: announced)
      (planNode registries envelope graph node snapshot runId) := by
  refine .bind ((planningContext_writes _ _ _ _ _).mono (by simp)) fun context => ?_
  refine .bind (.liftExcept _) fun workflow => .bind (trace_writes (by decide) _ _ _ _) fun _ => ?_
  refine .bind ((SubAgentRunner.planForNode_writes _ _ _ _ _ _).mono (by simp)) fun subPlan => ?_
  refine .bind (.perform rfl) fun _ => .bind (.perform rfl) fun _ => ?_
  split
  · exact .bind (trace_writes (by decide) _ _ _ _) fun _ =>
      (enqueueCompleted_writes envelope _ _ _).mono (by decide)
  · exact .bind ((enqueueAction_writes envelope _ _).mono (by decide)) fun _ =>
      trace_writes (by decide) _ _ _ _

/-- A task event plans its node or resumes it, and announces. -/
theorem handleTask_writes (registries : Registries) (runId nodeId : String) :
    Writes (.plans :: announced) (handleTask registries envelope runId nodeId) := by
  refine .bind (.perform rfl) fun found => ?_
  split
  · exact trace_writes (by decide) _ _ _ _
  · split
    · exact trace_writes (by decide) _ _ _ _
    · split
      · exact trace_writes (by decide) _ _ _ _
      · refine .bind (.perform rfl) fun existing => ?_
        split
        · exact (resumeExistingSubplan_writes envelope _ _ _).mono (by decide)
        · refine .bind (.perform rfl) fun snapshot => ?_
          split
          · exact trace_writes (by decide) _ _ _ _
          · exact planNode_writes envelope _ _ _ _ _

theorem actionOutputs_writes (planId : String) (actions : List PlannedAction)
    (outputs : Fields) : Writes [] (actionOutputs planId actions outputs) := by
  induction actions generalizing outputs with
  | nil => exact .pure _
  | cons action actions ih =>
      refine .bind (.perform rfl) fun result => ?_
      split
      · exact ih _
      · exact ih _

theorem storeResult_writes (workspaceId runId nodeId : String) :
    Writes [.subAgentResults] (storeResult workspaceId runId nodeId) := by
  refine .bind (.perform rfl) fun subPlan => .bind ?_ fun _ => .perform rfl
  cases subPlan with
  | none => exact .pure _
  | some plan => exact .bind ((actionOutputs_writes _ _ _).mono (by simp)) fun _ => .pure _

theorem dispatchNode_writes (graph : TaskGraph) (node : SubTask) :
    Writes announced (dispatchNode envelope graph node) := by
  refine .bind (.perform rfl) fun eventId => .bind (.perform rfl) fun _ => ?_
  exact trace_writes (by decide) _ _ _ _

theorem dispatchNodes_writes (graph : TaskGraph) (nodes : List SubTask) :
    Writes announced (dispatchNodes envelope graph nodes) := by
  induction nodes with
  | nil => exact .pure _
  | cons node nodes ih => exact .bind (dispatchNode_writes envelope _ _) fun _ => ih

theorem followAdvance_writes (runId : String) (advance : TaskGraphAdvance) :
    Writes announced (followAdvance envelope runId advance) := by
  refine .bind (dispatchNodes_writes envelope _ _) fun _ => .bind ?_ fun _ => .bind ?_ fun _ => ?_
  · unfold dispatchSynthesizer
    split
    · exact dispatchNode_writes envelope _ _
    · exact .pure _
  · unfold completeRun
    split
    · exact .bind (.perform rfl) fun _ => trace_writes (by decide) _ _ _ _
    · exact .pure _
  · unfold blockRun
    split
    · exact .bind (.perform rfl) fun _ => trace_writes (by decide) _ _ _ _
    · exact .pure _

theorem recordResult_writes (event : RuntimeEvent) (runId nodeId : String)
    (status : SubTaskStatus) (advance : TaskGraphAdvance) :
    Writes [.subAgentResults] (recordResult event runId nodeId status advance) := by
  unfold recordResult
  split
  · exact storeResult_writes _ _ _
  · exact .pure _

theorem settleAdvance_writes (runId nodeId : String) (status : SubTaskStatus)
    (advance : TaskGraphAdvance) :
    Writes (.subAgentResults :: announced)
      (settleAdvance envelope runId nodeId status advance) := by
  refine .bind ((recordResult_writes _ _ _ _ _).mono (by decide)) fun _ => ?_
  split
  · exact .bind (.perform rfl) fun _ => trace_writes (by decide) _ _ _ _
  · exact (followAdvance_writes envelope _ _).mono (by decide)

/-- Settling a node writes its graph and its result, and announces. -/
theorem handleCompleted_writes (runId nodeId status : String) :
    Writes (.taskGraphs :: .subAgentResults :: announced)
      (handleCompleted envelope runId nodeId status) := by
  have hsettled : ∀ status', Writes (.taskGraphs :: .subAgentResults :: announced)
      (handleSettled envelope runId nodeId status') := by
    intro status'
    refine .bind (.perform rfl) fun found => ?_
    split
    · exact trace_writes (by decide) _ _ _ _
    · split
      · exact trace_writes (by decide) _ _ _ _
      · exact (settleAdvance_writes envelope _ _ _ _).mono (by decide)
  unfold handleCompleted
  split
  · exact hsettled _
  · split
    · exact hsettled _
    · exact trace_writes (by decide) _ _ _ _

end SubAgentCoordinator

end PrismAgent
