import PrismAgent.Application.ActionEventHandler
import PrismAgent.Application.Writes

/-!
# The nodes of a declared graph

The names of the nodes are declared, or filled in from the position of the node, or
reserved; nothing compares them. A node whose name is its own and is not that of the root
gets a sub-plan of its own, which reports to the coordinator when it completes.
-/

namespace PrismAgent

open Effect
open SubAgentRunner (planForNode subPlanId)

/-- The nodes of a graph, the synthesizer last. -/
def TaskGraph.allNodes (g : TaskGraph) : List SubTask := g.nodes ++ g.synthesizerNode.toList

namespace Orchestrator

/-- The name of a declared node. -/
def nodeName (nodeDef : OrchestrationNodeDef) (fallbackNodeId : String) : String :=
  if nodeDef.node = "" then fallbackNodeId else nodeDef.node

/-- The names of the declared nodes, the synthesizer's last. -/
def nodeNames (orchestration : OrchestrationDef) : List String :=
  (orchestration.defaultGraph.zipIdx.map fun entry =>
      nodeName entry.1 ("node_" ++ toString entry.2)) ++
    orchestration.synthesizer.toList.map fun nodeDef => nodeName nodeDef SYNTHESIZER_NODE_ID

section Names

variable {skills : SkillRegistry} {workflow : WorkflowDefinition}

theorem buildNode_nodeId {nodeDef : OrchestrationNodeDef} {fallbackNodeId : String}
    {defaultDependsOn : List String} {node : SubTask}
    (h : buildNode skills workflow nodeDef fallbackNodeId defaultDependsOn = .ok node) :
    node.nodeId = nodeName nodeDef fallbackNodeId := by
  unfold buildNode at h
  dsimp only at h
  split at h
  · cases h
  · cases h
    rfl

theorem buildNodes_nodeIds {nodeDefs : List OrchestrationNodeDef} {index : ℕ}
    {nodes : List SubTask} (h : buildNodes skills workflow nodeDefs index = .ok nodes) :
    nodes.map (·.nodeId) = (nodeDefs.zipIdx index).map fun entry =>
      nodeName entry.1 ("node_" ++ toString entry.2) := by
  induction nodeDefs generalizing index nodes with
  | nil =>
      cases h
      rfl
  | cons nodeDef nodeDefs ih =>
      unfold buildNodes at h
      cases hnode : buildNode skills workflow nodeDef ("node_" ++ toString index) [] with
      | error x =>
          rw [hnode] at h
          cases h
      | ok node =>
          rw [hnode] at h
          cases hrest : buildNodes skills workflow nodeDefs (index + 1) with
          | error x =>
              simp only [hrest, bind, Except.bind] at h
              cases h
          | ok rest =>
              simp only [hrest, bind, Except.bind] at h
              cases h
              rw [List.map_cons, List.zipIdx_cons, List.map_cons, buildNode_nodeId hnode, ih hrest]

theorem buildSynthesizer_nodeId {nodes : List SubTask} {nodeDef : Option OrchestrationNodeDef}
    {synthesizer : Option SubTask}
    (h : buildSynthesizer skills workflow nodes nodeDef = .ok synthesizer) :
    synthesizer.toList.map (·.nodeId) =
      nodeDef.toList.map fun nodeDef => nodeName nodeDef SYNTHESIZER_NODE_ID := by
  cases nodeDef with
  | none =>
      cases h
      rfl
  | some nodeDef =>
      unfold buildSynthesizer at h
      dsimp only at h
      cases hnode : buildNode skills workflow nodeDef SYNTHESIZER_NODE_ID
          (nodes.map (·.nodeId)) with
      | error x =>
          rw [hnode] at h
          cases h
      | ok node =>
          rw [hnode] at h
          cases h
          exact congrArg (fun id => [id]) (buildNode_nodeId hnode)

/-- The nodes of a built graph have the declared names. -/
theorem allNodes_nodeIds {planId : String} {context : AgentContext}
    {orchestration : OrchestrationDef}
    (horchestration : workflow.orchestration = some orchestration)
    (hgraph : orchestration.defaultGraph ≠ []) {graph : TaskGraph}
    (h : buildOrchestratedGraph skills planId context workflow = .ok graph) :
    graph.allNodes.map (·.nodeId) = nodeNames orchestration := by
  unfold buildOrchestratedGraph at h
  rw [horchestration] at h
  dsimp only at h
  rw [if_neg hgraph] at h
  cases hnodes : buildNodes skills workflow orchestration.defaultGraph 0 with
  | error x =>
      rw [hnodes] at h
      cases h
  | ok nodes =>
      cases hsynthesizer : buildSynthesizer skills workflow nodes orchestration.synthesizer with
      | error x =>
          simp only [hnodes, bind, Except.bind, hsynthesizer] at h
          cases h
      | ok synthesizer =>
          simp only [hnodes, bind, Except.bind, hsynthesizer] at h
          cases h
          unfold TaskGraph.allNodes nodeNames
          rw [List.map_append, buildNodes_nodeIds hnodes, buildSynthesizer_nodeId hsynthesizer]

end Names

end Orchestrator

section Settles

/-- When the plan completes, in whatever state of its actions, the coordinator is sent the
completion of the node. -/
def ReportsNode (plan : AgentPlan) (runId nodeId : String) : Prop :=
  ∀ (env : Env) (w : World MemoryStateStore) (envelope : EventEnvelope) (done : AgentPlan),
    done.parentRunId = plan.parentRunId → done.nodeId = plan.nodeId → done.status = .completed →
      (ActionEventHandler.finishPlan envelope done).wp env.sem.step (fun r t => r = .ok () ∧
        ∃ e, t.queue = w.queue ++ [e] ∧
          e.event.kind = .subagentCompleted runId nodeId "completed") w

theorem reportsNode {plan : AgentPlan} {runId nodeId : String}
    (hrun : plan.parentRunId = some runId) (hnode : plan.nodeId = some nodeId) :
    ReportsNode plan runId nodeId := by
  intro env w envelope done hdoneRun hdoneNode hdone
  have hsub : done.isSubplan = true := by
    unfold AgentPlan.isSubplan
    rw [hdoneRun, hrun]
    rfl
  unfold ActionEventHandler.finishPlan ActionEventHandler.settleSubplan
  rw [if_pos hdone, if_pos hsub, hdoneRun, hrun, hdoneNode, hnode, Program.wp_step_iff]
  exact ⟨rfl, _, rfl, rfl⟩

variable (registries : Registries) (context : AgentContext) (contextSnapshotRef : String)
  (workflow : WorkflowDefinition) (agentRunId : String)

/-- The plans that a node may be given. -/
def MayPlan (node : SubTask) (plan : AgentPlan) : Prop :=
  (planForNode registries node context contextSnapshotRef workflow agentRunId).MayReturn plan

/-- The node ids are distinct, and every node gets a sub-plan of its own that reports its
completion. -/
structure SettlesApart (graph : TaskGraph) : Prop where
  distinct : (graph.allNodes.map (·.nodeId)).Nodup
  subplans : ∀ node ∈ graph.allNodes, ∀ plan,
    MayPlan registries context contextSnapshotRef workflow agentRunId node plan →
      plan.isSubplan = true ∧ plan.nodeId = some node.nodeId ∧ plan.planId ≠ agentRunId ∧
        ReportsNode plan agentRunId node.nodeId
  apart : graph.allNodes.Pairwise fun node other => ∀ plan plan',
    MayPlan registries context contextSnapshotRef workflow agentRunId node plan →
      MayPlan registries context contextSnapshotRef workflow agentRunId other plan' →
        plan.planId ≠ plan'.planId

variable {registries context contextSnapshotRef workflow agentRunId}

theorem subPlanId_inj {runId nodeId nodeId' : String}
    (h : subPlanId runId nodeId = subPlanId runId nodeId') : nodeId = nodeId' := by
  have hlist := congrArg String.toList h
  simp only [subPlanId, String.toList_append, List.append_assoc,
    List.append_cancel_left_eq] at hlist
  exact String.toList_injective hlist

/-- A node that is not the root gets a sub-plan of its own. -/
theorem MayPlan.subplan {node : SubTask} {plan : AgentPlan} (hroot : node.nodeId ≠ ROOT_NODE_ID)
    (h : MayPlan registries context contextSnapshotRef workflow agentRunId node plan) :
    plan.planId = subPlanId agentRunId node.nodeId ∧ plan.parentRunId = some agentRunId ∧
      plan.nodeId = some node.nodeId :=
  (SubAgentRunner.planForNode_mayReturn h).elim (fun h => absurd h.1 hroot) fun h => h.2

/-- The nodes of a built graph settle apart if and only if their names are distinct and no
plan is made for a node with the root's name. -/
theorem nodes_settle_apart_iff {planId : String} {orchestration : OrchestrationDef}
    (horchestration : workflow.orchestration = some orchestration)
    (hgraph : orchestration.defaultGraph ≠ []) {graph : TaskGraph}
    (hbuilt : Orchestrator.buildOrchestratedGraph registries.skills planId context workflow =
      .ok graph) :
    SettlesApart registries context contextSnapshotRef workflow agentRunId graph ↔
      (Orchestrator.nodeNames orchestration).Nodup ∧
        (ROOT_NODE_ID ∈ Orchestrator.nodeNames orchestration → ∀ plan,
          ¬ (Planner.createPlan registries context contextSnapshotRef workflow agentRunId
            {}).MayReturn plan) := by
  have hnames := Orchestrator.allNodes_nodeIds horchestration hgraph hbuilt
  have hcreate : ∀ {node : SubTask}, node.nodeId = ROOT_NODE_ID →
      planForNode registries node context contextSnapshotRef workflow agentRunId =
        Planner.createPlan registries context contextSnapshotRef workflow agentRunId {} :=
    fun hroot => if_pos hroot
  constructor
  · intro h
    refine ⟨hnames ▸ h.distinct, fun hroot plan hplan => ?_⟩
    rw [← hnames] at hroot
    obtain ⟨node, hnode, hid⟩ := List.mem_map.1 hroot
    rw [← hcreate hid] at hplan
    rcases SubAgentRunner.planForNode_mayReturn hplan with ⟨-, hrun⟩ | ⟨hne, -⟩
    · exact (h.subplans node hnode plan hplan).2.2.1 hrun
    · exact hne hid
  · rintro ⟨hnodup, hunplanned⟩
    have hother : ∀ node ∈ graph.allNodes, ∀ plan,
        MayPlan registries context contextSnapshotRef workflow agentRunId node plan →
          node.nodeId ≠ ROOT_NODE_ID := by
      intro node hnode plan hplan hid
      refine hunplanned ?_ plan ?_
      · rw [← hnames, ← hid]
        exact List.mem_map_of_mem hnode
      · rw [← hcreate hid]
        exact hplan
    rw [← hnames] at hnodup
    refine ⟨hnodup, fun node hnode plan hplan => ?_, ?_⟩
    · obtain ⟨hid, hparent, hnodeId⟩ := hplan.subplan (hother node hnode plan hplan)
      refine ⟨?_, hnodeId, ?_, reportsNode hparent hnodeId⟩
      · unfold AgentPlan.isSubplan
        rw [hparent]
        rfl
      · rw [hid]
        exact (runId_ne_subPlanId _ _).symm
    · have hpairwise := List.pairwise_map.1 hnodup
      refine List.Pairwise.imp_of_mem
        (fun {node other} hnode hmem hne plan plan' hplan hplan' => ?_)
        hpairwise
      rw [(hplan.subplan (hother node hnode plan hplan)).1,
        (hplan'.subplan (hother other hmem plan' hplan')).1]
      exact fun heq => hne (subPlanId_inj heq)

end Settles

section Sample

/-- A workflow that declares a graph of independent nodes, `""` for a node without a name. -/
def declaredWorkflow (names : List String) : WorkflowDefinition :=
  { id := "workflow", triggerTypes := ["manual"], requiredSkills := ["skill"]
    promptId := "prompt", promptVersion := "1", approvalPolicy := []
    approvalPolicy_nodup := List.nodup_nil
    orchestration := some
      { defaultGraph := names.map fun name => { node := name, skill := some "skill" } } }

def declaredContext : AgentContext :=
  { workspaceId := "ws", projectId := none
    sourceEvent := .wrap
      { kind := .domain, eventId := "event", eventType := "requested", workspaceId := "ws" }
    workflowId := "workflow" }

/-- A node declared as `node_1` and a second node without a name share one id. -/
theorem position_name_collides :
    ¬ ∀ graph, Orchestrator.buildOrchestratedGraph {} "run" declaredContext
        (declaredWorkflow ["node_1", ""]) = .ok graph →
      SettlesApart {} declaredContext "ref" (declaredWorkflow ["node_1", ""]) "run" graph := by
  intro h
  have hdistinct := (h _ rfl).distinct
  revert hdistinct
  decide

/-- The prompt of the workflow, and a skill with one tool. -/
def declaredRegistries : Registries :=
  { prompts :=
      { workflows := [(("prompt", "1"), { id := "prompt", version := "1", goal := "goal" })] }
    skills :=
      { skills := [("skill", { id := "skill", version := "1", allowedTools := ["notify"] })] }
    tools := { tools := [("notify", { id := "notify", version := "1" })] } }

/-- A plan of one action. -/
def proposedPlan : AgentPlan :=
  { planId := "", sourceEventId := "", workspaceId := "", projectId := none, goal := ""
    promptId := "", promptVersion := "", contextSnapshotRef := ""
    actions :=
      [{ actionId := "1", planId := "", actionType := "notify", toolName := "notify"
         instruction := "", idempotencyKey := "" }] }

/-- Two nodes with names of their own are planned, and settle apart. -/
theorem nodes_settle_apart_sample :
    ∃ graph, Orchestrator.buildOrchestratedGraph declaredRegistries.skills "run" declaredContext
        (declaredWorkflow ["a", "b"]) = .ok graph ∧
      (∀ node ∈ graph.allNodes, ∃ plan, MayPlan declaredRegistries declaredContext "ref"
        (declaredWorkflow ["a", "b"]) "run" node plan ∧ plan.actions ≠ []) ∧
      SettlesApart declaredRegistries declaredContext "ref" (declaredWorkflow ["a", "b"]) "run"
        graph := by
  have hbuilt : Orchestrator.buildOrchestratedGraph declaredRegistries.skills "run"
      declaredContext (declaredWorkflow ["a", "b"]) = .ok _ := rfl
  have hplanned : ∀ node : SubTask, node.nodeId ≠ ROOT_NODE_ID → node.skillIds = ["skill"] →
      ∃ plan, MayPlan declaredRegistries declaredContext "ref" (declaredWorkflow ["a", "b"]) "run"
        node plan ∧ plan.actions ≠ [] := by
    intro node hroot hskills
    unfold MayPlan planForNode
    rw [if_neg hroot, hskills]
    exact ⟨_, ⟨.ok proposedPlan, rfl⟩, List.cons_ne_nil _ _⟩
  refine ⟨_, hbuilt, ?_, (nodes_settle_apart_iff rfl (by simp) hbuilt).2
    ⟨by decide, fun h => absurd h (by decide)⟩⟩
  intro node hnode
  rcases List.mem_cons.1 hnode with rfl | hnode
  · exact hplanned _ (by decide) rfl
  · rw [List.mem_singleton.1 hnode]
    exact hplanned _ (by decide) rfl

end Sample

end PrismAgent
