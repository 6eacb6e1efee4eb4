import PrismAgent.State.PrismApi
import PrismAgent.Refinement.Lockstep

/-!
# The operations of the state stores

The operations of `infrastructure/state/base.py` as data, with what each answers. The two
stores are machines over them. Two answers are compared without the version of a task graph,
which only the API-backed store counts up; the in-memory store behaves the same on tables
that agree up to it.
-/

namespace PrismAgent

open Function Lockstep

/-- An operation with its arguments. -/
inductive StateOp
  | savePlan (plan : AgentPlan)
  | getPlan (workspaceId planId : String)
  | saveTaskGraph (graph : TaskGraph)
  | getTaskGraph (workspaceId planId : String)
  | saveSubAgentResult (workspaceId runId : String) (result : SubAgentResult)
  | getSubAgentResults (workspaceId runId : String)
  | claimReadyNodes (workspaceId runId : String)
  | advanceTaskGraph (workspaceId runId nodeId : String) (status : SubTaskStatus)
  | updatePlan (plan : AgentPlan)
  | saveContextSnapshot (snapshot : ContextSnapshot)
  | getContextSnapshot (workspaceId snapshotRef : String)
  | saveActionResult (result : ToolResult)
  | getActionResult (planId actionId : String)
  | appendTraceEvent (traceEvent : TraceEvent)
  | markActionCompleted (workspaceId planId actionId : String)
  | checkIdempotencyKey (key : String)
  | recordIdempotencyKey (key : String)

/-- What an operation returns; the others return nothing. -/
def StateOp.Answer : StateOp → Type
  | getPlan _ _ => Option AgentPlan
  | getTaskGraph _ _ => Option TaskGraph
  | getSubAgentResults _ _ => List SubAgentResult
  | claimReadyNodes _ _ => List SubTask
  | advanceTaskGraph _ _ _ _ => Option TaskGraphAdvance
  | getContextSnapshot _ _ => Option ContextSnapshot
  | getActionResult _ _ => Option ToolResult
  | checkIdempotencyKey _ => Bool
  | _ => Unit

namespace MemoryStateStore

variable (store : MemoryStateStore)

def markActionCompleted (workspaceId planId actionId : String) : MemoryStateStore :=
  match store.getPlan workspaceId planId with
  | none => store
  | some plan =>
      match plan.getAction actionId with
      | none => store
      | some action => store.updatePlan (plan.replaceAction (action.withStatus .completed))

/-- The in-memory store as a machine. -/
def machine : Machine StateOp MemoryStateStore StateOp.Answer
  | .savePlan plan, store => ((), store.savePlan plan)
  | .getPlan workspaceId planId, store => (store.getPlan workspaceId planId, store)
  | .saveTaskGraph graph, store => ((), store.saveTaskGraph graph)
  | .getTaskGraph workspaceId planId, store => (store.getTaskGraph workspaceId planId, store)
  | .saveSubAgentResult workspaceId runId result, store =>
      ((), store.saveSubAgentResult workspaceId runId result)
  | .getSubAgentResults workspaceId runId, store =>
      (store.getSubAgentResults workspaceId runId, store)
  | .claimReadyNodes workspaceId runId, store => store.claimReadyNodes workspaceId runId
  | .advanceTaskGraph workspaceId runId nodeId status, store =>
      store.advanceTaskGraph workspaceId runId nodeId status
  | .updatePlan plan, store => ((), store.updatePlan plan)
  | .saveContextSnapshot snapshot, store => ((), store.saveContextSnapshot snapshot)
  | .getContextSnapshot workspaceId snapshotRef, store =>
      (store.getContextSnapshot workspaceId snapshotRef, store)
  | .saveActionResult result, store => ((), store.saveActionResult result)
  | .getActionResult planId actionId, store => (store.getActionResult planId actionId, store)
  | .appendTraceEvent traceEvent, store => ((), store.appendTraceEvent traceEvent)
  | .markActionCompleted workspaceId planId actionId, store =>
      ((), store.markActionCompleted workspaceId planId actionId)
  | .checkIdempotencyKey key, store => (store.checkIdempotencyKey key, store)
  | .recordIdempotencyKey key, store => ((), store.recordIdempotencyKey key)

end MemoryStateStore

namespace PrismApiStateStore

variable (api : StateApi) (store : PrismApiStateStore)

def markActionCompleted (workspaceId planId actionId : String) : PrismApiStateStore :=
  store.withFallback (store.fallbackStore.markActionCompleted workspaceId planId actionId)

/-- The API-backed store as a machine. -/
def machine : Machine StateOp PrismApiStateStore StateOp.Answer
  | .savePlan plan, store => ((), store.savePlan api plan)
  | .getPlan workspaceId planId, store => store.getPlan api workspaceId planId
  | .saveTaskGraph graph, store => ((), store.saveTaskGraph api graph)
  | .getTaskGraph workspaceId planId, store => store.getTaskGraph api workspaceId planId
  | .saveSubAgentResult workspaceId runId result, store =>
      ((), store.saveSubAgentResult api workspaceId runId result)
  | .getSubAgentResults workspaceId runId, store =>
      store.getSubAgentResults api workspaceId runId
  | .claimReadyNodes workspaceId runId, store => store.claimReadyNodes api workspaceId runId
  | .advanceTaskGraph workspaceId runId nodeId status, store =>
      store.advanceTaskGraph api workspaceId runId nodeId status
  | .updatePlan plan, store => ((), store.updatePlan api plan)
  | .saveContextSnapshot snapshot, store => ((), store.saveContextSnapshot api snapshot)
  | .getContextSnapshot workspaceId snapshotRef, store =>
      (store.getContextSnapshot workspaceId snapshotRef, store)
  | .saveActionResult result, store => ((), store.saveActionResult api result)
  | .getActionResult planId actionId, store => (store.getActionResult planId actionId, store)
  | .appendTraceEvent traceEvent, store => ((), store.appendTraceEvent traceEvent)
  | .markActionCompleted workspaceId planId actionId, store =>
      ((), store.markActionCompleted workspaceId planId actionId)
  | .checkIdempotencyKey key, store => store.checkIdempotencyKey api key
  | .recordIdempotencyKey key, store => ((), store.recordIdempotencyKey api key)

end PrismApiStateStore

namespace TaskGraph

variable {g : TaskGraph}

theorem claimAll_nodeIds (g : TaskGraph) (ready : List SubTask) :
    (g.claimAll ready).nodes.map (·.nodeId) = g.nodes.map (·.nodeId) := by
  unfold claimAll
  induction ready generalizing g with
  | nil => rfl
  | cons node ready ih =>
      refine (ih _).trans ?_
      simp only [withNodeStatus, List.map_map]
      refine List.map_congr_left fun other _ => ?_
      simp only [comp_apply]
      split <;> rfl

theorem getNode_ne_none {nodeId : String} (h : nodeId ∈ g.nodes.map (·.nodeId)) :
    g.getNode nodeId ≠ none := by
  obtain ⟨node, hnode, rfl⟩ := List.mem_map.1 h
  unfold getNode
  cases hfind : g.nodes.find? fun other => other.nodeId = node.nodeId with
  | some found => simp
  | none =>
      have hother := List.find?_eq_none.1 hfind node hnode
      simp at hother

/-- A claim of no nodes leaves the graph as it is. -/
theorem claimReady_of_nil (h : g.claimReady.2 = []) : g.claimReady.1 = g := by
  have hready : g.readyNodes g.completedNodeIds = [] := by
    refine List.eq_nil_iff_forall_not_mem.2 fun node hnode => ?_
    refine getNode_ne_none ?_ (List.filterMap_eq_nil_iff.1 h node hnode)
    rw [claimAll_nodeIds]
    exact List.mem_map_of_mem (List.mem_filter.1 hnode).1
  unfold claimReady
  rw [hready]
  rfl

/-- So does an advance of a node that has its status. -/
theorem planAdvance_of_alreadyProcessed {nodeId : String} {status : SubTaskStatus}
    (h : (g.planAdvance nodeId status).alreadyProcessed = true) :
    (g.planAdvance nodeId status).graph = g := by
  unfold planAdvance at *
  cases hnode : g.getNode nodeId with
  | none => rfl
  | some node =>
      rw [hnode] at h
      dsimp only at *
      by_cases hstatus : node.status = status
      · rw [if_pos hstatus]
      · rw [if_neg hstatus] at h
        repeat' split at h
        all_goals cases h

end TaskGraph

section Versions

namespace TaskGraph

/-- The graph without its version. -/
def unversioned (g : TaskGraph) : TaskGraph := { g with version := 0 }

variable (g : TaskGraph)

theorem unversioned_claimAll (ready : List SubTask) :
    (g.claimAll ready).unversioned = g.unversioned.claimAll ready := by
  unfold claimAll
  induction ready generalizing g with
  | nil => rfl
  | cons node ready ih => exact ih _

/-- A claim does not read the version. -/
theorem claimReady_unversioned :
    g.unversioned.claimReady = (g.claimReady.1.unversioned, g.claimReady.2) := by
  have hclaims : g.unversioned.claimAll (g.readyNodes g.completedNodeIds) =
      (g.claimAll (g.readyNodes g.completedNodeIds)).unversioned :=
    (unversioned_claimAll g _).symm
  unfold claimReady
  change (g.unversioned.claimAll (g.readyNodes g.completedNodeIds),
    (g.readyNodes g.completedNodeIds).filterMap fun node =>
      (g.unversioned.claimAll (g.readyNodes g.completedNodeIds)).getNode node.nodeId) = _
  rw [hclaims]
  rfl

end TaskGraph

/-- The advance without the version of its graph. -/
def TaskGraphAdvance.unversioned (advance : TaskGraphAdvance) : TaskGraphAdvance :=
  { advance with graph := advance.graph.unversioned }

/-- Nor does an advance. -/
theorem TaskGraph.planAdvance_unversioned (g : TaskGraph) (nodeId : String)
    (status : SubTaskStatus) :
    g.unversioned.planAdvance nodeId status = (g.planAdvance nodeId status).unversioned := by
  have hnode : g.unversioned.getNode nodeId = g.getNode nodeId := rfl
  have hmarked : g.unversioned.withNodeStatus nodeId status =
      (g.withNodeStatus nodeId status).unversioned := rfl
  unfold planAdvance
  rw [hnode, hmarked]
  cases g.getNode nodeId with
  | none => rfl
  | some node =>
      dsimp only
      generalize g.withNodeStatus nodeId status = graph
      -- both sides take the same branch: no condition reads the version
      have hready : graph.unversioned.readyNodes graph.unversioned.completedNodeIds =
          graph.readyNodes graph.completedNodeIds := rfl
      have hsynthesizer : graph.unversioned.synthesizerNode = graph.synthesizerNode := rfl
      have hisSynthesizer : graph.unversioned.isSynthesizer nodeId = graph.isSynthesizer nodeId :=
        rfl
      have hall : graph.unversioned.allNodesCompleted = graph.allNodesCompleted := rfl
      have hnodes : graph.unversioned.nodes = graph.nodes := rfl
      rw [hready, hsynthesizer, hisSynthesizer, hall, hnodes, ← unversioned_claimAll]
      repeat' split
      all_goals rfl

namespace MemoryStateStore

/-- The store with the versions of its graphs left out. -/
def unversioned (store : MemoryStateStore) : MemoryStateStore :=
  { store with taskGraphs := Option.map TaskGraph.unversioned ∘ store.taskGraphs }

variable {store : MemoryStateStore}

@[simp] theorem unversioned_unversioned : store.unversioned.unversioned = store.unversioned := by
  have htables : Option.map TaskGraph.unversioned ∘ Option.map TaskGraph.unversioned ∘
      store.taskGraphs = Option.map TaskGraph.unversioned ∘ store.taskGraphs := by
    funext key
    exact Option.map_map ..
  exact congrArg (fun taskGraphs => { store with taskGraphs }) htables

theorem unversioned_saveTaskGraph (graph : TaskGraph) :
    (store.saveTaskGraph graph).unversioned =
      store.unversioned.saveTaskGraph graph.unversioned :=
  congrArg (fun taskGraphs => { store with taskGraphs }) (comp_update ..)

/-- Two graphs that agree up to their versions are saved alike. -/
theorem saveTaskGraph_congr {store' : MemoryStateStore} {graph graph' : TaskGraph}
    (hstore : store.unversioned = store'.unversioned)
    (hgraph : graph.unversioned = graph'.unversioned) :
    (store.saveTaskGraph graph).unversioned = (store'.saveTaskGraph graph').unversioned := by
  rw [unversioned_saveTaskGraph, unversioned_saveTaskGraph, hstore, hgraph]

end MemoryStateStore

/-- An answer without the versions in it. -/
def StateOp.seen : (o : StateOp) → o.Answer → o.Answer
  | .getTaskGraph _ _, answer => Option.map TaskGraph.unversioned answer
  | .advanceTaskGraph _ _ _ _, answer => Option.map TaskGraphAdvance.unversioned answer
  | .savePlan _, answer => answer
  | .getPlan _ _, answer => answer
  | .saveTaskGraph _, answer => answer
  | .saveSubAgentResult _ _ _, answer => answer
  | .getSubAgentResults _ _, answer => answer
  | .claimReadyNodes _ _, answer => answer
  | .updatePlan _, answer => answer
  | .saveContextSnapshot _, answer => answer
  | .getContextSnapshot _ _, answer => answer
  | .saveActionResult _, answer => answer
  | .getActionResult _ _, answer => answer
  | .appendTraceEvent _, answer => answer
  | .markActionCompleted _ _ _, answer => answer
  | .checkIdempotencyKey _, answer => answer
  | .recordIdempotencyKey _, answer => answer

namespace MemoryStateStore

variable (store : MemoryStateStore)

theorem getTaskGraph_unversioned (workspaceId planId : String) :
    store.unversioned.getTaskGraph workspaceId planId =
      (store.getTaskGraph workspaceId planId).map TaskGraph.unversioned := rfl

theorem claimReadyNodes_unversioned (workspaceId runId : String) :
    (store.unversioned.claimReadyNodes workspaceId runId).1 =
        (store.claimReadyNodes workspaceId runId).1 ∧
      (store.unversioned.claimReadyNodes workspaceId runId).2.unversioned =
        (store.claimReadyNodes workspaceId runId).2.unversioned := by
  unfold claimReadyNodes
  rw [getTaskGraph_unversioned]
  cases store.getTaskGraph workspaceId runId with
  | none => exact ⟨rfl, unversioned_unversioned⟩
  | some graph =>
      rw [Option.map_some]
      dsimp only
      rw [graph.claimReady_unversioned]
      exact ⟨rfl, saveTaskGraph_congr unversioned_unversioned rfl⟩

theorem advanceTaskGraph_unversioned (workspaceId runId nodeId : String)
    (status : SubTaskStatus) :
    (store.unversioned.advanceTaskGraph workspaceId runId nodeId status).1.map
          TaskGraphAdvance.unversioned =
        (store.advanceTaskGraph workspaceId runId nodeId status).1.map
          TaskGraphAdvance.unversioned ∧
      (store.unversioned.advanceTaskGraph workspaceId runId nodeId status).2.unversioned =
        (store.advanceTaskGraph workspaceId runId nodeId status).2.unversioned := by
  unfold advanceTaskGraph
  rw [getTaskGraph_unversioned]
  cases store.getTaskGraph workspaceId runId with
  | none => exact ⟨rfl, unversioned_unversioned⟩
  | some graph =>
      rw [Option.map_some]
      dsimp only
      rw [graph.planAdvance_unversioned]
      exact ⟨rfl, saveTaskGraph_congr unversioned_unversioned rfl⟩

theorem markActionCompleted_unversioned (workspaceId planId actionId : String) :
    (store.unversioned.markActionCompleted workspaceId planId actionId).unversioned =
      (store.markActionCompleted workspaceId planId actionId).unversioned := by
  have hplan : store.unversioned.getPlan workspaceId planId = store.getPlan workspaceId planId :=
    rfl
  unfold markActionCompleted
  rw [hplan]
  cases store.getPlan workspaceId planId with
  | none => exact unversioned_unversioned
  | some plan =>
      dsimp only
      cases plan.getAction actionId with
      | none => exact unversioned_unversioned
      | some action => exact congrArg (updatePlan · _) unversioned_unversioned

/-- No operation of the in-memory store depends on the versions. -/
theorem machine_unversioned (o : StateOp) :
    o.seen (machine o store.unversioned).1 = o.seen (machine o store).1 ∧
      (machine o store.unversioned).2.unversioned = (machine o store).2.unversioned := by
  cases o with
  | saveTaskGraph graph => exact ⟨rfl, saveTaskGraph_congr unversioned_unversioned rfl⟩
  | getTaskGraph workspaceId planId => exact ⟨Option.map_map .., unversioned_unversioned⟩
  | claimReadyNodes workspaceId runId => exact claimReadyNodes_unversioned store workspaceId runId
  | advanceTaskGraph workspaceId runId nodeId status =>
      exact advanceTaskGraph_unversioned store workspaceId runId nodeId status
  | markActionCompleted workspaceId planId actionId =>
      exact ⟨rfl, markActionCompleted_unversioned store workspaceId planId actionId⟩
  | savePlan plan => exact ⟨rfl, congrArg (savePlan · plan) unversioned_unversioned⟩
  | updatePlan plan => exact ⟨rfl, congrArg (updatePlan · plan) unversioned_unversioned⟩
  | saveSubAgentResult workspaceId runId result =>
      exact ⟨rfl, congrArg (saveSubAgentResult · workspaceId runId result) unversioned_unversioned⟩
  | saveContextSnapshot snapshot =>
      exact ⟨rfl, congrArg (saveContextSnapshot · snapshot) unversioned_unversioned⟩
  | saveActionResult result =>
      exact ⟨rfl, congrArg (saveActionResult · result) unversioned_unversioned⟩
  | appendTraceEvent traceEvent =>
      exact ⟨rfl, congrArg (appendTraceEvent · traceEvent) unversioned_unversioned⟩
  | recordIdempotencyKey key =>
      exact ⟨rfl, congrArg (recordIdempotencyKey · key) unversioned_unversioned⟩
  | _ => exact ⟨rfl, unversioned_unversioned⟩

/-- Stores that agree up to the versions answer alike and still agree. -/
theorem machine_congr {store store' : MemoryStateStore}
    (h : store.unversioned = store'.unversioned) (o : StateOp) :
    o.seen (machine o store).1 = o.seen (machine o store').1 ∧
      (machine o store).2.unversioned = (machine o store').2.unversioned := by
  obtain ⟨hanswer, hnext⟩ := machine_unversioned store o
  obtain ⟨hanswer', hnext'⟩ := machine_unversioned store' o
  rw [← hanswer, ← hnext, h]
  exact ⟨hanswer', hnext'⟩

end MemoryStateStore

end Versions

end PrismAgent
