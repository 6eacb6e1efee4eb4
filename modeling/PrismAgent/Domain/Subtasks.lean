import Mathlib.Data.Finset.Image
import Mathlib.Logic.Function.Basic

/-!
# Task graphs

The orchestration graph of `domain/subtasks.py`: subagent nodes with their
dependencies and statuses, an optional synthesizer node, and the pure join
logic `claimReady` / `planAdvance` that the state stores wrap.

Timestamps do not occur in this file of the source; every field of its models
is kept.
-/

namespace PrismAgent

inductive SubTaskStatus
  | pending
  | running
  | completed
  | failed
  deriving DecidableEq, Repr

structure SubTask where
  nodeId : String
  skillIds : List String := []
  objective : String := ""
  dependsOn : List String := []
  contextScope : List String := []
  modelTier : String := "pro"
  status : SubTaskStatus := .pending
  deriving DecidableEq, Repr

/-- `set(self.depends_on) <= completed`. -/
def SubTask.isUnblocked (node : SubTask) (completed : Finset String) : Bool :=
  decide (node.dependsOn.toFinset ⊆ completed)

@[simp] theorem SubTask.isUnblocked_iff (node : SubTask) (completed : Finset String) :
    node.isUnblocked completed = true ↔ ∀ d ∈ node.dependsOn, d ∈ completed := by
  simp [SubTask.isUnblocked, Finset.subset_iff]

structure TaskGraph where
  planId : String
  workspaceId : String
  projectId : Option String := none
  contextSnapshotRef : Option String := none
  version : ℕ := 0
  nodes : List SubTask := []
  synthesizerNode : Option SubTask := none
  deriving DecidableEq, Repr

/-- Outcome of recording one node's terminal status against the task graph. -/
structure TaskGraphAdvance where
  graph : TaskGraph
  newlyReady : List SubTask := []
  dispatchSynthesizer : Option SubTask := none
  runCompleted : Bool := false
  runFailed : Bool := false
  blocked : Bool := false
  isSynthesizer : Bool := false
  alreadyProcessed : Bool := false
  deriving DecidableEq, Repr

namespace TaskGraph

/-- A copy with the optimistic-lock version incremented. -/
def bumped (g : TaskGraph) : TaskGraph :=
  { g with version := g.version + 1 }

/-- The node with this id, the ordinary nodes before the synthesizer. -/
def getNode (g : TaskGraph) (nodeId : String) : Option SubTask :=
  match g.nodes.find? (fun node => node.nodeId = nodeId) with
  | some node => some node
  | none =>
      match g.synthesizerNode with
      | some synthesizer => if synthesizer.nodeId = nodeId then some synthesizer else none
      | none => none

def withNodeStatus (g : TaskGraph) (nodeId : String) (status : SubTaskStatus) : TaskGraph :=
  { g with
    nodes := g.nodes.map fun node =>
      if node.nodeId = nodeId then { node with status := status } else node
    synthesizerNode := g.synthesizerNode.map fun synthesizer =>
      if synthesizer.nodeId = nodeId then { synthesizer with status := status }
      else synthesizer }

def allNodesCompleted (g : TaskGraph) : Bool :=
  !g.nodes.isEmpty && g.nodes.all fun node => node.status = .completed

def isSynthesizer (g : TaskGraph) (nodeId : String) : Bool :=
  match g.synthesizerNode with
  | some synthesizer => synthesizer.nodeId = nodeId
  | none => false

def completedNodeIds (g : TaskGraph) : Finset String :=
  ((g.nodes.filter fun node => node.status = .completed).map (·.nodeId)).toFinset

def readyNodes (g : TaskGraph) (completed : Finset String) : List SubTask :=
  g.nodes.filter fun node => node.status = .pending && node.isUnblocked completed

/-- Set every listed node to RUNNING, one after the other. -/
def claimAll (g : TaskGraph) (ready : List SubTask) : TaskGraph :=
  ready.foldl (fun graph node => graph.withNodeStatus node.nodeId .running) g

/-- Transition every runnable PENDING node to RUNNING; the updated graph and the
claimed nodes as they stand in it. -/
def claimReady (g : TaskGraph) : TaskGraph × List SubTask :=
  let ready := g.readyNodes g.completedNodeIds
  let graph := g.claimAll ready
  (graph, ready.filterMap fun node => graph.getNode node.nodeId)

/-- Record a node's terminal status and decide what happens next. -/
def planAdvance (g : TaskGraph) (nodeId : String) (status : SubTaskStatus) :
    TaskGraphAdvance :=
  match g.getNode nodeId with
  | none => { graph := g }
  | some node =>
    if node.status = status then { graph := g, alreadyProcessed := true }
    else
      let graph := g.withNodeStatus nodeId status
      if status = .failed then { graph := graph, runFailed := true }
      else if status ≠ .completed then { graph := graph }
      else if graph.isSynthesizer nodeId then
        { graph := graph, isSynthesizer := true, runCompleted := true }
      else
        let ready := graph.readyNodes graph.completedNodeIds
        if ready ≠ [] then
          let claimed := graph.claimAll ready
          { graph := claimed
            newlyReady := ready.filterMap fun n => claimed.getNode n.nodeId }
        else if graph.allNodesCompleted then
          match graph.synthesizerNode with
          | some synthesizer =>
            if synthesizer.status = .pending then
              let dispatched := graph.withNodeStatus synthesizer.nodeId .running
              { graph := dispatched, dispatchSynthesizer := dispatched.synthesizerNode }
            else if synthesizer.status ≠ .completed then { graph := graph }
            else { graph := graph, runCompleted := true }
          | none => { graph := graph, runCompleted := true }
        else if graph.nodes.any (fun n => n.status = .running) then { graph := graph }
        else { graph := graph, blocked := true }

/-- Claiming leaves what a graph is filed under, and its snapshot. -/
theorem claimAll_filing (g : TaskGraph) (ready : List SubTask) :
    (g.claimAll ready).planId = g.planId ∧ (g.claimAll ready).workspaceId = g.workspaceId ∧
      (g.claimAll ready).contextSnapshotRef = g.contextSnapshotRef := by
  unfold claimAll
  induction ready generalizing g with
  | nil => exact ⟨rfl, rfl, rfl⟩
  | cons node ready ih => exact ih _

theorem claimReady_filing (g : TaskGraph) :
    g.claimReady.1.planId = g.planId ∧ g.claimReady.1.workspaceId = g.workspaceId ∧
      g.claimReady.1.contextSnapshotRef = g.contextSnapshotRef :=
  claimAll_filing g _

/-- So does an advance. -/
theorem planAdvance_filing (g : TaskGraph) (nodeId : String) (status : SubTaskStatus) :
    (g.planAdvance nodeId status).graph.planId = g.planId ∧
      (g.planAdvance nodeId status).graph.workspaceId = g.workspaceId ∧
        (g.planAdvance nodeId status).graph.contextSnapshotRef = g.contextSnapshotRef := by
  unfold planAdvance
  dsimp only
  repeat' split
  all_goals first | exact ⟨rfl, rfl, rfl⟩ | exact claimAll_filing _ _

end TaskGraph

end PrismAgent
