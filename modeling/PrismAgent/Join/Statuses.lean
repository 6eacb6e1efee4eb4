import PrismAgent.Domain.Subtasks

/-!
# Task graphs as status maps

The join logic changes nothing of a task graph but node statuses, and it
addresses nodes by id. When all nodes with one id agree on their status the
graph is therefore its static part together with a map from ids to statuses:
`g.withStatuses σ`. Every operation of `TaskGraph` is computed here on that
presentation, and `planAdvance_spec` lists what one advance can do.
-/

namespace PrismAgent

namespace TaskGraph

/-- The graph `g` with every status read off `σ`. -/
def withStatuses (g : TaskGraph) (σ : String → SubTaskStatus) : TaskGraph :=
  { g with
    nodes := g.nodes.map fun node => { node with status := σ node.nodeId }
    synthesizerNode := g.synthesizerNode.map fun synthesizer =>
      { synthesizer with status := σ synthesizer.nodeId } }

/-- `nodeId` names an ordinary node of the graph. -/
def HasNode (g : TaskGraph) (nodeId : String) : Prop :=
  ∃ node ∈ g.nodes, node.nodeId = nodeId

/-- `nodeId` names an ordinary node or the synthesizer. -/
def Knows (g : TaskGraph) (nodeId : String) : Prop :=
  g.HasNode nodeId ∨ g.isSynthesizer nodeId = true

/-- Mark the listed ids RUNNING. -/
def claim (σ : String → SubTaskStatus) (ids : List String) : String → SubTaskStatus :=
  fun id => if id ∈ ids then .running else σ id

/-- Every prerequisite of `node` names an ordinary node that `σ` has COMPLETED. -/
def Unblocked (g : TaskGraph) (σ : String → SubTaskStatus) (node : SubTask) : Prop :=
  ∀ d ∈ node.dependsOn, g.HasNode d ∧ σ d = .completed

/-- The ids that are PENDING and unblocked under `σ`, in node order. -/
def readyIds (g : TaskGraph) (σ : String → SubTaskStatus) : List String :=
  ((g.withStatuses σ).readyNodes (g.withStatuses σ).completedNodeIds).map (·.nodeId)

theorem isSynthesizer_iff (g : TaskGraph) (id : String) :
    g.isSynthesizer id = true ↔ ∃ s, g.synthesizerNode = some s ∧ s.nodeId = id := by
  unfold isSynthesizer
  cases g.synthesizerNode <;> simp

section Statuses

variable (g : TaskGraph) (σ : String → SubTaskStatus)

@[simp] theorem withStatuses_version : (g.withStatuses σ).version = g.version := rfl

@[simp] theorem withStatuses_planId : (g.withStatuses σ).planId = g.planId := rfl

@[simp] theorem withStatuses_workspaceId :
    (g.withStatuses σ).workspaceId = g.workspaceId := rfl

@[simp] theorem withStatuses_withStatuses (τ : String → SubTaskStatus) :
    (g.withStatuses σ).withStatuses τ = g.withStatuses τ := by
  simp [withStatuses, Function.comp_def]

@[simp] theorem withStatuses_bumped :
    (g.withStatuses σ).bumped = g.bumped.withStatuses σ := rfl

@[simp] theorem hasNode_withStatuses (id : String) :
    (g.withStatuses σ).HasNode id ↔ g.HasNode id := by
  simp [HasNode, withStatuses]

@[simp] theorem isSynthesizer_withStatuses (id : String) :
    (g.withStatuses σ).isSynthesizer id = g.isSynthesizer id := by
  unfold isSynthesizer withStatuses
  cases g.synthesizerNode <;> rfl

theorem withNodeStatus_withStatuses (id : String) (status : SubTaskStatus) :
    (g.withStatuses σ).withNodeStatus id status =
      g.withStatuses (Function.update σ id status) := by
  have hnode : ∀ node : SubTask,
      (if node.nodeId = id then { node with status := status }
        else { node with status := σ node.nodeId }) =
      { node with status := Function.update σ id status node.nodeId } := by
    intro node
    by_cases h : node.nodeId = id
    · simp [h]
    · simp [h, Function.update_of_ne]
  simp only [withNodeStatus, withStatuses, List.map_map, Option.map_map]
  congr 1
  · exact List.map_congr_left fun node _ => hnode node
  · cases g.synthesizerNode with
    | none => rfl
    | some s => exact congrArg some (hnode s)

theorem claimAll_withStatuses (ready : List SubTask) :
    (g.withStatuses σ).claimAll ready =
      g.withStatuses (claim σ (ready.map (·.nodeId))) := by
  induction ready generalizing σ with
  | nil =>
      have hnone : claim σ (([] : List SubTask).map (·.nodeId)) = σ := by
        funext id
        simp [claim]
      rw [hnone]
      rfl
  | cons node ready ih =>
      have hclaim : claim (Function.update σ node.nodeId .running) (ready.map (·.nodeId)) =
          claim σ ((node :: ready).map (·.nodeId)) := by
        funext id
        by_cases h : id = node.nodeId <;> simp [claim, h, Function.update_of_ne]
      have hstep := ih (Function.update σ node.nodeId .running)
      rw [hclaim, ← withNodeStatus_withStatuses] at hstep
      exact hstep

@[simp] theorem mem_completedNodeIds_withStatuses (id : String) :
    id ∈ (g.withStatuses σ).completedNodeIds ↔ g.HasNode id ∧ σ id = .completed := by
  simp only [completedNodeIds, withStatuses, HasNode, List.mem_toFinset, List.mem_map,
    List.mem_filter, decide_eq_true_eq]
  constructor
  · rintro ⟨_, ⟨⟨node, hmem, rfl⟩, hstatus⟩, rfl⟩
    exact ⟨⟨node, hmem, rfl⟩, hstatus⟩
  · rintro ⟨⟨node, hmem, rfl⟩, hstatus⟩
    exact ⟨_, ⟨⟨node, hmem, rfl⟩, hstatus⟩, rfl⟩

theorem mem_readyIds (id : String) :
    id ∈ g.readyIds σ ↔
      ∃ node ∈ g.nodes, node.nodeId = id ∧ σ id = .pending ∧ g.Unblocked σ node := by
  simp only [readyIds, readyNodes, List.mem_map, List.mem_filter, Bool.and_eq_true,
    decide_eq_true_eq, SubTask.isUnblocked_iff, mem_completedNodeIds_withStatuses, Unblocked]
  constructor
  · rintro ⟨_, ⟨hmem, hpending, hdeps⟩, rfl⟩
    obtain ⟨node, hnode, rfl⟩ := List.mem_map.1 hmem
    exact ⟨node, hnode, rfl, hpending, hdeps⟩
  · rintro ⟨node, hnode, rfl, hpending, hdeps⟩
    exact ⟨_, ⟨List.mem_map.2 ⟨node, hnode, rfl⟩, hpending, hdeps⟩, rfl⟩

theorem allNodesCompleted_withStatuses :
    (g.withStatuses σ).allNodesCompleted = true ↔
      g.nodes ≠ [] ∧ ∀ id, g.HasNode id → σ id = .completed := by
  simp [allNodesCompleted, withStatuses, HasNode]

theorem any_running_withStatuses :
    ((g.withStatuses σ).nodes.any fun n => n.status = .running) = true ↔
      ∃ id, g.HasNode id ∧ σ id = .running := by
  simp only [withStatuses, HasNode, List.any_eq_true, List.mem_map, decide_eq_true_eq]
  constructor
  · rintro ⟨_, ⟨node, hnode, rfl⟩, hrun⟩
    exact ⟨_, ⟨node, hnode, rfl⟩, hrun⟩
  · rintro ⟨_, ⟨node, hnode, rfl⟩, hrun⟩
    exact ⟨_, ⟨node, hnode, rfl⟩, hrun⟩

theorem getNode_withStatuses_eq_none (id : String) :
    (g.withStatuses σ).getNode id = none ↔ ¬ g.Knows id := by
  unfold getNode
  have hfind : (g.withStatuses σ).nodes.find? (fun node => node.nodeId = id) = none ↔
      ¬ g.HasNode id := by
    simp [withStatuses, HasNode, List.find?_eq_none]
  by_cases hn : g.HasNode id
  · cases h : (g.withStatuses σ).nodes.find? (fun node => node.nodeId = id) with
    | none => exact absurd hn (hfind.1 h)
    | some node => simp [Knows, hn]
  · rw [hfind.2 hn]
    simp only [Knows, hn, false_or, isSynthesizer_iff, withStatuses]
    cases g.synthesizerNode <;> simp

theorem getNode_withStatuses_eq_some {id : String} {node : SubTask}
    (h : (g.withStatuses σ).getNode id = some node) :
    node.nodeId = id ∧ node.status = σ id := by
  have hmem : ∀ n ∈ (g.withStatuses σ).nodes, n.status = σ n.nodeId := by
    intro n hn
    obtain ⟨m, -, rfl⟩ := List.mem_map.1 hn
    rfl
  unfold getNode at h
  cases hf : (g.withStatuses σ).nodes.find? (fun node => node.nodeId = id) with
  | some found =>
      rw [hf] at h
      obtain rfl : found = node := by simpa using h
      have hid : found.nodeId = id := by simpa using List.find?_some hf
      exact ⟨hid, hid ▸ hmem _ (List.mem_of_find?_eq_some hf)⟩
  | none =>
      rw [hf] at h
      simp only [withStatuses] at h
      cases hs : g.synthesizerNode with
      | none => simp [hs] at h
      | some s =>
          simp only [hs, Option.map_some] at h
          split at h
          next hid =>
            cases h
            exact ⟨hid, by rw [← hid]⟩
          next => cases h

/-- The ids of the claimed copies are the claimed ids. -/
theorem filterMap_getNode_nodeId (τ : String → SubTaskStatus) (ids : List SubTask)
    (h : ∀ n ∈ ids, g.Knows n.nodeId) :
    (ids.filterMap fun n => (g.withStatuses τ).getNode n.nodeId).map (·.nodeId) =
      ids.map (·.nodeId) := by
  induction ids with
  | nil => rfl
  | cons n ids ih =>
      have htail := ih fun m hm => h m (List.mem_cons_of_mem _ hm)
      cases hg : (g.withStatuses τ).getNode n.nodeId with
      | none =>
          exact absurd (h n List.mem_cons_self) ((getNode_withStatuses_eq_none g τ _).1 hg)
      | some node =>
          simp only [List.filterMap_cons, hg, List.map_cons, htail,
            (getNode_withStatuses_eq_some g τ hg).1]

end Statuses

end TaskGraph

end PrismAgent
