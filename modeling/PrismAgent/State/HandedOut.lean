import PrismAgent.Delivery.Dispatched
import PrismAgent.State.ObjectGraphs

/-!
# What the invocations hand out

A claim and an advance return the nodes that are to be started. Over every sequence of complete
operations of invocations these are different nodes of the run's graph, each at a time when it
waits for nothing.
-/

namespace PrismAgent

open Function Lockstep SubAgentCoordinator TaskGraph

namespace PrismApiStateStore

/-- The nodes of a run that an answer hands out; the coordinator takes those of an advance. -/
def InvokedOp.handsOut (key : String × String) : InvokedOp → GraphAnswer → List String
  | .op _ (.claimReadyNodes workspaceId runId), .nodes claimed =>
      if (workspaceId, runId) = key then claimed.map (·.nodeId) else []
  | .op _ (.advanceTaskGraph workspaceId runId _ _), .advance (some advance) =>
      if (workspaceId, runId) = key then advanceNodes advance else []
  | _, _ => []

/-- The graph of a run, and what has been handed out of it. -/
def graphView (graphs : Graphs) (key : String × String) (ids : List String) : RunView :=
  ⟨(graphs key).map TaskGraph.unversioned, ids⟩

section Table

variable {key : String × String} {graphs : Graphs} {ids : List String} {base : TaskGraph}
  {σ : String → SubTaskStatus}

/-- After the operation the table accounts for what it has handed out, and the nodes it hands out
are startable. -/
def Accounted (key : String × String) (o : InvokedOp) (graphs : Graphs) (ids : List String)
    (base : TaskGraph) : Prop :=
  ∃ τ, (graphView (sharedTable o graphs).2 key
      (ids ++ o.handsOut key (sharedTable o graphs).1)).Accounts base τ ∧
    ∀ i ∈ o.handsOut key (sharedTable o graphs).1, (base.withStatuses τ).Startable i

theorem Accounted.of_idle {o : InvokedOp} (h : (graphView graphs key ids).Accounts base σ)
    (hgraph : (sharedTable o graphs).2 key = graphs key)
    (hout : o.handsOut key (sharedTable o graphs).1 = []) : Accounted key o graphs ids base := by
  refine ⟨σ, ?_, by rw [hout]; exact List.forall_mem_nil _⟩
  unfold graphView
  rw [hout, hgraph, List.append_nil]
  exact h

variable (h : (graphView graphs key ids).Accounts base σ)

include h

end Table

section Objects

variable {τ : Type} {format : RecordFormat τ} {canon sha256 : String → String}
  {objects : ObjectStorageAgentMemoryStore} {api : StateApi} {limit : ℕ}

end Objects

end PrismApiStateStore

end PrismAgent
