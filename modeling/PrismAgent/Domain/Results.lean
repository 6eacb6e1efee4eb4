import PrismAgent.Domain.Policies
import PrismAgent.Domain.Subtasks

/-!
# Contexts, results and traces

The hydrated context of a run, the result of a tool call, the verdict of the
validator, the result of a subagent node and the trace record. A trace keeps
its name and the ids it is filed under; its message and data are read by no
modelled function.
-/

namespace PrismAgent

structure AgentContext where
  workspaceId : String
  projectId : Option String
  sourceEvent : EventEnvelope
  workflowId : String
  entities : Fields := []
  retrievedDocuments : Json := .arr []
  permissions : Dict String Bool := []
  entityVersions : Dict String EntityVersion := []
  previousAgentOutputs : Json := .arr []
  runtimeMetadata : Fields := []

structure ContextSnapshot where
  snapshotId : String
  planId : Option String := none
  workspaceId : String
  projectId : Option String := none
  workflowId : String
  context : AgentContext

/-- A snapshot is referred to by its id. -/
def ContextSnapshot.ref (snapshot : ContextSnapshot) : String := snapshot.snapshotId

structure AgentSuggestion where
  suggestionId : String
  workspaceId : String
  projectId : Option String := none
  planId : String
  actionId : String
  title : String
  body : String
  targetEntityRef : Option String := none
  proposedChanges : Fields := []

structure ToolResult where
  resultId : String
  planId : String
  actionId : String
  toolName : String
  success : Bool
  output : Fields := []
  error : Option String := none
  emittedEvents : List EventEnvelope := []
  suggestion : Option AgentSuggestion := none

inductive ValidationDecision
  | commit
  | suggest
  | retry
  | replan
  | fail
  | noop
  deriving DecidableEq, Repr

def ValidationDecision.value : ValidationDecision → String
  | .commit => "commit"
  | .suggest => "suggest"
  | .retry => "retry"
  | .replan => "replan"
  | .fail => "fail"
  | .noop => "noop"

structure ValidationResult where
  decision : ValidationDecision
  valid : Bool
  reason : Option String := none
  staleEntities : Dict String StaleEntity := []
  emittedEvents : List EventEnvelope := []
  suggestion : Option AgentSuggestion := none

structure SubAgentResult where
  nodeId : String
  skillIds : List String := []
  summary : String := ""
  structuredOutput : Fields := []
  status : SubTaskStatus := .completed

structure TraceEvent where
  eventName : String
  workspaceId : String
  projectId : Option String := none
  planId : Option String := none
  actionId : Option String := none
  deriving DecidableEq, Repr

def SubTaskStatus.value : SubTaskStatus → String
  | .pending => "pending"
  | .running => "running"
  | .completed => "completed"
  | .failed => "failed"

/-- `result.model_dump(mode="json")`. -/
def SubAgentResult.toJson (result : SubAgentResult) : Json :=
  .obj
    [("node_id", .str result.nodeId),
      ("skill_ids", .arr (result.skillIds.map .str)),
      ("summary", .str result.summary),
      ("structured_output", .obj result.structuredOutput),
      ("status", .str result.status.value)]

end PrismAgent
