import PrismAgent.Application.ActionEventHandler
import PrismAgent.Domain.ApiRecords

/-!
# The agent-run sync

`application/agent_run_sync.py`: every call of the sync as the requests that it sends to the
Prism API, with their payloads. A request is sent when the ones before it have been answered;
what an answer changes is whether the call raises afterwards.
-/

namespace PrismAgent

/-- A request to the API for agent runs. -/
inductive ApiRequest
  | createAgentRun (workspaceId : String) (payload : Fields)
  | updateAgentRunStatus (workspaceId runId : String) (payload : Fields)
  | upsertAgentRunStep (workspaceId runId : String) (payload : Fields)
  | upsertAgentAction (workspaceId runId : String) (payload : Fields)
  | createAgentActionEvent (workspaceId actionId : String) (payload : Fields)

namespace AgentRunSync

open ActionEventHandler (apiRunId)

def AGENT_RUN_STEP_TITLE_MAX_LENGTH : ℕ := 255

variable (uuid5 : String → String)

/-- A field with a text, if there is one. -/
def textField (name : String) : Option String → Fields
  | some text => if text = "" then [] else [(name, .str text)]
  | none => []

def triggerType (context : AgentContext) : String :=
  match context.sourceEvent.event.kind with
  | .manual _ => "manual"
  | .scheduled _ => "scheduled"
  | .agentAction _ _ => "recursive"
  | _ => "event"

/-- The first of the keys with a UUID in the payload, or else in its queue pointer. -/
def payloadUuid (payload : Fields) (keys : List String) : Option String :=
  match uuidString (firstText payload keys) with
  | some id => some id
  | none =>
      ((payload.lookup "queue_pointer").bind Json.asObj?).bind fun pointer =>
        uuidString (firstText pointer keys)

def triggeredByUserId (context : AgentContext) : Option String :=
  let event := context.sourceEvent.event
  let actorId := match event.kind with
    | .manual actorId => actorId
    | _ => none
  (uuidString actorId).or
    (payloadUuid event.payload ["triggeredByUserId", "requestedByUserId", "userId"])

def workItemId (context : AgentContext) : Option String :=
  payloadUuid context.sourceEvent.event.payload ["workItemId", "work_item_id", "itemId"]

/-- `createdAt` is the time at which the source event occurred. -/
def agentRunCreatePayload (createdAt : AgentContext → String) (runId : String)
    (context : AgentContext) (objective promptVersion : String) : Fields :=
  [("agentType", .str "project_manager"),
    ("objective", .str (clip 5000 (orElseText (some (strip objective)) context.workflowId))),
    ("runId", .str runId), ("systemPromptVersion", .str (clip 100 promptVersion)),
    ("triggerType", .str (triggerType context)), ("status", .str "running"),
    ("createdAt", .str (createdAt context))] ++
    textField "triggeredByUserId" (triggeredByUserId context) ++
    textField "workItemId" (workItemId context)

/-- The payload of `_upsert_action`. -/
def actionPayload (action : PlannedAction) (includeStepId : Bool) (message : String) : Fields :=
  let status := actionStatusToApi action.status action.requiresApproval
  [("actionId", .str (actionApiId uuid5 action)), ("actionType", .str (actionApiType action)),
    ("targetType", .str (actionTargetType action (actionTargetId action))),
    ("status", .str status), ("reasoningSummary", .str (clip 5000 action.instruction)),
    ("requiresApproval", .bool action.requiresApproval)] ++
    (if includeStepId then [("stepId", .str (actionApiId uuid5 action))] else []) ++
    textField "targetId" (actionTargetId action) ++
    (if status ∈ ["failed", "cancelled"] ∧ message ≠ "" then
      [("errorMessage", .str (clip 5000 message))] else [])

def upsertAction (plan : AgentPlan) (action : PlannedAction) (includeStepId : Bool)
    (message : String) : ApiRequest :=
  .upsertAgentAction plan.workspaceId (apiRunId plan)
    (actionPayload uuid5 action includeStepId message)

/-- The step of a plan that has been made. -/
def planStepPayload (plan : AgentPlan) : Fields :=
  [("stepId", .str (stableAgentRunUuid uuid5 [plan.planId, "plan"])), ("stepOrder", .int 0),
    ("stepType", .str "plan"), ("status", .str "completed"),
    ("title", .str (clip AGENT_RUN_STEP_TITLE_MAX_LENGTH (orElseText (some (strip plan.goal))
      "Plan"))),
    ("outputSummary", .str ("Planned " ++ toString plan.actions.length ++ " action(s)."))]

/-- The step of a run whose planning failed. -/
def failedStepPayload (runId message : String) : Fields :=
  [("stepId", .str (stableAgentRunUuid uuid5 [runId, "plan"])), ("stepOrder", .int 0),
    ("stepType", .str "plan"), ("status", .str "failed"), ("title", .str "Plan"),
    ("outputSummary", .str "Planning failed."), ("errorMessage", .str (clip 5000 message))]

/-- The step of an action. -/
def actionStepPayload (action : PlannedAction) (order : ℕ) (eventName message : String) :
    Fields :=
  [("stepId", .str (actionApiId uuid5 action)), ("stepOrder", .int order),
    ("stepType", .str "execute"), ("status", .str (stepStatusToApi action.status)),
    ("title", .str (clip AGENT_RUN_STEP_TITLE_MAX_LENGTH (actionStepTitle action))),
    ("inputSummary", .str (clip 5000 action.instruction)),
    ("outputSummary", .str (clip 5000 (orElseText (some message) eventName)))] ++
    if stepStatusToApi action.status = "failed" ∧ message ≠ "" then
      [("errorMessage", .str (clip 5000 message))]
    else []

def statusUpdate (workspaceId runId status : String) : ApiRequest :=
  .updateAgentRunStatus workspaceId runId [("status", .str status)]

/-- The event of an action, if there is a message. -/
def actionEvents (plan : AgentPlan) (action : PlannedAction) (eventName message : String) :
    List ApiRequest :=
  if message = "" then []
  else [.createAgentActionEvent plan.workspaceId (actionApiId uuid5 action)
    [("eventType", .str eventName), ("message", .str (clip 5000 message))]]

/-- A run that is running is not told so again, and a sub-plan never settles the run that it
shares. -/
def runStatusUpdates (plan : AgentPlan) : List ApiRequest :=
  let runStatus := if plan.isSubplan then "running" else runStatusToApi plan
  if runStatus = "running" then [] else [statusUpdate plan.workspaceId (apiRunId plan) runStatus]

/-- The requests of `record_action_state`. -/
def recordActionState (plan : AgentPlan) (action : PlannedAction) (eventName message : String) :
    Except Exc (List ApiRequest) := do
  let order ← actionStepOrder plan action
  return .upsertAgentRunStep plan.workspaceId (apiRunId plan)
      (actionStepPayload uuid5 action order eventName message) ::
    upsertAction uuid5 plan action true message ::
    (actionEvents uuid5 plan action eventName message ++ runStatusUpdates plan)

/-- The requests of a call, or what it raises before the first of them. -/
def requests (createdAt : AgentContext → String) : SyncCall → Except Exc (List ApiRequest)
  | .runStarted context runId objective promptVersion =>
      .ok [.createAgentRun context.workspaceId
        (agentRunCreatePayload createdAt runId context objective promptVersion)]
  | .planCreated plan =>
      .ok (.upsertAgentRunStep plan.workspaceId (apiRunId plan) (planStepPayload uuid5 plan) ::
        plan.actions.map fun action => upsertAction uuid5 plan action false "")
  | .runFailed workspaceId runId message =>
      .ok [.upsertAgentRunStep workspaceId runId (failedStepPayload uuid5 runId message),
        statusUpdate workspaceId runId "failed"]
  | .runRunning workspaceId runId => .ok [statusUpdate workspaceId runId "running"]
  | .actionState plan action eventName message =>
      recordActionState uuid5 plan action eventName message
  | .runCompletedById workspaceId runId => .ok [statusUpdate workspaceId runId "completed"]

@[simp] theorem requests_planCreated (createdAt : AgentContext → String) (plan : AgentPlan) :
    requests uuid5 createdAt (.planCreated plan) =
      .ok (.upsertAgentRunStep plan.workspaceId (apiRunId plan) (planStepPayload uuid5 plan) ::
        plan.actions.map fun action => upsertAction uuid5 plan action false "") := rfl

theorem upsertAgentAction_notMem_actionEvents (plan : AgentPlan) (action : PlannedAction)
    (eventName message workspaceId runId : String) (payload : Fields) :
    .upsertAgentAction workspaceId runId payload ∉
      actionEvents uuid5 plan action eventName message ++ runStatusUpdates plan := by
  rw [List.mem_append, not_or]
  constructor
  · unfold actionEvents
    split <;> simp
  · unfold runStatusUpdates statusUpdate
    dsimp only
    split <;> simp

/-- The report of an action of the plan upserts its step and the action. -/
theorem exists_requests_actionState (createdAt : AgentContext → String) {plan : AgentPlan}
    {action : PlannedAction} (eventName message : String)
    (haction : action.actionId ∈ plan.actions.map (·.actionId)) :
    ∃ step, requests uuid5 createdAt (.actionState plan action eventName message) =
      .ok ([.upsertAgentRunStep plan.workspaceId (apiRunId plan) step] ++
        upsertAction uuid5 plan action true message ::
          (actionEvents uuid5 plan action eventName message ++ runStatusUpdates plan)) := by
  obtain ⟨order, horder⟩ := actionStepOrder_of_mem haction
  refine ⟨actionStepPayload uuid5 action order eventName message, ?_⟩
  have hrequests : requests uuid5 createdAt (.actionState plan action eventName message) =
      recordActionState uuid5 plan action eventName message := rfl
  rw [hrequests, recordActionState, horder]
  rfl

/-- What some calls send. -/
def sent (createdAt : AgentContext → String) (calls : List SyncCall) : List ApiRequest :=
  calls.flatMap fun call => ((requests uuid5 createdAt call).toOption).getD []

end AgentRunSync

end PrismAgent
