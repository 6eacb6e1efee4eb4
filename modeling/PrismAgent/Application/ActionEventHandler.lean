import PrismAgent.Application.Planner

/-!
# The action event handler

`ActionEventHandler.handle` executes one planned action and moves its plan on.
The branches of the source are functions of their own here. The source calls
`handle` again, in tail position, for an action that it chains inline; here
`handleOne` returns the envelope to continue with, and `handle` loops while the
inline budget lasts.
-/

namespace PrismAgent

namespace ActionEventHandler

def ACTION_EXECUTION_ATTEMPTS : ℕ := 3

def INLINE_ACTION_CHAIN_BUDGET : ℕ := 8

/-- An action about to be decided on: its envelope, plan and context. -/
structure Delivery where
  envelope : EventEnvelope
  plan : AgentPlan
  action : PlannedAction
  context : AgentContext

namespace Delivery

variable (d : Delivery)

def event : RuntimeEvent := d.envelope.event

/-- The plan after its action took `status`. The source replaces the action in
`running_plan` once the action runs, which is the same plan by
`replaceAction_replaceAction`. -/
def planWith (status : ActionStatus) : AgentPlan :=
  d.plan.replaceAction (d.action.withStatus status)

/-- File a trace under the action. -/
def trace (eventName : String) : App Unit :=
  PrismAgent.trace d.event eventName (some d.plan.planId) (some d.action.actionId)

/-- Save the plan with its action in `status`. -/
def save (status : ActionStatus) : App Unit := perform (.updatePlan (d.planWith status))

/-- Report the action in `status` to the agent run. -/
def report (status : ActionStatus) (eventName message : String) : App Unit :=
  sync (.actionState (d.planWith status) (d.action.withStatus status) eventName message)

end Delivery

/-- `_settle_subplan`: tell the coordinator that a subagent node has settled. A
plan without a parent run or a node makes no valid event. -/
def settleSubplan (envelope : EventEnvelope) (plan : AgentPlan) (status : String)
    (message : Option String) : App Unit :=
  match plan.parentRunId, plan.nodeId with
  | some runId, some nodeId => do
      let eventId ← perform .uuid4
      perform (.enqueue (.wrap (subAgentCompletedEvent eventId plan.workspaceId plan.projectId
        runId nodeId status envelope.event.correlationId
        (envelope.event.causality.child envelope.eventId)
        (match message with
          | some text => if text = "" then [] else [("message", .str text)]
          | none => []))))
      trace envelope.event "subagent.settled" (some runId)
  | _, _ => .raise (.valueError "Input should be a valid string")

/-- Settle the node of a sub-plan; other plans have none. -/
def settleIfSubplan (d : Delivery) (status : String) (message : Option String) : App Unit :=
  if d.plan.isSubplan then settleSubplan d.envelope d.plan status message else pure ()

def enqueueEvents : List EventEnvelope → App Unit
  | [] => pure ()
  | emitted :: envelopes => do
      perform (.enqueue emitted)
      enqueueEvents envelopes

/-- `_api_run_id`: sub-plans report under their parent run. -/
def apiRunId (plan : AgentPlan) : String := orElseText plan.parentRunId plan.planId

/-- No action is left to run: settle or complete a COMPLETED plan. -/
def finishPlan (envelope : EventEnvelope) (plan : AgentPlan) : App Unit :=
  if plan.status = .completed then
    if plan.isSubplan then do
      trace envelope.event "plan.completed" (some plan.planId)
      settleSubplan envelope plan "completed" none
    else do
      sync (.runCompletedById plan.workspaceId (apiRunId plan))
      trace envelope.event "plan.completed" (some plan.planId)
  else trace envelope.event "plan.no_pending_actions" (some plan.planId)

/-- `_enqueue_next_action`: chain the next action inline while budget is left, or
enqueue it. -/
def enqueueNextAction (inline : Bool) (envelope : EventEnvelope) (plan : AgentPlan) :
    App (Option EventEnvelope) :=
  match plan.nextPendingAction with
  | none => do
      finishPlan envelope plan
      return none
  | some next => do
      let eventId ← perform .uuid4
      let event := agentActionEvent eventId plan.workspaceId plan.projectId plan.planId
        next.actionId envelope.event.correlationId
        (envelope.event.causality.child envelope.eventId)
      if next.requiresApproval = false ∧ inline = true then do
        trace event "action.chained" (some plan.planId) (some next.actionId)
        return some (.wrap event)
      else do
        perform (.enqueue (.wrap event))
        trace event "action.enqueued" (some plan.planId) (some next.actionId)
        return none

/-- SUGGEST: the action becomes a suggestion that waits for an approval. -/
def requireApproval (d : Delivery) (validation : ValidationResult) : App Unit := do
  let resultId ← perform .uuid4
  perform (.saveActionResult (Validator.approvalResult resultId d.action validation))
  d.save .requiresApproval
  d.report .requiresApproval "action.approval_required"
    "Action converted to user-facing suggestion."
  perform (.recordIdempotencyKey d.action.idempotencyKey)
  enqueueEvents validation.emittedEvents
  d.trace "action.approval_required"
  settleIfSubplan d "waiting_for_approval" none

/-- `_replan_event`: the source event again, asking for a new plan of the run. -/
def replanEvent (eventId : String) (d : Delivery)
    (staleEntities : Dict String StaleEntity) (reason : String) : RuntimeEvent :=
  let source := d.context.sourceEvent.event
  let version : EntityVersion → Json
    | .text value => .str value
    | .number value => .int value
  let stale : Json := .obj (staleEntities.map fun entry =>
    (entry.1, .obj [("expected", version entry.2.expected), ("current", version entry.2.current)]))
  let payload := Dict.insert
    (Dict.insert (Dict.erase source.payload "entity_versions") "agentRunId"
      (.str d.plan.planId))
    "_agent_replan"
    (.obj [("reason", .str reason), ("blockedActionId", .str d.action.actionId),
      ("staleEntities", stale)])
  { kind :=
      match source.kind with
      | .manual actorId => .manual actorId
      | .scheduled scheduleId => .scheduled scheduleId
      | _ => .domain
    eventId := eventId
    eventType := source.eventType
    workspaceId := source.workspaceId
    projectId := source.projectId
    payload := payload
    correlationId :=
      match source.correlationId with
      | some id => if id = "" then d.event.correlationId else some id
      | none => d.event.correlationId
    causality := d.event.causality.child d.envelope.eventId
    idempotencyKey := some (d.action.idempotencyKey ++ ":replan") }

/-- REPLAN: the action is STALE; a sub-plan fails its node, another plan asks for
a new one. -/
def rejectStale (d : Delivery) (validation : ValidationResult) : App Unit := do
  d.save .stale
  d.report .stale "action.stale_context"
    "Action blocked because expected entity versions are stale."
  d.trace "action.stale_context"
  if d.plan.isSubplan then
    settleSubplan d.envelope d.plan "failed"
      (some (orElseText validation.reason "stale_context"))
  else do
    let eventId ← perform .uuid4
    perform (.enqueue (.wrap (replanEvent eventId d validation.staleEntities
      (orElseText validation.reason "stale_context"))))
    d.trace "plan.replan_enqueued"

/-- FAIL: the action fails before it runs. -/
def rejectInvalid (d : Delivery) (validation : ValidationResult) : App Unit := do
  d.save .failed
  d.report .failed "action.validation_failed"
    (orElseText validation.reason "Action validation failed.")
  d.trace "action.validation_failed"
  settleIfSubplan d "failed" (some (orElseText validation.reason "validation_failed"))

/-- The tool raised: fail the action, whether or not the report goes through, and
raise again unless a sub-plan can be settled. -/
def executionError (d : Delivery) (exc : Exc) : App Unit := do
  d.save .failed
  let message := "Tool " ++ d.action.toolName ++ " failed: " ++ exc.toStr
  let _ ← (d.report .failed "action.execution_error" message).attempt
  d.trace "action.execution_error"
  d.trace "action.failed"
  if d.plan.isSubplan then settleSubplan d.envelope d.plan "failed" (some message)
  else .raise exc

/-- COMMIT: the action is COMPLETED and the plan moves on. -/
def commit (inline : Bool) (d : Delivery) (validation : ValidationResult) :
    App (Option EventEnvelope) := do
  d.save .completed
  d.report .completed "action.completed" ("Completed action " ++ d.action.actionId)
  perform (.recordIdempotencyKey d.action.idempotencyKey)
  enqueueEvents validation.emittedEvents
  d.trace "action.completed"
  enqueueNextAction inline d.envelope (d.planWith .completed)

/-- RETRY with attempts left: PENDING again, with one more event. -/
def retry (d : Delivery) (validation : ValidationResult) : App Unit := do
  d.save .pending
  let eventId ← perform .uuid4
  perform (.enqueue
    { event := agentActionEvent eventId d.plan.workspaceId d.plan.projectId d.plan.planId
        d.action.actionId d.event.correlationId (d.event.causality.child d.event.eventId)
      attempt := d.envelope.attempt + 1 })
  d.report .pending "action.retry_scheduled"
    (orElseText validation.reason "Action requested retry.")
  d.trace "action.retry_scheduled"

/-- The action failed after its execution and no attempt is left. -/
def failAction (d : Delivery) (validation : ValidationResult) : App Unit := do
  d.save .failed
  d.report .failed "action.failed"
    (orElseText validation.reason "Action failed validation after execution.")
  d.trace "action.failed"
  settleIfSubplan d "failed" (some (orElseText validation.reason "post_validation_failed"))

/-- What a result that is no success leads to. -/
def settleFailure (d : Delivery) (validation : ValidationResult) : App Unit :=
  if validation.decision = .retry ∧ d.envelope.attempt + 1 < ACTION_EXECUTION_ATTEMPTS then
    retry d validation
  else failAction d validation

/-- What the tool's result leads to. -/
def settleResult (inline : Bool) (d : Delivery) (result : ToolResult) :
    App (Option EventEnvelope) := do
  perform (.saveActionResult result)
  let validation := Validator.validateAfterExecution result
  d.trace "action.post_validation"
  if validation.decision = .commit then commit inline d validation
  else do
    settleFailure d validation
    return none

/-- What the tool's answer leads to. -/
def settleExecution (inline : Bool) (d : Delivery) :
    Except Exc ToolResult → App (Option EventEnvelope)
  | .error exc => do
      executionError d exc
      return none
  | .ok result => settleResult inline d result

/-- Mark the action RUNNING and execute its tool. -/
def execute (inline : Bool) (d : Delivery) : App (Option EventEnvelope) := do
  d.report .running "action.executing"
    ("Executing tool " ++ d.action.toolName ++ " for action " ++ d.action.actionId ++ ".")
  d.save .running
  d.trace "action.executing"
  let answer ← (perform (.executeOne d.plan d.action d.context)).attempt
  settleExecution inline d answer

/-- Act on the verdict of the validation. -/
def actOn (inline : Bool) (d : Delivery) (validation : ValidationResult) :
    App (Option EventEnvelope) :=
  match validation.decision with
  | .suggest => do
      requireApproval d validation
      return none
  | .replan => do
      rejectStale d validation
      return none
  | .fail => do
      rejectInvalid d validation
      return none
  | _ => execute inline d

/-- Decide on a selected action. -/
def decideAction (inline : Bool) (d : Delivery) : App (Option EventEnvelope) := do
  d.trace "action.selected"
  let validation ← Validator.validateBeforeExecution d.action d.context
  d.trace "action.pre_validation"
  actOn inline d validation

/-- What the checks before a decision find. -/
inductive Selection
  | notPending (plan : AgentPlan) (action : PlannedAction)
  | duplicate (d : Delivery)
  | selected (d : Delivery)

/-- Load the plan, its action and its context, and look the action's key up. -/
def selectAction (envelope : EventEnvelope) (planId actionId : String) : App Selection := do
  match ← perform (.getPlan envelope.event.workspaceId planId) with
  | none => .raise (.planNotFound planId)
  | some plan =>
      match plan.getAction actionId with
      | none => .raise (.actionNotFound actionId)
      | some action =>
          if action.status ≠ .pending then return .notPending plan action
          else
            match ← perform (.getContextSnapshot envelope.event.workspaceId
              plan.contextSnapshotRef) with
            | none => .raise (.planNotFound ("context:" ++ plan.contextSnapshotRef))
            | some snapshot =>
                match ← perform (.checkIdempotencyKey action.idempotencyKey) with
                | true => return .duplicate ⟨envelope, plan, action, snapshot.context⟩
                | false => return .selected ⟨envelope, plan, action, snapshot.context⟩

/-- An action that is not PENDING is skipped; behind a finished one the plan moves
on. -/
def skipAction (inline : Bool) (envelope : EventEnvelope) (plan : AgentPlan)
    (action : PlannedAction) : App (Option EventEnvelope) := do
  trace envelope.event "action.not_pending" (some plan.planId) (some action.actionId)
  if action.status = .completed ∨ action.status = .skipped then
    enqueueNextAction inline envelope plan
  else return none

/-- Skip the action or decide on it. -/
def actOnSelection (inline : Bool) (envelope : EventEnvelope) :
    Selection → App (Option EventEnvelope)
  | .notPending plan action => skipAction inline envelope plan action
  | .duplicate d => do
      d.trace "action.duplicate"
      return none
  | .selected d => decideAction inline d

/-- One entry of `handle` for an action event. -/
def handleAction (inline : Bool) (envelope : EventEnvelope) (planId actionId : String) :
    App (Option EventEnvelope) := do
  let selection ← selectAction envelope planId actionId
  actOnSelection inline envelope selection

/-- One entry of `handle`; `inline` says whether an action may be chained. The
answer is the envelope of the chained action. -/
def handleOne (inline : Bool) (envelope : EventEnvelope) : App (Option EventEnvelope) :=
  match envelope.event.kind with
  | .agentAction planId actionId => handleAction inline envelope planId actionId
  | _ => .raise (.typeError "ActionEventHandler can only process AgentActionEvent envelopes.")

/-- Handle a delivery with `budget` inline actions left. -/
def handle : ℕ → EventEnvelope → App Unit
  | 0, envelope => do
      let _ ← handleOne false envelope
      return ()
  | budget + 1, envelope => do
      match ← handleOne true envelope with
      | none => return ()
      | some next => handle budget next

end ActionEventHandler

end PrismAgent
