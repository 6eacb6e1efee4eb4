import PrismAgent.Chain.Handler

/-!
# Chains of actions

What handling one action event does, without the queue: a machine whose view is
the plans, results, keys, executions and reports, and whose token names the action
that comes next and its attempt. Ids of results are no part of the view.
-/

namespace PrismAgent

open Function (update)

/-- The action to handle next and the attempt of its envelope. -/
structure Token where
  workspaceId : String
  planId : String
  actionId : String
  attempt : ℕ

/-- The token that an action event stands for. -/
def EventEnvelope.token (envelope : EventEnvelope) : Token :=
  match envelope.event.kind with
  | .agentAction planId actionId =>
      ⟨envelope.event.workspaceId, planId, actionId, envelope.attempt⟩
  | _ => ⟨envelope.event.workspaceId, "", "", envelope.attempt⟩

/-- A result up to its generated id. -/
def ToolResult.anonymous (result : ToolResult) : ToolResult := { result with resultId := "" }

/-- A selected action, its plan and context and the attempt. -/
structure Chosen where
  plan : AgentPlan
  action : PlannedAction
  context : AgentContext
  attempt : ℕ

namespace Chosen

variable (d : Chosen)

/-- The plan after its action took `status`. -/
def planWith (status : ActionStatus) : AgentPlan :=
  d.plan.replaceAction (d.action.withStatus status)

/-- The report that the action is in `status`. -/
def report (status : ActionStatus) (eventName message : String) : SyncCall :=
  .actionState (d.planWith status) (d.action.withStatus status) eventName message

end Chosen

/-- What a chain of actions reads and writes. -/
structure View where
  plans : String × String → Option AgentPlan
  contextSnapshots : String × String → Option ContextSnapshot
  actionResults : String × String → Option ToolResult
  idempotencyKeys : Finset String
  executions : List Execution
  syncCalls : List SyncCall

/-- What a chain of actions sees of a world. -/
def World.view (w : World MemoryStateStore) : View where
  plans := w.store.plans
  contextSnapshots := w.store.contextSnapshots
  actionResults key := (w.store.actionResults key).map ToolResult.anonymous
  idempotencyKeys := w.store.idempotencyKeys
  executions := w.executions
  syncCalls := w.syncCalls

namespace View

variable (v : View)

def save (plan : AgentPlan) : View :=
  { v with plans := update v.plans (plan.workspaceId, plan.planId) (some plan) }

def saveResult (result : ToolResult) : View :=
  { v with
    actionResults :=
      update v.actionResults (result.planId, result.actionId) (some result.anonymous) }

def consume (key : String) : View :=
  { v with idempotencyKeys := insert key v.idempotencyKeys }

def report (call : SyncCall) : View := { v with syncCalls := v.syncCalls ++ [call] }

def ran (x : Execution) : View := { v with executions := v.executions ++ [x] }

/-- How often the tool of the action has been called. -/
def attempts (action : PlannedAction) : ℕ :=
  v.executions.countP fun x =>
    x.action.planId = action.planId ∧ x.action.actionId = action.actionId

section Fields

variable (plan : AgentPlan) (result : ToolResult) (key : String) (call : SyncCall)
  (x : Execution)

@[simp] theorem save_executions : (v.save plan).executions = v.executions := rfl

@[simp] theorem save_contextSnapshots :
    (v.save plan).contextSnapshots = v.contextSnapshots := rfl

@[simp] theorem save_idempotencyKeys :
    (v.save plan).idempotencyKeys = v.idempotencyKeys := rfl

@[simp] theorem saveResult_plans : (v.saveResult result).plans = v.plans := rfl

@[simp] theorem saveResult_contextSnapshots :
    (v.saveResult result).contextSnapshots = v.contextSnapshots := rfl

@[simp] theorem saveResult_idempotencyKeys :
    (v.saveResult result).idempotencyKeys = v.idempotencyKeys := rfl

@[simp] theorem saveResult_executions : (v.saveResult result).executions = v.executions := rfl

@[simp] theorem consume_plans : (v.consume key).plans = v.plans := rfl

@[simp] theorem consume_contextSnapshots :
    (v.consume key).contextSnapshots = v.contextSnapshots := rfl

@[simp] theorem consume_idempotencyKeys :
    (v.consume key).idempotencyKeys = insert key v.idempotencyKeys := rfl

@[simp] theorem consume_executions : (v.consume key).executions = v.executions := rfl

@[simp] theorem report_plans : (v.report call).plans = v.plans := rfl

@[simp] theorem report_contextSnapshots :
    (v.report call).contextSnapshots = v.contextSnapshots := rfl

@[simp] theorem report_idempotencyKeys :
    (v.report call).idempotencyKeys = v.idempotencyKeys := rfl

@[simp] theorem report_executions : (v.report call).executions = v.executions := rfl

@[simp] theorem ran_plans : (v.ran x).plans = v.plans := rfl

@[simp] theorem ran_contextSnapshots : (v.ran x).contextSnapshots = v.contextSnapshots := rfl

@[simp] theorem ran_idempotencyKeys : (v.ran x).idempotencyKeys = v.idempotencyKeys := rfl

@[simp] theorem ran_executions : (v.ran x).executions = v.executions ++ [x] := rfl

end Fields

/-- Behind a finished action: ask for the next one, or report the plan COMPLETED. -/
def proceed (plan : AgentPlan) : View × Option Token :=
  match plan.nextPendingAction with
  | some next => (v, some ⟨plan.workspaceId, plan.planId, next.actionId, 0⟩)
  | none =>
      if plan.status = .completed ∧ plan.isSubplan = false then
        (v.report (.runCompletedById plan.workspaceId (ActionEventHandler.apiRunId plan)), none)
      else (v, none)

variable (oracle : Oracle) (d : Chosen)

/-- SUGGEST: the action waits for an approval. -/
def requireApproval (validation : ValidationResult) : View :=
  (((v.saveResult (Validator.approvalResult "" d.action validation)).save
    (d.planWith .requiresApproval)).report
      (d.report .requiresApproval "action.approval_required"
        "Action converted to user-facing suggestion.")).consume d.action.idempotencyKey

/-- The action ends in `status` without being COMPLETED. -/
def settle (status : ActionStatus) (eventName message : String) : View :=
  (v.save (d.planWith status)).report (d.report status eventName message)

/-- The action is RUNNING and its tool answers. -/
def execute (answer : Except Exc ToolResult) : View :=
  ((v.report (d.report .running "action.executing"
    ("Executing tool " ++ d.action.toolName ++ " for action " ++ d.action.actionId ++ "."))).save
      (d.planWith .running)).ran ⟨d.plan, d.action, d.context, Env.outcomeOf answer⟩

/-- COMMIT: the action is COMPLETED and the plan moves on. -/
def commit : View × Option Token :=
  ((v.settle d .completed "action.completed" ("Completed action " ++ d.action.actionId)).consume
    d.action.idempotencyKey).proceed (d.planWith .completed)

/-- RETRY: another attempt while there is one, else the action fails. -/
def settleFailure (validation : ValidationResult) : View × Option Token :=
  if validation.decision = .retry ∧
      d.attempt + 1 < ActionEventHandler.ACTION_EXECUTION_ATTEMPTS then
    (v.settle d .pending "action.retry_scheduled"
      (orElseText validation.reason "Action requested retry."),
      some ⟨d.plan.workspaceId, d.plan.planId, d.action.actionId, d.attempt + 1⟩)
  else
    (v.settle d .failed "action.failed"
      (orElseText validation.reason "Action failed validation after execution."), none)

/-- What the tool's answer leads to. -/
def settleExecution : Except Exc ToolResult → View × Option Token
  | .error exc =>
      (v.settle d .failed "action.execution_error"
        ("Tool " ++ d.action.toolName ++ " failed: " ++ exc.toStr), none)
  | .ok result =>
      let validation := Validator.validateAfterExecution result
      if validation.decision = .commit then (v.saveResult result).commit d
      else (v.saveResult result).settleFailure d validation

/-- Act on the verdict of the validation. -/
def actOn (validation : ValidationResult) : View × Option Token :=
  match validation.decision with
  | .suggest => (v.requireApproval d validation, none)
  | .replan =>
      (v.settle d .stale "action.stale_context"
        "Action blocked because expected entity versions are stale.", none)
  | .fail =>
      (v.settle d .failed "action.validation_failed"
        (orElseText validation.reason "Action validation failed."), none)
  | _ =>
      let answer := oracle.execute d.action d.context (v.attempts d.action)
      (v.execute d answer).settleExecution d answer

end View

/-- Handle a token: select its action, decide on it and ask for what comes next. -/
def Oracle.next (oracle : Oracle) (v : View) (token : Token) : View × Option Token :=
  match v.plans (token.workspaceId, token.planId) with
  | none => (v, none)
  | some plan =>
      match plan.getAction token.actionId with
      | none => (v, none)
      | some action =>
          if action.status ≠ .pending then
            if action.status = .completed ∨ action.status = .skipped then v.proceed plan
            else (v, none)
          else
            match v.contextSnapshots (token.workspaceId, plan.contextSnapshotRef) with
            | none => (v, none)
            | some snapshot =>
                if action.idempotencyKey ∈ v.idempotencyKeys then (v, none)
                else
                  v.actOn oracle ⟨plan, action, snapshot.context, token.attempt⟩
                    (oracle.validate action snapshot.context token.attempt)

end PrismAgent
