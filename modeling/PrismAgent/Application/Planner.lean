import PrismAgent.Application.Runtime

/-!
# Planning

`Planner.create_plan` and the validator, with the registries they consult. The
plan that the language model proposes is the answer of the call `generatePlan`;
normalization then overwrites everything the runtime relies on.
-/

namespace PrismAgent

namespace Planner

/-- `APPROVAL_VALUE_MAP`, an unknown value meaning an approval by the user. -/
def approvalModeOf (value : String) : ApprovalMode :=
  match value with
  | "auto_commit" => .autoCommit
  | "user_approval_required" => .userApprovalRequired
  | "suggest_only" => .suggestOnly
  | "suggest" => .suggestOnly
  | _ => .userApprovalRequired

/-- Restrict the hydrated entities to a scope; an empty scope restricts nothing. -/
def scopeContext (context : AgentContext) (contextScope : List String) : AgentContext :=
  if contextScope = [] then context
  else { context with entities := context.entities.filter fun entry => entry.1 ∈ contextScope }

def approvalPolicy (rawPolicy : Dict String String) : ActionApprovalPolicy :=
  { defaultMode := .autoCommit
    toolModes := rawPolicy.map fun entry => (entry.1, approvalModeOf entry.2) }

def toolApprovalPolicy (tools : ToolRegistry) (toolNames : List String) :
    Except Exc (Dict String String) :=
  toolNames.mapM fun toolName => do
    let definition ← tools.definition toolName
    return (toolName, definition.approvalPolicy)

/-- A sub-plan keys idempotency off its own plan id, the whole-workflow plan off
the source event or the run. -/
def idempotencyPrefix (context : AgentContext) (agentRunId : String)
    (planId : Option String) : String :=
  match planId with
  | some id =>
      if id ≠ agentRunId then id
      else orElseText context.sourceEvent.event.idempotencyKey agentRunId
  | none => orElseText context.sourceEvent.event.idempotencyKey agentRunId

/-- What normalization writes into an action and its plan. -/
structure NormalForm where
  context : AgentContext
  contextSnapshotRef : String
  planId : String
  idempotencyPrefix : String
  promptId : String
  promptVersion : String
  goal : String
  skillIds : List String
  toolNames : List String
  approvalPolicy : ActionApprovalPolicy

/-- Chain the actions in order; `index` counts from 1 and an empty previous id
starts a new chain. -/
def normalizeActions (form : NormalForm) :
    List PlannedAction → ℕ → Option String → List PlannedAction
  | [], _, _ => []
  | action :: actions, index, previousActionId =>
      { action with
        planId := form.planId
        dependsOn :=
          match previousActionId with
          | some id => if id = "" then [] else [id]
          | none => []
        requiresApproval := form.approvalPolicy.requiresApproval action.toolName
        status := .pending
        idempotencyKey :=
          form.idempotencyPrefix ++ ":" ++ action.toolName ++ ":" ++ toString index
        expectedEntityVersions := form.context.entityVersions } ::
      normalizeActions form actions (index + 1) (some action.actionId)

def normalizePlanForRuntime (form : NormalForm) (plan : AgentPlan) : AgentPlan :=
  { plan with
    planId := form.planId
    sourceEventId := form.context.sourceEvent.eventId
    workspaceId := form.context.workspaceId
    projectId := form.context.projectId
    goal := form.goal
    promptId := form.promptId
    promptVersion := form.promptVersion
    skillIds := form.skillIds
    toolNames := form.toolNames
    contextSnapshotRef := form.contextSnapshotRef
    actions := normalizeActions form plan.actions 1 none
    status := .planned }

/-- The tools of the plan's actions outside `allowedToolNames`. -/
def disallowedTools (plan : AgentPlan) (allowedToolNames : List String) : List String :=
  ((plan.actions.map (·.toolName)).filter (· ∉ allowedToolNames)).dedup

def ensurePlanUsesAllowedTools (plan : AgentPlan) (allowedToolNames : List String) :
    Except Exc Unit :=
  let disallowed := disallowedTools plan allowedToolNames
  if disallowed ≠ [] then
    .error (.valueError ("Plan contains tools not allowed by selected skills: " ++
      ", ".intercalate (disallowed.mergeSort fun a b => decide (a ≤ b))))
  else .ok ()

/-- What a plan is scoped to; nothing for the whole workflow. -/
structure Scope where
  planId : Option String := none
  skillIds : Option (List String) := none
  contextScope : List String := []
  modelTier : Option String := none

def createPlan (registries : Registries) (context : AgentContext)
    (contextSnapshotRef : String) (workflow : WorkflowDefinition) (agentRunId : String)
    (scope : Scope) : App AgentPlan := do
  let prompt ← liftExcept
    (registries.prompts.getWorkflow workflow.promptId workflow.promptVersion)
  let skillNames := scope.skillIds.getD workflow.requiredSkills
  let skills ← liftExcept (registries.skills.select skillNames)
  let allowedToolNames ← liftExcept (registries.skills.allowedToolsFor skillNames)
  let tools ← liftExcept (registries.tools.select allowedToolNames)
  let toolPolicy ← liftExcept (toolApprovalPolicy registries.tools allowedToolNames)
  let policy := approvalPolicy (Dict.merge toolPolicy workflow.approvalPolicy)
  let proposed ← perform (.generatePlan
    { context := scopeContext context scope.contextScope
      contextSnapshotRef := contextSnapshotRef
      approvalPolicy := policy
      workflowPrompt := prompt
      skills := skills
      tools := tools
      modelTier := scope.modelTier })
  let plan := normalizePlanForRuntime
    { context := context
      contextSnapshotRef := contextSnapshotRef
      planId := orElseText scope.planId agentRunId
      idempotencyPrefix := idempotencyPrefix context agentRunId scope.planId
      promptId := prompt.id
      promptVersion := prompt.version
      goal := prompt.goal
      skillIds := skills.map (·.id)
      toolNames := tools.map (·.id)
      approvalPolicy := policy } proposed
  let _ ← liftExcept (ensurePlanUsesAllowedTools plan allowedToolNames)
  return plan

end Planner

namespace Validator

/-- The suggestion that stands for an action that needs an approval. -/
def approvalSuggestion (suggestionId : String) (action : PlannedAction)
    (context : AgentContext) : AgentSuggestion :=
  { suggestionId := suggestionId
    workspaceId := context.workspaceId
    projectId := context.projectId
    planId := action.planId
    actionId := action.actionId
    title := "Approval required: " ++ action.toolName
    body := action.instruction
    targetEntityRef := (action.expectedEntityVersions.map Prod.fst).head?
    proposedChanges :=
      [("tool_name", .str action.toolName), ("action_type", .str action.actionType),
        ("input", .obj action.input)] }

def suggestionEvent (eventId : String) (suggestion : AgentSuggestion)
    (context : AgentContext) : RuntimeEvent :=
  { kind := .domain
    eventId := eventId
    eventType := "agent_suggestion.created"
    workspaceId := context.workspaceId
    projectId := context.projectId
    payload := [("suggestion_id", .str suggestion.suggestionId)]
    causality := context.sourceEvent.event.causality.child context.sourceEvent.eventId }

def validateBeforeExecution (action : PlannedAction) (context : AgentContext) :
    App ValidationResult := do
  if (context.permissions.lookup action.toolName).getD true = false then
    return {
      decision := .fail
      valid := false
      reason := some ("permission_denied:" ++ action.toolName) }
  else
    let currentVersions ← perform (.getCurrentEntityVersions context.workspaceId
      context.projectId (action.expectedEntityVersions.map Prod.fst))
    let stale := StaleContextPolicy.diff action.expectedEntityVersions currentVersions
    if stale ≠ [] then
      return {
        decision := .replan
        valid := false
        reason := some "stale_context"
        staleEntities := stale }
    else if action.requiresApproval then
      let suggestionId ← perform .uuid4
      let eventId ← perform .uuid4
      let suggestion := approvalSuggestion suggestionId action context
      return {
        decision := .suggest
        valid := true
        reason := some "approval_required"
        emittedEvents := [.wrap (suggestionEvent eventId suggestion context)]
        suggestion := some suggestion }
    else return { decision := .commit, valid := true }

def validateAfterExecution (result : ToolResult) : ValidationResult :=
  if result.success then
    { decision := .commit
      valid := true
      emittedEvents := result.emittedEvents
      suggestion := result.suggestion }
  else
    { decision := .retry
      valid := false
      reason := some (orElseText result.error "tool_execution_failed") }

/-- The result that records the suggestion instead of an execution. -/
def approvalResult (resultId : String) (action : PlannedAction)
    (validation : ValidationResult) : ToolResult :=
  { resultId := resultId
    planId := action.planId
    actionId := action.actionId
    toolName := action.toolName
    success := true
    output :=
      [("decision", .str validation.decision.value),
        ("reason", (validation.reason.map Json.str).getD .null),
        ("requires_approval", .bool true), ("original_input", .obj action.input)]
    emittedEvents := validation.emittedEvents
    suggestion := validation.suggestion }

end Validator

end PrismAgent
