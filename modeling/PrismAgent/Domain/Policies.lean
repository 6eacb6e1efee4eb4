import PrismAgent.Domain.Events
import PrismAgent.Domain.Plans

/-!
# Policies

`domain/policies.py`: which events may activate the agent, which tools need an
approval, and when captured entity versions are stale.
-/

namespace PrismAgent

def ALLOWED_MANUAL_TRIGGERS : List String :=
  ["decompose_story", "improve_workitem_description", "generate_acceptance_criteria",
    "plan_sprint", "summarize_project", "refine_backlog", "explain_project_risk"]

def ALLOWED_DOMAIN_TRIGGERS : List String :=
  ["epic.created", "epic.description.updated", "feature.provisioning.requested",
    "story.created", "story.ready_for_breakdown", "sprint.started", "sprint.ended",
    "pr.opened", "pr.synchronize", "pr.review_requested", "pr.merged"]

def ALLOWED_SCHEDULED_TRIGGERS : List String :=
  ["daily_summary", "sprint_planning", "sprint_midpoint_risk_check",
    "sprint_end_risk_check", "sprint_report_generation", "stale_work_scan"]

def IGNORED_LOW_VALUE_TRIGGERS : List String :=
  ["task.updated", "comment.created", "field.updated", "artifact.updated",
    "status.changed.minor"]

def TERMINAL_EVENT_TYPES : List String :=
  ["agent_suggestion.created", "insight.created", "agent.completed", "agent.failed"]

structure TriggerPolicyDecision where
  allowed : Bool
  triggerKey : String
  reason : String
  deriving DecidableEq, Repr

def triggerKeyFor (event : RuntimeEvent) : String :=
  match event.kind with
  | .agentAction _ _ => "agent.action.requested"
  | kind => kind.name ++ "." ++ event.eventType

namespace PMTriggerPolicy

/-- Whether the kind of the event admits its type. -/
def allowedType (event : RuntimeEvent) : Bool :=
  match event.kind with
  | .manual _ => event.eventType ∈ ALLOWED_MANUAL_TRIGGERS
  | .domain => event.eventType ∈ ALLOWED_DOMAIN_TRIGGERS
  | .scheduled _ => event.eventType ∈ ALLOWED_SCHEDULED_TRIGGERS
  | .agentAction _ _ => true
  | .subagentTask _ _ => false
  | .subagentCompleted _ _ _ => false

def evaluate (event : RuntimeEvent) : TriggerPolicyDecision :=
  let triggerKey := triggerKeyFor event
  if event.eventType ∈ IGNORED_LOW_VALUE_TRIGGERS then
    { allowed := false, triggerKey := triggerKey, reason := "ignored_low_value_event" }
  else if event.eventType ∈ TERMINAL_EVENT_TYPES then
    { allowed := false, triggerKey := triggerKey, reason := "terminal_event" }
  else
    { allowed := allowedType event
      triggerKey := triggerKey
      reason := if allowedType event then "allowed" else "unsupported_event" }

/-- Terminal events never activate the agent. -/
theorem evaluate_terminal {event : RuntimeEvent}
    (h : event.eventType ∈ TERMINAL_EVENT_TYPES) : (evaluate event).allowed = false := by
  unfold evaluate
  split
  · rfl
  · rfl

end PMTriggerPolicy

inductive ApprovalMode
  | autoCommit
  | userApprovalRequired
  | suggestOnly
  deriving DecidableEq, Repr

structure ActionApprovalPolicy where
  defaultMode : ApprovalMode := .suggestOnly
  toolModes : Dict String ApprovalMode := []

namespace ActionApprovalPolicy

/-- The mode of a tool, the default where none is set. -/
def mode (policy : ActionApprovalPolicy) (toolName : String) : ApprovalMode :=
  (policy.toolModes.lookup toolName).getD policy.defaultMode

def requiresApproval (policy : ActionApprovalPolicy) (toolName : String) : Bool :=
  policy.mode toolName = .userApprovalRequired ∨ policy.mode toolName = .suggestOnly

theorem requiresApproval_eq_false_iff (policy : ActionApprovalPolicy) (toolName : String) :
    policy.requiresApproval toolName = false ↔ policy.mode toolName = .autoCommit := by
  unfold requiresApproval
  cases policy.mode toolName <;> simp

end ActionApprovalPolicy

/-- What a stale entity was expected to be and what it is. -/
structure StaleEntity where
  expected : EntityVersion
  current : EntityVersion
  deriving DecidableEq, Repr

/-- The entities whose observed version differs from the expected one. An entity
without an observed version is not reported. -/
def StaleContextPolicy.diff (expectedVersions currentVersions : Dict String EntityVersion) :
    Dict String StaleEntity :=
  expectedVersions.filterMap fun entry =>
    match currentVersions.lookup entry.1 with
    | some current =>
        if current ≠ entry.2 then some (entry.1, { expected := entry.2, current := current })
        else none
    | none => none

end PrismAgent
