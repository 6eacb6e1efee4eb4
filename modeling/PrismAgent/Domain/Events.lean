import PrismAgent.Domain.Json

/-!
# Runtime events

The events and envelopes of `domain/events.py`. The classes that the `kind`
field tells apart are the constructors of `EventKind`; the fields they share are
those of `RuntimeEvent`. Timestamps and envelope ids, which no modelled function
reads, are left out.
-/

namespace PrismAgent

/-- Python's `a or b` on an optional text: empty counts as absent. -/
def orElseText (a : Option String) (b : String) : String :=
  match a with
  | some s => if s = "" then b else s
  | none => b

structure EventCausality where
  rootEventId : Option String := none
  parentEventId : Option String := none
  depth : ℕ := 0
  chain : List String := []
  deriving DecidableEq, Repr

def EventCausality.child (causality : EventCausality) (parentEventId : String) :
    EventCausality :=
  { rootEventId := some (orElseText causality.rootEventId parentEventId)
    parentEventId := some parentEventId
    depth := causality.depth + 1
    chain := causality.chain ++ [parentEventId] }

inductive EventKind
  | domain
  | scheduled (scheduleId : Option String)
  | manual (actorId : Option String)
  | agentAction (planId actionId : String)
  | subagentTask (planId nodeId : String)
  | subagentCompleted (planId nodeId status : String)
  deriving DecidableEq, Repr

/-- The value of the `kind` field. -/
def EventKind.name : EventKind → String
  | .domain => "domain"
  | .scheduled _ => "scheduled"
  | .manual _ => "manual"
  | .agentAction _ _ => "agent_action"
  | .subagentTask _ _ => "subagent_task"
  | .subagentCompleted _ _ _ => "subagent_completed"

structure RuntimeEvent where
  kind : EventKind
  eventId : String
  eventType : String
  workspaceId : String
  projectId : Option String := none
  payload : Fields := []
  correlationId : Option String := none
  causality : EventCausality := {}
  idempotencyKey : Option String := none

structure EventEnvelope where
  event : RuntimeEvent
  attempt : ℕ := 0

namespace EventEnvelope

def wrap (event : RuntimeEvent) : EventEnvelope := { event := event }

def eventId (envelope : EventEnvelope) : String := envelope.event.eventId

@[simp] theorem wrap_event (event : RuntimeEvent) : (wrap event).event = event := rfl

end EventEnvelope

/-- An `AgentActionEvent` with its default event type. -/
def agentActionEvent (eventId workspaceId : String) (projectId : Option String)
    (planId actionId : String) (correlationId : Option String)
    (causality : EventCausality) : RuntimeEvent :=
  { kind := .agentAction planId actionId
    eventId := eventId
    eventType := "agent.action.requested"
    workspaceId := workspaceId
    projectId := projectId
    correlationId := correlationId
    causality := causality }

/-- A `SubAgentTaskEvent` with its default event type. -/
def subAgentTaskEvent (eventId workspaceId : String) (projectId : Option String)
    (planId nodeId : String) (correlationId : Option String)
    (causality : EventCausality) : RuntimeEvent :=
  { kind := .subagentTask planId nodeId
    eventId := eventId
    eventType := "agent.subagent.requested"
    workspaceId := workspaceId
    projectId := projectId
    correlationId := correlationId
    causality := causality }

/-- A `SubAgentCompletedEvent` with its default event type. -/
def subAgentCompletedEvent (eventId workspaceId : String) (projectId : Option String)
    (planId nodeId status : String) (correlationId : Option String)
    (causality : EventCausality) (payload : Fields) : RuntimeEvent :=
  { kind := .subagentCompleted planId nodeId status
    eventId := eventId
    eventType := "agent.subagent.completed"
    workspaceId := workspaceId
    projectId := projectId
    payload := payload
    correlationId := correlationId
    causality := causality }

/-- The plan, run or sub-plan id an event carries, when its class has one. -/
def RuntimeEvent.planId? (event : RuntimeEvent) : Option String :=
  match event.kind with
  | .agentAction planId _ => some planId
  | .subagentTask planId _ => some planId
  | .subagentCompleted planId _ _ => some planId
  | _ => none

end PrismAgent
