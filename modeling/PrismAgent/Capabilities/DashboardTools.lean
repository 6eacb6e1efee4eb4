import PrismAgent.Domain.Results

/-!
# Dashboard tools

`CreateDashboardInsightTool`, the tool that emits an event: its insight is announced in the
wake of the plan's source event.
-/

namespace PrismAgent

namespace CreateDashboardInsightTool

def insightEvent (eventId : String) (action : PlannedAction) (context : AgentContext) :
    RuntimeEvent :=
  { kind := .domain
    eventId := eventId
    eventType := "insight.created"
    workspaceId := context.workspaceId
    projectId := context.projectId
    payload :=
      Dict.merge [("insight_id", .str ("insight-" ++ action.actionId))] action.input
    causality := context.sourceEvent.event.causality.child context.sourceEvent.eventId }

def execute (eventId resultId : String) (action : PlannedAction) (context : AgentContext) :
    ToolResult :=
  { resultId := resultId
    planId := action.planId
    actionId := action.actionId
    toolName := "create_dashboard_insight"
    success := true
    output := [("insight_id", .str ("insight-" ++ action.actionId))]
    emittedEvents := [.wrap (insightEvent eventId action context)] }

end CreateDashboardInsightTool

end PrismAgent
