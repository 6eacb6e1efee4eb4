import PrismAgent.Application.RecursionRunner
import PrismAgent.Application.Writes
import PrismAgent.Handler.Entry

/-!
# Calls that leave the plans and their listing

Plans are written by two calls and reported by two. The other calls are quiet, and the
handlers are quiet but for the plans that they make and the actions that they act on.
-/

namespace PrismAgent

open Effect

/-- The call upserts no action. -/
def SyncCall.Quiet : SyncCall → Prop
  | .planCreated _ | .actionState _ _ _ _ => False
  | _ => True

/-- The call writes no plan and reports no action. -/
def Call.Quiet : Call → Prop
  | .savePlan _ | .updatePlan _ => False
  | .sync call => call.Quiet
  | _ => True

theorem Call.quiet_of_writesIn {call : Call} {parts : List Part} (h : call.writesIn parts = true)
    (hplans : Part.plans ∉ parts) (hcalls : Part.syncCalls ∉ parts) : call.Quiet := by
  cases call with
  | savePlan | updatePlan => exact absurd rfl (Call.writes_ne h hplans)
  | sync => exact absurd rfl (Call.writes_ne h hcalls)
  | _ => trivial

/-- A program that makes quiet calls only. -/
abbrev Quietly {α : Type} (p : App α) : Prop := p.OnlyCalls Call.Quiet

theorem Writes.quietly {α : Type} {parts : List Part} {p : App α} (hp : Writes parts p)
    (hplans : Part.plans ∉ parts) (hcalls : Part.syncCalls ∉ parts) : Quietly p :=
  Program.OnlyCalls.mono hp fun _ hcall => Call.quiet_of_writesIn hcall hplans hcalls

theorem quietly_call {call : Call} (h : call.Quiet) : Quietly (perform call) :=
  (Program.onlyCalls_perform call).2 h

theorem quietly_trace (event : RuntimeEvent) (eventName : String)
    (planId actionId : Option String) : Quietly (trace event eventName planId actionId) :=
  quietly_call trivial

theorem quietly_liftExcept {α : Type} (r : Except Exc α) : Quietly (liftExcept r) := by
  cases r <;> trivial

namespace ActionEventHandler

theorem quietly_enqueueEvents (envelopes : List EventEnvelope) :
    Quietly (enqueueEvents envelopes) := by
  induction envelopes with
  | nil => trivial
  | cons emitted envelopes ih => exact .bind (quietly_call trivial) fun _ => ih

theorem quietly_settleSubplan (envelope : EventEnvelope) (plan : AgentPlan) (status : String)
    (message : Option String) : Quietly (settleSubplan envelope plan status message) := by
  unfold settleSubplan
  split
  · refine .bind (quietly_call trivial) fun _ => .bind (quietly_call trivial) fun _ => ?_
    exact quietly_trace _ _ _ _
  · trivial

theorem quietly_settleIfSubplan (d : Delivery) (status : String) (message : Option String) :
    Quietly (settleIfSubplan d status message) := by
  unfold settleIfSubplan
  split
  · exact quietly_settleSubplan _ _ _ _
  · trivial

theorem quietly_finishPlan (envelope : EventEnvelope) (plan : AgentPlan) :
    Quietly (finishPlan envelope plan) := by
  unfold finishPlan
  split
  · split
    · exact .bind (quietly_trace _ _ _ _) fun _ => quietly_settleSubplan _ _ _ _
    · exact .bind (quietly_call trivial) fun _ => quietly_trace _ _ _ _
  · exact quietly_trace _ _ _ _

theorem quietly_enqueueNextAction (inline : Bool) (envelope : EventEnvelope) (plan : AgentPlan) :
    Quietly (enqueueNextAction inline envelope plan) := by
  unfold enqueueNextAction
  split
  · exact .bind (quietly_finishPlan _ _) fun _ => trivial
  · refine .bind (quietly_call trivial) fun _ => ?_
    dsimp only
    split
    · exact .bind (quietly_trace _ _ _ _) fun _ => trivial
    · refine .bind (quietly_call trivial) fun _ => ?_
      exact .bind (quietly_trace _ _ _ _) fun _ => trivial

theorem quietly_skipAction (inline : Bool) (envelope : EventEnvelope) (plan : AgentPlan)
    (action : PlannedAction) : Quietly (skipAction inline envelope plan action) := by
  refine .bind (quietly_trace _ _ _ _) fun _ => ?_
  split
  · exact quietly_enqueueNextAction _ _ _
  · trivial

theorem quietly_validate (action : PlannedAction) (context : AgentContext) :
    Quietly (Validator.validateBeforeExecution action context) :=
  validateBeforeExecution_onlyCalls trivial (fun _ _ _ => trivial) action context

end ActionEventHandler

namespace DomainEventHandler

variable (envelope : EventEnvelope)

theorem quietly_unlessTerminal (agentRunId : String) {call : SyncCall} (h : call.Quiet) :
    Quietly (unlessTerminal envelope agentRunId call) := by
  refine .bind (.attempt (quietly_call h)) fun r => ?_
  split
  · trivial
  · exact .bind (quietly_trace _ _ _ _) fun _ => trivial
  · trivial

theorem quietly_dispatchReady (workspaceId agentRunId : String) (projectId : Option String)
    (nodes : List SubTask) :
    Quietly (dispatchReady envelope workspaceId agentRunId projectId nodes) := by
  induction nodes with
  | nil => trivial
  | cons node nodes ih =>
      refine .bind (quietly_call trivial) fun eventId => .bind (quietly_call trivial) fun _ => ?_
      exact .bind (quietly_trace _ _ _ _) fun _ => ih

theorem quietly_startGraph (snapshot : ContextSnapshot) (agentRunId : String)
    (graph : TaskGraph) : Quietly (startGraph envelope snapshot agentRunId graph) := by
  refine .bind (quietly_call trivial) fun _ => .bind (quietly_call trivial) fun _ => ?_
  refine .bind (quietly_trace _ _ _ _) fun _ => .bind (quietly_call trivial) fun ready => ?_
  split
  · exact .bind (quietly_call trivial) fun _ => quietly_trace _ _ _ _
  · exact quietly_dispatchReady envelope _ _ _ _

theorem quietly_handleOrchestrated (registries : Registries) (workflow : WorkflowDefinition)
    (snapshot : ContextSnapshot) (agentRunId : String) :
    Quietly (handleOrchestrated registries envelope workflow snapshot agentRunId) := by
  refine .bind (quietly_call trivial) fun found => ?_
  split
  · exact quietly_trace _ _ _ _
  · refine .bind (quietly_unlessTerminal envelope _ trivial) fun started => ?_
    split
    · trivial
    · exact .bind (quietly_liftExcept _) fun graph => quietly_startGraph envelope _ _ _

theorem quietly_startRun (workflow : WorkflowDefinition) (snapshot : ContextSnapshot)
    (agentRunId : String) (replan : Bool) :
    Quietly (startRun envelope workflow snapshot agentRunId replan) := by
  unfold startRun
  split
  · refine .bind (quietly_unlessTerminal envelope _ trivial) fun running => ?_
    split
    · exact .bind (quietly_trace _ _ _ _) fun _ => trivial
    · trivial
  · exact quietly_unlessTerminal envelope _ trivial

theorem quietly_buildPlan (registries : Registries) (workflow : WorkflowDefinition)
    (snapshot : ContextSnapshot) (agentRunId : String) :
    Quietly (buildPlan registries workflow snapshot agentRunId) := by
  refine .tryCatch (.bind (quietly_call trivial) fun _ => ?_) fun exc => ?_
  · split
    · trivial
    · exact (SubAgentRunner.planForNode_writes _ _ _ _ _ _).quietly (by simp) (by simp)
  · exact .bind (quietly_call trivial) fun _ => trivial

end DomainEventHandler

namespace SubAgentCoordinator

variable (envelope : EventEnvelope)

theorem quietly_enqueueAction (subPlan : AgentPlan) (action : PlannedAction) :
    Quietly (enqueueAction envelope subPlan action) :=
  (enqueueAction_writes envelope subPlan action).quietly (by decide) (by decide)

theorem quietly_enqueueCompleted (graph : TaskGraph) (nodeId status : String) :
    Quietly (enqueueCompleted envelope graph nodeId status) :=
  (enqueueCompleted_writes envelope graph nodeId status).quietly (by decide) (by decide)

theorem quietly_resumeExistingSubplan (graph : TaskGraph) (node : SubTask)
    (subPlan : AgentPlan) : Quietly (resumeExistingSubplan envelope graph node subPlan) := by
  have hcompleted : ∀ status, Quietly (do
      trace envelope.event "subagent.resumed"
      enqueueCompleted envelope graph node.nodeId status) := fun status =>
    .bind (quietly_trace _ _ _ _) fun _ => quietly_enqueueCompleted envelope _ _ _
  unfold resumeExistingSubplan
  dsimp only
  split
  · exact .bind (quietly_enqueueAction envelope _ _) fun _ => quietly_trace _ _ _ _
  · split
    all_goals first | exact hcompleted _ | exact quietly_trace _ _ _ _

theorem quietly_dispatchNode (graph : TaskGraph) (node : SubTask) :
    Quietly (dispatchNode envelope graph node) := by
  refine .bind (quietly_call trivial) fun eventId => .bind (quietly_call trivial) fun _ => ?_
  exact quietly_trace _ _ _ _

theorem quietly_dispatchNodes (graph : TaskGraph) (nodes : List SubTask) :
    Quietly (dispatchNodes envelope graph nodes) := by
  induction nodes with
  | nil => trivial
  | cons node nodes ih => exact .bind (quietly_dispatchNode envelope _ _) fun _ => ih

theorem quietly_followAdvance (runId : String) (advance : TaskGraphAdvance) :
    Quietly (followAdvance envelope runId advance) := by
  have hsynthesizer : Quietly (dispatchSynthesizer envelope advance) := by
    unfold dispatchSynthesizer
    split
    · exact quietly_dispatchNode envelope _ _
    · trivial
  have hcomplete : Quietly (completeRun envelope.event runId advance) := by
    unfold completeRun
    split
    · exact .bind (quietly_call trivial) fun _ => quietly_trace _ _ _ _
    · trivial
  refine .bind (quietly_dispatchNodes envelope _ _) fun _ => ?_
  refine .bind hsynthesizer fun _ => .bind hcomplete fun _ => ?_
  unfold blockRun
  split
  · exact .bind (quietly_call trivial) fun _ => quietly_trace _ _ _ _
  · trivial

theorem quietly_settleAdvance (runId nodeId : String) (status : SubTaskStatus)
    (advance : TaskGraphAdvance) :
    Quietly (settleAdvance envelope runId nodeId status advance) := by
  refine .bind ((recordResult_writes _ _ _ _ _).quietly (by decide) (by decide)) fun _ => ?_
  split
  · exact .bind (quietly_call trivial) fun _ => quietly_trace _ _ _ _
  · exact quietly_followAdvance envelope _ _

theorem quietly_handleCompleted (runId nodeId status : String) :
    Quietly (handleCompleted envelope runId nodeId status) := by
  have hsettled : ∀ status', Quietly (handleSettled envelope runId nodeId status') := by
    intro status'
    refine .bind (quietly_call trivial) fun found => ?_
    split
    · exact quietly_trace _ _ _ _
    · split
      · exact quietly_trace _ _ _ _
      · exact quietly_settleAdvance envelope _ _ _ _
  unfold handleCompleted
  split
  · exact hsettled _
  · split
    · exact hsettled _
    · exact quietly_trace _ _ _ _

end SubAgentCoordinator

end PrismAgent
