import PrismAgent.Delivery.Aborts
import PrismAgent.Effect.Emissions

/-!
# Handlers that dispatch no node

Only the start of a graph and the settle of a node enqueue task events. Every other
handler enqueues events of other kinds: `unassigned` is the contract that says so.
-/

namespace PrismAgent

open Effect
open ActionEventHandler (TerminalEvent respects_call)

/-- The envelope carries no task event. -/
def NoTask (e : EventEnvelope) : Prop :=
  ∀ runId nodeId, e.event.kind ≠ .subagentTask runId nodeId

/-- No task event is enqueued. Tools emit terminal events, and no graph is advanced. -/
def unassigned : Contract Call Call.Answer Exc where
  calls
    | .enqueue e => NoTask e
    | _ => True
  answers
    | .executeOne _ _ _, .ok result => ∀ e ∈ result.emittedEvents, TerminalEvent e
    | .advanceTaskGraph _ _ _ _, .ok (some _) => False
    | _, _ => True

/-- The program enqueues no task event. -/
def Unassigned {α : Type} (p : App α) : Prop := p.Respects unassigned fun _ => True

theorem unassigned_of_writes {call : Call} (h : call.writes ≠ some .queue) :
    unassigned.calls call := by
  cases call with
  | enqueue => exact absurd rfl h
  | _ => trivial

theorem noTask_of_terminal {e : EventEnvelope} (h : TerminalEvent e) : NoTask e := by
  intro runId nodeId hkind
  have hdomain := h.1
  rw [hkind] at hdomain
  cases hdomain

namespace Unassigned

variable {α β : Type}

theorem of_writes {parts : List Part} {p : App α} (hp : Writes parts p) (hqueue : .queue ∉ parts) :
    Unassigned p :=
  (hp.avoids hqueue).respects fun _ hcall => unassigned_of_writes hcall

theorem bind {p : App α} {f : α → App β} (hp : Unassigned p) (hf : ∀ a, Unassigned (f a)) :
    Unassigned (p >>= f) :=
  Program.Respects.bind hp fun a _ => hf a

theorem perform {call : Call} (h : unassigned.calls call) : Unassigned (perform call) :=
  respects_call h

theorem trace (event : RuntimeEvent) (eventName : String) (planId actionId : Option String) :
    Unassigned (PrismAgent.trace event eventName planId actionId) :=
  perform trivial

end Unassigned

namespace DomainEventHandler

variable (envelope : EventEnvelope)

theorem enqueueFirstAction_unassigned (plan : AgentPlan) :
    Unassigned (enqueueFirstAction envelope plan) := by
  unfold enqueueFirstAction
  split
  · split
    · exact .trace _ _ _ _
    · refine .bind (.perform trivial) fun _ => .bind (.perform trivial) fun _ => ?_
      exact .bind (.trace _ _ _ _) fun _ => .trace _ _ _ _
  · refine .bind (.perform trivial) fun eventId => .bind (.perform ?_) fun _ => .trace _ _ _ _
    rintro runId nodeId ⟨⟩

theorem startPlan_unassigned (registries : Registries) (workflow : WorkflowDefinition)
    (snapshot : ContextSnapshot) (agentRunId : String) (replan : Bool) :
    Unassigned (startPlan registries envelope workflow snapshot agentRunId replan) := by
  refine .bind (.of_writes (startRun_writes envelope _ _ _ _) (by decide)) fun started => ?_
  split
  · trivial
  · refine .bind (.of_writes (buildPlan_writes _ _ _ _) (by decide)) fun plan => ?_
    refine .bind (.perform trivial) fun _ => .bind (.perform trivial) fun _ => ?_
    refine .bind (.perform trivial) fun _ => .bind (.trace _ _ _ _) fun _ => ?_
    exact enqueueFirstAction_unassigned envelope _

theorem handlePlan_unassigned (registries : Registries) (workflow : WorkflowDefinition)
    (snapshot : ContextSnapshot) (agentRunId : String) :
    Unassigned (handlePlan registries envelope workflow snapshot agentRunId) := by
  refine .bind (.perform trivial) fun found => ?_
  split
  · exact startPlan_unassigned envelope _ _ _ _ _
  · split
    · exact startPlan_unassigned envelope _ _ _ _ _
    · refine .bind (.perform trivial) fun _ => .bind (.trace _ _ _ _) fun _ => ?_
      exact enqueueFirstAction_unassigned envelope _

end DomainEventHandler

namespace SubAgentCoordinator

variable (envelope : EventEnvelope)

theorem enqueueAction_unassigned (subPlan : AgentPlan) (action : PlannedAction) :
    Unassigned (enqueueAction envelope subPlan action) := by
  refine .bind (.perform trivial) fun eventId => .perform ?_
  rintro runId nodeId ⟨⟩

theorem enqueueCompleted_unassigned (graph : TaskGraph) (nodeId status : String) :
    Unassigned (enqueueCompleted envelope graph nodeId status) := by
  refine .bind (.perform trivial) fun eventId => .perform ?_
  rintro runId nodeId ⟨⟩

theorem resumeExistingSubplan_unassigned (graph : TaskGraph) (node : SubTask)
    (subPlan : AgentPlan) : Unassigned (resumeExistingSubplan envelope graph node subPlan) := by
  have hcompleted : ∀ status, Unassigned (do
      trace envelope.event "subagent.resumed"
      enqueueCompleted envelope graph node.nodeId status) := fun status =>
    .bind (.trace _ _ _ _) fun _ => enqueueCompleted_unassigned envelope _ _ _
  unfold resumeExistingSubplan
  split
  · exact .bind (enqueueAction_unassigned envelope _ _) fun _ => .trace _ _ _ _
  · split
    all_goals first | exact hcompleted _ | exact .trace _ _ _ _

theorem handleTask_unassigned (registries : Registries) (runId nodeId : String) :
    Unassigned (handleTask registries envelope runId nodeId) := by
  refine .bind (.perform trivial) fun found => ?_
  split
  · exact .trace _ _ _ _
  · split
    · exact .trace _ _ _ _
    · split
      · exact .trace _ _ _ _
      · refine .bind (.perform trivial) fun subPlan => ?_
        split
        · exact resumeExistingSubplan_unassigned envelope _ _ _
        · refine .bind (.perform trivial) fun snapshot => ?_
          split
          · exact .trace _ _ _ _
          · refine .bind (.of_writes (planningContext_writes _ _ _ _ _) (by simp)) fun context => ?_
            refine .bind (.of_writes (.liftExcept _ : Writes [] _) (by simp)) fun workflow => ?_
            refine .bind (.trace _ _ _ _) fun _ => ?_
            refine .bind (.of_writes (SubAgentRunner.planForNode_writes _ _ _ _ _ _) (by simp))
              fun subPlan => ?_
            refine .bind (.perform trivial) fun _ => .bind (.perform trivial) fun _ => ?_
            split
            · exact .bind (.trace _ _ _ _) fun _ => enqueueCompleted_unassigned envelope _ _ _
            · exact .bind (enqueueAction_unassigned envelope _ _) fun _ => .trace _ _ _ _

end SubAgentCoordinator

/-- No handler of an action spawns task events. -/
theorem spawns_unassigned (envelope : EventEnvelope) :
    Spawns unassigned TerminalEvent (fun _ => False) (fun _ => True) (fun _ => True) envelope := by
  have hfollows : ∀ (envelope : EventEnvelope) (plan : AgentPlan) (e : EventEnvelope),
      ActionEventHandler.EmitsFor envelope plan e → NoTask e := by
    intro envelope plan e he
    cases he with
    | action => rintro runId nodeId ⟨⟩
    | settle => rintro runId nodeId ⟨⟩
  constructor
  case quiet => exact fun call hcall => unassigned_of_writes (Call.writes_ne hcall (by decide))
  case follows => exact fun plan e _ he => hfollows envelope plan e he
  case emits =>
    rintro d - - - e he
    cases he with
    | plan he => exact hfollows d.envelope d.plan e he
    | replan eventId reason staleEntities =>
        intro runId nodeId hkind
        have hnone := replanEvent_planId? eventId reason d staleEntities
        unfold RuntimeEvent.planId? at hnone
        change (ActionEventHandler.replanEvent eventId d staleEntities reason).kind = _ at hkind
        rw [hkind] at hnone
        cases hnone
    | aside he => exact noTask_of_terminal he
  case completed => exact fun _ _ _ _ _ _ => by rintro runId nodeId ⟨⟩
  case task => exact fun _ _ _ _ _ h => h.elim
  case advanced => exact fun _ _ _ _ _ h => h.elim
  case executed => exact fun _ _ _ _ _ h => h
  case suggestion =>
    exact fun eventId suggestion context _ =>
      ActionEventHandler.terminalEvent_suggestion eventId suggestion context
  all_goals exact fun _ => by intros; trivial

theorem ActionEventHandler.handle_unassigned (budget : ℕ) (envelope : EventEnvelope) :
    Unassigned (ActionEventHandler.handle budget envelope) :=
  Spawns.handle (W := fun _ => True) (fun e _ => spawns_unassigned e) (fun _ _ _ _ _ _ => trivial)
    budget trivial

end PrismAgent
