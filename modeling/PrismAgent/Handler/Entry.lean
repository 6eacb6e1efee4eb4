import PrismAgent.Application.ActionEventHandler
import PrismAgent.Application.Frame

/-!
# One entry of the action handler

What an entry of `handle` reads before it decides, as functions of the world:
the plan and the action it loads, and the verdict of the pre-execution
validation. `Entries` speaks of every entry of one invocation, the delivered one
and those it chains inline.
-/

namespace PrismAgent

open Effect

namespace ActionEventHandler

variable {σ : Type} [StateStore σ]

/-- The plan of an action event as the store loads it. -/
def loadPlan (env : Env) (w : World σ) (envelope : EventEnvelope) (planId : String) :
    Option AgentPlan :=
  (StateStore.getPlan (env.stateApi w.tick) envelope.event.workspaceId planId w.store).1

/-- The action that an entry selects: it is PENDING, its context is there and its
key is not consumed. With it, the world the decision starts in. -/
def selected (env : Env) (w : World σ) (envelope : EventEnvelope) :
    Option (Delivery × World σ) :=
  match envelope.event.kind with
  | .agentAction planId actionId =>
      match env.sem.exec (selectAction envelope planId actionId) w with
      | (.ok (.selected d), w') => some (d, w')
      | _ => none
  | _ => none

/-- The verdict of the pre-execution validation when the current versions are
asked for at time `tick`. -/
def Delivery.verdict (env : Env) (tick : ℕ) (d : Delivery) : ValidationDecision :=
  if (d.context.permissions.lookup d.action.toolName).getD true = false then .fail
  else if StaleContextPolicy.diff d.action.expectedEntityVersions
      (env.currentEntityVersions tick d.context.workspaceId d.context.projectId
        (d.action.expectedEntityVersions.map Prod.fst)) ≠ [] then .replan
  else if d.action.requiresApproval then .suggest
  else .commit

/-- `P` holds at every entry of an invocation: at the delivered event and, while
the budget lasts, at each action chained inline. -/
def Entries (env : Env) (P : Bool → EventEnvelope → World σ → Prop) :
    ℕ → EventEnvelope → World σ → Prop
  | 0, envelope, w => P false envelope w
  | budget + 1, envelope, w =>
      P true envelope w ∧
        ∀ next, (env.sem.exec (handleOne true envelope) w).1 = .ok (some next) →
          Entries env P budget next (env.sem.exec (handleOne true envelope) w).2

/-- The contract allows to announce what happened: traces, reports and the settles
of sub-plans. -/
structure Announces (C : Contract Call Call.Answer Exc) : Prop where
  uuid4 : C.calls .uuid4
  appendTraceEvent : ∀ traceEvent, C.calls (.appendTraceEvent traceEvent)
  sync : ∀ call, C.calls (.sync call)
  settle : ∀ envelope runId nodeId status,
    envelope.event.kind = .subagentCompleted runId nodeId status → C.calls (.enqueue envelope)

/-- An envelope that asks for the next action of the plan. -/
def AsksForNext (plan : AgentPlan) (envelope : EventEnvelope) : Prop :=
  ∃ next, plan.nextPendingAction = some next ∧
    envelope.event.kind = .agentAction plan.planId next.actionId ∧
    envelope.event.workspaceId = plan.workspaceId

namespace Announces

variable {C : Contract Call Call.Answer Exc} (h : Announces C)

include h

theorem trace (event : RuntimeEvent) (eventName : String) (planId actionId : Option String) :
    (PrismAgent.trace event eventName planId actionId).Respects C fun _ => True :=
  Program.respects_perform (h.appendTraceEvent _) fun _ _ => trivial

theorem report (d : Delivery) (status : ActionStatus) (eventName message : String) :
    (d.report status eventName message).Respects C fun _ => True :=
  Program.respects_perform (h.sync _) fun _ _ => trivial

theorem settleSubplan (envelope : EventEnvelope) (plan : AgentPlan) (status : String)
    (message : Option String) :
    (ActionEventHandler.settleSubplan envelope plan status message).Respects C
      fun _ => True := by
  unfold ActionEventHandler.settleSubplan
  split
  · refine .bind (Program.respects_perform h.uuid4 fun _ _ => trivial) fun _ _ => ?_
    refine .bind (Program.respects_perform (h.settle _ _ _ _ rfl) fun _ _ => trivial)
      fun _ _ => ?_
    exact h.trace _ _ _ _
  · exact trivial

theorem settleIfSubplan (d : Delivery) (status : String) (message : Option String) :
    (ActionEventHandler.settleIfSubplan d status message).Respects C fun _ => True := by
  unfold ActionEventHandler.settleIfSubplan
  split
  · exact h.settleSubplan _ _ _ _
  · exact trivial

theorem finishPlan (envelope : EventEnvelope) (plan : AgentPlan) :
    (ActionEventHandler.finishPlan envelope plan).Respects C fun _ => True := by
  unfold ActionEventHandler.finishPlan
  split
  · split
    · exact .bind (h.trace _ _ _ _) fun _ _ => h.settleSubplan _ _ _ _
    · exact .bind (Program.respects_perform (h.sync _) fun _ _ => trivial)
        fun _ _ => h.trace _ _ _ _
  · exact h.trace _ _ _ _

omit h in
theorem enqueueEvents (envelopes : List EventEnvelope)
    (hevents : ∀ envelope ∈ envelopes, C.calls (.enqueue envelope)) :
    (ActionEventHandler.enqueueEvents envelopes).Respects C fun _ => True := by
  induction envelopes with
  | nil => exact trivial
  | cons envelope envelopes ih =>
      refine .bind (Program.respects_perform (hevents _ List.mem_cons_self) fun _ _ => trivial)
        fun _ _ => ?_
      exact ih fun e he => hevents e (List.mem_cons_of_mem _ he)

/-- What is enqueued or chained asks for the next action. -/
theorem enqueueNextAction (inline : Bool) (envelope : EventEnvelope) (plan : AgentPlan)
    (hnext : ∀ e, AsksForNext plan e → C.calls (.enqueue e)) :
    (ActionEventHandler.enqueueNextAction inline envelope plan).Respects C
      fun chained => ∀ e, chained = some e → AsksForNext plan e := by
  unfold ActionEventHandler.enqueueNextAction
  split
  · exact .bind (h.finishPlan _ _) fun _ _ => by rintro _ ⟨⟩
  next next hsome =>
    refine .bind (Program.respects_perform h.uuid4 fun _ _ => trivial) fun eventId _ => ?_
    dsimp only
    split
    · refine .bind (h.trace _ _ _ _) fun _ _ => ?_
      rintro _ ⟨⟩
      exact ⟨next, hsome, rfl, rfl⟩
    · refine .bind (Program.respects_perform (hnext _ ⟨next, hsome, rfl, rfl⟩)
        fun _ _ => trivial) fun _ _ => ?_
      refine .bind (h.trace _ _ _ _) fun _ _ => ?_
      rintro _ ⟨⟩

theorem skipAction (inline : Bool) (envelope : EventEnvelope) (plan : AgentPlan)
    (action : PlannedAction) (hnext : ∀ e, AsksForNext plan e → C.calls (.enqueue e)) :
    (ActionEventHandler.skipAction inline envelope plan action).Respects C
      fun chained => ∀ e, chained = some e → AsksForNext plan e := by
  refine .bind (h.trace _ _ _ _) fun _ _ => ?_
  split
  · exact h.enqueueNextAction _ _ _ hnext
  · rintro _ ⟨⟩

end Announces

/-- `P` admits the calls that settle the action of `d`, whichever way it goes. -/
structure Admits (P : Call → Prop) (d : Delivery) : Prop where
  uuid4 : P .uuid4
  appendTraceEvent : ∀ traceEvent, P (.appendTraceEvent traceEvent)
  enqueue : ∀ envelope, P (.enqueue envelope)
  sync : ∀ call, P (.sync call)
  saveActionResult : ∀ result, P (.saveActionResult result)
  recordIdempotencyKey : P (.recordIdempotencyKey d.action.idempotencyKey)
  updatePlan : ∀ status, P (.updatePlan (d.planWith status))

namespace Admits

variable {P : Call → Prop} {d : Delivery} (h : Admits P d)

include h

theorem announces : Announces { calls := P } :=
  ⟨h.uuid4, h.appendTraceEvent, h.sync, fun _ _ _ _ _ => h.enqueue _⟩

theorem deliveryTrace (eventName : String) : (d.trace eventName).OnlyCalls P :=
  h.announces.trace _ _ _ _

theorem save (status : ActionStatus) : (d.save status).OnlyCalls P :=
  (Program.onlyCalls_perform _).2 (h.updatePlan status)

theorem report (status : ActionStatus) (eventName message : String) :
    (d.report status eventName message).OnlyCalls P :=
  h.announces.report _ _ _ _

theorem settleSubplan (envelope : EventEnvelope) (plan : AgentPlan) (status : String)
    (message : Option String) :
    (ActionEventHandler.settleSubplan envelope plan status message).OnlyCalls P :=
  h.announces.settleSubplan _ _ _ _

theorem settleIfSubplan (d : Delivery) (status : String) (message : Option String) :
    (ActionEventHandler.settleIfSubplan d status message).OnlyCalls P :=
  h.announces.settleIfSubplan _ _ _

theorem enqueueEvents (envelopes : List EventEnvelope) :
    (ActionEventHandler.enqueueEvents envelopes).OnlyCalls P :=
  Announces.enqueueEvents _ fun _ _ => h.enqueue _

theorem enqueueNextAction (inline : Bool) (envelope : EventEnvelope) (plan : AgentPlan) :
    (ActionEventHandler.enqueueNextAction inline envelope plan).OnlyCalls P :=
  (h.announces.enqueueNextAction _ _ _ fun _ _ => h.enqueue _).mono fun _ _ => trivial

theorem requireApproval (validation : ValidationResult) :
    (ActionEventHandler.requireApproval d validation).OnlyCalls P := by
  refine .bind ((Program.onlyCalls_perform _).2 h.uuid4) fun _ => ?_
  refine .bind ((Program.onlyCalls_perform _).2 (h.saveActionResult _)) fun _ => ?_
  refine .bind (h.save _) fun _ => .bind (h.report _ _ _) fun _ => ?_
  refine .bind ((Program.onlyCalls_perform _).2 h.recordIdempotencyKey) fun _ => ?_
  refine .bind (h.enqueueEvents _) fun _ => .bind (h.deliveryTrace _) fun _ => ?_
  exact h.settleIfSubplan _ _ _

theorem rejectStale (validation : ValidationResult) :
    (ActionEventHandler.rejectStale d validation).OnlyCalls P := by
  refine .bind (h.save _) fun _ => .bind (h.report _ _ _) fun _ => ?_
  refine .bind (h.deliveryTrace _) fun _ => ?_
  split
  · exact h.settleSubplan _ _ _ _
  · refine .bind ((Program.onlyCalls_perform _).2 h.uuid4) fun _ => ?_
    refine .bind ((Program.onlyCalls_perform _).2 (h.enqueue _)) fun _ => ?_
    exact h.deliveryTrace _

theorem rejectInvalid (validation : ValidationResult) :
    (ActionEventHandler.rejectInvalid d validation).OnlyCalls P := by
  refine .bind (h.save _) fun _ => .bind (h.report _ _ _) fun _ => ?_
  exact .bind (h.deliveryTrace _) fun _ => h.settleIfSubplan _ _ _

theorem executionError (exc : Exc) :
    (ActionEventHandler.executionError d exc).OnlyCalls P := by
  refine .bind (h.save _) fun _ => .bind (h.report _ _ _).attempt fun _ => ?_
  refine .bind (h.deliveryTrace _) fun _ => .bind (h.deliveryTrace _) fun _ => ?_
  split
  · exact h.settleSubplan _ _ _ _
  · exact trivial

theorem commit (inline : Bool) (validation : ValidationResult) :
    (ActionEventHandler.commit inline d validation).OnlyCalls P := by
  refine .bind (h.save _) fun _ => .bind (h.report _ _ _) fun _ => ?_
  refine .bind ((Program.onlyCalls_perform _).2 h.recordIdempotencyKey) fun _ => ?_
  refine .bind (h.enqueueEvents _) fun _ => .bind (h.deliveryTrace _) fun _ => ?_
  exact h.enqueueNextAction _ _ _

theorem settleFailure (validation : ValidationResult) :
    (ActionEventHandler.settleFailure d validation).OnlyCalls P := by
  unfold ActionEventHandler.settleFailure
  split
  · refine .bind (h.save _) fun _ => .bind ((Program.onlyCalls_perform _).2 h.uuid4) fun _ => ?_
    refine .bind ((Program.onlyCalls_perform _).2 (h.enqueue _)) fun _ => ?_
    exact .bind (h.report _ _ _) fun _ => h.deliveryTrace _
  · refine .bind (h.save _) fun _ => .bind (h.report _ _ _) fun _ => ?_
    exact .bind (h.deliveryTrace _) fun _ => h.settleIfSubplan _ _ _

theorem settleResult (inline : Bool) (result : ToolResult) :
    (ActionEventHandler.settleResult inline d result).OnlyCalls P := by
  refine .bind ((Program.onlyCalls_perform _).2 (h.saveActionResult _)) fun _ => ?_
  refine .bind (h.deliveryTrace _) fun _ => ?_
  split
  · exact h.commit _ _
  · exact .bind (h.settleFailure _) fun _ => trivial

theorem settleExecution (inline : Bool) (answer : Except Exc ToolResult) :
    (ActionEventHandler.settleExecution inline d answer).OnlyCalls P := by
  cases answer with
  | error exc => exact .bind (h.executionError exc) fun _ => trivial
  | ok result => exact h.settleResult inline result

end Admits

/-- A call that writes no plan and executes nothing. -/
def Passive (call : Call) : Prop :=
  call.writes ≠ some .plans ∧ call.writes ≠ some .executions

/-- Two worlds with the same plan writes and executions. -/
structure Unmoved (w w' : World σ) : Prop where
  planWrites : w'.planWrites = w.planWrites
  executions : w'.executions = w.executions

section Selection

variable (env : Env) {w : World σ} {envelope : EventEnvelope}

theorem sem_unmoved {call : Call} (h : Passive call) : Unmoved w (env.sem call w).2 := by
  cases call with
  | savePlan => exact absurd rfl h.1
  | updatePlan => exact absurd rfl h.1
  | executeOne => exact absurd rfl h.2
  | _ => exact ⟨rfl, rfl⟩

/-- A passive program leaves the plans and the executions as they are. -/
theorem wp_unmoved {α : Type} {p : App α} (hp : p.OnlyCalls Passive) :
    p.wp env.sem.step (fun _ t => Unmoved w t) w := by
  refine Program.wp_of_onlyCalls (fun s call r t h hstep hs => ?_) hp ⟨rfl, rfl⟩
  have ht : t = (env.sem call s).2 := congrArg Prod.snd hstep
  have hcall := sem_unmoved env (w := s) h
  rw [ht]
  exact ⟨hcall.planWrites.trans hs.planWrites, hcall.executions.trans hs.executions⟩

end Selection

/-- The validation asks for current versions and for ids, and makes no other call. -/
theorem validateBeforeExecution_onlyCalls {P : Call → Prop} (huuid4 : P .uuid4)
    (hversions : ∀ workspaceId projectId entityRefs,
      P (.getCurrentEntityVersions workspaceId projectId entityRefs))
    (action : PlannedAction) (context : AgentContext) :
    (Validator.validateBeforeExecution action context).OnlyCalls P := by
  unfold Validator.validateBeforeExecution
  split
  · trivial
  · refine .bind ((Program.onlyCalls_perform _).2 (hversions _ _ _)) fun current => ?_
    dsimp only
    split
    · trivial
    · split
      · refine .bind ((Program.onlyCalls_perform _).2 huuid4) fun _ => ?_
        exact .bind ((Program.onlyCalls_perform _).2 huuid4) fun _ => trivial
      · trivial

section Decision

variable (env : Env) (d : Delivery)

/-- The validation returns its verdict and only takes time; what it emits are domain
events of a terminal type. -/
theorem validateBeforeExecution_spec (w : World σ) :
    (Validator.validateBeforeExecution d.action d.context).wp env.sem.step
      (fun r t => (∃ n, t = { w with tick := n }) ∧ ∃ validation, r = .ok validation ∧
        validation.decision = d.verdict env w.tick ∧
        ∀ envelope ∈ validation.emittedEvents, envelope.event.kind = .domain ∧
          envelope.event.eventType ∈ TERMINAL_EVENT_TYPES) w := by
  unfold Validator.validateBeforeExecution Delivery.verdict
  split
  · exact ⟨⟨w.tick, rfl⟩, _, rfl, rfl, by simp⟩
  · rw [Program.wp_bind, Program.wp_perform_step]
    change Program.wp _ _ _ { w with tick := w.tick + 1 }
    by_cases hstale : StaleContextPolicy.diff d.action.expectedEntityVersions
        (env.currentEntityVersions w.tick d.context.workspaceId d.context.projectId
          (d.action.expectedEntityVersions.map Prod.fst)) = []
    · simp only [hstale, ne_eq, not_true_eq_false, if_false]
      split
      · rw [Program.wp_bind, Program.wp_perform_step]
        change Program.wp _ _ _ { w with tick := w.tick + 2 }
        rw [Program.wp_bind, Program.wp_perform_step]
        refine ⟨⟨w.tick + 3, rfl⟩, _, rfl, rfl, ?_⟩
        intro envelope henvelope
        rw [List.mem_singleton.1 henvelope]
        refine ⟨rfl, ?_⟩
        change "agent_suggestion.created" ∈ TERMINAL_EVENT_TYPES
        decide
      · exact ⟨⟨w.tick + 1, rfl⟩, _, rfl, rfl, by simp⟩
    · simp only [hstale, ne_eq, not_false_eq_true, if_true]
      exact ⟨⟨w.tick + 1, rfl⟩, _, rfl, rfl, by simp⟩

end Decision

end ActionEventHandler

end PrismAgent
