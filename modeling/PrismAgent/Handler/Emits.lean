import PrismAgent.Handler.Entry
import PrismAgent.Application.Writes

/-!
# What the action handler enqueues

`Emits A d` lists the envelopes that handling a delivery may enqueue or chain: an event
for an action of its plan, the settle of its node, a replan of its source event, and
asides `A`: suggestions and what the tool emits. A contract that allows these and the other
calls of the handler is respected.
-/

namespace PrismAgent

open Effect

namespace ActionEventHandler

/-- An event for an action of the plan, in the wake of `envelope`. -/
def actionEnvelope (envelope : EventEnvelope) (plan : AgentPlan) (eventId actionId : String)
    (attempt : ℕ) : EventEnvelope :=
  { event := agentActionEvent eventId plan.workspaceId plan.projectId plan.planId actionId
      envelope.event.correlationId (envelope.event.causality.child envelope.eventId)
    attempt := attempt }

/-- The settle of the plan's node, in the wake of `envelope`. -/
def settleEnvelope (envelope : EventEnvelope) (plan : AgentPlan)
    (eventId runId nodeId status : String) (message : Option String) : EventEnvelope :=
  .wrap (subAgentCompletedEvent eventId plan.workspaceId plan.projectId runId nodeId status
    envelope.event.correlationId (envelope.event.causality.child envelope.eventId)
    (match message with
      | some text => if text = "" then [] else [("message", .str text)]
      | none => []))

/-- A domain event of a type that never activates the agent. -/
def TerminalEvent (envelope : EventEnvelope) : Prop :=
  envelope.event.kind = .domain ∧ envelope.event.eventType ∈ TERMINAL_EVENT_TYPES

/-- The envelopes that the handling of `envelope` may enqueue for an action of `plan`. -/
inductive EmitsFor (envelope : EventEnvelope) (plan : AgentPlan) : EventEnvelope → Prop
  | action (eventId actionId : String) (attempt : ℕ) :
      EmitsFor envelope plan (actionEnvelope envelope plan eventId actionId attempt)
  | settle {runId nodeId : String} (eventId status : String) (message : Option String)
      (hrun : plan.parentRunId = some runId) (hnode : plan.nodeId = some nodeId) :
      EmitsFor envelope plan (settleEnvelope envelope plan eventId runId nodeId status message)

/-- The envelopes that the handling of `d` may enqueue, with `A` beside the plan's own. -/
inductive Emits (A : EventEnvelope → Prop) (d : Delivery) : EventEnvelope → Prop
  | plan {e : EventEnvelope} (h : EmitsFor d.envelope d.plan e) : Emits A d e
  | replan (eventId reason : String) (staleEntities : Dict String StaleEntity)
      (hplan : d.plan.isSubplan = false) :
      Emits A d (.wrap (replanEvent eventId d staleEntities reason))
  | aside {e : EventEnvelope} (h : A e) : Emits A d e

/-- The contract allows to enqueue what follows for the plan, and the calls beside. -/
structure Continues (C : Contract Call Call.Answer Exc) (envelope : EventEnvelope)
    (plan : AgentPlan) : Prop where
  uuid4 : C.calls .uuid4
  appendTraceEvent : ∀ traceEvent, C.calls (.appendTraceEvent traceEvent)
  sync : ∀ call, C.calls (.sync call)
  enqueue : ∀ e, EmitsFor envelope plan e → C.calls (.enqueue e)

/-- The contract allows to decide on `d` and to settle it; suggestions and what its tool
emits are among the asides. -/
structure Handles (C : Contract Call Call.Answer Exc) (A : EventEnvelope → Prop)
    (d : Delivery) : Prop where
  continues : Continues C d.envelope d.plan
  getCurrentEntityVersions : ∀ workspaceId projectId entityRefs,
    C.calls (.getCurrentEntityVersions workspaceId projectId entityRefs)
  saveActionResult : ∀ result, C.calls (.saveActionResult result)
  recordIdempotencyKey : C.calls (.recordIdempotencyKey d.action.idempotencyKey)
  executeOne : C.calls (.executeOne d.plan d.action d.context)
  updatePlan : ∀ status, C.calls (.updatePlan (d.planWith status))
  enqueue : ∀ e, Emits A d e → C.calls (.enqueue e)
  suggestion : ∀ eventId suggestion,
    A (.wrap (Validator.suggestionEvent eventId suggestion d.context))
  emitted : ∀ result, C.answers (.executeOne d.plan d.action d.context) (.ok result) →
    ∀ e ∈ result.emittedEvents, A e

/-- A suggestion is a terminal event. -/
theorem terminalEvent_suggestion (eventId : String) (suggestion : AgentSuggestion)
    (context : AgentContext) :
    TerminalEvent (.wrap (Validator.suggestionEvent eventId suggestion context)) := by
  refine ⟨rfl, ?_⟩
  change "agent_suggestion.created" ∈ TERMINAL_EVENT_TYPES
  decide

variable {C : Contract Call Call.Answer Exc} {A : EventEnvelope → Prop}

/-- One call that the contract allows. -/
theorem respects_call {call : Call} (h : C.calls call) :
    (perform call).Respects C fun _ => True :=
  Program.respects_perform h fun _ _ => trivial

namespace Continues

variable {envelope : EventEnvelope} {plan : AgentPlan} (h : Continues C envelope plan)

include h

theorem trace (event : RuntimeEvent) (eventName : String) (planId actionId : Option String) :
    (PrismAgent.trace event eventName planId actionId).Respects C fun _ => True :=
  respects_call (h.appendTraceEvent _)

theorem settleSubplan (status : String) (message : Option String) :
    (ActionEventHandler.settleSubplan envelope plan status message).Respects C
      fun _ => True := by
  unfold ActionEventHandler.settleSubplan
  split
  next runId nodeId hrun hnode =>
    refine .bind (respects_call h.uuid4) fun eventId _ => ?_
    refine .bind (respects_call (h.enqueue _ (.settle eventId status message hrun hnode)))
      fun _ _ => ?_
    exact h.trace _ _ _ _
  next => trivial

theorem finishPlan : (ActionEventHandler.finishPlan envelope plan).Respects C fun _ => True := by
  unfold ActionEventHandler.finishPlan
  split
  · split
    · exact .bind (h.trace _ _ _ _) fun _ _ => h.settleSubplan _ _
    · exact .bind (respects_call (h.sync _)) fun _ _ => h.trace _ _ _ _
  · exact h.trace _ _ _ _

/-- What is chained is an event for an action of the plan. -/
theorem enqueueNextAction (inline : Bool) :
    (ActionEventHandler.enqueueNextAction inline envelope plan).Respects C
      fun chained => ∀ e, chained = some e → EmitsFor envelope plan e := by
  unfold ActionEventHandler.enqueueNextAction
  split
  · exact .bind h.finishPlan fun _ _ => by rintro _ ⟨⟩
  next next hsome =>
    refine .bind (respects_call h.uuid4) fun eventId _ => ?_
    dsimp only
    split
    · refine .bind (h.trace _ _ _ _) fun _ _ => ?_
      rintro _ ⟨⟩
      exact .action eventId next.actionId 0
    · refine .bind (respects_call (h.enqueue _ (.action eventId next.actionId 0)))
        fun _ _ => ?_
      refine .bind (h.trace _ _ _ _) fun _ _ => ?_
      rintro _ ⟨⟩

theorem skipAction (inline : Bool) (action : PlannedAction) :
    (ActionEventHandler.skipAction inline envelope plan action).Respects C
      fun chained => ∀ e, chained = some e → EmitsFor envelope plan e := by
  refine .bind (h.trace _ _ _ _) fun _ _ => ?_
  split
  · exact h.enqueueNextAction _
  · rintro _ ⟨⟩

end Continues

namespace Handles

variable {d : Delivery} (h : Handles C A d)

include h

theorem deliveryTrace (eventName : String) : (d.trace eventName).Respects C fun _ => True :=
  h.continues.trace _ _ _ _

theorem save (status : ActionStatus) : (d.save status).Respects C fun _ => True :=
  respects_call (h.updatePlan status)

theorem report (status : ActionStatus) (eventName message : String) :
    (d.report status eventName message).Respects C fun _ => True :=
  respects_call (h.continues.sync _)

theorem settleIfSubplan (status : String) (message : Option String) :
    (ActionEventHandler.settleIfSubplan d status message).Respects C fun _ => True := by
  unfold ActionEventHandler.settleIfSubplan
  split
  · exact h.continues.settleSubplan _ _
  · trivial

theorem enqueueEvents {envelopes : List EventEnvelope}
    (hevents : ∀ e ∈ envelopes, A e) :
    (ActionEventHandler.enqueueEvents envelopes).Respects C fun _ => True := by
  induction envelopes with
  | nil => trivial
  | cons e envelopes ih =>
      refine .bind (respects_call (h.enqueue _ (.aside (hevents e List.mem_cons_self))))
        fun _ _ => ?_
      exact ih fun e' he' => hevents e' (List.mem_cons_of_mem _ he')

theorem requireApproval {validation : ValidationResult}
    (hevents : ∀ e ∈ validation.emittedEvents, A e) :
    (ActionEventHandler.requireApproval d validation).Respects C fun _ => True := by
  refine .bind (respects_call h.continues.uuid4) fun resultId _ => ?_
  refine .bind (respects_call (h.saveActionResult _)) fun _ _ => ?_
  refine .bind (h.save _) fun _ _ => .bind (h.report _ _ _) fun _ _ => ?_
  refine .bind (respects_call h.recordIdempotencyKey) fun _ _ => ?_
  refine .bind (h.enqueueEvents hevents) fun _ _ => .bind (h.deliveryTrace _) fun _ _ => ?_
  exact h.settleIfSubplan _ _

theorem rejectStale (validation : ValidationResult) :
    (ActionEventHandler.rejectStale d validation).Respects C fun _ => True := by
  refine .bind (h.save _) fun _ _ => .bind (h.report _ _ _) fun _ _ => ?_
  refine .bind (h.deliveryTrace _) fun _ _ => ?_
  split
  next => exact h.continues.settleSubplan _ _
  next hplan =>
    refine .bind (respects_call h.continues.uuid4) fun eventId _ => ?_
    refine .bind (respects_call (h.enqueue _ (.replan eventId _ _ (by simpa using hplan))))
      fun _ _ => ?_
    exact h.deliveryTrace _

theorem rejectInvalid (validation : ValidationResult) :
    (ActionEventHandler.rejectInvalid d validation).Respects C fun _ => True := by
  refine .bind (h.save _) fun _ _ => .bind (h.report _ _ _) fun _ _ => ?_
  exact .bind (h.deliveryTrace _) fun _ _ => h.settleIfSubplan _ _

theorem executionError (exc : Exc) :
    (ActionEventHandler.executionError d exc).Respects C fun _ => True := by
  refine .bind (h.save _) fun _ _ => .bind (h.report _ _ _).attempt fun _ _ => ?_
  refine .bind (h.deliveryTrace _) fun _ _ => .bind (h.deliveryTrace _) fun _ _ => ?_
  split
  · exact h.continues.settleSubplan _ _
  · trivial

/-- The plan with its action in another status is followed by the same envelopes. -/
theorem continuesWith (status : ActionStatus) : Continues C d.envelope (d.planWith status) where
  uuid4 := h.continues.uuid4
  appendTraceEvent := h.continues.appendTraceEvent
  sync := h.continues.sync
  enqueue := by
    intro e he
    apply h.continues.enqueue
    cases he with
    | action eventId actionId attempt => exact .action eventId actionId attempt
    | settle eventId status message hrun hnode => exact .settle eventId status message hrun hnode

theorem commit (inline : Bool) {validation : ValidationResult}
    (hevents : ∀ e ∈ validation.emittedEvents, A e) :
    (ActionEventHandler.commit inline d validation).Respects C
      fun chained => ∀ e, chained = some e → EmitsFor d.envelope d.plan e := by
  refine .bind (h.save _) fun _ _ => .bind (h.report _ _ _) fun _ _ => ?_
  refine .bind (respects_call h.recordIdempotencyKey) fun _ _ => ?_
  refine .bind (h.enqueueEvents hevents) fun _ _ => .bind (h.deliveryTrace _) fun _ _ => ?_
  refine ((h.continuesWith .completed).enqueueNextAction inline).mono
    fun chained hchained e he => ?_
  cases hchained e he with
  | action eventId actionId attempt => exact .action eventId actionId attempt
  | settle eventId status message hrun hnode => exact .settle eventId status message hrun hnode

theorem settleFailure (validation : ValidationResult) :
    (ActionEventHandler.settleFailure d validation).Respects C fun _ => True := by
  unfold ActionEventHandler.settleFailure
  split
  · refine .bind (h.save _) fun _ _ => .bind (respects_call h.continues.uuid4) fun eventId _ => ?_
    refine .bind (respects_call (h.enqueue _ (.plan (.action eventId _ _)))) fun _ _ => ?_
    exact .bind (h.report _ _ _) fun _ _ => h.deliveryTrace _
  · refine .bind (h.save _) fun _ _ => .bind (h.report _ _ _) fun _ _ => ?_
    exact .bind (h.deliveryTrace _) fun _ _ => h.settleIfSubplan _ _

theorem settleResult (inline : Bool) {result : ToolResult}
    (hevents : ∀ e ∈ result.emittedEvents, A e) :
    (ActionEventHandler.settleResult inline d result).Respects C
      fun chained => ∀ e, chained = some e → EmitsFor d.envelope d.plan e := by
  refine .bind (respects_call (h.saveActionResult _)) fun _ _ => ?_
  refine .bind (h.deliveryTrace _) fun _ _ => ?_
  have hvalidation : ∀ e ∈ (Validator.validateAfterExecution result).emittedEvents,
      A e := by
    unfold Validator.validateAfterExecution
    split
    · exact hevents
    · rintro e ⟨⟩
  split
  · exact h.commit inline hvalidation
  · exact .bind (h.settleFailure _) fun _ _ => by rintro _ ⟨⟩

theorem execute (inline : Bool) :
    (ActionEventHandler.execute inline d).Respects C
      fun chained => ∀ e, chained = some e → EmitsFor d.envelope d.plan e := by
  refine .bind (h.report _ _ _) fun _ _ => .bind (h.save _) fun _ _ => ?_
  refine .bind (h.deliveryTrace _) fun _ _ => ?_
  refine .bind (Program.respects_perform h.executeOne fun _ ha => ha).attempt
    fun answer hanswer => ?_
  cases answer with
  | error exc => exact .bind (h.executionError exc) fun _ _ => by rintro _ ⟨⟩
  | ok result => exact h.settleResult inline (h.emitted result (hanswer result rfl))

/-- The validation emits suggestions only. -/
theorem validateBeforeExecution :
    (Validator.validateBeforeExecution d.action d.context).Respects C
      fun validation => ∀ e ∈ validation.emittedEvents, A e := by
  unfold Validator.validateBeforeExecution
  split
  · rintro e ⟨⟩
  · refine .bind (respects_call (h.getCurrentEntityVersions _ _ _)) fun versions _ => ?_
    dsimp only
    split
    · rintro e ⟨⟩
    · split
      · refine .bind (respects_call h.continues.uuid4) fun suggestionId _ => ?_
        refine .bind (respects_call h.continues.uuid4) fun eventId _ => ?_
        intro e he
        rw [List.mem_singleton.1 he]
        exact h.suggestion eventId _
      · rintro e ⟨⟩

theorem decideAction (inline : Bool) :
    (ActionEventHandler.decideAction inline d).Respects C
      fun chained => ∀ e, chained = some e → EmitsFor d.envelope d.plan e := by
  refine .bind (h.deliveryTrace _) fun _ _ => ?_
  refine .bind h.validateBeforeExecution fun validation hevents => ?_
  refine .bind (h.deliveryTrace _) fun _ _ => ?_
  unfold actOn
  split
  · exact .bind (h.requireApproval hevents) fun _ _ => by rintro _ ⟨⟩
  · exact .bind (h.rejectStale _) fun _ _ => by rintro _ ⟨⟩
  · exact .bind (h.rejectInvalid _) fun _ _ => by rintro _ ⟨⟩
  · exact h.execute inline

end Handles

section Writes

/-- The parts that the handling of an action may write. -/
def acting : List Part :=
  .plans :: .actionResults :: .idempotencyKeys :: .executions :: announced

theorem continues_acting (envelope : EventEnvelope) (plan : AgentPlan) :
    Continues { calls := fun call => call.writesIn acting = true } envelope plan where
  uuid4 := rfl
  appendTraceEvent _ := rfl
  sync _ := rfl
  enqueue _ _ := rfl

theorem handles_acting (d : Delivery) :
    Handles { calls := fun call => call.writesIn acting = true } (fun _ => True) d where
  continues := continues_acting d.envelope d.plan
  getCurrentEntityVersions _ _ _ := rfl
  saveActionResult _ := rfl
  recordIdempotencyKey := rfl
  executeOne := rfl
  updatePlan _ := rfl
  enqueue _ _ := rfl
  suggestion _ _ := trivial
  emitted _ _ _ _ := trivial

theorem selectAction_writes (envelope : EventEnvelope) (planId actionId : String) :
    Writes [] (selectAction envelope planId actionId) := by
  refine .bind (.perform rfl) fun found => ?_
  split
  · exact .raise _
  · split
    · exact .raise _
    · split
      · exact .pure _
      · refine .bind (.perform rfl) fun snapshot => ?_
        split
        · exact .raise _
        · refine .bind (.perform rfl) fun consumed => ?_
          split
          · exact .pure _
          · exact .pure _

theorem handleOne_writes (inline : Bool) (envelope : EventEnvelope) :
    Writes acting (handleOne inline envelope) := by
  unfold handleOne
  split
  next planId actionId _ =>
    refine .bind ((selectAction_writes envelope planId actionId).mono (by simp)) ?_
    rintro (⟨plan, action⟩ | d | d)
    · exact ((continues_acting envelope plan).skipAction inline action).mono fun _ _ => trivial
    · exact .bind (trace_writes (by decide) _ _ _ _) fun _ => .pure _
    · exact ((handles_acting d).decideAction inline).mono fun _ _ => trivial
  next => exact .raise _

/-- The handling of an action writes neither graphs nor their results nor snapshots. -/
theorem handle_writes (budget : ℕ) (envelope : EventEnvelope) :
    Writes acting (handle budget envelope) := by
  induction budget generalizing envelope with
  | zero => exact .bind (handleOne_writes false envelope) fun _ => .pure _
  | succ budget ih =>
      refine .bind (handleOne_writes true envelope) fun chained => ?_
      split
      · exact .pure _
      · exact ih _

end Writes

end ActionEventHandler

end PrismAgent
