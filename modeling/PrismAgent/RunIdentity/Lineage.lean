import PrismAgent.Handler.Spawns

/-!
# The events of one run

What the handlers store and enqueue in the run of a seed event: plans under the run's id
or one of its sub-plan ids, task graphs under the run's id, and events that carry the
seed's correlation. `lineage` is the contract that says so, and every handler respects it.
-/

namespace PrismAgent

open Effect
open SubAgentRunner (subPlanId)

section Lineage

variable (seed : EventEnvelope)

/-- The plan of the run, or the sub-plan of one of its nodes. -/
def PlanOfRun (plan : AgentPlan) : Prop :=
  plan.planId = runIdOf seed ∨
    ∃ nodeId, plan.planId = subPlanId (runIdOf seed) nodeId ∧ plan.isSubplan = true

/-- An event that the run may be planned from: the seed, or a replan of it. -/
structure SourceOfRun (source : EventEnvelope) : Prop where
  planless : source.event.planId? = none
  correlation : source.event.correlationId = seed.event.correlationId
  runId : runIdOf source = runIdOf seed
  blank : strip (runIdOf seed) = "" → payloadRunId source.event.payload = none

/-- The events that the handlers derive from the seed. -/
inductive DerivedFrom : EventEnvelope → Prop
  | action {e : EventEnvelope} {planId actionId : String}
      (hkind : e.event.kind = .agentAction planId actionId)
      (hplan : planId = runIdOf seed ∨ ∃ nodeId, planId = subPlanId (runIdOf seed) nodeId)
      (hcorrelation : e.event.correlationId = seed.event.correlationId) : DerivedFrom e
  | task {e : EventEnvelope} {nodeId : String}
      (hkind : e.event.kind = .subagentTask (runIdOf seed) nodeId)
      (hpayload : payloadRunId e.event.payload = none) (hkey : e.event.idempotencyKey = none)
      (hcorrelation : e.event.correlationId = seed.event.correlationId) : DerivedFrom e
  | completed {e : EventEnvelope} {planId nodeId status : String}
      (hkind : e.event.kind = .subagentCompleted planId nodeId status)
      (hpayload : payloadRunId e.event.payload = none) (hkey : e.event.idempotencyKey = none)
      (hcorrelation : e.event.correlationId = seed.event.correlationId) : DerivedFrom e
  | replan (eventId reason : String) (staleEntities : Dict String StaleEntity)
      {d : ActionEventHandler.Delivery} (hsource : SourceOfRun seed d.context.sourceEvent)
      (hplan : d.plan.planId = runIdOf seed)
      (hcorrelation : d.envelope.event.correlationId = seed.event.correlationId) :
      DerivedFrom (.wrap (ActionEventHandler.replanEvent eventId d staleEntities reason))

/-- What is stored and enqueued belongs to the run, when what is read does. -/
def lineage : Contract Call Call.Answer Exc where
  calls
    | .savePlan plan => PlanOfRun seed plan
    | .updatePlan plan => PlanOfRun seed plan
    | .saveTaskGraph graph => graph.planId = runIdOf seed
    | .saveContextSnapshot snapshot => SourceOfRun seed snapshot.context.sourceEvent
    | .enqueue e => DerivedFrom seed e ∨ ActionEventHandler.TerminalEvent e
    | _ => True
  answers
    | .getPlan _ _, .ok (some plan) => PlanOfRun seed plan
    | .getTaskGraph _ _, .ok (some graph) => graph.planId = runIdOf seed
    | .advanceTaskGraph _ _ _ _, .ok (some advance) => advance.graph.planId = runIdOf seed
    | .getContextSnapshot _ _, .ok (some snapshot) =>
        SourceOfRun seed snapshot.context.sourceEvent
    | .executeOne _ _ _, .ok result =>
        ∀ e ∈ result.emittedEvents, ActionEventHandler.TerminalEvent e
    | _, _ => True

end Lineage

variable {seed : EventEnvelope}

theorem payloadRunId_nil : payloadRunId [] = none := rfl

theorem payloadRunId_message (text : String) :
    payloadRunId [("message", .str text)] = none := by
  simp [payloadRunId, firstText, AGENT_RUN_ID_KEYS, List.lookup_cons]

namespace ActionEventHandler

/-- What follows for a plan of the run is derived from the seed. -/
theorem EmitsFor.derived {envelope e : EventEnvelope} {plan : AgentPlan}
    (h : EmitsFor envelope plan e) (hplan : PlanOfRun seed plan)
    (hcorrelation : envelope.event.correlationId = seed.event.correlationId) :
    DerivedFrom seed e := by
  cases h with
  | action eventId actionId attempt =>
      refine .action rfl ?_ hcorrelation
      rcases hplan with hplan | ⟨nodeId, hplan, -⟩
      · exact .inl hplan
      · exact .inr ⟨nodeId, hplan⟩
  | settle eventId status message hrun hnode =>
      refine .completed rfl ?_ rfl hcorrelation
      cases message with
      | none => exact payloadRunId_nil
      | some text =>
          change payloadRunId (if text = "" then [] else [("message", .str text)]) = none
          split
          · exact payloadRunId_nil
          · exact payloadRunId_message text

end ActionEventHandler

/-- The handlers of an event with the seed's correlation keep to the run. -/
theorem spawns_lineage {envelope : EventEnvelope}
    (hcorrelation : envelope.event.correlationId = seed.event.correlationId) :
    Spawns (lineage seed) ActionEventHandler.TerminalEvent (· = runIdOf seed) (PlanOfRun seed)
      (SourceOfRun seed) envelope where
  quiet call hcall := by
    cases call with
    | savePlan => cases hcall
    | updatePlan => cases hcall
    | saveTaskGraph => cases hcall
    | saveContextSnapshot => cases hcall
    | enqueue => cases hcall
    | _ => trivial
  claimReadyNodes _ _ := trivial
  advanceTaskGraph _ _ _ _ := trivial
  savePlan _ hplan := hplan
  updatePlan _ hplan := hplan
  saveTaskGraph _ hgraph := hgraph
  saveContextSnapshot _ hsource := hsource
  follows _ _ hplan he := .inl (he.derived hplan hcorrelation)
  emits d henvelope hplan hsource e he := by
    subst henvelope
    cases he with
    | plan he => exact .inl (he.derived hplan hcorrelation)
    | replan eventId reason staleEntities hnot =>
        refine .inl (.replan eventId reason staleEntities hsource ?_ hcorrelation)
        rcases hplan with hrun | ⟨nodeId, -, hsub⟩
        · exact hrun
        · rw [hnot] at hsub
          cases hsub
    | aside he => exact .inr he
  task eventId workspaceId projectId runId nodeId hrun := by
    subst hrun
    exact .inl (.task rfl payloadRunId_nil rfl hcorrelation)
  completed _ _ _ _ _ _ := .inl (.completed rfl payloadRunId_nil rfl hcorrelation)
  getPlan _ _ _ h := h
  advanced _ _ _ _ _ h := h
  getContextSnapshot _ _ _ h := h
  executed _ _ _ _ _ h := h
  suggestion eventId suggestion context _ :=
    ActionEventHandler.terminalEvent_suggestion eventId suggestion context
  planned _ _ hrun h := by
    subst hrun
    exact h
  updated _ _ _ hplan := hplan

end PrismAgent
