import PrismAgent.RunIdentity.Lineage

/-!
# The handlers keep to their run

Delivering an event of the run respects the lineage of the seed.
-/

namespace PrismAgent

open Effect
open ActionEventHandler (respects_call)

variable {seed : EventEnvelope}

theorem replanEvent_planId? (eventId reason : String) (d : ActionEventHandler.Delivery)
    (staleEntities : Dict String StaleEntity) :
    (ActionEventHandler.replanEvent eventId d staleEntities reason).planId? = none := by
  unfold ActionEventHandler.replanEvent RuntimeEvent.planId?
  dsimp only
  split
  next h =>
    split at h
    all_goals cases h
  next h =>
    split at h
    all_goals cases h
  next h =>
    split at h
    all_goals cases h
  next => rfl

/-- No workflow is started by a terminal event. -/
theorem route_terminal (registries : Registries) {envelope : EventEnvelope}
    (h : ActionEventHandler.TerminalEvent envelope) :
    (route registries.workflows envelope).workflow = none := by
  unfold route
  dsimp only
  rw [PMTriggerPolicy.evaluate_terminal h.2]
  rfl

/-- An event that the registry routes nowhere is only traced. -/
theorem DomainEventHandler.handle_terminal (registries : Registries) {envelope : EventEnvelope}
    (h : ActionEventHandler.TerminalEvent envelope) :
    handle registries envelope = trace envelope "event.ignored" none := by
  unfold handle
  rw [route_terminal registries h]

/-- Every delivery of an event of the run respects the lineage. -/
theorem RecursionRunner.dispatch_lineage (registries : Registries) {message : Message}
    (h : SourceOfRun seed message.envelope ∨
      (DerivedFrom seed message.envelope ∧ message.envelope.event.planId? ≠ none) ∨
        ActionEventHandler.TerminalEvent message.envelope) :
    (dispatch registries message).Respects (lineage seed) fun _ => True := by
  obtain ⟨envelope, budget⟩ := message
  unfold dispatch
  rcases h with hsource | ⟨hderived, hplan⟩ | hterminal
  · have hplanless : envelope.event.planId? = none := hsource.planless
    unfold RuntimeEvent.planId? at hplanless
    dsimp only
    cases hkind : envelope.event.kind with
    | agentAction planId actionId =>
        rw [hkind] at hplanless
        cases hplanless
    | subagentTask planId nodeId =>
        rw [hkind] at hplanless
        cases hplanless
    | subagentCompleted planId nodeId status =>
        rw [hkind] at hplanless
        cases hplanless
    | _ => exact (spawns_lineage hsource.correlation).handleDomain registries hsource hsource.runId
  · cases hderived with
    | action hkind hplanId hcorrelation =>
        rw [hkind]
        refine Spawns.handle (W := fun e => e.event.correlationId = seed.event.correlationId)
          (fun _ => spawns_lineage) (fun e plan next he _ hnext => ?_) budget hcorrelation
        cases hnext with
        | action => exact he
        | settle => exact he
    | task hkind hpayload hkey hcorrelation =>
        rw [hkind]
        unfold SubAgentCoordinator.handle
        rw [hkind]
        exact (spawns_lineage hcorrelation).handleTask registries rfl _
    | completed hkind hpayload hkey hcorrelation =>
        rw [hkind]
        unfold SubAgentCoordinator.handle
        rw [hkind]
        exact (spawns_lineage hcorrelation).handleCompleted _ _ _
    | replan eventId reason staleEntities => exact absurd (replanEvent_planId? _ _ _ _) hplan
  · rw [hterminal.1]
    dsimp only
    rw [DomainEventHandler.handle_terminal registries hterminal]
    exact respects_call trivial

end PrismAgent
