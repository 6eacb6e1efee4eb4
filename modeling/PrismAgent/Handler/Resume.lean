import PrismAgent.Application.DomainEventHandler
import PrismAgent.Handler.Entry
import PrismAgent.Safety.Execution

/-!
# A trigger delivered again

The domain event of a stored plan resumes the plan. What a resumption does depends on
whether the plan has a next action and, if it has none, on whether it has stopped.
-/

namespace PrismAgent

open Effect

variable (env : Env) {w : World MemoryStateStore} {envelope : EventEnvelope}
  {workflow : WorkflowDefinition} {p : AgentPlan}

/-- The envelope is the trigger of the plan of a workflow that is not orchestrated. -/
structure Triggers (registries : Registries) (envelope : EventEnvelope)
    (workflow : WorkflowDefinition) (p : AgentPlan) : Prop where
  routed : (route registries.workflows envelope).workflow = some workflow
  single : DomainEventHandler.isOrchestrated workflow = false
  prompt : ∃ prompt,
    registries.prompts.getWorkflow workflow.promptId workflow.promptVersion = .ok prompt
  workspaceId : p.workspaceId = envelope.event.workspaceId
  planId : p.planId = runIdOf envelope

/-- What a duplicate trigger may do to a run: the plan keeps its status and its actions,
the run is not reported failed, and at most the next action is asked for. -/
structure Harmless (p : AgentPlan) (w t : World MemoryStateStore) : Prop where
  plan : ∃ q, t.store.plans (p.workspaceId, p.planId) = some q ∧ q.status = p.status ∧
    q.actions = p.actions
  not_failed : ∃ calls, t.syncCalls = w.syncCalls ++ calls ∧
    ∀ workspaceId runId message, SyncCall.runFailed workspaceId runId message ∉ calls
  queue : t.queue = w.queue ∨ ∃ e, t.queue = w.queue ++ [e] ∧
    ActionEventHandler.AsksForNext p e

/-- Hydration takes time and nothing else. -/
theorem ContextProvider.hydrate_spec
    (hprompt : ∃ prompt, env.registries.prompts.getWorkflow workflow.promptId
      workflow.promptVersion = .ok prompt) :
    (hydrate env.registries envelope workflow).wp env.sem.step
      (fun r t => ∃ snapshot n, r = .ok snapshot ∧ t = { w with tick := n } ∧
        snapshot.context.workspaceId = envelope.event.workspaceId ∧
        snapshot.context.sourceEvent = envelope) w := by
  obtain ⟨prompt, hprompt⟩ := hprompt
  unfold hydrate
  rw [hprompt, Program.wp_step_iff]
  exact ⟨_, w.tick + 4, rfl, rfl, rfl, rfl⟩

/-- A plan with a next action is asked to go on with it. -/
theorem enqueueFirstAction_harmless {t : World MemoryStateStore} {next : PlannedAction}
    (hnext : p.nextPendingAction = some next)
    (hstored : t.store.plans (p.workspaceId, p.planId) = some p)
    (hqueue : t.queue = w.queue) (hcalls : t.syncCalls = w.syncCalls) :
    (DomainEventHandler.enqueueFirstAction envelope p).wp env.sem.step
      (fun _ u => Harmless p w u) t := by
  unfold DomainEventHandler.enqueueFirstAction
  rw [hnext, Program.wp_step_iff]
  refine ⟨⟨p, hstored, rfl, rfl⟩, ⟨[], ?_, by simp⟩, .inr ?_⟩
  · rw [List.append_nil]
    exact hcalls
  · rw [← hqueue]
    exact ⟨_, rfl, next, hnext, rfl, rfl⟩

/-- A plan that has stopped is left alone. -/
theorem enqueueFirstAction_stopped {t : World MemoryStateStore}
    (hstopped : p.status.stopped = true)
    (hstored : t.store.plans (p.workspaceId, p.planId) = some p)
    (hqueue : t.queue = w.queue) (hcalls : t.syncCalls = w.syncCalls) :
    (DomainEventHandler.enqueueFirstAction envelope p).wp env.sem.step
      (fun _ u => Harmless p w u) t := by
  unfold DomainEventHandler.enqueueFirstAction AgentPlan.nextPendingAction
  rw [hstopped, Program.wp_step_iff]
  refine ⟨⟨p, hstored, rfl, rfl⟩, ⟨[], ?_, by simp⟩, .inl hqueue⟩
  rw [List.append_nil]
  exact hcalls

/-- A plan that has not stopped and has no next action is failed. -/
theorem enqueueFirstAction_fails {t : World MemoryStateStore} (hnext : p.nextPendingAction = none)
    (hstopped : p.status.stopped = false) :
    (DomainEventHandler.enqueueFirstAction envelope p).wp env.sem.step
      (fun _ u => ¬ Harmless p w u) t := by
  unfold DomainEventHandler.enqueueFirstAction
  rw [hnext, hstopped, Program.wp_step_iff]
  rintro ⟨⟨q, hq, hstatus, -⟩, -, -⟩
  have hfailed : Function.update t.store.plans (p.workspaceId, p.planId)
      (some { p with status := .failed }) (p.workspaceId, p.planId) = some q := hq
  rw [Function.update_self] at hfailed
  rw [← Option.some.inj hfailed] at hstatus
  rw [← hstatus] at hstopped
  cases hstopped

/-- Resuming a plan: an event for its next action, a trace if it has stopped, and a
failure otherwise. -/
theorem duplicate_trigger_harmless_iff (h : Triggers env.registries envelope workflow p)
    (hstored : w.store.plans (p.workspaceId, p.planId) = some p)
    (hreplan : p.status ≠ .replanRequired) :
    Harmless p w (env.sem.exec (DomainEventHandler.handle env.registries envelope) w).2 ↔
      p.nextPendingAction ≠ none ∨ p.status.stopped = true := by
  suffices hwp : (DomainEventHandler.handle env.registries envelope).wp env.sem.step
      (fun _ t => Harmless p w t ↔ p.nextPendingAction ≠ none ∨ p.status.stopped = true) w by
    rw [Program.wp_step_iff] at hwp
    exact hwp
  unfold DomainEventHandler.handle
  rw [h.routed]
  dsimp only
  rw [Program.wp_bind]
  refine Program.wp_mono (ContextProvider.hydrate_spec env h.prompt) ?_
  rintro _ _ ⟨snapshot, n, rfl, rfl, hworkspace, hsource⟩
  rw [Program.andThen_ok, h.single, resolveAgentRunId_eq hsource]
  simp only [Bool.false_eq_true, if_false]
  unfold DomainEventHandler.handlePlan
  rw [Program.wp_bind, Program.wp_perform_step, hworkspace, ← h.workspaceId, ← h.planId]
  change Program.andThen _ _ _ (.ok (w.store.plans (p.workspaceId, p.planId))) _
  rw [hstored, Program.andThen_ok]
  dsimp only
  rw [if_neg fun hcontra => hreplan hcontra.1, Program.wp_bind, Program.wp_perform_step]
  change Program.wp _ _ _ _
  rw [Program.wp_bind, DomainEventHandler.trace, PrismAgent.trace, Program.wp_perform_step]
  change Program.wp _ _ _ _
  cases hnext : p.nextPendingAction with
  | some next =>
      refine Program.wp_mono (enqueueFirstAction_harmless env (w := w) hnext hstored rfl rfl) ?_
      exact fun r t ht => iff_of_true ht (.inl (by simp))
  | none =>
      cases hstopped : p.status.stopped with
      | true =>
          refine Program.wp_mono
            (enqueueFirstAction_stopped env (w := w) hstopped hstored rfl rfl) ?_
          exact fun r t ht => iff_of_true ht (.inr rfl)
      | false =>
          refine Program.wp_mono (enqueueFirstAction_fails env (w := w) hnext hstopped) ?_
          exact fun r t ht => iff_of_false ht (by simp)

/-- The plan of the sample seed with both actions in `status`. -/
def sampleStoredPlan (planStatus : PlanStatus) (status : ActionStatus) : AgentPlan :=
  { sampleProposal with
    planId := "run"
    workspaceId := "ws"
    status := planStatus
    actions := sampleProposal.actions.map fun action => action.withStatus status }

/-- A world that stores one plan. -/
def worldWith (plan : AgentPlan) : World MemoryStateStore :=
  { store := ({} : MemoryStateStore).savePlan plan }

theorem duplicate_trigger_harmless_sample :
    Harmless (sampleStoredPlan .planned .pending) (worldWith (sampleStoredPlan .planned .pending))
      (sampleEnv.sem.exec (DomainEventHandler.handle sampleRegistries sampleSeed)
        (worldWith (sampleStoredPlan .planned .pending))).2 := by
  have hroute : (route sampleEnv.registries.workflows sampleSeed).workflow =
      some sampleWorkflow := by
    decide
  exact (duplicate_trigger_harmless_iff sampleEnv
    ⟨hroute, by decide, ⟨_, rfl⟩, rfl, by decide⟩ rfl (by decide)).2
      (.inl (by simp [sampleStoredPlan, sampleProposal, AgentPlan.nextPendingAction,
        PlanStatus.stopped]))

/-- While its actions run elsewhere, the plan is failed by a duplicate of its trigger. -/
theorem duplicate_trigger_fails_running :
    ¬ Harmless (sampleStoredPlan .running .running)
      (worldWith (sampleStoredPlan .running .running))
      (sampleEnv.sem.exec (DomainEventHandler.handle sampleRegistries sampleSeed)
        (worldWith (sampleStoredPlan .running .running))).2 := by
  rintro ⟨⟨q, hq, hstatus, -⟩, -, -⟩
  have hfailed : (((sampleEnv.sem.exec (DomainEventHandler.handle sampleRegistries sampleSeed)
      (worldWith (sampleStoredPlan .running .running))).2.store.plans
        ((sampleStoredPlan .running .running).workspaceId,
          (sampleStoredPlan .running .running).planId)).map (·.status)) = some .failed := by
    decide
  rw [hq, Option.map_some, hstatus] at hfailed
  cases hfailed

end PrismAgent
