import PrismAgent.Application.AgentRuns
import PrismAgent.Application.Writes
import PrismAgent.Effect.Faults

/-!
# Starting a run over the API

What `DomainEventHandler.handle` does for an event that starts a plan, by what the API
holds of the run and what the planner answers: a terminal run is skipped, a plan that
cannot be made fails the run, and a made plan is saved and its first action enqueued.
-/

namespace PrismAgent

open Effect

section Start

variable (env : Env) (enabled : Bool) (stored : RunStatuses)

/-- The semantics over the API, with a log of the calls. -/
abbrev loggedSem : Semantics Call Call.Answer Exc (Logged Call (World MemoryStateStore)) :=
  (env.apiSem enabled stored).inject fun _ => none

/-- Plans and queue stay as they are while the sync is called with `calls`; time and the
log go on. -/
structure Reports (calls : List SyncCall) (s t : Logged Call (World MemoryStateStore)) :
    Prop where
  plans : t.state.store.plans = s.state.store.plans
  queue : t.state.queue = s.state.queue
  syncCalls : t.state.syncCalls = s.state.syncCalls ++ calls
  tick : s.state.tick ≤ t.state.tick
  log : ∀ call ∈ s.log, call ∈ t.log

abbrev Quiet (s t : Logged Call (World MemoryStateStore)) : Prop := Reports [] s t

namespace Reports

variable {s t u : Logged Call (World MemoryStateStore)}

theorem refl (s : Logged Call (World MemoryStateStore)) : Quiet s s :=
  ⟨rfl, rfl, (List.append_nil _).symm, le_refl _, fun _ h => h⟩

theorem trans {calls calls' : List SyncCall} (h : Reports calls s t) (h' : Reports calls' t u) :
    Reports (calls ++ calls') s u where
  plans := h'.plans.trans h.plans
  queue := h'.queue.trans h.queue
  syncCalls := by rw [h'.syncCalls, h.syncCalls, List.append_assoc]
  tick := h.tick.trans h'.tick
  log call hcall := h'.log call (h.log call hcall)

end Reports

variable {env enabled stored}
variable {s : Logged Call (World MemoryStateStore)}

/-- A call that writes neither plans nor queue nor API is quiet. -/
theorem loggedSem_quiet {call : Call} (hplans : call.writes ≠ some .plans)
    (hqueue : call.writes ≠ some .queue) (hsync : call.writes ≠ some .syncCalls) :
    Quiet s (loggedSem env enabled stored call s).2 := by
  have hsame : ∀ {part : Part}, call.writes ≠ some part →
      part.Same s.state (loggedSem env enabled stored call s).2.state := by
    intro part hpart
    have hstate : (loggedSem env enabled stored call s).2.state = (env.sem call s.state).2 :=
      Env.apiSem_snd env call
    rw [hstate]
    exact sem_same env hpart
  refine ⟨(hsame hplans).1, hsame hqueue, ?_, ?_, ?_⟩
  · rw [List.append_nil]
    exact hsame hsync
  · have htick : (loggedSem env enabled stored call s).2.state.tick = s.state.tick + 1 := by
      cases call <;> rfl
    omega
  · exact fun call' hcall => List.mem_append_left _ hcall

/-- A program that writes neither plans nor queue nor API is quiet. -/
theorem wp_quiet {α : Type} {parts : List Part} {p : App α} (hp : Writes parts p)
    (hplans : .plans ∉ parts) (hqueue : .queue ∉ parts) (hsync : .syncCalls ∉ parts) :
    p.wp (loggedSem env enabled stored).step
      (fun r t => Quiet s t ∧ ∀ a, r = .ok a → p.MayReturn a) s := by
  have hrespects := Program.OnlyCalls.respects_mayReturn
    (C := { calls := fun call => call.writesIn parts = true }) hp fun _ h => h
  refine Program.wp_of_respects ?_ hrespects (Reports.refl s)
  intro u call r t hcall hstep hu
  have ht : t = (loggedSem env enabled stored call u).2 := congrArg Prod.snd hstep
  rw [ht]
  exact ⟨trivial, hu.trans (loggedSem_quiet (Call.writes_ne hcall hplans)
    (Call.writes_ne hcall hqueue) (Call.writes_ne hcall hsync))⟩

/-- Hydration succeeds when the prompt of the workflow is loaded. -/
theorem wp_hydrate {registries : Registries} {envelope : EventEnvelope}
    {workflow : WorkflowDefinition} {prompt : WorkflowPromptDefinition}
    (hprompt : registries.prompts.getWorkflow workflow.promptId workflow.promptVersion =
      .ok prompt) :
    (ContextProvider.hydrate registries envelope workflow).wp
      (loggedSem env enabled stored).step
      (fun r t => ∃ snapshot, r = .ok snapshot ∧
        snapshot.context.workspaceId = envelope.event.workspaceId ∧
        snapshot.context.sourceEvent = envelope ∧ Quiet s t) s := by
  have hreturns : (ContextProvider.hydrate registries envelope workflow).wp
      (loggedSem env enabled stored).step (fun r _ => ∃ snapshot, r = .ok snapshot) s := by
    unfold ContextProvider.hydrate
    rw [hprompt, Program.wp_step_iff]
    exact ⟨_, rfl⟩
  have hquiet : (ContextProvider.hydrate registries envelope workflow).wp
      (loggedSem env enabled stored).step _ s :=
    wp_quiet (ContextProvider.hydrate_writes registries envelope workflow) (by simp) (by simp)
      (by simp)
  refine Program.wp_mono (Program.wp_and hreturns hquiet) ?_
  rintro r t ⟨⟨snapshot, rfl⟩, ht, hmay⟩
  obtain ⟨hworkspace, hsource⟩ := ContextProvider.hydrate_mayReturn (hmay snapshot rfl)
  exact ⟨snapshot, rfl, hworkspace, hsource, ht⟩

end Start

section Planner

variable (registries : Registries) (workflow : WorkflowDefinition) (env : Env)

/-- The planner raises, whatever it is asked to plan. -/
def PlannerFails : Prop :=
  ∀ context contextSnapshotRef agentRunId (w : World MemoryStateStore), ∃ x,
    (env.sem.exec (Planner.createPlan registries context contextSnapshotRef workflow agentRunId
      {}) w).1 = .error x

/-- The planner returns a plan with actions, whatever it is asked to plan. -/
def PlannerPlans : Prop :=
  ∀ context contextSnapshotRef agentRunId (w : World MemoryStateStore), ∃ plan,
    (env.sem.exec (Planner.createPlan registries context contextSnapshotRef workflow agentRunId
      {}) w).1 = .ok plan ∧ plan.actions ≠ []

variable {registries workflow env} {enabled : Bool} {stored : RunStatuses}
  {s : Logged Call (World MemoryStateStore)}

/-- What writes nothing is answered the same over the API and with a log. -/
theorem exec_loggedSem {α : Type} {p : App α} (hp : Writes [] p) :
    ((loggedSem env enabled stored).exec p s).1 = (env.sem.exec p s.state).1 := by
  induction p generalizing s with
  | pure a => rfl
  | raise x => rfl
  | call call k ih =>
      have hsame : env.apiSem enabled stored call s.state = env.sem call s.state := by
        cases call with
        | sync => exact absurd hp.1 (by simp [Call.writesIn, Call.writes])
        | _ => rfl
      have hanswer : loggedSem env enabled stored call s =
          ((env.sem call s.state).1,
            ⟨(env.sem call s.state).2, s.log ++ [call], s.called + 1⟩) := by
        rw [← hsame]
        rfl
      unfold Semantics.exec
      rw [hanswer]
      exact ih _ (hp.2 _ trivial)

theorem wp_createPlan_fails (h : PlannerFails registries workflow env)
    (context : AgentContext) (contextSnapshotRef agentRunId : String) :
    (Planner.createPlan registries context contextSnapshotRef workflow agentRunId {}).wp
      (loggedSem env enabled stored).step
      (fun r t => (∃ x, r = .error x) ∧ Quiet s t) s := by
  have hwrites := Planner.createPlan_writes registries context contextSnapshotRef workflow
    agentRunId {}
  refine Program.wp_mono (Program.wp_and (Q := fun r _ => ∃ x, r = .error x) ?_
    (wp_quiet hwrites (by simp) (by simp) (by simp))) fun r t ht => ⟨ht.1, ht.2.1⟩
  rw [Program.wp_step_iff, exec_loggedSem hwrites]
  exact h context contextSnapshotRef agentRunId s.state

theorem wp_createPlan_plans (h : PlannerPlans registries workflow env)
    (context : AgentContext) (contextSnapshotRef agentRunId : String) :
    (Planner.createPlan registries context contextSnapshotRef workflow agentRunId {}).wp
      (loggedSem env enabled stored).step
      (fun r t => ∃ plan, r = .ok plan ∧ plan.actions ≠ [] ∧
        (Planner.createPlan registries context contextSnapshotRef workflow agentRunId
          {}).MayReturn plan ∧ Quiet s t) s := by
  have hwrites := Planner.createPlan_writes registries context contextSnapshotRef workflow
    agentRunId {}
  refine Program.wp_mono (Program.wp_and (Q := fun r _ => ∃ plan, r = .ok plan ∧
    plan.actions ≠ []) ?_ (wp_quiet hwrites (by simp) (by simp) (by simp))) ?_
  · rw [Program.wp_step_iff, exec_loggedSem hwrites]
    exact h context contextSnapshotRef agentRunId s.state
  · rintro r t ⟨⟨plan, rfl, hactions⟩, ht, hmay⟩
    exact ⟨plan, rfl, hactions, hmay plan rfl, ht⟩

/-- A created plan starts with its first action. -/
theorem nextPendingAction_createPlan {context : AgentContext}
    {contextSnapshotRef agentRunId : String} {plan : AgentPlan}
    (h : (Planner.createPlan registries context contextSnapshotRef workflow agentRunId
      {}).MayReturn plan) : plan.nextPendingAction = plan.actions.head? := by
  obtain ⟨form, proposed, -, -, -, -, rfl⟩ := Planner.createPlan_mayReturn h
  have hlive : (Planner.normalizePlanForRuntime form proposed).status.stopped = false := rfl
  unfold AgentPlan.nextPendingAction
  rw [hlive, if_neg Bool.false_ne_true]
  unfold Planner.normalizePlanForRuntime
  cases proposed.actions with
  | nil => rfl
  | cons action actions => rfl

end Planner

namespace DomainEventHandler

variable {registries : Registries} {workflow : WorkflowDefinition} {env : Env}
  {enabled : Bool} {stored : RunStatuses} {s : Logged Call (World MemoryStateStore)}
  {envelope : EventEnvelope} {snapshot : ContextSnapshot} {agentRunId : String}

/-- The call that starts the run. -/
abbrev startCall (workflow : WorkflowDefinition) (snapshot : ContextSnapshot)
    (agentRunId : String) : SyncCall :=
  .runStarted snapshot.context agentRunId workflow.goal workflow.promptVersion

theorem loggedSem_sync (call : SyncCall) :
    Reports [call] s (loggedSem env enabled stored (.sync call) s).2 :=
  ⟨rfl, rfl, rfl, Nat.le_succ _, fun _ h => List.mem_append_left _ h⟩

/-- Only a creation can find a terminal run. -/
theorem loggedSem_sync_ok {call : SyncCall}
    (hstart : ∀ context runId objective promptVersion,
      call ≠ .runStarted context runId objective promptVersion) :
    (loggedSem env enabled stored (.sync call) s).1 = .ok () := by
  change (if enabled then (stored.after s.state.syncCalls).answer call else .ok ()) = _
  cases enabled with
  | false => rfl
  | true =>
      cases call with
      | runStarted => exact absurd rfl (hstart _ _ _ _)
      | _ => rfl

/-- The API may already hold the run as terminal. -/
abbrev RunSettled (enabled : Bool) (stored : RunStatuses)
    (s : Logged Call (World MemoryStateStore)) (workspaceId agentRunId : String) : Prop :=
  enabled = true ∧ (stored.after s.state.syncCalls).Settled workspaceId agentRunId

theorem runSettled_quiet {t : Logged Call (World MemoryStateStore)} (h : Quiet s t)
    {workspaceId : String} :
    RunSettled enabled stored t workspaceId agentRunId ↔
      RunSettled enabled stored s workspaceId agentRunId := by
  unfold RunSettled
  rw [h.syncCalls, List.append_nil]

/-- A run that is not terminal starts. -/
theorem wp_startRun_open
    (hopen : ¬ RunSettled enabled stored s snapshot.context.workspaceId agentRunId) :
    (startRun envelope workflow snapshot agentRunId false).wp
      (loggedSem env enabled stored).step
      (fun r t => r = .ok true ∧ Reports [startCall workflow snapshot agentRunId] s t) s := by
  have hanswer : (loggedSem env enabled stored
      (.sync (startCall workflow snapshot agentRunId)) s).1 = .ok () := by
    change (if enabled then _ else _) = _
    cases enabled with
    | false => rfl
    | true => exact RunStatuses.startAnswer_of_not_settled _ fun h => hopen ⟨rfl, h⟩
  change (unlessTerminal _ _ _).wp _ _ _
  unfold unlessTerminal
  rw [Program.wp_bind, Program.wp_attempt_perform_step, hanswer]
  exact ⟨rfl, loggedSem_sync _⟩

/-- A terminal run is skipped. -/
theorem wp_startRun_settled
    (hsettled : RunSettled enabled stored s snapshot.context.workspaceId agentRunId) :
    (startRun envelope workflow snapshot agentRunId false).wp
      (loggedSem env enabled stored).step
      (fun r t => r = .ok false ∧ Reports [startCall workflow snapshot agentRunId] s t) s := by
  obtain ⟨rfl, hsettled⟩ := hsettled
  obtain ⟨status, hstatus⟩ := RunStatuses.startAnswer_of_settled _ hsettled
  have hanswer : (loggedSem env true stored
      (.sync (startCall workflow snapshot agentRunId)) s).1 =
        .error (.runAlreadyTerminal agentRunId status) := hstatus
  change (unlessTerminal _ _ _).wp _ _ _
  unfold unlessTerminal
  rw [Program.wp_bind, Program.wp_attempt_perform_step, hanswer, Program.andThen_ok]
  dsimp only
  rw [Program.wp_bind, trace, PrismAgent.trace, Program.wp_perform_step]
  have hsync : Reports [startCall workflow snapshot agentRunId] s (loggedSem env true stored
      (.sync (startCall workflow snapshot agentRunId)) s).2 := loggedSem_sync _
  exact ⟨rfl, hsync.trans (loggedSem_quiet (by simp [Call.writes]) (by simp [Call.writes])
    (by simp [Call.writes]))⟩

/-- A settled run is not planned. -/
theorem wp_startPlan_settled
    (hsettled : RunSettled enabled stored s snapshot.context.workspaceId agentRunId) :
    (startPlan registries envelope workflow snapshot agentRunId false).wp
      (loggedSem env enabled stored).step
      (fun r t => r = .ok () ∧ Reports [startCall workflow snapshot agentRunId] s t) s := by
  unfold startPlan
  rw [Program.wp_bind]
  refine Program.wp_mono (wp_startRun_settled hsettled) ?_
  rintro r t ⟨rfl, ht⟩
  exact ⟨rfl, ht⟩

/-- A plan that cannot be made fails the run. -/
theorem wp_buildPlan_fails (hplanner : PlannerFails registries workflow env) :
    (buildPlan registries workflow snapshot agentRunId).wp (loggedSem env enabled stored).step
      (fun r t => (∃ x, r = .error x) ∧
        ∃ message, Reports [.runFailed snapshot.context.workspaceId agentRunId message] s t)
      s := by
  unfold buildPlan
  rw [Program.wp_tryCatch, Program.wp_bind, Program.wp_perform_step]
  have hsaved : Quiet s (loggedSem env enabled stored (.saveTaskGraph
      (Orchestrator.buildTaskGraph agentRunId snapshot.context workflow)) s).2 :=
    loggedSem_quiet (by simp [Call.writes]) (by simp [Call.writes]) (by simp [Call.writes])
  refine Program.wp_mono (wp_createPlan_fails hplanner snapshot.context snapshot.ref
    agentRunId) ?_
  rintro r t ⟨⟨x, rfl⟩, ht⟩
  rw [Program.orElse_error, Program.wp_bind, Program.wp_perform_step,
    loggedSem_sync_ok (by simp)]
  refine ⟨⟨x, rfl⟩, x.toStr, ?_⟩
  exact (hsaved.trans ht).trans (loggedSem_sync _)

theorem wp_buildPlan_plans (hplanner : PlannerPlans registries workflow env) :
    (buildPlan registries workflow snapshot agentRunId).wp (loggedSem env enabled stored).step
      (fun r t => ∃ plan, r = .ok plan ∧ plan.actions ≠ [] ∧
        (Planner.createPlan registries snapshot.context snapshot.ref workflow agentRunId
          {}).MayReturn plan ∧ Quiet s t) s := by
  unfold buildPlan
  rw [Program.wp_tryCatch, Program.wp_bind, Program.wp_perform_step]
  have hsaved : Quiet s (loggedSem env enabled stored (.saveTaskGraph
      (Orchestrator.buildTaskGraph agentRunId snapshot.context workflow)) s).2 :=
    loggedSem_quiet (by simp [Call.writes]) (by simp [Call.writes]) (by simp [Call.writes])
  refine Program.wp_mono (wp_createPlan_plans hplanner snapshot.context snapshot.ref
    agentRunId) ?_
  rintro r t ⟨plan, rfl, hactions, hmay, ht⟩
  exact ⟨plan, rfl, hactions, hmay, hsaved.trans ht⟩

/-- A plan that cannot be made leaves a failed run. -/
theorem wp_startPlan_fails
    (hopen : ¬ RunSettled enabled stored s snapshot.context.workspaceId agentRunId)
    (hplanner : PlannerFails registries workflow env) :
    (startPlan registries envelope workflow snapshot agentRunId false).wp
      (loggedSem env enabled stored).step
      (fun r t => (∃ x, r = .error x) ∧ ∃ message,
        Reports [startCall workflow snapshot agentRunId,
          .runFailed snapshot.context.workspaceId agentRunId message] s t) s := by
  unfold startPlan
  rw [Program.wp_bind]
  refine Program.wp_mono (wp_startRun_open hopen) ?_
  rintro r t ⟨rfl, ht⟩
  rw [Program.andThen_ok]
  dsimp only
  rw [Program.wp_bind]
  refine Program.wp_mono (wp_buildPlan_fails hplanner) ?_
  rintro r u ⟨⟨x, rfl⟩, message, hu⟩
  exact ⟨⟨x, rfl⟩, message, ht.trans hu⟩

/-- The plan is saved. -/
structure Saved (plan : AgentPlan) (t : Logged Call (World MemoryStateStore)) : Prop where
  log : .savePlan plan ∈ t.log
  stored : t.state.store.plans (plan.workspaceId, plan.planId) = some plan

theorem Saved.reports {plan : AgentPlan} {calls : List SyncCall}
    {t u : Logged Call (World MemoryStateStore)} (h : Saved plan t) (hu : Reports calls t u) :
    Saved plan u where
  log := hu.log _ h.log
  stored := by
    rw [hu.plans]
    exact h.stored

/-- The plan is saved and `e` asks for its first action. -/
structure Planned (workspaceId : String) (plan : AgentPlan) (e : EventEnvelope)
    (t : Logged Call (World MemoryStateStore)) : Prop where
  saved : .savePlan plan ∈ t.log
  enqueued : .enqueue e ∈ t.log
  first : ∃ action, plan.actions.head? = some action ∧
    e.event.kind = .agentAction plan.planId action.actionId
  stored : t.state.store.plans (workspaceId, plan.planId) = some plan
  queued : e ∈ t.state.queue

theorem Planned.reports {workspaceId : String} {plan : AgentPlan} {e : EventEnvelope}
    {calls : List SyncCall} {t u : Logged Call (World MemoryStateStore)}
    (h : Planned workspaceId plan e t) (hu : Reports calls t u) :
    Planned workspaceId plan e u where
  saved := hu.log _ h.saved
  enqueued := hu.log _ h.enqueued
  first := h.first
  stored := by
    rw [hu.plans]
    exact h.stored
  queued := by
    rw [hu.queue]
    exact h.queued

/-- Saving a created plan enqueues its first action. -/
theorem wp_savePlan {plan : AgentPlan} {action : PlannedAction}
    (hnext : plan.nextPendingAction = some action) (hfirst : plan.actions.head? = some action) :
    (savePlan envelope snapshot plan false).wp (loggedSem env enabled stored).step
      (fun r t => r = .ok () ∧ ∃ e, Planned plan.workspaceId plan e t) s := by
  have hquiet : ∀ {call : Call} {t}, Saved plan t → call.writes ≠ some .plans →
      call.writes ≠ some .queue → call.writes ≠ some .syncCalls →
        Saved plan (loggedSem env enabled stored call t).2 := fun ht hplans hqueue hsync =>
    ht.reports (loggedSem_quiet hplans hqueue hsync)
  refine Program.wp_seq (P := fun _ _ => True) ?_ ?_
  · rw [Program.wp_perform_step]
    exact ⟨(), rfl, trivial⟩
  rintro - t₁ -
  refine Program.wp_seq (P := fun _ t => Saved plan t) ?_ ?_
  · rw [Program.wp_perform_step]
    refine ⟨(), rfl, List.mem_append_right _ List.mem_cons_self, ?_⟩
    exact Function.update_self _ _ _
  rintro - t₂ ht₂
  refine Program.wp_seq (P := fun _ t => Saved plan t) ?_ ?_
  · rw [Program.wp_perform_step]
    exact ⟨(), loggedSem_sync_ok (by simp), ht₂.reports (loggedSem_sync _)⟩
  rintro - t₃ ht₃
  refine Program.wp_seq (P := fun _ t => Saved plan t) ?_ ?_
  · rw [trace, PrismAgent.trace, Program.wp_perform_step]
    exact ⟨(), rfl, hquiet ht₃ (by simp [Call.writes]) (by simp [Call.writes])
      (by simp [Call.writes])⟩
  rintro - t₄ ht₄
  unfold enqueueFirstAction
  rw [hnext]
  refine Program.wp_seq (P := fun _ t => Saved plan t) ?_ ?_
  · rw [Program.wp_perform_step]
    exact ⟨_, rfl, hquiet ht₄ (by simp [Call.writes]) (by simp [Call.writes])
      (by simp [Call.writes])⟩
  rintro eventId t₅ ht₅
  refine Program.wp_seq (P := fun _ t => ∃ e, Planned plan.workspaceId plan e t) ?_ ?_
  · rw [Program.wp_perform_step]
    refine ⟨(), rfl, _, List.mem_append_left _ ht₅.log,
      List.mem_append_right _ List.mem_cons_self, ⟨action, hfirst, ?_⟩, ht₅.stored,
      List.mem_append_right _ List.mem_cons_self⟩
    rfl
  rintro - t₆ ⟨e, ht₆⟩
  rw [trace, PrismAgent.trace, Program.wp_perform_step]
  exact ⟨rfl, e, ht₆.reports (loggedSem_quiet (by simp [Call.writes]) (by simp [Call.writes])
    (by simp [Call.writes]))⟩

/-- A made plan is saved and its first action enqueued. -/
theorem wp_startPlan_plans
    (hopen : ¬ RunSettled enabled stored s snapshot.context.workspaceId agentRunId)
    (hplanner : PlannerPlans registries workflow env) :
    (startPlan registries envelope workflow snapshot agentRunId false).wp
      (loggedSem env enabled stored).step
      (fun r t => r = .ok () ∧ ∃ plan e, Planned snapshot.context.workspaceId plan e t) s := by
  unfold startPlan
  rw [Program.wp_bind]
  refine Program.wp_mono (wp_startRun_open hopen) ?_
  rintro r t ⟨rfl, -⟩
  rw [Program.andThen_ok]
  dsimp only
  rw [Program.wp_bind]
  refine Program.wp_mono (wp_buildPlan_plans hplanner) ?_
  rintro r u ⟨plan, rfl, hactions, hmay, -⟩
  obtain ⟨action, hfirst⟩ : ∃ action, plan.actions.head? = some action :=
    Option.isSome_iff_exists.1 (List.isSome_head?.2 hactions)
  have hworkspace : plan.workspaceId = snapshot.context.workspaceId := by
    obtain ⟨form, proposed, -, hcontext, -, -, rfl⟩ := Planner.createPlan_mayReturn hmay
    exact congrArg (·.workspaceId) hcontext
  rw [Program.andThen_ok]
  refine Program.wp_mono (wp_savePlan ((nextPendingAction_createPlan hmay).trans hfirst)
    hfirst) ?_
  rintro r v ⟨rfl, e, hv⟩
  exact ⟨rfl, plan, e, hworkspace ▸ hv⟩

/-- An event of a workflow that is planned as a whole, without a plan yet, starts one. -/
theorem wp_handle_unplanned {Q : Except Exc Unit → Logged Call (World MemoryStateStore) → Prop}
    {prompt : WorkflowPromptDefinition}
    (hroute : (route registries.workflows envelope).workflow = some workflow)
    (hsingle : isOrchestrated workflow = false)
    (hprompt : registries.prompts.getWorkflow workflow.promptId workflow.promptVersion =
      .ok prompt)
    (hnone : s.state.store.plans (envelope.event.workspaceId, runIdOf envelope) = none)
    (hstart : ∀ snapshot t, snapshot.context.workspaceId = envelope.event.workspaceId →
      Quiet s t → (startPlan registries envelope workflow snapshot (runIdOf envelope) false).wp
        (loggedSem env enabled stored).step Q t) :
    (handle registries envelope).wp (loggedSem env enabled stored).step Q s := by
  unfold handle
  rw [hroute]
  dsimp only
  rw [Program.wp_bind]
  refine Program.wp_mono (wp_hydrate hprompt) ?_
  rintro r t ⟨snapshot, rfl, hworkspace, hsource, ht⟩
  rw [Program.andThen_ok, hsingle, if_neg Bool.false_ne_true, resolveAgentRunId_eq hsource]
  unfold handlePlan
  rw [Program.wp_bind, Program.wp_perform_step]
  have hanswer : (loggedSem env enabled stored (.getPlan snapshot.context.workspaceId
      (runIdOf envelope)) t).1 = .ok none := by
    change Except.ok (t.state.store.plans (snapshot.context.workspaceId, runIdOf envelope)) = _
    rw [ht.plans, hworkspace, hnone]
  rw [hanswer]
  exact hstart snapshot _ hworkspace (ht.trans (loggedSem_quiet (by simp [Call.writes])
    (by simp [Call.writes]) (by simp [Call.writes])))

/-- Handling a domain event consumes no key. -/
theorem wp_handle_keys :
    (handle registries envelope).wp (loggedSem env enabled stored).step
      (fun _ t => t.state.store.idempotencyKeys = s.state.store.idempotencyKeys ∧
        ∀ call ∈ t.log, call ∈ s.log ∨ call.writes ≠ some .idempotencyKeys) s := by
  refine Program.wp_of_onlyCalls ?_ (handle_writes envelope registries)
    ⟨rfl, fun call hcall => .inl hcall⟩
  rintro u call r t hcall hstep ⟨hkeys, hlog⟩
  have ht : t = (loggedSem env enabled stored call u).2 := congrArg Prod.snd hstep
  have hwrites : call.writes ≠ some .idempotencyKeys := by
    intro heq
    change call.writesIn starting = true at hcall
    unfold Call.writesIn at hcall
    rw [heq] at hcall
    exact absurd hcall (by decide)
  have hstate : t.state = (env.sem call u.state).2 := by
    rw [ht]
    exact Env.apiSem_snd env call
  constructor
  · have hsame : Part.Same u.state (env.sem call u.state).2 .idempotencyKeys :=
      sem_same env hwrites
    rw [hstate, ← hkeys]
    exact hsame
  · intro call' hcall'
    rw [ht] at hcall'
    rcases List.mem_append.1 hcall' with hcall' | hcall'
    · exact hlog call' hcall'
    · rw [List.mem_singleton.1 hcall']
      exact .inr hwrites

end DomainEventHandler

end PrismAgent
