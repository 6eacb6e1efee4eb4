import PrismAgent.Provisioning.Start
import PrismAgent.Provisioning.Worker
import PrismAgent.Safety.Execution

/-!
# Redelivering a pointer

A pointer is delivered again and again, each time to an environment of its own: the
planner fails at first and then plans. A failed plan fails the run at the API, so a
later delivery of the same run finds it terminal and consumes the pointer without a plan.
-/

namespace PrismAgent

open Effect

namespace FeatureProvisioningWorker

variable {registries : Registries} {payloadStore : JsonPayloadStore}
  {pointer : FeatureProvisioningPointerEvent} {payload : FeatureProvisioningPayload}
  {workflow : WorkflowDefinition}

/-- The pointer's payload is valid, and its seed event starts a workflow that is planned
as a whole. -/
structure Provisions (registries : Registries) (payloadStore : JsonPayloadStore)
    (pointer : FeatureProvisioningPointerEvent) (payload : FeatureProvisioningPayload)
    (workflow : WorkflowDefinition) : Prop where
  fetched : payloadStore pointer.payloadObjectName pointer.payloadVersionId = .ok payload
  valid : payload.validateMatches pointer = .ok ()
  routed : registries.workflows.getByTrigger "domain.feature.provisioning.requested" =
    some workflow
  single : DomainEventHandler.isOrchestrated workflow = false

/-- The seed event of one delivery. -/
abbrev seedEvent (pointer : FeatureProvisioningPointerEvent)
    (payload : FeatureProvisioningPayload) (eventId : String) : EventEnvelope :=
  .wrap (payload.toDomainEvent pointer eventId)

theorem Provisions.route (h : Provisions registries payloadStore pointer payload workflow)
    (eventId : String) :
    (PrismAgent.route registries.workflows (seedEvent pointer payload eventId)).workflow =
      some workflow := h.routed

theorem Provisions.resolveSeedEvent_eq
    (h : Provisions registries payloadStore pointer payload workflow) :
    resolveSeedEvent payloadStore pointer = do
      let eventId ← perform .uuid4
      return payload.toDomainEvent pointer eventId := by
  unfold resolveSeedEvent
  rw [h.fetched]
  change (liftExcept (payload.validateMatches pointer) >>= _ : App RuntimeEvent) = _
  rw [h.valid]
  rfl

/-- A planner that plans has loaded the prompt of the workflow. -/
theorem PlannerPlans.prompt {env : Env} (h : PlannerPlans registries workflow env) :
    ∃ prompt, registries.prompts.getWorkflow workflow.promptId workflow.promptVersion =
      .ok prompt := by
  obtain ⟨plan, hplan, -⟩ := h
    { workspaceId := "", projectId := none, sourceEvent := .wrap (agentActionEvent "" "" none ""
        "" none {}), workflowId := "" } "" "" { store := {} }
  cases hprompt : registries.prompts.getWorkflow workflow.promptId workflow.promptVersion with
  | ok prompt => exact ⟨prompt, rfl⟩
  | error x =>
      unfold Planner.createPlan at hplan
      rw [hprompt] at hplan
      cases hplan

section Delivery

variable {env : Env} {enabled : Bool} {stored : RunStatuses}
  {s : Logged Call (World MemoryStateStore)}

/-- A consumed pointer is a duplicate. -/
theorem wp_handlePointer_consumed
    (hkey : pointer.workerIdempotencyKey ∈ s.state.store.idempotencyKeys) :
    (handlePointer registries payloadStore pointer).wp (loggedSem env enabled stored).step
      (fun r t => r = .ok { requestId := pointer.requestId, eventId := none, duplicate := true } ∧
        t.state = { s.state with tick := s.state.tick + 1 }) s := by
  unfold handlePointer
  rw [Program.wp_bind, Program.wp_perform_step]
  have hanswer : (loggedSem env enabled stored
      (.checkIdempotencyKey pointer.workerIdempotencyKey) s).1 = .ok true := by
    change Except.ok (decide (pointer.workerIdempotencyKey ∈ s.state.store.idempotencyKeys)) = _
    rw [decide_eq_true hkey]
  rw [hanswer]
  exact ⟨rfl, rfl⟩

/-- A pointer that is not consumed is handled and consumed. -/
theorem wp_handlePointer_fresh
    {Q : Except Exc FeatureProvisioningResult → Logged Call (World MemoryStateStore) → Prop}
    (h : Provisions registries payloadStore pointer payload workflow)
    (hkey : pointer.workerIdempotencyKey ∉ s.state.store.idempotencyKeys)
    (hhandle : ∀ t, Quiet s t → t.state.tick = s.state.tick + 2 →
      t.state.store.idempotencyKeys = s.state.store.idempotencyKeys →
      t.log = s.log ++ [.checkIdempotencyKey pointer.workerIdempotencyKey] ++ [.uuid4] →
      (DomainEventHandler.handle registries
        (seedEvent pointer payload (env.uuid4 (s.state.tick + 1)))).wp
        (loggedSem env enabled stored).step
        (fun r u => (∀ x, r = .error x → Q (.error x) u) ∧ (r = .ok () →
          Q (.ok { requestId := pointer.requestId
                   eventId := some (env.uuid4 (s.state.tick + 1)) })
            (loggedSem env enabled stored
              (.recordIdempotencyKey pointer.workerIdempotencyKey) u).2)) t) :
    (handlePointer registries payloadStore pointer).wp (loggedSem env enabled stored).step
      Q s := by
  unfold handlePointer
  rw [Program.wp_bind, Program.wp_perform_step]
  have hanswer : (loggedSem env enabled stored
      (.checkIdempotencyKey pointer.workerIdempotencyKey) s).1 = .ok false := by
    change Except.ok (decide (pointer.workerIdempotencyKey ∈ s.state.store.idempotencyKeys)) = _
    rw [decide_eq_false hkey]
  rw [hanswer, Program.andThen_ok]
  dsimp only
  rw [h.resolveSeedEvent_eq, Program.wp_bind, Program.wp_bind, Program.wp_perform_step]
  have hread : ∀ (call : Call) u, call.writes = none →
      Quiet u (loggedSem env enabled stored call u).2 := by
    intro call u hwrites
    exact loggedSem_quiet (by simp [hwrites]) (by simp [hwrites]) (by simp [hwrites])
  change (DomainEventHandler.handle registries _ >>= _).wp _ _ _
  rw [Program.wp_bind]
  refine Program.wp_mono (hhandle _ ((hread _ _ rfl).trans (hread _ _ rfl)) rfl rfl rfl) ?_
  rintro (x | _) u ⟨herror, hreturn⟩
  · exact herror x rfl
  · rw [Program.andThen_ok, Program.wp_bind, Program.wp_perform_step]
    exact hreturn rfl

/-- The run of the seed event that the next delivery makes. -/
abbrev nextRunId (env : Env) (pointer : FeatureProvisioningPointerEvent)
    (payload : FeatureProvisioningPayload) (tick : ℕ) : String :=
  runIdOf (seedEvent pointer payload (env.uuid4 (tick + 1)))

/-- A failing planner leaves the pointer and fails the run. -/
theorem wp_handlePointer_fails {prompt : WorkflowPromptDefinition}
    (h : Provisions registries payloadStore pointer payload workflow)
    (hprompt : registries.prompts.getWorkflow workflow.promptId workflow.promptVersion =
      .ok prompt)
    (hplanner : PlannerFails registries workflow env)
    (hkey : pointer.workerIdempotencyKey ∉ s.state.store.idempotencyKeys)
    (hnone : s.state.store.plans
      (pointer.workspaceId, nextRunId env pointer payload s.state.tick) = none)
    (hopen : ¬ DomainEventHandler.RunSettled enabled stored s pointer.workspaceId
      (nextRunId env pointer payload s.state.tick)) :
    (handlePointer registries payloadStore pointer).wp (loggedSem env enabled stored).step
      (fun r t => (∃ x, r = .error x) ∧
        t.state.store.idempotencyKeys = s.state.store.idempotencyKeys ∧
        s.state.tick + 2 ≤ t.state.tick ∧
        ∃ context objective promptVersion message, context.workspaceId = pointer.workspaceId ∧
          Reports [.runStarted context (nextRunId env pointer payload s.state.tick) objective
              promptVersion,
            .runFailed pointer.workspaceId (nextRunId env pointer payload s.state.tick)
              message] s t) s := by
  refine wp_handlePointer_fresh h hkey fun t ht htick hkeys _ => ?_
  have hfails : (DomainEventHandler.handle registries
      (seedEvent pointer payload (env.uuid4 (s.state.tick + 1)))).wp
      (loggedSem env enabled stored).step
      (fun r u => (∃ x, r = .error x) ∧ ∃ context objective promptVersion message,
        context.workspaceId = pointer.workspaceId ∧
          Reports [.runStarted context (nextRunId env pointer payload s.state.tick) objective
              promptVersion,
            .runFailed pointer.workspaceId (nextRunId env pointer payload s.state.tick)
              message] t u) t := by
    refine DomainEventHandler.wp_handle_unplanned (h.route _) h.single hprompt ?_ ?_
    · rw [ht.plans]
      exact hnone
    · intro snapshot u hworkspace hu
      have hstill : ¬ DomainEventHandler.RunSettled enabled stored u
          snapshot.context.workspaceId (nextRunId env pointer payload s.state.tick) := by
        rw [DomainEventHandler.runSettled_quiet (ht.trans hu), hworkspace]
        exact hopen
      refine Program.wp_mono (DomainEventHandler.wp_startPlan_fails hstill hplanner) ?_
      rintro r v ⟨hraises, message, hv⟩
      refine ⟨hraises, snapshot.context, workflow.goal, workflow.promptVersion, message,
        hworkspace, ?_⟩
      rw [hworkspace] at hv
      exact hu.trans hv
  refine Program.wp_mono (Program.wp_and hfails DomainEventHandler.wp_handle_keys) ?_
  rintro r u ⟨⟨⟨x, rfl⟩, context, objective, promptVersion, message, hcontext, hu⟩, hsame, -⟩
  refine ⟨?_, by rintro ⟨⟩⟩
  rintro y ⟨⟩
  refine ⟨⟨x, rfl⟩, hsame.trans hkeys, ?_, context, objective, promptVersion, message, hcontext,
    ht.trans hu⟩
  rw [← htick]
  exact hu.tick

/-- A run that the API holds as terminal is consumed without a plan. -/
theorem wp_handlePointer_settled {prompt : WorkflowPromptDefinition}
    (h : Provisions registries payloadStore pointer payload workflow)
    (hprompt : registries.prompts.getWorkflow workflow.promptId workflow.promptVersion =
      .ok prompt)
    (hkey : pointer.workerIdempotencyKey ∉ s.state.store.idempotencyKeys)
    (hnone : s.state.store.plans
      (pointer.workspaceId, nextRunId env pointer payload s.state.tick) = none)
    (hsettled : DomainEventHandler.RunSettled enabled stored s pointer.workspaceId
      (nextRunId env pointer payload s.state.tick)) :
    (handlePointer registries payloadStore pointer).wp (loggedSem env enabled stored).step
      (fun r t => (∃ result, r = .ok result) ∧ t.state.store.plans = s.state.store.plans)
      s := by
  refine wp_handlePointer_fresh h hkey fun t ht _ _ _ => ?_
  refine DomainEventHandler.wp_handle_unplanned (h.route _) h.single hprompt ?_ ?_
  · rw [ht.plans]
    exact hnone
  · intro snapshot u hworkspace hu
    have hstill : DomainEventHandler.RunSettled enabled stored u
        snapshot.context.workspaceId (nextRunId env pointer payload s.state.tick) := by
      rw [DomainEventHandler.runSettled_quiet (ht.trans hu), hworkspace]
      exact hsettled
    refine Program.wp_mono (DomainEventHandler.wp_startPlan_settled hstill) ?_
    rintro r v ⟨rfl, hv⟩
    refine ⟨by rintro x ⟨⟩, fun _ => ⟨⟨_, rfl⟩, ?_⟩⟩
    exact hv.plans.trans (hu.plans.trans ht.plans)

/-- What a clean dispatch has done: before it consumed the pointer, and only then, it
saved a plan and enqueued its first action. -/
structure Provisioned (pointer : FeatureProvisioningPointerEvent)
    (t : Logged Call (World MemoryStateStore)) (plan : AgentPlan) (e : EventEnvelope)
    (before : List Call) : Prop where
  log : t.log = before ++ [.recordIdempotencyKey pointer.workerIdempotencyKey]
  unconsumed : .recordIdempotencyKey pointer.workerIdempotencyKey ∉ before
  saved : .savePlan plan ∈ before
  enqueued : .enqueue e ∈ before
  first : ∃ action, plan.actions.head? = some action ∧
    e.event.kind = .agentAction plan.planId action.actionId
  stored : t.state.store.plans (pointer.workspaceId, plan.planId) = some plan
  queued : e ∈ t.state.queue
  consumed : pointer.workerIdempotencyKey ∈ t.state.store.idempotencyKeys

/-- A planner that plans provisions the pointer. -/
theorem wp_handlePointer_plans
    (h : Provisions registries payloadStore pointer payload workflow)
    (hplanner : PlannerPlans registries workflow env)
    (hkey : pointer.workerIdempotencyKey ∉ s.state.store.idempotencyKeys)
    (hlog : s.log = [])
    (hnone : s.state.store.plans
      (pointer.workspaceId, nextRunId env pointer payload s.state.tick) = none)
    (hopen : ¬ DomainEventHandler.RunSettled enabled stored s pointer.workspaceId
      (nextRunId env pointer payload s.state.tick)) :
    (handlePointer registries payloadStore pointer).wp (loggedSem env enabled stored).step
      (fun r t => (∃ eventId, r = .ok { requestId := pointer.requestId
                                        eventId := some eventId }) ∧
        ∃ plan e before, Provisioned pointer t plan e before) s := by
  obtain ⟨prompt, hprompt⟩ := PlannerPlans.prompt hplanner
  refine wp_handlePointer_fresh h hkey fun t ht htick hkeys htlog => ?_
  have hplans : (DomainEventHandler.handle registries
      (seedEvent pointer payload (env.uuid4 (s.state.tick + 1)))).wp
      (loggedSem env enabled stored).step
      (fun r u => r = .ok () ∧ ∃ plan e,
        DomainEventHandler.Planned pointer.workspaceId plan e u) t := by
    refine DomainEventHandler.wp_handle_unplanned (h.route _) h.single hprompt ?_ ?_
    · rw [ht.plans]
      exact hnone
    · intro snapshot u hworkspace hu
      have hstill : ¬ DomainEventHandler.RunSettled enabled stored u
          snapshot.context.workspaceId (nextRunId env pointer payload s.state.tick) := by
        rw [DomainEventHandler.runSettled_quiet (ht.trans hu), hworkspace]
        exact hopen
      refine Program.wp_mono (DomainEventHandler.wp_startPlan_plans hstill hplanner) ?_
      rintro r v ⟨hreturns, plan, e, hv⟩
      rw [hworkspace] at hv
      exact ⟨hreturns, plan, e, hv⟩
  refine Program.wp_mono (Program.wp_and hplans DomainEventHandler.wp_handle_keys) ?_
  rintro r u ⟨⟨rfl, plan, e, hu⟩, -, hwrites⟩
  refine ⟨by rintro x ⟨⟩, fun _ => ⟨⟨_, rfl⟩, plan, e, u.log, ?_⟩⟩
  refine ⟨rfl, fun hrecord => ?_, hu.saved, hu.enqueued, hu.first, hu.stored, hu.queued,
    Finset.mem_insert_self _ _⟩
  rcases hwrites _ hrecord with hrecord | hrecord
  · rw [htlog, hlog] at hrecord
    simp at hrecord
  · exact hrecord rfl

end Delivery

section Redelivery

variable (registries payloadStore pointer) (envs : ℕ → Env) (enabled : Bool)
  (stored : RunStatuses)

/-- Delivery `n` of the pointer. -/
def delivery (n : ℕ) (w : World MemoryStateStore) :
    Except Exc FeatureProvisioningResult × Logged Call (World MemoryStateStore) :=
  (loggedSem (envs n) enabled stored).exec (handlePointer registries payloadStore pointer)
    { state := w }

/-- The world before delivery `n`. -/
def worldBefore : ℕ → World MemoryStateStore
  | 0 => { store := {} }
  | n + 1 =>
      (delivery registries payloadStore pointer envs enabled stored n (worldBefore n)).2.state

/-- The deliveries before `m` raise, delivery `m` provisions the pointer, and later ones
do nothing. -/
structure RetriedUntilPlanned (m : ℕ) : Prop where
  raised : ∀ n < m, ∃ x, (delivery registries payloadStore pointer envs enabled stored n
    (worldBefore registries payloadStore pointer envs enabled stored n)).1 = .error x
  returned : ∃ eventId, (delivery registries payloadStore pointer envs enabled stored m
    (worldBefore registries payloadStore pointer envs enabled stored m)).1 =
      .ok { requestId := pointer.requestId, eventId := some eventId }
  provisioned : ∃ plan e before, Provisioned pointer
    (delivery registries payloadStore pointer envs enabled stored m
      (worldBefore registries payloadStore pointer envs enabled stored m)).2 plan e before
  repeated : ∀ n, m < n →
    (delivery registries payloadStore pointer envs enabled stored n
      (worldBefore registries payloadStore pointer envs enabled stored n)).1 =
        .ok { requestId := pointer.requestId, eventId := none, duplicate := true } ∧
    worldBefore registries payloadStore pointer envs enabled stored (n + 1) =
      { worldBefore registries payloadStore pointer envs enabled stored n with
        tick := (worldBefore registries payloadStore pointer envs enabled stored n).tick + 1 }

/-- The pointer or its payload names the run, so that all deliveries share it. -/
def NamesRun (pointer : FeatureProvisioningPointerEvent)
    (payload : FeatureProvisioningPayload) : Prop :=
  payloadRunId (payload.eventPayload pointer) ≠ none ∨ pointer.requestId ≠ ""

variable {registries payloadStore pointer envs enabled stored}

theorem runIdOf_seedEvent_of_names (h : NamesRun pointer payload) (eventId eventId' : String) :
    runIdOf (seedEvent pointer payload eventId) =
      runIdOf (seedEvent pointer payload eventId') := by
  rw [runIdOf_eq, runIdOf_eq]
  change (payloadRunId (payload.eventPayload pointer)).getD
    (orElseText (some pointer.requestId) _) = (payloadRunId (payload.eventPayload pointer)).getD
    (orElseText (some pointer.requestId) _)
  rcases h with h | h
  · obtain ⟨runId, hrunId⟩ := Option.ne_none_iff_exists'.1 h
    rw [hrunId]
    rfl
  · unfold orElseText
    dsimp only
    rw [if_neg h, if_neg h]

theorem runIdOf_seedEvent_of_not_names (h : ¬ NamesRun pointer payload) (eventId : String) :
    runIdOf (seedEvent pointer payload eventId) = eventId := by
  obtain ⟨hpayload, hrequest⟩ := not_or.1 h
  rw [runIdOf_eq]
  change (payloadRunId (payload.eventPayload pointer)).getD (orElseText (some pointer.requestId)
    (orElseText (some pointer.requestId) eventId)) = eventId
  rw [not_not.1 hpayload, not_not.1 hrequest]
  rfl

/-- Nothing has been planned and the pointer is not consumed; the terminal runs are those
of earlier deliveries. -/
structure Waiting (envs : ℕ → Env) (stored : RunStatuses)
    (pointer : FeatureProvisioningPointerEvent) (payload : FeatureProvisioningPayload)
    (w : World MemoryStateStore) : Prop where
  plans : w.store.plans = fun _ => none
  key : pointer.workerIdempotencyKey ∉ w.store.idempotencyKeys
  settled : ∀ runId, (stored.after w.syncCalls).Settled pointer.workspaceId runId →
    ∃ i tick, tick < w.tick ∧ runId = runIdOf (seedEvent pointer payload ((envs i).uuid4 tick))

theorem waiting_empty (hopen : ∀ runId, ¬ stored.Settled pointer.workspaceId runId) :
    Waiting envs stored pointer payload { store := {} } :=
  ⟨rfl, Finset.notMem_empty _, fun runId h => absurd h (hopen runId)⟩

section Step

variable {w : World MemoryStateStore} {n : ℕ}
  (h : Provisions registries payloadStore pointer payload workflow)

include h

/-- A failed delivery raises, waits on and settles its run. -/
theorem delivery_fails {prompt : WorkflowPromptDefinition}
    (hprompt : registries.prompts.getWorkflow workflow.promptId workflow.promptVersion =
      .ok prompt)
    (hplanner : PlannerFails registries workflow (envs n))
    (hw : Waiting envs stored pointer payload w)
    (hopen : enabled = true → ¬ (stored.after w.syncCalls).Settled pointer.workspaceId
      (nextRunId (envs n) pointer payload w.tick)) :
    (∃ x, (delivery registries payloadStore pointer envs enabled stored n w).1 = .error x) ∧
      Waiting envs stored pointer payload
        (delivery registries payloadStore pointer envs enabled stored n w).2.state ∧
      (stored.after (delivery registries payloadStore pointer envs enabled stored n
        w).2.state.syncCalls).Settled pointer.workspaceId
          (nextRunId (envs n) pointer payload w.tick) := by
  have hwp : (handlePointer registries payloadStore pointer).wp
      (loggedSem (envs n) enabled stored).step _ { state := w } :=
    wp_handlePointer_fails h hprompt hplanner hw.key (by rw [hw.plans])
      fun hsettled => hopen hsettled.1 hsettled.2
  rw [Program.wp_step_iff] at hwp
  obtain ⟨hraises, hkeys, htick, context, objective, promptVersion, message, hcontext, ht⟩ := hwp
  have hcalls := ht.syncCalls
  unfold delivery
  refine ⟨hraises, ⟨ht.plans.trans hw.plans, ?_, ?_⟩, ?_⟩
  · rw [hkeys]
    exact hw.key
  · intro runId hsettled
    rw [hcalls, RunStatuses.after_pair] at hsettled
    rcases RunStatuses.settled_of_failed _ hcontext hsettled with rfl | hsettled
    · exact ⟨n, w.tick + 1, by change w.tick + 2 ≤ _ at htick; omega, rfl⟩
    · obtain ⟨i, tick, hlt, hrun⟩ := hw.settled runId hsettled
      exact ⟨i, tick, by change w.tick + 2 ≤ _ at htick; omega, hrun⟩
  · rw [hcalls, RunStatuses.after_pair]
    exact RunStatuses.settled_failed _ _ _ _

/-- A delivery of a run that has failed consumes the pointer without a plan. -/
theorem delivery_settled {prompt : WorkflowPromptDefinition}
    (hprompt : registries.prompts.getWorkflow workflow.promptId workflow.promptVersion =
      .ok prompt)
    (hw : Waiting envs stored pointer payload w) (henabled : enabled = true)
    (hsettled : (stored.after w.syncCalls).Settled pointer.workspaceId
      (nextRunId (envs n) pointer payload w.tick)) :
    (∃ result, (delivery registries payloadStore pointer envs enabled stored n w).1 =
      .ok result) ∧
    (delivery registries payloadStore pointer envs enabled stored n w).2.state.store.plans =
      fun _ => none := by
  have hwp : (handlePointer registries payloadStore pointer).wp
      (loggedSem (envs n) enabled stored).step _ { state := w } :=
    wp_handlePointer_settled h hprompt hw.key (by rw [hw.plans]) ⟨henabled, hsettled⟩
  rw [Program.wp_step_iff] at hwp
  exact ⟨hwp.1, hwp.2.trans hw.plans⟩

/-- A delivery to a planner that plans provisions the pointer. -/
theorem delivery_plans (hplanner : PlannerPlans registries workflow (envs n))
    (hw : Waiting envs stored pointer payload w)
    (hopen : enabled = true → ¬ (stored.after w.syncCalls).Settled pointer.workspaceId
      (nextRunId (envs n) pointer payload w.tick)) :
    (∃ eventId, (delivery registries payloadStore pointer envs enabled stored n w).1 =
      .ok { requestId := pointer.requestId, eventId := some eventId }) ∧
    ∃ plan e before, Provisioned pointer
      (delivery registries payloadStore pointer envs enabled stored n w).2 plan e before := by
  have hwp : (handlePointer registries payloadStore pointer).wp
      (loggedSem (envs n) enabled stored).step _ { state := w } :=
    wp_handlePointer_plans h hplanner hw.key rfl (by rw [hw.plans])
      fun hsettled => hopen hsettled.1 hsettled.2
  rw [Program.wp_step_iff] at hwp
  exact hwp

end Step

/-- A delivery of a consumed pointer does nothing. -/
theorem delivery_consumed {w : World MemoryStateStore} (n : ℕ)
    (hkey : pointer.workerIdempotencyKey ∈ w.store.idempotencyKeys) :
    (delivery registries payloadStore pointer envs enabled stored n w).1 =
        .ok { requestId := pointer.requestId, eventId := none, duplicate := true } ∧
      (delivery registries payloadStore pointer envs enabled stored n w).2.state =
        { w with tick := w.tick + 1 } := by
  have hwp : (handlePointer registries payloadStore pointer).wp
      (loggedSem (envs n) enabled stored).step _ { state := w } :=
    wp_handlePointer_consumed hkey
  rw [Program.wp_step_iff] at hwp
  exact hwp

section Runs

variable {m : ℕ} (h : Provisions registries payloadStore pointer payload workflow)
  (hfails : ∀ n < m, PlannerFails registries workflow (envs n))
  (hplans : PlannerPlans registries workflow (envs m))
  (hopen : ∀ runId, ¬ stored.Settled pointer.workspaceId runId)

include h hfails hplans hopen

/-- The second delivery of a named run finds the run failed by the first. -/
theorem not_retried_of_names (hm : m ≠ 0) (henabled : enabled = true)
    (hnames : NamesRun pointer payload) :
    ¬ RetriedUntilPlanned registries payloadStore pointer envs enabled stored m := by
  intro hretried
  obtain ⟨prompt, hprompt⟩ := PlannerPlans.prompt hplans
  obtain ⟨-, hwaiting, hsettled⟩ : (∃ x, (delivery registries payloadStore pointer envs enabled
      stored 0 { store := {} }).1 = .error x) ∧ _ ∧ _ :=
    delivery_fails h hprompt (hfails 0 (Nat.pos_of_ne_zero hm)) (waiting_empty hopen)
      fun _ => hopen _
  have hrun : nextRunId (envs 0) pointer payload 0 = nextRunId (envs 1) pointer payload
      (worldBefore registries payloadStore pointer envs enabled stored 1).tick :=
    runIdOf_seedEvent_of_names hnames _ _
  obtain ⟨⟨result, hresult⟩, hnone⟩ := delivery_settled (n := 1) h hprompt hwaiting henabled
    (hrun ▸ hsettled)
  rcases Nat.lt_or_ge 1 m with hlt | hle
  · obtain ⟨x, hx⟩ := hretried.raised 1 hlt
    cases hresult.symm.trans hx
  · obtain rfl : m = 1 := by omega
    obtain ⟨plan, e, before, hprovisioned⟩ := hretried.provisioned
    have hstored := hprovisioned.stored
    change (delivery registries payloadStore pointer envs enabled stored 1
      (delivery registries payloadStore pointer envs enabled stored 0
        { store := {} }).2.state).2.state.store.plans _ = _ at hstored
    rw [hnone] at hstored
    cases hstored

/-- With a fresh run at every delivery, all deliveries up to the first plan wait. -/
theorem waiting_worldBefore
    (hstill : ∀ n ≤ m, Waiting envs stored pointer payload
        (worldBefore registries payloadStore pointer envs enabled stored n) → enabled = true →
      ¬ (stored.after (worldBefore registries payloadStore pointer envs enabled stored
        n).syncCalls).Settled pointer.workspaceId (nextRunId (envs n) pointer payload
          (worldBefore registries payloadStore pointer envs enabled stored n).tick)) :
    ∀ n ≤ m, Waiting envs stored pointer payload
      (worldBefore registries payloadStore pointer envs enabled stored n) := by
  obtain ⟨prompt, hprompt⟩ := PlannerPlans.prompt hplans
  intro n hn
  induction n with
  | zero => exact waiting_empty hopen
  | succ n ih =>
      have hw := ih (by omega)
      exact (delivery_fails h hprompt (hfails n (by omega)) hw (hstill n (by omega) hw)).2.1

/-- Redelivery retries a failed plan if and only if no plan has failed, the sync is not
enabled, or each delivery starts a run of its own. -/
theorem retried_until_planned_iff
    (hfresh : ∀ i j tick tick', (envs i).uuid4 tick = (envs j).uuid4 tick' → tick = tick') :
    RetriedUntilPlanned registries payloadStore pointer envs enabled stored m ↔
      m = 0 ∨ enabled = false ∨ ¬ NamesRun pointer payload := by
  constructor
  · intro hretried
    by_contra hcondition
    obtain ⟨hm, henabled, hnames⟩ : m ≠ 0 ∧ enabled = true ∧ NamesRun pointer payload := by
      simpa [not_or] using hcondition
    exact not_retried_of_names h hfails hplans hopen hm henabled hnames hretried
  · intro hcondition
    obtain ⟨prompt, hprompt⟩ := PlannerPlans.prompt hplans
    have hstill : ∀ n ≤ m, Waiting envs stored pointer payload
        (worldBefore registries payloadStore pointer envs enabled stored n) → enabled = true →
      ¬ (stored.after (worldBefore registries payloadStore pointer envs enabled stored
        n).syncCalls).Settled pointer.workspaceId (nextRunId (envs n) pointer payload
          (worldBefore registries payloadStore pointer envs enabled stored n).tick) := by
      intro n hn hw henabled hsettled
      rcases hcondition with rfl | hdisabled | hnames
      · obtain rfl : n = 0 := by omega
        exact hopen _ hsettled
      · rw [henabled] at hdisabled
        cases hdisabled
      · obtain ⟨i, tick, hlt, hrun⟩ := hw.settled _ hsettled
        rw [runIdOf_seedEvent_of_not_names hnames, nextRunId,
          runIdOf_seedEvent_of_not_names hnames] at hrun
        have htick := hfresh _ _ _ _ hrun
        omega
    have hwaiting := waiting_worldBefore h hfails hplans hopen hstill
    obtain ⟨hreturned, hprovisioned⟩ := delivery_plans h hplans (hwaiting m (le_refl m))
      (hstill m (le_refl m) (hwaiting m (le_refl m)))
    have hconsumed : ∀ n, m < n → pointer.workerIdempotencyKey ∈ (worldBefore registries
        payloadStore pointer envs enabled stored n).store.idempotencyKeys := by
      intro n hn
      induction n, hn using Nat.le_induction with
      | base =>
          obtain ⟨plan, e, before, hprovisioned⟩ := hprovisioned
          exact hprovisioned.consumed
      | succ n hn ih =>
          change _ ∈ (delivery registries payloadStore pointer envs enabled stored n
            (worldBefore registries payloadStore pointer envs enabled stored
              n)).2.state.store.idempotencyKeys
          rw [(delivery_consumed n ih).2]
          exact ih
    refine ⟨fun n hn => ?_, hreturned, hprovisioned, fun n hn => ?_⟩
    · have hw := hwaiting n hn.le
      exact (delivery_fails h hprompt (hfails n hn) hw (hstill n hn.le hw)).1
    · exact delivery_consumed n (hconsumed n hn)

end Runs

end Redelivery

def samplePointer : FeatureProvisioningPointerEvent :=
  { requestId := "request"
    payloadObjectName := "payload"
    workspaceId := "ws"
    projectId := "project" }

def samplePayload : FeatureProvisioningPayload :=
  { requestId := some "request"
    workspaceId := some "ws"
    projectId := some "project"
    featureSpecification := .str "A feature." }

def samplePayloadStore : JsonPayloadStore := fun _ _ => .ok samplePayload

def provisioningRegistries : Registries :=
  { sampleRegistries with
    workflows :=
      { byId := [("workflow", sampleWorkflow)]
        byTrigger := [("domain.feature.provisioning.requested", sampleWorkflow)] } }

/-- The planner fails on the first delivery only; the ids grow with the time. -/
def provisioningEnvs (n : ℕ) : Env :=
  { Env.sample provisioningRegistries sampleProposal with
    uuid4 := fun tick => String.ofList (List.replicate tick 'i')
    generatePlan := fun _ _ =>
      if n = 0 then .error (.external "RuntimeError" "planner exploded") else .ok sampleProposal }

theorem provisions_sample : Provisions provisioningRegistries samplePayloadStore samplePointer
    samplePayload sampleWorkflow :=
  ⟨rfl, rfl, rfl, rfl⟩

theorem provisioningEnvs_fails :
    ∀ n < 1, PlannerFails provisioningRegistries sampleWorkflow (provisioningEnvs n) := by
  intro n hn context contextSnapshotRef agentRunId w
  obtain rfl : n = 0 := by omega
  exact ⟨_, rfl⟩

theorem provisioningEnvs_plans :
    PlannerPlans provisioningRegistries sampleWorkflow (provisioningEnvs 1) := by
  intro context contextSnapshotRef agentRunId w
  exact ⟨_, rfl, List.cons_ne_nil _ _⟩

theorem provisioningEnvs_fresh (i j tick tick' : ℕ)
    (h : (provisioningEnvs i).uuid4 tick = (provisioningEnvs j).uuid4 tick') : tick = tick' := by
  have hlength := congrArg String.length h
  simpa [provisioningEnvs] using hlength

theorem retried_until_planned_sample :
    RetriedUntilPlanned provisioningRegistries samplePayloadStore samplePointer provisioningEnvs
      false (fun _ => none) 1 ↔
      1 = 0 ∨ false = false ∨ ¬ NamesRun samplePointer samplePayload :=
  retried_until_planned_iff provisions_sample provisioningEnvs_fails provisioningEnvs_plans
    (by rintro runId ⟨status, -, ⟨⟩⟩) provisioningEnvs_fresh

/-- After one planner failure the pointer is consumed without a plan. -/
theorem failed_plan_not_retried :
    ¬ ∀ (registries : Registries) (payloadStore : JsonPayloadStore)
      (pointer : FeatureProvisioningPointerEvent) (payload : FeatureProvisioningPayload)
      (workflow : WorkflowDefinition) (envs : ℕ → Env) (stored : RunStatuses) (m : ℕ),
      Provisions registries payloadStore pointer payload workflow →
      (∀ n < m, PlannerFails registries workflow (envs n)) →
      (∀ n, m ≤ n → PlannerPlans registries workflow (envs n)) →
      (∀ runId, ¬ stored.Settled pointer.workspaceId runId) →
      (∀ i j tick tick', (envs i).uuid4 tick = (envs j).uuid4 tick' → tick = tick') →
      RetriedUntilPlanned registries payloadStore pointer envs true stored m := by
  intro h
  have hopen : ∀ runId, ¬ RunStatuses.Settled (fun _ => none) samplePointer.workspaceId
      runId := by
    rintro runId ⟨status, -, ⟨⟩⟩
  refine not_retried_of_names provisions_sample provisioningEnvs_fails provisioningEnvs_plans
    hopen one_ne_zero rfl (.inr (by decide)) (h _ _ _ _ _ _ _ 1 provisions_sample
      provisioningEnvs_fails ?_ hopen provisioningEnvs_fresh)
  intro n hn context contextSnapshotRef agentRunId w
  obtain ⟨n, rfl⟩ := Nat.exists_eq_succ_of_ne_zero (by omega : n ≠ 0)
  exact ⟨_, rfl, List.cons_ne_nil _ _⟩

end FeatureProvisioningWorker

end PrismAgent
