import PrismAgent.Safety.Execution
import PrismAgent.Sequential.Idle

/-!
# Sequential runs are exactly-once

A run delivers, one at a time and any number of times, the seed event and the
events that it enqueues. `exactly_once` says what then holds of the plans, of the
tool calls and of the order between them, as long as the root node of an orchestrated
run is planned once.
-/

namespace PrismAgent

open Effect
open SubAgentRunner (subPlanId)

namespace Planner

/-- A created plan with distinct action ids is ready to run in order. -/
theorem createPlan_orderly {registries : Registries} {context : AgentContext}
    {contextSnapshotRef agentRunId : String} {workflow : WorkflowDefinition} {scope : Scope}
    {plan : AgentPlan} (h : (createPlan registries context contextSnapshotRef workflow
      agentRunId scope).MayReturn plan) :
    plan.workspaceId = context.workspaceId ∧
      plan.planId = orElseText scope.planId agentRunId ∧
      (∀ a ∈ plan.actions, a.status = .pending) ∧
      ((plan.actions.map (·.actionId)).Nodup → plan.Orderly) := by
  obtain ⟨form, proposed, hplanId, hcontext, -, -, rfl⟩ := createPlan_mayReturn h
  refine ⟨congrArg (·.workspaceId) hcontext, hplanId, ?_, normalizePlanForRuntime_orderly⟩
  exact pending_normalizeActions _ _ _ _

end Planner

namespace SubAgentRunner

/-- What a node is planned under: the root under the id of the run. -/
def planIdFor (runId nodeId : String) : String :=
  if nodeId = ROOT_NODE_ID then runId else subPlanId runId nodeId

theorem planForNode_orderly {registries : Registries} {node : SubTask} {context : AgentContext}
    {contextSnapshotRef runId : String} {workflow : WorkflowDefinition} {plan : AgentPlan}
    (h : (planForNode registries node context contextSnapshotRef workflow runId).MayReturn plan) :
    plan.key = (context.workspaceId, planIdFor runId node.nodeId) ∧
      (∀ a ∈ plan.actions, a.status = .pending) ∧
      ((plan.actions.map (·.actionId)).Nodup → plan.Orderly) := by
  unfold planForNode at h
  unfold planIdFor
  split at h
  next hroot =>
    obtain ⟨hworkspace, hplanId, hpending, horderly⟩ := Planner.createPlan_orderly h
    rw [if_pos hroot]
    exact ⟨congrArg₂ Prod.mk hworkspace hplanId, hpending, horderly⟩
  next hroot =>
    obtain ⟨plan', hplan', hreturn⟩ := Program.mayReturn_bind.1 h
    obtain rfl := (Program.mayReturn_pure _).1 hreturn
    obtain ⟨hworkspace, hplanId, hpending, horderly⟩ := Planner.createPlan_orderly hplan'
    have hne : subPlanId runId node.nodeId ≠ "" := by
      intro hempty
      have hlength := congrArg String.length hempty
      simp [subPlanId, String.length_append] at hlength
    rw [if_neg hroot]
    refine ⟨congrArg₂ Prod.mk hworkspace (hplanId.trans (if_neg hne)), hpending, fun hnodup => ?_⟩
    have := horderly hnodup
    exact ⟨this.nodup, this.backward, this.ordered, this.settled, this.live, this.done,
      this.no_replan⟩

end SubAgentRunner

/-- The seed is routed to a workflow with a task graph. -/
def StartsGraph (env : Env) (seed : EventEnvelope) : Prop :=
  ∃ workflow, (route env.registries.workflows seed).workflow = some workflow ∧
    DomainEventHandler.isOrchestrated workflow = true

/-- An action was found stale or ids clash, or the plans are in order. -/
def Holds (orchestrated : Prop) (w : World MemoryStateStore) : Prop :=
  ¬ Regular w ∨ Sequential orchestrated w

section Plans

variable (env : Env) {orchestrated : Prop} {w : World MemoryStateStore} {p : AgentPlan}
  {track : PlanTrack}

/-- Failing a plan keeps its track in order. -/
theorem InOrder.fail (h : InOrder p track) :
    InOrder { p with status := .failed } (track.extend [{ p with status := .failed }] []) := by
  have hprogress : p.Progresses { p with status := .failed } :=
    ⟨rfl, (AgentPlan.Progresses.refl p).actions⟩
  refine ⟨rfl, ?_, fun q hq => ?_, h.orderly.fail, ?_, ?_⟩
  · refine List.pairwise_append.2 ⟨h.writes, List.pairwise_singleton _ _, fun q hq q' hq' => ?_⟩
    rw [List.mem_singleton.1 hq']
    exact (h.leads q hq).trans hprogress
  · rcases List.mem_append.1 hq with hq | hq
    · exact (h.leads q hq).trans hprogress
    · rw [List.mem_singleton.1 hq]
      exact .refl _
  · change ∀ x ∈ track.executions ++ [], x.InTurn
    rw [List.append_nil]
    exact h.executions
  · unfold PlanTrack.successes PlanTrack.extend
    simp only [List.append_nil]
    exact h.successes

/-- The track of a plan that has just been created. -/
theorem inOrder_of_created (horderly : p.Orderly)
    (hpending : ∀ a ∈ p.actions, a.status = .pending) :
    InOrder p (({} : PlanTrack).extend [p] []) := by
  refine ⟨rfl, List.pairwise_singleton _ _, ?_, horderly, List.forall_mem_nil _, fun actionId => ?_⟩
  · intro q hq
    obtain rfl := List.mem_singleton.1 hq
    exact .refl q
  · refine ⟨Nat.zero_le 1, iff_of_false (by rintro ⟨⟩) ?_⟩
    rintro ⟨a, ha, -, hcompleted⟩
    rw [hpending a ha] at hcompleted
    cases hcompleted

/-- A program that only announces, or asks for the next action of a stored plan. -/
theorem wp_asking {α : Type} {program : App α} (h : Sequential orchestrated w)
    (hp : w.store.plans p.key = some p) (hprogram : program.Respects
      (announcing fun e => Announcement e ∨ ActionEventHandler.AsksForNext p e) fun _ => True) :
    program.wp env.sem.step (fun _ t => Sequential orchestrated t) w := by
  refine Program.wp_mono (wp_announcing env hprogram) ?_
  rintro r t ⟨⟨events, hmoves, hevents⟩, -⟩
  refine h.announce hmoves fun e he => (hevents e he).imp_right fun hnext => ⟨p, hp, ?_⟩
  exact asksForReached_of_next (h.inOrder hp).2.orderly hnext

theorem announces_asking : ActionEventHandler.Announces
    (announcing fun e => Announcement e ∨ ActionEventHandler.AsksForNext p e) :=
  announces_announcing fun _ h => .inl h

theorem respects_announcing_call {good : EventEnvelope → Prop} {call : Call}
    (hcall : (announcing good).calls call) :
    (perform call).Respects (announcing good) fun _ => True :=
  Program.respects_perform hcall fun _ _ => trivial

/-- A plan is saved that is in order behind what its track has. -/
theorem sem_saves (h : Sequential orchestrated w) {call : Call}
    (hsaves : Moves w (env.sem call w).2 [p] [] [])
    (hp : InOrder p ((w.track p.key).extend [p] []))
    (hprogress : ∀ q, w.store.plans p.key = some q → q.Progresses p) :
    Sequential orchestrated (env.sem call w).2 ∧ (env.sem call w).2.store.plans p.key = some p := by
  refine ⟨h.moves hsaves (by simp) (by simp) hp hprogress (by simp), ?_⟩
  rw [hsaves.table]
  exact Function.update_self _ _ _

/-- The first action of a plan is enqueued, or a plan with nothing to run fails. -/
theorem enqueueFirstAction_sequential (envelope : EventEnvelope) (h : Sequential orchestrated w)
    (hp : w.store.plans p.key = some p) :
    (DomainEventHandler.enqueueFirstAction envelope p).wp env.sem.step
      (fun _ t => Sequential orchestrated t) w := by
  unfold DomainEventHandler.enqueueFirstAction
  split
  · split
    · exact wp_asking env h hp (announces_asking.trace _ _ _ _)
    · rw [Program.wp_bind, Program.wp_perform_step]
      have horder := (h.inOrder hp).2
      obtain ⟨hw₁, hp₁⟩ := @sem_saves env orchestrated w { p with status := .failed } h
        (.updatePlan { p with status := .failed })
        ⟨rfl, rfl, (List.append_nil _).symm, (List.append_nil _).symm, rfl, rfl⟩
        horder.fail fun q hq => by
          obtain rfl := Option.some.inj (hp.symm.trans hq)
          exact ⟨rfl, (AgentPlan.Progresses.refl p).actions⟩
      exact wp_asking env hw₁ hp₁ (.bind (respects_announcing_call rfl) fun _ _ =>
        .bind (announces_asking.trace _ _ _ _) fun _ _ => announces_asking.trace _ _ _ _)
  next first hfirst =>
    refine wp_asking env h hp (.bind (respects_announcing_call rfl) fun _ _ => ?_)
    refine .bind (respects_announcing_call ?_) fun _ _ => announces_asking.trace _ _ _ _
    exact .inr ⟨first, hfirst, rfl, rfl⟩

/-- A created plan is saved where there was none, and what follows asks for its first action. -/
theorem wp_planned {α : Type} {rest : App α} (h : Sequential orchestrated w)
    (hnone : w.store.plans p.key = none) (hpending : ∀ a ∈ p.actions, a.status = .pending)
    (horderly : (p.actions.map (·.actionId)).Nodup → p.Orderly)
    (hrest : ∀ t, Sequential orchestrated t → t.store.plans p.key = some p →
      rest.wp env.sem.step (fun _ t => Sequential orchestrated t) t) :
    (perform (.savePlan p) >>= fun _ => rest).wp env.sem.step
      (fun _ t => Holds orchestrated t) w := by
  rw [Program.wp_bind, Program.wp_perform_step]
  have hsaved : Moves w (env.sem (.savePlan p) w).2 [p] [] [] :=
    ⟨rfl, rfl, (List.append_nil _).symm, (List.append_nil _).symm, rfl, rfl⟩
  by_cases hnodup : (p.actions.map (·.actionId)).Nodup
  · obtain ⟨ht, hp⟩ := sem_saves env h hsaved
      (by rw [h.track_eq_empty hnone]; exact inOrder_of_created (horderly hnodup) hpending)
      (by rw [hnone]; rintro q ⟨⟩)
    exact Program.wp_mono (hrest _ ht hp) fun _ _ => .inr
  · have hirregular : ¬ Regular (env.sem (.savePlan p) w).2 := by
      intro hregular
      refine hnodup (hregular p ?_).1
      rw [hsaved.planWrites]
      simp
    exact Program.wp_mono (wp_not_regular env _ hirregular) fun _ _ => .inl

/-- A call that moves nothing, in front of what keeps the invariant. -/
theorem wp_still {α : Type} {call : Call} {rest : call.Answer → App α}
    (h : Sequential orchestrated w) (hp : w.store.plans p.key = some p)
    (hcall : call.writesIn unobserved = true)
    (hrest : ∀ a t, Sequential orchestrated t → t.store.plans p.key = some p →
      (rest a).wp env.sem.step (fun _ t => Sequential orchestrated t) t) :
    (perform call >>= rest).wp env.sem.step (fun _ t => Sequential orchestrated t) w := by
  rw [Program.wp_bind, Program.wp_perform_step]
  have hmoves := sem_moves env (w := w) hcall
  have ht := h.announce hmoves (by simp)
  have hkeeps : (env.sem call w).2.store.plans p.key = some p := by
    rw [hmoves.table]
    exact hp
  cases (env.sem call w).1 with
  | error x => exact ht
  | ok a => exact hrest a _ ht hkeeps

end Plans

section Seed

variable (env : Env) {orchestrated : Prop} {seed : EventEnvelope} {w : World MemoryStateStore}
  {p : AgentPlan} {snapshot : ContextSnapshot} {workflow : WorkflowDefinition} {runId : String}

/-- Saving a created plan starts the run in order. -/
theorem savePlan_holds (h : Sequential orchestrated w)
    (hsnapshot : snapshot.context.workspaceId = snapshot.workspaceId)
    (hnone : w.store.plans p.key = none) (hpending : ∀ a ∈ p.actions, a.status = .pending)
    (horderly : (p.actions.map (·.actionId)).Nodup → p.Orderly) :
    (DomainEventHandler.savePlan seed snapshot p false).wp env.sem.step
      (fun _ t => Holds orchestrated t) w := by
  unfold DomainEventHandler.savePlan
  rw [Program.wp_bind, Program.wp_perform_step]
  have hcall : (idle orchestrated).calls
      (.saveContextSnapshot { snapshot with planId := some p.planId }) := hsnapshot
  obtain ⟨-, hidle⟩ := sem_idles env hcall h.tidy
  refine wp_planned env (h.idle hidle) ?_ hpending horderly fun t ht hp => ?_
  · rw [hidle.plans]
    exact hnone
  · refine wp_still env ht hp rfl fun _ t ht hp => ?_
    refine wp_still env ht hp rfl fun _ t ht hp => ?_
    exact enqueueFirstAction_sequential env seed ht hp

/-- A run without a plan stays without one, or gets a plan in order. -/
theorem startPlan_holds (h : Sequential orchestrated w)
    (hsnapshot : snapshot.context.workspaceId = snapshot.workspaceId)
    (hnone : w.store.plans (snapshot.context.workspaceId, runId) = none) :
    (DomainEventHandler.startPlan env.registries seed workflow snapshot runId false).wp
      env.sem.step (fun _ t => Holds orchestrated t) w := by
  have hstart : (DomainEventHandler.startRun seed workflow snapshot runId false).Respects
      (idle orchestrated) _ :=
    (DomainEventHandler.startRun_writes seed workflow snapshot runId false).respects_idle
      (by decide)
  have hbuild : (DomainEventHandler.buildPlan env.registries workflow snapshot runId).Respects
      (idle orchestrated) fun plan => ∃ node : SubTask, node.nodeId = ROOT_NODE_ID ∧
        (SubAgentRunner.planForNode env.registries node snapshot.context snapshot.ref workflow
          runId).MayReturn plan := by
    refine Program.Respects.tryCatch (.bind (respects_idle_call fun _ => ⟨le_refl 1, rfl⟩)
      fun _ _ => ?_) fun exc => .bind (respects_idle_call rfl) fun _ _ => trivial
    refine ((SubAgentRunner.planForNode_writes _ _ _ _ _ _).respects_idle (by simp)).mono ?_
    exact fun plan hplan => ⟨_, rfl, hplan⟩
  unfold DomainEventHandler.startPlan
  rw [Program.wp_bind]
  refine Program.wp_mono (wp_idle env hstart h.tidy) ?_
  rintro (x | _ | _) w₁ ⟨hw₁, -⟩
  · exact .inr (h.idle hw₁)
  · exact .inr (h.idle hw₁)
  rw [Program.andThen_ok]
  dsimp only
  rw [Program.wp_bind]
  refine Program.wp_mono (wp_idle env hbuild hw₁.tidy) ?_
  rintro (x | plan) w₂ ⟨hw₂, hplan⟩
  · exact .inr ((h.idle hw₁).idle hw₂)
  rw [Program.andThen_ok]
  obtain ⟨node, hroot, hreturn⟩ := hplan plan rfl
  obtain ⟨hkey, hpending, horderly⟩ := SubAgentRunner.planForNode_orderly hreturn
  unfold SubAgentRunner.planIdFor at hkey
  rw [if_pos hroot] at hkey
  refine savePlan_holds env ((h.idle hw₁).idle hw₂) hsnapshot ?_ hpending horderly
  rw [hkey, hw₂.plans, hw₁.plans]
  exact hnone

/-- Delivering the seed keeps the invariant. -/
theorem handle_seed_holds (h : Sequential (StartsGraph env seed) w) :
    (DomainEventHandler.handle env.registries seed).wp env.sem.step
      (fun _ t => Holds (StartsGraph env seed) t) w := by
  unfold DomainEventHandler.handle
  split
  · have htrace : ∀ event eventName planId actionId,
        Writes [.traces] (trace event eventName planId actionId) := trace_writes (by decide)
    refine Program.wp_mono (wp_idle env ((htrace _ _ _ _).respects_idle_true (by decide))
      h.tidy) ?_
    exact fun r t ht => .inr (h.idle ht.1)
  next workflow hworkflow =>
    rw [Program.wp_bind]
    refine Program.wp_mono (wp_idle env ((ContextProvider.hydrate_writes _ _ _).respects_idle
      (by simp)) h.tidy) ?_
    rintro (x | snapshot) w₁ ⟨hw₁, hreturn⟩
    · exact .inr (h.idle hw₁)
    have hsnapshot := ContextProvider.hydrate_workspaceId (hreturn snapshot rfl)
    have hw := h.idle hw₁
    rw [Program.andThen_ok]
    dsimp only
    split
    next horchestrated =>
      refine Program.wp_mono (wp_idle env (DomainEventHandler.handleOrchestrated_respects_idle
        ⟨workflow, hworkflow, horchestrated⟩ _ hsnapshot _) hw₁.tidy) ?_
      exact fun r t ht => .inr (hw.idle ht.1)
    next =>
      unfold DomainEventHandler.handlePlan
      rw [Program.wp_bind, Program.wp_perform_step]
      change Program.andThen _ _ _ (.ok (w₁.store.plans _)) { w₁ with tick := w₁.tick + 1 }
      rw [Program.andThen_ok]
      have hw₂ : Sequential (StartsGraph env seed) { w₁ with tick := w₁.tick + 1 } :=
        hw.announce ⟨(List.append_nil _).symm, rfl, (List.append_nil _).symm,
          (List.append_nil _).symm, rfl, rfl⟩ (List.forall_mem_nil _)
      cases hstored : w₁.store.plans (snapshot.context.workspaceId,
          resolveAgentRunId snapshot.context) with
      | none => exact startPlan_holds env hw₂ hsnapshot hstored
      | some p =>
          obtain ⟨hkey, hp⟩ := hw.inOrder hstored
          dsimp only
          rw [if_neg fun hreplan => hp.orderly.no_replan hreplan.1, Program.wp_bind,
            Program.wp_perform_step]
          have hcall : (idle (StartsGraph env seed)).calls
              (.saveContextSnapshot { snapshot with planId := some p.planId }) := hsnapshot
          obtain ⟨-, hidle⟩ := sem_idles env hcall hw₂.tidy
          have hkeeps : (env.sem (.saveContextSnapshot { snapshot with planId := some p.planId })
              { w₁ with tick := w₁.tick + 1 }).2.store.plans p.key = some p := by
            rw [hidle.plans, hkey]
            exact hstored
          refine Program.wp_mono (wp_still env (hw₂.idle hidle) hkeeps rfl fun _ t ht hp =>
            enqueueFirstAction_sequential env seed ht hp) fun _ _ => .inr

end Seed

section Tasks

variable (env : Env) {orchestrated : Prop} {w : World MemoryStateStore} {p : AgentPlan}
  {envelope : EventEnvelope} {runId nodeId : String}

/-- The event starts the root node of a task graph, which is not settled, once more: it has no
sub-plan, but its run has a plan. -/
def ReplansRoot (w : World MemoryStateStore) (envelope : EventEnvelope) : Prop :=
  ∃ runId graph node, envelope.event.kind = .subagentTask runId ROOT_NODE_ID ∧
    w.store.taskGraphs (envelope.event.workspaceId, runId) = some graph ∧
    graph.getNode ROOT_NODE_ID = some node ∧ node.status ≠ .completed ∧ node.status ≠ .failed ∧
    w.store.plans (envelope.event.workspaceId, subPlanId runId ROOT_NODE_ID) = none ∧
    w.store.plans (envelope.event.workspaceId, runId) ≠ none

theorem getNode_nodeId {graph : TaskGraph} {node : SubTask}
    (h : graph.getNode nodeId = some node) : node.nodeId = nodeId := by
  unfold TaskGraph.getNode at h
  split at h
  next found hfound =>
    obtain rfl := Option.some.inj h
    simpa using List.find?_some hfound
  next =>
    split at h
    · split at h
      next hid =>
        obtain rfl := Option.some.inj h
        exact hid
      next => cases h
    · cases h

theorem enqueueAction_asks {next : PlannedAction} (hnext : p.nextPendingAction = some next) :
    (SubAgentCoordinator.enqueueAction envelope p next).Respects
      (announcing fun e => Announcement e ∨ ActionEventHandler.AsksForNext p e) fun _ => True :=
  .bind (respects_announcing_call rfl) fun _ _ =>
    respects_announcing_call (.inr ⟨next, hnext, rfl, rfl⟩)

/-- A sub-plan goes on where it stands. -/
theorem resumeExistingSubplan_sequential (h : Sequential orchestrated w)
    (hp : w.store.plans p.key = some p) (graph : TaskGraph) (node : SubTask) :
    (SubAgentCoordinator.resumeExistingSubplan envelope graph node p).wp env.sem.step
      (fun _ t => Sequential orchestrated t) w := by
  have htrace : ∀ eventName, (SubAgentCoordinator.trace envelope.event eventName).Respects
      (announcing fun e => Announcement e ∨ ActionEventHandler.AsksForNext p e) fun _ => True :=
    fun eventName => respects_announcing_call rfl
  have hcompleted : ∀ status, (SubAgentCoordinator.enqueueCompleted envelope graph node.nodeId
      status).Respects (announcing fun e => Announcement e ∨ ActionEventHandler.AsksForNext p e)
        fun _ => True := fun status =>
    .bind (respects_announcing_call rfl) fun _ _ =>
      respects_announcing_call (.inl (.inr ⟨_, _, _, rfl⟩))
  refine wp_asking env h hp ?_
  unfold SubAgentCoordinator.resumeExistingSubplan
  dsimp only
  split
  next next hnext =>
    exact .bind (enqueueAction_asks hnext) fun _ _ => htrace _
  next =>
    split
    · exact .bind (htrace _) fun _ _ => hcompleted _
    · exact .bind (htrace _) fun _ _ => hcompleted _
    · exact .bind (htrace _) fun _ _ => hcompleted _
    · exact .bind (htrace _) fun _ _ => hcompleted _
    · exact .bind (htrace _) fun _ _ => hcompleted _
    · exact .bind (htrace _) fun _ _ => hcompleted _
    · exact htrace _

/-- A node without a plan gets one in order. -/
theorem planNode_holds {snapshot : ContextSnapshot} {graph : TaskGraph} {node : SubTask}
    (h : Sequential orchestrated w)
    (hnone : w.store.plans (snapshot.context.workspaceId,
      SubAgentRunner.planIdFor runId node.nodeId) = none) :
    (SubAgentCoordinator.planNode env.registries envelope graph node snapshot runId).wp
      env.sem.step (fun _ t => Holds orchestrated t) w := by
  have hcontext : (SubAgentCoordinator.planningContext envelope.event graph node snapshot
      runId).Respects (idle orchestrated) fun context =>
        context.workspaceId = snapshot.context.workspaceId := by
    unfold SubAgentCoordinator.planningContext SubAgentCoordinator.injectResults
    split
    · exact .bind (respects_idle_call rfl) fun _ _ => rfl
    · rfl
  unfold SubAgentCoordinator.planNode
  dsimp only
  rw [Program.wp_bind]
  refine Program.wp_mono (wp_idle env hcontext h.tidy) ?_
  rintro (x | context) w₁ ⟨hw₁, hworkspace⟩
  · exact .inr (h.idle hw₁)
  rw [Program.andThen_ok, Program.wp_bind]
  refine Program.wp_mono (wp_idle env (respects_liftExcept _) hw₁.tidy) ?_
  rintro (x | workflow) w₂ ⟨hw₂, -⟩
  · exact .inr ((h.idle hw₁).idle hw₂)
  rw [Program.andThen_ok, Program.wp_bind]
  refine Program.wp_mono (wp_idle env (respects_idle_call rfl) hw₂.tidy) ?_
  rintro (x | _) w₃ ⟨hw₃, -⟩
  · exact .inr (((h.idle hw₁).idle hw₂).idle hw₃)
  rw [Program.andThen_ok, Program.wp_bind]
  refine Program.wp_mono (wp_idle env ((SubAgentRunner.planForNode_writes _ _ _ _ _
    _).respects_idle (by simp)) hw₃.tidy) ?_
  rintro (x | plan) w₄ ⟨hw₄, hreturn⟩
  · exact .inr ((((h.idle hw₁).idle hw₂).idle hw₃).idle hw₄)
  rw [Program.andThen_ok]
  obtain ⟨hkey, hpending, horderly⟩ := SubAgentRunner.planForNode_orderly (hreturn plan rfl)
  refine wp_planned env ((((h.idle hw₁).idle hw₂).idle hw₃).idle hw₄) ?_ hpending horderly
    fun t ht hp => ?_
  · rw [hkey, hworkspace context rfl, hw₄.plans, hw₃.plans, hw₂.plans, hw₁.plans]
    exact hnone
  · refine wp_still env ht hp rfl fun _ t ht hp => wp_asking env ht hp ?_
    split
    · refine .bind (respects_announcing_call rfl) fun _ _ => ?_
      exact .bind (respects_announcing_call rfl) fun _ _ =>
        respects_announcing_call (.inl (.inr ⟨_, _, _, rfl⟩))
    next first hfirst =>
      exact .bind (enqueueAction_asks hfirst) fun _ _ => respects_announcing_call rfl

/-- The start of a node keeps the invariant, unless it replans the root. -/
theorem handleTask_holds (h : Sequential orchestrated w)
    (hkind : envelope.event.kind = .subagentTask runId nodeId)
    (hroot : ¬ReplansRoot w envelope) :
    (SubAgentCoordinator.handleTask env.registries envelope runId nodeId).wp env.sem.step
      (fun _ t => Holds orchestrated t) w := by
  have htick : ∀ n, Idle orchestrated w { w with tick := n } := fun n =>
    ⟨rfl, rfl, rfl, ⟨[], (List.append_nil _).symm, List.forall_mem_nil _⟩, h.tidy.single,
      h.tidy.contexts⟩
  have htrace : ∀ (eventName : String) (n : ℕ),
      (SubAgentCoordinator.trace envelope.event eventName).wp env.sem.step
        (fun _ t => Holds orchestrated t) { w with tick := n } := by
    intro eventName n
    refine Program.wp_mono (wp_idle env (respects_idle_call rfl) (htick n).tidy) ?_
    exact fun _ t ht => .inr ((h.idle (htick n)).idle ht.1)
  unfold SubAgentCoordinator.handleTask
  dsimp only
  rw [Program.wp_bind, Program.wp_perform_step]
  change Program.andThen _ _ _ (.ok (w.store.taskGraphs _)) { w with tick := w.tick + 1 }
  rw [Program.andThen_ok]
  cases hgraph : w.store.taskGraphs (envelope.event.workspaceId, runId) with
  | none => exact htrace _ _
  | some graph =>
      dsimp only
      cases hnode : graph.getNode nodeId with
      | none => exact htrace _ _
      | some node =>
          dsimp only
          split
          next => exact htrace _ _
          next hopen =>
            rw [Program.wp_bind, Program.wp_perform_step]
            change Program.andThen _ _ _ (.ok (w.store.plans _))
              { w with tick := w.tick + 1 + 1 }
            rw [Program.andThen_ok, getNode_nodeId hnode]
            cases hplan : w.store.plans (envelope.event.workspaceId, subPlanId runId nodeId) with
            | some subPlan =>
                obtain ⟨hkey, -⟩ := h.inOrder hplan
                refine Program.wp_mono (resumeExistingSubplan_sequential env (h.idle (htick _)) ?_
                  graph node) fun _ _ => .inr
                change w.store.plans subPlan.key = some subPlan
                rw [hkey]
                exact hplan
            | none =>
                dsimp only
                rw [Program.wp_bind, Program.wp_perform_step]
                change Program.andThen _ _ _ (.ok (w.store.contextSnapshots _))
                  { w with tick := w.tick + 1 + 1 + 1 }
                rw [Program.andThen_ok]
                cases hcontext : w.store.contextSnapshots (envelope.event.workspaceId,
                    graph.contextSnapshotRef.getD "") with
                | none => exact htrace _ _
                | some snapshot =>
                    refine planNode_holds env (h.idle (htick _)) ?_
                    have hworkspace : snapshot.context.workspaceId = envelope.event.workspaceId :=
                      h.tidy.contexts _ snapshot hcontext
                    rw [hworkspace, getNode_nodeId hnode]
                    change w.store.plans _ = none
                    unfold SubAgentRunner.planIdFor
                    split
                    next hid =>
                      subst hid
                      by_contra hplanned
                      rw [not_or] at hopen
                      exact hroot ⟨runId, graph, node, hkind, hgraph, hnode, hopen.1, hopen.2,
                        hplan, hplanned⟩
                    next => exact hplan

end Tasks

/-- The messages are the seed or events enqueued before their delivery. -/
def Drawn (env : Env) (seed : EventEnvelope) : World MemoryStateStore → List Message → Prop
  | _, [] => True
  | w, message :: messages =>
      (message.envelope = seed ∨ message.envelope ∈ w.queue) ∧
        Drawn env seed (deliver env w message) messages

/-- No delivery replans the root node of a run. -/
def PlansRootOnce (env : Env) : World MemoryStateStore → List Message → Prop
  | _, [] => True
  | w, message :: messages =>
      ¬ReplansRoot w message.envelope ∧ PlansRootOnce env (deliver env w message) messages

/-- What sequential delivery guarantees, for the plan under every key. -/
structure ExactlyOnce (w : World MemoryStateStore) : Prop where
  /-- Every plan written is the same plan as before, and what was COMPLETED stays so. -/
  writes : ∀ key, (w.track key).writes.Pairwise AgentPlan.Progresses
  stored : ∀ key p, w.store.plans key = some p → ∀ q ∈ (w.track key).writes, q.Progresses p
  success_once : ∀ key actionId, (w.track key).successes actionId ≤ 1
  in_turn : ∀ x ∈ w.executions, x.InTurn
  completed : ∀ key p, w.store.plans key = some p → p.status = .completed →
    ∀ a ∈ p.actions, (w.track key).successes a.actionId = 1

section Runs

variable (env : Env) {seed : EventEnvelope}

/-- One delivery keeps the invariant. -/
theorem deliver_holds {w : World MemoryStateStore} {message : Message}
    (h : Holds (StartsGraph env seed) w) (hseed : seed.event.planId? = none)
    (hroot : StartsGraph env seed → ¬ReplansRoot w message.envelope)
    (hmessage : message.envelope = seed ∨ message.envelope ∈ w.queue) :
    Holds (StartsGraph env seed) (deliver env w message) := by
  suffices hwp : (RecursionRunner.dispatch env.registries message).wp env.sem.step
      (fun _ t => Holds (StartsGraph env seed) t) w by
    rw [Program.wp_step_iff] at hwp
    exact hwp
  rcases h with h | h
  · exact Program.wp_mono (wp_not_regular env _ h) fun _ _ => .inl
  rcases hmessage with hmessage | hmessage
  · have hdispatch : RecursionRunner.dispatch env.registries message =
        DomainEventHandler.handle env.registries seed := by
      unfold RecursionRunner.dispatch
      rw [hmessage]
      unfold RuntimeEvent.planId? at hseed
      split at hseed <;> simp_all
    rw [hdispatch]
    exact handle_seed_holds env h
  · rcases h.queue _ hmessage with hannouncement | ⟨hgraph, runId, nodeId, hkind⟩ | hasks
    · refine Program.wp_mono (wp_idle env (dispatch_respects_idle hannouncement) h.tidy) ?_
      exact fun r t ht => .inr (h.idle ht.1)
    · have hdispatch : RecursionRunner.dispatch env.registries message =
          SubAgentCoordinator.handleTask env.registries message.envelope runId nodeId := by
        unfold RecursionRunner.dispatch SubAgentCoordinator.handle
        rw [hkind]
      rw [hdispatch]
      exact handleTask_holds env h hkind (hroot hgraph)
    · have hdispatch : RecursionRunner.dispatch env.registries message =
          ActionEventHandler.handle message.budget message.envelope := by
        obtain ⟨p, -, -, actionId, hkind, -⟩ := hasks
        unfold RecursionRunner.dispatch
        rw [hkind]
      rw [hdispatch]
      exact handle_sequential env message.budget h hasks

theorem deliverAll_holds {w : World MemoryStateStore} {messages : List Message}
    (h : Holds (StartsGraph env seed) w) (hseed : seed.event.planId? = none)
    (hroot : StartsGraph env seed → PlansRootOnce env w messages)
    (hdrawn : Drawn env seed w messages) :
    Holds (StartsGraph env seed) (deliverAll env w messages) := by
  induction messages generalizing w with
  | nil => exact h
  | cons message messages ih =>
      exact ih (deliver_holds env h hseed (fun hgraph => (hroot hgraph).1) hdrawn.1)
        (fun hgraph => (hroot hgraph).2) hdrawn.2

/-- What is in order is exactly-once. -/
theorem Sequential.exactlyOnce {orchestrated : Prop} {w : World MemoryStateStore}
    (h : Sequential orchestrated w) : ExactlyOnce w := by
  refine ⟨fun key => ?_, fun key p hp => (h.inOrder hp).2.leads, fun key actionId => ?_,
    fun x hx => ?_, fun key p hp hcompleted a ha => ?_⟩
  · rcases h.tracks key with hempty | ⟨p, -, hp⟩
    · rw [hempty]
      exact .nil
    · exact hp.writes
  · rcases h.tracks key with hempty | ⟨p, -, hp⟩
    · rw [hempty]
      exact Nat.zero_le 1
    · exact (hp.successes actionId).1
  · have hmem : x ∈ (w.track x.plan.key).executions :=
      List.mem_filter.2 ⟨hx, decide_eq_true rfl⟩
    rcases h.tracks x.plan.key with hempty | ⟨p, -, hp⟩
    · rw [hempty] at hmem
      cases hmem
    · exact hp.executions x hmem
  · obtain ⟨-, hp⟩ := h.inOrder hp
    exact (hp.successes a.actionId).2.2 ⟨a, ha, rfl, hp.orderly.done hcompleted a ha⟩

/-- Sequential at-least-once delivery is exactly-once: whatever the tools answer, if no
action is found stale, the planned action ids are distinct and no delivery replans the root
node of a task graph, no plan is ever replaced, a tool succeeds at most once for an action
and only in turn, what is COMPLETED stays COMPLETED, and a plan is COMPLETED only after
every tool has succeeded. -/
theorem exactly_once {messages : List Message} (hseed : seed.event.planId? = none)
    (hdrawn : Drawn env seed { store := {} } messages)
    (hregular : Regular (deliverAll env { store := ({} : MemoryStateStore) } messages))
    (hroot : StartsGraph env seed → PlansRootOnce env { store := {} } messages) :
    ExactlyOnce (deliverAll env { store := ({} : MemoryStateStore) } messages) := by
  have hempty : Sequential (StartsGraph env seed) ({ store := {} } : World MemoryStateStore) := by
    refine ⟨fun _ => .inl rfl, List.forall_mem_nil _, fun _ => ?_, ?_⟩
    · rintro key g ⟨⟩
    · rintro key snapshot ⟨⟩
  rcases deliverAll_holds env (.inr hempty) hseed hroot hdrawn with h | h
  · exact absurd hregular h
  · exact h.exactlyOnce

end Runs

section Samples

/-- The seed, its first action and a duplicate of each. -/
def sampleMessages : List Message :=
  [{ envelope := sampleSeed }, { envelope := sampleRequested }, { envelope := sampleSeed },
    { envelope := sampleRequested }]

/-- `sampleWorkflow` with a task graph of one node, which is named like a root. -/
def rootedWorkflow : WorkflowDefinition :=
  { sampleWorkflow with
    orchestration := some { defaultGraph := [{ node := ROOT_NODE_ID, skill := some "skill" }] } }

def rootedEnv : Env :=
  Env.sample
    { sampleRegistries with
      workflows :=
        { byId := [("workflow", rootedWorkflow)]
          byTrigger := [("domain.story.created", rootedWorkflow)] } } sampleProposal

/-- The task event of the root node. -/
def rootTask : EventEnvelope :=
  .wrap (subAgentTaskEvent "10" "ws" none "run" ROOT_NODE_ID none
    { rootEventId := some "run", parentEventId := some "run", depth := 1, chain := ["run"] })

/-- The first action of the plan that it makes. -/
def rootAction : EventEnvelope :=
  .wrap (agentActionEvent "20" "ws" none "run" "a" none
    { rootEventId := some "run", parentEventId := some "10", depth := 2, chain := ["run", "10"] })

/-- The task graph is started, its root is planned and the plan is completed; then the seed and
the action are delivered again. -/
def rootedMessages : List Message :=
  [{ envelope := sampleSeed }, { envelope := rootTask }, { envelope := rootAction },
    { envelope := sampleSeed }, { envelope := rootAction }]

theorem drawn_rootedMessages : Drawn rootedEnv sampleSeed { store := {} } rootedMessages :=
  ⟨.inl rfl, .inr (.head _), .inr (.tail _ (.head _)), .inl rfl, .inr (.tail _ (.head _)), trivial⟩

theorem exactly_once_sample :
    ExactlyOnce (deliverAll rootedEnv { store := ({} : MemoryStateStore) } rootedMessages) ∧
      (deliverAll rootedEnv { store := ({} : MemoryStateStore) } rootedMessages).executions.length
        = 2 := by
  refine ⟨?_, by decide⟩
  refine exactly_once rootedEnv rfl drawn_rootedMessages (by decide) fun _ => ?_
  have hother : ∀ (w : World MemoryStateStore) (e : EventEnvelope),
      (∀ runId, e.event.kind ≠ .subagentTask runId ROOT_NODE_ID) → ¬ReplansRoot w e := by
    rintro w e hkind ⟨runId, -, -, hroot, -⟩
    exact hkind runId hroot
  refine ⟨hother _ _ (by rintro runId ⟨⟩), ?_, hother _ _ (by rintro runId ⟨⟩),
    hother _ _ (by rintro runId ⟨⟩), hother _ _ (by rintro runId ⟨⟩), trivial⟩
  rintro ⟨runId, -, -, hkind, -, -, -, -, -, hplanned⟩
  obtain ⟨rfl, -⟩ := EventKind.subagentTask.inj hkind
  exact hplanned rfl

/-- A duplicate of the task event of a node that is named like a root replaces the COMPLETED
plan of its run. -/
theorem root_replanned :
    ¬ ∀ (env : Env) (seed : EventEnvelope) (messages : List Message),
      seed.event.planId? = none → Drawn env seed { store := {} } messages →
        Regular (deliverAll env { store := ({} : MemoryStateStore) } messages) →
          ExactlyOnce (deliverAll env { store := ({} : MemoryStateStore) } messages) := by
  intro h
  have hdrawn : Drawn rootedEnv sampleSeed { store := {} }
      [{ envelope := sampleSeed }, { envelope := rootTask }, { envelope := rootAction },
        { envelope := rootTask }] :=
    ⟨.inl rfl, .inr (.head _), .inr (.tail _ (.head _)), .inr (.head _), trivial⟩
  have hpending : ((deliverAll rootedEnv { store := ({} : MemoryStateStore) }
      [{ envelope := sampleSeed }, { envelope := rootTask }, { envelope := rootAction },
        { envelope := rootTask }]).store.plans ("ws", "run")).map
          (fun p => p.actions.map (·.status)) = some [.pending, .pending] := by
    decide
  have hcompleted : ((deliverAll rootedEnv { store := ({} : MemoryStateStore) }
      [{ envelope := sampleSeed }, { envelope := rootTask }, { envelope := rootAction },
        { envelope := rootTask }]).track ("ws", "run")).writes.any
          (fun q => q.actions.map (·.status) = [.completed, .completed]) = true := by
    decide
  obtain ⟨p, hp, hpstatuses⟩ := Option.map_eq_some_iff.1 hpending
  obtain ⟨q, hq, hqstatuses⟩ := List.any_eq_true.1 hcompleted
  have hprogress := (h rootedEnv sampleSeed _ rfl hdrawn (by decide)).stored _ p hp q hq
  have hstatuses : List.Forall₂ (fun status status' => status = .completed → status' = .completed)
      (q.actions.map (·.status)) (p.actions.map (·.status)) := by
    rw [List.forall₂_map_left_iff, List.forall₂_map_right_iff]
    exact hprogress.actions.imp fun _ _ hactions => hactions.2
  rw [hpstatuses, of_decide_eq_true hqstatuses] at hstatuses
  cases hstatuses with
  | cons hfirst _ => cases hfirst rfl

end Samples

end PrismAgent
