import PrismAgent.Application.RecursionRunner
import PrismAgent.Application.Writes
import PrismAgent.Handler.Emits
import PrismAgent.Sequential.Runs

/-!
# What the handlers store and enqueue

The handlers work on runs, plans and source events that belong together: what they read
decides what they store and enqueue. `Spawns` says that a contract allows what follows for
runs `R`, plans `P` and sources `S`, with the asides `A`; such a contract is respected by
every handler.
-/

namespace PrismAgent

open Effect
open SubAgentRunner (subPlanId)
open ActionEventHandler (Continues Delivery Emits EmitsFor Handles respects_call)

namespace Orchestrator

theorem buildOrchestratedGraph_planId {skills : SkillRegistry} {planId : String}
    {context : AgentContext} {workflow : WorkflowDefinition} {graph : TaskGraph}
    (h : buildOrchestratedGraph skills planId context workflow = .ok graph) :
    graph.planId = planId := by
  unfold buildOrchestratedGraph at h
  split at h
  · cases h
    rfl
  · split at h
    · cases h
      rfl
    · next orchestration _ _ =>
        cases hnodes : buildNodes skills workflow orchestration.defaultGraph 0 with
        | error x =>
            rw [hnodes] at h
            cases h
        | ok nodes =>
            cases hsynthesizer : buildSynthesizer skills workflow nodes
                orchestration.synthesizer with
            | error x =>
                simp only [hnodes, bind, Except.bind, hsynthesizer] at h
                cases h
            | ok synthesizer =>
                simp only [hnodes, bind, Except.bind, hsynthesizer] at h
                cases h
                rfl

end Orchestrator

/-- The parts that hold no runs, plans or sources, and no events. -/
def quietParts : List Part :=
  [.subAgentResults, .actionResults, .traces, .idempotencyKeys, .syncCalls, .executions]

/-- The task event of a node, in the wake of `envelope`. -/
def taskEnvelope (envelope : EventEnvelope) (eventId workspaceId : String)
    (projectId : Option String) (runId nodeId : String) : EventEnvelope :=
  .wrap (subAgentTaskEvent eventId workspaceId projectId runId nodeId
    envelope.event.correlationId (envelope.event.causality.child envelope.eventId))

/-- The completion of a node, in the wake of `envelope`. -/
def completedEnvelope (envelope : EventEnvelope) (eventId workspaceId : String)
    (projectId : Option String) (runId nodeId status : String) : EventEnvelope :=
  .wrap (subAgentCompletedEvent eventId workspaceId projectId runId nodeId status
    envelope.event.correlationId (envelope.event.causality.child envelope.eventId) [])

/-- The contract allows what the handling of `envelope` stores and enqueues for runs in `R`,
plans in `P` and sources in `S`. -/
structure Spawns (C : Contract Call Call.Answer Exc) (A : EventEnvelope → Prop)
    (R : String → Prop) (P : AgentPlan → Prop) (S : EventEnvelope → Prop)
    (envelope : EventEnvelope) : Prop where
  quiet : ∀ call, call.writesIn quietParts = true → C.calls call
  claimReadyNodes : ∀ workspaceId runId, C.calls (.claimReadyNodes workspaceId runId)
  advanceTaskGraph : ∀ workspaceId runId nodeId status,
    C.calls (.advanceTaskGraph workspaceId runId nodeId status)
  savePlan : ∀ plan, P plan → C.calls (.savePlan plan)
  updatePlan : ∀ plan, P plan → C.calls (.updatePlan plan)
  saveTaskGraph : ∀ graph, R graph.planId → C.calls (.saveTaskGraph graph)
  saveContextSnapshot : ∀ snapshot, S snapshot.context.sourceEvent →
    C.calls (.saveContextSnapshot snapshot)
  follows : ∀ plan e, P plan → EmitsFor envelope plan e → C.calls (.enqueue e)
  emits : ∀ d, d.envelope = envelope → P d.plan → S d.context.sourceEvent →
    ∀ e, Emits A d e → C.calls (.enqueue e)
  task : ∀ eventId workspaceId projectId runId nodeId, R runId →
    C.calls (.enqueue (taskEnvelope envelope eventId workspaceId projectId runId nodeId))
  completed : ∀ eventId workspaceId projectId runId nodeId status,
    C.calls (.enqueue (completedEnvelope envelope eventId workspaceId projectId runId nodeId
      status))
  getPlan : ∀ workspaceId planId plan,
    C.answers (.getPlan workspaceId planId) (.ok (some plan)) → P plan
  advanced : ∀ workspaceId runId nodeId status advance,
    C.answers (.advanceTaskGraph workspaceId runId nodeId status) (.ok (some advance)) →
      R advance.graph.planId
  getContextSnapshot : ∀ workspaceId snapshotRef snapshot,
    C.answers (.getContextSnapshot workspaceId snapshotRef) (.ok (some snapshot)) →
      S snapshot.context.sourceEvent
  executed : ∀ plan action context result, S context.sourceEvent →
    C.answers (.executeOne plan action context) (.ok result) → ∀ e ∈ result.emittedEvents, A e
  suggestion : ∀ eventId suggestion context, S context.sourceEvent →
    A (.wrap (Validator.suggestionEvent eventId suggestion context))
  planned : ∀ plan runId, R runId →
    (plan.planId = runId ∨
      ∃ nodeId, plan.planId = subPlanId runId nodeId ∧ plan.isSubplan = true) → P plan
  updated : ∀ plan actions status, P plan → P { plan with actions := actions, status := status }

namespace Spawns

variable {C : Contract Call Call.Answer Exc} {A : EventEnvelope → Prop} {R : String → Prop}
  {P : AgentPlan → Prop} {S : EventEnvelope → Prop} {envelope : EventEnvelope}

section Handle

variable (h : Spawns C A R P S envelope)

include h

/-- A program that stores and enqueues nothing respects the contract. -/
theorem respects {α : Type} {parts : List Part} {p : App α} (hp : Writes parts p)
    (hparts : ∀ part ∈ parts, part ∈ quietParts) : p.Respects C fun a => p.MayReturn a := by
  refine Program.OnlyCalls.respects_mayReturn hp fun call hcall => h.quiet call ?_
  unfold Call.writesIn at hcall ⊢
  cases hwrites : call.writes with
  | none => rfl
  | some part =>
      rw [hwrites] at hcall
      exact decide_eq_true (hparts part (of_decide_eq_true hcall))

theorem quiet_call {call : Call} (hcall : call.writesIn quietParts = true) :
    (perform call).Respects C fun _ => True :=
  respects_call (h.quiet call hcall)

theorem trace (event : RuntimeEvent) (eventName : String) (planId actionId : Option String) :
    (PrismAgent.trace event eventName planId actionId).Respects C fun _ => True :=
  h.quiet_call rfl

theorem read_plan (workspaceId planId : String) :
    (perform (.getPlan workspaceId planId)).Respects C
      fun found => ∀ plan, found = some plan → P plan := by
  refine Program.respects_perform (h.quiet _ rfl) fun found hfound plan hplan => ?_
  subst hplan
  exact h.getPlan workspaceId planId plan hfound

theorem read_snapshot (workspaceId snapshotRef : String) :
    (perform (.getContextSnapshot workspaceId snapshotRef)).Respects C
      fun found => ∀ snapshot, found = some snapshot → S snapshot.context.sourceEvent := by
  refine Program.respects_perform (h.quiet _ rfl) fun found hfound snapshot hsnapshot => ?_
  subst hsnapshot
  exact h.getContextSnapshot workspaceId snapshotRef snapshot hfound

theorem continues {plan : AgentPlan} (hplan : P plan) : Continues C envelope plan where
  uuid4 := h.quiet _ rfl
  appendTraceEvent _ := h.quiet _ rfl
  sync _ := h.quiet _ rfl
  enqueue e he := h.follows plan e hplan he

theorem handles {d : Delivery} (henvelope : d.envelope = envelope) (hplan : P d.plan)
    (hsource : S d.context.sourceEvent) : Handles C A d where
  continues := henvelope ▸ h.continues hplan
  getCurrentEntityVersions _ _ _ := h.quiet _ rfl
  saveActionResult _ := h.quiet _ rfl
  recordIdempotencyKey := h.quiet _ rfl
  executeOne := h.quiet _ rfl
  updatePlan _ := h.updatePlan _ (h.updated _ _ _ hplan)
  enqueue e he := h.emits d henvelope hplan hsource e he
  suggestion eventId suggestion := h.suggestion eventId suggestion d.context hsource
  emitted result hresult := h.executed _ _ _ result hsource hresult

/-- What is selected belongs to the plans and the sources. -/
theorem selectAction (planId actionId : String) :
    (ActionEventHandler.selectAction envelope planId actionId).Respects C fun selection =>
      match selection with
      | .notPending plan _ => P plan
      | .duplicate d => d.envelope = envelope ∧ P d.plan ∧ S d.context.sourceEvent
      | .selected d => d.envelope = envelope ∧ P d.plan ∧ S d.context.sourceEvent := by
  refine .bind (h.read_plan _ _) ?_
  rintro (_ | plan) hplan
  · trivial
  · dsimp only
    split
    next => trivial
    next action haction =>
      split
      next => exact hplan plan rfl
      next =>
        refine .bind (h.read_snapshot _ _) ?_
        rintro (_ | snapshot) hsnapshot
        · trivial
        · refine .bind (h.quiet_call rfl) ?_
          rintro (_ | _) -
          · exact ⟨rfl, hplan plan rfl, hsnapshot snapshot rfl⟩
          · exact ⟨rfl, hplan plan rfl, hsnapshot snapshot rfl⟩

/-- What is chained is an event for an action of a plan. -/
theorem handleOne (inline : Bool) :
    (ActionEventHandler.handleOne inline envelope).Respects C fun chained =>
      ∀ e, chained = some e → ∃ plan, P plan ∧ EmitsFor envelope plan e := by
  unfold ActionEventHandler.handleOne
  split
  next planId actionId _ =>
    refine .bind (h.selectAction planId actionId) ?_
    rintro (⟨plan, action⟩ | d | d) hselection
    · refine ((h.continues hselection).skipAction inline action).mono ?_
      exact fun chained hchained e he => ⟨plan, hselection, hchained e he⟩
    · exact .bind (h.trace _ _ _ _) fun _ _ => by rintro _ ⟨⟩
    · obtain ⟨henvelope, hplan, hsource⟩ := hselection
      refine ((h.handles henvelope hplan hsource).decideAction inline).mono ?_
      exact fun chained hchained e he => ⟨d.plan, hplan, henvelope ▸ hchained e he⟩
  next => trivial

end Handle

/-- The chain of inline actions, when the contract also serves what is chained. -/
theorem handle {W : EventEnvelope → Prop} (h : ∀ e, W e → Spawns C A R P S e)
    (hchain : ∀ e plan next, W e → P plan → EmitsFor e plan next → W next) (budget : ℕ)
    {envelope : EventEnvelope} (henvelope : W envelope) :
    (ActionEventHandler.handle budget envelope).Respects C fun _ => True := by
  induction budget generalizing envelope with
  | zero => exact .bind ((h envelope henvelope).handleOne false) fun _ _ => trivial
  | succ budget ih =>
      refine .bind ((h envelope henvelope).handleOne true) ?_
      rintro (_ | next) hnext
      · trivial
      · obtain ⟨plan, hplan, hemits⟩ := hnext next rfl
        exact ih (hchain envelope plan next henvelope hplan hemits)

section Start

variable (h : Spawns C A R P S envelope)

include h

/-- The plan of a node is a plan of its run. -/
theorem planForNode (registries : Registries) (node : SubTask) (context : AgentContext)
    (contextSnapshotRef : String) (workflow : WorkflowDefinition) {runId : String}
    (hrun : R runId) :
    (SubAgentRunner.planForNode registries node context contextSnapshotRef workflow
      runId).Respects C fun plan => P plan := by
  refine (h.respects (SubAgentRunner.planForNode_writes _ _ _ _ _ _) (by simp)).mono
    fun plan hplan => h.planned plan runId hrun ?_
  rcases SubAgentRunner.planForNode_mayReturn hplan with ⟨-, hid⟩ | ⟨-, hsub, hparent, -⟩
  · exact .inl hid
  · refine .inr ⟨node.nodeId, hsub, ?_⟩
    unfold AgentPlan.isSubplan
    rw [hparent]
    rfl

theorem dispatchReady {runId : String} (hrun : R runId) (workspaceId : String)
    (projectId : Option String) (nodes : List SubTask) :
    (DomainEventHandler.dispatchReady envelope workspaceId runId projectId nodes).Respects C
      fun _ => True := by
  induction nodes with
  | nil => trivial
  | cons node nodes ih =>
      refine .bind (h.quiet_call rfl) fun eventId _ => ?_
      refine .bind (respects_call (h.task eventId workspaceId projectId runId node.nodeId hrun))
        fun _ _ => ?_
      exact .bind (h.trace _ _ _ _) fun _ _ => ih

theorem startGraph {snapshot : ContextSnapshot} (hsource : S snapshot.context.sourceEvent)
    {runId : String} (hrun : R runId) {graph : TaskGraph} (hgraph : R graph.planId) :
    (DomainEventHandler.startGraph envelope snapshot runId graph).Respects C
      fun _ => True := by
  refine .bind (respects_call (h.saveContextSnapshot _ hsource)) fun _ _ => ?_
  refine .bind (respects_call (h.saveTaskGraph _ hgraph)) fun _ _ => ?_
  refine .bind (h.trace _ _ _ _) fun _ _ => ?_
  refine .bind (respects_call (h.claimReadyNodes _ _)) fun ready _ => ?_
  split
  · exact .bind (h.quiet_call rfl) fun _ _ => h.trace _ _ _ _
  · exact h.dispatchReady hrun _ _ _

theorem handleOrchestrated (registries : Registries) (workflow : WorkflowDefinition)
    {snapshot : ContextSnapshot} (hsource : S snapshot.context.sourceEvent) {runId : String}
    (hrun : R runId) :
    (DomainEventHandler.handleOrchestrated registries envelope workflow snapshot
      runId).Respects C fun _ => True := by
  refine .bind (h.quiet_call rfl) fun found _ => ?_
  split
  · exact h.trace _ _ _ _
  · refine .bind (h.respects (DomainEventHandler.unlessTerminal_writes _ _ _) (by decide))
      fun started _ => ?_
    split
    · trivial
    · refine .bind (respects_liftExcept _) fun graph hgraph => ?_
      have hplanId := Orchestrator.buildOrchestratedGraph_planId hgraph
      refine h.startGraph hsource hrun ?_
      exact hplanId.symm ▸ hrun

theorem enqueueFirstAction {plan : AgentPlan} (hplan : P plan) :
    (DomainEventHandler.enqueueFirstAction envelope plan).Respects C fun _ => True := by
  unfold DomainEventHandler.enqueueFirstAction
  split
  · split
    · exact h.trace _ _ _ _
    · refine .bind (respects_call (h.updatePlan _ (h.updated plan _ _ hplan))) fun _ _ => ?_
      refine .bind (h.quiet_call rfl) fun _ _ => ?_
      exact .bind (h.trace _ _ _ _) fun _ _ => h.trace _ _ _ _
  next firstAction _ =>
    refine .bind (h.quiet_call rfl) fun eventId _ => ?_
    refine .bind (respects_call (h.follows plan _ hplan (.action eventId firstAction.actionId 0)))
      fun _ _ => ?_
    exact h.trace _ _ _ _

theorem startPlan (registries : Registries) (workflow : WorkflowDefinition)
    {snapshot : ContextSnapshot} (hsource : S snapshot.context.sourceEvent) {runId : String}
    (hrun : R runId) (replan : Bool) :
    (DomainEventHandler.startPlan registries envelope workflow snapshot runId replan).Respects C
      fun _ => True := by
  have hbuild : (DomainEventHandler.buildPlan registries workflow snapshot runId).Respects C
      fun plan => P plan := by
    refine Program.Respects.tryCatch ?_ fun exc => .bind (h.quiet_call rfl) fun _ _ => trivial
    refine .bind (respects_call (h.saveTaskGraph _ hrun)) fun _ _ => ?_
    exact h.planForNode _ _ _ _ _ hrun
  refine .bind (h.respects (DomainEventHandler.startRun_writes _ _ _ _ _) (by decide))
    fun started _ => ?_
  split
  · trivial
  · refine .bind hbuild fun plan hplan => ?_
    refine .bind (respects_call (h.saveContextSnapshot _ hsource)) fun _ _ => ?_
    refine .bind (respects_call (h.savePlan _ hplan)) fun _ _ => .bind (h.quiet_call rfl) ?_
    exact fun _ _ => .bind (h.trace _ _ _ _) fun _ _ => h.enqueueFirstAction hplan

theorem handlePlan (registries : Registries) (workflow : WorkflowDefinition)
    {snapshot : ContextSnapshot} (hsource : S snapshot.context.sourceEvent) {runId : String}
    (hrun : R runId) :
    (DomainEventHandler.handlePlan registries envelope workflow snapshot runId).Respects C
      fun _ => True := by
  refine .bind (h.read_plan _ _) ?_
  rintro (_ | plan) hplan
  · exact h.startPlan registries workflow hsource hrun false
  · dsimp only
    split
    · exact h.startPlan registries workflow hsource hrun true
    · refine .bind (respects_call (h.saveContextSnapshot _ hsource)) fun _ _ => ?_
      exact .bind (h.trace _ _ _ _) fun _ _ => h.enqueueFirstAction (hplan plan rfl)

/-- An event that starts or resumes a run is handled within it. -/
theorem handleDomain (registries : Registries) (hsource : S envelope)
    (hrun : R (runIdOf envelope)) :
    (DomainEventHandler.handle registries envelope).Respects C fun _ => True := by
  unfold DomainEventHandler.handle
  split
  · exact h.trace _ _ _ _
  next workflow _ =>
    refine .bind (h.respects (ContextProvider.hydrate_writes _ _ _) (by simp))
      fun snapshot hsnapshot => ?_
    obtain ⟨-, hcontext⟩ := ContextProvider.hydrate_mayReturn hsnapshot
    rw [resolveAgentRunId_eq hcontext]
    have hstored : S snapshot.context.sourceEvent := hcontext ▸ hsource
    dsimp only
    split
    · exact h.handleOrchestrated registries workflow hstored hrun
    · exact h.handlePlan registries workflow hstored hrun

end Start

section Coordinate

variable (h : Spawns C A R P S envelope)

include h

theorem enqueueAction {subPlan : AgentPlan} (hplan : P subPlan) (action : PlannedAction) :
    (SubAgentCoordinator.enqueueAction envelope subPlan action).Respects C fun _ => True := by
  refine .bind (h.quiet_call rfl) fun eventId _ => ?_
  exact respects_call (h.follows subPlan _ hplan (.action eventId action.actionId 0))

theorem enqueueCompleted (graph : TaskGraph) (nodeId status : String) :
    (SubAgentCoordinator.enqueueCompleted envelope graph nodeId status).Respects C
      fun _ => True :=
  .bind (h.quiet_call rfl) fun eventId _ =>
    respects_call (h.completed eventId _ _ graph.planId nodeId status)

theorem resumeExistingSubplan (graph : TaskGraph) (node : SubTask) {subPlan : AgentPlan}
    (hplan : P subPlan) :
    (SubAgentCoordinator.resumeExistingSubplan envelope graph node subPlan).Respects C
      fun _ => True := by
  have hcompleted : ∀ status, (do
      SubAgentCoordinator.trace envelope.event "subagent.resumed"
      SubAgentCoordinator.enqueueCompleted envelope graph node.nodeId status :
        App Unit).Respects C fun _ => True := fun status =>
    .bind (h.trace _ _ _ _) fun _ _ => h.enqueueCompleted _ _ _
  unfold SubAgentCoordinator.resumeExistingSubplan
  dsimp only
  split
  · exact .bind (h.enqueueAction hplan _) fun _ _ => h.trace _ _ _ _
  · split
    all_goals first | exact hcompleted _ | exact h.trace _ _ _ _

theorem planNode (registries : Registries) (graph : TaskGraph) (node : SubTask)
    (snapshot : ContextSnapshot) {runId : String} (hrun : R runId) :
    (SubAgentCoordinator.planNode registries envelope graph node snapshot runId).Respects C
      fun _ => True := by
  refine .bind (h.respects (SubAgentCoordinator.planningContext_writes _ _ _ _ _) (by simp))
    fun context _ => ?_
  refine .bind (respects_liftExcept _) fun workflow _ => ?_
  refine .bind (h.trace _ _ _ _) fun _ _ => ?_
  refine .bind (h.planForNode _ _ _ _ _ hrun) fun subPlan hplan => ?_
  refine .bind (respects_call (h.savePlan _ hplan)) fun _ _ => ?_
  refine .bind (h.quiet_call rfl) fun _ _ => ?_
  split
  · exact .bind (h.trace _ _ _ _) fun _ _ => h.enqueueCompleted _ _ _
  · exact .bind (h.enqueueAction hplan _) fun _ _ => h.trace _ _ _ _

theorem handleTask (registries : Registries) {runId : String} (hrun : R runId)
    (nodeId : String) :
    (SubAgentCoordinator.handleTask registries envelope runId nodeId).Respects C
      fun _ => True := by
  refine .bind (h.quiet_call rfl) fun found _ => ?_
  split
  · exact h.trace _ _ _ _
  · split
    · exact h.trace _ _ _ _
    · split
      · exact h.trace _ _ _ _
      · refine .bind (h.read_plan _ _) ?_
        rintro (_ | subPlan) hplan
        · refine .bind (h.quiet_call rfl) fun snapshot _ => ?_
          split
          · exact h.trace _ _ _ _
          · exact h.planNode registries _ _ _ hrun
        · exact h.resumeExistingSubplan _ _ (hplan subPlan rfl)

theorem dispatchNode {graph : TaskGraph} (hgraph : R graph.planId) (node : SubTask) :
    (SubAgentCoordinator.dispatchNode envelope graph node).Respects C fun _ => True := by
  refine .bind (h.quiet_call rfl) fun eventId _ => ?_
  refine .bind (respects_call (h.task eventId _ _ graph.planId node.nodeId hgraph)) fun _ _ => ?_
  exact h.trace _ _ _ _

theorem dispatchNodes {graph : TaskGraph} (hgraph : R graph.planId) (nodes : List SubTask) :
    (SubAgentCoordinator.dispatchNodes envelope graph nodes).Respects C fun _ => True := by
  induction nodes with
  | nil => trivial
  | cons node nodes ih => exact .bind (h.dispatchNode hgraph _) fun _ _ => ih

theorem followAdvance (runId : String) {advance : TaskGraphAdvance}
    (hgraph : R advance.graph.planId) :
    (SubAgentCoordinator.followAdvance envelope runId advance).Respects C fun _ => True := by
  have hsynthesizer : (SubAgentCoordinator.dispatchSynthesizer envelope advance).Respects C
      fun _ => True := by
    unfold SubAgentCoordinator.dispatchSynthesizer
    split
    · exact h.dispatchNode hgraph _
    · trivial
  have hcomplete : (SubAgentCoordinator.completeRun envelope.event runId advance).Respects C
      fun _ => True := by
    unfold SubAgentCoordinator.completeRun
    split
    · exact .bind (h.quiet_call rfl) fun _ _ => h.trace _ _ _ _
    · trivial
  refine .bind (h.dispatchNodes hgraph _) fun _ _ => ?_
  refine .bind hsynthesizer fun _ _ => .bind hcomplete fun _ _ => ?_
  unfold SubAgentCoordinator.blockRun
  split
  · exact .bind (h.quiet_call rfl) fun _ _ => h.trace _ _ _ _
  · trivial

theorem handleSettled (runId nodeId : String) (status : SubTaskStatus) :
    (SubAgentCoordinator.handleSettled envelope runId nodeId status).Respects C
      fun _ => True := by
  have hread : (perform (.advanceTaskGraph envelope.event.workspaceId runId nodeId
      status)).Respects C fun found => ∀ advance, found = some advance →
        R advance.graph.planId := by
    refine Program.respects_perform (h.advanceTaskGraph _ _ _ _) fun found hfound advance hadv => ?_
    subst hadv
    exact h.advanced _ _ _ _ advance hfound
  refine .bind hread ?_
  rintro (_ | advance) hadvance
  · exact h.trace _ _ _ _
  · dsimp only
    split
    · exact h.trace _ _ _ _
    · refine .bind (h.respects (SubAgentCoordinator.recordResult_writes _ _ _ _ _) (by decide))
        fun _ _ => ?_
      split
      · exact .bind (h.quiet_call rfl) fun _ _ => h.trace _ _ _ _
      · exact h.followAdvance _ (hadvance advance rfl)

theorem handleCompleted (runId nodeId status : String) :
    (SubAgentCoordinator.handleCompleted envelope runId nodeId status).Respects C
      fun _ => True := by
  unfold SubAgentCoordinator.handleCompleted
  split
  · exact h.handleSettled _ _ _
  · split
    · exact h.handleSettled _ _ _
    · exact h.trace _ _ _ _

end Coordinate

end Spawns

end PrismAgent
