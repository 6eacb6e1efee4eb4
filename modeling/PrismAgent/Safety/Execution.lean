import PrismAgent.Application.RecursionRunner
import PrismAgent.Handler.Entry
import PrismAgent.Safety.Planning

/-!
# Only approved actions execute

The contract `capability` lets a program write approved plans and execute actions
of such plans that need no approval and are permitted, provided that it is given
approved plans. Every handler respects it, so over the in-memory store no
delivery ever executes anything else.
-/

namespace PrismAgent

open Effect

/-- A workflow that the registry hands out. -/
def Registered (registries : Registries) (workflow : WorkflowDefinition) : Prop :=
  (∃ triggerKey, registries.workflows.getByTrigger triggerKey = some workflow) ∨
    ∃ workflowId, registries.workflows.get workflowId = .ok workflow

/-- The plan was created for a registered workflow. -/
def Approved (registries : Registries) (plan : AgentPlan) : Prop :=
  ∃ workflow skillNames, Registered registries workflow ∧
    PlannedFor registries workflow skillNames plan

/-- Plans are approved and only approved, permitted actions run. -/
def capability (registries : Registries) : Contract Call Call.Answer Exc where
  calls
    | .savePlan plan => Approved registries plan
    | .updatePlan plan => Approved registries plan
    | .executeOne plan action context =>
        Approved registries plan ∧ action ∈ plan.actions ∧ action.requiresApproval = false ∧
          context.permissions.lookup action.toolName ≠ some false
    | _ => True
  answers
    | .getPlan _ _, .ok (some plan) => Approved registries plan
    | _, _ => True

namespace Approved

variable {registries : Registries} {plan : AgentPlan}

theorem replaceAction (h : Approved registries plan) {action : PlannedAction}
    (haction : action ∈ plan.actions) (status : ActionStatus) :
    Approved registries (plan.replaceAction (action.withStatus status)) := by
  obtain ⟨workflow, skillNames, hregistered, origin, hcreated, hdescends⟩ := h
  exact ⟨workflow, skillNames, hregistered, origin, hcreated,
    hdescends.replaceAction haction status⟩

theorem withPlanStatus (h : Approved registries plan) (status : PlanStatus) :
    Approved registries { plan with status := status } := by
  obtain ⟨workflow, skillNames, hregistered, origin, hcreated, hdescends⟩ := h
  exact ⟨workflow, skillNames, hregistered, origin, hcreated, hdescends.planId,
    hdescends.workspaceId, hdescends.promptId, hdescends.promptVersion, hdescends.skillIds,
    hdescends.toolNames, hdescends.contextSnapshotRef, hdescends.actions⟩

end Approved

section Respects

variable {registries : Registries} {α : Type}

/-- A program that writes no plan and executes nothing respects the contract. -/
theorem Writes.respects {parts : List Part} {p : App α} (hp : Writes parts p)
    (hplans : .plans ∉ parts) (hexecutions : .executions ∉ parts) :
    p.Respects (capability registries) fun a => p.MayReturn a := by
  refine Program.OnlyCalls.respects_mayReturn hp fun call hcall => ?_
  unfold Call.writesIn at hcall
  cases call with
  | savePlan => exact absurd (by simpa [Call.writes] using hcall) hplans
  | updatePlan => exact absurd (by simpa [Call.writes] using hcall) hplans
  | executeOne => exact absurd (by simpa [Call.writes] using hcall) hexecutions
  | _ => trivial

theorem Writes.respects_true {parts : List Part} {p : App α} (hp : Writes parts p)
    (hplans : .plans ∉ parts) (hexecutions : .executions ∉ parts) :
    p.Respects (capability registries) fun _ => True :=
  (hp.respects hplans hexecutions).mono fun _ _ => trivial

end Respects

namespace ActionEventHandler

variable {registries : Registries}

/-- A selected action comes with its approved plan. -/
theorem selectAction_respects (envelope : EventEnvelope) (planId actionId : String) :
    (selectAction envelope planId actionId).Respects (capability registries) fun selection =>
      ∀ d, selection = .selected d →
        Approved registries d.plan ∧ d.action ∈ d.plan.actions := by
  refine Program.Respects.bind (Program.respects_perform trivial fun _ h => h) ?_
  rintro (_ | plan) hplan
  · trivial
  · change Approved registries plan at hplan
    dsimp only
    split
    next => trivial
    next action haction =>
      split
      next =>
        rintro d ⟨⟩
      next =>
        refine Program.Respects.bind (Program.respects_perform trivial fun _ h => h) ?_
        rintro (_ | snapshot) -
        · trivial
        · refine Program.Respects.bind (Program.respects_perform trivial fun _ h => h) ?_
          rintro (_ | _) -
          · rintro d ⟨⟩
            exact ⟨hplan, AgentPlan.mem_of_getAction haction⟩
          · rintro d ⟨⟩

/-- The validation lets an action run only when it is permitted and needs no
approval. -/
theorem validateBeforeExecution_respects (action : PlannedAction) (context : AgentContext) :
    (Validator.validateBeforeExecution action context).Respects (capability registries)
      fun validation =>
        (validation.decision = .suggest ∨ validation.decision = .replan ∨
          validation.decision = .fail) ∨
        (action.requiresApproval = false ∧
          context.permissions.lookup action.toolName ≠ some false) := by
  unfold Validator.validateBeforeExecution
  split
  · exact .inl (.inr (.inr rfl))
  next hpermitted =>
    refine Program.Respects.bind (Program.respects_perform trivial fun _ h => h) ?_
    rintro currentVersions -
    dsimp only
    split
    · exact .inl (.inr (.inl rfl))
    · split
      · refine Program.Respects.bind (Program.respects_perform trivial fun _ h => h) ?_
        rintro suggestionId -
        refine Program.Respects.bind (Program.respects_perform trivial fun _ h => h) ?_
        rintro eventId -
        exact .inl (.inl rfl)
      next happroval =>
        refine .inr ⟨by simpa using happroval, ?_⟩
        intro hdenied
        rw [hdenied] at hpermitted
        exact hpermitted rfl

section Decision

variable {d : Delivery} (hplan : Approved registries d.plan) (haction : d.action ∈ d.plan.actions)

include hplan haction

theorem admits_capability : Admits (capability registries).calls d where
  uuid4 := trivial
  appendTraceEvent _ := trivial
  enqueue _ := trivial
  sync _ := trivial
  saveActionResult _ := trivial
  recordIdempotencyKey := trivial
  updatePlan status := hplan.replaceAction haction status

theorem execute_respects (inline : Bool) (happroval : d.action.requiresApproval = false)
    (hpermitted : d.context.permissions.lookup d.action.toolName ≠ some false) :
    (execute inline d).Respects (capability registries) fun _ => True := by
  have h := admits_capability hplan haction
  have hcalls : ∀ {α : Type} {p : App α}, p.OnlyCalls (capability registries).calls →
      p.Respects (capability registries) fun _ => True := fun hp => hp.respects fun _ => id
  refine Program.Respects.bind (hcalls (h.report _ _ _)) fun _ _ => ?_
  refine Program.Respects.bind (hcalls (h.save _)) fun _ _ => ?_
  refine Program.Respects.bind (hcalls (h.deliveryTrace _)) fun _ _ => ?_
  refine Program.Respects.bind (Program.Respects.attempt (Program.respects_perform
    ⟨hplan, haction, happroval, hpermitted⟩ fun _ _ => trivial)) fun answer _ => ?_
  exact hcalls (h.settleExecution inline answer)

theorem decideAction_respects (inline : Bool) :
    (decideAction inline d).Respects (capability registries) fun _ => True := by
  have h := admits_capability hplan haction
  have hcalls : ∀ {α : Type} {p : App α}, p.OnlyCalls (capability registries).calls →
      p.Respects (capability registries) fun _ => True := fun hp => hp.respects fun _ => id
  refine Program.Respects.bind (hcalls (h.deliveryTrace _)) fun _ _ => ?_
  refine Program.Respects.bind (validateBeforeExecution_respects _ _) fun validation hv => ?_
  refine Program.Respects.bind (hcalls (h.deliveryTrace _)) fun _ _ => ?_
  unfold actOn
  rcases hv with (hv | hv | hv) | ⟨happroval, hpermitted⟩
  · rw [hv]
    exact Program.Respects.bind (hcalls (h.requireApproval _)) fun _ _ => trivial
  · rw [hv]
    exact Program.Respects.bind (hcalls (h.rejectStale _)) fun _ _ => trivial
  · rw [hv]
    exact Program.Respects.bind (hcalls (h.rejectInvalid _)) fun _ _ => trivial
  · split
    · exact Program.Respects.bind (hcalls (h.requireApproval _)) fun _ _ => trivial
    · exact Program.Respects.bind (hcalls (h.rejectStale _)) fun _ _ => trivial
    · exact Program.Respects.bind (hcalls (h.rejectInvalid _)) fun _ _ => trivial
    · exact execute_respects hplan haction inline happroval hpermitted

end Decision

theorem handleOne_respects (inline : Bool) (envelope : EventEnvelope) :
    (handleOne inline envelope).Respects (capability registries) fun _ => True := by
  have hannounces : Announces (capability registries) :=
    ⟨trivial, fun _ => trivial, fun _ => trivial, fun _ _ _ _ _ => trivial⟩
  unfold handleOne
  split
  next planId actionId _ =>
    refine Program.Respects.bind (selectAction_respects envelope planId actionId) ?_
    rintro (⟨plan, action⟩ | d | d) hselection
    · exact (hannounces.skipAction _ _ _ _ fun _ _ => trivial).mono fun _ _ => trivial
    · exact Program.Respects.bind (hannounces.trace _ _ _ _) fun _ _ => trivial
    · obtain ⟨hplan, haction⟩ := hselection d rfl
      exact decideAction_respects hplan haction inline
  next => trivial

theorem handle_respects (budget : ℕ) (envelope : EventEnvelope) :
    (handle budget envelope).Respects (capability registries) fun _ => True := by
  induction budget generalizing envelope with
  | zero => exact Program.Respects.bind (handleOne_respects _ _) fun _ _ => trivial
  | succ budget ih =>
      refine Program.Respects.bind (handleOne_respects _ _) ?_
      rintro (_ | next) -
      · trivial
      · exact ih next

end ActionEventHandler

section Planning

variable {registries : Registries} {workflow : WorkflowDefinition}

/-- A planned node is planned for the node's workflow. -/
theorem SubAgentRunner.planForNode_respects (hworkflow : Registered registries workflow)
    (node : SubTask) (context : AgentContext) (contextSnapshotRef agentRunId : String) :
    (planForNode registries node context contextSnapshotRef workflow agentRunId).Respects
      (capability registries) fun plan => Approved registries plan := by
  have hcreate : ∀ scope, (Planner.createPlan registries context contextSnapshotRef workflow
      agentRunId scope).Respects (capability registries) fun plan =>
        CreatedFor registries workflow (scope.skillIds.getD workflow.requiredSkills) plan := by
    intro scope
    refine ((Planner.createPlan_writes _ _ _ _ _ _).respects (by simp) (by simp)).mono ?_
    exact fun plan hplan => ⟨_, _, _, scope, rfl, hplan⟩
  unfold planForNode
  split
  · refine (hcreate _).mono fun plan hplan => ?_
    exact ⟨workflow, _, hworkflow, plan, hplan, .refl plan⟩
  · refine Program.Respects.bind (hcreate _) fun plan hplan => ?_
    exact ⟨workflow, _, hworkflow, plan, hplan, rfl, rfl, rfl, rfl, rfl, rfl, rfl,
      (Descends.refl plan).actions⟩

namespace DomainEventHandler

variable (envelope : EventEnvelope)

theorem enqueueFirstAction_respects {plan : AgentPlan} (hplan : Approved registries plan) :
    (enqueueFirstAction envelope plan).Respects (capability registries) fun _ => True := by
  have htrace : ∀ eventName planId actionId, (trace envelope eventName planId actionId).Respects
      (capability registries) fun _ => True := fun eventName planId actionId =>
    Program.respects_perform trivial fun _ _ => trivial
  have hperform : ∀ {call : Call}, (capability registries).calls call →
      (perform call).Respects (capability registries) fun _ => True := fun h =>
    Program.respects_perform h fun _ _ => trivial
  unfold enqueueFirstAction
  split
  · split
    · exact htrace _ _ _
    · refine Program.Respects.bind (hperform (hplan.withPlanStatus .failed)) fun _ _ => ?_
      refine Program.Respects.bind (hperform trivial) fun _ _ => ?_
      exact Program.Respects.bind (htrace _ _ _) fun _ _ => htrace _ _ _
  · refine Program.Respects.bind (hperform trivial) fun eventId _ => ?_
    exact Program.Respects.bind (hperform trivial) fun _ _ => htrace _ _ _

theorem startPlan_respects (hworkflow : Registered registries workflow)
    (snapshot : ContextSnapshot) (agentRunId : String) (replan : Bool) :
    (startPlan registries envelope workflow snapshot agentRunId replan).Respects
      (capability registries) fun _ => True := by
  have hperform : ∀ {call : Call}, (capability registries).calls call →
      (perform call).Respects (capability registries) fun _ => True := fun h =>
    Program.respects_perform h fun _ _ => trivial
  have hbuild : (buildPlan registries workflow snapshot agentRunId).Respects
      (capability registries) fun plan => Approved registries plan := by
    refine Program.Respects.tryCatch (Program.Respects.bind (hperform trivial) fun _ _ => ?_)
      fun exc => Program.Respects.bind (hperform trivial) fun _ _ => trivial
    exact SubAgentRunner.planForNode_respects hworkflow _ _ _ _
  refine Program.Respects.bind ((startRun_writes _ _ _ _ _).respects_true (by decide)
    (by decide)) ?_
  rintro (_ | _) -
  · trivial
  · refine Program.Respects.bind hbuild fun plan hplan => ?_
    refine Program.Respects.bind (hperform trivial) fun _ _ => ?_
    refine Program.Respects.bind (hperform hplan) fun _ _ => ?_
    refine Program.Respects.bind (hperform trivial) fun _ _ => ?_
    refine Program.Respects.bind (hperform trivial) fun _ _ => ?_
    exact enqueueFirstAction_respects envelope hplan

theorem handlePlan_respects (hworkflow : Registered registries workflow)
    (snapshot : ContextSnapshot) (agentRunId : String) :
    (handlePlan registries envelope workflow snapshot agentRunId).Respects
      (capability registries) fun _ => True := by
  have hperform : ∀ {call : Call}, (capability registries).calls call →
      (perform call).Respects (capability registries) fun _ => True := fun h =>
    Program.respects_perform h fun _ _ => trivial
  refine Program.Respects.bind (Program.respects_perform trivial fun _ h => h) ?_
  rintro (_ | plan) hplan
  · exact startPlan_respects envelope hworkflow snapshot agentRunId false
  · dsimp only
    split
    · exact startPlan_respects envelope hworkflow snapshot agentRunId true
    · refine Program.Respects.bind (hperform trivial) fun _ _ => ?_
      refine Program.Respects.bind (hperform trivial) fun _ _ => ?_
      exact enqueueFirstAction_respects envelope hplan

theorem handle_respects :
    (handle registries envelope).Respects (capability registries) fun _ => True := by
  unfold handle
  split
  · exact Program.respects_perform trivial fun _ _ => trivial
  next workflow hworkflow =>
    have hregistered : Registered registries workflow := by
      unfold route at hworkflow
      dsimp only at hworkflow
      split at hworkflow
      · exact .inl ⟨_, hworkflow⟩
      · cases hworkflow
    refine Program.Respects.bind ((ContextProvider.hydrate_writes _ _ _).respects_true (by simp)
      (by simp)) fun snapshot _ => ?_
    split
    · exact (handleOrchestrated_writes _ _ _ _ _).respects_true (by decide) (by decide)
    · exact handlePlan_respects envelope hregistered snapshot _

end DomainEventHandler

namespace SubAgentCoordinator

variable (envelope : EventEnvelope)

theorem planNode_respects (graph : TaskGraph) (node : SubTask) (snapshot : ContextSnapshot)
    (runId : String) :
    (planNode registries envelope graph node snapshot runId).Respects (capability registries)
      fun _ => True := by
  have hperform : ∀ {call : Call}, (capability registries).calls call →
      (perform call).Respects (capability registries) fun _ => True := fun h =>
    Program.respects_perform h fun _ _ => trivial
  refine Program.Respects.bind ((planningContext_writes _ _ _ _ _).respects_true (by simp)
    (by simp)) fun context _ => ?_
  refine Program.Respects.bind (respects_liftExcept _) fun workflow hworkflow => ?_
  refine Program.Respects.bind (hperform trivial) fun _ _ => ?_
  refine Program.Respects.bind (SubAgentRunner.planForNode_respects (.inr ⟨_, hworkflow⟩) _ _ _ _)
    fun subPlan hsubPlan => ?_
  refine Program.Respects.bind (hperform hsubPlan) fun _ _ => ?_
  refine Program.Respects.bind (hperform trivial) fun _ _ => ?_
  split
  · refine Program.Respects.bind (hperform trivial) fun _ _ => ?_
    exact (enqueueCompleted_writes _ _ _ _).respects_true (by decide) (by decide)
  · refine Program.Respects.bind ((enqueueAction_writes _ _ _).respects_true (by decide)
      (by decide)) fun _ _ => ?_
    exact hperform trivial

theorem handleTask_respects (runId nodeId : String) :
    (handleTask registries envelope runId nodeId).Respects (capability registries)
      fun _ => True := by
  have hperform : ∀ {call : Call}, (capability registries).calls call →
      (perform call).Respects (capability registries) fun _ => True := fun h =>
    Program.respects_perform h fun _ _ => trivial
  refine Program.Respects.bind (hperform trivial) fun found _ => ?_
  split
  · exact hperform trivial
  · split
    · exact hperform trivial
    · split
      · exact hperform trivial
      · refine Program.Respects.bind (hperform trivial) fun subPlan _ => ?_
        split
        · exact (resumeExistingSubplan_writes _ _ _ _).respects_true (by decide) (by decide)
        · refine Program.Respects.bind (hperform trivial) fun snapshot _ => ?_
          split
          · exact hperform trivial
          · exact planNode_respects envelope _ _ _ _

end SubAgentCoordinator

end Planning

/-- Every delivery respects the contract. -/
theorem RecursionRunner.dispatch_respects (registries : Registries) (message : Message) :
    (dispatch registries message).Respects (capability registries) fun _ => True := by
  have hcompleted : ∀ runId nodeId status, (SubAgentCoordinator.handleCompleted
      message.envelope runId nodeId status).Respects (capability registries) fun _ => True :=
    fun _ _ _ => (SubAgentCoordinator.handleCompleted_writes _ _ _ _).respects_true (by decide)
      (by decide)
  unfold dispatch
  split
  · exact ActionEventHandler.handle_respects _ _
  next hkind =>
    unfold SubAgentCoordinator.handle
    rw [hkind]
    exact SubAgentCoordinator.handleTask_respects _ _ _
  next hkind =>
    unfold SubAgentCoordinator.handle
    rw [hkind]
    exact hcompleted _ _ _
  · exact DomainEventHandler.handle_respects _

/-- The execution is of an action of an approved plan; whatever workflow and skills
the plan was created for, they allow the tool and commit it without an approval;
and its context does not deny it. -/
structure Execution.Safe (registries : Registries) (x : Execution) : Prop where
  action_mem : x.action ∈ x.plan.actions
  approved : Approved registries x.plan
  tool : ∀ workflow skillNames, PlannedFor registries workflow skillNames x.plan →
    ∃ allowed, registries.skills.allowedToolsFor skillNames = .ok allowed ∧
      x.action.toolName ∈ allowed ∧
      effectiveMode registries workflow x.action.toolName = .autoCommit
  permitted : x.context.permissions.lookup x.action.toolName ≠ some false

/-- All stored plans are approved and all executions so far were safe. -/
structure Capable (registries : Registries) (w : World MemoryStateStore) : Prop where
  plans : ∀ key plan, w.store.plans key = some plan → Approved registries plan
  executions : ∀ x ∈ w.executions, x.Safe registries

section Runs

variable (env : Env)

/-- Saving an approved plan keeps the invariant. -/
theorem capable_savePlan {w w' : World MemoryStateStore} {plan : AgentPlan}
    (h : Capable env.registries w) (hplan : Approved env.registries plan)
    (hplans : w'.store.plans =
      Function.update w.store.plans (plan.workspaceId, plan.planId) (some plan))
    (hexecutions : w'.executions = w.executions) : Capable env.registries w' := by
  constructor
  · intro key stored hstored
    rw [hplans] at hstored
    by_cases hkey : key = (plan.workspaceId, plan.planId)
    · subst hkey
      rw [Function.update_self] at hstored
      rwa [← Option.some.inj hstored]
    · rw [Function.update_of_ne hkey] at hstored
      exact h.plans key stored hstored
  · rw [hexecutions]
    exact h.executions

/-- A call of the contract keeps the invariant and answers by the contract. -/
theorem sem_capable {w : World MemoryStateStore} {call : Call}
    (hcall : (capability env.registries).calls call) (h : Capable env.registries w) :
    (capability env.registries).answers call (env.sem call w).1 ∧
      Capable env.registries (env.sem call w).2 := by
  have hframe : call.writes ≠ some .plans → call.writes ≠ some .executions →
      Capable env.registries (env.sem call w).2 := by
    intro hplans hexecutions
    constructor
    · rw [(sem_same env (w := w) hplans).1]
      exact h.plans
    · have hsame : (env.sem call w).2.executions = w.executions :=
        sem_same env (w := w) hexecutions
      rw [hsame]
      exact h.executions
  cases call with
  | savePlan plan => exact ⟨trivial, capable_savePlan env h hcall rfl rfl⟩
  | updatePlan plan => exact ⟨trivial, capable_savePlan env h hcall rfl rfl⟩
  | executeOne plan action context =>
      obtain ⟨happroved, haction, happroval, hpermitted⟩ := hcall
      refine ⟨trivial, h.plans, fun x hx => ?_⟩
      rcases List.mem_append.1 hx with hx | hx
      · exact h.executions x hx
      · rw [List.mem_singleton.1 hx]
        refine ⟨haction, happroved, fun workflow skillNames hplanned => ?_, hpermitted⟩
        obtain ⟨allowed, hallowed, hactions⟩ := hplanned.action_spec
        obtain ⟨htool, hmode⟩ := hactions action haction
        exact ⟨allowed, hallowed, htool, hmode.1 happroval⟩
  | getPlan workspaceId planId =>
      refine ⟨?_, hframe (by simp [Call.writes]) (by simp [Call.writes])⟩
      change (capability env.registries).answers (.getPlan workspaceId planId)
        (.ok (w.store.plans (workspaceId, planId)))
      cases hstored : w.store.plans (workspaceId, planId) with
      | none => trivial
      | some plan => exact h.plans _ plan hstored
  | _ => exact ⟨trivial, hframe (by simp [Call.writes]) (by simp [Call.writes])⟩

/-- One delivery keeps the invariant. -/
theorem deliver_capable {w : World MemoryStateStore} (h : Capable env.registries w)
    (message : Message) : Capable env.registries (deliver env w message) := by
  have hwp : (RecursionRunner.dispatch env.registries message).wp env.sem.step
      (fun r t => Capable env.registries t ∧ ∀ a, r = .ok a → True) w := by
    apply Program.wp_of_respects _ (RecursionRunner.dispatch_respects env.registries message) h
    intro s call r t hcall hstep hs
    rw [Semantics.step] at hstep
    obtain ⟨rfl, rfl⟩ := Prod.mk.inj hstep
    exact sem_capable env hcall hs
  rw [Program.wp_step_iff] at hwp
  exact hwp.1

theorem deliverAll_capable {w : World MemoryStateStore} (h : Capable env.registries w)
    (messages : List Message) : Capable env.registries (deliverAll env w messages) := by
  induction messages generalizing w with
  | nil => exact h
  | cons message messages ih => exact ih (deliver_capable env h message)

/-- Only approved actions execute, in every run that starts from an empty store. -/
theorem execution_safe (messages : List Message) (x : Execution)
    (hx : x ∈ (deliverAll env ({ store := {} } : World MemoryStateStore) messages).executions) :
    x.Safe env.registries := by
  have hempty : Capable env.registries ({ store := {} } : World MemoryStateStore) := by
    constructor
    · rintro key plan ⟨⟩
    · rintro x ⟨⟩
  exact (deliverAll_capable env hempty messages).executions x hx

def sampleWorkflow : WorkflowDefinition :=
  { id := "workflow"
    triggerTypes := ["domain.story.created"]
    requiredSkills := ["skill"]
    promptId := "prompt"
    promptVersion := "1" }

def sampleRegistries : Registries :=
  { workflows :=
      { byId := [("workflow", sampleWorkflow)]
        byTrigger := [("domain.story.created", sampleWorkflow)] }
    prompts :=
      { workflows := [(("prompt", "1"), { id := "prompt", version := "1", goal := "goal" })] }
    skills :=
      { skills := [("skill", { id := "skill", version := "1", allowedTools := ["notify"] })] }
    tools := { tools := [("notify", { id := "notify", version := "1" })] } }

/-- The language model proposes to notify twice. -/
def sampleProposal : AgentPlan :=
  { planId := ""
    sourceEventId := ""
    workspaceId := ""
    projectId := none
    goal := ""
    promptId := ""
    promptVersion := ""
    actions := ["a", "b"].map fun actionId =>
      { actionId := actionId
        planId := ""
        actionType := "notify"
        toolName := "notify"
        instruction := ""
        idempotencyKey := "" }
    contextSnapshotRef := "" }

def sampleEnv : Env := Env.sample sampleRegistries sampleProposal

def sampleSeed : EventEnvelope :=
  .wrap { kind := .domain, eventId := "run", eventType := "story.created", workspaceId := "ws" }

def sampleActionEvent (actionId : String) : EventEnvelope :=
  .wrap (agentActionEvent "event" "ws" none "run" actionId none {})

/-- The event that the handling of the seed enqueues. -/
def sampleRequested : EventEnvelope :=
  .wrap (agentActionEvent "12" "ws" none "run" "a" none
    { rootEventId := some "run", parentEventId := some "run", depth := 1, chain := ["run"] })

/-- A run in which an action executes. -/
theorem execution_safe_sample :
    ∃ x ∈ (deliverAll sampleEnv ({ store := {} } : World MemoryStateStore)
      [{ envelope := sampleSeed }, { envelope := sampleActionEvent "a" }]).executions,
        x.Safe sampleRegistries := by
  have hlength : 0 < (deliverAll sampleEnv ({ store := {} } : World MemoryStateStore)
      [{ envelope := sampleSeed }, { envelope := sampleActionEvent "a" }]).executions.length := by
    decide
  obtain ⟨x, hx⟩ := List.exists_mem_of_length_pos hlength
  exact ⟨x, hx, execution_safe sampleEnv _ x hx⟩

end Runs

end PrismAgent
