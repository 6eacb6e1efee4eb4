import PrismAgent.Effect.WeakestPrecondition
import PrismAgent.Registries.Definitions
import PrismAgent.State.PrismApi

/-!
# The runtime around the handlers

The handlers are programs over the calls they make: to the state store, the
queue, the agent-run sync, the API client, the planning agent and the tools.
`Env` is everything that answers from outside, as a function of how many calls
have been made; `World` is the state that the calls change. `Env.sem` says what
each call does when nothing fails.
-/

namespace PrismAgent

open Effect

/-- What a planning agent is asked for. -/
structure PlanRequest where
  context : AgentContext
  contextSnapshotRef : String
  approvalPolicy : ActionApprovalPolicy
  workflowPrompt : WorkflowPromptDefinition
  skills : List SkillPromptDefinition
  tools : List ToolPromptDefinition
  modelTier : Option String

/-- A call to the agent-run sync. -/
inductive SyncCall
  | runStarted (context : AgentContext) (runId objective promptVersion : String)
  | planCreated (plan : AgentPlan)
  | runFailed (workspaceId runId message : String)
  | runRunning (workspaceId runId : String)
  | actionState (plan : AgentPlan) (action : PlannedAction) (eventName message : String)
  | runCompletedById (workspaceId runId : String)

/-- Every call a handler makes. `executeOne` also names the plan that the handler
took the action from; the executor does not see it. -/
inductive Call
  | getPlan (workspaceId planId : String)
  | savePlan (plan : AgentPlan)
  | updatePlan (plan : AgentPlan)
  | getTaskGraph (workspaceId planId : String)
  | saveTaskGraph (graph : TaskGraph)
  | claimReadyNodes (workspaceId runId : String)
  | advanceTaskGraph (workspaceId runId nodeId : String) (status : SubTaskStatus)
  | saveSubAgentResult (workspaceId runId : String) (result : SubAgentResult)
  | getSubAgentResults (workspaceId runId : String)
  | saveContextSnapshot (snapshot : ContextSnapshot)
  | getContextSnapshot (workspaceId snapshotRef : String)
  | saveActionResult (result : ToolResult)
  | getActionResult (planId actionId : String)
  | appendTraceEvent (traceEvent : TraceEvent)
  | checkIdempotencyKey (key : String)
  | recordIdempotencyKey (key : String)
  | enqueue (envelope : EventEnvelope)
  | sync (call : SyncCall)
  | executeOne (plan : AgentPlan) (action : PlannedAction) (context : AgentContext)
  | getCurrentEntityVersions (workspaceId : String) (projectId : Option String)
      (entityRefs : List String)
  | fetchContextEntities (event : RuntimeEvent) (requiredContext : List String)
  | fetchPermissions (event : RuntimeEvent)
  | captureEntityVersions (event : RuntimeEvent) (entities : Fields)
  | generatePlan (request : PlanRequest)
  | uuid4

/-- The type of a call's answer. -/
abbrev Call.Answer : Call → Type
  | .getPlan _ _ => Option AgentPlan
  | .getTaskGraph _ _ => Option TaskGraph
  | .claimReadyNodes _ _ => List SubTask
  | .advanceTaskGraph _ _ _ _ => Option TaskGraphAdvance
  | .getSubAgentResults _ _ => List SubAgentResult
  | .getContextSnapshot _ _ => Option ContextSnapshot
  | .getActionResult _ _ => Option ToolResult
  | .checkIdempotencyKey _ => Bool
  | .executeOne _ _ _ => ToolResult
  | .getCurrentEntityVersions _ _ _ => Dict String EntityVersion
  | .fetchContextEntities _ _ => Fields
  | .fetchPermissions _ => Dict String Bool
  | .captureEntityVersions _ _ => Dict String EntityVersion
  | .generatePlan _ => AgentPlan
  | .uuid4 => String
  | _ => Unit

abbrev App (α : Type) := Program Call Call.Answer Exc α

/-- Make one call. -/
abbrev perform (call : Call) : App call.Answer := Program.perform call

/-- A program that returns the value of `result` or raises its exception. -/
def liftExcept {α : Type} : Except Exc α → App α
  | .ok a => .pure a
  | .error x => .raise x

/-- Make one call to the agent-run sync. -/
abbrev sync (call : SyncCall) : App Unit := perform (.sync call)

/-- What answers from outside, at each point of time. A tool that exists returns
a result or raises; the events it emits are domain events of the terminal types. -/
structure Env where
  registries : Registries := {}
  stateApi : ℕ → StateApi
  uuid4 : ℕ → String
  execute : ℕ → PlannedAction → AgentContext → Except Exc ToolResult
  runStarted : ℕ → AgentContext → String → Except Exc Unit
  runRunning : ℕ → String → String → Except Exc Unit
  currentEntityVersions :
    ℕ → String → Option String → List String → Dict String EntityVersion
  contextEntities : ℕ → RuntimeEvent → List String → Fields
  permissions : ℕ → RuntimeEvent → Dict String Bool
  entityVersions : ℕ → RuntimeEvent → Fields → Dict String EntityVersion
  generatePlan : ℕ → PlanRequest → Except Exc AgentPlan
  emitted_terminal : ∀ tick action context result,
    execute tick action context = .ok result →
      ∀ envelope ∈ result.emittedEvents, envelope.event.kind = .domain ∧
        envelope.event.eventType ∈ TERMINAL_EVENT_TYPES

/-- How a tool call ended. -/
inductive ToolOutcome
  | success
  | failure
  | raised
  deriving DecidableEq, Repr

/-- A tool call: the action, the plan it was taken from, its context and its end. -/
structure Execution where
  plan : AgentPlan
  action : PlannedAction
  context : AgentContext
  outcome : ToolOutcome

/-- The store, everything written to its plans, enqueued, synced and executed so
far, and the time. -/
structure World (σ : Type) where
  store : σ
  planWrites : List AgentPlan := []
  queue : List EventEnvelope := []
  syncCalls : List SyncCall := []
  executions : List Execution := []
  tick : ℕ := 0

/-- How often the tool of the action has been called. -/
def World.attempts {σ : Type} (w : World σ) (action : PlannedAction) : ℕ :=
  w.executions.countP fun x =>
    x.action.planId = action.planId ∧ x.action.actionId = action.actionId

namespace Env

variable {σ : Type} [StateStore σ] (env : Env)

def outcomeOf : Except Exc ToolResult → ToolOutcome
  | .ok result => if result.success then .success else .failure
  | .error _ => .raised

/-- `Executor.execute_one`: an unknown tool raises, a known one runs. -/
def runTool (tick : ℕ) (action : PlannedAction) (context : AgentContext) :
    Except Exc ToolResult :=
  match env.registries.tools.get action.toolName with
  | .error x => .error x
  | .ok _ => env.execute tick action context

/-- The answer of the agent-run sync: the run may be terminal already. A report that the API
refuses is a fault of its call. -/
def syncAnswer (tick : ℕ) : SyncCall → Except Exc Unit
  | .runStarted context runId _ _ => env.runStarted tick context runId
  | .runRunning workspaceId runId => env.runRunning tick workspaceId runId
  | _ => .ok ()

/-- What a call does and answers. Every call takes one unit of time. -/
def sem : Semantics Call Call.Answer Exc (World σ) := fun call w =>
  let api := env.stateApi w.tick
  let now := { w with tick := w.tick + 1 }
  match call with
  | .getPlan workspaceId planId =>
      let (plan, store) := StateStore.getPlan api workspaceId planId w.store
      (.ok plan, { now with store := store })
  | .savePlan plan =>
      (.ok (),
        { now with
          store := StateStore.savePlan api plan w.store
          planWrites := w.planWrites ++ [plan] })
  | .updatePlan plan =>
      (.ok (),
        { now with
          store := StateStore.updatePlan api plan w.store
          planWrites := w.planWrites ++ [plan] })
  | .getTaskGraph workspaceId planId =>
      let (graph, store) := StateStore.getTaskGraph api workspaceId planId w.store
      (.ok graph, { now with store := store })
  | .saveTaskGraph graph =>
      (.ok (), { now with store := StateStore.saveTaskGraph api graph w.store })
  | .claimReadyNodes workspaceId runId =>
      let (nodes, store) := StateStore.claimReadyNodes api workspaceId runId w.store
      (.ok nodes, { now with store := store })
  | .advanceTaskGraph workspaceId runId nodeId status =>
      let (advance, store) :=
        StateStore.advanceTaskGraph api workspaceId runId nodeId status w.store
      (.ok advance, { now with store := store })
  | .saveSubAgentResult workspaceId runId result =>
      (.ok (),
        { now with store := StateStore.saveSubAgentResult api workspaceId runId result w.store })
  | .getSubAgentResults workspaceId runId =>
      let (results, store) := StateStore.getSubAgentResults api workspaceId runId w.store
      (.ok results, { now with store := store })
  | .saveContextSnapshot snapshot =>
      (.ok (), { now with store := StateStore.saveContextSnapshot api snapshot w.store })
  | .getContextSnapshot workspaceId snapshotRef =>
      let (snapshot, store) :=
        StateStore.getContextSnapshot api workspaceId snapshotRef w.store
      (.ok snapshot, { now with store := store })
  | .saveActionResult result =>
      (.ok (), { now with store := StateStore.saveActionResult api result w.store })
  | .getActionResult planId actionId =>
      let (result, store) := StateStore.getActionResult api planId actionId w.store
      (.ok result, { now with store := store })
  | .appendTraceEvent traceEvent =>
      (.ok (), { now with store := StateStore.appendTraceEvent api traceEvent w.store })
  | .checkIdempotencyKey key =>
      let (consumed, store) := StateStore.checkIdempotencyKey api key w.store
      (.ok consumed, { now with store := store })
  | .recordIdempotencyKey key =>
      (.ok (), { now with store := StateStore.recordIdempotencyKey api key w.store })
  | .enqueue envelope => (.ok (), { now with queue := w.queue ++ [envelope] })
  | .sync call => (env.syncAnswer w.tick call, { now with syncCalls := w.syncCalls ++ [call] })
  | .executeOne plan action context =>
      let answer := env.runTool w.tick action context
      (answer,
        { now with
          executions := w.executions ++
            [{ plan := plan, action := action, context := context
               outcome := outcomeOf answer }] })
  | .getCurrentEntityVersions workspaceId projectId entityRefs =>
      (.ok (env.currentEntityVersions w.tick workspaceId projectId entityRefs), now)
  | .fetchContextEntities event requiredContext =>
      (.ok (env.contextEntities w.tick event requiredContext), now)
  | .fetchPermissions event => (.ok (env.permissions w.tick event), now)
  | .captureEntityVersions event entities =>
      (.ok (env.entityVersions w.tick event entities), now)
  | .generatePlan request => (env.generatePlan w.tick request, now)
  | .uuid4 => (.ok (env.uuid4 w.tick), now)

end Env

/-- An environment in which nothing fails: the tools succeed without output, the
context is empty and ids count up. -/
def Env.sample (registries : Registries) (proposed : AgentPlan) : Env where
  registries := registries
  stateApi _ :=
    { fetchRunState := fun _ _ _ => {}
      uuid5 := fun raw => raw }
  uuid4 tick := toString tick
  execute _ action _ :=
    .ok
      { resultId := "result"
        planId := action.planId
        actionId := action.actionId
        toolName := action.toolName
        success := true }
  runStarted _ _ _ := .ok ()
  runRunning _ _ _ := .ok ()
  currentEntityVersions _ _ _ _ := []
  contextEntities _ _ _ := []
  permissions _ _ := []
  entityVersions _ _ _ := []
  generatePlan _ _ := .ok proposed
  emitted_terminal := by
    rintro _ _ _ _ ⟨⟩ envelope henvelope
    cases henvelope

/-- File a trace under the ids of an event. -/
def trace (event : RuntimeEvent) (eventName : String) (planId : Option String)
    (actionId : Option String := none) : App Unit :=
  perform (.appendTraceEvent
    { eventName := eventName
      workspaceId := event.workspaceId
      projectId := event.projectId
      planId := planId
      actionId := actionId })

end PrismAgent
