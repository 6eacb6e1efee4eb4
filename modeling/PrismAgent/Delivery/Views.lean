import PrismAgent.Delivery.Idle

/-!
# The graph of a run and its task events

What the orchestration of one run is for: a graph is stored, its ready nodes are claimed,
each settle advances it, and a task event is enqueued for every node that is claimed.
`RunStep` lists the steps; an interrupted one has enqueued a prefix of its events. Handling
any message under any faults is one of them, as long as no single plan takes over the run.
-/

namespace PrismAgent

open Effect
open SubAgentCoordinator (advanceNodes)
open Function (update update_self update_of_ne)

/-- The stored graph of a run and the nodes whose task events have been enqueued. -/
structure RunView where
  graph : Option TaskGraph
  dispatched : List String

/-- What one handling may do to the graph of a run and its task events. -/
inductive RunStep : RunView → RunView → Prop
  | idle (v : RunView) : RunStep v v
  | saved {g : TaskGraph} {ids : List String} (hnew : ∀ n ∈ g.allNodes, n.status = .pending) :
      RunStep ⟨none, ids⟩ ⟨some g, ids⟩
  | started {g : TaskGraph} {ids done : List String}
      (hnew : ∀ n ∈ g.allNodes, n.status = .pending)
      (hdone : done <+: g.claimReady.2.map (·.nodeId)) :
      RunStep ⟨none, ids⟩ ⟨some g.claimReady.1, ids ++ done⟩
  | settled {g : TaskGraph} {ids done : List String} {nodeId : String} {status : SubTaskStatus}
      (hstatus : status = .completed ∨ status = .failed)
      (hdone : done <+: advanceNodes (g.planAdvance nodeId status)) :
      RunStep ⟨some g, ids⟩ ⟨some (g.planAdvance nodeId status).graph, ids ++ done⟩

/-- The view of a run in a world. -/
def World.runView (w : World MemoryStateStore) (key : String × String) : RunView :=
  ⟨w.store.taskGraphs key, w.taskNodes key.1 key.2⟩

/-- The envelope is routed to a workflow that makes a single plan for the run. -/
def plansAlone (registries : Registries) (key : String × String) (envelope : EventEnvelope) :
    Bool :=
  match (route registries.workflows envelope).workflow with
  | some workflow => !DomainEventHandler.isOrchestrated workflow &&
      decide ((envelope.event.workspaceId, runIdOf envelope) = key)
  | none => false

section Watch

variable (key : String × String)

/-- The graph of the run and its task events. -/
def runWatch : Watch (World MemoryStateStore) (Option TaskGraph) String where
  kept w := w.store.taskGraphs key
  emitted w := w.taskNodes key.1 key.2

/-- The call writes no graph of the run. -/
def Elsewhere : Call → Prop
  | .saveTaskGraph graph => (graph.workspaceId, graph.planId) ≠ key
  | .claimReadyNodes workspaceId runId => (workspaceId, runId) ≠ key
  | .advanceTaskGraph workspaceId runId _ _ => (workspaceId, runId) ≠ key
  | _ => True

variable {key}

/-- The task events of nodes of another run are none of this one. -/
def tasksFor (key : String × String) (workspaceId runId : String) (nodeIds : List String) :
    List String :=
  if (workspaceId, runId) = key then nodeIds else []

theorem tasksFor_append (workspaceId runId : String) (ids ids' : List String) :
    tasksFor key workspaceId runId (ids ++ ids') =
      tasksFor key workspaceId runId ids ++ tasksFor key workspaceId runId ids' := by
  unfold tasksFor
  split <;> rfl

theorem tasksFor_cons (workspaceId runId id : String) (ids : List String) :
    tasksFor key workspaceId runId (id :: ids) =
      tasksFor key workspaceId runId [id] ++ tasksFor key workspaceId runId ids :=
  tasksFor_append workspaceId runId [id] ids

theorem tasksFor_nil (key : String × String) (workspaceId runId : String) :
    tasksFor key workspaceId runId [] = [] := by
  unfold tasksFor
  split <;> rfl

variable (env : Env) {w : World MemoryStateStore}

/-- A call that writes no graph of the run leaves the graph. -/
theorem sem_elsewhere {call : Call} (hcall : Elsewhere key call) (h : Charted w) :
    (env.sem call w).2.store.taskGraphs key = w.store.taskGraphs key := by
  by_cases hwrites : call.writes = some .taskGraphs
  · cases call with
    | saveTaskGraph graph => exact update_of_ne (Ne.symm hcall) _ _
    | claimReadyNodes workspaceId runId =>
        cases hstored : w.store.taskGraphs (workspaceId, runId) with
        | none => rw [sem_claimReadyNodes_none env hstored]
        | some g =>
            rw [sem_claimReadyNodes env hstored]
            obtain ⟨hplan, hworkspace, -⟩ := g.claimReady_filing
            refine update_of_ne ?_ _ _
            rw [hplan, hworkspace, h.filed _ g hstored]
            exact Ne.symm hcall
    | advanceTaskGraph workspaceId runId nodeId status =>
        cases hstored : w.store.taskGraphs (workspaceId, runId) with
        | none => rw [sem_advanceTaskGraph_none env hstored]
        | some g =>
            rw [SubAgentCoordinator.sem_advanceTaskGraph env w hstored]
            obtain ⟨hplan, hworkspace, -⟩ := g.planAdvance_filing nodeId status
            refine update_of_ne ?_ _ _
            rw [hplan, hworkspace, h.filed _ g hstored]
            exact Ne.symm hcall
    | _ => cases hwrites
  · exact congrFun (@sem_same env .taskGraphs w call hwrites) key

/-- Only an enqueued task event adds to the dispatched nodes. -/
theorem sem_taskNodes (call : Call) (workspaceId runId : String) :
    (env.sem call w).2.taskNodes workspaceId runId = w.taskNodes workspaceId runId ++
      match call with
      | .enqueue e => (World.taskNode? workspaceId runId e).toList
      | _ => [] := by
  by_cases hwrites : call.writes = some .queue
  · cases call with
    | enqueue e =>
        change (w.queue ++ [e]).filterMap _ = w.queue.filterMap _ ++ _
        rw [List.filterMap_append]
        cases h : World.taskNode? workspaceId runId e <;> simp [h]
    | _ => cases hwrites
  · have hqueue : (env.sem call w).2.queue = w.queue := @sem_same env .queue w call hwrites
    unfold World.taskNodes
    rw [hqueue]
    cases call with
    | enqueue => exact absurd rfl hwrites
    | _ => exact (List.append_nil _).symm

theorem taskNode?_of_noTask {e : EventEnvelope} (h : NoTask e) (workspaceId runId : String) :
    World.taskNode? workspaceId runId e = none := by
  unfold World.taskNode?
  split
  next runId' nodeId hkind => exact absurd hkind (h runId' nodeId)
  next => rfl

/-- A call that neither writes a graph of the run nor enqueues a task event. -/
theorem sem_idle {call : Call} (hlawful : Lawful call) (hcall : Elsewhere key call)
    (hqueue : unassigned.calls call) (h : Charted w) :
    Charted (env.sem call w).2 ∧ (runWatch key).Grows w (env.sem call w).2 [] := by
  refine ⟨sem_charted env hlawful h, sem_elsewhere env hcall h, ?_⟩
  refine (sem_taskNodes env call key.1 key.2).trans (congrArg _ ?_)
  cases call with
  | enqueue e => exact congrArg Option.toList (taskNode?_of_noTask hqueue _ _)
  | _ => rfl

end Watch

section Emits

variable (env : Env) (key : String × String)

/-- A part of a handler that keeps the graph of the run and enqueues task events for
`nodeIds`. -/
abbrev Dispatches {α : Type} (p : App α) (nodeIds : List String) : Prop :=
  p.Emits env.sem (runWatch key) Charted nodeIds

variable {env key} {α : Type}

/-- The call writes no graph, or it saves a new graph of another run. -/
def FoundsElsewhere (key : String × String) : Call → Prop
  | .saveTaskGraph graph =>
      (∀ n ∈ graph.allNodes, n.status = .pending) ∧ (graph.workspaceId, graph.planId) ≠ key
  | .claimReadyNodes _ _ => False
  | .advanceTaskGraph _ _ _ _ => False
  | _ => True

theorem foundsElsewhere_of_writes {call : Call} (h : call.writes ≠ some .taskGraphs) :
    FoundsElsewhere key call := by
  cases call with
  | saveTaskGraph | claimReadyNodes | advanceTaskGraph => exact absurd rfl h
  | _ => trivial

/-- The answers of the calls are those of the contract. -/
theorem answers_unassigned {call : Call} (hcall : FoundsElsewhere key call)
    (w : World MemoryStateStore) : unassigned.answers call (env.sem call w).1 := by
  cases call with
  | executeOne plan action context =>
      change unassigned.answers (.executeOne plan action context)
        (env.runTool w.tick action context)
      cases hresult : env.runTool w.tick action context with
      | error x => trivial
      | ok result =>
          unfold Env.runTool at hresult
          split at hresult
          · cases hresult
          · exact fun e he => env.emitted_terminal _ _ _ _ hresult e he
  | advanceTaskGraph => exact hcall.elim
  | _ => trivial

/-- A program that enqueues no task event and founds other runs only. -/
theorem dispatches_nil_of_founds {p : App α} (hp : Unassigned p)
    (hcalls : p.OnlyCalls (FoundsElsewhere key)) : Dispatches env key p [] := by
  refine .of_respects (hp.and_onlyCalls hcalls) (fun w call hcall h => ?_) fun call x => ?_
  · have hlawful : Lawful call ∧ Elsewhere key call := by
      have hfounds := hcall.2
      cases call with
      | saveTaskGraph => exact hfounds
      | claimReadyNodes | advanceTaskGraph => exact hfounds.elim
      | _ => exact ⟨trivial, trivial⟩
    obtain ⟨hcharted, hgrows⟩ := sem_idle env hlawful.1 hlawful.2 hcall.1 h
    exact ⟨hcharted, hgrows, answers_unassigned hcall.2 w⟩
  · cases call <;> trivial

theorem dispatches_nil_of_unassigned {p : App α} (hp : Unassigned p)
    (hgraphs : p.OnlyCalls fun call => call.writes ≠ some .taskGraphs) :
    Dispatches env key p [] :=
  dispatches_nil_of_founds hp (hgraphs.mono fun _ hcall => foundsElsewhere_of_writes hcall)

theorem dispatches_nil_of_writes {parts : List Part} {p : App α} (hp : Writes parts p)
    (hqueue : .queue ∉ parts) (hgraphs : .taskGraphs ∉ parts) : Dispatches env key p [] :=
  dispatches_nil_of_unassigned (.of_writes hp hqueue) (hp.avoids hgraphs)

theorem dispatches_trace (event : RuntimeEvent) (eventName : String)
    (planId actionId : Option String) :
    Dispatches env key (trace event eventName planId actionId) [] :=
  dispatches_nil_of_writes (trace_writes (List.mem_singleton_self Part.traces) _ _ _ _)
    (by decide) (by decide)

theorem dispatches_report (call : SyncCall) (event : RuntimeEvent) (eventName : String) :
    Dispatches env key (sync call >>= fun _ => SubAgentCoordinator.trace event eventName) [] := by
  have hwrites : Writes [.syncCalls, .traces]
      (sync call >>= fun _ => SubAgentCoordinator.trace event eventName) :=
    .bind (.perform rfl) fun _ => trace_writes (by decide) _ _ _ _
  exact dispatches_nil_of_writes hwrites (by decide) (by decide)

/-- The task event of a node. -/
theorem dispatches_task (eventId workspaceId runId nodeId : String)
    (projectId correlationId : Option String) (causality : EventCausality) :
    Dispatches env key (perform (.enqueue (.wrap (subAgentTaskEvent eventId workspaceId projectId
      runId nodeId correlationId causality)))) (tasksFor key workspaceId runId [nodeId]) := by
  refine .perform fun w h => ⟨h.of_same rfl, rfl, ?_⟩
  refine (sem_taskNodes env _ key.1 key.2).trans (congrArg _ ?_)
  change (if workspaceId = key.1 ∧ runId = key.2 then some nodeId else none).toList = _
  unfold tasksFor
  by_cases hkey : (workspaceId, runId) = key
  · rw [if_pos hkey, if_pos (Prod.ext_iff.1 hkey)]
    rfl
  · rw [if_neg hkey, if_neg fun h => hkey (Prod.ext h.1 h.2)]
    rfl

namespace DomainEventHandler

theorem dispatchReady_dispatches (envelope : EventEnvelope) (workspaceId runId : String)
    (projectId : Option String) (nodes : List SubTask) :
    Dispatches env key (dispatchReady envelope workspaceId runId projectId nodes)
      (tasksFor key workspaceId runId (nodes.map (·.nodeId))) := by
  induction nodes with
  | nil => exact (tasksFor_nil key workspaceId runId).symm ▸ .pure ()
  | cons node nodes ih =>
      have huuid : Dispatches env key (perform .uuid4) [] :=
        dispatches_nil_of_writes (@Writes.perform [] .uuid4 rfl) (by decide) (by decide)
      have htask := fun eventId => @dispatches_task env key eventId workspaceId runId node.nodeId
        projectId envelope.event.correlationId (envelope.event.causality.child envelope.eventId)
      rw [List.map_cons, tasksFor_cons]
      unfold dispatchReady
      refine huuid.after fun eventId _ => (htask eventId).bind fun _ _ => ?_
      exact (dispatches_trace _ _ _ _).after fun _ _ => ih

end DomainEventHandler

namespace SubAgentCoordinator

variable {envelope : EventEnvelope}

theorem dispatchNode_dispatches (graph : TaskGraph) (node : SubTask) :
    Dispatches env key (dispatchNode envelope graph node)
      (tasksFor key graph.workspaceId graph.planId [node.nodeId]) := by
  have huuid : Dispatches env key (perform .uuid4) [] :=
    dispatches_nil_of_writes (@Writes.perform [] .uuid4 rfl) (by decide) (by decide)
  unfold dispatchNode
  refine huuid.after fun eventId _ => ?_
  exact (dispatches_task _ _ _ _ _ _ _).before fun _ _ => dispatches_trace _ _ _ _

theorem dispatchNodes_dispatches (graph : TaskGraph) (nodes : List SubTask) :
    Dispatches env key (dispatchNodes envelope graph nodes)
      (tasksFor key graph.workspaceId graph.planId (nodes.map (·.nodeId))) := by
  induction nodes with
  | nil => exact (tasksFor_nil key graph.workspaceId graph.planId).symm ▸ .pure ()
  | cons node nodes ih =>
      rw [List.map_cons, tasksFor_cons]
      exact (dispatchNode_dispatches graph node).bind fun _ _ => ih

theorem followAdvance_dispatches (runId : String) (advance : TaskGraphAdvance) :
    Dispatches env key (followAdvance envelope runId advance)
      (tasksFor key advance.graph.workspaceId advance.graph.planId
        ((advance.newlyReady ++ advance.dispatchSynthesizer.toList).map (·.nodeId))) := by
  have hsynthesizer : Dispatches env key (dispatchSynthesizer envelope advance)
      (tasksFor key advance.graph.workspaceId advance.graph.planId
        (advance.dispatchSynthesizer.toList.map (·.nodeId))) := by
    unfold dispatchSynthesizer
    cases advance.dispatchSynthesizer with
    | none => exact (tasksFor_nil key _ _).symm ▸ .pure ()
    | some synthesizer => exact dispatchNode_dispatches _ _
  rw [List.map_append, tasksFor_append]
  unfold followAdvance
  refine (dispatchNodes_dispatches _ _).bind fun _ _ => hsynthesizer.before fun _ _ => ?_
  have hcomplete : Dispatches env key (completeRun envelope.event runId advance) [] := by
    unfold completeRun
    split
    · exact dispatches_report _ _ _
    · exact .pure ()
  have hblock : Dispatches env key (blockRun envelope.event runId advance) [] := by
    unfold blockRun
    split
    · exact dispatches_report _ _ _
    · exact .pure ()
  exact hcomplete.after fun _ _ => hblock

theorem settleAdvance_dispatches {runId nodeId : String} {status : SubTaskStatus}
    {advance : TaskGraphAdvance} (hnew : advance.alreadyProcessed = false) :
    Dispatches env key (settleAdvance envelope runId nodeId status advance)
      (tasksFor key advance.graph.workspaceId advance.graph.planId (advanceNodes advance)) := by
  unfold settleAdvance advanceNodes
  refine (dispatches_nil_of_writes (recordResult_writes _ _ _ _ _) (by decide)
    (by decide)).after fun _ _ => ?_
  cases hfailed : advance.runFailed with
  | true =>
      simp only [if_true, or_true, tasksFor_nil]
      exact dispatches_report _ _ _
  | false =>
      simp only [hnew, Bool.false_eq_true, or_self, if_false]
      exact followAdvance_dispatches runId advance

end SubAgentCoordinator

end Emits

end PrismAgent
