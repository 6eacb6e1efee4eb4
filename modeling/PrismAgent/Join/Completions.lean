import PrismAgent.Application.Frame
import PrismAgent.Join.Advance

/-!
# Handling completions

What `SubAgentCoordinator.handle` does with the settle of a node, over the
in-memory store: the stored graph advances, the claimed nodes are dispatched and
a terminal signal is reported. `handleSettled_spec` states it for every event.
-/

namespace PrismAgent

open Effect

namespace World

variable {σ : Type} (w : World σ) (workspaceId runId : String)

/-- The node of a task event of the run. -/
def taskNode? (envelope : EventEnvelope) : Option String :=
  match envelope.event.kind with
  | .subagentTask run nodeId =>
      if envelope.event.workspaceId = workspaceId ∧ run = runId then some nodeId else none
  | _ => none

/-- The nodes whose task events have been enqueued for the run, in order. -/
def taskNodes : List String := w.queue.filterMap (taskNode? workspaceId runId)

/-- Whether a call reports the run failed or completed. -/
def isReport : SyncCall → Bool
  | .runFailed workspace run _ => workspace = workspaceId ∧ run = runId
  | .runCompletedById workspace run => workspace = workspaceId ∧ run = runId
  | _ => false

/-- How often the run has been reported failed or completed. -/
def reports : ℕ := w.syncCalls.countP (isReport workspaceId runId)

end World

/-- From `w` to `w'` the run dispatched `nodes` and was reported `count` times; its
graph stayed as it was. -/
structure Progress (workspaceId runId : String) (nodes : List String) (count : ℕ)
    (w w' : World MemoryStateStore) : Prop where
  taskGraphs : w'.store.taskGraphs = w.store.taskGraphs
  taskNodes : w'.taskNodes workspaceId runId = w.taskNodes workspaceId runId ++ nodes
  reports : w'.reports workspaceId runId = w.reports workspaceId runId + count

namespace Progress

variable {workspaceId runId : String} {w w' w'' : World MemoryStateStore}

theorem of_same (hg : w'.store.taskGraphs = w.store.taskGraphs) (hq : w'.queue = w.queue)
    (hs : w'.syncCalls = w.syncCalls) : Progress workspaceId runId [] 0 w w' := by
  refine ⟨hg, ?_, ?_⟩
  · simp [World.taskNodes, hq]
  · simp [World.reports, hs]

theorem trans {nodes nodes' : List String} {count count' : ℕ}
    (h : Progress workspaceId runId nodes count w w')
    (h' : Progress workspaceId runId nodes' count' w' w'') :
    Progress workspaceId runId (nodes ++ nodes') (count + count') w w'' := by
  refine ⟨h'.taskGraphs.trans h.taskGraphs, ?_, ?_⟩
  · rw [h'.taskNodes, h.taskNodes, List.append_assoc]
  · rw [h'.reports, h.reports, Nat.add_assoc]

end Progress

/-- Without failures the program returns and makes this progress. -/
def Does (env : Env) (workspaceId runId : String) (p : App Unit) (nodes : List String)
    (count : ℕ) : Prop :=
  ∀ w : World MemoryStateStore,
    p.wp env.sem.step (fun r t => r = .ok () ∧ Progress workspaceId runId nodes count w t) w

namespace Does

variable {env : Env} {workspaceId runId : String}

theorem pure : Does env workspaceId runId (Pure.pure ()) [] 0 := by
  intro w
  exact ⟨rfl, .of_same rfl rfl rfl⟩

theorem trace (event : RuntimeEvent) (eventName : String) (planId actionId : Option String) :
    Does env workspaceId runId (PrismAgent.trace event eventName planId actionId) [] 0 := by
  intro w
  rw [PrismAgent.trace, Program.wp_perform_step]
  exact ⟨rfl, .of_same rfl rfl rfl⟩

theorem seq {p q : App Unit} {nodes nodes' : List String} {count count' : ℕ}
    (hp : Does env workspaceId runId p nodes count)
    (hq : Does env workspaceId runId q nodes' count') :
    Does env workspaceId runId (p >>= fun _ => q) (nodes ++ nodes') (count + count') := by
  intro w
  rw [Program.wp_bind]
  refine Program.wp_mono (hp w) ?_
  rintro r t ⟨rfl, hprogress⟩
  refine Program.wp_mono (hq t) ?_
  rintro r' t' ⟨rfl, hprogress'⟩
  exact ⟨rfl, hprogress.trans hprogress'⟩

theorem bindUuid {f : String → App Unit} {nodes : List String} {count : ℕ}
    (hf : ∀ id, Does env workspaceId runId (f id) nodes count) :
    Does env workspaceId runId (perform .uuid4 >>= f) nodes count := by
  intro w
  rw [Program.wp_bind, Program.wp_perform_step]
  refine Program.wp_mono (hf (env.uuid4 w.tick) { w with tick := w.tick + 1 }) ?_
  rintro r t ⟨rfl, hprogress⟩
  exact ⟨rfl, hprogress.taskGraphs, hprogress.taskNodes, hprogress.reports⟩

theorem enqueue (envelope : EventEnvelope) :
    Does env workspaceId runId (perform (.enqueue envelope))
      (World.taskNode? workspaceId runId envelope).toList 0 := by
  intro w
  rw [Program.wp_perform_step]
  refine ⟨rfl, rfl, ?_, rfl⟩
  simp only [World.taskNodes, Env.sem, List.filterMap_append]
  congr 1

theorem sync (call : SyncCall) (hok : ∀ tick, env.syncAnswer tick call = .ok ()) :
    Does env workspaceId runId (PrismAgent.sync call) []
      (World.isReport workspaceId runId call).toNat := by
  intro w
  rw [Program.wp_perform_step]
  refine ⟨hok w.tick, rfl, (List.append_nil _).symm, ?_⟩
  simp only [World.reports, Env.sem, List.countP_append, List.countP_singleton]
  cases World.isReport workspaceId runId call <;> rfl

end Does

namespace SubAgentCoordinator

open SubAgentRunner (subPlanId)

section Results

variable (env : Env) (w : World MemoryStateStore)

/-- Reading outputs takes time and changes nothing. -/
theorem actionOutputs_spec (planId : String) (actions : List PlannedAction)
    (outputs : Fields) :
    (actionOutputs planId actions outputs).wp env.sem.step
      (fun r t => (∃ a, r = .ok a) ∧ ∃ n, t = { w with tick := n }) w := by
  induction actions generalizing outputs w with
  | nil => exact ⟨⟨_, rfl⟩, w.tick, rfl⟩
  | cons action actions ih =>
      rw [actionOutputs, Program.wp_bind, Program.wp_perform_step]
      have hrest : ∀ outputs, (actionOutputs planId actions outputs).wp env.sem.step
          (fun r t => (∃ a, r = .ok a) ∧ ∃ n, t = { w with tick := n })
          { w with tick := w.tick + 1 } := by
        intro outputs
        refine Program.wp_mono (ih { w with tick := w.tick + 1 } outputs) ?_
        rintro r t ⟨hr, n, rfl⟩
        exact ⟨hr, n, rfl⟩
      change Program.andThen _ _ _ (.ok (w.store.getActionResult planId action.actionId)) _
      rw [Program.andThen_ok]
      cases w.store.getActionResult planId action.actionId with
      | none => exact hrest outputs
      | some result => exact hrest _

theorem buildResult_spec (nodeId : String) (subPlan : Option AgentPlan) :
    (buildResult nodeId subPlan).wp env.sem.step
      (fun r t => (∃ result, r = .ok result ∧ result.nodeId = nodeId) ∧
        ∃ n, t = { w with tick := n }) w := by
  cases subPlan with
  | none => exact ⟨⟨_, rfl, rfl⟩, w.tick, rfl⟩
  | some plan =>
      rw [buildResult, Program.wp_bind]
      refine Program.wp_mono (actionOutputs_spec env w _ _ _) ?_
      rintro r t ⟨⟨outputs, rfl⟩, n, rfl⟩
      exact ⟨⟨_, rfl, rfl⟩, n, rfl⟩

/-- Storing a result saves one result under the node's id. -/
theorem storeResult_spec (workspaceId runId nodeId : String) :
    (storeResult workspaceId runId nodeId).wp env.sem.step
      (fun r t => r = .ok () ∧ ∃ result n, result.nodeId = nodeId ∧
        t = { w with store := w.store.saveSubAgentResult workspaceId runId result, tick := n })
      w := by
  rw [storeResult, Program.wp_bind, Program.wp_perform_step]
  change Program.wp _ _ _ { w with tick := w.tick + 1 }
  rw [Program.wp_bind]
  refine Program.wp_mono (buildResult_spec env { w with tick := w.tick + 1 } nodeId _) ?_
  rintro r t ⟨⟨result, rfl, hid⟩, n, rfl⟩
  rw [Program.andThen_ok, Program.wp_perform_step]
  exact ⟨rfl, result, n + 1, hid, rfl⟩

end Results

section Settle

variable {env : Env} {workspaceId runId : String} {envelope : EventEnvelope}
  {advance : TaskGraphAdvance}

theorem recordResult_does (event : RuntimeEvent) (nodeId : String) (status : SubTaskStatus)
    (advance : TaskGraphAdvance) :
    Does env workspaceId runId (recordResult event runId nodeId status advance) [] 0 := by
  intro w
  unfold recordResult
  split
  · refine Program.wp_mono (storeResult_spec env w _ _ _) ?_
    rintro r t ⟨rfl, result, n, -, rfl⟩
    exact ⟨rfl, .of_same rfl rfl rfl⟩
  · exact Does.pure w

/-- Dispatching a node of the run's graph enqueues its task event. -/
theorem dispatchNode_does {graph : TaskGraph} (hw : graph.workspaceId = workspaceId)
    (hrun : graph.planId = runId) (node : SubTask) :
    Does env workspaceId runId (dispatchNode envelope graph node) [node.nodeId] 0 := by
  unfold dispatchNode
  refine .bindUuid fun eventId => ?_
  have hnode : World.taskNode? workspaceId runId (.wrap (subAgentTaskEvent eventId
      graph.workspaceId graph.projectId graph.planId node.nodeId
      envelope.event.correlationId (envelope.event.causality.child envelope.eventId))) =
      some node.nodeId := if_pos ⟨hw, hrun⟩
  have henqueue : Does env workspaceId runId _ _ 0 := Does.enqueue
    (.wrap (subAgentTaskEvent eventId graph.workspaceId graph.projectId graph.planId node.nodeId
      envelope.event.correlationId (envelope.event.causality.child envelope.eventId)))
  rw [hnode] at henqueue
  exact henqueue.seq (.trace _ _ _ _)

theorem dispatchNodes_does {graph : TaskGraph} (hw : graph.workspaceId = workspaceId)
    (hrun : graph.planId = runId) (nodes : List SubTask) :
    Does env workspaceId runId (dispatchNodes envelope graph nodes)
      (nodes.map (·.nodeId)) 0 := by
  induction nodes with
  | nil => exact .pure
  | cons node nodes ih =>
      unfold dispatchNodes
      exact (dispatchNode_does hw hrun node).seq ih

theorem dispatchSynthesizer_does (hw : advance.graph.workspaceId = workspaceId)
    (hrun : advance.graph.planId = runId) :
    Does env workspaceId runId (dispatchSynthesizer envelope advance)
      (advance.dispatchSynthesizer.toList.map (·.nodeId)) 0 := by
  unfold dispatchSynthesizer
  cases advance.dispatchSynthesizer with
  | none => exact .pure
  | some synthesizer => exact dispatchNode_does hw hrun synthesizer

/-- A report followed by its trace. -/
theorem report_does (call : SyncCall) (hok : ∀ tick, env.syncAnswer tick call = .ok ())
    (hreport : World.isReport workspaceId runId call = true) (event : RuntimeEvent)
    (eventName : String) :
    Does env workspaceId runId (do sync call; trace event eventName) [] 1 := by
  have hsync : Does env workspaceId runId (sync call) [] _ := Does.sync call hok
  rw [hreport] at hsync
  exact hsync.seq (.trace _ _ _ _)

variable (hevent : envelope.event.workspaceId = workspaceId)

include hevent

theorem failRun_does : Does env workspaceId runId (failRun envelope.event runId) [] 1 :=
  report_does _ (fun _ => rfl) (by simp [World.isReport, hevent]) _ _

theorem completeRun_does (advance : TaskGraphAdvance) :
    Does env workspaceId runId (completeRun envelope.event runId advance) []
      advance.runCompleted.toNat := by
  unfold completeRun
  cases advance.runCompleted with
  | false => exact .pure
  | true => exact report_does _ (fun _ => rfl) (by simp [World.isReport, hevent]) _ _

theorem blockRun_does (advance : TaskGraphAdvance) :
    Does env workspaceId runId (blockRun envelope.event runId advance) []
      advance.blocked.toNat := by
  unfold blockRun
  cases advance.blocked with
  | false => exact .pure
  | true => exact report_does _ (fun _ => rfl) (by simp [World.isReport, hevent]) _ _

theorem followAdvance_does (hw : advance.graph.workspaceId = workspaceId)
    (hrun : advance.graph.planId = runId) :
    Does env workspaceId runId (followAdvance envelope runId advance)
      ((advance.newlyReady ++ advance.dispatchSynthesizer.toList).map (·.nodeId))
      (advance.runCompleted.toNat + advance.blocked.toNat) := by
  have hnodes : Does env workspaceId runId (dispatchNodes envelope advance.graph _) _ 0 :=
    dispatchNodes_does hw hrun advance.newlyReady
  have hsynthesizer : Does env workspaceId runId (dispatchSynthesizer envelope advance) _ 0 :=
    dispatchSynthesizer_does hw hrun
  have hcomplete : Does env workspaceId runId (completeRun envelope.event runId advance) [] _ :=
    completeRun_does hevent advance
  have hblock : Does env workspaceId runId (blockRun envelope.event runId advance) [] _ :=
    blockRun_does hevent advance
  simpa [followAdvance] using hnodes.seq (hsynthesizer.seq (hcomplete.seq hblock))

end Settle

/-- What an advance dispatches and reports, as the coordinator acts on it. -/
def advanceNodes (advance : TaskGraphAdvance) : List String :=
  if advance.alreadyProcessed ∨ advance.runFailed then []
  else (advance.newlyReady ++ advance.dispatchSynthesizer.toList).map (·.nodeId)

def advanceReports (advance : TaskGraphAdvance) : ℕ :=
  if advance.alreadyProcessed then 0
  else if advance.runFailed then 1
  else advance.runCompleted.toNat + advance.blocked.toNat

/-- The atomic advance of a stored graph. -/
theorem sem_advanceTaskGraph (env : Env) (w : World MemoryStateStore)
    {workspaceId runId nodeId : String} {status : SubTaskStatus} {g : TaskGraph}
    (hstored : w.store.getTaskGraph workspaceId runId = some g) :
    env.sem (.advanceTaskGraph workspaceId runId nodeId status) w =
      (.ok (some (g.planAdvance nodeId status)),
        { w with
          store := w.store.saveTaskGraph (g.planAdvance nodeId status).graph
          tick := w.tick + 1 }) := by
  simp only [Env.sem, StateStore.advanceTaskGraph, MemoryStateStore.advanceTaskGraph, hstored]

theorem settleAdvance_does {env : Env} {workspaceId runId nodeId : String}
    {envelope : EventEnvelope} {status : SubTaskStatus} {advance : TaskGraphAdvance}
    (hevent : envelope.event.workspaceId = workspaceId)
    (hw : advance.graph.workspaceId = workspaceId) (hrun : advance.graph.planId = runId)
    (hnew : advance.alreadyProcessed = false) :
    Does env workspaceId runId (settleAdvance envelope runId nodeId status advance)
      (advanceNodes advance) (advanceReports advance) := by
  have hresult : Does env workspaceId runId _ [] 0 :=
    recordResult_does envelope.event nodeId status advance
  unfold settleAdvance advanceNodes advanceReports
  cases hf : advance.runFailed with
  | true => simpa [hnew] using hresult.seq (failRun_does hevent)
  | false => simpa [hnew] using hresult.seq (followAdvance_does hevent hw hrun)

/-- Handling the settle of a node advances the stored graph, dispatches what the
advance claimed and reports what it signals. -/
theorem handleSettled_spec (env : Env) (w : World MemoryStateStore) (envelope : EventEnvelope)
    (runId nodeId : String) (status : SubTaskStatus) {g : TaskGraph}
    {advance : TaskGraphAdvance} (hadvance : g.planAdvance nodeId status = advance)
    (hstored : w.store.getTaskGraph envelope.event.workspaceId runId = some g)
    (hw : advance.graph.workspaceId = envelope.event.workspaceId)
    (hrun : advance.graph.planId = runId) :
    (handleSettled envelope runId nodeId status).wp env.sem.step
      (fun r t => r = .ok () ∧
        t.store.taskGraphs = Function.update w.store.taskGraphs
          (envelope.event.workspaceId, runId) (some advance.graph) ∧
        t.taskNodes envelope.event.workspaceId runId =
          w.taskNodes envelope.event.workspaceId runId ++ advanceNodes advance ∧
        t.reports envelope.event.workspaceId runId =
          w.reports envelope.event.workspaceId runId + advanceReports advance) w := by
  have hgraphs : (w.store.saveTaskGraph advance.graph).taskGraphs = Function.update
      w.store.taskGraphs (envelope.event.workspaceId, runId) (some advance.graph) := by
    rw [MemoryStateStore.saveTaskGraph, hw, hrun]
  have hdoes : Does env envelope.event.workspaceId runId
      (if advance.alreadyProcessed then trace envelope.event "orchestration.duplicate"
        else settleAdvance envelope runId nodeId status advance)
      (advanceNodes advance) (advanceReports advance) := by
    cases hdup : advance.alreadyProcessed with
    | true =>
        simpa [advanceNodes, advanceReports, hdup] using Does.trace envelope.event _ _ _
    | false => exact settleAdvance_does rfl hw hrun hdup
  rw [handleSettled, Program.wp_bind, Program.wp_perform_step, sem_advanceTaskGraph env w hstored,
    hadvance]
  refine Program.wp_mono (hdoes _) ?_
  rintro r t ⟨rfl, hprogress⟩
  exact ⟨rfl, hprogress.taskGraphs.trans hgraphs, hprogress.taskNodes, hprogress.reports⟩

end SubAgentCoordinator

end PrismAgent
