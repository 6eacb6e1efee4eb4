import PrismAgent.Delivery.Views

/-!
# Handlings are steps

Handling a message under any faults is a step of every run that no single plan takes over:
the walk through the handlers that start and advance graphs, call by call.
-/

namespace PrismAgent

open Effect
open SubAgentCoordinator (advanceNodes)
open Function (update update_self update_of_ne)

/-- Wherever the program is interrupted when started in `w`, the run is one step from `v`. -/
def Steps (env : Env) (key : String × String) {α : Type} (p : App α) (v : RunView)
    (w : World MemoryStateStore) : Prop :=
  ∀ (faults : FaultScript Exc) (s : Logged Call (World MemoryStateStore)), s.state = w →
    p.wp (env.sem.inject faults).step
      (fun _ t => Charted t.state ∧ RunStep v (t.state.runView key)) s

namespace Steps

variable {env : Env} {key : String × String} {α β : Type} {v : RunView}
  {w : World MemoryStateStore}

/-- A part that keeps the graph, when every prefix of its task events makes a step. -/
theorem of_dispatches {p : App α} {nodeIds : List String} (hp : Dispatches env key p nodeIds)
    (h : Charted w) (hstep : ∀ done, done <+: nodeIds →
      RunStep v ⟨w.store.taskGraphs key, w.taskNodes key.1 key.2 ++ done⟩) :
    Steps env key p v w := by
  rintro faults s rfl
  refine Program.wp_mono (hp faults s h) ?_
  rintro r t ⟨ht, done, hprefix, hgrows, -⟩
  refine ⟨ht, ?_⟩
  have hview : t.state.runView key =
      ⟨s.state.store.taskGraphs key, s.state.taskNodes key.1 key.2 ++ done⟩ :=
    congrArg₂ RunView.mk hgrows.kept hgrows.emitted
  rw [hview]
  exact hstep done hprefix

theorem of_idle {p : App α} (hp : Dispatches env key p []) (h : Charted w)
    (hstep : RunStep v (w.runView key)) : Steps env key p v w := by
  refine of_dispatches hp h fun done hdone => ?_
  rw [List.prefix_nil.1 hdone, List.append_nil]
  exact hstep

theorem raise (x : Exc) (h : Charted w) (hstep : RunStep v (w.runView key)) :
    Steps env key (.raise x : App α) v w :=
  of_idle (.raise x []) h hstep

/-- One call: before it, after it, and then on with its answer. -/
theorem call {call : Call} {f : call.Answer → App β} (h : Charted w) (hcall : Lawful call)
    (hbefore : RunStep v (w.runView key)) (hafter : RunStep v ((env.sem call w).2.runView key))
    (hf : ∀ a, (env.sem call w).1 = .ok a → Steps env key (f a) v (env.sem call w).2) :
    Steps env key (perform call >>= f) v w := by
  rintro faults s rfl
  refine Program.wp_inject_perform (fun x n => ⟨h, hbefore⟩)
    (fun x n => ⟨sem_charted env hcall h, hafter⟩) fun a n ha => hf a ha faults _ rfl

/-- A part without task events, and then on wherever the run is viewed the same. -/
theorem bind {p : App α} {f : α → App β} (hp : Dispatches env key p []) (h : Charted w)
    (hstep : RunStep v (w.runView key))
    (hf : ∀ a t, p.MayReturn a → Charted t → t.runView key = w.runView key →
      Steps env key (f a) v t) :
    Steps env key (p >>= f) v w := by
  rintro faults s rfl
  rw [Program.wp_bind]
  refine Program.wp_mono (Program.wp_and (hp faults s h) Program.wp_mayReturn) ?_
  rintro r t ⟨⟨ht, done, hprefix, hgrows, -⟩, hmay⟩
  obtain rfl := List.prefix_nil.1 hprefix
  have hview : t.state.runView key = s.state.runView key :=
    congrArg₂ RunView.mk hgrows.kept (hgrows.emitted.trans (List.append_nil _))
  cases r with
  | ok a => exact hf a t.state (hmay a rfl) ht hview faults t rfl
  | error x => exact ⟨ht, hview ▸ hstep⟩

end Steps

section Settle

open SubAgentCoordinator

variable {env : Env} {key : String × String} {w : World MemoryStateStore}
  {envelope : EventEnvelope} {runId nodeId : String} {status : SubTaskStatus}

/-- The settle of a node advances the graph of its run. -/
theorem handleSettled_steps (h : Charted w) (hstatus : status = .completed ∨ status = .failed) :
    Steps env key (handleSettled envelope runId nodeId status) (w.runView key) w := by
  unfold handleSettled
  have hlawful : Lawful (.advanceTaskGraph envelope.event.workspaceId runId nodeId status) :=
    hstatus
  cases hstored : w.store.taskGraphs (envelope.event.workspaceId, runId) with
  | none =>
      have hsem := @sem_advanceTaskGraph_none w env _ _ nodeId status hstored
      have hsame : RunStep (w.runView key) ((env.sem
          (.advanceTaskGraph envelope.event.workspaceId runId nodeId status) w).2.runView key) := by
        rw [hsem]
        exact .idle _
      refine .call h hlawful (.idle _) hsame fun answer hanswer => ?_
      rw [hsem] at hanswer
      obtain rfl := Except.ok.inj hanswer
      exact .of_idle (dispatches_trace _ _ _ _) (sem_charted env hlawful h) hsame
  | some g =>
      set advance := g.planAdvance nodeId status with hadvance
      have hsem := @sem_advanceTaskGraph env w _ _ nodeId status _ hstored
      rw [← hadvance] at hsem
      obtain ⟨hplan, hworkspace, -⟩ := g.planAdvance_filing nodeId status
      obtain ⟨hw, hrun⟩ := Prod.mk.inj (h.filed _ g hstored)
      have hstep : ∀ done, done <+: tasksFor key envelope.event.workspaceId runId
          (advanceNodes advance) → RunStep (w.runView key) ⟨(env.sem (.advanceTaskGraph
            envelope.event.workspaceId runId nodeId status) w).2.store.taskGraphs key,
              w.taskNodes key.1 key.2 ++ done⟩ := by
        intro done hdone
        by_cases hkey : (envelope.event.workspaceId, runId) = key
        · rw [tasksFor, if_pos hkey] at hdone
          rw [hsem]
          have hgraph : (w.store.saveTaskGraph advance.graph).taskGraphs key =
              some advance.graph := by
            have hfiled : (advance.graph.workspaceId, advance.graph.planId) = key := by
              rw [hworkspace, hplan, hw, hrun]
              exact hkey
            rw [← hfiled]
            exact update_self _ _ _
          change RunStep ⟨w.store.taskGraphs key, _⟩
            ⟨(w.store.saveTaskGraph advance.graph).taskGraphs key, _⟩
          rw [hgraph, ← hkey, hstored]
          exact .settled hstatus hdone
        · rw [tasksFor, if_neg hkey] at hdone
          have hsame := @sem_elsewhere key env w
            (.advanceTaskGraph envelope.event.workspaceId runId nodeId status) hkey h
          rw [hsame, List.prefix_nil.1 hdone, List.append_nil]
          exact .idle _
      have htasks : (env.sem (.advanceTaskGraph envelope.event.workspaceId runId nodeId status)
          w).2.taskNodes key.1 key.2 = w.taskNodes key.1 key.2 :=
        (sem_taskNodes env _ key.1 key.2).trans (List.append_nil _)
      refine .call h hlawful (.idle _) ?_ fun answer hanswer => ?_
      · have hnone := hstep [] List.nil_prefix
        rw [List.append_nil, ← htasks] at hnone
        exact hnone
      · have hcharted := sem_charted env hlawful h
        rw [hsem] at hanswer
        obtain rfl := Except.ok.inj hanswer
        have hnodes : Dispatches env key (if advance.alreadyProcessed then
              SubAgentCoordinator.trace envelope.event "orchestration.duplicate"
            else settleAdvance envelope runId nodeId status advance)
            (tasksFor key envelope.event.workspaceId runId (advanceNodes advance)) := by
          cases hprocessed : advance.alreadyProcessed with
          | true =>
              have hnil : advanceNodes advance = [] := if_pos (.inl hprocessed)
              rw [hnil, tasksFor_nil]
              exact dispatches_trace _ _ _ _
          | false =>
              have hsettle := @settleAdvance_dispatches env key envelope runId nodeId status _
                hprocessed
              rwa [hadvance, hworkspace, hplan, hw, hrun, ← hadvance] at hsettle
        refine .of_dispatches hnodes hcharted fun done hdone => ?_
        rw [htasks]
        exact hstep done hdone

theorem handleCompleted_steps (h : Charted w) (status : String) :
    Steps env key (handleCompleted envelope runId nodeId status) (w.runView key) w := by
  unfold handleCompleted
  split
  · exact handleSettled_steps h (.inl rfl)
  · split
    · exact handleSettled_steps h (.inr rfl)
    · exact .of_idle (dispatches_trace _ _ _ _) h (.idle _)

end Settle

section Start

open DomainEventHandler

variable {env : Env} {key : String × String} {w : World MemoryStateStore}
  {envelope : EventEnvelope} {snapshot : ContextSnapshot} {runId : String}

/-- A call that is idle for the run. -/
theorem dispatches_call {call : Call} (hlawful : Lawful call) (hcall : Elsewhere key call)
    (hqueue : unassigned.calls call) : Dispatches env key (perform call) [] :=
  .perform fun _ h => sem_idle env hlawful hcall hqueue h

/-- Starting a graph of another run. -/
theorem startGraph_elsewhere {graph : TaskGraph} (hnew : ∀ n ∈ graph.allNodes, n.status = .pending)
    (hfiled : (graph.workspaceId, graph.planId) = (snapshot.context.workspaceId, runId))
    (hkey : (snapshot.context.workspaceId, runId) ≠ key) :
    Dispatches env key (startGraph envelope snapshot runId graph) [] := by
  unfold startGraph
  refine .after (dispatches_call trivial trivial trivial) fun _ _ => ?_
  refine .after (dispatches_call hnew (hfiled.trans_ne hkey) trivial) fun _ _ => ?_
  refine .after (dispatches_trace _ _ _ _) fun _ _ => ?_
  refine .after (dispatches_call trivial hkey trivial) fun ready _ => ?_
  split
  · exact .after (dispatches_call trivial trivial trivial) fun _ _ => dispatches_trace _ _ _ _
  · have hready := @dispatchReady_dispatches env key envelope snapshot.context.workspaceId runId
      graph.projectId ready
    rwa [tasksFor, if_neg hkey] at hready

/-- Starting a graph of a run that has none. -/
theorem startGraph_steps {graph : TaskGraph} (h : Charted w)
    (hnew : ∀ n ∈ graph.allNodes, n.status = .pending)
    (hfiled : (graph.workspaceId, graph.planId) = (snapshot.context.workspaceId, runId))
    (hnone : w.store.taskGraphs (snapshot.context.workspaceId, runId) = none) :
    Steps env (snapshot.context.workspaceId, runId) (startGraph envelope snapshot runId graph)
      (w.runView (snapshot.context.workspaceId, runId)) w := by
  set key := (snapshot.context.workspaceId, runId) with hkey
  unfold startGraph
  refine .bind (dispatches_call trivial trivial trivial) h (.idle _) fun _ t _ ht hview => ?_
  have hv : w.runView key = ⟨none, t.taskNodes key.1 key.2⟩ := by
    rw [← hview]
    have hgraph := congrArg RunView.graph hview
    exact congrArg (RunView.mk · _) (hgraph.trans hnone)
  -- the graph is stored
  have hlawful : Lawful (.saveTaskGraph graph) := hnew
  have hstored : (env.sem (.saveTaskGraph graph) t).2.runView key =
      ⟨some graph, t.taskNodes key.1 key.2⟩ := by
    have hgraphs : (t.store.saveTaskGraph graph).taskGraphs key = some graph := by
      rw [← hfiled]
      exact update_self _ _ _
    exact congrArg (RunView.mk · _) hgraphs
  have hsaved : RunStep (w.runView key) ⟨some graph, t.taskNodes key.1 key.2⟩ := by
    rw [hv]
    exact .saved hnew
  refine .call ht hlawful (hview ▸ .idle _) (hstored ▸ hsaved) fun _ _ => ?_
  refine .bind (dispatches_trace _ _ _ _) (sem_charted env hlawful ht) (hstored ▸ hsaved)
    fun _ u _ hu hviewU => ?_
  rw [hstored] at hviewU
  -- its ready nodes are claimed
  have hget : u.store.taskGraphs (snapshot.context.workspaceId, runId) = some graph :=
    congrArg RunView.graph hviewU
  have htasks : u.taskNodes key.1 key.2 = t.taskNodes key.1 key.2 :=
    congrArg RunView.dispatched hviewU
  have hstep : ∀ done, done <+: graph.claimReady.2.map (·.nodeId) → RunStep (w.runView key)
      ⟨some graph.claimReady.1, t.taskNodes key.1 key.2 ++ done⟩ := by
    intro done hdone
    rw [hv]
    exact .started hnew hdone
  have hsem := sem_claimReadyNodes env hget
  have hclaimed : (env.sem (.claimReadyNodes snapshot.context.workspaceId runId) u).2.runView key =
      ⟨some graph.claimReady.1, t.taskNodes key.1 key.2⟩ := by
    obtain ⟨hplan, hworkspace, -⟩ := graph.claimReady_filing
    have hgraphs : (u.store.saveTaskGraph graph.claimReady.1).taskGraphs key =
        some graph.claimReady.1 := by
      have hclaimedKey : (graph.claimReady.1.workspaceId, graph.claimReady.1.planId) = key := by
        rw [hworkspace, hplan]
        exact hfiled
      rw [← hclaimedKey]
      exact update_self _ _ _
    rw [hsem, ← htasks]
    exact congrArg (RunView.mk · _) hgraphs
  have hnil : RunStep (w.runView key) ⟨some graph.claimReady.1, t.taskNodes key.1 key.2⟩ := by
    have h := hstep [] List.nil_prefix
    rwa [List.append_nil] at h
  have hcharted := @sem_charted u env (.claimReadyNodes snapshot.context.workspaceId runId)
    trivial hu
  refine .call hu trivial (hviewU ▸ hsaved) (hclaimed ▸ hnil) fun ready hready => ?_
  rw [hsem] at hready
  obtain rfl := Except.ok.inj hready
  split
  · refine .of_idle ?_ hcharted (hclaimed ▸ hnil)
    exact .after (dispatches_call trivial trivial trivial) fun _ _ => dispatches_trace _ _ _ _
  · have hdispatches := @dispatchReady_dispatches env key envelope snapshot.context.workspaceId
      runId graph.projectId graph.claimReady.2
    rw [tasksFor, if_pos hkey.symm] at hdispatches
    refine .of_dispatches hdispatches hcharted fun done hdone => ?_
    have hg := congrArg RunView.graph hclaimed
    have hd := congrArg RunView.dispatched hclaimed
    change RunStep _ ⟨((env.sem _ u).2.runView key).graph,
      ((env.sem _ u).2.runView key).dispatched ++ done⟩
    rw [hg, hd]
    exact hstep done hdone

/-- An orchestrated run is started at most once. -/
theorem handleOrchestrated_steps (registries : Registries) (workflow : WorkflowDefinition)
    (h : Charted w) :
    Steps env key (handleOrchestrated registries envelope workflow snapshot runId)
      (w.runView key) w := by
  unfold handleOrchestrated
  have hlawful : Lawful (.getTaskGraph snapshot.context.workspaceId runId) := trivial
  have hread : (env.sem (.getTaskGraph snapshot.context.workspaceId runId) w).2.runView key =
      w.runView key := rfl
  refine .call h hlawful (.idle _) (hread ▸ .idle _) fun found hfound => ?_
  have hcharted := sem_charted env hlawful h
  cases found with
  | some graph => exact .of_idle (dispatches_trace _ _ _ _) hcharted (hread ▸ .idle _)
  | none =>
      refine .bind (dispatches_nil_of_writes (unlessTerminal_writes envelope _ _) (by decide)
        (by decide)) hcharted (hread ▸ .idle _) fun started t _ ht hview => ?_
      rw [hread] at hview
      cases started with
      | false => exact .of_idle (.pure ()) ht (hview ▸ .idle _)
      | true =>
          dsimp only
          cases hgraph : Orchestrator.buildOrchestratedGraph registries.skills runId
              snapshot.context workflow with
          | error x => exact .raise x ht (hview ▸ .idle _)
          | ok graph =>
              have hfounding := Orchestrator.buildOrchestratedGraph_founding hgraph
                (some snapshot.ref)
              have hnew : ∀ n ∈ ({ graph with contextSnapshotRef := some snapshot.ref } :
                  TaskGraph).allNodes, n.status = .pending :=
                lawful_of_founding hfounding
              obtain ⟨hworkspace, hplan, -⟩ := hfounding
              have hfiled : (graph.workspaceId, graph.planId) =
                  (snapshot.context.workspaceId, runId) := Prod.ext hworkspace hplan
              change Steps env key (startGraph envelope snapshot runId _) _ _
              by_cases hkey : (snapshot.context.workspaceId, runId) = key
              · subst hkey
                rw [← hview]
                refine startGraph_steps ht hnew hfiled ?_
                have hnone : w.store.taskGraphs (snapshot.context.workspaceId, runId) = none :=
                  Except.ok.inj hfound
                exact (congrArg RunView.graph hview).trans hnone
              · exact .of_idle (startGraph_elsewhere hnew hfiled hkey) ht (hview ▸ .idle _)

/-- A single plan saves the graph of its own run only. -/
theorem handlePlan_founds (registries : Registries) (workflow : WorkflowDefinition)
    (hkey : (snapshot.context.workspaceId, runId) ≠ key) :
    (handlePlan registries envelope workflow snapshot runId).OnlyCalls (FoundsElsewhere key) := by
  have hframe : ∀ call, call.writesIn (.plans :: .contextSnapshots :: announced) = true →
      FoundsElsewhere key call := fun call hcall =>
    foundsElsewhere_of_writes (Call.writes_ne hcall (by decide))
  have hsave : FoundsElsewhere key
      (.saveTaskGraph (Orchestrator.buildTaskGraph runId snapshot.context workflow)) := by
    refine ⟨?_, hkey⟩
    simp [Orchestrator.buildTaskGraph, TaskGraph.allNodes]
  have hstart : ∀ replan, (startPlan registries envelope workflow snapshot runId replan).OnlyCalls
      (FoundsElsewhere key) := startPlan_calls registries hframe hsave
  refine .bind ((Program.onlyCalls_perform _).2 trivial) fun found => ?_
  split
  · exact hstart false
  · split
    · exact hstart true
    · refine .bind ((Program.onlyCalls_perform _).2 trivial) fun _ => ?_
      refine .bind ((Program.onlyCalls_perform _).2 trivial) fun _ => ?_
      exact Program.OnlyCalls.mono ((enqueueFirstAction_writes envelope _).mono (by decide)) hframe

theorem handle_steps (registries : Registries) (h : Charted w)
    (halone : plansAlone registries key envelope = false) :
    Steps env key (DomainEventHandler.handle registries envelope) (w.runView key) w := by
  unfold DomainEventHandler.handle
  cases hroute : (route registries.workflows envelope).workflow with
  | none => exact .of_idle (dispatches_trace _ _ _ _) h (.idle _)
  | some workflow =>
      refine .bind (dispatches_nil_of_writes (ContextProvider.hydrate_writes _ _ _) (by simp)
        (by simp)) h (.idle _) fun snapshot t hsnapshot ht hview => ?_
      obtain ⟨hworkspace, hsource⟩ := ContextProvider.hydrate_mayReturn hsnapshot
      rw [← hview]
      dsimp only
      cases horchestrated : isOrchestrated workflow with
      | true => exact handleOrchestrated_steps registries workflow ht
      | false =>
          refine .of_idle (dispatches_nil_of_founds (handlePlan_unassigned envelope _ _ _ _)
            (handlePlan_founds registries workflow fun hkey => ?_)) ht (.idle _)
          rw [hworkspace, resolveAgentRunId_eq hsource] at hkey
          simp [plansAlone, hroute, horchestrated, hkey] at halone

end Start

/-- Delivering a message is a step of every run that it does not plan on its own. -/
theorem dispatch_steps {env : Env} {key : String × String} {w : World MemoryStateStore}
    (registries : Registries) (message : Message) (h : Charted w)
    (halone : plansAlone registries key message.envelope = false) :
    Steps env key (RecursionRunner.dispatch registries message) (w.runView key) w := by
  unfold RecursionRunner.dispatch
  cases hkind : message.envelope.event.kind with
  | agentAction planId actionId =>
      exact .of_idle (dispatches_nil_of_unassigned
        (ActionEventHandler.handle_unassigned _ _)
        ((ActionEventHandler.handle_writes _ _).avoids (by decide))) h (.idle _)
  | subagentTask runId nodeId =>
      unfold SubAgentCoordinator.handle
      rw [hkind]
      exact .of_idle (dispatches_nil_of_unassigned
        (SubAgentCoordinator.handleTask_unassigned _ _ _ _)
        ((SubAgentCoordinator.handleTask_writes _ _ _ _).avoids (by decide))) h (.idle _)
  | subagentCompleted runId nodeId status =>
      unfold SubAgentCoordinator.handle
      rw [hkind]
      exact handleCompleted_steps h status
  | _ => exact handle_steps registries h halone

/-- One handling under any faults is a step of every run that it does not plan on its
own. -/
theorem handling_step (env : Env) {key : String × String} {w : World MemoryStateStore}
    {handling : Handling} (h : Charted w)
    (halone : plansAlone env.registries key handling.message.envelope = false) :
    Charted (handling.run env w).2.state ∧
      RunStep (w.runView key) ((handling.run env w).2.state.runView key) := by
  have hsteps := @dispatch_steps env _ _ env.registries handling.message h halone
    handling.faults { state := w } rfl
  rwa [Program.wp_step_iff] at hsteps

end PrismAgent
