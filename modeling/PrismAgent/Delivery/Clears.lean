import PrismAgent.Delivery.Due

/-!
# Handlings that return

A handling that returns has done what its writes of graphs call for. `Clears` says of a
program that it returns only when nothing is owed any more, whatever faults it runs
under; the handlers that start and advance graphs are walked through call by call.
-/

namespace PrismAgent

open Effect

/-- Started in `w` with at most `owed`, the program returns only when nothing is owed. -/
def Clears (env : Env) (p : App Unit) (w : World MemoryStateStore) (owed : List Debt) : Prop :=
  ∀ (faults : FaultScript Exc) (w₀ : World MemoryStateStore)
    (s : Logged Call (World MemoryStateStore)),
    s.state = w → (graphDebts.account env.sem w₀ s.log).state = w →
      (graphDebts.account env.sem w₀ s.log).owed ⊆ owed →
        p.wp (env.sem.inject faults).step
          (fun r t => (∃ a, r = .ok a) → (graphDebts.account env.sem w₀ t.log).owed = []) s

namespace Clears

variable {env : Env} {w : World MemoryStateStore} {owed : List Debt}

/-- A program that incurs nothing and settles what is owed. -/
theorem of_silent {p : App Unit} (hp : p.OnlyCalls fun call => ∀ w, incurs w call = [])
    (hmakes : ∀ d ∈ owed, p.Makes fun call => settles call d = true) : Clears env p w owed :=
  fun _ _ _ _ _ howed => Program.wp_settled graphDebts (fun w _ hcall => hcall w) hp
    fun d hd => hmakes d (howed hd)

theorem of_makes {parts : List Part} {p : App Unit} (hp : Writes parts p)
    (hgraphs : .taskGraphs ∉ parts)
    (hmakes : ∀ d ∈ owed, p.Makes fun call => settles call d = true) : Clears env p w owed :=
  of_silent ((hp.avoids hgraphs).mono fun _ hcall => incurs_of_writes hcall) hmakes

theorem of_writes {parts : List Part} {p : App Unit} (hp : Writes parts p)
    (hgraphs : .taskGraphs ∉ parts) : Clears env p w [] :=
  of_makes hp hgraphs (List.forall_mem_nil _)

theorem raise (x : Exc) : Clears env (.raise x) w owed := by
  rintro _ _ _ - - - ⟨a, ha⟩
  cases ha

/-- One call, after which the program goes on with its answer. -/
theorem step {call : Call} {f : call.Answer → App Unit} (owed' : List Debt)
    (hkept : ∀ d ∈ owed, settles call d = false → d ∈ owed') (hincurs : incurs w call ⊆ owed')
    (h : ∀ a, (env.sem call w).1 = .ok a → Clears env (f a) (env.sem call w).2 owed') :
    Clears env (perform call >>= f) w owed := by
  rintro faults w₀ s rfl hstate howed
  refine Program.wp_inject_perform ?_ ?_ fun a n ha => h a ha faults w₀ _ rfl ?_ ?_
  · rintro x n ⟨a, ha⟩
    cases ha
  · rintro x n ⟨a, ha⟩
    cases ha
  · rw [Debts.account_concat, Debts.post, hstate]
  · intro d hd
    rw [Debts.account_concat, Debts.post, hstate] at hd
    rcases List.mem_append.1 hd with hd | hd
    · obtain ⟨hmem, hopen⟩ := List.mem_filter.1 hd
      exact hkept d (howed hmem) (by simpa [graphDebts] using hopen)
    · exact hincurs hd

/-- One call that writes no graph. -/
theorem announce {call : Call} {f : call.Answer → App Unit}
    (hcall : call.writes ≠ some .taskGraphs)
    (h : ∀ a, Clears env (f a) (env.sem call w).2 owed) :
    Clears env (perform call >>= f) w owed := by
  refine step owed (fun d hd _ => hd) ?_ fun a _ => h a
  rw [incurs_of_writes hcall]
  exact List.nil_subset _

/-- While nothing is owed, a part that writes no graph owes nothing. -/
theorem frame {α : Type} {parts : List Part} {p : App α} {f : α → App Unit}
    (hp : Writes parts p) (hgraphs : .taskGraphs ∉ parts)
    (hf : ∀ a t, Clears env (f a) t []) : Clears env (p >>= f) w [] := by
  rintro faults w₀ s rfl hstate howed
  refine Program.wp_inject_bind (P := fun call => call.writes ≠ some .taskGraphs)
    (I := fun state log => (graphDebts.account env.sem w₀ log).state = state ∧
      (graphDebts.account env.sem w₀ log).owed ⊆ [])
    (fun state log call hcall hstate => ?_) (hp.avoids hgraphs) ⟨hstate, howed⟩ ?_
    fun a t ht => hf a t.state faults w₀ t rfl ht.1 ht.2
  · rw [Debts.account_concat, Debts.post, hstate.1, List.subset_nil.1 hstate.2]
    simp [graphDebts, incurs_of_writes hcall]
  · rintro x t - ⟨a, ha⟩
    cases ha

end Clears

namespace DomainEventHandler

variable {env : Env} {w : World MemoryStateStore} {envelope : EventEnvelope}
  {snapshot : ContextSnapshot} {runId : String}

/-- Every node to be dispatched gets its task event. -/
theorem dispatchReady_makes (workspaceId runId : String) (projectId : Option String)
    {nodes : List SubTask} {node : SubTask} (hnode : node ∈ nodes) :
    (dispatchReady envelope workspaceId runId projectId nodes).Makes fun call =>
      settles call (.task workspaceId runId node.nodeId) = true := by
  induction nodes with
  | nil => cases hnode
  | cons first nodes ih =>
      unfold dispatchReady
      refine .right fun eventId _ => ?_
      rcases List.mem_cons.1 hnode with rfl | hnode
      · refine .left (Program.makes_perform ?_) _
        have htask : World.taskNode? workspaceId runId (.wrap (subAgentTaskEvent eventId workspaceId
            projectId runId node.nodeId envelope.event.correlationId
            (envelope.event.causality.child envelope.eventId))) = some node.nodeId :=
          if_pos ⟨rfl, rfl⟩
        exact decide_eq_true htask
      · exact .right fun _ _ => .right fun _ _ => ih hnode

/-- A graph that starts returns with its ready nodes claimed and dispatched. -/
theorem startGraph_clears {graph : TaskGraph}
    (hfiled : (graph.workspaceId, graph.planId) = (snapshot.context.workspaceId, runId)) :
    Clears env (startGraph envelope snapshot runId graph) w [] := by
  unfold startGraph
  refine .announce (by rintro ⟨⟩) fun _ => ?_
  generalize (env.sem (.saveContextSnapshot { snapshot with planId := some runId }) w).2 = t
  -- the saved graph owes its claim
  refine .step [.claim snapshot.context.workspaceId runId] (List.forall_mem_nil _)
    (fun d hd => ?_) fun _ _ => ?_
  · simp only [incurs] at hd
    split at hd
    · rw [(Prod.mk.inj hfiled).1, (Prod.mk.inj hfiled).2] at hd
      exact hd
    · cases hd
  refine .announce (by rintro ⟨⟩) fun _ => ?_
  set t' := (env.sem _ (env.sem (.saveTaskGraph graph) t).2).2 with ht'
  have hstored : t'.store.taskGraphs (snapshot.context.workspaceId, runId) = some graph := by
    rw [ht', ← hfiled]
    exact Function.update_self _ _ _
  -- the claim owes the task events of the nodes that it answers with
  refine .step (graph.claimReady.2.map fun node =>
    .task snapshot.context.workspaceId runId node.nodeId) (fun d hd hopen => ?_) ?_
      fun ready hready => ?_
  · rw [List.mem_singleton.1 hd] at hopen
    simp [settles] at hopen
  · have hget : t'.store.getTaskGraph snapshot.context.workspaceId runId = some graph := hstored
    rw [incurs, hget]
    exact List.Subset.refl _
  · rw [sem_claimReadyNodes env hstored] at hready
    obtain rfl := Except.ok.inj hready
    split
    next hnil =>
      rw [hnil]
      refine .of_writes (?_ : Writes announced _) (by decide)
      exact .bind (.perform rfl) fun _ => trace_writes (by decide) _ _ _ _
    next =>
      refine .of_makes (dispatchReady_writes envelope _ _ _ _) (by decide) fun d hd => ?_
      obtain ⟨node, hnode, rfl⟩ := List.mem_map.1 hd
      exact dispatchReady_makes _ _ _ hnode

/-- An orchestrated run starts its graph once. -/
theorem handleOrchestrated_clears (registries : Registries) (workflow : WorkflowDefinition) :
    Clears env (handleOrchestrated registries envelope workflow snapshot runId) w [] := by
  unfold handleOrchestrated
  refine .announce (by rintro ⟨⟩) fun found => ?_
  generalize (env.sem (.getTaskGraph snapshot.context.workspaceId runId) w).2 = t
  cases found with
  | some graph =>
      exact .of_writes (trace_writes (List.mem_singleton_self Part.traces) _ _ _ _) (by decide)
  | none =>
      refine .frame (unlessTerminal_writes envelope _ _) (by decide) fun started t => ?_
      cases started with
      | false => exact .of_writes (.pure () : Writes [] _) (by decide)
      | true =>
          dsimp only
          cases hgraph : Orchestrator.buildOrchestratedGraph registries.skills runId
              snapshot.context workflow with
          | error x => exact .raise x
          | ok graph =>
              obtain ⟨hworkspace, hplan, -⟩ :=
                Orchestrator.buildOrchestratedGraph_founding hgraph (some snapshot.ref)
              exact startGraph_clears (Prod.ext hworkspace hplan)

/-- A run of one plan saves a graph that nothing is owed for. -/
theorem handlePlan_clears (registries : Registries) (workflow : WorkflowDefinition) :
    Clears env (handlePlan registries envelope workflow snapshot runId) w [] := by
  have hstart : ∀ (t : World MemoryStateStore) replan, Clears env
      (startPlan registries envelope workflow snapshot runId replan) t [] := by
    intro t replan
    refine .of_silent (startPlan_calls registries (fun call hcall => ?_) ?_ replan)
      (List.forall_mem_nil _)
    · exact incurs_of_writes (Call.writes_ne hcall (by decide))
    · intro _
      simp [incurs, Orchestrator.buildTaskGraph]
  unfold handlePlan
  refine .announce (by rintro ⟨⟩) fun found => ?_
  generalize (env.sem (.getPlan snapshot.context.workspaceId runId) w).2 = t
  cases found with
  | none => exact hstart t false
  | some plan =>
      dsimp only
      split
      · exact hstart t true
      · refine .of_writes (?_ : Writes (.plans :: .contextSnapshots :: announced) _) (by decide)
        refine .bind (.perform rfl) fun _ => .bind (trace_writes (by decide) _ _ _ _) fun _ => ?_
        exact (enqueueFirstAction_writes envelope _).mono (by decide)

theorem handle_clears (registries : Registries) :
    Clears env (handle registries envelope) w [] := by
  unfold handle
  split
  · exact .of_writes (trace_writes (List.mem_singleton_self Part.traces) _ _ _ _) (by decide)
  · refine .frame (ContextProvider.hydrate_writes _ _ _) (by decide) fun snapshot t => ?_
    dsimp only
    split
    · exact handleOrchestrated_clears _ _
    · exact handlePlan_clears _ _

end DomainEventHandler

namespace SubAgentCoordinator

variable {env : Env} {w : World MemoryStateStore} {envelope : EventEnvelope}
  {workspaceId runId nodeId : String} {advance : TaskGraphAdvance}

theorem dispatchNode_makes {graph : TaskGraph} (hworkspace : graph.workspaceId = workspaceId)
    (hplan : graph.planId = runId) (node : SubTask) :
    (dispatchNode envelope graph node).Makes fun call =>
      settles call (.task workspaceId runId node.nodeId) = true := by
  subst hworkspace hplan
  unfold dispatchNode
  refine .right fun eventId _ => .left (Program.makes_perform ?_) _
  have htask : World.taskNode? graph.workspaceId graph.planId (.wrap (subAgentTaskEvent eventId
      graph.workspaceId graph.projectId graph.planId node.nodeId envelope.event.correlationId
      (envelope.event.causality.child envelope.eventId))) = some node.nodeId :=
    if_pos ⟨rfl, rfl⟩
  exact decide_eq_true htask

theorem dispatchNodes_makes {graph : TaskGraph} (hworkspace : graph.workspaceId = workspaceId)
    (hplan : graph.planId = runId) {nodes : List SubTask} {node : SubTask} (hnode : node ∈ nodes) :
    (dispatchNodes envelope graph nodes).Makes fun call =>
      settles call (.task workspaceId runId node.nodeId) = true := by
  induction nodes with
  | nil => cases hnode
  | cons first nodes ih =>
      unfold dispatchNodes
      rcases List.mem_cons.1 hnode with rfl | hnode
      · exact .left (dispatchNode_makes hworkspace hplan node) _
      · exact .right fun _ _ => ih hnode

theorem buildResult_mayReturn {subPlan : Option AgentPlan} {result : SubAgentResult}
    (h : (buildResult nodeId subPlan).MayReturn result) : result.nodeId = nodeId := by
  cases subPlan with
  | none =>
      obtain rfl := (Program.mayReturn_pure _).1 h
      rfl
  | some plan =>
      obtain ⟨outputs, -, hresult⟩ := Program.mayReturn_bind.1 h
      obtain rfl := (Program.mayReturn_pure _).1 hresult
      rfl

theorem storeResult_makes : (storeResult workspaceId runId nodeId).Makes fun call =>
    settles call (.result workspaceId runId nodeId) = true := by
  refine .right fun subPlan _ => .right fun result hresult => Program.makes_perform ?_
  exact decide_eq_true ⟨rfl, rfl, buildResult_mayReturn hresult⟩

theorem completeRun_makes {event : RuntimeEvent} (hcompleted : advance.runCompleted = true) :
    (completeRun event runId advance).Makes fun call =>
      settles call (.completion event.workspaceId runId) = true := by
  unfold completeRun
  rw [if_pos hcompleted]
  refine .left (Program.makes_perform ?_) _
  exact decide_eq_true ⟨rfl, rfl⟩

/-- Acting on an advance that did not fail the run does all that the advance calls for. -/
theorem settleAdvance_makes {status : SubTaskStatus} {known : Bool}
    (hfailed : advance.runFailed = false)
    (hworkspace : advance.graph.workspaceId = envelope.event.workspaceId)
    (hplan : advance.graph.planId = runId) {d : Debt}
    (hd : d ∈ advance.debts envelope.event.workspaceId runId nodeId status known) :
    (settleAdvance envelope runId nodeId status advance).Makes fun call =>
      settles call d = true := by
  unfold settleAdvance
  rw [hfailed]
  rcases List.mem_append.1 hd with hd | hd
  · rcases List.mem_append.1 hd with hd | hd
    · split at hd
      next hresult =>
        rw [List.mem_singleton.1 hd]
        refine .left ?_ _
        unfold recordResult
        rw [if_pos ⟨hresult.1, hresult.2.2.1⟩]
        exact storeResult_makes
      next => cases hd
    · obtain ⟨node, hnode, rfl⟩ := List.mem_map.1 hd
      refine .right fun _ _ => ?_
      rcases List.mem_append.1 hnode with hnode | hnode
      · exact .left (dispatchNodes_makes hworkspace hplan hnode) _
      · refine .right fun _ _ => .left ?_ _
        unfold dispatchSynthesizer
        rw [Option.mem_toList.1 hnode]
        exact dispatchNode_makes hworkspace hplan node
  · split at hd
    next hcompleted =>
      rw [List.mem_singleton.1 hd]
      exact .right fun _ _ => .right fun _ _ => .right fun _ _ =>
        .left (completeRun_makes hcompleted) _
    next => cases hd

/-- The settle of a node returns with everything done that its advance calls for. -/
theorem handleSettled_clears {status : SubTaskStatus} (h : Charted w)
    (hstatus : status = .completed ∨ status = .failed) :
    Clears env (handleSettled envelope runId nodeId status) w [] := by
  unfold handleSettled
  cases hstored : w.store.taskGraphs (envelope.event.workspaceId, runId) with
  | none =>
      have hget : w.store.getTaskGraph envelope.event.workspaceId runId = none := hstored
      refine .step [] (List.forall_mem_nil _) ?_ fun answer hanswer => ?_
      · rw [incurs, hget]
        exact List.nil_subset _
      · rw [sem_advanceTaskGraph_none env hstored] at hanswer
        obtain rfl := Except.ok.inj hanswer
        exact .of_writes (trace_writes (List.mem_singleton_self Part.traces) _ _ _ _) (by decide)
  | some g =>
      have hget : w.store.getTaskGraph envelope.event.workspaceId runId = some g := hstored
      obtain ⟨hplan, hworkspace, -⟩ := g.planAdvance_filing nodeId status
      obtain ⟨hw, hrun⟩ := Prod.mk.inj (h.filed _ g hstored)
      obtain ⟨base, σ, rfl⟩ := h.uniform _ g hstored
      obtain ⟨τ, hcase⟩ := TaskGraph.planAdvance_spec base σ nodeId hstatus
      set advance := (base.withStatuses σ).planAdvance nodeId status with hadvance
      refine .step (advance.debts envelope.event.workspaceId runId nodeId status
        ((base.withStatuses σ).getNode nodeId).isSome) (List.forall_mem_nil _) ?_
          fun answer hanswer => ?_
      · rw [incurs, hget]
        exact List.Subset.refl _
      · rw [sem_advanceTaskGraph env w hstored] at hanswer
        obtain rfl := Except.ok.inj hanswer
        dsimp only
        rw [← hadvance]
        cases hdup : advance.alreadyProcessed with
        | true =>
            rw [hcase.debts_eq_nil (.inl hdup)]
            exact .of_writes (trace_writes (List.mem_singleton_self Part.traces) _ _ _ _)
              (by decide)
        | false =>
            refine .of_makes (settleAdvance_writes envelope _ _ _ _) (by decide) fun d hd => ?_
            cases hfailed : advance.runFailed with
            | true =>
                rw [hcase.debts_eq_nil (.inr hfailed)] at hd
                cases hd
            | false =>
                exact settleAdvance_makes hfailed (hworkspace.trans hw) (hplan.trans hrun) hd

theorem handleCompleted_clears (h : Charted w) (status : String) :
    Clears env (handleCompleted envelope runId nodeId status) w [] := by
  unfold handleCompleted
  split
  · exact handleSettled_clears h (.inl rfl)
  · split
    · exact handleSettled_clears h (.inr rfl)
    · exact .of_writes (trace_writes (List.mem_singleton_self Part.traces) _ _ _ _) (by decide)

end SubAgentCoordinator

/-- Whatever is delivered, a handling returns only when nothing is owed. -/
theorem dispatch_clears {env : Env} {w : World MemoryStateStore} (registries : Registries)
    (message : Message) (h : Charted w) :
    Clears env (RecursionRunner.dispatch registries message) w [] := by
  unfold RecursionRunner.dispatch
  cases hkind : message.envelope.event.kind with
  | agentAction planId actionId =>
      exact .of_writes (ActionEventHandler.handle_writes _ _) (by decide)
  | subagentTask runId nodeId =>
      unfold SubAgentCoordinator.handle
      rw [hkind]
      exact .of_writes (SubAgentCoordinator.handleTask_writes _ _ _ _) (by decide)
  | subagentCompleted runId nodeId status =>
      unfold SubAgentCoordinator.handle
      rw [hkind]
      exact SubAgentCoordinator.handleCompleted_clears h status
  | _ => exact DomainEventHandler.handle_clears registries

end PrismAgent
