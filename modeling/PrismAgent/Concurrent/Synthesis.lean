import PrismAgent.Effect.Interleaving
import PrismAgent.Join.Absorbing

/-!
# What the synthesizer sees

Invocations of the coordinator handle completions of one run over a shared store. An
invocation advances the graph, saves the result of its node and then dispatches what
its advance claimed. Between its advance and its save it owes the result, and another
invocation may meanwhile dispatch the synthesizer: `informed_iff` says that every result
is there when the synthesizer's task is enqueued if and only if no other invocation owes
a missing one at that moment.
-/

namespace PrismAgent

open Effect

namespace SubAgentCoordinator

/-- How far an invocation has got with its completion, and whether its advance claimed
the synthesizer. -/
inductive Stage
  | entered
  | owing (claimed : Bool)
  | following (claimed : Bool)

namespace Stage

/-- The stage that an advance leads to. -/
def after (status : SubTaskStatus) (advance : TaskGraphAdvance) : Stage :=
  if advance.alreadyProcessed then .following false
  else if status = .completed ∧ advance.isSynthesizer = false then
    .owing advance.dispatchSynthesizer.isSome
  else .following advance.dispatchSynthesizer.isSome

/-- The stage after the result has been saved. -/
def saved : Stage → Stage
  | .owing claimed => .following claimed
  | stage => stage

end Stage

section Typestate

variable {workspaceId runId : String} (synthesizerId : String)

/-- Calls that touch neither the graphs nor the results nor the queue, and succeed. -/
def Ancillary : Call → Prop
  | .getPlan _ _ | .getActionResult _ _ | .uuid4 | .appendTraceEvent _
  | .sync (.runFailed _ _ _) | .sync (.runCompletedById _ _) => True
  | _ => False

theorem Ancillary.writes {call : Call} (h : Ancillary call) :
    call.writes ≠ some .taskGraphs ∧ call.writes ≠ some .subAgentResults ∧
      call.writes ≠ some .queue := by
  cases call with
  | saveTaskGraph => cases h
  | claimReadyNodes => cases h
  | advanceTaskGraph => cases h
  | saveSubAgentResult => cases h
  | enqueue => cases h
  | _ => simp [Call.writes]

/-- The calls of an invocation that handles the completion `c`, stage by stage. -/
def joining (c : Completion workspaceId runId) : Typestate Stage Call Call.Answer Exc where
  allows stage call :=
    match call with
    | .advanceTaskGraph workspace run nodeId status =>
        stage = .entered ∧ workspace = workspaceId ∧ run = runId ∧ nodeId = c.nodeId ∧
          status = c.status
    | .saveSubAgentResult workspace run result =>
        (∃ claimed, stage = .owing claimed) ∧ workspace = workspaceId ∧ run = runId ∧
          result.nodeId = c.nodeId
    | .enqueue envelope =>
        ∃ claimed, stage = .following claimed ∧
          (World.taskNode? workspaceId runId envelope = some synthesizerId → claimed = true)
    | call => Ancillary call
  next stage call answer :=
    match call, answer with
    | .advanceTaskGraph _ _ _ status, .ok (some advance) => .after status advance
    | .advanceTaskGraph _ _ _ _, _ => .following false
    | .saveSubAgentResult _ _ _, _ => stage.saved
    | _, _ => stage
  raises stage := ∀ claimed, stage ≠ .owing claimed
  answers call answer :=
    match call, answer with
    | .advanceTaskGraph _ _ _ _, .ok (some advance) =>
        ∀ node ∈ advance.newlyReady, node.nodeId ≠ synthesizerId
    | _, .ok _ => True
    | _, .error _ => False

end Typestate

section Handler

variable {workspaceId runId synthesizerId : String} {c : Completion workspaceId runId}

/-- An ancillary call leaves the stage. -/
theorem obeys_ancillary {call : Call} (h : Ancillary call) (stage : Stage) :
    (perform call).Obeys (joining synthesizerId c) (fun _ t => t = stage) stage := by
  refine Program.obeys_perform ?_ ?_ ?_
  · cases call with
    | advanceTaskGraph => cases h
    | saveSubAgentResult => cases h
    | enqueue => cases h
    | _ => exact h
  · intro a _
    cases call with
    | advanceTaskGraph => cases h
    | saveSubAgentResult => cases h
    | _ => rfl
  · intro x hx
    cases call with
    | advanceTaskGraph => cases h
    | _ => cases hx

theorem trace_obeys (event : RuntimeEvent) (eventName : String) (stage : Stage) :
    (trace event eventName).Obeys (joining synthesizerId c) (fun _ t => t = stage) stage :=
  obeys_ancillary (by trivial) stage

theorem actionOutputs_obeys (planId : String) (actions : List PlannedAction) (outputs : Fields)
    (stage : Stage) :
    (actionOutputs planId actions outputs).Obeys (joining synthesizerId c)
      (fun _ t => t = stage) stage := by
  induction actions generalizing outputs with
  | nil => exact rfl
  | cons action actions ih =>
      refine .bind (obeys_ancillary (by trivial) stage) fun found t ht => ?_
      rw [ht]
      cases found with
      | none => exact ih outputs
      | some result => exact ih _

/-- The result that is built is one of its node. -/
theorem buildResult_obeys (nodeId : String) (subPlan : Option AgentPlan) (stage : Stage) :
    (buildResult nodeId subPlan).Obeys (joining synthesizerId c)
      (fun result t => result.nodeId = nodeId ∧ t = stage) stage := by
  cases subPlan with
  | none => exact ⟨rfl, rfl⟩
  | some plan =>
      refine .bind (actionOutputs_obeys _ _ _ stage) fun outputs t ht => ?_
      exact ⟨rfl, ht⟩

/-- An invocation that owes the result of its node saves it. -/
theorem storeResult_obeys (claimed : Bool) :
    (storeResult workspaceId runId c.nodeId).Obeys (joining synthesizerId c)
      (fun _ t => t = .following claimed) (.owing claimed) := by
  refine .bind (obeys_ancillary (by trivial) _) fun subPlan t ht => ?_
  rw [ht]
  refine .bind (buildResult_obeys _ _ _) fun result t hresult => ?_
  rw [hresult.2]
  refine Program.obeys_perform ⟨⟨claimed, rfl⟩, rfl, rfl, hresult.1⟩ ?_ ?_
  · exact fun _ _ => rfl
  · rintro x ⟨⟩

theorem dispatchNode_obeys (envelope : EventEnvelope) (graph : TaskGraph) (node : SubTask)
    {claimed : Bool} (h : node.nodeId = synthesizerId → claimed = true) :
    (dispatchNode envelope graph node).Obeys (joining synthesizerId c)
      (fun _ t => t = .following claimed) (.following claimed) := by
  refine .bind (obeys_ancillary (by trivial) _) fun eventId t ht => ?_
  rw [ht]
  refine .bind (Program.obeys_perform (Q := fun _ t => t = .following claimed)
    ⟨claimed, rfl, fun htask => h ?_⟩ ?_ ?_) fun _ t ht => ?_
  · change (if _ then some node.nodeId else none) = some synthesizerId at htask
    split at htask
    · exact Option.some.inj htask
    · cases htask
  · exact fun _ _ => rfl
  · rintro x ⟨⟩
  · rw [ht]
    exact trace_obeys _ _ _

theorem dispatchNodes_obeys (envelope : EventEnvelope) (graph : TaskGraph) (claimed : Bool)
    {nodes : List SubTask} (h : ∀ node ∈ nodes, node.nodeId ≠ synthesizerId) :
    (dispatchNodes envelope graph nodes).Obeys (joining synthesizerId c)
      (fun _ t => t = .following claimed) (.following claimed) := by
  induction nodes with
  | nil => exact rfl
  | cons node nodes ih =>
      refine .bind (dispatchNode_obeys envelope graph node fun hid => ?_) fun _ t ht => ?_
      · exact absurd hid (h node List.mem_cons_self)
      · rw [ht]
        exact ih fun n hn => h n (List.mem_cons_of_mem _ hn)

/-- What follows an advance dispatches the synthesizer only if the advance claimed it. -/
theorem followAdvance_obeys (envelope : EventEnvelope) (advance : TaskGraphAdvance)
    (hready : ∀ node ∈ advance.newlyReady, node.nodeId ≠ synthesizerId) :
    (followAdvance envelope runId advance).Obeys (joining synthesizerId c)
      (fun _ t => t = .following advance.dispatchSynthesizer.isSome)
      (.following advance.dispatchSynthesizer.isSome) := by
  refine .bind (dispatchNodes_obeys envelope _ _ hready) fun _ t ht => ?_
  rw [ht]
  refine .bind (Q := fun _ t => t = .following advance.dispatchSynthesizer.isSome) ?_
    fun _ t ht => ?_
  · unfold dispatchSynthesizer
    cases advance.dispatchSynthesizer with
    | none => exact rfl
    | some s => exact dispatchNode_obeys envelope _ s fun _ => rfl
  · rw [ht]
    refine .bind (Q := fun _ t => t = .following advance.dispatchSynthesizer.isSome) ?_
      fun _ t ht => ?_
    · unfold completeRun
      split
      · refine .bind (obeys_ancillary (by trivial) _) fun _ t ht => ?_
        rw [ht]
        exact trace_obeys _ _ _
      · exact rfl
    · rw [ht]
      unfold blockRun
      split
      · refine .bind (obeys_ancillary (by trivial) _) fun _ t ht => ?_
        rw [ht]
        exact trace_obeys _ _ _
      · exact rfl

/-- An invocation that has ended owes nothing. -/
def Ended (_ : Unit) (stage : Stage) : Prop :=
  ∀ claimed, stage ≠ .owing claimed

theorem ended_following {claimed : Bool} {stage : Stage} (h : stage = .following claimed) :
    Ended () stage := by
  rintro _ rfl
  cases h

/-- The handling of a completion goes through its stages. -/
theorem handleCompletion_obeys (registries : Registries) :
    (handle registries c.envelope).Obeys (joining synthesizerId c) Ended .entered := by
  rw [c.handle_eq]
  refine ⟨⟨rfl, c.workspace_eq, rfl, rfl, rfl⟩, fun answer hanswer => ?_⟩
  cases answer with
  | error x => cases hanswer
  | ok advance =>
      cases advance with
      | none => exact (trace_obeys _ _ _).mono fun _ _ => ended_following
      | some advance =>
          change ∀ node ∈ advance.newlyReady, node.nodeId ≠ synthesizerId at hanswer
          change Program.Obeys _ _ (Stage.after c.status advance)
            (if advance.alreadyProcessed = true then
                trace c.envelope.event "orchestration.duplicate"
              else settleAdvance c.envelope runId c.nodeId c.status advance)
          unfold Stage.after
          split
          · exact (trace_obeys _ _ _).mono fun _ _ => ended_following
          · refine .bind (Q := fun _ t => t = .following advance.dispatchSynthesizer.isSome) ?_
              fun _ t ht => ?_
            · unfold recordResult
              split
              · rw [c.workspace_eq]
                exact storeResult_obeys _
              · exact rfl
            · rw [ht]
              split
              · refine .bind (obeys_ancillary (by trivial) _) fun _ t ht => ?_
                rw [ht]
                exact (trace_obeys _ _ _).mono fun _ _ => ended_following
              · exact (followAdvance_obeys _ _ hanswer).mono fun _ _ => ended_following

end Handler

section Results

/-- Results filed once, under the ids of their nodes. -/
structure Filed (results : Dict String SubAgentResult) : Prop where
  nodup : (Dict.keys results).Nodup
  nodeId : ∀ entry ∈ results, entry.2.nodeId = entry.1

variable {results : Dict String SubAgentResult}

theorem Filed.insert (h : Filed results) (result : SubAgentResult) :
    Filed (Dict.insert results result.nodeId result) := by
  refine ⟨Dict.keys_insert_nodup h.nodup _ _, fun entry hentry => ?_⟩
  rcases Dict.mem_of_mem_insert hentry with rfl | hentry
  · rfl
  · exact h.nodeId entry hentry

/-- Where results are filed, a node has one if it is a key. -/
theorem Filed.count_eq_one_iff (h : Filed results) (nodeId : String) :
    (Dict.values results).countP (fun result => result.nodeId = nodeId) = 1 ↔
      nodeId ∈ Dict.keys results := by
  have hcount : (Dict.values results).countP (fun result => result.nodeId = nodeId) =
      (Dict.keys results).count nodeId := by
    unfold Dict.values Dict.keys
    rw [List.countP_map, List.count_eq_countP, List.countP_map]
    refine List.countP_congr fun entry hentry => ?_
    simp [h.nodeId entry hentry]
  rw [hcount]
  constructor
  · intro hone
    exact List.count_pos_iff.1 (by omega)
  · exact List.count_eq_one_of_mem h.nodup

end Results

section Pool

variable (g : TaskGraph) (synthesizerId : String)

/-- The synthesizer's task has been enqueued. -/
def SynthesizerDispatched (w : World MemoryStateStore) : Prop :=
  synthesizerId ∈ w.taskNodes g.workspaceId g.planId

/-- A result of the node is saved for the run. -/
def HasResult (w : World MemoryStateStore) (nodeId : String) : Prop :=
  nodeId ∈ Dict.keys (w.store.subAgentResults (g.workspaceId, g.planId))

/-- Once the synthesizer's task is enqueued, exactly one result is saved for every node
of the stored graph. -/
def Informed (w : World MemoryStateStore) : Prop :=
  SynthesizerDispatched g synthesizerId w →
    ∀ graph, w.store.getTaskGraph g.workspaceId g.planId = some graph → ∀ node ∈ graph.nodes,
      (w.store.getSubAgentResults g.workspaceId g.planId).countP
        (fun result => result.nodeId = node.nodeId) = 1

/-- Between two deliveries: the graph of the run is stored, its results are filed, and
there is one for every COMPLETED node, and for every node once the synthesizer's task is
enqueued. -/
structure AtRest (σ : String → SubTaskStatus) (w : World MemoryStateStore) : Prop where
  stored : w.store.getTaskGraph g.workspaceId g.planId = some (g.withStatuses σ)
  filed : Filed (w.store.subAgentResults (g.workspaceId, g.planId))
  completed : ∀ id, g.HasNode id → σ id = .completed → HasResult g w id
  dispatched : SynthesizerDispatched g synthesizerId w → ∀ id, g.HasNode id → HasResult g w id

variable {g} {synthesizerId} in
/-- So it is when the ready nodes of a new graph have been claimed. -/
theorem atRest_of_claimReady {w : World MemoryStateStore}
    (hnodes : ∀ n ∈ g.nodes, n.status = .pending)
    (hsynth : ∀ s ∈ g.synthesizerNode, s.status = .pending)
    (hstored : w.store.getTaskGraph g.workspaceId g.planId = some g.claimReady.1)
    (hresults : w.store.subAgentResults (g.workspaceId, g.planId) = [])
    (hdispatched : ¬ SynthesizerDispatched g synthesizerId w) :
    ∃ σ, AtRest g synthesizerId σ w := by
  obtain ⟨ids, hids⟩ := claimReady_eq_withStatuses hnodes hsynth
  refine ⟨TaskGraph.claim (fun _ => .pending) ids, ?_, ?_, fun id _ hcompleted => ?_, ?_⟩
  · rw [hstored, hids]
  · rw [hresults]
    exact ⟨List.nodup_nil, fun _ h => by cases h⟩
  · unfold TaskGraph.claim at hcompleted
    split at hcompleted <;> cases hcompleted
  · exact fun h => absurd h hdispatched

variable {ι : Type} [DecidableEq ι] (c : ι → Completion g.workspaceId g.planId)

/-- The invocation has still to save a result for the run. -/
def OwesResult (p : App Unit) : Prop :=
  p.Owes fun call => ∃ result, call = .saveSubAgentResult g.workspaceId g.planId result

/-- When an invocation enqueues the synthesizer's task, no other one owes the result of a
node that has none. -/
def DispatchesLast (pool : Pool ι Call Call.Answer Exc Unit (World MemoryStateStore)) (i : ι) :
    Prop :=
  ∀ envelope k, pool.program i = .call (.enqueue envelope) k →
    World.taskNode? g.workspaceId g.planId envelope = some synthesizerId →
    ∀ j, j ≠ i → g.HasNode (c j).nodeId → ¬ HasResult g pool.state (c j).nodeId →
      ¬ OwesResult g (pool.program j)

/-- The invocations that handle the completions. -/
def settlements (registries : Registries) (w : World MemoryStateStore) :
    Pool ι Call Call.Answer Exc Unit (World MemoryStateStore) :=
  { program := fun i => handle registries (c i).envelope, state := w }

/-- The node has a result, or an invocation owes it. -/
def Covered (stages : ι → Stage) (w : World MemoryStateStore) (nodeId : String) : Prop :=
  HasResult g w nodeId ∨ ∃ i claimed, stages i = .owing claimed ∧ (c i).nodeId = nodeId

/-- Every COMPLETED node is covered, every node while the dispatch of the synthesizer is
ahead, and every node has a result behind it. -/
structure Covering (stages : ι → Stage) (w : World MemoryStateStore) : Prop where
  stored : ∃ σ, w.store.getTaskGraph g.workspaceId g.planId = some (g.withStatuses σ) ∧
    ∀ id, g.HasNode id → σ id = .completed → Covered g c stages w id
  filed : Filed (w.store.subAgentResults (g.workspaceId, g.planId))
  claimed : ∀ i, stages i = .owing true ∨ stages i = .following true →
    ∀ id, g.HasNode id → Covered g c stages w id
  dispatched : SynthesizerDispatched g synthesizerId w → ∀ id, g.HasNode id → HasResult g w id

variable {g} {c} {s : SubTask} {env : Env} {w w' : World MemoryStateStore}
  {stages stages' : ι → Stage} {i : ι}

omit [DecidableEq ι] in
theorem Covered.mono {id : String} (h : Covered g c stages w id)
    (hresult : ∀ nodeId, HasResult g w nodeId → HasResult g w' nodeId)
    (howing : ∀ j claimed, stages j = .owing claimed →
      HasResult g w' (c j).nodeId ∨ ∃ claimed', stages' j = .owing claimed') :
    Covered g c stages' w' id := by
  rcases h with h | ⟨j, claimed, hj, rfl⟩
  · exact .inl (hresult id h)
  · rcases howing j claimed hj with h | ⟨claimed', hj'⟩
    · exact .inl h
    · exact .inr ⟨j, claimed', hj', rfl⟩

omit [DecidableEq ι] in
theorem Covering.ancillary {call : Call} (h : Covering g s.nodeId c stages w)
    (hcall : Ancillary call) : Covering g s.nodeId c stages (env.sem call w).2 := by
  obtain ⟨hgraphs, hresults, hqueue⟩ := hcall.writes
  have hg : (env.sem call w).2.store.taskGraphs = w.store.taskGraphs := sem_same env hgraphs
  have hr : (env.sem call w).2.store.subAgentResults = w.store.subAgentResults :=
    sem_same env hresults
  have hq : (env.sem call w).2.queue = w.queue := sem_same env hqueue
  have hresult : ∀ id, HasResult g (env.sem call w).2 id ↔ HasResult g w id := by
    intro id
    unfold HasResult
    rw [hr]
  have hcovered : ∀ id, Covered g c stages w id → Covered g c stages (env.sem call w).2 id :=
    fun id h => h.mono (fun nodeId => (hresult nodeId).2) fun j claimed hj => .inr ⟨claimed, hj⟩
  constructor
  · obtain ⟨σ, hstored, hcompleted⟩ := h.stored
    refine ⟨σ, ?_, fun id hid hσ => hcovered id (hcompleted id hid hσ)⟩
    unfold MemoryStateStore.getTaskGraph at hstored ⊢
    rw [hg, hstored]
  · rw [hr]
    exact h.filed
  · exact fun i hi id hid => hcovered id (h.claimed i hi id hid)
  · intro hdispatched id hid
    refine (hresult id).2 (h.dispatched ?_ id hid)
    unfold SynthesizerDispatched World.taskNodes at hdispatched ⊢
    rwa [hq] at hdispatched

/-- The advance of an invocation covers the node that it completes. -/
theorem Covering.advance (hs : g.synthesizerNode = some s)
    (hid : ∀ n ∈ g.nodes, n.nodeId ≠ s.nodeId) (h : Covering g s.nodeId c stages w)
    (hi : stages i = .entered) :
    ∃ advance, env.sem (.advanceTaskGraph g.workspaceId g.planId (c i).nodeId (c i).status) w =
        (.ok (some advance),
          (env.sem (.advanceTaskGraph g.workspaceId g.planId (c i).nodeId (c i).status) w).2) ∧
      (∀ node ∈ advance.newlyReady, node.nodeId ≠ s.nodeId) ∧
      Covering g s.nodeId c (Function.update stages i (.after (c i).status advance))
        (env.sem (.advanceTaskGraph g.workspaceId g.planId (c i).nodeId (c i).status) w).2 := by
  obtain ⟨σ, hstored, hcompleted⟩ := h.stored
  obtain ⟨τ, hcase⟩ := TaskGraph.planAdvance_spec g σ (c i).nodeId (c i).status_cases
  have hsem : env.sem (.advanceTaskGraph g.workspaceId g.planId (c i).nodeId (c i).status) w = _ :=
    sem_advanceTaskGraph env w hstored
  generalize (g.withStatuses σ).planAdvance (c i).nodeId (c i).status = advance at hcase hsem
  have hordinary : ∀ id, g.HasNode id → id ≠ s.nodeId := by
    rintro id ⟨n, hn, rfl⟩
    exact hid n hn
  have hnot : ∀ id, g.HasNode id → g.isSynthesizer id = false := by
    intro id hnode
    rw [Bool.eq_false_iff]
    intro hsyn
    obtain ⟨s', hs', hs'id⟩ := (TaskGraph.isSynthesizer_iff g id).1 hsyn
    obtain rfl : s = s' := Option.some.inj (hs.symm.trans hs')
    exact hordinary id hnode hs'id.symm
  have hcovered : ∀ id, Covered g c stages w id ∨
      TaskGraph.RecordsCompletion (c i).nodeId (c i).status advance id →
      Covered g c (Function.update stages i (.after (c i).status advance))
        (env.sem (.advanceTaskGraph g.workspaceId g.planId (c i).nodeId (c i).status) w).2 id := by
    intro id hid
    rcases hid with hold | hnew
    · refine hold.mono ?_ fun j claimed hj => .inr ⟨claimed, ?_⟩
      · rw [hsem]
        exact fun _ h => h
      · rw [Function.update_of_ne (fun hji => ?_), hj]
        rw [hji, hi] at hj
        cases hj
    · refine .inr ⟨i, advance.dispatchSynthesizer.isSome, ?_, hnew.node.symm⟩
      rw [Function.update_self, Stage.after, if_neg (by simp [hnew.new]),
        if_pos ⟨hnew.status, hnew.ordinary⟩]
  refine ⟨advance, by rw [hsem], fun node hnode => ?_, ?_⟩
  · exact hordinary _ (hcase.hasNode_of_newlyReady hnode)
  · constructor
    · refine ⟨τ, ?_, fun id hnode hτ => hcovered id ?_⟩
      · rw [hsem, hcase.graph_eq]
        exact Function.update_self ..
      · rcases hcase.completed_cases (hnot id hnode) hτ with hσ | hnew
        · exact .inl (hcompleted id hnode hσ)
        · exact .inr hnew
    · rw [hsem]
      exact h.filed
    · intro j hj id hnode
      refine hcovered id ?_
      by_cases hji : j = i
      · subst hji
        rw [Function.update_self] at hj
        have hsome : advance.dispatchSynthesizer.isSome = true := by
          unfold Stage.after at hj
          split at hj
          · rcases hj with hj | hj <;> cases hj
          · split at hj <;> simp_all
        rcases hcase.completed_of_dispatch hsome hnode with hσ | hnew
        · exact .inl (hcompleted id hnode hσ)
        · exact .inr hnew
      · rw [Function.update_of_ne hji] at hj
        exact .inl (h.claimed j hj id hnode)
    · rw [hsem]
      exact h.dispatched

/-- The save of a result pays what its invocation owes. -/
theorem Covering.save {result : SubAgentResult} {claimed : Bool}
    (h : Covering g s.nodeId c stages w) (hi : stages i = .owing claimed)
    (hresult : result.nodeId = (c i).nodeId) :
    Covering g s.nodeId c (Function.update stages i (.following claimed))
      (env.sem (.saveSubAgentResult g.workspaceId g.planId result) w).2 := by
  have hkeys : ∀ id,
      HasResult g (env.sem (.saveSubAgentResult g.workspaceId g.planId result) w).2 id ↔
        id = (c i).nodeId ∨ HasResult g w id := by
    intro id
    unfold HasResult
    change id ∈ Dict.keys (Function.update w.store.subAgentResults _ _ _) ↔ _
    rw [Function.update_self, Dict.mem_keys_insert, hresult]
  have hcovered : ∀ id, Covered g c stages w id →
      Covered g c (Function.update stages i (.following claimed))
        (env.sem (.saveSubAgentResult g.workspaceId g.planId result) w).2 id := by
    intro id hid
    refine hid.mono (fun nodeId hn => (hkeys nodeId).2 (.inr hn)) fun j claimed' hj => ?_
    by_cases hji : j = i
    · exact .inl ((hkeys _).2 (.inl (by rw [hji])))
    · exact .inr ⟨claimed', by rw [Function.update_of_ne hji, hj]⟩
  constructor
  · obtain ⟨σ, hstored, hcompleted⟩ := h.stored
    exact ⟨σ, hstored, fun id hid hσ => hcovered id (hcompleted id hid hσ)⟩
  · change Filed (Function.update w.store.subAgentResults _ _ _)
    rw [Function.update_self]
    exact h.filed.insert result
  · intro j hj id hid
    refine hcovered id ?_
    by_cases hji : j = i
    · subst hji
      rw [Function.update_self] at hj
      refine h.claimed j (.inl ?_) id hid
      rw [hi]
      rcases hj with hj | hj <;> cases hj
      rfl
    · rw [Function.update_of_ne hji] at hj
      exact h.claimed j hj id hid
  · exact fun hdispatched id hid => (hkeys id).2 (.inr (h.dispatched hdispatched id hid))

omit [DecidableEq ι] in
/-- Enqueueing the synthesizer's task is last when nothing is owed. -/
theorem Covering.enqueue {envelope : EventEnvelope} (h : Covering g s.nodeId c stages w)
    (htask : World.taskNode? g.workspaceId g.planId envelope = some s.nodeId →
      ∀ id, g.HasNode id → HasResult g w id) :
    Covering g s.nodeId c stages (env.sem (.enqueue envelope) w).2 := by
  constructor
  · exact h.stored
  · exact h.filed
  · exact h.claimed
  · intro hdispatched
    by_cases hbefore : SynthesizerDispatched g s.nodeId w
    · exact h.dispatched hbefore
    · refine htask ?_
      change s.nodeId ∈ List.filterMap _ (w.queue ++ [envelope]) at hdispatched
      rw [List.filterMap_append, List.mem_append] at hdispatched
      rcases hdispatched with hold | hnew
      · exact absurd hold hbefore
      · simpa [List.mem_filterMap] using hnew

/-- An invocation that owes a result saves one before it ends. -/
theorem owesResult_of_obeys {d : Completion g.workspaceId g.planId} {p : App Unit}
    {claimed : Bool} (hp : p.Obeys (joining s.nodeId d) Ended (.owing claimed)) :
    OwesResult g p := by
  refine hp.owes (J := fun stage => ∃ claimed, stage = .owing claimed) ?_ ?_ ?_ ?_ ⟨claimed, rfl⟩
  · rintro stage call a ⟨claimed, rfl⟩ hallows
    cases call with
    | advanceTaskGraph => cases hallows.1
    | _ => trivial
  · rintro a stage ⟨claimed, rfl⟩ hended
    exact hended claimed rfl
  · rintro stage ⟨claimed, rfl⟩ hraises
    exact hraises claimed rfl
  · rintro stage call a ⟨claimed, rfl⟩ hallows hnot
    cases call with
    | advanceTaskGraph => cases hallows.1
    | saveSubAgentResult workspace run result =>
        obtain ⟨-, rfl, rfl, -⟩ := hallows
        exact absurd ⟨result, rfl⟩ hnot
    | _ => exact ⟨claimed, rfl⟩

/-- One call of one invocation keeps `Covering`, if it does not dispatch the synthesizer
while another invocation owes a missing result. -/
theorem Covering.step (hs : g.synthesizerNode = some s) (hid : ∀ n ∈ g.nodes, n.nodeId ≠ s.nodeId)
    {pool : Pool ι Call Call.Answer Exc Unit (World MemoryStateStore)} {call : Call}
    {k : Except Exc call.Answer → App Unit} (hp : pool.program i = .call call k)
    (hC : DispatchesLast g s.nodeId c pool i)
    (hobeys : ∀ j, (pool.program j).Obeys (joining s.nodeId (c j)) Ended (stages j))
    (h : Covering g s.nodeId c stages pool.state)
    (hallows : (joining s.nodeId (c i)).allows (stages i) call) :
    (joining s.nodeId (c i)).answers call (env.sem call pool.state).1 ∧
      Covering g s.nodeId c
        (Function.update stages i
          ((joining s.nodeId (c i)).next (stages i) call (env.sem call pool.state).1))
        (env.sem call pool.state).2 := by
  have hquiet : ∀ call, Ancillary call →
      Covering g s.nodeId c (Function.update stages i (stages i)) (env.sem call pool.state).2 := by
    intro call hcall
    rw [Function.update_eq_self]
    exact h.ancillary hcall
  cases call with
  | advanceTaskGraph =>
      obtain ⟨hstage, rfl, rfl, rfl, rfl⟩ := hallows
      obtain ⟨advance, hsem, hready, hcovering⟩ := h.advance hs hid hstage
      rw [hsem]
      exact ⟨hready, hcovering⟩
  | saveSubAgentResult workspace run result =>
      obtain ⟨⟨claimed, hstage⟩, rfl, rfl, hresult⟩ := hallows
      refine ⟨trivial, ?_⟩
      change Covering g s.nodeId c (Function.update stages i (stages i).saved) _
      rw [hstage]
      exact h.save hstage hresult
  | enqueue envelope =>
      obtain ⟨claimed, hstage, hclaimed⟩ := hallows
      refine ⟨trivial, ?_⟩
      change Covering g s.nodeId c (Function.update stages i (stages i)) _
      rw [Function.update_eq_self]
      refine h.enqueue fun htask id hnode => ?_
      rw [hclaimed htask] at hstage
      by_contra hmissing
      rcases h.claimed i (.inr hstage) id hnode with hresult | ⟨j, owed, hj, rfl⟩
      · exact hmissing hresult
      · refine hC envelope k hp htask j ?_ hnode hmissing (owesResult_of_obeys (hj ▸ hobeys j))
        rintro rfl
        rw [hstage] at hj
        cases hj
  | getPlan => exact ⟨trivial, hquiet _ hallows⟩
  | getActionResult => exact ⟨trivial, hquiet _ hallows⟩
  | uuid4 => exact ⟨trivial, hquiet _ hallows⟩
  | appendTraceEvent => exact ⟨trivial, hquiet _ hallows⟩
  | sync call =>
      cases call with
      | runFailed => exact ⟨trivial, hquiet _ hallows⟩
      | runCompletedById => exact ⟨trivial, hquiet _ hallows⟩
      | _ => cases hallows
  | _ => cases hallows

omit [DecidableEq ι] in
theorem Covering.informed (h : Covering g s.nodeId c stages w) : Informed g s.nodeId w := by
  intro hdispatched graph hgraph node hnode
  obtain ⟨σ, hstored, -⟩ := h.stored
  obtain rfl : g.withStatuses σ = graph := Option.some.inj (hstored.symm.trans hgraph)
  refine (h.filed.count_eq_one_iff node.nodeId).2 (h.dispatched hdispatched node.nodeId ?_)
  exact (TaskGraph.hasNode_withStatuses g σ _).1 ⟨node, hnode, rfl⟩

theorem covering_run (hs : g.synthesizerNode = some s) (hid : ∀ n ∈ g.nodes, n.nodeId ≠ s.nodeId)
    {σ : String → SubTaskStatus} (hrest : AtRest g s.nodeId σ w) {schedule : List ι}
    (hC : Pool.Meets env.sem (DispatchesLast g s.nodeId c) (settlements g c env.registries w)
      schedule) :
    ∃ stages, Covering g s.nodeId c stages
      ((settlements g c env.registries w).run env.sem schedule).state := by
  have hstart : Covering g s.nodeId c (fun _ => .entered) w :=
    ⟨⟨σ, hrest.stored, fun id hnode hσ => .inl (hrest.completed id hnode hσ)⟩, hrest.filed,
      fun i hi => (by rcases hi with hi | hi <;> cases hi), hrest.dispatched⟩
  obtain ⟨stages, -, hcovering⟩ := Pool.run_typestates
    (A := fun i => joining s.nodeId (c i)) (Q := Ended) (J := Covering g s.nodeId c)
    (fun _ _ _ _ _ hp hC hobeys h hallows => h.step hs hid hp hC hobeys hallows) hC
    (fun i => handleCompletion_obeys env.registries) hstart
  exact ⟨stages, hcovering⟩

/-- Invocations handle completions of one run, interleaved call by call. Every result is
saved whenever the synthesizer's task has been enqueued if and only if no invocation
enqueues it while another one owes a missing result. -/
theorem informed_iff (env : Env) (g : TaskGraph) {s : SubTask} (hs : g.synthesizerNode = some s)
    (hid : ∀ n ∈ g.nodes, n.nodeId ≠ s.nodeId) (c : ι → Completion g.workspaceId g.planId)
    {σ : String → SubTaskStatus} {w : World MemoryStateStore} (hrest : AtRest g s.nodeId σ w)
    (schedule : List ι) :
    (∀ before after, schedule = before ++ after → Informed g s.nodeId
      ((settlements g c env.registries w).run env.sem before).state) ↔
    Pool.Meets env.sem (DispatchesLast g s.nodeId c) (settlements g c env.registries w)
      schedule := by
  constructor
  · intro h
    induction schedule using List.reverseRecOn with
    | nil => trivial
    | append_singleton schedule i ih =>
        have hbefore := ih fun before after hsplit =>
          h before (after ++ [i]) (by rw [hsplit, List.append_assoc])
        refine (Pool.meets_append env.sem).2 ⟨hbefore, ?_, trivial⟩
        intro envelope k hp htask j hj hnode hmissing _
        obtain ⟨stages, hcovering⟩ := covering_run hs hid hrest hbefore
        obtain ⟨τ, hstored, -⟩ := hcovering.stored
        have hinformed := h (schedule ++ [i]) [] (by simp)
        have hstep : ((settlements g c env.registries w).run env.sem (schedule ++ [i])).state =
            (env.sem (.enqueue envelope)
              ((settlements g c env.registries w).run env.sem schedule).state).2 := by
          unfold Pool.run
          rw [List.foldl_append, List.foldl_cons, List.foldl_nil]
          unfold Pool.run at hp
          rw [Pool.step_of_call hp]
        rw [hstep] at hinformed
        obtain ⟨node, hmem, hnodeId⟩ := (TaskGraph.hasNode_withStatuses g τ _).2 hnode
        have hone := hinformed ?_ _ hstored node hmem
        · rw [hnodeId] at hone
          exact hmissing ((hcovering.filed.count_eq_one_iff _).1 hone)
        · refine List.mem_filterMap.2 ⟨envelope, ?_, htask⟩
          exact List.mem_append_right _ List.mem_cons_self
  · intro hmeets before after hsplit
    rw [hsplit] at hmeets
    obtain ⟨stages, hcovering⟩ := covering_run hs hid hrest ((Pool.meets_append env.sem).1 hmeets).1
    exact hcovering.informed

end Pool

section Sample

/-- Two nodes and a synthesizer that waits for them. -/
def pairGraph : TaskGraph :=
  { planId := "run", workspaceId := "ws"
    nodes := [{ nodeId := "a" }, { nodeId := "b" }]
    synthesizerNode := some { nodeId := "s", dependsOn := ["a", "b"] } }

/-- Both nodes are in flight. -/
def pairWorld : World MemoryStateStore :=
  { store := ({} : MemoryStateStore).saveTaskGraph pairGraph.claimReady.1 }

/-- Both nodes complete. -/
def pairCompletion : Bool → Completion "ws" "run"
  | true => sampleCompletion "a" false
  | false => sampleCompletion "b" false

/-- The invocations that handle the completions of both nodes. -/
def pairSettlements : Pool Bool Call Call.Answer Exc Unit (World MemoryStateStore) :=
  settlements pairGraph pairCompletion {} pairWorld

/-- After `a` has advanced the graph, the whole handling of `b` comes before the result of
`a` is saved: the synthesizer is dispatched without it. -/
theorem dispatched_without_result :
    ¬ ∀ schedule : List Bool,
      SynthesizerDispatched pairGraph "s" (pairSettlements.run idleEnv.sem schedule).state →
      ∀ graph, (pairSettlements.run idleEnv.sem schedule).state.store.getTaskGraph "ws" "run" =
        some graph → ∀ node ∈ graph.nodes, node.status = .completed →
          HasResult pairGraph (pairSettlements.run idleEnv.sem schedule).state node.nodeId := by
  intro h
  have hresult := h (true :: List.replicate 5 false) (by unfold SynthesizerDispatched; decide) _ rfl
    { nodeId := "a", status := .completed } (by decide) rfl
  unfold HasResult at hresult
  revert hresult
  decide

/-- The enqueueing of a task. -/
def enqueues : Call → Bool
  | .enqueue _ => true
  | _ => false

/-- The completions are handled one after the other. -/
theorem informed_iff_sample :
    SynthesizerDispatched pairGraph "s" (pairSettlements.run idleEnv.sem
        (List.replicate 3 true ++ List.replicate 5 false)).state ∧
      Informed pairGraph "s" (pairSettlements.run idleEnv.sem
        (List.replicate 3 true ++ List.replicate 5 false)).state := by
  refine ⟨by unfold SynthesizerDispatched; decide, ?_⟩
  obtain ⟨σ, hrest⟩ : ∃ σ, AtRest pairGraph "s" σ pairWorld :=
    atRest_of_claimReady (by decide) (by simp [pairGraph]) rfl rfl
      (by unfold SynthesizerDispatched; decide)
  refine (informed_iff idleEnv pairGraph rfl (by decide) pairCompletion hrest
    (List.replicate 3 true ++ List.replicate 5 false)).2 ?_ _ [] (List.append_nil _).symm
  have havoids : ∀ (pool : Pool Bool Call Call.Answer Exc Unit (World MemoryStateStore)) i,
      (∀ call k, pool.program i = .call call k → enqueues call = false) →
      DispatchesLast pairGraph "s" pairCompletion pool i := by
    intro pool i hcalls envelope k hp
    cases hcalls _ k hp
  have hsplit : List.replicate 3 true ++ List.replicate 5 false =
      (List.replicate 3 true ++ List.replicate 4 false) ++ [false] := rfl
  rw [hsplit, Pool.meets_append]
  refine ⟨Pool.meets_of_avoids havoids (by decide),
    fun envelope k _ _ j hj _ hmissing => ?_, trivial⟩
  obtain rfl : j = true := by simpa using hj
  exact absurd (by unfold HasResult; decide) hmissing

end Sample

end SubAgentCoordinator

end PrismAgent
