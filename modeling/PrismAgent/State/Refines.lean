import PrismAgent.State.Current
import PrismAgent.State.Operations

/-!
# The API-backed store refines the in-memory store

Every operation of the API-backed store answers as the in-memory store does on the fallback,
leaves the fallback as the in-memory store leaves it, up to the versions of the task graphs,
and keeps the fallback current, unless it writes something that a later read takes back.
-/

namespace PrismAgent

open Function Lockstep

namespace PrismApiStateStore

variable {api : StateApi} {store : PrismApiStateStore}

theorem persistStateMemory_eq {workspaceId memoryId runId : String} {record : StateRecord}
    (h : store.persistAgentMemories = true) :
    store.persistStateMemory workspaceId memoryId runId record =
      { store with
        memories := store.memories ++
          [{ workspaceId := workspaceId, runId := runId, memoryId := memoryId
             record := record }] } :=
  if_pos h

section Fallback

theorem persistStateMemory_fallbackStore {workspaceId memoryId runId : String}
    {record : StateRecord} :
    (store.persistStateMemory workspaceId memoryId runId record).fallbackStore =
      store.fallbackStore := by
  unfold persistStateMemory
  split <;> rfl

theorem savePlan_fallbackStore {plan : AgentPlan} :
    (store.savePlan api plan).fallbackStore = store.fallbackStore.savePlan plan :=
  persistStateMemory_fallbackStore

theorem saveTaskGraph_fallbackStore {graph : TaskGraph} :
    (store.saveTaskGraph api graph).fallbackStore = store.fallbackStore.saveTaskGraph graph :=
  persistStateMemory_fallbackStore

theorem saveSubAgentResult_fallbackStore {workspaceId runId : String} {result : SubAgentResult} :
    (store.saveSubAgentResult api workspaceId runId result).fallbackStore =
      store.fallbackStore.saveSubAgentResult workspaceId runId result :=
  persistStateMemory_fallbackStore

theorem saveContextSnapshot_fallbackStore {snapshot : ContextSnapshot} :
    (store.saveContextSnapshot api snapshot).fallbackStore =
      store.fallbackStore.saveContextSnapshot snapshot := by
  unfold saveContextSnapshot persistContextSnapshot
  split
  · rfl
  · exact persistStateMemory_fallbackStore

theorem saveActionResult_fallbackStore {result : ToolResult} :
    (store.saveActionResult api result).fallbackStore =
      store.fallbackStore.saveActionResult result := by
  unfold saveActionResult persistActionResult
  split
  · rfl
  · exact persistStateMemory_fallbackStore

theorem recordIdempotencyKey_fallbackStore {key : String} :
    (store.recordIdempotencyKey api key).fallbackStore =
      store.fallbackStore.recordIdempotencyKey key := by
  unfold recordIdempotencyKey
  dsimp only
  split
  · rfl
  · split
    · rfl
    · exact persistStateMemory_fallbackStore

end Fallback

/-- The step writes nothing that a later read of the store takes back: an action that is
marked as completed was so before, no other run returns another snapshot with the id of a
snapshot, or another result for the action of a result, and no plan or task graph of the
run of an idempotency key has the memory id of the key. -/
def Safe (api : StateApi) : StateOp → PrismApiStateStore → Prop
  | .markActionCompleted workspaceId planId actionId, store =>
      ∀ plan action, store.fallbackStore.getPlan workspaceId planId = some plan →
        plan.getAction actionId = some action →
          plan.replaceAction (action.withStatus .completed) = plan
  | .saveContextSnapshot snapshot, store =>
      ∀ runId other, snapshot.planId ≠ some runId →
        .contextSnapshot other ∈ (store.runState api snapshot.workspaceId runId).memories →
          other.snapshotId = snapshot.snapshotId → other = snapshot
  | .saveActionResult result, store =>
      ∀ workspaceId other, (store.planForResult result).map (·.workspaceId) ≠ some workspaceId →
        .actionResult other ∈ (store.runState api workspaceId result.planId).memories →
          other.actionId = result.actionId → other = result
  | .recordIdempotencyKey key, store =>
      ∀ workspaceId runId candidate,
        store.idempotencyLocations.lookup key = some (workspaceId, runId) →
          checkIdempotencyKey.candidateRunId runId key = some candidate →
            (store.fallbackStore.getPlan workspaceId candidate ≠ none →
              ¬ (RecordName.idempotencyKey key).Clashes (.plan candidate)) ∧
            (store.fallbackStore.getTaskGraph workspaceId candidate ≠ none →
              ¬ (RecordName.idempotencyKey key).Clashes (.taskGraph candidate))
  | _, _ => True

namespace Current

variable {workspaceId runId : String}

section Writes

variable (huuid5 : Injective api.uuid5)

include huuid5

/-- A record that is neither a plan nor a task graph is written and put under its name. -/
theorem put_named (h : Current api store) {memoryId : String} {record : StateRecord}
    {name : RecordName} (hname : memoryId = name.memoryId api)
    (hfiled : Filed api ⟨workspaceId, runId, memoryId, record⟩)
    (hsole : Sole (store.memories ++ [⟨workspaceId, runId, memoryId, record⟩]) workspaceId runId
      record)
    (hplan : name ≠ .plan runId) (hgraph : name ≠ .taskGraph runId)
    (hplans : (writeRecord workspaceId runId store.fallbackStore record).plans =
      store.fallbackStore.plans)
    (hgraphs : (writeRecord workspaceId runId store.fallbackStore record).taskGraphs =
      store.fallbackStore.taskGraphs)
    (hclash : (store.fallbackStore.getPlan workspaceId runId ≠ none →
        ¬ name.Clashes (.plan runId)) ∧
      (store.fallbackStore.getTaskGraph workspaceId runId ≠ none →
        ¬ name.Clashes (.taskGraph runId))) :
    Current api
      { store.withFallback (writeRecord workspaceId runId store.fallbackStore record) with
        memories := store.memories ++ [⟨workspaceId, runId, memoryId, record⟩] } := by
  refine h.put hfiled hsole ?_ ?_
  · rw [hplans]
    refine h.plans.keep fun plan hvalue => ?_
    rw [hname]
    exact RecordName.memoryId_ne huuid5 hplan
      (hclash.1 (Option.ne_none_iff_exists'.2 ⟨plan, hvalue⟩))
  · rw [hgraphs]
    refine h.taskGraphs.keep fun graph hvalue => ?_
    rw [hname]
    exact RecordName.memoryId_ne huuid5 hgraph
      (hclash.2 (Option.ne_none_iff_exists'.2 ⟨graph, hvalue⟩))

theorem savePlan (h : Current api store) (plan : AgentPlan) :
    Current api (store.savePlan api plan) := by
  unfold PrismApiStateStore.savePlan persistPlan
  rw [persistStateMemory_eq]
  swap
  · exact h.persists
  generalize hid : stateMemoryId api [plan.planId, "plan"] = memoryId
  have hname : memoryId = (RecordName.plan plan.planId).memoryId api := hid.symm
  have hfiled : Filed api ⟨plan.workspaceId, plan.planId, memoryId, .plan plan⟩ := by
    unfold Filed WellFiled
    exact ⟨⟨rfl, rfl, hid.symm⟩, trivial⟩
  refine (h.put hfiled (Sole.put_of_filed h.filed hfiled trivial) (h.plans.put hname)
    (h.taskGraphs.keep fun _ _ => ?_)).congr rfl rfl rfl
  rw [hname]
  exact RecordName.memoryId_ne huuid5 (by simp) id

theorem saveTaskGraph (h : Current api store) (graph : TaskGraph) :
    Current api (store.saveTaskGraph api graph) := by
  unfold PrismApiStateStore.saveTaskGraph persistTaskGraph
  rw [persistStateMemory_eq]
  swap
  · exact h.persists
  generalize hid : stateMemoryId api [graph.planId, "task_graph"] = memoryId
  have hname : memoryId = (RecordName.taskGraph graph.planId).memoryId api := hid.symm
  have hfiled : Filed api ⟨graph.workspaceId, graph.planId, memoryId, .taskGraph graph⟩ := by
    unfold Filed WellFiled
    exact ⟨hid.symm, rfl, rfl⟩
  refine h.put hfiled (Sole.put_of_filed h.filed hfiled trivial)
    (h.plans.keep fun _ _ => ?_) (h.taskGraphs.put hname)
  rw [hname]
  exact RecordName.memoryId_ne huuid5 (by simp) id

theorem saveSubAgentResult (h : Current api store) (workspaceId runId : String)
    (result : SubAgentResult) :
    Current api (store.saveSubAgentResult api workspaceId runId result) := by
  have hwrite : store.fallbackStore.saveSubAgentResult workspaceId runId result =
      writeRecord workspaceId runId store.fallbackStore (.subAgentResult runId result) := by
    change _ = store.fallbackStore.saveSubAgentResult workspaceId
      (if runId = "" then runId else runId) result
    rw [ite_self]
  unfold PrismApiStateStore.saveSubAgentResult persistSubAgentResult
  rw [persistStateMemory_eq]
  swap
  · exact h.persists
  rw [hwrite]
  generalize hid : stateMemoryId api [runId, result.nodeId, "sub_agent_result"] = memoryId
  have hname : memoryId = (RecordName.subAgentResult runId result.nodeId).memoryId api := hid.symm
  have hfiled : Filed api ⟨workspaceId, runId, memoryId, .subAgentResult runId result⟩ := by
    unfold Filed WellFiled
    exact ⟨hid.symm, rfl⟩
  exact h.put_named huuid5 hname hfiled (Sole.put_of_filed h.filed hfiled trivial) (by simp)
    (by simp) rfl rfl ⟨fun _ => id, fun _ => id⟩

section Snapshot

variable (hfaithful : Faithful api) {snapshot : ContextSnapshot}

include hfaithful

omit huuid5 in
/-- Another payload with the id of a snapshot is the snapshot or stands under its run. -/
theorem snapshot_or_run (h : Current api store)
    (hsafe : Safe api (.saveContextSnapshot snapshot) store) {m : StoredMemory}
    (hm : m ∈ store.memories)
    (hcell : cell m.workspaceId m.runId m.record =
      cell workspaceId runId (.contextSnapshot snapshot))
    (hlatest : latest store.memories m.workspaceId m.runId m.memoryId = some m.record) :
    m.record = .contextSnapshot snapshot ∨
      snapshot.planId = some m.runId ∧ m.workspaceId = snapshot.workspaceId ∧
        m.memoryId = contextId api m.runId snapshot.snapshotId := by
  have hfiled := (h.filed m hm).1
  unfold WellFiled at hfiled
  cases hrecord : m.record with
  | contextSnapshot other =>
      rw [hrecord] at hcell hfiled hlatest
      dsimp only at hfiled
      obtain ⟨hother, hid⟩ := Cell.contextSnapshot.inj hcell
      obtain ⟨hws, -, hmemory⟩ := hfiled
      rw [hother] at hws
      rw [hid] at hmemory
      by_cases hrun : snapshot.planId = some m.runId
      · exact .inr ⟨hrun, hws, hmemory⟩
      · have hmem : StateRecord.contextSnapshot other ∈
            (store.runState api snapshot.workspaceId m.runId).memories :=
          (hfaithful.memories _ _ _ _).2 ⟨m.memoryId, hws ▸ hlatest⟩
        exact .inl (congrArg StateRecord.contextSnapshot (hsafe _ _ hrun hmem hid))
  | _ =>
      rw [hrecord] at hcell
      cases hcell

theorem saveContextSnapshot (h : Current api store)
    (hsafe : Safe api (.saveContextSnapshot snapshot) store) :
    Current api (store.saveContextSnapshot api snapshot) := by
  unfold PrismApiStateStore.saveContextSnapshot persistContextSnapshot
  cases hplan : snapshot.planId with
  | none =>
      refine h.keep "" "" (.contextSnapshot snapshot)
        (Sole.of_payloads fun m hm hcell hlatest => ?_) rfl rfl
      refine (h.snapshot_or_run hfaithful hsafe hm hcell hlatest).resolve_right fun hrun => ?_
      rw [hplan] at hrun
      cases hrun.1
  | some planId =>
      dsimp only
      rw [persistStateMemory_eq]
      swap
      · exact h.persists
      generalize hid : stateMemoryId api [planId, snapshot.snapshotId, "context"] = memoryId
      have hname : memoryId =
          (RecordName.contextSnapshot planId snapshot.snapshotId).memoryId api := hid.symm
      have hfiled : Filed api
          ⟨snapshot.workspaceId, planId, memoryId, .contextSnapshot snapshot⟩ := by
        unfold Filed WellFiled
        exact ⟨⟨rfl, hplan, hid.symm⟩, trivial⟩
      refine h.put_named huuid5 hname hfiled (Sole.put fun m hm hcell hlatest => ?_) (by simp)
        (by simp) rfl rfl ⟨fun _ => id, fun _ => id⟩
      refine (h.snapshot_or_run hfaithful hsafe hm hcell hlatest).imp_right ?_
      rintro ⟨hrun, hws, hmemory⟩
      rw [hplan] at hrun
      obtain rfl := Option.some.inj hrun
      exact ⟨hws.symm, rfl, hid.symm.trans hmemory.symm⟩

end Snapshot

section Result

variable (hfaithful : Faithful api) {result : ToolResult}

include hfaithful

omit huuid5 in
/-- Another payload for the action of a result is the result or stands under its place. -/
theorem result_or_place (h : Current api store)
    (hsafe : Safe api (.saveActionResult result) store) {m : StoredMemory}
    (hm : m ∈ store.memories)
    (hcell : cell m.workspaceId m.runId m.record = cell workspaceId runId (.actionResult result))
    (hlatest : latest store.memories m.workspaceId m.runId m.memoryId = some m.record) :
    m.record = .actionResult result ∨
      (store.planForResult result).map (·.workspaceId) = some m.workspaceId ∧
        result.planId = m.runId ∧
          m.memoryId = stateMemoryId api [result.planId, result.actionId, "result"] := by
  have hfiled := h.filed m hm
  unfold Filed WellFiled at hfiled
  cases hrecord : m.record with
  | actionResult other =>
      rw [hrecord] at hcell hfiled hlatest
      dsimp only at hfiled
      obtain ⟨hplan, haction⟩ := Cell.actionResult.inj hcell
      obtain ⟨hmemory, hrun⟩ := hfiled
      rw [hplan, haction] at hmemory
      rw [hplan] at hrun
      by_cases hws : (store.planForResult result).map (·.workspaceId) = some m.workspaceId
      · exact .inr ⟨hws, hrun.symm, hmemory⟩
      · have hmem : StateRecord.actionResult other ∈
            (store.runState api m.workspaceId result.planId).memories :=
          (hfaithful.memories _ _ _ _).2 ⟨m.memoryId, hrun ▸ hlatest⟩
        exact .inl (congrArg StateRecord.actionResult (hsafe _ _ hws hmem haction))
  | _ =>
      rw [hrecord] at hcell
      cases hcell

theorem saveActionResult (h : Current api store)
    (hsafe : Safe api (.saveActionResult result) store) :
    Current api (store.saveActionResult api result) := by
  have hplans : (store.withFallback (store.fallbackStore.saveActionResult result)).planForResult
      result = store.planForResult result := rfl
  unfold PrismApiStateStore.saveActionResult persistActionResult
  rw [hplans]
  cases hplan : store.planForResult result with
  | none =>
      refine h.keep "" "" (.actionResult result)
        (Sole.of_payloads fun m hm hcell hlatest => ?_) rfl rfl
      refine (h.result_or_place hfaithful hsafe hm hcell hlatest).resolve_right fun hplace => ?_
      rw [hplan] at hplace
      cases hplace.1
  | some plan =>
      dsimp only
      rw [persistStateMemory_eq]
      swap
      · exact h.persists
      generalize hid : stateMemoryId api [result.planId, result.actionId, "result"] = memoryId
      have hname : memoryId =
          (RecordName.actionResult result.planId result.actionId).memoryId api := hid.symm
      have hfiled : Filed api
          ⟨plan.workspaceId, result.planId, memoryId, .actionResult result⟩ := by
        unfold Filed WellFiled
        exact ⟨hid.symm, rfl⟩
      refine h.put_named huuid5 hname hfiled (Sole.put fun m hm hcell hlatest => ?_) (by simp)
        (by simp) rfl rfl ⟨fun _ => id, fun _ => id⟩
      refine (h.result_or_place hfaithful hsafe hm hcell hlatest).imp_right ?_
      rintro ⟨hws, hrun, hmemory⟩
      rw [hplan] at hws
      exact ⟨Option.some.inj hws, hrun, hid.symm.trans hmemory.symm⟩

end Result

theorem recordIdempotencyKey (h : Current api store) {key : String}
    (hsafe : Safe api (.recordIdempotencyKey key) store) :
    Current api (store.recordIdempotencyKey api key) := by
  have hkeep : Current api
      (store.withFallback (store.fallbackStore.recordIdempotencyKey key)) :=
    h.keep "" "" (.idempotencyKey key) Sole.idempotencyKey rfl rfl
  unfold PrismApiStateStore.recordIdempotencyKey
  cases hlocation : store.idempotencyLocations.lookup key with
  | none => exact hkeep
  | some location =>
      dsimp only
      cases hcandidate : checkIdempotencyKey.candidateRunId location.2 key with
      | none => exact hkeep
      | some candidate =>
          have hclash := hsafe _ _ candidate hlocation hcandidate
          dsimp only
          unfold persistIdempotencyKey
          rw [persistStateMemory_eq]
          swap
          · exact h.persists
          generalize hid : stateMemoryId api ["idempotency", key] = memoryId
          have hname : memoryId = (RecordName.idempotencyKey key).memoryId api := hid.symm
          have hfiled : Filed api ⟨location.1, candidate, memoryId, .idempotencyKey key⟩ := by
            unfold Filed WellFiled
            exact ⟨hid.symm, trivial⟩
          exact h.put_named huuid5 hname hfiled (Sole.put_of_filed h.filed hfiled trivial)
            (by simp) (by simp) rfl rfl hclash

end Writes

section Reads

variable (hfaithful : Faithful api)

include hfaithful

theorem getPlan_spec (h : Current api store) (workspaceId planId : String) :
    (store.getPlan api workspaceId planId).1 = store.fallbackStore.getPlan workspaceId planId ∧
      (store.getPlan api workspaceId planId).2.fallbackStore = store.fallbackStore ∧
        Current api (store.getPlan api workspaceId planId).2 := by
  have hrestored : (store.restoreRunState api workspaceId planId).fallbackStore =
      store.fallbackStore := h.restoreRunState_fallbackStore hfaithful
  have hanswer : (store.getPlan api workspaceId planId).1 =
      store.fallbackStore.getPlan workspaceId planId := by
    rw [hfaithful.getPlan_answer, hrestored]
  have hfallback : (store.getPlan api workspaceId planId).2.fallbackStore =
      store.fallbackStore := by
    unfold PrismApiStateStore.getPlan at hanswer ⊢
    dsimp only at hanswer ⊢
    split at hanswer
    next => exact hrestored
    next plan _ =>
      -- the plan that is read is the one that the fallback has
      refine Eq.trans ?_ (writeRecord_of_held (h.held (h.plans _ _ _ hanswer.symm)))
      exact congrArg (fun fallback : MemoryStateStore => fallback.savePlan _) hrestored
  exact ⟨hanswer, hfallback, h.congr getPlan_restores.2.2 getPlan_restores.2.1 hfallback⟩

theorem getTaskGraph_spec (h : Current api store) (workspaceId planId : String) :
    (store.getTaskGraph api workspaceId planId).1 =
        store.fallbackStore.getTaskGraph workspaceId planId ∧
      (store.getTaskGraph api workspaceId planId).2.fallbackStore = store.fallbackStore ∧
        Current api (store.getTaskGraph api workspaceId planId).2 :=
  ⟨congrArg (·.getTaskGraph workspaceId planId) (h.restoreRunState_fallbackStore hfaithful),
    h.restoreRunState_fallbackStore hfaithful, h.restoreRunState hfaithful⟩

theorem checkIdempotencyKey_spec (h : Current api store) (key : String) :
    (store.checkIdempotencyKey api key).1 = store.fallbackStore.checkIdempotencyKey key ∧
      (store.checkIdempotencyKey api key).2.fallbackStore = store.fallbackStore ∧
        Current api (store.checkIdempotencyKey api key).2 := by
  unfold PrismApiStateStore.checkIdempotencyKey
  cases hkey : store.fallbackStore.checkIdempotencyKey key with
  | true => exact ⟨rfl, rfl, h⟩
  | false =>
      simp only [Bool.false_eq_true, if_false]
      split
      next => exact ⟨rfl, rfl, h⟩
      next location workspaceId runId _ =>
        unfold checkIdempotencyKey.checkWorkspaceIdempotencyKey
        split
        next => exact ⟨rfl, rfl, h⟩
        next candidate _ =>
          have hrestored :
              (store.restoreRunState api workspaceId candidate).fallbackStore =
                store.fallbackStore := h.restoreRunState_fallbackStore hfaithful
          refine ⟨?_, hrestored, h.restoreRunState hfaithful⟩
          dsimp only
          rw [hrestored, hkey]

end Reads

section Nodes

variable (huuid5 : Injective api.uuid5) (hfaithful : Faithful api)

include huuid5 hfaithful

/-- A claim answers as the in-memory store does; it is written where it claims a node. -/
theorem claimReadyNodes_spec (h : Current api store) (workspaceId runId : String) :
    (store.claimReadyNodes api workspaceId runId).1 =
        (store.fallbackStore.claimReadyNodes workspaceId runId).1 ∧
      (store.claimReadyNodes api workspaceId runId).2.fallbackStore.unversioned =
          (store.fallbackStore.claimReadyNodes workspaceId runId).2.unversioned ∧
        Current api (store.claimReadyNodes api workspaceId runId).2 := by
  obtain ⟨hgraph, hfallback, hcurrent⟩ := h.getTaskGraph_spec hfaithful workspaceId runId
  unfold PrismApiStateStore.claimReadyNodes MemoryStateStore.claimReadyNodes
  rw [← hgraph]
  generalize hread : store.getTaskGraph api workspaceId runId = read at *
  obtain ⟨_ | graph, restored⟩ := read
  · exact ⟨rfl, congrArg _ hfallback, hcurrent⟩
  · dsimp only at *
    by_cases hclaimed : graph.claimReady.2 = []
    · rw [if_neg (not_not.2 hclaimed), TaskGraph.claimReady_of_nil hclaimed]
      have hheld := h.held (h.taskGraphs _ _ _ hgraph.symm)
      have hsame : store.fallbackStore.saveTaskGraph graph = store.fallbackStore :=
        writeRecord_of_held hheld
      exact ⟨hclaimed.symm, by rw [hsame, hfallback], hcurrent⟩
    · rw [if_pos hclaimed]
      refine ⟨rfl, ?_, hcurrent.saveTaskGraph huuid5 _⟩
      rw [saveTaskGraph_fallbackStore, hfallback]
      exact MemoryStateStore.saveTaskGraph_congr rfl rfl

/-- So does an advance, which is written where the node did not have its status. -/
theorem advanceTaskGraph_spec (h : Current api store) (workspaceId runId nodeId : String)
    (status : SubTaskStatus) :
    (store.advanceTaskGraph api workspaceId runId nodeId status).1 =
        (store.fallbackStore.advanceTaskGraph workspaceId runId nodeId status).1 ∧
      (store.advanceTaskGraph api workspaceId runId nodeId status).2.fallbackStore.unversioned =
          (store.fallbackStore.advanceTaskGraph workspaceId runId nodeId status).2.unversioned ∧
        Current api (store.advanceTaskGraph api workspaceId runId nodeId status).2 := by
  obtain ⟨hgraph, hfallback, hcurrent⟩ := h.getTaskGraph_spec hfaithful workspaceId runId
  unfold PrismApiStateStore.advanceTaskGraph MemoryStateStore.advanceTaskGraph
  rw [← hgraph]
  generalize hread : store.getTaskGraph api workspaceId runId = read at *
  obtain ⟨_ | graph, restored⟩ := read
  · exact ⟨rfl, congrArg _ hfallback, hcurrent⟩
  · dsimp only at *
    by_cases hprocessed : (graph.planAdvance nodeId status).alreadyProcessed = true
    · rw [if_pos hprocessed, TaskGraph.planAdvance_of_alreadyProcessed hprocessed]
      have hheld := h.held (h.taskGraphs _ _ _ hgraph.symm)
      have hsame : store.fallbackStore.saveTaskGraph graph = store.fallbackStore :=
        writeRecord_of_held hheld
      exact ⟨rfl, by rw [hsame, hfallback], hcurrent⟩
    · rw [if_neg hprocessed]
      refine ⟨rfl, ?_, hcurrent.saveTaskGraph huuid5 _⟩
      rw [saveTaskGraph_fallbackStore, hfallback]
      exact MemoryStateStore.saveTaskGraph_congr rfl rfl

end Nodes

end Current

/-- The operation answers as the in-memory store does on the fallback and leaves it so, up
to versions, and the fallback is current afterwards. -/
structure Follows (api : StateApi) (o : StateOp) (store : PrismApiStateStore) : Prop where
  answer : o.seen (machine api o store).1 =
    o.seen (MemoryStateStore.machine o store.fallbackStore).1
  fallback : (machine api o store).2.fallbackStore.unversioned =
    (MemoryStateStore.machine o store.fallbackStore).2.unversioned
  current : Current api (machine api o store).2

/-- Marking an action that leaves the plan as it is changes nothing. -/
theorem markActionCompleted_of_safe (h : Current api store) {workspaceId planId actionId : String}
    (hsafe : Safe api (.markActionCompleted workspaceId planId actionId) store) :
    store.fallbackStore.markActionCompleted workspaceId planId actionId = store.fallbackStore := by
  unfold MemoryStateStore.markActionCompleted
  cases hplan : store.fallbackStore.getPlan workspaceId planId with
  | none => rfl
  | some plan =>
      dsimp only
      cases haction : plan.getAction actionId with
      | none => rfl
      | some action =>
          dsimp only
          rw [hsafe plan action hplan haction]
          exact writeRecord_of_held (h.held (h.plans _ _ _ hplan))

theorem follows (huuid5 : Injective api.uuid5) (hfaithful : Faithful api) (h : Current api store)
    {o : StateOp} (hsafe : Safe api o store) : Follows api o store := by
  cases o with
  | savePlan plan => exact ⟨rfl, congrArg _ savePlan_fallbackStore, h.savePlan huuid5 plan⟩
  | updatePlan plan => exact ⟨rfl, congrArg _ savePlan_fallbackStore, h.savePlan huuid5 plan⟩
  | getPlan workspaceId planId =>
      obtain ⟨hanswer, hfallback, hcurrent⟩ := h.getPlan_spec hfaithful workspaceId planId
      exact ⟨hanswer, congrArg _ hfallback, hcurrent⟩
  | saveTaskGraph graph =>
      exact ⟨rfl, congrArg _ saveTaskGraph_fallbackStore, h.saveTaskGraph huuid5 graph⟩
  | getTaskGraph workspaceId planId =>
      obtain ⟨hanswer, hfallback, hcurrent⟩ := h.getTaskGraph_spec hfaithful workspaceId planId
      exact ⟨congrArg _ hanswer, congrArg _ hfallback, hcurrent⟩
  | saveSubAgentResult workspaceId runId result =>
      exact ⟨rfl, congrArg _ saveSubAgentResult_fallbackStore,
        h.saveSubAgentResult huuid5 workspaceId runId result⟩
  | getSubAgentResults workspaceId runId =>
      have hrestored : (store.restoreRunState api workspaceId runId).fallbackStore =
          store.fallbackStore := h.restoreRunState_fallbackStore hfaithful
      exact ⟨congrArg (·.getSubAgentResults workspaceId runId) hrestored, congrArg _ hrestored,
        h.restoreRunState hfaithful⟩
  | claimReadyNodes workspaceId runId =>
      obtain ⟨hanswer, hfallback, hcurrent⟩ :=
        h.claimReadyNodes_spec huuid5 hfaithful workspaceId runId
      exact ⟨hanswer, hfallback, hcurrent⟩
  | advanceTaskGraph workspaceId runId nodeId status =>
      obtain ⟨hanswer, hfallback, hcurrent⟩ :=
        h.advanceTaskGraph_spec huuid5 hfaithful workspaceId runId nodeId status
      exact ⟨congrArg _ hanswer, hfallback, hcurrent⟩
  | saveContextSnapshot snapshot =>
      exact ⟨rfl, congrArg _ saveContextSnapshot_fallbackStore,
        h.saveContextSnapshot huuid5 hfaithful hsafe⟩
  | getContextSnapshot workspaceId snapshotRef => exact ⟨rfl, rfl, h⟩
  | saveActionResult result =>
      exact ⟨rfl, congrArg _ saveActionResult_fallbackStore,
        h.saveActionResult huuid5 hfaithful hsafe⟩
  | getActionResult planId actionId => exact ⟨rfl, rfl, h⟩
  | appendTraceEvent traceEvent =>
      refine ⟨rfl, rfl, h.persists, h.filed, fun {_ _ _ record} hlatest => ?_, h.plans,
        h.taskGraphs⟩
      have hheld := h.held hlatest
      cases record <;> exact hheld
  | markActionCompleted workspaceId planId actionId =>
      have hsame := markActionCompleted_of_safe h hsafe
      exact ⟨rfl, rfl, h.congr rfl rfl hsame⟩
  | checkIdempotencyKey key =>
      obtain ⟨hanswer, hfallback, hcurrent⟩ := h.checkIdempotencyKey_spec hfaithful key
      exact ⟨hanswer, congrArg _ hfallback, hcurrent⟩
  | recordIdempotencyKey key =>
      exact ⟨rfl, congrArg _ recordIdempotencyKey_fallbackStore,
        h.recordIdempotencyKey huuid5 hsafe⟩

section Fresh

/-- A new store reads the plans and the task graphs of the fallback. -/
theorem Current.fresh_answers (hfaithful : Faithful api) (h : Current api store)
    (workspaceId planId : String) :
    (store.fresh.getPlan api workspaceId planId).1 =
        store.fallbackStore.getPlan workspaceId planId ∧
      (store.fresh.getTaskGraph api workspaceId planId).1 =
        store.fallbackStore.getTaskGraph workspaceId planId := by
  have hput : ∀ {memoryId : String} {record : StateRecord},
      latest store.memories workspaceId planId memoryId = some record →
        record ∈ (store.fresh.runState api workspaceId planId).memories := fun hlatest =>
    (hfaithful.memories _ _ _ _).2 ⟨_, hlatest⟩
  constructor
  · rw [hfaithful.getPlan_answer]
    refine enters_plans.foldl_eq_of_iff rfl fun plan => ⟨fun hplan => ?_, ?_⟩
    · obtain ⟨hws, hid⟩ := h.plan_place hplan
      exact ⟨.plan plan, hput (h.plans _ _ _ hplan), by rw [planEntry, hws, hid]⟩
    · rintro ⟨record, hrecord, hentry⟩
      have hheld := h.held_of_mem hfaithful hrecord
      cases record with
      | plan plan' =>
          cases hentry
          exact hheld
      | _ => cases hentry
  · refine enters_taskGraphs.foldl_eq_of_iff rfl fun graph => ⟨fun hgraph => ?_, ?_⟩
    · obtain ⟨hws, hid⟩ := h.taskGraph_place hgraph
      exact ⟨.taskGraph graph, hput (h.taskGraphs _ _ _ hgraph), by rw [graphEntry, hws, hid]⟩
    · rintro ⟨record, hrecord, hentry⟩
      have hheld := h.held_of_mem hfaithful hrecord
      cases record with
      | taskGraph graph' =>
          cases hentry
          exact hheld
      | _ => cases hentry

end Fresh

section Runs

variable {before rest : List StateOp} {o : StateOp}

/-- The store of a run: memories are persisted, and nothing has been put. -/
def start : PrismApiStateStore := { persistAgentMemories := true }

theorem current_start : Current api start where
  persists := rfl
  filed := fun _ hm => by cases hm
  held := fun hlatest => by cases hlatest
  plans := fun _ _ _ hplan => by cases hplan
  taskGraphs := fun _ _ _ hgraph => by cases hgraph

/-- The in-memory store is in the state of the fallback, up to versions, and the fallback is
current. -/
def Mirrored (api : StateApi) (store : PrismApiStateStore) (memory : MemoryStateStore) : Prop :=
  Current api store ∧ store.fallbackStore.unversioned = memory.unversioned

/-- Safe steps keep the two stores in step. -/
theorem simulation (huuid5 : Injective api.uuid5) (hfaithful : Faithful api) :
    Simulation (machine api) MemoryStateStore.machine (Safe api) StateOp.seen (Mirrored api) := by
  constructor
  · rintro o store memory ⟨hcurrent, hsame⟩ hsafe
    have hfollows := follows huuid5 hfaithful hcurrent hsafe
    exact hfollows.answer.trans (MemoryStateStore.machine_congr hsame o).1
  · rintro o store memory ⟨hcurrent, hsame⟩ hsafe
    have hfollows := follows huuid5 hfaithful hcurrent hsafe
    exact ⟨hfollows.current, hfollows.fallback.trans (MemoryStateStore.machine_congr hsame o).2⟩

/-- An operation at the end of a run is answered as by the in-memory store, and after it a new
store over the same transport reads the plans and the task graphs of that store. -/
structure RefinesAt (api : StateApi) (before : List StateOp) (o : StateOp) : Prop where
  answer : o.seen (machine api o (after (machine api) start before)).1 =
    o.seen (MemoryStateStore.machine o (after MemoryStateStore.machine {} before)).1
  plan : ∀ workspaceId planId,
    ((after (machine api) start (before ++ [o])).fresh.getPlan api workspaceId planId).1 =
      (after MemoryStateStore.machine {} (before ++ [o])).getPlan workspaceId planId
  taskGraph : ∀ workspaceId planId,
    ((after (machine api) start (before ++ [o])).fresh.getTaskGraph api workspaceId planId).1.map
        TaskGraph.unversioned =
      ((after MemoryStateStore.machine {} (before ++ [o])).getTaskGraph workspaceId planId).map
        TaskGraph.unversioned

/-- The API-backed store refines the in-memory store at every operation of a safe run. -/
theorem refines_of_safe (huuid5 : Injective api.uuid5) (hfaithful : Faithful api)
    (hsafe : Along (machine api) (Safe api) start (before ++ o :: rest)) :
    RefinesAt api before o := by
  obtain ⟨hanswer, hcurrent, hsame⟩ :=
    (simulation huuid5 hfaithful).at_op ⟨current_start, rfl⟩ hsafe
  have hfresh := fun workspaceId planId => hcurrent.fresh_answers hfaithful workspaceId planId
  refine ⟨hanswer, fun workspaceId planId => ?_, fun workspaceId planId => ?_⟩
  · rw [(hfresh workspaceId planId).1]
    exact congrFun (congrArg MemoryStateStore.plans hsame) (workspaceId, planId)
  · rw [(hfresh workspaceId planId).2]
    exact congrFun (congrArg MemoryStateStore.taskGraphs hsame) (workspaceId, planId)

end Runs

section Transport

/-- A transport that keeps the latest payload under each memory id, and a hash that returns
its input. -/
def latestApi : StateApi where
  fetchRunState memories workspaceId runId :=
    { memories := (memories.map (·.memoryId)).dedup.filterMap
        (latest memories workspaceId runId) }
  uuid5 raw := raw

theorem faithful_latestApi : Faithful latestApi where
  memories memories workspaceId runId record := by
    change record ∈ (memories.map (·.memoryId)).dedup.filterMap
      (latest memories workspaceId runId) ↔ _
    simp only [List.mem_filterMap, List.mem_dedup]
    constructor
    · rintro ⟨memoryId, -, hlatest⟩
      exact ⟨memoryId, hlatest⟩
    · rintro ⟨memoryId, hlatest⟩
      obtain ⟨m, hm, -, -, hid, -⟩ := exists_of_latest hlatest
      exact ⟨memoryId, List.mem_map.2 ⟨m, hm, hid⟩, hlatest⟩
  actions _ _ _ := rfl
  runStatus _ _ _ := rfl

/-- A graph of two nodes, the second one waiting for the first. -/
def chainedGraph : TaskGraph :=
  { planId := "run", workspaceId := "ws"
    nodes := [{ nodeId := "a" }, { nodeId := "b", dependsOn := ["a"] }] }

/-- A run up to the completion of its first node: a plan and a graph are saved, the graph is
claimed, an action's result is saved and the action marked, although it is COMPLETED. -/
def sampleOps : List StateOp :=
  [.savePlan (samplePlanOf .completed .completed), .saveTaskGraph chainedGraph,
    .claimReadyNodes "ws" "run",
    .saveActionResult
      { resultId := "result", planId := "run", actionId := "a", toolName := "notify"
        success := true },
    .markActionCompleted "ws" "run" "a"]

/-- Completing a node answers as over the in-memory store, and a new store reads the graph. -/
theorem refines_of_safe_sample :
    RefinesAt latestApi sampleOps (.advanceTaskGraph "ws" "run" "a" .completed) := by
  have hsafe : Along (machine latestApi) (Safe latestApi) start
      (sampleOps ++ .advanceTaskGraph "ws" "run" "a" .completed :: [.getTaskGraph "ws" "run"]) := by
    refine ⟨trivial, trivial, trivial, fun workspaceId other hother hmem _ => ?_,
      fun plan action hplan haction => ?_, trivial, trivial, trivial⟩
    · -- nothing has been put outside the workspace of the plan
      obtain ⟨memoryId, hlatest⟩ := (faithful_latestApi.memories _ _ _ _).1 hmem
      obtain ⟨m, hm, hworkspace, -⟩ := exists_of_latest hlatest
      have hput : ∀ m ∈ (after (machine latestApi) start (sampleOps.take 3)).memories,
          m.workspaceId = "ws" := by decide +kernel
      exact absurd (congrArg some ((hput m hm).symm.trans hworkspace)) hother
    · obtain rfl := Option.some.inj hplan
      obtain rfl := Option.some.inj haction
      rfl
  exact refines_of_safe injective_id faithful_latestApi hsafe

/-- An action that is marked as completed is read as pending again. -/
theorem completed_action_read_pending :
    ¬ ∀ api : StateApi, Injective api.uuid5 → Faithful api →
      ∀ before o, RefinesAt api before o := by
  intro h
  have hread := (h latestApi injective_id faithful_latestApi
    [.savePlan (samplePlanOf .planned .pending), .markActionCompleted "ws" "run" "a"]
    (.getPlan "ws" "run")).answer
  have hstatuses := congrArg (Option.map fun plan : AgentPlan => plan.actions.map (·.status)) hread
  exact absurd hstatuses (by decide)

end Transport

end PrismApiStateStore

end PrismAgent
