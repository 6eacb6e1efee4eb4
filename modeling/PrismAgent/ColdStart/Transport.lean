import PrismAgent.Dictionary.Replay
import PrismAgent.State.RoundTrip

/-!
# A faithful transport

Each kind of record is put under an id that is hashed from a text of its own shape. The
transport keeps the payloads that the stores put and returns, for a workspace and a run, the
latest payload under each memory id; replaying them enters every record in its table.
-/

namespace PrismAgent

namespace PrismApiStateStore

section MemoryIds

variable (api : StateApi)

theorem stateMemoryId_pair (a b : String) :
    stateMemoryId api [a, b] = api.uuid5 ("state" ++ (":" ++ a ++ ":" ++ b)) := by
  have h : ":".intercalate ["state", a, b] = "state" ++ (":" ++ a ++ ":" ++ b) := by
    change "state" ++ ":" ++ a ++ ":" ++ b = _
    simp only [String.append_assoc]
  unfold stateMemoryId stableAgentRunUuid
  dsimp only
  rw [h, parseUuid_state]

theorem stateMemoryId_triple (a b c : String) :
    stateMemoryId api [a, b, c] =
      api.uuid5 ("state" ++ (":" ++ a ++ ":" ++ b ++ ":" ++ c)) := by
  have h : ":".intercalate ["state", a, b, c] =
      "state" ++ (":" ++ a ++ ":" ++ b ++ ":" ++ c) := by
    change "state" ++ ":" ++ a ++ ":" ++ b ++ ":" ++ c = _
    simp only [String.append_assoc]
  unfold stateMemoryId stableAgentRunUuid
  dsimp only
  rw [h, parseUuid_state]

/-- The id under which a context snapshot is put. -/
def contextId (runId snapshotId : String) : String :=
  stateMemoryId api [runId, snapshotId, "context"]

end MemoryIds

/-- The record that was put last under a memory id of a run. -/
def latest (memories : List StoredMemory) (workspaceId runId memoryId : String) :
    Option StateRecord :=
  ((memories.filter fun m =>
    m.workspaceId = workspaceId ∧ m.runId = runId ∧ m.memoryId = memoryId).getLast?).map (·.record)

/-- `fetch_run_state` returns the latest payload under each memory id of the run, and
nothing else. -/
structure Faithful (api : StateApi) : Prop where
  memories : ∀ memories workspaceId runId record,
    record ∈ (api.fetchRunState memories workspaceId runId).memories ↔
      ∃ memoryId, latest memories workspaceId runId memoryId = some record
  actions : ∀ memories workspaceId runId,
    (api.fetchRunState memories workspaceId runId).actions = []
  runStatus : ∀ memories workspaceId runId,
    (api.fetchRunState memories workspaceId runId).runStatus = none

/-- Each record is put under the workspace, the run and the memory id of its kind. -/
def WellFiled (api : StateApi) (m : StoredMemory) : Prop :=
  match m.record with
  | .plan plan =>
      m.workspaceId = plan.workspaceId ∧ m.runId = plan.planId ∧
        m.memoryId = stateMemoryId api [plan.planId, "plan"]
  | .contextSnapshot snapshot =>
      m.workspaceId = snapshot.workspaceId ∧ snapshot.planId = some m.runId ∧
        m.memoryId = contextId api m.runId snapshot.snapshotId
  | .taskGraph graph => m.memoryId = stateMemoryId api [graph.planId, "task_graph"]
  | .actionResult result =>
      m.memoryId = stateMemoryId api [result.planId, result.actionId, "result"]
  | .subAgentResult runId result =>
      m.memoryId = stateMemoryId api [runId, result.nodeId, "sub_agent_result"]
  | .idempotencyKey key => m.memoryId = stateMemoryId api ["idempotency", key]

section Latest

variable {memories : List StoredMemory} {workspaceId runId memoryId : String}
  {record : StateRecord}

theorem exists_of_latest (h : latest memories workspaceId runId memoryId = some record) :
    ∃ m ∈ memories, m.workspaceId = workspaceId ∧ m.runId = runId ∧ m.memoryId = memoryId ∧
      m.record = record := by
  obtain ⟨m, hm, rfl⟩ := Option.map_eq_some_iff.1 h
  obtain ⟨hmem, hfiled⟩ := List.mem_filter.1 (List.mem_of_getLast? hm)
  obtain ⟨hws, hrun, hid⟩ := of_decide_eq_true hfiled
  exact ⟨m, hmem, hws, hrun, hid, rfl⟩

/-- A payload that is put becomes the latest record of its place. -/
theorem latest_append (m : StoredMemory) :
    latest (memories ++ [m]) workspaceId runId memoryId =
      if m.workspaceId = workspaceId ∧ m.runId = runId ∧ m.memoryId = memoryId then
        some m.record
      else latest memories workspaceId runId memoryId := by
  unfold latest
  by_cases h : m.workspaceId = workspaceId ∧ m.runId = runId ∧ m.memoryId = memoryId
  · simp [List.filter_append, h]
  · rw [if_neg h, List.filter_append]
    simp [h]

end Latest

section Load

variable {workspaceId runId : String} {store : PrismApiStateStore} {records : List StateRecord}

theorem loadRecord_memories (store : PrismApiStateStore) (record : StateRecord) :
    (loadRecord workspaceId runId store record).memories = store.memories ∧
      (loadRecord workspaceId runId store record).persistAgentMemories =
        store.persistAgentMemories := by
  cases record with
  | idempotencyKey key => by_cases h : key = "" <;> simp [loadRecord, h, withFallback]
  | _ => exact ⟨rfl, rfl⟩

/-- Replaying records puts nothing. -/
theorem foldl_loadRecord_memories :
    (records.foldl (loadRecord workspaceId runId) store).memories = store.memories ∧
      (records.foldl (loadRecord workspaceId runId) store).persistAgentMemories =
        store.persistAgentMemories := by
  induction records generalizing store with
  | nil => exact ⟨rfl, rfl⟩
  | cons record records ih =>
      obtain ⟨hmemories, hpersist⟩ := loadRecord_memories store record
      exact ⟨ih.1.trans hmemories, ih.2.trans hpersist⟩

/-- The entry of a record in the table of the plans. -/
def planEntry : StateRecord → Option ((String × String) × AgentPlan)
  | .plan plan => some ((plan.workspaceId, plan.planId), plan)
  | _ => none

/-- The entry of a record in the table of the task graphs. -/
def graphEntry : StateRecord → Option ((String × String) × TaskGraph)
  | .taskGraph graph => some ((graph.workspaceId, graph.planId), graph)
  | _ => none

theorem enters_plans : Replay.Enters (loadRecord workspaceId runId)
    (fun store => store.fallbackStore.plans) planEntry := by
  constructor
  · intro store record k v h
    cases record with
    | plan plan =>
        cases h
        exact Function.update_self ..
    | _ => cases h
  · intro store record k h
    cases record with
    | plan plan => exact Function.update_of_ne (fun hk => h plan (by rw [hk]; rfl)) _ _
    | idempotencyKey key => by_cases hkey : key = "" <;> simp [loadRecord, hkey, withFallback,
        MemoryStateStore.recordIdempotencyKey]
    | _ => rfl

theorem enters_taskGraphs : Replay.Enters (loadRecord workspaceId runId)
    (fun store => store.fallbackStore.taskGraphs) graphEntry := by
  constructor
  · intro store record k v h
    cases record with
    | taskGraph graph =>
        cases h
        exact Function.update_self ..
    | _ => cases h
  · intro store record k h
    cases record with
    | taskGraph graph => exact Function.update_of_ne (fun hk => h graph (by rw [hk]; rfl)) _ _
    | idempotencyKey key => by_cases hkey : key = "" <;> simp [loadRecord, hkey, withFallback,
        MemoryStateStore.recordIdempotencyKey]
    | _ => rfl

end Load

section Restore

variable {api : StateApi} {store : PrismApiStateStore} {workspaceId runId : String}

theorem restoreRunState_memories :
    (store.restoreRunState api workspaceId runId).memories = store.memories ∧
      (store.restoreRunState api workspaceId runId).persistAgentMemories =
        store.persistAgentMemories :=
  foldl_loadRecord_memories

/-- Loading a plan restores its run. -/
theorem getPlan_restores :
    (store.getPlan api workspaceId runId).2.fallbackStore.contextSnapshots =
        (store.restoreRunState api workspaceId runId).fallbackStore.contextSnapshots ∧
      (store.getPlan api workspaceId runId).2.memories = store.memories ∧
      (store.getPlan api workspaceId runId).2.persistAgentMemories =
        store.persistAgentMemories := by
  have hmemories : (store.restoreRunState api workspaceId runId).memories = store.memories ∧ _ :=
    restoreRunState_memories
  unfold getPlan restoreRunState at *
  dsimp only
  split
  · exact ⟨rfl, hmemories⟩
  · exact ⟨rfl, hmemories⟩

/-- A run state without statuses leaves the plan as it is. -/
theorem hydratePlanState_of_none {state : RunState} (plan : AgentPlan)
    (hactions : state.actions = []) (hrun : state.runStatus = none) :
    hydratePlanState api plan state = plan := by
  have hfold : plan.actions.foldl (hydrateAction api state.actions) plan = plan :=
    foldl_hydrateAction_of_same api state.actions plan fun a _ => by rw [hactions]; rfl
  rw [hydratePlanState_eq, hfold, hrun]
  rfl

/-- Without statuses from the API the plan that is read is the one of the restored run. -/
theorem Faithful.getPlan_answer (h : Faithful api) :
    (store.getPlan api workspaceId runId).1 =
      (store.restoreRunState api workspaceId runId).fallbackStore.getPlan workspaceId runId := by
  have hhydrated : ∀ plan,
      hydratePlanState api plan (store.runState api workspaceId runId) = plan := fun plan =>
    hydratePlanState_of_none plan (h.actions _ _ _) (h.runStatus _ _ _)
  unfold getPlan
  dsimp only
  split
  next hnone => exact hnone.symm
  next plan hplan => exact (congrArg some (hhydrated plan)).trans hplan.symm

end Restore

end PrismApiStateStore

end PrismAgent
