import PrismAgent.State.WriteThrough

/-!
# The fallback is current

What the API-backed store keeps over a run while nothing is written behind its back: every
payload stands under the run of its record, the fallback holds the latest record of every
place, and its plans and task graphs are the latest records under their names. Replaying a
run then changes nothing in the fallback, and a new store reads the same plans and graphs.
-/

namespace PrismAgent

open Function

namespace PrismApiStateStore

/-- The payload stands under the run that its record names. -/
def Filed (api : StateApi) (m : StoredMemory) : Prop :=
  WellFiled api m ∧
    match m.record with
    | .taskGraph graph => m.workspaceId = graph.workspaceId ∧ m.runId = graph.planId
    | .actionResult result => m.runId = result.planId
    | .subAgentResult runId _ => m.runId = runId
    | _ => True

/-- Every value of the table is the latest record under its name. -/
def Durable {α : Type} (api : StateApi) (memories : List StoredMemory)
    (name : String → RecordName) (wrap : α → StateRecord) (table : String × String → Option α) :
    Prop :=
  ∀ workspaceId runId value, table (workspaceId, runId) = some value →
    latest memories workspaceId runId ((name runId).memoryId api) = some (wrap value)

/-- No place has another record of the cell. -/
def Sole (memories : List StoredMemory) (workspaceId runId : String) (record : StateRecord) :
    Prop :=
  ∀ workspaceId' runId' memoryId record',
    latest memories workspaceId' runId' memoryId = some record' →
      cell workspaceId' runId' record' = cell workspaceId runId record → record' = record

structure Current (api : StateApi) (store : PrismApiStateStore) : Prop where
  persists : store.persistAgentMemories = true
  filed : ∀ m ∈ store.memories, Filed api m
  held : ∀ {workspaceId runId memoryId record},
    latest store.memories workspaceId runId memoryId = some record →
      Held workspaceId runId store.fallbackStore record
  plans : Durable api store.memories .plan .plan store.fallbackStore.plans
  taskGraphs : Durable api store.memories .taskGraph .taskGraph store.fallbackStore.taskGraphs

variable {api : StateApi} {store : PrismApiStateStore}

section Durable

variable {α : Type} {memories : List StoredMemory} {name : String → RecordName}
  {wrap : α → StateRecord} {table : String × String → Option α} {workspaceId runId : String}

/-- A value that is put under its name is the latest one. -/
theorem Durable.put (h : Durable api memories name wrap table) {value : α} {memoryId : String}
    (hid : memoryId = (name runId).memoryId api) :
    Durable api (memories ++ [⟨workspaceId, runId, memoryId, wrap value⟩]) name wrap
      (update table (workspaceId, runId) (some value)) := by
  intro workspaceId' runId' value' hvalue
  rw [latest_append]
  by_cases hkey : (workspaceId', runId') = (workspaceId, runId)
  · obtain ⟨rfl, rfl⟩ := Prod.mk.inj hkey
    rw [update_self] at hvalue
    rw [if_pos ⟨rfl, rfl, hid⟩, Option.some.inj hvalue]
  · rw [update_of_ne hkey] at hvalue
    rw [if_neg fun hplace => hkey (Prod.ext hplace.1.symm hplace.2.1.symm)]
    exact h _ _ _ hvalue

/-- A payload that is not under the name of a value leaves the values durable. -/
theorem Durable.keep (h : Durable api memories name wrap table) {memoryId : String}
    {record : StateRecord}
    (hne : ∀ value, table (workspaceId, runId) = some value →
      memoryId ≠ (name runId).memoryId api) :
    Durable api (memories ++ [⟨workspaceId, runId, memoryId, record⟩]) name wrap table := by
  intro workspaceId' runId' value hvalue
  rw [latest_append, if_neg]
  · exact h _ _ _ hvalue
  · rintro ⟨rfl, rfl, hid⟩
    exact hne value hvalue hid

end Durable

section Sole

variable {memories : List StoredMemory} {workspaceId runId memoryId : String}
  {record : StateRecord}

/-- A payload is the only one of its cell if the places other than its own have none. -/
theorem Sole.put (h : ∀ m ∈ memories,
      cell m.workspaceId m.runId m.record = cell workspaceId runId record →
        latest memories m.workspaceId m.runId m.memoryId = some m.record →
          m.record = record ∨
            workspaceId = m.workspaceId ∧ runId = m.runId ∧ memoryId = m.memoryId) :
    Sole (memories ++ [⟨workspaceId, runId, memoryId, record⟩]) workspaceId runId record := by
  intro workspaceId' runId' memoryId' record' hlatest hcell
  rw [latest_append] at hlatest
  split at hlatest
  next => exact (Option.some.inj hlatest).symm
  next hplace =>
    obtain ⟨m, hm, rfl, rfl, rfl, rfl⟩ := exists_of_latest hlatest
    exact (h m hm hcell hlatest).resolve_right hplace

theorem Sole.of_payloads (h : ∀ m ∈ memories,
      cell m.workspaceId m.runId m.record = cell workspaceId runId record →
        latest memories m.workspaceId m.runId m.memoryId = some m.record → m.record = record) :
    Sole memories workspaceId runId record := by
  intro workspaceId' runId' memoryId' record' hlatest hcell
  obtain ⟨m, hm, rfl, rfl, rfl, rfl⟩ := exists_of_latest hlatest
  exact h m hm hcell hlatest

theorem Sole.idempotencyKey {key : String} :
    Sole memories workspaceId runId (.idempotencyKey key) := by
  intro workspaceId' runId' memoryId' record' _ hcell
  cases record' with
  | idempotencyKey key' =>
      exact congrArg StateRecord.idempotencyKey (Cell.idempotencyKey.inj hcell)
  | _ => cases hcell

/-- The record's cell has one place; a snapshot can be put under several runs, and a result
under several workspaces. -/
def Placed : StateRecord → Prop
  | .contextSnapshot _ | .actionResult _ => False
  | _ => True

/-- Plans, task graphs and results of sub-agents have one place for each cell, and the
record of an idempotency key is its cell. -/
theorem Sole.put_of_filed (hfiled : ∀ m ∈ memories, Filed api m)
    (hput : Filed api ⟨workspaceId, runId, memoryId, record⟩) (hplaced : Placed record) :
    Sole (memories ++ [⟨workspaceId, runId, memoryId, record⟩]) workspaceId runId record := by
  refine Sole.put fun m hm hcell _ => ?_
  have hm := hfiled m hm
  obtain ⟨workspaceId', runId', memoryId', record'⟩ := m
  unfold Filed WellFiled at hput hm
  cases record with
  | plan plan =>
      cases record' with
      | plan plan' =>
          obtain ⟨⟨hws, hrun, hid⟩, -⟩ := hput
          obtain ⟨⟨hws', hrun', hid'⟩, -⟩ := hm
          dsimp only at hid hid' hws hws' hrun hrun'
          obtain ⟨hworkspace, hplan⟩ := Cell.plan.inj hcell
          refine .inr ⟨?_, ?_, ?_⟩
          · exact hws.trans (hworkspace.symm.trans hws'.symm)
          · exact hrun.trans (hplan.symm.trans hrun'.symm)
          · rw [hplan] at hid'
            exact hid.trans hid'.symm
      | _ => cases hcell
  | taskGraph graph =>
      cases record' with
      | taskGraph graph' =>
          obtain ⟨hid, hws, hrun⟩ := hput
          obtain ⟨hid', hws', hrun'⟩ := hm
          dsimp only at hid hid' hws hws' hrun hrun'
          obtain ⟨hworkspace, hplan⟩ := Cell.taskGraph.inj hcell
          refine .inr ⟨?_, ?_, ?_⟩
          · exact hws.trans (hworkspace.symm.trans hws'.symm)
          · exact hrun.trans (hplan.symm.trans hrun'.symm)
          · rw [hplan] at hid'
            exact hid.trans hid'.symm
      | _ => cases hcell
  | subAgentResult resultRunId result =>
      cases record' with
      | subAgentResult resultRunId' result' =>
          obtain ⟨hid, hrunId⟩ := hput
          obtain ⟨hid', hrunId'⟩ := hm
          dsimp only at hid hid' hrunId hrunId'
          obtain ⟨hworkspace, hrun, hnode⟩ := Cell.subAgentResult.inj hcell
          rw [← hrunId, ← hrunId', ite_self, ite_self] at hrun
          dsimp only at hrun
          rw [← hrunId', hrun, hnode] at hid'
          rw [← hrunId] at hid
          exact .inr ⟨hworkspace.symm, hrun.symm, hid.trans hid'.symm⟩
      | _ => cases hcell
  | idempotencyKey key =>
      cases record' with
      | idempotencyKey key' =>
          exact .inl (congrArg StateRecord.idempotencyKey (Cell.idempotencyKey.inj hcell))
      | _ => cases hcell
  | contextSnapshot snapshot => exact hplaced.elim
  | actionResult result => exact hplaced.elim

end Sole

section Replay

variable {workspaceId runId : String} {records : List StateRecord}

theorem loadRecord_fallbackStore {record : StateRecord}
    (h : Held workspaceId runId store.fallbackStore record) :
    (loadRecord workspaceId runId store record).fallbackStore = store.fallbackStore := by
  cases record with
  | idempotencyKey key =>
      by_cases hkey : key = ""
      · simp only [loadRecord, hkey, if_true]
      · simp only [loadRecord, hkey, if_false, withFallback]
        exact writeRecord_of_held h
  | _ => exact writeRecord_of_held h

/-- Records that the fallback holds are replayed without effect on it. -/
theorem foldl_loadRecord_fallbackStore
    (h : ∀ record ∈ records, Held workspaceId runId store.fallbackStore record) :
    (records.foldl (loadRecord workspaceId runId) store).fallbackStore = store.fallbackStore := by
  induction records generalizing store with
  | nil => rfl
  | cons record records ih =>
      have hrecord := loadRecord_fallbackStore (h record List.mem_cons_self)
      refine (ih fun record' hrecord' => ?_).trans hrecord
      rw [hrecord]
      exact h record' (List.mem_cons_of_mem _ hrecord')

end Replay

namespace Current

variable {workspaceId runId : String}

/-- What the invariant says depends on the fallback and on what has been put. -/
theorem congr (h : Current api store) {store' : PrismApiStateStore}
    (hpersists : store'.persistAgentMemories = store.persistAgentMemories)
    (hmemories : store'.memories = store.memories)
    (hfallback : store'.fallbackStore = store.fallbackStore) : Current api store' := by
  constructor
  · exact hpersists.trans h.persists
  · rw [hmemories]
    exact h.filed
  · rw [hmemories, hfallback]
    exact h.held
  · rw [hmemories, hfallback]
    exact h.plans
  · rw [hmemories, hfallback]
    exact h.taskGraphs

theorem held_of_mem (hfaithful : Faithful api) (h : Current api store) {record : StateRecord}
    (hrecord : record ∈ (store.runState api workspaceId runId).memories) :
    Held workspaceId runId store.fallbackStore record := by
  obtain ⟨memoryId, hlatest⟩ := (hfaithful.memories _ _ _ _).1 hrecord
  exact h.held hlatest

/-- Restoring a run leaves the fallback as it is. -/
theorem restoreRunState_fallbackStore (hfaithful : Faithful api) (h : Current api store) :
    (store.restoreRunState api workspaceId runId).fallbackStore = store.fallbackStore :=
  foldl_loadRecord_fallbackStore fun _ hrecord => h.held_of_mem hfaithful hrecord

theorem restoreRunState (hfaithful : Faithful api) (h : Current api store) :
    Current api (store.restoreRunState api workspaceId runId) :=
  h.congr restoreRunState_memories.2 restoreRunState_memories.1
    (h.restoreRunState_fallbackStore hfaithful)

/-- The plans of the fallback are under their own ids. -/
theorem plan_place (h : Current api store) {plan : AgentPlan}
    (hplan : store.fallbackStore.plans (workspaceId, runId) = some plan) :
    plan.workspaceId = workspaceId ∧ plan.planId = runId := by
  obtain ⟨m, hm, rfl, rfl, -, hrecord⟩ := exists_of_latest (h.plans _ _ _ hplan)
  have hfiled := (h.filed m hm).1
  unfold WellFiled at hfiled
  rw [hrecord] at hfiled
  exact ⟨hfiled.1.symm, hfiled.2.1.symm⟩

/-- So are its task graphs. -/
theorem taskGraph_place (h : Current api store) {graph : TaskGraph}
    (hgraph : store.fallbackStore.taskGraphs (workspaceId, runId) = some graph) :
    graph.workspaceId = workspaceId ∧ graph.planId = runId := by
  obtain ⟨m, hm, rfl, rfl, -, hrecord⟩ := exists_of_latest (h.taskGraphs _ _ _ hgraph)
  have hfiled := (h.filed m hm).2
  rw [hrecord] at hfiled
  exact ⟨hfiled.1.symm, hfiled.2.symm⟩

section Write

variable {record : StateRecord}

/-- A written record is held where no place has another record of its cell. -/
theorem held_write {memories : List StoredMemory} (hsole : Sole memories workspaceId runId record)
    (hold : ∀ {workspaceId' runId' memoryId record'},
      latest memories workspaceId' runId' memoryId = some record' →
        cell workspaceId' runId' record' ≠ cell workspaceId runId record →
          Held workspaceId' runId' store.fallbackStore record')
    {workspaceId' runId' memoryId : String} {record' : StateRecord}
    (hlatest : latest memories workspaceId' runId' memoryId = some record') :
    Held workspaceId' runId'
      (writeRecord workspaceId runId store.fallbackStore record) record' := by
  by_cases hcell : cell workspaceId' runId' record' = cell workspaceId runId record
  · obtain rfl := hsole _ _ _ _ hlatest hcell
    exact held_of_cell_eq hcell.symm held_writeRecord
  · exact held_writeRecord_of_ne hcell (hold hlatest hcell)

/-- A record that is neither a plan nor a task graph is written without being put. -/
theorem keep (h : Current api store) (workspaceId runId : String) (record : StateRecord)
    (hsole : Sole store.memories workspaceId runId record)
    (hplans : (writeRecord workspaceId runId store.fallbackStore record).plans =
      store.fallbackStore.plans)
    (hgraphs : (writeRecord workspaceId runId store.fallbackStore record).taskGraphs =
      store.fallbackStore.taskGraphs) :
    Current api
      (store.withFallback (writeRecord workspaceId runId store.fallbackStore record)) := by
  constructor
  · exact h.persists
  · exact h.filed
  · exact held_write hsole fun hlatest _ => h.held hlatest
  · exact hplans ▸ h.plans
  · exact hgraphs ▸ h.taskGraphs

/-- A record is written and put. -/
theorem put (h : Current api store) {memoryId : String}
    (hfiled : Filed api ⟨workspaceId, runId, memoryId, record⟩)
    (hsole : Sole (store.memories ++ [⟨workspaceId, runId, memoryId, record⟩]) workspaceId runId
      record)
    (hplans : Durable api (store.memories ++ [⟨workspaceId, runId, memoryId, record⟩]) .plan .plan
      (writeRecord workspaceId runId store.fallbackStore record).plans)
    (hgraphs : Durable api (store.memories ++ [⟨workspaceId, runId, memoryId, record⟩])
      .taskGraph .taskGraph
      (writeRecord workspaceId runId store.fallbackStore record).taskGraphs) :
    Current api
      { store.withFallback (writeRecord workspaceId runId store.fallbackStore record) with
        memories := store.memories ++ [⟨workspaceId, runId, memoryId, record⟩] } := by
  constructor
  · exact h.persists
  · intro m hm
    rcases List.mem_append.1 hm with hold | hnew
    · exact h.filed m hold
    · rw [List.mem_singleton.1 hnew]
      exact hfiled
  · refine held_write hsole fun {workspaceId' runId' memoryId' record'} hlatest hcell => ?_
    rw [latest_append] at hlatest
    split at hlatest
    next hplace =>
      obtain ⟨rfl, rfl, -⟩ := hplace
      exact absurd (congrArg (cell _ _) (Option.some.inj hlatest).symm) hcell
    next => exact h.held hlatest
  · exact hplans
  · exact hgraphs

end Write

end Current

end PrismApiStateStore

end PrismAgent
