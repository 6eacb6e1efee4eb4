import PrismAgent.Join.Tables
import PrismAgent.State.Refines

/-!
# The tables in the API-backed store

The fallback of the API-backed store has the graphs and the results of all runs, and what the
transport returns for a run is what the fallback has, so a read restores nothing else. The
statuses that the API reports for actions and runs are left open.
-/

namespace PrismAgent

open Effect
open Function (update)

namespace PrismApiStateStore

/-- The record belongs to the tables of a join. -/
def Joins : StateRecord → Prop
  | .taskGraph _ => True
  | .subAgentResult _ _ => True
  | _ => False

/-- A graph or a result is put under its run and its own memory id. -/
def AtPlace (uuid5 : String → String) (m : StoredMemory) : Prop :=
  match m.record with
  | .taskGraph graph => m.workspaceId = graph.workspaceId ∧ m.runId = graph.planId ∧
      m.memoryId = stableAgentRunUuid uuid5 ["state", graph.planId, "task_graph"]
  | .subAgentResult runId result => runId = m.runId ∧
      m.memoryId = stableAgentRunUuid uuid5 ["state", runId, result.nodeId, "sub_agent_result"]
  | _ => True

/-- The transport returns nothing for a run but what was put last under a memory id of it, and
memory ids are made by one hash. -/
structure ReturnsPut (env : Env) (uuid5 : String → String) : Prop where
  uuid5 : ∀ tick, (env.stateApi tick).uuid5 = uuid5
  memories : ∀ tick memories workspaceId runId record,
    record ∈ ((env.stateApi tick).fetchRunState memories workspaceId runId).memories →
      ∃ memoryId, latest memories workspaceId runId memoryId = some record

/-- The fallback holds the graphs and results that were put last. -/
structure Backed (uuid5 : String → String) (store : PrismApiStateStore) : Prop where
  filed : store.fallbackStore.FiledGraphs
  kept : store.persistAgentMemories = false → store.memories = []
  placed : ∀ m ∈ store.memories, AtPlace uuid5 m
  held : ∀ {workspaceId runId memoryId record},
    latest store.memories workspaceId runId memoryId = some record → Joins record →
      Held workspaceId runId store.fallbackStore record

variable {api : StateApi} {uuid5 : String → String} {store store' : PrismApiStateStore}
  {workspaceId runId memoryId : String} {record : StateRecord}

section Tables

variable {fallback fallback' : MemoryStateStore}

/-- Whether a graph or a result is held depends on the tables. -/
theorem held_congr (hgraphs : fallback'.taskGraphs = fallback.taskGraphs)
    (hresults : fallback'.subAgentResults = fallback.subAgentResults) (hjoins : Joins record)
    (h : Held workspaceId runId fallback record) : Held workspaceId runId fallback' record := by
  cases record with
  | taskGraph graph => exact (congrFun hgraphs _).trans h
  | subAgentResult resultRunId result =>
      change (fallback'.subAgentResults _).lookup result.nodeId = some result
      rw [hresults]
      exact h
  | _ => exact hjoins.elim

/-- A record of another kind leaves the tables. -/
theorem loadRecord_tables (hjoins : ¬Joins record) :
    (loadRecord workspaceId runId store record).fallbackStore.taskGraphs =
        store.fallbackStore.taskGraphs ∧
      (loadRecord workspaceId runId store record).fallbackStore.subAgentResults =
        store.fallbackStore.subAgentResults := by
  cases record with
  | taskGraph => exact absurd trivial hjoins
  | subAgentResult => exact absurd trivial hjoins
  | idempotencyKey key =>
      by_cases hkey : key = ""
      · simp [loadRecord, hkey]
      · simp [loadRecord, hkey, withFallback, MemoryStateStore.recordIdempotencyKey]
  | _ => exact ⟨rfl, rfl⟩

/-- Records are replayed without effect on the tables if the fallback holds those of a join. -/
theorem foldl_loadRecord_tables {records : List StateRecord}
    (h : ∀ record ∈ records, Joins record → Held workspaceId runId store.fallbackStore record) :
    (records.foldl (loadRecord workspaceId runId) store).fallbackStore.taskGraphs =
        store.fallbackStore.taskGraphs ∧
      (records.foldl (loadRecord workspaceId runId) store).fallbackStore.subAgentResults =
        store.fallbackStore.subAgentResults := by
  induction records generalizing store with
  | nil => exact ⟨rfl, rfl⟩
  | cons record records ih =>
      have hrecord : (loadRecord workspaceId runId store record).fallbackStore.taskGraphs =
            store.fallbackStore.taskGraphs ∧
          (loadRecord workspaceId runId store record).fallbackStore.subAgentResults =
            store.fallbackStore.subAgentResults := by
        by_cases hjoins : Joins record
        · rw [loadRecord_fallbackStore (h record List.mem_cons_self hjoins)]
          exact ⟨rfl, rfl⟩
        · exact loadRecord_tables hjoins
      obtain ⟨hgraphs, hresults⟩ := @ih (loadRecord workspaceId runId store record)
        fun record' hrecord' hjoins => held_congr hrecord.1 hrecord.2 hjoins
          (h record' (List.mem_cons_of_mem _ hrecord') hjoins)
      exact ⟨hgraphs.trans hrecord.1, hresults.trans hrecord.2⟩

end Tables

/-- Two places of one cell are one. -/
theorem place_of_cell {m m' : StoredMemory} (hm : AtPlace uuid5 m) (hm' : AtPlace uuid5 m')
    (hjoins : Joins m.record)
    (hcell : cell m.workspaceId m.runId m.record = cell m'.workspaceId m'.runId m'.record) :
    m.workspaceId = m'.workspaceId ∧ m.runId = m'.runId ∧ m.memoryId = m'.memoryId := by
  unfold AtPlace at hm hm'
  cases hrecord : m.record with
  | taskGraph graph =>
      cases hrecord' : m'.record with
      | taskGraph graph' =>
          rw [hrecord] at hm
          rw [hrecord'] at hm'
          rw [hrecord, hrecord'] at hcell
          obtain ⟨hworkspace, hplan⟩ := Cell.taskGraph.inj hcell
          exact ⟨by rw [hm.1, hm'.1, hworkspace], by rw [hm.2.1, hm'.2.1, hplan],
            by rw [hm.2.2, hm'.2.2, hplan]⟩
      | _ =>
          rw [hrecord, hrecord'] at hcell
          cases hcell
  | subAgentResult resultRunId result =>
      cases hrecord' : m'.record with
      | subAgentResult resultRunId' result' =>
          rw [hrecord] at hm
          rw [hrecord'] at hm'
          rw [hrecord, hrecord'] at hcell
          obtain ⟨hworkspace, hrun, hnode⟩ := Cell.subAgentResult.inj hcell
          rw [hm.1, hm'.1, ite_self, ite_self] at hrun
          exact ⟨hworkspace, hrun, by rw [hm.2, hm'.2, hm.1, hm'.1, hrun, hnode]⟩
      | _ =>
          rw [hrecord, hrecord'] at hcell
          cases hcell
  | _ =>
      rw [hrecord] at hjoins
      exact hjoins.elim

namespace Backed

/-- What the invariant says depends on the tables and on what has been put. -/
theorem congr (h : Backed uuid5 store)
    (hpersists : store'.persistAgentMemories = store.persistAgentMemories)
    (hmemories : store'.memories = store.memories)
    (hgraphs : store'.fallbackStore.taskGraphs = store.fallbackStore.taskGraphs)
    (hresults : store'.fallbackStore.subAgentResults = store.fallbackStore.subAgentResults) :
    Backed uuid5 store' where
  filed := by
    unfold MemoryStateStore.FiledGraphs
    rw [hgraphs]
    exact h.filed
  kept := by
    rw [hpersists, hmemories]
    exact h.kept
  placed := by
    rw [hmemories]
    exact h.placed
  held hlatest hjoins := held_congr hgraphs hresults hjoins (h.held (hmemories ▸ hlatest) hjoins)

/-- Restoring a run leaves the tables. -/
theorem restore_tables {env : Env} (henv : ReturnsPut env uuid5) (h : Backed uuid5 store)
    (tick : ℕ) (workspaceId runId : String) :
    (store.restoreRunState (env.stateApi tick) workspaceId runId).fallbackStore.taskGraphs =
        store.fallbackStore.taskGraphs ∧
      (store.restoreRunState (env.stateApi tick) workspaceId runId).fallbackStore.subAgentResults =
        store.fallbackStore.subAgentResults := by
  refine foldl_loadRecord_tables fun record hrecord hjoins => ?_
  obtain ⟨memoryId, hlatest⟩ := henv.memories tick _ _ _ _ hrecord
  exact h.held hlatest hjoins

theorem restore {env : Env} (henv : ReturnsPut env uuid5) (h : Backed uuid5 store) (tick : ℕ)
    (workspaceId runId : String) :
    Backed uuid5 (store.restoreRunState (env.stateApi tick) workspaceId runId) := by
  obtain ⟨hgraphs, hresults⟩ := h.restore_tables henv tick workspaceId runId
  exact h.congr restoreRunState_memories.2 restoreRunState_memories.1 hgraphs hresults

/-- A record of another kind is put. -/
theorem persist_other (h : Backed uuid5 store) (hjoins : ¬Joins record) :
    Backed uuid5 (store.persistStateMemory workspaceId memoryId runId record) := by
  unfold persistStateMemory
  split
  next hpersists =>
    refine ⟨h.filed, fun hnot => ?_, List.forall_mem_append.2 ⟨h.placed, ?_⟩, ?_⟩
    · rw [hpersists] at hnot
      cases hnot
    · rw [List.forall_mem_singleton]
      cases record with
      | taskGraph | subAgentResult => exact absurd trivial hjoins
      | _ => trivial
    · intro workspaceId' runId' memoryId' record' hlatest hjoins'
      rw [latest_append] at hlatest
      split at hlatest
      next =>
        obtain rfl := Option.some.inj hlatest
        exact absurd hjoins' hjoins
      next => exact h.held hlatest hjoins'
  next => exact h

/-- A graph or a result is written and put under its place. -/
theorem write (h : Backed uuid5 store)
    (hplaced : AtPlace uuid5 ⟨workspaceId, runId, memoryId, record⟩)
    (hfiled : (writeRecord workspaceId runId store.fallbackStore record).FiledGraphs) :
    Backed uuid5 ((store.withFallback
      (writeRecord workspaceId runId store.fallbackStore record)).persistStateMemory workspaceId
        memoryId runId record) := by
  unfold persistStateMemory
  split
  next hpersists =>
    refine ⟨hfiled, fun hnot => ?_, List.forall_mem_append.2 ⟨h.placed,
      List.forall_mem_singleton.2 hplaced⟩, ?_⟩
    · exact absurd (hpersists.symm.trans hnot) (by decide)
    · intro workspaceId' runId' memoryId' record' hlatest hjoins'
      rw [latest_append] at hlatest
      split at hlatest
      next hplace =>
        obtain ⟨rfl, rfl, -⟩ := hplace
        obtain rfl := Option.some.inj hlatest
        exact held_writeRecord
      next hplace =>
        obtain ⟨m, hm, rfl, rfl, rfl, rfl⟩ := exists_of_latest hlatest
        refine held_writeRecord_of_ne (fun hcell => hplace ?_) (h.held hlatest hjoins')
        obtain ⟨hworkspace, hrun, hid⟩ := place_of_cell (h.placed m hm) hplaced hjoins' hcell
        exact ⟨hworkspace.symm, hrun.symm, hid.symm⟩
  next hpersists =>
    have hempty : store.memories = [] := h.kept (Bool.eq_false_iff.2 hpersists)
    refine ⟨hfiled, h.kept, h.placed, fun hlatest => ?_⟩
    obtain ⟨m, hm, -⟩ := exists_of_latest hlatest
    change m ∈ store.memories at hm
    rw [hempty] at hm
    cases hm

theorem saveTaskGraph (h : Backed api.uuid5 store) (graph : TaskGraph) :
    Backed api.uuid5 (store.saveTaskGraph api graph) := by
  unfold PrismApiStateStore.saveTaskGraph persistTaskGraph stateMemoryId
  generalize hid : stableAgentRunUuid api.uuid5 ["state", graph.planId, "task_graph"] = memoryId
  have hplace :
      AtPlace api.uuid5 ⟨graph.workspaceId, graph.planId, memoryId, .taskGraph graph⟩ := by
    unfold AtPlace
    exact ⟨rfl, rfl, hid.symm⟩
  exact h.write hplace (h.filed.saveTaskGraph graph)

theorem saveSubAgentResult (h : Backed api.uuid5 store) (workspaceId runId : String)
    (result : SubAgentResult) :
    Backed api.uuid5 (store.saveSubAgentResult api workspaceId runId result) := by
  have hwrite : store.fallbackStore.saveSubAgentResult workspaceId runId result =
      writeRecord workspaceId runId store.fallbackStore (.subAgentResult runId result) := by
    change _ = store.fallbackStore.saveSubAgentResult workspaceId
      (if runId = "" then runId else runId) result
    rw [ite_self]
  unfold PrismApiStateStore.saveSubAgentResult persistSubAgentResult stateMemoryId
  generalize hid : stableAgentRunUuid api.uuid5 ["state", runId, result.nodeId,
    "sub_agent_result"] = memoryId
  have hplace : AtPlace api.uuid5 ⟨workspaceId, runId, memoryId, .subAgentResult runId result⟩ := by
    unfold AtPlace
    exact ⟨rfl, hid.symm⟩
  rw [hwrite]
  exact h.write hplace h.filed

end Backed

/-- The store is as before, as far as the tables go. -/
structure LeavesTables (uuid5 : String → String) (store store' : PrismApiStateStore) : Prop where
  backed : Backed uuid5 store'
  graphs : store'.fallbackStore.taskGraphs = store.fallbackStore.taskGraphs
  results : store'.fallbackStore.subAgentResults = store.fallbackStore.subAgentResults

namespace Backed

/-- Nothing is put, and the tables of the fallback stay. -/
theorem leaves (h : Backed uuid5 store)
    (hpersists : store'.persistAgentMemories = store.persistAgentMemories)
    (hmemories : store'.memories = store.memories)
    (hgraphs : store'.fallbackStore.taskGraphs = store.fallbackStore.taskGraphs)
    (hresults : store'.fallbackStore.subAgentResults = store.fallbackStore.subAgentResults) :
    LeavesTables uuid5 store store' :=
  ⟨h.congr hpersists hmemories hgraphs hresults, hgraphs, hresults⟩

end Backed

namespace LeavesTables

theorem persist_other (h : LeavesTables uuid5 store store') (hjoins : ¬Joins record) :
    LeavesTables uuid5 store (store'.persistStateMemory workspaceId memoryId runId record) where
  backed := h.backed.persist_other hjoins
  graphs := by rw [persistStateMemory_fallbackStore]; exact h.graphs
  results := by rw [persistStateMemory_fallbackStore]; exact h.results

variable (h : Backed api.uuid5 store)

include h

theorem savePlan (plan : AgentPlan) :
    LeavesTables api.uuid5 store (store.savePlan api plan) := by
  have hsaved : LeavesTables api.uuid5 store
      ((store.withFallback (store.fallbackStore.savePlan plan)).rememberPlanIdempotency plan) :=
    h.leaves rfl rfl rfl rfl
  exact hsaved.persist_other id

theorem saveContextSnapshot (snapshot : ContextSnapshot) :
    LeavesTables api.uuid5 store (store.saveContextSnapshot api snapshot) := by
  have hsaved : LeavesTables api.uuid5 store
      (store.withFallback (store.fallbackStore.saveContextSnapshot snapshot)) :=
    h.leaves rfl rfl rfl rfl
  unfold PrismApiStateStore.saveContextSnapshot persistContextSnapshot
  split
  · exact hsaved
  · exact hsaved.persist_other id

theorem saveActionResult (result : ToolResult) :
    LeavesTables api.uuid5 store (store.saveActionResult api result) := by
  have hsaved : LeavesTables api.uuid5 store
      (store.withFallback (store.fallbackStore.saveActionResult result)) :=
    h.leaves rfl rfl rfl rfl
  unfold PrismApiStateStore.saveActionResult persistActionResult
  split
  · exact hsaved
  · exact hsaved.persist_other id

theorem recordIdempotencyKey (key : String) :
    LeavesTables api.uuid5 store (store.recordIdempotencyKey api key) := by
  have hrecorded : LeavesTables api.uuid5 store
      (store.withFallback (store.fallbackStore.recordIdempotencyKey key)) :=
    h.leaves rfl rfl rfl rfl
  unfold PrismApiStateStore.recordIdempotencyKey
  dsimp only
  split
  · exact hrecorded
  · split
    · exact hrecorded
    · exact hrecorded.persist_other id

end LeavesTables

section Reads

variable {env : Env} (henv : ReturnsPut env uuid5) (h : Backed uuid5 store) (tick : ℕ)

include henv h

theorem leavesTables_restoreRunState (workspaceId runId : String) :
    LeavesTables uuid5 store (store.restoreRunState (env.stateApi tick) workspaceId runId) :=
  ⟨h.restore henv tick workspaceId runId, (h.restore_tables henv tick workspaceId runId).1,
    (h.restore_tables henv tick workspaceId runId).2⟩

theorem leavesTables_getPlan (workspaceId planId : String) :
    LeavesTables uuid5 store (store.getPlan (env.stateApi tick) workspaceId planId).2 := by
  have hrestored := leavesTables_restoreRunState henv h tick workspaceId planId
  unfold restoreRunState at hrestored
  unfold getPlan
  dsimp only
  split
  · exact hrestored
  · exact ⟨hrestored.backed.congr rfl rfl rfl rfl, hrestored.graphs, hrestored.results⟩

theorem leavesTables_checkIdempotencyKey (key : String) :
    LeavesTables uuid5 store (store.checkIdempotencyKey (env.stateApi tick) key).2 := by
  have hsame : LeavesTables uuid5 store store := h.leaves rfl rfl rfl rfl
  unfold checkIdempotencyKey
  split
  · exact hsame
  · split
    · exact hsame
    · unfold checkIdempotencyKey.checkWorkspaceIdempotencyKey
      split
      · exact hsame
      · exact leavesTables_restoreRunState henv h tick _ _

/-- A read of a graph answers what the tables have. -/
theorem getTaskGraph_fst (workspaceId runId : String) :
    (store.getTaskGraph (env.stateApi tick) workspaceId runId).1 =
      store.fallbackStore.taskGraphs (workspaceId, runId) :=
  congrFun (leavesTables_restoreRunState henv h tick workspaceId runId).graphs _

end Reads

section Store

variable {env : Env} (henv : ReturnsPut env uuid5)

/-- A call that leaves the tables does to them what it does to any. -/
theorem LeavesTables.keeps {w t : World PrismApiStateStore} {call : Call}
    {r : Except Exc call.Answer} (h : LeavesTables uuid5 w.store t.store)
    (hqueue : t.queue = w.queue)
    (hstep : ∀ s : JoinTables, JoinTables.step s call r s) :
    Backed uuid5 t.store ∧ JoinTables.step
      { graphs := w.store.fallbackStore.taskGraphs
        results := w.store.fallbackStore.subAgentResults, queue := w.queue } call r
      { graphs := t.store.fallbackStore.taskGraphs
        results := t.store.fallbackStore.subAgentResults, queue := t.queue } := by
  rw [h.graphs, h.results, hqueue]
  exact ⟨h.backed, hstep _⟩

/-- A graph that was read for a run is saved for it. -/
theorem saveTaskGraph_tables {uuid5 : String → String} {api : StateApi} {g g' : TaskGraph}
    (hback : Backed uuid5 store) (hleft : LeavesTables uuid5 store store')
    (hstored : store.fallbackStore.taskGraphs (workspaceId, runId) = some g)
    (hfiling : g'.planId = g.planId ∧ g'.workspaceId = g.workspaceId) :
    (store'.saveTaskGraph api g').fallbackStore.taskGraphs =
        update store.fallbackStore.taskGraphs (workspaceId, runId) (some g') ∧
      (store'.saveTaskGraph api g').fallbackStore.subAgentResults =
        store.fallbackStore.subAgentResults := by
  rw [saveTaskGraph_fallbackStore]
  unfold MemoryStateStore.saveTaskGraph
  dsimp only
  rw [hback.filed.key_eq hstored hfiling, hleft.graphs]
  exact ⟨rfl, hleft.results⟩

include henv in
theorem claimReadyNodes_keeps (w : World PrismApiStateStore) (h : Backed uuid5 w.store)
    (workspaceId runId : String) :
    Backed uuid5 (env.sem (.claimReadyNodes workspaceId runId) w).2.store ∧ JoinTables.step
      { graphs := w.store.fallbackStore.taskGraphs
        results := w.store.fallbackStore.subAgentResults, queue := w.queue }
      (.claimReadyNodes workspaceId runId) (env.sem (.claimReadyNodes workspaceId runId) w).1
      { graphs := (env.sem (.claimReadyNodes workspaceId runId) w).2.store.fallbackStore.taskGraphs
        results :=
          (env.sem (.claimReadyNodes workspaceId runId) w).2.store.fallbackStore.subAgentResults
        queue := (env.sem (.claimReadyNodes workspaceId runId) w).2.queue } := by
  have hread := leavesTables_restoreRunState henv h w.tick workspaceId runId
  have hget := getTaskGraph_fst henv h w.tick workspaceId runId
  simp only [Env.sem, StateStore.claimReadyNodes, PrismApiStateStore.claimReadyNodes,
    JoinTables.step]
  unfold getTaskGraph at hget ⊢
  dsimp only at hget ⊢
  rw [hget]
  generalize hrestored : w.store.restoreRunState (env.stateApi w.tick) workspaceId runId = restored
  rw [hrestored] at hread
  cases hstored : w.store.fallbackStore.taskGraphs (workspaceId, runId) with
  | none =>
      refine ⟨hread.backed, ?_⟩
      dsimp only
      rw [hread.graphs, hread.results]
  | some g =>
      obtain ⟨hplan, hworkspace, -⟩ := g.claimReady_filing
      obtain ⟨hgraphs, hresults⟩ := @saveTaskGraph_tables _ _ _ _ uuid5 (env.stateApi w.tick) g
        g.claimReady.1.bumped h hread hstored ⟨hplan, hworkspace⟩
      dsimp only
      split
      next =>
        refine ⟨?_, g.claimReady.1.bumped.version, ?_⟩
        · have hbacked := hread.backed
          rw [← henv.uuid5 w.tick] at hbacked ⊢
          exact hbacked.saveTaskGraph _
        · dsimp only
          rw [hgraphs, hresults]
          rfl
      next hnone =>
        have hclaimed := TaskGraph.claimReady_of_nil (not_not.1 hnone)
        refine ⟨hread.backed, g.version, ?_⟩
        dsimp only
        rw [hread.graphs, hread.results, hclaimed]
        unfold JoinTables.save
        rw [Function.update_eq_self_iff.2 hstored.symm]

include henv in
theorem advanceTaskGraph_keeps (w : World PrismApiStateStore) (h : Backed uuid5 w.store)
    (workspaceId runId nodeId : String) (status : SubTaskStatus) :
    Backed uuid5 (env.sem (.advanceTaskGraph workspaceId runId nodeId status) w).2.store ∧
      JoinTables.step
        { graphs := w.store.fallbackStore.taskGraphs
          results := w.store.fallbackStore.subAgentResults, queue := w.queue }
        (.advanceTaskGraph workspaceId runId nodeId status)
        (env.sem (.advanceTaskGraph workspaceId runId nodeId status) w).1
        { graphs := (env.sem (.advanceTaskGraph workspaceId runId nodeId status)
            w).2.store.fallbackStore.taskGraphs
          results := (env.sem (.advanceTaskGraph workspaceId runId nodeId status)
            w).2.store.fallbackStore.subAgentResults
          queue := (env.sem (.advanceTaskGraph workspaceId runId nodeId status) w).2.queue } := by
  have hread := leavesTables_restoreRunState henv h w.tick workspaceId runId
  have hget := getTaskGraph_fst henv h w.tick workspaceId runId
  simp only [Env.sem, StateStore.advanceTaskGraph, PrismApiStateStore.advanceTaskGraph,
    JoinTables.step]
  unfold getTaskGraph at hget ⊢
  dsimp only at hget ⊢
  rw [hget]
  generalize hrestored : w.store.restoreRunState (env.stateApi w.tick) workspaceId runId = restored
  rw [hrestored] at hread
  cases hstored : w.store.fallbackStore.taskGraphs (workspaceId, runId) with
  | none =>
      refine ⟨hread.backed, rfl, ?_⟩
      dsimp only
      rw [hread.graphs, hread.results]
  | some g =>
      obtain ⟨hplan, hworkspace, -⟩ := g.planAdvance_filing nodeId status
      obtain ⟨hgraphs, hresults⟩ := @saveTaskGraph_tables _ _ _ _ uuid5 (env.stateApi w.tick) g
        (g.planAdvance nodeId status).graph.bumped h hread hstored ⟨hplan, hworkspace⟩
      dsimp only
      split
      next hduplicate =>
        have hsame := TaskGraph.planAdvance_of_alreadyProcessed hduplicate
        refine ⟨hread.backed, rfl, g.version, ?_⟩
        dsimp only
        rw [hread.graphs, hread.results, hsame]
        unfold JoinTables.save
        rw [Function.update_eq_self_iff.2 hstored.symm]
      next =>
        refine ⟨?_, rfl, (g.planAdvance nodeId status).graph.bumped.version, ?_⟩
        · have hbacked := hread.backed
          rw [← henv.uuid5 w.tick] at hbacked ⊢
          exact hbacked.saveTaskGraph _
        · dsimp only
          rw [hgraphs, hresults]
          rfl

/-- The API-backed store keeps the tables. Every advance that is not a duplicate saves the graph
in its next version. -/
def apiTables : JoinStore env PrismApiStateStore where
  graphs store := store.fallbackStore.taskGraphs
  results store := store.fallbackStore.subAgentResults
  Sound := Backed uuid5
  bumps := true
  keeps w call h := by
    have hown : Backed (env.stateApi w.tick).uuid5 w.store := (henv.uuid5 w.tick).symm ▸ h
    have hback : ∀ {store}, Backed (env.stateApi w.tick).uuid5 store → Backed uuid5 store :=
      fun hstore => henv.uuid5 w.tick ▸ hstore
    have hleaves : ∀ {store}, LeavesTables (env.stateApi w.tick).uuid5 w.store store →
        LeavesTables uuid5 w.store store := fun hstore => henv.uuid5 w.tick ▸ hstore
    cases call with
    | getPlan workspaceId planId =>
        exact (leavesTables_getPlan henv h w.tick workspaceId planId).keeps rfl
          fun _ => ⟨⟨_, rfl⟩, rfl⟩
    | getActionResult => exact ⟨h, ⟨_, rfl⟩, rfl⟩
    | savePlan plan => exact (hleaves (.savePlan hown plan)).keeps rfl fun _ => rfl
    | updatePlan plan => exact (hleaves (.savePlan hown plan)).keeps rfl fun _ => rfl
    | getTaskGraph workspaceId runId =>
        have hread := leavesTables_restoreRunState henv h w.tick workspaceId runId
        refine ⟨hread.backed, ?_, ?_⟩
        · exact congrArg Except.ok (getTaskGraph_fst henv h w.tick workspaceId runId)
        · exact congrArg₂ (fun graphs results => JoinTables.mk graphs results w.queue) hread.graphs
            hread.results
    | saveTaskGraph graph =>
        have hsaved := @saveTaskGraph_fallbackStore (env.stateApi w.tick) w.store graph
        refine ⟨hback (hown.saveTaskGraph graph), ?_⟩
        exact congrArg (fun fallback : MemoryStateStore =>
          JoinTables.mk fallback.taskGraphs fallback.subAgentResults w.queue) hsaved
    | claimReadyNodes workspaceId runId =>
        exact claimReadyNodes_keeps henv w h workspaceId runId
    | advanceTaskGraph workspaceId runId nodeId status =>
        exact advanceTaskGraph_keeps henv w h workspaceId runId nodeId status
    | saveSubAgentResult workspaceId runId result =>
        have hsaved := @saveSubAgentResult_fallbackStore (env.stateApi w.tick) w.store workspaceId
          runId result
        refine ⟨hback (hown.saveSubAgentResult workspaceId runId result), rfl, ?_⟩
        exact congrArg (fun fallback : MemoryStateStore =>
          JoinTables.mk fallback.taskGraphs fallback.subAgentResults w.queue) hsaved
    | getSubAgentResults workspaceId runId =>
        exact (leavesTables_restoreRunState henv h w.tick workspaceId runId).keeps rfl fun _ => rfl
    | saveContextSnapshot snapshot =>
        exact (hleaves (.saveContextSnapshot hown snapshot)).keeps rfl fun _ => rfl
    | saveActionResult result =>
        exact (hleaves (.saveActionResult hown result)).keeps rfl fun _ => rfl
    | checkIdempotencyKey key =>
        exact (leavesTables_checkIdempotencyKey henv h w.tick key).keeps rfl fun _ => rfl
    | recordIdempotencyKey key =>
        exact (hleaves (.recordIdempotencyKey hown key)).keeps rfl fun _ => rfl
    | appendTraceEvent traceEvent =>
        have htrace : LeavesTables uuid5 w.store (w.store.appendTraceEvent traceEvent) :=
          h.leaves rfl rfl rfl rfl
        exact htrace.keeps rfl fun _ => rfl
    | _ => exact ⟨h, rfl⟩
  unrecorded w workspaceId runId nodeId status g h hstored hnone := by
    have hread := leavesTables_restoreRunState henv h w.tick workspaceId runId
    have hget := getTaskGraph_fst henv h w.tick workspaceId runId
    have hadvance : g.planAdvance nodeId status = { graph := g } := by
      unfold TaskGraph.planAdvance
      rw [hnone]
    obtain ⟨hgraphs, -⟩ := @saveTaskGraph_tables _ _ _ _ uuid5 (env.stateApi w.tick) g
      g.bumped h hread hstored ⟨rfl, rfl⟩
    simp only [Env.sem, StateStore.advanceTaskGraph, PrismApiStateStore.advanceTaskGraph]
    unfold getTaskGraph at hget ⊢
    dsimp only at hget ⊢
    rw [hget, hstored]
    dsimp only
    rw [hadvance]
    exact hgraphs

end Store

end PrismApiStateStore

end PrismAgent
