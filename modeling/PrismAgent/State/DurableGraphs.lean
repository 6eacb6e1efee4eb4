import PrismAgent.State.ObjectMemories
import PrismAgent.State.Refines

/-!
# Task graphs over invocations

Every invocation of the function starts with an empty fallback of its own, and the invocations
share what they put. An operation reads a task graph by restoring the run first, so whichever
invocations the operations are of, the graphs are saved, claimed and advanced as in one table.
An operation is complete before the next one starts: the source fetches, computes and puts
without a compare-and-set, so of two operations that overlap one may put over the other.
-/

namespace PrismAgent

open Function Lockstep

namespace PrismApiStateStore

/-- The fetched records of a run are the latest ones under its memory ids, in the order of their
keys. -/
def ReturnsLatest (api : StateApi) (memories : List StoredMemory) : Prop :=
  ∀ workspaceId runId record,
    record ∈ (api.fetchRunState memories workspaceId runId).memories ↔
      ∃ memoryId put, latest memories workspaceId runId memoryId = some put ∧ record = put.sorted

/-- The task graph that was put last for a run. -/
def durableGraph (api : StateApi) (memories : List StoredMemory) (key : String × String) :
    Option TaskGraph :=
  match latest memories key.1 key.2 ((RecordName.taskGraph key.2).memoryId api) with
  | some (.taskGraph graph) => some graph
  | _ => none

theorem durableGraph_eq_some_iff {api : StateApi} {memories : List StoredMemory}
    {key : String × String} {graph : TaskGraph} :
    durableGraph api memories key = some graph ↔
      latest memories key.1 key.2 ((RecordName.taskGraph key.2).memoryId api) =
        some (.taskGraph graph) := by
  unfold durableGraph
  constructor
  · intro h
    split at h
    next found hfound => rw [hfound, Option.some.inj h]
    next => cases h
  · intro h
    rw [h]

/-- What every store over the transport keeps: the payloads are filed, and the fallback holds
graphs only of runs for which a graph was put. -/
structure Coherent (api : StateApi) (store : PrismApiStateStore) : Prop where
  persists : store.persistAgentMemories = true
  filed : ∀ m ∈ store.memories, Filed api m
  cached : ∀ {key graph}, store.fallbackStore.taskGraphs key = some graph →
    (durableGraph api store.memories key).isSome

variable {api : StateApi} {store : PrismApiStateStore} {workspaceId runId : String}

section Restore

/-- A task graph that is fetched for a run is the one that was put last for it. -/
theorem durableGraph_of_fetched (hfiled : ∀ m ∈ store.memories, Filed api m)
    (hreturns : ReturnsLatest api store.memories) {graph : TaskGraph}
    (hfetched : .taskGraph graph ∈ (store.runState api workspaceId runId).memories) :
    (graph.workspaceId, graph.planId) = (workspaceId, runId) ∧
      durableGraph api store.memories (workspaceId, runId) = some graph := by
  obtain ⟨memoryId, put, hlatest, hput⟩ := (hreturns _ _ _).1 hfetched
  obtain rfl : put = .taskGraph graph := by
    cases put with
    | taskGraph => exact hput.symm
    | _ => cases hput
  obtain ⟨m, hm, rfl, rfl, rfl, hrecord⟩ := exists_of_latest hlatest
  have hwell := hfiled m hm
  unfold Filed WellFiled at hwell
  rw [hrecord] at hwell
  obtain ⟨hid, hws, hrun⟩ := hwell
  rw [hid, ← hrun] at hlatest
  exact ⟨by rw [hws, hrun], durableGraph_eq_some_iff.2 (by rw [hrun] at hlatest ⊢; exact hlatest)⟩

/-- What a coherent store is depends on the graphs of the fallback and on what has been put. -/
theorem Coherent.congr (h : Coherent api store) {store' : PrismApiStateStore}
    (hpersists : store'.persistAgentMemories = store.persistAgentMemories)
    (hmemories : store'.memories = store.memories)
    (hgraphs : store'.fallbackStore.taskGraphs = store.fallbackStore.taskGraphs) :
    Coherent api store' where
  persists := hpersists.trans h.persists
  filed := by rw [hmemories]; exact h.filed
  cached := by rw [hmemories, hgraphs]; exact h.cached

/-- Restoring a run keeps the store coherent. -/
theorem Coherent.restoreRunState (h : Coherent api store)
    (hreturns : ReturnsLatest api store.memories) (workspaceId runId : String) :
    Coherent api (store.restoreRunState api workspaceId runId) where
  persists := restoreRunState_memories.2.trans h.persists
  filed := by rw [restoreRunState_memories.1]; exact h.filed
  cached hgraph := by
    rw [restoreRunState_memories.1]
    rcases enters_taskGraphs.mem_of_foldl hgraph with hold | ⟨record, hrecord, hentry⟩
    · exact h.cached hold
    · cases record with
      | taskGraph found =>
          cases hentry
          obtain ⟨hkey, hdurable⟩ := durableGraph_of_fetched h.filed hreturns hrecord
          rw [hkey, hdurable]
          rfl
      | _ => cases hentry

/-- After restoring a run the fallback holds the graph that was put last for it. -/
theorem Coherent.restored_taskGraph (h : Coherent api store)
    (hreturns : ReturnsLatest api store.memories) (workspaceId runId : String) :
    (store.restoreRunState api workspaceId runId).fallbackStore.taskGraphs (workspaceId, runId) =
      durableGraph api store.memories (workspaceId, runId) := by
  have hrestored := h.restoreRunState hreturns workspaceId runId
  cases hdurable : durableGraph api store.memories (workspaceId, runId) with
  | none =>
      refine Option.eq_none_iff_forall_ne_some.2 fun graph hgraph => ?_
      have hcached := hrestored.cached hgraph
      rw [restoreRunState_memories.1, hdurable] at hcached
      cases hcached
  | some graph =>
      have hlatest := durableGraph_eq_some_iff.1 hdurable
      have hfetched : .taskGraph graph ∈ (store.runState api workspaceId runId).memories :=
        (hreturns _ _ _).2 ⟨_, _, hlatest, rfl⟩
      obtain ⟨hkey, -⟩ := durableGraph_of_fetched h.filed hreturns hfetched
      refine enters_taskGraphs.foldl_eq (fun record hrecord graph' hentry => ?_)
        (.inr ⟨_, hfetched, by rw [graphEntry, hkey]⟩)
      cases record with
      | taskGraph found =>
          obtain ⟨-, rfl⟩ := Prod.mk.inj (Option.some.inj hentry)
          exact Option.some.inj
            ((durableGraph_of_fetched h.filed hreturns hrecord).2.symm.trans hdurable)
      | _ => cases hentry

end Restore

/-- The step keeps the store coherent and the graphs as they are. -/
structure Leaves (api : StateApi) (store store' : PrismApiStateStore) : Prop where
  coherent : Coherent api store'
  graphs : ∀ key, durableGraph api store'.memories key = durableGraph api store.memories key

section Leaves

/-- Nothing is put, and the graphs of the fallback stay. -/
theorem Coherent.leaves (h : Coherent api store) {store' : PrismApiStateStore}
    (hpersists : store'.persistAgentMemories = store.persistAgentMemories)
    (hmemories : store'.memories = store.memories)
    (hgraphs : store'.fallbackStore.taskGraphs = store.fallbackStore.taskGraphs) :
    Leaves api store store' :=
  ⟨h.congr hpersists hmemories hgraphs, fun key => by rw [hmemories]⟩

theorem Coherent.leaves_restoreRunState (h : Coherent api store)
    (hreturns : ReturnsLatest api store.memories) (workspaceId runId : String) :
    Leaves api store (store.restoreRunState api workspaceId runId) :=
  ⟨h.restoreRunState hreturns workspaceId runId, fun key => by
    rw [restoreRunState_memories.1]⟩

theorem Leaves.trans {store' store'' : PrismApiStateStore} (h : Leaves api store store')
    (h' : Leaves api store' store'') : Leaves api store store'' :=
  ⟨h'.coherent, fun key => (h'.graphs key).trans (h.graphs key)⟩

end Leaves

section Others

variable (huuid5 : Injective api.uuid5)

include huuid5

/-- No run has a task graph with the memory id of the key. -/
def KeyFree (key : String) : Prop :=
  ∀ runId, ¬ (RecordName.idempotencyKey key).Clashes (.taskGraph runId)

end Others

section Reads

variable (hreturns : ReturnsLatest api store.memories)

include hreturns

theorem Coherent.getTaskGraph_spec (h : Coherent api store) (workspaceId planId : String) :
    (store.getTaskGraph api workspaceId planId).1 =
        durableGraph api store.memories (workspaceId, planId) ∧
      Leaves api store (store.getTaskGraph api workspaceId planId).2 :=
  ⟨h.restored_taskGraph hreturns workspaceId planId,
    h.leaves_restoreRunState hreturns workspaceId planId⟩

end Reads

section Graphs

/-- The step keeps the store coherent and puts a task graph for a run. -/
structure Saves (api : StateApi) (store : PrismApiStateStore) (key : String × String)
    (graph : TaskGraph) (store' : PrismApiStateStore) : Prop where
  coherent : Coherent api store'
  graphs : durableGraph api store'.memories =
    update (durableGraph api store.memories) key (some graph)

theorem Coherent.saves_saveTaskGraph (h : Coherent api store) (graph : TaskGraph) :
    Saves api store (graph.workspaceId, graph.planId) graph (store.saveTaskGraph api graph) := by
  unfold PrismApiStateStore.saveTaskGraph persistTaskGraph
  generalize hid : stateMemoryId api [graph.planId, "task_graph"] = memoryId
  have hname : memoryId = (RecordName.taskGraph graph.planId).memoryId api := hid.symm
  rw [persistStateMemory_eq]
  swap
  · exact h.persists
  have hgraphs : durableGraph api
      (store.memories ++ [⟨graph.workspaceId, graph.planId, memoryId, .taskGraph graph⟩]) =
        update (durableGraph api store.memories) (graph.workspaceId, graph.planId)
          (some graph) := by
    funext key
    unfold durableGraph
    rw [latest_append]
    by_cases hkey : key = (graph.workspaceId, graph.planId)
    · subst hkey
      rw [if_pos ⟨rfl, rfl, hname⟩, update_self]
    · rw [if_neg, update_of_ne hkey]
      rintro ⟨hws, hrun, -⟩
      exact hkey (Prod.ext hws.symm hrun.symm)
  refine ⟨⟨h.persists, List.forall_mem_append.2 ⟨h.filed, List.forall_mem_singleton.2 ?_⟩,
    fun {key found} hfound => ?_⟩, hgraphs⟩
  · unfold Filed WellFiled
    exact ⟨hid.symm, rfl, rfl⟩
  · refine (congrArg Option.isSome (congrFun hgraphs key)).trans ?_
    change update store.fallbackStore.taskGraphs _ _ key = some found at hfound
    by_cases hkey : key = (graph.workspaceId, graph.planId)
    · rw [hkey, update_self]
      rfl
    · rw [update_of_ne hkey] at hfound ⊢
      exact h.cached hfound

end Graphs

section Tables

/-- What an operation tells about the task graphs. -/
inductive GraphAnswer
  | nothing
  | graph (found : Option TaskGraph)
  | nodes (claimed : List SubTask)
  | advance (made : Option TaskGraphAdvance)

def graphAnswer : (o : StateOp) → o.Answer → GraphAnswer
  | .getTaskGraph _ _, found => .graph found
  | .claimReadyNodes _ _, claimed => .nodes claimed
  | .advanceTaskGraph _ _ _ _, made => .advance made
  | _, _ => .nothing

/-- The store, as far as its answers tell about task graphs. -/
def graphMachine (api : StateApi) : Machine StateOp PrismApiStateStore fun _ => GraphAnswer :=
  fun o store => (graphAnswer o (machine api o store).1, (machine api o store).2)

/-- The task graphs of all runs, in one table. -/
abbrev Graphs := String × String → Option TaskGraph

/-- The operations over a table of task graphs. -/
def graphTable : Machine StateOp Graphs fun _ => GraphAnswer
  | .saveTaskGraph graph, graphs =>
      (.nothing, update graphs (graph.workspaceId, graph.planId) (some graph))
  | .getTaskGraph workspaceId planId, graphs => (.graph (graphs (workspaceId, planId)), graphs)
  | .claimReadyNodes workspaceId runId, graphs =>
      match graphs (workspaceId, runId) with
      | none => (.nodes [], graphs)
      | some graph =>
          if graph.claimReady.2 = [] then (.nodes [], graphs)
          else (.nodes graph.claimReady.2,
            update graphs (workspaceId, runId) (some graph.claimReady.1.bumped))
  | .advanceTaskGraph workspaceId runId nodeId status, graphs =>
      match graphs (workspaceId, runId) with
      | none => (.advance none, graphs)
      | some graph =>
          let advance := graph.planAdvance nodeId status
          if advance.alreadyProcessed then (.advance (some advance), graphs)
          else (.advance (some advance),
            update graphs (workspaceId, runId) (some advance.graph.bumped))
  | _, graphs => (.nothing, graphs)

/-- The transport returns what was put last, and an idempotency key is not put where a task graph
is. -/
def Kept (api : StateApi) : StateOp → List StoredMemory → Prop
  | .recordIdempotencyKey key, memories => ReturnsLatest api memories ∧ KeyFree key
  | _, memories => ReturnsLatest api memories

/-- The store answers as the table does, and goes on with the table's graphs. -/
structure Tracks (api : StateApi) (o : StateOp) (store : PrismApiStateStore) : Prop where
  answer : (graphMachine api o store).1 = (graphTable o (durableGraph api store.memories)).1
  coherent : Coherent api (graphMachine api o store).2
  graphs : durableGraph api (graphMachine api o store).2.memories =
    (graphTable o (durableGraph api store.memories)).2

namespace Tracks

variable {o : StateOp} {answer : GraphAnswer} {next : PrismApiStateStore}

end Tracks

/-- A graph is read, and another one is put for the run. -/
theorem Leaves.saves {restored : PrismApiStateStore} (h : Leaves api store restored)
    {key : String × String} {graph : TaskGraph} (hkey : (graph.workspaceId, graph.planId) = key) :
    Saves api store key graph (restored.saveTaskGraph api graph) := by
  have hsaves := h.coherent.saves_saveTaskGraph graph
  rw [hkey] at hsaves
  exact ⟨hsaves.coherent, hsaves.graphs.trans (by rw [funext h.graphs])⟩

section Operations

variable (h : Coherent api store) (hreturns : ReturnsLatest api store.memories)
  (workspaceId runId : String)

include h hreturns

end Operations

end Tables

section Invocations

/-- Invocation `i` starts with an empty fallback, or operates. -/
inductive InvokedOp
  | start (i : ℕ)
  | op (i : ℕ) (o : StateOp)

/-- What the invocations have put, and the store of each. -/
structure Invocations where
  memories : List StoredMemory := []
  stores : ℕ → PrismApiStateStore := fun _ => PrismApiStateStore.start

namespace Invocations

/-- The store of an invocation over what all of them have put. -/
def storeOf (w : Invocations) (i : ℕ) : PrismApiStateStore :=
  { w.stores i with memories := w.memories }

/-- Invocation `i` goes on with a store and what it has put. -/
def goOn (w : Invocations) (i : ℕ) (store : PrismApiStateStore) : Invocations :=
  ⟨store.memories, update w.stores i store⟩

@[simp] theorem storeOf_goOn_self (w : Invocations) (i : ℕ) (store : PrismApiStateStore) :
    (w.goOn i store).storeOf i = store := by
  simp [storeOf, goOn]

theorem storeOf_goOn_of_ne (w : Invocations) {i j : ℕ} (h : j ≠ i) (store : PrismApiStateStore) :
    (w.goOn i store).storeOf j = { w.storeOf j with memories := store.memories } := by
  simp [storeOf, goOn, h]

end Invocations

/-- The one table. -/
def sharedTable : Machine InvokedOp Graphs fun _ => GraphAnswer
  | .start _, graphs => (.nothing, graphs)
  | .op _ o, graphs => graphTable o graphs

/-- The transport keeps what the operation needs. -/
def InvokedOp.Kept (api : StateApi) : InvokedOp → Invocations → Prop
  | .start _, _ => True
  | .op _ o, w => PrismApiStateStore.Kept api o w.memories

/-- The store of every invocation is coherent. -/
def AllCoherent (api : StateApi) (w : Invocations) : Prop := ∀ i, Coherent api (w.storeOf i)

/-- The other invocations stay coherent when one goes on and no graph is taken away. -/
theorem AllCoherent.goOn {w : Invocations} (h : AllCoherent api w) {i : ℕ}
    (hstore : Coherent api store)
    (hgrows : ∀ key, (durableGraph api w.memories key).isSome →
      (durableGraph api store.memories key).isSome) : AllCoherent api (w.goOn i store) := by
  intro j
  by_cases hj : j = i
  · rw [hj, w.storeOf_goOn_self]
    exact hstore
  · rw [w.storeOf_goOn_of_ne hj]
    exact ⟨(h j).persists, hstore.filed, fun hgraph => hgrows _ ((h j).cached hgraph)⟩

end Invocations

end PrismApiStateStore

end PrismAgent
