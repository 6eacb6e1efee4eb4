import PrismAgent.Application.Writes
import PrismAgent.State.Operations

/-!
# The tables of a join

The graphs and the results of all runs, with the queue, and what a call does to them. Whatever
else a store holds, answers and restores is left open, and so is the version that it saves a
graph with, so a program that is followed over the tables is followed over every store that
keeps them: `JoinStore`.
-/

namespace PrismAgent

open Effect
open Function (update)

/-- The graphs and the results of all runs, and the queue. -/
structure JoinTables where
  graphs : String × String → Option TaskGraph
  results : String × String → Dict String SubAgentResult
  queue : List EventEnvelope

namespace JoinTables

variable (s : JoinTables)

/-- The graph is saved for its run. -/
def save (key : String × String) (g : TaskGraph) : JoinTables :=
  { s with graphs := update s.graphs key (some g) }

/-- What a call does to the tables, with any answer that they do not determine. -/
def step : StepRelation Call Call.Answer Exc JoinTables := fun s call r t =>
  match call, r with
  | .getTaskGraph workspaceId runId, r => r = .ok (s.graphs (workspaceId, runId)) ∧ t = s
  | .saveTaskGraph g, _ => t = s.save (g.workspaceId, g.planId) g
  | .claimReadyNodes workspaceId runId, _ =>
      match s.graphs (workspaceId, runId) with
      | none => t = s
      | some g => ∃ version, t = s.save (workspaceId, runId) { g.claimReady.1 with version }
  | .advanceTaskGraph workspaceId runId nodeId status, r =>
      match s.graphs (workspaceId, runId) with
      | none => r = .ok none ∧ t = s
      | some g => r = .ok (some (g.planAdvance nodeId status)) ∧
          ∃ version, t = s.save (workspaceId, runId)
            { (g.planAdvance nodeId status).graph with version }
  | .saveSubAgentResult workspaceId runId result, r =>
      r = .ok () ∧ t = { s with
        results := update s.results (workspaceId, runId)
          (Dict.insert (s.results (workspaceId, runId)) result.nodeId result) }
  | .getPlan _ _, r => (∃ plan, r = .ok plan) ∧ t = s
  | .getActionResult _ _, r => (∃ result, r = .ok result) ∧ t = s
  | .enqueue envelope, _ => t = { s with queue := s.queue ++ [envelope] }
  | _, _ => t = s

variable {s t : JoinTables} {call : Call} {r : Except Exc call.Answer}

/-- A claim saves the graph of its run, if there is one. -/
theorem step_claimReadyNodes {workspaceId runId : String}
    {r : Except Exc (Call.Answer (.claimReadyNodes workspaceId runId))}
    (hstep : step s (.claimReadyNodes workspaceId runId) r t) :
    s.graphs (workspaceId, runId) = none ∧ t = s ∨
      ∃ g version, s.graphs (workspaceId, runId) = some g ∧
        t = s.save (workspaceId, runId) { g.claimReady.1 with version } := by
  dsimp only [step] at hstep
  cases hstored : s.graphs (workspaceId, runId) with
  | none =>
      rw [hstored] at hstep
      exact .inl ⟨rfl, hstep⟩
  | some g =>
      rw [hstored] at hstep
      obtain ⟨version, ht⟩ := hstep
      exact .inr ⟨g, version, rfl, ht⟩

/-- An advance answers what it plans for the graph of its run, if there is one, and saves it. -/
theorem step_advanceTaskGraph {workspaceId runId nodeId : String} {status : SubTaskStatus}
    {r : Except Exc (Call.Answer (.advanceTaskGraph workspaceId runId nodeId status))}
    (hstep : step s (.advanceTaskGraph workspaceId runId nodeId status) r t) :
    s.graphs (workspaceId, runId) = none ∧ r = .ok none ∧ t = s ∨
      ∃ g version, s.graphs (workspaceId, runId) = some g ∧
        r = .ok (some (g.planAdvance nodeId status)) ∧
          t = s.save (workspaceId, runId) { (g.planAdvance nodeId status).graph with version } := by
  dsimp only [step] at hstep
  cases hstored : s.graphs (workspaceId, runId) with
  | none =>
      rw [hstored] at hstep
      exact .inl ⟨rfl, hstep.1, hstep.2⟩
  | some g =>
      rw [hstored] at hstep
      obtain ⟨hr, version, ht⟩ := hstep
      exact .inr ⟨g, version, rfl, hr, ht⟩

/-- A call that writes neither leaves graphs and results. -/
theorem step_same (hstep : step s call r t) (hgraphs : call.writes ≠ some .taskGraphs)
    (hresults : call.writes ≠ some .subAgentResults) :
    t.graphs = s.graphs ∧ t.results = s.results := by
  cases call with
  | getTaskGraph | getPlan | getActionResult =>
      obtain ⟨-, rfl⟩ := hstep
      exact ⟨rfl, rfl⟩
  | saveTaskGraph | claimReadyNodes | advanceTaskGraph => exact absurd rfl hgraphs
  | saveSubAgentResult => exact absurd rfl hresults
  | _ =>
      cases hstep
      exact ⟨rfl, rfl⟩

/-- A program that writes neither leaves graphs and results. -/
theorem wp_same {α : Type} {parts : List Part} {p : App α} (hp : Writes parts p)
    (hgraphs : .taskGraphs ∉ parts) (hresults : .subAgentResults ∉ parts) :
    p.wp step (fun _ t => t.graphs = s.graphs ∧ t.results = s.results) s := by
  refine Program.wp_of_onlyCalls (fun s' call r t hcall hstep hs => ?_) hp ⟨rfl, rfl⟩
  obtain ⟨hgraphs', hresults'⟩ := step_same hstep (Call.writes_ne hcall hgraphs)
    (Call.writes_ne hcall hresults)
  exact ⟨hgraphs'.trans hs.1, hresults'.trans hs.2⟩

/-- A program that writes nothing leaves the tables. -/
theorem wp_reads {α : Type} {p : App α} (hp : Writes [] p) :
    p.wp step (fun r t => t = s ∧ ∀ a, r = .ok a → p.MayReturn a) s := by
  refine Program.wp_of_respects (I := fun t => t = s) (fun s' call r t hcall hstep hs => ?_)
    (Program.OnlyCalls.respects_mayReturn (C := { calls := fun call => call.writesIn [] = true })
      hp fun _ h => h) rfl
  refine ⟨trivial, ?_⟩
  rw [← hs]
  cases call with
  | getTaskGraph | getPlan | getActionResult => exact hstep.2
  | _ => first | exact hstep | cases hcall

end JoinTables

/-- A store that keeps the tables: what they are in a state of the store, what the states it
reaches have in common, and that every call does to them what `JoinTables.step` says. An advance
that records nothing saves the graph as it is, or in its next version. -/
structure JoinStore (env : Env) (σ : Type) [StateStore σ] where
  graphs : σ → String × String → Option TaskGraph
  results : σ → String × String → Dict String SubAgentResult
  Sound : σ → Prop
  bumps : Bool
  keeps : ∀ (w : World σ) (call : Call), Sound w.store →
    Sound (env.sem call w).2.store ∧ JoinTables.step
      { graphs := graphs w.store, results := results w.store, queue := w.queue } call
      (env.sem call w).1
      { graphs := graphs (env.sem call w).2.store, results := results (env.sem call w).2.store
        queue := (env.sem call w).2.queue }
  unrecorded : ∀ (w : World σ) (workspaceId runId nodeId : String) (status : SubTaskStatus)
    (g : TaskGraph), Sound w.store → graphs w.store (workspaceId, runId) = some g →
    g.getNode nodeId = none →
      graphs (env.sem (.advanceTaskGraph workspaceId runId nodeId status) w).2.store =
        if bumps then update (graphs w.store) (workspaceId, runId) (some g.bumped)
        else graphs w.store

namespace JoinStore

variable {env : Env} {σ : Type} [StateStore σ] (tables : JoinStore env σ)

/-- The tables of a world. -/
def view (w : World σ) : JoinTables where
  graphs := tables.graphs w.store
  results := tables.results w.store
  queue := w.queue

variable {tables} {w : World σ}

/-- What a program does to the tables, it does to those of the store. -/
theorem wp_view {α : Type} {p : App α} {Q : Except Exc α → JoinTables → Prop}
    (hw : tables.Sound w.store) (h : p.wp JoinTables.step Q (tables.view w)) :
    p.wp env.sem.step (fun r t => tables.Sound t.store ∧ Q r (tables.view t)) w := by
  refine Program.wp_of_view (I := fun w => tables.Sound w.store)
    (fun s call r t hs hstep => ?_) hw h
  rw [Semantics.step, Prod.ext_iff] at hstep
  obtain ⟨rfl, rfl⟩ := hstep
  exact tables.keeps s call hs

end JoinStore

section Memory

/-- Every graph is stored under its own ids. -/
def MemoryStateStore.FiledGraphs (store : MemoryStateStore) : Prop :=
  ∀ key g, store.taskGraphs key = some g → (g.workspaceId, g.planId) = key

variable {store store' : MemoryStateStore}

theorem MemoryStateStore.FiledGraphs.saveTaskGraph (h : store.FiledGraphs) (graph : TaskGraph) :
    (store.saveTaskGraph graph).FiledGraphs := by
  intro key g hg
  change update store.taskGraphs (graph.workspaceId, graph.planId) (some graph) key = some g at hg
  by_cases hkey : key = (graph.workspaceId, graph.planId)
  · subst hkey
    rw [Function.update_self] at hg
    obtain rfl := Option.some.inj hg
    rfl
  · rw [Function.update_of_ne hkey] at hg
    exact h key g hg

/-- A graph that is saved for the run that it was read for is saved under its own ids. -/
theorem MemoryStateStore.FiledGraphs.key_eq (h : store.FiledGraphs) {workspaceId runId : String}
    {g g' : TaskGraph} (hstored : store.taskGraphs (workspaceId, runId) = some g)
    (hfiling : g'.planId = g.planId ∧ g'.workspaceId = g.workspaceId) :
    (g'.workspaceId, g'.planId) = (workspaceId, runId) := by
  rw [hfiling.1, hfiling.2]
  exact h _ g hstored

/-- The in-memory store keeps the tables. -/
def memoryTables (env : Env) : JoinStore env MemoryStateStore where
  graphs store := store.taskGraphs
  results store := store.subAgentResults
  Sound := MemoryStateStore.FiledGraphs
  bumps := false
  keeps w call h := by
    cases call with
    | saveTaskGraph graph => exact ⟨h.saveTaskGraph graph, rfl⟩
    | claimReadyNodes workspaceId runId =>
        simp only [Env.sem, StateStore.claimReadyNodes, MemoryStateStore.claimReadyNodes,
          JoinTables.step, MemoryStateStore.getTaskGraph]
        cases hstored : w.store.taskGraphs (workspaceId, runId) with
        | none => exact ⟨h, rfl⟩
        | some g =>
            obtain ⟨hplan, hworkspace, -⟩ := g.claimReady_filing
            have hkey := h.key_eq hstored ⟨hplan, hworkspace⟩
            refine ⟨h.saveTaskGraph _, g.claimReady.1.version, ?_⟩
            unfold MemoryStateStore.saveTaskGraph JoinTables.save
            dsimp only
            rw [hkey]
    | advanceTaskGraph workspaceId runId nodeId status =>
        simp only [Env.sem, StateStore.advanceTaskGraph, MemoryStateStore.advanceTaskGraph,
          JoinTables.step, MemoryStateStore.getTaskGraph]
        cases hstored : w.store.taskGraphs (workspaceId, runId) with
        | none => exact ⟨h, rfl, rfl⟩
        | some g =>
            obtain ⟨hplan, hworkspace, -⟩ := g.planAdvance_filing nodeId status
            have hkey := h.key_eq hstored ⟨hplan, hworkspace⟩
            refine ⟨h.saveTaskGraph _, rfl, (g.planAdvance nodeId status).graph.version, ?_⟩
            unfold MemoryStateStore.saveTaskGraph JoinTables.save
            dsimp only
            rw [hkey]
    | getTaskGraph => exact ⟨h, rfl, rfl⟩
    | getPlan | getActionResult => exact ⟨h, ⟨_, rfl⟩, rfl⟩
    | saveSubAgentResult => exact ⟨h, rfl, rfl⟩
    | _ => exact ⟨h, rfl⟩
  unrecorded w workspaceId runId nodeId status g h hstored hnone := by
    have hadvance : (g.planAdvance nodeId status).graph = g := by
      unfold TaskGraph.planAdvance
      rw [hnone]
    have hget : w.store.getTaskGraph workspaceId runId = some g := hstored
    simp only [Env.sem, StateStore.advanceTaskGraph, MemoryStateStore.advanceTaskGraph, hget,
      hadvance, MemoryStateStore.saveTaskGraph]
    rw [h _ g hstored]
    exact Function.update_eq_self_iff.2 hstored.symm

end Memory

end PrismAgent
