import PrismAgent.Join.Absorbing
import PrismAgent.Join.FaultFreeJoin
import PrismAgent.Join.Tables
import PrismAgent.Orchestration.Nodes
import PrismAgent.Handler.Spawns

/-!
# Graphs and the results of their runs

The results of a run are `Accounted` for by its graph when they are those of its COMPLETED
nodes, the synthesizer aside. Starting a run keeps that as long as the run has no results
yet: `Founding` lists the calls that may be made for it.
-/

namespace PrismAgent

open Effect
open TaskGraph (claim)
open ActionEventHandler (respects_call)
open Function (update)

section Accounted

/-- The results are those of the COMPLETED nodes of the graph, the synthesizer aside. -/
def Accounted (g : TaskGraph) (results : Dict String SubAgentResult) : Prop :=
  ∃ (base : TaskGraph) (σ : String → SubTaskStatus), g = base.withStatuses σ ∧
    ∀ i, i ∈ Dict.keys results ↔
      base.HasNode i ∧ base.isSynthesizer i = false ∧ σ i = .completed

/-- `i` is a COMPLETED node of the graph and not its synthesizer. -/
def TaskGraph.Completes (g : TaskGraph) (i : String) : Prop :=
  ∃ n ∈ g.nodes, n.nodeId = i ∧ n.status = .completed ∧ g.isSynthesizer i = false

theorem TaskGraph.completes_withStatuses {g : TaskGraph} {σ : String → SubTaskStatus}
    {i : String} : (g.withStatuses σ).Completes i ↔
      g.HasNode i ∧ g.isSynthesizer i = false ∧ σ i = .completed := by
  unfold Completes
  rw [isSynthesizer_withStatuses]
  constructor
  · rintro ⟨n, hn, rfl, hcompleted, hordinary⟩
    obtain ⟨m, hm, rfl⟩ := List.mem_map.1 hn
    exact ⟨⟨m, hm, rfl⟩, hordinary, hcompleted⟩
  · rintro ⟨⟨m, hm, rfl⟩, hordinary, hcompleted⟩
    exact ⟨_, List.mem_map_of_mem hm, rfl, hcompleted, hordinary⟩

theorem Accounted.mem_keys {g : TaskGraph} {results : Dict String SubAgentResult}
    (h : Accounted g results) (i : String) : i ∈ Dict.keys results ↔ g.Completes i := by
  obtain ⟨base, σ, rfl, hkeys⟩ := h
  rw [hkeys, TaskGraph.completes_withStatuses]

/-- Every graph accounts for the results of its run; without a graph there are no results. -/
structure Reconciled (s : JoinTables) : Prop where
  accounted : ∀ key g, s.graphs key = some g → Accounted g (s.results key)
  empty : ∀ key, s.graphs key = none → s.results key = []

variable {s t : JoinTables} {g : TaskGraph}

theorem Reconciled.of_same (h : Reconciled s) (hgraphs : t.graphs = s.graphs)
    (hresults : t.results = s.results) : Reconciled t := by
  constructor
  · rw [hgraphs, hresults]
    exact h.accounted
  · rw [hgraphs, hresults]
    exact h.empty

/-- Another graph of a run, which accounts for the results that the run has then. -/
theorem Reconciled.replace (h : Reconciled s) {key : String × String}
    (hgraphs : t.graphs = update s.graphs key (some g))
    (hresults : ∀ key', key' ≠ key → t.results key' = s.results key')
    (hg : Accounted g (t.results key)) : Reconciled t := by
  constructor
  · intro key' g' hg'
    rw [hgraphs] at hg'
    by_cases hkey : key' = key
    · subst hkey
      rw [Function.update_self] at hg'
      cases hg'
      exact hg
    · rw [Function.update_of_ne hkey] at hg'
      rw [hresults key' hkey]
      exact h.accounted key' g' hg'
  · intro key' hnone
    rw [hgraphs] at hnone
    by_cases hkey : key' = key
    · subst hkey
      rw [Function.update_self] at hnone
      cases hnone
    · rw [Function.update_of_ne hkey] at hnone
      rw [hresults key' hkey]
      exact h.empty key' hnone

/-- Which version a graph has does not matter. -/
theorem Accounted.reversion {results : Dict String SubAgentResult} (h : Accounted g results)
    (version : ℕ) : Accounted { g with version } results := by
  obtain ⟨base, σ, rfl, hkeys⟩ := h
  exact ⟨{ base with version }, σ, rfl, hkeys⟩

/-- A graph that nothing was recorded in accounts for no results. -/
theorem accounted_of_pending (hnodes : ∀ n ∈ g.nodes, n.status = .pending)
    (hsynth : ∀ s ∈ g.synthesizerNode, s.status = .pending) : Accounted g [] := by
  refine ⟨g, fun _ => .pending, (withStatuses_pending hnodes hsynth).symm, fun i => ?_⟩
  simp [Dict.keys]

/-- A claim records nothing. -/
theorem Accounted.claimReady {results : Dict String SubAgentResult} (h : Accounted g results) :
    Accounted g.claimReady.1 results := by
  obtain ⟨base, σ, rfl, hkeys⟩ := h
  refine ⟨base, claim σ (base.readyIds σ), (JoinRun.claimReady_withStatuses base σ).1,
    fun i => ?_⟩
  rw [hkeys]
  refine and_congr_right fun _ => and_congr_right fun _ => ?_
  unfold claim
  split
  next hready =>
    obtain ⟨-, -, -, hpending, -⟩ := (TaskGraph.mem_readyIds base σ i).1 hready
    simp [hpending]
  next => rfl

end Accounted

section Founding

variable {workspaceId runId : String}

/-- The calls that leave the results alone and record nothing in a graph: a graph is saved for
this run only, before anything was recorded in it. -/
def Founding (workspaceId runId : String) : Call → Prop
  | .saveTaskGraph g => g.workspaceId = workspaceId ∧ g.planId = runId ∧
      (∀ n ∈ g.nodes, n.status = .pending) ∧ ∀ s ∈ g.synthesizerNode, s.status = .pending
  | .advanceTaskGraph _ _ _ _ => False
  | .saveSubAgentResult _ _ _ => False
  | _ => True

theorem founding_of_writes {call : Call} (hgraphs : call.writes ≠ some .taskGraphs)
    (hresults : call.writes ≠ some .subAgentResults) : Founding workspaceId runId call := by
  cases call <;> trivial

/-- What writes neither graphs nor results may found a run. -/
theorem Writes.founding {α : Type} {parts : List Part} {p : App α} (hp : Writes parts p)
    (hgraphs : .taskGraphs ∉ parts) (hresults : .subAgentResults ∉ parts) :
    p.OnlyCalls (Founding workspaceId runId) :=
  Program.OnlyCalls.mono hp fun _ hcall =>
    founding_of_writes (Call.writes_ne hcall hgraphs) (Call.writes_ne hcall hresults)

variable {s t : JoinTables}

/-- A call that may found a run without results keeps the results accounted for. -/
theorem step_founding {call : Call} {r : Except Exc call.Answer}
    (hcall : Founding workspaceId runId call) (hstep : JoinTables.step s call r t)
    (h : Reconciled s ∧ s.results (workspaceId, runId) = []) :
    Reconciled t ∧ t.results (workspaceId, runId) = [] := by
  obtain ⟨hjoined, hempty⟩ := h
  have hother : call.writes ≠ some .taskGraphs → call.writes ≠ some .subAgentResults →
      Reconciled t ∧ t.results (workspaceId, runId) = [] := by
    intro hgraphs hresults
    obtain ⟨hgraphs', hresults'⟩ := JoinTables.step_same hstep hgraphs hresults
    exact ⟨hjoined.of_same hgraphs' hresults', by rw [hresults', hempty]⟩
  cases call with
  | saveTaskGraph g =>
      obtain ⟨rfl, rfl, hnodes, hsynth⟩ := hcall
      cases hstep
      refine ⟨hjoined.replace (g := g) rfl (fun _ _ => rfl) ?_, hempty⟩
      change Accounted g (s.results _)
      rw [hempty]
      exact accounted_of_pending hnodes hsynth
  | claimReadyNodes workspaceId' runId' =>
      rcases JoinTables.step_claimReadyNodes hstep with ⟨-, rfl⟩ | ⟨g, version, hstored, rfl⟩
      · exact ⟨hjoined, hempty⟩
      · refine ⟨hjoined.replace rfl (fun _ _ => rfl) ?_, hempty⟩
        exact ((hjoined.accounted _ g hstored).claimReady).reversion version
  | advanceTaskGraph => exact hcall.elim
  | saveSubAgentResult => exact hcall.elim
  | _ => exact hother (by rintro ⟨⟩) (by rintro ⟨⟩)

theorem wp_founding {α : Type} {p : App α} (hp : p.OnlyCalls (Founding workspaceId runId))
    (h : Reconciled s) (hempty : s.results (workspaceId, runId) = []) :
    p.wp JoinTables.step (fun _ t => Reconciled t) s := by
  refine Program.wp_mono (Program.wp_of_onlyCalls (I := fun t : JoinTables =>
    Reconciled t ∧ t.results (workspaceId, runId) = []) ?_ hp ⟨h, hempty⟩) fun _ _ ht => ht.1
  exact fun s call r t hcall hstep hs => step_founding hcall hstep hs

/-- What writes neither graphs nor results keeps the results accounted for. -/
theorem wp_reconciled {α : Type} {parts : List Part} {p : App α} (hp : Writes parts p)
    (hgraphs : .taskGraphs ∉ parts) (hresults : .subAgentResults ∉ parts) (h : Reconciled s) :
    p.wp JoinTables.step (fun _ t => Reconciled t) s :=
  Program.wp_mono (JoinTables.wp_same hp hgraphs hresults) fun _ _ ht => h.of_same ht.1 ht.2

end Founding

section Start

open DomainEventHandler (startGraph handleOrchestrated startPlan handlePlan buildPlan)

variable {workspaceId runId : String}

namespace Orchestrator

/-- A declared node is built PENDING. -/
theorem buildNode_pending {skills : SkillRegistry} {workflow : WorkflowDefinition}
    {nodeDef : OrchestrationNodeDef} {fallbackNodeId : String} {defaultDependsOn : List String}
    {node : SubTask}
    (h : buildNode skills workflow nodeDef fallbackNodeId defaultDependsOn = .ok node) :
    node.status = .pending := by
  unfold buildNode at h
  dsimp only at h
  split at h
  · cases h
  · cases h
    rfl

theorem buildNodes_pending {skills : SkillRegistry} {workflow : WorkflowDefinition}
    {nodeDefs : List OrchestrationNodeDef} {index : ℕ} {nodes : List SubTask}
    (h : buildNodes skills workflow nodeDefs index = .ok nodes) :
    ∀ n ∈ nodes, n.status = .pending := by
  induction nodeDefs generalizing index nodes with
  | nil =>
      cases h
      exact List.forall_mem_nil _
  | cons nodeDef nodeDefs ih =>
      unfold buildNodes at h
      cases hnode : buildNode skills workflow nodeDef ("node_" ++ toString index) [] with
      | error x =>
          rw [hnode] at h
          cases h
      | ok node =>
          cases hnodes : buildNodes skills workflow nodeDefs (index + 1) with
          | error x =>
              simp only [hnode, bind, Except.bind, hnodes] at h
              cases h
          | ok nodes' =>
              simp only [hnode, bind, Except.bind, hnodes] at h
              cases h
              exact List.forall_mem_cons.2 ⟨buildNode_pending hnode, ih hnodes⟩

/-- A built graph is filed under the run in the workspace of the context, and nothing is
recorded in it. -/
theorem buildOrchestratedGraph_founding {skills : SkillRegistry} {planId : String}
    {context : AgentContext} {workflow : WorkflowDefinition} {graph : TaskGraph}
    (h : buildOrchestratedGraph skills planId context workflow = .ok graph)
    (contextSnapshotRef : Option String) :
    Founding context.workspaceId planId
      (.saveTaskGraph { graph with contextSnapshotRef := contextSnapshotRef }) := by
  unfold buildOrchestratedGraph at h
  split at h
  · cases h
    exact ⟨rfl, rfl, by simp [buildTaskGraph], by simp [buildTaskGraph]⟩
  · split at h
    · cases h
      exact ⟨rfl, rfl, by simp [buildTaskGraph], by simp [buildTaskGraph]⟩
    · next orchestration _ _ =>
        cases hnodes : buildNodes skills workflow orchestration.defaultGraph 0 with
        | error x =>
            rw [hnodes] at h
            cases h
        | ok nodes =>
            cases hsynthesizer : buildSynthesizer skills workflow nodes
                orchestration.synthesizer with
            | error x =>
                simp only [hnodes, bind, Except.bind, hsynthesizer] at h
                cases h
            | ok synthesizer =>
                simp only [hnodes, bind, Except.bind, hsynthesizer] at h
                cases h
                refine ⟨rfl, rfl, buildNodes_pending hnodes, ?_⟩
                intro s hs
                change synthesizer = some s at hs
                subst hs
                unfold buildSynthesizer at hsynthesizer
                split at hsynthesizer
                · cases hsynthesizer
                next nodeDef _ =>
                  cases hnode : buildNode skills workflow nodeDef SYNTHESIZER_NODE_ID
                      (nodes.map (·.nodeId)) with
                  | error x =>
                      rw [hnode] at hsynthesizer
                      cases hsynthesizer
                  | ok node =>
                      rw [hnode] at hsynthesizer
                      cases hsynthesizer
                      exact buildNode_pending hnode

end Orchestrator

variable {envelope : EventEnvelope} {snapshot : ContextSnapshot} {workflow : WorkflowDefinition}

theorem startGraph_founds {graph : TaskGraph}
    (hgraph : Founding workspaceId runId (.saveTaskGraph graph)) :
    (startGraph envelope snapshot runId graph).OnlyCalls (Founding workspaceId runId) := by
  refine .bind ((Program.onlyCalls_perform _).2 trivial) fun _ => ?_
  refine .bind ((Program.onlyCalls_perform _).2 hgraph) fun _ => ?_
  refine .bind ((Program.onlyCalls_perform _).2 trivial) fun _ => ?_
  refine .bind ((Program.onlyCalls_perform _).2 trivial) fun ready => ?_
  split
  · exact .bind ((Program.onlyCalls_perform _).2 trivial) fun _ =>
      (Program.onlyCalls_perform _).2 trivial
  · exact (DomainEventHandler.dispatchReady_writes envelope _ _ _ _).founding (by decide)
      (by decide)

section Plan

variable {P : Call → Prop} (registries : Registries)
  (hframe : ∀ call, call.writesIn (.plans :: .contextSnapshots :: announced) = true → P call)
  (hsave : P (.saveTaskGraph (Orchestrator.buildTaskGraph runId snapshot.context workflow)))

include hframe hsave

/-- To plan a run is to save its graph and to call what writes none. -/
theorem buildPlan_calls :
    (buildPlan registries workflow snapshot runId).OnlyCalls P := by
  refine .tryCatch (.bind ((Program.onlyCalls_perform _).2 hsave) fun _ => ?_) fun exc => ?_
  · exact Program.OnlyCalls.mono ((SubAgentRunner.planForNode_writes _ _ _ _ _ _).mono (by simp))
      hframe
  · exact .bind ((Program.onlyCalls_perform _).2 (hframe _ rfl)) fun _ => trivial

theorem startPlan_calls (replan : Bool) :
    (startPlan registries envelope workflow snapshot runId replan).OnlyCalls P := by
  refine .bind (Program.OnlyCalls.mono ((DomainEventHandler.startRun_writes envelope _ _ _ _).mono
    (by decide)) hframe) fun started => ?_
  split
  · trivial
  · refine .bind (buildPlan_calls registries hframe hsave) fun plan => ?_
    refine .bind ((Program.onlyCalls_perform _).2 (hframe _ rfl)) fun _ => ?_
    refine .bind ((Program.onlyCalls_perform _).2 (hframe _ rfl)) fun _ => ?_
    refine .bind ((Program.onlyCalls_perform _).2 (hframe _ rfl)) fun _ => ?_
    refine .bind ((Program.onlyCalls_perform _).2 (hframe _ rfl)) fun _ => ?_
    exact Program.OnlyCalls.mono ((DomainEventHandler.enqueueFirstAction_writes envelope _).mono
      (by decide)) hframe

end Plan

theorem startPlan_founds (registries : Registries)
    (hworkspace : snapshot.context.workspaceId = workspaceId) (replan : Bool) :
    (startPlan registries envelope workflow snapshot runId replan).OnlyCalls
      (Founding workspaceId runId) := by
  refine startPlan_calls registries (fun call hcall => ?_) ?_ replan
  · exact founding_of_writes (Call.writes_ne hcall (by decide)) (Call.writes_ne hcall (by decide))
  · exact ⟨hworkspace, rfl, by simp [Orchestrator.buildTaskGraph],
      by simp [Orchestrator.buildTaskGraph]⟩

/-- An orchestrated run is founded where there is no graph yet. -/
theorem handleOrchestrated_reconciled {s : JoinTables} (registries : Registries)
    (h : Reconciled s) :
    (handleOrchestrated registries envelope workflow snapshot runId).wp JoinTables.step
      (fun _ t => Reconciled t) s := by
  rw [handleOrchestrated, Program.wp_bind, Program.wp_perform]
  rintro r t ⟨rfl, rfl⟩
  rw [Program.andThen_ok]
  cases hstored : t.graphs (snapshot.context.workspaceId, runId) with
  | some g =>
      exact wp_reconciled (trace_writes (List.mem_singleton_self Part.traces) _ _ _ _)
        (by decide) (by decide) h
  | none =>
      refine wp_founding ?_ h (h.empty _ hstored)
      refine .bind ((DomainEventHandler.unlessTerminal_writes envelope _ _).founding (by decide)
        (by decide)) fun started => ?_
      split
      · trivial
      · refine Program.Respects.bind (respects_liftExcept _) fun graph hgraph => ?_
        exact startGraph_founds (Orchestrator.buildOrchestratedGraph_founding hgraph _)

/-- The plan of the run is there and is not to be made anew. -/
def Resumes (plan : Option AgentPlan) (envelope : EventEnvelope) : Prop :=
  ∃ p, plan = some p ∧
    ¬ (p.status = .replanRequired ∧ DomainEventHandler.replanRequested envelope = true)

end Start

end PrismAgent
