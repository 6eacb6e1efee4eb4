import PrismAgent.Effect.Tenants
import PrismAgent.Join.Completions
import PrismAgent.Join.FaultFree

/-!
# When terminal outcomes are absorbing

A completion event may contradict one handled before, and siblings of a failed
node are still in flight when the run has been reported. `absorbing_iff` says
exactly which sequences of completions leave settled nodes settled and report
the run once, as the coordinator handles them over the in-memory store.
-/

namespace PrismAgent

open Effect
open TaskGraph (AdvanceCase claim)
open Function (update)

/-- A completion event of a run: the settle of a node as completed or failed. -/
structure Completion (workspaceId runId : String) where
  envelope : EventEnvelope
  nodeId : String
  failed : Bool
  workspace_eq : envelope.event.workspaceId = workspaceId
  kind_eq : envelope.event.kind =
    .subagentCompleted runId nodeId (if failed then "failed" else "completed")

namespace Completion

variable {workspaceId runId : String}

/-- The status that the completion records. -/
def status (c : Completion workspaceId runId) : SubTaskStatus :=
  if c.failed then .failed else .completed

theorem status_cases (c : Completion workspaceId runId) :
    c.status = .completed ∨ c.status = .failed := by
  unfold status
  cases c.failed <;> simp

/-- The coordinator records the status of the completion. -/
theorem handle_eq (registries : Registries) (c : Completion workspaceId runId) :
    SubAgentCoordinator.handle registries c.envelope =
      SubAgentCoordinator.handleSettled c.envelope runId c.nodeId c.status := by
  unfold SubAgentCoordinator.handle SubAgentCoordinator.handleCompleted status
  rw [c.kind_eq]
  cases c.failed <;> rfl

/-- The world after the coordinator handled the completion. -/
def deliver (env : Env) (w : World MemoryStateStore) (c : Completion workspaceId runId) :
    World MemoryStateStore :=
  (env.sem.exec (SubAgentCoordinator.handle env.registries c.envelope) w).2

/-- The world after the coordinator handled the completions in order. -/
def deliverAll (env : Env) (w : World MemoryStateStore)
    (cs : List (Completion workspaceId runId)) : World MemoryStateStore :=
  cs.foldl (deliver env) w

end Completion

/-- From one world to the next settled nodes keep their status, and once the run
has been reported nothing is dispatched or reported any more. -/
structure Absorbs (workspaceId runId : String) (w w' : World MemoryStateStore) : Prop where
  settled : ∀ g g', w.store.getTaskGraph workspaceId runId = some g →
    w'.store.getTaskGraph workspaceId runId = some g' → ∀ id n, g.getNode id = some n →
    n.status = .completed ∨ n.status = .failed →
    ∃ n', g'.getNode id = some n' ∧ n'.status = n.status
  silent : 0 < w.reports workspaceId runId →
    w'.taskNodes workspaceId runId = w.taskNodes workspaceId runId ∧
      w'.reports workspaceId runId = w.reports workspaceId runId
  reports_le : w'.reports workspaceId runId ≤ w.reports workspaceId runId + 1

/-- Completing the ordinary node `id` gave the graph `g`, in which nothing is
ready and a node or the synthesizer is still at work. -/
def TaskGraph.Quiet (g : TaskGraph) (id : String) : Prop :=
  g.isSynthesizer id = false ∧ g.readyNodes g.completedNodeIds = [] ∧
    ((g.nodes.any fun n => n.status = .running) = true ∨
      g.allNodesCompleted = true ∧ ∃ s, g.synthesizerNode = some s ∧
        s.status ≠ .pending ∧ s.status ≠ .completed)

/-- The completion is for a node without a terminal status of its own, or repeats
the status the node has; and after the run has been reported, it completes a node
quietly. -/
def Expected {workspaceId runId : String} (w : World MemoryStateStore)
    (c : Completion workspaceId runId) : Prop :=
  ∀ g n, w.store.getTaskGraph workspaceId runId = some g → g.getNode c.nodeId = some n →
    n.status ≠ c.status →
    (n.status ≠ .completed ∧ n.status ≠ .failed) ∧
      (0 < w.reports workspaceId runId →
        c.failed = false ∧ (g.withNodeStatus c.nodeId .completed).Quiet c.nodeId)

namespace TaskGraph

variable {g : TaskGraph} {σ τ : String → SubTaskStatus}

theorem getNode_of_knows (σ : String → SubTaskStatus) {id : String} (h : g.Knows id) :
    ∃ n, (g.withStatuses σ).getNode id = some n ∧ n.status = σ id := by
  cases hn : (g.withStatuses σ).getNode id with
  | none => exact absurd h ((getNode_withStatuses_eq_none g σ id).1 hn)
  | some n => exact ⟨n, rfl, (getNode_withStatuses_eq_some g σ hn).2⟩

theorem knows_of_getNode {id : String} {n : SubTask}
    (h : (g.withStatuses σ).getNode id = some n) : g.Knows id := by
  by_contra hnot
  rw [(getNode_withStatuses_eq_none g σ id).2 hnot] at h
  cases h

/-- `Quiet` on the presentation by statuses. -/
theorem quiet_withStatuses (g : TaskGraph) (σ : String → SubTaskStatus) (id : String) :
    (g.withStatuses σ).Quiet id ↔
      g.isSynthesizer id = false ∧ g.readyIds σ = [] ∧
        ((∃ i, g.HasNode i ∧ σ i = .running) ∨
          (g.nodes ≠ [] ∧ ∀ i, g.HasNode i → σ i = .completed) ∧
            ∃ s, g.synthesizerNode = some s ∧ σ s.nodeId ≠ .pending ∧
              σ s.nodeId ≠ .completed) := by
  have hready : (g.withStatuses σ).readyNodes (g.withStatuses σ).completedNodeIds = [] ↔
      g.readyIds σ = [] := by
    rw [← not_iff_not]
    exact withStatuses_readyNodes_ne_nil g σ
  have hsynth : (∃ s, (g.withStatuses σ).synthesizerNode = some s ∧ s.status ≠ .pending ∧
      s.status ≠ .completed) ↔ ∃ s, g.synthesizerNode = some s ∧ σ s.nodeId ≠ .pending ∧
        σ s.nodeId ≠ .completed := by
    simp only [withStatuses]
    cases g.synthesizerNode <;> simp
  unfold Quiet
  rw [isSynthesizer_withStatuses, hready, any_running_withStatuses,
    allNodesCompleted_withStatuses, hsynth]

end TaskGraph

section Step

open SubAgentCoordinator

variable {env : Env} {w : World MemoryStateStore} {g : TaskGraph}
  {σ : String → SubTaskStatus}

/-- What one delivery does on a graph with statuses `σ`. -/
theorem deliver_spec (env : Env) (c : Completion g.workspaceId g.planId)
    (hstored : w.store.getTaskGraph g.workspaceId g.planId = some (g.withStatuses σ)) :
    ∃ advance τ, AdvanceCase g σ c.nodeId c.status advance τ ∧
      (c.deliver env w).store.getTaskGraph g.workspaceId g.planId =
        some (g.withStatuses τ) ∧
      (c.deliver env w).taskNodes g.workspaceId g.planId =
        w.taskNodes g.workspaceId g.planId ++ advanceNodes advance ∧
      (c.deliver env w).reports g.workspaceId g.planId =
        w.reports g.workspaceId g.planId + advanceReports advance := by
  obtain ⟨τ, hcase⟩ := TaskGraph.planAdvance_spec g σ c.nodeId c.status_cases
  generalize hadvance : (g.withStatuses σ).planAdvance c.nodeId c.status = advance at hcase
  have hgraph := hcase.graph_eq
  have hspec := handleSettled_spec env w c.envelope g.planId c.nodeId c.status hadvance
    (by rw [c.workspace_eq, hstored]) (by rw [hgraph, c.workspace_eq]; rfl) (by rw [hgraph]; rfl)
  rw [← c.handle_eq env.registries, Program.wp_step_iff, c.workspace_eq] at hspec
  obtain ⟨-, hgraphs, hnodes, hreports⟩ := hspec
  refine ⟨advance, τ, hcase, ?_, hnodes, hreports⟩
  change (env.sem.exec _ w).2.store.taskGraphs _ = _
  rw [hgraphs, Function.update_self, hgraph]

/-- `Expected` on the presentation by statuses. -/
theorem expected_iff (c : Completion g.workspaceId g.planId)
    (hstored : w.store.getTaskGraph g.workspaceId g.planId = some (g.withStatuses σ)) :
    Expected w c ↔ (g.Knows c.nodeId → σ c.nodeId ≠ c.status →
      (σ c.nodeId ≠ .completed ∧ σ c.nodeId ≠ .failed) ∧
        (0 < w.reports g.workspaceId g.planId → c.failed = false ∧
          (g.withStatuses (update σ c.nodeId .completed)).Quiet c.nodeId)) := by
  constructor
  · intro h hknows
    obtain ⟨n, hn, hstatus⟩ := TaskGraph.getNode_of_knows σ hknows
    have hexpected := h _ n hstored hn
    rwa [hstatus, TaskGraph.withNodeStatus_withStatuses] at hexpected
  · intro h g' n hg' hn
    obtain rfl : g.withStatuses σ = g' := by
      rw [hstored] at hg'
      exact Option.some.inj hg'
    rw [(TaskGraph.getNode_withStatuses_eq_some g σ hn).2, TaskGraph.withNodeStatus_withStatuses]
    exact h (TaskGraph.knows_of_getNode hn)

/-- `Absorbs` on the presentation by statuses, for a world that dispatched `nodes`
and made `count` reports. -/
theorem absorbs_iff {w' : World MemoryStateStore} {τ : String → SubTaskStatus}
    {nodes : List String} {count : ℕ}
    (hstored : w.store.getTaskGraph g.workspaceId g.planId = some (g.withStatuses σ))
    (hstored' : w'.store.getTaskGraph g.workspaceId g.planId = some (g.withStatuses τ))
    (hnodes : w'.taskNodes g.workspaceId g.planId =
      w.taskNodes g.workspaceId g.planId ++ nodes)
    (hreports : w'.reports g.workspaceId g.planId =
      w.reports g.workspaceId g.planId + count) :
    Absorbs g.workspaceId g.planId w w' ↔
      (∀ id, g.Knows id → σ id = .completed ∨ σ id = .failed → τ id = σ id) ∧
        (0 < w.reports g.workspaceId g.planId → nodes = [] ∧ count = 0) ∧ count ≤ 1 := by
  constructor
  · intro h
    refine ⟨fun id hknows hterminal => ?_, fun hpos => ?_, ?_⟩
    · obtain ⟨n, hn, hstatus⟩ := TaskGraph.getNode_of_knows σ hknows
      obtain ⟨n', hn', hsame⟩ := h.settled _ _ hstored hstored' id n hn (hstatus ▸ hterminal)
      rw [← (TaskGraph.getNode_withStatuses_eq_some g τ hn').2, hsame, hstatus]
    · obtain ⟨hsame, hcount⟩ := h.silent hpos
      rw [hnodes] at hsame
      exact ⟨by simpa using hsame, by omega⟩
    · have hle := h.reports_le
      omega
  · rintro ⟨hsettled, hsilent, hcount⟩
    refine ⟨fun g₁ g₂ hg₁ hg₂ id n hn hterminal => ?_, fun hpos => ?_, by omega⟩
    · obtain rfl : g.withStatuses σ = g₁ := by
        rw [hstored] at hg₁
        exact Option.some.inj hg₁
      obtain rfl : g.withStatuses τ = g₂ := by
        rw [hstored'] at hg₂
        exact Option.some.inj hg₂
      have hknows := TaskGraph.knows_of_getNode hn
      have hstatus := (TaskGraph.getNode_withStatuses_eq_some g σ hn).2
      obtain ⟨n', hn', hτ⟩ := TaskGraph.getNode_of_knows τ hknows
      refine ⟨n', hn', ?_⟩
      rw [hτ, hstatus]
      exact hsettled id hknows (hstatus ▸ hterminal)
    · obtain ⟨rfl, rfl⟩ := hsilent hpos
      exact ⟨by simpa using hnodes, by simpa using hreports⟩

/-- How an advance that records a new status changes the statuses, and when it is
silent. -/
structure Records (g : TaskGraph) (σ : String → SubTaskStatus) (id : String)
    (status : SubTaskStatus) (advance : TaskGraphAdvance) (τ : String → SubTaskStatus) :
    Prop where
  knows : g.Knows id
  new : σ id ≠ status
  recorded : τ id = status
  others : ∀ i, i ≠ id → σ i = .completed ∨ σ i = .failed → τ i = σ i
  reports_le : advanceReports advance ≤ 1
  silent_iff : advanceNodes advance = [] ∧ advanceReports advance = 0 ↔
    status = .completed ∧ (g.withStatuses (update σ id .completed)).Quiet id

theorem update_of_terminal {id : String} {status : SubTaskStatus} (i : String) (hi : i ≠ id) :
    update σ id status i = σ i := Function.update_of_ne hi _ _

theorem claim_of_terminal {ids : List String} {i : String}
    (hready : ∀ j ∈ ids, σ j = .pending) (hi : σ i = .completed ∨ σ i = .failed) :
    claim σ ids i = σ i := by
  unfold claim
  split
  · next hmem =>
      rw [hready i hmem] at hi
      simp at hi
  · rfl

/-- An advance changes nothing, or records a new status. -/
theorem advance_records {id : String} {status : SubTaskStatus} {advance : TaskGraphAdvance}
    {τ : String → SubTaskStatus} (h : AdvanceCase g σ id status advance τ) :
    (advanceNodes advance = [] ∧ advanceReports advance = 0 ∧ τ = σ ∧
      (g.Knows id → σ id = status)) ∨ Records g σ id status advance τ := by
  cases h with
  | unknown hid => exact .inl ⟨rfl, rfl, rfl, fun hknows => absurd hknows hid⟩
  | duplicate hid hσ => exact .inl ⟨rfl, rfl, rfl, fun _ => hσ⟩
  | failed hid hσ =>
      refine .inr ⟨hid, hσ, by simp, fun i hi _ => update_of_terminal i hi, le_refl 1, ?_⟩
      simp [advanceReports]
  | synthesizer hid hσ =>
      refine .inr ⟨.inr hid, hσ, by simp, fun i hi _ => update_of_terminal i hi, le_refl 1, ?_⟩
      simp [advanceReports, TaskGraph.quiet_withStatuses, hid]
  | @claims newly hid hsyn hσ hready hids hnodes =>
      have hpending : ∀ j ∈ g.readyIds (update σ id .completed),
          update σ id .completed j = .pending := by
        intro j hj
        obtain ⟨-, -, -, hp, -⟩ := (TaskGraph.mem_readyIds g _ j).1 hj
        exact hp
      refine .inr ⟨.inl hid, hσ, ?_, fun i hi hterminal => ?_, by simp [advanceReports], ?_⟩
      · rw [claim_of_terminal hpending (by simp)]
        simp
      · rw [claim_of_terminal hpending] <;> rw [update_of_terminal i hi]
        exact hterminal
      · have hne : newly ≠ [] := by
          rintro rfl
          exact hready hids.symm
        simp [advanceNodes, TaskGraph.quiet_withStatuses, hready, hne]
  | @dispatch s hid hsyn hσ hready hall hs hpending =>
      have hne : ∀ i, i = id ∨ (σ i = .completed ∨ σ i = .failed) → i ≠ s.nodeId := by
        rintro i (rfl | hterminal) rfl
        · simp [(TaskGraph.isSynthesizer_iff g _).2 ⟨s, hs, rfl⟩] at hsyn
        · simp [hpending] at hterminal
      have hsynth : update σ id .completed s.nodeId = .pending := by
        rw [update_of_terminal _ (hne id (.inl rfl)).symm, hpending]
      refine .inr ⟨.inl hid, hσ, ?_, fun i hi hterminal => ?_, by simp [advanceReports], ?_⟩
      · rw [update_of_terminal id (hne id (.inl rfl)), Function.update_self]
      · rw [update_of_terminal i (hne i (.inr hterminal)), update_of_terminal i hi]
      · have hrunning : ¬ ∃ i, g.HasNode i ∧ update σ id .completed i = .running := by
          rintro ⟨i, hi, hr⟩
          simp [hall i hi] at hr
        simp [advanceNodes, TaskGraph.quiet_withStatuses, hrunning, hs, hsynth]
  | @stalled s hid hsyn hσ hready hall hs hpending hcompleted =>
      refine .inr ⟨.inl hid, hσ, by simp, fun i hi _ => update_of_terminal i hi,
        by simp [advanceReports], ?_⟩
      have hne : s.nodeId ≠ id := by
        rintro rfl
        simp [(TaskGraph.isSynthesizer_iff g _).2 ⟨s, hs, rfl⟩] at hsyn
      have hnonempty : g.nodes ≠ [] := by
        obtain ⟨n, hn, -⟩ := hid
        exact List.ne_nil_of_mem hn
      have hquiet : (g.withStatuses (update σ id .completed)).Quiet id := by
        rw [TaskGraph.quiet_withStatuses]
        refine ⟨hsyn, hready, .inr ⟨⟨hnonempty, hall⟩, s, hs, ?_⟩⟩
        rw [update_of_terminal _ hne]
        exact ⟨hpending, hcompleted⟩
      simp [advanceNodes, advanceReports, hquiet]
  | joined hid hsyn hσ hready hall hs =>
      refine .inr ⟨.inl hid, hσ, by simp, fun i hi _ => update_of_terminal i hi,
        by simp [advanceReports], ?_⟩
      have hloud : ¬ (g.withStatuses (update σ id .completed)).Quiet id := by
        rw [TaskGraph.quiet_withStatuses]
        rintro ⟨-, -, ⟨i, hi, hr⟩ | ⟨-, s, hsome, -, hcompleted⟩⟩
        · simp [hall i hi] at hr
        · by_cases h : s.nodeId = id
          · simp [h] at hcompleted
          · rw [update_of_terminal _ h] at hcompleted
            exact hcompleted (hs s hsome)
      simp [advanceReports, hloud]
  | waiting hid hsyn hσ hready hall hrunning =>
      refine .inr ⟨.inl hid, hσ, by simp, fun i hi _ => update_of_terminal i hi,
        by simp [advanceReports], ?_⟩
      simp [advanceNodes, advanceReports, TaskGraph.quiet_withStatuses, hsyn, hready, hrunning]
  | blocked hid hsyn hσ hready hall hrunning =>
      refine .inr ⟨.inl hid, hσ, by simp, fun i hi _ => update_of_terminal i hi,
        by simp [advanceReports], ?_⟩
      simp [advanceReports, TaskGraph.quiet_withStatuses, hall, hrunning]

/-- One delivery absorbs exactly when its completion is expected. -/
theorem absorbs_deliver_iff (c : Completion g.workspaceId g.planId)
    (hstored : w.store.getTaskGraph g.workspaceId g.planId = some (g.withStatuses σ)) :
    Absorbs g.workspaceId g.planId w (c.deliver env w) ↔ Expected w c := by
  obtain ⟨advance, τ, hcase, hstored', hnodes, hreports⟩ := deliver_spec env c hstored
  have hstatus : c.failed = false ↔ c.status = .completed := by
    unfold Completion.status
    cases c.failed <;> simp
  rw [absorbs_iff hstored hstored' hnodes hreports, expected_iff c hstored, hstatus]
  rcases advance_records hcase with ⟨hnil, hzero, rfl, hdup⟩ | h
  · constructor
    · exact fun _ hknows hne => absurd (hdup hknows) hne
    · exact fun _ => ⟨fun _ _ _ => rfl, fun _ => ⟨hnil, hzero⟩, by omega⟩
  · rw [h.silent_iff]
    constructor
    · rintro ⟨hsettled, hsilent, -⟩ hknows hne
      refine ⟨?_, hsilent⟩
      rw [← not_or]
      exact fun hterminal => hne ((hsettled _ hknows hterminal).symm.trans h.recorded)
    · intro hexpected
      obtain ⟨hterminal, hsilent⟩ := hexpected h.knows h.new
      rw [← not_or] at hterminal
      refine ⟨fun id _ hid => h.others id ?_ hid, hsilent, h.reports_le⟩
      rintro rfl
      exact hterminal hid

end Step

section Runs

variable {env : Env}

theorem deliverAll_stored (env : Env) {w : World MemoryStateStore} {g : TaskGraph}
    {σ : String → SubTaskStatus} (cs : List (Completion g.workspaceId g.planId))
    (hstored : w.store.getTaskGraph g.workspaceId g.planId = some (g.withStatuses σ)) :
    ∃ τ, (Completion.deliverAll env w cs).store.getTaskGraph g.workspaceId g.planId =
      some (g.withStatuses τ) := by
  induction cs generalizing w σ with
  | nil => exact ⟨σ, hstored⟩
  | cons c cs ih =>
      obtain ⟨-, τ, -, hstored', -⟩ := deliver_spec env c hstored
      exact ih hstored'

/-- A graph whose nodes and synthesizer are PENDING carries that status everywhere. -/
theorem withStatuses_pending {g : TaskGraph} (hnodes : ∀ n ∈ g.nodes, n.status = .pending)
    (hsynth : ∀ s ∈ g.synthesizerNode, s.status = .pending) :
    g.withStatuses (fun _ => .pending) = g := by
  have hlist : (g.nodes.map fun n => { n with status := .pending }) = g.nodes := by
    refine (List.map_congr_left fun n hn => ?_).trans (List.map_id _)
    rw [← hnodes n hn]
    rfl
  have hoption : (g.synthesizerNode.map fun s => { s with status := .pending }) =
      g.synthesizerNode := by
    cases hs : g.synthesizerNode with
    | none => rfl
    | some s => rw [Option.map_some, ← hsynth s hs]
  unfold TaskGraph.withStatuses
  rw [hlist, hoption]

/-- Such a graph after the initial claim. -/
theorem claimReady_eq_withStatuses {g : TaskGraph}
    (hnodes : ∀ n ∈ g.nodes, n.status = .pending)
    (hsynth : ∀ s ∈ g.synthesizerNode, s.status = .pending) :
    ∃ ids, g.claimReady.1 = g.withStatuses (claim (fun _ => .pending) ids) := by
  have hclaim := TaskGraph.claimAll_withStatuses g (fun _ => .pending)
    (g.readyNodes g.completedNodeIds)
  rw [withStatuses_pending hnodes hsynth] at hclaim
  exact ⟨_, hclaim⟩

/-- On a graph that starts PENDING and is stored after the initial claim, the
outcomes of every run are absorbing exactly when every completion is expected
where it arrives. -/
theorem absorbing_iff (env : Env) (g : TaskGraph)
    (hnodes : ∀ n ∈ g.nodes, n.status = .pending)
    (hsynth : ∀ s ∈ g.synthesizerNode, s.status = .pending) (w : World MemoryStateStore)
    (hstored : w.store.getTaskGraph g.workspaceId g.planId = some g.claimReady.1)
    (cs : List (Completion g.workspaceId g.planId)) :
    (∀ cs₁ c cs₂, cs = cs₁ ++ c :: cs₂ →
      Absorbs g.workspaceId g.planId (Completion.deliverAll env w cs₁)
        (c.deliver env (Completion.deliverAll env w cs₁))) ↔
    ∀ cs₁ c cs₂, cs = cs₁ ++ c :: cs₂ → Expected (Completion.deliverAll env w cs₁) c := by
  obtain ⟨ids, hids⟩ := claimReady_eq_withStatuses hnodes hsynth
  rw [hids] at hstored
  refine forall_congr' fun cs₁ => forall_congr' fun c => forall_congr' fun _ =>
    imp_congr_right fun _ => ?_
  obtain ⟨τ, hτ⟩ := deliverAll_stored env cs₁ hstored
  exact absorbs_deliver_iff c hτ

/-- The settle of a node of the run `run` in `ws`. -/
def sampleCompletion (nodeId : String) (failed : Bool) : Completion "ws" "run" where
  envelope := .wrap (subAgentCompletedEvent nodeId "ws" none "run" nodeId
    (if failed then "failed" else "completed") none {} [])
  nodeId := nodeId
  failed := failed
  workspace_eq := rfl
  kind_eq := rfl

/-- Two nodes in flight, a third one waiting for `b`. -/
def siblingGraph : TaskGraph :=
  { planId := "run", workspaceId := "ws"
    nodes := [{ nodeId := "a" }, { nodeId := "b" }, { nodeId := "c", dependsOn := ["b"] }] }

def siblingWorld : World MemoryStateStore :=
  { store := ({} : MemoryStateStore).saveTaskGraph siblingGraph.claimReady.1 }

/-- An environment for runs that plan nothing. -/
def idleEnv : Env :=
  Env.sample {}
    { planId := "run", sourceEventId := "event", workspaceId := "ws", projectId := none
      goal := "", promptId := "prompt", promptVersion := "1", contextSnapshotRef := "snapshot" }

/-- After `a` has failed and the run is reported failed, the completion of its
sibling `b` still dispatches `c`. -/
theorem sibling_dispatched_after_failure :
    ¬ ∀ cs₁ c cs₂, [sampleCompletion "a" true, sampleCompletion "b" false] = cs₁ ++ c :: cs₂ →
      Absorbs "ws" "run" (Completion.deliverAll idleEnv siblingWorld cs₁)
        (c.deliver idleEnv (Completion.deliverAll idleEnv siblingWorld cs₁)) := by
  intro h
  have hstep := h [sampleCompletion "a" true] (sampleCompletion "b" false) [] rfl
  have hreported : 0 < (Completion.deliverAll idleEnv siblingWorld
      [sampleCompletion "a" true]).reports "ws" "run" := by decide
  have hsame := (hstep.silent hreported).1
  revert hsame
  decide

/-- A check of `Expected` before the run has been reported, and of repeated completions. -/
theorem expected_of_check {workspaceId runId : String} {w : World MemoryStateStore}
    {c : Completion workspaceId runId}
    (h : ((w.store.getTaskGraph workspaceId runId).all fun g => (g.getNode c.nodeId).all fun n =>
      n.status = c.status || n.status ≠ .completed && n.status ≠ .failed &&
        w.reports workspaceId runId = 0) = true) : Expected w c := by
  intro g n hg hn hdiffers
  rw [hg, Option.all_some, hn, Option.all_some] at h
  simp only [Bool.or_eq_true, Bool.and_eq_true, decide_eq_true_eq] at h
  obtain ⟨hopen, hsilent⟩ := h.resolve_left hdiffers
  exact ⟨hopen, fun hreported => absurd hsilent (Nat.ne_of_gt hreported)⟩

/-- All nodes complete, `a` twice before the run has been reported and `c` twice around it. -/
def sampleCompletions : List (Completion "ws" "run") :=
  ["a", "a", "b", "c", "c"].map (sampleCompletion · false)

/-- A whole run with repeated completions is absorbed, and ends with one report. -/
theorem absorbing_iff_sample :
    (∀ cs₁ c cs₂, sampleCompletions = cs₁ ++ c :: cs₂ →
      Absorbs "ws" "run" (Completion.deliverAll idleEnv siblingWorld cs₁)
        (c.deliver idleEnv (Completion.deliverAll idleEnv siblingWorld cs₁))) ∧
      (Completion.deliverAll idleEnv siblingWorld sampleCompletions).reports "ws" "run" = 1 := by
  have hexpected : ∀ cs₁ (c : Completion "ws" "run") cs₂, sampleCompletions = cs₁ ++ c :: cs₂ →
      Expected (Completion.deliverAll idleEnv siblingWorld cs₁) c := by
    simp only [sampleCompletions, List.map_cons, List.map_nil, forall_split_cons_iff,
      forall_split_nil_iff]
    exact ⟨expected_of_check (by decide +kernel), expected_of_check (by decide +kernel),
      expected_of_check (by decide +kernel), expected_of_check (by decide +kernel),
      expected_of_check (by decide +kernel), trivial⟩
  exact ⟨(absorbing_iff idleEnv siblingGraph (by decide) (by simp [siblingGraph]) siblingWorld
    (by decide) sampleCompletions).2 hexpected, by decide +kernel⟩

end Runs

end PrismAgent
