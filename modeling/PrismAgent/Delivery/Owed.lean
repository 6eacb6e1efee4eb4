import PrismAgent.Effect.Debts
import PrismAgent.Join.Accounted

/-!
# What a stored graph calls for

A graph is saved as claimed or advanced before the events of its RUNNING nodes are
enqueued, the results of its COMPLETED nodes are saved and its completion is reported.
`World.Due` lists what of this has not been done and `graphDebts` what each write of a
graph incurs; what a graph calls for after an advance or a claim is compared with what it
called for before.
-/

namespace PrismAgent

open Effect
open TaskGraph (claim)
open Function (update update_self update_of_ne)

/-- Something that has to be done for a run once its graph is stored. -/
inductive Debt
  | claim (workspaceId runId : String)
  | task (workspaceId runId nodeId : String)
  | result (workspaceId runId nodeId : String)
  | completion (workspaceId runId : String)
  deriving DecidableEq, Repr

/-- The run that a debt is about. -/
def Debt.key : Debt → String × String
  | .claim workspaceId runId => (workspaceId, runId)
  | .task workspaceId runId _ => (workspaceId, runId)
  | .result workspaceId runId _ => (workspaceId, runId)
  | .completion workspaceId runId => (workspaceId, runId)

/-- What is to be done has not been done. -/
def Debt.Open (w : World MemoryStateStore) : Debt → Prop
  | .claim _ _ => True
  | .task workspaceId runId nodeId => nodeId ∉ w.taskNodes workspaceId runId
  | .result workspaceId runId nodeId =>
      nodeId ∉ Dict.keys (w.store.subAgentResults (workspaceId, runId))
  | .completion workspaceId runId => .runCompletedById workspaceId runId ∉ w.syncCalls

namespace TaskGraph

/-- The ordinary node or the synthesizer with this id is RUNNING. -/
def Runs (g : TaskGraph) (id : String) : Prop :=
  ∃ n ∈ g.allNodes, n.nodeId = id ∧ n.status = .running

/-- The last node has completed: every ordinary node is COMPLETED, and so is the
synthesizer if there is one. -/
def Finished (g : TaskGraph) : Prop :=
  g.allNodesCompleted = true ∧ ∀ s ∈ g.synthesizerNode, s.status = .completed

/-- The graph of an orchestrated run in which nothing has been started and something
can be. -/
structure Unclaimed (g : TaskGraph) : Prop where
  orchestrated : g.contextSnapshotRef.isSome = true
  pending : ∀ n ∈ g.allNodes, n.status = .pending
  ready : g.claimReady.2 ≠ []

/-- What the statuses of the graph call for. -/
def CallsFor (g : TaskGraph) : Debt → Prop
  | .claim _ _ => g.Unclaimed
  | .task _ _ nodeId => g.Runs nodeId
  | .result _ _ nodeId => g.Completes nodeId
  | .completion _ _ => g.Finished

end TaskGraph

/-- A stored graph calls for it and it has not been done. -/
structure World.Due (w : World MemoryStateStore) (d : Debt) : Prop where
  called : ∃ g, w.store.taskGraphs d.key = some g ∧ g.CallsFor d
  unsettled : d.Open w

/-- What the new status of a node calls for. -/
def TaskGraphAdvance.debts (advance : TaskGraphAdvance) (workspaceId runId nodeId : String)
    (status : SubTaskStatus) (known : Bool) : List Debt :=
  (if status = .completed ∧ advance.alreadyProcessed = false ∧ advance.isSynthesizer = false ∧
      known = true then [.result workspaceId runId nodeId] else []) ++
    (advance.newlyReady ++ advance.dispatchSynthesizer.toList).map
      (fun node => .task workspaceId runId node.nodeId) ++
    if advance.runCompleted then [.completion workspaceId runId] else []

/-- What a write of a graph calls for: a new graph that can be started, to be claimed;
claimed nodes, task events; a completed node, its result; the last one, a report. -/
def incurs (w : World MemoryStateStore) : Call → List Debt
  | .saveTaskGraph graph =>
      if graph.contextSnapshotRef.isSome = true ∧ graph.claimReady.2 ≠ [] then
        [.claim graph.workspaceId graph.planId]
      else []
  | .claimReadyNodes workspaceId runId =>
      match w.store.getTaskGraph workspaceId runId with
      | none => []
      | some graph => graph.claimReady.2.map fun node => .task workspaceId runId node.nodeId
  | .advanceTaskGraph workspaceId runId nodeId status =>
      match w.store.getTaskGraph workspaceId runId with
      | none => []
      | some graph =>
          (graph.planAdvance nodeId status).debts workspaceId runId nodeId status
            (graph.getNode nodeId).isSome
  | _ => []

/-- The call that settles a debt. -/
def settles : Call → Debt → Bool
  | .claimReadyNodes workspaceId runId, .claim workspaceId' runId' =>
      workspaceId = workspaceId' ∧ runId = runId'
  | .enqueue envelope, .task workspaceId runId nodeId =>
      World.taskNode? workspaceId runId envelope = some nodeId
  | .saveSubAgentResult workspaceId runId result, .result workspaceId' runId' nodeId =>
      workspaceId = workspaceId' ∧ runId = runId' ∧ result.nodeId = nodeId
  | .sync (.runCompletedById workspaceId runId), .completion workspaceId' runId' =>
      workspaceId = workspaceId' ∧ runId = runId'
  | _, _ => false

/-- The debts of the writes of graphs. -/
def graphDebts : Debts Call (World MemoryStateStore) Debt where
  incurs := incurs
  settles := settles

theorem incurs_of_writes {call : Call} (h : call.writes ≠ some .taskGraphs)
    (w : World MemoryStateStore) : incurs w call = [] := by
  cases call <;> first | rfl | exact absurd rfl h

namespace TaskGraph

section Statuses

variable {g : TaskGraph} {σ τ : String → SubTaskStatus} {id : String}

theorem allNodes_withStatuses : (g.withStatuses σ).allNodes =
    g.allNodes.map fun node => { node with status := σ node.nodeId } := by
  unfold allNodes withStatuses
  rw [List.map_append]
  cases g.synthesizerNode <;> rfl

theorem knows_iff {i : String} : g.Knows i ↔ ∃ n ∈ g.allNodes, n.nodeId = i := by
  unfold Knows allNodes
  rw [isSynthesizer_iff]
  constructor
  · rintro (⟨n, hn, rfl⟩ | ⟨s, hs, rfl⟩)
    · exact ⟨n, List.mem_append_left _ hn, rfl⟩
    · exact ⟨s, List.mem_append_right _ (Option.mem_toList.2 hs), rfl⟩
  · rintro ⟨n, hn, rfl⟩
    rcases List.mem_append.1 hn with hn | hn
    · exact .inl ⟨n, hn, rfl⟩
    · exact .inr ⟨n, Option.mem_toList.1 hn, rfl⟩

theorem runs_withStatuses {i : String} :
    (g.withStatuses σ).Runs i ↔ g.Knows i ∧ σ i = .running := by
  unfold Runs
  rw [allNodes_withStatuses, knows_iff]
  constructor
  · rintro ⟨_, hn, rfl, hrunning⟩
    obtain ⟨m, hm, rfl⟩ := List.mem_map.1 hn
    exact ⟨⟨m, hm, rfl⟩, hrunning⟩
  · rintro ⟨⟨m, hm, rfl⟩, hrunning⟩
    exact ⟨_, List.mem_map_of_mem hm, rfl, hrunning⟩

theorem pending_withStatuses :
    (∀ n ∈ (g.withStatuses σ).allNodes, n.status = .pending) ↔
      ∀ i, g.Knows i → σ i = .pending := by
  rw [allNodes_withStatuses, List.forall_mem_map]
  constructor
  · intro h i hi
    obtain ⟨n, hn, rfl⟩ := knows_iff.1 hi
    exact h n hn
  · exact fun h n hn => h n.nodeId (knows_iff.2 ⟨n, hn, rfl⟩)

theorem unclaimed_withStatuses : (g.withStatuses σ).Unclaimed ↔
    g.contextSnapshotRef.isSome = true ∧ (∀ i, g.Knows i → σ i = .pending) ∧
      g.readyIds σ ≠ [] := by
  have hready : (g.withStatuses σ).claimReady.2 ≠ [] ↔ g.readyIds σ ≠ [] := by
    rw [← (JoinRun.claimReady_withStatuses g σ).2, ne_eq, ne_eq, List.map_eq_nil_iff]
  rw [← hready, ← pending_withStatuses]
  exact ⟨fun h => ⟨h.orchestrated, h.pending, h.ready⟩, fun h => ⟨h.1, h.2.1, h.2.2⟩⟩

theorem finished_withStatuses : (g.withStatuses σ).Finished ↔
    (g.nodes ≠ [] ∧ ∀ i, g.HasNode i → σ i = .completed) ∧
      ∀ s, g.synthesizerNode = some s → σ s.nodeId = .completed := by
  unfold Finished
  rw [allNodesCompleted_withStatuses]
  refine and_congr_right fun _ => ?_
  simp [withStatuses, Option.map_eq_some_iff]

end Statuses

section Advance

variable {g : TaskGraph} {σ τ : String → SubTaskStatus} {id : String} {status : SubTaskStatus}
  {advance : TaskGraphAdvance}

/-- What is RUNNING after an advance was RUNNING before or has been claimed by it. -/
theorem AdvanceCase.running_cases (h : AdvanceCase g σ id status advance τ) {i : String}
    (hτ : τ i = .running) : σ i = .running ∨
      i ∈ (advance.newlyReady ++ advance.dispatchSynthesizer.toList).map (·.nodeId) := by
  have hrecorded : ∀ {status}, status ≠ .running → update σ id status i = .running →
      σ i = .running := by
    intro status hstatus hupdate
    by_cases hi : i = id
    · rw [hi, update_self] at hupdate
      exact absurd hupdate hstatus
    · rwa [update_of_ne hi] at hupdate
  cases h with
  | unknown hid => exact .inl hτ
  | duplicate hid hσ => exact .inl hτ
  | failed hid hσ => exact .inl (hrecorded (by decide) hτ)
  | claims hid hsyn hσ hready hids hnodes =>
      unfold claim at hτ
      split at hτ
      next hmem =>
        rw [← hids] at hmem
        exact .inr (by simpa using hmem)
      next => exact .inl (hrecorded (by decide) hτ)
  | @dispatch s hid hsyn hσ hready hall hs hpending =>
      by_cases hi : i = s.nodeId
      · exact .inr (by simp [hi])
      · rw [update_of_ne hi] at hτ
        exact .inl (hrecorded (by decide) hτ)
  | _ => exact .inl (hrecorded (by decide) hτ)

/-- An advance that finishes the graph completes the run. -/
theorem AdvanceCase.finished_cases (h : AdvanceCase g σ id status advance τ)
    (hτ : (g.withStatuses τ).Finished) :
    (g.withStatuses σ).Finished ∨ advance.runCompleted = true := by
  have hfinished := finished_withStatuses.1 hτ
  obtain ⟨⟨hnonempty, hnodes⟩, hsynth⟩ := hfinished
  cases h with
  | unknown hid => exact .inl hτ
  | duplicate hid hσ => exact .inl hτ
  | failed hid hσ =>
      rcases hid with hid | hsyn
      · simpa using hnodes id hid
      · obtain ⟨s, hs, rfl⟩ := (isSynthesizer_iff g _).1 hsyn
        simpa using hsynth s hs
  | synthesizer hid hσ => exact .inr rfl
  | claims hid hsyn hσ hready hids hnodes' =>
      obtain ⟨i, hi⟩ := List.exists_mem_of_ne_nil _ hready
      have hcompleted := hnodes i (knows_of_mem_readyIds hi)
      rw [claim, if_pos hi] at hcompleted
      cases hcompleted
  | dispatch hid hsyn hσ hready hall hs hpending => simpa using hsynth _ hs
  | @stalled s hid hsyn hσ hready hall hs hpending hcompleted =>
      have hne : s.nodeId ≠ id := by
        rintro rfl
        simp [(isSynthesizer_iff g _).2 ⟨s, hs, rfl⟩] at hsyn
      exact absurd ((update_of_ne hne _ _).symm.trans (hsynth s hs)) hcompleted
  | joined hid hsyn hσ hready hall hs => exact .inr rfl
  | waiting hid hsyn hσ hready hall hrunning => exact absurd hnodes hall
  | blocked hid hsyn hσ hready hall hrunning => exact absurd hnodes hall

/-- An advance that recorded nothing new, or failed the run, calls for nothing. -/
theorem AdvanceCase.debts_eq_nil (h : AdvanceCase g σ id status advance τ)
    (hquiet : advance.alreadyProcessed = true ∨ advance.runFailed = true)
    (workspaceId runId : String) (known : Bool) :
    advance.debts workspaceId runId id status known = [] := by
  cases h with
  | duplicate hid hσ => simp [TaskGraphAdvance.debts]
  | failed hid hσ => simp [TaskGraphAdvance.debts]
  | _ => simp at hquiet

/-- What the graph calls for after an advance it called for before, or the advance
incurs it. -/
theorem AdvanceCase.callsFor (h : AdvanceCase g σ id status advance τ) {d : Debt}
    (hd : (g.withStatuses τ).CallsFor d) : (g.withStatuses σ).CallsFor d ∨
      d ∈ advance.debts d.key.1 d.key.2 id status ((g.withStatuses σ).getNode id).isSome := by
  cases d with
  | claim workspaceId runId =>
      obtain ⟨hsome, hpending, hready⟩ := unclaimed_withStatuses.1 hd
      rcases advance_records h with ⟨-, -, rfl, -⟩ | hrecords
      · exact .inl hd
      · have hstatus := hpending id hrecords.knows
        rw [hrecords.recorded] at hstatus
        subst hstatus
        cases h with
        | unknown hid => exact absurd hrecords.knows hid
        | duplicate _ hσ => exact absurd hσ hrecords.new
  | task workspaceId runId nodeId =>
      obtain ⟨hknows, hrunning⟩ := runs_withStatuses.1 hd
      rcases h.running_cases hrunning with hbefore | hclaimed
      · exact .inl (runs_withStatuses.2 ⟨hknows, hbefore⟩)
      · obtain ⟨n, hn, rfl⟩ := List.mem_map.1 hclaimed
        refine .inr (List.mem_append_left _ (List.mem_append_right _ ?_))
        exact List.mem_map_of_mem (f := fun n : SubTask => Debt.task workspaceId runId n.nodeId) hn
  | result workspaceId runId nodeId =>
      obtain ⟨hnode, hordinary, hcompleted⟩ := completes_withStatuses.1 hd
      rcases h.completed_cases hordinary hcompleted with hbefore | hrecorded
      · exact .inl (completes_withStatuses.2 ⟨hnode, hordinary, hbefore⟩)
      · obtain ⟨rfl, hstatus, hnew, hsynth⟩ := hrecorded
        have hknown : ((g.withStatuses σ).getNode nodeId).isSome = true := by
          rw [Option.isSome_iff_ne_none]
          exact fun hnone => (getNode_withStatuses_eq_none g σ nodeId).1 hnone (.inl hnode)
        refine .inr (List.mem_append_left _ (List.mem_append_left _ ?_))
        rw [if_pos ⟨hstatus, hnew, hsynth, hknown⟩]
        exact List.mem_singleton_self _
  | completion workspaceId runId =>
      rcases h.finished_cases hd with hbefore | hcompleted
      · exact .inl hbefore
      · refine .inr (List.mem_append_right _ ?_)
        rw [if_pos hcompleted]
        exact List.mem_singleton_self _

end Advance

section Calls

variable {g : TaskGraph} {σ : String → SubTaskStatus} {d : Debt}

/-- A graph in which nothing has been started calls for nothing but the claim. -/
theorem unclaimed_of_callsFor (h : ∀ n ∈ g.allNodes, n.status = .pending) (hd : g.CallsFor d) :
    g.Unclaimed ∧ d = .claim d.key.1 d.key.2 := by
  cases d with
  | claim workspaceId runId => exact ⟨hd, rfl⟩
  | task workspaceId runId nodeId =>
      obtain ⟨n, hn, -, hrunning⟩ := hd
      rw [h n hn] at hrunning
      cases hrunning
  | result workspaceId runId nodeId =>
      obtain ⟨n, hn, -, hcompleted, -⟩ := hd
      rw [h n (List.mem_append_left _ hn)] at hcompleted
      cases hcompleted
  | completion workspaceId runId =>
      obtain ⟨hnodes, -⟩ := hd
      simp only [allNodesCompleted, Bool.and_eq_true, Bool.not_eq_true', List.isEmpty_eq_false_iff,
        List.all_eq_true, decide_eq_true_eq] at hnodes
      obtain ⟨n, hn⟩ := List.exists_mem_of_ne_nil _ hnodes.1
      have hcompleted := hnodes.2 n hn
      rw [h n (List.mem_append_left _ hn)] at hcompleted
      cases hcompleted

/-- What a claimed graph calls for it called for before, or it is the task event of a
claimed node. -/
theorem callsFor_claimReady (hd : (g.withStatuses σ).claimReady.1.CallsFor d) :
    ((g.withStatuses σ).CallsFor d ∧ d ≠ .claim d.key.1 d.key.2) ∨
      d ∈ (g.withStatuses σ).claimReady.2.map fun n => .task d.key.1 d.key.2 n.nodeId := by
  obtain ⟨hgraph, hids⟩ := JoinRun.claimReady_withStatuses g σ
  rw [hgraph] at hd
  have hcompleted : ∀ i, claim σ (g.readyIds σ) i = .completed → σ i = .completed := by
    intro i hi
    unfold claim at hi
    split at hi
    · cases hi
    · exact hi
  cases d with
  | claim workspaceId runId =>
      obtain ⟨-, -, hready⟩ := unclaimed_withStatuses.1 hd
      exact absurd (readyIds_claim g σ) hready
  | task workspaceId runId nodeId =>
      obtain ⟨hknows, hrunning⟩ := runs_withStatuses.1 hd
      unfold claim at hrunning
      split at hrunning
      next hmem =>
        rw [← hids] at hmem
        obtain ⟨n, hn, rfl⟩ := List.mem_map.1 hmem
        exact .inr (List.mem_map_of_mem (f := fun n : SubTask =>
          Debt.task workspaceId runId n.nodeId) hn)
      next => exact .inl ⟨runs_withStatuses.2 ⟨hknows, hrunning⟩, by rintro ⟨⟩⟩
  | result workspaceId runId nodeId =>
      obtain ⟨hnode, hordinary, hc⟩ := completes_withStatuses.1 hd
      exact .inl ⟨completes_withStatuses.2 ⟨hnode, hordinary, hcompleted _ hc⟩, by rintro ⟨⟩⟩
  | completion workspaceId runId =>
      obtain ⟨⟨hnonempty, hnodes⟩, hsynth⟩ := finished_withStatuses.1 hd
      refine .inl ⟨finished_withStatuses.2 ⟨⟨hnonempty, fun i hi => hcompleted _ (hnodes i hi)⟩,
        fun s hs => hcompleted _ (hsynth s hs)⟩, by rintro ⟨⟩⟩

end Calls

end TaskGraph

end PrismAgent
