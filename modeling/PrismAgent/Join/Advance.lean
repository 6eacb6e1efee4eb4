import PrismAgent.Join.Statuses

/-!
# What one advance can do

`AdvanceCase g σ id status advance τ` says that recording `status` for `id` on
the graph `g` with statuses `σ` may return `advance`, whose graph has statuses
`τ`. The constructors are the branches of `planAdvance`; `planAdvance_spec`
shows that they are all of them for the two terminal statuses that completion
events carry.
-/

namespace PrismAgent

namespace TaskGraph

open Function (update)

/-- The branches of `planAdvance` for a COMPLETED or FAILED completion. -/
inductive AdvanceCase (g : TaskGraph) (σ : String → SubTaskStatus) (id : String) :
    SubTaskStatus → TaskGraphAdvance → (String → SubTaskStatus) → Prop
  | unknown {status : SubTaskStatus} (hid : ¬ g.Knows id) :
      AdvanceCase g σ id status { graph := g.withStatuses σ } σ
  | duplicate {status : SubTaskStatus} (hid : g.Knows id) (hσ : σ id = status) :
      AdvanceCase g σ id status
        { graph := g.withStatuses σ, alreadyProcessed := true } σ
  | failed (hid : g.Knows id) (hσ : σ id ≠ .failed) :
      AdvanceCase g σ id .failed
        { graph := g.withStatuses (update σ id .failed), runFailed := true }
        (update σ id .failed)
  | synthesizer (hid : g.isSynthesizer id = true) (hσ : σ id ≠ .completed) :
      AdvanceCase g σ id .completed
        { graph := g.withStatuses (update σ id .completed)
          isSynthesizer := true, runCompleted := true }
        (update σ id .completed)
  | claims {newly : List SubTask} (hid : g.HasNode id)
      (hsyn : g.isSynthesizer id = false) (hσ : σ id ≠ .completed)
      (hready : g.readyIds (update σ id .completed) ≠ [])
      (hids : newly.map (·.nodeId) = g.readyIds (update σ id .completed))
      (hnodes : ∀ n ∈ newly,
        (g.withStatuses (claim (update σ id .completed)
          (g.readyIds (update σ id .completed)))).getNode n.nodeId = some n) :
      AdvanceCase g σ id .completed
        { graph := g.withStatuses (claim (update σ id .completed)
            (g.readyIds (update σ id .completed)))
          newlyReady := newly }
        (claim (update σ id .completed) (g.readyIds (update σ id .completed)))
  | dispatch {s : SubTask} (hid : g.HasNode id)
      (hsyn : g.isSynthesizer id = false) (hσ : σ id ≠ .completed)
      (hready : g.readyIds (update σ id .completed) = [])
      (hall : ∀ i, g.HasNode i → update σ id .completed i = .completed)
      (hs : g.synthesizerNode = some s) (hpending : σ s.nodeId = .pending) :
      AdvanceCase g σ id .completed
        { graph := g.withStatuses (update (update σ id .completed) s.nodeId .running)
          dispatchSynthesizer := some { s with status := .running } }
        (update (update σ id .completed) s.nodeId .running)
  | stalled {s : SubTask} (hid : g.HasNode id)
      (hsyn : g.isSynthesizer id = false) (hσ : σ id ≠ .completed)
      (hready : g.readyIds (update σ id .completed) = [])
      (hall : ∀ i, g.HasNode i → update σ id .completed i = .completed)
      (hs : g.synthesizerNode = some s) (hpending : σ s.nodeId ≠ .pending)
      (hcompleted : σ s.nodeId ≠ .completed) :
      AdvanceCase g σ id .completed
        { graph := g.withStatuses (update σ id .completed) } (update σ id .completed)
  | joined (hid : g.HasNode id)
      (hsyn : g.isSynthesizer id = false) (hσ : σ id ≠ .completed)
      (hready : g.readyIds (update σ id .completed) = [])
      (hall : ∀ i, g.HasNode i → update σ id .completed i = .completed)
      (hs : ∀ s, g.synthesizerNode = some s → σ s.nodeId = .completed) :
      AdvanceCase g σ id .completed
        { graph := g.withStatuses (update σ id .completed), runCompleted := true }
        (update σ id .completed)
  | waiting (hid : g.HasNode id)
      (hsyn : g.isSynthesizer id = false) (hσ : σ id ≠ .completed)
      (hready : g.readyIds (update σ id .completed) = [])
      (hall : ¬ ∀ i, g.HasNode i → update σ id .completed i = .completed)
      (hrunning : ∃ i, g.HasNode i ∧ update σ id .completed i = .running) :
      AdvanceCase g σ id .completed
        { graph := g.withStatuses (update σ id .completed) } (update σ id .completed)
  | blocked (hid : g.HasNode id)
      (hsyn : g.isSynthesizer id = false) (hσ : σ id ≠ .completed)
      (hready : g.readyIds (update σ id .completed) = [])
      (hall : ¬ ∀ i, g.HasNode i → update σ id .completed i = .completed)
      (hrunning : ¬ ∃ i, g.HasNode i ∧ update σ id .completed i = .running) :
      AdvanceCase g σ id .completed
        { graph := g.withStatuses (update σ id .completed), blocked := true }
        (update σ id .completed)

/-- The advanced graph carries the statuses `τ`. -/
theorem AdvanceCase.graph_eq {g : TaskGraph} {σ τ : String → SubTaskStatus} {id : String}
    {status : SubTaskStatus} {advance : TaskGraphAdvance}
    (h : AdvanceCase g σ id status advance τ) : advance.graph = g.withStatuses τ := by
  cases h <;> rfl

/-- A claimed copy is the node found under its own id. -/
theorem mem_filterMap_getNode {g : TaskGraph} {ready : List SubTask} {n : SubTask}
    (h : n ∈ ready.filterMap fun m => g.getNode m.nodeId) :
    g.getNode n.nodeId = some n := by
  obtain ⟨m, -, hm⟩ := List.mem_filterMap.1 h
  have hid : n.nodeId = m.nodeId := by
    unfold getNode at hm
    split at hm
    next node hf =>
      cases hm
      simpa using List.find?_some hf
    next =>
      split at hm
      next s _ =>
        split at hm
        next hs =>
          cases hm
          exact hs
        next => cases hm
      next => cases hm
  rw [hid]
  exact hm

theorem withStatuses_readyNodes_ne_nil (g : TaskGraph) (σ : String → SubTaskStatus) :
    (g.withStatuses σ).readyNodes (g.withStatuses σ).completedNodeIds ≠ [] ↔
      g.readyIds σ ≠ [] := by
  simp [readyIds]

theorem knows_of_mem_readyIds {g : TaskGraph} {σ : String → SubTaskStatus} {id : String}
    (h : id ∈ g.readyIds σ) : g.HasNode id := by
  obtain ⟨node, hnode, hid, -⟩ := (mem_readyIds g σ id).1 h
  exact ⟨node, hnode, hid⟩

/-- Recording COMPLETED for an ordinary node that does not hold it yet. -/
theorem planAdvance_completed_spec (g : TaskGraph) (σ : String → SubTaskStatus)
    (id : String) (hid : g.HasNode id) (hsyn : g.isSynthesizer id = false)
    (hσ : σ id ≠ .completed) :
    ∃ τ, AdvanceCase g σ id .completed ((g.withStatuses σ).planAdvance id .completed) τ := by
  have hknows : g.Knows id := .inl hid
  obtain ⟨node, hnode⟩ : ∃ node, (g.withStatuses σ).getNode id = some node := by
    rw [← Option.isSome_iff_exists, Option.isSome_iff_ne_none]
    exact fun h => (getNode_withStatuses_eq_none g σ id).1 h hknows
  have hstatus : node.status ≠ .completed := by
    rw [(getNode_withStatuses_eq_some g σ hnode).2]
    exact hσ
  set σ' := update σ id SubTaskStatus.completed with hσ'
  have hother : ∀ s, g.synthesizerNode = some s → σ' s.nodeId = σ s.nodeId := by
    intro s hs
    refine Function.update_of_ne ?_ _ _
    rintro rfl
    simp [(isSynthesizer_iff g s.nodeId).2 ⟨s, hs, rfl⟩] at hsyn
  unfold planAdvance
  rw [hnode]
  simp only [hstatus, withNodeStatus_withStatuses, ← hσ', isSynthesizer_withStatuses, hsyn,
    claimAll_withStatuses, if_false, reduceCtorEq, ne_eq, not_true_eq_false, Bool.false_eq_true]
  by_cases hready : g.readyIds σ' = []
  · have hnil : (g.withStatuses σ').readyNodes (g.withStatuses σ').completedNodeIds = [] := by
      by_contra h
      exact (withStatuses_readyNodes_ne_nil g σ').1 h hready
    rw [hnil]
    simp only [not_true_eq_false, if_false]
    have hnonempty : g.nodes ≠ [] := by
      obtain ⟨n, hn, -⟩ := hid
      exact List.ne_nil_of_mem hn
    by_cases hall : ∀ i, g.HasNode i → σ' i = .completed
    · rw [if_pos ((allNodesCompleted_withStatuses g σ').2 ⟨hnonempty, hall⟩)]
      cases hs : g.synthesizerNode with
      | none =>
          have hnone : (g.withStatuses σ').synthesizerNode = none := by
            simp [withStatuses, hs]
          rw [hnone]
          exact ⟨σ', .joined hid hsyn hσ hready hall fun s h => by simp [hs] at h⟩
      | some s =>
          have hsome : (g.withStatuses σ').synthesizerNode =
              some { s with status := σ' s.nodeId } := by
            simp [withStatuses, hs]
          rw [hsome]
          simp only [hother s hs]
          split
          next hpending =>
            refine ⟨update σ' s.nodeId .running, ?_⟩
            have hcase := AdvanceCase.dispatch (g := g) hid hsyn hσ hready hall hs hpending
            have hsynth : (g.withStatuses (update σ' s.nodeId .running)).synthesizerNode =
                some { s with status := .running } := by
              simp [withStatuses, hs]
            rw [hsynth]
            exact hcase
          next hpending =>
            split
            next hcompleted =>
              exact ⟨σ', .stalled hid hsyn hσ hready hall hs hpending hcompleted⟩
            next hcompleted =>
              refine ⟨σ', .joined hid hsyn hσ hready hall fun s' hs' => ?_⟩
              obtain rfl : s = s' := Option.some.inj (hs.symm.trans hs')
              exact not_not.1 hcompleted
    · rw [if_neg fun h => hall ((allNodesCompleted_withStatuses g σ').1 h).2]
      by_cases hrunning : ∃ i, g.HasNode i ∧ σ' i = .running
      · rw [if_pos ((any_running_withStatuses g σ').2 hrunning)]
        exact ⟨σ', .waiting hid hsyn hσ hready hall hrunning⟩
      · rw [if_neg fun h => hrunning ((any_running_withStatuses g σ').1 h)]
        exact ⟨σ', .blocked hid hsyn hσ hready hall hrunning⟩
  · rw [if_pos ((withStatuses_readyNodes_ne_nil g σ').2 hready)]
    refine ⟨_, .claims hid hsyn hσ hready ?_ fun n hn => mem_filterMap_getNode hn⟩
    refine filterMap_getNode_nodeId g _ _ fun n hn => .inl ?_
    exact knows_of_mem_readyIds (List.mem_map_of_mem hn)

/-- An advance with a terminal status is one of the listed cases. -/
theorem planAdvance_spec (g : TaskGraph) (σ : String → SubTaskStatus) (id : String)
    {status : SubTaskStatus} (hstatus : status = .completed ∨ status = .failed) :
    ∃ τ, AdvanceCase g σ id status ((g.withStatuses σ).planAdvance id status) τ := by
  by_cases hid : g.Knows id
  · obtain ⟨node, hnode⟩ : ∃ node, (g.withStatuses σ).getNode id = some node := by
      rw [← Option.isSome_iff_exists, Option.isSome_iff_ne_none]
      exact fun h => (getNode_withStatuses_eq_none g σ id).1 h hid
    have hnodeStatus := (getNode_withStatuses_eq_some g σ hnode).2
    by_cases hσ : σ id = status
    · refine ⟨σ, ?_⟩
      unfold planAdvance
      simp only [hnode, hnodeStatus, hσ, if_true]
      exact .duplicate hid hσ
    · rcases hstatus with rfl | rfl
      · by_cases hsyn : g.isSynthesizer id = true
        · refine ⟨update σ id .completed, ?_⟩
          unfold planAdvance
          simp only [hnode, hnodeStatus, hσ, withNodeStatus_withStatuses,
            isSynthesizer_withStatuses, hsyn, if_true, if_false, reduceCtorEq, ne_eq,
            not_true_eq_false]
          exact .synthesizer hsyn hσ
        · have hnot : g.isSynthesizer id = false := by simpa using hsyn
          exact planAdvance_completed_spec g σ id (hid.resolve_right hsyn) hnot hσ
      · refine ⟨update σ id .failed, ?_⟩
        unfold planAdvance
        simp only [hnode, hnodeStatus, hσ, withNodeStatus_withStatuses, if_true, if_false]
        exact .failed hid hσ
  · refine ⟨σ, ?_⟩
    unfold planAdvance
    rw [(getNode_withStatuses_eq_none g σ id).2 hid]
    exact .unknown hid

section Consequences

variable {g : TaskGraph} {σ τ : String → SubTaskStatus} {id : String} {status : SubTaskStatus}
  {advance : TaskGraphAdvance}

/-- The advance has recorded that the ordinary node `id` is COMPLETED. -/
structure RecordsCompletion (id : String) (status : SubTaskStatus) (advance : TaskGraphAdvance)
    (i : String) : Prop where
  node : i = id
  status : status = .completed
  new : advance.alreadyProcessed = false
  ordinary : advance.isSynthesizer = false

/-- An ordinary node is COMPLETED after an advance if it was before or has been recorded. -/
theorem AdvanceCase.completed_cases (h : AdvanceCase g σ id status advance τ) {i : String}
    (hi : g.isSynthesizer i = false) (hτ : τ i = .completed) :
    σ i = .completed ∨ RecordsCompletion id status advance i := by
  have hrecorded : ∀ {advance : TaskGraphAdvance}, advance.alreadyProcessed = false →
      advance.isSynthesizer = false → update σ id .completed i = .completed →
      σ i = .completed ∨ RecordsCompletion id .completed advance i := by
    intro advance hnew hordinary hupdate
    by_cases hid : i = id
    · exact .inr ⟨hid, rfl, hnew, hordinary⟩
    · exact .inl (by rwa [Function.update_of_ne hid] at hupdate)
  cases h with
  | unknown hid => exact .inl hτ
  | duplicate hid hσ => exact .inl hτ
  | failed hid hσ =>
      by_cases heq : i = id
      · rw [heq, Function.update_self] at hτ
        cases hτ
      · exact .inl (by rwa [Function.update_of_ne heq] at hτ)
  | synthesizer hid hσ =>
      by_cases heq : i = id
      · rw [heq, hid] at hi
        cases hi
      · exact .inl (by rwa [Function.update_of_ne heq] at hτ)
  | claims =>
      unfold claim at hτ
      split at hτ
      · cases hτ
      · exact hrecorded rfl rfl hτ
  | @dispatch s =>
      by_cases heq : i = s.nodeId
      · rw [heq, Function.update_self] at hτ
        cases hτ
      · rw [Function.update_of_ne heq] at hτ
        exact hrecorded rfl rfl hτ
  | _ => exact hrecorded rfl rfl hτ

/-- An advance claims the synthesizer only when it completes the ordinary nodes. -/
theorem AdvanceCase.completed_of_dispatch (h : AdvanceCase g σ id status advance τ)
    (hsome : advance.dispatchSynthesizer.isSome = true) {i : String} (hi : g.HasNode i) :
    σ i = .completed ∨ RecordsCompletion id status advance i := by
  cases h with
  | dispatch hid hsyn hσ hready hall hs hpending =>
      by_cases heq : i = id
      · exact .inr ⟨heq, rfl, rfl, rfl⟩
      · refine .inl ?_
        rw [← hall i hi, Function.update_of_ne heq]
  | _ => cases hsome

/-- What an advance makes ready are ordinary nodes. -/
theorem AdvanceCase.hasNode_of_newlyReady (h : AdvanceCase g σ id status advance τ)
    {node : SubTask} (hnode : node ∈ advance.newlyReady) : g.HasNode node.nodeId := by
  cases h with
  | claims hid hsyn hσ hready hids hnodes =>
      have hmem := List.mem_map_of_mem (f := SubTask.nodeId) hnode
      rw [hids] at hmem
      exact knows_of_mem_readyIds hmem
  | _ => cases hnode

end Consequences

end TaskGraph

end PrismAgent
