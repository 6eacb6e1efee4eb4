import Mathlib.Data.List.Perm.Subperm
import PrismAgent.Delivery.Steps

/-!
# What a run dispatches

Over every run of handlings, aborted and repeated in any way: the task events of a run are
those of different nodes of its graph, a node's event is enqueued when its prerequisites
are COMPLETED, and the graph changes in nothing but statuses, which move forward. Each step
`Claims` the nodes whose events it enqueues.
-/

namespace PrismAgent

open Effect
open TaskGraph (claim)
open SubAgentCoordinator (advanceNodes)
open Function (update update_self update_of_ne)

/-- How far a node has come. -/
def SubTaskStatus.stage : SubTaskStatus → ℕ
  | .pending => 0
  | .running => 1
  | .completed => 2
  | .failed => 2

theorem SubTaskStatus.stage_le_of_terminal {status : SubTaskStatus}
    (h : status = .completed ∨ status = .failed) (other : SubTaskStatus) :
    other.stage ≤ status.stage := by
  rcases h with rfl | rfl <;> cases other <;> decide

namespace TaskGraph

/-- The node waits for nothing: the prerequisites of an ordinary node with this id are
COMPLETED, or it is the synthesizer and all ordinary nodes are. -/
def Startable (g : TaskGraph) (nodeId : String) : Prop :=
  (∃ n ∈ g.nodes, n.nodeId = nodeId ∧ ∀ d ∈ n.dependsOn, d ∈ g.completedNodeIds) ∨
    (g.isSynthesizer nodeId = true ∧ g.allNodesCompleted = true)

/-- From the statuses `σ` to `τ` of the graph the nodes in `ids` are claimed. -/
structure Claims (g : TaskGraph) (σ τ : String → SubTaskStatus) (ids : List String) : Prop where
  pending : ∀ i, τ i = .pending → σ i = .pending ∧ i ∉ ids
  claimed : ∀ i ∈ ids, σ i = .pending
  counted : ids.Subperm (g.allNodes.map (·.nodeId))
  startable : ∀ i ∈ ids, (g.withStatuses τ).Startable i
  forward : ∀ i, (σ i).stage ≤ (τ i).stage

variable {g : TaskGraph} {σ τ : String → SubTaskStatus} {ids : List String}

theorem Claims.refl (g : TaskGraph) (σ : String → SubTaskStatus) : Claims g σ σ [] where
  pending _ hi := ⟨hi, List.not_mem_nil⟩
  claimed := List.forall_mem_nil _
  counted := List.nil_subperm
  startable := List.forall_mem_nil _
  forward _ := le_rfl

/-- A prefix of what is claimed. -/
theorem Claims.of_started {done : List String} (h : Claims g σ τ ids) (hdone : done <+: ids) :
    Claims g σ τ done where
  pending i hi := ⟨(h.pending i hi).1, fun hmem => (h.pending i hi).2 (hdone.subset hmem)⟩
  claimed i hi := h.claimed i (hdone.subset hi)
  counted := hdone.sublist.subperm.trans h.counted
  startable i hi := h.startable i (hdone.subset hi)
  forward := h.forward

/-- Recording a terminal status claims nothing. -/
theorem Claims.of_update {id : String} {status : SubTaskStatus}
    (hstatus : status = .completed ∨ status = .failed) :
    Claims g σ (update σ id status) [] where
  pending i hi := by
    refine ⟨?_, List.not_mem_nil⟩
    by_cases heq : i = id
    · rw [heq, update_self] at hi
      rcases hstatus with rfl | rfl <;> cases hi
    · rwa [update_of_ne heq] at hi
  claimed := List.forall_mem_nil _
  counted := List.nil_subperm
  startable := List.forall_mem_nil _
  forward i := by
    by_cases heq : i = id
    · rw [heq, update_self]
      exact SubTaskStatus.stage_le_of_terminal hstatus _
    · rw [update_of_ne heq]

theorem allNodes_ids_withStatuses (g : TaskGraph) (σ : String → SubTaskStatus) :
    (g.withStatuses σ).allNodes.map (·.nodeId) = g.allNodes.map (·.nodeId) := by
  rw [allNodes_withStatuses, List.map_map]
  exact List.map_congr_left fun _ _ => rfl

/-- The ready nodes are claimed. -/
theorem claims_readyIds (g : TaskGraph) (σ : String → SubTaskStatus) :
    Claims g σ (claim σ (g.readyIds σ)) (g.readyIds σ) where
  pending i hi := by
    unfold claim at hi
    split at hi
    · cases hi
    next hnot => exact ⟨hi, hnot⟩
  claimed i hi := ((mem_readyIds g σ i).1 hi).choose_spec.2.2.1
  counted := by
    have hsub : (g.readyIds σ).Sublist ((g.withStatuses σ).nodes.map (·.nodeId)) :=
      List.filter_sublist.map _
    have hnodes : ((g.withStatuses σ).nodes.map (·.nodeId)).Sublist
        ((g.withStatuses σ).allNodes.map (·.nodeId)) := (List.sublist_append_left _ _).map _
    rw [← allNodes_ids_withStatuses g σ]
    exact (hsub.trans hnodes).subperm
  startable i hi := by
    obtain ⟨n, hn, rfl, -, hdeps⟩ := (mem_readyIds g σ i).1 hi
    refine .inl ⟨_, List.mem_map_of_mem hn, rfl, fun d hd => ?_⟩
    obtain ⟨hnode, hcompleted⟩ := hdeps d hd
    refine (mem_completedNodeIds_withStatuses g _ d).2 ⟨hnode, ?_⟩
    -- a completed prerequisite is not claimed again
    have hnot : d ∉ g.readyIds σ := by
      intro hready
      have hpending := ((mem_readyIds g σ d).1 hready).choose_spec.2.2.1
      rw [hcompleted] at hpending
      cases hpending
    rw [claim, if_neg hnot, hcompleted]
  forward i := by
    unfold claim
    split
    next hready =>
      rw [((mem_readyIds g σ i).1 hready).choose_spec.2.2.1]
      decide
    next => exact le_rfl

/-- One change after another, of which only the second claims nodes. -/
theorem Claims.after {ρ : String → SubTaskStatus} (h : Claims g σ τ []) (h' : Claims g τ ρ ids) :
    Claims g σ ρ ids where
  pending i hi := ⟨(h.pending i (h'.pending i hi).1).1, (h'.pending i hi).2⟩
  claimed i hi := (h.pending i (h'.claimed i hi)).1
  counted := h'.counted
  startable := h'.startable
  forward i := (h.forward i).trans (h'.forward i)

/-- When all ordinary nodes are COMPLETED, the synthesizer is claimed. -/
theorem claims_synthesizer {s : SubTask} (hs : g.synthesizerNode = some s)
    (hpending : σ s.nodeId = .pending) (hnonempty : g.nodes ≠ [])
    (hall : ∀ i, g.HasNode i → σ i = .completed) :
    Claims g σ (update σ s.nodeId .running) [s.nodeId] where
  pending i hi := by
    by_cases heq : i = s.nodeId
    · rw [heq, update_self] at hi
      cases hi
    · rw [update_of_ne heq] at hi
      exact ⟨hi, fun hmem => heq (List.mem_singleton.1 hmem)⟩
  claimed i hi := by rwa [List.mem_singleton.1 hi]
  counted := by
    refine List.Sublist.subperm (List.singleton_sublist.2 (List.mem_map_of_mem ?_))
    exact List.mem_append_right _ (Option.mem_toList.2 hs)
  startable i hi := by
    rw [List.mem_singleton.1 hi]
    refine .inr ⟨?_, (allNodesCompleted_withStatuses g _).2 ⟨hnonempty, fun j hj => ?_⟩⟩
    · rw [isSynthesizer_withStatuses]
      exact (isSynthesizer_iff g _).2 ⟨s, hs, rfl⟩
    · have hne : j ≠ s.nodeId := by
        rintro rfl
        rw [hall _ hj] at hpending
        cases hpending
      rw [update_of_ne hne]
      exact hall j hj
  forward i := by
    by_cases heq : i = s.nodeId
    · rw [heq, update_self, hpending]
      decide
    · rw [update_of_ne heq]

/-- An advance claims the nodes whose task events it calls for. -/
theorem AdvanceCase.claims_nodes {id : String} {status : SubTaskStatus} {advance : TaskGraphAdvance}
    (h : AdvanceCase g σ id status advance τ) (hstatus : status = .completed ∨ status = .failed) :
    Claims g σ τ (advanceNodes advance) := by
  have hrecorded : Claims g σ (update σ id .completed) [] := .of_update (.inl rfl)
  cases h with
  | unknown hid => exact .refl g σ
  | duplicate hid hσ => exact .refl g σ
  | failed hid hσ => exact .of_update (.inr rfl)
  | @claims newly hid hsyn hσ hready hids hnodes =>
      have hadvance : advanceNodes { graph := g.withStatuses (claim (update σ id .completed)
          (g.readyIds (update σ id .completed))), newlyReady := newly } =
          g.readyIds (update σ id .completed) := by
        rw [← hids]
        simp [advanceNodes]
      rw [hadvance]
      exact hrecorded.after (claims_readyIds g _)
  | @dispatch s hid hsyn hσ hready hall hs hpending =>
      have hne : s.nodeId ≠ id := by
        rintro rfl
        simp [(isSynthesizer_iff g _).2 ⟨s, hs, rfl⟩] at hsyn
      obtain ⟨n, hn, -⟩ := hid
      refine hrecorded.after (claims_synthesizer hs ?_ (List.ne_nil_of_mem hn) hall)
      rw [update_of_ne hne]
      exact hpending
  | _ => exact hrecorded

end TaskGraph

section Steps

open TaskGraph (Claims)

/-- A graph whose nodes with one id agree, and task events of different nodes of it that are
not PENDING any more. -/
structure RunView.Accounts (v : RunView) (base : TaskGraph) (σ : String → SubTaskStatus) :
    Prop where
  graph : v.graph = some (base.withStatuses σ)
  different : v.dispatched.Subperm (base.allNodes.map (·.nodeId))
  claimed : ∀ i, σ i = .pending → i ∉ v.dispatched

/-- There is no graph and no task event, or the graph accounts for the task events. -/
def RunView.Sound (v : RunView) : Prop :=
  (v.graph = none ∧ v.dispatched = []) ∨ ∃ base σ, v.Accounts base σ

variable {v v' : RunView} {base g : TaskGraph} {σ τ : String → SubTaskStatus}
  {ids done : List String}

theorem RunView.Sound.eq_nil (h : v.Sound) (hnone : v.graph = none) : v.dispatched = [] := by
  rcases h with ⟨-, hnil⟩ | ⟨base, σ, haccounts⟩
  · exact hnil
  · cases hnone.symm.trans haccounts.graph

/-- The task events are those of different nodes, none of them PENDING. -/
theorem RunView.Sound.subperm (h : v.Sound) (hstored : v.graph = some g) :
    v.dispatched.Subperm (g.allNodes.map (·.nodeId)) ∧
      ∀ n ∈ g.allNodes, n.status = .pending → n.nodeId ∉ v.dispatched := by
  rcases h with ⟨hnone, -⟩ | ⟨base, σ, haccounts⟩
  · cases hstored.symm.trans hnone
  · obtain rfl : g = base.withStatuses σ := Option.some.inj (hstored.symm.trans haccounts.graph)
    refine ⟨?_, fun n hn hpending => ?_⟩
    · rw [TaskGraph.allNodes_ids_withStatuses]
      exact haccounts.different
    · rw [TaskGraph.allNodes_withStatuses] at hn
      obtain ⟨m, -, rfl⟩ := List.mem_map.1 hn
      exact haccounts.claimed m.nodeId hpending

/-- Nodes that are claimed are dispatched for the first time. -/
theorem RunView.Accounts.claims (h : RunView.Accounts ⟨some g, ids⟩ base σ)
    (hclaims : Claims base σ τ done) :
    RunView.Accounts ⟨some (base.withStatuses τ), ids ++ done⟩ base τ where
  graph := rfl
  different := by
    have hdisjoint : List.Disjoint ids done := fun i hi hdone =>
      h.claimed i (hclaims.claimed i hdone) hi
    refine List.subperm_iff_count.2 fun i => ?_
    rw [List.count_append]
    by_cases hi : i ∈ ids
    · rw [List.count_eq_zero_of_not_mem fun hdone => hdisjoint hi hdone]
      exact List.subperm_iff_count.1 h.different i
    · rw [List.count_eq_zero_of_not_mem hi, Nat.zero_add]
      exact List.subperm_iff_count.1 hclaims.counted i
  claimed i hi := by
    obtain ⟨hpending, hnot⟩ := hclaims.pending i hi
    rw [List.mem_append, not_or]
    exact ⟨h.claimed i hpending, hnot⟩

/-- A new graph has nothing to account for. -/
theorem RunView.accounts_new (hnew : ∀ n ∈ g.allNodes, n.status = .pending) :
    RunView.Accounts ⟨some g, []⟩ g fun _ => .pending where
  graph := congrArg some (withStatuses_pending (fun n hn => hnew n (List.mem_append_left _ hn))
    fun s hs => hnew s (List.mem_append_right _ (Option.mem_toList.2 hs))).symm
  different := List.nil_subperm
  claimed _ _ := List.not_mem_nil

/-- What one step makes of a run: another graph only where there was none, and claims. -/
inductive RunStep.Effect (v v' : RunView) : Prop
  | idle (h : v' = v)
  | new {base : TaskGraph} {τ : String → SubTaskStatus} {done : List String}
      (hnone : v.graph = none) (hnil : v.dispatched = [])
      (hclaims : Claims base (fun _ => .pending) τ done)
      (hnew : base.withStatuses (fun _ => .pending) = base)
      (hv' : v' = ⟨some (base.withStatuses τ), done⟩)
  | moved {base : TaskGraph} {σ τ : String → SubTaskStatus} {done : List String}
      (haccounts : v.Accounts base σ) (hclaims : Claims base σ τ done)
      (hv' : v' = ⟨some (base.withStatuses τ), v.dispatched ++ done⟩)

theorem RunStep.effect (hstep : RunStep v v') (h : v.Sound) : RunStep.Effect v v' := by
  cases hstep with
  | idle => exact .idle rfl
  | @saved g ids hnew =>
      rcases h with ⟨-, hnil⟩ | ⟨base, σ, haccounts⟩
      · obtain rfl : ids = [] := hnil
        have hg := Option.some.inj (RunView.accounts_new hnew).graph
        exact .new rfl rfl (.refl g _) hg.symm (by rw [← hg])
      · cases haccounts.graph
  | @started g ids done hnew hdone =>
      rcases h with ⟨-, hnil⟩ | ⟨base, σ, haccounts⟩
      · obtain rfl : ids = [] := hnil
        have hg := Option.some.inj (RunView.accounts_new hnew).graph
        obtain ⟨hgraph, hids⟩ := JoinRun.claimReady_withStatuses g fun _ => .pending
        rw [← hg] at hgraph hids
        rw [hids] at hdone
        rw [hgraph]
        exact .new rfl rfl ((TaskGraph.claims_readyIds g _).of_started hdone) hg.symm rfl
      · cases haccounts.graph
  | @settled g ids done nodeId status hstatus hdone =>
      rcases h with ⟨hnone, -⟩ | ⟨base, σ, haccounts⟩
      · cases hnone
      · obtain rfl := Option.some.inj haccounts.graph
        obtain ⟨τ, hcase⟩ := TaskGraph.planAdvance_spec base σ nodeId hstatus
        rw [hcase.graph_eq]
        exact .moved haccounts ((hcase.claims_nodes hstatus).of_started hdone) rfl

/-- Every step keeps a run sound. -/
theorem RunStep.sound (hstep : RunStep v v') (h : v.Sound) : v'.Sound := by
  cases hstep.effect h with
  | idle hv' => exact hv' ▸ h
  | @new base τ done hnone hnil hclaims hnew hv' =>
      have hbase : RunView.Accounts ⟨some base, []⟩ base fun _ => .pending :=
        ⟨congrArg some hnew.symm, List.nil_subperm, fun _ _ => List.not_mem_nil⟩
      exact .inr ⟨base, τ, hv' ▸ hbase.claims hclaims⟩
  | @moved base σ τ done haccounts hclaims hv' =>
      obtain ⟨graph, dispatched⟩ := v
      obtain rfl : graph = some (base.withStatuses σ) := haccounts.graph
      exact .inr ⟨base, τ, hv' ▸ haccounts.claims hclaims⟩

/-- What a step dispatches is startable afterwards. -/
theorem RunStep.dispatches_startable (hstep : RunStep v v') (h : v.Sound) :
    ∃ done, v'.dispatched = v.dispatched ++ done ∧
      ∀ i ∈ done, ∃ g, v'.graph = some g ∧ g.Startable i := by
  cases hstep.effect h with
  | idle hv' => exact ⟨[], by rw [hv', List.append_nil], List.forall_mem_nil _⟩
  | @new base τ done hnone hnil hclaims hnew hv' =>
      subst hv'
      refine ⟨done, by rw [hnil, List.nil_append], fun i hi => ⟨_, rfl, hclaims.startable i hi⟩⟩
  | @moved base σ τ done haccounts hclaims hv' =>
      subst hv'
      exact ⟨done, rfl, fun i hi => ⟨_, rfl, hclaims.startable i hi⟩⟩

/-- `g'` is the graph `g` with statuses that have moved forward. -/
def TaskGraph.MovesTo (g g' : TaskGraph) : Prop :=
  ∃ τ, g' = g.withStatuses τ ∧ ∀ n ∈ g.allNodes, n.status.stage ≤ (τ n.nodeId).stage

theorem TaskGraph.movesTo_withStatuses (h : ∀ i, (σ i).stage ≤ (τ i).stage) :
    (base.withStatuses σ).MovesTo (base.withStatuses τ) := by
  refine ⟨τ, (base.withStatuses_withStatuses σ τ).symm, fun n hn => ?_⟩
  rw [TaskGraph.allNodes_withStatuses] at hn
  obtain ⟨m, -, rfl⟩ := List.mem_map.1 hn
  exact h m.nodeId

theorem TaskGraph.MovesTo.trans {g g' g'' : TaskGraph} (h : g.MovesTo g') (h' : g'.MovesTo g'') :
    g.MovesTo g'' := by
  obtain ⟨τ, rfl, hforward⟩ := h
  obtain ⟨τ', rfl, hforward'⟩ := h'
  refine ⟨τ', g.withStatuses_withStatuses τ τ', fun n hn => (hforward n hn).trans ?_⟩
  refine hforward' { n with status := τ n.nodeId } ?_
  rw [TaskGraph.allNodes_withStatuses]
  exact List.mem_map_of_mem hn

/-- A graph that is stored stays, with statuses that move forward. -/
theorem RunStep.moves (hstep : RunStep v v') (h : v.Sound) {g : TaskGraph}
    (hstored : v.graph = some g) : ∃ g', v'.graph = some g' ∧ g.MovesTo g' := by
  cases hstep.effect h with
  | idle hv' =>
      rcases h with ⟨hnone, -⟩ | ⟨base, σ, haccounts⟩
      · cases hstored.symm.trans hnone
      · obtain rfl : g = base.withStatuses σ :=
          Option.some.inj (hstored.symm.trans haccounts.graph)
        exact ⟨_, hv' ▸ hstored, TaskGraph.movesTo_withStatuses fun _ => le_rfl⟩
  | new hnone => cases hstored.symm.trans hnone
  | @moved base σ τ done haccounts hclaims hv' =>
      obtain rfl : g = base.withStatuses σ :=
        Option.some.inj (hstored.symm.trans haccounts.graph)
      exact ⟨_, by rw [hv'], TaskGraph.movesTo_withStatuses hclaims.forward⟩

end Steps

end PrismAgent
