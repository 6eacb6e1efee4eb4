import PrismAgent.Dependency.Closure
import PrismAgent.Join.Advance

/-!
# The fault-free join

A fault-free run claims the ready nodes of a fresh graph and then records
COMPLETED for claimed nodes, in any order and with repetitions. `JoinInv` is the
invariant of such runs; `fault_free_join` reads the guarantees of the join off
it: single claims in dependency order, one synthesizer dispatch, one terminal
signal, and its agreement with reachability in dependency order.
-/

namespace PrismAgent

namespace TaskGraph

open Function (update)

/-- A graph as the orchestrator builds it: distinct ids and PENDING nodes. The
status of the synthesizer is left open. -/
structure Fresh (g : TaskGraph) : Prop where
  nodup : (g.nodes.map (·.nodeId)).Nodup
  synthesizer_notMem : ∀ s, g.synthesizerNode = some s → ¬ g.HasNode s.nodeId
  pending : ∀ n ∈ g.nodes, n.status = .pending

/-- The rule of a node: it waits for the ids in its `dependsOn`. -/
def DependencyRule (g : TaskGraph) (id : String) (ds : List String) : Prop :=
  ∃ n ∈ g.nodes, n.nodeId = id ∧ n.dependsOn = ds

/-- `id` is reachable in dependency order from the dependency-free nodes. -/
abbrev DependencyReachable (g : TaskGraph) : String → Prop :=
  Dependency.Reachable g.DependencyRule

end TaskGraph

/-- A join in progress: the stored graph, every node returned by a claim so far,
and every advance so far. -/
structure JoinRun where
  graph : TaskGraph
  claimed : List SubTask
  advances : List TaskGraphAdvance

namespace JoinRun

def start (g : TaskGraph) : JoinRun :=
  { graph := g.claimReady.1, claimed := g.claimReady.2, advances := [] }

/-- The run after one more advance. -/
def push (r : JoinRun) (advance : TaskGraphAdvance) : JoinRun :=
  { graph := advance.graph
    claimed := r.claimed ++ advance.newlyReady
    advances := r.advances ++ [advance] }

/-- Record COMPLETED for `id`. -/
def complete (r : JoinRun) (id : String) : JoinRun :=
  r.push (r.graph.planAdvance id .completed)

/-- The synthesizers returned in `dispatch_synthesizer` so far. -/
def dispatched (r : JoinRun) : List SubTask :=
  r.advances.filterMap (·.dispatchSynthesizer)

/-- The ids of the claimed nodes and of the dispatched synthesizer. -/
def claimedIds (r : JoinRun) : List String :=
  r.claimed.map (·.nodeId) ++ r.dispatched.map (·.nodeId)

/-- How many advances returned `run_completed`. -/
def completions (r : JoinRun) : ℕ :=
  r.advances.countP (·.runCompleted)

/-- How many advances returned `blocked`. -/
def blocks (r : JoinRun) : ℕ :=
  r.advances.countP (·.blocked)

/-- The fault-free runs on `g`: completions name claimed ids only, in any order
and any number of times. -/
inductive Reachable (g : TaskGraph) : JoinRun → Prop
  | start : Reachable g (start g)
  | complete {r : JoinRun} {id : String} (hr : Reachable g r) (hid : id ∈ r.claimedIds) :
      Reachable g (r.complete id)

/-- Every claimed node and the synthesizer, once dispatched, is COMPLETED. -/
def Finished (r : JoinRun) : Prop :=
  ∀ id ∈ r.claimedIds, ∀ n ∈ r.graph.getNode id, n.status = .completed

instance (r : JoinRun) : Decidable r.Finished := by
  unfold Finished
  infer_instance

end JoinRun

namespace TaskGraph

open Function (update)

section Fresh

variable {g : TaskGraph} (hg : g.Fresh)

/-- The statuses of a fresh graph. -/
def freshStatuses (g : TaskGraph) : String → SubTaskStatus := fun id =>
  match g.synthesizerNode with
  | some s => if s.nodeId = id then s.status else .pending
  | none => .pending

include hg

theorem Fresh.freshStatuses_of_hasNode {id : String} (hid : g.HasNode id) :
    g.freshStatuses id = .pending := by
  unfold freshStatuses
  cases hs : g.synthesizerNode with
  | none => rfl
  | some s =>
      refine if_neg ?_
      rintro rfl
      exact hg.synthesizer_notMem s hs hid

theorem Fresh.withStatuses_freshStatuses : g.withStatuses g.freshStatuses = g := by
  have hnodes : (g.nodes.map fun n => { n with status := g.freshStatuses n.nodeId }) =
      g.nodes := by
    refine (List.map_congr_left fun n hn => ?_).trans (List.map_id _)
    have hpending := hg.pending n hn
    rw [hg.freshStatuses_of_hasNode ⟨n, hn, rfl⟩, ← hpending]
    rfl
  have hsynth : (g.synthesizerNode.map fun s =>
      { s with status := g.freshStatuses s.nodeId }) = g.synthesizerNode := by
    cases hs : g.synthesizerNode with
    | none => rfl
    | some s => simp [freshStatuses, hs]
  unfold withStatuses
  rw [hnodes, hsynth]

/-- In a fresh graph an ordinary node is found under its id. -/
theorem Fresh.getNode_eq {σ : String → SubTaskStatus} {n : SubTask} {node : SubTask}
    (hnode : node ∈ g.nodes) (hn : (g.withStatuses σ).getNode node.nodeId = some n) :
    n = { node with status := σ node.nodeId } := by
  unfold getNode at hn
  split at hn
  next found hf =>
    cases hn
    obtain ⟨m, hm, rfl⟩ := List.mem_map.1 (List.mem_of_find?_eq_some hf)
    have hid : m.nodeId = node.nodeId := by simpa using List.find?_some hf
    rw [List.inj_on_of_nodup_map hg.nodup hm hnode hid]
  next hf =>
    have hnone := List.find?_eq_none.1 hf { node with status := σ node.nodeId }
      (List.mem_map_of_mem hnode)
    simp at hnone

theorem Fresh.nodup_readyIds (σ : String → SubTaskStatus) : (g.readyIds σ).Nodup := by
  have hnames : ((g.withStatuses σ).nodes.map (·.nodeId)).Nodup := by
    simpa [withStatuses, Function.comp_def] using hg.nodup
  exact (List.filter_sublist.map _).nodup hnames

end Fresh

/-- Claiming everything that is ready leaves nothing ready: the claimed ids were
PENDING, so no prerequisite became COMPLETED. -/
theorem readyIds_claim (g : TaskGraph) (σ : String → SubTaskStatus) :
    g.readyIds (claim σ (g.readyIds σ)) = [] := by
  refine List.eq_nil_iff_forall_not_mem.2 fun id hid => ?_
  obtain ⟨node, hnode, rfl, hpending, hdeps⟩ := (mem_readyIds g _ id).1 hid
  have hnot : node.nodeId ∉ g.readyIds σ := fun h => by simp [claim, h] at hpending
  refine hnot ((mem_readyIds g σ _).2 ⟨node, hnode, rfl, ?_, fun d hd => ?_⟩)
  · simpa [claim, hnot] using hpending
  · obtain ⟨hmem, hcompleted⟩ := hdeps d hd
    refine ⟨hmem, ?_⟩
    unfold claim at hcompleted
    split at hcompleted
    · cases hcompleted
    · exact hcompleted

theorem claim_eq_pending {σ : String → SubTaskStatus} {ids : List String} {id : String} :
    claim σ ids id = .pending ↔ id ∉ ids ∧ σ id = .pending := by
  unfold claim
  split <;> simp_all

end TaskGraph

namespace JoinRun

open TaskGraph
open Function (update)

section Push

variable (r : JoinRun) (advance : TaskGraphAdvance)

@[simp] theorem push_graph : (r.push advance).graph = advance.graph := rfl

@[simp] theorem push_claimed :
    (r.push advance).claimed = r.claimed ++ advance.newlyReady := rfl

@[simp] theorem push_advances :
    (r.push advance).advances = r.advances ++ [advance] := rfl

@[simp] theorem push_dispatched :
    (r.push advance).dispatched = r.dispatched ++ advance.dispatchSynthesizer.toList := by
  cases h : advance.dispatchSynthesizer <;> simp [dispatched, h]

@[simp] theorem push_completions :
    (r.push advance).completions =
      r.completions + if advance.runCompleted then 1 else 0 := by
  simp [completions, List.countP_append, List.countP_cons]

@[simp] theorem push_blocks :
    (r.push advance).blocks = r.blocks + if advance.blocked then 1 else 0 := by
  simp [blocks, List.countP_append, List.countP_cons]

end Push

/-- The claims of a fault-free run: the claimed ids are the ordinary nodes that
left PENDING, each claimed once and reachable, and nothing more is ready. -/
structure Claims (g : TaskGraph) (σ : String → SubTaskStatus) (r : JoinRun) : Prop where
  graph_eq : r.graph = g.withStatuses σ
  mem_claimed : ∀ id, id ∈ r.claimed.map (·.nodeId) ↔ g.HasNode id ∧ σ id ≠ .pending
  nodup : (r.claimed.map (·.nodeId)).Nodup
  quiet : ∀ node ∈ g.nodes, σ node.nodeId = .pending → ¬ g.Unblocked σ node
  ne_failed : ∀ id, g.HasNode id → σ id ≠ .failed
  sound : ∀ id, g.HasNode id → σ id ≠ .pending → g.DependencyReachable id

/-- The synthesizer in a fault-free run: untouched, or dispatched once after
every node was COMPLETED. -/
inductive Synthesis (g : TaskGraph) (σ : String → SubTaskStatus) (r : JoinRun) : Prop
  | idle (hnone : r.dispatched = [])
      (hstatus : ∀ s, g.synthesizerNode = some s → σ s.nodeId = s.status)
  | dispatched {s : SubTask} (hs : g.synthesizerNode = some s)
      (hids : r.dispatched.map (·.nodeId) = [s.nodeId])
      (hall : ∀ id, g.HasNode id → σ id = .completed)
      (hstatus : σ s.nodeId = .running ∨ σ s.nodeId = .completed)

/-- The terminal signals of a fault-free run: none while a claimed id is still
RUNNING, one once all of them are COMPLETED. -/
structure Signals (g : TaskGraph) (σ : String → SubTaskStatus) (r : JoinRun) : Prop where
  atMostOne : r.completions + r.blocks ≤ 1
  settled : 0 < r.completions + r.blocks → ∀ id ∈ r.claimedIds, σ id = .completed
  completed : 0 < r.completions → ∀ id, g.HasNode id → σ id = .completed
  blocked : 0 < r.blocks → ¬ ∀ id, g.HasNode id → σ id = .completed
  progress : (∀ s, g.synthesizerNode = some s → s.status = .pending) → r.claimed ≠ [] →
    r.completions + r.blocks = 0 → ∃ id ∈ r.claimedIds, σ id = .running

/-- Every claim and dispatch so far was made on a graph that allowed it. -/
structure Justified (r : JoinRun) : Prop where
  claims : ∀ advance ∈ r.advances, ∀ n ∈ advance.newlyReady, ∀ d ∈ n.dependsOn,
    d ∈ advance.graph.completedNodeIds
  dispatches : ∀ advance ∈ r.advances, advance.dispatchSynthesizer ≠ none →
    ∀ n ∈ advance.graph.nodes, n.status = .completed

/-- The invariant of fault-free runs. -/
structure JoinInv (g : TaskGraph) (σ : String → SubTaskStatus) (r : JoinRun) : Prop where
  claims : Claims g σ r
  synthesis : Synthesis g σ r
  signals : Signals g σ r
  justified : Justified r

section Step

variable {g : TaskGraph} {σ : String → SubTaskStatus} {r : JoinRun} {id : String}

/-- An advance that completes a claimed id and claims what became ready keeps
the claim invariant. The other branches are the case that nothing became
ready. -/
theorem Claims.push (hg : g.Fresh) (hc : Claims g σ r) (hid : g.HasNode id)
    (hσ : σ id ≠ .pending) {advance : TaskGraphAdvance} {τ : String → SubTaskStatus}
    (hgraph : advance.graph = g.withStatuses τ)
    (hτ : ∀ i, g.HasNode i →
      τ i = claim (update σ id .completed) (g.readyIds (update σ id .completed)) i)
    (hids : advance.newlyReady.map (·.nodeId) = g.readyIds (update σ id .completed)) :
    Claims g τ (r.push advance) := by
  set σ' := update σ id SubTaskStatus.completed with hσ'
  have hpending : ∀ i, σ' i = .pending ↔ σ i = .pending := by
    intro i
    by_cases h : i = id
    · subst h
      simp [hσ', hσ]
    · simp [hσ', Function.update_of_ne h]
  have hready : ∀ i ∈ g.readyIds σ', g.HasNode i ∧ σ i = .pending := by
    intro i hi
    obtain ⟨node, hnode, rfl, hp, -⟩ := (mem_readyIds g σ' i).1 hi
    exact ⟨⟨node, hnode, rfl⟩, (hpending _).1 hp⟩
  have hsound : ∀ i, g.HasNode i → σ' i ≠ .pending → g.DependencyReachable i :=
    fun i hi hp => hc.sound i hi fun h => hp ((hpending i).2 h)
  refine ⟨by simp [hgraph], fun i => ?_, ?_, fun node hnode hp hdeps => ?_,
    fun i hi => ?_, fun i hi hp => ?_⟩
  · rw [push_claimed, List.map_append, List.mem_append, hids, hc.mem_claimed]
    constructor
    · rintro (⟨hi, hp⟩ | hi)
      · refine ⟨hi, ?_⟩
        rw [hτ i hi, Ne, claim_eq_pending, hpending]
        exact fun h => hp h.2
      · have hnode := (hready i hi).1
        exact ⟨hnode, by simp [hτ i hnode, claim, hi]⟩
    · rintro ⟨hi, hp⟩
      rw [hτ i hi, Ne, claim_eq_pending, hpending, not_and_or, not_not] at hp
      exact hp.symm.imp (fun h => ⟨hi, h⟩) fun h => h
  · rw [push_claimed, List.map_append, hids]
    refine hc.nodup.append (hg.nodup_readyIds σ') fun i hi hr => ?_
    exact ((hc.mem_claimed i).1 hi).2 (hready i hr).2
  · have hnodeMem : g.HasNode node.nodeId := ⟨node, hnode, rfl⟩
    rw [hτ _ hnodeMem] at hp
    have hmem : node.nodeId ∈
        g.readyIds (claim σ' (g.readyIds σ')) := by
      refine (mem_readyIds g _ _).2 ⟨node, hnode, rfl, hp, fun d hd => ?_⟩
      obtain ⟨hd', hcompleted⟩ := hdeps d hd
      exact ⟨hd', by rw [← hτ d hd', hcompleted]⟩
    simp [readyIds_claim] at hmem
  · rw [hτ i hi]
    have hne := hc.ne_failed i hi
    unfold claim
    split
    · simp
    · by_cases h : i = id
      · simp [hσ', h]
      · simpa [hσ', Function.update_of_ne h] using hne
  · rw [hτ i hi, Ne, claim_eq_pending, not_and_or, not_not] at hp
    by_cases hr : i ∈ g.readyIds σ'
    · obtain ⟨node, hnode, rfl, -, hdeps⟩ := (mem_readyIds g σ' i).1 hr
      refine .intro ⟨node, hnode, rfl, rfl⟩ fun d hd => ?_
      obtain ⟨hmem, hcompleted⟩ := hdeps d hd
      exact hsound d hmem (by simp [hcompleted])
    · exact hsound i hi (hp.resolve_left hr)

/-- An advance that changes no ordinary status and claims nothing. -/
theorem Claims.push_of_eq (hc : Claims g σ r) {advance : TaskGraphAdvance}
    {τ : String → SubTaskStatus} (hgraph : advance.graph = g.withStatuses τ)
    (hτ : ∀ i, g.HasNode i → τ i = σ i) (hnewly : advance.newlyReady = []) :
    Claims g τ (r.push advance) := by
  refine ⟨by simp [hgraph], fun i => ?_, by simpa [hnewly] using hc.nodup,
    fun node hnode hp hdeps => ?_, fun i hi => ?_, fun i hi hp => ?_⟩
  · rw [push_claimed, hnewly, List.append_nil, hc.mem_claimed]
    exact and_congr_right fun hi => by rw [hτ i hi]
  · have hnodeMem : g.HasNode node.nodeId := ⟨node, hnode, rfl⟩
    refine hc.quiet node hnode (by rw [← hτ _ hnodeMem, hp]) fun d hd => ?_
    obtain ⟨hd', hcompleted⟩ := hdeps d hd
    exact ⟨hd', by rw [← hτ d hd', hcompleted]⟩
  · rw [hτ i hi]
    exact hc.ne_failed i hi
  · rw [hτ i hi] at hp
    exact hc.sound i hi hp

theorem mem_claimedIds :
    id ∈ r.claimedIds ↔ id ∈ r.claimed.map (·.nodeId) ∨ id ∈ r.dispatched.map (·.nodeId) := by
  simp [claimedIds]

/-- A claimed id is an ordinary node that left PENDING, or the dispatched
synthesizer. -/
theorem JoinInv.claimedId_cases (h : JoinInv g σ r) (hid : id ∈ r.claimedIds) :
    (g.HasNode id ∧ (σ id = .running ∨ σ id = .completed)) ∨
      ∃ s, g.synthesizerNode = some s ∧ s.nodeId = id ∧ r.dispatched.map (·.nodeId) = [id] ∧
        (∀ i, g.HasNode i → σ i = .completed) ∧ (σ id = .running ∨ σ id = .completed) := by
  rcases mem_claimedIds.1 hid with hc | hd
  · obtain ⟨hnode, hp⟩ := (h.claims.mem_claimed id).1 hc
    have hf := h.claims.ne_failed id hnode
    refine .inl ⟨hnode, ?_⟩
    cases hs : σ id <;> simp_all
  · cases h.synthesis with
    | idle hnone => simp [hnone] at hd
    | dispatched hs hids hall hstatus =>
        rw [hids, List.mem_singleton] at hd
        subst hd
        exact .inr ⟨_, hs, rfl, hids, hall, hstatus⟩

/-- While a claimed id is not COMPLETED no terminal signal has been returned. -/
theorem JoinInv.no_signal (h : JoinInv g σ r) (hid : id ∈ r.claimedIds)
    (hrun : σ id ≠ .completed) : r.completions = 0 ∧ r.blocks = 0 := by
  by_contra hne
  exact hrun (h.signals.settled (by omega) id hid)

/-- While an ordinary node is not COMPLETED no synthesizer has been dispatched. -/
theorem JoinInv.not_dispatched (h : JoinInv g σ r) (hid : g.HasNode id)
    (hσ : σ id ≠ .completed) :
    r.dispatched = [] ∧ ∀ s, g.synthesizerNode = some s → σ s.nodeId = s.status := by
  cases h.synthesis with
  | idle hnone hstatus => exact ⟨hnone, hstatus⟩
  | dispatched _ _ hall => exact absurd (hall id hid) hσ

section Signals

variable {advance : TaskGraphAdvance} {τ : String → SubTaskStatus}

theorem Signals.push_silent (hquiet : r.completions = 0 ∧ r.blocks = 0)
    (hcompleted : advance.runCompleted = false) (hblocked : advance.blocked = false)
    (hrunning : (∀ s, g.synthesizerNode = some s → s.status = .pending) →
      ∃ id ∈ (r.push advance).claimedIds, τ id = .running) :
    Signals g τ (r.push advance) := by
  refine ⟨?_, fun h => ?_, fun h => ?_, fun h => ?_, fun hs _ _ => hrunning hs⟩
  all_goals simp [hquiet.1, hquiet.2, hcompleted, hblocked] at *

theorem Signals.push_completed (hquiet : r.completions = 0 ∧ r.blocks = 0)
    (hcompleted : advance.runCompleted = true) (hblocked : advance.blocked = false)
    (hsettled : ∀ id ∈ (r.push advance).claimedIds, τ id = .completed)
    (hall : ∀ id, g.HasNode id → τ id = .completed) :
    Signals g τ (r.push advance) := by
  refine ⟨?_, fun _ => hsettled, fun _ => hall, fun h => ?_, fun _ _ h => ?_⟩
  all_goals simp [hquiet.1, hquiet.2, hcompleted, hblocked] at *

theorem Signals.push_blocked (hquiet : r.completions = 0 ∧ r.blocks = 0)
    (hcompleted : advance.runCompleted = false) (hblocked : advance.blocked = true)
    (hsettled : ∀ id ∈ (r.push advance).claimedIds, τ id = .completed)
    (hall : ¬ ∀ id, g.HasNode id → τ id = .completed) :
    Signals g τ (r.push advance) := by
  refine ⟨?_, fun _ => hsettled, fun h => ?_, fun _ => hall, fun _ _ h => ?_⟩
  all_goals simp [hquiet.1, hquiet.2, hcompleted, hblocked] at *

end Signals

end Step

end JoinRun

end PrismAgent
