import PrismAgent.Join.FaultFree

/-!
# The guarantees of the fault-free join

`JoinInv` holds at the start of a run and every completion of a claimed id keeps
it, one case for each branch of `planAdvance`. `fault_free_join` collects what
the invariant says of a whole run.
-/

namespace PrismAgent

namespace JoinRun

open TaskGraph
open Function (update)

section Start

variable {g : TaskGraph}

theorem claimReady_withStatuses (g : TaskGraph) (σ : String → SubTaskStatus) :
    (g.withStatuses σ).claimReady.1 = g.withStatuses (claim σ (g.readyIds σ)) ∧
      (g.withStatuses σ).claimReady.2.map (·.nodeId) = g.readyIds σ := by
  constructor
  · exact claimAll_withStatuses g σ _
  · simp only [claimReady, claimAll_withStatuses]
    refine filterMap_getNode_nodeId g _ _ fun n hn => .inl ?_
    exact knows_of_mem_readyIds (List.mem_map_of_mem hn)

/-- The statuses after the initial claim. -/
def startStatuses (g : TaskGraph) : String → SubTaskStatus :=
  claim g.freshStatuses (g.readyIds g.freshStatuses)

variable (hg : g.Fresh)

include hg

theorem start_graph : (start g).graph = g.withStatuses (startStatuses g) := by
  have h := (claimReady_withStatuses g g.freshStatuses).1
  rwa [hg.withStatuses_freshStatuses] at h

theorem start_claimed_ids :
    (start g).claimed.map (·.nodeId) = g.readyIds g.freshStatuses := by
  have h := (claimReady_withStatuses g g.freshStatuses).2
  rwa [hg.withStatuses_freshStatuses] at h

theorem startStatuses_of_hasNode {id : String} (hid : g.HasNode id) :
    startStatuses g id = if id ∈ g.readyIds g.freshStatuses then .running else .pending := by
  unfold startStatuses claim
  rw [hg.freshStatuses_of_hasNode hid]

/-- Nothing is COMPLETED in a fresh graph, so the initial claim takes the
dependency-free nodes. -/
theorem dependsOn_eq_nil_of_ready {node : SubTask} (hnode : node ∈ g.nodes)
    (hready : node.nodeId ∈ g.readyIds g.freshStatuses) : node.dependsOn = [] := by
  obtain ⟨m, hm, hid, -, hdeps⟩ := (mem_readyIds g _ _).1 hready
  obtain rfl : m = node := List.inj_on_of_nodup_map hg.nodup hm hnode hid
  refine List.eq_nil_iff_forall_not_mem.2 fun d hd => ?_
  obtain ⟨hmem, hcompleted⟩ := hdeps d hd
  simp [hg.freshStatuses_of_hasNode hmem] at hcompleted

theorem start_claims : Claims g (startStatuses g) (start g) := by
  refine ⟨start_graph hg, fun i => ?_, ?_, fun node hnode hp hdeps => ?_,
    fun i hi => ?_, fun i hi hp => ?_⟩
  · rw [start_claimed_ids hg]
    constructor
    · intro hi
      have hnode := knows_of_mem_readyIds hi
      exact ⟨hnode, by simp [startStatuses_of_hasNode hg hnode, hi]⟩
    · rintro ⟨hi, hp⟩
      by_contra hnot
      exact hp (by simp [startStatuses_of_hasNode hg hi, hnot])
  · rw [start_claimed_ids hg]
    exact hg.nodup_readyIds _
  · have hmem : node.nodeId ∈ g.readyIds (startStatuses g) :=
      (mem_readyIds g _ _).2 ⟨node, hnode, rfl, hp, hdeps⟩
    simp [startStatuses, readyIds_claim] at hmem
  · rw [startStatuses_of_hasNode hg hi]
    split <;> simp
  · obtain ⟨node, hnode, rfl⟩ := hi
    have hready : node.nodeId ∈ g.readyIds g.freshStatuses := by
      by_contra hnot
      exact hp (by simp [startStatuses_of_hasNode hg ⟨node, hnode, rfl⟩, hnot])
    refine .intro ⟨node, hnode, rfl, rfl⟩ fun d hd => ?_
    simp [dependsOn_eq_nil_of_ready hg hnode hready] at hd

theorem start_inv : JoinInv g (startStatuses g) (start g) := by
  refine ⟨start_claims hg, .idle rfl fun s hs => ?_, ?_, ?_⟩
  · have hnot : s.nodeId ∉ g.readyIds g.freshStatuses := fun h =>
      hg.synthesizer_notMem s hs (knows_of_mem_readyIds h)
    simp [startStatuses, claim, hnot, freshStatuses, hs]
  · refine ⟨by simp [start, completions, blocks], ?_, ?_, ?_, fun _ hne _ => ?_⟩
    · simp [start, completions, blocks]
    · simp [start, completions]
    · simp [start, blocks]
    · obtain ⟨n, hn⟩ := List.exists_mem_of_ne_nil _ hne
      have hid : n.nodeId ∈ (start g).claimed.map (·.nodeId) := List.mem_map_of_mem hn
      refine ⟨n.nodeId, mem_claimedIds.2 (.inl hid), ?_⟩
      rw [start_claimed_ids hg] at hid
      rw [startStatuses_of_hasNode hg (knows_of_mem_readyIds hid), if_pos hid]
  · refine ⟨fun advance h => ?_, fun advance h => ?_⟩ <;> simp [start] at h

end Start

section Step

variable {g : TaskGraph} {σ τ : String → SubTaskStatus} {r : JoinRun} {id : String}

theorem Justified.push (hj : Justified r) {advance : TaskGraphAdvance}
    (hclaims : ∀ n ∈ advance.newlyReady, ∀ d ∈ n.dependsOn,
      d ∈ advance.graph.completedNodeIds)
    (hdispatches : advance.dispatchSynthesizer ≠ none →
      ∀ n ∈ advance.graph.nodes, n.status = .completed) :
    Justified (r.push advance) := by
  refine ⟨fun a ha => ?_, fun a ha => ?_⟩
  · rcases List.mem_append.1 ha with ha | ha
    · exact hj.claims a ha
    · rw [List.mem_singleton.1 ha]
      exact hclaims
  · rcases List.mem_append.1 ha with ha | ha
    · exact hj.dispatches a ha
    · rw [List.mem_singleton.1 ha]
      exact hdispatches

/-- An advance without claims or dispatch keeps the dispatch record. -/
theorem Synthesis.push_of_eq (hs : Synthesis g σ r) {advance : TaskGraphAdvance}
    (hnone : advance.dispatchSynthesizer = none)
    (hnodes : (∀ i, g.HasNode i → σ i = .completed) → ∀ i, g.HasNode i → τ i = .completed)
    (hsynth : ∀ s, g.synthesizerNode = some s →
      τ s.nodeId = σ s.nodeId ∨ r.dispatched ≠ [] ∧ τ s.nodeId = .completed) :
    Synthesis g τ (r.push advance) := by
  cases hs with
  | idle hidle hstatus =>
      refine .idle (by simp [hidle, hnone]) fun s h => ?_
      rcases hsynth s h with heq | ⟨hne, -⟩
      · rw [heq, hstatus s h]
      · exact absurd hidle hne
  | dispatched h hids hall hstatus =>
      refine .dispatched h (by simp [hnone, hids]) (hnodes hall) ?_
      rcases hsynth _ h with heq | ⟨-, hcompleted⟩
      · rwa [heq]
      · exact .inr hcompleted

/-- The ids an advance without claims or dispatch leaves claimed. -/
theorem claimedIds_push_of_eq {advance : TaskGraphAdvance} (hnewly : advance.newlyReady = [])
    (hnone : advance.dispatchSynthesizer = none) :
    (r.push advance).claimedIds = r.claimedIds := by
  simp [claimedIds, hnewly, hnone]

/-- An advance that completes an ordinary node and claims nothing. -/
theorem Claims.push_completed (hg : g.Fresh) (hc : Claims g σ r) (hid : g.HasNode id)
    (hσ : σ id ≠ .pending) (hready : g.readyIds (update σ id .completed) = [])
    {advance : TaskGraphAdvance} (hgraph : advance.graph = g.withStatuses τ)
    (hτ : ∀ i, g.HasNode i → τ i = update σ id .completed i)
    (hnewly : advance.newlyReady = []) : Claims g τ (r.push advance) := by
  refine hc.push hg hid hσ hgraph (fun i hi => ?_) (by rw [hnewly, hready, List.map_nil])
  rw [hτ i hi, hready]
  simp [claim]

/-- Every claimed id is COMPLETED once no ordinary node is RUNNING and no
synthesizer was dispatched. -/
theorem JoinInv.settled_of_not_running (h : JoinInv g σ r) (hidle : r.dispatched = [])
    (hτ : ∀ i, g.HasNode i → σ i ≠ .pending → τ i = σ i ∨ τ i = .completed)
    (hrunning : ¬ ∃ i, g.HasNode i ∧ τ i = .running) :
    ∀ i ∈ r.claimedIds, τ i = .completed := by
  intro i hi
  rcases mem_claimedIds.1 hi with hi | hi
  · obtain ⟨hnode, hp⟩ := (h.claims.mem_claimed i).1 hi
    have hf := h.claims.ne_failed i hnode
    have hr : τ i ≠ .running := fun hr => hrunning ⟨i, hnode, hr⟩
    rcases hτ i hnode hp with heq | hcompleted
    · rw [heq] at hr ⊢
      cases hs : σ i <;> simp_all
    · exact hcompleted
  · simp [hidle] at hi

/-- The synthesizer keeps its status when an ordinary node changes. -/
theorem update_synthesizer (hg : g.Fresh) (hid : g.HasNode id) {s : SubTask}
    (hs : g.synthesizerNode = some s) (status : SubTaskStatus) :
    update σ id status s.nodeId = σ s.nodeId := by
  refine Function.update_of_ne ?_ _ _
  rintro rfl
  exact hg.synthesizer_notMem s hs hid

/-- A claimed id has left PENDING. -/
theorem JoinInv.ne_pending (h : JoinInv g σ r) (hid : id ∈ r.claimedIds) :
    σ id ≠ .pending := by
  rcases h.claimedId_cases hid with ⟨-, hs⟩ | ⟨-, -, -, -, -, hs⟩
  all_goals rcases hs with hs | hs <;> simp [hs]

/-- A duplicate completion changes nothing. -/
theorem JoinInv.push_duplicate (h : JoinInv g σ r) :
    JoinInv g σ (r.push { graph := g.withStatuses σ, alreadyProcessed := true }) := by
  refine ⟨h.claims.push_of_eq rfl (fun _ _ => rfl) rfl,
    h.synthesis.push_of_eq rfl (fun hall => hall) fun _ _ => .inl rfl, ?_,
    h.justified.push (by simp) (by simp)⟩
  have hs := h.signals
  refine ⟨?_, ?_, ?_, ?_, fun hsynth hne => ?_⟩
  · simpa using hs.atMostOne
  · rw [claimedIds_push_of_eq rfl rfl]
    simpa using hs.settled
  · simpa using hs.completed
  · simpa using hs.blocked
  · rw [claimedIds_push_of_eq rfl rfl]
    simpa using hs.progress hsynth (by simpa using hne)

/-- The synthesizer's own completion. -/
theorem JoinInv.push_synthesizer (hg : g.Fresh) (h : JoinInv g σ r) (hid : id ∈ r.claimedIds)
    (hsyn : g.isSynthesizer id = true) (hσ : σ id ≠ .completed) :
    JoinInv g (update σ id .completed) (r.push
      { graph := g.withStatuses (update σ id .completed)
        isSynthesizer := true, runCompleted := true }) := by
  obtain ⟨s, hs, rfl⟩ := (isSynthesizer_iff g id).1 hsyn
  have hnot := hg.synthesizer_notMem s hs
  have hsame : ∀ i, g.HasNode i → update σ s.nodeId .completed i = σ i := by
    intro i hi
    refine Function.update_of_ne ?_ _ _
    rintro rfl
    exact hnot hi
  rcases h.claimedId_cases hid with ⟨hnode, -⟩ | ⟨-, -, -, hids, hall, -⟩
  · exact absurd hnode hnot
  have hdispatched : r.dispatched ≠ [] := fun hnil => by simp [hnil] at hids
  refine ⟨h.claims.push_of_eq rfl hsame rfl, ?_, ?_, h.justified.push (by simp) (by simp)⟩
  · refine h.synthesis.push_of_eq rfl (fun hall i hi => by rw [hsame i hi, hall i hi]) ?_
    intro s' hs'
    obtain rfl : s = s' := by simpa [hs] using hs'
    exact .inr ⟨hdispatched, by simp⟩
  · refine .push_completed (h.no_signal hid hσ) rfl rfl (fun i hi => ?_) fun i hi => by
      rw [hsame i hi, hall i hi]
    rw [claimedIds_push_of_eq rfl rfl, mem_claimedIds, hids, List.mem_singleton] at hi
    rcases hi with hi | rfl
    · obtain ⟨hnode, -⟩ := (h.claims.mem_claimed i).1 hi
      rw [hsame i hnode, hall i hnode]
    · simp

/-- A completion that makes nodes ready claims them. -/
theorem JoinInv.push_claims (hg : g.Fresh) (h : JoinInv g σ r) (hid : id ∈ r.claimedIds)
    (hnode : g.HasNode id) (hσ : σ id ≠ .completed) {newly : List SubTask}
    (hready : g.readyIds (update σ id .completed) ≠ [])
    (hids : newly.map (·.nodeId) = g.readyIds (update σ id .completed))
    (hnodes : ∀ n ∈ newly,
      (g.withStatuses (claim (update σ id .completed)
        (g.readyIds (update σ id .completed)))).getNode n.nodeId = some n) :
    JoinInv g (claim (update σ id .completed) (g.readyIds (update σ id .completed)))
      (r.push
        { graph := g.withStatuses (claim (update σ id .completed)
            (g.readyIds (update σ id .completed)))
          newlyReady := newly }) := by
  have hp := h.ne_pending hid
  obtain ⟨hidle, hstatus⟩ := h.not_dispatched hnode hσ
  set σ' := update σ id SubTaskStatus.completed with hσ'
  refine ⟨h.claims.push hg hnode hp rfl (fun i _ => rfl) hids, ?_, ?_,
    h.justified.push (fun n hn d hd => ?_) (by simp)⟩
  · refine .idle (by simp [hidle]) fun s hs => ?_
    have hnot : s.nodeId ∉ g.readyIds σ' := fun hr =>
      hg.synthesizer_notMem s hs (knows_of_mem_readyIds hr)
    rw [claim, if_neg hnot, hσ', update_synthesizer hg hnode hs, hstatus s hs]
  · refine .push_silent (h.no_signal hid hσ) rfl rfl fun _ => ?_
    obtain ⟨i, hi⟩ := List.exists_mem_of_ne_nil _ hready
    refine ⟨i, mem_claimedIds.2 (.inl ?_), by simp [claim, hi]⟩
    rw [push_claimed, List.map_append, hids]
    exact List.mem_append_right _ hi
  · have hn' : n.nodeId ∈ g.readyIds σ' := hids ▸ List.mem_map_of_mem hn
    obtain ⟨node, hmem, heq, -, hdeps⟩ := (mem_readyIds g σ' _).1 hn'
    rw [← heq] at hn'
    obtain rfl := hg.getNode_eq hmem (heq ▸ hnodes n hn)
    obtain ⟨hd', hcompleted⟩ := hdeps d hd
    refine (mem_completedNodeIds_withStatuses g _ d).2 ⟨hd', ?_⟩
    have hnot : d ∉ g.readyIds σ' := fun hr => by
      obtain ⟨-, -, -, hpending, -⟩ := (mem_readyIds g σ' d).1 hr
      simp [hcompleted] at hpending
    simpa [claim, hnot] using hcompleted

/-- A completion after which every node is COMPLETED dispatches a PENDING
synthesizer. -/
theorem JoinInv.push_dispatch (hg : g.Fresh) (h : JoinInv g σ r) (hid : id ∈ r.claimedIds)
    (hnode : g.HasNode id) (hσ : σ id ≠ .completed) {s : SubTask}
    (hready : g.readyIds (update σ id .completed) = [])
    (hall : ∀ i, g.HasNode i → update σ id .completed i = .completed)
    (hs : g.synthesizerNode = some s) :
    JoinInv g (update (update σ id .completed) s.nodeId .running) (r.push
      { graph := g.withStatuses (update (update σ id .completed) s.nodeId .running)
        dispatchSynthesizer := some { s with status := .running } }) := by
  have hp := h.ne_pending hid
  obtain ⟨hidle, -⟩ := h.not_dispatched hnode hσ
  set σ' := update σ id SubTaskStatus.completed with hσ'
  have hsame : ∀ i, g.HasNode i → update σ' s.nodeId .running i = σ' i := by
    intro i hi
    refine Function.update_of_ne ?_ _ _
    rintro rfl
    exact hg.synthesizer_notMem s hs hi
  have hdone : ∀ i, g.HasNode i → update σ' s.nodeId .running i = .completed :=
    fun i hi => by rw [hsame i hi, hall i hi]
  refine ⟨h.claims.push_completed hg hnode hp hready rfl hsame rfl, ?_, ?_,
    h.justified.push (by simp) fun _ n hn => ?_⟩
  · exact .dispatched hs (by simp [hidle]) hdone (.inl (by simp))
  · refine .push_silent (h.no_signal hid hσ) rfl rfl fun _ => ?_
    exact ⟨s.nodeId, mem_claimedIds.2 (.inr (by simp)), by simp⟩
  · obtain ⟨m, hm, rfl⟩ := List.mem_map.1 hn
    exact hdone m.nodeId ⟨m, hm, rfl⟩

/-- A completion that neither claims nor dispatches, whatever it signals. -/
theorem JoinInv.push_plain (hg : g.Fresh) (h : JoinInv g σ r) (hid : id ∈ r.claimedIds)
    (hnode : g.HasNode id) (hσ : σ id ≠ .completed)
    (hready : g.readyIds (update σ id .completed) = []) {advance : TaskGraphAdvance}
    (hgraph : advance.graph = g.withStatuses (update σ id .completed))
    (hnewly : advance.newlyReady = []) (hnone : advance.dispatchSynthesizer = none)
    (hsignals : Signals g (update σ id .completed) (r.push advance)) :
    JoinInv g (update σ id .completed) (r.push advance) := by
  have hp := h.ne_pending hid
  refine ⟨h.claims.push_completed hg hnode hp hready hgraph (fun _ _ => rfl) hnewly, ?_,
    hsignals, h.justified.push (by simp [hnewly]) (by simp [hnone])⟩
  refine h.synthesis.push_of_eq hnone (fun hall i hi => ?_) fun s hs =>
    .inl (update_synthesizer hg hnode hs _)
  exact absurd (hall id hnode) hσ

/-- One completion of a claimed id keeps the invariant. -/
theorem JoinInv.complete (hg : g.Fresh) (h : JoinInv g σ r) (hid : id ∈ r.claimedIds) :
    ∃ τ, JoinInv g τ (r.complete id) := by
  unfold JoinRun.complete
  rw [h.claims.graph_eq]
  obtain ⟨τ, hcase⟩ := planAdvance_spec g σ id (.inl rfl)
  refine ⟨τ, ?_⟩
  generalize (g.withStatuses σ).planAdvance id .completed = advance at hcase
  have hknown := h.claimedId_cases hid
  cases hcase with
  | unknown hunknown =>
      rcases hknown with ⟨hnode, -⟩ | ⟨s, hs, rfl, -⟩
      · exact absurd (.inl hnode) hunknown
      · exact absurd (.inr ((isSynthesizer_iff g _).2 ⟨s, hs, rfl⟩)) hunknown
  | duplicate _ _ => exact h.push_duplicate
  | synthesizer hsyn hσ => exact h.push_synthesizer hg hid hsyn hσ
  | claims hnode hsyn hσ hready hids hnodes =>
      exact h.push_claims hg hid hnode hσ hready hids hnodes
  | dispatch hnode hsyn hσ hready hall hs hpending =>
      exact h.push_dispatch hg hid hnode hσ hready hall hs
  | stalled hnode hsyn hσ hready hall hs hpending hcompleted =>
      refine h.push_plain hg hid hnode hσ hready rfl rfl rfl ?_
      refine .push_silent (h.no_signal hid hσ) rfl rfl fun hsynth => ?_
      have hstatus := (h.not_dispatched hnode hσ).2 _ hs
      exact absurd (hstatus.trans (hsynth _ hs)) hpending
  | joined hnode hsyn hσ hready hall hs =>
      refine h.push_plain hg hid hnode hσ hready rfl rfl rfl ?_
      refine .push_completed (h.no_signal hid hσ) rfl rfl ?_ hall
      rw [claimedIds_push_of_eq rfl rfl]
      refine h.settled_of_not_running (h.not_dispatched hnode hσ).1
        (fun i hi _ => .inr (hall i hi)) ?_
      rintro ⟨i, hi, hr⟩
      simp [hall i hi] at hr
  | waiting hnode hsyn hσ hready hall hrunning =>
      refine h.push_plain hg hid hnode hσ hready rfl rfl rfl ?_
      refine .push_silent (h.no_signal hid hσ) rfl rfl fun _ => ?_
      obtain ⟨i, hi, hr⟩ := hrunning
      refine ⟨i, mem_claimedIds.2 (.inl ?_), hr⟩
      have hne : i ≠ id := by
        rintro rfl
        simp at hr
      rw [Function.update_of_ne hne] at hr
      rw [push_claimed, List.append_nil]
      exact (h.claims.mem_claimed i).2 ⟨hi, by simp [hr]⟩
  | blocked hnode hsyn hσ hready hall hrunning =>
      refine h.push_plain hg hid hnode hσ hready rfl rfl rfl ?_
      refine .push_blocked (h.no_signal hid hσ) rfl rfl ?_ hall
      rw [claimedIds_push_of_eq rfl rfl]
      refine h.settled_of_not_running (h.not_dispatched hnode hσ).1 (fun i _ _ => ?_) hrunning
      by_cases hi : i = id
      · simp [hi]
      · exact .inl (Function.update_of_ne hi _ _)

end Step

section Runs

variable {g : TaskGraph} {r : JoinRun}

/-- Every fault-free run has the invariant. -/
theorem Reachable.inv (hg : g.Fresh) (hr : Reachable g r) : ∃ σ, JoinInv g σ r := by
  induction hr with
  | start => exact ⟨_, start_inv hg⟩
  | complete _ hid ih =>
      obtain ⟨σ, h⟩ := ih
      exact h.complete hg hid

theorem Reachable.exists_claimed (hr : Reachable g r) : ∃ l, r.claimed = g.claimReady.2 ++ l := by
  induction hr with
  | start => exact ⟨[], by simp [JoinRun.start]⟩
  | complete _ _ ih =>
      obtain ⟨l, hl⟩ := ih
      exact ⟨_, by rw [JoinRun.complete, push_claimed, hl, List.append_assoc]⟩

/-- In a finished run every claimed id is COMPLETED. -/
theorem JoinInv.completed_of_finished {σ : String → SubTaskStatus} (h : JoinInv g σ r)
    (hfin : r.Finished) {id : String} (hid : id ∈ r.claimedIds) : σ id = .completed := by
  have hknows : g.Knows id := by
    rcases h.claimedId_cases hid with ⟨hnode, -⟩ | ⟨s, hs, rfl, -⟩
    · exact .inl hnode
    · exact .inr ((isSynthesizer_iff g _).2 ⟨s, hs, rfl⟩)
  cases hn : (g.withStatuses σ).getNode id with
  | none => exact absurd hknows ((getNode_withStatuses_eq_none g σ id).1 hn)
  | some n =>
      rw [← (getNode_withStatuses_eq_some g σ hn).2]
      exact hfin id hid n (h.claims.graph_eq ▸ hn)

/-- In a finished run the COMPLETED nodes are the ones reachable in dependency
order. -/
theorem JoinInv.completed_iff_reachable {σ : String → SubTaskStatus}
    (h : JoinInv g σ r) (hfin : r.Finished) (id : String) :
    (g.HasNode id ∧ σ id = .completed) ↔ g.DependencyReachable id := by
  refine Dependency.exhausted_iff (s := fun i => g.HasNode i ∧ σ i = .completed)
    (fun i hi => h.claims.sound i hi.1 (by simp [hi.2])) ?_ id
  rintro _ _ ⟨n, hn, rfl, rfl⟩ hdeps
  refine ⟨⟨n, hn, rfl⟩, h.completed_of_finished hfin (mem_claimedIds.2 (.inl ?_))⟩
  exact (h.claims.mem_claimed _).2 ⟨⟨n, hn, rfl⟩, fun hp => h.claims.quiet n hn hp hdeps⟩

/-- The fault-free join. In every run on a graph with distinct ids and PENDING
nodes: each node is claimed at most once and only after its prerequisites are
COMPLETED; the synthesizer is dispatched at most once and only after every node
is COMPLETED; at most one advance signals `run_completed` or `blocked`; and, if
the initial claim took a node, a run in which everything claimed has completed
has signalled exactly one of the two, `run_completed` exactly when every node is
reachable in dependency order. -/
theorem fault_free_join (g : TaskGraph) (hg : g.Fresh) (r : JoinRun) (hr : Reachable g r) :
    ((r.claimed.map (·.nodeId)).Nodup ∧
      (∀ n ∈ g.claimReady.2, ∀ d ∈ n.dependsOn, d ∈ g.claimReady.1.completedNodeIds) ∧
      ∀ advance ∈ r.advances, ∀ n ∈ advance.newlyReady, ∀ d ∈ n.dependsOn,
        d ∈ advance.graph.completedNodeIds) ∧
    (r.dispatched.length ≤ 1 ∧
      ∀ advance ∈ r.advances, advance.dispatchSynthesizer ≠ none →
        ∀ n ∈ advance.graph.nodes, n.status = .completed) ∧
    r.completions + r.blocks ≤ 1 ∧
    ((∀ s, g.synthesizerNode = some s → s.status = .pending) → g.claimReady.2 ≠ [] →
      r.Finished →
        r.completions + r.blocks = 1 ∧
        (r.completions = 1 ↔ ∀ n ∈ g.nodes, g.DependencyReachable n.nodeId)) := by
  obtain ⟨σ, h⟩ := hr.inv hg
  refine ⟨⟨h.claims.nodup, ?_, h.justified.claims⟩, ⟨?_, h.justified.dispatches⟩,
    h.signals.atMostOne, fun hsynth hne hfin => ?_⟩
  · intro n hn d hd
    have hid : n.nodeId ∈ (start g).claimed.map (·.nodeId) := List.mem_map_of_mem hn
    rw [start_claimed_ids hg] at hid
    obtain ⟨node, hnode, heq, -⟩ := (mem_readyIds g _ _).1 hid
    have hget : g.claimReady.1.getNode n.nodeId = some n := mem_filterMap_getNode hn
    rw [show g.claimReady.1 = g.withStatuses (startStatuses g) from start_graph hg] at hget
    have hn' := hg.getNode_eq hnode (heq ▸ hget)
    rw [hn'] at hd
    simp [dependsOn_eq_nil_of_ready hg hnode (heq ▸ hid)] at hd
  · cases h.synthesis with
    | idle hnone => simp [hnone]
    | dispatched _ hids =>
        rw [← List.length_map (f := fun n : SubTask => n.nodeId), hids]
        rfl
  · have hclaimed : r.claimed ≠ [] := by
      obtain ⟨l, hl⟩ := hr.exists_claimed
      simp [hl, hne]
    have hone : r.completions + r.blocks = 1 := by
      have hle := h.signals.atMostOne
      by_contra hcount
      obtain ⟨id, hid, hrun⟩ := h.signals.progress hsynth hclaimed (by omega)
      simp [h.completed_of_finished hfin hid] at hrun
    refine ⟨hone, fun hc n hn => ?_, fun hall => ?_⟩
    · have hdone := h.signals.completed (by omega) n.nodeId ⟨n, hn, rfl⟩
      exact (h.completed_iff_reachable hfin n.nodeId).1 ⟨⟨n, hn, rfl⟩, hdone⟩
    · by_contra hc
      refine h.signals.blocked (by omega) ?_
      rintro _ ⟨n, hn, rfl⟩
      exact ((h.completed_iff_reachable hfin n.nodeId).2 (hall n hn)).2

/-- A join of two nodes into a synthesizer. -/
def sampleGraph : TaskGraph :=
  { planId := "run", workspaceId := "ws"
    nodes := [{ nodeId := "a" }, { nodeId := "b", dependsOn := ["a"] }]
    synthesizerNode := some { nodeId := "synthesizer" } }

theorem sampleGraph_fresh : sampleGraph.Fresh where
  nodup := by decide
  synthesizer_notMem := by
    rintro _ ⟨⟩ ⟨n, hn, hid⟩
    revert n
    decide
  pending := by decide

/-- The run that completes `a`, then `b`, then the synthesizer. -/
theorem fault_free_join_sample :
    let r := (((start sampleGraph).complete "a").complete "b").complete "synthesizer"
    r.completions + r.blocks = 1 := by
  intro r
  have hr : Reachable sampleGraph r :=
    .complete (.complete (.complete .start (by decide)) (by decide)) (by decide)
  exact ((fault_free_join sampleGraph sampleGraph_fresh r hr).2.2.2 (by simp [sampleGraph])
    (by decide) (by decide)).1

end Runs

end JoinRun

end PrismAgent
