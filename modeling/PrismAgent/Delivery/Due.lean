import PrismAgent.Delivery.Owed

/-!
# What becomes due

No call of the handlers makes anything due but what it incurs, and what it settles is not
due any more: one lemma for the calls that write no graph and one for each call that does.
-/

namespace PrismAgent

open Effect
open Function (update update_self update_of_ne)

section Step

/-- Every graph is stored under its own ids, and its nodes with one id agree on their
status. -/
structure Charted (w : World MemoryStateStore) : Prop where
  filed : ∀ key g, w.store.taskGraphs key = some g → (g.workspaceId, g.planId) = key
  uniform : ∀ key g, w.store.taskGraphs key = some g →
    ∃ (base : TaskGraph) (σ : String → SubTaskStatus), g = base.withStatuses σ

/-- A graph is saved before anything was recorded in it, and nodes settle in a terminal
status. -/
def Lawful : Call → Prop
  | .saveTaskGraph graph => ∀ n ∈ graph.allNodes, n.status = .pending
  | .advanceTaskGraph _ _ _ status => status = .completed ∨ status = .failed
  | _ => True

variable {w t : World MemoryStateStore} {g : TaskGraph} {d : Debt}

theorem Charted.of_same (h : Charted w) (hgraphs : t.store.taskGraphs = w.store.taskGraphs) :
    Charted t := by
  constructor
  · rw [hgraphs]
    exact h.filed
  · rw [hgraphs]
    exact h.uniform

theorem Charted.replace (h : Charted w)
    (hgraphs : t.store.taskGraphs = update w.store.taskGraphs (g.workspaceId, g.planId) (some g))
    (hg : ∃ (base : TaskGraph) (σ : String → SubTaskStatus), g = base.withStatuses σ) :
    Charted t := by
  constructor
  · intro key g' hg'
    rw [hgraphs] at hg'
    by_cases hkey : key = (g.workspaceId, g.planId)
    · subst hkey
      rw [update_self] at hg'
      cases hg'
      rfl
    · rw [update_of_ne hkey] at hg'
      exact h.filed key g' hg'
  · intro key g' hg'
    rw [hgraphs] at hg'
    by_cases hkey : key = (g.workspaceId, g.planId)
    · subst hkey
      rw [update_self] at hg'
      cases hg'
      exact hg
    · rw [update_of_ne hkey] at hg'
      exact h.uniform key g' hg'

/-- What is due after another graph is stored was due before, for another run, or the new
graph calls for it. -/
theorem World.Due.of_replace {key : String × String} (hd : t.Due d)
    (hgraphs : t.store.taskGraphs = update w.store.taskGraphs key (some g))
    (hopen : d.Open t → d.Open w) :
    (d.key ≠ key ∧ w.Due d) ∨ (d.key = key ∧ g.CallsFor d ∧ d.Open w) := by
  obtain ⟨⟨g', hg', hcalls⟩, hunsettled⟩ := hd
  rw [hgraphs] at hg'
  by_cases hkey : d.key = key
  · rw [hkey, update_self] at hg'
    cases hg'
    exact .inr ⟨hkey, hcalls, hopen hunsettled⟩
  · rw [update_of_ne hkey] at hg'
    exact .inl ⟨hkey, ⟨g', hg', hcalls⟩, hopen hunsettled⟩

theorem World.Due.of_same (hd : t.Due d) (hgraphs : t.store.taskGraphs = w.store.taskGraphs)
    (hopen : d.Open t → d.Open w) : w.Due d := by
  obtain ⟨⟨g, hg, hcalls⟩, hunsettled⟩ := hd
  exact ⟨⟨g, hgraphs ▸ hg, hcalls⟩, hopen hunsettled⟩

variable (env : Env)

/-- The atomic claim of a stored graph. -/
theorem sem_claimReadyNodes {workspaceId runId : String}
    (hstored : w.store.taskGraphs (workspaceId, runId) = some g) :
    env.sem (.claimReadyNodes workspaceId runId) w =
      (.ok g.claimReady.2,
        { w with store := w.store.saveTaskGraph g.claimReady.1, tick := w.tick + 1 }) := by
  have hget : w.store.getTaskGraph workspaceId runId = some g := hstored
  simp only [Env.sem, StateStore.claimReadyNodes, MemoryStateStore.claimReadyNodes, hget]

/-- Without a stored graph a claim changes nothing. -/
theorem sem_claimReadyNodes_none {workspaceId runId : String}
    (hstored : w.store.taskGraphs (workspaceId, runId) = none) :
    env.sem (.claimReadyNodes workspaceId runId) w = (.ok [], { w with tick := w.tick + 1 }) := by
  have hget : w.store.getTaskGraph workspaceId runId = none := hstored
  simp only [Env.sem, StateStore.claimReadyNodes, MemoryStateStore.claimReadyNodes, hget]

/-- Nor does an advance. -/
theorem sem_advanceTaskGraph_none {workspaceId runId nodeId : String} {status : SubTaskStatus}
    (hstored : w.store.taskGraphs (workspaceId, runId) = none) :
    env.sem (.advanceTaskGraph workspaceId runId nodeId status) w =
      (.ok none, { w with tick := w.tick + 1 }) := by
  have hget : w.store.getTaskGraph workspaceId runId = none := hstored
  simp only [Env.sem, StateStore.advanceTaskGraph, MemoryStateStore.advanceTaskGraph, hget]

theorem sem_charted {call : Call} (hcall : Lawful call) (h : Charted w) :
    Charted (env.sem call w).2 := by
  by_cases hwrites : call.writes = some .taskGraphs
  · cases call with
    | saveTaskGraph graph =>
        refine h.replace (g := graph) rfl ⟨graph, fun _ => .pending, ?_⟩
        exact (withStatuses_pending (fun n hn => hcall n (List.mem_append_left _ hn))
          fun s hs => hcall s (List.mem_append_right _ (Option.mem_toList.2 hs))).symm
    | claimReadyNodes workspaceId runId =>
        cases hstored : w.store.taskGraphs (workspaceId, runId) with
        | none =>
            rw [sem_claimReadyNodes_none env hstored]
            exact h.of_same rfl
        | some g =>
            rw [sem_claimReadyNodes env hstored]
            obtain ⟨base, σ, rfl⟩ := h.uniform _ g hstored
            exact h.replace rfl ⟨base, _, (JoinRun.claimReady_withStatuses base σ).1⟩
    | advanceTaskGraph workspaceId runId nodeId status =>
        cases hstored : w.store.taskGraphs (workspaceId, runId) with
        | none =>
            rw [sem_advanceTaskGraph_none env hstored]
            exact h.of_same rfl
        | some g =>
            rw [SubAgentCoordinator.sem_advanceTaskGraph env w hstored]
            obtain ⟨base, σ, rfl⟩ := h.uniform _ g hstored
            obtain ⟨τ, hcase⟩ := TaskGraph.planAdvance_spec base σ nodeId hcall
            exact h.replace rfl ⟨base, τ, hcase.graph_eq⟩
    | _ => cases hwrites
  · exact h.of_same (sem_same env hwrites)

/-- What is not done stays so as long as nothing is enqueued, saved or reported. -/
theorem Debt.Open.of_same (hd : d.Open t) (hqueue : t.queue = w.queue)
    (hresults : t.store.subAgentResults = w.store.subAgentResults)
    (hsync : t.syncCalls = w.syncCalls) : d.Open w := by
  cases d with
  | claim => trivial
  | task => rwa [Debt.Open, World.taskNodes, ← hqueue]
  | result => rwa [Debt.Open, ← hresults]
  | completion => rwa [Debt.Open, ← hsync]

/-- A call that writes no graph settles what it does, and nothing else becomes due. -/
theorem due_of_announces {call : Call} (hwrites : call.writes ≠ some .taskGraphs)
    (hd : (env.sem call w).2.Due d) : w.Due d ∧ settles call d = false := by
  have hgraphs : (env.sem call w).2.store.taskGraphs = w.store.taskGraphs :=
    sem_same env hwrites
  have hunsettled := hd.unsettled
  cases call with
  | enqueue envelope =>
      cases d with
      | task workspaceId runId nodeId =>
          have hnew : nodeId ∉ (w.queue ++ [envelope]).filterMap
              (World.taskNode? workspaceId runId) := hunsettled
          rw [List.filterMap_append, List.mem_append, not_or] at hnew
          refine ⟨hd.of_same hgraphs fun _ => hnew.1, decide_eq_false fun hnode => hnew.2 ?_⟩
          simp [hnode]
      | _ => exact ⟨hd.of_same hgraphs id, rfl⟩
  | saveSubAgentResult workspaceId runId result =>
      cases d with
      | result workspaceId' runId' nodeId =>
          have hnew : nodeId ∉ Dict.keys (update w.store.subAgentResults (workspaceId, runId)
              (Dict.insert (w.store.subAgentResults (workspaceId, runId)) result.nodeId result)
                (workspaceId', runId')) := hunsettled
          by_cases hkey : (workspaceId', runId') = (workspaceId, runId)
          · rw [hkey, update_self, Dict.mem_keys_insert, not_or] at hnew
            refine ⟨hd.of_same hgraphs fun _ => ?_, decide_eq_false ?_⟩
            · rw [Debt.Open, hkey]
              exact hnew.2
            · rintro ⟨-, -, rfl⟩
              exact hnew.1 rfl
          · rw [update_of_ne hkey] at hnew
            refine ⟨hd.of_same hgraphs fun _ => hnew, decide_eq_false ?_⟩
            rintro ⟨rfl, rfl, -⟩
            exact hkey rfl
      | _ => exact ⟨hd.of_same hgraphs id, rfl⟩
  | sync call =>
      cases d with
      | completion workspaceId runId =>
          have hnew : SyncCall.runCompletedById workspaceId runId ∉ w.syncCalls ++ [call] :=
            hunsettled
          rw [List.mem_append, not_or, List.mem_singleton] at hnew
          refine ⟨hd.of_same hgraphs fun _ => hnew.1, ?_⟩
          cases call with
          | runCompletedById workspaceId' runId' =>
              refine decide_eq_false ?_
              rintro ⟨rfl, rfl⟩
              exact hnew.2 rfl
          | _ => rfl
      | _ => exact ⟨hd.of_same hgraphs id, by cases call <;> rfl⟩
  | saveTaskGraph | claimReadyNodes | advanceTaskGraph => exact absurd rfl hwrites
  | _ => exact ⟨hd.of_same hgraphs fun h => h.of_same rfl rfl rfl, by cases d <;> rfl⟩

/-- A new graph becomes due to be claimed. -/
theorem due_of_saveTaskGraph {graph : TaskGraph} (hcall : Lawful (.saveTaskGraph graph))
    (hd : (env.sem (.saveTaskGraph graph) w).2.Due d) :
    w.Due d ∨ d ∈ incurs w (.saveTaskGraph graph) := by
  have hopen : d.Open (env.sem (.saveTaskGraph graph) w).2 → d.Open w :=
    fun hopen => hopen.of_same rfl rfl rfl
  rcases hd.of_replace rfl hopen with ⟨-, hbefore⟩ | ⟨hkey, hcalls, -⟩
  · exact .inl hbefore
  · obtain ⟨hunclaimed, hclaim⟩ := TaskGraph.unclaimed_of_callsFor hcall hcalls
    rw [hclaim, hkey, incurs, if_pos ⟨hunclaimed.orchestrated, hunclaimed.ready⟩]
    exact .inr (List.mem_singleton_self _)

/-- A claim leaves no claim of the run due, and the task events of what it claims become
due. -/
theorem due_of_claimReadyNodes {workspaceId runId : String} (h : Charted w)
    (hd : (env.sem (.claimReadyNodes workspaceId runId) w).2.Due d) :
    (w.Due d ∧ d ≠ .claim workspaceId runId) ∨
      d ∈ incurs w (.claimReadyNodes workspaceId runId) := by
  cases hstored : w.store.taskGraphs (workspaceId, runId) with
  | none =>
      rw [sem_claimReadyNodes_none env hstored] at hd
      have hbefore : w.Due d := hd.of_same rfl fun h => h.of_same rfl rfl rfl
      refine .inl ⟨hbefore, ?_⟩
      rintro rfl
      obtain ⟨g, hg, -⟩ := hbefore.called
      rw [Debt.key, hstored] at hg
      cases hg
  | some g =>
      rw [sem_claimReadyNodes env hstored] at hd
      obtain ⟨hplan, hworkspace, -⟩ := g.claimReady_filing
      have hkey : (g.claimReady.1.workspaceId, g.claimReady.1.planId) = (workspaceId, runId) := by
        rw [hplan, hworkspace]
        exact h.filed _ g hstored
      obtain ⟨base, σ, rfl⟩ := h.uniform _ g hstored
      rcases hd.of_replace rfl fun h => h.of_same rfl rfl rfl with
        ⟨hother, hbefore⟩ | ⟨hsame, hcalls, hopen⟩
      · refine .inl ⟨hbefore, ?_⟩
        rintro rfl
        exact hother hkey.symm
      · rw [hkey] at hsame
        rcases TaskGraph.callsFor_claimReady hcalls with ⟨hcalled, hclaim⟩ | hclaimed
        · rw [hsame] at hclaim
          exact .inl ⟨⟨⟨_, hsame ▸ hstored, hcalled⟩, hopen⟩, hclaim⟩
        · rw [hsame] at hclaimed
          have hget : w.store.getTaskGraph workspaceId runId = _ := hstored
          rw [incurs, hget]
          exact .inr hclaimed

/-- After an advance what it calls for becomes due. -/
theorem due_of_advanceTaskGraph {workspaceId runId nodeId : String} {status : SubTaskStatus}
    (hcall : Lawful (.advanceTaskGraph workspaceId runId nodeId status)) (h : Charted w)
    (hd : (env.sem (.advanceTaskGraph workspaceId runId nodeId status) w).2.Due d) :
    w.Due d ∨ d ∈ incurs w (.advanceTaskGraph workspaceId runId nodeId status) := by
  cases hstored : w.store.taskGraphs (workspaceId, runId) with
  | none =>
      rw [sem_advanceTaskGraph_none env hstored] at hd
      exact .inl (hd.of_same rfl fun h => h.of_same rfl rfl rfl)
  | some g =>
      rw [SubAgentCoordinator.sem_advanceTaskGraph env w hstored] at hd
      obtain ⟨hplan, hworkspace, -⟩ := g.planAdvance_filing nodeId status
      have hkey : ((g.planAdvance nodeId status).graph.workspaceId,
          (g.planAdvance nodeId status).graph.planId) = (workspaceId, runId) := by
        rw [hplan, hworkspace]
        exact h.filed _ g hstored
      obtain ⟨base, σ, rfl⟩ := h.uniform _ g hstored
      obtain ⟨τ, hcase⟩ := TaskGraph.planAdvance_spec base σ nodeId hcall
      rcases hd.of_replace rfl fun h => h.of_same rfl rfl rfl with
        ⟨-, hbefore⟩ | ⟨hsame, hcalls, hopen⟩
      · exact .inl hbefore
      · rw [hkey] at hsame
        rw [hcase.graph_eq] at hcalls
        rcases hcase.callsFor hcalls with hcalled | hincurred
        · exact .inl ⟨⟨_, hsame ▸ hstored, hcalled⟩, hopen⟩
        · rw [hsame] at hincurred
          have hget : w.store.getTaskGraph workspaceId runId = _ := hstored
          rw [incurs, hget]
          exact .inr hincurred

/-- Nothing becomes due but what a call incurs. -/
theorem sem_due {call : Call} (hcall : Lawful call) (h : Charted w)
    (hd : (env.sem call w).2.Due d) : (w.Due d ∧ settles call d = false) ∨ d ∈ incurs w call := by
  by_cases hwrites : call.writes = some .taskGraphs
  · cases call with
    | saveTaskGraph graph =>
        exact (due_of_saveTaskGraph env hcall hd).imp_left fun hbefore =>
          ⟨hbefore, by cases d <;> rfl⟩
    | claimReadyNodes workspaceId runId =>
        refine (due_of_claimReadyNodes env h hd).imp_left fun hbefore => ⟨hbefore.1, ?_⟩
        cases d with
        | claim workspaceId' runId' =>
            refine decide_eq_false ?_
            rintro ⟨rfl, rfl⟩
            exact hbefore.2 rfl
        | _ => rfl
    | advanceTaskGraph workspaceId runId nodeId status =>
        exact (due_of_advanceTaskGraph env hcall h hd).imp_left fun hbefore =>
          ⟨hbefore, by cases d <;> rfl⟩
    | _ => cases hwrites
  · exact .inl (due_of_announces env hwrites hd)

/-- The calls of the handlers, audited. -/
theorem audited : Program.Audited env.sem graphDebts Lawful Charted World.Due where
  kept _ _ hcall h := sem_charted env hcall h
  due _ _ _ hcall h hd := sem_due env hcall h hd

end Step

end PrismAgent
