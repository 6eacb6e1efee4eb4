import PrismAgent.RunIdentity.Identity

/-!
# The run id over whole runs

Everything that a run stores and enqueues belongs to the run of its seed, up to the
delivery of a replan event that names another run. Hence a run accounts all its events
to the seed's run if and only if it keeps all of them.
-/

namespace PrismAgent

open Effect
open ActionEventHandler (TerminalEvent)

/-- Plans, graphs, snapshots and events belong to the run of the seed. -/
structure Lineal (seed : EventEnvelope) (w : World MemoryStateStore) : Prop where
  plans : ∀ key plan, w.store.plans key = some plan → PlanOfRun seed plan
  graphs : ∀ key g, w.store.taskGraphs key = some g → g.planId = runIdOf seed
  snapshots : ∀ key snapshot, w.store.contextSnapshots key = some snapshot →
    SourceOfRun seed snapshot.context.sourceEvent
  queue : ∀ e ∈ w.queue, DerivedFrom seed e ∨ TerminalEvent e

section Lineal

variable (env : Env) {seed : EventEnvelope} {w : World MemoryStateStore}

/-- An entry of an updated table is the new one or was there before. -/
theorem forall_update {K V : Type} [DecidableEq K] {table : K → Option V} {P : K → V → Prop}
    {key : K} {value : V} (h : ∀ key v, table key = some v → P key v) (hvalue : P key value) :
    ∀ key' v, Function.update table key (some value) key' = some v → P key' v := by
  intro key' v hv
  by_cases hkey : key' = key
  · subst hkey
    rw [Function.update_self] at hv
    exact Option.some.inj hv ▸ hvalue
  · rw [Function.update_of_ne hkey] at hv
    exact h key' v hv

/-- A call that respects the lineage is answered from the run and keeps it. -/
theorem sem_lineal {call : Call} (hcall : (lineage seed).calls call) (h : Lineal seed w) :
    (lineage seed).answers call (env.sem call w).1 ∧ Lineal seed (env.sem call w).2 := by
  have hframe : call.writesIn [.subAgentResults, .actionResults, .traces, .idempotencyKeys,
      .syncCalls, .executions] = true → Lineal seed (env.sem call w).2 := by
    intro hwrites
    have hsame : ∀ part ∈ [Part.plans, .taskGraphs, .contextSnapshots, .queue],
        part.Same w (env.sem call w).2 := by
      intro part hpart
      refine sem_same env fun heq => ?_
      unfold Call.writesIn at hwrites
      rw [heq] at hwrites
      cases part
      all_goals first | exact absurd hwrites (by decide) | exact absurd hpart (by decide)
    obtain ⟨hplans, -⟩ := hsame .plans (by decide)
    have hgraphs : _ = _ := hsame .taskGraphs (by decide)
    have hsnapshots : _ = _ := hsame .contextSnapshots (by decide)
    have hqueue : _ = _ := hsame .queue (by decide)
    constructor
    · rw [hplans]
      exact h.plans
    · rw [hgraphs]
      exact h.graphs
    · rw [hsnapshots]
      exact h.snapshots
    · rw [hqueue]
      exact h.queue
  cases call with
  | savePlan plan =>
      exact ⟨trivial, forall_update h.plans hcall, h.graphs, h.snapshots, h.queue⟩
  | updatePlan plan =>
      exact ⟨trivial, forall_update h.plans hcall, h.graphs, h.snapshots, h.queue⟩
  | saveTaskGraph graph =>
      exact ⟨trivial, h.plans, forall_update h.graphs hcall, h.snapshots, h.queue⟩
  | saveContextSnapshot snapshot =>
      exact ⟨trivial, h.plans, h.graphs, forall_update h.snapshots hcall, h.queue⟩
  | enqueue e =>
      refine ⟨trivial, h.plans, h.graphs, h.snapshots, fun e' he' => ?_⟩
      rcases List.mem_append.1 he' with he' | he'
      · exact h.queue e' he'
      · rw [List.mem_singleton.1 he']
        exact hcall
  | claimReadyNodes workspaceId runId =>
      refine ⟨trivial, ?_⟩
      simp only [Env.sem, StateStore.claimReadyNodes, MemoryStateStore.claimReadyNodes]
      cases hstored : w.store.getTaskGraph workspaceId runId with
      | none => exact ⟨h.plans, h.graphs, h.snapshots, h.queue⟩
      | some g =>
          have hg := (g.claimReady_filing).1.trans (h.graphs _ g hstored)
          exact ⟨h.plans, forall_update h.graphs hg, h.snapshots, h.queue⟩
  | advanceTaskGraph workspaceId runId nodeId status =>
      simp only [Env.sem, StateStore.advanceTaskGraph, MemoryStateStore.advanceTaskGraph]
      cases hstored : w.store.getTaskGraph workspaceId runId with
      | none => exact ⟨trivial, h.plans, h.graphs, h.snapshots, h.queue⟩
      | some g =>
          have hg := (g.planAdvance_filing nodeId status).1.trans (h.graphs _ g hstored)
          exact ⟨hg, h.plans, forall_update h.graphs hg, h.snapshots, h.queue⟩
  | getPlan workspaceId planId =>
      refine ⟨?_, hframe rfl⟩
      change (lineage seed).answers (.getPlan workspaceId planId)
        (.ok (w.store.plans (workspaceId, planId)))
      cases hstored : w.store.plans (workspaceId, planId) with
      | none => trivial
      | some plan => exact h.plans _ plan hstored
  | getTaskGraph workspaceId planId =>
      refine ⟨?_, hframe rfl⟩
      change (lineage seed).answers (.getTaskGraph workspaceId planId)
        (.ok (w.store.taskGraphs (workspaceId, planId)))
      cases hstored : w.store.taskGraphs (workspaceId, planId) with
      | none => trivial
      | some g => exact h.graphs _ g hstored
  | getContextSnapshot workspaceId snapshotRef =>
      refine ⟨?_, hframe rfl⟩
      change (lineage seed).answers (.getContextSnapshot workspaceId snapshotRef)
        (.ok (w.store.contextSnapshots (workspaceId, snapshotRef)))
      cases hstored : w.store.contextSnapshots (workspaceId, snapshotRef) with
      | none => trivial
      | some snapshot => exact h.snapshots _ snapshot hstored
  | executeOne plan action context =>
      refine ⟨?_, hframe rfl⟩
      change (lineage seed).answers (.executeOne plan action context)
        (env.runTool w.tick action context)
      unfold Env.runTool
      split
      · trivial
      · cases hresult : env.execute w.tick action context with
        | error x => trivial
        | ok result =>
            intro e he
            exact env.emitted_terminal _ _ _ _ hresult e he
  | _ => exact ⟨trivial, hframe rfl⟩

/-- A delivery of an event of the run keeps the lineage. -/
theorem deliver_lineal {message : Message} (h : Lineal seed w)
    (hmessage : SourceOfRun seed message.envelope ∨
      (DerivedFrom seed message.envelope ∧ message.envelope.event.planId? ≠ none) ∨
        TerminalEvent message.envelope) :
    Lineal seed (deliver env w message) := by
  have hwp : (RecursionRunner.dispatch env.registries message).wp env.sem.step
      (fun r t => Lineal seed t ∧ ∀ a, r = .ok a → True) w := by
    apply Program.wp_of_respects _ (RecursionRunner.dispatch_lineage env.registries hmessage) h
    intro s call r t hcall hstep hs
    rw [Semantics.step] at hstep
    obtain ⟨rfl, rfl⟩ := Prod.mk.inj hstep
    exact sem_lineal env hcall hs
  rw [Program.wp_step_iff] at hwp
  exact hwp.1

/-- What has been enqueued stays enqueued. -/
theorem mem_queue_deliver {e : EventEnvelope} (message : Message) (he : e ∈ w.queue) :
    e ∈ (deliver env w message).queue := by
  have hwp : (RecursionRunner.dispatch env.registries message).wp env.sem.step
      (fun _ t => e ∈ t.queue) w := by
    refine Program.wp_of_onlyCalls (I := fun t : World MemoryStateStore => e ∈ t.queue) ?_
      (Program.onlyCalls_true _) he
    intro s call r t _ hstep hs
    have ht : t = (env.sem call s).2 := congrArg Prod.snd hstep
    rw [ht]
    by_cases hqueue : call.writes = some .queue
    · cases call with
      | enqueue e' => exact List.mem_append_left _ hs
      | _ => cases hqueue
    · have hsame : (env.sem call s).2.queue = s.queue := sem_same env (w := s) hqueue
      rw [hsame]
      exact hs
  rw [Program.wp_step_iff] at hwp
  exact hwp

/-- The run has gone over to another run: a replan event that names it is enqueued. -/
def Strayed (seed : EventEnvelope) (w : World MemoryStateStore) : Prop :=
  ∃ e ∈ w.queue, ¬ TerminalEvent e ∧ ¬ Identifies (runIdOf seed) e ∧ ¬ Kept seed e.event

/-- The seed is a source of its run, and so is a replan event of a stable run. -/
theorem deliver_keeps {message : Message} (hseed : seed.event.planId? = none)
    (h : Lineal seed w ∨ Strayed seed w)
    (hmessage : message.envelope = seed ∨ message.envelope ∈ w.queue) :
    Lineal seed (deliver env w message) ∨ Strayed seed (deliver env w message) := by
  rcases h with h | ⟨e, he, hstrayed⟩
  · rcases hmessage with hmessage | hmessage
    · refine .inl (deliver_lineal env h (.inl ?_))
      rw [hmessage]
      exact sourceOfRun_seed hseed
    · by_cases hterminal : TerminalEvent message.envelope
      · exact .inl (deliver_lineal env h (.inr (.inr hterminal)))
      · have hderived := (h.queue _ hmessage).resolve_right hterminal
        by_cases hplan : message.envelope.event.planId? = none
        · rcases hderived.source_or_strays hplan with hsource | hstrays
          · exact .inl (deliver_lineal env h (.inl hsource))
          · exact .inr ⟨_, mem_queue_deliver env message hmessage, hterminal, hstrays⟩
        · exact .inl (deliver_lineal env h (.inr (.inl ⟨hderived, hplan⟩)))
  · exact .inr ⟨e, mem_queue_deliver env message he, hstrayed⟩

theorem deliverAll_keeps {messages : List Message} (hseed : seed.event.planId? = none)
    (h : Lineal seed w ∨ Strayed seed w) (hdrawn : Drawn env seed w messages) :
    Lineal seed (deliverAll env w messages) ∨ Strayed seed (deliverAll env w messages) := by
  induction messages generalizing w with
  | nil => exact h
  | cons message messages ih => exact ih (deliver_keeps env hseed h hdrawn.1) hdrawn.2

/-- A run accounts every event that its handlers derive to the run of the seed, and
replans under it, if and only if it keeps every one of them. -/
theorem one_run_identity {messages : List Message} (hseed : seed.event.planId? = none)
    (hdrawn : Drawn env seed { store := {} } messages) :
    (∀ e ∈ (deliverAll env { store := ({} : MemoryStateStore) } messages).queue,
      ¬ TerminalEvent e → Identifies (runIdOf seed) e) ↔
    ∀ e ∈ (deliverAll env { store := ({} : MemoryStateStore) } messages).queue,
      ¬ TerminalEvent e → Kept seed e.event := by
  have hempty : Lineal seed ({ store := {} } : World MemoryStateStore) := by
    constructor
    · rintro key plan ⟨⟩
    · rintro key g ⟨⟩
    · rintro key snapshot ⟨⟩
    · rintro e ⟨⟩
  rcases deliverAll_keeps env hseed (.inl hempty) hdrawn with h | ⟨e, he, hnew, hnot, hlost⟩
  · refine forall_congr' fun e => forall_congr' fun he => forall_congr' fun hnew => ?_
    exact identifies_iff ((h.queue e he).resolve_right hnew)
  · constructor
    · exact fun h => absurd (h e he hnew) hnot
    · exact fun h => absurd (h e he hnew) hlost

end Lineal

/-- An environment in which an entity has changed since its version was captured. -/
def staleEnv : Env :=
  { sampleEnv with
    entityVersions := fun _ _ _ => [("item", .text "1")]
    currentEntityVersions := fun _ _ _ _ => [("item", .text "2")] }

/-- The replan event of the stale action. -/
def staleReplan : EventEnvelope :=
  (deliverAll staleEnv { store := ({} : MemoryStateStore) }
    [{ envelope := sampleSeed }, { envelope := sampleRequested }]).queue.getLastD sampleSeed

def staleMessages : List Message :=
  [{ envelope := sampleSeed }, { envelope := sampleRequested }, { envelope := staleReplan }]

/-- A run that is planned again accounts the events of both plans and the replan event in
between to the run of its seed. -/
theorem one_run_identity_sample :
    ((deliverAll staleEnv { store := ({} : MemoryStateStore) } staleMessages).queue.map
        (·.event.kind)) = [.agentAction "run" "a", .domain, .agentAction "run" "a"] ∧
      ∀ e ∈ (deliverAll staleEnv { store := ({} : MemoryStateStore) } staleMessages).queue,
        ¬ TerminalEvent e → Identifies (runIdOf sampleSeed) e := by
  have hkinds : ((deliverAll staleEnv { store := ({} : MemoryStateStore) } staleMessages).queue.map
      (·.event.kind)) = [.agentAction "run" "a", .domain, .agentAction "run" "a"] := by
    decide +kernel
  have hdrawn : Drawn staleEnv sampleSeed { store := {} } staleMessages :=
    ⟨.inl rfl, .inr (.head _), List.mem_cons.1 List.getLastD_mem_cons, trivial⟩
  have hrun : runIdOf sampleSeed = "run" := by decide
  have haction : ∀ nodeId, "run" ≠ SubAgentRunner.subPlanId (runIdOf sampleSeed) nodeId :=
    fun nodeId => hrun ▸ runId_ne_subPlanId _ _
  have hstable : Stable sampleSeed := by
    rw [Stable, hrun]
    decide
  refine ⟨hkinds, (one_run_identity staleEnv rfl hdrawn).2 fun e he _ => ?_⟩
  have hkind := List.mem_map_of_mem (f := (·.event.kind)) he
  rw [hkinds] at hkind
  simp only [List.mem_cons, List.not_mem_nil, or_false] at hkind
  unfold Kept
  rcases hkind with hkind | hkind | hkind <;> rw [hkind]
  · exact haction
  · exact hstable
  · exact haction

/-- The sample workflow with one subagent node. -/
def orchestratedWorkflow : WorkflowDefinition :=
  { sampleWorkflow with
    orchestration := some { defaultGraph := [{ node := "node", skill := some "skill" }] } }

def orchestratedRegistries : Registries :=
  { sampleRegistries with
    workflows :=
      { byId := [("workflow", orchestratedWorkflow)]
        byTrigger := [("domain.story.created", orchestratedWorkflow)] } }

def orchestratedEnv : Env := Env.sample orchestratedRegistries sampleProposal

/-- The seed of an orchestrated run whose id is its correlation. -/
def correlatedSeed : EventEnvelope :=
  .wrap
    { kind := .domain
      eventId := "event"
      eventType := "story.created"
      workspaceId := "ws"
      correlationId := some "run" }

/-- The task event that dispatches its node. -/
def nodeTask : EventEnvelope :=
  .wrap (subAgentTaskEvent "10" "ws" none "run" "node" (some "run")
    (correlatedSeed.event.causality.child "event"))

/-- The action event of a sub-plan is accounted to the sub-plan's id. -/
theorem subplan_action_strays :
    ¬ ∀ (env : Env) (seed : EventEnvelope) (messages : List Message),
      seed.event.planId? = none → Drawn env seed { store := {} } messages →
        ∀ e ∈ (deliverAll env { store := ({} : MemoryStateStore) } messages).queue,
          ¬ TerminalEvent e → Identifies (runIdOf seed) e := by
  intro h
  have hdrawn : Drawn orchestratedEnv correlatedSeed { store := {} }
      [{ envelope := correlatedSeed }, { envelope := nodeTask }] :=
    ⟨.inl rfl, .inr (.head _), trivial⟩
  have hany : (deliverAll orchestratedEnv { store := ({} : MemoryStateStore) }
      [{ envelope := correlatedSeed }, { envelope := nodeTask }]).queue.any
        (fun e => e.event.kind = .agentAction "run::node" "a") = true := by
    decide
  obtain ⟨e, he, hkind⟩ := List.any_eq_true.1 hany
  have hkind : e.event.kind = .agentAction "run::node" "a" := of_decide_eq_true hkind
  have hnew : ¬ TerminalEvent e := by
    intro hterminal
    rw [hterminal.1] at hkind
    cases hkind
  have haccounted := (h _ _ _ rfl hdrawn e he hnew).accounted
  unfold RecursionRunner.eventRunId at haccounted
  rw [hkind] at haccounted
  have hid : "run::node" = runIdOf correlatedSeed := Option.some.inj haccounted
  revert hid
  decide

end PrismAgent
