import PrismAgent.Join.Accounted
import PrismAgent.RunIdentity.Runs

/-!
# What a delivery does to the tables

A completion that is settled saves what the graph advances to and stores the result of the node
that it records. A domain event that plans its run puts a new graph in the place of the run's
own. Nothing else is written to the graphs and the results.
-/

namespace PrismAgent

open Effect
open TaskGraph (RecordsCompletion)
open Function (update)

namespace SubAgentCoordinator

variable {s : JoinTables} {envelope : EventEnvelope} {workspaceId runId nodeId : String}
  {status : SubTaskStatus}

theorem actionOutputs_tables (planId : String) (actions : List PlannedAction) (outputs : Fields) :
    (actionOutputs planId actions outputs).wp JoinTables.step
      (fun r t => (∃ outputs', r = .ok outputs') ∧ t = s) s := by
  induction actions generalizing outputs with
  | nil => exact ⟨⟨_, rfl⟩, rfl⟩
  | cons action actions ih =>
      rw [actionOutputs, Program.wp_bind, Program.wp_perform]
      rintro r t ⟨⟨result, rfl⟩, rfl⟩
      rw [Program.andThen_ok]
      cases result with
      | none => exact ih outputs
      | some result => exact ih _

/-- A result that is built is that of its node. -/
theorem buildResult_tables (subPlan : Option AgentPlan) :
    (buildResult nodeId subPlan).wp JoinTables.step
      (fun r t => (∃ result, r = .ok result ∧ result.nodeId = nodeId) ∧ t = s) s := by
  cases subPlan with
  | none => exact ⟨⟨_, rfl, rfl⟩, rfl⟩
  | some subPlan =>
      rw [buildResult, Program.wp_bind]
      refine Program.wp_mono (actionOutputs_tables _ _ _) ?_
      rintro r t ⟨⟨outputs, rfl⟩, rfl⟩
      exact ⟨⟨_, rfl, rfl⟩, rfl⟩

theorem storeResult_tables :
    (storeResult workspaceId runId nodeId).wp JoinTables.step
      (fun _ t => t.graphs = s.graphs ∧ ∃ result, t.results =
        update s.results (workspaceId, runId)
          (Dict.insert (s.results (workspaceId, runId)) nodeId result)) s := by
  rw [storeResult, Program.wp_bind, Program.wp_perform]
  rintro r t ⟨⟨subPlan, rfl⟩, rfl⟩
  rw [Program.andThen_ok, Program.wp_bind]
  refine Program.wp_mono (buildResult_tables subPlan) ?_
  rintro r t' ⟨⟨result, rfl, rfl⟩, rfl⟩
  rw [Program.andThen_ok, Program.wp_perform]
  rintro r t'' ⟨-, rfl⟩
  exact ⟨rfl, result, rfl⟩

/-- The result that an advance records is stored, and the graphs stay. -/
theorem settleAdvance_tables {advance : TaskGraphAdvance}
    (hnew : advance.alreadyProcessed = false) :
    (settleAdvance envelope runId nodeId status advance).wp JoinTables.step
      (fun _ t => t.graphs = s.graphs ∧
        (∀ key, key ≠ (envelope.event.workspaceId, runId) → t.results key = s.results key) ∧
        ∀ i, i ∈ Dict.keys (t.results (envelope.event.workspaceId, runId)) ↔
          i ∈ Dict.keys (s.results (envelope.event.workspaceId, runId)) ∨
            RecordsCompletion nodeId status advance i) s := by
  have hfollow : ∀ t : JoinTables,
      (if advance.runFailed then failRun envelope.event runId
        else followAdvance envelope runId advance).wp JoinTables.step
        (fun _ t' => t'.graphs = t.graphs ∧ t'.results = t.results) t := by
    intro t
    refine JoinTables.wp_same (?_ : Writes announced _) (by decide) (by decide)
    split
    · exact .bind (.perform rfl) fun _ => trace_writes (by decide) _ _ _ _
    · exact followAdvance_writes envelope _ _
  unfold settleAdvance recordResult
  rw [Program.wp_bind]
  split
  next hresult =>
    refine Program.wp_mono storeResult_tables ?_
    rintro r t ⟨hgraphs, result, hresults⟩
    have hkeys : ∀ t' : JoinTables, t'.graphs = t.graphs ∧ t'.results = t.results →
        t'.graphs = s.graphs ∧
        (∀ key, key ≠ (envelope.event.workspaceId, runId) → t'.results key = s.results key) ∧
        ∀ i, i ∈ Dict.keys (t'.results (envelope.event.workspaceId, runId)) ↔
          i ∈ Dict.keys (s.results (envelope.event.workspaceId, runId)) ∨
            RecordsCompletion nodeId status advance i := by
      rintro t' ⟨hgraphs', hresults'⟩
      rw [hresults', hresults]
      refine ⟨hgraphs'.trans hgraphs, fun key hkey => Function.update_of_ne hkey _ _, fun i => ?_⟩
      rw [Function.update_self, Dict.mem_keys_insert, or_comm]
      exact or_congr_right ⟨fun hi => ⟨hi, hresult.1, hnew, hresult.2⟩, fun hi => hi.node⟩
    cases r with
    | error x => exact hkeys t ⟨rfl, rfl⟩
    | ok _ => exact Program.wp_mono (hfollow t) fun _ t' ht' => hkeys t' ht'
  next hresult =>
    change Program.wp _ (if advance.runFailed then _ else _) _ s
    refine Program.wp_mono (hfollow s) ?_
    rintro r t ⟨hgraphs, hresults⟩
    rw [hresults]
    refine ⟨hgraphs, fun _ _ => rfl, fun i => ⟨.inl, fun hi => hi.resolve_right fun hrecords => ?_⟩⟩
    exact hresult ⟨hrecords.status, hrecords.ordinary⟩

/-- What a settled completion leaves of the tables: the graph of its run advanced, in some version,
and the result of the node that the advance records. -/
structure Settles (workspaceId runId nodeId : String) (status : SubTaskStatus) (s t : JoinTables)
    (g : TaskGraph) : Prop where
  graphs : ∃ version, t.graphs = update s.graphs (workspaceId, runId)
    (some { (g.planAdvance nodeId status).graph with version })
  others : ∀ key, key ≠ (workspaceId, runId) → t.results key = s.results key
  results : ∀ i, i ∈ Dict.keys (t.results (workspaceId, runId)) ↔
    i ∈ Dict.keys (s.results (workspaceId, runId)) ∨
      RecordsCompletion nodeId status (g.planAdvance nodeId status) i

theorem handleSettled_tables :
    (handleSettled envelope runId nodeId status).wp JoinTables.step (fun _ t =>
      (s.graphs (envelope.event.workspaceId, runId) = none ∧ t.graphs = s.graphs ∧
          t.results = s.results) ∨
        ∃ g, s.graphs (envelope.event.workspaceId, runId) = some g ∧
          Settles envelope.event.workspaceId runId nodeId status s t g) s := by
  have htrace : ∀ (eventName : String) (t : JoinTables),
      (trace envelope.event eventName).wp JoinTables.step
        (fun _ t' => t'.graphs = t.graphs ∧ t'.results = t.results) t :=
    fun eventName t => JoinTables.wp_same
      (trace_writes (List.mem_singleton_self Part.traces) _ _ _ _)
      (by decide) (by decide)
  rw [handleSettled, Program.wp_bind, Program.wp_perform]
  intro r t hstep
  rcases JoinTables.step_advanceTaskGraph hstep with ⟨hnone, rfl, rfl⟩ |
    ⟨g, version, hstored, rfl, rfl⟩
  · exact Program.wp_mono (htrace _ _) fun _ t' ht' => .inl ⟨hnone, ht'⟩
  · rw [Program.andThen_ok]
    dsimp only
    split
    next hduplicate =>
      refine Program.wp_mono (htrace _ _) ?_
      rintro r t ⟨hgraphs, hresults⟩
      refine .inr ⟨g, hstored, ⟨version, hgraphs⟩, fun key _ => by rw [hresults]; rfl, fun i => ?_⟩
      rw [hresults]
      refine ⟨.inl, fun hi => hi.resolve_right fun hrecords => ?_⟩
      rw [hrecords.new] at hduplicate
      cases hduplicate
    next hnew =>
      refine Program.wp_mono (settleAdvance_tables (by simpa using hnew)) ?_
      rintro r t ⟨hgraphs, hothers, hresults⟩
      exact .inr ⟨g, hstored, ⟨version, hgraphs⟩, hothers, hresults⟩

/-- A failed completion of an unknown node does nothing but save the graph again. -/
theorem settleAdvance_unknown {g : TaskGraph} (hnone : g.getNode nodeId = none) :
    settleAdvance envelope runId nodeId .failed (g.planAdvance nodeId .failed) = pure () := by
  unfold TaskGraph.planAdvance
  rw [hnone]
  rfl

end SubAgentCoordinator

namespace DomainEventHandler

variable {envelope : EventEnvelope} {workflow : WorkflowDefinition} {snapshot : ContextSnapshot}
  {runId : String}

/-- A graph of the run in which nothing has been recorded is in the place of the one before. -/
def Replants (key : String × String) (s t : JoinTables) : Prop :=
  t.results = s.results ∧ ∃ g : TaskGraph, (∀ n ∈ g.nodes, n.status = .pending) ∧
    (∀ n ∈ g.synthesizerNode, n.status = .pending) ∧ t.graphs = update s.graphs key (some g)

theorem buildPlan_tables {s : JoinTables} (registries : Registries) :
    (buildPlan registries workflow snapshot runId).wp JoinTables.step
      (fun _ t => Replants (snapshot.context.workspaceId, runId) s t) s := by
  have hreplants : ∀ t t' : JoinTables,
      t = s.save (snapshot.context.workspaceId, runId)
        (Orchestrator.buildTaskGraph runId snapshot.context workflow) →
      t'.graphs = t.graphs ∧ t'.results = t.results →
        Replants (snapshot.context.workspaceId, runId) s t' := by
    rintro t t' rfl ⟨hgraphs, hresults⟩
    exact ⟨hresults, _, by simp [Orchestrator.buildTaskGraph],
      by simp [Orchestrator.buildTaskGraph], hgraphs⟩
  unfold buildPlan
  rw [Program.wp_tryCatch, Program.wp_bind, Program.wp_perform]
  rintro r t rfl
  have hfail : ∀ (t' : JoinTables) (exc : Exc),
      Replants (snapshot.context.workspaceId, runId) s t' →
      (sync (.runFailed snapshot.context.workspaceId runId exc.toStr) >>= fun _ =>
        (.raise exc : App AgentPlan)).wp JoinTables.step
          (fun _ t => Replants (snapshot.context.workspaceId, runId) s t) t' := by
    intro t' exc ht'
    rw [Program.wp_bind, Program.wp_perform]
    rintro r t rfl
    cases r with
    | error x => exact ht'
    | ok _ => exact ht'
  cases r with
  | error x => exact hfail _ x (hreplants _ _ rfl ⟨rfl, rfl⟩)
  | ok _ =>
      rw [Program.andThen_ok]
      refine Program.wp_mono (JoinTables.wp_same (SubAgentRunner.planForNode_writes _ _ _ _ _ _)
        (by simp) (by simp)) ?_
      rintro r t' ht'
      cases r with
      | error x => exact hfail _ x (hreplants _ _ rfl ht')
      | ok plan => exact hreplants _ _ rfl ht'

theorem savePlan_writes (plan : AgentPlan) (replan : Bool) :
    Writes (.plans :: .contextSnapshots :: announced) (savePlan envelope snapshot plan replan) := by
  refine .bind (.perform rfl) fun _ => .bind (.perform rfl) fun _ =>
    .bind (.perform rfl) fun _ => ?_
  exact .bind (trace_writes (by decide) _ _ _ _) fun _ =>
    (enqueueFirstAction_writes envelope _).mono (by decide)

/-- The call that tells the sync that the run starts, or that it replans. -/
def openingCall (workflow : WorkflowDefinition) (snapshot : ContextSnapshot) (runId : String)
    (replan : Bool) : SyncCall :=
  if replan then .runRunning snapshot.context.workspaceId runId
  else .runStarted snapshot.context runId workflow.goal workflow.promptVersion

variable {env : Env} {σ : Type} [StateStore σ] {tables : JoinStore env σ} {w : World σ}

/-- The graphs and the results are those of the world before. -/
structure LeavesJoin (tables : JoinStore env σ) (w t : World σ) : Prop where
  sound : tables.Sound t.store
  graphs : tables.graphs t.store = tables.graphs w.store
  results : tables.results t.store = tables.results w.store

theorem wp_leaves {α : Type} {parts : List Part} {p : App α} (hw : tables.Sound w.store)
    (hp : Writes parts p) (hgraphs : .taskGraphs ∉ parts) (hresults : .subAgentResults ∉ parts) :
    p.wp env.sem.step (fun _ t => LeavesJoin tables w t) w :=
  Program.wp_mono (JoinStore.wp_view hw (JoinTables.wp_same hp hgraphs hresults))
    fun _ _ ht => ⟨ht.1, ht.2.1, ht.2.2⟩

theorem LeavesJoin.trans {t u : World σ} (h : LeavesJoin tables w t) (h' : LeavesJoin tables t u) :
    LeavesJoin tables w u :=
  ⟨h'.sound, h'.graphs.trans h.graphs, h'.results.trans h.results⟩

theorem trace_leaves (hw : tables.Sound w.store) (event : RuntimeEvent) (eventName : String)
    (planId : Option String) :
    (PrismAgent.trace event eventName planId).wp env.sem.step
      (fun r t => r = .ok () ∧ LeavesJoin tables w t) w := by
  rw [PrismAgent.trace, Program.wp_perform_step]
  obtain ⟨hsound, hstep⟩ := tables.keeps w (.appendTraceEvent _) hw
  exact ⟨rfl, hsound, congrArg JoinTables.graphs hstep, congrArg JoinTables.results hstep⟩

/-- A run is started exactly if the sync accepts it. -/
theorem unlessTerminal_started (hw : tables.Sound w.store) (call : SyncCall) :
    (unlessTerminal envelope runId call).wp env.sem.step
      (fun r t => LeavesJoin tables w t ∧
        (r = .ok true ↔ env.syncAnswer w.tick call = .ok ())) w := by
  have hleaves : LeavesJoin tables w { w with
      tick := w.tick + 1, syncCalls := w.syncCalls ++ [call] } := ⟨hw, rfl, rfl⟩
  unfold unlessTerminal
  rw [Program.wp_bind, Program.wp_attempt_perform_step]
  change Program.andThen _ _ _ (.ok (env.syncAnswer w.tick call)) _
  rw [Program.andThen_ok]
  cases env.syncAnswer w.tick call with
  | ok _ => exact ⟨hleaves, iff_of_true rfl rfl⟩
  | error x =>
      have hnot : (Except.error x : Except Exc Unit) ≠ .ok () := by rintro ⟨⟩
      cases x with
      | runAlreadyTerminal run status =>
          dsimp only
          rw [Program.wp_bind]
          refine Program.wp_mono (trace_leaves hleaves.sound _ _ _) ?_
          rintro r t ⟨rfl, ht⟩
          exact ⟨hleaves.trans ht, iff_of_false (by rintro ⟨⟩) hnot⟩
      | _ => exact ⟨hleaves, iff_of_false (by rintro ⟨⟩) hnot⟩

theorem startRun_started (hw : tables.Sound w.store) (replan : Bool) :
    (startRun envelope workflow snapshot runId replan).wp env.sem.step
      (fun r t => LeavesJoin tables w t ∧ (r = .ok true ↔
        env.syncAnswer w.tick (openingCall workflow snapshot runId replan) = .ok ())) w := by
  cases replan with
  | false => exact unlessTerminal_started hw _
  | true =>
      unfold startRun resumeRun openingCall
      rw [if_pos rfl, if_pos rfl, Program.wp_bind]
      refine Program.wp_mono (unlessTerminal_started hw _) ?_
      rintro r t ⟨ht, hstarted⟩
      cases r with
      | error x => exact ⟨ht, iff_of_false (by rintro ⟨⟩) fun h => by cases hstarted.2 h⟩
      | ok started =>
          rw [Program.andThen_ok]
          cases started with
          | false => exact ⟨ht, hstarted⟩
          | true =>
              dsimp only
              rw [Program.wp_bind]
              refine Program.wp_mono (trace_leaves ht.sound _ _ _) ?_
              rintro r t' ⟨rfl, ht'⟩
              exact ⟨ht.trans ht', iff_of_true rfl (hstarted.1 rfl)⟩

/-- A run that the sync accepts is planned under a graph of its own. -/
theorem startPlan_replants (hw : tables.Sound w.store) (registries : Registries) (replan : Bool) :
    (startPlan registries envelope workflow snapshot runId replan).wp env.sem.step
      (fun _ t => tables.Sound t.store ∧
        (env.syncAnswer w.tick (openingCall workflow snapshot runId replan) = .ok () →
          Replants (snapshot.context.workspaceId, runId) (tables.view w) (tables.view t)) ∧
        (env.syncAnswer w.tick (openingCall workflow snapshot runId replan) ≠ .ok () →
          LeavesJoin tables w t)) w := by
  unfold startPlan
  rw [Program.wp_bind]
  refine Program.wp_mono (startRun_started hw replan) ?_
  rintro r t ⟨ht, hstarted⟩
  have hrefused : r ≠ .ok true → tables.Sound t.store ∧
      (env.syncAnswer w.tick (openingCall workflow snapshot runId replan) = .ok () →
        Replants (snapshot.context.workspaceId, runId) (tables.view w) (tables.view t)) ∧
      (env.syncAnswer w.tick (openingCall workflow snapshot runId replan) ≠ .ok () →
        LeavesJoin tables w t) :=
    fun hr => ⟨ht.sound, fun hok => absurd (hstarted.2 hok) hr, fun _ => ht⟩
  cases r with
  | error x => exact hrefused (by rintro ⟨⟩)
  | ok started =>
      cases started with
      | false => exact hrefused (by rintro ⟨⟩)
      | true =>
          rw [Program.andThen_ok]
          dsimp only
          have hplanned : (buildPlan registries workflow snapshot runId >>= fun plan =>
              savePlan envelope snapshot plan replan).wp JoinTables.step
                (fun _ t' => Replants (snapshot.context.workspaceId, runId) (tables.view t) t')
                (tables.view t) := by
            rw [Program.wp_bind]
            refine Program.wp_mono (buildPlan_tables registries) ?_
            rintro r t' ⟨hresults, g, hnodes, hsynth, hgraphs⟩
            cases r with
            | error x => exact ⟨hresults, g, hnodes, hsynth, hgraphs⟩
            | ok plan =>
                refine Program.wp_mono (JoinTables.wp_same (savePlan_writes plan replan)
                  (by decide) (by decide)) ?_
                rintro r t'' ⟨hgraphs', hresults'⟩
                exact ⟨hresults'.trans hresults, g, hnodes, hsynth, hgraphs'.trans hgraphs⟩
          refine Program.wp_mono (JoinStore.wp_view ht.sound hplanned) ?_
          rintro r t' ⟨hsound, hresults, g, hnodes, hsynth, hgraphs⟩
          refine ⟨hsound, fun _ => ⟨hresults.trans ht.results, g, hnodes, hsynth, ?_⟩,
            fun hnot => absurd (hstarted.1 rfl) hnot⟩
          have hgraphs' : tables.graphs t'.store = update (tables.graphs t.store)
              (snapshot.context.workspaceId, runId) (some g) := hgraphs
          rw [ht.graphs] at hgraphs'
          exact hgraphs'

/-- The run has no plan to resume, and the sync accepts that it starts or replans. -/
def StartsPlan (env : Env) (w : World σ) (envelope : EventEnvelope) (workflow : WorkflowDefinition)
    (snapshot : ContextSnapshot) (runId : String) : Prop :=
  let plan :=
    (StateStore.getPlan (env.stateApi w.tick) snapshot.context.workspaceId runId w.store).1
  ¬Resumes plan envelope ∧
    env.syncAnswer (w.tick + 1) (openingCall workflow snapshot runId plan.isSome) = .ok ()

/-- A run that is planned anew gets a new graph; any other event leaves graphs and results. -/
theorem handlePlan_replants (hw : tables.Sound w.store) (registries : Registries) :
    (handlePlan registries envelope workflow snapshot runId).wp env.sem.step
      (fun _ t => tables.Sound t.store ∧
        (StartsPlan env w envelope workflow snapshot runId →
          Replants (snapshot.context.workspaceId, runId) (tables.view w) (tables.view t)) ∧
        (¬StartsPlan env w envelope workflow snapshot runId → LeavesJoin tables w t)) w := by
  obtain ⟨hsound, -, hstep⟩ := tables.keeps w (.getPlan snapshot.context.workspaceId runId) hw
  have hread : LeavesJoin tables w
      (env.sem (.getPlan snapshot.context.workspaceId runId) w).2 :=
    ⟨hsound, congrArg JoinTables.graphs hstep, congrArg JoinTables.results hstep⟩
  have hstart : ∀ replan, (StartsPlan env w envelope workflow snapshot runId ↔
      env.syncAnswer (w.tick + 1) (openingCall workflow snapshot runId replan) = .ok ()) →
      (startPlan registries envelope workflow snapshot runId replan).wp env.sem.step
        (fun _ t => tables.Sound t.store ∧
          (StartsPlan env w envelope workflow snapshot runId →
            Replants (snapshot.context.workspaceId, runId) (tables.view w) (tables.view t)) ∧
          (¬StartsPlan env w envelope workflow snapshot runId → LeavesJoin tables w t))
        (env.sem (.getPlan snapshot.context.workspaceId runId) w).2 := by
    intro replan hiff
    refine Program.wp_mono (startPlan_replants hread.sound registries replan) ?_
    rintro r t ⟨ht, hreplants, hleaves⟩
    refine ⟨ht, fun hstarts => ?_, fun hnot => hread.trans (hleaves fun hok => hnot (hiff.2 hok))⟩
    obtain ⟨hresults, g, hnodes, hsynth, hgraphs⟩ := hreplants (hiff.1 hstarts)
    have hgraphs' : tables.graphs t.store = update (tables.graphs _)
        (snapshot.context.workspaceId, runId) (some g) := hgraphs
    rw [hread.graphs] at hgraphs'
    exact ⟨hresults.trans hread.results, g, hnodes, hsynth, hgraphs'⟩
  rw [handlePlan, Program.wp_bind, Program.wp_perform_step]
  change Program.andThen _ _ _ (.ok (StateStore.getPlan (env.stateApi w.tick)
    snapshot.context.workspaceId runId w.store).1) _
  rw [Program.andThen_ok]
  cases hplan : (StateStore.getPlan (env.stateApi w.tick) snapshot.context.workspaceId runId
      w.store).1 with
  | none =>
      refine hstart false ?_
      unfold StartsPlan
      rw [hplan]
      exact and_iff_right (by rintro ⟨p, ⟨⟩, -⟩)
  | some plan =>
      dsimp only
      split
      next hreplan =>
        refine hstart true ?_
        unfold StartsPlan
        rw [hplan]
        refine and_iff_right ?_
        rintro ⟨p, hp, hnot⟩
        exact hnot (Option.some.inj hp ▸ hreplan)
      next hresumes =>
        have hsave : (Call.saveContextSnapshot
            { snapshot with planId := some plan.planId }).writesIn
              (.plans :: .contextSnapshots :: announced) = true := rfl
        have hresume : Writes (.plans :: .contextSnapshots :: announced) _ :=
          .bind (.perform hsave) fun _ => .bind (trace_writes (by decide) envelope.event
            "plan.resumed" (some plan.planId) none) fun _ =>
              (enqueueFirstAction_writes envelope plan).mono (by decide)
        have hnot : ¬StartsPlan env w envelope workflow snapshot runId := by
          unfold StartsPlan
          rw [hplan]
          exact fun h => h.1 ⟨plan, rfl, hresumes⟩
        refine Program.wp_mono (wp_leaves hread.sound hresume (by decide) (by decide)) ?_
        exact fun r t ht => ⟨ht.sound, fun hstarts => absurd hstarts hnot, fun _ => hread.trans ht⟩

end DomainEventHandler

end PrismAgent
