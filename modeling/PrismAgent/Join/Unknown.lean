import PrismAgent.Join.ApiTables
import PrismAgent.Join.Settled

/-!
# Completions of unknown nodes

The stored results of a run are those of its COMPLETED nodes, the synthesizer aside, as long
as every completion that stores a result names a node of the graph. An advance does not tell
an unknown node from a recorded one, so its completion stores a result as well, and over the
API-backed store it saves the graph in its next version.
-/

namespace PrismAgent

open Effect
open TaskGraph (AdvanceCase RecordsCompletion)
open Function (update)

section Advance

variable {g : TaskGraph} {σ τ : String → SubTaskStatus} {id : String} {status : SubTaskStatus}
  {advance : TaskGraphAdvance} {i : String}

namespace TaskGraph

/-- What an advance records is an ordinary node of the graph, unless the node is unknown. -/
theorem AdvanceCase.ordinary_of_records (h : AdvanceCase g σ id status advance τ)
    (hknows : g.Knows id) (hrecords : RecordsCompletion id status advance i) :
    g.HasNode i ∧ g.isSynthesizer i = false := by
  rw [hrecords.node]
  cases h with
  | unknown hid => exact absurd hknows hid
  | duplicate => cases hrecords.new
  | failed => cases hrecords.status
  | synthesizer => cases hrecords.ordinary
  | claims hid hsyn => exact ⟨hid, hsyn⟩
  | dispatch hid hsyn => exact ⟨hid, hsyn⟩
  | stalled hid hsyn => exact ⟨hid, hsyn⟩
  | joined hid hsyn => exact ⟨hid, hsyn⟩
  | waiting hid hsyn => exact ⟨hid, hsyn⟩
  | blocked hid hsyn => exact ⟨hid, hsyn⟩

/-- An advance completes the ordinary node that it records and keeps the others completed,
unless it fails a completed one. -/
theorem AdvanceCase.completed_iff (h : AdvanceCase g σ id status advance τ)
    (hknows : status = .completed → g.Knows id)
    (hterminal : status = .completed ∨ status = .failed)
    (hkept : status = .failed → g.isSynthesizer id = false → g.HasNode id →
      σ id ≠ .completed)
    (hi : g.HasNode i) (hordinary : g.isSynthesizer i = false) :
    τ i = .completed ↔ σ i = .completed ∨ RecordsCompletion id status advance i := by
  refine ⟨h.completed_cases hordinary, ?_⟩
  rcases advance_records h with ⟨-, -, rfl, hdup⟩ | hrecorded
  · rintro (hσ | hrecords)
    · exact hσ
    · rw [hrecords.node, hdup (hknows hrecords.status), hrecords.status]
  · rintro (hσ | hrecords)
    · by_cases hid : i = id
      · subst hid
        rcases hterminal with rfl | rfl
        · exact hrecorded.recorded
        · exact absurd hσ (hkept rfl hordinary hi)
      · rw [hrecorded.others i hid (.inl hσ), hσ]
    · rw [hrecords.node, hrecorded.recorded, hrecords.status]

end TaskGraph

/-- The completion does not store a result for an unknown node and does not fail a COMPLETED
one. -/
structure Settleable (g : TaskGraph) (nodeId : String) (status : SubTaskStatus) : Prop where
  known : status = .completed → g.getNode nodeId ≠ none
  kept : status = .failed → ¬ g.Completes nodeId

/-- The results stay accounted for when what an advance records is stored beside them. -/
theorem Accounted.planAdvance {results results' : Dict String SubAgentResult}
    (h : Accounted g results) (hterminal : status = .completed ∨ status = .failed)
    (hsettleable : Settleable g id status)
    (hkeys : ∀ i, i ∈ Dict.keys results' ↔ i ∈ Dict.keys results ∨
      RecordsCompletion id status (g.planAdvance id status) i) :
    Accounted (g.planAdvance id status).graph results' := by
  obtain ⟨base, σ, rfl, hold⟩ := h
  obtain ⟨τ, hcase⟩ := TaskGraph.planAdvance_spec base σ id hterminal
  have hknows : status = .completed → base.Knows id := by
    intro hcompleted
    by_contra hnot
    exact hsettleable.known hcompleted ((base.getNode_withStatuses_eq_none σ id).2 hnot)
  have hkept : status = .failed → base.isSynthesizer id = false → base.HasNode id →
      σ id ≠ .completed := by
    intro hfailed hordinary hid hσ
    exact hsettleable.kept hfailed (TaskGraph.completes_withStatuses.2 ⟨hid, hordinary, hσ⟩)
  refine ⟨base, τ, hcase.graph_eq, fun i => ?_⟩
  rw [hkeys, hold]
  constructor
  · rintro (⟨hi, hordinary, hσ⟩ | hrecords)
    · exact ⟨hi, hordinary,
        (hcase.completed_iff hknows hterminal hkept hi hordinary).2 (.inl hσ)⟩
    · obtain ⟨hi, hordinary⟩ := hcase.ordinary_of_records (hknows hrecords.status) hrecords
      exact ⟨hi, hordinary,
        (hcase.completed_iff hknows hterminal hkept hi hordinary).2 (.inr hrecords)⟩
  · rintro ⟨hi, hordinary, hτ⟩
    rcases (hcase.completed_iff hknows hterminal hkept hi hordinary).1 hτ with hσ | hrecords
    · exact .inl ⟨hi, hordinary, hσ⟩
    · exact .inr hrecords

end Advance

/-- The results of every run are those of the COMPLETED nodes of its graph, the synthesizer aside;
without a graph there are none. -/
structure ResultsMatch (s : JoinTables) : Prop where
  completed : ∀ key g, s.graphs key = some g →
    ∀ i, i ∈ Dict.keys (s.results key) ↔ g.Completes i
  empty : ∀ key, s.graphs key = none → s.results key = []

theorem Reconciled.resultsMatch {s : JoinTables} (h : Reconciled s) : ResultsMatch s :=
  ⟨fun key g hg => (h.accounted key g hg).mem_keys, h.empty⟩

namespace SubAgentCoordinator.Settles

variable {s t : JoinTables} {g : TaskGraph} {workspaceId runId nodeId : String}
  {status : SubTaskStatus}

/-- A completion that may be settled keeps the results accounted for. -/
theorem reconciled (hsettles : Settles workspaceId runId nodeId status s t g) (h : Reconciled s)
    (hterminal : status = .completed ∨ status = .failed)
    (hstored : s.graphs (workspaceId, runId) = some g) (hsettleable : Settleable g nodeId status) :
    Reconciled t := by
  obtain ⟨version, hgraphs⟩ := hsettles.graphs
  refine h.replace hgraphs hsettles.others (Accounted.reversion ?_ version)
  exact (h.accounted _ g hstored).planAdvance hterminal hsettleable hsettles.results

/-- The completion of an unknown node stores a result that no node of the graph accounts for. -/
theorem known (hsettles : Settles workspaceId runId nodeId .completed s t g)
    (hmatch : ResultsMatch t) : g.getNode nodeId ≠ none := by
  intro hnone
  have hadvance : g.planAdvance nodeId .completed = { graph := g } := by
    unfold TaskGraph.planAdvance
    rw [hnone]
  obtain ⟨version, hgraphs⟩ := hsettles.graphs
  have hresult := (hsettles.results nodeId).2 (.inr (by
    rw [hadvance]
    exact ⟨rfl, rfl, rfl, rfl⟩))
  obtain ⟨n, hn, rfl, -⟩ := (hmatch.completed _ _ (by rw [hgraphs, Function.update_self]) _).1
    hresult
  rw [hadvance] at hn
  exact TaskGraph.getNode_ne_none (List.mem_map_of_mem hn) hnone

/-- The failure of a COMPLETED node leaves its result behind. -/
theorem kept (hsettles : Settles workspaceId runId nodeId .failed s t g) (h : Reconciled s)
    (hstored : s.graphs (workspaceId, runId) = some g) (hmatch : ResultsMatch t) :
    ¬g.Completes nodeId := by
  intro hcompletes
  have haccounted := h.accounted _ g hstored
  have hresult := (hsettles.results nodeId).2 (.inl ((haccounted.mem_keys nodeId).2 hcompletes))
  obtain ⟨version, hgraphs⟩ := hsettles.graphs
  have hafter : (g.planAdvance nodeId .failed).graph.Completes nodeId :=
    (hmatch.completed (workspaceId, runId)
      { (g.planAdvance nodeId .failed).graph with version }
      (by rw [hgraphs, Function.update_self]) nodeId).1 hresult
  obtain ⟨base, σ, rfl, -⟩ := haccounted
  obtain ⟨hnode, -, hσ⟩ := TaskGraph.completes_withStatuses.1 hcompletes
  obtain ⟨τ, hcase⟩ := TaskGraph.planAdvance_spec base σ nodeId (.inr rfl)
  rw [hcase.graph_eq] at hafter
  obtain ⟨-, -, hτ⟩ := TaskGraph.completes_withStatuses.1 hafter
  rcases advance_records hcase with ⟨-, -, rfl, hduplicate⟩ | hrecorded
  · rw [hduplicate (.inl hnode)] at hσ
    cases hσ
  · rw [hrecorded.recorded] at hτ
    cases hτ

end SubAgentCoordinator.Settles

section Deliver

open SubAgentCoordinator (handleSettled_tables settleAdvance_unknown)
open DomainEventHandler (LeavesJoin Replants StartsPlan handlePlan_replants wp_leaves)

variable {env : Env} {σ : Type} [StateStore σ] (tables : JoinStore env σ)

/-- A completion that stores a result names a node of the graph, and one that fails a node does
not name a COMPLETED one; where an advance always saves the graph anew, it names a node too. -/
structure MaySettle (bumps : Bool) (g : TaskGraph) (nodeId status : String) : Prop where
  known : status = "completed" → g.getNode nodeId ≠ none
  kept : status = "failed" → ¬g.Completes nodeId
  unbumped : status = "failed" → bumps = true → g.getNode nodeId ≠ none

/-- The domain event plans its run anew: it is routed to a workflow that is not orchestrated, the
run has no plan to resume, and the sync accepts that it starts or replans. -/
def PlansAnew (env : Env) (w : World σ) (envelope : EventEnvelope) : Prop :=
  ∃ workflow snapshot, (route env.registries.workflows envelope).workflow = some workflow ∧
    DomainEventHandler.isOrchestrated workflow = false ∧
    (env.sem.exec (ContextProvider.hydrate env.registries envelope workflow) w).1 = .ok snapshot ∧
    StartsPlan env (env.sem.exec (ContextProvider.hydrate env.registries envelope workflow) w).2
      envelope workflow snapshot (runIdOf envelope)

/-- What the delivery of an event asks of the world before it: a completion may be settled, and a
run that is planned anew has no results. -/
def Deliverable (w : World σ) (envelope : EventEnvelope) : Prop :=
  match envelope.event.kind with
  | .agentAction _ _ => True
  | .subagentTask _ _ => True
  | .subagentCompleted runId nodeId status =>
      ∀ g, tables.graphs w.store (envelope.event.workspaceId, runId) = some g →
        MaySettle tables.bumps g nodeId status
  | _ => PlansAnew env w envelope →
      tables.results w.store (envelope.event.workspaceId, runIdOf envelope) = []

/-- The event completes a node that the stored graph of its run does not have. -/
def CompletesUnknown (w : World σ) (envelope : EventEnvelope) : Prop :=
  ∃ runId nodeId status g, envelope.event.kind = .subagentCompleted runId nodeId status ∧
    tables.graphs w.store (envelope.event.workspaceId, runId) = some g ∧ g.getNode nodeId = none

/-- After the delivery the results match the graphs, and if the event completes an unknown node,
the graphs with their versions, the results and the queue are as before. -/
def Meets (w : World σ) (message : Message) : Prop :=
  ResultsMatch (tables.view (deliver env w message)) ∧
    (CompletesUnknown tables w message.envelope →
      tables.view (deliver env w message) = tables.view w)

variable {tables} {w t : World σ} {envelope : EventEnvelope}

theorem DomainEventHandler.LeavesJoin.reconciled (h : LeavesJoin tables w t)
    (hw : Reconciled (tables.view w)) : Reconciled (tables.view t) :=
  hw.of_same h.graphs h.results

/-- A new graph accounts for the results of its run exactly if there are none. -/
theorem DomainEventHandler.Replants.reconciled {s t : JoinTables} {key : String × String}
    (h : Replants key s t) (hs : Reconciled s) :
    (s.results key = [] → Reconciled t) ∧ (ResultsMatch t → s.results key = []) := by
  obtain ⟨hresults, g, hnodes, hsynth, hgraphs⟩ := h
  constructor
  · intro hempty
    refine hs.replace hgraphs (fun key' _ => by rw [hresults]) ?_
    rw [hresults, hempty]
    exact accounted_of_pending hnodes hsynth
  · intro hmatch
    have hkeys := hmatch.completed key g (by rw [hgraphs, Function.update_self])
    rw [hresults] at hkeys
    refine List.eq_nil_iff_forall_not_mem.2 fun entry hentry => ?_
    obtain ⟨n, hn, -, hcompleted, -⟩ := (hkeys entry.1).1 (List.mem_map_of_mem hentry)
    rw [hnodes n hn] at hcompleted
    cases hcompleted

/-- Whether the run is planned anew is settled once the context has been hydrated. -/
theorem plansAnew_iff {workflow : WorkflowDefinition} {r : Except Exc ContextSnapshot}
    (hroute : (route env.registries.workflows envelope).workflow = some workflow)
    (hexec : env.sem.exec (ContextProvider.hydrate env.registries envelope workflow) w = (r, t)) :
    PlansAnew env w envelope ↔ DomainEventHandler.isOrchestrated workflow = false ∧
      ∃ snapshot, r = .ok snapshot ∧
        StartsPlan env t envelope workflow snapshot (runIdOf envelope) := by
  constructor
  · rintro ⟨workflow', snapshot, hworkflow, hsingle, hsnapshot, hstarts⟩
    obtain rfl := Option.some.inj (hroute.symm.trans hworkflow)
    rw [hexec] at hsnapshot hstarts
    exact ⟨hsingle, snapshot, hsnapshot, hstarts⟩
  · rintro ⟨hsingle, snapshot, hsnapshot, hstarts⟩
    refine ⟨workflow, snapshot, hroute, hsingle, ?_, ?_⟩
    · rw [hexec]
      exact hsnapshot
    · rw [hexec]
      exact hstarts

/-- A domain event keeps the results accounted for exactly if it does not plan a run with
results. -/
theorem handleDomain_iff (hw : tables.Sound w.store) (h : Reconciled (tables.view w)) :
    (DomainEventHandler.handle env.registries envelope).wp env.sem.step
      (fun _ t => tables.Sound t.store ∧
        ((PlansAnew env w envelope →
            tables.results w.store (envelope.event.workspaceId, runIdOf envelope) = []) →
          Reconciled (tables.view t)) ∧
        (ResultsMatch (tables.view t) → PlansAnew env w envelope →
          tables.results w.store (envelope.event.workspaceId, runIdOf envelope) = [])) w := by
  have hleaves : ¬PlansAnew env w envelope → ∀ t, LeavesJoin tables w t → tables.Sound t.store ∧
      ((PlansAnew env w envelope →
          tables.results w.store (envelope.event.workspaceId, runIdOf envelope) = []) →
        Reconciled (tables.view t)) ∧
      (ResultsMatch (tables.view t) → PlansAnew env w envelope →
        tables.results w.store (envelope.event.workspaceId, runIdOf envelope) = []) :=
    fun hnot t ht => ⟨ht.sound, fun _ => ht.reconciled h, fun _ hplans => absurd hplans hnot⟩
  unfold DomainEventHandler.handle
  cases hroute : (route env.registries.workflows envelope).workflow with
  | none =>
      have hnot : ¬PlansAnew env w envelope := by
        rintro ⟨workflow, snapshot, hworkflow, -⟩
        rw [hroute] at hworkflow
        cases hworkflow
      refine Program.wp_mono (wp_leaves hw (trace_writes (List.mem_singleton_self Part.traces)
        envelope.event "event.ignored" none none) (by decide) (by decide)) ?_
      exact fun _ t ht => hleaves hnot t ht
  | some workflow =>
      dsimp only
      have hhydrate := (Program.wp_step_iff _ _ _ _).1 (JoinStore.wp_view hw
        (JoinTables.wp_reads (ContextProvider.hydrate_writes env.registries envelope workflow)))
      rw [Program.wp_bind, Program.wp_step_iff]
      cases hexec : env.sem.exec (ContextProvider.hydrate env.registries envelope workflow) w with
      | mk r t =>
          rw [hexec] at hhydrate
          obtain ⟨hsound, hview, hreturn⟩ := hhydrate
          have hread : LeavesJoin tables w t :=
            ⟨hsound, congrArg JoinTables.graphs hview, congrArg JoinTables.results hview⟩
          cases r with
          | error x =>
              have hnot : ¬PlansAnew env w envelope := by
                rw [plansAnew_iff hroute hexec]
                rintro ⟨-, snapshot, hsnapshot, -⟩
                cases hsnapshot
              exact hleaves hnot t hread
          | ok snapshot =>
              obtain ⟨hworkspace, hsource⟩ := ContextProvider.hydrate_mayReturn
                (hreturn snapshot rfl)
              rw [Program.andThen_ok, resolveAgentRunId_eq hsource]
              dsimp only
              split
              next horchestrated =>
                have hnot : ¬PlansAnew env w envelope := by
                  rw [plansAnew_iff hroute hexec, horchestrated]
                  rintro ⟨hsingle, -⟩
                  cases hsingle
                refine Program.wp_mono (JoinStore.wp_view hsound (handleOrchestrated_reconciled
                  env.registries (hread.reconciled h))) ?_
                exact fun _ t' ht' => ⟨ht'.1, fun _ => ht'.2, fun _ hplans => absurd hplans hnot⟩
              next hsingle =>
                have hplans : PlansAnew env w envelope ↔
                    StartsPlan env t envelope workflow snapshot (runIdOf envelope) := by
                  rw [plansAnew_iff hroute hexec]
                  constructor
                  · rintro ⟨-, snapshot', hsnapshot, hstarts⟩
                    obtain rfl := Except.ok.inj hsnapshot
                    exact hstarts
                  · exact fun hstarts => ⟨by simpa using hsingle, snapshot, rfl, hstarts⟩
                refine Program.wp_mono (handlePlan_replants hsound env.registries) ?_
                rintro r t' ⟨hsound', hreplants, hkeeps⟩
                by_cases hstarts : PlansAnew env w envelope
                · have hnew := hreplants (hplans.1 hstarts)
                  rw [hworkspace, hview] at hnew
                  obtain ⟨hkept, hmatch⟩ := hnew.reconciled h
                  exact ⟨hsound', fun hempty => hkept (hempty hstarts), fun hm _ => hmatch hm⟩
                · exact hleaves hstarts t' (hread.trans (hkeeps fun hs => hstarts (hplans.2 hs)))

variable {runId nodeId status : String}

/-- A failed completion of an unknown node does nothing but save the graph again. -/
theorem handleSettled_unknown (hw : tables.Sound w.store) {g : TaskGraph}
    (hstored : tables.graphs w.store (envelope.event.workspaceId, runId) = some g)
    (hnone : g.getNode nodeId = none) :
    (SubAgentCoordinator.handleSettled envelope runId nodeId .failed).wp env.sem.step
      (fun _ t => tables.view t =
        if tables.bumps then (tables.view w).save (envelope.event.workspaceId, runId) g.bumped
        else tables.view w) w := by
  obtain ⟨-, hstep⟩ := tables.keeps w
    (.advanceTaskGraph envelope.event.workspaceId runId nodeId .failed) hw
  have hgraphs := tables.unrecorded w _ _ nodeId .failed g hw hstored hnone
  have hgraph : (g.planAdvance nodeId .failed).alreadyProcessed = false := by
    unfold TaskGraph.planAdvance
    rw [hnone]
  rw [SubAgentCoordinator.handleSettled, Program.wp_bind, Program.wp_perform_step]
  rcases JoinTables.step_advanceTaskGraph hstep with ⟨hmissing, -⟩ | ⟨g', version, hg', hr, ht⟩
  · have hmissing' : tables.graphs w.store (envelope.event.workspaceId, runId) = none := hmissing
    rw [hstored] at hmissing'
    cases hmissing'
  · obtain rfl : g = g' := Option.some.inj (hstored.symm.trans hg')
    rw [hr, Program.andThen_ok]
    dsimp only
    rw [if_neg (by rw [hgraph]; decide), settleAdvance_unknown hnone]
    have hresults := congrArg JoinTables.results ht
    have hqueue := congrArg JoinTables.queue ht
    dsimp only [JoinTables.save] at hresults hqueue
    change JoinTables.mk _ _ _ = _
    rw [hgraphs, hresults, hqueue]
    cases tables.bumps
    · rfl
    · rfl

/-- A failed completion keeps the results accounted for, and does nothing for an unknown node,
exactly if it may be settled. -/
theorem handleFailed_iff (hw : tables.Sound w.store) (h : Reconciled (tables.view w))
    {g : TaskGraph} (hstored : tables.graphs w.store (envelope.event.workspaceId, runId) = some g) :
    (SubAgentCoordinator.handleSettled envelope runId nodeId .failed).wp env.sem.step
      (fun _ t => tables.Sound t.store ∧
        (MaySettle tables.bumps g nodeId "failed" →
          Reconciled (tables.view t) ∧ (g.getNode nodeId = none → tables.view t = tables.view w)) ∧
        (ResultsMatch (tables.view t) →
          (g.getNode nodeId = none → tables.view t = tables.view w) →
            MaySettle tables.bumps g nodeId "failed")) w := by
  have hunknown : g.getNode nodeId = none → _ := fun hnone =>
    (Program.wp_step_iff _ _ _ _).1 (handleSettled_unknown hw hstored hnone)
  have htables : (SubAgentCoordinator.handleSettled envelope runId nodeId .failed).wp
      JoinTables.step _ (tables.view w) := handleSettled_tables
  obtain ⟨hsound, hsettled⟩ := (Program.wp_step_iff _ _ _ _).1 (JoinStore.wp_view hw htables)
  rw [Program.wp_step_iff]
  rcases hsettled with ⟨hmissing, -⟩ | ⟨g', hg', hsettles⟩
  · exact absurd (hstored.symm.trans hmissing) (by simp)
  · obtain rfl : g = g' := Option.some.inj (hstored.symm.trans hg')
    refine ⟨hsound, fun hmay => ⟨?_, fun hnone => ?_⟩, fun hmatch hinert => ?_⟩
    · exact hsettles.reconciled h (.inr rfl) hstored ⟨by rintro ⟨⟩, fun _ => hmay.kept rfl⟩
    · rw [hunknown hnone, if_neg fun hbumps => hmay.unbumped rfl hbumps hnone]
    · refine ⟨fun hcompleted => absurd hcompleted (by decide),
        fun _ => hsettles.kept h hstored hmatch, fun _ hbumps hnone => ?_⟩
      -- the graph that is saved again has another version
      have hview := (hunknown hnone).symm.trans (hinert hnone)
      rw [if_pos hbumps] at hview
      have hgraph := congrFun (congrArg JoinTables.graphs hview)
        (envelope.event.workspaceId, runId)
      change update (tables.graphs w.store) (envelope.event.workspaceId, runId) (some g.bumped)
        (envelope.event.workspaceId, runId) = tables.graphs w.store _ at hgraph
      rw [Function.update_self, hstored] at hgraph
      have hversion := congrArg TaskGraph.version (Option.some.inj hgraph)
      change g.version + 1 = g.version at hversion
      omega

/-- The completion keeps the results accounted for, and does nothing for an unknown node, exactly
if it may be settled. -/
theorem handleCompleted_iff (hw : tables.Sound w.store) (h : Reconciled (tables.view w)) :
    (SubAgentCoordinator.handleCompleted envelope runId nodeId status).wp env.sem.step
      (fun _ t => tables.Sound t.store ∧
        ((∀ g, tables.graphs w.store (envelope.event.workspaceId, runId) = some g →
            MaySettle tables.bumps g nodeId status) →
          Reconciled (tables.view t) ∧
            ∀ g, tables.graphs w.store (envelope.event.workspaceId, runId) = some g →
              g.getNode nodeId = none → tables.view t = tables.view w) ∧
        (ResultsMatch (tables.view t) →
          (∀ g, tables.graphs w.store (envelope.event.workspaceId, runId) = some g →
            g.getNode nodeId = none → tables.view t = tables.view w) →
          ∀ g, tables.graphs w.store (envelope.event.workspaceId, runId) = some g →
            MaySettle tables.bumps g nodeId status)) w := by
  unfold SubAgentCoordinator.handleCompleted
  split
  next hcompleted =>
    subst hcompleted
    refine Program.wp_mono (JoinStore.wp_view hw handleSettled_tables) ?_
    rintro r t ⟨hsound, hsettled⟩
    rcases hsettled with ⟨hnone, hgraphs, hresults⟩ | ⟨g, hstored, hsettles⟩
    · have hmissing : ∀ g, tables.graphs w.store (envelope.event.workspaceId, runId) ≠ some g := by
        intro g hg
        exact absurd (hnone.symm.trans hg) (by simp)
      exact ⟨hsound, fun _ => ⟨h.of_same hgraphs hresults, fun g hg => absurd hg (hmissing g)⟩,
        fun _ _ g hg => absurd hg (hmissing g)⟩
    · refine ⟨hsound, fun hmeets => ?_, fun hmatch _ g' hg' => ?_⟩
      · have hknown := (hmeets g hstored).known rfl
        refine ⟨hsettles.reconciled h (.inl rfl) hstored ⟨fun _ => hknown, by rintro ⟨⟩⟩, ?_⟩
        intro g' hg' hnone
        obtain rfl : g' = g := Option.some.inj (hg'.symm.trans hstored)
        exact absurd hnone hknown
      · obtain rfl : g' = g := Option.some.inj (hg'.symm.trans hstored)
        exact ⟨fun _ => hsettles.known hmatch, fun hfailed => absurd hfailed (by decide),
          fun hfailed => absurd hfailed (by decide)⟩
  next hcompleted =>
    split
    next hfailed =>
      subst hfailed
      cases hstored : tables.graphs w.store (envelope.event.workspaceId, runId) with
      | none =>
          refine Program.wp_mono (JoinStore.wp_view hw handleSettled_tables) ?_
          rintro r t ⟨hsound, hsettled⟩
          rcases hsettled with ⟨-, hgraphs, hresults⟩ | ⟨g, hg, -⟩
          · exact ⟨hsound, fun _ => ⟨h.of_same hgraphs hresults, by rintro _ ⟨⟩⟩,
              fun _ _ => by rintro _ ⟨⟩⟩
          · exact absurd (hstored.symm.trans hg) (by simp)
      | some g =>
          refine Program.wp_mono (handleFailed_iff hw h hstored) ?_
          rintro r t ⟨hsound, hkept, hmay⟩
          refine ⟨hsound, fun hmeets => ?_, fun hmatch hinert g' hg' => ?_⟩
          · obtain ⟨hreconciled, hinert⟩ := hkept (hmeets g rfl)
            refine ⟨hreconciled, fun g' hg' => ?_⟩
            obtain rfl := Option.some.inj hg'
            exact hinert
          · obtain rfl := Option.some.inj hg'
            exact hmay hmatch (hinert g rfl)
    next hfailed =>
      have htrace : (SubAgentCoordinator.trace envelope.event "orchestration.waiting").wp
          JoinTables.step (fun _ t => t = tables.view w) (tables.view w) := by
        rw [SubAgentCoordinator.trace, PrismAgent.trace, Program.wp_perform]
        exact fun _ _ ht => ht
      refine Program.wp_mono (JoinStore.wp_view hw htrace) ?_
      rintro r t ⟨hsound, hview⟩
      rw [hview]
      exact ⟨hsound, fun _ => ⟨h, fun _ _ _ => rfl⟩, fun _ _ g _ => ⟨fun hc => absurd hc hcompleted,
        fun hf => absurd hf hfailed, fun hf => absurd hf hfailed⟩⟩

/-- A delivery keeps the results accounted for, and the completion of an unknown node inert,
exactly if the world before it is as it asks. -/
theorem deliver_iff {message : Message} (hw : tables.Sound w.store)
    (h : Reconciled (tables.view w)) :
    tables.Sound (deliver env w message).store ∧
      (Deliverable tables w message.envelope → Reconciled (tables.view (deliver env w message))) ∧
      (Meets tables w message ↔ Deliverable tables w message.envelope) := by
  have hwp : (RecursionRunner.dispatch env.registries message).wp env.sem.step
      (fun _ t => tables.Sound t.store ∧
        (Deliverable tables w message.envelope → Reconciled (tables.view t) ∧
          (CompletesUnknown tables w message.envelope → tables.view t = tables.view w)) ∧
        (ResultsMatch (tables.view t) →
          (CompletesUnknown tables w message.envelope → tables.view t = tables.view w) →
            Deliverable tables w message.envelope)) w := by
    have hother : (∀ runId nodeId status,
        message.envelope.event.kind ≠ .subagentCompleted runId nodeId status) →
          ¬CompletesUnknown tables w message.envelope := by
      rintro hkind ⟨runId, nodeId, status, g, hcompleted, -⟩
      exact hkind runId nodeId status hcompleted
    unfold RecursionRunner.dispatch Deliverable
    cases hkind : message.envelope.event.kind with
    | agentAction planId actionId =>
        refine Program.wp_mono (wp_leaves hw (ActionEventHandler.handle_writes _ _) (by decide)
          (by decide)) ?_
        exact fun _ t ht => ⟨ht.sound, fun _ => ⟨ht.reconciled h,
          fun hunknown => absurd hunknown (hother (by rw [hkind]; rintro _ _ _ ⟨⟩))⟩,
          fun _ _ => trivial⟩
    | subagentTask runId nodeId =>
        unfold SubAgentCoordinator.handle
        rw [hkind]
        refine Program.wp_mono (wp_leaves hw (SubAgentCoordinator.handleTask_writes _ _ _ _)
          (by decide) (by decide)) ?_
        exact fun _ t ht => ⟨ht.sound, fun _ => ⟨ht.reconciled h,
          fun hunknown => absurd hunknown (hother (by rw [hkind]; rintro _ _ _ ⟨⟩))⟩,
          fun _ _ => trivial⟩
    | subagentCompleted runId nodeId status =>
        unfold SubAgentCoordinator.handle
        rw [hkind]
        have hunknown : CompletesUnknown tables w message.envelope ↔ ∃ g,
            tables.graphs w.store (message.envelope.event.workspaceId, runId) = some g ∧
              g.getNode nodeId = none := by
          constructor
          · rintro ⟨runId', nodeId', status', g, hkind', hg, hnone⟩
            rw [hkind] at hkind'
            cases hkind'
            exact ⟨g, hg, hnone⟩
          · rintro ⟨g, hg, hnone⟩
            exact ⟨runId, nodeId, status, g, hkind, hg, hnone⟩
        refine Program.wp_mono (handleCompleted_iff hw h) ?_
        rintro r t ⟨hsound, hkept, hmay⟩
        refine ⟨hsound, fun hmeets => ?_, fun hmatch hinert => ?_⟩
        · obtain ⟨hreconciled, hinert⟩ := hkept hmeets
          refine ⟨hreconciled, fun hcompletes => ?_⟩
          obtain ⟨g, hg, hnone⟩ := hunknown.1 hcompletes
          exact hinert g hg hnone
        · exact hmay hmatch fun g hg hnone => hinert (hunknown.2 ⟨g, hg, hnone⟩)
    | _ =>
        refine Program.wp_mono (handleDomain_iff hw h) ?_
        exact fun _ t ht => ⟨ht.1, fun hmeets => ⟨ht.2.1 hmeets,
          fun hunknown => absurd hunknown (hother (by rw [hkind]; rintro _ _ _ ⟨⟩))⟩,
          fun hmatch _ => ht.2.2 hmatch⟩
  obtain ⟨hsound, hkept, hmay⟩ := (Program.wp_step_iff _ _ _ _).1 hwp
  refine ⟨hsound, fun hmeets => (hkept hmeets).1, fun hmatch => ?_, fun hmeets => ?_⟩
  · exact hmay hmatch.1 hmatch.2
  · exact ⟨(hkept hmeets).1.resultsMatch, (hkept hmeets).2⟩

end Deliver

section Runs

variable {env : Env} {σ : Type} [StateStore σ] (tables : JoinStore env σ) {w : World σ}

/-- Every delivery meets the condition in the world before it. -/
def AllDeliverable : World σ → List Message → Prop
  | _, [] => True
  | w, message :: messages =>
      Deliverable tables w message.envelope ∧ AllDeliverable (deliver env w message) messages

variable {tables}

theorem deliverAll_reconciled {messages : List Message} (hw : tables.Sound w.store)
    (h : Reconciled (tables.view w)) (hmeets : AllDeliverable tables w messages) :
    tables.Sound (deliverAll env w messages).store ∧
      Reconciled (tables.view (deliverAll env w messages)) := by
  induction messages generalizing w with
  | nil => exact ⟨hw, h⟩
  | cons message messages ih =>
      have hdelivered : tables.Sound (deliver env w message).store ∧ _ := deliver_iff hw h
      exact ih hdelivered.1 (hdelivered.2.1 hmeets.1) hmeets.2

/-- After a run whose deliveries meet the condition the results match the graphs, and the next
delivery keeps that, and does nothing for an unknown node, exactly if it meets the condition. -/
theorem inert_of_deliverable (hw : tables.Sound w.store) (h : Reconciled (tables.view w))
    (messages : List Message) (hmeets : AllDeliverable tables w messages) :
    ResultsMatch (tables.view (deliverAll env w messages)) ∧
      ∀ message, Meets tables (deliverAll env w messages) message ↔
        Deliverable tables (deliverAll env w messages) message.envelope := by
  obtain ⟨hsound, hreconciled⟩ := deliverAll_reconciled hw h hmeets
  exact ⟨hreconciled.resultsMatch, fun _ => (deliver_iff hsound hreconciled).2.2⟩

end Runs

/-- Over either store: in a run whose deliveries meet the condition the results always match the
graphs, and the next delivery keeps them so, and leaves graphs, versions, results and queue alone
for an unknown node, exactly if it meets the condition. -/
theorem unknown_completions_inert (env : Env) (uuid5 : String → String)
    (henv : PrismApiStateStore.ReturnsPut env uuid5) (persistAgentMemories : Bool)
    (messages : List Message) :
    (AllDeliverable (memoryTables env) { store := {} } messages →
      ResultsMatch ((memoryTables env).view (deliverAll env { store := {} } messages)) ∧
        ∀ message, Meets (memoryTables env) (deliverAll env { store := {} } messages) message ↔
          Deliverable (memoryTables env) (deliverAll env { store := {} } messages)
            message.envelope) ∧
    (AllDeliverable (PrismApiStateStore.apiTables henv) { store := { persistAgentMemories } }
        messages →
      ResultsMatch ((PrismApiStateStore.apiTables henv).view
          (deliverAll env { store := { persistAgentMemories } } messages)) ∧
        ∀ message, Meets (PrismApiStateStore.apiTables henv)
            (deliverAll env { store := { persistAgentMemories } } messages) message ↔
          Deliverable (PrismApiStateStore.apiTables henv)
            (deliverAll env { store := { persistAgentMemories } } messages) message.envelope) := by
  have hempty : ∀ {σ : Type} [StateStore σ] (tables : JoinStore env σ) (store : σ),
      tables.graphs store = (fun _ => none) → tables.results store = (fun _ => []) →
        Reconciled (tables.view { store }) := by
    intro σ _ tables store hgraphs hresults
    refine ⟨fun key g hg => ?_, fun key _ => congrFun hresults key⟩
    have hnone : tables.graphs store key = some g := hg
    rw [hgraphs] at hnone
    cases hnone
  have hbacked : PrismApiStateStore.Backed uuid5 { persistAgentMemories } :=
    ⟨by rintro key g ⟨⟩, fun _ => rfl, List.forall_mem_nil _, by rintro _ _ _ _ ⟨⟩⟩
  refine ⟨inert_of_deliverable ?_ (hempty _ _ rfl rfl) messages,
    inert_of_deliverable hbacked (hempty _ _ rfl rfl) messages⟩
  rintro key g ⟨⟩

section Samples

open PrismApiStateStore (ReturnsPut apiTables latestApi latest)

/-- The completion of a node in the run of `correlatedSeed`. -/
def completionOf (nodeId status : String) : Message :=
  { envelope := .wrap (subAgentCompletedEvent "event" "ws" none "run" nodeId status (some "run")
      (correlatedSeed.event.causality.child "event") []) }

/-- The environment of `correlatedSeed` with an API that keeps what is put. -/
def keepingEnv : Env := { orchestratedEnv with stateApi := fun _ => latestApi }

theorem keepingEnv_returnsPut : ReturnsPut keepingEnv fun raw => raw where
  uuid5 _ := rfl
  memories _ memories workspaceId runId record hrecord := by
    obtain ⟨memoryId, -, hlatest⟩ := List.mem_filterMap.1 hrecord
    exact ⟨memoryId, hlatest⟩

theorem not_plansAnew_correlatedSeed {σ : Type} [StateStore σ] (w : World σ) :
    ¬PlansAnew keepingEnv w correlatedSeed := by
  rintro ⟨workflow, snapshot, hworkflow, hsingle, -⟩
  have hroute : (route orchestratedRegistries.workflows correlatedSeed).workflow =
      some orchestratedWorkflow := rfl
  obtain rfl := Option.some.inj (hroute.symm.trans hworkflow)
  exact absurd hsingle (by decide)

/-- The node of the run is completed; then a failure of an unknown node is inert over the
in-memory store, and saves the graph again over the API-backed one. -/
theorem unknown_completions_inert_sample :
    Meets (memoryTables keepingEnv) (deliverAll keepingEnv { store := {} }
      [{ envelope := correlatedSeed }, completionOf "node" "completed"])
        (completionOf "ghost" "failed") ∧
    ¬Meets (apiTables keepingEnv_returnsPut) (deliverAll keepingEnv
      { store := { persistAgentMemories := true } }
      [{ envelope := correlatedSeed }, completionOf "node" "completed"])
        (completionOf "ghost" "failed") := by
  obtain ⟨hmemory, hapi⟩ := unknown_completions_inert keepingEnv _ keepingEnv_returnsPut true
    [{ envelope := correlatedSeed }, completionOf "node" "completed"]
  constructor
  · refine ((hmemory ⟨fun hplans => absurd hplans (not_plansAnew_correlatedSeed _), fun g hg => ?_,
      trivial⟩).2 _).2 fun g hg => ?_
    · have hnode : ((deliverAll keepingEnv { store := ({} : MemoryStateStore) }
          [{ envelope := correlatedSeed }]).store.taskGraphs ("ws", "run")).map
            (fun g => (g.getNode "node").isSome) = some true := by
        decide
      obtain ⟨g', hg', hsome⟩ := Option.map_eq_some_iff.1 hnode
      obtain rfl := Option.some.inj (hg.symm.trans hg')
      exact ⟨fun _ => Option.isSome_iff_ne_none.1 hsome, fun h => absurd h (by decide),
        fun h => absurd h (by decide)⟩
    · have hnodes : ((deliverAll keepingEnv { store := ({} : MemoryStateStore) }
          [{ envelope := correlatedSeed }, completionOf "node" "completed"]).store.taskGraphs
            ("ws", "run")).map (fun g => g.nodes.any fun n => n.nodeId = "ghost") =
              some false := by
        decide
      obtain ⟨g', hg', hghost⟩ := Option.map_eq_some_iff.1 hnodes
      obtain rfl := Option.some.inj (hg.symm.trans hg')
      refine ⟨fun h => absurd h (by decide), ?_, fun _ hbumps => absurd hbumps (by decide)⟩
      rintro - ⟨n, hn, hid, -⟩
      exact List.any_eq_false.1 hghost n hn (decide_eq_true hid)
  · intro hmeets
    have hnode : ((deliverAll keepingEnv
        { store := ({ persistAgentMemories := true } : PrismApiStateStore) }
        [{ envelope := correlatedSeed }]).store.fallbackStore.taskGraphs ("ws", "run")).map
          (fun g => (g.getNode "node").isSome) = some true := by
      decide
    have hghost : ((deliverAll keepingEnv
        { store := ({ persistAgentMemories := true } : PrismApiStateStore) }
        [{ envelope := correlatedSeed }, completionOf "node" "completed"]).store.fallbackStore
          |>.taskGraphs ("ws", "run")).map (fun g => (g.getNode "ghost").isNone) = some true := by
      decide
    obtain ⟨g, hg, hnone⟩ := Option.map_eq_some_iff.1 hghost
    have hdeliverable := ((hapi ⟨fun hplans => absurd hplans (not_plansAnew_correlatedSeed _),
      fun g hg => ?_, trivial⟩).2 _).1 hmeets
    · exact (hdeliverable g hg).unbumped rfl rfl (Option.isNone_iff_eq_none.1 hnone)
    · obtain ⟨g', hg', hsome⟩ := Option.map_eq_some_iff.1 hnode
      obtain rfl := Option.some.inj (hg.symm.trans hg')
      exact ⟨fun _ => Option.isSome_iff_ne_none.1 hsome, fun h => absurd h (by decide),
        fun h => absurd h (by decide)⟩

/-- The completion of an unknown node stores a result for it. -/
theorem ghost_result_stored :
    ¬ ∀ (env : Env) (messages : List Message) (message : Message),
      Meets (memoryTables env) (deliverAll env { store := {} } messages) message := by
  intro h
  have hgraph : ((deliverAll orchestratedEnv { store := ({} : MemoryStateStore) }
      [{ envelope := correlatedSeed }]).store.taskGraphs ("ws", "run")).map
        (fun g => (g.getNode "ghost").isNone) = some true := by
    decide
  obtain ⟨g, hg, hnone⟩ := Option.map_eq_some_iff.1 hgraph
  obtain ⟨-, hinert⟩ := h orchestratedEnv [{ envelope := correlatedSeed }]
    (completionOf "ghost" "completed")
  have hview := hinert
    ⟨"run", "ghost", "completed", g, rfl, hg, Option.isNone_iff_eq_none.1 hnone⟩
  have hkeys := congrArg (fun s : JoinTables => Dict.keys (s.results ("ws", "run"))) hview
  revert hkeys
  decide

end Samples

end PrismAgent
