import PrismAgent.ColdStart.Saved
import PrismAgent.Handler.Spawns
import PrismAgent.Join.Accounted

/-!
# Deliveries over the API-backed store

The handlers put a context snapshot only under the id that was drawn for it, and a task graph
only with a snapshot of its run. The store therefore stays in place along every delivery, for
the snapshots that were made before it and the one that it makes.
-/

namespace PrismAgent

open Effect
open Function (Injective update)
open ActionEventHandler (Admits Continues Delivery Handles respects_call)
open PrismApiStateStore (Faithful Fits InPlace Puts RefersToOwn SnapshotPut UnderOwnIds)
open SubAgentRunner (planForNode planIdFor subPlanId)

/-- The transport returns what was put last under each memory id of a run, and memory ids are
made by one hash, which does not collide. -/
structure FaithfulTransport (env : Env) (uuid5 : String → String) : Prop where
  faithful : ∀ tick, Faithful (env.stateApi tick)
  hash : ∀ tick, (env.stateApi tick).uuid5 = uuid5
  injective : Injective uuid5

/-- Random ids are new and not empty. -/
structure FreshIds (env : Env) : Prop where
  injective : Injective env.uuid4
  ne_empty : ∀ tick, env.uuid4 tick ≠ ""

/-- The store is in place for the snapshots made so far, which have ids drawn so far and name
their run, and all plans have been put. -/
structure Consistent (env : Env) (made : String → Option ContextSnapshot)
    (w : World PrismApiStateStore) : Prop where
  inPlace : ∀ tick, InPlace (env.stateApi tick) made w.store
  saved : plansPut w.store.memories = w.planWrites
  drawn : ∀ ref snapshot, made ref = some snapshot → ∃ n < w.tick, ref = env.uuid4 n
  own : ∀ ref snapshot, made ref = some snapshot → snapshot.snapshotId = ref ∧
    snapshot.context.workspaceId = snapshot.workspaceId ∧ ∃ runId, snapshot.planId = some runId

/-- What may be saved, with the snapshots in `made`, and what is read. -/
def placing (made : String → Option ContextSnapshot) : Contract Call Call.Answer Exc where
  calls
    | .savePlan plan => NormalKeys plan
    | .updatePlan plan => NormalKeys plan
    | .saveTaskGraph graph => RefersToOwn made graph
    | .saveContextSnapshot snapshot => made snapshot.snapshotId = some snapshot
    | .recordIdempotencyKey key => NormalKey key
    | _ => True
  answers
    | .getPlan _ planId, .ok (some plan) => plan.planId = planId ∧ NormalKeys plan
    | .getTaskGraph workspaceId runId, .ok (some graph) =>
        (workspaceId, runId) = (graph.workspaceId, graph.planId) ∧ RefersToOwn made graph
    | _, _ => True

variable {env : Env} {uuid5 : String → String} {made : String → Option ContextSnapshot}

section Calls

/-- The memory ids of a store are those of every hash that agrees. -/
theorem PrismApiStateStore.InPlace.congr {api api' : StateApi} {store : PrismApiStateStore}
    (hapi : api.uuid5 = api'.uuid5) (h : InPlace api made store) : InPlace api' made store := by
  obtain ⟨fetch, uuid5⟩ := api
  obtain ⟨fetch', uuid5'⟩ := api'
  cases hapi
  exact ⟨h.persists, h.filed, h.fits, h.fallback⟩

/-- The store puts the plans that are written. -/
structure Adds (w t : World PrismApiStateStore) : Prop where
  tick : w.tick ≤ t.tick
  puts : ∃ plans, Puts plans w.store t.store ∧ t.planWrites = w.planWrites ++ plans

theorem Adds.refl (w : World PrismApiStateStore) : Adds w w :=
  ⟨le_rfl, [], .of_eq rfl, (List.append_nil _).symm⟩

theorem Adds.trans {w t u : World PrismApiStateStore} (h : Adds w t) (h' : Adds t u) :
    Adds w u := by
  obtain ⟨plans, hputs, hplans⟩ := h.puts
  obtain ⟨plans', hputs', hplans'⟩ := h'.puts
  refine ⟨h.tick.trans h'.tick, plans ++ plans', hputs.trans hputs', ?_⟩
  rw [hplans', hplans, List.append_assoc]

theorem Adds.memories {w t : World PrismApiStateStore} (h : Adds w t) {m : StoredMemory}
    (hm : m ∈ w.store.memories) : m ∈ t.store.memories := by
  obtain ⟨plans, hputs, -⟩ := h.puts
  exact hputs.memories hm

theorem sem_adds {w : World PrismApiStateStore} (h : w.store.persistAgentMemories = true)
    (call : Call) : Adds w (env.sem call w).2 := by
  have hquiet : ∀ {t : World PrismApiStateStore}, t.tick = w.tick + 1 →
      t.planWrites = w.planWrites → Puts [] w.store t.store → Adds w t :=
    fun htick hplans hputs => ⟨by omega, [], hputs, by rw [hplans, List.append_nil]⟩
  cases call with
  | savePlan plan =>
      exact ⟨Nat.le_succ _, [plan], PrismApiStateStore.puts_savePlan h plan, rfl⟩
  | updatePlan plan =>
      exact ⟨Nat.le_succ _, [plan], PrismApiStateStore.puts_savePlan h plan, rfl⟩
  | getPlan => exact hquiet rfl rfl (PrismApiStateStore.puts_getPlan _ _)
  | getTaskGraph => exact hquiet rfl rfl (PrismApiStateStore.puts_restoreRunState _ _)
  | saveTaskGraph => exact hquiet rfl rfl (PrismApiStateStore.puts_saveTaskGraph _)
  | claimReadyNodes => exact hquiet rfl rfl (PrismApiStateStore.puts_claimReadyNodes _ _)
  | advanceTaskGraph =>
      exact hquiet rfl rfl (PrismApiStateStore.puts_advanceTaskGraph _ _ _ _)
  | saveSubAgentResult =>
      exact hquiet rfl rfl (PrismApiStateStore.puts_saveSubAgentResult _ _ _)
  | getSubAgentResults => exact hquiet rfl rfl (PrismApiStateStore.puts_restoreRunState _ _)
  | saveContextSnapshot =>
      exact hquiet rfl rfl (PrismApiStateStore.puts_saveContextSnapshot _)
  | saveActionResult => exact hquiet rfl rfl (PrismApiStateStore.puts_saveActionResult _)
  | checkIdempotencyKey => exact hquiet rfl rfl (PrismApiStateStore.puts_checkIdempotencyKey _)
  | recordIdempotencyKey => exact hquiet rfl rfl (PrismApiStateStore.puts_recordIdempotencyKey _)
  | _ => exact hquiet rfl rfl (.of_eq rfl)

variable (htransport : FaithfulTransport env uuid5) {w : World PrismApiStateStore}

include htransport

theorem Consistent.of_inPlace (h : Consistent env made w) {t : World PrismApiStateStore}
    (hadds : Adds w t) (hstore : InPlace (env.stateApi w.tick) made t.store) :
    Consistent env made t where
  inPlace tick := hstore.congr ((htransport.hash w.tick).trans (htransport.hash tick).symm)
  saved := by
    obtain ⟨plans, hputs, hplans⟩ := hadds.puts
    rw [hputs.plansPut_eq, h.saved, hplans]
  drawn ref snapshot hmade := by
    obtain ⟨n, hn, href⟩ := h.drawn ref snapshot hmade
    exact ⟨n, hn.trans_le hadds.tick, href⟩
  own := h.own

/-- Calls that respect the contract keep the world consistent. -/
theorem sem_consistent (call : Call) (hcall : (placing made).calls call)
    (h : Consistent env made w) :
    (placing made).answers call (env.sem call w).1 ∧ Consistent env made (env.sem call w).2 := by
  have hapi := htransport.faithful w.tick
  have hplace := h.inPlace w.tick
  have hkeep : InPlace (env.stateApi w.tick) made (env.sem call w).2.store →
      Consistent env made (env.sem call w).2 :=
    h.of_inPlace htransport (sem_adds hplace.persists call)
  cases call with
  | getPlan workspaceId planId =>
      obtain ⟨hstore, hread⟩ := hplace.getPlan hapi workspaceId planId
      refine ⟨?_, hkeep hstore⟩
      change (placing made).answers (.getPlan workspaceId planId)
        (.ok (w.store.getPlan (env.stateApi w.tick) workspaceId planId).1)
      cases hfound : (w.store.getPlan (env.stateApi w.tick) workspaceId planId).1 with
      | none => trivial
      | some plan => exact hread plan hfound
  | savePlan plan => exact ⟨trivial, hkeep (hplace.savePlan hcall)⟩
  | updatePlan plan => exact ⟨trivial, hkeep (hplace.savePlan hcall)⟩
  | getTaskGraph workspaceId runId =>
      obtain ⟨hstore, hread⟩ := hplace.getTaskGraph hapi workspaceId runId
      refine ⟨?_, hkeep hstore⟩
      change (placing made).answers (.getTaskGraph workspaceId runId)
        (.ok (w.store.getTaskGraph (env.stateApi w.tick) workspaceId runId).1)
      cases hfound : (w.store.getTaskGraph (env.stateApi w.tick) workspaceId runId).1 with
      | none => trivial
      | some graph => exact hread graph hfound
  | saveTaskGraph graph => exact ⟨trivial, hkeep (hplace.saveTaskGraph hcall)⟩
  | claimReadyNodes workspaceId runId =>
      exact ⟨trivial, hkeep (hplace.claimReadyNodes hapi workspaceId runId)⟩
  | advanceTaskGraph workspaceId runId nodeId status =>
      exact ⟨trivial, hkeep (hplace.advanceTaskGraph hapi workspaceId runId nodeId status)⟩
  | saveSubAgentResult workspaceId runId result =>
      exact ⟨trivial, hkeep (hplace.saveSubAgentResult workspaceId runId result)⟩
  | getSubAgentResults workspaceId runId =>
      exact ⟨trivial, hkeep (hplace.restoreRunState hapi workspaceId runId)⟩
  | saveContextSnapshot snapshot =>
      obtain ⟨-, -, runId, hrun⟩ := h.own _ _ hcall
      exact ⟨trivial, hkeep (hplace.saveContextSnapshot hcall hrun)⟩
  | saveActionResult result => exact ⟨trivial, hkeep (hplace.saveActionResult result)⟩
  | checkIdempotencyKey key =>
      exact ⟨trivial, hkeep (hplace.checkIdempotencyKey hapi key)⟩
  | recordIdempotencyKey key =>
      exact ⟨trivial, hkeep (hplace.recordIdempotencyKey hcall)⟩
  | appendTraceEvent traceEvent =>
      exact ⟨trivial, hkeep ⟨hplace.persists, hplace.filed, hplace.fits,
        ⟨hplace.fallback.plans, hplace.fallback.taskGraphs, hplace.fallback.contextSnapshots⟩⟩⟩
  | _ => exact ⟨trivial, hkeep hplace⟩

/-- Programs that respect the contract do so too. -/
theorem wp_consistent {α : Type} {p : App α} {Q : α → Prop} (hp : p.Respects (placing made) Q)
    (h : Consistent env made w) :
    p.wp env.sem.step
      (fun r t => (Consistent env made t ∧ Adds w t) ∧ ∀ a, r = .ok a → Q a) w := by
  refine Program.wp_of_respects ?_ hp ⟨h, .refl w⟩
  rintro s call r t hcall hstep ⟨hs, hadds⟩
  obtain ⟨rfl, rfl⟩ := Prod.mk.inj hstep
  obtain ⟨hanswer, ht⟩ := sem_consistent htransport call hcall hs
  exact ⟨hanswer, ht, hadds.trans (sem_adds (hs.inPlace 0).persists call)⟩

end Calls

section Handlers

/-- The parts that hold neither plans nor graphs nor snapshots nor keys. -/
def looseParts : List Part :=
  .subAgentResults :: .actionResults :: .executions :: announced

/-- A program that writes such parts only respects the contract. -/
theorem respects_placing {α : Type} {parts : List Part} {p : App α} (hp : Writes parts p)
    (hparts : ∀ part ∈ parts, part ∈ looseParts) :
    p.Respects (placing made) fun a => p.MayReturn a := by
  refine Program.OnlyCalls.respects_mayReturn (hp.mono hparts) fun call hcall => ?_
  cases call with
  | savePlan => cases hcall
  | updatePlan => cases hcall
  | saveTaskGraph => cases hcall
  | saveContextSnapshot => cases hcall
  | recordIdempotencyKey => cases hcall
  | _ => trivial

theorem trace_placing (event : RuntimeEvent) (eventName : String)
    (planId actionId : Option String) :
    (trace event eventName planId actionId).Respects (placing made) fun _ => True :=
  respects_call trivial

/-- A plan that is read has the id it is asked for. -/
theorem read_plan_placing (workspaceId planId : String) :
    (perform (.getPlan workspaceId planId)).Respects (placing made) fun found =>
      ∀ plan, found = some plan → plan.planId = planId ∧ NormalKeys plan := by
  refine Program.respects_perform trivial fun found hfound plan hplan => ?_
  subst hplan
  exact hfound

/-- What a node's plan is filed under and refers to. -/
theorem planForNode_filed {registries : Registries} {node : SubTask} {context : AgentContext}
    {contextSnapshotRef runId : String} {workflow : WorkflowDefinition} {plan : AgentPlan}
    (h : (planForNode registries node context contextSnapshotRef workflow runId).MayReturn plan) :
    plan.key = (context.workspaceId, planIdFor runId node.nodeId) ∧
      plan.contextSnapshotRef = contextSnapshotRef ∧ NormalKeys plan := by
  refine ⟨(SubAgentRunner.planForNode_orderly h).1, ?_⟩
  unfold planForNode at h
  split at h
  · obtain ⟨form, proposed, -, -, href, -, rfl⟩ := Planner.createPlan_mayReturn h
    exact ⟨href, (Planner.normalizePlanForRuntime_keyed form proposed).normalKeys⟩
  · obtain ⟨created, hcreated, hplan⟩ := Program.mayReturn_bind.1 h
    obtain ⟨form, proposed, -, -, href, -, rfl⟩ := Planner.createPlan_mayReturn hcreated
    obtain rfl := (Program.mayReturn_pure _).1 hplan
    exact ⟨href, (Planner.normalizePlanForRuntime_keyed form proposed).normalKeys⟩

namespace ActionEventHandler

theorem continues_placing (envelope : EventEnvelope) (plan : AgentPlan) :
    Continues (placing made) envelope plan where
  uuid4 := trivial
  appendTraceEvent _ := trivial
  sync _ := trivial
  enqueue _ _ := trivial

/-- The action of a delivery is one of its plan. -/
theorem handles_placing {d : Delivery} (hplan : NormalKeys d.plan)
    (haction : d.action ∈ d.plan.actions) : Handles (placing made) (fun _ => True) d where
  continues := continues_placing d.envelope d.plan
  getCurrentEntityVersions _ _ _ := trivial
  saveActionResult _ := trivial
  recordIdempotencyKey := hplan d.action haction
  executeOne := trivial
  updatePlan _ := hplan.replaceAction (hplan d.action haction)
  enqueue _ _ := trivial
  suggestion _ _ := trivial
  emitted _ _ _ _ := trivial

/-- An action that is selected is one of its plan. -/
theorem selectAction_placing (envelope : EventEnvelope) (planId actionId : String) :
    (selectAction envelope planId actionId).Respects (placing made) fun selection =>
      ∀ d, selection = .selected d → NormalKeys d.plan ∧ d.action ∈ d.plan.actions := by
  refine .bind (read_plan_placing _ _) ?_
  rintro (_ | plan) hplan
  · trivial
  · dsimp only
    split
    next => trivial
    next action haction =>
      split
      next => rintro d ⟨⟩
      next =>
        refine .bind (respects_call trivial) ?_
        rintro (_ | snapshot) -
        · trivial
        · refine .bind (respects_call trivial) ?_
          rintro (_ | _) -
          · rintro d ⟨⟩
            exact ⟨(hplan plan rfl).2, AgentPlan.mem_of_getAction haction⟩
          · rintro d ⟨⟩

theorem handleOne_placing (inline : Bool) (envelope : EventEnvelope) :
    (handleOne inline envelope).Respects (placing made) fun _ => True := by
  unfold handleOne
  split
  next planId actionId _ =>
    refine .bind (selectAction_placing envelope planId actionId) ?_
    rintro (⟨plan, action⟩ | d | d) hselection
    · exact ((continues_placing envelope plan).skipAction inline action).mono fun _ _ => trivial
    · exact .bind (trace_placing _ _ _ _) fun _ _ => trivial
    · obtain ⟨hplan, haction⟩ := hselection d rfl
      exact ((handles_placing hplan haction).decideAction inline).mono fun _ _ => trivial
  next => trivial

theorem handle_placing (budget : ℕ) (envelope : EventEnvelope) :
    (handle budget envelope).Respects (placing made) fun _ => True := by
  induction budget generalizing envelope with
  | zero => exact .bind (handleOne_placing false envelope) fun _ _ => trivial
  | succ budget ih =>
      refine .bind (handleOne_placing true envelope) fun chained _ => ?_
      split
      · trivial
      · exact ih _

end ActionEventHandler

namespace SubAgentCoordinator

theorem handleCompleted_placing (envelope : EventEnvelope) (runId nodeId status : String) :
    (handleCompleted envelope runId nodeId status).Respects (placing made) fun _ => True := by
  have hsettled : ∀ status', (handleSettled envelope runId nodeId status').Respects
      (placing made) fun _ => True := by
    intro status'
    refine .bind (respects_call trivial) fun found _ => ?_
    split
    · exact trace_placing _ _ _ _
    · split
      · exact trace_placing _ _ _ _
      · exact (respects_placing (settleAdvance_writes envelope _ _ _ _) (by decide)).mono
          fun _ _ => trivial
  unfold handleCompleted
  split
  · exact hsettled _
  · split
    · exact hsettled _
    · exact trace_placing _ _ _ _

end SubAgentCoordinator

namespace DomainEventHandler

variable {envelope : EventEnvelope} {workflow : WorkflowDefinition} {snapshot : ContextSnapshot}
  {runId : String}

theorem startGraph_placing {graph : TaskGraph}
    (hsnapshot : made snapshot.snapshotId = some { snapshot with planId := some runId })
    (hgraph : RefersToOwn made graph) :
    (startGraph envelope snapshot runId graph).Respects (placing made) fun _ => True := by
  refine .bind (respects_call hsnapshot) fun _ _ => .bind (respects_call hgraph) fun _ _ => ?_
  refine .bind (trace_placing _ _ _ _) fun _ _ => .bind (respects_call trivial) fun ready _ => ?_
  split
  · exact .bind (respects_call trivial) fun _ _ => trace_placing _ _ _ _
  · exact (respects_placing (dispatchReady_writes envelope _ _ _ _) (by decide)).mono
      fun _ _ => trivial

theorem enqueueFirstAction_placing {plan : AgentPlan} (hplan : NormalKeys plan) :
    (enqueueFirstAction envelope plan).Respects (placing made) fun _ => True := by
  unfold enqueueFirstAction
  split
  · split
    · exact trace_placing _ _ _ _
    · refine .bind (respects_call hplan) fun _ _ => .bind (respects_call trivial) fun _ _ => ?_
      exact .bind (trace_placing _ _ _ _) fun _ _ => trace_placing _ _ _ _
  · refine .bind (respects_call trivial) fun _ _ => .bind (respects_call trivial) fun _ _ => ?_
    exact trace_placing _ _ _ _

/-- A run that is not orchestrated has a graph without a snapshot. -/
theorem buildPlan_placing (registries : Registries) :
    (buildPlan registries workflow snapshot runId).Respects (placing made) fun plan =>
      plan.planId = runId ∧ NormalKeys plan := by
  refine Program.Respects.tryCatch ?_ fun exc => .bind (respects_call trivial) fun _ _ => trivial
  refine .bind (respects_call fun ref href => by cases href) fun _ _ => ?_
  refine (respects_placing (SubAgentRunner.planForNode_writes _ _ _ _ _ _) (by simp)).mono
    fun plan hplan => ?_
  obtain ⟨hkey, -, hkeys⟩ := planForNode_filed hplan
  exact ⟨(Prod.mk.inj hkey).2, hkeys⟩

variable (registries : Registries)
  (hsnapshot : made snapshot.snapshotId = some { snapshot with planId := some runId })

include hsnapshot

/-- The graph of a run refers to the snapshot that is put with it. -/
theorem handleOrchestrated_placing
    (hworkspace : snapshot.context.workspaceId = snapshot.workspaceId) :
    (handleOrchestrated registries envelope workflow snapshot runId).Respects (placing made)
      fun _ => True := by
  refine .bind (respects_call trivial) fun found _ => ?_
  split
  · exact trace_placing _ _ _ _
  · refine .bind (respects_placing (unlessTerminal_writes envelope _ _) (by decide))
      fun started _ => ?_
    split
    · trivial
    · refine .bind (respects_liftExcept _) fun graph hgraph => ?_
      obtain ⟨hws, hid, -, -⟩ := Orchestrator.buildOrchestratedGraph_founding hgraph
        (some snapshot.ref)
      refine startGraph_placing hsnapshot fun ref href => ?_
      obtain rfl := Option.some.inj href
      exact ⟨_, hsnapshot, hworkspace.symm.trans hws.symm, congrArg some hid.symm⟩

theorem startPlan_placing (replan : Bool) :
    (startPlan registries envelope workflow snapshot runId replan).Respects (placing made)
      fun _ => True := by
  refine .bind (respects_placing (startRun_writes envelope _ _ _ _) (by decide))
    fun started _ => ?_
  split
  · trivial
  · refine .bind (buildPlan_placing registries) fun plan hplan => ?_
    obtain ⟨rfl, hkeys⟩ := hplan
    refine .bind (respects_call hsnapshot) fun _ _ => .bind (respects_call hkeys) fun _ _ => ?_
    refine .bind (respects_call trivial) fun _ _ => .bind (trace_placing _ _ _ _) fun _ _ => ?_
    exact enqueueFirstAction_placing hkeys

/-- A resumed plan gets a snapshot under its own id. -/
theorem handlePlan_placing :
    (handlePlan registries envelope workflow snapshot runId).Respects (placing made)
      fun _ => True := by
  refine .bind (read_plan_placing _ _) ?_
  rintro (_ | plan) hplan
  · exact startPlan_placing registries hsnapshot false
  · dsimp only
    split
    · exact startPlan_placing registries hsnapshot true
    · obtain ⟨rfl, hkeys⟩ := hplan plan rfl
      refine .bind (respects_call hsnapshot) fun _ _ => .bind (trace_placing _ _ _ _) fun _ _ => ?_
      exact enqueueFirstAction_placing hkeys

end DomainEventHandler

end Handlers

section Snapshots

/-- The snapshots made so far are made still. -/
def Extends (made made' : String → Option ContextSnapshot) : Prop :=
  ∀ ref snapshot, made ref = some snapshot → made' ref = some snapshot

theorem Extends.trans {made' made'' : String → Option ContextSnapshot} (h : Extends made made')
    (h' : Extends made' made'') : Extends made made'' :=
  fun ref snapshot hmade => h' ref snapshot (h ref snapshot hmade)

theorem PrismApiStateStore.RefersToOwn.extend {made' : String → Option ContextSnapshot}
    {graph : TaskGraph} (h : RefersToOwn made graph) (hextends : Extends made made') :
    RefersToOwn made' graph := by
  intro ref href
  obtain ⟨snapshot, hmade, hsame⟩ := h ref href
  exact ⟨snapshot, hextends ref snapshot hmade, hsame⟩

theorem PrismApiStateStore.InPlace.extend {made' : String → Option ContextSnapshot}
    {api : StateApi} {store : PrismApiStateStore} (h : InPlace api made store)
    (hextends : Extends made made') : InPlace api made' store where
  persists := h.persists
  filed := h.filed
  fits m hm := by
    have hfits := h.fits m hm
    cases hrecord : m.record with
    | contextSnapshot snapshot =>
        rw [hrecord] at hfits
        exact hextends _ _ hfits
    | taskGraph graph =>
        rw [hrecord] at hfits
        exact RefersToOwn.extend hfits hextends
    | plan plan =>
        rw [hrecord] at hfits
        exact hfits
    | idempotencyKey key =>
        rw [hrecord] at hfits
        exact hfits
    | _ => trivial
  fallback :=
    ⟨h.fallback.plans, fun key graph hgraph =>
      ⟨(h.fallback.taskGraphs key graph hgraph).1,
        (h.fallback.taskGraphs key graph hgraph).2.extend hextends⟩, h.fallback.contextSnapshots⟩

/-- Hydration draws the id of the snapshot and changes nothing else. -/
theorem hydrate_draws (envelope : EventEnvelope) (workflow : WorkflowDefinition)
    (w : World PrismApiStateStore) :
    (ContextProvider.hydrate env.registries envelope workflow).wp env.sem.step
      (fun r t => (∀ x, r = .error x → t = w) ∧ ∀ snapshot, r = .ok snapshot →
        t = { w with tick := w.tick + 4 } ∧ snapshot.snapshotId = env.uuid4 (w.tick + 3) ∧
          snapshot.context.workspaceId = snapshot.workspaceId) w := by
  unfold ContextProvider.hydrate
  refine wp_liftExcept (fun x => ⟨fun _ _ => rfl, by rintro _ ⟨⟩⟩) fun prompt _ => ?_
  refine (Program.wp_step_iff _ _ _ _).2 ⟨by rintro _ ⟨⟩, ?_⟩
  rintro snapshot ⟨⟩
  exact ⟨rfl, rfl, rfl⟩

variable (hfresh : FreshIds env) {w : World PrismApiStateStore}

include hfresh

/-- A snapshot of a run is made with an id that is drawn for it. -/
theorem Consistent.make (h : Consistent env made w) {n tick : ℕ} (hn : w.tick ≤ n)
    (htick : n < tick) {snapshot : ContextSnapshot} (hid : snapshot.snapshotId = env.uuid4 n)
    (hworkspace : snapshot.context.workspaceId = snapshot.workspaceId) {runId : String}
    (hrun : snapshot.planId = some runId) :
    Extends made (update made snapshot.snapshotId (some snapshot)) ∧
      Consistent env (update made snapshot.snapshotId (some snapshot))
        { w with tick := tick } := by
  have hextends : Extends made (update made snapshot.snapshotId (some snapshot)) := by
    intro ref other hmade
    rw [Function.update_of_ne]
    · exact hmade
    · rintro rfl
      obtain ⟨k, hk, hdrawn⟩ := h.drawn _ other hmade
      have hsame : n = k := hfresh.injective (hid.symm.trans hdrawn)
      omega
  refine ⟨hextends, fun tick => (h.inPlace tick).extend hextends, h.saved, ?_, ?_⟩
  · refine forall_update (fun ref other hmade => ?_) ⟨n, htick, hid⟩
    obtain ⟨k, hk, hdrawn⟩ := h.drawn ref other hmade
    exact ⟨k, by dsimp only; omega, hdrawn⟩
  · exact forall_update h.own ⟨rfl, hworkspace, runId, hrun⟩

end Snapshots

section Tasks

/-- `plans` have been saved, and the world is consistent still. -/
structure SavesPlans (env : Env) (made : String → Option ContextSnapshot) (plans : List AgentPlan)
    (w t : World PrismApiStateStore) : Prop where
  consistent : Consistent env made t
  adds : Adds w t
  planWrites : t.planWrites = w.planWrites ++ plans

theorem SavesPlans.trans {plans plans' : List AgentPlan} {w t u : World PrismApiStateStore}
    (h : SavesPlans env made plans w t) (h' : SavesPlans env made plans' t u) :
    SavesPlans env made (plans ++ plans') w u :=
  ⟨h'.consistent, h.adds.trans h'.adds, by rw [h'.planWrites, h.planWrites, List.append_assoc]⟩

/-- The plan is filed under the id of the plan of a node, and refers to a snapshot that has been
put for the run. -/
structure PlannedFrom (memories : List StoredMemory) (workspaceId runId nodeId : String)
    (snapshot : ContextSnapshot) (plan : AgentPlan) : Prop where
  key : plan.key = (workspaceId, planIdFor runId nodeId)
  ref : plan.contextSnapshotRef = snapshot.snapshotId
  put : SnapshotPut memories (.contextSnapshot snapshot)
  workspace : snapshot.workspaceId = workspaceId
  run : snapshot.planId = some runId

variable (htransport : FaithfulTransport env uuid5) {w : World PrismApiStateStore}

include htransport

theorem sem_saves_nothing (call : Call) (hcall : call.writesIn looseParts = true)
    (h : Consistent env made w) : SavesPlans env made [] w (env.sem call w).2 := by
  have hplacing : (placing made).calls call := by
    cases call with
    | savePlan => cases hcall
    | updatePlan => cases hcall
    | saveTaskGraph => cases hcall
    | saveContextSnapshot => cases hcall
    | recordIdempotencyKey => cases hcall
    | _ => trivial
  refine ⟨(sem_consistent htransport call hplacing h).2, sem_adds (h.inPlace 0).persists call, ?_⟩
  rw [List.append_nil]
  cases call with
  | savePlan => cases hcall
  | updatePlan => cases hcall
  | _ => rfl

theorem wp_saves_nothing {α : Type} {parts : List Part} {p : App α} (hp : Writes parts p)
    (hparts : ∀ part ∈ parts, part ∈ looseParts) (h : Consistent env made w) :
    p.wp env.sem.step
      (fun r t => SavesPlans env made [] w t ∧ ∀ a, r = .ok a → p.MayReturn a) w := by
  refine Program.wp_of_respects (C := { calls := fun call => call.writesIn looseParts = true })
    ?_ (Program.OnlyCalls.respects_mayReturn (hp.mono hparts) fun _ hcall => hcall)
    ⟨h, .refl w, (List.append_nil _).symm⟩
  intro s call r t hcall hstep hs
  obtain ⟨rfl, rfl⟩ := Prod.mk.inj hstep
  exact ⟨trivial, hs.trans (sem_saves_nothing htransport call hcall hs.consistent)⟩

/-- A plan with `P` is saved, or none. -/
def MaySave (env : Env) (made : String → Option ContextSnapshot) (w : World PrismApiStateStore)
    (P : AgentPlan → Prop) (t : World PrismApiStateStore) : Prop :=
  SavesPlans env made [] w t ∨ ∃ plan, P plan ∧ SavesPlans env made [plan] w t

variable {P : AgentPlan → Prop} {s : World PrismApiStateStore}

/-- What announces only leaves what has been saved. -/
theorem wp_saves_then {α : Type} {p : App α} (h : MaySave env made w P s)
    (hp : Writes announced p) : p.wp env.sem.step (fun _ t => MaySave env made w P t) s := by
  rcases h with hs | ⟨plan, hplan, hs⟩
  · refine Program.wp_mono (wp_saves_nothing htransport hp (by decide) hs.consistent) ?_
    exact fun _ t ht => .inl (hs.trans ht.1)
  · refine Program.wp_mono (wp_saves_nothing htransport hp (by decide) hs.consistent) ?_
    exact fun _ t ht => .inr ⟨plan, hplan, hs.trans ht.1⟩

/-- It goes on from there. -/
theorem wp_saves_bind {α β : Type} {parts : List Part} {p : App α} {f : α → App β}
    (hp : Writes parts p) (hparts : ∀ part ∈ parts, part ∈ looseParts)
    (h : SavesPlans env made [] w s)
    (hnext : ∀ a t, p.MayReturn a → SavesPlans env made [] w t →
      (f a).wp env.sem.step (fun _ u => MaySave env made w P u) t) :
    (p >>= f).wp env.sem.step (fun _ u => MaySave env made w P u) s := by
  rw [Program.wp_bind]
  refine Program.wp_mono (wp_saves_nothing htransport hp hparts h.consistent) ?_
  rintro (x | a) t ⟨ht, hreturn⟩
  · exact .inl (h.trans ht)
  · exact hnext a t (hreturn a rfl) (h.trans ht)

variable {envelope : EventEnvelope} {runId : String}

omit htransport in
theorem planningContext_workspaceId {event : RuntimeEvent} {graph : TaskGraph} {node : SubTask}
    {snapshot : ContextSnapshot} {context : AgentContext}
    (h : (SubAgentCoordinator.planningContext event graph node snapshot runId).MayReturn context) :
    context.workspaceId = snapshot.context.workspaceId := by
  unfold SubAgentCoordinator.planningContext SubAgentCoordinator.injectResults at h
  split at h
  · obtain ⟨results, -, hcontext⟩ := Program.mayReturn_bind.1 h
    obtain rfl := (Program.mayReturn_pure _).1 hcontext
    rfl
  · obtain rfl := (Program.mayReturn_pure _).1 h
    rfl

/-- A node is planned once, and its plan is saved. -/
theorem planNode_saves {graph : TaskGraph} {node : SubTask} {snapshot : ContextSnapshot}
    (hs : SavesPlans env made [] w s)
    (hP : ∀ plan : AgentPlan,
      plan.key = (snapshot.context.workspaceId, planIdFor runId node.nodeId) →
        plan.contextSnapshotRef = snapshot.snapshotId → P plan) :
    (SubAgentCoordinator.planNode env.registries envelope graph node snapshot runId).wp
      env.sem.step (fun _ t => MaySave env made w P t) s := by
  unfold SubAgentCoordinator.planNode
  dsimp only
  refine wp_saves_bind htransport (SubAgentCoordinator.planningContext_writes _ _ _ _ _) (by simp)
    hs fun context s₁ hcontext hs₁ => ?_
  refine wp_saves_bind htransport (Writes.liftExcept _ : Writes [] _) (by simp) hs₁
    fun workflow s₂ _ hs₂ => ?_
  refine wp_saves_bind htransport (trace_writes (List.mem_singleton_self Part.traces) _ _ _ _)
    (by decide) hs₂ fun _ s₃ _ hs₃ => ?_
  refine wp_saves_bind htransport (SubAgentRunner.planForNode_writes _ _ _ _ _ _) (by simp) hs₃
    fun plan s₄ hplan hs₄ => ?_
  obtain ⟨hkey, href, hkeys⟩ := planForNode_filed hplan
  rw [planningContext_workspaceId hcontext] at hkey
  have hsaved : SavesPlans env made [plan] s₄ (env.sem (.savePlan plan) s₄).2 :=
    ⟨(sem_consistent htransport (.savePlan plan) hkeys hs₄.consistent).2,
      sem_adds (hs₄.consistent.inPlace 0).persists _, rfl⟩
  rw [Program.wp_bind, Program.wp_perform_step]
  change Program.wp _ _ _ (env.sem (.savePlan plan) s₄).2
  refine wp_saves_then htransport (.inr ⟨plan, hP plan hkey href, hs₄.trans hsaved⟩) ?_
  refine .bind (.perform rfl) fun _ => ?_
  split
  · exact .bind (trace_writes (by decide) _ _ _ _) fun _ =>
      (SubAgentCoordinator.enqueueCompleted_writes envelope _ _ _).mono (by decide)
  · exact .bind ((SubAgentCoordinator.enqueueAction_writes envelope _ _).mono (by decide))
      fun _ => trace_writes (by decide) _ _ _ _

omit htransport in
/-- A snapshot in the table has been put, and is the one that was made. -/
theorem Consistent.getContextSnapshot {workspaceId ref : String} {snapshot : ContextSnapshot}
    (h : Consistent env made w)
    (hread : w.store.getContextSnapshot workspaceId ref = some snapshot) :
    made ref = some snapshot ∧ snapshot.workspaceId = workspaceId ∧
      SnapshotPut w.store.memories (.contextSnapshot snapshot) := by
  obtain ⟨hkey, m, hm, hrecord⟩ := (h.inPlace 0).fallback.contextSnapshots _ snapshot hread
  obtain ⟨rfl, rfl⟩ := Prod.mk.inj hkey
  exact ⟨(h.inPlace 0).made_of_mem hm hrecord, rfl, m, hm, hrecord⟩

omit htransport in
/-- The snapshot that a graph refers to is one of its run. -/
theorem Consistent.run_of_graph (hfresh : FreshIds env) {graph : TaskGraph}
    {snapshot : ContextSnapshot} (h : Consistent env made w)
    (hgraph : RefersToOwn made graph)
    (hmade : made (graph.contextSnapshotRef.getD "") = some snapshot) :
    snapshot.planId = some graph.planId := by
  cases href : graph.contextSnapshotRef with
  | none =>
      rw [href] at hmade
      obtain ⟨n, -, hempty⟩ := h.drawn _ snapshot hmade
      exact absurd hempty.symm (hfresh.ne_empty n)
  | some ref =>
      obtain ⟨own, hown, -, hrun⟩ := hgraph ref href
      rw [href] at hmade
      obtain rfl := Option.some.inj (hmade.symm.trans hown)
      exact hrun

/-- The task of a node saves its plan with the snapshot of its run, or no plan. -/
theorem handleTask_saves (hfresh : FreshIds env) (h : Consistent env made w)
    (envelope : EventEnvelope) (runId nodeId : String) :
    (SubAgentCoordinator.handleTask env.registries envelope runId nodeId).wp env.sem.step
      (fun _ t => MaySave env made w (fun plan => ∃ snapshot,
        PlannedFrom w.store.memories envelope.event.workspaceId runId nodeId snapshot plan) t)
      w := by
  have htrace : ∀ {s : World PrismApiStateStore} {P : AgentPlan → Prop} (eventName : String),
      SavesPlans env made [] w s →
        (SubAgentCoordinator.trace envelope.event eventName).wp env.sem.step
          (fun _ t => MaySave env made w P t) s := fun eventName hs =>
    wp_saves_then htransport (.inl hs) (trace_writes (by decide) _ _ _ _)
  generalize hws : envelope.event.workspaceId = workspaceId
  unfold SubAgentCoordinator.handleTask
  dsimp only
  rw [hws, Program.wp_bind, Program.wp_perform_step]
  have hread := (sem_consistent htransport (.getTaskGraph workspaceId runId) trivial h).1
  have hw₁ := sem_saves_nothing htransport (.getTaskGraph workspaceId runId) rfl h
  have hsame₁ : (env.sem (.getTaskGraph workspaceId runId) w).2.store.memories =
    w.store.memories := PrismApiStateStore.restoreRunState_memories.1
  generalize env.sem (.getTaskGraph workspaceId runId) w = read at *
  obtain ⟨_ | _ | graph, w₁⟩ := read
  · exact .inl hw₁
  · exact htrace _ hw₁
  obtain ⟨hkey, hgraph⟩ := hread
  rw [Program.andThen_ok]
  dsimp only
  cases hnode : graph.getNode nodeId with
  | none => exact htrace _ hw₁
  | some node =>
      dsimp only
      split
      · exact htrace _ hw₁
      · rw [Program.wp_bind, Program.wp_perform_step]
        have hw₂ := hw₁.trans (sem_saves_nothing htransport
          (.getPlan workspaceId (subPlanId runId node.nodeId)) rfl hw₁.consistent)
        have hsame₂ : (env.sem (.getPlan workspaceId (subPlanId runId node.nodeId))
          w₁).2.store.memories = w₁.store.memories := PrismApiStateStore.getPlan_restores.2.1
        generalize env.sem (.getPlan workspaceId (subPlanId runId node.nodeId)) w₁ = read at *
        obtain ⟨_ | _ | subPlan, w₂⟩ := read
        · exact .inl hw₂
        · rw [Program.andThen_ok]
          dsimp only at hsame₁ hsame₂ ⊢
          have hw₃ := hw₂.trans (sem_saves_nothing htransport (.getContextSnapshot workspaceId
            (graph.contextSnapshotRef.getD "")) rfl hw₂.consistent)
          rw [Program.wp_bind, Program.wp_perform_step]
          change Program.andThen _ _ _ (.ok (w₂.store.getContextSnapshot workspaceId
            (graph.contextSnapshotRef.getD ""))) _
          cases hsnapshot : w₂.store.getContextSnapshot workspaceId
              (graph.contextSnapshotRef.getD "") with
          | none => exact htrace _ hw₃
          | some snapshot =>
              obtain ⟨hmade, hworkspace, hput⟩ := hw₂.consistent.getContextSnapshot hsnapshot
              obtain ⟨hid, hcontext, -⟩ := h.own _ snapshot hmade
              refine planNode_saves htransport hw₃ fun plan hplan href => ?_
              refine ⟨snapshot, ?_, href, ?_, hworkspace, ?_⟩
              · rw [hplan, hcontext, hworkspace, getNode_nodeId hnode]
              · rw [← hsame₁, ← hsame₂]
                exact hput
              · rw [(Prod.mk.inj hkey).2]
                exact h.run_of_graph hfresh hgraph hmade
        · exact wp_saves_then htransport (.inl hw₂)
            (SubAgentCoordinator.resumeExistingSubplan_writes envelope _ _ _)

end Tasks

section Deliver

/-- The world is consistent for the snapshots made so far and those made since. -/
structure GrowsTo (env : Env) (made : String → Option ContextSnapshot)
    (w t : World PrismApiStateStore) : Prop where
  adds : Adds w t
  made : ∃ made', Extends made made' ∧ Consistent env made' t

variable (htransport : FaithfulTransport env uuid5) (hfresh : FreshIds env)
  {w : World PrismApiStateStore} (h : Consistent env made w)

include htransport h

theorem wp_growsTo {α : Type} {p : App α} (hp : p.Respects (placing made) fun _ => True) :
    p.wp env.sem.step (fun _ t => GrowsTo env made w t) w :=
  Program.wp_mono (wp_consistent htransport hp h) fun _ _ ht =>
    ⟨ht.1.2, made, fun _ _ => id, ht.1.1⟩

include hfresh

/-- A domain event makes a snapshot for the run that it starts or resumes. -/
theorem handleDomain_growsTo (envelope : EventEnvelope) :
    (DomainEventHandler.handle env.registries envelope).wp env.sem.step
      (fun _ t => GrowsTo env made w t) w := by
  unfold DomainEventHandler.handle
  split
  · exact wp_growsTo htransport h (trace_placing _ _ _ _)
  · rw [Program.wp_bind]
    refine Program.wp_mono (hydrate_draws envelope _ w) ?_
    rintro (x | snapshot) t ⟨herror, hok⟩
    · obtain rfl := herror x rfl
      exact ⟨.refl t, made, fun _ _ => id, h⟩
    · obtain ⟨rfl, hid, hworkspace⟩ := hok snapshot rfl
      rw [Program.andThen_ok]
      dsimp only
      generalize resolveAgentRunId snapshot.context = runId
      have hn : w.tick ≤ w.tick + 3 := by omega
      have htick : w.tick + 3 < w.tick + 4 := by omega
      obtain ⟨hextends, hmade⟩ := h.make hfresh hn htick
        (show ({ snapshot with planId := some runId } : ContextSnapshot).snapshotId = _ from hid)
        hworkspace rfl
      have hdrawn : Adds w { w with tick := w.tick + 4 } :=
        ⟨by dsimp only; omega, [], .of_eq rfl, (List.append_nil _).symm⟩
      have hgrows : ∀ {p : App Unit}, p.Respects (placing (update made snapshot.snapshotId
          (some { snapshot with planId := some runId }))) (fun _ => True) →
            p.wp env.sem.step (fun _ t => GrowsTo env made w t) { w with tick := w.tick + 4 } := by
        intro p hp
        refine Program.wp_mono (wp_consistent htransport hp hmade) fun _ t ht => ?_
        exact ⟨hdrawn.trans ht.1.2, _, hextends, ht.1.1⟩
      have hsnapshot : update made snapshot.snapshotId
          (some { snapshot with planId := some runId }) snapshot.snapshotId =
            some { snapshot with planId := some runId } := Function.update_self ..
      split
      · exact hgrows (DomainEventHandler.handleOrchestrated_placing _ hsnapshot hworkspace)
      · exact hgrows (DomainEventHandler.handlePlan_placing _ hsnapshot)

/-- So does every delivery. -/
theorem deliver_growsTo (message : Message) : GrowsTo env made w (deliver env w message) := by
  have hdispatch : (RecursionRunner.dispatch env.registries message).wp env.sem.step
      (fun _ t => GrowsTo env made w t) w := by
    unfold RecursionRunner.dispatch
    split
    next => exact wp_growsTo htransport h (ActionEventHandler.handle_placing _ _)
    next runId nodeId hkind =>
      unfold SubAgentCoordinator.handle
      rw [hkind]
      refine Program.wp_mono (handleTask_saves htransport hfresh h _ _ _) fun _ t ht => ?_
      rcases ht with ht | ⟨plan, -, ht⟩
      · exact ⟨ht.adds, made, fun _ _ => id, ht.consistent⟩
      · exact ⟨ht.adds, made, fun _ _ => id, ht.consistent⟩
    next runId nodeId status hkind =>
      unfold SubAgentCoordinator.handle
      rw [hkind]
      exact wp_growsTo htransport h (SubAgentCoordinator.handleCompleted_placing _ _ _ _)
    next => exact handleDomain_growsTo htransport hfresh h _
  exact (Program.wp_step_iff _ _ _ _).1 hdispatch

end Deliver

end PrismAgent
