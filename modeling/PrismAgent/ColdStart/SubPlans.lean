import PrismAgent.ColdStart.Deliveries
import PrismAgent.Join.Unknown

/-!
# Sub-plans and new stores

An invocation of the function builds a new store, which has what earlier invocations put. The
snapshot of an orchestrated run is put under the run's id, and a sub-plan under its own, which
is the run's id for a node named `root` only. A new store that reads the plan of an action event
finds the snapshot of a sub-plan of such a node, and of no other.
-/

namespace PrismAgent

open Effect
open Function (Injective)
open ActionEventHandler (selectAction)
open PrismApiStateStore (SnapshotPut latestApi faithful_latestApi)
open SubAgentRunner (planIdFor)

/-- A message and whether a new invocation handles it, which builds a new store. -/
structure Arrival where
  message : Message
  cold : Bool := true

/-- The world as a new invocation finds it. -/
def World.restart (w : World PrismApiStateStore) : World PrismApiStateStore :=
  { w with store := w.store.fresh }

/-- The store that persists memories, before any message. -/
def World.initial : World PrismApiStateStore := { store := { persistAgentMemories := true } }

section Arrivals

variable (env : Env)

/-- The world after a message. -/
def receive (w : World PrismApiStateStore) (arrival : Arrival) : World PrismApiStateStore :=
  deliver env (if arrival.cold then w.restart else w) arrival.message

def receiveAll (w : World PrismApiStateStore) (arrivals : List Arrival) :
    World PrismApiStateStore :=
  arrivals.foldl (receive env) w

/-- A new store reads the plan and a snapshot as they have been saved, and no event for an action
of the plan ends for want of one. -/
structure Resolves (w : World PrismApiStateStore) (plan : AgentPlan) : Prop where
  reads : ∃ snapshot, (∃ m ∈ w.store.memories, m.record = .contextSnapshot snapshot) ∧
    snapshot.snapshotId = plan.contextSnapshotRef ∧ ∀ tick,
      (w.store.fresh.getPlan (env.stateApi tick) plan.workspaceId plan.planId).1 = some plan ∧
        (w.store.fresh.getPlan (env.stateApi tick) plan.workspaceId
          plan.planId).2.getContextSnapshot plan.workspaceId plan.contextSnapshotRef =
            some snapshot
  handled : ∀ (envelope : EventEnvelope) (actionId missing : String),
    envelope.event.workspaceId = plan.workspaceId →
      (env.sem.exec (selectAction envelope plan.planId actionId) w.restart).1 ≠
        .error (.planNotFound missing)

end Arrivals

section Runs

variable {env : Env} {uuid5 : String → String} {made : String → Option ContextSnapshot}
  {w : World PrismApiStateStore}

theorem consistent_initial (env : Env) : Consistent env (fun _ => none) World.initial where
  inPlace _ := ⟨rfl, List.forall_mem_nil _, List.forall_mem_nil _,
    ⟨by rintro _ _ ⟨⟩, by rintro _ _ ⟨⟩, by rintro _ _ ⟨⟩⟩⟩
  saved := rfl
  drawn := by rintro _ _ ⟨⟩
  own := by rintro _ _ ⟨⟩

/-- A new store has no snapshot in its table. -/
theorem Consistent.restart (h : Consistent env made w) : Consistent env made w.restart where
  inPlace tick := ⟨(h.inPlace tick).persists, (h.inPlace tick).filed, (h.inPlace tick).fits,
    ⟨by rintro _ _ ⟨⟩, by rintro _ _ ⟨⟩, by rintro _ _ ⟨⟩⟩⟩
  saved := h.saved
  drawn := h.drawn
  own := h.own

variable (htransport : FaithfulTransport env uuid5) (hfresh : FreshIds env)

include htransport hfresh

theorem receive_growsTo (h : Consistent env made w) (arrival : Arrival) :
    GrowsTo env made w (receive env w arrival) := by
  unfold receive
  split
  · obtain ⟨hadds, hmade⟩ := deliver_growsTo htransport hfresh h.restart arrival.message
    exact ⟨⟨hadds.tick, hadds.puts⟩, hmade⟩
  · exact deliver_growsTo htransport hfresh h arrival.message

theorem receiveAll_growsTo (h : Consistent env made w) (arrivals : List Arrival) :
    GrowsTo env made w (receiveAll env w arrivals) := by
  induction arrivals generalizing w made with
  | nil => exact ⟨.refl w, made, fun _ _ => id, h⟩
  | cons arrival arrivals ih =>
      obtain ⟨hadds, made', hextends, hmade⟩ := receive_growsTo htransport hfresh h arrival
      obtain ⟨hadds', made'', hextends', hmade'⟩ := ih hmade
      exact ⟨hadds.trans hadds', made'', hextends.trans hextends', hmade'⟩

/-- The task of a node saves the plan of the node with the snapshot of its run. -/
theorem deliver_task (h : Consistent env made w) {message : Message} {runId nodeId : String}
    {plan : AgentPlan} (hkind : message.envelope.event.kind = .subagentTask runId nodeId)
    (hsaved : (deliver env w message).planWrites = w.planWrites ++ [plan]) :
    Consistent env made (deliver env w message) ∧ ∃ snapshot,
      PlannedFrom w.store.memories message.envelope.event.workspaceId runId nodeId snapshot
        plan := by
  have hdispatch : RecursionRunner.dispatch env.registries message =
      SubAgentCoordinator.handleTask env.registries message.envelope runId nodeId := by
    unfold RecursionRunner.dispatch SubAgentCoordinator.handle
    rw [hkind]
  have hsaves := (Program.wp_step_iff _ _ _ _).1 (handleTask_saves htransport hfresh h
    message.envelope runId nodeId)
  rw [← hdispatch] at hsaves
  rcases hsaves with hnone | ⟨saved, hplanned, hsome⟩
  · have hlength := congrArg List.length (hsaved.symm.trans hnone.planWrites)
    simp at hlength
  · obtain rfl : plan = saved :=
      List.singleton_inj.1 (List.append_cancel_left (hsaved.symm.trans hsome.planWrites))
    exact ⟨hsome.consistent, hplanned⟩

theorem receive_task (h : Consistent env made w) {arrival : Arrival} {runId nodeId : String}
    {plan : AgentPlan}
    (hkind : arrival.message.envelope.event.kind = .subagentTask runId nodeId)
    (hsaved : (receive env w arrival).planWrites = w.planWrites ++ [plan]) :
    Consistent env made (receive env w arrival) ∧ ∃ snapshot,
      PlannedFrom w.store.memories arrival.message.envelope.event.workspaceId runId nodeId
        snapshot plan := by
  unfold receive at hsaved ⊢
  split
  next hcold =>
    rw [if_pos hcold] at hsaved
    exact deliver_task htransport hfresh h.restart hkind hsaved
  next hwarm =>
    rw [if_neg hwarm] at hsaved
    exact deliver_task htransport hfresh h hkind hsaved

end Runs

section Reads

variable {env : Env} {uuid5 : String → String} {made : String → Option ContextSnapshot}
  {w : World PrismApiStateStore}

/-- An action is looked up in vain only if its plan or its snapshot is. -/
theorem selectAction_finds {envelope : EventEnvelope} {plan : AgentPlan}
    {snapshot : ContextSnapshot} {planId actionId : String}
    (hplan : (w.store.getPlan (env.stateApi w.tick) envelope.event.workspaceId planId).1 =
      some plan)
    (hsnapshot : (w.store.getPlan (env.stateApi w.tick) envelope.event.workspaceId
      planId).2.getContextSnapshot envelope.event.workspaceId plan.contextSnapshotRef =
        some snapshot) (missing : String) :
    (env.sem.exec (selectAction envelope planId actionId) w).1 ≠
      .error (.planNotFound missing) := by
  have hwp : (selectAction envelope planId actionId).wp env.sem.step
      (fun r _ => r ≠ .error (.planNotFound missing)) w := by
    unfold selectAction
    rw [Program.wp_bind, Program.wp_perform_step]
    change Program.andThen _ _ _
      (.ok (w.store.getPlan (env.stateApi w.tick) envelope.event.workspaceId planId).1) _
    rw [hplan, Program.andThen_ok]
    dsimp only
    split
    · rintro ⟨⟩
    · split
      · rintro ⟨⟩
      · rw [Program.wp_bind, Program.wp_perform_step]
        change Program.andThen _ _ _ (.ok ((w.store.getPlan (env.stateApi w.tick)
          envelope.event.workspaceId planId).2.getContextSnapshot envelope.event.workspaceId
            plan.contextSnapshotRef)) _
        rw [hsnapshot, Program.andThen_ok]
        dsimp only
        rw [Program.wp_bind, Program.wp_perform_step]
        change Program.andThen _ _ _ (.ok _) _
        rw [Program.andThen_ok]
        split
        · rintro ⟨⟩
        · rintro ⟨⟩
  exact (Program.wp_step_iff _ _ _ _).1 hwp

/-- A PENDING action without a snapshot ends the event. -/
theorem selectAction_fails {envelope : EventEnvelope} {plan : AgentPlan}
    {planId actionId : String} {action : PlannedAction}
    (hplan : (w.store.getPlan (env.stateApi w.tick) envelope.event.workspaceId planId).1 =
      some plan)
    (haction : plan.getAction actionId = some action) (hpending : action.status = .pending)
    (hsnapshot : (w.store.getPlan (env.stateApi w.tick) envelope.event.workspaceId
      planId).2.getContextSnapshot envelope.event.workspaceId plan.contextSnapshotRef = none) :
    (env.sem.exec (selectAction envelope planId actionId) w).1 =
      .error (.planNotFound ("context:" ++ plan.contextSnapshotRef)) := by
  have hwp : (selectAction envelope planId actionId).wp env.sem.step
      (fun r _ => r = .error (.planNotFound ("context:" ++ plan.contextSnapshotRef))) w := by
    unfold selectAction
    rw [Program.wp_bind, Program.wp_perform_step]
    change Program.andThen _ _ _
      (.ok (w.store.getPlan (env.stateApi w.tick) envelope.event.workspaceId planId).1) _
    rw [hplan, Program.andThen_ok]
    dsimp only
    rw [haction]
    dsimp only
    rw [if_neg (not_not.2 hpending), Program.wp_bind, Program.wp_perform_step]
    change Program.andThen _ _ _ (.ok ((w.store.getPlan (env.stateApi w.tick)
      envelope.event.workspaceId planId).2.getContextSnapshot envelope.event.workspaceId
        plan.contextSnapshotRef)) _
    rw [hsnapshot, Program.andThen_ok]
    rfl
  exact (Program.wp_step_iff _ _ _ _).1 hwp

variable (htransport : FaithfulTransport env uuid5)

include htransport

/-- A new store that reads the plan saved last finds the snapshot that it refers to if and only
if the snapshot was put under the id of the plan. -/
theorem Consistent.resolves_iff (h : Consistent env made w) {snapshot : ContextSnapshot}
    {plan : AgentPlan} (hput : SnapshotPut w.store.memories (.contextSnapshot snapshot))
    (hworkspace : snapshot.workspaceId = plan.workspaceId)
    (href : plan.contextSnapshotRef = snapshot.snapshotId)
    (hlast : SavedLast w.planWrites plan) :
    Resolves env w plan ↔ snapshot.planId = some plan.planId := by
  have hmade : made snapshot.snapshotId = some snapshot := by
    obtain ⟨m, hm, hrecord⟩ := hput
    exact (h.inPlace 0).made_of_mem hm hrecord
  constructor
  · rintro ⟨⟨found, ⟨m, hm, hrecord⟩, hid, hread⟩, -⟩
    have hfound := (h.inPlace 0).made_of_mem hm hrecord
    rw [hid, href] at hfound
    obtain rfl := Option.some.inj (hmade.symm.trans hfound)
    exact (((h.inPlace 0).fresh_snapshot_iff ((htransport.hash 0).symm ▸ htransport.injective)
      (htransport.faithful 0)).1 (hread 0).2).2.2
  · intro hrun
    have hread : ∀ tick,
        (w.store.fresh.getPlan (env.stateApi tick) plan.workspaceId plan.planId).1 = some plan ∧
          (w.store.fresh.getPlan (env.stateApi tick) plan.workspaceId
            plan.planId).2.getContextSnapshot plan.workspaceId plan.contextSnapshotRef =
              some snapshot := by
      intro tick
      have huuid5 : Injective (env.stateApi tick).uuid5 :=
        (htransport.hash tick).symm ▸ htransport.injective
      refine ⟨(h.inPlace tick).fresh_savedLast huuid5 (htransport.faithful tick)
        (h.saved.symm ▸ hlast), ?_⟩
      rw [(h.inPlace tick).fresh_snapshot_iff huuid5 (htransport.faithful tick)]
      exact ⟨hput, by rw [hworkspace, href], hrun⟩
    refine ⟨⟨snapshot, hput, href.symm, hread⟩, fun envelope actionId missing hsame => ?_⟩
    obtain ⟨hplan, hsnapshot⟩ := hread w.tick
    rw [← hsame] at hplan hsnapshot
    exact selectAction_finds hplan hsnapshot missing

/-- Without the snapshot, the event for a PENDING action of the plan ends with an error. -/
theorem Consistent.selectAction_misses (h : Consistent env made w) {plan : AgentPlan}
    (hlast : SavedLast w.planWrites plan) (hnot : ¬Resolves env w plan)
    {envelope : EventEnvelope} {actionId : String} {action : PlannedAction}
    (hsame : envelope.event.workspaceId = plan.workspaceId)
    (haction : plan.getAction actionId = some action) (hpending : action.status = .pending) :
    (env.sem.exec (selectAction envelope plan.planId actionId) w.restart).1 =
      .error (.planNotFound ("context:" ++ plan.contextSnapshotRef)) := by
  have huuid5 : Injective (env.stateApi w.tick).uuid5 :=
    (htransport.hash w.tick).symm ▸ htransport.injective
  have hplan := (h.inPlace w.tick).fresh_savedLast huuid5 (htransport.faithful w.tick)
    (h.saved.symm ▸ hlast)
  have hsnapshot : (w.store.fresh.getPlan (env.stateApi w.tick) plan.workspaceId
      plan.planId).2.getContextSnapshot plan.workspaceId plan.contextSnapshotRef = none := by
    refine Option.eq_none_iff_forall_not_mem.2 fun snapshot hfound => hnot ?_
    obtain ⟨hput, hkey, hrun⟩ := ((h.inPlace w.tick).fresh_snapshot_iff huuid5
      (htransport.faithful w.tick)).1 hfound
    obtain ⟨hworkspace, hid⟩ := Prod.mk.inj hkey
    exact (h.resolves_iff htransport hput hworkspace hid.symm hlast).2 hrun
  rw [← hsame] at hplan hsnapshot
  exact selectAction_fails hplan haction hpending hsnapshot

end Reads

section Resolved

variable {env : Env} {uuid5 : String → String}

/-- The plan of a node has the id of its run exactly for a node named `root`. -/
theorem planIdFor_eq_run_iff {runId nodeId : String} :
    planIdFor runId nodeId = runId ↔ nodeId = ROOT_NODE_ID := by
  unfold planIdFor
  split
  next hroot => exact iff_of_true rfl hroot
  next hroot => exact iff_of_false (fun h => runId_ne_subPlanId runId nodeId h.symm) hroot

/-- A sub-plan that the task of a node has saved, at any later time, is resolved by a new store
if and only if the node is named `root`; else the event for a PENDING action of it ends with an
error. -/
theorem subplan_resolves_iff (htransport : FaithfulTransport env uuid5) (hfresh : FreshIds env)
    (before : List Arrival) (arrival : Arrival) (later : List Arrival) {runId nodeId : String}
    {saved plan : AgentPlan}
    (hkind : arrival.message.envelope.event.kind = .subagentTask runId nodeId)
    (hsaved : (receive env (receiveAll env .initial before) arrival).planWrites =
      (receiveAll env .initial before).planWrites ++ [saved])
    (hlast : SavedLast (receiveAll env .initial (before ++ arrival :: later)).planWrites plan)
    (hkey : plan.key = saved.key) (href : plan.contextSnapshotRef = saved.contextSnapshotRef) :
    (Resolves env (receiveAll env .initial (before ++ arrival :: later)) plan ↔
      nodeId = ROOT_NODE_ID) ∧
    (nodeId ≠ ROOT_NODE_ID → ∀ (envelope : EventEnvelope) (actionId : String)
      (action : PlannedAction), envelope.event.workspaceId = plan.workspaceId →
        plan.getAction actionId = some action → action.status = .pending →
          (env.sem.exec (selectAction envelope plan.planId actionId)
            (receiveAll env .initial (before ++ arrival :: later)).restart).1 =
              .error (.planNotFound ("context:" ++ plan.contextSnapshotRef))) := by
  obtain ⟨-, made, -, hbefore⟩ :=
    receiveAll_growsTo htransport hfresh (consistent_initial env) before
  obtain ⟨htask, snapshot, hplanned⟩ := receive_task htransport hfresh hbefore hkind hsaved
  have hadds := (receive_growsTo htransport hfresh hbefore arrival).adds
  obtain ⟨hadds', made', -, hlater⟩ := receiveAll_growsTo htransport hfresh htask later
  have hafter : receiveAll env (receive env (receiveAll env .initial before) arrival) later =
      receiveAll env .initial (before ++ arrival :: later) := by
    simp [receiveAll]
  rw [hafter] at hlater hadds'
  obtain ⟨m, hm, hrecord⟩ := hplanned.put
  obtain ⟨hworkspace, hid⟩ := Prod.mk.inj (hkey.trans hplanned.key)
  have hresolves : Resolves env (receiveAll env .initial (before ++ arrival :: later)) plan ↔
      nodeId = ROOT_NODE_ID := by
    rw [hlater.resolves_iff htransport ⟨m, hadds'.memories (hadds.memories hm), hrecord⟩
      (hplanned.workspace.trans hworkspace.symm) (href.trans hplanned.ref) hlast, hplanned.run,
      Option.some_inj, hid, eq_comm, planIdFor_eq_run_iff]
  refine ⟨hresolves, fun hroot envelope actionId action hsame haction hpending => ?_⟩
  exact hlater.selectAction_misses htransport hlast (fun h => hroot (hresolves.1 h)) hsame haction
    hpending

end Resolved

section Samples

/-- `rootedEnv` with an API that keeps what is put. -/
def keepingRootedEnv : Env := { rootedEnv with stateApi := fun _ => latestApi }

/-- The event reaches an invocation of its own. -/
def arrivalOf (envelope : EventEnvelope) : Arrival := { message := { envelope := envelope } }

theorem faithfulTransport_of_latestApi {env : Env} (h : ∀ tick, env.stateApi tick = latestApi) :
    FaithfulTransport env fun raw => raw where
  faithful tick := (h tick).symm ▸ faithful_latestApi
  hash tick := congrArg StateApi.uuid5 (h tick)
  injective := Function.injective_id

theorem freshIds_of_toString {env : Env} (h : ∀ tick, env.uuid4 tick = toString tick) :
    FreshIds env where
  injective m n heq := Joined.toString_inj ((h m).symm.trans (heq.trans (h n)))
  ne_empty tick := (h tick).trans_ne Nat.repr_ne_empty

/-- The first plan that is saved. -/
theorem planned_once {env : Env} {w : World PrismApiStateStore} {arrival : Arrival}
    {key : String × String} {ref : String} (hnone : w.planWrites.length = 0)
    (hfiled : (receive env w arrival).planWrites.map (fun p => (p.key, p.contextSnapshotRef)) =
      [(key, ref)]) :
    ∃ plan, (receive env w arrival).planWrites = w.planWrites ++ [plan] ∧ plan.key = key ∧
      plan.contextSnapshotRef = ref := by
  obtain ⟨plan, hplan, heq⟩ := List.map_eq_singleton_iff.1 hfiled
  obtain ⟨hkey, href⟩ := Prod.mk.inj heq
  rw [List.length_eq_zero_iff.1 hnone]
  exact ⟨plan, hplan, hkey, href⟩

/-- Among plans of one key the last one has been saved last. -/
theorem exists_savedLast {plans : List AgentPlan} {key : String × String} {ref : String}
    (hne : plans.length ≠ 0)
    (hfiled : plans.all (fun p => p.key = key ∧ p.contextSnapshotRef = ref) = true) :
    ∃ plan, SavedLast plans plan ∧ plan.key = key ∧ plan.contextSnapshotRef = ref := by
  have hall : ∀ p ∈ plans, p.key = key ∧ p.contextSnapshotRef = ref := by simpa using hfiled
  obtain ⟨plan, hlast⟩ : ∃ plan, plans.getLast? = some plan :=
    ⟨_, List.getLast?_eq_some_getLast (List.ne_nil_of_length_pos (Nat.pos_of_ne_zero hne))⟩
  obtain ⟨hkey, href⟩ := hall plan (List.mem_of_getLast? hlast)
  refine ⟨plan, ?_, hkey, href⟩
  unfold SavedLast
  rw [List.filter_eq_self.2 fun p hp => decide_eq_true ((hall p hp).1.trans hkey.symm)]
  exact hlast

/-- The sub-plan of a node is not resolved. That of a node named `root` is, also when its first
action has been handled. -/
theorem subplan_resolves_iff_sample :
    (∃ plan, plan.key = ("ws", "run::node") ∧ ¬Resolves keepingEnv
      (receiveAll keepingEnv .initial [arrivalOf correlatedSeed, arrivalOf nodeTask]) plan) ∧
    ∃ plan, plan.key = ("ws", "run") ∧ Resolves keepingRootedEnv (receiveAll keepingRootedEnv
      .initial [arrivalOf sampleSeed, arrivalOf rootTask, arrivalOf rootAction]) plan := by
  obtain ⟨plan, hplan, hkey, -⟩ : ∃ plan, (receive keepingEnv (receiveAll keepingEnv .initial
      [arrivalOf correlatedSeed]) (arrivalOf nodeTask)).planWrites =
        (receiveAll keepingEnv .initial [arrivalOf correlatedSeed]).planWrites ++ [plan] ∧
          plan.key = ("ws", "run::node") ∧ plan.contextSnapshotRef = "3" :=
    planned_once (by decide) (by decide)
  obtain ⟨saved, hsaved, hsavedKey, hsavedRef⟩ : ∃ plan, (receive keepingRootedEnv (receiveAll
      keepingRootedEnv .initial [arrivalOf sampleSeed]) (arrivalOf rootTask)).planWrites =
        (receiveAll keepingRootedEnv .initial [arrivalOf sampleSeed]).planWrites ++ [plan] ∧
          plan.key = ("ws", "run") ∧ plan.contextSnapshotRef = "3" :=
    planned_once (by decide) (by decide)
  obtain ⟨last, hlast, hlastKey, hlastRef⟩ : ∃ plan, SavedLast (receiveAll keepingRootedEnv
      .initial [arrivalOf sampleSeed, arrivalOf rootTask, arrivalOf rootAction]).planWrites plan ∧
        plan.key = ("ws", "run") ∧ plan.contextSnapshotRef = "3" :=
    exists_savedLast (by decide) (by decide)
  refine ⟨⟨plan, hkey, fun hresolves => ?_⟩, last, hlastKey, ?_⟩
  · have hnode := (subplan_resolves_iff (faithfulTransport_of_latestApi fun _ => rfl)
      (freshIds_of_toString fun _ => rfl) [arrivalOf correlatedSeed] (arrivalOf nodeTask) [] rfl
      hplan (hplan ▸ savedLast_concat _ plan) rfl rfl).1.1 hresolves
    exact absurd hnode (by decide)
  · exact (subplan_resolves_iff (faithfulTransport_of_latestApi fun _ => rfl)
      (freshIds_of_toString fun _ => rfl) [arrivalOf sampleSeed] (arrivalOf rootTask)
      [arrivalOf rootAction] rfl hsaved hlast (hlastKey.trans hsavedKey.symm)
      (hlastRef.trans hsavedRef.symm)).1.2 rfl

/-- The plan of a node is saved under an id of its own, and a new store that reads it does not
have the snapshot. -/
theorem subplan_unresolved :
    ¬ ∀ (env : Env) (uuid5 : String → String) (before : List Arrival) (arrival : Arrival)
      (runId nodeId : String) (plan : AgentPlan), FaithfulTransport env uuid5 → FreshIds env →
        arrival.message.envelope.event.kind = .subagentTask runId nodeId →
          (receive env (receiveAll env .initial before) arrival).planWrites =
            (receiveAll env .initial before).planWrites ++ [plan] →
              Resolves env (receive env (receiveAll env .initial before) arrival) plan := by
  intro h
  obtain ⟨plan, hplan, hkey, href⟩ : ∃ plan, (receive keepingEnv (receiveAll keepingEnv .initial
      [arrivalOf correlatedSeed]) (arrivalOf nodeTask)).planWrites =
        (receiveAll keepingEnv .initial [arrivalOf correlatedSeed]).planWrites ++ [plan] ∧
          plan.key = ("ws", "run::node") ∧ plan.contextSnapshotRef = "3" :=
    planned_once (by decide) (by decide)
  obtain ⟨⟨snapshot, -, -, hread⟩, -⟩ := h keepingEnv _ [arrivalOf correlatedSeed]
    (arrivalOf nodeTask) "run" "node" plan (faithfulTransport_of_latestApi fun _ => rfl)
    (freshIds_of_toString fun _ => rfl) rfl hplan
  obtain ⟨hworkspace, hid⟩ := Prod.mk.inj hkey
  have hfound := (hread 0).2
  rw [hworkspace, hid, href] at hfound
  have hmissing : (((receive keepingEnv (receiveAll keepingEnv .initial [arrivalOf correlatedSeed])
      (arrivalOf nodeTask)).store.fresh.getPlan (keepingEnv.stateApi 0) "ws"
        "run::node").2.getContextSnapshot "ws" "3").isSome = false := by
    decide
  rw [hfound] at hmissing
  cases hmissing

end Samples

end PrismAgent
