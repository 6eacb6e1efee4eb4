import PrismAgent.Listing.Handlers
import PrismAgent.Safety.Execution

/-!
# The API mirrors the stored plans in every run

Domain events and task events make new plans, the other deliveries act on actions or settle
nodes. Whatever is delivered, in whatever order and however often, the API lists each action of
each stored plan as the plan has it, and hydration reads the statuses back from there. The API
accepts every report here; one that it refuses would leave the plan ahead of the listing.
-/

namespace PrismAgent

open Effect
open ActionEventHandler (apiRunId)
open Function (update update_self update_of_ne)
open PrismApiStateStore (hydratePlanState recordFor recordUnder sampleApi)

/-- Every stored plan has been written. -/
def World.Written (w : World MemoryStateStore) : Prop :=
  ∀ key p, w.store.plans key = some p → p ∈ w.planWrites

section Grows

variable {env : Env} {w : World MemoryStateStore} {α : Type}

/-- Written plans stay written, and what is stored is. -/
def Grows (w t : World MemoryStateStore) : Prop :=
  w.planWrites ⊆ t.planWrites ∧ (w.Written → t.Written)

theorem Rests.grows {t : World MemoryStateStore} (h : Rests w t) : Grows w t := by
  refine ⟨fun p hp => h.planWrites.symm ▸ hp, fun hwritten key p hp => ?_⟩
  rw [h.plans] at hp
  rw [h.planWrites]
  exact hwritten key p hp

theorem sem_grows (call : Call) : Grows w (env.sem call w).2 := by
  have hwrite : ∀ plan, World.Written w → ∀ key p,
      update w.store.plans (plan.workspaceId, plan.planId) (some plan) key = some p →
        p ∈ w.planWrites ++ [plan] := by
    intro plan hwritten key p hp
    rcases update_eq_some hp with ⟨-, rfl⟩ | ⟨-, hp⟩
    · exact List.mem_append_right _ List.mem_cons_self
    · exact List.mem_append_left _ (hwritten key p hp)
  cases call with
  | savePlan plan => exact ⟨List.subset_append_left _ _, hwrite plan⟩
  | updatePlan plan => exact ⟨List.subset_append_left _ _, hwrite plan⟩
  | sync call => exact ⟨List.Subset.refl _, id⟩
  | _ => exact Rests.grows (sem_rests (by trivial))

theorem wp_grows (p : App α) : p.wp env.sem.step (fun _ t => Grows w t) w := by
  refine Program.wp_of_onlyCalls (fun s call r t _ hstep hs => ?_) (Program.onlyCalls_true p)
    ⟨List.Subset.refl _, id⟩
  have ht : t = (env.sem call s).2 := congrArg Prod.snd hstep
  have hcall : Grows s (env.sem call s).2 := sem_grows call
  rw [ht]
  exact ⟨fun _ hp => hcall.1 (hs.1 hp), fun hwritten => hcall.2 (hs.2 hwritten)⟩

end Grows

variable {runs : RunApi} {uuid5 : String → String} {createdAt : AgentContext → String}
  {env : Env} {w : World MemoryStateStore} {α : Type} (hruns : runs.Lawful)

theorem wp_getPlan_bind {workspaceId planId : String} {f : Option AgentPlan → App α}
    {Q : Except Exc α → World MemoryStateStore → Prop}
    (hf : ∀ t, Rests w t → (f (w.store.plans (workspaceId, planId))).wp env.sem.step Q t) :
    (perform (.getPlan workspaceId planId) >>= f).wp env.sem.step Q w := by
  rw [Program.wp_bind, Program.wp_perform_step]
  exact hf _ (sem_rests trivial)

section Created

variable (h : w.Lists runs uuid5 createdAt)

include hruns h

theorem World.Lists.keeps {p : App α} (hp : Quietly p) :
    p.wp env.sem.step (fun _ t => t.Keeps runs uuid5 createdAt) w :=
  Program.wp_mono (h.wp_quietly hruns hp) fun _ _ ht _ => ht

/-- A new plan is saved and told at once. -/
theorem wp_created {plan : AgentPlan} {k : Unit → App α} (hwritten : w.Written)
    (hk : ∀ u, u.Lists runs uuid5 createdAt →
      u.store.plans (plan.workspaceId, plan.planId) = some plan →
        (k ()).wp env.sem.step (fun _ t => t.Keeps runs uuid5 createdAt) u) :
    (perform (.savePlan plan) >>= fun _ => sync (.planCreated plan) >>= k).wp env.sem.step
      (fun _ t => t.Keeps runs uuid5 createdAt) w := by
  rw [Program.wp_bind, Program.wp_perform_step]
  change Program.wp _ _ _ _
  rw [Program.wp_bind, Program.wp_perform_step]
  change Program.wp _ _ _ _
  by_cases hids : Separate uuid5 (w.planWrites ++ [plan])
  · have hplan : plan ∈ w.planWrites ++ [plan] := List.mem_append_right _ List.mem_cons_self
    refine hk _ (Mirrored.planCreated hruns h (hids.single plan hplan) ?_) (update_self _ _ _)
    intro key p hp hne hws
    have hp' : p ∈ w.planWrites ++ [plan] := List.mem_append_left _ (hwritten key p hp)
    refine hids.apart plan hplan p hp' (fun hid => hne ?_) hws
    rw [← h.placed hp, hws, hid]
  · exact Program.wp_mono (wp_grows _) fun _ t ht hseparate => absurd (hseparate.mono ht.1) hids

end Created

namespace DomainEventHandler

variable {plan : AgentPlan} (h : w.Lists runs uuid5 createdAt)

include hruns h

/-- A stored plan that has nothing to run fails, and its actions stay as they are listed. -/
theorem enqueueFirstAction_keeps (envelope : EventEnvelope)
    (hplan : w.store.plans (plan.workspaceId, plan.planId) = some plan) :
    (enqueueFirstAction envelope plan).wp env.sem.step
      (fun _ t => t.Keeps runs uuid5 createdAt) w := by
  unfold enqueueFirstAction
  split
  · split
    · exact h.keeps hruns (quietly_trace _ _ _ _)
    · rw [Program.wp_bind, Program.wp_perform_step]
      have hfailed : World.Lists runs uuid5 createdAt
          (env.sem (.updatePlan { plan with status := .failed }) w).2 :=
        Mirrored.withStatus h hplan .failed
      refine hfailed.keeps hruns ?_
      refine .bind (quietly_call trivial) fun _ => ?_
      exact .bind (quietly_trace _ _ _ _) fun _ => quietly_trace _ _ _ _
  · refine h.keeps hruns (.bind (quietly_call trivial) fun _ => ?_)
    exact .bind (quietly_call trivial) fun _ => quietly_trace _ _ _ _

variable (hwritten : w.Written) (registries : Registries) (envelope : EventEnvelope)
  (workflow : WorkflowDefinition) (snapshot : ContextSnapshot) (agentRunId : String)

include hwritten

theorem savePlan_keeps (replan : Bool) :
    (savePlan envelope snapshot plan replan).wp env.sem.step
      (fun _ t => t.Keeps runs uuid5 createdAt) w := by
  refine h.wp_quietly_bind hruns (quietly_call trivial) (fun _ _ ht _ => ht) fun _ t ht hlists => ?_
  refine wp_created hruns hlists (ht.grows.2 hwritten) fun u hlists hplan => ?_
  refine hlists.wp_quietly_bind hruns (quietly_trace _ _ _ _) (fun _ _ ht _ => ht)
    fun _ v hv hlists => ?_
  refine enqueueFirstAction_keeps hruns hlists envelope ?_
  rwa [hv.plans]

theorem startPlan_keeps (replan : Bool) :
    (startPlan registries envelope workflow snapshot agentRunId replan).wp env.sem.step
      (fun _ t => t.Keeps runs uuid5 createdAt) w := by
  refine h.wp_quietly_bind hruns (quietly_startRun _ _ _ _ _) (fun _ _ ht _ => ht)
    fun started t ht hlists => ?_
  split
  · exact fun _ => hlists
  · refine hlists.wp_quietly_bind hruns (quietly_buildPlan _ _ _ _) (fun _ _ ht _ => ht)
      fun plan u hu hlists => ?_
    exact savePlan_keeps hruns hlists ((ht.trans hu).grows.2 hwritten) envelope snapshot replan

theorem handlePlan_keeps :
    (handlePlan registries envelope workflow snapshot agentRunId).wp env.sem.step
      (fun _ t => t.Keeps runs uuid5 createdAt) w := by
  refine wp_getPlan_bind fun t ht => ?_
  have hlists := h.rests hruns ht
  have hstart : ∀ replan, (startPlan registries envelope workflow snapshot agentRunId replan).wp
      env.sem.step (fun _ u => u.Keeps runs uuid5 createdAt) t := fun replan =>
    startPlan_keeps hruns hlists (ht.grows.2 hwritten) registries envelope workflow snapshot
      agentRunId replan
  cases hplan : w.store.plans (snapshot.context.workspaceId, agentRunId) with
  | none => exact hstart false
  | some plan =>
      have hstored : w.store.plans (plan.workspaceId, plan.planId) = some plan := by
        rw [h.placed hplan]
        exact hplan
      dsimp only
      split
      · exact hstart true
      · refine hlists.wp_quietly_bind hruns (quietly_call trivial) (fun _ _ ht _ => ht)
          fun _ u hu hlists => ?_
        refine hlists.wp_quietly_bind hruns (quietly_trace _ _ _ _) (fun _ _ ht _ => ht)
          fun _ v hv hlists => ?_
        refine enqueueFirstAction_keeps hruns hlists envelope ?_
        rwa [hv.plans, hu.plans, ht.plans]

theorem handle_keeps :
    (handle registries envelope).wp env.sem.step
      (fun _ t => t.Keeps runs uuid5 createdAt) w := by
  unfold handle
  split
  · exact h.keeps hruns (quietly_trace _ _ _ _)
  · refine h.wp_quietly_bind hruns
      ((ContextProvider.hydrate_writes _ _ _).quietly (by simp) (by simp)) (fun _ _ ht _ => ht)
      fun snapshot t ht hlists => ?_
    dsimp only
    split
    · exact hlists.keeps hruns (quietly_handleOrchestrated _ _ _ _ _)
    · exact handlePlan_keeps hruns hlists (ht.grows.2 hwritten) registries envelope _ snapshot _

end DomainEventHandler

namespace SubAgentCoordinator

variable (h : w.Lists runs uuid5 createdAt) (hwritten : w.Written) (registries : Registries)
  (envelope : EventEnvelope)

include hruns h hwritten

theorem planNode_keeps (graph : TaskGraph) (node : SubTask) (snapshot : ContextSnapshot)
    (runId : String) :
    (planNode registries envelope graph node snapshot runId).wp env.sem.step
      (fun _ t => t.Keeps runs uuid5 createdAt) w := by
  refine h.wp_quietly_bind hruns
    ((planningContext_writes _ _ _ _ _).quietly (by simp) (by simp)) (fun _ _ ht _ => ht)
    fun context t ht hlists => ?_
  refine hlists.wp_quietly_bind hruns (quietly_liftExcept _) (fun _ _ ht _ => ht)
    fun workflow u hu hlists => ?_
  refine hlists.wp_quietly_bind hruns (quietly_trace _ _ _ _) (fun _ _ ht _ => ht)
    fun _ v hv hlists => ?_
  refine hlists.wp_quietly_bind hruns
    ((SubAgentRunner.planForNode_writes _ _ _ _ _ _).quietly (by simp) (by simp))
    (fun _ _ ht _ => ht) fun subPlan x hx hlists => ?_
  have hwritten' := (((ht.trans hu).trans hv).trans hx).grows.2 hwritten
  refine wp_created hruns hlists hwritten' fun y hlists _ => hlists.keeps hruns ?_
  split
  · exact .bind (quietly_trace _ _ _ _) fun _ => quietly_enqueueCompleted envelope _ _ _
  · exact .bind (quietly_enqueueAction envelope _ _) fun _ => quietly_trace _ _ _ _

theorem handleTask_keeps (runId nodeId : String) :
    (handleTask registries envelope runId nodeId).wp env.sem.step
      (fun _ t => t.Keeps runs uuid5 createdAt) w := by
  refine h.wp_quietly_bind hruns (quietly_call trivial) (fun _ _ ht _ => ht)
    fun found t ht hlists => ?_
  split
  · exact hlists.keeps hruns (quietly_trace _ _ _ _)
  · split
    · exact hlists.keeps hruns (quietly_trace _ _ _ _)
    · split
      · exact hlists.keeps hruns (quietly_trace _ _ _ _)
      · refine hlists.wp_quietly_bind hruns (quietly_call trivial) (fun _ _ ht _ => ht)
          fun existing u hu hlists => ?_
        split
        · exact hlists.keeps hruns (quietly_resumeExistingSubplan envelope _ _ _)
        · refine hlists.wp_quietly_bind hruns (quietly_call trivial) (fun _ _ ht _ => ht)
            fun snapshot v hv hlists => ?_
          split
          · exact hlists.keeps hruns (quietly_trace _ _ _ _)
          · exact planNode_keeps hruns hlists (((ht.trans hu).trans hv).grows.2 hwritten)
              registries envelope _ _ _ _

theorem handle_keeps :
    (handle registries envelope).wp env.sem.step
      (fun _ t => t.Keeps runs uuid5 createdAt) w := by
  unfold handle
  split
  · exact handleTask_keeps hruns h hwritten registries envelope _ _
  · exact h.keeps hruns (quietly_handleCompleted envelope _ _ _)
  · exact fun _ => h

end SubAgentCoordinator

section Run

include hruns

/-- Whatever is delivered, the API mirrors the stored plans afterwards. -/
theorem dispatch_keeps (h : w.Lists runs uuid5 createdAt) (hwritten : w.Written)
    (registries : Registries) (message : Message) :
    (RecursionRunner.dispatch registries message).wp env.sem.step
      (fun _ t => t.Keeps runs uuid5 createdAt) w := by
  unfold RecursionRunner.dispatch
  split
  · exact Program.wp_mono (ActionEventHandler.handle_lists hruns h _ _) fun _ _ ht _ => ht
  · exact SubAgentCoordinator.handle_keeps hruns h hwritten registries _
  · exact SubAgentCoordinator.handle_keeps hruns h hwritten registries _
  · exact DomainEventHandler.handle_keeps hruns h hwritten registries _

theorem deliver_keepsListed (env : Env) (h : w.Keeps runs uuid5 createdAt)
    (hwritten : w.Written) (message : Message) :
    (deliver env w message).Keeps runs uuid5 createdAt ∧ (deliver env w message).Written := by
  have hgrows : Grows w (deliver env w message) :=
    (Program.wp_step_iff env.sem w _ _).1 (wp_grows (RecursionRunner.dispatch _ message))
  refine ⟨fun hids => ?_, hgrows.2 hwritten⟩
  exact (Program.wp_step_iff env.sem w _ _).1
    (dispatch_keeps hruns (h (hids.mono hgrows.1)) hwritten env.registries message) hids

theorem deliverAll_keepsListed (h : w.Keeps runs uuid5 createdAt) (hwritten : w.Written)
    (messages : List Message) : (deliverAll env w messages).Keeps runs uuid5 createdAt := by
  induction messages generalizing w with
  | nil => exact h
  | cons message messages ih =>
      obtain ⟨hkeeps, hwritten'⟩ := deliver_keepsListed hruns env h hwritten message
      exact ih hkeeps hwritten'

/-- The action records that the API lists for a run after the calls so far. -/
def World.listed (runs : RunApi) (uuid5 : String → String) (createdAt : AgentContext → String)
    (w : World MemoryStateStore) (workspaceId runId : String) : List ActionRecord :=
  runs.records (runs.after uuid5 createdAt w.syncCalls) workspaceId runId

section Stored

variable {messages : List Message} (hempty : w.store.plans = fun _ => none)
  {workspaceId planId : String} {plan : AgentPlan}
  (hplan : (deliverAll env w messages).store.getPlan workspaceId planId = some plan)

include hempty

theorem deliverAll_lists (hids : Separate uuid5 (deliverAll env w messages).planWrites) :
    (deliverAll env w messages).Lists runs uuid5 createdAt := by
  refine deliverAll_keepsListed hruns (fun _ => ?_) (fun key p hp => ?_) messages hids
  · unfold World.Lists
    rw [hempty]
    exact Mirrored.empty _
  · rw [hempty] at hp
    cases hp

include hplan

/-- After any deliveries the API lists each action of a stored plan as the plan has it. -/
theorem stored_actions_listed (hids : Separate uuid5 (deliverAll env w messages).planWrites)
    {action : PlannedAction} (haction : action ∈ plan.actions) :
    recordUnder ((deliverAll env w messages).listed runs uuid5 createdAt workspaceId
      (apiRunId plan)) (actionApiId uuid5 action) = some (upsertAction uuid5 action) := by
  have hlists : (deliverAll env w messages).Lists runs uuid5 createdAt :=
    deliverAll_lists hruns hempty hids
  have hplace : (plan.workspaceId, plan.planId) = (workspaceId, planId) := hlists.placed hplan
  rw [← (Prod.mk.inj hplace).1]
  exact hlists.told hplan action haction

end Stored

end Run

/-- The records of a run, of those that were sent with their workspace and run. -/
def keptRecords (kept : List (String × String × ActionRecord)) (workspaceId runId : String) :
    List ActionRecord :=
  (kept.filter fun x => x.1 = workspaceId ∧ x.2.1 = runId).map fun x => x.2.2

theorem recordUnder_keptRecords_append (kept : List (String × String × ActionRecord))
    (workspaceId runId : String) (record : ActionRecord) (workspaceId' runId' id : String) :
    recordUnder (keptRecords (kept ++ [(workspaceId, runId, record)]) workspaceId' runId') id =
      if workspaceId = workspaceId' ∧ runId = runId' ∧ record.actionId = id then some record
      else recordUnder (keptRecords kept workspaceId' runId') id := by
  unfold keptRecords recordUnder
  rw [List.filter_append, List.map_append, List.reverse_append, List.find?_append]
  by_cases hplace : workspaceId = workspaceId' ∧ runId = runId'
  · by_cases hid : record.actionId = id
    · simp [hplace, hid]
    · simp [hplace, hid]
  · rw [if_neg fun h => hplace ⟨h.1, h.2.1⟩, List.filter_cons_of_neg (by simpa using hplace)]
    rfl

/-- An API that keeps the actions in the order in which they were sent. -/
def keptRuns : RunApi where
  State := List (String × String × ActionRecord)
  empty := []
  send kept
    | .upsertAgentAction workspaceId runId payload =>
        kept ++ [(workspaceId, runId, actionRecord payload)]
    | _ => kept
  records := keptRecords

theorem keptRuns_lawful : keptRuns.Lawful where
  empty _ _ _ := rfl
  upsert kept workspaceId runId payload :=
    recordUnder_keptRecords_append kept workspaceId runId (actionRecord payload)
  other kept request h workspaceId runId id := by
    cases request with
    | upsertAgentAction => exact absurd rfl (h _ _ _)
    | _ => rfl

/-- The seed and its first action are delivered. -/
def listedMessages : List Message := [{ envelope := sampleSeed }, { envelope := sampleRequested }]

def listedWorld : World MemoryStateStore := deliverAll sampleEnv { store := {} } listedMessages

theorem separate_listedWorld : Separate sampleApi.uuid5 listedWorld.planWrites where
  single := by decide
  apart := by
    have hone : ∀ p ∈ listedWorld.planWrites, p.planId = "run" := by decide
    exact fun p hp q hq hne => absurd ((hone p hp).trans (hone q hq).symm) hne

/-- The run has a plan, and the API lists its actions. -/
theorem stored_actions_listed_sample :
    ∃ plan, listedWorld.store.getPlan "ws" "run" = some plan ∧
      ∃ action ∈ plan.actions,
        recordUnder (listedWorld.listed keptRuns sampleApi.uuid5 (fun _ => "") "ws"
          (apiRunId plan)) (actionApiId sampleApi.uuid5 action) =
            some (upsertAction sampleApi.uuid5 action) := by
  have hsome : (listedWorld.store.getPlan "ws" "run").any
      (fun plan => 0 < plan.actions.length) = true := by
    decide
  obtain ⟨plan, hplan, hlength⟩ := (Option.any_eq_true _ _).1 hsome
  obtain ⟨action, haction⟩ := List.exists_mem_of_length_pos (of_decide_eq_true hlength)
  refine ⟨plan, hplan, action, haction, ?_⟩
  exact stored_actions_listed keptRuns_lawful rfl hplan separate_listedWorld haction

end PrismAgent
