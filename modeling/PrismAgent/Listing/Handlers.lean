import PrismAgent.Handler.Emits
import PrismAgent.Handler.Runnable
import PrismAgent.Listing.Mirrored

/-!
# The handlers keep the API up to date

A handler that changes a stored plan tells the sync of it before it ends: a new plan at once,
an action with the status that it is saved in. Everything else that it calls is quiet. So the
API mirrors the stored plans after a delivery, if it did before.
-/

namespace PrismAgent

open Effect
open Function (update update_self)

/-- Plans are as before, and the sync has been called quietly only. -/
structure Rests (w t : World MemoryStateStore) : Prop where
  plans : t.store.plans = w.store.plans
  planWrites : t.planWrites = w.planWrites
  calls : ∃ more, t.syncCalls = w.syncCalls ++ more ∧ ∀ call ∈ more, call.Quiet

namespace Rests

variable {w t u : World MemoryStateStore}

theorem refl (w : World MemoryStateStore) : Rests w w :=
  ⟨rfl, rfl, [], (List.append_nil _).symm, List.forall_mem_nil _⟩

theorem trans (h : Rests w t) (h' : Rests t u) : Rests w u := by
  obtain ⟨more, hcalls, hmore⟩ := h.calls
  obtain ⟨more', hcalls', hmore'⟩ := h'.calls
  refine ⟨h'.plans.trans h.plans, h'.planWrites.trans h.planWrites, more ++ more', ?_, ?_⟩
  · rw [hcalls', hcalls, List.append_assoc]
  · exact List.forall_mem_append.2 ⟨hmore, hmore'⟩

end Rests

section Quietly

variable {env : Env} {w : World MemoryStateStore} {α β : Type}

theorem sem_rests {call : Call} (h : call.Quiet) : Rests w (env.sem call w).2 := by
  have hsame : ∀ call : Call, call.writes ≠ some .plans → call.writes ≠ some .syncCalls →
      Rests w (env.sem call w).2 := by
    intro call hplans hcalls
    have hsamePlans := sem_same env (w := w) hplans
    have hsameCalls := sem_same env (w := w) hcalls
    exact ⟨hsamePlans.1, hsamePlans.2, [], Eq.trans hsameCalls (List.append_nil _).symm,
      List.forall_mem_nil _⟩
  cases call with
  | savePlan | updatePlan => exact h.elim
  | sync call =>
      exact ⟨rfl, rfl, [call], rfl, fun call' hcall' => List.mem_singleton.1 hcall' ▸ h⟩
  | _ => exact hsame _ (by simp [Call.writes]) (by simp [Call.writes])

theorem wp_quietly {p : App α} (hp : Quietly p) :
    p.wp env.sem.step (fun _ t => Rests w t) w := by
  refine Program.wp_of_onlyCalls (fun s call r t h hstep hs => ?_) hp (Rests.refl w)
  have ht : t = (env.sem call s).2 := congrArg Prod.snd hstep
  rw [ht]
  exact hs.trans (sem_rests h)

end Quietly

section Lists

variable (runs : RunApi) (uuid5 : String → String) (createdAt : AgentContext → String)

/-- The API mirrors the stored plans. -/
def World.Lists (w : World MemoryStateStore) : Prop :=
  Mirrored runs uuid5 createdAt w.store.plans w.syncCalls

/-- The ids under which written plans list their actions differ. -/
structure Separate (plans : List AgentPlan) : Prop where
  single : ∀ p ∈ plans, (p.actions.map (actionApiId uuid5)).Nodup
  apart : ∀ p ∈ plans, ∀ q ∈ plans, p.planId ≠ q.planId → p.Apart uuid5 q

/-- The API mirrors the stored plans, if the ids of the written plans differ. -/
def World.Keeps (w : World MemoryStateStore) : Prop :=
  Separate uuid5 w.planWrites → w.Lists runs uuid5 createdAt

variable {runs uuid5 createdAt}

theorem Separate.mono {plans plans' : List AgentPlan} (h : Separate uuid5 plans')
    (hsub : plans ⊆ plans') : Separate uuid5 plans where
  single p hp := h.single p (hsub hp)
  apart p hp q hq := h.apart p (hsub hp) q (hsub hq)

variable {env : Env} {w t : World MemoryStateStore} {α β : Type} (hruns : runs.Lawful)

include hruns

theorem World.Lists.rests (h : w.Lists runs uuid5 createdAt) (hrests : Rests w t) :
    t.Lists runs uuid5 createdAt := by
  obtain ⟨more, hcalls, hmore⟩ := hrests.calls
  unfold World.Lists
  rw [hrests.plans, hcalls]
  exact Mirrored.append_quiet hruns h hmore

theorem World.Lists.wp_quietly {p : App α} (h : w.Lists runs uuid5 createdAt) (hp : Quietly p) :
    p.wp env.sem.step (fun _ t => t.Lists runs uuid5 createdAt) w :=
  Program.wp_mono (PrismAgent.wp_quietly hp) fun _ _ ht => h.rests hruns ht

theorem World.Lists.wp_quietly_bind {p : App α} {f : α → App β}
    {Q : Except Exc β → World MemoryStateStore → Prop} (h : w.Lists runs uuid5 createdAt)
    (hp : Quietly p) (hQ : ∀ x t, t.Lists runs uuid5 createdAt → Q (.error x) t)
    (hf : ∀ a t, Rests w t → t.Lists runs uuid5 createdAt → (f a).wp env.sem.step Q t) :
    (p >>= f).wp env.sem.step Q w := by
  rw [Program.wp_bind]
  refine Program.wp_mono (PrismAgent.wp_quietly hp) fun r t ht => ?_
  cases r with
  | ok a => exact hf a t ht (h.rests hruns ht)
  | error x => exact hQ x t (h.rests hruns ht)

end Lists

namespace ActionEventHandler

/-- The action of the delivery is one of a plan in the table, and saving it there gives the plan
of the delivery. -/
def Delivery.On (d : Delivery) (plans : PlanTable) : Prop :=
  ∃ q, plans (q.workspaceId, q.planId) = some q ∧
    (∀ status, q.replaceAction (d.action.withStatus status) = d.planWith status) ∧
    ∃ b ∈ q.actions, d.action.actionId = b.actionId ∧ d.action.planId = b.planId

section Delivery

variable {d : Delivery} {plans : PlanTable} {runs : RunApi} {uuid5 : String → String}
  {createdAt : AgentContext → String} {calls : List SyncCall}

/-- A saved action is still one of a plan in the table. -/
theorem Delivery.On.saved (h : d.On plans) (status : ActionStatus) :
    d.On (update plans (d.plan.workspaceId, d.plan.planId) (some (d.planWith status))) := by
  obtain ⟨q, hq, hwith, b, hb, hid, hplan⟩ := h
  refine ⟨d.planWith status, update_self _ _ _, fun status' => ?_,
    d.action.withStatus status, ?_, rfl, rfl⟩
  · exact AgentPlan.replaceAction_replaceAction _ _ _ rfl
  · rw [← hwith status, AgentPlan.replaceAction_actions]
    exact List.mem_map.2 ⟨b, hb, if_pos hid.symm⟩

/-- The report of the action mirrors the plan that it is saved in. -/
theorem Delivery.On.mirrored (hruns : runs.Lawful) (hd : d.On plans)
    (h : Mirrored runs uuid5 createdAt plans calls) (status : ActionStatus)
    (eventName message : String) :
    Mirrored runs uuid5 createdAt
      (update plans (d.plan.workspaceId, d.plan.planId) (some (d.planWith status)))
      (calls ++ [.actionState (d.planWith status) (d.action.withStatus status) eventName
        message]) := by
  obtain ⟨q, hq, hwith, b, hb, hid, hplan⟩ := hd
  have hws := congrArg AgentPlan.workspaceId (hwith status)
  have hplanId := congrArg AgentPlan.planId (hwith status)
  have hid' : (d.action.withStatus status).actionId = b.actionId := hid
  have hreported := h.actionState hruns hq hb hid' hplan eventName message
  rw [hwith status] at hreported
  change q.workspaceId = d.plan.workspaceId at hws
  change q.planId = d.plan.planId at hplanId
  rwa [hws, hplanId] at hreported

end Delivery

variable {runs : RunApi} {uuid5 : String → String} {createdAt : AgentContext → String}
  {env : Env} {w : World MemoryStateStore} {d : Delivery} {α : Type} (hruns : runs.Lawful)
  (h : w.Lists runs uuid5 createdAt)

section Settles

variable (hd : d.On w.store.plans)

include hruns h hd

/-- Save the plan with its action in a status, report it and fall silent. -/
theorem wp_save_report {k : Unit → App α} (status : ActionStatus) (eventName message : String)
    (hk : Quietly (k ())) :
    (d.save status >>= fun _ => d.report status eventName message >>= k).wp env.sem.step
      (fun _ t => t.Lists runs uuid5 createdAt) w := by
  rw [Program.wp_bind, Delivery.save, Program.wp_perform_step]
  change Program.wp _ _ _ _
  rw [Program.wp_bind, Delivery.report, Program.wp_perform_step]
  change Program.wp _ _ _ _
  exact World.Lists.wp_quietly hruns (hd.mirrored hruns h status eventName message) hk

theorem requireApproval_lists (validation : ValidationResult) :
    (requireApproval d validation).wp env.sem.step
      (fun _ t => t.Lists runs uuid5 createdAt) w := by
  refine h.wp_quietly_bind hruns (quietly_call trivial) (fun _ _ => id)
    fun resultId t ht hlists => ?_
  refine hlists.wp_quietly_bind hruns (quietly_call trivial) (fun _ _ => id) fun _ u hu hlists => ?_
  refine wp_save_report hruns hlists ?_ _ _ _ ?_
  · rwa [hu.plans, ht.plans]
  · refine .bind (quietly_call trivial) fun _ => .bind (quietly_enqueueEvents _) fun _ => ?_
    exact .bind (quietly_trace _ _ _ _) fun _ => quietly_settleIfSubplan _ _ _

theorem rejectStale_lists (validation : ValidationResult) :
    (rejectStale d validation).wp env.sem.step
      (fun _ t => t.Lists runs uuid5 createdAt) w := by
  refine wp_save_report hruns h hd _ _ _ (.bind (quietly_trace _ _ _ _) fun _ => ?_)
  split
  · exact quietly_settleSubplan _ _ _ _
  · refine .bind (quietly_call trivial) fun _ => .bind (quietly_call trivial) fun _ => ?_
    exact quietly_trace _ _ _ _

theorem rejectInvalid_lists (validation : ValidationResult) :
    (rejectInvalid d validation).wp env.sem.step
      (fun _ t => t.Lists runs uuid5 createdAt) w :=
  wp_save_report hruns h hd _ _ _
    (.bind (quietly_trace _ _ _ _) fun _ => quietly_settleIfSubplan _ _ _)

theorem executionError_lists (exc : Exc) :
    (executionError d exc).wp env.sem.step (fun _ t => t.Lists runs uuid5 createdAt) w := by
  unfold executionError
  rw [Program.wp_bind, Delivery.save, Program.wp_perform_step]
  change Program.wp _ _ _ _
  rw [Program.wp_bind, Delivery.report, Program.wp_attempt_perform_step]
  change Program.wp _ _ _ _
  refine World.Lists.wp_quietly hruns (hd.mirrored hruns h .failed _ _) ?_
  refine .bind (quietly_trace _ _ _ _) fun _ => .bind (quietly_trace _ _ _ _) fun _ => ?_
  split
  · exact quietly_settleSubplan _ _ _ _
  · trivial

theorem commit_lists (inline : Bool) (validation : ValidationResult) :
    (commit inline d validation).wp env.sem.step
      (fun _ t => t.Lists runs uuid5 createdAt) w := by
  refine wp_save_report hruns h hd _ _ _ (.bind (quietly_call trivial) fun _ => ?_)
  refine .bind (quietly_enqueueEvents _) fun _ => .bind (quietly_trace _ _ _ _) fun _ => ?_
  exact quietly_enqueueNextAction _ _ _

/-- A retry is enqueued before it is reported. -/
theorem retry_lists (validation : ValidationResult) :
    (retry d validation).wp env.sem.step (fun _ t => t.Lists runs uuid5 createdAt) w := by
  unfold retry
  rw [Program.wp_bind, Delivery.save, Program.wp_perform_step]
  change Program.wp _ _ _ _
  rw [Program.wp_bind, Program.wp_perform_step]
  change Program.wp _ _ _ _
  rw [Program.wp_bind, Program.wp_perform_step]
  change Program.wp _ _ _ _
  rw [Program.wp_bind, Delivery.report, Program.wp_perform_step]
  change Program.wp _ _ _ _
  exact World.Lists.wp_quietly hruns (hd.mirrored hruns h .pending _ _) (quietly_trace _ _ _ _)

theorem settleFailure_lists (validation : ValidationResult) :
    (settleFailure d validation).wp env.sem.step
      (fun _ t => t.Lists runs uuid5 createdAt) w := by
  unfold settleFailure
  split
  · exact retry_lists hruns h hd validation
  · exact wp_save_report hruns h hd _ _ _
      (.bind (quietly_trace _ _ _ _) fun _ => quietly_settleIfSubplan _ _ _)

theorem settleResult_lists (inline : Bool) (result : ToolResult) :
    (settleResult inline d result).wp env.sem.step
      (fun _ t => t.Lists runs uuid5 createdAt) w := by
  refine h.wp_quietly_bind hruns (quietly_call trivial) (fun _ _ => id) fun _ t ht hlists => ?_
  refine hlists.wp_quietly_bind hruns (quietly_trace _ _ _ _) (fun _ _ => id)
    fun _ u hu hlists => ?_
  have hon : d.On u.store.plans := by rwa [hu.plans, ht.plans]
  split
  · exact commit_lists hruns hlists hon inline _
  · rw [Program.wp_bind]
    refine Program.wp_mono (settleFailure_lists hruns hlists hon _) fun r v hv => ?_
    cases r <;> exact hv

theorem settleExecution_lists (inline : Bool) (answer : Except Exc ToolResult) :
    (settleExecution inline d answer).wp env.sem.step
      (fun _ t => t.Lists runs uuid5 createdAt) w := by
  cases answer with
  | ok result => exact settleResult_lists hruns h hd inline result
  | error exc =>
      unfold settleExecution
      rw [Program.wp_bind]
      refine Program.wp_mono (executionError_lists hruns h hd exc) fun r v hv => ?_
      cases r <;> exact hv

/-- RUNNING is reported before it is saved. -/
theorem execute_lists (inline : Bool) :
    (execute inline d).wp env.sem.step (fun _ t => t.Lists runs uuid5 createdAt) w := by
  unfold execute
  rw [Program.wp_bind, Delivery.report, Program.wp_perform_step]
  change Program.wp _ _ _ _
  rw [Program.wp_bind, Delivery.save, Program.wp_perform_step]
  change Program.wp _ _ _ _
  have hrunning := hd.mirrored hruns h .running "action.executing"
    ("Executing tool " ++ d.action.toolName ++ " for action " ++ d.action.actionId ++ ".")
  refine World.Lists.wp_quietly_bind hruns hrunning (quietly_trace _ _ _ _) (fun _ _ => id)
    fun _ t ht hlists => ?_
  refine hlists.wp_quietly_bind hruns (.attempt (quietly_call trivial)) (fun _ _ => id)
    fun answer u hu hlists => ?_
  refine settleExecution_lists hruns hlists ?_ inline answer
  rw [hu.plans, ht.plans]
  exact hd.saved .running

theorem actOn_lists (inline : Bool) (validation : ValidationResult) :
    (actOn inline d validation).wp env.sem.step
      (fun _ t => t.Lists runs uuid5 createdAt) w := by
  have hnone : ∀ {p : App Unit},
      p.wp env.sem.step (fun _ t => t.Lists runs uuid5 createdAt) w →
      (p >>= fun _ => (pure none : App (Option EventEnvelope))).wp env.sem.step
        (fun _ t => t.Lists runs uuid5 createdAt) w := by
    intro p hp
    rw [Program.wp_bind]
    refine Program.wp_mono hp fun r v hv => ?_
    cases r <;> exact hv
  unfold actOn
  split
  · exact hnone (requireApproval_lists hruns h hd validation)
  · exact hnone (rejectStale_lists hruns h hd validation)
  · exact hnone (rejectInvalid_lists hruns h hd validation)
  · exact execute_lists hruns h hd inline

theorem decideAction_lists (inline : Bool) :
    (decideAction inline d).wp env.sem.step (fun _ t => t.Lists runs uuid5 createdAt) w := by
  refine h.wp_quietly_bind hruns (quietly_trace _ _ _ _) (fun _ _ => id) fun _ t ht hlists => ?_
  refine hlists.wp_quietly_bind hruns (quietly_validate _ _) (fun _ _ => id)
    fun validation u hu hlists => ?_
  refine hlists.wp_quietly_bind hruns (quietly_trace _ _ _ _) (fun _ _ => id)
    fun _ v hv hlists => ?_
  refine actOn_lists hruns hlists ?_ inline validation
  rwa [hv.plans, hu.plans, ht.plans]

end Settles

include hruns h

/-- A selected action is one of a stored plan. -/
theorem selectAction_on (envelope : EventEnvelope) (planId actionId : String) :
    (selectAction envelope planId actionId).wp env.sem.step (fun r t =>
      t.Lists runs uuid5 createdAt ∧
        ∀ d, r = .ok (.selected d) → d.On t.store.plans) w := by
  have hquiet := (selectAction_writes envelope planId actionId).quietly (by simp) (by simp)
  refine Program.wp_mono (Program.wp_and (PrismAgent.wp_quietly hquiet)
    (selectAction_spec env planId actionId)) ?_
  rintro r t ⟨hrests, -, hselected⟩
  refine ⟨h.rests hruns hrests, fun d hd => ?_⟩
  obtain ⟨plan, hplan, rfl, haction, -⟩ := hselected _ hd
  have hstored : w.store.plans (envelope.event.workspaceId, planId) = some d.plan := hplan
  rw [← h.placed hstored] at hstored
  rw [hrests.plans]
  exact ⟨d.plan, hstored, fun _ => rfl, d.action, AgentPlan.mem_of_getAction haction, rfl, rfl⟩

theorem handleOne_lists (inline : Bool) (envelope : EventEnvelope) :
    (handleOne inline envelope).wp env.sem.step
      (fun _ t => t.Lists runs uuid5 createdAt) w := by
  unfold handleOne
  split
  next planId actionId _ =>
    unfold handleAction
    rw [Program.wp_bind]
    refine Program.wp_mono (selectAction_on hruns h envelope planId actionId) fun r t ht => ?_
    rcases r with _ | ⟨plan, action⟩ | d | d
    · exact ht.1
    · exact ht.1.wp_quietly hruns (quietly_skipAction _ _ _ _)
    · exact ht.1.wp_quietly hruns (.bind (quietly_trace _ _ _ _) fun _ => trivial)
    · exact decideAction_lists hruns ht.1 (ht.2 d rfl) inline
  next => exact h

/-- An invocation of the action handler. -/
theorem handle_lists (budget : ℕ) (envelope : EventEnvelope) :
    (handle budget envelope).wp env.sem.step (fun _ t => t.Lists runs uuid5 createdAt) w := by
  induction budget generalizing envelope w with
  | zero =>
      unfold handle
      rw [Program.wp_bind]
      refine Program.wp_mono (handleOne_lists hruns h false envelope) fun r t ht => ?_
      cases r <;> exact ht
  | succ budget ih =>
      unfold handle
      rw [Program.wp_bind]
      refine Program.wp_mono (handleOne_lists hruns h true envelope) fun r t ht => ?_
      rcases r with _ | _ | next
      · exact ht
      · exact ht
      · exact ih ht next

end ActionEventHandler

end PrismAgent
