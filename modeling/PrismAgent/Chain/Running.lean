import PrismAgent.Chain.Settles
import PrismAgent.Safety.Execution

/-!
# Draining a plan

A normalized plan with distinct action ids and fresh keys is drained from the event
of its first action, whatever the oracle says. `Running` is the invariant of the
machine: the actions before the current one are COMPLETED, the ones behind it are
PENDING with unconsumed keys, and the current one has failed fewer than three times.
Every step ends the chain with a settled plan, tries the action once more, or moves
to the next one.
-/

namespace PrismAgent

open Effect ActionEventHandler

/-- A plan about to run: its actions are PENDING and have distinct ids and keys. -/
structure AboutToRun (p : AgentPlan) : Prop where
  orderly : p.Orderly
  keys : (p.actions.map (·.idempotencyKey)).Nodup
  pending : ∀ a ∈ p.actions, a.status = .pending

namespace AgentPlan

/-- The plan while it runs: `done` is COMPLETED and `todo` lies ahead. -/
def inProgress (p : AgentPlan) (done todo : List PlannedAction) (status : PlanStatus) :
    AgentPlan :=
  { p with actions := done.map (·.withStatus .completed) ++ todo, status := status }

variable {p : AgentPlan} {done rest : List PlannedAction} {action : PlannedAction}
  {status : PlanStatus}

theorem completed_of_done : ∀ b ∈ done.map (·.withStatus .completed), b.status = .completed := by
  intro b hb
  obtain ⟨a, -, rfl⟩ := List.mem_map.1 hb
  rfl

/-- Only the current action changes, and the status follows from it. -/
theorem replaceAction_inProgress (h : (p.inProgress done (action :: rest) status).Orderly)
    (hrest : ∀ b ∈ rest, b.status = .pending) (s : ActionStatus) :
    (p.inProgress done (action :: rest) status).replaceAction (action.withStatus s) =
      p.inProgress done (action.withStatus s :: rest) (statusBehind rest.isEmpty s) := by
  have hactions : ((p.inProgress done (action :: rest) status).replaceAction
      (action.withStatus s)).actions =
      done.map (·.withStatus .completed) ++ action.withStatus s :: rest :=
    h.replaceAction_actions_eq rfl s
  have hdone : ∀ b ∈ done.map (·.withStatus .completed), b.status = .completed :=
    completed_of_done
  have hstatus := statusOf_split (a := action.withStatus s) hdone hrest
  unfold replaceAction at hactions ⊢
  dsimp only at hactions ⊢
  rw [hactions, hstatus]
  rfl

/-- Moving on from a COMPLETED action. -/
theorem inProgress_append (todo : List PlannedAction) (status : PlanStatus) :
    p.inProgress (done ++ [action]) todo status =
      p.inProgress done (action.withStatus .completed :: todo) status := by
  simp [inProgress]

end AgentPlan

namespace View

variable (v : View) (d : Chosen) (s : ActionStatus) (eventName message : String)
  (result : ToolResult) (validation : ValidationResult) (answer : Except Exc ToolResult)

@[simp] theorem save_plans_self (plan : AgentPlan) :
    (v.save plan).plans (plan.workspaceId, plan.planId) = some plan := by
  simp [save]

theorem settle_plans : (v.settle d s eventName message).plans
    (d.plan.workspaceId, d.plan.planId) = some (d.planWith s) :=
  v.save_plans_self (d.planWith s)

theorem requireApproval_plans : (v.requireApproval d validation).plans
    (d.plan.workspaceId, d.plan.planId) = some (d.planWith .requiresApproval) :=
  (v.saveResult _).save_plans_self (d.planWith .requiresApproval)

theorem proceed_of_none {plan : AgentPlan} (h : plan.nextPendingAction = none) :
    ∃ u, v.proceed plan = (u, none) ∧ u.plans = v.plans ∧ u.executions = v.executions := by
  unfold proceed
  rw [h]
  dsimp only
  split
  · exact ⟨_, rfl, rfl, rfl⟩
  · exact ⟨_, rfl, rfl, rfl⟩

theorem proceed_of_some {plan : AgentPlan} {next : PlannedAction}
    (h : plan.nextPendingAction = some next) :
    v.proceed plan = (v, some ⟨plan.workspaceId, plan.planId, next.actionId, 0⟩) := by
  unfold proceed
  rw [h]

@[simp] theorem execute_executions : (v.execute d answer).executions =
    v.executions ++ [⟨d.plan, d.action, d.context, Env.outcomeOf answer⟩] := rfl

end View

/-- The chain has ended and left the plan settled. -/
def Finishes (p : AgentPlan) (v₀ v : View) : Prop :=
  ∃ xs q, v.executions = v₀.executions ++ xs ∧ v.plans (p.workspaceId, p.planId) = some q ∧
    PlanSettled p xs q.status

/-- The action that comes after `done` is to be handled; it has failed `k` times. -/
structure Running (p : AgentPlan) (snapshot : ContextSnapshot) (v₀ v : View)
    (done rest : List PlannedAction) (action : PlannedAction) (status : PlanStatus) (k : ℕ)
    (xs : List Execution) : Prop where
  actions : p.actions = done ++ action :: rest
  orderly : (p.inProgress done (action :: rest) status).Orderly
  live : status.stopped = false
  plan : v.plans (p.workspaceId, p.planId) =
    some (p.inProgress done (action :: rest) status)
  snapshot : v.contextSnapshots (p.workspaceId, p.contextSnapshotRef) = some snapshot
  fresh : ∀ b ∈ action :: rest, b.idempotencyKey ∉ v.idempotencyKeys
  executions : v.executions = v₀.executions ++ xs
  trail : Trail p.position done.length k xs
  planned : ∀ x ∈ xs, x.action ∈ p.actions
  attempt : k < ACTION_EXECUTION_ATTEMPTS

namespace Running

variable {p : AgentPlan} {snapshot : ContextSnapshot} {v₀ v u : View}
  {done rest : List PlannedAction} {action : PlannedAction} {status : PlanStatus} {k : ℕ}
  {xs : List Execution} {oracle : Oracle}

/-- The current action as it is handled. -/
def chosen (p : AgentPlan) (snapshot : ContextSnapshot) (done rest : List PlannedAction)
    (action : PlannedAction) (status : PlanStatus) (k : ℕ) : Chosen :=
  ⟨p.inProgress done (action :: rest) status, action, snapshot.context, k⟩

/-- The call of the current action's tool. -/
def toolCall (p : AgentPlan) (snapshot : ContextSnapshot) (done rest : List PlannedAction)
    (action : PlannedAction) (status : PlanStatus) (outcome : ToolOutcome) : Execution :=
  ⟨p.inProgress done (action :: rest) status, action, snapshot.context, outcome⟩

section Facts

variable (h : Running p snapshot v₀ v done rest action status k xs) (hp : AboutToRun p)

include h

theorem mem : action ∈ p.actions := by
  rw [h.actions]
  simp

include hp

theorem pending_rest : ∀ b ∈ rest, b.status = .pending := by
  intro b hb
  apply hp.pending
  rw [h.actions]
  simp [hb]

theorem planWith_eq (s : ActionStatus) :
    (chosen p snapshot done rest action status k).planWith s =
      p.inProgress done (action.withStatus s :: rest)
        (AgentPlan.statusBehind rest.isEmpty s) :=
  AgentPlan.replaceAction_inProgress h.orderly (h.pending_rest hp) s

/-- The token selects the current action. -/
theorem next_eq : oracle.next v ⟨p.workspaceId, p.planId, action.actionId, k⟩ =
    v.actOn oracle (chosen p snapshot done rest action status k)
      (oracle.validate action snapshot.context k) := by
  have hfound : (p.inProgress done (action :: rest) status).getAction action.actionId =
      some action := h.orderly.getAction_eq rfl
  have hsnapshot : v.contextSnapshots (p.workspaceId,
      (p.inProgress done (action :: rest) status).contextSnapshotRef) = some snapshot :=
    h.snapshot
  unfold Oracle.next
  simp only [h.plan, hfound, hsnapshot, hp.pending action h.mem, ne_eq, not_true_eq_false,
    if_false, h.fresh action List.mem_cons_self]
  rfl

/-- The chain ends with the current action in a status that stops the plan. -/
theorem finishes {s : ActionStatus} {xs' : List Execution} {k' : ℕ}
    (hs : s = .failed ∨ s = .requiresApproval ∨ s = .stale)
    (hplan : u.plans (p.workspaceId, p.planId) =
      some ((chosen p snapshot done rest action status k).planWith s))
    (hexecutions : u.executions = v₀.executions ++ xs')
    (htrail : Trail p.position done.length k' xs') (hplanned : ∀ x ∈ xs', x.action ∈ p.actions)
    (hk : k' ≤ ACTION_EXECUTION_ATTEMPTS) : Finishes p v₀ u := by
  refine ⟨xs', _, hexecutions, hplan, ?_⟩
  rw [h.planWith_eq hp s]
  have hlt : done.length < p.actions.length := by
    rw [h.actions]
    simp
  apply htrail.settles hp.orderly.nodup hplanned hk (Nat.le_of_lt hlt)
  · rcases hs with rfl | rfl | rfl <;> simp [AgentPlan.inProgress, AgentPlan.statusBehind]
  · rcases hs with rfl | rfl | rfl <;>
      simpa [AgentPlan.inProgress, AgentPlan.statusBehind] using Nat.ne_of_lt hlt

end Facts

/-- What a step of the machine leads to: the end of the chain, another attempt, or the
next action. -/
inductive Continues (p : AgentPlan) (snapshot : ContextSnapshot) (v₀ : View)
    (done rest : List PlannedAction) (action : PlannedAction) (k : ℕ) :
    View × Option Token → Prop
  | ended {u : View} : Finishes p v₀ u → Continues p snapshot v₀ done rest action k (u, none)
  | again {u : View} {status : PlanStatus} {xs : List Execution} :
      Running p snapshot v₀ u done rest action status (k + 1) xs →
      Continues p snapshot v₀ done rest action k
        (u, some ⟨p.workspaceId, p.planId, action.actionId, k + 1⟩)
  | moved {u : View} {next : PlannedAction} {rest' : List PlannedAction} {status : PlanStatus}
      {xs : List Execution} : rest = next :: rest' →
      Running p snapshot v₀ u (done ++ [action]) rest' next status 0 xs →
      Continues p snapshot v₀ done rest action k
        (u, some ⟨p.workspaceId, p.planId, next.actionId, 0⟩)

section Steps

variable (h : Running p snapshot v₀ v done rest action status k xs) (hp : AboutToRun p)

include h

theorem planned_append (outcome : ToolOutcome) :
    ∀ x ∈ xs ++ [toolCall p snapshot done rest action status outcome], x.action ∈ p.actions := by
  intro x hx
  rcases List.mem_append.1 hx with hx | hx
  · exact h.planned x hx
  · rw [List.mem_singleton.1 hx]
    exact h.mem

theorem executions_append {x : Execution} (hexecutions : u.executions = v.executions ++ [x]) :
    u.executions = v₀.executions ++ (xs ++ [x]) := by
  rw [hexecutions, h.executions, List.append_assoc]

include hp

theorem position_toolCall (outcome : ToolOutcome) :
    p.position (toolCall p snapshot done rest action status outcome) = done.length :=
  AgentPlan.idxOf_of_split hp.orderly.nodup h.actions

/-- The plan is still in order when the current action is PENDING or COMPLETED. -/
theorem orderly_planWith {s : ActionStatus} (hs : s = .pending ∨ s = .completed) :
    (p.inProgress done (action.withStatus s :: rest)
      (AgentPlan.statusBehind rest.isEmpty s)).Orderly := by
  rw [← h.planWith_eq hp s]
  apply h.orderly.settle rfl AgentPlan.completed_of_done (hp.pending action h.mem)
  rcases hs with rfl | rfl <;> simp

/-- The action is stopped before its tool is called. -/
theorem stopped {s : ActionStatus} (hs : s = .failed ∨ s = .requiresApproval ∨ s = .stale)
    (hplan : u.plans (p.workspaceId, p.planId) =
      some ((chosen p snapshot done rest action status k).planWith s))
    (hexecutions : u.executions = v.executions) : Finishes p v₀ u := by
  apply h.finishes hp hs hplan _ h.trail h.planned (Nat.le_of_lt h.attempt)
  rw [hexecutions, h.executions]

/-- The tool did not succeed and the action fails. -/
theorem failed {outcome : ToolOutcome} (houtcome : outcome ≠ .success)
    (hplan : u.plans (p.workspaceId, p.planId) =
      some ((chosen p snapshot done rest action status k).planWith .failed))
    (hexecutions : u.executions =
      v.executions ++ [toolCall p snapshot done rest action status outcome]) :
    Finishes p v₀ u := by
  have htrail := h.trail.fail (h.position_toolCall hp outcome) houtcome
  exact h.finishes hp (.inl rfl) hplan (h.executions_append hexecutions) htrail
    (h.planned_append outcome) h.attempt

/-- The tool did not succeed and the action is PENDING again. -/
theorem retried {outcome : ToolOutcome} (houtcome : outcome ≠ .success)
    (hk : k + 1 < ACTION_EXECUTION_ATTEMPTS)
    (hplan : u.plans (p.workspaceId, p.planId) =
      some ((chosen p snapshot done rest action status k).planWith .pending))
    (hsnapshots : u.contextSnapshots = v.contextSnapshots)
    (hkeys : u.idempotencyKeys = v.idempotencyKeys)
    (hexecutions : u.executions =
      v.executions ++ [toolCall p snapshot done rest action status outcome]) :
    Running p snapshot v₀ u done rest action .running (k + 1)
      (xs ++ [toolCall p snapshot done rest action status outcome]) := by
  have hsame : action.withStatus .pending = action := by
    rw [← hp.pending action h.mem]
    rfl
  constructor
  · exact h.actions
  · have horderly := h.orderly_planWith hp (s := .pending) (.inl rfl)
    rwa [hsame] at horderly
  · rfl
  · rw [hplan, h.planWith_eq hp, hsame]
    rfl
  · rw [hsnapshots]
    exact h.snapshot
  · rw [hkeys]
    exact h.fresh
  · exact h.executions_append hexecutions
  · exact h.trail.fail (h.position_toolCall hp outcome) houtcome
  · exact h.planned_append outcome
  · exact hk

/-- The tool succeeded: the plan is COMPLETED, or the next action comes. -/
theorem succeeded (hplan : u.plans (p.workspaceId, p.planId) =
      some ((chosen p snapshot done rest action status k).planWith .completed))
    (hsnapshots : u.contextSnapshots = v.contextSnapshots)
    (hkeys : u.idempotencyKeys = insert action.idempotencyKey v.idempotencyKeys)
    (hexecutions : u.executions =
      v.executions ++ [toolCall p snapshot done rest action status .success]) :
    Continues p snapshot v₀ done rest action k
      (u.proceed ((chosen p snapshot done rest action status k).planWith .completed)) := by
  have htrail := h.trail.succeed (h.position_toolCall hp .success) rfl h.attempt
  have horderly := h.orderly_planWith hp (s := .completed) (.inr rfl)
  rw [h.planWith_eq hp] at hplan ⊢
  cases rest with
  | nil =>
      have hnone : (p.inProgress done [action.withStatus .completed] .completed).nextPendingAction =
          none := rfl
      obtain ⟨u', hu', hplans, hcalls⟩ := u.proceed_of_none hnone
      have hlength : done.length + 1 = p.actions.length := by
        rw [h.actions]
        simp
      rw [AgentPlan.statusBehind, List.isEmpty_nil, if_pos rfl] at hplan ⊢
      rw [hu']
      have hsettled : PlanSettled p _ .completed :=
        htrail.settles hp.orderly.nodup (h.planned_append .success) (Nat.zero_le _)
          (Nat.le_of_eq hlength) (.inl rfl) (iff_of_true rfl hlength)
      rw [← hplans] at hplan
      exact .ended ⟨_, _, hcalls.trans (h.executions_append hexecutions), hplan, hsettled⟩
  | cons next rest' =>
      rw [← AgentPlan.inProgress_append] at hplan horderly ⊢
      have hactions : p.actions = (done ++ [action]) ++ next :: rest' := by
        rw [h.actions]
        simp
      have hfresh : ∀ b ∈ next :: rest', b.idempotencyKey ∉ u.idempotencyKeys := by
        intro b hb hconsumed
        rw [hkeys] at hconsumed
        rcases Finset.mem_insert.1 hconsumed with hkey | hold
        · have hnodup := hp.keys
          rw [h.actions, List.map_append, List.nodup_append] at hnodup
          have hfirst := List.nodup_cons.1 hnodup.2.1
          exact hfirst.1 (List.mem_map.2 ⟨b, hb, hkey⟩)
        · exact h.fresh b (List.mem_cons_of_mem action hb) hold
      have hsnapshot := h.snapshot
      rw [← hsnapshots] at hsnapshot
      rw [show done.length + 1 = (done ++ [action]).length by simp] at htrail
      have hpending : next.status = .pending := h.pending_rest hp next List.mem_cons_self
      have hnext := horderly.nextPendingAction_eq rfl rfl AgentPlan.completed_of_done hpending
      rw [View.proceed_of_some u hnext]
      exact .moved rfl ⟨hactions, horderly, rfl, hplan, hsnapshot, hfresh,
        h.executions_append hexecutions, htrail, h.planned_append .success, by decide⟩

/-- What the answer of the current action's tool leads to. -/
theorem settleExecution_continues (answer : Except Exc ToolResult) :
    Continues p snapshot v₀ done rest action k
      ((v.execute (chosen p snapshot done rest action status k) answer).settleExecution
        (chosen p snapshot done rest action status k) answer) := by
  cases answer with
  | error exc =>
      have hraised : ToolOutcome.raised ≠ .success := by decide
      exact .ended (h.failed hp hraised (View.settle_plans _ _ _ _ _) rfl)
  | ok result =>
      unfold View.settleExecution
      cases hsuccess : result.success with
      | true =>
          have hcommit : (Validator.validateAfterExecution result).decision = .commit := by
            simp [Validator.validateAfterExecution, hsuccess]
          have houtcome : Env.outcomeOf (.ok result) = .success := by
            simp [Env.outcomeOf, hsuccess]
          dsimp only
          rw [if_pos hcommit]
          apply h.succeeded hp
          · rw [View.consume_plans]
            exact View.settle_plans _ _ _ _ _
          · rfl
          · rfl
          · unfold toolCall
            rw [← houtcome]
            rfl
      | false =>
          have hretry : (Validator.validateAfterExecution result).decision = .retry := by
            simp [Validator.validateAfterExecution, hsuccess]
          have houtcome : Env.outcomeOf (.ok result) ≠ .success := by
            simp [Env.outcomeOf, hsuccess]
          have hcommit : ¬ (Validator.validateAfterExecution result).decision = .commit := by
            rw [hretry]
            decide
          dsimp only
          rw [if_neg hcommit]
          unfold View.settleFailure
          split
          next hattempt =>
            exact .again (h.retried hp houtcome hattempt.2 (View.settle_plans _ _ _ _ _)
              rfl rfl rfl)
          next => exact .ended (h.failed hp houtcome (View.settle_plans _ _ _ _ _) rfl)

/-- A step of the machine for the current action. -/
theorem next_continues : Continues p snapshot v₀ done rest action k
    (oracle.next v ⟨p.workspaceId, p.planId, action.actionId, k⟩) := by
  rw [h.next_eq hp]
  unfold View.actOn
  cases (oracle.validate action snapshot.context k).decision with
  | suggest =>
      exact .ended (h.stopped hp (.inr (.inl rfl)) (View.requireApproval_plans _ _ _) rfl)
  | replan => exact .ended (h.stopped hp (.inr (.inr rfl)) (View.settle_plans _ _ _ _ _) rfl)
  | fail => exact .ended (h.stopped hp (.inl rfl) (View.settle_plans _ _ _ _ _) rfl)
  | _ => exact h.settleExecution_continues hp _

end Steps

/-- The chain comes to rest with a settled plan: by induction on the actions ahead and
the attempts left. -/
theorem rests (h : Running p snapshot v₀ v done rest action status k xs)
    (hp : AboutToRun p) : ∃ n u,
      (advance oracle.next)^[n] (v, some ⟨p.workspaceId, p.planId, action.actionId, k⟩) =
        (u, none) ∧ Finishes p v₀ u := by
  generalize hmeasure : 3 * rest.length + (3 - k) = measure
  induction measure using Nat.strongRecOn generalizing v done rest action status k xs with
  | _ measure ih =>
      have hattempt : k < 3 := h.attempt
      obtain ⟨y, hy⟩ : ∃ y, oracle.next v ⟨p.workspaceId, p.planId, action.actionId, k⟩ = y :=
        ⟨_, rfl⟩
      have hstep : Continues p snapshot v₀ done rest action k y := by
        rw [← hy]
        exact h.next_continues hp
      have hthen : ∀ {n u}, (advance oracle.next)^[n] y = (u, none) →
          (advance oracle.next)^[n + 1]
            (v, some ⟨p.workspaceId, p.planId, action.actionId, k⟩) = (u, none) := by
        intro n u hrests
        rw [Function.iterate_succ_apply, advance_some, hy]
        exact hrests
      cases hstep with
      | ended hfinishes => exact ⟨1, _, hthen rfl, hfinishes⟩
      | again hrunning =>
          obtain ⟨n, u, hrests, hfinishes⟩ := ih _ (by omega) hrunning rfl
          exact ⟨n + 1, u, hthen hrests, hfinishes⟩
      | moved hrest hrunning =>
          subst hrest
          rw [List.length_cons] at hmeasure
          obtain ⟨n, u, hrests, hfinishes⟩ := ih _ (by omega) hrunning rfl
          exact ⟨n + 1, u, hthen hrests, hfinishes⟩

end Running

namespace Planner

/-- A normalized plan with distinct action ids is about to run. -/
theorem aboutToRun_normalizePlanForRuntime {form : NormalForm} {proposed : AgentPlan}
    (hnodup : ((normalizePlanForRuntime form proposed).actions.map (·.actionId)).Nodup) :
    AboutToRun (normalizePlanForRuntime form proposed) where
  orderly := normalizePlanForRuntime_orderly hnodup
  keys := (normalizePlanForRuntime_keyed form proposed).nodup
  pending := pending_normalizeActions form proposed.actions 1 none

end Planner

/-- The plan and its snapshot are stored, none of its keys is consumed, and the event
asks for its first action. -/
structure Enqueued (p : AgentPlan) (w : World MemoryStateStore) (envelope : EventEnvelope) :
    Prop where
  plan : w.store.getPlan p.workspaceId p.planId = some p
  snapshot : (w.store.getContextSnapshot p.workspaceId p.contextSnapshotRef).isSome
  fresh : ∀ a ∈ p.actions, w.store.checkIdempotencyKey a.idempotencyKey = false
  first : AsksForNext p envelope
  attempt : envelope.attempt = 0

/-- The invariant holds when the first action is enqueued. -/
theorem Enqueued.running {p : AgentPlan} {w : World MemoryStateStore} {envelope : EventEnvelope}
    (h : Enqueued p w envelope) (hp : AboutToRun p) (hstatus : p.status = .planned) :
    ∃ snapshot action rest, Running p snapshot w.view w.view [] rest action .planned 0 [] ∧
      envelope.isAction = true ∧
      envelope.token = ⟨p.workspaceId, p.planId, action.actionId, 0⟩ := by
  obtain ⟨action, hnext, hkind, hworkspace⟩ := h.first
  obtain ⟨snapshot, hsnapshot⟩ := Option.isSome_iff_exists.1 h.snapshot
  obtain ⟨-, hmem, -⟩ := AgentPlan.nextPendingAction_eq_some hnext
  obtain ⟨first, rest, hactions⟩ : ∃ first rest, p.actions = [] ++ first :: rest :=
    List.exists_cons_of_ne_nil (List.ne_nil_of_mem hmem)
  have hlive : p.status.stopped = false := by
    rw [hstatus]
    rfl
  have hpending : first.status = .pending := by
    apply hp.pending
    rw [hactions]
    exact List.mem_cons_self
  have hfirst := hp.orderly.nextPendingAction_eq hlive hactions (by simp) hpending
  obtain rfl : action = first := Option.some.inj (hnext.symm.trans hfirst)
  have hsame : p.inProgress [] (action :: rest) .planned = p := by
    unfold AgentPlan.inProgress
    rw [← hstatus, List.map_nil, ← hactions]
  refine ⟨snapshot, action, rest, ?_, ?_, ?_⟩
  · constructor
    · exact hactions
    · rw [hsame]
      exact hp.orderly
    · rfl
    · rw [hsame]
      exact h.plan
    · exact hsnapshot
    · intro b hb
      have hfresh := h.fresh b (by rwa [hactions])
      have hnotMem : b.idempotencyKey ∉ w.store.idempotencyKeys := by
        simpa [MemoryStateStore.checkIdempotencyKey] using hfresh
      exact hnotMem
    · exact (List.append_nil _).symm
    · exact .nil _
    · simp
    · decide
  · unfold EventEnvelope.isAction
    rw [hkind]
  · unfold EventEnvelope.token
    rw [hkind, hworkspace, h.attempt]

/-- Draining a normalized plan with distinct action ids settles it, whatever the
validation and the tools answer and however far actions are chained inline. -/
theorem draining_settles (env : Env) (oracle : Oracle)
    (budgets : ℕ → World MemoryStateStore → ℕ) (form : Planner.NormalForm)
    (proposed : AgentPlan) {w : World MemoryStateStore} {envelope : EventEnvelope}
    (hnodup : ((Planner.normalizePlanForRuntime form proposed).actions.map
      (·.actionId)).Nodup)
    (henqueued : Enqueued (Planner.normalizePlanForRuntime form proposed) w envelope) :
    (∃ t, (oracle.consumer env budgets).DrainsTo (w.withQueue envelope, 0) t) ∧
      ∀ t, (oracle.consumer env budgets).DrainsTo (w.withQueue envelope, 0) t →
        ∃ xs q, t.executions = w.executions ++ xs ∧
          t.store.getPlan form.context.workspaceId form.planId = some q ∧
          PlanSettled (Planner.normalizePlanForRuntime form proposed) xs q.status := by
  have hp := Planner.aboutToRun_normalizePlanForRuntime hnodup
  obtain ⟨snapshot, action, rest, hrunning, haction, htoken⟩ := henqueued.running hp rfl
  obtain ⟨n, u, hrests, hfinishes⟩ := hrunning.rests hp
  have hrefines := oracle.consumer_refines env budgets
  have htracks := oracle.tracks_withQueue env budgets w envelope
  rw [haction, if_pos rfl, htoken] at htracks
  constructor
  · obtain ⟨t, ht, -⟩ := hrefines.drainsTo_of_rests htracks hrests
    exact ⟨t, ht⟩
  · intro t ht
    obtain ⟨m, hm⟩ := hrefines.rests_of_drainsTo htracks ht
    rw [← advance_iterate_unique hm hrests] at hfinishes
    exact hfinishes

/-- Every tool fails once and then succeeds. -/
def flakyOracle : Oracle where
  validate _ _ _ := { decision := .commit, valid := true }
  execute action _ attempt :=
    .ok
      { resultId := "result"
        planId := action.planId
        actionId := action.actionId
        toolName := action.toolName
        success := 0 < attempt }
  validate_emitted := by
    rintro _ _ _ e ⟨⟩
  execute_emitted := by
    rintro _ _ _ _ ⟨⟩ e ⟨⟩

def sampleForm : Planner.NormalForm where
  context :=
    { workspaceId := "ws", projectId := none, sourceEvent := sampleSeed, workflowId := "workflow" }
  contextSnapshotRef := "snapshot"
  planId := "run"
  idempotencyPrefix := "run"
  promptId := "prompt"
  promptVersion := "1"
  goal := "goal"
  skillIds := ["skill"]
  toolNames := ["notify"]
  approvalPolicy := {}

/-- The plan of the form and its snapshot are stored. -/
def plannedWorld : World MemoryStateStore where
  store :=
    (({} : MemoryStateStore).saveContextSnapshot
      { snapshotId := "snapshot"
        workspaceId := "ws"
        workflowId := "workflow"
        context := sampleForm.context }).savePlan
          (Planner.normalizePlanForRuntime sampleForm sampleProposal)

theorem draining_settles_sample :
    ∃ t, (flakyOracle.consumer sampleEnv fun _ _ => 8).DrainsTo
        (plannedWorld.withQueue (sampleActionEvent "a"), 0) t ∧
      ∃ xs q, t.executions = xs ∧ t.store.getPlan "ws" "run" = some q ∧
        PlanSettled (Planner.normalizePlanForRuntime sampleForm sampleProposal) xs q.status := by
  have henqueued : Enqueued (Planner.normalizePlanForRuntime sampleForm sampleProposal)
      plannedWorld (sampleActionEvent "a") :=
    ⟨rfl, rfl, by decide, ⟨_, rfl, rfl, rfl⟩, rfl⟩
  obtain ⟨⟨t, ht⟩, hsettles⟩ :=
    draining_settles sampleEnv flakyOracle (fun _ _ => 8) sampleForm sampleProposal (by decide)
      henqueued
  obtain ⟨xs, q, hexecutions, hplan, hsettled⟩ := hsettles t ht
  exact ⟨t, ht, xs, q, hexecutions, hplan, hsettled⟩

end PrismAgent
