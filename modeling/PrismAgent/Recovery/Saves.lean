import PrismAgent.Recovery.Redelivery

/-!
# What a saved plan leaves to recover

The status of a plan that an entry saves follows its actions. As long as no other plan is
saved, the log and the stored plan together say whether an abort would lose something.
-/

namespace PrismAgent

open Effect

namespace AgentPlan

theorem statusOf_completed_iff {actions : List PlannedAction} :
    statusOf actions = .completed ↔ ∀ a ∈ actions, a.status.finished = true := by
  have hfinished : ∀ status : ActionStatus,
      status.finished = true ↔ status = .completed ∨ status = .skipped := by
    intro status
    cases status <;> simp [ActionStatus.finished]
  unfold statusOf
  simp only [hfinished]
  constructor
  · intro h
    split_ifs at h with hall
    simpa using hall
  · intro h
    rw [if_pos (by simpa using h)]

/-- A plan halts with its actions. -/
theorem statusOf_halted_iff {actions : List PlannedAction} :
    (statusOf actions).halted = true ↔ ∃ a ∈ actions, a.status.halts = true := by
  have hhalts : ∀ status : ActionStatus, status.halts = true ↔
      status = .failed ∨ status = .requiresApproval ∨ status = .stale := by
    intro status
    cases status <;> simp [ActionStatus.halts]
  simp only [hhalts]
  unfold statusOf
  constructor
  · intro h
    split_ifs at h with hall hfailed happroval hstale
    · simp [PlanStatus.halted] at h
    · obtain ⟨a, ha, hstatus⟩ := List.any_eq_true.1 hfailed
      exact ⟨a, ha, .inl (by simpa using hstatus)⟩
    · obtain ⟨a, ha, hstatus⟩ := List.any_eq_true.1 happroval
      exact ⟨a, ha, .inr (.inl (by simpa using hstatus))⟩
    · obtain ⟨a, ha, hstatus⟩ := List.any_eq_true.1 hstale
      exact ⟨a, ha, .inr (.inr (by simpa using hstatus))⟩
    · simp [PlanStatus.halted] at h
  · rintro ⟨a, ha, hstatus⟩
    have hall : ¬ (actions.all fun a => a.status = .completed ∨ a.status = .skipped) = true := by
      intro hall
      have hfinished := of_decide_eq_true (List.all_eq_true.1 hall a ha)
      rcases hstatus with h | h | h <;> simp [h] at hfinished
    rw [if_neg hall]
    split_ifs with hfailed happroval hstale
    · rfl
    · rfl
    · rfl
    · simp only [List.any_eq_true, decide_eq_true_eq, not_exists, not_and] at *
      rcases hstatus with h | h | h
      · exact absurd h (hfailed a ha)
      · exact absurd h (happroval a ha)
      · exact absurd h (hstale a ha)

theorem stopped_of_halted {status : PlanStatus} (h : status.halted = true) :
    status.stopped = true := by
  cases status <;> simp_all [PlanStatus.halted, PlanStatus.stopped]

/-- A plan without a next action. -/
theorem nextPendingAction_of_stopped {p : AgentPlan} (h : p.status.stopped = true) :
    p.nextPendingAction = none := by
  simp [nextPendingAction, h]

/-- A plan with a next action has neither halted nor completed. -/
theorem live_of_nextPendingAction {p : AgentPlan} {next : PlannedAction}
    (h : p.nextPendingAction = some next) :
    p.status ≠ .completed ∧ p.status.halted = false := by
  have hlive := (nextPendingAction_eq_some h).1
  revert hlive
  cases p.status <;> simp [PlanStatus.stopped, PlanStatus.halted]

end AgentPlan

/-- The action of `d` is a PENDING one of its plan: the delivered action, or one chained
behind it. -/
structure Turn (key : String × String) (actionId : String)
    (d : ActionEventHandler.Delivery) : Prop where
  located : key = (d.plan.workspaceId, d.plan.planId)
  getAction : d.plan.getAction d.action.actionId = some d.action
  action_pending : d.action.status = .pending
  delivered : d.action.actionId = actionId ∨
    ∀ a, d.plan.getAction actionId = some a → a.status.finished = true

namespace Turn

variable {key : String × String} {actionId : String} {d : ActionEventHandler.Delivery}
  (h : Turn key actionId d)

include h

/-- The action found under the delivered id once the action of `d` took `status`. -/
theorem getAction_planWith (status : ActionStatus) {a : PlannedAction}
    (ha : (d.planWith status).getAction actionId = some a) :
    d.action.actionId = actionId ∧ a = d.action.withStatus status ∨
      d.action.actionId ≠ actionId ∧ a.status.finished = true := by
  unfold ActionEventHandler.Delivery.planWith at ha
  by_cases hid : d.action.actionId = actionId
  · have hself : (d.plan.replaceAction (d.action.withStatus status)).getAction _ = _ :=
      AgentPlan.getAction_replaceAction_self h.getAction rfl
    rw [← hid, hself] at ha
    exact .inl ⟨hid, (Option.some.inj ha).symm⟩
  · have hother : (d.action.withStatus status).actionId ≠ actionId := hid
    rw [AgentPlan.getAction_replaceAction_of_ne hother] at ha
    exact .inr ⟨hid, (h.delivered.resolve_left hid) a ha⟩

theorem mem_planWith (status : ActionStatus) :
    d.action.withStatus status ∈ (d.planWith status).actions :=
  AgentPlan.mem_of_getAction (AgentPlan.getAction_replaceAction_self h.getAction rfl)

/-- The saved plan is COMPLETED only with the action. -/
theorem not_completed {status : ActionStatus} (hstatus : status.finished = false) :
    (d.planWith status).status ≠ .completed := by
  intro hcompleted
  have hfinished := AgentPlan.statusOf_completed_iff.1 hcompleted _ (h.mem_planWith status)
  rw [PlannedAction.withStatus_status, hstatus] at hfinished
  cases hfinished

/-- The saved plan has no next action if the action halts it. -/
theorem next_of_halts {status : ActionStatus} (hstatus : status.halts = true) :
    (d.planWith status).nextPendingAction = none :=
  AgentPlan.nextPendingAction_of_stopped (AgentPlan.stopped_of_halted
    (AgentPlan.statusOf_halted_iff.2 ⟨_, h.mem_planWith status, hstatus⟩))

end Turn

namespace ActionEventHandler.Delivery

variable (d : ActionEventHandler.Delivery)

/-- The status of the saved plan says whether it halts. -/
theorem halted_of_halts {status : ActionStatus} (h : (d.planWith status).Halts) :
    (d.planWith status).status.halted = true :=
  h.elim id AgentPlan.statusOf_halted_iff.2

/-- The saved plan halts with the action, or because the plan did before. -/
theorem halts_planWith {status : ActionStatus} (h : (d.planWith status).Halts) :
    status.halts = true ∨ d.plan.Halts := by
  obtain ⟨a, ha, hhalts⟩ := AgentPlan.statusOf_halted_iff.1 (d.halted_of_halts h)
  obtain ⟨b, hb, rfl⟩ := List.mem_map.1 ha
  split at hhalts
  · exact .inl hhalts
  · exact .inr (.inr ⟨b, hb, hhalts⟩)

end ActionEventHandler.Delivery

theorem Continued.append {p : AgentPlan} {id : String} {log : List Call}
    (h : Continued p id log) (call : Call) : Continued p id (log ++ [call]) := by
  rcases h with ⟨traceEvent, hmem, h⟩ | ⟨e, hmem, h⟩
  · exact .inl ⟨traceEvent, List.mem_append_left _ hmem, h⟩
  · exact .inr ⟨e, List.mem_append_left _ hmem, h⟩

section Keeps

variable (env : Env) {w : World MemoryStateStore} {log : List Call} {call : Call}

theorem queue_subset_sem : w.queue ⊆ (env.sem call w).2.queue := by
  cases call with
  | enqueue e => exact List.subset_append_left _ _
  | _ => exact List.Subset.refl _

theorem plans_sem (h : call.writes ≠ some .plans) :
    (env.sem call w).2.store.plans = w.store.plans := by
  have hsame : Part.Same w (env.sem call w).2 .plans := sem_same env h
  exact hsame.1

theorem idempotencyKeys_sem (h : call.writes ≠ some .idempotencyKeys) :
    (env.sem call w).2.store.idempotencyKeys = w.store.idempotencyKeys := by
  have hsame : Part.Same w (env.sem call w).2 .idempotencyKeys := sem_same env h
  exact hsame

variable {key : String × String} {actionId : String} {p : AgentPlan}

theorem AgentPlan.HaltsSettled.sem (h : p.HaltsSettled w.queue) :
    p.HaltsSettled (env.sem call w).2.queue := by
  intro hsubplan hhalts
  obtain ⟨e, he, hsettles⟩ := h hsubplan hhalts
  exact ⟨e, queue_subset_sem env he, hsettles⟩

theorem Recoverable.sem (h : Recoverable key actionId p w) (hplans : call.writes ≠ some .plans)
    (hkeys : call.writes ≠ some .idempotencyKeys) :
    Recoverable key actionId p (env.sem call w).2 := by
  refine ⟨h.located, ?_, h.not_running, ?_, h.settled.sem env⟩
  · rw [plans_sem env hplans]
    exact h.stored
  · rw [idempotencyKeys_sem env hkeys]
    exact h.passed

/-- The plan with the action of `d` in `status` is the last one saved, and if the plan
halted before, its node has been settled. -/
structure Saved (key : String × String) (d : ActionEventHandler.Delivery) (status : ActionStatus)
    (w : World MemoryStateStore) (log : List Call) : Prop where
  stored : w.store.plans key = some (d.planWith status)
  last : ∃ after, LastSaved log (d.planWith status) after
  settled : d.plan.HaltsSettled w.queue

variable {d : ActionEventHandler.Delivery} {status : ActionStatus}

theorem LastSaved.append {after : List Call} (h : LastSaved log p after)
    (hcall : call.writes ≠ some .plans) : LastSaved (log ++ [call]) p (after ++ [call]) := by
  obtain ⟨⟨before, rfl⟩, hlast⟩ := h
  refine ⟨⟨before, by simp⟩, fun q hq => ?_⟩
  rcases List.mem_append.1 hq with hq | hq
  · exact hlast q hq
  · rw [← List.mem_singleton.1 hq] at hcall
    exact hcall rfl

theorem Saved.update (hlocated : key = (d.plan.workspaceId, d.plan.planId))
    (hsettled : d.plan.HaltsSettled w.queue) :
    Saved key d status (env.sem (.updatePlan (d.planWith status)) w).2
      (log ++ [.updatePlan (d.planWith status)]) := by
  refine ⟨?_, ⟨[], ⟨log, rfl⟩, by simp⟩, hsettled⟩
  rw [hlocated]
  exact Function.update_self _ _ _

theorem Saved.sem (h : Saved key d status w log) (hplans : call.writes ≠ some .plans) :
    Saved key d status (env.sem call w).2 (log ++ [call]) := by
  obtain ⟨hstored, ⟨after, hlast⟩, hsettled⟩ := h
  refine ⟨?_, ⟨after ++ [call], hlast.append hplans⟩, hsettled.sem env⟩
  rw [plans_sem env hplans]
  exact hstored

/-- Unless the attempt ends at a point that loses something, the saved plan is
recoverable. -/
theorem Saved.recoverable {t : Logged Call (World MemoryStateStore)} (hturn : Turn key actionId d)
    (h : Saved key d status t.state t.log)
    (hkey : status = .pending → d.action.actionId = actionId →
      d.action.idempotencyKey ∉ t.state.store.idempotencyKeys)
    (hend : ¬ Interrupted actionId t) : Recoverable key actionId (d.planWith status) t.state := by
  obtain ⟨hstored, ⟨after, hlast⟩, -⟩ := h
  refine ⟨hturn.located, hstored, fun a ha hrunning => ?_, fun a ha hpassed => ?_,
    fun hsubplan hhalts => ?_⟩
  · exact hend ⟨_, after, hlast, .inl ⟨a, ha, hrunning⟩⟩
  · rcases hturn.getAction_planWith status ha with ⟨hid, rfl⟩ | ⟨-, hfinished⟩
    · rcases hpassed with hhalts | ⟨hpending, hconsumed⟩
      · rw [PlannedAction.withStatus_status] at hhalts
        refine ⟨hturn.next_of_halts hhalts, hturn.not_completed ?_⟩
        revert hhalts
        cases status <;> simp [ActionStatus.halts, ActionStatus.finished]
      · exact absurd hconsumed (hkey hpending hid)
    · rcases hpassed with hhalts | ⟨hpending, -⟩
      · revert hhalts hfinished
        cases a.status <;> simp [ActionStatus.halts, ActionStatus.finished]
      · rw [hpending] at hfinished
        cases hfinished
  · by_contra hnone
    refine hend ⟨_, after, hlast, .inr ⟨hsubplan, d.halted_of_halts hhalts, ?_⟩⟩
    exact fun e he hsettles => hnone ⟨e, he, hsettles⟩

end Keeps

end PrismAgent
