import PrismAgent.Handler.Entry
import PrismAgent.Effect.Faults

/-!
# Redelivery of an action event

A delivery is attempted under a script of faults; while it raises, the event is
redelivered. `Recoverable` says what the state before a delivery must offer so that
the delivery picks up what is left to do, whichever action of the plan the event is
for, `Recovered` what the delivery that returns has done, and `Interrupted` describes
the points at which a fault loses something.
-/

namespace PrismAgent

open Effect

/-- The statuses other than COMPLETED in which a sub-plan settles its node. -/
def PlanStatus.halted : PlanStatus → Bool
  | .failed | .waitingForApproval | .replanRequired => true
  | _ => false

/-- The statuses of an action that halt its plan. -/
def ActionStatus.halts : ActionStatus → Bool
  | .failed | .requiresApproval | .stale => true
  | _ => false

/-- The statuses of an action behind which the plan moves on. -/
def ActionStatus.finished : ActionStatus → Bool
  | .completed | .skipped => true
  | _ => false

namespace AgentPlan

/-- The envelope settles the node of the sub-plan. -/
def SettledBy (plan : AgentPlan) (envelope : EventEnvelope) : Prop :=
  ∃ runId nodeId status, plan.parentRunId = some runId ∧ plan.nodeId = some nodeId ∧
    envelope.event.kind = .subagentCompleted runId nodeId status

/-- The plan halts: by its status, or by that of one of its actions, which its status
follows as soon as another action is replaced. -/
def Halts (plan : AgentPlan) : Prop :=
  plan.status.halted = true ∨ ∃ a ∈ plan.actions, a.status.halts = true

/-- A sub-plan that halts has settled its node. -/
def HaltsSettled (plan : AgentPlan) (queue : List EventEnvelope) : Prop :=
  plan.isSubplan = true → plan.Halts → ∃ e ∈ queue, plan.SettledBy e

end AgentPlan

/-- What a delivery for the action finds in the stored plan. The action is not RUNNING;
if it has halted, or its key is consumed while it is PENDING, the plan has nothing left
to go on with; and a sub-plan that halts has settled its node. -/
structure Recoverable (key : String × String) (actionId : String) (p : AgentPlan)
    (w : World MemoryStateStore) : Prop where
  located : key = (p.workspaceId, p.planId)
  stored : w.store.plans key = some p
  not_running : ∀ a, p.getAction actionId = some a → a.status ≠ .running
  passed : ∀ a, p.getAction actionId = some a →
    a.status.halts = true ∨ a.status = .pending ∧ a.idempotencyKey ∈ w.store.idempotencyKeys →
      p.nextPendingAction = none ∧ p.status ≠ .completed
  settled : p.HaltsSettled w.queue

/-- The action was chained inline or an event for it was enqueued. -/
def Continued (p : AgentPlan) (actionId : String) (log : List Call) : Prop :=
  (∃ traceEvent, .appendTraceEvent traceEvent ∈ log ∧ traceEvent.eventName = "action.chained" ∧
    traceEvent.planId = some p.planId ∧ traceEvent.actionId = some actionId) ∨
  ∃ e, .enqueue e ∈ log ∧ e.event.kind = .agentAction p.planId actionId

/-- What a delivery that made the calls of `log` has done: the action is not left
RUNNING, a sub-plan that has stopped has settled its node, and otherwise the next
action was chained or enqueued and a COMPLETED plan has completed its run. -/
structure Recovered (key : String × String) (actionId : String) (p : AgentPlan)
    (w : World MemoryStateStore) (log : List Call) : Prop where
  located : key = (p.workspaceId, p.planId)
  stored : w.store.plans key = some p
  not_running : ∀ a, p.getAction actionId = some a → a.status ≠ .running
  settled : p.isSubplan = true → p.status = .completed ∨ p.status.halted = true →
    ∃ e ∈ w.queue, p.SettledBy e
  next : ∀ next, p.nextPendingAction = some next → Continued p next.actionId log
  completed : p.isSubplan = false → p.status = .completed →
    .sync (.runCompletedById p.workspaceId (ActionEventHandler.apiRunId p)) ∈ log

/-- `plan` is the last plan that the calls of `log` save, with `after` behind it. -/
def LastSaved (log : List Call) (plan : AgentPlan) (after : List Call) : Prop :=
  (∃ before, log = before ++ .updatePlan plan :: after) ∧ ∀ p, Call.updatePlan p ∉ after

/-- The attempt that ends in `t` was interrupted after it saved the action as RUNNING and
before it saved the outcome, or after it saved that a sub-plan halts, whose node has not
been settled. -/
def Interrupted (actionId : String) (t : Logged Call (World MemoryStateStore)) : Prop :=
  ∃ plan after, LastSaved t.log plan after ∧
    ((∃ a, plan.getAction actionId = some a ∧ a.status = .running) ∨
      plan.isSubplan = true ∧ plan.status.halted = true ∧
        ∀ e ∈ t.state.queue, ¬ plan.SettledBy e)

/-- The tool of an action asked for a retry, which was enqueued, while another action is
the next one of the plan. -/
def RetriesOutOfTurn (log : List Call) : Prop :=
  ∃ plan after e actionId next, LastSaved log plan after ∧ .enqueue e ∈ after ∧
    0 < e.attempt ∧ e.event.kind = .agentAction plan.planId actionId ∧
    plan.nextPendingAction = some next ∧ next.actionId ≠ actionId

/-- A delivery to a handler with `budget` inline actions left, under a script of
faults. -/
structure Attempt where
  budget : ℕ := ActionEventHandler.INLINE_ACTION_CHAIN_BUDGET
  faults : FaultScript Exc

namespace Attempt

variable {σ : Type} [StateStore σ] (env : Env) (envelope : EventEnvelope) (attempt : Attempt)

def run (w : World σ) : Except Exc Unit × Logged Call (World σ) :=
  (env.sem.inject attempt.faults).exec (ActionEventHandler.handle attempt.budget envelope)
    { state := w }

end Attempt

/-- The deliveries `attempts` start in `w`, all raise, each in a state in `P`, and leave
`w'`. -/
inductive Aborted {σ : Type} [StateStore σ] (env : Env) (envelope : EventEnvelope)
    (P : Logged Call (World σ) → Prop) : World σ → List Attempt → World σ → Prop
  | nil (w : World σ) : Aborted env envelope P w [] w
  | cons {w w' : World σ} {attempt : Attempt} {attempts : List Attempt} {x : Exc}
      (hraises : (attempt.run env envelope w).1 = .error x)
      (hend : P (attempt.run env envelope w).2)
      (hrest : Aborted env envelope P (attempt.run env envelope w).2.state attempts w') :
      Aborted env envelope P w (attempt :: attempts) w'

end PrismAgent
