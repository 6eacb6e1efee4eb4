import Mathlib.Data.Finset.Image
import PrismAgent.Domain.Json

/-!
# Plans and their actions

`domain/actions.py` and `domain/plans.py`: a planned action with its status, the
plan that lists the actions, the choice of the next action to run and the
recomputation of the plan status when an action is replaced.
-/

namespace PrismAgent

inductive ActionStatus
  | pending
  | running
  | completed
  | failed
  | skipped
  | requiresApproval
  | stale
  deriving DecidableEq, Repr

/-- A version of an entity: `str | int`. -/
inductive EntityVersion
  | text (value : String)
  | number (value : ℤ)
  deriving DecidableEq, Repr

/-- The fields every proposed work item carries. -/
structure WorkItemLeafDraft where
  title : String
  description : String := ""
  startDate : Option String := none
  dueDate : Option String := none
  priority : Option String := none
  status : Option String := none
  assigneeUsernames : List String := []
  labelNames : List String := []

structure WorkItemChildDraft extends WorkItemLeafDraft where
  children : List WorkItemLeafDraft := []

structure WorkItemDraft extends WorkItemLeafDraft where
  children : List WorkItemChildDraft := []

structure WorkItemUpdateDraft where
  itemId : String
  title : Option String := none
  description : Option String := none
  priority : Option String := none
  status : Option String := none
  dueDate : Option String := none
  assigneeUsernames : List String := []
  labelNames : List String := []

structure PlannedAction where
  actionId : String
  planId : String
  actionType : String
  toolName : String
  instruction : String
  input : Fields := []
  workItems : List WorkItemDraft := []
  workItemUpdates : List WorkItemUpdateDraft := []
  targetItemIds : List String := []
  dependsOn : List String := []
  requiresApproval : Bool := false
  status : ActionStatus := .pending
  idempotencyKey : String
  expectedEntityVersions : Dict String EntityVersion := []

namespace PlannedAction

def isUnblocked (action : PlannedAction) (completedActionIds : Finset String) : Bool :=
  action.dependsOn.all fun id => id ∈ completedActionIds

def withStatus (action : PlannedAction) (status : ActionStatus) : PlannedAction :=
  { action with status := status }

section WithStatus

variable (action : PlannedAction) (status : ActionStatus)

@[simp] theorem withStatus_status : (action.withStatus status).status = status := rfl

@[simp] theorem withStatus_actionId :
    (action.withStatus status).actionId = action.actionId := rfl

@[simp] theorem withStatus_planId : (action.withStatus status).planId = action.planId := rfl

@[simp] theorem withStatus_toolName :
    (action.withStatus status).toolName = action.toolName := rfl

@[simp] theorem withStatus_dependsOn :
    (action.withStatus status).dependsOn = action.dependsOn := rfl

@[simp] theorem withStatus_requiresApproval :
    (action.withStatus status).requiresApproval = action.requiresApproval := rfl

@[simp] theorem withStatus_idempotencyKey :
    (action.withStatus status).idempotencyKey = action.idempotencyKey := rfl

@[simp] theorem withStatus_withStatus (status' : ActionStatus) :
    (action.withStatus status).withStatus status' = action.withStatus status' := rfl

@[simp] theorem withStatus_self : action.withStatus action.status = action := rfl

end WithStatus

@[simp] theorem isUnblocked_iff (action : PlannedAction) (completed : Finset String) :
    action.isUnblocked completed = true ↔ ∀ d ∈ action.dependsOn, d ∈ completed := by
  simp [isUnblocked]

end PlannedAction

inductive PlanStatus
  | planned
  | running
  | completed
  | failed
  | cancelled
  | waitingForApproval
  | replanRequired
  deriving DecidableEq, Repr

/-- The statuses in which a plan has no next action to run. -/
def PlanStatus.stopped : PlanStatus → Bool
  | .completed | .failed | .cancelled | .waitingForApproval | .replanRequired => true
  | .planned | .running => false

structure AgentPlan where
  planId : String
  parentRunId : Option String := none
  nodeId : Option String := none
  sourceEventId : String
  workspaceId : String
  projectId : Option String
  goal : String
  promptId : String
  promptVersion : String
  skillIds : List String := []
  toolNames : List String := []
  actions : List PlannedAction := []
  status : PlanStatus := .planned
  contextSnapshotRef : String

namespace AgentPlan

def isSubplan (plan : AgentPlan) : Bool := plan.parentRunId.isSome

def getAction (plan : AgentPlan) (actionId : String) : Option PlannedAction :=
  plan.actions.find? fun action => action.actionId = actionId

def completedActionIds (plan : AgentPlan) : Finset String :=
  ((plan.actions.filter fun action => action.status = .completed).map
    (·.actionId)).toFinset

def nextPendingAction (plan : AgentPlan) : Option PlannedAction :=
  if plan.status.stopped then none
  else plan.actions.find? fun action =>
    action.status = .pending && action.isUnblocked plan.completedActionIds

/-- The plan status that the action statuses determine. -/
def statusOf (actions : List PlannedAction) : PlanStatus :=
  if actions.all fun a => a.status = .completed ∨ a.status = .skipped then .completed
  else if actions.any fun a => a.status = .failed then .failed
  else if actions.any fun a => a.status = .requiresApproval then .waitingForApproval
  else if actions.any fun a => a.status = .stale then .replanRequired
  else .running

/-- Replace every action with the id of `updated` and recompute the status. -/
def replaceAction (plan : AgentPlan) (updated : PlannedAction) : AgentPlan :=
  let actions := plan.actions.map fun action =>
    if action.actionId = updated.actionId then updated else action
  { plan with actions := actions, status := statusOf actions }

section ReplaceAction

variable (plan : AgentPlan) (updated : PlannedAction)

@[simp] theorem replaceAction_planId : (plan.replaceAction updated).planId = plan.planId := rfl

@[simp] theorem replaceAction_workspaceId :
    (plan.replaceAction updated).workspaceId = plan.workspaceId := rfl

@[simp] theorem replaceAction_projectId :
    (plan.replaceAction updated).projectId = plan.projectId := rfl

@[simp] theorem replaceAction_parentRunId :
    (plan.replaceAction updated).parentRunId = plan.parentRunId := rfl

@[simp] theorem replaceAction_nodeId : (plan.replaceAction updated).nodeId = plan.nodeId := rfl

@[simp] theorem replaceAction_isSubplan :
    (plan.replaceAction updated).isSubplan = plan.isSubplan := rfl

@[simp] theorem replaceAction_contextSnapshotRef :
    (plan.replaceAction updated).contextSnapshotRef = plan.contextSnapshotRef := rfl

@[simp] theorem replaceAction_skillIds :
    (plan.replaceAction updated).skillIds = plan.skillIds := rfl

@[simp] theorem replaceAction_status :
    (plan.replaceAction updated).status = statusOf (plan.replaceAction updated).actions := rfl

theorem replaceAction_actions :
    (plan.replaceAction updated).actions = plan.actions.map fun action =>
      if action.actionId = updated.actionId then updated else action := rfl

/-- Replacing the same action twice keeps the last replacement. -/
theorem replaceAction_replaceAction (updated' : PlannedAction)
    (h : updated'.actionId = updated.actionId) :
    (plan.replaceAction updated).replaceAction updated' = plan.replaceAction updated' := by
  have hactions : (plan.actions.map fun action =>
      if action.actionId = updated.actionId then updated else action).map (fun action =>
        if action.actionId = updated'.actionId then updated' else action) =
      plan.actions.map fun action =>
        if action.actionId = updated'.actionId then updated' else action := by
    rw [List.map_map]
    refine List.map_congr_left fun action _ => ?_
    by_cases ha : action.actionId = updated.actionId <;> simp [h, ha]
  unfold replaceAction
  simp only [hactions]

end ReplaceAction

/-- An action of the new plan is the new one, or was there under another id. -/
theorem mem_replaceAction {plan : AgentPlan} {updated action : PlannedAction}
    (h : action ∈ (plan.replaceAction updated).actions) :
    action = updated ∨ (action ∈ plan.actions ∧ action.actionId ≠ updated.actionId) := by
  rw [replaceAction_actions] at h
  obtain ⟨action', haction', rfl⟩ := List.mem_map.1 h
  by_cases hid : action'.actionId = updated.actionId
  · rw [if_pos hid]
    exact .inl rfl
  · rw [if_neg hid]
    exact .inr ⟨haction', hid⟩

theorem getAction_actionId {plan : AgentPlan} {actionId : String} {action : PlannedAction}
    (h : plan.getAction actionId = some action) : action.actionId = actionId := by
  simpa using List.find?_some h

theorem mem_of_getAction {plan : AgentPlan} {actionId : String} {action : PlannedAction}
    (h : plan.getAction actionId = some action) : action ∈ plan.actions :=
  List.mem_of_find?_eq_some h

/-- The replaced action is the one found under its id. -/
theorem getAction_replaceAction_self {plan : AgentPlan} {action updated : PlannedAction}
    {actionId : String} (h : plan.getAction actionId = some action)
    (hid : updated.actionId = actionId) :
    (plan.replaceAction updated).getAction actionId = some updated := by
  obtain ⟨-, as, bs, hsplit, hbefore⟩ := List.find?_eq_some_iff_append.1 h
  have haction := getAction_actionId h
  have hfront : (as.map fun a => if a.actionId = updated.actionId then updated else a).find?
      (fun a => a.actionId = actionId) = none := by
    rw [List.find?_eq_none]
    rintro _ hmem
    obtain ⟨a, ha, rfl⟩ := List.mem_map.1 hmem
    have hne : a.actionId ≠ actionId := by simpa using hbefore a ha
    simp [hid, hne]
  unfold getAction
  rw [replaceAction_actions, hsplit, List.map_append, List.find?_append, hfront]
  simp [hid, haction]

theorem getAction_replaceAction_of_ne {plan : AgentPlan} {updated : PlannedAction}
    {actionId : String} (hid : updated.actionId ≠ actionId) :
    (plan.replaceAction updated).getAction actionId = plan.getAction actionId := by
  unfold getAction
  rw [replaceAction_actions]
  induction plan.actions with
  | nil => rfl
  | cons a as ih =>
      rw [List.map_cons, List.find?_cons, List.find?_cons, ih]
      by_cases ha : a.actionId = updated.actionId
      · have hne : a.actionId ≠ actionId := ha ▸ hid
        simp [ha, hid]
      · simp [ha]

/-- With distinct ids, only the one action is replaced. -/
theorem replaceAction_actions_of_nodup {plan : AgentPlan} {pre post : List PlannedAction}
    {action updated : PlannedAction} (hnodup : (plan.actions.map (·.actionId)).Nodup)
    (hsplit : plan.actions = pre ++ action :: post) (hid : updated.actionId = action.actionId) :
    (plan.replaceAction updated).actions = pre ++ updated :: post := by
  rw [hsplit, List.map_append, List.map_cons, List.nodup_append] at hnodup
  obtain ⟨-, hrest, hdisjoint⟩ := hnodup
  have hkeep : ∀ as : List PlannedAction, (∀ a ∈ as, a.actionId ≠ action.actionId) →
      as.map (fun a => if a.actionId = updated.actionId then updated else a) = as := by
    intro as has
    rw [hid]
    calc as.map _ = as.map id := List.map_congr_left fun a ha => if_neg (has a ha)
      _ = as := List.map_id as
  rw [replaceAction_actions, hsplit, List.map_append, List.map_cons, hkeep pre, hkeep post,
    if_pos hid.symm]
  · intro a ha hid
    exact (List.nodup_cons.1 hrest).1 (List.mem_map.2 ⟨a, ha, hid⟩)
  · intro a ha
    exact hdisjoint _ (List.mem_map_of_mem ha) _ List.mem_cons_self

/-- Replacing actions keeps the ids. -/
theorem actionIds_replaceAction (plan : AgentPlan) (updated : PlannedAction) :
    (plan.replaceAction updated).actions.map (·.actionId) = plan.actions.map (·.actionId) := by
  rw [replaceAction_actions, List.map_map]
  apply List.map_congr_left
  intro action _
  by_cases h : action.actionId = updated.actionId
  · simp [h]
  · simp [h]

/-- With distinct ids, a fold that leaves the plan or replaces the action at hand maps
the actions. -/
theorem foldl_actions_of_nodup {step : AgentPlan → PlannedAction → AgentPlan}
    {f : PlannedAction → PlannedAction} {done todo : List PlannedAction} {plan : AgentPlan}
    (hnodup : (plan.actions.map (·.actionId)).Nodup) (hsplit : plan.actions = done ++ todo)
    (hstep : ∀ q action, (step q action = q ∧ f action = action) ∨
      (step q action = q.replaceAction (f action) ∧ (f action).actionId = action.actionId)) :
    (todo.foldl step plan).actions = done ++ todo.map f := by
  induction todo generalizing done plan with
  | nil => simpa using hsplit
  | cons action todo ih =>
      rw [List.foldl_cons, List.map_cons]
      rcases hstep plan action with ⟨hsame, hf⟩ | ⟨hreplace, hid⟩
      · have hnext : plan.actions = (done ++ [action]) ++ todo := by simpa using hsplit
        rw [hsame, ih hnodup hnext, hf]
        simp
      · have hactions : (step plan action).actions = done ++ f action :: todo := by
          rw [hreplace]
          exact replaceAction_actions_of_nodup hnodup hsplit hid
        have hids : ((step plan action).actions.map (·.actionId)).Nodup := by
          rw [hreplace, actionIds_replaceAction]
          exact hnodup
        have hnext : (step plan action).actions = (done ++ [f action]) ++ todo := by
          simpa using hactions
        rw [ih hids hnext]
        simp

theorem nextPendingAction_eq_some {plan : AgentPlan} {action : PlannedAction}
    (h : plan.nextPendingAction = some action) :
    plan.status.stopped = false ∧ action ∈ plan.actions ∧ action.status = .pending ∧
      ∀ d ∈ action.dependsOn, d ∈ plan.completedActionIds := by
  unfold nextPendingAction at h
  split at h
  · cases h
  · next hstopped =>
      have hfound := List.find?_some h
      simp only [Bool.and_eq_true, decide_eq_true_eq, PlannedAction.isUnblocked_iff] at hfound
      exact ⟨by simpa using hstopped, List.mem_of_find?_eq_some h, hfound⟩

theorem mem_completedActionIds {plan : AgentPlan} {id : String} :
    id ∈ plan.completedActionIds ↔
      ∃ a ∈ plan.actions, a.status = .completed ∧ a.actionId = id := by
  simp [completedActionIds, and_assoc]

end AgentPlan

end PrismAgent
