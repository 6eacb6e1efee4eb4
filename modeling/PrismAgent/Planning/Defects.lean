import PrismAgent.Capabilities.BulkUpdateTool
import PrismAgent.Capabilities.CreateTreeTool
import PrismAgent.Effect.Calls

/-!
# Plans without defects

`_plan_defect` rejects a plan that would fail at execution. For the trees and the bulk updates
it makes the check that the tool makes, so their actions do not fail. The items of a sprint it
only requires to be there, while the tool takes the UUIDs of a list.
-/

namespace PrismAgent

open Effect
open CreateWorkItemTreeTool (validateWorkItemTree)
open UpdateWorkItemsBulkTool (validateWorkItemUpdates)

namespace RuntimePlanningAgent

def EMPTY_PLAN_FEEDBACK : String :=
  "The previous planning attempt produced zero executable actions. " ++
    "Return an AgentPlan with at least one action using an allowed tool " ++
    "when the workflow goal requires work. Do not leave actions empty " ++
    "for feature provisioning, task decomposition, or other actionable " ++
    "workflows unless the hydrated context proves there is no safe action."

variable (loads : String → Option Json)

/-- What `_plan_defect` finds in one action. -/
def actionDefect (action : PlannedAction) : Option String :=
  if action.toolName = "create_workitem_tree" then
    (validateWorkItemTree (coerceWorkItemTreeItems loads action.input)).map fun error =>
      "The previous create_workitem_tree action was invalid: " ++ error ++
        " Put the complete work item breakdown into the action's work_items " ++
        "field: a non-empty array of objects, each with a title, a " ++
        "description, and an optional children array of nested work items."
  else if action.toolName = "update_workitems_bulk" then
    (validateWorkItemUpdates (coerceWorkItemUpdates loads action.input)).map fun error =>
      "The previous update_workitems_bulk action was invalid: " ++ error ++
        " Put every change into the action's work_item_updates field: a " ++
        "non-empty array of objects, each with the item_id of an existing " ++
        "work item and only the fields that should change."
  else if action.toolName = "add_sprint_work_items" ∧
      (truthyField action.input "itemIds").isNone then
    some ("The previous add_sprint_work_items action listed no work items. " ++
      "Put the chosen existing work item ids into the action's " ++ "target_item_ids field.")
  else none

/-- `_plan_defect`: a retryable planning mistake, if there is one. -/
def planDefect (plan : AgentPlan) : Option String :=
  if plan.actions.isEmpty then some EMPTY_PLAN_FEEDBACK
  else plan.actions.findSome? (actionDefect loads)

variable {loads} {plan : AgentPlan} {action : PlannedAction}

theorem actionDefect_of_planDefect (h : planDefect loads plan = none)
    (haction : action ∈ plan.actions) : actionDefect loads action = none := by
  unfold planDefect at h
  split at h
  · cases h
  · exact List.findSome?_eq_none_iff.1 h action haction

/-- The tool's own check accepts the items. -/
theorem validateWorkItemTree_of_actionDefect (h : actionDefect loads action = none)
    (htool : action.toolName = "create_workitem_tree") :
    validateWorkItemTree (coerceWorkItemTreeItems loads action.input) = none := by
  unfold actionDefect at h
  rw [if_pos htool] at h
  exact Option.map_eq_none_iff.1 h

theorem validateWorkItemUpdates_of_actionDefect (h : actionDefect loads action = none)
    (htool : action.toolName = "update_workitems_bulk") :
    validateWorkItemUpdates (coerceWorkItemUpdates loads action.input) = none := by
  have hne : ¬action.toolName = "create_workitem_tree" := by
    rw [htool]
    decide
  unfold actionDefect at h
  rw [if_neg hne, if_pos htool] at h
  exact Option.map_eq_none_iff.1 h

end RuntimePlanningAgent

section Succeeds

/-- Whatever the answers of the contract, the result is no failure. -/
def NeverFails {E : Type} {R : E → Type} (C : Contract E R Exc) (p : Program E R Exc ToolResult) :
    Prop :=
  p.Respects C fun result => result.success = true

variable {E : Type} {R : E → Type} {C : Contract E R Exc}

/-- No call of the client fails. -/
def answered {E : Type} {R : E → Type} : Contract E R Exc where
  calls _ := True
  answers _ r := ∃ a, r = .ok a

/-- No call of the client fails, and of the workspace's sprints, each with an id, at least one
is planned. -/
def sprintsPlanned : Contract SprintCall SprintCall.Answer Exc where
  calls _ := True
  answers
    | .getWorkspaceSprints _, r => ∃ sprints : List Json, r = .ok sprints ∧
        (∃ sprint ∈ sprints, isPlannedSprint sprint = true) ∧
        ∀ sprint ∈ sprints, isPlannedSprint sprint = true →
          ∃ sprintId, sprintIdOf sprint = some sprintId ∧ sprintId ≠ ""
    | _, r => ∃ a, r = .ok a

theorem respects_anything (hcalls : ∀ e, C.calls e) {α : Type} (p : Program E R Exc α) :
    p.Respects C fun _ => True :=
  (Program.onlyCalls_true p).respects fun e _ => hcalls e

/-- A validated tree does not fail. -/
theorem tree_neverFails {rules : TextRules} {loads : String → Option Json} {resultId : String}
    {action : PlannedAction} {context : AgentContext}
    (h : validateWorkItemTree (coerceWorkItemTreeItems loads action.input) = none) :
    NeverFails answered
      (CreateWorkItemTreeTool.execute rules loads true resultId action context) := by
  unfold CreateWorkItemTreeTool.execute
  dsimp only
  rw [h]
  refine Program.Respects.bind (respects_anything (fun _ => trivial) _) fun rolled _ => ?_
  exact Program.Respects.bind (respects_anything (fun _ => trivial) _) fun created _ => rfl

/-- Validated updates do not fail. -/
theorem updates_neverFail {rules : TextRules} {loads : String → Option Json} {resultId : String}
    {action : PlannedAction} {context : AgentContext}
    (h : validateWorkItemUpdates (coerceWorkItemUpdates loads action.input) = none) :
    NeverFails answered
      (UpdateWorkItemsBulkTool.execute rules loads true resultId action context) := by
  unfold UpdateWorkItemsBulkTool.execute UpdateWorkItemsBulkTool.acceptedUpdates
  dsimp only
  rw [h]
  exact Program.Respects.bind (respects_anything (fun _ => trivial) _) fun lists _ => rfl

/-- Where a sprint is planned, the one created last has an id. -/
theorem latestPlanned_of_planned {sprints : List Json}
    (hplanned : ∃ sprint ∈ sprints, isPlannedSprint sprint = true)
    (hids : ∀ sprint ∈ sprints, isPlannedSprint sprint = true →
      ∃ sprintId, sprintIdOf sprint = some sprintId ∧ sprintId ≠ "") :
    ∃ sprintId, latestPlanned sprints = some sprintId ∧ sprintId ≠ "" := by
  obtain ⟨sprint, hsprint, hstatus⟩ := hplanned
  have hperm := List.mergeSort_perm (sprints.filter isPlannedSprint) fun sprint other =>
    decide (sprintText other "createdAt" ≤ sprintText sprint "createdAt")
  unfold latestPlanned
  dsimp only
  cases hsorted : (sprints.filter isPlannedSprint).mergeSort fun sprint other =>
      decide (sprintText other "createdAt" ≤ sprintText sprint "createdAt") with
  | nil =>
      have hmem := hperm.mem_iff.2 (List.mem_filter.2 ⟨hsprint, hstatus⟩)
      rw [hsorted] at hmem
      cases hmem
  | cons latest rest =>
      have hmem : latest ∈ sprints.filter isPlannedSprint := by
        rw [← hperm.mem_iff, hsorted]
        exact List.mem_cons_self
      obtain ⟨hlatest, hplanned⟩ := List.mem_filter.1 hmem
      exact hids latest hlatest hplanned

/-- The sprint is found. -/
theorem respects_latestPlannedSprintId (workspaceId : String) :
    (latestPlannedSprintId workspaceId).Respects sprintsPlanned
      fun sprintId => ∃ id, sprintId = some id ∧ id ≠ "" := by
  refine ⟨trivial, fun r hr => ?_⟩
  obtain ⟨sprints, rfl, hplanned, hids⟩ := hr
  exact latestPlanned_of_planned hplanned hids

/-- Items are added to a sprint exactly if one of them is a UUID. -/
theorem sprint_neverFails_iff {resultId : String} {action : PlannedAction}
    {context : AgentContext} :
    NeverFails sprintsPlanned (AddSprintWorkItemsTool.execute true resultId action context) ↔
      validItemIds (action.input.lookup "itemIds") ≠ [] := by
  unfold AddSprintWorkItemsTool.execute
  dsimp only
  by_cases hids : validItemIds (action.input.lookup "itemIds") = []
  · rw [if_pos hids]
    exact iff_of_false (fun h => by cases h) (not_not_intro hids)
  · rw [if_neg hids, if_pos rfl]
    refine iff_of_true ?_ hids
    have hadd : ∀ sprintId : String, sprintId ≠ "" →
        NeverFails sprintsPlanned (do
          if sprintId = "" then
            return AddSprintWorkItemsTool.failed resultId action
              "No sprintId given and no planned sprint exists to map items into."
          else
            let _ ← Program.perform (SprintCall.addSprintWorkItems
              (textField action.input "workspaceId" context.workspaceId) sprintId
              (AddSprintWorkItemsTool.addPayload (validItemIds (action.input.lookup "itemIds"))
                (requestedByUserId action.input context)))
            return AddSprintWorkItemsTool.added resultId action sprintId
              (validItemIds (action.input.lookup "itemIds"))) := by
      intro sprintId hsprint
      rw [if_neg hsprint]
      refine Program.Respects.bind (respects_anything (fun _ => trivial) _) fun _ _ => rfl
    split
    next =>
      refine Program.Respects.bind (Program.Respects.bind (respects_latestPlannedSprintId _)
        fun sprintId hsprint => ?_) hadd
      obtain ⟨id, rfl, hid⟩ := hsprint
      exact hid
    next hgiven => exact hadd _ hgiven

/-- Some value of a list is a UUID. -/
def ListsUuid (raw : Option Json) : Prop :=
  ∃ values, raw = some (.arr values) ∧ ∃ value ∈ values, (parseUuid value.toStr).isSome = true

/-- A list that grows at the elements with a property ends up nonempty when it starts so or one
element has it. -/
theorem foldl_ne_nil_iff {α β : Type} {step : List β → α → List β} {P : α → Prop}
    (hstep : ∀ found a, step found a ≠ [] ↔ found ≠ [] ∨ P a) (xs : List α) (found : List β) :
    xs.foldl step found ≠ [] ↔ found ≠ [] ∨ ∃ a ∈ xs, P a := by
  induction xs generalizing found with
  | nil => simp
  | cons x xs ih =>
      rw [List.foldl_cons, ih, hstep, List.exists_mem_cons_iff, or_assoc]

theorem validItemIds_ne_nil_iff (raw : Option Json) : validItemIds raw ≠ [] ↔ ListsUuid raw := by
  unfold validItemIds ListsUuid
  split
  next values =>
    refine (foldl_ne_nil_iff (P := fun value : Json => (parseUuid value.toStr).isSome = true)
      (fun valid value => ?_) values []).trans (by simp)
    cases hparse : parseUuid value.toStr with
    | none => simp
    | some itemId =>
        by_cases hmem : itemId ∈ valid
        · simp [hmem, List.ne_nil_of_mem hmem]
        · simp [hmem]
  next hno =>
    simp only [ne_eq, not_true_eq_false, false_iff]
    rintro ⟨values, rfl, -⟩
    exact hno values rfl

end Succeeds

namespace RuntimePlanningAgent

/-- In no context does the tool of the action return a failure. -/
structure Executable (rules : TextRules) (loads : String → Option Json) (action : PlannedAction) :
    Prop where
  tree : action.toolName = "create_workitem_tree" → ∀ resultId context, NeverFails answered
    (CreateWorkItemTreeTool.execute rules loads true resultId action context)
  updates : action.toolName = "update_workitems_bulk" → ∀ resultId context, NeverFails answered
    (UpdateWorkItemsBulkTool.execute rules loads true resultId action context)
  sprint : action.toolName = "add_sprint_work_items" → ∀ resultId context,
    NeverFails sprintsPlanned (AddSprintWorkItemsTool.execute true resultId action context)

/-- The actions of a plan without defects are executable if and only if each of its sprint
mappings lists a UUID. -/
theorem defect_free_plan_executable_iff (rules : TextRules) (loads : String → Option Json)
    (plan : AgentPlan) (h : planDefect loads plan = none) :
    (∀ action ∈ plan.actions, Executable rules loads action) ↔
      ∀ action ∈ plan.actions, action.toolName = "add_sprint_work_items" →
        ListsUuid (action.input.lookup "itemIds") := by
  constructor
  · intro hexecutable action haction htool
    have hevent : RuntimeEvent :=
      { kind := .domain, eventId := "", eventType := "", workspaceId := "" }
    rw [← validItemIds_ne_nil_iff]
    exact sprint_neverFails_iff.1 ((hexecutable action haction).sprint htool ""
      { workspaceId := "", projectId := none, sourceEvent := .wrap hevent, workflowId := "" })
  · intro hlists action haction
    have hdefect := actionDefect_of_planDefect h haction
    constructor
    · intro htool resultId context
      exact tree_neverFails (validateWorkItemTree_of_actionDefect hdefect htool)
    · intro htool resultId context
      exact updates_neverFail (validateWorkItemUpdates_of_actionDefect hdefect htool)
    · intro htool resultId context
      exact sprint_neverFails_iff.2
        ((validItemIds_ne_nil_iff _).2 (hlists action haction htool))

section Sample

/-- An action that maps one item into a sprint. -/
def mapAction (itemId : String) : PlannedAction :=
  { actionId := "1", planId := "plan", actionType := "mutation",
    toolName := "add_sprint_work_items", instruction := "", idempotencyKey := "key",
    input := [("itemIds", .arr [.str itemId])] }

def mapPlan (itemId : String) : AgentPlan :=
  { planId := "plan", sourceEventId := "event", workspaceId := "w", projectId := none, goal := "",
    promptId := "prompt", promptVersion := "v1", actions := [mapAction itemId],
    contextSnapshotRef := "snapshot" }

/-- An action that maps an item by its UUID is executable. -/
theorem mapAction_executable :
    Executable ⟨id, Char.isDigit⟩ (fun _ => none)
      (mapAction "00000000-0000-0000-0000-000000000001") := by
  refine (defect_free_plan_executable_iff ⟨id, Char.isDigit⟩ (fun _ => none)
    (mapPlan "00000000-0000-0000-0000-000000000001") (by decide)).2 (fun action haction _ => ?_) _
    (List.mem_singleton_self _)
  cases List.mem_singleton.1 haction
  exact ⟨_, rfl, _, List.mem_singleton_self _, by decide⟩

/-- An id that is no UUID passes the planner's check and fails in the tool. -/
theorem invented_item_id_fails :
    ¬∀ (rules : TextRules) (loads : String → Option Json) (plan : AgentPlan),
      planDefect loads plan = none → ∀ action ∈ plan.actions, Executable rules loads action := by
  intro hexecutable
  have hmap := hexecutable ⟨id, Char.isDigit⟩ (fun _ => none) (mapPlan "login-task") (by decide)
    (mapAction "login-task") (List.mem_singleton_self _)
  have hevent : RuntimeEvent :=
    { kind := .domain, eventId := "", eventType := "", workspaceId := "" }
  exact sprint_neverFails_iff.1 (hmap.sprint rfl ""
    { workspaceId := "", projectId := none, sourceEvent := .wrap hevent, workflowId := "" })
      (by decide)

end Sample

end RuntimePlanningAgent

end PrismAgent
