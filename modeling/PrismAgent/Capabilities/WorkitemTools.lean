import PrismAgent.Domain.Plans

/-!
# Typed inputs of the work item tools

The part of `workitem_tools.py` that planning runs: the typed drafts of a proposed
action become the untyped input of its tool, unless the input carries a payload
already. `loads` is `json.loads`, with nothing for a text that is not JSON.
-/

namespace PrismAgent

def TREE_ITEMS_KEYS : List String := ["items", "workItems", "work_items", "tasks", "children"]

def UPDATES_KEYS : List String :=
  ["updates", "workItemUpdates", "work_item_updates", "items", "changes"]

def TREE_ROOT_ONLY_FIELDS : List String := ["projectId", "parentId", "requestedByUserId"]

/-- `str(input.get(key) or "").strip()` is not empty. -/
def hasText (input : Fields) (key : String) : Bool :=
  match input.lookup key with
  | some value => value.truthy && strip value.toStr ≠ ""
  | none => false

section Coercion

variable (loads : String → Option Json)

/-- The non-empty list that a value stands for: itself, its JSON text or the one object. -/
def listOf (value : Json) : Option (List Json) :=
  let read : Option Json :=
    match value with
    | .str text => loads text
    | value => some value
  match read with
  | some (.obj fields) => some [.obj fields]
  | some (.arr items) => if items.isEmpty then none else some items
  | _ => none

/-- The list under the first key that holds one. -/
def firstList (input : Fields) (keys : List String) : Option (List Json) :=
  keys.findSome? fun key => (input.lookup key).bind (listOf loads)

/-- The input as the single node or update that it describes. -/
def withoutRootFields (input : Fields) : Json :=
  .obj (input.filter fun entry => entry.1 ∉ TREE_ROOT_ONLY_FIELDS)

/-- The children of an input that has a title of its own are not the items. -/
def coerceWorkItemTreeItems (input : Fields) : Option (List Json) :=
  let keys := TREE_ITEMS_KEYS.takeWhile fun key => !(key = "children" && hasText input "title")
  match firstList loads input keys with
  | some items => some items
  | none => if hasText input "title" then some [withoutRootFields input] else none

def coerceWorkItemUpdates (input : Fields) : Option (List Json) :=
  match firstList loads input UPDATES_KEYS with
  | some items =>
      let updates := items.filter Json.isObj
      if updates.isEmpty then none else some updates
  | none => if hasText input "itemId" then some [withoutRootFields input] else none

end Coercion

section Drafts

/-- A text that is present and not empty. -/
def nonemptyText (key : String) : Option String → Fields
  | some value => if value = "" then [] else [(key, .str value)]
  | none => []

/-- A text that is present. -/
def presentText (key : String) (value : Option String) : Fields :=
  (value.map fun text => (key, Json.str text)).toList

def nonemptyTexts (key : String) (values : List String) : Fields :=
  if values.isEmpty then [] else [(key, .arr (values.map .str))]

def nonemptyNodes (key : String) (nodes : List Json) : Fields :=
  if nodes.isEmpty then [] else [(key, .arr nodes)]

/-- `_draft_to_node`, without children. -/
def leafDraftToNode (draft : WorkItemLeafDraft) : Fields :=
  [("title", .str draft.title), ("description", .str draft.description)] ++
    nonemptyText "startDate" draft.startDate ++ nonemptyText "dueDate" draft.dueDate ++
    nonemptyText "priority" draft.priority ++ nonemptyText "status" draft.status ++
    nonemptyTexts "assigneeUsernames" draft.assigneeUsernames ++
    nonemptyTexts "labelNames" draft.labelNames

def childDraftToNode (draft : WorkItemChildDraft) : Fields :=
  leafDraftToNode draft.toWorkItemLeafDraft ++
    nonemptyNodes "children" (draft.children.map fun child => .obj (leafDraftToNode child))

def draftToNode (draft : WorkItemDraft) : Fields :=
  leafDraftToNode draft.toWorkItemLeafDraft ++
    nonemptyNodes "children" (draft.children.map fun child => .obj (childDraftToNode child))

def workItemDraftsToItems (drafts : List WorkItemDraft) : Json :=
  .arr (drafts.map fun draft => .obj (draftToNode draft))

def updateDraftToUpdate (draft : WorkItemUpdateDraft) : Fields :=
  [("itemId", .str draft.itemId)] ++ presentText "title" draft.title ++
    presentText "description" draft.description ++ presentText "priority" draft.priority ++
    presentText "status" draft.status ++ presentText "dueDate" draft.dueDate ++
    nonemptyTexts "assigneeUsernames" draft.assigneeUsernames ++
    nonemptyTexts "labelNames" draft.labelNames

def workItemUpdateDraftsToUpdates (drafts : List WorkItemUpdateDraft) : Json :=
  .arr (drafts.map fun draft => .obj (updateDraftToUpdate draft))

end Drafts

section Materialization

variable (loads : String → Option Json)

/-- The input that the typed fields of an action give it, where they give one. -/
def updatedInput (action : PlannedAction) : Option Fields :=
  if action.toolName = "create_workitem_tree" ∧ !action.workItems.isEmpty ∧
      (coerceWorkItemTreeItems loads action.input).isNone then
    some (Dict.insert action.input "items" (workItemDraftsToItems action.workItems))
  else if action.toolName = "update_workitems_bulk" ∧ !action.workItemUpdates.isEmpty ∧
      (coerceWorkItemUpdates loads action.input).isNone then
    some (Dict.insert action.input "updates"
      (workItemUpdateDraftsToUpdates action.workItemUpdates))
  else if action.toolName = "add_sprint_work_items" ∧ !action.targetItemIds.isEmpty ∧
      !((action.input.lookup "itemIds").any Json.truthy) then
    some (Dict.insert action.input "itemIds" (.arr (action.targetItemIds.map .str)))
  else none

/-- An action with the input that its typed fields give it. -/
def materialized (action : PlannedAction) : PlannedAction :=
  match updatedInput loads action with
  | some input => { action with input := input }
  | none => action

/-- One step of `materialize_typed_action_inputs`. -/
def materializeStep (updatedPlan : AgentPlan) (action : PlannedAction) : AgentPlan :=
  match updatedInput loads action with
  | some input => updatedPlan.replaceAction { action with input := input }
  | none => updatedPlan

def materializeTypedActionInputs (plan : AgentPlan) : AgentPlan :=
  plan.actions.foldl (materializeStep loads) plan

@[simp] theorem materialized_toolName (action : PlannedAction) :
    (materialized loads action).toolName = action.toolName := by
  unfold materialized
  split
  · rfl
  · rfl

@[simp] theorem materialized_instruction (action : PlannedAction) :
    (materialized loads action).instruction = action.instruction := by
  unfold materialized
  split
  · rfl
  · rfl

/-- Materialization keeps the ids of the actions, whatever they are. -/
theorem actionIds_materializeTypedActionInputs (plan : AgentPlan) :
    (materializeTypedActionInputs loads plan).actions.map (·.actionId) =
      plan.actions.map (·.actionId) := by
  have hfold : ∀ (actions : List PlannedAction) (updatedPlan : AgentPlan),
      (actions.foldl (materializeStep loads) updatedPlan).actions.map (·.actionId) =
        updatedPlan.actions.map (·.actionId) := by
    intro actions
    induction actions with
    | nil =>
        intro updatedPlan
        rfl
    | cons action actions ih =>
        intro updatedPlan
        rw [List.foldl_cons, ih]
        unfold materializeStep
        split
        · exact AgentPlan.actionIds_replaceAction _ _
        · rfl
  exact hfold plan.actions plan

/-- With distinct ids every action gets its own input. -/
theorem actions_materializeTypedActionInputs {plan : AgentPlan}
    (hnodup : (plan.actions.map (·.actionId)).Nodup) :
    (materializeTypedActionInputs loads plan).actions =
      plan.actions.map (materialized loads) := by
  have hsplit : plan.actions = [] ++ plan.actions := rfl
  refine AgentPlan.foldl_actions_of_nodup hnodup hsplit fun q action => ?_
  unfold materializeStep materialized
  split
  · exact .inr ⟨rfl, rfl⟩
  · exact .inl ⟨rfl, rfl⟩

end Materialization

end PrismAgent
