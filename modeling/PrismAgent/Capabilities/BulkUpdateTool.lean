import PrismAgent.Capabilities.WorkitemPayloads
import PrismAgent.Capabilities.WorkitemTools

/-!
# The bulk update tool

`UpdateWorkItemsBulkTool`: updates of work items that the hydrated context knows, one PATCH
each, without the fields that would clobber human work as far as the context shows it. The
set of protected fields, `title` and `status`, is gone through in this order.
-/

namespace PrismAgent

open Effect
open Effect.Program (perform)

/-- The call that the tool makes of the client. -/
inductive UpdateCall
  | updateWorkItem (projectId itemId : String) (payload : Fields)

abbrev UpdateCall.Answer : UpdateCall → Type
  | updateWorkItem _ _ _ => Fields

abbrev UpdateProgram (α : Type) : Type := Program UpdateCall UpdateCall.Answer Exc α

namespace UpdateWorkItemsBulkTool

def MAX_BULK_UPDATES : ℕ := 50

def BULK_UPDATE_FIELDS : List String :=
  ["title", "description", "priority", "status", "dueDate", "assigneeUsernames", "labelNames"]

def MUTABLE_UPDATE_STATUSES : List String := ["todo"]

def CONTEXT_ITEM_KEYS : List String :=
  ["backlog_work_items", "project_work_items", "sibling_work_items", "child_work_items"]

def validateUpdate (update : Json) : Option String :=
  match update with
  | .obj fields =>
      if !hasText fields "itemId" then some "Every update entry requires an itemId."
      else if !BULK_UPDATE_FIELDS.any fun field => (fields.lookup field).isSome then
        some ("Every update entry needs at least one field to change " ++
          "(title, description, priority, status, dueDate, " ++
          "assigneeUsernames, labelNames).")
      else none
  | _ => some "Every update entry must be an object."

/-- `validate_work_item_updates`: the error, if there is one. -/
def validateWorkItemUpdates (updates : Option (List Json)) : Option String :=
  match updates.getD [] with
  | [] => some "update_workitems_bulk requires a non-empty 'updates' list."
  | updates =>
      if MAX_BULK_UPDATES < updates.length then
        some ("Bulk update exceeds max size of " ++ toString MAX_BULK_UPDATES ++ " items.")
      else updates.findSome? validateUpdate

/-- File an item under its id, unless there is one already. -/
def indexItem (index : Dict String Fields) (item : Json) : Dict String Fields :=
  match item with
  | .obj fields =>
      match truthyField fields "itemId" with
      | some itemId => Dict.setDefault index itemId.toStr fields
      | none => index
  | _ => index

/-- The items that an entity of the context lists. -/
def contextItems (entities : Fields) (key : String) : List Json :=
  match entities.lookup key with
  | some (.arr items) => items
  | _ => []

/-- `_context_item_index`: the first entity that has an item counts. -/
def contextItemIndex (entities : Fields) : Dict String Fields :=
  (CONTEXT_ITEM_KEYS.flatMap (contextItems entities)).foldl indexItem []

/-- A description that is somebody's work, not effectively empty. -/
def isReal (description : String) : Bool := 30 ≤ (strip description).length

/-- Take a field out of the payload, and report it if it had a value. -/
def popField (payload : Fields) (field : String) : Fields × List String :=
  (Dict.erase payload field,
    if ((payload.lookup field).getD .null).isNull then [] else [field])

/-- Drop a field that is present and blocked. -/
def dropField (payload : Fields) (field : String) (blocked : Bool) : Fields × List String :=
  if (payload.lookup field).isSome && blocked then (Dict.erase payload field, [field])
  else (payload, [])

/-- `_drop_protected_fields`: the payload that is left, and what was dropped. -/
def dropProtectedFields (payload current : Fields) : Fields × List String :=
  let title := popField payload "title"
  let status := popField title.1 "status"
  let description := dropField status.1 "description" (isReal (textField current "description" ""))
  let assignees := dropField description.1 "assigneeUsernames"
    (truthyField current "assigneeUsernames").isSome
  (assignees.1, title.2 ++ status.2 ++ description.2 ++ assignees.2)

/-- What becomes of one update. -/
inductive Decision
  | skip (entry : Fields)
  | patch (itemId : String) (payload : Fields) (dropped : List String)

section Execute

variable (rules : TextRules) (known : Dict String String) (index : Dict String Fields)

/-- The item of an update and the context's view of it, when it may be changed. -/
def target (update : Fields) : Except Fields (String × Fields) :=
  let given := (update.lookup "itemId").getD .null
  match validUuidOrNone given with
  | none => .error [("itemId", given), ("reason", .str "invalid_item_id")]
  | some itemId =>
      match index.lookup itemId with
      | none => .error [("itemId", .str itemId), ("reason", .str "not_in_hydrated_context")]
      | some current =>
          if textField current "status" "" ∈ MUTABLE_UPDATE_STATUSES then .ok (itemId, current)
          else .error [("itemId", .str itemId), ("reason", .str "item_started_or_closed")]

/-- The payload for an item of which the context shows `current`. -/
def payloadFor (update current : Fields) : Fields :=
  normalizeNodePayload rules known
    (dropProtectedFields (filterPayload update BULK_UPDATE_FIELDS) current).1

def decideUpdate (update : Fields) : Decision :=
  match target index update with
  | .error entry => .skip entry
  | .ok (itemId, current) =>
      let payload := payloadFor rules known update current
      let dropped := (dropProtectedFields (filterPayload update BULK_UPDATE_FIELDS) current).2
      if payload.isEmpty then
        .skip [("itemId", .str itemId), ("reason", .str "no_safe_fields"),
          ("droppedFields", .arr (dropped.map .str))]
      else .patch itemId payload dropped

/-- The entry of an applied update. -/
def appliedEntry (itemId : String) (payload : Fields) (dropped : List String) : Fields :=
  Dict.merge [("itemId", .str itemId)] payload ++
    (if dropped.isEmpty then [] else [("droppedFields", .arr (dropped.map .str))])

/-- The loop over the updates: what was applied and what was skipped. -/
def applyUpdates (configured : Bool) (projectId : String) (requester : Option String) :
    List Fields → UpdateProgram (List Json × List Json)
  | [] => pure ([], [])
  | update :: updates =>
      match decideUpdate rules known index update with
      | .skip entry => do
          let (applied, skipped) ← applyUpdates configured projectId requester updates
          return (applied, .obj entry :: skipped)
      | .patch itemId payload dropped =>
          if configured then do
            let sent := withRequester payload requester
            let _ ← perform (UpdateCall.updateWorkItem projectId itemId sent)
            let (applied, skipped) ← applyUpdates configured projectId requester updates
            return (.obj (appliedEntry itemId sent dropped) :: applied, skipped)
          else do
            let (applied, skipped) ← applyUpdates configured projectId requester updates
            return (.obj (appliedEntry itemId payload dropped) :: applied, skipped)

end Execute

/-- The updates that pass the validation. -/
def acceptedUpdates (loads : String → Option Json) (input : Fields) : Except String (List Fields) :=
  let updates := coerceWorkItemUpdates loads input
  match validateWorkItemUpdates updates with
  | some error => .error error
  | none => .ok ((updates.getD []).filterMap Json.asObj?)

def execute (rules : TextRules) (loads : String → Option Json) (configured : Bool)
    (resultId : String) (action : PlannedAction) (context : AgentContext) :
    UpdateProgram ToolResult := do
  let projectId := textField action.input "projectId" (context.projectId.getD "")
  match acceptedUpdates loads action.input with
  | .error error =>
      return {
        resultId := resultId
        planId := action.planId
        actionId := action.actionId
        toolName := "update_workitems_bulk"
        success := false
        error := some error }
  | .ok updates =>
      let (applied, skipped) ← applyUpdates rules (knownMemberUsernames rules context)
        (contextItemIndex context.entities) configured projectId
        (requestedByUserId action.input context) updates
      return {
        resultId := resultId
        planId := action.planId
        actionId := action.actionId
        toolName := "update_workitems_bulk"
        success := true
        output :=
          [("projectId", .str projectId), ("updatedCount", .int applied.length),
            ("updates", .arr applied), ("skipped", .arr skipped)] }

end UpdateWorkItemsBulkTool

end PrismAgent
