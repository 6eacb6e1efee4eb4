import PrismAgent.Domain.Errors
import PrismAgent.Domain.Fields
import PrismAgent.Domain.Plans
import PrismAgent.Domain.Results
import PrismAgent.Domain.Uuid
import PrismAgent.Effect.Program

/-!
# Sprint tools

`capabilities/tools/sprint_tools.py`: creating a sprint and mapping work items into one. The
calls of the Prism client are effects; the current time comes in as the two default dates.
-/

namespace PrismAgent

open Effect
open Effect.Program (perform tryCatch)

/-- The calls that the sprint tools make of the client. -/
inductive SprintCall
  | createSprint (workspaceId : String) (payload : Fields)
  | getWorkspaceSprints (workspaceId : String)
  | addSprintWorkItems (workspaceId sprintId : String) (payload : Fields)

/-- What the client answers. -/
abbrev SprintCall.Answer : SprintCall → Type
  | createSprint _ _ => Fields
  | getWorkspaceSprints _ => List Json
  | addSprintWorkItems _ _ _ => Fields

abbrev SprintProgram (α : Type) : Type := Program SprintCall SprintCall.Answer Exc α

/-- The exception is a `RuntimeError`, as all errors of the client are. -/
def Exc.isRuntimeError : Exc → Bool
  | .external typeName _ =>
      typeName ∈ ["RuntimeError", "PrismApiBadRequestError", "PrismApiNotFoundError",
        "PrismApiConflictError", "PrismApiUnprocessableError"]
  | _ => false

/-- The dates that a sprint gets where its input has none. -/
structure DefaultDates where
  start : String
  finish : String

/-- `_create_sprint_payload`. -/
def createSprintPayload (dates : DefaultDates) (input : Fields) : Fields :=
  [("name", .str (String.ofList ((textField input "name" "Feature provisioning").toList.take 50))),
    ("startsAt", (truthyField input "startsAt").getD (.str dates.start)),
    ("endsAt", (truthyField input "endsAt").getD (.str dates.finish))] ++
  match input.lookup "goal" with
  | none => []
  | some .null => []
  | some goal => [("goal", goal)]

/-- `_requested_by_user_id`. -/
def requestedByUserId (input : Fields) (context : AgentContext) : Option String :=
  match truthyField input "requestedByUserId" with
  | some userId => some userId.toStr
  | none =>
      match (context.sourceEvent.event.payload.lookup "queue_pointer").bind Json.asObj? with
      | some pointer => (truthyField pointer "requestedByUserId").map Json.toStr
      | none => none

/-- The payload with the user who asked for it; an empty id is left out. -/
def withRequester (payload : Fields) (requester : Option String) : Fields :=
  match requester with
  | some userId => if userId = "" then payload else payload ++ [("requestedByUserId", .str userId)]
  | none => payload

theorem lookup_withRequester {payload : Fields} {requester : Option String} {key : String}
    (h : key ≠ "requestedByUserId") :
    (withRequester payload requester).lookup key = payload.lookup key := by
  unfold withRequester
  split
  · split
    · rfl
    · rw [List.lookup_append, List.lookup_cons, beq_false_of_ne h]
      exact Option.or_none
  · rfl

namespace CreateSprintTool

def execute (configured : Bool) (dates : DefaultDates) (resultId : String)
    (action : PlannedAction) (context : AgentContext) : SprintProgram ToolResult := do
  let workspaceId := textField action.input "workspaceId" context.workspaceId
  let payload := createSprintPayload dates action.input
  let output ←
    if configured then
      perform (SprintCall.createSprint workspaceId
        (withRequester payload (requestedByUserId action.input context)))
    else
      pure ([("sprintId", .str (textField action.input "sprintId" ("local-" ++ action.actionId))),
        ("workspaceId", .str workspaceId)] ++ payload)
  return {
    resultId := resultId
    planId := action.planId
    actionId := action.actionId
    toolName := "create_sprint"
    success := true
    output := output }

end CreateSprintTool

/-- `_valid_item_ids`: the UUIDs of a list, canonical and each listed once. -/
def validItemIds (raw : Option Json) : List String :=
  match raw with
  | some (.arr values) =>
      values.foldl (fun valid value =>
        match parseUuid value.toStr with
        | some itemId => if itemId ∈ valid then valid else valid ++ [itemId]
        | none => valid) []
  | _ => []

section Latest

/-- `str(sprint.get(key) or "")` of a sprint as the API lists it. -/
def sprintText (sprint : Json) (key : String) : String :=
  match sprint.asObj? with
  | some fields => textField fields key ""
  | none => ""

/-- A record of a sprint that has not started. -/
def isPlannedSprint (sprint : Json) : Bool :=
  sprint.isObj && sprintText sprint "status" = "planned"

/-- The sprint's id, if it has one. -/
def sprintIdOf (sprint : Json) : Option String :=
  (sprint.asObj?.bind fun fields => truthyField fields "sprintId").map Json.toStr

/-- The id of the planned sprint that was created last, of several the one listed first. -/
def latestPlanned (sprints : List Json) : Option String :=
  let planned := sprints.filter isPlannedSprint
  let sorted := planned.mergeSort fun sprint other =>
    decide (sprintText other "createdAt" ≤ sprintText sprint "createdAt")
  sorted.head?.bind sprintIdOf

/-- `_latest_planned_sprint_id`. -/
def latestPlannedSprintId (workspaceId : String) : SprintProgram (Option String) :=
  tryCatch ((perform (SprintCall.getWorkspaceSprints workspaceId)).bind fun sprints =>
      pure (latestPlanned sprints)) fun exc =>
    if exc.isRuntimeError then pure none else .raise exc

end Latest

namespace AddSprintWorkItemsTool

def failed (resultId : String) (action : PlannedAction) (error : String) : ToolResult :=
  { resultId := resultId
    planId := action.planId
    actionId := action.actionId
    toolName := "add_sprint_work_items"
    success := false
    error := some error }

def added (resultId : String) (action : PlannedAction) (sprintId : String)
    (itemIds : List String) : ToolResult :=
  { resultId := resultId
    planId := action.planId
    actionId := action.actionId
    toolName := "add_sprint_work_items"
    success := true
    output :=
      [("sprintId", .str sprintId), ("itemIds", .arr (itemIds.map .str)),
        ("addedCount", .int itemIds.length)] }

def addPayload (itemIds : List String) (requester : Option String) : Fields :=
  withRequester [("itemIds", .arr (itemIds.map .str))] requester

def execute (configured : Bool) (resultId : String) (action : PlannedAction)
    (context : AgentContext) : SprintProgram ToolResult := do
  let workspaceId := textField action.input "workspaceId" context.workspaceId
  let givenId := textField action.input "sprintId" ""
  let itemIds := validItemIds (action.input.lookup "itemIds")
  if itemIds = [] then
    return failed resultId action
      ("add_sprint_work_items requires a non-empty itemIds list of " ++ "existing work item ids.")
  else if configured then
    let sprintId ←
      if givenId = "" then (latestPlannedSprintId workspaceId).bind fun id => pure (id.getD "")
      else pure givenId
    if sprintId = "" then
      return failed resultId action
        "No sprintId given and no planned sprint exists to map items into."
    else
      let _ ← perform (SprintCall.addSprintWorkItems workspaceId sprintId
        (addPayload itemIds (requestedByUserId action.input context)))
      return added resultId action sprintId itemIds
  else
    let sprintId := if givenId = "" then "local-sprint-" ++ action.actionId else givenId
    return added resultId action sprintId itemIds

end AddSprintWorkItemsTool

end PrismAgent
