import PrismAgent.Domain.Events
import PrismAgent.Domain.Fields

/-!
# Context entities

`PrismApiClient.fetch_context_entities`: the entities that a workflow requires are taken from
the event's payload, from the API, or from entities that were hydrated before them. The API
is what it answers in one state; `computeBacklogSignals` is `compute_backlog_signals` at one
point in time.
-/

namespace PrismAgent

/-- An error of the client; all of them are `RuntimeError`s. -/
structure ApiError where
  notFound : Bool := false
  message : String
  deriving DecidableEq, Repr

/-- What the client is configured for, and what the API answers. -/
structure ContextApi where
  configured : Bool
  searchWorkItems : String → Fields → Except ApiError Fields
  getWorkspaceSprints : String → Except ApiError (List Json)
  getWorkspaceMemberWorkloads : String → Except ApiError (List Json)
  getPullRequest : String → Json → Except ApiError Json
  computeBacklogSignals : List Json → List Json → Json

def PROJECT_WORK_ITEMS_CONTEXT_LIMIT : ℕ := 100

def SPRINTS_CONTEXT_LIMIT : ℕ := 10

def BACKLOG_DESCRIPTION_EXCERPT_LENGTH : ℕ := 240

def WORK_ITEM_CONTEXT_FIELDS : List String :=
  ["itemId", "parentId", "title", "status", "priority", "dueDate", "assigneeUsernames",
    "labelNames"]

def BACKLOG_EXTRA_FIELDS : List String := ["statusChangedAt", "createdAt"]

def SPRINT_CONTEXT_FIELDS : List String :=
  ["sprintId", "name", "goal", "status", "startsAt", "endsAt"]

section Views

def slimWorkItem (item : Fields) : Fields := presentFields WORK_ITEM_CONTEXT_FIELDS item

/-- The slim view with dates and the beginning of the description. -/
def backlogWorkItem (item : Fields) : Fields :=
  let description := strip (textField item "description" "")
  slimWorkItem item ++
    (presentFields BACKLOG_EXTRA_FIELDS item).map (fun field => (field.1, .str field.2.toStr)) ++
    [("description", .str
      (String.ofList (description.toList.take BACKLOG_DESCRIPTION_EXCERPT_LENGTH)))]

def slimSprint (sprint : Fields) : Fields := presentFields SPRINT_CONTEXT_FIELDS sprint

/-- The objects of a list in one of the views. -/
def viewsOf (view : Fields → Fields) (items : List Json) : List Json :=
  items.filterMap fun item => item.asObj?.map fun fields => .obj (view fields)

end Views

section Payload

/-- `_snake_to_camel`. -/
def snakeToCamel (value : String) : String :=
  match value.toList.splitOn '_' with
  | [] => ""
  | head :: tail =>
      String.ofList (head ++ tail.flatMap fun part =>
        match part with
        | [] => []
        | c :: cs => c.toUpper :: cs)

/-- `_payload_context_value`, with `null` for a value that the payload does not have. -/
def payloadContextValue (payload : Fields) (contextKey : String) : Json :=
  match payload.lookup contextKey with
  | some value => value
  | none => (payload.lookup (snakeToCamel contextKey)).getD .null

def PULL_NUMBER_KEYS : List String :=
  ["pullNumber", "pull_number", "pullRequestNumber", "pull_request_number", "githubPullNumber",
    "github_pull_number", "number"]

def PULL_REQUEST_KEYS : List String :=
  ["pull_request", "pullRequest", "github_pull_request", "githubPullRequest", "queue_pointer",
    "queuePointer"]

/-- The first value under one of the keys that is not `null`. -/
def firstPresent (fields : Fields) (keys : List String) : Option Json :=
  keys.findSome? fun key => (fields.lookup key).filter fun value => !value.isNull

mutual

/-- `_pull_request_number`, with `null` where there is none. -/
def pullRequestNumber : Json → Json
  | .obj fields =>
      ((firstPresent fields PULL_NUMBER_KEYS).or
        (firstPresent (nestedNumbers fields) PULL_REQUEST_KEYS)).getD .null
  | _ => .null

/-- The pull request number of every field. -/
def nestedNumbers : List (String × Json) → List (String × Json)
  | [] => []
  | (key, value) :: fields => (key, pullRequestNumber value) :: nestedNumbers fields

end

/-- `_has_hydrated_pull_request_diff`: there is a patch, or the list of files was cut. -/
def hasHydratedPullRequestDiff (value : Json) : Bool :=
  match value with
  | .obj fields =>
      match fields.lookup "files" with
      | some (.arr files) =>
          (match fields.lookup "truncated" with
            | some (.bool true) => true
            | _ => false) ||
          files.any fun file =>
            match file with
            | .obj fileDiff => strip (textField fileDiff "patch" "") ≠ ""
            | _ => false
      | _ => false
  | _ => false

/-- The field under `key`, from the payload's fields `sources` where the object has neither
spelling of it. -/
def backfill (diff : Fields) (key snakeKey : String) (value : Option Json) : Fields :=
  if (truthyField diff key).isSome || (truthyField diff snakeKey).isSome then diff
  else
    match value with
    | some value => Dict.insert diff key value
    | none => diff

/-- `_embedded_pull_request_diff`, with `null` where no pull request is embedded. -/
def embeddedPullRequestDiff (payload : Fields) : Json :=
  match (truthyField payload "pull_request").or (payload.lookup "pullRequest") with
  | some (.obj pullRequest) =>
      let number := pullRequestNumber (.obj payload)
      let isMissing := fun key => ((pullRequest.lookup key).getD .null).isNull
      let numbered :=
        if isMissing "pullNumber" && isMissing "pull_number" && !number.isNull then
          Dict.insert pullRequest "pullNumber" number
        else pullRequest
      let dated := backfill numbered "headSha" "head_sha"
        ((truthyField payload "headSha").or (truthyField payload "head_sha"))
      .obj (backfill dated "repositoryFullName" "repository_full_name"
        ((truthyField payload "repositoryFullName").or
          (truthyField payload "repository_full_name")))
  | _ => .null

end Payload

namespace PrismApiClient

variable (api : ContextApi) (event : RuntimeEvent)

/-- The event's project, if it has one. -/
def projectOf : Option String := event.projectId.filter (· ≠ "")

def defaultEntity (contextKey : String) : Json :=
  .obj [("id", (event.payload.lookup (contextKey ++ "_id")).getD (.str (contextKey ++ "-unknown"))),
    ("type", .str contextKey), ("version", (event.payload.lookup "version").getD (.int 1))]

/-- `_workspace_members_context`, and `_workspace_jobs_context`. -/
def explicitItemsContext (explicitValue : Json) : List Json :=
  let explicitItems := extractItems explicitValue
  if !explicitItems.isEmpty || !explicitValue.isNull then explicitItems
  else extractItems explicitValue

def projectMembersContext (entities : Fields) (explicitValue : Json) : List Json :=
  let explicitMembers := extractItems explicitValue
  if !explicitMembers.isEmpty then explicitMembers
  else
    match entities.lookup "workspace_members" with
    | some (.arr workspaceMembers) => workspaceMembers
    | _ => explicitItemsContext explicitValue

/-- The jobs of the project, or else those of the workspace. -/
def projectJobsContext (entities : Fields) (explicitValue : Json) : List Json :=
  let explicitJobs := extractItems explicitValue
  if !explicitJobs.isEmpty || !explicitValue.isNull then explicitJobs
  else extractItems ((entities.lookup "workspace_jobs").getD .null)

/-- `_unavailable_member_workload`. -/
def unavailableMemberWorkload (member : Fields) (exc : ApiError) : Json :=
  let get := fun key => (member.lookup key).getD .null
  let list := fun key => (member.lookup key).getD (.arr [])
  .obj ([("userId", get "userId"), ("fullName", get "fullName"), ("username", get "username"),
    ("role", get "role"), ("jobIds", list "jobIds"), ("jobNames", list "jobNames")] ++
    (["assignedItemCount", "activeItemCount", "todoItemCount", "inProgressItemCount",
      "inReviewItemCount", "doneItemCount", "archivedItemCount", "overdueItemCount",
      "dueTodayItemCount", "dueThisWeekItemCount"].map fun key => (key, Json.null)) ++
    [("source", .str "unavailable"),
      ("limitations", .str ("The current API exposes workspace member workload counts but no " ++
        "capacity, availability, estimate, or project-breakdown fields.")),
      ("error", .str (String.ofList (exc.message.toList.take 500)))])

/-- `_unavailable_member_workloads`: the members without their counts. -/
def unavailableMemberWorkloads (entities : Fields) (exc : ApiError) : List Json :=
  match (truthyField entities "project_members").or
      (truthyField entities "workspace_members") with
  | some (.arr members) =>
      members.filterMap fun member =>
        member.asObj?.map fun fields => unavailableMemberWorkload fields exc
  | _ => []

def memberWorkloadsContext (entities : Fields) (explicitValue : Json) : List Json :=
  let explicitWorkloads := extractItems explicitValue
  if !explicitWorkloads.isEmpty || !api.configured then explicitWorkloads
  else
    match api.getWorkspaceMemberWorkloads event.workspaceId with
    | .ok workloads => if !workloads.isEmpty then workloads else []
    | .error exc => unavailableMemberWorkloads entities exc

def projectWorkItemsContext (explicitValue : Json) : List Json :=
  let explicitItems := extractItems explicitValue
  match projectOf event with
  | none => explicitItems
  | some projectId =>
      if !explicitItems.isEmpty || !api.configured then explicitItems
      else
        match api.searchWorkItems projectId
            [("limit", .int PROJECT_WORK_ITEMS_CONTEXT_LIMIT)] with
        | .error _ => []
        | .ok result =>
            match result.lookup "items" with
            | some (.arr items) => viewsOf slimWorkItem items
            | _ => []

/-- The open work items status by status, until the limit is reached. -/
def backlogItems (projectId : String) : List String → List Json → List Json
  | [], items => items
  | status :: statuses, items =>
      if PROJECT_WORK_ITEMS_CONTEXT_LIMIT ≤ items.length then items
      else
        match api.searchWorkItems projectId
            [("status", .str status),
              ("limit", .int ((PROJECT_WORK_ITEMS_CONTEXT_LIMIT - items.length : ℕ) : ℤ))] with
        | .error _ => backlogItems projectId statuses items
        | .ok result =>
            match result.lookup "items" with
            | some (.arr fetched) =>
                backlogItems projectId statuses (items ++ viewsOf backlogWorkItem fetched)
            | _ => backlogItems projectId statuses items

def backlogWorkItemsContext (explicitValue : Json) : List Json :=
  let explicitItems := extractItems explicitValue
  match projectOf event with
  | none => explicitItems
  | some projectId =>
      if !explicitItems.isEmpty || !api.configured then explicitItems
      else backlogItems api projectId ["todo", "in_progress", "in_review"] []

def sprintsContext (explicitValue : Json) : List Json :=
  let explicitItems := extractItems explicitValue
  if !explicitItems.isEmpty || !api.configured then explicitItems
  else
    match api.getWorkspaceSprints event.workspaceId with
    | .error _ => []
    | .ok sprints => viewsOf slimSprint (sprints.take SPRINTS_CONTEXT_LIMIT)

/-- `_pull_request_diff_context`; only an API error other than "not found" is raised. -/
def pullRequestDiffContext (explicitValue : Json) : Except ApiError Json :=
  if hasHydratedPullRequestDiff explicitValue then .ok explicitValue
  else
    let embedded := embeddedPullRequestDiff event.payload
    let explicitNumber := pullRequestNumber explicitValue
    let pullNumber :=
      if explicitNumber.truthy then explicitNumber else pullRequestNumber (.obj event.payload)
    let resolved := if explicitValue.isObj then explicitValue else embedded
    if hasHydratedPullRequestDiff embedded then .ok embedded
    else
      match projectOf event with
      | none => .ok resolved
      | some projectId =>
          if !api.configured || pullNumber.isNull then .ok resolved
          else
            match api.getPullRequest projectId pullNumber with
            | .ok fetched => .ok fetched
            | .error exc => if exc.notFound then .ok resolved else .error exc

def pullRequestEventContext (explicitValue : Json) : Json :=
  if explicitValue.isObj then explicitValue
  else
    let payload := event.payload
    let pullRequest :=
      match (truthyField payload "pull_request").or (payload.lookup "pullRequest") with
      | some (.obj fields) => [("pullRequest", Json.obj fields)]
      | _ => []
    let number := pullRequestNumber (.obj payload)
    .obj (pullRequest ++ (if number.isNull then [] else [("pullNumber", number)]) ++
      presentFields ["action", "repository", "sender", "installation"] payload)

/-- The value of one entity, given the entities hydrated before it. -/
def contextValue (entities : Fields) (contextKey : String) : Except ApiError Json :=
  let explicitValue := payloadContextValue event.payload contextKey
  match contextKey with
  | "workspace_members" => .ok (.arr (explicitItemsContext explicitValue))
  | "project_members" => .ok (.arr (projectMembersContext entities explicitValue))
  | "workspace_jobs" => .ok (.arr (explicitItemsContext explicitValue))
  | "project_jobs" => .ok (.arr (projectJobsContext entities explicitValue))
  | "member_workloads" => .ok (.arr (memberWorkloadsContext api event entities explicitValue))
  | "project_work_items" => .ok (.arr (projectWorkItemsContext api event explicitValue))
  | "backlog_work_items" => .ok (.arr (backlogWorkItemsContext api event explicitValue))
  | "sprints" => .ok (.arr (sprintsContext api event explicitValue))
  | "recent_sprints" => .ok (.arr (sprintsContext api event explicitValue))
  | "pull_request_diff" => pullRequestDiffContext api event explicitValue
  | "pull_request_event" => .ok (pullRequestEventContext event explicitValue)
  | _ => .ok (if explicitValue.isNull then defaultEntity event contextKey else explicitValue)

/-- The loop over the required keys; the signals are computed after it. -/
def fetchEntities : List String → Fields → Except ApiError Fields
  | [], entities => .ok entities
  | contextKey :: keys, entities =>
      if contextKey = "backlog_signals" then fetchEntities keys entities
      else do
        let value ← contextValue api event entities contextKey
        fetchEntities keys (Dict.insert entities contextKey value)

/-- The signals, from the backlog and the workloads that were hydrated. -/
def backlogSignals (entities : Fields) : Json :=
  let explicitSignals := payloadContextValue event.payload "backlog_signals"
  if explicitSignals.isObj then explicitSignals
  else
    api.computeBacklogSignals
      (extractItems ((entities.lookup "backlog_work_items").getD .null))
      (extractItems ((entities.lookup "member_workloads").getD .null))

def fetchContextEntities (requiredContext : List String) : Except ApiError Fields := do
  let entities ← fetchEntities api event requiredContext []
  if "backlog_signals" ∈ requiredContext then
    return Dict.insert entities "backlog_signals" (backlogSignals api event entities)
  else return entities

end PrismApiClient

end PrismAgent
