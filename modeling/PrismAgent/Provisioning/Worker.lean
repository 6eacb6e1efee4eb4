import PrismAgent.Application.DomainEventHandler

/-!
# The feature provisioning worker

`FeatureProvisioningWorker.handle_pointer` resolves a queue pointer to the seed event
whose payload it names and handles that event, once for each request.
-/

namespace PrismAgent

/-- A valid pointer; its `type` and `version` are literals. -/
structure FeatureProvisioningPointerEvent where
  requestId : String
  agentRunId : Option String := none
  payloadId : Option String := none
  payloadObjectName : String
  payloadVersionId : Option String := none
  workspaceId : String
  projectId : String
  requestedByUserId : Option String := none
  deriving DecidableEq, Repr

/-- A valid payload; `extra` are the fields that the model does not declare. -/
structure FeatureProvisioningPayload where
  requestId : Option String := none
  workspaceId : Option String := none
  projectId : Option String := none
  featureSpecification : Json := .null
  workspace : Option Fields := none
  project : Option Fields := none
  workspaceMembers : List Fields := []
  extra : Fields := []

structure FeatureProvisioningResult where
  requestId : String
  eventId : Option String
  duplicate : Bool := false
  deriving DecidableEq, Repr

namespace FeatureProvisioningPointerEvent

variable (pointer : FeatureProvisioningPointerEvent)

def type : String := "feature.provisioning.requested"

def version : String := "1.0"

def workerIdempotencyKey : String := "feature_provisioning:" ++ pointer.requestId

/-- A field of a dump that leaves out `None`. -/
def optionalField (key : String) (value : Option String) : Fields :=
  (value.map fun text => (key, Json.str text)).toList

/-- `model_dump(by_alias=True, exclude_none=True)`. -/
def modelDump : Fields :=
  [("type", .str type), ("version", .str version), ("requestId", .str pointer.requestId)] ++
    optionalField "agentRunId" pointer.agentRunId ++
    optionalField "payloadId" pointer.payloadId ++
    [("payloadObjectName", .str pointer.payloadObjectName)] ++
    optionalField "payloadVersionId" pointer.payloadVersionId ++
    [("workspaceId", .str pointer.workspaceId), ("projectId", .str pointer.projectId)] ++
    optionalField "requestedByUserId" pointer.requestedByUserId

end FeatureProvisioningPointerEvent

namespace FeatureProvisioningPayload

variable (payload : FeatureProvisioningPayload)

open FeatureProvisioningPointerEvent (optionalField)

/-- `value is None`. -/
def isNone : Json → Bool
  | .null => true
  | _ => false

def membersJson : Json := .arr (payload.workspaceMembers.map .obj)

/-- `model_dump(by_alias=True, exclude_none=True)`. -/
def modelDump : Fields :=
  optionalField "requestId" payload.requestId ++
    optionalField "workspaceId" payload.workspaceId ++
    optionalField "projectId" payload.projectId ++
    [("featureSpecification", payload.featureSpecification)].filter (fun f => !isNone f.2) ++
    (payload.workspace.map fun fields => ("workspace", Json.obj fields)).toList ++
    (payload.project.map fun fields => ("project", Json.obj fields)).toList ++
    [("workspaceMembers", payload.membersJson)] ++
    payload.extra.filter fun f => !isNone f.2

/-- Where an identity is looked for: under a key, or under a key of an object. -/
inductive IdentityPath
  | key (name : String)
  | nested (parent child : String)

/-- `_first_present`; `null` is Python's `None`. -/
def firstPresent : List IdentityPath → Json
  | [] => .null
  | .key name :: paths =>
      match payload.modelDump.lookup name with
      | some value => value
      | none =>
          match payload.extra.lookup name with
          | some value => value
          | none => firstPresent paths
  | .nested parent child :: paths =>
      match ((payload.modelDump.lookup parent).filter Json.truthy).or
        (payload.extra.lookup parent) with
      | some (.obj container) =>
          match container.lookup child with
          | some value => value
          | none => firstPresent paths
      | _ => firstPresent paths

/-- The identity fields: name, what the pointer expects and what the payload holds. -/
def identities (pointer : FeatureProvisioningPointerEvent) : List (String × String × Json) :=
  [("requestId", pointer.requestId,
      payload.firstPresent [.key "requestId", .key "request_id"]),
    ("workspaceId", pointer.workspaceId,
      payload.firstPresent [.key "workspaceId", .key "workspace_id",
        .nested "workspace" "workspaceId", .nested "workspace" "id"]),
    ("projectId", pointer.projectId,
      payload.firstPresent [.key "projectId", .key "project_id",
        .nested "project" "projectId", .nested "project" "id"])]

/-- Whether the feature specification is a text that is not blank. -/
def hasSpecification : Bool :=
  match payload.featureSpecification with
  | .str text => strip text ≠ ""
  | _ => false

def validateMatches (pointer : FeatureProvisioningPointerEvent) : Except Exc Unit :=
  if payload.hasSpecification = false then
    .error (.valueError "Feature provisioning payload missing featureSpecification.")
  else
    let identities := payload.identities pointer
    let missing := (identities.filter fun field => isNone field.2.2).map (·.1)
    let mismatches := identities.filter fun field => field.2.2.toStr ≠ field.2.1
    if missing ≠ [] then
      .error (.valueError ("Feature provisioning payload missing identity fields: " ++
        (Json.arr ((missing.mergeSort fun a b => decide (a ≤ b)).map .str)).toRepr))
    else if mismatches ≠ [] then
      .error (.valueError ("Feature provisioning payload does not match pointer: " ++
        (Json.obj (mismatches.map fun field =>
          (field.1, .obj [("pointer", .str field.2.1), ("payload", field.2.2)]))).toRepr))
    else .ok ()

/-- The payload of the seed event. -/
def eventPayload (pointer : FeatureProvisioningPointerEvent) : Fields :=
  let payload' := Dict.insert (Dict.insert (Dict.insert payload.modelDump
    "feature_specification" payload.featureSpecification)
    "workspace_members" payload.membersJson)
    "queue_pointer" (.obj pointer.modelDump)
  match pointer.agentRunId with
  | some runId => if runId = "" then payload' else Dict.insert payload' "agentRunId" (.str runId)
  | none => payload'

def toDomainEvent (pointer : FeatureProvisioningPointerEvent) (eventId : String) :
    RuntimeEvent :=
  { kind := .domain
    eventId := eventId
    eventType := FeatureProvisioningPointerEvent.type
    workspaceId := pointer.workspaceId
    projectId := some pointer.projectId
    payload := payload.eventPayload pointer
    correlationId := some pointer.requestId
    idempotencyKey := some pointer.requestId }

end FeatureProvisioningPayload

/-- `JsonPayloadStore.fetch_json` and the validation of what it fetches. -/
abbrev JsonPayloadStore := String → Option String → Except Exc FeatureProvisioningPayload

namespace FeatureProvisioningWorker

/-- Fetch and validate the referenced payload; the event gets a fresh id. -/
def resolveSeedEvent (payloadStore : JsonPayloadStore)
    (pointer : FeatureProvisioningPointerEvent) : App RuntimeEvent := do
  let payload ← liftExcept
    (payloadStore pointer.payloadObjectName pointer.payloadVersionId)
  let _ ← liftExcept (payload.validateMatches pointer)
  let eventId ← perform .uuid4
  return payload.toDomainEvent pointer eventId

/-- Handle a pointer over a store whose idempotency keys have no workspace. -/
def handlePointer (registries : Registries) (payloadStore : JsonPayloadStore)
    (pointer : FeatureProvisioningPointerEvent) : App FeatureProvisioningResult := do
  match ← perform (.checkIdempotencyKey pointer.workerIdempotencyKey) with
  | true => return { requestId := pointer.requestId, eventId := none, duplicate := true }
  | false => do
      let event ← resolveSeedEvent payloadStore pointer
      DomainEventHandler.handle registries (.wrap event)
      perform (.recordIdempotencyKey pointer.workerIdempotencyKey)
      return { requestId := pointer.requestId, eventId := some event.eventId }

end FeatureProvisioningWorker

end PrismAgent
