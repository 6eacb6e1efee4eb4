import PrismAgent.Application.RecursionRunner
import PrismAgent.Provisioning.Worker
import PrismAgent.Wire.Contents
import PrismAgent.Wire.Envelopes

/-!
# Function invocations

`handler` and `_process` of `interfaces/oci_function_entry.py`: the content of the message is a
pointer, which goes to the provisioning worker, or an envelope, which goes to the handler of its
class unless it lies too deep. The summaries that the function logs and sends are left out.
-/

namespace PrismAgent

open Effect JsonText

section Pointer

variable {τ : Type} (pydantic : Pydantic τ)

namespace FeatureProvisioningPointerEvent

/-- The aliases of the fields; a field may also be given by its name. -/
def aliases : List (String × String) :=
  [("requestId", "request_id"), ("agentRunId", "agent_run_id"), ("payloadId", "payload_id"),
    ("payloadObjectName", "payload_object_name"), ("payloadVersionId", "payload_version_id"),
    ("workspaceId", "workspace_id"), ("projectId", "project_id"),
    ("requestedByUserId", "requested_by_user_id"), ("requestedAt", "requested_at")]

/-- `extra="forbid"`: a name is extra where the alias is given too. -/
def declares (fields : Fields) (key : String) : Bool :=
  key ∈ ["type", "version"] || aliases.any fun (fieldAlias, name) =>
    key = fieldAlias || key = name && (fields.lookup fieldAlias).isNone

/-- The value of a field. -/
def given (fields : Fields) (fieldAlias : String) : Option Json :=
  (fields.lookup fieldAlias).or ((aliases.lookup fieldAlias).bind fun name => fields.lookup name)

def requiredText (fields : Fields) (fieldAlias : String) : Option String :=
  (given fields fieldAlias).bind Json.asStr?

def optionalText (fields : Fields) (fieldAlias : String) : Option (Option String) :=
  match given fields fieldAlias with
  | some v => readText v
  | none => some none

/-- `datetime | None`; no modelled function reads the time of the request. -/
def hasTime (fields : Fields) : Bool :=
  match given fields "requestedAt" with
  | some .null => true
  | some v => (pydantic.readTime v).isSome
  | none => true

/-- `FeatureProvisioningPointerEvent.model_validate`. -/
def modelValidate (fields : Fields) : Option FeatureProvisioningPointerEvent :=
  if fields.all (fun field => declares fields field.1) ∧ hasTime pydantic fields ∧
      (fields.lookup "type").bind Json.asStr? = some type ∧
      (fields.lookup "version").bind Json.asStr? = some version then do
    let requestId ← requiredText fields "requestId"
    let agentRunId ← optionalText fields "agentRunId"
    let payloadId ← optionalText fields "payloadId"
    let payloadObjectName ← requiredText fields "payloadObjectName"
    let payloadVersionId ← optionalText fields "payloadVersionId"
    let workspaceId ← requiredText fields "workspaceId"
    let projectId ← requiredText fields "projectId"
    let requestedByUserId ← optionalText fields "requestedByUserId"
    return { requestId, agentRunId, payloadId, payloadObjectName, payloadVersionId, workspaceId,
             projectId, requestedByUserId }
  else none

end FeatureProvisioningPointerEvent

end Pointer

/-- What a function is configured with. -/
structure FunctionSettings (τ : Type) where
  registries : Registries
  maxRecursionDepth : ℕ
  payloadStore : JsonPayloadStore
  pydantic : Pydantic τ
  canon : String → String

namespace OciFunctionEntry

variable {τ : Type} (settings : FunctionSettings τ)

def isFeatureProvisioningPointer (payload : Fields) : Bool :=
  (payload.lookup "type").bind Json.asStr? = some FeatureProvisioningPointerEvent.type

def handleFeatureProvisioningPointer (payload : Fields) : App Fields :=
  match FeatureProvisioningPointerEvent.modelValidate settings.pydantic payload with
  | none => .raise (.external "ValidationError" "")
  | some pointer => do
      let result ← FeatureProvisioningWorker.handlePointer settings.registries
        settings.payloadStore pointer
      return [("ok", .bool true), ("event_id", dumpText result.eventId),
        ("event_type", .str FeatureProvisioningPointerEvent.type),
        ("request_id", .str result.requestId), ("duplicate", .bool result.duplicate)]

/-- `RecursionRunner.exceeds_max_depth` for the first event of a runner. -/
def exceedsMaxDepth (envelope : EventEnvelope) : Bool :=
  settings.maxRecursionDepth ≤ 0 || settings.maxRecursionDepth < envelope.event.causality.depth

/-- The part of `_process` after the validation. -/
def processEnvelope (envelope : EventEnvelope) : App Fields :=
  if exceedsMaxDepth settings envelope then do
    RecursionRunner.recordMaxDepthFailure envelope.event
    return [("ok", .bool false), ("event_id", .str envelope.eventId),
      ("event_type", .str envelope.event.eventType),
      ("reason", .str "max_recursion_depth_exceeded")]
  else do
    RecursionRunner.dispatch settings.registries { envelope := envelope }
    return [("ok", .bool true), ("event_id", .str envelope.eventId),
      ("event_type", .str envelope.event.eventType)]

def process (defaults : Defaults τ) (payload : Fields) : App Fields :=
  if isFeatureProvisioningPointer payload then handleFeatureProvisioningPointer settings payload
  else
    match modelValidate settings.pydantic defaults payload with
    | none => .raise (.external "ValidationError" "")
    | some stamped => processEnvelope settings stamped.envelope

/-- One invocation; `defaults` are what the default factories give. -/
def handler (defaults : Defaults τ) (data : InvocationData) : App Fields := do
  let payload ← liftExcept (content settings.canon data)
  process settings defaults payload

end OciFunctionEntry

end PrismAgent
