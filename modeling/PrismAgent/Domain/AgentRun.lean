import PrismAgent.Domain.Results
import PrismAgent.Domain.Uuid

/-!
# Run identity and API ids

`domain/agent_run.py`: the run id of an event, the stable ids under which the
API files runs and actions, and the API's status vocabularies.
-/

namespace PrismAgent

def AGENT_RUN_ID_KEYS : List String := ["agentRunId", "runId", "agent_run_id"]

/-- The first of `keys` under which `data` holds a text that is not blank,
stripped. -/
def firstText (data : Fields) (keys : List String) : Option String :=
  keys.findSome? fun key =>
    match data.lookup key with
    | some (.str value) => if strip value = "" then none else some (strip value)
    | _ => none

/-- Resolve the stable run id used as plan id. -/
def resolveAgentRunId (context : AgentContext) : String :=
  let event := context.sourceEvent.event
  match firstText event.payload AGENT_RUN_ID_KEYS with
  | some runId => runId
  | none =>
      let queuePointer := (event.payload.lookup "queue_pointer").bind Json.asObj?
      match queuePointer.bind fun pointer => firstText pointer AGENT_RUN_ID_KEYS with
      | some runId => runId
      | none =>
          orElseText event.correlationId (orElseText event.idempotencyKey event.eventId)

/-- The run id of a seed event. -/
def runIdOf (seed : EventEnvelope) : String :=
  resolveAgentRunId
    { workspaceId := seed.event.workspaceId
      projectId := seed.event.projectId
      sourceEvent := seed
      workflowId := "" }

/-- The run id depends on the source event only. -/
theorem resolveAgentRunId_eq {context : AgentContext} {seed : EventEnvelope}
    (h : context.sourceEvent = seed) : resolveAgentRunId context = runIdOf seed := by
  unfold resolveAgentRunId runIdOf
  rw [h]
  rfl

/-- The run id that a payload names, directly or in its queue pointer. -/
def payloadRunId (payload : Fields) : Option String :=
  (firstText payload AGENT_RUN_ID_KEYS).or
    (((payload.lookup "queue_pointer").bind Json.asObj?).bind fun pointer =>
      firstText pointer AGENT_RUN_ID_KEYS)

theorem runIdOf_eq (seed : EventEnvelope) :
    runIdOf seed = (payloadRunId seed.event.payload).getD
      (orElseText seed.event.correlationId
        (orElseText seed.event.idempotencyKey seed.event.eventId)) := by
  unfold runIdOf resolveAgentRunId payloadRunId
  dsimp only
  cases firstText seed.event.payload AGENT_RUN_ID_KEYS with
  | some runId => rfl
  | none =>
      dsimp only [Option.none_or]
      cases ((seed.event.payload.lookup "queue_pointer").bind Json.asObj?).bind fun pointer =>
        firstText pointer AGENT_RUN_ID_KEYS with
      | some runId => rfl
      | none => rfl

theorem firstText_ne_blank {data : Fields} {keys : List String} {text : String}
    (h : firstText data keys = some text) : strip text ≠ "" := by
  unfold firstText at h
  obtain ⟨key, -, hkey⟩ := List.exists_of_findSome?_eq_some h
  split at hkey
  next value _ =>
    split at hkey
    next => cases hkey
    next hblank =>
      rw [← Option.some.inj hkey]
      exact strip_strip_ne_empty hblank
  next => cases hkey

theorem payloadRunId_ne_blank {payload : Fields} {runId : String}
    (h : payloadRunId payload = some runId) : strip runId ≠ "" := by
  unfold payloadRunId at h
  rcases Option.or_eq_some_iff.1 h with h | ⟨-, h⟩
  · exact firstText_ne_blank h
  · obtain ⟨pointer, -, hpointer⟩ := Option.bind_eq_some_iff.1 h
    exact firstText_ne_blank hpointer

/-- `s.lower()`, for comparison with texts in ASCII: beyond it, only the Kelvin sign becomes a
letter of ASCII. -/
def lower (s : String) : String :=
  String.ofList (s.toList.map fun c => if c = '\u212a' then 'k' else c.toLower)

/-- The joined parts when they are a UUID, else their name-based UUID; `uuid5` is
the hash in the runtime's own namespace. -/
def stableAgentRunUuid (uuid5 : String → String) (parts : List String) : String :=
  let raw := ":".intercalate parts
  match parseUuid raw with
  | some uuid => uuid
  | none => uuid5 raw

def actionApiId (uuid5 : String → String) (action : PlannedAction) : String :=
  stableAgentRunUuid uuid5 [action.planId, action.actionId]

def actionStatusToApi (status : ActionStatus) (requiresApproval : Bool) : String :=
  match status with
  | .completed => "executed"
  | .failed => "failed"
  | .skipped | .stale => "cancelled"
  | .running => "approved"
  | .requiresApproval => "proposed"
  | .pending => if requiresApproval then "proposed" else "approved"

def runStatusToApi (plan : AgentPlan) : String :=
  match plan.status with
  | .completed => "completed"
  | .failed => "failed"
  | .cancelled => "cancelled"
  | .waitingForApproval | .replanRequired => "waiting"
  | .planned | .running => "running"

/-- A record of the run's `actions` as the API reports it. -/
structure ActionRecord where
  actionId : String
  status : String := ""
  requiresApproval : Bool := false
  deriving DecidableEq, Repr

/-- What `AgentRunSync._upsert_action` writes of an action that is read back. -/
def upsertAction (uuid5 : String → String) (action : PlannedAction) : ActionRecord :=
  { actionId := actionApiId uuid5 action
    status := actionStatusToApi action.status action.requiresApproval
    requiresApproval := action.requiresApproval }

def actionStatusFromRecord (record : ActionRecord) (currentStatus : ActionStatus) :
    ActionStatus :=
  let rawStatus := lower record.status
  if record.requiresApproval ∧
      rawStatus ∈ ["pending", "queued", "waiting", "proposed", "approval_required"] then
    .requiresApproval
  else
    match rawStatus with
    | "pending" => .pending
    | "queued" => .pending
    | "proposed" => .pending
    | "approved" => .pending
    | "running" => .running
    | "waiting" => .requiresApproval
    | "requires_approval" => .requiresApproval
    | "approval_required" => .requiresApproval
    | "completed" => .completed
    | "executed" => .completed
    | "succeeded" => .completed
    | "success" => .completed
    | "failed" => .failed
    | "rejected" => .skipped
    | "error" => .failed
    | "cancelled" => .skipped
    | "canceled" => .skipped
    | _ => currentStatus

/-- The plan status that the run's own status imposes. -/
def planStatusFromRun (runStatus : Option String) (currentStatus : PlanStatus) : PlanStatus :=
  match runStatus with
  | none => currentStatus
  | some status =>
    match lower status with
    | "completed" => .completed
    | "failed" => .failed
    | "cancelled" => .cancelled
    | "canceled" => .cancelled
    | _ => currentStatus

end PrismAgent
