import PrismAgent.Application.AgentRunSync
import PrismAgent.Listing.Quiet
import PrismAgent.State.RoundTrip

/-!
# What the API has been told

The API is a parameter: what it lists for a run under the id of an action is the payload that was
sent last for it. From the calls of the sync so far follows what it lists for every action.
-/

namespace PrismAgent

open ActionEventHandler (apiRunId)
open PrismApiStateStore (recordUnder)

/-- What is read back of the payload of an action. -/
def actionRecord (payload : Fields) : ActionRecord where
  actionId := ((payload.lookup "actionId").bind Json.asStr?).getD ""
  status := ((payload.lookup "status").bind Json.asStr?).getD ""
  requiresApproval :=
    match payload.lookup "requiresApproval" with
    | some v => v.truthy
    | none => false

theorem actionRecord_actionPayload (uuid5 : String → String) (action : PlannedAction)
    (includeStepId : Bool) (message : String) :
    actionRecord (AgentRunSync.actionPayload uuid5 action includeStepId message) =
      upsertAction uuid5 action := by
  simp [actionRecord, AgentRunSync.actionPayload, upsertAction, List.lookup_cons, Json.asStr?,
    Json.truthy]

theorem upsertAction_actionId (uuid5 : String → String) (action : PlannedAction) :
    (upsertAction uuid5 action).actionId = actionApiId uuid5 action := by
  unfold upsertAction
  rfl

/-- What hydration makes of the status of an action that is listed. -/
def PlannedAction.readBack (action : PlannedAction) : ActionStatus :=
  match action.status with
  | .completed => .completed
  | .failed => .failed
  | .skipped | .stale => .skipped
  | .running => .pending
  | .pending | .requiresApproval => if action.requiresApproval then .requiresApproval else .pending

/-- The API for agent runs, and the action records that it lists for a run. -/
structure RunApi where
  State : Type
  empty : State
  send : State → ApiRequest → State
  records : State → String → String → List ActionRecord

/-- An upsert replaces what is listed under the id of its action; no other request changes the
listed actions. -/
structure RunApi.Lawful (runs : RunApi) : Prop where
  empty : ∀ workspaceId runId id,
    recordUnder (runs.records runs.empty workspaceId runId) id = none
  upsert : ∀ s workspaceId runId payload workspaceId' runId' id,
    recordUnder (runs.records (runs.send s (.upsertAgentAction workspaceId runId payload))
        workspaceId' runId') id =
      if workspaceId = workspaceId' ∧ runId = runId' ∧ (actionRecord payload).actionId = id then
        some (actionRecord payload)
      else recordUnder (runs.records s workspaceId' runId') id
  other : ∀ s request, (∀ workspaceId runId payload,
    request ≠ .upsertAgentAction workspaceId runId payload) → ∀ workspaceId runId id,
      recordUnder (runs.records (runs.send s request) workspaceId runId) id =
        recordUnder (runs.records s workspaceId runId) id

namespace RunApi

variable (runs : RunApi) (uuid5 : String → String) (createdAt : AgentContext → String)

/-- The API after the calls. -/
def after (calls : List SyncCall) : runs.State :=
  (AgentRunSync.sent uuid5 createdAt calls).foldl runs.send runs.empty

/-- What the API lists after the calls under the id of an action. -/
def told (calls : List SyncCall) (workspaceId runId id : String) : Option ActionRecord :=
  recordUnder (runs.records (runs.after uuid5 createdAt calls) workspaceId runId) id

variable {runs uuid5 createdAt} {workspaceId runId id : String} {calls : List SyncCall}
  (hruns : runs.Lawful)

theorem after_append_singleton (call : SyncCall) {requests : List ApiRequest}
    (hcall : AgentRunSync.requests uuid5 createdAt call = .ok requests) :
    runs.after uuid5 createdAt (calls ++ [call]) =
      requests.foldl runs.send (runs.after uuid5 createdAt calls) := by
  unfold after AgentRunSync.sent
  rw [List.flatMap_append, List.foldl_append, List.flatMap_singleton, hcall]
  rfl

include hruns

/-- Requests that upsert nothing under the id change nothing of it. -/
theorem Lawful.foldl_of_ne {requests : List ApiRequest} {s : runs.State}
    (h : ∀ payload, .upsertAgentAction workspaceId runId payload ∈ requests →
      (actionRecord payload).actionId ≠ id) :
    recordUnder (runs.records (requests.foldl runs.send s) workspaceId runId) id =
      recordUnder (runs.records s workspaceId runId) id := by
  induction requests generalizing s with
  | nil => rfl
  | cons request requests ih =>
      rw [List.foldl_cons, ih fun payload hmem => h payload (List.mem_cons_of_mem _ hmem)]
      by_cases hupsert : ∃ workspaceId runId payload,
          request = .upsertAgentAction workspaceId runId payload
      · obtain ⟨workspaceId', runId', payload, rfl⟩ := hupsert
        rw [hruns.upsert, if_neg]
        rintro ⟨rfl, rfl, hid⟩
        exact h payload List.mem_cons_self hid
      · exact hruns.other s request (fun workspaceId runId payload heq =>
          hupsert ⟨workspaceId, runId, payload, heq⟩) _ _ _

/-- The last request that upserts the id is what is listed under it. -/
theorem Lawful.foldl_of_mem {before rest : List ApiRequest} {s : runs.State} {payload : Fields}
    (hid : (actionRecord payload).actionId = id)
    (h : ∀ payload, .upsertAgentAction workspaceId runId payload ∈ rest →
      (actionRecord payload).actionId ≠ id) :
    recordUnder (runs.records ((before ++ .upsertAgentAction workspaceId runId payload ::
      rest).foldl runs.send s) workspaceId runId) id = some (actionRecord payload) := by
  rw [List.foldl_append, List.foldl_cons, hruns.foldl_of_ne h, hruns.upsert, if_pos ⟨rfl, rfl, hid⟩]

/-- A call that upserts no action changes nothing. -/
theorem Lawful.told_of_silent (call : SyncCall) {requests : List ApiRequest}
    (hcall : AgentRunSync.requests uuid5 createdAt call = .ok requests)
    (h : ∀ payload, .upsertAgentAction workspaceId runId payload ∈ requests →
      (actionRecord payload).actionId ≠ id) :
    runs.told uuid5 createdAt (calls ++ [call]) workspaceId runId id =
      runs.told uuid5 createdAt calls workspaceId runId id := by
  unfold told
  rw [after_append_singleton call hcall]
  exact hruns.foldl_of_ne h

theorem Lawful.told_quiet {call : SyncCall} (h : call.Quiet) :
    runs.told uuid5 createdAt (calls ++ [call]) workspaceId runId id =
      runs.told uuid5 createdAt calls workspaceId runId id := by
  cases call with
  | planCreated | actionState => exact h.elim
  | runStarted | runFailed | runRunning | runCompletedById =>
      refine hruns.told_of_silent _ rfl fun payload hmem => ?_
      simp [AgentRunSync.statusUpdate] at hmem

variable {plan : AgentPlan}

/-- A new plan tells of every action that has an id of its own. -/
theorem Lawful.told_planCreated {a : PlannedAction}
    (hdistinct : (plan.actions.map (actionApiId uuid5)).Nodup) (ha : a ∈ plan.actions) :
    runs.told uuid5 createdAt (calls ++ [.planCreated plan]) plan.workspaceId (apiRunId plan)
      (actionApiId uuid5 a) = some (upsertAction uuid5 a) := by
  obtain ⟨pre, post, hsplit⟩ := List.append_of_mem ha
  have hpost : ∀ b ∈ post, actionApiId uuid5 b ≠ actionApiId uuid5 a := by
    rw [hsplit, List.map_append, List.map_cons] at hdistinct
    intro b hb heq
    exact (List.nodup_cons.1 (List.nodup_append.1 hdistinct).2.1).1
      (heq ▸ List.mem_map_of_mem hb)
  have hrequests := AgentRunSync.requests_planCreated uuid5 createdAt plan
  rw [hsplit, List.map_append, List.map_cons, ← List.cons_append] at hrequests
  unfold told
  rw [after_append_singleton (.planCreated plan) hrequests,
    ← actionRecord_actionPayload uuid5 a false ""]
  refine hruns.foldl_of_mem ?_ fun payload hmem => ?_
  · rw [actionRecord_actionPayload, upsertAction_actionId]
  · obtain ⟨b, hb, hpayload⟩ := List.mem_map.1 hmem
    rw [← (ApiRequest.upsertAgentAction.inj hpayload).2.2, actionRecord_actionPayload,
      upsertAction_actionId]
    exact hpost b hb

/-- It tells of its own actions only. -/
theorem Lawful.told_planCreated_of_ne
    (h : plan.workspaceId = workspaceId → apiRunId plan = runId →
      ∀ a ∈ plan.actions, actionApiId uuid5 a ≠ id) :
    runs.told uuid5 createdAt (calls ++ [.planCreated plan]) workspaceId runId id =
      runs.told uuid5 createdAt calls workspaceId runId id := by
  have hrequests := AgentRunSync.requests_planCreated uuid5 createdAt plan
  refine hruns.told_of_silent (.planCreated plan) hrequests fun payload hmem => ?_
  rcases List.mem_cons.1 hmem with hstep | hmem
  · exact absurd hstep (by simp)
  · obtain ⟨a, ha, hpayload⟩ := List.mem_map.1 hmem
    obtain ⟨hws, hrun, hpayload⟩ := ApiRequest.upsertAgentAction.inj hpayload
    rw [← hpayload, actionRecord_actionPayload, upsertAction_actionId]
    exact h hws hrun a ha

/-- The report of an action tells of that action. -/
theorem Lawful.told_actionState {action : PlannedAction} (eventName message : String)
    (haction : action.actionId ∈ plan.actions.map (·.actionId)) :
    runs.told uuid5 createdAt (calls ++ [.actionState plan action eventName message]) workspaceId
        runId id =
      if plan.workspaceId = workspaceId ∧ apiRunId plan = runId ∧ actionApiId uuid5 action = id then
        some (upsertAction uuid5 action)
      else runs.told uuid5 createdAt calls workspaceId runId id := by
  obtain ⟨step, hrequests⟩ :=
    AgentRunSync.exists_requests_actionState uuid5 createdAt eventName message haction
  unfold told
  rw [after_append_singleton _ hrequests]
  have hid : (actionRecord (AgentRunSync.actionPayload uuid5 action true message)).actionId =
      actionApiId uuid5 action := by
    rw [actionRecord_actionPayload, upsertAction_actionId]
  have hlater := AgentRunSync.upsertAgentAction_notMem_actionEvents uuid5 plan action eventName
    message
  split
  next hplace =>
    obtain ⟨rfl, rfl, rfl⟩ := hplace
    rw [← actionRecord_actionPayload uuid5 action true message]
    exact hruns.foldl_of_mem hid fun payload hmem => absurd hmem (hlater _ _ _)
  next hplace =>
    refine hruns.foldl_of_ne fun payload hmem heq => ?_
    rw [List.singleton_append, List.mem_cons, List.mem_cons] at hmem
    rcases hmem with hstep | hupsert | hmem
    · exact absurd hstep (by simp)
    · obtain ⟨hws, hrun, hpayload⟩ := ApiRequest.upsertAgentAction.inj hupsert
      rw [hpayload, hid] at heq
      exact hplace ⟨hws.symm, hrun.symm, heq⟩
    · exact hlater _ _ _ hmem

end RunApi

end PrismAgent
