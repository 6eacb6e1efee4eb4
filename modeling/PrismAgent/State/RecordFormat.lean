import PrismAgent.State.Store
import PrismAgent.Wire.Envelopes

/-!
# The format of the state records

`model_dump(mode="json")` and `model_validate` of the classes whose objects
`infrastructure/state/prism_api_state_store.py` puts into its records: plans, context snapshots,
results of actions, task graphs and results of sub-agents. The timestamps and generated ids that
the classes also have are printed and read, but no modelled function uses them.
-/

namespace PrismAgent

/-- What pydantic reads and prints, and what the objects hold beside the fields that are
modelled. -/
structure RecordFormat (τ : Type) where
  pydantic : Pydantic τ
  lawful : pydantic.Lawful
  /-- The values other than `true` and `false` that are read as one. -/
  laxBool : Json → Option Bool
  /-- The values other than texts and integers that are read as a version. -/
  laxVersion : Json → Option EntityVersion
  defaults : Defaults τ
  /-- What the default factory of an id gives. -/
  freshId : String
  now : τ
  actionTimes : PlannedAction → τ × τ
  planTimes : AgentPlan → τ × τ
  snapshotTime : ContextSnapshot → τ
  resultTime : ToolResult → τ
  suggestionTime : AgentSuggestion → τ
  stamped : EventEnvelope → Stamped τ
  stamped_envelope : ∀ envelope, (stamped envelope).envelope = envelope

/-- The format of objects whose timestamps are all the same text. -/
def textFormat (now : String) : RecordFormat String where
  pydantic := textPydantic
  lawful := lawful_textPydantic
  laxBool _ := none
  laxVersion _ := none
  defaults := ⟨"", "", now, now⟩
  freshId := ""
  now := now
  actionTimes _ := (now, now)
  planTimes _ := (now, now)
  snapshotTime _ := now
  resultTime _ := now
  suggestionTime _ := now
  stamped envelope := ⟨envelope, "", now, now⟩
  stamped_envelope _ := rfl

def ActionStatus.value : ActionStatus → String
  | .pending => "pending"
  | .running => "running"
  | .completed => "completed"
  | .failed => "failed"
  | .skipped => "skipped"
  | .requiresApproval => "requires_approval"
  | .stale => "stale"

def PlanStatus.value : PlanStatus → String
  | .planned => "planned"
  | .running => "running"
  | .completed => "completed"
  | .failed => "failed"
  | .cancelled => "cancelled"
  | .waitingForApproval => "waiting_for_approval"
  | .replanRequired => "replan_required"

namespace Codec

/-- `str | None`. -/
abbrev optionalText : Codec (Option String) := text.optional text_validate_null

/-- `list[str]`. -/
abbrev texts : Codec (List String) := text.list

def actionStatus : Codec ActionStatus :=
  choice ActionStatus.value
    [.pending, .running, .completed, .failed, .skipped, .requiresApproval, .stale] fun a => by
      cases a <;> decide

def planStatus : Codec PlanStatus :=
  choice PlanStatus.value
    [.planned, .running, .completed, .failed, .cancelled, .waitingForApproval, .replanRequired]
    fun a => by cases a <;> decide

def subTaskStatus : Codec SubTaskStatus :=
  choice SubTaskStatus.value [.pending, .running, .completed, .failed] fun a => by
    cases a <;> decide

@[simp] theorem actionStatus_fits (a : ActionStatus) : actionStatus.Fits a := trivial

@[simp] theorem actionStatus_sorted : actionStatus.sorted = id := rfl

@[simp] theorem planStatus_fits (a : PlanStatus) : planStatus.Fits a := trivial

@[simp] theorem planStatus_sorted : planStatus.sorted = id := rfl

@[simp] theorem subTaskStatus_fits (a : SubTaskStatus) : subTaskStatus.Fits a := trivial

@[simp] theorem subTaskStatus_sorted : subTaskStatus.sorted = id := rfl

@[simp] theorem subTaskStatus_proper (F : String → Prop) (a : SubTaskStatus) :
    subTaskStatus.Proper F a := trivial

end Codec

namespace Codec

variable {τ : Type}

/-- A counter. -/
def count (pydantic : Pydantic τ) : Codec ℕ where
  dump n := .int n
  validate := pydantic.readCount
  Fits _ := True
  sorted n := n
  validate_sortKeys _ := rfl
  sorted_sorted _ := rfl

/-- `datetime`. -/
def time (format : RecordFormat τ) : Codec τ where
  dump t := .str (format.pydantic.printTime t)
  validate := format.pydantic.readTime
  Fits _ := True
  sorted t := t
  validate_sortKeys _ := format.lawful.readTime_printTime _
  sorted_sorted _ := rfl

/-- `str | int`. -/
def version (format : RecordFormat τ) : Codec EntityVersion where
  dump
    | .text s => .str s
    | .number n => .int n
  validate
    | .str s => some (.text s)
    | .int n => some (.number n)
    | v => format.laxVersion v
  Fits _ := True
  sorted v := v
  validate_sortKeys {v} _ := by cases v <;> rfl
  sorted_sorted _ := rfl

variable (format : RecordFormat τ)

@[simp] theorem count_fits (pydantic : Pydantic τ) (n : ℕ) : (count pydantic).Fits n := trivial

@[simp] theorem count_sorted (pydantic : Pydantic τ) : (count pydantic).sorted = id := rfl

@[simp] theorem time_fits (t : τ) : (time format).Fits t := trivial

@[simp] theorem version_fits (v : EntityVersion) : (version format).Fits v := trivial

@[simp] theorem version_sorted : (version format).sorted = id := rfl

end Codec

variable {τ : Type} (format : RecordFormat τ)

section Graphs

def SubTask.model : Model SubTask SubTask :=
  Model.make SubTask.mk
    |>.required "node_id" .text (·.nodeId)
    |>.withDefault "skill_ids" .texts (·.skillIds) []
    |>.withDefault "objective" .text (·.objective) ""
    |>.withDefault "depends_on" .texts (·.dependsOn) []
    |>.withDefault "context_scope" .texts (·.contextScope) []
    |>.withDefault "model_tier" .text (·.modelTier) "pro"
    |>.withDefault "status" .subTaskStatus (·.status) .pending

def SubTask.codec : Codec SubTask :=
  SubTask.model.codec (by simp [SubTask.model]) (fun _ => True) id
    (by simp [SubTask.model]) fun _ => rfl

namespace SubTask

theorem codec_validate_null : codec.validate .null = none := rfl

@[simp] theorem codec_fits (node : SubTask) : codec.Fits node := trivial

@[simp] theorem codec_sorted : codec.sorted = id := rfl

end SubTask

def TaskGraph.model : Model TaskGraph TaskGraph :=
  Model.make TaskGraph.mk
    |>.withDefault "plan_id" .text (·.planId) format.freshId
    |>.required "workspace_id" .text (·.workspaceId)
    |>.withDefault "project_id" .optionalText (·.projectId) none
    |>.withDefault "context_snapshot_ref" .optionalText (·.contextSnapshotRef) none
    |>.withDefault "version" (.count format.pydantic) (·.version) 0
    |>.withDefault "nodes" SubTask.codec.list (·.nodes) []
    |>.withDefault "synthesizer_node" (SubTask.codec.optional SubTask.codec_validate_null)
      (·.synthesizerNode) none

def TaskGraph.codec : Codec TaskGraph :=
  (TaskGraph.model format).codec (by simp [TaskGraph.model]) (fun _ => True) id
    (by simp [TaskGraph.model]) fun _ => rfl

section Proper

variable (F : String → Prop)

@[simp] theorem SubTask.codec_proper (node : SubTask) : SubTask.codec.Proper F node := by
  refine (Model.codec_proper F node _ _ _ _ _ _).2 ?_
  simp [SubTask.model]

/-- A task graph has no part that a text may not keep but its version. -/
theorem TaskGraph.codec_proper (graph : TaskGraph) :
    (TaskGraph.codec format).Proper F graph ↔ Short graph.version := by
  refine (Model.codec_proper F graph _ _ _ _ _ _).trans ?_
  have hcount : (Codec.count format.pydantic).Proper F graph.version ↔ Short graph.version :=
    Iff.rfl
  simp [TaskGraph.model, hcount]

end Proper

def SubAgentResult.model : Model SubAgentResult SubAgentResult :=
  Model.make SubAgentResult.mk
    |>.required "node_id" .text (·.nodeId)
    |>.withDefault "skill_ids" .texts (·.skillIds) []
    |>.withDefault "summary" .text (·.summary) ""
    |>.withDefault "structured_output" .fields (·.structuredOutput) []
    |>.withDefault "status" .subTaskStatus (·.status) .completed

def SubAgentResult.sorted (result : SubAgentResult) : SubAgentResult :=
  { result with structuredOutput := sortedFields result.structuredOutput }

@[simp] theorem SubAgentResult.sorted_sorted (result : SubAgentResult) :
    result.sorted.sorted = result.sorted := by
  simp [SubAgentResult.sorted]

def SubAgentResult.codec : Codec SubAgentResult :=
  SubAgentResult.model.codec (by simp [SubAgentResult.model]) (fun _ => True)
    SubAgentResult.sorted (by simp [SubAgentResult.model, SubAgentResult.sorted])
    SubAgentResult.sorted_sorted

/-- Nor has the result of a sub-agent, but its structured output. -/
theorem SubAgentResult.codec_proper (F : String → Prop) (result : SubAgentResult) :
    SubAgentResult.codec.Proper F result ↔ JsonText.Proper F (.obj result.structuredOutput) := by
  refine (Model.codec_proper F result _ _ _ _ _ _).trans ?_
  simp [SubAgentResult.model]

end Graphs

section Plans

/-- The fields that every proposed work item has. -/
def WorkItemLeafDraft.model {σ : Type} (get : σ → WorkItemLeafDraft) :
    Model σ WorkItemLeafDraft :=
  Model.make WorkItemLeafDraft.mk
    |>.required "title" .text (fun s => (get s).title)
    |>.withDefault "description" .text (fun s => (get s).description) ""
    |>.withDefault "start_date" .optionalText (fun s => (get s).startDate) none
    |>.withDefault "due_date" .optionalText (fun s => (get s).dueDate) none
    |>.withDefault "priority" .optionalText (fun s => (get s).priority) none
    |>.withDefault "status" .optionalText (fun s => (get s).status) none
    |>.withDefault "assignee_usernames" .texts (fun s => (get s).assigneeUsernames) []
    |>.withDefault "label_names" .texts (fun s => (get s).labelNames) []

def WorkItemLeafDraft.codec : Codec WorkItemLeafDraft :=
  (WorkItemLeafDraft.model id).codec (by simp [WorkItemLeafDraft.model]) (fun _ => True) id
    (by simp [WorkItemLeafDraft.model]) fun _ => rfl

@[simp] theorem WorkItemLeafDraft.codec_fits (draft : WorkItemLeafDraft) :
    WorkItemLeafDraft.codec.Fits draft := trivial

@[simp] theorem WorkItemLeafDraft.codec_sorted : WorkItemLeafDraft.codec.sorted = id := rfl

def WorkItemChildDraft.model : Model WorkItemChildDraft WorkItemChildDraft :=
  (WorkItemLeafDraft.model (·.toWorkItemLeafDraft)).map WorkItemChildDraft.mk
    |>.withDefault "children" WorkItemLeafDraft.codec.list (·.children) []

def WorkItemChildDraft.codec : Codec WorkItemChildDraft :=
  WorkItemChildDraft.model.codec (by simp [WorkItemChildDraft.model, WorkItemLeafDraft.model])
    (fun _ => True) id (by simp [WorkItemChildDraft.model, WorkItemLeafDraft.model]) fun _ => rfl

@[simp] theorem WorkItemChildDraft.codec_fits (draft : WorkItemChildDraft) :
    WorkItemChildDraft.codec.Fits draft := trivial

@[simp] theorem WorkItemChildDraft.codec_sorted : WorkItemChildDraft.codec.sorted = id := rfl

def WorkItemDraft.model : Model WorkItemDraft WorkItemDraft :=
  (WorkItemLeafDraft.model (·.toWorkItemLeafDraft)).map WorkItemDraft.mk
    |>.withDefault "children" WorkItemChildDraft.codec.list (·.children) []

def WorkItemDraft.codec : Codec WorkItemDraft :=
  WorkItemDraft.model.codec (by simp [WorkItemDraft.model, WorkItemLeafDraft.model])
    (fun _ => True) id (by simp [WorkItemDraft.model, WorkItemLeafDraft.model]) fun _ => rfl

@[simp] theorem WorkItemDraft.codec_fits (draft : WorkItemDraft) :
    WorkItemDraft.codec.Fits draft := trivial

@[simp] theorem WorkItemDraft.codec_sorted : WorkItemDraft.codec.sorted = id := rfl

def WorkItemUpdateDraft.model : Model WorkItemUpdateDraft WorkItemUpdateDraft :=
  Model.make WorkItemUpdateDraft.mk
    |>.required "item_id" .text (·.itemId)
    |>.withDefault "title" .optionalText (·.title) none
    |>.withDefault "description" .optionalText (·.description) none
    |>.withDefault "priority" .optionalText (·.priority) none
    |>.withDefault "status" .optionalText (·.status) none
    |>.withDefault "due_date" .optionalText (·.dueDate) none
    |>.withDefault "assignee_usernames" .texts (·.assigneeUsernames) []
    |>.withDefault "label_names" .texts (·.labelNames) []

def WorkItemUpdateDraft.codec : Codec WorkItemUpdateDraft :=
  WorkItemUpdateDraft.model.codec (by simp [WorkItemUpdateDraft.model]) (fun _ => True) id
    (by simp [WorkItemUpdateDraft.model]) fun _ => rfl

@[simp] theorem WorkItemUpdateDraft.codec_fits (draft : WorkItemUpdateDraft) :
    WorkItemUpdateDraft.codec.Fits draft := trivial

@[simp] theorem WorkItemUpdateDraft.codec_sorted : WorkItemUpdateDraft.codec.sorted = id := rfl

def PlannedAction.model : Model PlannedAction PlannedAction :=
  Model.make PlannedAction.mk
    |>.withDefault "action_id" .text (·.actionId) format.freshId
    |>.required "plan_id" .text (·.planId)
    |>.required "action_type" .text (·.actionType)
    |>.required "tool_name" .text (·.toolName)
    |>.required "instruction" .text (·.instruction)
    |>.withDefault "input" .fields (·.input) []
    |>.withDefault "work_items" WorkItemDraft.codec.list (·.workItems) []
    |>.withDefault "work_item_updates" WorkItemUpdateDraft.codec.list (·.workItemUpdates) []
    |>.withDefault "target_item_ids" .texts (·.targetItemIds) []
    |>.withDefault "depends_on" .texts (·.dependsOn) []
    |>.withDefault "requires_approval" (.flag format.laxBool) (·.requiresApproval) false
    |>.withDefault "status" .actionStatus (·.status) .pending
    |>.required "idempotency_key" .text (·.idempotencyKey)
    |>.withDefault "expected_entity_versions" (Codec.version format).dict
      (·.expectedEntityVersions) []
    |>.passing "created_at" (.time format) (fun action => (format.actionTimes action).1) format.now
    |>.passing "updated_at" (.time format) (fun action => (format.actionTimes action).2) format.now

def PlannedAction.sorted (action : PlannedAction) : PlannedAction :=
  { action with
    input := sortedFields action.input
    expectedEntityVersions := Dict.byKey action.expectedEntityVersions }

@[simp] theorem PlannedAction.sorted_sorted (action : PlannedAction) :
    action.sorted.sorted = action.sorted := by
  simp [PlannedAction.sorted]

def PlannedAction.codec : Codec PlannedAction :=
  (PlannedAction.model format).codec (by simp [PlannedAction.model]) (fun _ => True)
    PlannedAction.sorted (by simp [PlannedAction.model, PlannedAction.sorted])
    PlannedAction.sorted_sorted

@[simp] theorem PlannedAction.codec_fits (action : PlannedAction) :
    (PlannedAction.codec format).Fits action := trivial

@[simp] theorem PlannedAction.codec_sorted :
    (PlannedAction.codec format).sorted = PlannedAction.sorted := rfl

def AgentPlan.model : Model AgentPlan AgentPlan :=
  Model.make AgentPlan.mk
    |>.withDefault "plan_id" .text (·.planId) format.freshId
    |>.withDefault "parent_run_id" .optionalText (·.parentRunId) none
    |>.withDefault "node_id" .optionalText (·.nodeId) none
    |>.required "source_event_id" .text (·.sourceEventId)
    |>.required "workspace_id" .text (·.workspaceId)
    |>.required "project_id" .optionalText (·.projectId)
    |>.required "goal" .text (·.goal)
    |>.required "prompt_id" .text (·.promptId)
    |>.required "prompt_version" .text (·.promptVersion)
    |>.withDefault "skill_ids" .texts (·.skillIds) []
    |>.withDefault "tool_names" .texts (·.toolNames) []
    |>.withDefault "actions" (PlannedAction.codec format).list (·.actions) []
    |>.withDefault "status" .planStatus (·.status) .planned
    |>.required "context_snapshot_ref" .text (·.contextSnapshotRef)
    |>.passing "created_at" (.time format) (fun plan => (format.planTimes plan).1) format.now
    |>.passing "updated_at" (.time format) (fun plan => (format.planTimes plan).2) format.now

def AgentPlan.sorted (plan : AgentPlan) : AgentPlan :=
  { plan with actions := plan.actions.map PlannedAction.sorted }

@[simp] theorem AgentPlan.sorted_sorted (plan : AgentPlan) : plan.sorted.sorted = plan.sorted := by
  simp [AgentPlan.sorted]

def AgentPlan.codec : Codec AgentPlan :=
  (AgentPlan.model format).codec (by simp [AgentPlan.model]) (fun _ => True) AgentPlan.sorted
    (by simp [AgentPlan.model, AgentPlan.sorted]) AgentPlan.sorted_sorted

end Plans

end PrismAgent
