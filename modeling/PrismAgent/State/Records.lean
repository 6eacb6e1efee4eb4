import PrismAgent.State.RecordFormat

/-!
# The state records

The record that a state store puts into a memory, and how a memory is read: the text of the
record, with its schema, its kind and the dumped object.
-/

namespace PrismAgent

variable {τ : Type} (format : RecordFormat τ)

section Envelopes

/-- The two objects have the same values under the same names. -/
structure SameFields (fields fields' : Fields) : Prop where
  lookup : ∀ name, fields.lookup name = fields'.lookup name
  hasOnly : ∀ names, hasOnly names fields = hasOnly names fields'

/-- Sorting an object moves its fields. -/
theorem sameFields_sortedFields {fields : Fields} (h : (Dict.keys fields).Nodup) :
    SameFields (sortedFields fields) (fields.map fun field => (field.1, field.2.sortKeys)) where
  lookup name := by rw [lookup_sortedFields h, Dict.lookup_map]
  hasOnly names := (Dict.byKey_perm _).all_eq

namespace SameFields

variable {α : Type} {fields fields' : Fields} (h : SameFields fields fields')

include h

theorem required (name : String) (read : Json → Option α) :
    PrismAgent.required fields name read = PrismAgent.required fields' name read := by
  unfold PrismAgent.required
  rw [h.lookup]

theorem withDefault (name : String) (read : Json → Option α) (default : α) :
    PrismAgent.withDefault fields name read default =
      PrismAgent.withDefault fields' name read default := by
  unfold PrismAgent.withDefault
  rw [h.lookup]

theorem validateCausality (pydantic : Pydantic τ) :
    PrismAgent.validateCausality pydantic (.obj fields) =
      PrismAgent.validateCausality pydantic (.obj fields') := by
  simp only [PrismAgent.validateCausality, h.hasOnly, h.withDefault]

theorem eventClass_read {eventClass : EventClass} (hclass : eventClass ∈ eventClasses) :
    eventClass.read fields = eventClass.read fields' := by
  simp only [eventClasses, List.mem_cons, List.not_mem_nil, or_false] at hclass
  rcases hclass with rfl | rfl | rfl | rfl | rfl | rfl <;>
    simp only [h.required, h.withDefault]

theorem validateEvent (pydantic : Pydantic τ) (defaults : Defaults τ) :
    PrismAgent.validateEvent pydantic defaults (.obj fields) =
      PrismAgent.validateEvent pydantic defaults (.obj fields') := by
  simp only [PrismAgent.validateEvent, h.required, Option.bind_eq_bind]
  refine Option.bind_congr fun kind _ => Option.bind_congr fun eventClass hfind => ?_
  have hread := h.eventClass_read (List.mem_of_find?_eq_some hfind)
  simp only [EventClass.validate, EventClass.readEventType, hread, h.hasOnly, h.required,
    h.withDefault, Option.bind_eq_bind]

theorem modelValidate (pydantic : Pydantic τ) (defaults : Defaults τ) :
    PrismAgent.modelValidate pydantic defaults fields =
      PrismAgent.modelValidate pydantic defaults fields' := by
  simp only [PrismAgent.modelValidate, h.hasOnly, h.required, h.withDefault]

end SameFields

variable {pydantic : Pydantic τ} (defaults : Defaults τ)

theorem readText_sortKeys (text : Option String) :
    readText (dumpText text).sortKeys = some text := by
  cases text <;> rfl

theorem validateCausality_sortKeys (causality : EventCausality) :
    validateCausality pydantic causality.dump.sortKeys = some causality := by
  have hkeys : (Dict.keys [("root_event_id", dumpText causality.rootEventId),
      ("parent_event_id", dumpText causality.parentEventId), ("depth", .int causality.depth),
      ("chain", .arr (causality.chain.map .str))]).Nodup := by simp [Dict.keys]
  have hchain : causality.chain.map (Json.sortKeys ∘ Json.str) = causality.chain.map .str := rfl
  unfold EventCausality.dump
  rw [Json.sortKeys_obj, (sameFields_sortedFields hkeys).validateCausality]
  simp [validateCausality, hasOnly, causalityFieldNames, withDefault, List.lookup_cons,
    readText_sortKeys, hchain]

/-- The payload of an event is kept in the order of its keys, the other fields as they are. -/
theorem validateEvent_sortKeys (hpydantic : pydantic.Lawful) (event : RuntimeEvent)
    (occurredAt : τ) :
    validateEvent pydantic defaults (event.dump (pydantic.printTime occurredAt)).sortKeys =
      some ({ event with payload := sortedFields event.payload }, occurredAt) := by
  obtain ⟨fields, hdump, hkeys⟩ := event.exists_dump (pydantic.printTime occurredAt)
  rw [hdump, Json.sortKeys_obj, (sameFields_sortedFields hkeys).validateEvent]
  obtain ⟨kind, eventId, eventType, workspaceId, projectId, payload, correlationId, causality,
    idempotencyKey⟩ := event
  cases kind <;> cases hdump <;>
    simp [EventKind.dump, EventKind.name, validateEvent, eventClasses, EventClass.validate,
      EventClass.readEventType, eventFieldNames, hasOnly, required, withDefault, List.lookup_cons,
      Json.asStr?, Json.asObj?, validateCausality_sortKeys, readText_sortKeys,
      hpydantic.readTime_printTime]

namespace EventEnvelope

def sorted (envelope : EventEnvelope) : EventEnvelope :=
  { envelope with
    event := { envelope.event with payload := sortedFields envelope.event.payload } }

@[simp] theorem sorted_sorted (envelope : EventEnvelope) :
    envelope.sorted.sorted = envelope.sorted := by
  simp [sorted]

theorem modelValidate_sortedFields (hpydantic : pydantic.Lawful) (stamped : Stamped τ) :
    modelValidate pydantic defaults (sortedFields (stamped.modelDump pydantic)) =
      some { stamped with envelope := stamped.envelope.sorted } := by
  have hkeys : (Dict.keys (stamped.modelDump pydantic)).Nodup := by
    simp [Stamped.modelDump, Dict.keys]
  rw [(sameFields_sortedFields hkeys).modelValidate]
  simp [Stamped.modelDump, modelValidate, envelopeFieldNames, hasOnly, required, withDefault,
    List.lookup_cons, Json.asStr?, validateEvent_sortKeys defaults hpydantic,
    hpydantic.readTime_printTime, sorted]

def codec : Codec EventEnvelope where
  dump envelope := .obj ((format.stamped envelope).modelDump format.pydantic)
  validate
    | .obj fields =>
        (modelValidate format.pydantic format.defaults fields).map fun stamped => stamped.envelope
    | _ => none
  Fits _ := True
  sorted := sorted
  validate_sortKeys _ := by
    rw [Json.sortKeys_obj]
    dsimp only
    rw [modelValidate_sortedFields format.defaults format.lawful, format.stamped_envelope]
    rfl
  sorted_sorted := sorted_sorted

@[simp] theorem codec_fits (envelope : EventEnvelope) : (codec format).Fits envelope := trivial

@[simp] theorem codec_sorted : (codec format).sorted = sorted := rfl

end EventEnvelope

end Envelopes

section Results

namespace AgentSuggestion

def model : Model AgentSuggestion AgentSuggestion :=
  Model.make AgentSuggestion.mk
    |>.withDefault "suggestion_id" .text (·.suggestionId) format.freshId
    |>.required "workspace_id" .text (·.workspaceId)
    |>.withDefault "project_id" .optionalText (·.projectId) none
    |>.required "plan_id" .text (·.planId)
    |>.required "action_id" .text (·.actionId)
    |>.required "title" .text (·.title)
    |>.required "body" .text (·.body)
    |>.withDefault "target_entity_ref" .optionalText (·.targetEntityRef) none
    |>.withDefault "proposed_changes" .fields (·.proposedChanges) []
    |>.passing "created_at" (.time format) format.suggestionTime format.now

def sorted (suggestion : AgentSuggestion) : AgentSuggestion :=
  { suggestion with proposedChanges := sortedFields suggestion.proposedChanges }

@[simp] theorem sorted_sorted (suggestion : AgentSuggestion) :
    suggestion.sorted.sorted = suggestion.sorted := by
  simp [sorted]

def codec : Codec AgentSuggestion :=
  (model format).codec (by simp [model]) (fun _ => True) sorted (by simp [model, sorted])
    sorted_sorted

theorem codec_validate_null : (codec format).validate .null = none := rfl

@[simp] theorem codec_fits (suggestion : AgentSuggestion) : (codec format).Fits suggestion :=
  trivial

@[simp] theorem codec_sorted : (codec format).sorted = sorted := rfl

end AgentSuggestion

namespace ToolResult

def model : Model ToolResult ToolResult :=
  Model.make ToolResult.mk
    |>.withDefault "result_id" .text (·.resultId) format.freshId
    |>.required "plan_id" .text (·.planId)
    |>.required "action_id" .text (·.actionId)
    |>.required "tool_name" .text (·.toolName)
    |>.required "success" (.flag format.laxBool) (·.success)
    |>.withDefault "output" .fields (·.output) []
    |>.withDefault "error" .optionalText (·.error) none
    |>.withDefault "emitted_events" (EventEnvelope.codec format).list (·.emittedEvents) []
    |>.withDefault "suggestion"
      ((AgentSuggestion.codec format).optional (AgentSuggestion.codec_validate_null format))
      (·.suggestion) none
    |>.passing "created_at" (.time format) format.resultTime format.now

def sorted (result : ToolResult) : ToolResult :=
  { result with
    output := sortedFields result.output
    emittedEvents := result.emittedEvents.map EventEnvelope.sorted
    suggestion := result.suggestion.map AgentSuggestion.sorted }

@[simp] theorem sorted_sorted (result : ToolResult) : result.sorted.sorted = result.sorted := by
  have hsuggestion : AgentSuggestion.sorted ∘ AgentSuggestion.sorted = AgentSuggestion.sorted :=
    funext AgentSuggestion.sorted_sorted
  simp [sorted, hsuggestion]

def codec : Codec ToolResult :=
  (model format).codec (by simp [model]) (fun _ => True) sorted (by simp [model, sorted])
    sorted_sorted

end ToolResult

end Results

section Contexts

namespace AgentContext

def model : Model AgentContext AgentContext :=
  Model.make AgentContext.mk
    |>.required "workspace_id" .text (·.workspaceId)
    |>.required "project_id" .optionalText (·.projectId)
    |>.required "source_event" (EventEnvelope.codec format) (·.sourceEvent)
    |>.required "workflow_id" .text (·.workflowId)
    |>.withDefault "entities" .fields (·.entities) []
    |>.withDefault "retrieved_documents" .objects (·.retrievedDocuments) (.arr [])
    |>.withDefault "permissions" (Codec.flag format.laxBool).dict (·.permissions) []
    |>.withDefault "entity_versions" (Codec.version format).dict (·.entityVersions) []
    |>.withDefault "previous_agent_outputs" .objects (·.previousAgentOutputs) (.arr [])
    |>.withDefault "runtime_metadata" .fields (·.runtimeMetadata) []

/-- The documents and the outputs of other agents are lists of objects. -/
def ListsObjects (context : AgentContext) : Prop :=
  Codec.objects.Fits context.retrievedDocuments ∧ Codec.objects.Fits context.previousAgentOutputs

def sorted (context : AgentContext) : AgentContext :=
  { context with
    sourceEvent := context.sourceEvent.sorted
    entities := sortedFields context.entities
    retrievedDocuments := context.retrievedDocuments.sortKeys
    permissions := Dict.byKey context.permissions
    entityVersions := Dict.byKey context.entityVersions
    previousAgentOutputs := context.previousAgentOutputs.sortKeys
    runtimeMetadata := sortedFields context.runtimeMetadata }

@[simp] theorem sorted_sorted (context : AgentContext) :
    context.sorted.sorted = context.sorted := by
  simp [sorted, Json.sortKeys_sortKeys]

def codec : Codec AgentContext :=
  (model format).codec (by simp [model]) ListsObjects sorted
    (fun context h => by simpa [model, sorted, ListsObjects] using h) sorted_sorted

@[simp] theorem codec_fits : (codec format).Fits = ListsObjects := rfl

@[simp] theorem codec_sorted : (codec format).sorted = sorted := rfl

end AgentContext

namespace ContextSnapshot

def model : Model ContextSnapshot ContextSnapshot :=
  Model.make ContextSnapshot.mk
    |>.withDefault "snapshot_id" .text (·.snapshotId) format.freshId
    |>.withDefault "plan_id" .optionalText (·.planId) none
    |>.required "workspace_id" .text (·.workspaceId)
    |>.withDefault "project_id" .optionalText (·.projectId) none
    |>.required "workflow_id" .text (·.workflowId)
    |>.required "context" (AgentContext.codec format) (·.context)
    |>.passing "created_at" (.time format) format.snapshotTime format.now

def sorted (snapshot : ContextSnapshot) : ContextSnapshot :=
  { snapshot with context := snapshot.context.sorted }

@[simp] theorem sorted_sorted (snapshot : ContextSnapshot) :
    snapshot.sorted.sorted = snapshot.sorted := by
  simp [sorted]

def codec : Codec ContextSnapshot :=
  (model format).codec (by simp [model]) (fun snapshot => snapshot.context.ListsObjects) sorted
    (fun snapshot h => by simpa [model, sorted] using h) sorted_sorted

end ContextSnapshot

end Contexts

end PrismAgent
