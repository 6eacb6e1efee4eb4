import PrismAgent.State.Records

/-!
# The text of a state record

`_persist_state_memory` writes a record as JSON text with sorted keys; `_load_state_memories`
decodes the text, looks at its schema and its kind and validates the object. What is loaded is
the record with all of its dictionaries in the order of their keys, and such a record is loaded
as it is, as long as its floats are numbers: others are dumped as `null`.
-/

namespace PrismAgent

open JsonText

namespace StateRecord

variable {τ : Type} (format : RecordFormat τ)

def STATE_SCHEMA : String := "prism_agent_state.v1"

def dump : StateRecord → Fields
  | .plan p => [("kind", .str "plan"), ("plan", (AgentPlan.codec format).dump p)]
  | .contextSnapshot snapshot =>
      [("kind", .str "context_snapshot"),
        ("snapshot", (ContextSnapshot.codec format).dump snapshot)]
  | .actionResult result =>
      [("kind", .str "action_result"), ("result", (ToolResult.codec format).dump result)]
  | .taskGraph graph =>
      [("kind", .str "task_graph"), ("graph", (TaskGraph.codec format).dump graph)]
  | .subAgentResult runId result =>
      [("kind", .str "sub_agent_result"), ("run_id", .str runId),
        ("result", SubAgentResult.codec.dump result)]
  | .idempotencyKey key => [("kind", .str "idempotency_key"), ("key", .str key)]

/-- The record with its schema, its object as `model_dump(mode="json")` dumps it. -/
def modelDump (record : StateRecord) : Fields :=
  ("schema", .str STATE_SCHEMA) :: jsonModeFields (record.dump format)

/-- The content of the memory that holds a record. -/
def content (record : StateRecord) : String :=
  dumps .dumps (Json.obj (record.modelDump format)).sortKeys

/-- `_decode_state_record`. -/
def decodeStateRecord (canon : String → String) : Json → Option Fields
  | .str text =>
      if strip text = "" then none
      else
        match loads canon text with
        | some (.obj fields) =>
            if (fields.lookup "schema").bind Json.asStr? = some STATE_SCHEMA then some fields
            else none
        | _ => none
  | _ => none

/-- The record that `_load_state_memories` takes from a decoded one. The run id of a result
that is no text is one that no run has. -/
def validate (fields : Fields) : Option StateRecord :=
  match (fields.lookup "kind").bind Json.asStr? with
  | some "plan" => (required fields "plan" (AgentPlan.codec format).validate).map .plan
  | some "context_snapshot" =>
      (required fields "snapshot" (ContextSnapshot.codec format).validate).map .contextSnapshot
  | some "action_result" =>
      (required fields "result" (ToolResult.codec format).validate).map .actionResult
  | some "task_graph" =>
      (required fields "graph" (TaskGraph.codec format).validate).map .taskGraph
  | some "sub_agent_result" => do
      let result ← required fields "result" SubAgentResult.codec.validate
      match fields.lookup "run_id" with
      | some (.str runId) => return .subAgentResult runId result
      | some v => if v.truthy then none else return .subAgentResult "" result
      | none => return .subAgentResult "" result
  | some "idempotency_key" => (required fields "key" Json.asStr?).map .idempotencyKey
  | _ => none

/-- The record of a memory with the given content. -/
def load (canon : String → String) (content : Json) : Option StateRecord :=
  (decodeStateRecord canon content).bind (validate format)

/-- The dictionaries of a record in the order of their keys. -/
def sorted : StateRecord → StateRecord
  | .plan p => .plan p.sorted
  | .contextSnapshot snapshot => .contextSnapshot snapshot.sorted
  | .actionResult result => .actionResult result.sorted
  | .taskGraph graph => .taskGraph graph
  | .subAgentResult runId result => .subAgentResult runId result.sorted
  | .idempotencyKey key => .idempotencyKey key

/-- A snapshot lists objects where its class does. -/
def ListsObjects : StateRecord → Prop
  | .contextSnapshot snapshot => snapshot.context.ListsObjects
  | _ => True

theorem sorted_sorted (record : StateRecord) : record.sorted.sorted = record.sorted := by
  cases record with
  | plan p => exact congrArg StateRecord.plan p.sorted_sorted
  | contextSnapshot snapshot => exact congrArg StateRecord.contextSnapshot snapshot.sorted_sorted
  | actionResult result => exact congrArg StateRecord.actionResult result.sorted_sorted
  | subAgentResult runId result =>
      exact congrArg (StateRecord.subAgentResult runId) result.sorted_sorted
  | taskGraph | idempotencyKey => rfl

section Load

variable {format} {canon : String → String} {record : StateRecord}

theorem keys_dump_nodup (record : StateRecord) : (Dict.keys (record.dump format)).Nodup := by
  cases record <;> simp [dump, Dict.keys]

theorem keys_modelDump_nodup (record : StateRecord) :
    (Dict.keys (record.modelDump format)).Nodup := by
  change ("schema" :: Dict.keys (jsonModeFields (record.dump format))).Nodup
  rw [keys_jsonModeFields]
  cases record <;> simp [dump, Dict.keys]

/-- The floats of the record are numbers that are printed. -/
def Finite (format : RecordFormat τ) (canon : String → String) (record : StateRecord) : Prop :=
  Proper (Style.modelDump.Keeps canon) (.obj (record.dump format))

theorem Finite.modelDump (h : record.Finite format canon) :
    record.modelDump format = ("schema", .str STATE_SCHEMA) :: record.dump format :=
  congrArg (("schema", Json.str STATE_SCHEMA) :: ·)
    (jsonModeFields_eq (fun _ hkeeps => (isFinite_of_keeps hkeeps).1) h.2)

/-- The text keeps the dumped record. -/
theorem Finite.proper (h : record.Finite format canon) :
    Proper (Style.dumps.Keeps canon) (.obj (record.modelDump format)) := by
  have hdump : Proper (Style.dumps.Keeps canon) (.obj (record.dump format)) :=
    Proper.imp₂ (fun _ hkeeps _ => (isFinite_of_keeps hkeeps).2) h h
  have hkeys := @keys_modelDump_nodup τ format record
  rw [h.modelDump] at hkeys ⊢
  exact ⟨hkeys, trivial, hdump.2⟩

/-- A written object is not blank. -/
theorem strip_dumps_obj_ne_empty (style : Style) (fields : Fields) :
    strip (dumps style (.obj fields)) ≠ "" := by
  refine strip_ne_empty_iff.2 ⟨'\x7b', ?_, by decide⟩
  unfold dumps
  rw [String.toList_ofList]
  cases fields with
  | nil => rw [write]; exact List.mem_cons_self
  | cons field fields => rw [write]; exact List.mem_cons_self

/-- The content of a record is decoded to its fields. -/
theorem decodeStateRecord_content (hfinite : record.Finite format canon) :
    decodeStateRecord canon (.str (record.content format)) =
      some (sortedFields (record.modelDump format)) := by
  have hloads := loads_dumps (Json.proper_sortKeys hfinite.proper)
  have hschema : (sortedFields (record.modelDump format)).lookup "schema" =
      some (.str STATE_SCHEMA) := by
    rw [lookup_sortedFields (keys_modelDump_nodup record)]
    rfl
  unfold decodeStateRecord content
  rw [Json.sortKeys_obj] at *
  simp only [strip_dumps_obj_ne_empty, if_false, hloads, hschema]
  rfl

/-- The fields of a record are validated to the record. -/
theorem validate_sortedFields (h : record.ListsObjects) (hfinite : record.Finite format canon) :
    validate format (sortedFields (record.modelDump format)) = some record.sorted := by
  have hlookup := lookup_sortedFields (@keys_modelDump_nodup τ format record)
  rw [hfinite.modelDump] at hlookup ⊢
  unfold validate required
  simp only [hlookup]
  cases record with
  | plan p =>
      have hvalid : (AgentPlan.codec format).validate ((AgentPlan.codec format).dump p).sortKeys =
          some p.sorted := (AgentPlan.codec format).validate_sortKeys trivial
      simp [dump, List.lookup_cons, Json.asStr?, hvalid, sorted]
  | contextSnapshot snapshot =>
      have hvalid : (ContextSnapshot.codec format).validate
          ((ContextSnapshot.codec format).dump snapshot).sortKeys = some snapshot.sorted :=
        (ContextSnapshot.codec format).validate_sortKeys h
      simp [dump, List.lookup_cons, Json.asStr?, hvalid, sorted]
  | actionResult result =>
      have hvalid : (ToolResult.codec format).validate
          ((ToolResult.codec format).dump result).sortKeys = some result.sorted :=
        (ToolResult.codec format).validate_sortKeys trivial
      simp [dump, List.lookup_cons, Json.asStr?, hvalid, sorted]
  | taskGraph graph =>
      have hvalid : (TaskGraph.codec format).validate
          ((TaskGraph.codec format).dump graph).sortKeys = some graph :=
        (TaskGraph.codec format).validate_sortKeys trivial
      simp [dump, List.lookup_cons, Json.asStr?, hvalid, sorted]
  | subAgentResult runId result =>
      have hvalid : SubAgentResult.codec.validate (SubAgentResult.codec.dump result).sortKeys =
          some result.sorted := SubAgentResult.codec.validate_sortKeys trivial
      simp [dump, List.lookup_cons, Json.asStr?, hvalid, sorted]
  | idempotencyKey key => simp [dump, List.lookup_cons, Json.asStr?, sorted]

/-- What is loaded from the memory of a record is the record in the order of its keys. -/
theorem load_content (hfits : record.ListsObjects) (hfinite : record.Finite format canon) :
    load format canon (.str (record.content format)) = some record.sorted := by
  unfold load
  rw [decodeStateRecord_content hfinite]
  exact validate_sortedFields hfits hfinite

/-- A record of any kind whose floats are numbers, written and loaded, comes back with its
dictionaries in the order of their keys, and that is the only change that writing it ever
makes. -/
theorem written_record_loaded (hfits : record.ListsObjects)
    (hfinite : record.Finite format canon) :
    load format canon (.str (record.content format)) = some record.sorted ∧
      record.sorted.sorted = record.sorted :=
  ⟨load_content hfits hfinite, sorted_sorted record⟩

end Load

section Finite

variable (canon : String → String)

/-- It keeps the result of a sub-agent if it keeps the output. -/
theorem finite_subAgentResult (runId : String) {result : SubAgentResult}
    (h : Proper (Style.modelDump.Keeps canon) (.obj result.structuredOutput)) :
    (subAgentResult runId result).Finite format canon :=
  ⟨keys_dump_nodup _, trivial, trivial, (SubAgentResult.codec_proper _ result).2 h, trivial⟩

end Finite

/-- The output of a sub-agent comes back in the order of its keys. -/
theorem written_record_loaded_sample :
    load (textFormat "now") id (.str ((subAgentResult "run" ⟨"node", ["skill"], "done",
        [("b", .int 1), ("a", .str "x")], .completed⟩).content (textFormat "now"))) =
      some (subAgentResult "run" ⟨"node", ["skill"], "done",
        [("a", .str "x"), ("b", .int 1)], .completed⟩) := by
  have houtput : Proper (Style.modelDump.Keeps id) (.obj [("b", .int 1), ("a", .str "x")]) :=
    ⟨by decide, by unfold Proper; decide, trivial, trivial⟩
  have hrecord : (subAgentResult "run" ⟨"node", ["skill"], "done",
      [("b", .int 1), ("a", .str "x")], .completed⟩).ListsObjects := trivial
  rw [(written_record_loaded hrecord (finite_subAgentResult _ id "run" houtput)).1]
  simp [sorted, SubAgentResult.sorted, sortedFields, Dict.byKey, Json.sortKeys]

end StateRecord

end PrismAgent
