import PrismAgent.RunIdentity.Runs
import PrismAgent.Wire.Invocations

/-!
# From one invocation to the next

An envelope that is published is handled by the next invocation as it was, however the trigger
delivers its text; an envelope that an invocation accepts can be published again.
-/

namespace PrismAgent

open Effect JsonText

namespace OciFunctionEntry

section Handled

variable {τ : Type} (settings : FunctionSettings τ) {defaults : Defaults τ} {fields : Fields}
  {data : InvocationData} {payload : Json}

/-- What is accepted as an envelope is no pointer. -/
theorem isFeatureProvisioningPointer_of_modelValidate {stamped : Stamped τ}
    (h : modelValidate settings.pydantic defaults fields = some stamped) :
    isFeatureProvisioningPointer fields = false := by
  have hnone : fields.lookup "type" = none := by
    rw [List.lookup_eq_none_iff]
    intro field hfield
    have hname := List.all_eq_true.1 (hasOnly_of_modelValidate h) field hfield
    rw [bne_iff_ne]
    intro htype
    rw [← htype] at hname
    exact absurd hname (by decide)
  unfold isFeatureProvisioningPointer
  rw [hnone]
  rfl

theorem process_of_modelValidate {stamped : Stamped τ}
    (h : modelValidate settings.pydantic defaults fields = some stamped) :
    process settings defaults fields = processEnvelope settings stamped.envelope := by
  unfold process
  rw [isFeatureProvisioningPointer_of_modelValidate settings h, h]
  rfl

theorem content_of_carries {canon : String → String} {content : Fields}
    (hdata : decodePayload canon data = .ok payload) (hcarries : Carries canon content payload) :
    OciFunctionEntry.content canon data = .ok content := by
  unfold OciFunctionEntry.content
  rw [hdata]
  exact hcarries.queueMessageContent

/-- The content of an invocation is what its data carries. -/
theorem carries_of_content {canon : String → String} {content : Fields}
    (h : OciFunctionEntry.content canon data = .ok content) :
    ∃ payload, decodePayload canon data = .ok payload ∧ Carries canon content payload := by
  unfold OciFunctionEntry.content at h
  cases hdata : decodePayload canon data with
  | error x =>
      rw [hdata] at h
      cases h
  | ok payload =>
      rw [hdata] at h
      exact ⟨payload, rfl, carries_of_queueMessageContent h⟩

theorem handler_of_content {content : Fields}
    (h : OciFunctionEntry.content settings.canon data = .ok content) :
    handler settings defaults data = process settings defaults content := by
  unfold handler
  rw [h]
  rfl

/-- The text of an envelope is validated to the envelope. -/
theorem modelValidate_of_published (hpydantic : settings.pydantic.Lawful) {stamped : Stamped τ}
    (hsend : stamped.envelope.Sendable settings.canon) {content : Fields}
    (htext : loads settings.canon (stamped.modelDumpJson settings.pydantic) =
      some (.obj content)) :
    modelValidate settings.pydantic defaults content = some stamped := by
  obtain rfl : stamped.modelDump settings.pydantic = content :=
    Json.obj.inj (Option.some.inj ((loads_modelDumpJson hsend).symm.trans htext))
  exact modelValidate_modelDump defaults hpydantic stamped

end Handled

section Accepted

variable {canon : String → String} {F : String → Prop} {content : Fields} {payload : Json}

/-- What a proper message carries is proper. -/
theorem Carries.proper (h : Carries canon content payload)
    (hpayload : Proper (ReadFloat canon) payload) : Proper (ReadFloat canon) (.obj content) := by
  induction h with
  | bare => exact hpayload
  | text _ _ _ _ htext => exact proper_of_loads htext
  | object _ _ _ hkey => exact proper_of_lookup hpayload hkey
  | list _ ih => exact ih hpayload.1
  | messages hwrapped _ ih =>
      have hlist : Proper (ReadFloat canon) (.arr [_]) :=
        proper_of_lookup hpayload (lookup_of_wrapped hwrapped)
      exact ih hlist.1

theorem proper_of_decodePayload {data : InvocationData} (hdata : data.IsText)
    (h : decodePayload canon data = .ok payload) : Proper (ReadFloat canon) payload := by
  have hloads : ∀ text, jsonLoads canon text = .ok payload → Proper (ReadFloat canon) payload := by
    intro text htext
    unfold jsonLoads at htext
    split at htext
    next v hv =>
      obtain rfl := Except.ok.inj htext
      exact proper_of_loads hv
    next => cases htext
  cases data with
  | dict fields => exact hdata.elim
  | text text => exact hloads text h
  | bytes b =>
      unfold decodePayload at h
      dsimp only at h
      split at h
      next => exact hloads _ h
      next => cases h

/-- An envelope that was accepted from a text and holds no float that is no number can be
sent. -/
theorem sendable_of_modelValidate {τ : Type} (settings : FunctionSettings τ)
    {defaults : Defaults τ} (hpydantic : settings.pydantic.Lawful)
    (hcanon : Prints settings.canon) {data : InvocationData} (hdata : data.IsText)
    (hcontent : OciFunctionEntry.content settings.canon data = .ok content)
    {stamped : Stamped τ}
    (h : modelValidate settings.pydantic defaults content = some stamped)
    (hfinite : Proper IsFinite (.obj stamped.envelope.event.payload)) :
    stamped.envelope.Sendable settings.canon := by
  obtain ⟨payload, hdecode, hcarries⟩ := carries_of_content hcontent
  have hread := proper_of_modelValidate hpydantic
    (hcarries.proper (proper_of_decodePayload hdata hdecode)) h
  refine ⟨?_, hread.depth, hread.attempt⟩
  exact Proper.imp₂ (fun repr => keeps_of_isFinite hcanon .modelDump) hread.payload hfinite

end Accepted

section Published

variable {τ : Type} (settings : FunctionSettings τ)

/-- The data delivers the text of a message. -/
def DeliveredAs (canon : String → String) (text : String) (data : InvocationData) : Prop :=
  ∃ content payload, loads canon text = some (.obj content) ∧
    decodePayload canon data = .ok payload ∧ Carries canon content payload

/-- The content of a delivery of a published envelope is validated to it. -/
theorem content_of_published (hpydantic : settings.pydantic.Lawful) {stamped : Stamped τ}
    (hsend : stamped.envelope.Sendable settings.canon) {data : InvocationData}
    (hdata : DeliveredAs settings.canon (stamped.modelDumpJson settings.pydantic) data)
    (defaults : Defaults τ) :
    ∃ content, OciFunctionEntry.content settings.canon data = .ok content ∧
      modelValidate settings.pydantic defaults content = some stamped := by
  obtain ⟨content, payload, htext, hdecode, hcarries⟩ := hdata
  exact ⟨content, content_of_carries hdecode hcarries,
    modelValidate_of_published settings hpydantic hsend htext⟩

/-- A published envelope is handled as it was, however its text is delivered. -/
theorem published_handled (hpydantic : settings.pydantic.Lawful) {stamped : Stamped τ}
    (hsend : stamped.envelope.Sendable settings.canon) {data : InvocationData}
    (hdata : DeliveredAs settings.canon (stamped.modelDumpJson settings.pydantic) data)
    (defaults : Defaults τ) :
    handler settings defaults data = processEnvelope settings stamped.envelope := by
  obtain ⟨content, hcontent, hvalid⟩ :=
    content_of_published settings hpydantic hsend hdata defaults
  rw [handler_of_content settings hcontent, process_of_modelValidate settings hvalid]

/-- What an invocation accepts as an envelope is handled again in the same way when it is
published and delivered, whatever its new stamps. -/
theorem accepted_handled_again (hpydantic : settings.pydantic.Lawful)
    (hcanon : Prints settings.canon) {data : InvocationData} (hdata : data.IsText)
    {content : Fields} (hcontent : OciFunctionEntry.content settings.canon data = .ok content)
    {defaults : Defaults τ} {stamped : Stamped τ}
    (hvalid : modelValidate settings.pydantic defaults content = some stamped)
    (hfinite : Proper IsFinite (.obj stamped.envelope.event.payload)) {again : Stamped τ}
    (hsame : again.envelope = stamped.envelope) {data' : InvocationData}
    (hdata' : DeliveredAs settings.canon (again.modelDumpJson settings.pydantic) data')
    (defaults' : Defaults τ) :
    handler settings defaults' data' = handler settings defaults data := by
  have hsend : again.envelope.Sendable settings.canon :=
    hsame ▸ sendable_of_modelValidate settings hpydantic hcanon hdata hcontent hvalid hfinite
  obtain ⟨content', hcontent', hvalid'⟩ :=
    content_of_published settings hpydantic hsend hdata' defaults'
  rw [handler_of_content settings hcontent', process_of_modelValidate settings hvalid', hsame,
    handler_of_content settings hcontent, process_of_modelValidate settings hvalid]

end Published

section Samples

def sampleSettings : FunctionSettings String where
  registries := orchestratedRegistries
  maxRecursionDepth := 10
  payloadStore _ _ := .error (.keyError "Payload object not found")
  pydantic := textPydantic
  canon repr := repr

def sampleStamped : Stamped String where
  envelope :=
    .wrap { correlatedSeed.event with payload := [("points", .float "2.5"), ("title", .str "Ä\n")] }
  envelopeId := "envelope"
  occurredAt := "2026-01-01T00:00:00Z"
  receivedAt := "2026-01-01T00:00:01Z"

theorem sendable_sampleStamped : sampleStamped.envelope.Sendable sampleSettings.canon := by
  have hkeys : ["points", "title"].Nodup := by decide
  have hfloat : FloatText sampleSettings.canon "2.5" := ⟨by decide, rfl⟩
  exact ⟨⟨hkeys, hfloat, trivial, trivial⟩, short_zero, short_zero⟩

/-- A batch of one message that holds the text, in UTF-8. -/
def batchOf (text : String) : InvocationData :=
  .bytes (dumps .dumps (.arr [.obj [("content", .str text)]])).toByteArray

theorem deliveredAs_batchOf {canon : String → String} {text : String} {content : Fields}
    (h : loads canon text = some (.obj content)) : DeliveredAs canon text (batchOf text) := by
  refine ⟨content, .arr [.obj [("content", .str text)]], h, ?_, .list ?_⟩
  · have hproper : Proper (Style.dumps.Keeps canon) (.arr [.obj [("content", .str text)]]) :=
      ⟨⟨List.nodup_singleton _, trivial, trivial⟩, trivial⟩
    have hutf8 : ∀ s : String, String.fromUTF8? s.toByteArray = some s := fun s =>
      dif_pos s.isValidUTF8
    unfold batchOf decodePayload
    simp only [hutf8, jsonLoads, loads_dumps hproper]
  · have hkeys : CONTENT_KEYS = [] ++ "content" :: ["body", "message"] := rfl
    exact .text rfl hkeys (List.forall_mem_nil _) rfl h

theorem published_handled_sample :
    handler sampleSettings ⟨"", "", "", ""⟩
        (batchOf (sampleStamped.modelDumpJson textPydantic)) =
      processEnvelope sampleSettings sampleStamped.envelope :=
  published_handled sampleSettings lawful_textPydantic sendable_sampleStamped
    (deliveredAs_batchOf (loads_modelDumpJson sendable_sampleStamped)) _

theorem prints_id : Prints fun repr => repr := by
  intro token repr htoken h
  have hrepr : repr = String.ofList token := by
    unfold readNumber at h
    dsimp only at h
    split at h
    next => cases h
    next =>
      split at h
      next => split at h <;> cases h
      next =>
        split at h
        next => exact (Json.float.inj (Option.some.inj h)).symm
        next => cases h
  subst hrepr
  refine .inr ⟨?_, ?_⟩
  · rwa [String.toList_ofList]
  · rwa [String.toList_ofList]

/-- The sample envelope with new stamps. -/
def restamped : Stamped String where
  envelope := sampleStamped.envelope
  envelopeId := "again"
  occurredAt := "2026-01-02T00:00:00Z"
  receivedAt := "2026-01-02T00:00:01Z"

theorem accepted_handled_again_sample :
    handler sampleSettings ⟨"", "", "", ""⟩ (batchOf (restamped.modelDumpJson textPydantic)) =
      handler sampleSettings ⟨"", "", "", ""⟩
        (batchOf (sampleStamped.modelDumpJson textPydantic)) := by
  have htext : loads sampleSettings.canon (sampleStamped.modelDumpJson textPydantic) =
      some (.obj (sampleStamped.modelDump textPydantic)) :=
    loads_modelDumpJson sendable_sampleStamped
  have hsame : restamped.envelope = sampleStamped.envelope := rfl
  have hsend : restamped.envelope.Sendable sampleSettings.canon :=
    hsame ▸ sendable_sampleStamped
  have hagain : DeliveredAs sampleSettings.canon (restamped.modelDumpJson textPydantic)
      (batchOf (restamped.modelDumpJson textPydantic)) :=
    deliveredAs_batchOf (loads_modelDumpJson hsend)
  have hdata : (batchOf (sampleStamped.modelDumpJson textPydantic)).IsText := trivial
  obtain ⟨content, payload, hloads, hdecode, hcarries⟩ := deliveredAs_batchOf htext
  have hcontent := content_of_carries hdecode hcarries
  have hvalid : modelValidate textPydantic ⟨"", "", "", ""⟩ content = some sampleStamped :=
    modelValidate_of_published sampleSettings lawful_textPydantic sendable_sampleStamped hloads
  have hkeys : ["points", "title"].Nodup := by decide
  have hfinite : Proper IsFinite (.obj sampleStamped.envelope.event.payload) :=
    ⟨hkeys, rfl, trivial, trivial⟩
  exact accepted_handled_again sampleSettings lawful_textPydantic prints_id hdata hcontent hvalid
    hfinite hsame hagain _

end Samples

end OciFunctionEntry

end PrismAgent
