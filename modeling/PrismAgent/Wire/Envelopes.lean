import PrismAgent.Domain.Events
import PrismAgent.JsonText.Models

/-!
# Envelopes on the wire

`EventEnvelope.model_dump_json` and `EventEnvelope.model_validate` of `domain/events.py`, with
the envelope ids and timestamps that the handlers never read. Unknown fields are forbidden, the
class of an event is told by its `kind`, and fields with a default may be absent.
-/

namespace PrismAgent

open JsonText

/-- What pydantic reads and prints: timestamps, and integers from values that are none. -/
structure Pydantic (τ : Type) where
  printTime : τ → String
  readTime : Json → Option τ
  laxInt : Json → Option ℤ

/-- A printed timestamp is read again, and no integer is read from a longer text than a number
may have. -/
structure Pydantic.Lawful {τ : Type} (pydantic : Pydantic τ) : Prop where
  readTime_printTime : ∀ t, pydantic.readTime (.str (pydantic.printTime t)) = some t
  laxInt_digits : ∀ v n, pydantic.laxInt v = some n →
    (Nat.toDigits 10 n.natAbs).length ≤ MAX_DIGITS

/-- Timestamps that are texts. -/
def textPydantic : Pydantic String where
  printTime t := t
  readTime := Json.asStr?
  laxInt _ := none

theorem lawful_textPydantic : textPydantic.Lawful where
  readTime_printTime _ := rfl
  laxInt_digits := by rintro v n ⟨⟩

/-- An envelope with its id and its timestamps. -/
structure Stamped (τ : Type) where
  envelope : EventEnvelope
  envelopeId : String
  occurredAt : τ
  receivedAt : τ

section Dump

/-- An optional text. -/
def dumpText : Option String → Json
  | some s => .str s
  | none => .null

def EventCausality.dump (causality : EventCausality) : Json :=
  .obj [("root_event_id", dumpText causality.rootEventId),
    ("parent_event_id", dumpText causality.parentEventId), ("depth", .int causality.depth),
    ("chain", .arr (causality.chain.map .str))]

/-- The fields of the class of an event. -/
def EventKind.dump : EventKind → Fields
  | .domain => []
  | .scheduled scheduleId => [("schedule_id", dumpText scheduleId)]
  | .manual actorId => [("actor_id", dumpText actorId)]
  | .agentAction planId actionId => [("plan_id", .str planId), ("action_id", .str actionId)]
  | .subagentTask planId nodeId => [("plan_id", .str planId), ("node_id", .str nodeId)]
  | .subagentCompleted planId nodeId status =>
      [("plan_id", .str planId), ("node_id", .str nodeId), ("status", .str status)]

def RuntimeEvent.dump (event : RuntimeEvent) (occurredAt : String) : Json :=
  .obj ([("kind", .str event.kind.name), ("event_id", .str event.eventId),
    ("event_type", .str event.eventType), ("workspace_id", .str event.workspaceId),
    ("project_id", dumpText event.projectId), ("payload", .obj event.payload),
    ("occurred_at", .str occurredAt), ("correlation_id", dumpText event.correlationId),
    ("causality", event.causality.dump), ("idempotency_key", dumpText event.idempotencyKey)] ++
    event.kind.dump)

variable {τ : Type} (pydantic : Pydantic τ)

/-- `model_dump(mode="json")` of an envelope. -/
def Stamped.modelDump (stamped : Stamped τ) : Fields :=
  [("envelope_id", .str stamped.envelopeId),
    ("event", stamped.envelope.event.dump (pydantic.printTime stamped.occurredAt)),
    ("received_at", .str (pydantic.printTime stamped.receivedAt)),
    ("attempt", .int stamped.envelope.attempt)]

/-- `model_dump_json`. -/
def Stamped.modelDumpJson (stamped : Stamped τ) : String :=
  dumps .modelDump (.obj (stamped.modelDump pydantic))

end Dump

section Validate

variable {τ : Type}

/-- `str | None`. -/
def readText : Json → Option (Option String)
  | .null => some none
  | .str s => some (some s)
  | _ => none

/-- `list[str]`. -/
def readTexts : Json → Option (List String)
  | .arr items => items.mapM Json.asStr?
  | _ => none

/-- `int`. Nothing that builds an envelope gives a counter below zero, which the field would
accept; here the counters are natural numbers. -/
def Pydantic.readCount (pydantic : Pydantic τ) : Json → Option ℕ
  | .int n => n.toNat?
  | v => (pydantic.laxInt v).bind Int.toNat?

/-- What the default factories of the model give. -/
structure Defaults (τ : Type) where
  envelopeId : String
  eventId : String
  occurredAt : τ
  receivedAt : τ

/-- An event class: its tag, its own fields, the default of its event type and how its fields
are read. -/
structure EventClass where
  kind : String
  fieldNames : List String
  eventType : Option String
  read : Fields → Option EventKind

def eventClasses : List EventClass :=
  [{ kind := "domain"
     fieldNames := []
     eventType := none
     read := fun _ => some .domain },
    { kind := "scheduled"
      fieldNames := ["schedule_id"]
      eventType := none
      read := fun fields => (withDefault fields "schedule_id" readText none).map .scheduled },
    { kind := "manual"
      fieldNames := ["actor_id"]
      eventType := none
      read := fun fields => (withDefault fields "actor_id" readText none).map .manual },
    { kind := "agent_action"
      fieldNames := ["plan_id", "action_id"]
      eventType := some "agent.action.requested"
      read := fun fields => do
        let planId ← required fields "plan_id" Json.asStr?
        let actionId ← required fields "action_id" Json.asStr?
        return .agentAction planId actionId },
    { kind := "subagent_task"
      fieldNames := ["plan_id", "node_id"]
      eventType := some "agent.subagent.requested"
      read := fun fields => do
        let planId ← required fields "plan_id" Json.asStr?
        let nodeId ← required fields "node_id" Json.asStr?
        return .subagentTask planId nodeId },
    { kind := "subagent_completed"
      fieldNames := ["plan_id", "node_id", "status"]
      eventType := some "agent.subagent.completed"
      read := fun fields => do
        let planId ← required fields "plan_id" Json.asStr?
        let nodeId ← required fields "node_id" Json.asStr?
        let status ← withDefault fields "status" Json.asStr? "completed"
        return .subagentCompleted planId nodeId status }]

/-- The fields that every event has. -/
def eventFieldNames : List String :=
  ["kind", "event_id", "event_type", "workspace_id", "project_id", "payload", "occurred_at",
    "correlation_id", "causality", "idempotency_key"]

def causalityFieldNames : List String := ["root_event_id", "parent_event_id", "depth", "chain"]

def envelopeFieldNames : List String := ["envelope_id", "event", "received_at", "attempt"]

variable (pydantic : Pydantic τ) (defaults : Defaults τ)

def validateCausality : Json → Option EventCausality
  | .obj fields =>
      if hasOnly causalityFieldNames fields then do
        let rootEventId ← withDefault fields "root_event_id" readText none
        let parentEventId ← withDefault fields "parent_event_id" readText none
        let depth ← withDefault fields "depth" pydantic.readCount 0
        let chain ← withDefault fields "chain" readTexts []
        return { rootEventId, parentEventId, depth, chain }
      else none
  | _ => none

/-- The event type, required where the class has no default. -/
def EventClass.readEventType (eventClass : EventClass) (fields : Fields) : Option String :=
  match eventClass.eventType with
  | none => required fields "event_type" Json.asStr?
  | some eventType => withDefault fields "event_type" Json.asStr? eventType

/-- The fields of an event of a class. -/
def EventClass.validate (eventClass : EventClass) (fields : Fields) :
    Option (RuntimeEvent × τ) :=
  if hasOnly (eventFieldNames ++ eventClass.fieldNames) fields then do
    let kind ← eventClass.read fields
    let eventId ← withDefault fields "event_id" Json.asStr? defaults.eventId
    let eventType ← eventClass.readEventType fields
    let workspaceId ← required fields "workspace_id" Json.asStr?
    let projectId ← withDefault fields "project_id" readText none
    let payload ← withDefault fields "payload" Json.asObj? []
    let occurredAt ← withDefault fields "occurred_at" pydantic.readTime defaults.occurredAt
    let correlationId ← withDefault fields "correlation_id" readText none
    let causality ← withDefault fields "causality" (validateCausality pydantic) {}
    let idempotencyKey ← withDefault fields "idempotency_key" readText none
    return ({ kind, eventId, eventType, workspaceId, projectId, payload, correlationId, causality,
              idempotencyKey }, occurredAt)
  else none

/-- The class is told by the `kind` of the event, which must be there. -/
def validateEvent : Json → Option (RuntimeEvent × τ)
  | .obj fields => do
      let kind ← required fields "kind" Json.asStr?
      let eventClass ← eventClasses.find? fun eventClass => eventClass.kind = kind
      eventClass.validate pydantic defaults fields
  | _ => none

/-- `EventEnvelope.model_validate`, with nothing for what it rejects. -/
def modelValidate (fields : Fields) : Option (Stamped τ) :=
  if hasOnly envelopeFieldNames fields then do
    let envelopeId ← withDefault fields "envelope_id" Json.asStr? defaults.envelopeId
    let (event, occurredAt) ← required fields "event" (validateEvent pydantic defaults)
    let receivedAt ← withDefault fields "received_at" pydantic.readTime defaults.receivedAt
    let attempt ← withDefault fields "attempt" pydantic.readCount 0
    return { envelope := { event, attempt }, envelopeId, occurredAt, receivedAt }
  else none

end Validate

section RoundTrip

variable {τ : Type} {pydantic : Pydantic τ} (defaults : Defaults τ)

@[simp] theorem readText_dumpText (s : Option String) : readText (dumpText s) = some s := by
  cases s <;> rfl

@[simp] theorem readTexts_map (texts : List String) :
    readTexts (.arr (texts.map .str)) = some texts := by
  change (texts.map Json.str).mapM Json.asStr? = some texts
  induction texts with
  | nil => rfl
  | cons s texts ih =>
      rw [List.map_cons, List.mapM_cons, ih]
      rfl

@[simp] theorem readCount_natCast (n : ℕ) : pydantic.readCount (.int n) = some n := rfl

theorem validateCausality_dump (causality : EventCausality) :
    validateCausality pydantic causality.dump = some causality := by
  simp [EventCausality.dump, validateCausality, causalityFieldNames, hasOnly, withDefault,
    List.lookup_cons]

/-- The class of the kind reads the fields that the kind dumps. -/
theorem validateEvent_dump (hpydantic : pydantic.Lawful) (event : RuntimeEvent)
    (occurredAt : τ) :
    validateEvent pydantic defaults (event.dump (pydantic.printTime occurredAt)) =
      some (event, occurredAt) := by
  obtain ⟨kind, eventId, eventType, workspaceId, projectId, payload, correlationId, causality,
    idempotencyKey⟩ := event
  cases kind <;>
    simp [RuntimeEvent.dump, EventKind.dump, EventKind.name, validateEvent, eventClasses,
      EventClass.validate, EventClass.readEventType, eventFieldNames, hasOnly, required,
      withDefault, List.lookup_cons, Json.asStr?, Json.asObj?, validateCausality_dump,
      hpydantic.readTime_printTime]

/-- A dumped envelope is validated to the envelope itself. -/
theorem modelValidate_modelDump (hpydantic : pydantic.Lawful) (stamped : Stamped τ) :
    modelValidate pydantic defaults (stamped.modelDump pydantic) = some stamped := by
  simp [Stamped.modelDump, modelValidate, envelopeFieldNames, hasOnly, required, withDefault,
    List.lookup_cons, Json.asStr?, validateEvent_dump defaults hpydantic,
    hpydantic.readTime_printTime]

end RoundTrip

section Sendable

variable {τ : Type} {pydantic : Pydantic τ} {defaults : Defaults τ} {canon : String → String}
  {F : String → Prop}

/-- The text of a natural number is not too long. -/
def Short (n : ℕ) : Prop := (Nat.toDigits 10 n).length ≤ MAX_DIGITS

/-- The parts of an envelope that a text may not keep: the values of its payload and its
counters. -/
structure EventEnvelope.Proper (F : String → Prop) (envelope : EventEnvelope) : Prop where
  payload : JsonText.Proper F (.obj envelope.event.payload)
  depth : Short envelope.event.causality.depth
  attempt : Short envelope.attempt

/-- The text of an envelope keeps all of it. -/
abbrev EventEnvelope.Sendable (canon : String → String) (envelope : EventEnvelope) : Prop :=
  envelope.Proper (Style.modelDump.Keeps canon)

theorem proper_dumpText (text : Option String) : Proper F (dumpText text) := by
  cases text <;> trivial

theorem EventCausality.proper_dump {causality : EventCausality} (h : Short causality.depth) :
    JsonText.Proper F causality.dump := by
  have hchain : ProperItems F (causality.chain.map .str) := by
    refine properItems_iff.2 fun item hitem => ?_
    obtain ⟨s, -, rfl⟩ := List.mem_map.1 hitem
    trivial
  have hkeys : causalityFieldNames.Nodup := by decide
  exact ⟨hkeys, proper_dumpText _, proper_dumpText _, h, hchain, trivial⟩

theorem EventKind.keys_dump (kind : EventKind) :
    Dict.keys kind.dump ∈ eventClasses.map (·.fieldNames) := by
  cases kind <;> simp [EventKind.dump, eventClasses, Dict.keys]

theorem EventKind.proper_dump (kind : EventKind) : ProperFields F kind.dump := by
  cases kind with
  | domain => trivial
  | scheduled scheduleId => exact ⟨proper_dumpText _, trivial⟩
  | manual actorId => exact ⟨proper_dumpText _, trivial⟩
  | agentAction | subagentTask => exact ⟨trivial, trivial, trivial⟩
  | subagentCompleted => exact ⟨trivial, trivial, trivial, trivial⟩

theorem properFields_append {d e : Fields} (hd : ProperFields F d) (he : ProperFields F e) :
    ProperFields F (d ++ e) := by
  rw [properFields_iff] at *
  exact List.forall_mem_append.2 ⟨hd, he⟩

/-- The fields of an event, under distinct names. -/
theorem RuntimeEvent.exists_dump (event : RuntimeEvent) (occurredAt : String) :
    ∃ fields, event.dump occurredAt = .obj fields ∧ (Dict.keys fields).Nodup := by
  have hkeys : ∀ names ∈ eventClasses.map (·.fieldNames), (eventFieldNames ++ names).Nodup := by
    decide
  exact ⟨_, rfl, hkeys _ event.kind.keys_dump⟩

theorem RuntimeEvent.proper_dump {event : RuntimeEvent} (occurredAt : String)
    (hpayload : Proper F (.obj event.payload)) (hdepth : Short event.causality.depth) :
    Proper F (event.dump occurredAt) := by
  refine ⟨?_, properFields_append ⟨trivial, trivial, trivial, trivial, proper_dumpText _,
    hpayload, trivial, proper_dumpText _, EventCausality.proper_dump hdepth,
    proper_dumpText _, trivial⟩ (EventKind.proper_dump event.kind)⟩
  have hkeys : ∀ names ∈ eventClasses.map (·.fieldNames), (eventFieldNames ++ names).Nodup := by
    decide
  exact hkeys _ event.kind.keys_dump

theorem Stamped.proper_modelDump {stamped : Stamped τ} (h : stamped.envelope.Proper F) :
    Proper F (.obj (stamped.modelDump pydantic)) := by
  have hkeys : envelopeFieldNames.Nodup := by decide
  exact ⟨hkeys, trivial, RuntimeEvent.proper_dump _ h.payload h.depth, trivial, h.attempt,
    trivial⟩

/-- The text of a sendable envelope is read as what was dumped. -/
theorem loads_modelDumpJson {stamped : Stamped τ} (h : stamped.envelope.Sendable canon) :
    loads canon (stamped.modelDumpJson pydantic) = some (.obj (stamped.modelDump pydantic)) :=
  loads_dumps (Stamped.proper_modelDump h)

end Sendable

section Accepted

variable {τ : Type} {pydantic : Pydantic τ} {defaults : Defaults τ} {F : String → Prop}
  {fields : Fields}

theorem proper_of_lookup (h : Proper F (.obj fields)) {name : String} {v : Json}
    (hv : fields.lookup name = some v) : Proper F v :=
  properFields_iff.1 h.2 _ ((Dict.lookup_eq_some_iff h.1).1 hv)

theorem short_of_readCount (hpydantic : pydantic.Lawful) {v : Json} (hv : Proper F v) {n : ℕ}
    (h : pydantic.readCount v = some n) : Short n := by
  have hcount : ∀ m : ℤ, (Nat.toDigits 10 m.natAbs).length ≤ MAX_DIGITS → m.toNat? = some n →
      Short n := by
    rintro m hm hn
    cases m with
    | ofNat k =>
        obtain rfl : k = n := Option.some.inj hn
        exact hm
    | negSucc k => cases hn
  cases v with
  | int m => exact hcount m hv h
  | null | bool | float | str | arr | obj =>
      obtain ⟨m, hm, hn⟩ := Option.bind_eq_some_iff.1 h
      exact hcount m (hpydantic.laxInt_digits _ m hm) hn

theorem short_zero : Short 0 := by
  unfold Short MAX_DIGITS
  decide

theorem short_of_withDefault (hpydantic : pydantic.Lawful) (h : Proper F (.obj fields))
    {name : String} {n : ℕ} (hn : withDefault fields name pydantic.readCount 0 = some n) :
    Short n := by
  unfold withDefault at hn
  split at hn
  next v hv => exact short_of_readCount hpydantic (proper_of_lookup h hv) hn
  next =>
    obtain rfl : 0 = n := Option.some.inj hn
    exact short_zero

theorem short_of_validateCausality (hpydantic : pydantic.Lawful) {v : Json} (hv : Proper F v)
    {causality : EventCausality} (h : validateCausality pydantic v = some causality) :
    Short causality.depth := by
  unfold validateCausality at h
  split at h
  next fields =>
    split at h
    next =>
      simp only [Option.bind_eq_bind, Option.bind_eq_some_iff] at h
      obtain ⟨rootEventId, -, parentEventId, -, depth, hdepth, chain, -, hcausality⟩ := h
      obtain rfl := Option.some.inj hcausality
      exact short_of_withDefault hpydantic hv hdepth
    next => cases h
  next => cases h

/-- What an accepted event takes from proper fields is proper. -/
theorem proper_of_validateEvent (hpydantic : pydantic.Lawful) {v : Json} (hv : Proper F v)
    {event : RuntimeEvent} {occurredAt : τ}
    (h : validateEvent pydantic defaults v = some (event, occurredAt)) :
    Proper F (.obj event.payload) ∧ Short event.causality.depth := by
  unfold validateEvent at h
  split at h
  next fields =>
    simp only [Option.bind_eq_bind, Option.bind_eq_some_iff] at h
    obtain ⟨kind, -, eventClass, -, h⟩ := h
    unfold EventClass.validate at h
    split at h
    next =>
      simp only [Option.bind_eq_bind, Option.bind_eq_some_iff] at h
      obtain ⟨kind, -, eventId, -, eventType, -, workspaceId, -, projectId, -, payload, hpayload,
        occurredAt', -, correlationId, -, causality, hcausality, idempotencyKey, -, hevent⟩ := h
      obtain ⟨rfl, -⟩ := Prod.mk.inj (Option.some.inj hevent)
      refine ⟨?_, ?_⟩
      · unfold withDefault at hpayload
        split at hpayload
        next w hw =>
          have hproper := proper_of_lookup hv hw
          cases w with
          | obj entries =>
              obtain rfl : entries = payload := Option.some.inj hpayload
              exact hproper
          | null | bool | int | float | str | arr => cases hpayload
        next =>
          obtain rfl : [] = payload := Option.some.inj hpayload
          exact ⟨List.nodup_nil, trivial⟩
      · unfold withDefault at hcausality
        split at hcausality
        next w hw => exact short_of_validateCausality hpydantic (proper_of_lookup hv hw) hcausality
        next =>
          obtain rfl : {} = causality := Option.some.inj hcausality
          exact short_zero
    next => cases h
  next => cases h

/-- An accepted envelope is as proper as the fields it is read from. -/
theorem proper_of_modelValidate (hpydantic : pydantic.Lawful) (hfields : Proper F (.obj fields))
    {stamped : Stamped τ} (h : modelValidate pydantic defaults fields = some stamped) :
    stamped.envelope.Proper F := by
  unfold modelValidate at h
  split at h
  next =>
    simp only [Option.bind_eq_bind, Option.bind_eq_some_iff] at h
    obtain ⟨envelopeId, -, ⟨event, occurredAt⟩, hevent, receivedAt, -, attempt, hattempt, hall⟩ := h
    obtain rfl := Option.some.inj hall
    obtain ⟨v, hv, hvalidate⟩ := Option.bind_eq_some_iff.1 hevent
    obtain ⟨hpayload, hdepth⟩ := proper_of_validateEvent hpydantic (proper_of_lookup hfields hv)
      hvalidate
    exact ⟨hpayload, hdepth, short_of_withDefault hpydantic hfields hattempt⟩
  next => cases h

/-- What is accepted as an envelope has the fields of one only. -/
theorem hasOnly_of_modelValidate {stamped : Stamped τ}
    (h : modelValidate pydantic defaults fields = some stamped) :
    hasOnly envelopeFieldNames fields = true := by
  unfold modelValidate at h
  split at h
  next hnames => exact hnames
  next => cases h

end Accepted

end PrismAgent
