import PrismAgent.Application.Writes
import PrismAgent.Provisioning.Worker

/-!
# The run of a pointer

The worker checks and records its key under the run that the pointer names. The handler
resolves the run from the seed event, whose payload holds the pointer's run id beside every
field that the provisioned payload brings along.
-/

namespace PrismAgent

open Effect

/-- `pointer.agent_run_id or pointer.request_id`. -/
def FeatureProvisioningPointerEvent.workerRunId (pointer : FeatureProvisioningPointerEvent) :
    String :=
  orElseText pointer.agentRunId pointer.requestId

namespace FeatureProvisioningPayload

variable (pointer : FeatureProvisioningPointerEvent) (payload : FeatureProvisioningPayload)

/-- What the pointer and the payload name as run ids and the event's fallbacks agree. A run
id that the pointer names must not be padded; one that it does not name must not be named by
the payload under another id. -/
def NamesOneRun (eventId : String) : Prop :=
  match pointer.agentRunId.filter (· ≠ "") with
  | some runId =>
      if strip runId ≠ "" then strip runId = runId
      else
        firstText payload.modelDump ["runId", "agent_run_id"] = none ∧
          orElseText (some pointer.requestId) eventId = runId
  | none =>
      match firstText payload.modelDump AGENT_RUN_ID_KEYS with
      | some named => named = pointer.requestId
      | none => orElseText (some pointer.requestId) eventId = pointer.requestId

instance (eventId : String) : Decidable (payload.NamesOneRun pointer eventId) := by
  unfold NamesOneRun
  split
  · infer_instance
  · split
    · infer_instance
    · infer_instance

variable {pointer payload}

/-- A text that is present and not blank, stripped. -/
def textOf (value : Option Json) : Option String :=
  match value with
  | some (.str text) => if strip text = "" then none else some (strip text)
  | _ => none

theorem firstText_cons (data : Fields) (key : String) (keys : List String) :
    firstText data (key :: keys) = (textOf (data.lookup key)).or (firstText data keys) := by
  unfold firstText textOf
  rw [List.findSome?_cons]
  cases data.lookup key with
  | none => rfl
  | some value =>
      cases value with
      | str text => by_cases h : strip text = "" <;> simp [h]
      | _ => rfl

theorem firstText_congr {data data' : Fields} {keys : List String}
    (h : ∀ key ∈ keys, data.lookup key = data'.lookup key) :
    firstText data keys = firstText data' keys := by
  induction keys with
  | nil => rfl
  | cons key keys ih =>
      rw [firstText_cons, firstText_cons, h key List.mem_cons_self,
        ih fun k hk => h k (List.mem_cons_of_mem _ hk)]

theorem lookup_optionalField (key k : String) (value : Option String) :
    (FeatureProvisioningPointerEvent.optionalField key value).lookup k =
      if k = key then value.map .str else none := by
  unfold FeatureProvisioningPointerEvent.optionalField
  cases value with
  | none => simp
  | some text =>
      by_cases h : k = key
      · simp [h]
      · simp [List.lookup_cons, h, beq_eq_false_iff_ne.2 h]

/-- The pointer's dump names its run id and no other. -/
theorem firstText_pointer :
    firstText pointer.modelDump AGENT_RUN_ID_KEYS = textOf (pointer.agentRunId.map .str) := by
  have hlookup : ∀ key ∈ AGENT_RUN_ID_KEYS, pointer.modelDump.lookup key =
      if key = "agentRunId" then pointer.agentRunId.map .str else none := by
    intro key hkey
    unfold FeatureProvisioningPointerEvent.modelDump
    rcases List.mem_cons.1 hkey with rfl | hkey
    · simp [Dict.lookup_append, lookup_optionalField, List.lookup_cons]
    · rcases List.mem_cons.1 hkey with rfl | hkey
      · simp [Dict.lookup_append, lookup_optionalField, List.lookup_cons]
      · obtain rfl := List.mem_singleton.1 hkey
        simp [Dict.lookup_append, lookup_optionalField, List.lookup_cons]
  unfold AGENT_RUN_ID_KEYS at hlookup ⊢
  rw [firstText_cons, firstText_cons, firstText_cons, hlookup _ (by simp), hlookup _ (by simp),
    hlookup _ (by simp)]
  simp [textOf, firstText]

/-- The run ids that the seed event's payload names beside the pointer's. -/
theorem lookup_eventPayload {key : String} (h : key = "runId" ∨ key = "agent_run_id") :
    (payload.eventPayload pointer).lookup key = payload.modelDump.lookup key := by
  have hne : key ≠ "feature_specification" ∧ key ≠ "workspace_members" ∧
      key ≠ "queue_pointer" ∧ key ≠ "agentRunId" := by
    rcases h with rfl | rfl <;> decide
  unfold eventPayload
  dsimp only
  split
  · split
    · simp [hne]
    · simp [hne]
  · simp [hne]

theorem lookup_queuePointer :
    (payload.eventPayload pointer).lookup "queue_pointer" = some (.obj pointer.modelDump) := by
  unfold eventPayload
  dsimp only
  split
  · split
    · simp
    · simp
  · simp

/-- The run of the seed event is named by its payload or falls back to its ids. -/
theorem runIdOf_toDomainEvent (eventId : String) :
    runIdOf (.wrap (payload.toDomainEvent pointer eventId)) =
      ((firstText (payload.eventPayload pointer) AGENT_RUN_ID_KEYS).or
        (textOf (pointer.agentRunId.map .str))).getD
          (orElseText (some pointer.requestId) eventId) := by
  have hpayload : payloadRunId (payload.eventPayload pointer) =
      (firstText (payload.eventPayload pointer) AGENT_RUN_ID_KEYS).or
        (textOf (pointer.agentRunId.map .str)) := by
    unfold payloadRunId
    rw [lookup_queuePointer, ← firstText_pointer]
    rfl
  have hfallback : orElseText (some pointer.requestId)
      (orElseText (some pointer.requestId) eventId) =
        orElseText (some pointer.requestId) eventId := by
    by_cases hempty : pointer.requestId = ""
    · simp [orElseText, hempty]
    · simp [orElseText, hempty]
  rw [runIdOf_eq]
  change (payloadRunId (payload.eventPayload pointer)).getD (orElseText (some pointer.requestId)
    (orElseText (some pointer.requestId) eventId)) = _
  rw [hpayload, hfallback]

/-- A run id that the pointer names comes first in the seed event's payload. -/
theorem firstText_eventPayload_of_named {runId : String} (hname : pointer.agentRunId = some runId)
    (hne : runId ≠ "") :
    firstText (payload.eventPayload pointer) AGENT_RUN_ID_KEYS =
      (textOf (some (.str runId))).or
        (firstText payload.modelDump ["runId", "agent_run_id"]) := by
  have hlookup : (payload.eventPayload pointer).lookup "agentRunId" = some (.str runId) := by
    unfold eventPayload
    dsimp only
    rw [hname]
    dsimp only
    rw [if_neg hne, Dict.lookup_insert_self]
  unfold AGENT_RUN_ID_KEYS
  rw [firstText_cons, hlookup]
  exact congrArg _ (firstText_congr fun key hkey => lookup_eventPayload (by simpa using hkey))

/-- Without a run id of the pointer the payload's own fields are read. -/
theorem firstText_eventPayload_of_unnamed (hname : pointer.agentRunId.filter (· ≠ "") = none) :
    firstText (payload.eventPayload pointer) AGENT_RUN_ID_KEYS =
      firstText payload.modelDump AGENT_RUN_ID_KEYS := by
  refine firstText_congr fun key hkey => ?_
  rcases List.mem_cons.1 hkey with rfl | hkey
  · unfold eventPayload
    dsimp only
    split
    next runId hrunId =>
      rw [hrunId] at hname
      have hempty : runId = "" := by simpa using hname
      rw [if_pos hempty]
      simp
    next => simp
  · exact lookup_eventPayload (by simpa using hkey)

/-- The worker's run is the run of the seed event if and only if pointer and payload name
one run. -/
theorem workerRunId_eq_iff (eventId : String) :
    pointer.workerRunId = runIdOf (.wrap (payload.toDomainEvent pointer eventId)) ↔
      payload.NamesOneRun pointer eventId := by
  rw [runIdOf_toDomainEvent]
  unfold NamesOneRun FeatureProvisioningPointerEvent.workerRunId
  split
  next runId hfilter =>
    obtain ⟨hname, hkept⟩ := Option.filter_eq_some_iff.1 hfilter
    have hne : runId ≠ "" := of_decide_eq_true hkept
    have hworker : orElseText pointer.agentRunId pointer.requestId = runId := by
      rw [hname]
      exact if_neg hne
    rw [hworker, firstText_eventPayload_of_named hname hne, hname]
    split
    next hblank =>
      have htext : textOf (some (.str runId)) = some (strip runId) := if_neg hblank
      rw [htext]
      exact eq_comm
    next hblank =>
      have htext : textOf (some (.str runId)) = none := if_pos (not_not.1 hblank)
      change
        runId = (((textOf (some (.str runId))).or _).or (textOf (some (.str runId)))).getD _ ↔ _
      rw [htext, Option.none_or, Option.or_none]
      cases hnamed : firstText payload.modelDump ["runId", "agent_run_id"] with
      | none => simp [eq_comm]
      | some named =>
          have hdiffers : runId ≠ named := by
            rintro rfl
            exact firstText_ne_blank hnamed (not_not.1 hblank)
          simp [hdiffers]
  next hfilter =>
    have hworker : orElseText pointer.agentRunId pointer.requestId = pointer.requestId := by
      unfold orElseText
      split
      next runId hrunId =>
        rw [hrunId] at hfilter
        exact if_pos (by simpa using hfilter)
      next => rfl
    have htext : textOf (pointer.agentRunId.map .str) = none := by
      cases hrunId : pointer.agentRunId with
      | none => rfl
      | some runId =>
          rw [hrunId] at hfilter
          obtain rfl : runId = "" := by simpa using hfilter
          rfl
    rw [hworker, firstText_eventPayload_of_unnamed hfilter, htext, Option.or_none]
    split
    next named hnamed => rw [hnamed, Option.getD_some, eq_comm]
    next hnamed => rw [hnamed, Option.getD_none, eq_comm]

/-- The run of the worker's key is that of the hydrated context, under which the plan and
the snapshot are stored, if and only if pointer and payload name one run. -/
theorem worker_and_handler_agree_iff {registries : Registries} {workflow : WorkflowDefinition}
    {eventId : String} {snapshot : ContextSnapshot}
    (hsnapshot : (ContextProvider.hydrate registries
      (.wrap (payload.toDomainEvent pointer eventId)) workflow).MayReturn snapshot) :
    pointer.workerRunId = resolveAgentRunId snapshot.context ↔
      payload.NamesOneRun pointer eventId := by
  rw [resolveAgentRunId_eq (ContextProvider.hydrate_mayReturn hsnapshot).2]
  exact workerRunId_eq_iff eventId

section Sample

/-- A pointer without a run id, and its payload with fields that the model does not
declare. -/
def unnamedPointer : FeatureProvisioningPointerEvent :=
  { requestId := "request", payloadObjectName := "object", workspaceId := "ws"
    projectId := "project" }

def extendedPayload (extra : Fields) : FeatureProvisioningPayload :=
  { requestId := some "request", workspaceId := some "ws", projectId := some "project"
    featureSpecification := .str "specification", extra := extra }

/-- An accepted payload with a `runId` of its own moves the run of the seed event. -/
theorem extra_run_id_differs :
    ¬ ∀ (pointer : FeatureProvisioningPointerEvent) (payload : FeatureProvisioningPayload),
      payload.validateMatches pointer = .ok () →
        pointer.workerRunId = runIdOf (.wrap (payload.toDomainEvent pointer "event")) := by
  intro h
  have heq := h unnamedPointer (extendedPayload [("runId", .str "other")]) rfl
  revert heq
  decide

def provisioningRegistries : Registries :=
  { prompts :=
      { workflows := [(("prompt", "1"), { id := "prompt", version := "1", goal := "" })] } }

/-- Without a field that names another run the two agree. -/
theorem worker_and_handler_agree_sample :
    ∃ snapshot, (ContextProvider.hydrate provisioningRegistries
        (.wrap ((extendedPayload []).toDomainEvent unnamedPointer "event"))
        { id := "workflow", triggerTypes := [], requiredSkills := [], promptId := "prompt"
          promptVersion := "1" }).MayReturn snapshot ∧
      unnamedPointer.workerRunId = resolveAgentRunId snapshot.context := by
  have hsnapshot : ∃ snapshot, (ContextProvider.hydrate provisioningRegistries
      (.wrap ((extendedPayload []).toDomainEvent unnamedPointer "event"))
      { id := "workflow", triggerTypes := [], requiredSkills := [], promptId := "prompt"
        promptVersion := "1" }).MayReturn snapshot :=
    ⟨_, .ok [], .ok [], .ok [], .ok "snapshot", rfl⟩
  obtain ⟨snapshot, hreturns⟩ := hsnapshot
  exact ⟨snapshot, hreturns, (worker_and_handler_agree_iff hreturns).2 (by decide)⟩

end Sample

end FeatureProvisioningPayload

end PrismAgent
