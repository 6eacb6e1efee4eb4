import PrismAgent.RunIdentity.Handlers

/-!
# One run id for all events of a run

An event that exceeds the depth limit fails the run of `eventRunId`; a replan event is
handled under the run of `resolveAgentRunId`. Both are the run of the seed for the
events of the whole workflow's plan, but not for those of sub-plans, and for subagent
events only where the seed's correlation is the run id.
-/

namespace PrismAgent

open Effect
open SubAgentRunner (subPlanId)
open RecursionRunner (eventRunId)
open ActionEventHandler (TerminalEvent replanEvent Delivery)

/-- The run id of the seed can be read back from a payload: it is not blank and has no
white space around it, or it is blank and the seed's correlation. -/
def Stable (seed : EventEnvelope) : Prop :=
  runIdOf seed ≠ "" ∧ (strip (runIdOf seed) = runIdOf seed ∨
    strip (runIdOf seed) = "" ∧ seed.event.correlationId = some (runIdOf seed))

/-- The events that are accounted to the run of the seed. -/
def Kept (seed : EventEnvelope) (event : RuntimeEvent) : Prop :=
  match event.kind with
  | .agentAction planId _ => ∀ nodeId, planId ≠ subPlanId (runIdOf seed) nodeId
  | .subagentTask _ _ | .subagentCompleted _ _ _ =>
      seed.event.correlationId = some (runIdOf seed) ∧ runIdOf seed ≠ ""
  | _ => Stable seed

/-- The event is accounted to the run, and handled under it where it starts a plan. -/
structure Identifies (runId : String) (e : EventEnvelope) : Prop where
  accounted : eventRunId e.event = some runId
  resolved : e.event.planId? = none → runIdOf e = runId

section Resolvers

/-- The correlation or else the idempotency key of an event. -/
def fallbackRunId (event : RuntimeEvent) : Option String :=
  match event.correlationId with
  | some id => if id = "" then event.idempotencyKey else some id
  | none => event.idempotencyKey

theorem eventRunId_eq {event : RuntimeEvent}
    (h : ∀ planId actionId, event.kind ≠ .agentAction planId actionId) :
    eventRunId event = (payloadRunId event.payload).or (fallbackRunId event) := by
  unfold eventRunId payloadRunId
  split
  next planId actionId hkind => exact absurd hkind (h planId actionId)
  next =>
    cases firstText event.payload AGENT_RUN_ID_KEYS with
    | some runId => rfl
    | none =>
        dsimp only [Option.none_or]
        cases ((event.payload.lookup "queue_pointer").bind Json.asObj?).bind fun pointer =>
          firstText pointer AGENT_RUN_ID_KEYS with
        | some runId => rfl
        | none => rfl

end Resolvers

variable {seed : EventEnvelope}

/-- A seed with a blank run id names none in its payload. -/
theorem sourceOfRun_seed (hseed : seed.event.planId? = none) : SourceOfRun seed seed := by
  refine ⟨hseed, rfl, rfl, fun hblank => ?_⟩
  cases hpayload : payloadRunId seed.event.payload with
  | none => rfl
  | some runId =>
      have hrunId : runIdOf seed = runId := by
        rw [runIdOf_eq, hpayload]
        rfl
      rw [hrunId] at hblank
      exact absurd hblank (payloadRunId_ne_blank hpayload)

section Replan

variable {d : Delivery} (hsource : SourceOfRun seed d.context.sourceEvent)
  (hplan : d.plan.planId = runIdOf seed)
  (hcorrelation : d.envelope.event.correlationId = seed.event.correlationId)
  (eventId reason : String) (staleEntities : Dict String StaleEntity)

include hplan in
/-- A replan event names the run in its payload, unless the run id is blank. -/
theorem payloadRunId_replanEvent (hblank : strip (runIdOf seed) ≠ "") :
    payloadRunId (replanEvent eventId d staleEntities reason).payload =
      some (strip (runIdOf seed)) := by
  have htext : firstText (replanEvent eventId d staleEntities reason).payload
      AGENT_RUN_ID_KEYS = some (strip (runIdOf seed)) := by
    unfold firstText AGENT_RUN_ID_KEYS
    rw [List.findSome?_cons]
    have hlookup : (replanEvent eventId d staleEntities reason).payload.lookup "agentRunId" =
        some (.str (runIdOf seed)) := by
      unfold replanEvent
      dsimp only
      rw [Dict.lookup_insert_of_ne (by decide), Dict.lookup_insert_self, hplan]
    rw [hlookup]
    dsimp only
    rw [if_neg hblank]
  unfold payloadRunId
  rw [htext]
  rfl

/-- Other keys than the three that a replan event changes. -/
theorem lookup_replanEvent {key : String} (hversions : key ≠ "entity_versions")
    (hrun : key ≠ "agentRunId") (hreplan : key ≠ "_agent_replan") :
    (replanEvent eventId d staleEntities reason).payload.lookup key =
      d.context.sourceEvent.event.payload.lookup key := by
  unfold replanEvent
  dsimp only
  rw [Dict.lookup_insert_of_ne hreplan, Dict.lookup_insert_of_ne hrun,
    Dict.lookup_erase_of_ne hversions]

include hsource hplan in
/-- With a blank run id a replan event names no run, as its source did not. -/
theorem payloadRunId_replanEvent_blank (hblank : strip (runIdOf seed) = "") :
    payloadRunId (replanEvent eventId d staleEntities reason).payload = none := by
  have hnone := hsource.blank hblank
  unfold payloadRunId at hnone ⊢
  rw [Option.or_eq_none_iff] at hnone ⊢
  obtain ⟨htext, hpointer⟩ := hnone
  rw [lookup_replanEvent eventId reason staleEntities (by decide) (by decide) (by decide)]
  refine ⟨?_, hpointer⟩
  unfold firstText at htext ⊢
  rw [List.findSome?_eq_none_iff] at htext ⊢
  intro key hkey
  by_cases hrun : key = "agentRunId"
  · subst hrun
    have hlookup : (replanEvent eventId d staleEntities reason).payload.lookup "agentRunId" =
        some (.str (runIdOf seed)) := by
      unfold replanEvent
      dsimp only
      rw [Dict.lookup_insert_of_ne (by decide), Dict.lookup_insert_self, hplan]
    rw [hlookup]
    dsimp only
    rw [if_pos hblank]
  · have hother : key = "runId" ∨ key = "agent_run_id" := by
      simpa [AGENT_RUN_ID_KEYS, hrun] using hkey
    have hversions : key ≠ "entity_versions" := by
      rcases hother with rfl | rfl <;> decide
    have hreplan : key ≠ "_agent_replan" := by
      rcases hother with rfl | rfl <;> decide
    rw [lookup_replanEvent eventId reason staleEntities hversions hrun hreplan]
    exact htext key hkey

include hsource hcorrelation in
theorem correlationId_replanEvent :
    (replanEvent eventId d staleEntities reason).correlationId = seed.event.correlationId := by
  have hsame := hsource.correlation
  unfold replanEvent
  dsimp only
  cases hsome : d.context.sourceEvent.event.correlationId with
  | none => exact hcorrelation
  | some id =>
      dsimp only
      split
      · exact hcorrelation
      · rw [← hsome, hsame]

include hsource hplan hcorrelation in
theorem runIdOf_replanEvent (hstable : Stable seed) :
    runIdOf (.wrap (replanEvent eventId d staleEntities reason)) = runIdOf seed := by
  have hcorr := correlationId_replanEvent hsource hcorrelation eventId reason staleEntities
  rw [runIdOf_eq, EventEnvelope.wrap_event]
  rcases hstable with ⟨hne, hstrip | ⟨hblank, hseed⟩⟩
  · have hnonblank : strip (runIdOf seed) ≠ "" := by
      rw [hstrip]
      exact hne
    rw [payloadRunId_replanEvent hplan eventId reason staleEntities hnonblank, hstrip]
    rfl
  · rw [payloadRunId_replanEvent_blank hsource hplan eventId reason staleEntities hblank, hcorr,
      hseed, Option.getD_none]
    unfold orElseText
    dsimp only
    exact if_neg hne

include hsource hplan hcorrelation in
/-- The replan of a run with a stable id is a source of the run again. -/
theorem sourceOfRun_replanEvent (hstable : Stable seed) :
    SourceOfRun seed (.wrap (replanEvent eventId d staleEntities reason)) where
  planless := replanEvent_planId? _ _ _ _
  correlation := correlationId_replanEvent hsource hcorrelation eventId reason staleEntities
  runId := runIdOf_replanEvent hsource hplan hcorrelation eventId reason staleEntities hstable
  blank hblank :=
    payloadRunId_replanEvent_blank hsource hplan eventId reason staleEntities hblank

include hsource hplan hcorrelation in
/-- A replan event is accounted to the run only where the run id is stable. -/
theorem stable_of_eventRunId_replanEvent
    (h : eventRunId (replanEvent eventId d staleEntities reason) = some (runIdOf seed)) :
    Stable seed := by
  have hcorr := correlationId_replanEvent hsource hcorrelation eventId reason staleEntities
  have hkind : ∀ planId actionId,
      (replanEvent eventId d staleEntities reason).kind ≠ .agentAction planId actionId := by
    intro planId actionId hkind
    have hplanless := replanEvent_planId? eventId reason d staleEntities
    unfold RuntimeEvent.planId? at hplanless
    rw [hkind] at hplanless
    cases hplanless
  rw [eventRunId_eq hkind] at h
  by_cases hblank : strip (runIdOf seed) = ""
  · rw [payloadRunId_replanEvent_blank hsource hplan eventId reason staleEntities hblank,
      Option.none_or] at h
    have hkey : (replanEvent eventId d staleEntities reason).idempotencyKey ≠
        some (runIdOf seed) := by
      intro hkey
      obtain hrun : d.action.idempotencyKey ++ ":replan" = runIdOf seed := Option.some.inj hkey
      refine strip_ne_empty_iff.2 ⟨'n', ?_, by decide⟩ hblank
      rw [← hrun, String.toList_append]
      exact List.mem_append_right _ (by decide)
    unfold fallbackRunId at h
    rw [hcorr] at h
    cases hsome : seed.event.correlationId with
    | none =>
        rw [hsome] at h
        exact absurd h hkey
    | some id =>
        rw [hsome] at h
        dsimp only at h
        split at h
        · exact absurd h hkey
        next hne =>
          obtain rfl := Option.some.inj h
          exact ⟨hne, .inr ⟨hblank, hsome⟩⟩
  · rw [payloadRunId_replanEvent hplan eventId reason staleEntities hblank] at h
    obtain hstrip : strip (runIdOf seed) = runIdOf seed := Option.some.inj h
    exact ⟨hstrip ▸ hblank, .inl hstrip⟩

include hsource hplan hcorrelation in
/-- A replan event with a stable run id is accounted to the run. -/
theorem eventRunId_replanEvent (hstable : Stable seed) :
    eventRunId (replanEvent eventId d staleEntities reason) = some (runIdOf seed) := by
  have hcorr := correlationId_replanEvent hsource hcorrelation eventId reason staleEntities
  have hkind : ∀ planId actionId,
      (replanEvent eventId d staleEntities reason).kind ≠ .agentAction planId actionId := by
    intro planId actionId hkind
    have hplanless := replanEvent_planId? eventId reason d staleEntities
    unfold RuntimeEvent.planId? at hplanless
    rw [hkind] at hplanless
    cases hplanless
  rw [eventRunId_eq hkind]
  obtain ⟨hne, hstrip | ⟨hblank, hseed⟩⟩ := hstable
  · rw [payloadRunId_replanEvent hplan eventId reason staleEntities (by rwa [hstrip]), hstrip]
    rfl
  · rw [payloadRunId_replanEvent_blank hsource hplan eventId reason staleEntities hblank,
      Option.none_or]
    unfold fallbackRunId
    rw [hcorr, hseed]
    exact if_neg hne

end Replan

/-- An event with no run id of its own is accounted by its correlation. -/
theorem eventRunId_of_correlation {event : RuntimeEvent}
    (hkind : ∀ planId actionId, event.kind ≠ .agentAction planId actionId)
    (hpayload : payloadRunId event.payload = none) (hkey : event.idempotencyKey = none)
    (hcorrelation : event.correlationId = seed.event.correlationId) :
    eventRunId event = some (runIdOf seed) ↔
      seed.event.correlationId = some (runIdOf seed) ∧ runIdOf seed ≠ "" := by
  rw [eventRunId_eq hkind, hpayload, Option.none_or]
  unfold fallbackRunId
  rw [hcorrelation, hkey]
  cases seed.event.correlationId with
  | none =>
      constructor
      · intro h
        cases h
      · rintro ⟨h, -⟩
        cases h
  | some id =>
      dsimp only
      by_cases hid : id = ""
      · rw [if_pos hid]
        constructor
        · intro h
          cases h
        · rintro ⟨h, hne⟩
          exact absurd ((Option.some.inj h).symm.trans hid) hne
      · rw [if_neg hid]
        constructor
        · intro h
          exact ⟨h, Option.some.inj h ▸ hid⟩
        · exact fun h => h.1

/-- An event without a plan is kept exactly where the run is stable. -/
theorem kept_iff_of_planless {event : RuntimeEvent} (h : event.planId? = none) :
    Kept seed event ↔ Stable seed := by
  unfold RuntimeEvent.planId? at h
  unfold Kept
  generalize event.kind = kind at h ⊢
  cases kind with
  | agentAction => cases h
  | subagentTask => cases h
  | subagentCompleted => cases h
  | _ => exact Iff.rfl

/-- A derived event is accounted to the run exactly where it is kept. -/
theorem identifies_iff {e : EventEnvelope} (h : DerivedFrom seed e) :
    Identifies (runIdOf seed) e ↔ Kept seed e.event := by
  cases h with
  | @action _ planId actionId hkind hplan hcorrelation =>
      have haccounted : eventRunId e.event = some planId := by
        unfold eventRunId
        rw [hkind]
      have hkept : Kept seed e.event ↔ ∀ nodeId, planId ≠ subPlanId (runIdOf seed) nodeId := by
        unfold Kept
        rw [hkind]
      have hplanId : e.event.planId? ≠ none := by
        unfold RuntimeEvent.planId?
        rw [hkind]
        simp
      rw [hkept]
      constructor
      · intro hidentifies nodeId
        obtain rfl : planId = runIdOf seed :=
          Option.some.inj (haccounted.symm.trans hidentifies.accounted)
        exact runId_ne_subPlanId _ nodeId
      · intro hall
        rcases hplan with rfl | ⟨nodeId, hnode⟩
        · exact ⟨haccounted, fun hnone => absurd hnone hplanId⟩
        · exact absurd hnode (hall nodeId)
  | @task _ nodeId hkind hpayload hkey hcorrelation =>
      have hplanId : e.event.planId? ≠ none := by
        unfold RuntimeEvent.planId?
        rw [hkind]
        simp
      have haction : ∀ planId actionId, e.event.kind ≠ .agentAction planId actionId := by
        intro planId actionId
        rw [hkind]
        simp
      have hiff := eventRunId_of_correlation haction hpayload hkey hcorrelation
      unfold Kept
      rw [hkind]
      constructor
      · exact fun h => hiff.1 h.accounted
      · exact fun h => ⟨hiff.2 h, fun hnone => absurd hnone hplanId⟩
  | @completed _ planId nodeId status hkind hpayload hkey hcorrelation =>
      have hplanId : e.event.planId? ≠ none := by
        unfold RuntimeEvent.planId?
        rw [hkind]
        simp
      have haction : ∀ planId actionId, e.event.kind ≠ .agentAction planId actionId := by
        intro planId actionId
        rw [hkind]
        simp
      have hiff := eventRunId_of_correlation haction hpayload hkey hcorrelation
      unfold Kept
      rw [hkind]
      constructor
      · exact fun h => hiff.1 h.accounted
      · exact fun h => ⟨hiff.2 h, fun hnone => absurd hnone hplanId⟩
  | @replan eventId reason staleEntities d hsource hplan hcorrelation =>
      have hkept : Kept seed (replanEvent eventId d staleEntities reason) ↔ Stable seed :=
        kept_iff_of_planless (replanEvent_planId? eventId reason d staleEntities)
      rw [EventEnvelope.wrap_event, hkept]
      constructor
      · intro h
        exact stable_of_eventRunId_replanEvent hsource hplan hcorrelation _ _ _ h.accounted
      · intro hstable
        constructor
        · exact eventRunId_replanEvent hsource hplan hcorrelation _ _ _ hstable
        · exact fun _ => runIdOf_replanEvent hsource hplan hcorrelation _ _ _ hstable

/-- A derived event without a plan is a source of the run, or it names another run. -/
theorem DerivedFrom.source_or_strays {e : EventEnvelope} (h : DerivedFrom seed e)
    (hplan : e.event.planId? = none) :
    SourceOfRun seed e ∨ (¬ Identifies (runIdOf seed) e ∧ ¬ Kept seed e.event) := by
  by_cases hidentifies : Identifies (runIdOf seed) e
  · cases h with
    | action hkind =>
        unfold RuntimeEvent.planId? at hplan
        rw [hkind] at hplan
        cases hplan
    | task hkind =>
        unfold RuntimeEvent.planId? at hplan
        rw [hkind] at hplan
        cases hplan
    | completed hkind =>
        unfold RuntimeEvent.planId? at hplan
        rw [hkind] at hplan
        cases hplan
    | replan eventId reason staleEntities hsource hrun hcorrelation =>
        have hstable := stable_of_eventRunId_replanEvent hsource hrun hcorrelation _ _ _
          hidentifies.accounted
        exact .inl (sourceOfRun_replanEvent hsource hrun hcorrelation _ _ _ hstable)
  · exact .inr ⟨hidentifies, fun hkept => hidentifies ((identifies_iff h).2 hkept)⟩

end PrismAgent
