import PrismAgent.Safety.Execution

/-!
# Observed entity versions

The API client keeps the entity versions that it has observed in its process: a
hydration adds the versions of entities not seen before, and `set_entity_version`
overwrites one. A plan expects the versions captured by its hydration, and an action is
stale when an observed version differs.
-/

namespace PrismAgent

open Effect

/-- A JSON value as an entity version. Versions are annotated `str | int`; the context
model rejects what is neither. -/
def EntityVersion.ofJson : Json → EntityVersion
  | .str s => .text s
  | .int n => .number n
  | .bool b => .number (if b then 1 else 0)
  | value => .text value.toRepr

/-- The version map of one `PrismApiClient`. -/
structure PrismApiClient where
  versions : Dict String EntityVersion := []

namespace PrismApiClient

/-- `entity.get("id") or entity.get(f"{entity_type}_id")`, when it is not empty. -/
def entityId (entityType : String) (entity : Fields) : Option Json :=
  match (entity.lookup "id").filter Json.truthy with
  | some id => some id
  | none => (entity.lookup (entityType ++ "_id")).filter Json.truthy

/-- The reference and version of a hydrated entity; 1 where it states no version. -/
def entityVersion (entityType : String) : Json → Option (String × EntityVersion)
  | .obj entity =>
      (entityId entityType entity).map fun id =>
        (entityType ++ ":" ++ id.toStr,
          EntityVersion.ofJson ((entity.lookup "version").getD (.int 1)))
  | _ => none

/-- The versions that an event states explicitly, or else those of its entities. -/
def versionsOf (event : RuntimeEvent) (entities : Fields) : Dict String EntityVersion :=
  match event.payload.lookup "entity_versions" with
  | some (.obj explicit) =>
      Dict.ofPairs (explicit.map fun entry => (entry.1, EntityVersion.ofJson entry.2))
  | _ => Dict.ofPairs (entities.filterMap fun entry => entityVersion entry.1 entry.2)

def captureEntityVersions (client : PrismApiClient) (event : RuntimeEvent) (entities : Fields) :
    Dict String EntityVersion × PrismApiClient :=
  let versions := versionsOf event entities
  (versions,
    { versions := versions.foldl (fun acc entry => Dict.setDefault acc entry.1 entry.2)
        client.versions })

/-- The observed versions of the references; a reference never observed is omitted. -/
def getCurrentEntityVersions (client : PrismApiClient) (entityRefs : List String) :
    Dict String EntityVersion :=
  Dict.ofPairs (entityRefs.filterMap fun ref =>
    (client.versions.lookup ref).map fun version => (ref, version))

def setEntityVersion (client : PrismApiClient) (entityRef : String) (version : EntityVersion) :
    PrismApiClient :=
  { versions := Dict.insert client.versions entityRef version }

/-- A call that changes the observed versions. -/
inductive VersionCall
  | capture (event : RuntimeEvent) (entities : Fields)
  | set (entityRef : String) (version : EntityVersion)

namespace VersionCall

def apply (client : PrismApiClient) : VersionCall → PrismApiClient
  | .capture event entities => (client.captureEntityVersions event entities).2
  | .set entityRef version => client.setEntityVersion entityRef version

/-- The version that the call sets for a reference. -/
def setTo (ref : String) : VersionCall → Option EntityVersion
  | .capture _ _ => none
  | .set entityRef version => if ref = entityRef then some version else none

/-- The version that the call captures for a reference. -/
def captured (ref : String) : VersionCall → Option EntityVersion
  | .capture event entities => (versionsOf event entities).lookup ref
  | .set _ _ => none

end VersionCall

/-- A client after a history of calls. -/
def after (history : List VersionCall) : PrismApiClient := history.foldl VersionCall.apply {}

/-- What a history has observed for a reference: the version set last, or, where none was
set, the one captured first. -/
def observed (history : List VersionCall) (ref : String) : Option EntityVersion :=
  (history.reverse.findSome? (VersionCall.setTo ref)).or
    (history.findSome? (VersionCall.captured ref))

theorem after_append (history : List VersionCall) (call : VersionCall) :
    after (history ++ [call]) = call.apply (after history) := by
  simp [after]

theorem lookup_apply (client : PrismApiClient) (call : VersionCall) (ref : String) :
    (call.apply client).versions.lookup ref =
      (call.setTo ref).or ((client.versions.lookup ref).or (call.captured ref)) := by
  cases call with
  | capture event entities => exact Dict.lookup_foldl_setDefault _ _ ref
  | set entityRef version =>
      change (Dict.insert client.versions entityRef version).lookup ref = _
      rw [Dict.lookup_insert]
      by_cases h : ref = entityRef
      · simp [h, VersionCall.setTo]
      · simp [h, VersionCall.setTo, VersionCall.captured]

/-- The client has recorded exactly what its history has observed. -/
theorem lookup_after (history : List VersionCall) (ref : String) :
    (after history).versions.lookup ref = observed history ref := by
  induction history using List.reverseRecOn with
  | nil => rfl
  | append_singleton history call ih =>
      rw [after_append, lookup_apply, ih]
      unfold observed
      rw [List.reverse_append, List.findSome?_append]
      cases call with
      | capture event entities =>
          simp [VersionCall.setTo, Option.or_assoc]
      | set entityRef version =>
          by_cases h : ref = entityRef
          · simp [h, VersionCall.setTo]
          · simp [h, VersionCall.setTo, VersionCall.captured]

/-- Hydrations alone change no version that is recorded. -/
theorem lookup_after_captures {history later : List VersionCall} {ref : String}
    {version : EntityVersion} (h : observed history ref = some version)
    (hlater : ∀ call ∈ later, ∃ event entities, call = .capture event entities) :
    observed (history ++ later) ref = some version := by
  induction later using List.reverseRecOn with
  | nil => simpa using h
  | append_singleton later call ih =>
      obtain ⟨event, entities, rfl⟩ := hlater call (by simp)
      have hbefore := ih fun call hcall => hlater call (List.mem_append_left _ hcall)
      rw [← List.append_assoc, ← lookup_after, after_append, lookup_apply, lookup_after, hbefore]
      rfl

end PrismApiClient

theorem StaleContextPolicy.diff_eq_nil_iff (expected current : Dict String EntityVersion) :
    diff expected current = [] ↔
      ∀ entry ∈ expected, ∀ version, current.lookup entry.1 = some version → version = entry.2 := by
  unfold diff
  rw [List.filterMap_eq_nil_iff]
  refine forall₂_congr fun entry _ => ?_
  cases current.lookup entry.1 with
  | none => simp
  | some version => simp

/-- No action that expects the versions is replanned for them while the client has
recorded what it has. -/
def PassesStalenessCheck (captured : Dict String EntityVersion) (client : PrismApiClient) :
    Prop :=
  ∀ (env : Env) (w : World MemoryStateStore) (form : Planner.NormalForm) (proposed : AgentPlan)
    (context : AgentContext), form.context.entityVersions = captured →
    (∀ workspaceId projectId entityRefs,
      env.currentEntityVersions w.tick workspaceId projectId entityRefs =
        client.getCurrentEntityVersions entityRefs) →
    ∀ action ∈ (Planner.normalizePlanForRuntime form proposed).actions,
      ∀ result, (env.sem.exec (Validator.validateBeforeExecution action context) w).1 = .ok result →
        result.decision ≠ .replan

/-- The captured versions are fresh: the policy finds nothing stale among them, and an
action planned with them passes the staleness check. -/
structure Fresh (captured : Dict String EntityVersion) (client : PrismApiClient) : Prop where
  diff : StaleContextPolicy.diff captured
    (client.getCurrentEntityVersions (Dict.keys captured)) = []
  passes : PassesStalenessCheck captured client

theorem Planner.expectedEntityVersions_of_mem {form : NormalForm} {actions : List PlannedAction}
    {index : ℕ} {previousActionId : Option String} {action : PlannedAction}
    (h : action ∈ normalizeActions form actions index previousActionId) :
    action.expectedEntityVersions = form.context.entityVersions := by
  induction actions generalizing index previousActionId with
  | nil => cases h
  | cons first actions ih =>
      rcases List.mem_cons.1 h with rfl | h
      · rfl
      · exact ih h

theorem passes_of_diff {captured : Dict String EntityVersion} {client : PrismApiClient}
    (h : StaleContextPolicy.diff captured
      (client.getCurrentEntityVersions (Dict.keys captured)) = []) :
    PassesStalenessCheck captured client := by
  intro env w form proposed context hcaptured hclient action haction result hresult
  have hexpected := (Planner.expectedEntityVersions_of_mem haction).trans hcaptured
  suffices hwp : (Validator.validateBeforeExecution action context).wp env.sem.step
      (fun r _ => ∀ result, r = .ok result → result.decision ≠ .replan) w by
    rw [Program.wp_step_iff] at hwp
    exact hwp result hresult
  unfold Validator.validateBeforeExecution
  split
  · rintro _ ⟨⟩
    simp
  · rw [Program.wp_bind, Program.wp_perform_step]
    change Program.andThen _ _ _ (.ok (env.currentEntityVersions w.tick _ _ _)) _
    rw [hclient, hexpected, Program.andThen_ok]
    change Program.wp _ (if StaleContextPolicy.diff captured
      (client.getCurrentEntityVersions (Dict.keys captured)) ≠ [] then _ else _) _ _
    rw [if_neg (not_not.2 h)]
    split
    · rw [Program.wp_bind, Program.wp_perform_step]
      change Program.wp _ _ _ _
      rw [Program.wp_bind, Program.wp_perform_step]
      rintro _ ⟨⟩
      simp
    · rintro _ ⟨⟩
      simp

namespace PrismApiClient

theorem keys_versionsOf_nodup (event : RuntimeEvent) (entities : Fields) :
    (Dict.keys (versionsOf event entities)).Nodup := by
  unfold versionsOf
  split
  · exact Dict.keys_ofPairs_nodup _
  · exact Dict.keys_ofPairs_nodup _

theorem lookup_getCurrentEntityVersions {client : PrismApiClient} {entityRefs : List String}
    {ref : String} (h : ref ∈ entityRefs) :
    (client.getCurrentEntityVersions entityRefs).lookup ref = client.versions.lookup ref := by
  unfold getCurrentEntityVersions Dict.ofPairs
  rw [Dict.lookup_merge_filterMap, if_pos h]
  simp

/-- After a hydration and perhaps others, a captured reference stands at the version
observed before, or else at the captured one. -/
theorem observed_captured {before later : List VersionCall} {event : RuntimeEvent}
    {entities : Fields}
    (hlater : ∀ call ∈ later, ∃ event entities, call = .capture event entities)
    {entry : String × EntityVersion} (hentry : entry ∈ versionsOf event entities) :
    observed (before ++ .capture event entities :: later) entry.1 =
      (observed before entry.1).or (some entry.2) := by
  have hlookup : (versionsOf event entities).lookup entry.1 = some entry.2 :=
    (Dict.lookup_eq_some_iff (keys_versionsOf_nodup event entities)).2 hentry
  have hcapture : observed (before ++ [.capture event entities]) entry.1 =
      (observed before entry.1).or (some entry.2) := by
    rw [← lookup_after, after_append, lookup_apply, lookup_after, VersionCall.captured, hlookup]
    rfl
  have hsome : ∃ version, (observed before entry.1).or (some entry.2) = some version := by
    cases observed before entry.1 with
    | none => exact ⟨_, rfl⟩
    | some version => exact ⟨_, rfl⟩
  obtain ⟨version, hversion⟩ := hsome
  rw [hversion] at hcapture ⊢
  rw [List.append_cons]
  exact lookup_after_captures hcapture hlater

end PrismApiClient

/-- What a hydration captures is fresh, until a version is set, if and only if no captured
entity was observed before in another version. -/
theorem fresh_iff (before later : List PrismApiClient.VersionCall) (event : RuntimeEvent)
    (entities : Fields)
    (hlater : ∀ call ∈ later, ∃ event entities, call = .capture event entities) :
    Fresh ((PrismApiClient.after before).captureEntityVersions event entities).1
        (PrismApiClient.after (before ++ .capture event entities :: later)) ↔
      ∀ entry ∈ PrismApiClient.versionsOf event entities, ∀ version,
        PrismApiClient.observed before entry.1 = some version → version = entry.2 := by
  have hdiff : StaleContextPolicy.diff (PrismApiClient.versionsOf event entities)
      ((PrismApiClient.after (before ++ .capture event entities :: later)).getCurrentEntityVersions
        (Dict.keys (PrismApiClient.versionsOf event entities))) = [] ↔
      ∀ entry ∈ PrismApiClient.versionsOf event entities, ∀ version,
        PrismApiClient.observed before entry.1 = some version → version = entry.2 := by
    rw [StaleContextPolicy.diff_eq_nil_iff]
    refine forall₂_congr fun entry hentry => ?_
    have href : entry.1 ∈ Dict.keys (PrismApiClient.versionsOf event entities) :=
      List.mem_map_of_mem hentry
    rw [PrismApiClient.lookup_getCurrentEntityVersions href, PrismApiClient.lookup_after,
      PrismApiClient.observed_captured hlater hentry]
    cases PrismApiClient.observed before entry.1 with
    | none => simp [eq_comm]
    | some version => simp
  constructor
  · exact fun h => hdiff.1 h.diff
  · exact fun h => ⟨hdiff.2 h, passes_of_diff (hdiff.2 h)⟩

/-- A trigger whose payload carries its story in a version. -/
def sampleVersionEvent (version : ℤ) : RuntimeEvent :=
  { kind := .domain
    eventId := "event"
    eventType := "story.created"
    workspaceId := "ws"
    payload := [("story", .obj [("id", .str "s"), ("version", .int version)])] }

/-- The hydration of the trigger, with the story as its entity. -/
def sampleCapture (version : ℤ) : PrismApiClient.VersionCall :=
  .capture (sampleVersionEvent version) (sampleVersionEvent version).payload

theorem fresh_sample :
    Fresh ((PrismApiClient.after [sampleCapture 1]).captureEntityVersions
        (sampleVersionEvent 1) (sampleVersionEvent 1).payload).1
      (PrismApiClient.after ([sampleCapture 1] ++ [sampleCapture 1, sampleCapture 2])) :=
  (fresh_iff [sampleCapture 1] [sampleCapture 2] (sampleVersionEvent 1)
    (sampleVersionEvent 1).payload fun call hcall => ⟨_, _, List.mem_singleton.1 hcall⟩).2
      (by decide)

/-- The second trigger carries the story in a newer version and is stale at once. -/
theorem newer_version_stale :
    ¬ Fresh ((PrismApiClient.after [sampleCapture 1]).captureEntityVersions
        (sampleVersionEvent 2) (sampleVersionEvent 2).payload).1
      (PrismApiClient.after [sampleCapture 1, sampleCapture 2]) := by
  intro h
  exact absurd h.diff (by decide)

end PrismAgent
