import PrismAgent.Application.DomainEventHandler
import PrismAgent.Dictionary.Filling
import PrismAgent.Hydration.Entities

/-!
# When hydration is stable

What `fetch_context_entities` returns under a key, without the loop: most values are read off
the payload and the API alone; project members, project jobs and stand-in workloads also
depend on the keys that were hydrated before, the backlog signals on the keys that were
requested at all.
-/

namespace PrismAgent

namespace PrismApiClient

variable (api : ContextApi) (event : RuntimeEvent)

/-- The objects that the payload lists under a key. -/
def payloadItems (contextKey : String) : List Json :=
  extractItems (payloadContextValue event.payload contextKey)

/-- The members known from the entities under the keys `before`. -/
def standIns (before : List String) : List Json :=
  if "project_members" ∈ before ∧ payloadItems event "project_members" ≠ [] then
    payloadItems event "project_members"
  else if "workspace_members" ∈ before then payloadItems event "workspace_members"
  else []

/-- What a stand-in workload takes over from its member. -/
def workloadIdentity (member : Json) : List Json :=
  match member with
  | .obj fields =>
      (["userId", "fullName", "username", "role"].map fun key => (fields.lookup key).getD .null) ++
        (["jobIds", "jobNames"].map fun key => (fields.lookup key).getD (.arr []))
  | _ => []

/-- The payload lists no workloads and the API fails to answer. -/
def WorkloadsUnanswered : Prop :=
  payloadItems event "member_workloads" = [] ∧ api.configured = true ∧
    (api.getWorkspaceMemberWorkloads event.workspaceId).toOption = none

/-- The workloads when `members` stand in for the answer of the API. -/
def workloadsFrom (members : List Json) : List Json :=
  if payloadItems event "member_workloads" ≠ [] ∨ api.configured = false then
    payloadItems event "member_workloads"
  else
    match api.getWorkspaceMemberWorkloads event.workspaceId with
    | .ok workloads => workloads
    | .error exc =>
        members.filterMap fun member =>
          member.asObj?.map fun fields => unavailableMemberWorkload fields exc

/-- The backlog that the signals of a list of keys are computed from. -/
def signalBacklog (keys : List String) : List Json :=
  if "backlog_work_items" ∈ keys then
    backlogWorkItemsContext api event (payloadContextValue event.payload "backlog_work_items")
  else []

/-- The workloads that the signals of a list of keys are computed from. -/
def signalWorkloads (keys : List String) : List Json :=
  if "member_workloads" ∈ keys then
    workloadsFrom api event (standIns event (Dict.beforeLast "member_workloads" keys))
  else []

/-- The error that fetching the pull request raises. -/
def raised : Option ApiError :=
  match pullRequestDiffContext api event
    (payloadContextValue event.payload "pull_request_diff") with
  | .ok _ => none
  | .error exc => some exc

/-- Fetching these keys raises. -/
def Raises (keys : List String) : Prop :=
  "pull_request_diff" ∈ keys ∧ (raised api event).isSome = true

/-- Two lists that raise for the same events. -/
def RaisesAlike (keys keys' : List String) : Prop :=
  Raises api event keys ↔ Raises api event keys'

/-- Under `contextKey`, two lists of keys lead to one value: the payload has the value, what it
falls back to is empty, or the lists fall back to the same. -/
def Stable (keys keys' : List String) (contextKey : String) : Prop :=
  let before := Dict.beforeLast contextKey keys
  let before' := Dict.beforeLast contextKey keys'
  match contextKey with
  | "project_members" =>
      payloadItems event "project_members" ≠ [] ∨ payloadItems event "workspace_members" = [] ∨
        ("workspace_members" ∈ before ↔ "workspace_members" ∈ before')
  | "project_jobs" =>
      (payloadContextValue event.payload "project_jobs").isNull = false ∨
        payloadItems event "workspace_jobs" = [] ∨
        ("workspace_jobs" ∈ before ↔ "workspace_jobs" ∈ before')
  | "member_workloads" =>
      WorkloadsUnanswered api event →
        (standIns event before).map workloadIdentity =
          (standIns event before').map workloadIdentity
  | "backlog_signals" =>
      (payloadContextValue event.payload "backlog_signals").isObj = true ∨
        api.computeBacklogSignals ((signalBacklog api event keys).filter Json.isObj)
            ((signalWorkloads api event keys).filter Json.isObj) =
          api.computeBacklogSignals ((signalBacklog api event keys').filter Json.isObj)
            ((signalWorkloads api event keys').filter Json.isObj)
  | _ => True

/-- The value of an entity, where none is raised. -/
def entityValue (entities : Fields) (contextKey : String) : Json :=
  match contextValue api event entities contextKey with
  | .ok value => value
  | .error _ => .null

/-- The entities after the loop over the keys. -/
def hydrated (keys : List String) : Fields :=
  Dict.fill (entityValue api event) (keys.filter (· ≠ "backlog_signals")) []

variable {api : ContextApi} {event : RuntimeEvent}

section Items

@[simp] theorem extractItems_null : extractItems .null = [] := rfl

theorem extractItems_obj {fields : Fields} :
    extractItems (.obj fields) =
      (["items", "members", "jobs", "data"].findSome? fun key =>
        (fields.lookup key).bind objectsOf).getD [] := rfl

theorem isObj_of_mem_objectsOf {value : Json} {items : List Json}
    (h : objectsOf value = some items) : ∀ item ∈ items, item.isObj = true := by
  cases value with
  | arr all =>
      cases h
      intro item hitem
      exact (List.mem_filter.1 hitem).2
  | _ => cases h

theorem isObj_of_mem_extractItems {data : Json} :
    ∀ item ∈ extractItems data, item.isObj = true := by
  cases data with
  | arr all =>
      intro item hitem
      exact (List.mem_filter.1 hitem).2
  | obj fields =>
      intro item hitem
      rw [extractItems_obj] at hitem
      cases hfind : ["items", "members", "jobs", "data"].findSome? fun key =>
          (fields.lookup key).bind objectsOf with
      | none =>
          rw [hfind] at hitem
          cases hitem
      | some items =>
          rw [hfind] at hitem
          obtain ⟨_, _, hkey⟩ := List.exists_of_findSome?_eq_some hfind
          obtain ⟨value, _, hvalue⟩ := Option.bind_eq_some_iff.1 hkey
          exact isObj_of_mem_objectsOf hvalue item hitem
  | _ => simp [extractItems]

theorem extractItems_arr_extractItems {data : Json} :
    extractItems (.arr (extractItems data)) = extractItems data :=
  List.filter_eq_self.2 isObj_of_mem_extractItems

theorem explicitItemsContext_eq {value : Json} :
    explicitItemsContext value = extractItems value :=
  ite_self (extractItems value)

end Items

section Loop

theorem contextValue_of_ne {entities : Fields} {contextKey : String}
    (h : contextKey ≠ "pull_request_diff") :
    contextValue api event entities contextKey =
      .ok (entityValue api event entities contextKey) := by
  unfold entityValue contextValue
  split <;> first | rfl | exact absurd rfl h

theorem contextValue_of_not_raised {entities : Fields} {contextKey : String}
    (h : contextKey = "pull_request_diff" → raised api event = none) :
    contextValue api event entities contextKey =
      .ok (entityValue api event entities contextKey) := by
  by_cases hkey : contextKey = "pull_request_diff"
  · subst hkey
    have hnone := h rfl
    have hvalue : contextValue api event entities "pull_request_diff" =
      pullRequestDiffContext api event
        (payloadContextValue event.payload "pull_request_diff") := rfl
    unfold raised at hnone
    unfold entityValue
    rw [hvalue]
    split at hnone
    · next heq => rw [heq]
    · cases hnone
  · exact contextValue_of_ne hkey

theorem fetchEntities_of_raised {exc : ApiError} (h : raised api event = some exc)
    {keys : List String} (hkeys : "pull_request_diff" ∈ keys) (entities : Fields) :
    fetchEntities api event keys entities = .error exc := by
  induction keys generalizing entities with
  | nil => cases hkeys
  | cons key keys ih =>
      unfold fetchEntities
      by_cases hkey : "pull_request_diff" = key
      · subst hkey
        have hvalue : contextValue api event entities "pull_request_diff" = .error exc := by
          unfold raised at h
          split at h
          · cases h
          · next heq => exact heq.trans (congrArg _ (Option.some.inj h))
        rw [if_neg (by decide), hvalue]
        rfl
      · have htail := (List.mem_cons.1 hkeys).resolve_left hkey
        split
        · exact ih htail entities
        · rw [contextValue_of_ne (Ne.symm hkey)]
          exact ih htail _

/-- Without an error, the loop fills in the keys one by one. -/
theorem fetchEntities_eq_fill {keys : List String} (h : ¬Raises api event keys)
    (entities : Fields) :
    fetchEntities api event keys entities =
      .ok (Dict.fill (entityValue api event) (keys.filter (· ≠ "backlog_signals")) entities) := by
  induction keys generalizing entities with
  | nil => rfl
  | cons key keys ih =>
      have htail : ¬Raises api event keys := fun hr => h ⟨List.mem_cons_of_mem key hr.1, hr.2⟩
      unfold fetchEntities
      by_cases hkey : key = "backlog_signals"
      · subst hkey
        rw [if_pos rfl, ih htail]
        rfl
      · rw [if_neg hkey, contextValue_of_not_raised, List.filter_cons_of_pos (by simpa using hkey)]
        · exact ih htail _
        · rintro rfl
          exact Option.not_isSome_iff_eq_none.1 fun hr => h ⟨List.mem_cons_self, hr⟩

theorem fetchEntities_of_not_raises {keys : List String} (h : ¬Raises api event keys) :
    fetchEntities api event keys [] = .ok (hydrated api event keys) :=
  fetchEntities_eq_fill h []

theorem lookup_hydrated {contextKey : String} (h : contextKey ≠ "backlog_signals")
    (keys : List String) :
    (hydrated api event keys).lookup contextKey =
      if contextKey ∈ keys then
        some (entityValue api event
          (hydrated api event (Dict.beforeLast contextKey keys)) contextKey)
      else none := by
  have hfilter := @Dict.beforeLast_filter _ _ contextKey keys
    (fun key => decide (key ≠ "backlog_signals")) (decide_eq_true h)
  unfold hydrated
  rw [Dict.lookup_fill, hfilter]
  simp [List.mem_filter, h]

end Loop

section Derived

variable {before : List String}

theorem lookup_workspaceMembers {keys : List String} :
    (hydrated api event keys).lookup "workspace_members" =
      if "workspace_members" ∈ keys then some (.arr (payloadItems event "workspace_members"))
      else none := by
  have hvalue : ∀ entities, entityValue api event entities "workspace_members" =
    .arr (payloadItems event "workspace_members") := fun _ => congrArg _ explicitItemsContext_eq
  rw [lookup_hydrated (by decide), hvalue]

theorem lookup_workspaceJobs {keys : List String} :
    (hydrated api event keys).lookup "workspace_jobs" =
      if "workspace_jobs" ∈ keys then some (.arr (payloadItems event "workspace_jobs"))
      else none := by
  have hvalue : ∀ entities, entityValue api event entities "workspace_jobs" =
    .arr (payloadItems event "workspace_jobs") := fun _ => congrArg _ explicitItemsContext_eq
  rw [lookup_hydrated (by decide), hvalue]

theorem projectMembers_eq :
    entityValue api event (hydrated api event before) "project_members" =
      .arr (if payloadItems event "project_members" ≠ [] then
          payloadItems event "project_members"
        else if "workspace_members" ∈ before then payloadItems event "workspace_members"
        else []) := by
  change Json.arr (projectMembersContext _ _) = _
  unfold projectMembersContext
  rw [lookup_workspaceMembers, explicitItemsContext_eq]
  by_cases hitems : payloadItems event "project_members" = []
  · have hempty : extractItems (payloadContextValue event.payload "project_members") = [] := hitems
    rw [if_neg (not_not.2 hitems)]
    by_cases hbefore : "workspace_members" ∈ before
    · simp [hempty, hbefore]
    · simp [hempty, hbefore]
  · have hsome : extractItems (payloadContextValue event.payload "project_members") ≠ [] := hitems
    rw [if_pos hitems]
    simp [hsome, payloadItems]

theorem projectJobs_eq :
    entityValue api event (hydrated api event before) "project_jobs" =
      .arr (if (payloadContextValue event.payload "project_jobs").isNull = false then
          payloadItems event "project_jobs"
        else if "workspace_jobs" ∈ before then payloadItems event "workspace_jobs"
        else []) := by
  change Json.arr (projectJobsContext _ _) = _
  unfold projectJobsContext
  rw [lookup_workspaceJobs]
  by_cases hnull : (payloadContextValue event.payload "project_jobs").isNull = false
  · simp [hnull, payloadItems]
  · have hitems : extractItems (payloadContextValue event.payload "project_jobs") = [] := by
      cases hvalue : payloadContextValue event.payload "project_jobs" with
      | null => rfl
      | _ =>
          rw [hvalue] at hnull
          exact absurd rfl hnull
    rw [if_neg hnull]
    by_cases hbefore : "workspace_jobs" ∈ before
    · simp [hitems, hnull, hbefore, payloadItems, extractItems_arr_extractItems]
    · simp [hitems, hnull, hbefore]

theorem lookup_projectMembers {keys : List String} :
    (hydrated api event keys).lookup "project_members" =
      if "project_members" ∈ keys then
        some (.arr (if payloadItems event "project_members" ≠ [] then
            payloadItems event "project_members"
          else if "workspace_members" ∈ Dict.beforeLast "project_members" keys then
            payloadItems event "workspace_members"
          else []))
      else none := by
  rw [lookup_hydrated (by decide), projectMembers_eq]

/-- A list counts as false when it is empty. -/
@[simp] theorem filter_truthy_arr (items : List Json) :
    (some (Json.arr items)).filter Json.truthy =
      if items = [] then none else some (.arr items) := by
  cases items <;> rfl

/-- The members that an API error falls back to are the stand-ins. -/
theorem unavailableMemberWorkloads_eq (exc : ApiError) :
    unavailableMemberWorkloads (hydrated api event before) exc =
      (standIns event before).filterMap fun member =>
        member.asObj?.map fun fields => unavailableMemberWorkload fields exc := by
  have hsub : "workspace_members" ∈ Dict.beforeLast "project_members" before →
    "workspace_members" ∈ before := Dict.mem_of_mem_beforeLast
  unfold unavailableMemberWorkloads truthyField standIns
  rw [lookup_projectMembers, lookup_workspaceMembers]
  by_cases hproject : "project_members" ∈ before
  · by_cases hitems : payloadItems event "project_members" = []
    · by_cases hmembers : payloadItems event "workspace_members" = []
      · by_cases hbefore : "workspace_members" ∈ before
        · simp [hitems, hmembers, hproject, hbefore]
        · simp [hitems, hmembers, hproject, hbefore]
      · by_cases hlast : "workspace_members" ∈ Dict.beforeLast "project_members" before
        · simp [hitems, hmembers, hproject, hlast, hsub hlast]
        · by_cases hbefore : "workspace_members" ∈ before
          · simp [hitems, hmembers, hproject, hlast, hbefore]
          · simp [hitems, hproject, hlast, hbefore]
    · simp [hitems, hproject]
  · by_cases hbefore : "workspace_members" ∈ before
    · by_cases hmembers : payloadItems event "workspace_members" = []
      · simp [hbefore, hmembers, hproject]
      · simp [hbefore, hmembers, hproject]
    · simp [hbefore, hproject]

theorem memberWorkloads_eq :
    entityValue api event (hydrated api event before) "member_workloads" =
      .arr (workloadsFrom api event (standIns event before)) := by
  change Json.arr (memberWorkloadsContext api event _ _) = _
  unfold memberWorkloadsContext workloadsFrom
  by_cases hitems : payloadItems event "member_workloads" = []
  · have hempty : extractItems (payloadContextValue event.payload "member_workloads") = [] := hitems
    by_cases hconfigured : api.configured = true
    · cases hanswer : api.getWorkspaceMemberWorkloads event.workspaceId with
      | ok workloads =>
          by_cases hworkloads : workloads = []
          · simp [hempty, hitems, hconfigured, hworkloads]
          · simp [hempty, hitems, hconfigured, hworkloads]
      | error exc =>
          simp [hempty, hitems, hconfigured, unavailableMemberWorkloads_eq]
    · simp [hempty, hitems, hconfigured]
  · have hsome : extractItems (payloadContextValue event.payload "member_workloads") ≠ [] := hitems
    simp [hsome, payloadItems]

/-- What the signals are, after the loop over the keys. -/
theorem backlogSignals_eq (keys : List String) :
    backlogSignals api event (hydrated api event keys) =
      if (payloadContextValue event.payload "backlog_signals").isObj = true then
        payloadContextValue event.payload "backlog_signals"
      else
        api.computeBacklogSignals ((signalBacklog api event keys).filter Json.isObj)
          ((signalWorkloads api event keys).filter Json.isObj) := by
  have hbacklog :
      extractItems (((hydrated api event keys).lookup "backlog_work_items").getD .null) =
      (signalBacklog api event keys).filter Json.isObj := by
    unfold signalBacklog
    rw [lookup_hydrated (by decide)]
    split
    · rfl
    · rfl
  have hworkloads :
      extractItems (((hydrated api event keys).lookup "member_workloads").getD .null) =
      (signalWorkloads api event keys).filter Json.isObj := by
    unfold signalWorkloads
    rw [lookup_hydrated (by decide), memberWorkloads_eq]
    split
    · rfl
    · rfl
  unfold backlogSignals
  rw [hbacklog, hworkloads]

/-- The other entities do not depend on what was hydrated before. -/
theorem entityValue_const {contextKey : String} (hmembers : contextKey ≠ "project_members")
    (hjobs : contextKey ≠ "project_jobs") (hworkloads : contextKey ≠ "member_workloads")
    (entities entities' : Fields) :
    entityValue api event entities contextKey = entityValue api event entities' contextKey := by
  have hvalue : contextValue api event entities contextKey =
      contextValue api event entities' contextKey := by
    unfold contextValue
    split
    case h_2 => exact absurd rfl hmembers
    case h_4 => exact absurd rfl hjobs
    case h_5 => exact absurd rfl hworkloads
    all_goals rfl
  unfold entityValue
  rw [hvalue]

end Derived

section Stable

variable {keys keys' : List String} {contextKey : String}

theorem fallback_eq_iff {items : List Json} {p q : Prop} [Decidable p] [Decidable q] :
    (if p then items else []) = (if q then items else []) ↔ items = [] ∨ (p ↔ q) := by
  by_cases hp : p
  · by_cases hq : q
    · simp [hp, hq]
    · simp [hp, hq]
  · by_cases hq : q
    · simp [hp, hq, eq_comm]
    · simp [hp, hq]

theorem isObj_of_mem_standIns {before : List String} :
    ∀ member ∈ standIns event before, member.isObj = true := by
  unfold standIns payloadItems
  split
  · exact isObj_of_mem_extractItems
  · split
    · exact isObj_of_mem_extractItems
    · simp

theorem unavailableMemberWorkload_eq_iff {member member' : Fields} {exc : ApiError} :
    unavailableMemberWorkload member exc = unavailableMemberWorkload member' exc ↔
      workloadIdentity (.obj member) = workloadIdentity (.obj member') := by
  simp [unavailableMemberWorkload, workloadIdentity]

theorem exists_fields_of_isObj {value : Json} (h : value.isObj = true) :
    ∃ fields, value = .obj fields := by
  cases value with
  | obj fields => exact ⟨fields, rfl⟩
  | _ => cases h

/-- Stand-in workloads show their members' identities and nothing else. -/
theorem unavailable_eq_iff {exc : ApiError} {members members' : List Json}
    (h : ∀ member ∈ members, member.isObj = true)
    (h' : ∀ member ∈ members', member.isObj = true) :
    (members.filterMap fun member =>
        member.asObj?.map fun fields => unavailableMemberWorkload fields exc) =
      (members'.filterMap fun member =>
        member.asObj?.map fun fields => unavailableMemberWorkload fields exc) ↔
    members.map workloadIdentity = members'.map workloadIdentity := by
  induction members generalizing members' with
  | nil =>
      cases members' with
      | nil => simp
      | cons member' members' =>
          obtain ⟨fields', rfl⟩ := exists_fields_of_isObj (h' _ List.mem_cons_self)
          simp [Json.asObj?]
  | cons member members ih =>
      obtain ⟨fields, rfl⟩ := exists_fields_of_isObj (h _ List.mem_cons_self)
      cases members' with
      | nil => simp [Json.asObj?]
      | cons member' members' =>
          obtain ⟨fields', rfl⟩ := exists_fields_of_isObj (h' _ List.mem_cons_self)
          have htail := ih (fun m hm => h m (List.mem_cons_of_mem _ hm))
            (fun m hm => h' m (List.mem_cons_of_mem _ hm))
          simp only [Json.asObj?] at htail
          simp [Json.asObj?, unavailableMemberWorkload_eq_iff, htail]

theorem workloadsFrom_eq_iff {before before' : List String} :
    workloadsFrom api event (standIns event before) =
        workloadsFrom api event (standIns event before') ↔
      (WorkloadsUnanswered api event →
        (standIns event before).map workloadIdentity =
          (standIns event before').map workloadIdentity) := by
  unfold workloadsFrom WorkloadsUnanswered
  by_cases hgiven : payloadItems event "member_workloads" ≠ [] ∨ api.configured = false
  · rw [if_pos hgiven, if_pos hgiven]
    refine iff_of_true rfl fun hnot => ?_
    rcases hgiven with hitems | hconfigured
    · exact absurd hnot.1 hitems
    · rw [hconfigured] at hnot
      cases hnot.2.1
  · obtain ⟨hitems, hconfigured⟩ := not_or.1 hgiven
    rw [if_neg hgiven, if_neg hgiven]
    cases hanswer : api.getWorkspaceMemberWorkloads event.workspaceId with
    | ok workloads =>
        refine iff_of_true rfl fun hnot => ?_
        cases hnot.2.2
    | error exc =>
        have hunanswered : payloadItems event "member_workloads" = [] ∧ api.configured = true ∧
            (Except.error exc : Except ApiError (List Json)).toOption = none :=
          ⟨not_not.1 hitems, by simpa using hconfigured, rfl⟩
        rw [unavailable_eq_iff isObj_of_mem_standIns isObj_of_mem_standIns]
        exact ⟨fun h _ => h, fun h => h hunanswered⟩

/-- What is returned under a key of the list. -/
def valueOf (api : ContextApi) (event : RuntimeEvent) (keys : List String)
    (contextKey : String) : Json :=
  if contextKey = "backlog_signals" then backlogSignals api event (hydrated api event keys)
  else
    entityValue api event (hydrated api event (Dict.beforeLast contextKey keys)) contextKey

theorem valueOf_eq_iff :
    valueOf api event keys contextKey = valueOf api event keys' contextKey ↔
      Stable api event keys keys' contextKey := by
  unfold valueOf
  by_cases hmembers : contextKey = "project_members"
  · subst hmembers
    rw [if_neg (by decide), if_neg (by decide), projectMembers_eq, projectMembers_eq,
      Json.arr.injEq]
    change _ ↔
      payloadItems event "project_members" ≠ [] ∨ payloadItems event "workspace_members" = []
      ∨ _
    by_cases hitems : payloadItems event "project_members" ≠ []
    · simp [hitems]
    · rw [if_neg hitems, if_neg hitems, fallback_eq_iff, or_iff_right hitems]
  by_cases hjobs : contextKey = "project_jobs"
  · subst hjobs
    rw [if_neg (by decide), if_neg (by decide), projectJobs_eq, projectJobs_eq, Json.arr.injEq]
    change _ ↔ (payloadContextValue event.payload "project_jobs").isNull = false ∨
      payloadItems event "workspace_jobs" = [] ∨ _
    by_cases hnull : (payloadContextValue event.payload "project_jobs").isNull = false
    · simp [hnull]
    · rw [if_neg hnull, if_neg hnull, fallback_eq_iff, or_iff_right hnull]
  by_cases hworkloads : contextKey = "member_workloads"
  · subst hworkloads
    rw [if_neg (by decide), if_neg (by decide), memberWorkloads_eq, memberWorkloads_eq,
      Json.arr.injEq]
    exact workloadsFrom_eq_iff
  by_cases hsignals : contextKey = "backlog_signals"
  · subst hsignals
    rw [if_pos rfl, if_pos rfl, backlogSignals_eq, backlogSignals_eq]
    change _ ↔ (payloadContextValue event.payload "backlog_signals").isObj = true ∨ _
    by_cases hexplicit : (payloadContextValue event.payload "backlog_signals").isObj = true
    · simp [hexplicit]
    · rw [if_neg hexplicit, if_neg hexplicit, or_iff_right hexplicit]
  · have hother : Stable api event keys keys' contextKey := by
      unfold Stable
      split
      case h_1 => exact absurd rfl hmembers
      case h_2 => exact absurd rfl hjobs
      case h_3 => exact absurd rfl hworkloads
      case h_4 => exact absurd rfl hsignals
      case h_5 => trivial
    rw [if_neg hsignals, if_neg hsignals]
    exact iff_of_true (entityValue_const hmembers hjobs hworkloads _ _) hother

end Stable

section Fetch

variable {keys : List String}

theorem fetchContextEntities_of_raised {exc : ApiError} (h : raised api event = some exc)
    (hkeys : "pull_request_diff" ∈ keys) :
    fetchContextEntities api event keys = .error exc := by
  unfold fetchContextEntities
  rw [fetchEntities_of_raised h hkeys]
  rfl

/-- Without an error, every key of the list has its value. -/
theorem lookup_fetchContextEntities (h : ¬Raises api event keys) (contextKey : String) :
    (fetchContextEntities api event keys).map (·.lookup contextKey) =
      .ok (if contextKey ∈ keys then some (valueOf api event keys contextKey) else none) := by
  have hloop : fetchContextEntities api event keys =
      if "backlog_signals" ∈ keys then
        .ok (Dict.insert (hydrated api event keys) "backlog_signals"
          (backlogSignals api event (hydrated api event keys)))
      else .ok (hydrated api event keys) := by
    unfold fetchContextEntities
    rw [fetchEntities_of_not_raises h]
    rfl
  have hnone : (hydrated api event keys).lookup "backlog_signals" = none := by
    unfold hydrated
    rw [Dict.lookup_fill, if_neg (by simp)]
    rfl
  rw [hloop]
  unfold valueOf
  by_cases hkey : contextKey = "backlog_signals"
  · subst hkey
    rw [if_pos rfl]
    split
    · exact congrArg Except.ok (Dict.lookup_insert_self _ _ _)
    · exact congrArg Except.ok hnone
  · rw [if_neg hkey, ← lookup_hydrated hkey]
    split
    · exact congrArg Except.ok (Dict.lookup_insert_of_ne hkey)
    · rfl

/-- Something read from the fetched entities is the same for two lists of keys exactly if they
raise alike and, when they do not raise, the values are the same. -/
theorem fetched_eq_iff {keys' : List String} {β : Type} {read : Fields → β} {value value' : β}
    (h : ¬Raises api event keys → (fetchContextEntities api event keys).map read = .ok value)
    (h' : ¬Raises api event keys' → (fetchContextEntities api event keys').map read = .ok value') :
    (fetchContextEntities api event keys).map read =
        (fetchContextEntities api event keys').map read ↔
      RaisesAlike api event keys keys' ∧ (Raises api event keys ∨ value = value') := by
  by_cases hraises : Raises api event keys
  · obtain ⟨exc, hexc⟩ := Option.isSome_iff_exists.1 hraises.2
    rw [fetchContextEntities_of_raised hexc hraises.1]
    by_cases hraises' : Raises api event keys'
    · rw [fetchContextEntities_of_raised hexc hraises'.1]
      exact iff_of_true rfl ⟨iff_of_true hraises hraises', Or.inl hraises⟩
    · rw [h' hraises']
      exact iff_of_false nofun fun hright => hraises' (hright.1.1 hraises)
  · rw [h hraises]
    by_cases hraises' : Raises api event keys'
    · obtain ⟨exc, hexc⟩ := Option.isSome_iff_exists.1 hraises'.2
      rw [fetchContextEntities_of_raised hexc hraises'.1]
      exact iff_of_false nofun fun hright => hraises (hright.1.2 hraises')
    · rw [h' hraises', Except.ok.injEq, or_iff_right hraises]
      exact ⟨fun hvalue => ⟨iff_of_false hraises hraises', hvalue⟩, fun hright => hright.2⟩

theorem entry_eq_iff {keys' : List String} {contextKey : String}
    (h : contextKey ∈ keys ↔ contextKey ∈ keys') :
    (if contextKey ∈ keys then some (valueOf api event keys contextKey) else none) =
        (if contextKey ∈ keys' then some (valueOf api event keys' contextKey) else none) ↔
      (contextKey ∈ keys' → Stable api event keys keys' contextKey) := by
  by_cases hmem : contextKey ∈ keys'
  · rw [if_pos (h.2 hmem), if_pos hmem, Option.some.injEq, valueOf_eq_iff]
    exact ⟨fun hstable _ => hstable, fun hstable => hstable hmem⟩
  · rw [if_neg (h.not.2 hmem), if_neg hmem]
    exact iff_of_true rfl fun hin => absurd hin hmem

end Fetch

section Scopes

variable {workflow : WorkflowDefinition} {declared : List String} {node : OrchestrationNodeDef}

theorem raisesAlike_refl (keys : List String) : RaisesAlike api event keys keys := Iff.rfl

theorem stable_refl (keys : List String) (contextKey : String) :
    Stable api event keys keys contextKey :=
  valueOf_eq_iff.1 rfl

/-- The nodes that an orchestrated workflow plans for. -/
def scopedNodes (workflow : WorkflowDefinition) : List OrchestrationNodeDef :=
  match workflow.orchestration with
  | none => []
  | some orchestration => orchestration.defaultGraph ++ orchestration.synthesizer.toList

/-- Hydration is narrowed only if every node is scoped, and to the keys in some scope. -/
theorem requiredContext_cases (workflow : WorkflowDefinition) (declared : List String) :
    ContextProvider.requiredContext workflow declared = declared ∨
      (scopedNodes workflow ≠ [] ∧ (∀ node ∈ scopedNodes workflow, node.contextScope ≠ []) ∧
        ContextProvider.requiredContext workflow declared =
          declared.filter fun entity =>
            (scopedNodes workflow).any fun node => entity ∈ node.contextScope) := by
  unfold ContextProvider.requiredContext scopedNodes
  cases workflow.orchestration with
  | none => exact Or.inl rfl
  | some orchestration =>
      by_cases hgraph : orchestration.defaultGraph = []
      · exact Or.inl (if_pos hgraph)
      · by_cases hscopes : (orchestration.defaultGraph ++ orchestration.synthesizer.toList).any
            (fun node => node.contextScope.isEmpty) = true
        · refine Or.inl ?_
          simp only [if_neg hgraph]
          rw [if_pos hscopes]
        · refine Or.inr ⟨by simp [hgraph], fun node hnode hempty => hscopes ?_, ?_⟩
          · exact List.any_eq_true.2 ⟨node, hnode, by rw [hempty]; rfl⟩
          · simp only [if_neg hgraph]
            rw [if_neg hscopes]

/-- What a node finds under a key, after hydrating the keys and scoping the context. -/
def scopedEntity (api : ContextApi) (event : RuntimeEvent) (context : AgentContext)
    (keys : List String) (node : OrchestrationNodeDef) (contextKey : String) :
    Except ApiError (Option Json) :=
  (fetchContextEntities api event keys).map fun entities =>
    (Planner.scopeContext { context with entities := entities } node.contextScope).entities.lookup
      contextKey

theorem lookup_scopeContext (hscope : node.contextScope ≠ []) (context : AgentContext)
    (contextKey : String) :
    (Planner.scopeContext context node.contextScope).entities.lookup contextKey =
      if contextKey ∈ node.contextScope then context.entities.lookup contextKey else none := by
  unfold Planner.scopeContext
  rw [if_neg hscope]
  refine (Dict.lookup_filter (fun key => decide (key ∈ node.contextScope)) _ _).trans ?_
  simp

theorem scopedEntity_of_not_raises (hscope : node.contextScope ≠ []) {keys : List String}
    (h : ¬Raises api event keys) (context : AgentContext) (contextKey : String) :
    scopedEntity api event context keys node contextKey =
      .ok (if contextKey ∈ node.contextScope then
          if contextKey ∈ keys then some (valueOf api event keys contextKey) else none
        else none) := by
  have hlookup := lookup_fetchContextEntities h contextKey
  unfold scopedEntity
  cases hfetch : fetchContextEntities api event keys with
  | error exc =>
      rw [hfetch] at hlookup
      cases hlookup
  | ok entities =>
      rw [hfetch] at hlookup
      rw [← Except.ok.inj hlookup]
      exact congrArg Except.ok (lookup_scopeContext hscope _ contextKey)

/-- A scoped node finds the same after either hydration exactly if they raise alike and the
hydrated keys in its scope are stable. -/
theorem scopedEntity_eq_iff {narrowed : List String} (hscope : node.contextScope ≠ [])
    (hnarrowed : ∀ contextKey ∈ node.contextScope,
      (contextKey ∈ narrowed ↔ contextKey ∈ declared)) (context : AgentContext)
    (contextKey : String) :
    scopedEntity api event context narrowed node contextKey =
        scopedEntity api event context declared node contextKey ↔
      RaisesAlike api event narrowed declared ∧ (Raises api event narrowed ∨
        (contextKey ∈ node.contextScope → contextKey ∈ declared →
          Stable api event narrowed declared contextKey)) := by
  refine (fetched_eq_iff (fun h => scopedEntity_of_not_raises hscope h context contextKey)
    (fun h => scopedEntity_of_not_raises hscope h context contextKey)).trans ?_
  by_cases hmem : contextKey ∈ node.contextScope
  · rw [if_pos hmem, if_pos hmem, entry_eq_iff (hnarrowed contextKey hmem),
      forall_prop_of_true hmem]
  · rw [if_neg hmem, if_neg hmem]
    simp [hmem]

theorem mem_filter_scopes (hnode : node ∈ scopedNodes workflow) {contextKey : String}
    (hscope : contextKey ∈ node.contextScope) :
    (contextKey ∈ declared.filter fun entity =>
        (scopedNodes workflow).any fun node => entity ∈ node.contextScope) ↔
      contextKey ∈ declared := by
  rw [List.mem_filter]
  exact and_iff_left (List.any_eq_true.2 ⟨node, hnode, decide_eq_true hscope⟩)

/-- All nodes find the same after the narrowed and the full hydration exactly if they raise
alike and every hydrated key in a scope is stable. -/
theorem narrowed_eq_iff (workflow : WorkflowDefinition) (declared : List String)
    (context : AgentContext) :
    (∀ node ∈ scopedNodes workflow, ∀ contextKey,
        scopedEntity api event context (ContextProvider.requiredContext workflow declared)
            node contextKey =
          scopedEntity api event context declared node contextKey) ↔
      RaisesAlike api event (ContextProvider.requiredContext workflow declared) declared ∧
        (Raises api event (ContextProvider.requiredContext workflow declared) ∨
          ∀ node ∈ scopedNodes workflow, ∀ contextKey ∈ node.contextScope,
            contextKey ∈ declared →
              Stable api event (ContextProvider.requiredContext workflow declared) declared
                contextKey) := by
  rcases requiredContext_cases workflow declared with heq | ⟨hsome, hscopes, heq⟩
  · rw [heq]
    exact iff_of_true (fun _ _ _ => rfl)
      ⟨raisesAlike_refl declared, Or.inr fun _ _ _ _ _ => stable_refl declared _⟩
  · obtain ⟨first, hfirst⟩ := List.exists_mem_of_ne_nil _ hsome
    rw [heq]
    have hnode := fun node (hnode : node ∈ scopedNodes workflow) contextKey =>
      @scopedEntity_eq_iff api event declared node _ (hscopes node hnode)
        (fun _ hkey => mem_filter_scopes hnode hkey) context contextKey
    constructor
    · intro h
      refine ⟨((hnode first hfirst "").1 (h first hfirst "")).1, ?_⟩
      by_contra hnot
      obtain ⟨hraises, hunstable⟩ := not_or.1 hnot
      refine hunstable fun node hmem contextKey hkey hdeclared => ?_
      exact ((hnode node hmem contextKey).1 (h node hmem contextKey)).2.resolve_left hraises
        hkey hdeclared
    · rintro ⟨halike, hright⟩ node hmem contextKey
      refine (hnode node hmem contextKey).2 ⟨halike, hright.imp_right fun hstable => ?_⟩
      exact hstable node hmem contextKey

end Scopes

end PrismApiClient

open PrismApiClient

/-- Two lists with a common key return the same under it exactly if they raise alike and, when
they do not raise, the key is stable; and the narrowed hydration gives every node what the full
one gives exactly if they raise alike and, when they do not raise, every declared key in a
scope is stable. -/
theorem hydration_stable_iff (api : ContextApi) (event : RuntimeEvent) :
    (∀ (keys keys' : List String) (contextKey : String),
      contextKey ∈ keys → contextKey ∈ keys' →
        ((fetchContextEntities api event keys).map (·.lookup contextKey) =
            (fetchContextEntities api event keys').map (·.lookup contextKey) ↔
          RaisesAlike api event keys keys' ∧
            (Raises api event keys ∨ Stable api event keys keys' contextKey))) ∧
    ∀ (workflow : WorkflowDefinition) (declared : List String) (context : AgentContext),
      (∀ node ∈ scopedNodes workflow, ∀ contextKey,
          scopedEntity api event context (ContextProvider.requiredContext workflow declared)
              node contextKey =
            scopedEntity api event context declared node contextKey) ↔
        RaisesAlike api event (ContextProvider.requiredContext workflow declared) declared ∧
          (Raises api event (ContextProvider.requiredContext workflow declared) ∨
            ∀ node ∈ scopedNodes workflow, ∀ contextKey ∈ node.contextScope,
              contextKey ∈ declared →
                Stable api event (ContextProvider.requiredContext workflow declared) declared
                  contextKey) := by
  refine ⟨fun keys keys' contextKey h h' => ?_, narrowed_eq_iff⟩
  refine (fetched_eq_iff (fun hnot => lookup_fetchContextEntities hnot contextKey)
    (fun hnot => lookup_fetchContextEntities hnot contextKey)).trans ?_
  rw [entry_eq_iff (iff_of_true h h'), forall_prop_of_true h']

/-- An event whose payload lists the members of the workspace. -/
def membersEvent : RuntimeEvent :=
  { eventId := "event", eventType := "backlog.loop", kind := .domain, workspaceId := "w",
    idempotencyKey := "i",
    payload := [("workspace_members", .arr [.obj [("userId", .str "u1")]])] }

/-- A client without an API. -/
def unconfiguredApi : ContextApi :=
  { configured := false
    searchWorkItems := fun _ _ => .ok []
    getWorkspaceSprints := fun _ => .ok []
    getWorkspaceMemberWorkloads := fun _ => .ok []
    getPullRequest := fun _ _ => .ok .null
    computeBacklogSignals := fun _ _ => .null }

def membersNode : OrchestrationNodeDef :=
  { node := "n", contextScope := ["project_members"] }

def membersWorkflow : WorkflowDefinition :=
  { id := "backlog", triggerTypes := [], requiredSkills := [], promptId := "backlog",
    promptVersion := "v1", approvalPolicy := [], approvalPolicy_nodup := List.nodup_nil,
    orchestration := some { defaultGraph := [membersNode] } }

def membersContext : AgentContext :=
  { workspaceId := "w", projectId := none, sourceEvent := .wrap membersEvent,
    workflowId := "backlog" }

/-- The members of the workspace are the same wherever they stand in the list. -/
theorem workspace_members_stable :
    (fetchContextEntities unconfiguredApi membersEvent
        ["workspace_members", "project_members"]).map (·.lookup "workspace_members") =
      (fetchContextEntities unconfiguredApi membersEvent
        ["project_members", "workspace_members"]).map (·.lookup "workspace_members") :=
  ((hydration_stable_iff unconfiguredApi membersEvent).1 _ _ "workspace_members"
    (by decide) (by decide)).2
    ⟨iff_of_false (fun h => absurd h.1 (by decide)) fun h => absurd h.1 (by decide),
      Or.inr trivial⟩

/-- The project's members are those of the workspace only if these are hydrated before. -/
theorem project_members_unstable :
    (¬∀ (api : ContextApi) (event : RuntimeEvent) (keys keys' : List String)
        (contextKey : String), contextKey ∈ keys → contextKey ∈ keys' →
      (fetchContextEntities api event keys).map (·.lookup contextKey) =
        (fetchContextEntities api event keys').map (·.lookup contextKey)) ∧
    ¬∀ (api : ContextApi) (event : RuntimeEvent) (workflow : WorkflowDefinition)
        (declared : List String) (context : AgentContext), ∀ node ∈ scopedNodes workflow,
      ∀ contextKey,
        scopedEntity api event context (ContextProvider.requiredContext workflow declared)
            node contextKey =
          scopedEntity api event context declared node contextKey := by
  have hafter : (fetchContextEntities unconfiguredApi membersEvent
      ["workspace_members", "project_members"]).map (·.lookup "project_members") =
        .ok (some (.arr [.obj [("userId", .str "u1")]])) := rfl
  have hbefore : (fetchContextEntities unconfiguredApi membersEvent
      ["project_members", "workspace_members"]).map (·.lookup "project_members") =
        .ok (some (.arr [])) := rfl
  refine ⟨fun h => ?_, fun h => ?_⟩
  · have heq := h unconfiguredApi membersEvent ["workspace_members", "project_members"]
      ["project_members", "workspace_members"] "project_members" (by decide) (by decide)
    rw [hafter, hbefore] at heq
    cases heq
  · have heq := h unconfiguredApi membersEvent membersWorkflow
      ["workspace_members", "project_members"]
      membersContext membersNode List.mem_cons_self "project_members"
    have hnarrowed : scopedEntity unconfiguredApi membersEvent membersContext
        ["project_members"] membersNode "project_members" = .ok (some (.arr [])) := rfl
    have hfull : scopedEntity unconfiguredApi membersEvent membersContext
        ["workspace_members", "project_members"] membersNode "project_members" =
          .ok (some (.arr [.obj [("userId", .str "u1")]])) := rfl
    have hrequired : ContextProvider.requiredContext membersWorkflow
        ["workspace_members", "project_members"] = ["project_members"] := by decide
    rw [hrequired, hnarrowed, hfull] at heq
    cases heq

end PrismAgent
