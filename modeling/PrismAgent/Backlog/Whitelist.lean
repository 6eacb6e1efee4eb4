import PrismAgent.Backlog.Protection
import PrismAgent.Effect.Calls

/-!
# What a bulk update may send

Every PATCH of a bulk update goes to an unstarted item of the hydrated context, with fields
that may be edited and values that the API accepts, and every update of an accepted input has
one entry in the result, among the applied ones or among the skipped ones.
-/

namespace PrismAgent

open Effect UpdateWorkItemsBulkTool

section Keys

variable {rules : TextRules} {known : Dict String String} {update current payload : Fields}
  {key : String}

/-- The fields that a bulk update may change. -/
def EDITABLE_FIELDS : List String :=
  ["description", "priority", "dueDate", "assigneeUsernames", "labelNames"]

theorem mem_keys_of_fixField {field : String} {fix : Json → Option Json}
    (h : key ∈ Dict.keys (fixField field fix payload)) : key ∈ Dict.keys payload := by
  unfold fixField at h
  cases hvalue : payload.lookup field with
  | none => rwa [hvalue] at h
  | some value =>
      rw [hvalue] at h
      dsimp only at h
      cases hfixed : fix value with
      | none =>
          rw [hfixed] at h
          exact (Dict.mem_keys_erase.1 h).1
      | some fixed =>
          rw [hfixed] at h
          rcases Dict.mem_keys_insert.1 h with rfl | h
          · exact Dict.isSome_lookup_iff.1 (by rw [hvalue]; rfl)
          · exact h

/-- Normalization adds no field. -/
theorem mem_keys_of_normalizeNodePayload
    (h : key ∈ Dict.keys (normalizeNodePayload rules known payload)) :
    key ∈ Dict.keys payload := by
  unfold normalizeNodePayload at h
  exact mem_keys_of_fixField (mem_keys_of_fixField (mem_keys_of_fixField (mem_keys_of_fixField
    (mem_keys_of_fixField (mem_keys_of_fixField h)))))

theorem mem_keys_of_dropField {field : String} {blocked : Bool}
    (h : key ∈ Dict.keys (dropField payload field blocked).1) : key ∈ Dict.keys payload := by
  unfold dropField at h
  split at h
  · exact (Dict.mem_keys_erase.1 h).1
  · exact h

theorem mem_keys_filterPayload {allowed : List String}
    (h : key ∈ Dict.keys (filterPayload payload allowed)) : key ∈ allowed := by
  obtain ⟨entry, hentry, rfl⟩ := List.mem_map.1 h
  have hallowed := (List.mem_filter.1 hentry).2
  rw [Bool.and_eq_true, decide_eq_true_eq] at hallowed
  exact hallowed.1

/-- What is not protected was in the payload, and is no title and no status. -/
theorem mem_keys_of_dropProtectedFields
    (h : key ∈ Dict.keys (dropProtectedFields payload current).1) :
    key ∈ Dict.keys payload ∧ key ≠ "title" ∧ key ≠ "status" := by
  unfold dropProtectedFields at h
  have hpopped := mem_keys_of_dropField (mem_keys_of_dropField h)
  obtain ⟨hpopped, hstatus⟩ := Dict.mem_keys_erase.1 hpopped
  obtain ⟨hkey, htitle⟩ := Dict.mem_keys_erase.1 hpopped
  exact ⟨hkey, htitle, hstatus⟩

/-- A payload has none but editable fields. -/
theorem mem_editable_of_payloadFor
    (h : key ∈ Dict.keys (payloadFor rules known update current)) : key ∈ EDITABLE_FIELDS := by
  unfold payloadFor at h
  obtain ⟨hfiltered, htitle, hstatus⟩ :=
    mem_keys_of_dropProtectedFields (mem_keys_of_normalizeNodePayload h)
  have hbulk := mem_keys_filterPayload hfiltered
  simp only [BULK_UPDATE_FIELDS, EDITABLE_FIELDS, List.mem_cons, List.not_mem_nil,
    or_false] at hbulk ⊢
  rcases hbulk with rfl | rfl | rfl | rfl | rfl | rfl | rfl
  all_goals first | exact absurd rfl htitle | exact absurd rfl hstatus | simp

theorem lookup_payloadFor_priority :
    (payloadFor rules known update current).lookup "priority" =
      (carried update "priority").bind (fixEnum rules WORK_ITEM_PRIORITIES) := by
  unfold payloadFor normalizeNodePayload dropProtectedFields
  dsimp only
  rw [lookup_fixField_of_ne (by decide), lookup_fixField_of_ne (by decide),
    lookup_fixField_of_ne (by decide), lookup_fixField_of_ne (by decide),
    lookup_fixField_of_ne (by decide), lookup_fixField_self, lookup_dropField_of_ne (by decide),
    lookup_dropField_of_ne (by decide), lookup_popField_of_ne (by decide),
    lookup_popField_of_ne (by decide)]
  rfl

theorem fixEnum_eq_some {allowed : List String} {value fixed : Json}
    (h : fixEnum rules allowed value = some fixed) : ∃ text ∈ allowed, fixed = .str text := by
  unfold fixEnum at h
  dsimp only at h
  split at h
  next hmem =>
    cases h
    exact ⟨_, hmem, rfl⟩
  next => cases h

end Keys

section Members

variable {rules : TextRules} {context : AgentContext}

/-- The username of a member that the context lists. -/
def IsMember (context : AgentContext) (username : String) : Prop :=
  ∃ key ∈ MEMBER_ENTITY_KEYS, ∃ members, context.entities.lookup key = some (.arr members) ∧
    ∃ fields, .obj fields ∈ members ∧ strip (textField fields "username" "") = username

/-- The names of all listed members. -/
def allMemberNames (rules : TextRules) (context : AgentContext) : List (String × String) :=
  (MEMBER_ENTITY_KEYS.flatMap fun key =>
    match context.entities.lookup key with
    | some (.arr members) => members
    | _ => []).flatMap (memberNames rules)

theorem lookup_knownMemberUsernames (name : String) :
    (knownMemberUsernames rules context).lookup name =
      (allMemberNames rules context).lookup name := by
  unfold knownMemberUsernames allMemberNames
  exact Dict.lookup_foldl_setDefault _ _ _

/-- A name stands for a listed member. -/
theorem isMember_of_mem {name username : String}
    (h : (name, username) ∈ allMemberNames rules context) : IsMember context username := by
  obtain ⟨member, hmember, hname⟩ := List.mem_flatMap.1 h
  obtain ⟨key, hkey, hlisted⟩ := List.mem_flatMap.1 hmember
  split at hlisted
  next members hmembers =>
    refine ⟨key, hkey, members, hmembers, ?_⟩
    cases member with
    | obj fields =>
        refine ⟨fields, hlisted, ?_⟩
        unfold memberNames at hname
        dsimp only at hname
        split at hname
        · cases hname
        · obtain ⟨_, -, hentry⟩ := List.mem_map.1 hname
          exact congrArg Prod.snd hentry
    | _ => cases hname
  next => cases hlisted

/-- A listed member is known. -/
theorem known_of_isMember {username : String} (h : IsMember context username)
    (hne : username ≠ "") : knownMemberUsernames rules context ≠ [] := by
  obtain ⟨key, hkey, members, hmembers, fields, hfields, husername⟩ := h
  have hmem : (rules.lower username, username) ∈ allMemberNames rules context := by
    refine List.mem_flatMap.2 ⟨.obj fields, List.mem_flatMap.2 ⟨key, hkey, ?_⟩, ?_⟩
    · rw [hmembers]
      exact hfields
    · simp [memberNames, husername, hne]
  intro hnil
  have hsome : ((allMemberNames rules context).lookup (rules.lower username)).isSome = true :=
    Dict.isSome_lookup_iff.2 (List.mem_map_of_mem hmem)
  rw [← lookup_knownMemberUsernames, hnil] at hsome
  cases hsome

/-- Every name that is left stands for a known member. -/
theorem mem_cleanUsernames {known : Dict String String} (hknown : known ≠ []) {raw : Json}
    {username : String} (h : username ∈ cleanUsernames rules known raw) :
    ∃ name, known.lookup name = some username := by
  unfold cleanUsernames at h
  dsimp only at h
  refine List.foldlRecOn
    (motive := fun cleaned => ∀ u ∈ cleaned, ∃ name, known.lookup name = some u) _ _
    (List.forall_mem_nil _) (fun cleaned hcleaned name _ => ?_) username h
  split
  · exact hcleaned
  · split
    next resolved hresolved =>
      split
      · exact hcleaned
      · rw [List.forall_mem_append, List.forall_mem_singleton]
        refine ⟨hcleaned, ?_⟩
        unfold resolveUsername at hresolved
        rw [if_neg hknown] at hresolved
        exact ⟨_, (Option.filter_eq_some_iff.1 hresolved).1⟩
    next => exact hcleaned

/-- Assignees are usernames, of listed members where the context lists any. -/
theorem fixAssignees_eq_some {value fixed : Json}
    (h : fixAssignees rules (knownMemberUsernames rules context) value = some fixed) :
    ∃ usernames : List String, fixed = .arr (usernames.map .str) ∧
      ((∃ username, IsMember context username ∧ username ≠ "") →
        ∀ username ∈ usernames, IsMember context username) := by
  unfold fixAssignees at h
  dsimp only at h
  split at h
  · cases h
  · cases h
    refine ⟨_, rfl, ?_⟩
    rintro ⟨member, hmember, hne⟩ username husername
    obtain ⟨name, hname⟩ := mem_cleanUsernames (known_of_isMember hmember hne) husername
    rw [lookup_knownMemberUsernames] at hname
    obtain ⟨before, after, hsplit, -⟩ := List.lookup_eq_some_iff.1 hname
    have hmem : (name, username) ∈ allMemberNames rules context := by
      rw [hsplit]
      exact List.mem_append_right before List.mem_cons_self
    exact isMember_of_mem hmem

end Members

section Whitelist

/-- The view of an item that the context shows, and that a bulk update goes by. -/
structure AllowedBy (context : AgentContext) (current payload : Fields) : Prop where
  unstarted : textField current "status" "" = "todo"
  description : (payload.lookup "description").isSome →
    (strip (textField current "description" "")).length < 30
  assignees : ∀ value, payload.lookup "assigneeUsernames" = some value →
    truthyField current "assigneeUsernames" = none ∧
      ∃ usernames : List String, value = .arr (usernames.map .str) ∧
        ((∃ username, IsMember context username ∧ username ≠ "") →
          ∀ username ∈ usernames, IsMember context username)

/-- A PATCH that the policy of bulk updates allows. -/
structure Allowed (context : AgentContext) (itemId : String) (payload : Fields) : Prop where
  canonical : ∃ text, parseUuid text = some itemId
  hydrated : ∃ current, (contextItemIndex context.entities).lookup itemId = some current ∧
    AllowedBy context current payload
  nonempty : payload ≠ []
  keys : ∀ key ∈ Dict.keys payload, key ∈ EDITABLE_FIELDS ∨ key = "requestedByUserId"
  priority : ∀ value, payload.lookup "priority" = some value →
    ∃ text ∈ WORK_ITEM_PRIORITIES, value = .str text

/-- The calls that the policy allows. -/
def AllowedCall (context : AgentContext) : UpdateCall → Prop
  | .updateWorkItem _ itemId payload => Allowed context itemId payload

/-- What becomes of an update: it is applied by a payload and listed with an entry, or skipped and
listed with an entry. -/
inductive UpdateOutcome
  | applied (itemId : String) (payload entry : Fields)
  | skipped (entry : Fields)

namespace UpdateOutcome

/-- The entry among the applied updates. -/
def updateEntry? : UpdateOutcome → Option Json
  | applied _ _ entry => some (.obj entry)
  | skipped _ => none

/-- The entry among the skipped updates. -/
def skippedEntry? : UpdateOutcome → Option Json
  | applied _ _ _ => none
  | skipped entry => some (.obj entry)

/-- The PATCH. -/
def patch? (projectId : String) : UpdateOutcome → Option UpdateCall
  | applied itemId payload _ => some (.updateWorkItem projectId itemId payload)
  | skipped _ => none

end UpdateOutcome

/-- An update is skipped for a reason that is the case, and its entry says so. -/
inductive SkippedFor (rules : TextRules) (context : AgentContext) (update : Fields) :
    Fields → Prop
  | invalidItemId (hid : validUuidOrNone ((update.lookup "itemId").getD .null) = none) :
      SkippedFor rules context update
        [("itemId", (update.lookup "itemId").getD .null), ("reason", .str "invalid_item_id")]
  | notInHydratedContext {itemId : String}
      (hid : validUuidOrNone ((update.lookup "itemId").getD .null) = some itemId)
      (hcurrent : (contextItemIndex context.entities).lookup itemId = none) :
      SkippedFor rules context update
        [("itemId", .str itemId), ("reason", .str "not_in_hydrated_context")]
  | itemStartedOrClosed {itemId : String} {current : Fields}
      (hid : validUuidOrNone ((update.lookup "itemId").getD .null) = some itemId)
      (hcurrent : (contextItemIndex context.entities).lookup itemId = some current)
      (hstatus : textField current "status" "" ≠ "todo") :
      SkippedFor rules context update
        [("itemId", .str itemId), ("reason", .str "item_started_or_closed")]
  | noSafeFields {itemId : String} {current : Fields} (dropped : List String)
      (hid : validUuidOrNone ((update.lookup "itemId").getD .null) = some itemId)
      (hcurrent : (contextItemIndex context.entities).lookup itemId = some current)
      (hstatus : textField current "status" "" = "todo")
      (hpayload : payloadFor rules (knownMemberUsernames rules context) update current = []) :
      SkippedFor rules context update
        [("itemId", .str itemId), ("reason", .str "no_safe_fields"),
          ("droppedFields", .arr (dropped.map .str))]

/-- An applied update goes to its own item with an allowed payload, and its entry shows both. A
skipped one has its reason. -/
def OutcomeOf (rules : TextRules) (context : AgentContext) (update : Fields) :
    UpdateOutcome → Prop
  | .applied itemId payload entry =>
      validUuidOrNone ((update.lookup "itemId").getD .null) = some itemId ∧
        Allowed context itemId payload ∧ ∃ dropped, entry = appliedEntry itemId payload dropped
  | .skipped entry => SkippedFor rules context update entry

/-- Every update has one outcome. The entries of the two lists are theirs, in the order of the
updates, and so are the PATCHes, if there is a client to make them. -/
def Accounts (rules : TextRules) (context : AgentContext) (configured : Bool)
    (projectId : String) (updates : List Fields) (applied skipped : List Json)
    (calls : List UpdateCall) : Prop :=
  ∃ outcomes, List.Forall₂ (OutcomeOf rules context) updates outcomes ∧
    applied = outcomes.filterMap UpdateOutcome.updateEntry? ∧
    skipped = outcomes.filterMap UpdateOutcome.skippedEntry? ∧
    calls = if configured then outcomes.filterMap (UpdateOutcome.patch? projectId) else []

section Accounts

variable {rules : TextRules} {context : AgentContext} {configured : Bool} {projectId : String}
  {update payload entry : Fields} {itemId : String} {updates : List Fields}
  {applied skipped : List Json} {calls : List UpdateCall}

theorem accounts_nil : Accounts rules context configured projectId [] [] [] [] := by
  refine ⟨[], .nil, rfl, rfl, ?_⟩
  cases configured
  · rfl
  · rfl

theorem Accounts.cons_sent (hentry : OutcomeOf rules context update (.applied itemId payload entry))
    (h : Accounts rules context true projectId updates applied skipped calls) :
    Accounts rules context true projectId (update :: updates) (.obj entry :: applied) skipped
      (.updateWorkItem projectId itemId payload :: calls) := by
  obtain ⟨outcomes, houtcomes, rfl, rfl, rfl⟩ := h
  exact ⟨_ :: outcomes, .cons hentry houtcomes, rfl, rfl, rfl⟩

theorem Accounts.cons_unsent
    (hentry : OutcomeOf rules context update (.applied itemId payload entry))
    (h : Accounts rules context false projectId updates applied skipped calls) :
    Accounts rules context false projectId (update :: updates) (.obj entry :: applied) skipped
      calls := by
  obtain ⟨outcomes, houtcomes, rfl, rfl, rfl⟩ := h
  exact ⟨_ :: outcomes, .cons hentry houtcomes, rfl, rfl, rfl⟩

theorem Accounts.cons_skipped (hentry : SkippedFor rules context update entry)
    (h : Accounts rules context configured projectId updates applied skipped calls) :
    Accounts rules context configured projectId (update :: updates) applied
      (.obj entry :: skipped) calls := by
  obtain ⟨outcomes, houtcomes, rfl, rfl, rfl⟩ := h
  exact ⟨.skipped entry :: outcomes, .cons hentry houtcomes, rfl, rfl, rfl⟩

end Accounts

section Decisions

variable {rules : TextRules} {context : AgentContext} {known : Dict String String}
  {index : Dict String Fields}
  {update current payload entry : Fields} {itemId : String} {dropped : List String}

/-- The target of an update is an unstarted item of the index, under its canonical id. -/
theorem target_eq_ok (h : target index update = .ok (itemId, current)) :
    validUuidOrNone ((update.lookup "itemId").getD .null) = some itemId ∧
      index.lookup itemId = some current ∧ textField current "status" "" = "todo" := by
  unfold target at h
  dsimp only at h
  cases hid : validUuidOrNone ((update.lookup "itemId").getD .null) with
  | none =>
      rw [hid] at h
      cases h
  | some canonical =>
      rw [hid] at h
      dsimp only at h
      cases hcurrent : index.lookup canonical with
      | none =>
          rw [hcurrent] at h
          cases h
      | some item =>
          rw [hcurrent] at h
          dsimp only at h
          split at h
          next hstatus =>
            cases h
            exact ⟨rfl, hcurrent, List.mem_singleton.1 hstatus⟩
          next => cases h

theorem skippedFor_of_target_error
    (h : target (contextItemIndex context.entities) update = .error entry) :
    SkippedFor rules context update entry := by
  unfold target at h
  dsimp only at h
  cases hid : validUuidOrNone ((update.lookup "itemId").getD .null) with
  | none =>
      rw [hid] at h
      cases h
      exact .invalidItemId hid
  | some canonical =>
      rw [hid] at h
      dsimp only at h
      cases hcurrent : (contextItemIndex context.entities).lookup canonical with
      | none =>
          rw [hcurrent] at h
          cases h
          exact .notInHydratedContext hid hcurrent
      | some item =>
          rw [hcurrent] at h
          dsimp only at h
          split at h
          next => cases h
          next hstatus =>
            cases h
            exact .itemStartedOrClosed hid hcurrent fun htodo =>
              hstatus (List.mem_singleton.2 htodo)

theorem skippedFor_of_skip (h : decideUpdate rules (knownMemberUsernames rules context)
      (contextItemIndex context.entities) update = .skip entry) :
    SkippedFor rules context update entry := by
  unfold decideUpdate at h
  cases htarget : target (contextItemIndex context.entities) update with
  | error refused =>
      rw [htarget] at h
      cases h
      exact skippedFor_of_target_error htarget
  | ok found =>
      obtain ⟨itemId, current⟩ := found
      rw [htarget] at h
      dsimp only at h
      obtain ⟨hid, hcurrent, hstatus⟩ := target_eq_ok htarget
      split at h
      next hpayload =>
        cases h
        exact .noSafeFields _ hid hcurrent hstatus (List.isEmpty_iff.1 hpayload)
      next => cases h

/-- An update that is patched has a target, and its payload is not empty. -/
theorem target_of_patch
    (h : decideUpdate rules known index update = .patch itemId payload dropped) :
    ∃ current, target index update = .ok (itemId, current) ∧
      payload = payloadFor rules known update current ∧ payload ≠ [] := by
  unfold decideUpdate at h
  cases htarget : target index update with
  | error refused =>
      rw [htarget] at h
      cases h
  | ok found =>
      obtain ⟨target, current⟩ := found
      rw [htarget] at h
      dsimp only at h
      split at h
      next => cases h
      next hpayload =>
        cases h
        exact ⟨current, rfl, rfl, fun hnil => hpayload (by rw [hnil]; rfl)⟩

end Decisions

section Execution

variable {rules : TextRules} {context : AgentContext} {update current : Fields} {key : String}

theorem keys_withRequester {payload : Fields} {requester : Option String}
    (h : key ∈ Dict.keys (withRequester payload requester)) :
    key ∈ Dict.keys payload ∨ key = "requestedByUserId" := by
  unfold withRequester at h
  split at h
  · split at h
    · exact .inl h
    · rw [Dict.keys, List.map_append, List.mem_append] at h
      exact h.imp_right List.mem_singleton.1
  · exact .inl h

theorem withRequester_ne_nil {payload : Fields} {requester : Option String} (h : payload ≠ []) :
    withRequester payload requester ≠ [] := by
  unfold withRequester
  split
  · split
    · exact h
    · exact List.append_ne_nil_of_left_ne_nil h _
  · exact h

/-- The payload for an unstarted item goes by what the context shows. -/
theorem allowedBy_payloadFor (hstatus : textField current "status" "" = "todo")
    (requester : Option String) :
    AllowedBy context current (withRequester
      (payloadFor rules (knownMemberUsernames rules context) update current) requester) := by
  refine ⟨hstatus, ?_, ?_⟩
  · intro hsome
    rw [lookup_withRequester (by decide), lookup_payloadFor_description] at hsome
    split at hsome
    · cases hsome
    next hreal =>
      rw [isReal, decide_eq_true_eq] at hreal
      exact Nat.lt_of_not_le hreal
  · intro value hvalue
    rw [lookup_withRequester (by decide), lookup_payloadFor_assignees] at hvalue
    split at hvalue
    · cases hvalue
    next hnone =>
      obtain ⟨given, -, hfixed⟩ := Option.bind_eq_some_iff.1 hvalue
      exact ⟨Option.not_isSome_iff_eq_none.1 hnone, fixAssignees_eq_some hfixed⟩

/-- What is sent for a target is allowed. -/
theorem allowed_payloadFor {itemId : String}
    (htarget : target (contextItemIndex context.entities) update = .ok (itemId, current))
    (hpayload : payloadFor rules (knownMemberUsernames rules context) update current ≠ [])
    (requester : Option String) :
    Allowed context itemId (withRequester
      (payloadFor rules (knownMemberUsernames rules context) update current) requester) where
  canonical := by
    have hid := (target_eq_ok htarget).1
    unfold validUuidOrNone at hid
    split at hid
    · cases hid
    · exact ⟨_, hid⟩
  hydrated := by
    obtain ⟨-, hcurrent, hstatus⟩ := target_eq_ok htarget
    exact ⟨current, hcurrent, allowedBy_payloadFor hstatus requester⟩
  nonempty := withRequester_ne_nil hpayload
  keys key hkey := (keys_withRequester hkey).imp_left mem_editable_of_payloadFor
  priority value hvalue := by
    rw [lookup_withRequester (by decide), lookup_payloadFor_priority] at hvalue
    obtain ⟨given, -, hfixed⟩ := Option.bind_eq_some_iff.1 hvalue
    exact fixEnum_eq_some hfixed

theorem outcomeOf_applied {itemId : String} {dropped : List String}
    (htarget : target (contextItemIndex context.entities) update = .ok (itemId, current))
    (hpayload : payloadFor rules (knownMemberUsernames rules context) update current ≠ [])
    (requester : Option String) :
    OutcomeOf rules context update (.applied itemId
      (withRequester (payloadFor rules (knownMemberUsernames rules context) update current)
        requester)
      (appliedEntry itemId (withRequester
        (payloadFor rules (knownMemberUsernames rules context) update current) requester)
          dropped)) :=
  ⟨(target_eq_ok htarget).1, allowed_payloadFor htarget hpayload requester, dropped, rfl⟩

variable {configured : Bool} {projectId : String} {requester : Option String}

/-- The loop sends what is allowed, also when a call raises, and else accounts for every update. -/
theorem wp_applyUpdates_logged (updates : List Fields) (log : List UpdateCall) :
    (applyUpdates rules (knownMemberUsernames rules context) (contextItemIndex context.entities)
      configured projectId requester updates).wp logged (fun r log' => ∃ calls,
        log' = log ++ calls ∧ (∀ call ∈ calls, AllowedCall context call) ∧
          ∀ lists, r = .ok lists →
            Accounts rules context configured projectId updates lists.1 lists.2 calls) log := by
  induction updates generalizing log with
  | nil =>
      refine ⟨[], (List.append_nil log).symm, List.forall_mem_nil _, ?_⟩
      rintro _ ⟨⟩
      exact accounts_nil
  | cons update updates ih =>
      unfold applyUpdates
      cases hdecision : decideUpdate rules (knownMemberUsernames rules context)
        (contextItemIndex context.entities) update with
      | skip entry =>
          dsimp only
          rw [Program.wp_bind]
          refine Program.wp_mono (ih log) ?_
          rintro r log' ⟨calls, hlog, hcalls, haccounts⟩
          cases r with
          | error x => exact ⟨calls, hlog, hcalls, fun _ h => by cases h⟩
          | ok lists =>
              refine ⟨calls, hlog, hcalls, ?_⟩
              rintro _ ⟨⟩
              exact (haccounts lists rfl).cons_skipped (skippedFor_of_skip hdecision)
      | patch itemId payload dropped =>
          obtain ⟨current, htarget, rfl, hpayload⟩ := target_of_patch hdecision
          dsimp only
          split
          next hconfigured =>
            subst hconfigured
            have hallowed := allowed_payloadFor htarget hpayload requester
            rw [Program.wp_bind, Program.wp_perform_logged]
            intro answer
            cases answer with
            | error x =>
                refine ⟨[_], rfl, List.forall_mem_singleton.2 hallowed, fun _ h => by cases h⟩
            | ok output =>
                rw [Program.andThen_ok, Program.wp_bind]
                refine Program.wp_mono (ih _) ?_
                rintro r log' ⟨calls, rfl, hcalls, haccounts⟩
                have hsent : ∀ call ∈ UpdateCall.updateWorkItem projectId itemId
                    (withRequester (payloadFor rules (knownMemberUsernames rules context) update
                      current) requester) :: calls, AllowedCall context call :=
                  List.forall_mem_cons.2 ⟨hallowed, hcalls⟩
                cases r with
                | error x =>
                    exact ⟨_, List.append_assoc _ _ _, hsent, fun _ h => by cases h⟩
                | ok lists =>
                    refine ⟨_, List.append_assoc _ _ _, hsent, ?_⟩
                    rintro _ ⟨⟩
                    exact (haccounts lists rfl).cons_sent
                      (outcomeOf_applied htarget hpayload requester)
          next hconfigured =>
            rw [Bool.not_eq_true] at hconfigured
            subst hconfigured
            rw [Program.wp_bind]
            refine Program.wp_mono (ih log) ?_
            rintro r log' ⟨calls, hlog, hcalls, haccounts⟩
            cases r with
            | error x => exact ⟨calls, hlog, hcalls, fun _ h => by cases h⟩
            | ok lists =>
                refine ⟨calls, hlog, hcalls, ?_⟩
                rintro _ ⟨⟩
                exact (haccounts lists rfl).cons_unsent (outcomeOf_applied htarget hpayload none)

theorem returns_applyUpdates (known : Dict String String) (index : Dict String Fields)
    (updates : List Fields) :
    (applyUpdates rules known index configured projectId requester updates).Returns := by
  induction updates with
  | nil => trivial
  | cons update updates ih =>
      unfold applyUpdates
      cases decideUpdate rules known index update with
      | skip entry => exact ih.bind fun _ => trivial
      | patch itemId payload dropped =>
          dsimp only
          split
          · exact Program.Returns.bind (Program.returns_perform _) fun _ =>
              ih.bind fun _ => trivial
          · exact ih.bind fun _ => trivial

theorem invalid_of_refused {loads : String → Option Json} {input : Fields} {error : String}
    (h : acceptedUpdates loads input = .error error) :
    validateWorkItemUpdates (coerceWorkItemUpdates loads input) ≠ none := by
  intro hvalid
  unfold acceptedUpdates at h
  dsimp only at h
  rw [hvalid] at h
  cases h

theorem valid_of_accepted {loads : String → Option Json} {input : Fields}
    {updates : List Fields} (h : acceptedUpdates loads input = .ok updates) :
    validateWorkItemUpdates (coerceWorkItemUpdates loads input) = none := by
  unfold acceptedUpdates at h
  dsimp only at h
  cases hvalid : validateWorkItemUpdates (coerceWorkItemUpdates loads input) with
  | some error =>
      rw [hvalid] at h
      cases h
  | none => rfl

/-- Accepted updates are all objects, and all of them are accepted. -/
theorem coerced_of_accepted {loads : String → Option Json} {input : Fields}
    {updates : List Fields} (h : acceptedUpdates loads input = .ok updates) :
    coerceWorkItemUpdates loads input = some (updates.map .obj) := by
  have hvalid := valid_of_accepted h
  unfold acceptedUpdates at h
  dsimp only at h
  rw [hvalid] at h
  cases h
  cases hcoerced : coerceWorkItemUpdates loads input with
  | none =>
      rw [hcoerced] at hvalid
      cases hvalid
  | some coerced =>
      rw [hcoerced] at hvalid
      rw [Option.getD_some, List.map_filterMap]
      have hobj : ∀ update ∈ coerced, (Json.asObj? update).map Json.obj = some update := by
        unfold validateWorkItemUpdates at hvalid
        dsimp only [Option.getD_some] at hvalid
        split at hvalid
        · cases hvalid
        · split at hvalid
          · cases hvalid
          · intro update hupdate
            have hnone := List.findSome?_eq_none_iff.1 hvalid update hupdate
            cases update with
            | obj fields => rfl
            | _ => cases hnone
      rw [List.filterMap_congr hobj, List.filterMap_some]

/-- Either the updates are not valid and refused without a call, or every PATCH is allowed and a
result there is unless a call raises. The result has one entry for every update: among the applied
ones with the PATCH that was made for it, or among the skipped ones with the reason why none was. -/
theorem bulk_update_whitelisted (rules : TextRules) (loads : String → Option Json)
    (configured : Bool) (resultId : String) (action : PlannedAction) (context : AgentContext) :
    (validateWorkItemUpdates (coerceWorkItemUpdates loads action.input) ≠ none ∧
      ∃ result, execute rules loads configured resultId action context = .pure result ∧
        result.success = false) ∨
    ∃ updates, coerceWorkItemUpdates loads action.input = some (updates.map .obj) ∧
      validateWorkItemUpdates (some (updates.map .obj)) = none ∧
      (execute rules loads configured resultId action context).Returns ∧
      (execute rules loads configured resultId action context).wp logged (fun r calls =>
        (∀ call ∈ calls, AllowedCall context call) ∧ ∀ result, r = .ok result →
          result.success = true ∧ ∃ applied skipped,
            Accounts rules context configured
              (textField action.input "projectId" (context.projectId.getD "")) updates applied
              skipped calls ∧
            result.output.lookup "updates" = some (.arr applied) ∧
            result.output.lookup "skipped" = some (.arr skipped) ∧
            result.output.lookup "updatedCount" = some (.int applied.length)) [] := by
  unfold execute
  dsimp only
  cases haccepted : acceptedUpdates loads action.input with
  | error error => exact .inl ⟨invalid_of_refused haccepted, _, rfl, rfl⟩
  | ok updates =>
      have hcoerced := coerced_of_accepted haccepted
      refine .inr ⟨updates, hcoerced, hcoerced ▸ valid_of_accepted haccepted, ?_, ?_⟩
      · exact (returns_applyUpdates _ _ _).bind fun _ => trivial
      · dsimp only
        rw [Program.wp_bind]
        refine Program.wp_mono (wp_applyUpdates_logged updates []) ?_
        rintro r log ⟨calls, rfl, hcalls, haccounts⟩
        cases r with
        | error x => exact ⟨hcalls, fun _ h => by cases h⟩
        | ok lists =>
            refine ⟨hcalls, ?_⟩
            rintro _ ⟨⟩
            exact ⟨rfl, lists.1, lists.2, haccounts lists rfl, rfl, rfl, rfl⟩

end Execution

end Whitelist

end PrismAgent
