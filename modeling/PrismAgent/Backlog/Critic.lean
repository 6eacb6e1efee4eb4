import PrismAgent.Backlog.Views
import PrismAgent.Backlog.Whitelist
import PrismAgent.Capabilities.PlanQuality

/-!
# The critic and the update policy

The critic of plans and the tool of bulk updates both look up the items of the updates in the
context. The critic takes an id as it is spelt, reads the project's list first and blocks some
statuses; the tool takes the canonical id, reads the backlog first and allows one status. An
update that passes the critic passes the policy where the two readings agree.
-/

namespace PrismAgent

open Effect UpdateWorkItemsBulkTool PlanQuality

section Listings

/-- The first listed item of an id, the lists being read in the order of their keys. -/
def firstListed (keys : List String) (entities : Fields) (itemId : String) : Option Fields :=
  ((keys.flatMap (contextItems entities)).filterMap Json.asObj?).find? fun item =>
    itemIdOf item = some itemId

theorem lookup_filterMap_indexEntry (listed : List Json) (itemId : String) :
    (listed.filterMap indexEntry).lookup itemId =
      (listed.filterMap Json.asObj?).find? fun item => itemIdOf item = some itemId := by
  induction listed with
  | nil => rfl
  | cons item listed ih =>
      cases item with
      | obj fields =>
          have hobj : Json.asObj? (.obj fields) = some fields := rfl
          rw [List.filterMap_cons_some hobj]
          cases hid : itemIdOf fields with
          | none =>
              rw [List.filterMap_cons_none (by simp [indexEntry, Json.asObj?, hid]), ih,
                List.find?_cons_of_neg (by simp [hid])]
          | some id =>
              rw [List.filterMap_cons_some (b := (id, fields))
                (by simp [indexEntry, Json.asObj?, hid]), List.lookup_cons]
              by_cases heq : id = itemId
              · subst heq
                simp [hid]
              · rw [beq_false_of_ne (Ne.symm heq), ih, List.find?_cons_of_neg (by simp [hid, heq])]
      | _ => exact ih

theorem lookup_foldl_indexItem (listed : List Json) (itemId : String) :
    (listed.foldl indexItem []).lookup itemId =
      (listed.filterMap Json.asObj?).find? fun item => itemIdOf item = some itemId := by
  rw [foldl_indexItem, Dict.lookup_foldl_setDefault, List.lookup_nil, Option.none_or,
    lookup_filterMap_indexEntry]

variable (entities : Fields) (itemId : String)

theorem lookup_knownItemIndex :
    (knownItemIndex entities).lookup itemId =
      firstListed EXISTING_WORK_ENTITY_KEYS entities itemId :=
  lookup_foldl_indexItem _ _

theorem lookup_contextItemIndex :
    (contextItemIndex entities).lookup itemId = firstListed CONTEXT_ITEM_KEYS entities itemId :=
  lookup_foldl_indexItem _ _

end Listings

section Readings

variable (entities update : Fields)

/-- The critic objects to the target of an update: as it is spelt, the id is no listed item's,
or the first record of the item is a started or closed one. -/
def Flagged : Prop :=
  let itemId := textField update "itemId" ""
  (itemId ≠ "" ∧ firstListed EXISTING_WORK_ENTITY_KEYS entities itemId = none) ∨
    ∃ item, firstListed EXISTING_WORK_ENTITY_KEYS entities itemId = some item ∧
      textField item "status" "" ∈ blockedStatuses true

/-- The tool's reading of an update allows what the critic's does: the canonical id is a listed
item's, and the first record of the item has one of the statuses that there are, no started or
closed one. -/
def Unstarted : Prop :=
  ∃ itemId item, validUuidOrNone (getField update "itemId") = some itemId ∧
    firstListed CONTEXT_ITEM_KEYS entities itemId = some item ∧
    textField item "status" "" ∈ WORK_ITEM_STATUSES ∧
    textField item "status" "" ∉ blockedStatuses true

/-- Of the statuses that there are, the one that does not block an update is the mutable one. -/
theorem mutable_iff (status : String) :
    status ∈ MUTABLE_UPDATE_STATUSES ↔
      status ∈ WORK_ITEM_STATUSES ∧ status ∉ blockedStatuses true := by
  have hall : ∀ status ∈ WORK_ITEM_STATUSES,
      (status ∈ MUTABLE_UPDATE_STATUSES ↔ status ∉ blockedStatuses true) := by decide
  constructor
  · intro hmutable
    have hstatus : status ∈ WORK_ITEM_STATUSES := by
      rw [List.mem_singleton.1 hmutable]
      decide
    exact ⟨hstatus, (hall status hstatus).1 hmutable⟩
  · exact fun h => (hall status h.1).2 h.2

end Readings

section Critic

variable {rules : TextRules} {loads : String → Option Json} {entities : Fields}
  {action : PlannedAction} {updates : List Fields}

/-- The critic has no finding on targets that are listed and not blocked. -/
theorem targetItemIssues_eq_nil_iff (hknown : knownItemIndex entities ≠ [])
    (itemIds : List String) (toolName : String) (requireUnstarted : Bool) :
    targetItemIssues itemIds entities toolName requireUnstarted = [] ↔
      unknownTargets (knownItemIndex entities) itemIds = [] ∧
        itemIds.filterMap (blockedTitle (knownItemIndex entities) requireUnstarted) = [] := by
  unfold targetItemIssues
  dsimp only
  rw [if_neg hknown, List.append_eq_nil_iff]
  refine and_congr ?_ ?_
  · split
    next hnil => exact iff_of_true rfl hnil
    next hne => exact iff_of_false (List.cons_ne_nil _ _) hne
  · split
    next hnil => exact iff_of_true rfl hnil
    next hne => exact iff_of_false (List.cons_ne_nil _ _) hne

theorem not_flagged_iff (update : Fields) :
    ¬Flagged entities update ↔
      (textField update "itemId" "" = "" ∨
        (knownItemIndex entities).lookup (textField update "itemId" "") ≠ none) ∧
      blockedTitle (knownItemIndex entities) true (textField update "itemId" "") = none := by
  unfold Flagged blockedTitle
  dsimp only
  rw [lookup_knownItemIndex, not_or, not_and_or, not_ne_iff, Option.map_eq_none_iff,
    Option.filter_eq_none_iff]
  simp

theorem actionIssues_eq_nil_iff (htool : action.toolName = "update_workitems_bulk")
    (hknown : knownItemIndex entities ≠ [])
    (haccepted : acceptedUpdates loads action.input = .ok updates) :
    actionIssues rules loads entities action = [] ↔
      ∀ update ∈ updates, ¬Flagged entities update := by
  have hids : updateItemIds loads action.input =
      updates.map fun update => textField update "itemId" "" := by
    unfold updateItemIds
    rw [coerced_of_accepted haccepted, Option.getD_some, List.filterMap_map]
    congr 1
    exact List.filterMap_some
  unfold actionIssues
  rw [if_neg (by rw [htool]; decide), if_pos htool, targetItemIssues_eq_nil_iff hknown, hids]
  unfold unknownTargets
  rw [List.filter_eq_nil_iff, List.filterMap_eq_nil_iff, List.forall_mem_map, List.forall_mem_map,
    ← forall₂_and]
  refine forall₂_congr fun update _ => ?_
  rw [not_flagged_iff]
  refine and_congr ?_ Iff.rfl
  simp [or_iff_not_imp_left]

end Critic

section Policy

/-- The reasons for which the policy skips an update. -/
def POLICY_REASONS : List String := ["not_in_hydrated_context", "item_started_or_closed"]

/-- An entry of a skipped update gives a reason of the policy. -/
def ByPolicy (entry : Json) : Prop :=
  ∃ fields, entry = .obj fields ∧ ∃ reason ∈ POLICY_REASONS,
    fields.lookup "reason" = some (.str reason)

/-- The result lists no update that the policy skipped. -/
def SkipsNone (result : ToolResult) : Prop :=
  ∀ skipped, result.output.lookup "skipped" = some (.arr skipped) →
    ∀ entry ∈ skipped, ¬ByPolicy entry

/-- The entry of an update that is skipped. -/
def skipEntry (rules : TextRules) (known : Dict String String) (index : Dict String Fields)
    (update : Fields) : Option Fields :=
  match decideUpdate rules known index update with
  | .skip entry => some entry
  | .patch _ _ _ => none

variable {rules : TextRules} {known : Dict String String} {entities update : Fields}
  {configured : Bool} {projectId : String} {requester : Option String}

theorem respects_skipped (index : Dict String Fields) (updates : List Fields) :
    (applyUpdates rules known index configured projectId requester updates).Respects
      { calls := fun _ => True } fun lists =>
        lists.2 = (updates.filterMap (skipEntry rules known index)).map .obj := by
  induction updates with
  | nil => rfl
  | cons update updates ih =>
      unfold applyUpdates
      cases hdecision : decideUpdate rules known index update with
      | skip entry =>
          have hentry : skipEntry rules known index update = some entry := by
            rw [skipEntry, hdecision]
          rw [List.filterMap_cons_some hentry]
          exact ih.bind fun lists hlists => congrArg (Json.obj entry :: ·) hlists
      | patch itemId payload dropped =>
          have hentry : skipEntry rules known index update = none := by
            rw [skipEntry, hdecision]
          rw [List.filterMap_cons_none hentry]
          dsimp only
          split
          · exact (Program.respects_perform trivial fun _ _ => trivial).bind fun _ _ =>
              ih.bind fun lists hlists => hlists
          · exact ih.bind fun lists hlists => hlists

/-- With a valid id, an update has an unstarted target or is skipped for a reason of the policy. -/
theorem target_cases (entities : Fields)
    (hid : (validUuidOrNone (getField update "itemId")).isSome = true) :
    (Unstarted entities update ∧
        ∃ found, target (contextItemIndex entities) update = .ok found) ∨
      (¬Unstarted entities update ∧
        ∃ entry, target (contextItemIndex entities) update = .error entry ∧
          ByPolicy (.obj entry)) := by
  obtain ⟨itemId, hid⟩ := Option.isSome_iff_exists.1 hid
  have hgiven : validUuidOrNone ((update.lookup "itemId").getD .null) = some itemId := hid
  unfold target Unstarted
  dsimp only
  rw [hgiven, hid]
  dsimp only
  rw [lookup_contextItemIndex]
  cases hlisted : firstListed CONTEXT_ITEM_KEYS entities itemId with
  | none =>
      refine .inr ⟨?_, _, rfl, _, rfl, _, List.mem_cons_self, rfl⟩
      rintro ⟨_, item, hsome, hitem, -⟩
      cases hsome
      rw [hlisted] at hitem
      cases hitem
  | some current =>
      by_cases hstatus : textField current "status" "" ∈ MUTABLE_UPDATE_STATUSES
      · exact .inl ⟨⟨itemId, current, rfl, hlisted, (mutable_iff _).1 hstatus⟩, _, if_pos hstatus⟩
      · refine .inr ⟨?_, _, if_neg hstatus, _, rfl, _,
          List.mem_cons_of_mem _ List.mem_cons_self, rfl⟩
        rintro ⟨_, item, hsome, hitem, hunblocked⟩
        cases hsome
        rw [hlisted] at hitem
        cases hitem
        exact hstatus ((mutable_iff _).2 hunblocked)

/-- A target without changes that are safe is no reason of the policy. -/
theorem byPolicy_skipEntry_iff (known : Dict String String)
    (hid : (validUuidOrNone (getField update "itemId")).isSome = true) :
    (∃ entry, skipEntry rules known (contextItemIndex entities) update = some entry ∧
      ByPolicy (.obj entry)) ↔ ¬Unstarted entities update := by
  unfold skipEntry decideUpdate
  rcases target_cases entities hid with ⟨hunstarted, found, htarget⟩ |
    ⟨hunstarted, entry, htarget, hpolicy⟩
  · refine iff_of_false ?_ (not_not_intro hunstarted)
    rintro ⟨entry, hentry, fields, hfields, reason, hreason, hlookup⟩
    cases hfields
    rw [htarget] at hentry
    dsimp only at hentry
    split at hentry
    next hskip =>
      split at hskip
      · cases hskip
        cases hentry
        cases hlookup
        exact absurd hreason (by decide)
      · cases hskip
    next => cases hentry
  · refine iff_of_true ⟨entry, ?_, hpolicy⟩ hunstarted
    rw [htarget]

/-- Whatever the client answers, the policy skips no update if all targets are unstarted. -/
theorem skipsNone_iff {loads : String → Option Json} {resultId : String} {action : PlannedAction}
    {context : AgentContext} {updates : List Fields}
    (haccepted : acceptedUpdates loads action.input = .ok updates)
    (hids : ∀ update ∈ updates, (validUuidOrNone (getField update "itemId")).isSome = true) :
    (∀ result, (execute rules loads configured resultId action context).MayReturn result →
        SkipsNone result) ↔
      ∀ update ∈ updates, Unstarted context.entities update := by
  have hreturns : (execute rules loads configured resultId action context).Returns := by
    unfold execute
    dsimp only
    rw [haccepted]
    exact (returns_applyUpdates _ _ _).bind fun _ => trivial
  have hskipped : (execute rules loads configured resultId action context).Respects
      { calls := fun _ => True } fun result => result.output.lookup "skipped" =
        some (.arr ((updates.filterMap (skipEntry rules (knownMemberUsernames rules context)
          (contextItemIndex context.entities))).map .obj)) := by
    unfold execute
    dsimp only
    rw [haccepted]
    exact (respects_skipped _ updates).bind fun lists hlists => congrArg (some <| Json.arr ·) hlists
  constructor
  · intro hnone update hupdate
    by_contra hstarted
    obtain ⟨entry, hentry, hpolicy⟩ :=
      (byPolicy_skipEntry_iff (knownMemberUsernames rules context) (hids update hupdate)).2 hstarted
    have : ∀ e, Nonempty (UpdateCall.Answer e) := fun e => match e with
      | .updateWorkItem _ _ _ => ⟨([] : Fields)⟩
    obtain ⟨result, hresult⟩ := hreturns.exists_mayReturn
    exact hnone result hresult _ (hskipped.of_mayReturn (fun _ _ => trivial) hresult) _
      (List.mem_map_of_mem (List.mem_filterMap.2 ⟨update, hupdate, hentry⟩)) hpolicy
  · intro hunstarted result hresult skipped hlookup value hvalue hpolicy
    have hlist := (hskipped.of_mayReturn (fun _ _ => trivial) hresult).symm.trans hlookup
    cases hlist
    obtain ⟨entry, hentry, rfl⟩ := List.mem_map.1 hvalue
    obtain ⟨update, hupdate, hskip⟩ := List.mem_filterMap.1 hentry
    exact (byPolicy_skipEntry_iff _ (hids update hupdate)).1 ⟨entry, hskip, hpolicy⟩
      (hunstarted update hupdate)

end Policy

/-- The critic's silence on an action with valid ids rules out that the policy skips one of its
updates if and only if it flags an update or the tool reads all of them as unstarted items'. -/
theorem critic_agrees_iff (rules : TextRules) (loads : String → Option Json) (configured : Bool)
    (resultId : String) (action : PlannedAction) (context : AgentContext)
    (htool : action.toolName = "update_workitems_bulk")
    (hknown : knownItemIndex context.entities ≠ [])
    (hids : ∀ updates, acceptedUpdates loads action.input = .ok updates →
      ∀ update ∈ updates, (validUuidOrNone (getField update "itemId")).isSome = true) :
    (actionIssues rules loads context.entities action = [] →
      ∀ result, (execute rules loads configured resultId action context).MayReturn result →
        SkipsNone result) ↔
    ∀ updates, acceptedUpdates loads action.input = .ok updates →
      (∃ update ∈ updates, Flagged context.entities update) ∨
        ∀ update ∈ updates, Unstarted context.entities update := by
  cases haccepted : acceptedUpdates loads action.input with
  | error error =>
      refine iff_of_true (fun _ result hresult => ?_) fun updates hupdates => nomatch hupdates
      unfold execute at hresult
      dsimp only at hresult
      rw [haccepted] at hresult
      cases hresult
      exact fun skipped hskipped => nomatch hskipped
  | ok updates =>
      rw [actionIssues_eq_nil_iff htool hknown haccepted,
        skipsNone_iff haccepted (hids updates haccepted)]
      constructor
      · rintro h _ ⟨⟩
        by_cases hflagged : ∃ update ∈ updates, Flagged context.entities update
        · exact .inl hflagged
        · exact .inr (h fun update hupdate hflag => hflagged ⟨update, hupdate, hflag⟩)
      · intro h hsilent
        refine (h updates rfl).resolve_left ?_
        rintro ⟨update, hupdate, hflag⟩
        exact hsilent update hupdate hflag

section Sample

def sampleTargetId : String := "00000000-0000-0000-0000-000000000001"

/-- An action that gives an item its labels. -/
def labelAction : PlannedAction :=
  { actionId := "1", planId := "plan", actionType := "mutation",
    toolName := "update_workitems_bulk", instruction := "", idempotencyKey := "key",
    input := [("updates", .arr [.obj [("itemId", .str sampleTargetId),
      ("labelNames", .arr [.str "api"])]])] }

/-- A context in which the backlog and the project list one item with these statuses. -/
def listingContext (backlogStatus projectStatus : String) : AgentContext :=
  let item := fun status =>
    Json.obj [("itemId", .str sampleTargetId), ("title", .str "Login"), ("status", .str status)]
  { workspaceId := "w", projectId := some "p", workflowId := "backlog.refine",
    sourceEvent := .wrap { kind := .domain, eventId := "e", eventType := "", workspaceId := "w" },
    entities := [("project_work_items", .arr [item projectStatus]),
      ("backlog_work_items", .arr [item backlogStatus])] }

def sampleUpdate : Fields :=
  [("itemId", .str sampleTargetId), ("labelNames", .arr [.str "api"])]

theorem labelAction_accepted :
    acceptedUpdates (fun _ => none) labelAction.input = .ok [sampleUpdate] := by
  have hvalid : validateWorkItemUpdates (some [.obj sampleUpdate]) = none := by decide
  have hcoerced : coerceWorkItemUpdates (fun _ => none) labelAction.input =
      some [.obj sampleUpdate] := rfl
  unfold acceptedUpdates
  rw [hcoerced]
  dsimp only
  rw [hvalid]
  rfl

theorem labelAction_ids : ∀ updates,
    acceptedUpdates (fun _ => none) labelAction.input = .ok updates →
      ∀ update ∈ updates, (validUuidOrNone (getField update "itemId")).isSome = true := by
  intro updates hupdates update hupdate
  cases labelAction_accepted.symm.trans hupdates
  cases List.mem_singleton.1 hupdate
  decide

theorem listing_known (backlogStatus projectStatus : String) :
    knownItemIndex (listingContext backlogStatus projectStatus).entities ≠ [] :=
  List.cons_ne_nil _ _

/-- An item that the project's list shows as unstarted passes the critic. -/
theorem silent_of_todo (status : String) :
    actionIssues ⟨id, Char.isDigit⟩ (fun _ => none) (listingContext status "todo").entities
      labelAction = [] := by
  rw [actionIssues_eq_nil_iff rfl (listing_known status "todo") labelAction_accepted]
  intro update hupdate
  cases List.mem_singleton.1 hupdate
  rintro (⟨-, hnone⟩ | ⟨item, hitem, hblocked⟩)
  · cases hnone
  · cases hitem
    exact absurd hblocked (by decide)

/-- With the same statuses in both lists, the silent critic is right. -/
theorem todo_agrees :
    actionIssues ⟨id, Char.isDigit⟩ (fun _ => none) (listingContext "todo" "todo").entities
        labelAction = [] ∧
      ∀ result, (execute ⟨id, Char.isDigit⟩ (fun _ => none) true "result" labelAction
        (listingContext "todo" "todo")).MayReturn result → SkipsNone result := by
  refine ⟨silent_of_todo "todo", (critic_agrees_iff ⟨id, Char.isDigit⟩ (fun _ => none) true
    "result" labelAction (listingContext "todo" "todo") rfl (listing_known "todo" "todo")
    labelAction_ids).2 (fun updates hupdates => .inr fun update hupdate => ?_)
    (silent_of_todo "todo")⟩
  cases labelAction_accepted.symm.trans hupdates
  cases List.mem_singleton.1 hupdate
  exact ⟨sampleTargetId, _, by decide, rfl, by decide⟩

/-- An item that the backlog shows as started and the project's list as unstarted passes the
critic and is skipped. -/
theorem started_in_backlog_skipped :
    ¬∀ (rules : TextRules) (loads : String → Option Json) (configured : Bool)
      (resultId : String) (action : PlannedAction) (context : AgentContext),
      action.toolName = "update_workitems_bulk" → knownItemIndex context.entities ≠ [] →
      (∀ updates, acceptedUpdates loads action.input = .ok updates →
        ∀ update ∈ updates, (validUuidOrNone (getField update "itemId")).isSome = true) →
      actionIssues rules loads context.entities action = [] →
        ∀ result, (execute rules loads configured resultId action context).MayReturn result →
          SkipsNone result := by
  intro hagrees
  have hnone := hagrees ⟨id, Char.isDigit⟩ (fun _ => none) true "result" labelAction
    (listingContext "in_progress" "todo") rfl (listing_known "in_progress" "todo") labelAction_ids
    (silent_of_todo "in_progress")
  have hids := labelAction_ids _ labelAction_accepted
  obtain ⟨itemId, item, hid, hitem, -, hunblocked⟩ :=
    (skipsNone_iff labelAction_accepted hids).1 hnone sampleUpdate List.mem_cons_self
  have hcanonical : validUuidOrNone (getField sampleUpdate "itemId") = some sampleTargetId := by
    decide
  cases hcanonical.symm.trans hid
  cases hitem
  exact hunblocked (by decide)

end Sample

end PrismAgent
