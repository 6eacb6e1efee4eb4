import PrismAgent.Capabilities.BulkUpdateTool
import PrismAgent.Hydration.Stability

/-!
# What the context shows of the backlog

The context index of a hydrated context holds views of the server's items: one from the
backlog where there is one, else the slim one. A view shows an item's id and assignees, but
of its description at most the beginning.
-/

namespace PrismAgent

open PrismApiClient UpdateWorkItemsBulkTool

theorem lookup_presentFields (names : List String) (data : Fields) (key : String) :
    (presentFields names data).lookup key =
      if key ∈ names then (data.lookup key).filter (!·.isNull) else none := by
  have hpresent : presentFields names data = names.filterMap fun name =>
      ((data.lookup name).filter (!·.isNull)).map fun value => (name, value) := by
    unfold presentFields
    congr 1
    funext name
    cases data.lookup name with
    | none => rfl
    | some value => cases hnull : value.isNull <;> simp [hnull]
  rw [hpresent]
  exact Dict.lookup_filterMap names (fun name => (data.lookup name).filter (!·.isNull)) key

section Fields

/-- The id under which the index and the API know an item. -/
def itemIdOf (item : Fields) : Option String := (truthyField item "itemId").map Json.toStr

/-- The part of a description that the backlog shows. -/
def excerpt (description : String) : String :=
  String.ofList ((strip description).toList.take BACKLOG_DESCRIPTION_EXCERPT_LENGTH)

variable {item : Fields} {key : String}

theorem truthyField_slimWorkItem (h : key ∈ WORK_ITEM_CONTEXT_FIELDS) :
    truthyField (slimWorkItem item) key = truthyField item key := by
  unfold truthyField slimWorkItem
  rw [lookup_presentFields, if_pos h]
  cases item.lookup key with
  | none => rfl
  | some value => cases value <;> rfl

theorem textField_slimWorkItem_description :
    textField (slimWorkItem item) "description" "" = "" := by
  unfold textField truthyField slimWorkItem
  rw [lookup_presentFields, if_neg (by decide)]
  rfl

theorem lookup_extraFields (fields : Fields) (key : String) :
    (fields.map fun field => (field.1, Json.str field.2.toStr)).lookup key =
      (fields.lookup key).map fun value => .str value.toStr :=
  Dict.lookup_map fields (fun value => Json.str value.toStr) key

theorem textField_of_lookup {text : String} (h : item.lookup key = some (.str text)) :
    textField item key "" = text := by
  have htext : truthyField item key = if text = "" then none else some (.str text) := by
    unfold truthyField
    rw [h]
    by_cases hempty : text = "" <;> simp [hempty, Json.truthy]
  unfold textField
  rw [htext]
  by_cases hempty : text = "" <;> simp [hempty, Json.toStr]

/-- The dates and the description stand under keys of their own. -/
theorem lookup_backlogWorkItem (h : key ∈ WORK_ITEM_CONTEXT_FIELDS) :
    (backlogWorkItem item).lookup key = (slimWorkItem item).lookup key := by
  have hextra : key ∉ BACKLOG_EXTRA_FIELDS ∧ key ≠ "description" := by
    revert key
    decide
  unfold backlogWorkItem
  dsimp only
  rw [Dict.lookup_append, Dict.lookup_append, lookup_extraFields, lookup_presentFields,
    if_neg hextra.1, List.lookup_cons, beq_eq_false_iff_ne.2 hextra.2]
  simp

theorem truthyField_backlogWorkItem (h : key ∈ WORK_ITEM_CONTEXT_FIELDS) :
    truthyField (backlogWorkItem item) key = truthyField item key := by
  have hslim : truthyField (backlogWorkItem item) key = truthyField (slimWorkItem item) key :=
    congrArg (Option.filter Json.truthy) (lookup_backlogWorkItem h)
  rw [hslim, truthyField_slimWorkItem h]

theorem itemIdOf_slimWorkItem : itemIdOf (slimWorkItem item) = itemIdOf item :=
  congrArg (Option.map Json.toStr) (truthyField_slimWorkItem (by decide))

theorem itemIdOf_backlogWorkItem : itemIdOf (backlogWorkItem item) = itemIdOf item :=
  congrArg (Option.map Json.toStr) (truthyField_backlogWorkItem (by decide))

theorem textField_backlogWorkItem_description :
    textField (backlogWorkItem item) "description" "" =
      excerpt (textField item "description" "") := by
  have hlookup : (backlogWorkItem item).lookup "description" =
      some (.str (excerpt (textField item "description" ""))) := by
    unfold backlogWorkItem slimWorkItem
    dsimp only
    rw [Dict.lookup_append, Dict.lookup_append, lookup_extraFields, lookup_presentFields,
      lookup_presentFields, if_neg (by decide), if_neg (by decide)]
    rfl
  exact textField_of_lookup hlookup

end Fields

section Hydration

variable {api : ContextApi} {event : RuntimeEvent} {keys : List String} {items : List Fields}
  {entities : Fields}

/-- The entities were fetched while the project had these items: the payload lists none, the
API returns items of the project, and each item has an id of its own. -/
structure HydratedFrom (api : ContextApi) (event : RuntimeEvent) (keys : List String)
    (items : List Fields) (entities : Fields) : Prop where
  fetched : fetchContextEntities api event keys = .ok entities
  unlisted : ∀ key ∈ CONTEXT_ITEM_KEYS, payloadContextValue event.payload key = .null
  served : ∀ projectId query result fetched, projectOf event = some projectId →
    api.searchWorkItems projectId query = .ok result →
    result.lookup "items" = some (.arr fetched) → ∀ item, .obj item ∈ fetched → item ∈ items
  distinct : ∀ item ∈ items, ∀ item' ∈ items, ∀ itemId, itemIdOf item = some itemId →
    itemIdOf item' = some itemId → item = item'

theorem mem_viewsOf {view : Fields → Fields} {fetched : List Json} {value : Json}
    (h : value ∈ viewsOf view fetched) :
    ∃ item, .obj item ∈ fetched ∧ value = .obj (view item) := by
  obtain ⟨fetchedItem, hmem, hvalue⟩ := List.mem_filterMap.1 h
  cases fetchedItem with
  | obj item => exact ⟨item, hmem, (Option.some.inj hvalue).symm⟩
  | _ => cases hvalue

/-- What the index files of an item. -/
def indexEntry (item : Json) : Option (String × Fields) :=
  item.asObj?.bind fun fields => (itemIdOf fields).map fun itemId => (itemId, fields)

theorem foldl_indexItem (listed : List Json) (index : Dict String Fields) :
    listed.foldl indexItem index = (listed.filterMap indexEntry).foldl
      (fun acc entry => Dict.setDefault acc entry.1 entry.2) index := by
  induction listed generalizing index with
  | nil => rfl
  | cons item listed ih =>
      rw [List.foldl_cons, ih]
      unfold indexItem indexEntry itemIdOf
      cases item with
      | obj fields => cases hid : truthyField fields "itemId" <;> simp [Json.asObj?, hid]
      | _ => rfl

theorem mem_of_lookup_indexEntry {listed : List Json} {itemId : String} {view : Fields}
    (h : (listed.filterMap indexEntry).lookup itemId = some view) :
    .obj view ∈ listed ∧ itemIdOf view = some itemId := by
  obtain ⟨before, after, hsplit, -⟩ := List.lookup_eq_some_iff.1 h
  have hentry : (itemId, view) ∈ listed.filterMap indexEntry := by
    rw [hsplit]
    exact List.mem_append_right before List.mem_cons_self
  obtain ⟨item, hitem, hfiled⟩ := List.mem_filterMap.1 hentry
  cases item with
  | obj fields =>
      simp only [indexEntry, Json.asObj?, Option.bind_some, Option.map_eq_some_iff,
        Prod.mk.injEq] at hfiled
      obtain ⟨id, hid, rfl, rfl⟩ := hfiled
      exact ⟨hitem, hid⟩
  | _ => cases hfiled

/-- The backlog lists the item, and what it shows of the description is somebody's work. -/
def ShowsWork (entities : Fields) (item : Fields) : Prop :=
  (∃ view, .obj view ∈ contextItems entities "backlog_work_items" ∧
    itemIdOf view = itemIdOf item) ∧
  isReal (excerpt (textField item "description" "")) = true

namespace HydratedFrom

variable (h : HydratedFrom api event keys items entities)
include h

/-- What the context lists under a key whose value does not depend on other keys. -/
theorem contextItems_eq {key : String} {value : Json} (hkey : key ≠ "backlog_signals")
    (hvalue : ∀ others, entityValue api event others key = value) :
    contextItems entities key =
      if key ∈ keys then
        match value with
        | .arr values => values
        | _ => []
      else [] := by
  have hraises : ¬Raises api event keys := by
    rintro ⟨hmem, hraised⟩
    obtain ⟨exc, hexc⟩ := Option.isSome_iff_exists.1 hraised
    cases h.fetched.symm.trans (fetchContextEntities_of_raised hexc hmem)
  have hlookup := lookup_fetchContextEntities hraises key
  rw [h.fetched, valueOf, if_neg hkey, hvalue] at hlookup
  have hentry : entities.lookup key = if key ∈ keys then some value else none :=
    Except.ok.inj hlookup
  unfold contextItems
  rw [hentry]
  by_cases hmem : key ∈ keys
  · rw [if_pos hmem, if_pos hmem]
    cases value <;> rfl
  · rw [if_neg hmem, if_neg hmem]

theorem backlogItems_eq :
    contextItems entities "backlog_work_items" =
      if "backlog_work_items" ∈ keys then backlogWorkItemsContext api event .null else [] := by
  have hvalue : ∀ others, entityValue api event others "backlog_work_items" =
      .arr (backlogWorkItemsContext api event .null) := by
    intro others
    rw [← h.unlisted "backlog_work_items" (by decide)]
    rfl
  exact h.contextItems_eq (by decide) hvalue

theorem projectItems_eq :
    contextItems entities "project_work_items" =
      if "project_work_items" ∈ keys then projectWorkItemsContext api event .null else [] := by
  have hvalue : ∀ others, entityValue api event others "project_work_items" =
      .arr (projectWorkItemsContext api event .null) := by
    intro others
    rw [← h.unlisted "project_work_items" (by decide)]
    rfl
  exact h.contextItems_eq (by decide) hvalue

/-- Siblings and children are not lists, unless the payload has them. -/
theorem relatives_eq {key : String} (hkey : key ∈ ["sibling_work_items", "child_work_items"]) :
    contextItems entities key = [] := by
  have hnull : payloadContextValue event.payload key = .null :=
    h.unlisted key (by revert key; decide)
  have hvalue : ∀ others, entityValue api event others key = defaultEntity event key := by
    intro others
    have hentity : entityValue api event others key =
        if (payloadContextValue event.payload key).isNull then defaultEntity event key
        else payloadContextValue event.payload key := by
      simp only [List.mem_cons, List.not_mem_nil, or_false] at hkey
      rcases hkey with rfl | rfl <;> rfl
    rw [hentity, hnull]
    rfl
  rw [h.contextItems_eq (by rintro rfl; revert hkey; decide) hvalue]
  split <;> rfl

/-- The index looks an item up in the backlog and then among the project's items. -/
theorem lookup_contextItemIndex (itemId : String) :
    (contextItemIndex entities).lookup itemId =
      (((contextItems entities "backlog_work_items").filterMap indexEntry).lookup itemId).or
        (((contextItems entities "project_work_items").filterMap indexEntry).lookup itemId) := by
  have hlisted : CONTEXT_ITEM_KEYS.flatMap (contextItems entities) =
      contextItems entities "backlog_work_items" ++ contextItems entities "project_work_items" := by
    simp [CONTEXT_ITEM_KEYS, h.relatives_eq]
  unfold contextItemIndex
  rw [hlisted, foldl_indexItem, Dict.lookup_foldl_setDefault, List.filterMap_append,
    Dict.lookup_append]
  rfl

theorem mem_projectWorkItems {value : Json}
    (hmem : value ∈ projectWorkItemsContext api event .null) :
    ∃ item ∈ items, value = .obj (slimWorkItem item) := by
  unfold projectWorkItemsContext at hmem
  rw [extractItems_null] at hmem
  dsimp only at hmem
  cases hproject : projectOf event with
  | none =>
      rw [hproject] at hmem
      cases hmem
  | some projectId =>
      rw [hproject] at hmem
      dsimp only at hmem
      split at hmem
      · cases hmem
      · split at hmem
        · cases hmem
        next result hresult =>
          split at hmem
          · next fetched hfetched =>
              obtain ⟨item, hitem, rfl⟩ := mem_viewsOf hmem
              exact ⟨item, h.served _ _ _ _ hproject hresult hfetched item hitem, rfl⟩
          · cases hmem

theorem mem_backlogItems {projectId : String} (hproject : projectOf event = some projectId)
    (statuses : List String) {found : List Json}
    (hfound : ∀ value ∈ found, ∃ item ∈ items, value = .obj (backlogWorkItem item)) :
    ∀ value ∈ backlogItems api projectId statuses found,
      ∃ item ∈ items, value = .obj (backlogWorkItem item) := by
  induction statuses generalizing found with
  | nil => exact hfound
  | cons status statuses ih =>
      unfold backlogItems
      split
      · exact hfound
      · split
        · exact ih hfound
        next result hresult =>
          split
          · next fetched hfetched =>
              refine ih fun value hvalue => ?_
              rcases List.mem_append.1 hvalue with hvalue | hvalue
              · exact hfound value hvalue
              · obtain ⟨item, hitem, rfl⟩ := mem_viewsOf hvalue
                exact ⟨item, h.served _ _ _ _ hproject hresult hfetched item hitem, rfl⟩
          · exact ih hfound

theorem mem_backlogWorkItems {value : Json}
    (hmem : value ∈ backlogWorkItemsContext api event .null) :
    ∃ item ∈ items, value = .obj (backlogWorkItem item) := by
  unfold backlogWorkItemsContext at hmem
  rw [extractItems_null] at hmem
  dsimp only at hmem
  cases hproject : projectOf event with
  | none =>
      rw [hproject] at hmem
      cases hmem
  | some projectId =>
      rw [hproject] at hmem
      dsimp only at hmem
      split at hmem
      · cases hmem
      · exact h.mem_backlogItems hproject _ (List.forall_mem_nil _) value hmem

theorem mem_backlogItems_of_mem {value : Json}
    (hmem : value ∈ contextItems entities "backlog_work_items") :
    ∃ item ∈ items, value = .obj (backlogWorkItem item) := by
  rw [h.backlogItems_eq] at hmem
  split at hmem
  · exact h.mem_backlogWorkItems hmem
  · cases hmem

theorem mem_projectItems_of_mem {value : Json}
    (hmem : value ∈ contextItems entities "project_work_items") :
    ∃ item ∈ items, value = .obj (slimWorkItem item) := by
  rw [h.projectItems_eq] at hmem
  split at hmem
  · exact h.mem_projectWorkItems hmem
  · cases hmem

/-- A view in the index is that of an item with its id. -/
theorem exists_item_of_view {itemId : String} {view : Fields}
    (hview : (contextItemIndex entities).lookup itemId = some view) :
    ∃ item ∈ items, itemIdOf item = some itemId ∧
      (isReal (textField view "description" "") = true ↔ ShowsWork entities item) ∧
      truthyField view "assigneeUsernames" = truthyField item "assigneeUsernames" := by
  rw [h.lookup_contextItemIndex] at hview
  cases hbacklog : ((contextItems entities "backlog_work_items").filterMap indexEntry).lookup
      itemId with
  | some found =>
      rw [hbacklog] at hview
      cases hview
      obtain ⟨hmem, hid⟩ := mem_of_lookup_indexEntry hbacklog
      obtain ⟨item, hitem, hitemView⟩ := h.mem_backlogItems_of_mem hmem
      cases hitemView
      rw [itemIdOf_backlogWorkItem] at hid
      refine ⟨item, hitem, hid, ?_, truthyField_backlogWorkItem (by decide)⟩
      rw [textField_backlogWorkItem_description]
      exact (and_iff_right ⟨_, hmem, itemIdOf_backlogWorkItem⟩).symm
  | none =>
      rw [hbacklog] at hview
      obtain ⟨hmem, hid⟩ := mem_of_lookup_indexEntry hview
      obtain ⟨item, hitem, hitemView⟩ := h.mem_projectItems_of_mem hmem
      cases hitemView
      rw [itemIdOf_slimWorkItem] at hid
      refine ⟨item, hitem, hid, ?_, truthyField_slimWorkItem (by decide)⟩
      rw [textField_slimWorkItem_description]
      refine iff_of_false (by decide) ?_
      rintro ⟨⟨listed, hlisted, hlistedId⟩, -⟩
      have hentry : (itemId, listed) ∈
          (contextItems entities "backlog_work_items").filterMap indexEntry := by
        refine List.mem_filterMap.2 ⟨_, hlisted, ?_⟩
        simp [indexEntry, Json.asObj?, hlistedId, hid]
      simpa using List.lookup_eq_none_iff.1 hbacklog _ hentry

end HydratedFrom

end Hydration

end PrismAgent
