import PrismAgent.Backlog.TreeGrammar
import PrismAgent.Capabilities.WorkitemTools

/-!
# Typed drafts as inputs

The typed drafts of an action become the input of its tool where the input has nothing that the
tool would read. What the tool then reads are the drafts, one by one and with the same nesting,
so that materializing once more finds an input and changes nothing.
-/

namespace PrismAgent

open CreateWorkItemTreeTool
open Forest (preorder Within)

/-- The tool of the action has typed drafts, and it would read nothing in the input. -/
def IsEligible (loads : String → Option Json) (action : PlannedAction) : Prop :=
  (action.toolName = "create_workitem_tree" ∧ action.workItems ≠ [] ∧
      coerceWorkItemTreeItems loads action.input = none) ∨
    (action.toolName = "update_workitems_bulk" ∧ action.workItemUpdates ≠ [] ∧
      coerceWorkItemUpdates loads action.input = none) ∨
    (action.toolName = "add_sprint_work_items" ∧ action.targetItemIds ≠ [] ∧
      ∀ itemIds, action.input.lookup "itemIds" = some itemIds → itemIds.truthy = false)

section Rendering

/-- The texts as a value, if there are any. -/
def textsIfAny (texts : List String) : Option Json :=
  if texts = [] then none else some (.arr (texts.map .str))

/-- The fields of a node say what a draft says; what is empty is left out. -/
structure ShowsDraft (draft : WorkItemLeafDraft) (fields : Fields) : Prop where
  title : fields.lookup "title" = some (.str draft.title)
  description : fields.lookup "description" = some (.str draft.description)
  startDate : fields.lookup "startDate" = (draft.startDate.filter (· ≠ "")).map .str
  dueDate : fields.lookup "dueDate" = (draft.dueDate.filter (· ≠ "")).map .str
  priority : fields.lookup "priority" = (draft.priority.filter (· ≠ "")).map .str
  status : fields.lookup "status" = (draft.status.filter (· ≠ "")).map .str
  assigneeUsernames : fields.lookup "assigneeUsernames" = textsIfAny draft.assigneeUsernames
  labelNames : fields.lookup "labelNames" = textsIfAny draft.labelNames
  keys : ∀ key ∈ Dict.keys fields, key ∈ WORK_ITEM_TREE_NODE_FIELDS ∨ key = "children"

/-- The node says what the draft says, and its children what the children of the draft say. -/
def Shows {ι : Type} (draft : WorkItemLeafDraft) (children : List ι) (below : ι → Json → Prop)
    (node : Json) : Prop :=
  ∃ fields, node = .obj fields ∧ ShowsDraft draft fields ∧
    List.Forall₂ below children (listedChildren node)

def ShowsLeaf (draft : WorkItemLeafDraft) : Json → Prop :=
  Shows draft ([] : List Empty) fun _ _ => False

def ShowsChild (draft : WorkItemChildDraft) : Json → Prop :=
  Shows draft.toWorkItemLeafDraft draft.children ShowsLeaf

def ShowsItem (draft : WorkItemDraft) : Json → Prop :=
  Shows draft.toWorkItemLeafDraft draft.children ShowsChild

/-- The update says what its draft says; what is missing stays as it is. -/
structure ShowsUpdate (draft : WorkItemUpdateDraft) (update : Fields) : Prop where
  itemId : update.lookup "itemId" = some (.str draft.itemId)
  title : update.lookup "title" = draft.title.map .str
  description : update.lookup "description" = draft.description.map .str
  priority : update.lookup "priority" = draft.priority.map .str
  status : update.lookup "status" = draft.status.map .str
  dueDate : update.lookup "dueDate" = draft.dueDate.map .str
  assigneeUsernames : update.lookup "assigneeUsernames" = textsIfAny draft.assigneeUsernames
  labelNames : update.lookup "labelNames" = textsIfAny draft.labelNames

variable {key key' : String}

theorem lookup_nonemptyText (value : Option String) :
    (nonemptyText key value).lookup key' =
      if key' = key then (value.filter (· ≠ "")).map .str else none := by
  cases value with
  | none => simp [nonemptyText]
  | some text =>
      by_cases htext : text = ""
      · simp [nonemptyText, htext]
      · by_cases hkey : key' = key
        · simp [nonemptyText, htext, hkey]
        · simp [nonemptyText, htext, hkey, List.lookup_cons, beq_false_of_ne hkey]

theorem lookup_presentText (value : Option String) :
    (presentText key value).lookup key' = if key' = key then value.map .str else none := by
  cases value with
  | none => simp [presentText]
  | some text =>
      by_cases hkey : key' = key
      · simp [presentText, hkey]
      · simp [presentText, hkey, List.lookup_cons, beq_false_of_ne hkey]

theorem lookup_nonemptyTexts (texts : List String) :
    (nonemptyTexts key texts).lookup key' = if key' = key then textsIfAny texts else none := by
  unfold nonemptyTexts textsIfAny
  cases texts with
  | nil => simp
  | cons text texts =>
      by_cases hkey : key' = key
      · simp [hkey]
      · simp [hkey, List.lookup_cons, beq_false_of_ne hkey]

theorem lookup_nonemptyNodes_of_ne (h : key' ≠ key) (nodes : List Json) :
    (nonemptyNodes key nodes).lookup key' = none := by
  unfold nonemptyNodes
  split
  · rfl
  · simp [List.lookup_cons, beq_false_of_ne h]

/-- What a rendered node has under a key: every segment of it has one key. -/
theorem lookup_leafDraftToNode (draft : WorkItemLeafDraft) (nodes : List Json) (key : String) :
    (leafDraftToNode draft ++ nonemptyNodes "children" nodes).lookup key =
      ((((((([("title", Json.str draft.title),
          ("description", .str draft.description)].lookup key).or
        (if key = "startDate" then (draft.startDate.filter (· ≠ "")).map .str else none)).or
        (if key = "dueDate" then (draft.dueDate.filter (· ≠ "")).map .str else none)).or
        (if key = "priority" then (draft.priority.filter (· ≠ "")).map .str else none)).or
        (if key = "status" then (draft.status.filter (· ≠ "")).map .str else none)).or
        (if key = "assigneeUsernames" then textsIfAny draft.assigneeUsernames else none)).or
        (if key = "labelNames" then textsIfAny draft.labelNames else none)).or
        ((nonemptyNodes "children" nodes).lookup key) := by
  simp only [leafDraftToNode, Dict.lookup_append, lookup_nonemptyText, lookup_nonemptyTexts]

theorem listedChildren_of_nodes (draft : WorkItemLeafDraft) (nodes : List Json) :
    listedChildren (.obj (leafDraftToNode draft ++ nonemptyNodes "children" nodes)) = nodes := by
  unfold listedChildren
  dsimp only
  rw [lookup_leafDraftToNode]
  cases nodes <;> rfl

/-- A rendered node says what its draft says. -/
theorem showsDraft_leafDraftToNode (draft : WorkItemLeafDraft) (nodes : List Json) :
    ShowsDraft draft (leafDraftToNode draft ++ nonemptyNodes "children" nodes) where
  title := by rw [lookup_leafDraftToNode]; rfl
  description := by rw [lookup_leafDraftToNode]; rfl
  startDate := by simp [lookup_leafDraftToNode, lookup_nonemptyNodes_of_ne, List.lookup_cons]
  dueDate := by simp [lookup_leafDraftToNode, lookup_nonemptyNodes_of_ne, List.lookup_cons]
  priority := by simp [lookup_leafDraftToNode, lookup_nonemptyNodes_of_ne, List.lookup_cons]
  status := by simp [lookup_leafDraftToNode, lookup_nonemptyNodes_of_ne, List.lookup_cons]
  assigneeUsernames := by
    simp [lookup_leafDraftToNode, lookup_nonemptyNodes_of_ne, List.lookup_cons]
  labelNames := by simp [lookup_leafDraftToNode, lookup_nonemptyNodes_of_ne, List.lookup_cons]
  keys key hkey := by
    by_contra hother
    obtain ⟨hfields, hchildren⟩ := not_or.1 hother
    have hsome := Dict.isSome_lookup_iff.2 hkey
    simp only [WORK_ITEM_TREE_NODE_FIELDS, List.mem_cons, List.not_mem_nil, or_false, not_or]
      at hfields
    obtain ⟨htitle, hdescription, hrest⟩ := hfields
    rw [lookup_leafDraftToNode, lookup_nonemptyNodes_of_ne hchildren, List.lookup_cons,
      beq_false_of_ne htitle, List.lookup_cons, beq_false_of_ne hdescription] at hsome
    simp only [hrest, if_false] at hsome
    cases hsome

theorem showsLeaf_leafDraftToNode (draft : WorkItemLeafDraft) :
    ShowsLeaf draft (.obj (leafDraftToNode draft)) := by
  have hnode : leafDraftToNode draft = leafDraftToNode draft ++ nonemptyNodes "children" [] :=
    (List.append_nil _).symm
  refine ⟨_, rfl, ?_, ?_⟩
  · rw [hnode]
    exact showsDraft_leafDraftToNode draft []
  · rw [hnode, listedChildren_of_nodes]
    exact .nil

/-- Rendered one by one, the nodes say what their drafts say. -/
theorem forall₂_map_of_shows {ι : Type} {shows : ι → Json → Prop} {render : ι → Fields}
    (h : ∀ draft, shows draft (.obj (render draft))) (drafts : List ι) :
    List.Forall₂ shows drafts (drafts.map fun draft => .obj (render draft)) := by
  induction drafts with
  | nil => exact .nil
  | cons draft drafts ih => exact .cons (h draft) ih

theorem showsChild_childDraftToNode (draft : WorkItemChildDraft) :
    ShowsChild draft (.obj (childDraftToNode draft)) := by
  refine ⟨_, rfl, showsDraft_leafDraftToNode _ _, ?_⟩
  rw [childDraftToNode, listedChildren_of_nodes]
  exact forall₂_map_of_shows showsLeaf_leafDraftToNode draft.children

theorem showsItem_draftToNode (draft : WorkItemDraft) :
    ShowsItem draft (.obj (draftToNode draft)) := by
  refine ⟨_, rfl, showsDraft_leafDraftToNode _ _, ?_⟩
  rw [draftToNode, listedChildren_of_nodes]
  exact forall₂_map_of_shows showsChild_childDraftToNode draft.children

/-- A rendered update says what its draft says. -/
theorem showsUpdate_updateDraftToUpdate (draft : WorkItemUpdateDraft) :
    ShowsUpdate draft (updateDraftToUpdate draft) := by
  have hlookup : ∀ key, (updateDraftToUpdate draft).lookup key =
      ((((((([("itemId", Json.str draft.itemId)].lookup key).or
        (if key = "title" then draft.title.map .str else none)).or
        (if key = "description" then draft.description.map .str else none)).or
        (if key = "priority" then draft.priority.map .str else none)).or
        (if key = "status" then draft.status.map .str else none)).or
        (if key = "dueDate" then draft.dueDate.map .str else none)).or
        (if key = "assigneeUsernames" then textsIfAny draft.assigneeUsernames else none)).or
        (if key = "labelNames" then textsIfAny draft.labelNames else none) := by
    intro key
    simp only [updateDraftToUpdate, Dict.lookup_append, lookup_presentText, lookup_nonemptyTexts]
  constructor <;> simp [hlookup, List.lookup_cons]

end Rendering

section Validation

def childTitles (child : WorkItemChildDraft) : List String :=
  child.title :: child.children.map (·.title)

/-- The titles of drafts, each before those below it. -/
def draftTitles (drafts : List WorkItemDraft) : List String :=
  drafts.flatMap fun draft => draft.title :: draft.children.flatMap childTitles

/-- The children of a rendered node are missing or a list. -/
theorem isTreeNode_rendered (draft : WorkItemLeafDraft) (nodes : List Json) :
    IsTreeNode (.obj (leafDraftToNode draft ++ nonemptyNodes "children" nodes)) := by
  refine ⟨_, rfl, ?_⟩
  rw [lookup_leafDraftToNode]
  cases nodes with
  | nil => exact .inl rfl
  | cons node nodes => exact .inr ⟨node :: nodes, rfl⟩

/-- A rendered node is in order where its draft has a title. -/
theorem isTitledNode_iff (draft : WorkItemLeafDraft) (nodes : List Json) :
    IsTitledNode (.obj (leafDraftToNode draft ++ nonemptyNodes "children" nodes)) ↔
      strip draft.title ≠ "" := by
  have htitle := (showsDraft_leafDraftToNode draft nodes).title
  obtain ⟨_, hfields, hchildren⟩ := isTreeNode_rendered draft nodes
  cases hfields
  generalize leafDraftToNode draft ++ nonemptyNodes "children" nodes = fields at htitle hchildren
  have htext : hasText fields "title" = true ↔ strip draft.title ≠ "" := by
    unfold hasText
    rw [htitle]
    change ((Json.str draft.title).truthy && decide (strip draft.title ≠ "")) = true ↔ _
    rw [Bool.and_eq_true, decide_eq_true_eq]
    refine and_iff_right_of_imp fun h => ?_
    have hne : draft.title ≠ "" := by
      intro hempty
      rw [hempty] at h
      exact h rfl
    simpa [Json.truthy] using hne
  rw [← htext]
  constructor
  · rintro ⟨fields', hfields, htitled, -⟩
    cases hfields
    exact htitled
  · exact fun htitled => ⟨fields, rfl, htitled, hchildren⟩

section Levels

variable {P : Json → Prop} {Q : String → Prop}

/-- Nodes are rendered from drafts with titles below them: what that means for the next level. -/
theorem rendered_level
    (hnode : ∀ draft nodes, P (.obj (leafDraftToNode draft ++ nonemptyNodes "children" nodes)) ↔
      Q draft.title) {ι : Type} {levels : ℕ} (leafOf : ι → WorkItemLeafDraft)
    (nodesOf : ι → List Json) (titlesBelow : ι → List String)
    (hbelow : ∀ draft, (Within listedChildren P levels (nodesOf draft) ↔
        ∀ title ∈ titlesBelow draft, Q title) ∧
      (preorder listedChildren levels (nodesOf draft)).length = (titlesBelow draft).length)
    (drafts : List ι) :
    (Within listedChildren P (levels + 1) (drafts.map fun draft =>
        .obj (leafDraftToNode (leafOf draft) ++ nonemptyNodes "children" (nodesOf draft))) ↔
      ∀ title ∈ drafts.flatMap fun draft => (leafOf draft).title :: titlesBelow draft, Q title) ∧
    (preorder listedChildren (levels + 1) (drafts.map fun draft =>
        .obj (leafDraftToNode (leafOf draft) ++ nonemptyNodes "children" (nodesOf draft)))).length =
      (drafts.flatMap fun draft => (leafOf draft).title :: titlesBelow draft).length := by
  constructor
  · simp only [Within, List.forall_mem_map, hnode, listedChildren_of_nodes, (hbelow _).1,
      List.forall_mem_flatMap, List.forall_mem_cons]
  · rw [Forest.preorder_succ, List.flatMap_map, List.length_flatMap, List.length_flatMap]
    simp only [listedChildren_of_nodes, List.length_cons, (hbelow _).2]

/-- The nodes that drafts are rendered to are in order where their titles are, and there are as
many of them as of the drafts. -/
theorem rendered_items
    (hnode : ∀ draft nodes, P (.obj (leafDraftToNode draft ++ nonemptyNodes "children" nodes)) ↔
      Q draft.title) (drafts : List WorkItemDraft) :
    (Within listedChildren P MAX_WORK_ITEM_TREE_DEPTH
        (drafts.map fun draft => .obj (draftToNode draft)) ↔
      ∀ title ∈ draftTitles drafts, Q title) ∧
    (preorder listedChildren MAX_WORK_ITEM_TREE_DEPTH
        (drafts.map fun draft => .obj (draftToNode draft))).length =
      (draftTitles drafts).length := by
  have hleaves : ∀ leaves : List WorkItemLeafDraft,
      (Within listedChildren P 1 (leaves.map fun leaf => .obj (leafDraftToNode leaf)) ↔
        ∀ title ∈ leaves.map (·.title), Q title) ∧
      (preorder listedChildren 1 (leaves.map fun leaf => .obj (leafDraftToNode leaf))).length =
        (leaves.map (·.title)).length := by
    intro leaves
    have hlevel := @rendered_level P Q hnode _ 0 (fun leaf : WorkItemLeafDraft => leaf)
      (fun _ => []) (fun _ => []) (fun _ => by simp) leaves
    simpa [nonemptyNodes, ← List.map_eq_flatMap] using hlevel
  have hchildren : ∀ children : List WorkItemChildDraft,
      (Within listedChildren P 2 (children.map fun child => .obj (childDraftToNode child)) ↔
        ∀ title ∈ children.flatMap childTitles, Q title) ∧
      (preorder listedChildren 2 (children.map fun child => .obj (childDraftToNode child))).length =
        (children.flatMap childTitles).length :=
    rendered_level hnode WorkItemChildDraft.toWorkItemLeafDraft _ _ fun child =>
      hleaves child.children
  exact rendered_level hnode WorkItemDraft.toWorkItemLeafDraft _ _ (fun draft =>
    hchildren draft.children) drafts

end Levels

theorem exists_of_foldlM_error {α β ε : Type} {f : β → α → Except ε β} {xs : List α} {b : β} {e : ε}
    (h : xs.foldlM f b = .error e) : ∃ x ∈ xs, ∃ b, f b x = .error e := by
  induction xs generalizing b with
  | nil => cases h
  | cons x xs ih =>
      rw [List.foldlM_cons] at h
      cases hfirst : f b x with
      | error e' =>
          rw [hfirst] at h
          cases h
          exact ⟨x, List.mem_cons_self, b, hfirst⟩
      | ok next =>
          rw [hfirst] at h
          obtain ⟨y, hy, c, hc⟩ := ih h
          exact ⟨y, List.mem_cons_of_mem _ hy, c, hc⟩

/-- What is wrong with a tree of the right shape: a title is blank, or there are too many nodes. -/
theorem walk_error_of_shaped {levels count : ℕ} {nodes : List Json} {error : String}
    (hnodes : nodes ≠ []) (hshaped : Shaped levels nodes)
    (h : walk levels nodes count = .error error) :
    error = "Every work item tree node requires a non-empty title." ∨
      error = "Work item tree exceeds max size of 100 items." := by
  induction levels generalizing nodes count with
  | zero => exact absurd hshaped hnodes
  | succ levels ih =>
      obtain ⟨node, hnode, before, hcheck⟩ := exists_of_foldlM_error h
      obtain ⟨⟨fields, rfl, htree⟩, hbelow⟩ := hshaped node hnode
      unfold checkNode at hcheck
      unfold listedChildren at hbelow
      dsimp only at hcheck hbelow
      split at hcheck
      · cases hcheck
        exact .inl rfl
      split at hcheck
      · cases hcheck
        exact .inr (by decide)
      rcases htree with hnull | ⟨children, harr⟩
      · rw [hnull] at hcheck
        cases hcheck
      · rw [harr] at hcheck hbelow
        dsimp only at hcheck hbelow
        cases children with
        | nil => cases hcheck
        | cons child children => exact ih (List.cons_ne_nil _ _) hbelow hcheck

/-- Rendered drafts are refused for a blank title or for their number, and for nothing else. -/
theorem validate_rendered {drafts : List WorkItemDraft} (hdrafts : drafts ≠ []) :
    (validateWorkItemTree (some (drafts.map fun draft => .obj (draftToNode draft))) = none ↔
      (∀ title ∈ draftTitles drafts, strip title ≠ "") ∧ (draftTitles drafts).length ≤ 100) ∧
    ∀ error,
      validateWorkItemTree (some (drafts.map fun draft => .obj (draftToNode draft))) = some error →
        error = "Every work item tree node requires a non-empty title." ∨
          error = "Work item tree exceeds max size of 100 items." := by
  obtain ⟨hwithin, hlength⟩ :=
    @rendered_items IsTitledNode (fun title => strip title ≠ "") isTitledNode_iff drafts
  have hshaped : Shaped MAX_WORK_ITEM_TREE_DEPTH
      (drafts.map fun draft => .obj (draftToNode draft)) :=
    shaped_iff_within.2 ((@rendered_items IsTreeNode (fun _ => True)
      (fun draft nodes => iff_true_intro (isTreeNode_rendered draft nodes)) drafts).1.2
        fun _ _ => trivial)
  have hitems : drafts.map (fun draft => Json.obj (draftToNode draft)) ≠ [] :=
    fun hnil => hdrafts (List.map_eq_nil_iff.1 hnil)
  rw [← hwithin, ← hlength]
  generalize (drafts.map fun draft => Json.obj (draftToNode draft)) = items at *
  constructor
  · rw [validateWorkItemTree_eq_none_iff]
    exact and_iff_right hitems
  · intro error herror
    cases items with
    | nil => exact absurd rfl hitems
    | cons item items =>
        unfold validateWorkItemTree at herror
        dsimp only [Option.getD_some] at herror
        cases hwalk : walk MAX_WORK_ITEM_TREE_DEPTH (item :: items) 0 with
        | error walkError =>
            rw [hwalk] at herror
            cases herror
            exact walk_error_of_shaped hitems hshaped hwalk
        | ok total =>
            rw [hwalk] at herror
            cases herror

end Validation

section Actions

variable (loads : String → Option Json)

/-- What materialization makes of an action: it changes the input alone and only where typed
drafts wait for it, and the tool reads the drafts from the new input. -/
structure Receives (action after : PlannedAction) : Prop where
  frame : after = { action with input := after.input }
  unchanged : ¬IsEligible loads action → after = action
  items : IsEligible loads action → action.toolName = "create_workitem_tree" →
    ∃ items, coerceWorkItemTreeItems loads after.input = some items ∧
      workItemDraftsToItems action.workItems = .arr items ∧
      List.Forall₂ ShowsItem action.workItems items ∧
      (validateWorkItemTree (some items) = none ↔
        (∀ title ∈ draftTitles action.workItems, strip title ≠ "") ∧
          (draftTitles action.workItems).length ≤ 100) ∧
      ∀ error, validateWorkItemTree (some items) = some error →
        error = "Every work item tree node requires a non-empty title." ∨
          error = "Work item tree exceeds max size of 100 items."
  updates : IsEligible loads action → action.toolName = "update_workitems_bulk" →
    ∃ updates : List Fields, coerceWorkItemUpdates loads after.input = some (updates.map .obj) ∧
      workItemUpdateDraftsToUpdates action.workItemUpdates = .arr (updates.map .obj) ∧
      List.Forall₂ ShowsUpdate action.workItemUpdates updates
  itemIds : IsEligible loads action → action.toolName = "add_sprint_work_items" →
    after.input.lookup "itemIds" = some (.arr (action.targetItemIds.map .str))

variable {loads} {action : PlannedAction}

/-- Items that are listed under the first key are read there. -/
theorem coerceWorkItemTreeItems_insert (input : Fields) {items : List Json} (h : items ≠ []) :
    coerceWorkItemTreeItems loads (Dict.insert input "items" (.arr items)) = some items := by
  have hlist : listOf loads (.arr items) = some items := by
    cases items with
    | nil => exact absurd rfl h
    | cons item items => rfl
  have hfirst : ∀ keys, firstList loads (Dict.insert input "items" (.arr items))
      ("items" :: keys) = some items := by
    intro keys
    unfold firstList
    rw [List.findSome?_cons, Dict.lookup_insert_self, Option.bind_some, hlist]
  unfold coerceWorkItemTreeItems TREE_ITEMS_KEYS
  rw [List.takeWhile_cons]
  simp only [String.reduceEq, decide_false, Bool.false_and, Bool.not_false, if_true]
  rw [hfirst]

theorem coerceWorkItemUpdates_insert (input : Fields) {updates : List Fields} (h : updates ≠ []) :
    coerceWorkItemUpdates loads (Dict.insert input "updates" (.arr (updates.map .obj))) =
      some (updates.map .obj) := by
  have hlist : listOf loads (.arr (updates.map .obj)) = some (updates.map .obj) := by
    cases updates with
    | nil => exact absurd rfl h
    | cons update updates => rfl
  have hfirst : firstList loads (Dict.insert input "updates" (.arr (updates.map .obj)))
      UPDATES_KEYS = some (updates.map .obj) := by
    unfold firstList UPDATES_KEYS
    rw [List.findSome?_cons, Dict.lookup_insert_self, Option.bind_some, hlist]
  have hobjects : (updates.map Json.obj).filter Json.isObj = updates.map .obj :=
    List.filter_eq_self.2 (List.forall_mem_map.2 fun _ _ => rfl)
  unfold coerceWorkItemUpdates
  rw [hfirst]
  dsimp only
  rw [hobjects, if_neg (by simpa using h)]

/-- An action is given a new input exactly if it is eligible, each tool its own. -/
theorem updatedInput_cases (loads : String → Option Json) (action : PlannedAction) :
    (¬IsEligible loads action ∧ updatedInput loads action = none) ∨
    IsEligible loads action ∧
      ((action.toolName = "create_workitem_tree" ∧ action.workItems ≠ [] ∧
        updatedInput loads action =
          some (Dict.insert action.input "items" (workItemDraftsToItems action.workItems))) ∨
      (action.toolName = "update_workitems_bulk" ∧ action.workItemUpdates ≠ [] ∧
        updatedInput loads action = some (Dict.insert action.input "updates"
          (workItemUpdateDraftsToUpdates action.workItemUpdates))) ∨
      (action.toolName = "add_sprint_work_items" ∧ action.targetItemIds ≠ [] ∧
        updatedInput loads action =
          some (Dict.insert action.input "itemIds" (.arr (action.targetItemIds.map .str))))) := by
  unfold updatedInput
  split
  next h =>
    obtain ⟨htool, hitems, hcoerced⟩ := h
    have hne : action.workItems ≠ [] := by simpa using hitems
    exact .inr ⟨.inl ⟨htool, hne, Option.isNone_iff_eq_none.1 hcoerced⟩, .inl ⟨htool, hne, rfl⟩⟩
  next htree =>
    split
    next h =>
      obtain ⟨htool, hupdates, hcoerced⟩ := h
      have hne : action.workItemUpdates ≠ [] := by simpa using hupdates
      exact .inr ⟨.inr (.inl ⟨htool, hne, Option.isNone_iff_eq_none.1 hcoerced⟩),
        .inr (.inl ⟨htool, hne, rfl⟩)⟩
    next hbulk =>
      split
      next h =>
        obtain ⟨htool, hids, hfalsy⟩ := h
        have hne : action.targetItemIds ≠ [] := by simpa using hids
        refine .inr ⟨.inr (.inr ⟨htool, hne, fun itemIds hlookup => ?_⟩),
          .inr (.inr ⟨htool, hne, rfl⟩)⟩
        rw [hlookup] at hfalsy
        simpa using hfalsy
      next hsprint =>
        refine .inl ⟨?_, rfl⟩
        rintro (⟨htool, hitems, hcoerced⟩ | ⟨htool, hupdates, hcoerced⟩ | ⟨htool, hids, hfalsy⟩)
        · exact htree ⟨htool, by simpa using hitems, by rw [hcoerced]; rfl⟩
        · exact hbulk ⟨htool, by simpa using hupdates, by rw [hcoerced]; rfl⟩
        · refine hsprint ⟨htool, by simpa using hids, ?_⟩
          cases hlookup : action.input.lookup "itemIds" with
          | none => rfl
          | some itemIds =>
              rw [Option.any_some, hfalsy itemIds hlookup]
              rfl

theorem materialized_of_some {input : Fields} (h : updatedInput loads action = some input) :
    materialized loads action = { action with input := input } := by
  unfold materialized
  rw [h]

theorem materialized_of_none (h : updatedInput loads action = none) :
    materialized loads action = action := by
  unfold materialized
  rw [h]

theorem materialized_frame (action : PlannedAction) :
    materialized loads action = { action with input := (materialized loads action).input } := by
  unfold materialized
  split
  · rfl
  · rfl

/-- A materialized action has an input that its tool reads, or no drafts to fill one from. -/
theorem not_isEligible_materialized (action : PlannedAction) :
    ¬IsEligible loads (materialized loads action) := by
  rcases updatedInput_cases loads action with ⟨hnot, hnone⟩ | ⟨-, ⟨htool, hitems, hinput⟩ |
    ⟨htool, hupdates, hinput⟩ | ⟨htool, hids, hinput⟩⟩
  · rw [materialized_of_none hnone]
    exact hnot
  · rw [materialized_of_some hinput]
    rintro (⟨-, -, hcoerced⟩ | ⟨htool', -⟩ | ⟨htool', -⟩)
    · have hread := @coerceWorkItemTreeItems_insert loads action.input
        (action.workItems.map fun draft => .obj (draftToNode draft)) (by simpa using hitems)
      exact absurd (hcoerced.symm.trans hread) (by simp)
    · exact absurd (htool.symm.trans htool') (by decide)
    · exact absurd (htool.symm.trans htool') (by decide)
  · rw [materialized_of_some hinput]
    rintro (⟨htool', -⟩ | ⟨-, -, hcoerced⟩ | ⟨htool', -⟩)
    · exact absurd (htool.symm.trans htool') (by decide)
    · have hread := @coerceWorkItemUpdates_insert loads action.input
        (action.workItemUpdates.map updateDraftToUpdate) (by simpa using hupdates)
      rw [List.map_map] at hread
      exact absurd (hcoerced.symm.trans hread) (by simp)
    · exact absurd (htool.symm.trans htool') (by decide)
  · rw [materialized_of_some hinput]
    rintro (⟨htool', -⟩ | ⟨htool', -⟩ | ⟨-, -, hfalsy⟩)
    · exact absurd (htool.symm.trans htool') (by decide)
    · exact absurd (htool.symm.trans htool') (by decide)
    · have htruthy := hfalsy _ (Dict.lookup_insert_self _ _ _)
      simp [Json.truthy, hids] at htruthy

theorem materialized_materialized (action : PlannedAction) :
    materialized loads (materialized loads action) = materialized loads action := by
  rcases updatedInput_cases loads (materialized loads action) with ⟨-, hnone⟩ | ⟨heligible, -⟩
  · exact materialized_of_none hnone
  · exact absurd heligible (not_isEligible_materialized action)

theorem receives_materialized (action : PlannedAction) :
    Receives loads action (materialized loads action) where
  frame := materialized_frame action
  unchanged hnot := by
    rcases updatedInput_cases loads action with ⟨-, hnone⟩ | ⟨heligible, -⟩
    · exact materialized_of_none hnone
    · exact absurd heligible hnot
  items heligible htree := by
    rcases updatedInput_cases loads action with ⟨hnot, -⟩ | ⟨-, ⟨-, hitems, hinput⟩ |
      ⟨htool, -⟩ | ⟨htool, -⟩⟩
    · exact absurd heligible hnot
    · rw [materialized_of_some hinput]
      obtain ⟨hvalid, herror⟩ := validate_rendered hitems
      exact ⟨_, coerceWorkItemTreeItems_insert _ (by simpa using hitems), rfl,
        forall₂_map_of_shows showsItem_draftToNode _, hvalid, herror⟩
    · exact absurd (htree.symm.trans htool) (by decide)
    · exact absurd (htree.symm.trans htool) (by decide)
  updates heligible hbulk := by
    rcases updatedInput_cases loads action with ⟨hnot, -⟩ | ⟨-, ⟨htool, -⟩ |
      ⟨-, hupdates, hinput⟩ | ⟨htool, -⟩⟩
    · exact absurd heligible hnot
    · exact absurd (hbulk.symm.trans htool) (by decide)
    · rw [materialized_of_some hinput]
      have hrendered : workItemUpdateDraftsToUpdates action.workItemUpdates =
          .arr ((action.workItemUpdates.map updateDraftToUpdate).map .obj) := by
        rw [List.map_map]
        rfl
      refine ⟨action.workItemUpdates.map updateDraftToUpdate, ?_, hrendered, ?_⟩
      · rw [hrendered]
        exact coerceWorkItemUpdates_insert _ (by simpa using hupdates)
      · rw [List.forall₂_map_right_iff]
        exact List.forall₂_same.2 fun draft _ => showsUpdate_updateDraftToUpdate draft
    · exact absurd (hbulk.symm.trans htool) (by decide)
  itemIds heligible hsprint := by
    rcases updatedInput_cases loads action with ⟨hnot, -⟩ | ⟨-, ⟨htool, -⟩ | ⟨htool, -⟩ |
      ⟨-, -, hinput⟩⟩
    · exact absurd heligible hnot
    · exact absurd (hsprint.symm.trans htool) (by decide)
    · exact absurd (hsprint.symm.trans htool) (by decide)
    · rw [materialized_of_some hinput]
      exact Dict.lookup_insert_self _ _ _

end Actions

/-- Materialization gives the tools the typed drafts, each action its own, and is done once. -/
theorem typed_drafts_reach_tools (loads : String → Option Json) {plan : AgentPlan}
    (hdistinct : (plan.actions.map (·.actionId)).Nodup) :
    (materializeTypedActionInputs loads (materializeTypedActionInputs loads plan)).actions.map
        (·.input) = (materializeTypedActionInputs loads plan).actions.map (·.input) ∧
      List.Forall₂ (Receives loads) plan.actions
        (materializeTypedActionInputs loads plan).actions := by
  have hactions := actions_materializeTypedActionInputs loads hdistinct
  have hdistinct' : ((materializeTypedActionInputs loads plan).actions.map (·.actionId)).Nodup := by
    rw [actionIds_materializeTypedActionInputs]
    exact hdistinct
  constructor
  · rw [actions_materializeTypedActionInputs loads hdistinct', hactions, List.map_map, List.map_map,
      List.map_map]
    refine List.map_congr_left fun action _ => ?_
    exact congrArg PlannedAction.input (materialized_materialized action)
  · rw [hactions, List.forall₂_map_right_iff]
    exact List.forall₂_same.2 fun action _ => receives_materialized action

/-- An action with a draft that has a child, and no items in its input. -/
def draftAction : PlannedAction :=
  { actionId := "a", planId := "plan", actionType := "mutation",
    toolName := "create_workitem_tree", instruction := "", idempotencyKey := "k",
    input := [("projectId", .str "project")],
    workItems := [{ title := "Build API", children := [{ title := "Design schema" }] }] }

def draftPlan : AgentPlan :=
  { planId := "plan", sourceEventId := "event", workspaceId := "ws", projectId := some "project",
    goal := "", promptId := "feature.provision", promptVersion := "1", contextSnapshotRef := "ref",
    actions := [draftAction] }

theorem typed_drafts_reach_tools_sample :
    IsEligible (fun _ => none) draftAction ∧
      List.Forall₂ (Receives fun _ => none) [draftAction]
        (materializeTypedActionInputs (fun _ => none) draftPlan).actions := by
  have hdistinct : (draftPlan.actions.map (·.actionId)).Nodup := List.nodup_singleton _
  exact ⟨.inl ⟨rfl, List.cons_ne_nil _ _, rfl⟩,
    (typed_drafts_reach_tools (fun _ => none) hdistinct).2⟩

end PrismAgent
