import PrismAgent.Backlog.Cleaning
import PrismAgent.Backlog.TreeShape
import PrismAgent.Capabilities.PlanQuality
import PrismAgent.Forest.Preorder
import PrismAgent.Text.Words

/-!
# Repeated tasks

The critic goes through the nodes of each tree with the titles it has seen, and reports those
that come again. The titles of a tree are all different exactly if it reports none. It starts
anew with every action, so a task that two actions of one plan create is not reported.
-/

namespace PrismAgent

open PlanQuality
open Forest (Path nodeAt preorder Within listing)

section Flattening

theorem sizeOf_lt_of_mem_listedChildren {node child : Json} (h : child ∈ listedChildren node) :
    sizeOf child < sizeOf node := by
  unfold listedChildren at h
  cases node with
  | obj fields =>
      dsimp only at h
      cases hlookup : fields.lookup "children" with
      | none =>
          rw [hlookup] at h
          cases h
      | some value =>
          rw [hlookup] at h
          cases value with
          | arr nodes =>
              obtain ⟨before, after, rfl, -⟩ := List.lookup_eq_some_iff.1 hlookup
              have hchild : sizeOf child < sizeOf nodes := List.sizeOf_lt_of_mem h
              have hentry : sizeOf (("children", Json.arr nodes) : String × Json) <
                  sizeOf (before ++ ("children", Json.arr nodes) :: after) :=
                List.sizeOf_lt_of_mem (by simp)
              simp only [Prod.mk.sizeOf_spec, Json.arr.sizeOf_spec] at hentry
              rw [Json.obj.sizeOf_spec]
              omega
          | _ => cases h
  | _ => cases h

/-- Every forest is of bounded depth. -/
theorem exists_within (items : List Json) :
    Within listedChildren (fun _ => True) (sizeOf items) items :=
  Forest.within_of_measure (fun _ _ => sizeOf_lt_of_mem_listedChildren) fun _ =>
    List.sizeOf_lt_of_mem

theorem flattenBelow_eq (fields : Fields) :
    flattenBelow fields = flatten (listedChildren (.obj fields)) := by
  have hlist : flattenBelow fields = flattenList ((fields.lookup "children").getD .null) := by
    induction fields with
    | nil => rfl
    | cons entry fields ih =>
        obtain ⟨key, value⟩ := entry
        unfold flattenBelow
        by_cases hkey : key = "children"
        · subst hkey
          rw [if_pos rfl, List.lookup_cons_self]
          rfl
        · rw [if_neg hkey, ih, List.lookup_cons, beq_false_of_ne (Ne.symm hkey)]
  rw [hlist, listedChildren]
  cases (fields.lookup "children").getD .null <;> rfl

/-- The flattened tree has the objects of the forest in preorder. -/
theorem flatten_eq {n : ℕ} {items : List Json} (h : Within listedChildren (fun _ => True) n items) :
    flatten items = (preorder listedChildren n items).filterMap Json.asObj? := by
  induction n generalizing items with
  | zero =>
      rw [show items = [] from h]
      rfl
  | succ n ih =>
      induction items with
      | nil => rfl
      | cons item items ihitems =>
          obtain ⟨⟨-, hbelow⟩, hrest⟩ := List.forall_mem_cons.1 h
          have hnode : flattenNode item =
              (item :: preorder listedChildren n (listedChildren item)).filterMap Json.asObj? := by
            cases item with
            | obj fields =>
                rw [flattenNode, flattenBelow_eq, ih hbelow]
                rfl
            | _ =>
                unfold listedChildren
                rw [Forest.preorder_nil]
                rfl
          rw [flatten, hnode, ihitems hrest, ← List.filterMap_append]
          rfl

end Flattening

section Titles

variable (rules : TextRules)

/-- A title up to case and white space: its words in lower case, with single spaces between
them. -/
def plainTitle (title : String) : String :=
  rules.lower (String.ofList ([' '].intercalate (Words.words isWhiteSpace title.toList)))

/-- The title of a node up to case and white space, if it has one. -/
def titleOf (node : Fields) : Option String :=
  some (plainTitle rules (textField node "title" "")) |>.filter (· ≠ "")

variable {rules}

/-- Collapsing and stripping a title leaves its words. -/
theorem normalizeTitle_eq (node : Fields) :
    normalizeTitle rules (getField node "title") =
      plainTitle rules (textField node "title" "") := by
  have htext : (if (getField node "title").truthy then (getField node "title").toStr else "") =
      textField node "title" "" := by
    unfold getField textField truthyField
    cases node.lookup "title" with
    | none => rfl
    | some title =>
        rw [Option.getD_some, Option.filter_some]
        split
        · rfl
        · rfl
  have hwords : (strip (collapseSpaces (textField node "title" ""))).toList =
      [' '].intercalate (Words.words isWhiteSpace (textField node "title" "").toList) := by
    rw [toList_strip, collapseSpaces, String.toList_ofList]
    exact Words.trim_collapse rfl _
  rw [normalizeTitle, htext, plainTitle, ← hwords, String.ofList_toList]

theorem titleOf_eq_some {node : Fields} {title : String} :
    titleOf rules node = some title ↔
      normalizeTitle rules (getField node "title") = title ∧ title ≠ "" := by
  rw [titleOf, normalizeTitle_eq, Option.filter_eq_some_iff, Option.some_inj, decide_eq_true_eq]

theorem noteTitle_of_none {node : Fields} (h : titleOf rules node = none)
    (acc : Dict String String × List String) : noteTitle rules acc node = acc := by
  unfold noteTitle
  dsimp only
  split
  next => rfl
  next hblank => rw [titleOf_eq_some.2 ⟨rfl, hblank⟩] at h; cases h

theorem noteTitle_new {node : Fields} {title : String} (h : titleOf rules node = some title)
    {seen : Dict String String} (hnew : seen.lookup title = none) (duplicates : List String) :
    noteTitle rules (seen, duplicates) node =
      (Dict.setDefault seen title (getField node "title").toStr, duplicates) := by
  obtain ⟨rfl, hblank⟩ := titleOf_eq_some.1 h
  unfold noteTitle
  dsimp only
  rw [if_neg hblank, hnew]

/-- A title that comes again is reported. -/
theorem noteTitle_again {node : Fields} {title : String} (h : titleOf rules node = some title)
    {seen : Dict String String} {first : String} (hseen : seen.lookup title = some first)
    (duplicates : List String) : (noteTitle rules (seen, duplicates) node).2 ≠ [] := by
  obtain ⟨rfl, hblank⟩ := titleOf_eq_some.1 h
  unfold noteTitle
  dsimp only
  rw [if_neg hblank, hseen]
  dsimp only
  split
  next hmem => exact List.ne_nil_of_mem hmem
  next => exact List.append_ne_nil_of_right_ne_nil _ (List.cons_ne_nil _ _)

/-- The loop over the nodes reports nothing where all titles are new and different. -/
theorem foldl_noteTitle (nodes : List Fields) (acc : Dict String String × List String) :
    (nodes.foldl (noteTitle rules) acc).2 = [] ↔
      acc.2 = [] ∧ (nodes.filterMap (titleOf rules)).Nodup ∧
        ∀ title ∈ nodes.filterMap (titleOf rules), acc.1.lookup title = none := by
  induction nodes generalizing acc with
  | nil => simp
  | cons node nodes ih =>
      obtain ⟨seen, duplicates⟩ := acc
      rw [List.foldl_cons, ih]
      cases htitle : titleOf rules node with
      | none => rw [noteTitle_of_none htitle, List.filterMap_cons_none htitle]
      | some title =>
          rw [List.filterMap_cons_some htitle, List.nodup_cons, List.forall_mem_cons]
          cases hseen : seen.lookup title with
          | some first =>
              refine iff_of_false (fun h => noteTitle_again htitle hseen duplicates h.1) ?_
              rintro ⟨-, -, hnew, -⟩
              cases hnew
          | none =>
              have hlookup : ∀ other, (Dict.setDefault seen title
                  (getField node "title").toStr).lookup other = none ↔
                    other ≠ title ∧ seen.lookup other = none := by
                intro other
                rw [Dict.lookup_setDefault, Option.or_eq_none_iff, List.lookup_cons]
                by_cases heq : other = title
                · simp [heq]
                · rw [beq_false_of_ne heq]
                  simp [heq]
              rw [noteTitle_new htitle hseen]
              simp only [hlookup]
              constructor
              · rintro ⟨hdup, hnodup, hall⟩
                exact ⟨hdup, ⟨fun hmem => (hall title hmem).1 rfl, hnodup⟩, trivial,
                  fun other hmem => (hall other hmem).2⟩
              · rintro ⟨hdup, ⟨hnew, hnodup⟩, -, hall⟩
                exact ⟨hdup, hnodup, fun other hmem =>
                  ⟨ne_of_mem_of_not_mem hmem hnew, hall other hmem⟩⟩

end Titles

section Findings

/-- The two nodes have one title, which is not empty. -/
def SameTitle (rules : TextRules) (node other : Fields) : Prop :=
  ∃ title, titleOf rules node = some title ∧ titleOf rules other = some title

/-- The object at an address of a forest. -/
def objectAt (items : List Json) (p : Path) : Option Fields :=
  (nodeAt listedChildren items p).bind Json.asObj?

/-- Two different nodes of a forest have the same title. -/
def RepeatsTitle (rules : TextRules) (items : List Json) : Prop :=
  ∃ p q node other, p ≠ q ∧ objectAt items p = some node ∧ objectAt items q = some other ∧
    SameTitle rules node other

/-- What a finding on repeated tasks begins with. -/
def repeatedTaskText : String := "The plan repeats the same task more than once: "

/-- The finding is about repeated tasks. -/
def IsRepeatFinding (issue : String) : Prop := repeatedTaskText.toList <+: issue.toList

variable {rules : TextRules}

/-- A list whose entries have different keys has different values exactly if entries with
different keys have. -/
theorem nodup_filterMap_iff {α β γ : Type*} {l : List (α × β)} {f : β → Option γ}
    (hkeys : l.Pairwise fun e f => e.1 ≠ f.1) :
    ((l.map Prod.snd).filterMap f).Nodup ↔
      ∀ e ∈ l, ∀ e' ∈ l, e.1 ≠ e'.1 → ∀ c, f e.2 = some c → f e'.2 ≠ some c := by
  rw [List.filterMap_map, List.Nodup, List.pairwise_filterMap]
  constructor
  · intro h e he e' he' hne c hc hc'
    have hsymm : Std.Symm fun e e' : α × β =>
        ∀ c, (f ∘ Prod.snd) e = some c → ∀ c', (f ∘ Prod.snd) e' = some c' → c ≠ c' :=
      ⟨fun _ _ h c hc c' hc' => (h c' hc' c hc).symm⟩
    exact h.forall he he' (fun heq => hne (congrArg Prod.fst heq)) c hc c hc' rfl
  · intro h
    refine hkeys.imp_of_mem fun {e e'} he he' hne c hc c' hc' heq => ?_
    subst heq
    exact h e he e' he' hne c hc hc'

/-- The critic finds repeated tasks in a tree exactly if two of its nodes have one title. -/
theorem duplicateTitleIssues_ne_nil_iff (items : List Json) :
    duplicateTitleIssues rules (flatten items) ≠ [] ↔ RepeatsTitle rules items := by
  have hwithin := exists_within items
  have hloop : duplicateTitleIssues rules (flatten items) = [] ↔
      ((flatten items).filterMap (titleOf rules)).Nodup := by
    have hfold := @foldl_noteTitle rules (flatten items) ([], [])
    unfold duplicateTitleIssues
    dsimp only
    split
    next hnil => simpa using (hfold.1 hnil).2.1
    next hne =>
      refine iff_of_false (List.cons_ne_nil _ _) fun hnodup => hne ?_
      exact hfold.2 ⟨rfl, hnodup, fun _ _ => rfl⟩
  have hflat : (flatten items).filterMap (titleOf rules) =
      ((listing listedChildren (sizeOf items) [] items).map Prod.snd).filterMap
        fun node => (Json.asObj? node).bind (titleOf rules) := by
    rw [flatten_eq hwithin, Forest.listing_snd, List.filterMap_filterMap]
  have hlisted : ∀ p node, (p, node) ∈ listing listedChildren (sizeOf items) [] items ↔
      nodeAt listedChildren items p = some node := by
    intro p node
    rw [Forest.mem_listing]
    constructor
    · rintro ⟨r, rfl, hnode, -⟩
      exact hnode
    · intro hnode
      exact ⟨p, rfl, hnode, (Forest.within_iff.1 hwithin p node hnode).2⟩
  rw [Ne, hloop, hflat, nodup_filterMap_iff (Forest.pairwise_listing _ _ _)]
  constructor
  · intro h
    push Not at h
    obtain ⟨⟨p, node⟩, hp, ⟨q, other⟩, hq, hne, title, hnode, hother⟩ := h
    obtain ⟨fields, hfields, htitle⟩ := Option.bind_eq_some_iff.1 hnode
    obtain ⟨fields', hfields', htitle'⟩ := Option.bind_eq_some_iff.1 hother
    refine ⟨p, q, fields, fields', hne, ?_, ?_, title, htitle, htitle'⟩
    · rw [objectAt, (hlisted p node).1 hp]
      exact hfields
    · rw [objectAt, (hlisted q other).1 hq]
      exact hfields'
  · rintro ⟨p, q, fields, fields', hne, hnode, hother, title, htitle, htitle'⟩ h
    obtain ⟨node, hp, hfields⟩ := Option.bind_eq_some_iff.1 hnode
    obtain ⟨other, hq, hfields'⟩ := Option.bind_eq_some_iff.1 hother
    refine h (p, node) ((hlisted p node).2 hp) (q, other) ((hlisted q other).2 hq) hne title ?_ ?_
    · exact Option.bind_eq_some_iff.2 ⟨fields, hfields, htitle⟩
    · exact Option.bind_eq_some_iff.2 ⟨fields', hfields', htitle'⟩

/-- A text that differs from the beginning of the finding does not begin one. -/
theorem not_isRepeatFinding {text : String} (rest : String)
    (h : ¬(repeatedTaskText.toList <+: text.toList ∨ text.toList <+: repeatedTaskText.toList)) :
    ¬IsRepeatFinding (text ++ rest) := by
  intro hfinding
  rw [IsRepeatFinding, String.toList_append] at hfinding
  exact h (List.prefix_or_prefix_of_prefix hfinding (List.prefix_append _ _))

theorem exists_duplicateTitleIssue_iff (nodes : List Fields) :
    (∃ issue ∈ duplicateTitleIssues rules nodes, IsRepeatFinding issue) ↔
      duplicateTitleIssues rules nodes ≠ [] := by
  unfold duplicateTitleIssues
  dsimp only
  split
  next => simp
  next =>
    refine iff_of_true ⟨_, List.mem_cons_self, ?_⟩ (List.cons_ne_nil _ _)
    unfold IsRepeatFinding repeatedTaskText
    simp only [String.toList_append, List.append_assoc]
    exact List.prefix_append _ _

variable (entities : Fields)

theorem not_repeat_existingDuplicateIssues (nodes : List Fields) :
    ∀ issue ∈ existingDuplicateIssues rules nodes entities, ¬IsRepeatFinding issue := by
  unfold existingDuplicateIssues
  dsimp only
  split
  next => exact List.forall_mem_nil _
  next =>
    simp only [String.append_assoc]
    exact List.forall_mem_singleton.2 (not_isRepeatFinding _ (by decide))

theorem not_repeat_descriptionIssues (nodes : List Fields) :
    ∀ issue ∈ descriptionIssues rules nodes, ¬IsRepeatFinding issue := by
  unfold descriptionIssues
  dsimp only
  split
  next => exact List.forall_mem_nil _
  next =>
    simp only [String.append_assoc]
    exact List.forall_mem_singleton.2 (not_isRepeatFinding _ (by decide))

theorem not_repeat_assignmentIssues (nodes : List Fields) :
    ∀ issue ∈ assignmentIssues entities nodes, ¬IsRepeatFinding issue := by
  have hratio : ∀ leaves assigned, ∀ issue ∈ ratioIssue entities leaves assigned,
      ¬IsRepeatFinding issue := by
    intro leaves assigned
    unfold ratioIssue
    dsimp only
    split
    next =>
      simp only [String.append_assoc]
      exact List.forall_mem_singleton.2 (not_isRepeatFinding _ (by decide))
    next => exact List.forall_mem_nil _
  have hbalance : ∀ members assigned counts, ∀ issue ∈ balanceIssue members assigned counts,
      ¬IsRepeatFinding issue := by
    intro members assigned counts
    unfold balanceIssue
    cases topAssignee counts with
    | none => exact List.forall_mem_nil _
    | some top =>
        dsimp only
        split
        next =>
          simp only [String.append_assoc]
          exact List.forall_mem_singleton.2 (not_isRepeatFinding _ (by decide))
        next => exact List.forall_mem_nil _
  unfold assignmentIssues
  dsimp only
  split
  next => exact List.forall_mem_nil _
  next => exact List.forall_mem_append.2 ⟨hratio _ _, hbalance _ _ _⟩

/-- What is said about the targets of an update is not about repeated tasks. -/
theorem not_repeat_targetItemIssues (itemIds : List String) (requireUnstarted : Bool)
    {toolName : String}
    (htool : toolName = "update_workitems_bulk" ∨ toolName = "add_sprint_work_items") :
    ∀ issue ∈ targetItemIssues itemIds entities toolName requireUnstarted,
      ¬IsRepeatFinding issue := by
  have hfirst : ∀ (cond : Prop) [Decidable cond] (rest : String),
      ∀ issue ∈ (if cond then [] else ["The " ++ toolName ++ rest]), ¬IsRepeatFinding issue := by
    intro cond _ rest
    split
    next => exact List.forall_mem_nil _
    next =>
      refine List.forall_mem_singleton.2 ?_
      rcases htool with rfl | rfl
      · exact not_isRepeatFinding _ (by decide)
      · exact not_isRepeatFinding _ (by decide)
  unfold targetItemIssues
  dsimp only
  split
  next => exact List.forall_mem_nil _
  next =>
    simp only [String.append_assoc] at hfirst ⊢
    exact List.forall_mem_append.2 ⟨hfirst _ _, hfirst _ _⟩

end Findings

section Plans

variable (rules : TextRules) (loads : String → Option Json) (plan : AgentPlan) (entities : Fields)

/-- The tree of work items that an action would create. -/
def plannedTree (action : PlannedAction) : List Json :=
  if action.toolName = "create_workitem_tree" then
    (coerceWorkItemTreeItems loads action.input).getD []
  else []

/-- The node at an address of the trees of a plan: an action and an address in its tree. -/
def plannedNode (address : ℕ × Path) : Option Fields :=
  plan.actions[address.1]?.bind fun action => objectAt (plannedTree loads action) address.2

/-- Two different nodes that the plan would create have the same title. -/
def RepeatsTask : Prop :=
  ∃ a b node other, a ≠ b ∧ plannedNode loads plan a = some node ∧
    plannedNode loads plan b = some other ∧ SameTitle rules node other

/-- The critic has a finding on repeated tasks. -/
def FindsRepeat : Prop :=
  ∃ issue ∈ planQualityIssues rules loads plan entities, IsRepeatFinding issue

/-- Two nodes of one action have the same title. -/
def RepeatsInAction : Prop :=
  ∃ action ∈ plan.actions, RepeatsTitle rules (plannedTree loads action)

/-- Nodes of two different actions have the same title. -/
def RepeatsAcross : Prop :=
  ∃ a b node other, a.1 ≠ b.1 ∧ plannedNode loads plan a = some node ∧
    plannedNode loads plan b = some other ∧ SameTitle rules node other

variable {rules loads plan entities}

theorem not_repeatsTitle_nil : ¬RepeatsTitle rules [] := by
  rintro ⟨p, q, node, other, -, hnode, -⟩
  cases p with
  | nil => cases hnode
  | cons i p => cases p <;> cases hnode

theorem exists_treeIssue_iff (items : List Json) :
    (∃ issue ∈ treeIssues rules entities items, IsRepeatFinding issue) ↔
      RepeatsTitle rules items := by
  rw [← duplicateTitleIssues_ne_nil_iff, ← exists_duplicateTitleIssue_iff]
  unfold treeIssues
  constructor
  · rintro ⟨issue, hissue, hfinding⟩
    simp only [List.mem_append] at hissue
    rcases hissue with ((hissue | hissue) | hissue) | hissue
    · exact ⟨issue, hissue, hfinding⟩
    · exact absurd hfinding (not_repeat_existingDuplicateIssues entities _ issue hissue)
    · exact absurd hfinding (not_repeat_descriptionIssues _ issue hissue)
    · exact absurd hfinding (not_repeat_assignmentIssues entities _ issue hissue)
  · rintro ⟨issue, hissue, hfinding⟩
    exact ⟨issue, by simp only [List.mem_append, hissue, true_or], hfinding⟩

/-- An action has a finding on repeated tasks exactly if its own tree repeats a title. -/
theorem exists_actionIssue_iff (action : PlannedAction) :
    (∃ issue ∈ actionIssues rules loads entities action, IsRepeatFinding issue) ↔
      RepeatsTitle rules (plannedTree loads action) := by
  have hother : ∀ {issues : List String}, (∀ issue ∈ issues, ¬IsRepeatFinding issue) →
      ((∃ issue ∈ issues, IsRepeatFinding issue) ↔ RepeatsTitle rules []) := fun h =>
    iff_of_false (fun ⟨issue, hissue, hfinding⟩ => h issue hissue hfinding) not_repeatsTitle_nil
  unfold actionIssues plannedTree
  split
  next =>
    cases coerceWorkItemTreeItems loads action.input with
    | none => exact hother (List.forall_mem_nil _)
    | some items =>
        cases items with
        | nil => exact hother (List.forall_mem_nil _)
        | cons item items => exact exists_treeIssue_iff (item :: items)
  next =>
    split
    next htool => exact hother (not_repeat_targetItemIssues entities _ _ (.inl htool))
    next =>
      split
      next htool =>
        cases action.input.lookup "itemIds" with
        | none => exact hother (List.forall_mem_nil _)
        | some rawIds =>
            cases rawIds with
            | arr rawIds => exact hother (not_repeat_targetItemIssues entities _ _ (.inr htool))
            | _ => exact hother (List.forall_mem_nil _)
      next => exact hother (List.forall_mem_nil _)

/-- The critic finds repeated tasks exactly if one of the actions repeats one. -/
theorem findsRepeat_iff :
    FindsRepeat rules loads plan entities ↔ RepeatsInAction rules loads plan := by
  unfold FindsRepeat RepeatsInAction planQualityIssues
  constructor
  · rintro ⟨issue, hissue, hfinding⟩
    obtain ⟨action, haction, hmem⟩ := List.mem_flatMap.1 hissue
    exact ⟨action, haction, (exists_actionIssue_iff action).1 ⟨issue, hmem, hfinding⟩⟩
  · rintro ⟨action, haction, hrepeats⟩
    obtain ⟨issue, hmem, hfinding⟩ := (@exists_actionIssue_iff _ _ entities action).2 hrepeats
    exact ⟨issue, List.mem_flatMap.2 ⟨action, haction, hmem⟩, hfinding⟩

/-- Repeated tasks stand in one action or in two. -/
theorem repeatsTask_iff :
    RepeatsTask rules loads plan ↔
      RepeatsInAction rules loads plan ∨ RepeatsAcross rules loads plan := by
  constructor
  · rintro ⟨⟨i, p⟩, ⟨j, q⟩, node, other, hne, hnode, hother, hsame⟩
    by_cases hij : i = j
    · subst hij
      obtain ⟨action, haction, hnode⟩ := Option.bind_eq_some_iff.1 hnode
      obtain ⟨action', haction', hother⟩ := Option.bind_eq_some_iff.1 hother
      cases haction.symm.trans haction'
      refine .inl
        ⟨action, List.mem_of_getElem? haction, p, q, node, other, ?_, hnode, hother, hsame⟩
      rintro rfl
      exact hne rfl
    · exact .inr ⟨(i, p), (j, q), node, other, hij, hnode, hother, hsame⟩
  · rintro (⟨action, haction, p, q, node, other, hne, hnode, hother, hsame⟩ |
      ⟨a, b, node, other, hne, hnode, hother, hsame⟩)
    · obtain ⟨i, hi⟩ := List.mem_iff_getElem?.1 haction
      refine ⟨(i, p), (i, q), node, other, fun heq => hne (congrArg Prod.snd heq), ?_, ?_, hsame⟩
      · exact Option.bind_eq_some_iff.2 ⟨action, hi, hnode⟩
      · exact Option.bind_eq_some_iff.2 ⟨action, hi, hother⟩
    · exact ⟨a, b, node, other, fun heq => hne (congrArg Prod.fst heq), hnode, hother, hsame⟩

end Plans

/-- The critic flags the repeated tasks of a plan where one action repeats a title by itself,
and where no title stands in two actions. -/
theorem repeated_tasks_flagged_iff (rules : TextRules) (loads : String → Option Json)
    (plan : AgentPlan) (entities : Fields) :
    (FindsRepeat rules loads plan entities ↔ RepeatsTask rules loads plan) ↔
      (RepeatsInAction rules loads plan ∨ ¬RepeatsAcross rules loads plan) := by
  rw [findsRepeat_iff, repeatsTask_iff]
  constructor
  · intro h
    by_cases hacross : RepeatsAcross rules loads plan
    · exact .inl (h.2 (.inr hacross))
    · exact .inr hacross
  · rintro (hwithin | hacross)
    · exact iff_of_true hwithin (.inl hwithin)
    · exact (or_iff_left hacross).symm

/-- An action that creates the one task. -/
def loginAction (actionId : String) : PlannedAction :=
  { actionId := actionId, planId := "plan", actionType := "mutation",
    toolName := "create_workitem_tree", instruction := "", idempotencyKey := actionId,
    input := [("items", .arr [.obj [("title", .str "Login")]])] }

/-- A plan of two actions that create the same task. -/
def loginPlan : AgentPlan :=
  { planId := "plan", sourceEventId := "event", workspaceId := "ws", projectId := some "project",
    goal := "", promptId := "feature.provision", promptVersion := "1", contextSnapshotRef := "ref",
    actions := [loginAction "a", loginAction "b"] }

/-- The same task in two actions is not reported. -/
theorem task_of_two_actions_unflagged :
    ¬∀ (rules : TextRules) (loads : String → Option Json) (plan : AgentPlan) (entities : Fields),
      FindsRepeat rules loads plan entities ↔ RepeatsTask rules loads plan := by
  intro hflagged
  have hfound := (hflagged plainRules (fun _ => none) loginPlan []).2
    ⟨(0, [0]), (1, [0]), [("title", .str "Login")], [("title", .str "Login")], by decide, rfl, rfl,
      "login", by decide, by decide⟩
  obtain ⟨action, haction, hrepeats⟩ := findsRepeat_iff.1 hfound
  have hloop := (duplicateTitleIssues_ne_nil_iff _).2 hrepeats
  have hactions : action = loginAction "a" ∨ action = loginAction "b" := by
    simpa [loginPlan] using haction
  rcases hactions with rfl | rfl
  · exact hloop (by decide)
  · exact hloop (by decide)

end PrismAgent
