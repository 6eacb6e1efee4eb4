import Mathlib.Data.List.Infix
import Mathlib.Data.Rat.Defs
import PrismAgent.Capabilities.BulkUpdateTool
import PrismAgent.Domain.Backlog

/-!
# The plan critic

`plan_quality_issues`: findings on the work items that a plan would create, and on the items
that it would change. A division of two counts is a rational number here. A set of usernames is
the list of the different ones.
-/

namespace PrismAgent

namespace PlanQuality

open UpdateWorkItemsBulkTool (contextItems indexItem)

def MIN_DESCRIPTION_LENGTH : ℕ := 30

def MAX_EXAMPLES_PER_ISSUE : ℕ := 5

def ASSIGNMENT_CONCENTRATION_THRESHOLD : ℚ := 3 / 5

def MIN_ASSIGNED_LEAVES_FOR_BALANCE_CHECK : ℕ := 6

def MIN_ASSIGNMENT_RATIO : ℚ := 1 / 2

def MIN_LEAVES_FOR_ASSIGNMENT_RATIO_CHECK : ℕ := 5

def OVERLOADED_ACTIVE_ITEM_COUNT : ℤ := 8

def BOILERPLATE_HEADINGS : List String := ["acceptance criteria", "context:"]

def EXISTING_WORK_ENTITY_KEYS : List String :=
  ["project_work_items", "backlog_work_items", "sibling_work_items", "child_work_items"]

def CLOSED_STATUSES : List String := ["done", "archived"]

/-- `_quote_titles`: the first few in quotes, and how many more there are. -/
def quoteTitles (titles : List String) : String :=
  let shown := ", ".intercalate
    ((titles.take MAX_EXAMPLES_PER_ISSUE).map fun title => "\"" ++ title ++ "\"")
  if MAX_EXAMPLES_PER_ISSUE < titles.length then
    shown ++ " and " ++ toString (titles.length - MAX_EXAMPLES_PER_ISSUE) ++ " more"
  else shown

section Targets

/-- `_known_item_index`: the first entity that has an item counts. -/
def knownItemIndex (entities : Fields) : Dict String Fields :=
  (EXISTING_WORK_ENTITY_KEYS.flatMap (contextItems entities)).foldl indexItem []

/-- The statuses that an item must not have. -/
def blockedStatuses (requireUnstarted : Bool) : List String :=
  if requireUnstarted then ["in_progress", "in_review"] ++ CLOSED_STATUSES else CLOSED_STATUSES

/-- The ids under which the context knows no item. -/
def unknownTargets (known : Dict String Fields) (itemIds : List String) : List String :=
  itemIds.filter fun itemId => itemId ≠ "" && (known.lookup itemId).isNone

/-- The title under which an item is reported, if its status blocks the action. -/
def blockedTitle (known : Dict String Fields) (requireUnstarted : Bool) (itemId : String) :
    Option String :=
  ((known.lookup itemId).filter fun item =>
    textField item "status" "" ∈ blockedStatuses requireUnstarted).map fun item =>
      textField item "title" itemId

/-- `_target_item_issues`. -/
def targetItemIssues (itemIds : List String) (entities : Fields) (toolName : String)
    (requireUnstarted : Bool) : List String :=
  let known := knownItemIndex entities
  if known = [] then []
  else
    let unknown := unknownTargets known itemIds
    let blocked := itemIds.filterMap (blockedTitle known requireUnstarted)
    let scope :=
      if requireUnstarted then
        "already started or closed; only unstarted (todo) items can be edited — " ++
          "propose the rest in a suggestion"
      else "already done or archived; leave closed items alone"
    (if unknown = [] then []
      else ["The " ++ toolName ++ " action references item ids that do not exist in the " ++
        "hydrated backlog: " ++ quoteTitles unknown ++ ". Use itemId values exactly " ++
        "as they appear in context."]) ++
    (if blocked = [] then []
      else ["The " ++ toolName ++ " action touches items that are " ++ scope ++ ": " ++
        quoteTitles blocked ++ "."])

end Targets

section Nodes

mutual

/-- The objects of a tree, a node before what is below it. -/
def flattenNode : Json → List Fields
  | .obj fields => fields :: flattenBelow fields
  | _ => []

def flattenBelow : List (String × Json) → List Fields
  | [] => []
  | (key, value) :: fields =>
      if key = "children" then flattenList value else flattenBelow fields

def flattenList : Json → List Fields
  | .arr items => flatten items
  | _ => []

/-- `_flatten`. -/
def flatten : List Json → List Fields
  | [] => []
  | item :: items => flattenNode item ++ flatten items

end

variable (rules : TextRules)

/-- `re.sub(r"\s+", " ", text)`. -/
def collapseSpaces (text : String) : String :=
  String.ofList (text.toList.foldr
    (fun c cs => if isWhiteSpace c then ' ' :: cs.dropWhile isWhiteSpace else c :: cs) [])

/-- `_normalize_title`. -/
def normalizeTitle (title : Json) : String :=
  rules.lower (strip (collapseSpaces (if title.truthy then title.toStr else "")))

/-- One step of the loop over the nodes: the titles seen, and those that are repeated. -/
def noteTitle (acc : Dict String String × List String) (node : Fields) :
    Dict String String × List String :=
  let title := getField node "title"
  let normalized := normalizeTitle rules title
  if normalized = "" then acc
  else
    (Dict.setDefault acc.1 normalized title.toStr,
      match acc.1.lookup normalized with
      | some first => if first ∈ acc.2 then acc.2 else acc.2 ++ [first]
      | none => acc.2)

def duplicateTitleIssues (nodes : List Fields) : List String :=
  let duplicates := (nodes.foldl (noteTitle rules) ([], [])).2
  if duplicates = [] then []
  else ["The plan repeats the same task more than once: " ++ quoteTitles duplicates ++ ". " ++
    "Merge duplicates or differentiate their scope."]

/-- `_existing_titles`: the titles of the hydrated items by their normal forms. -/
def existingTitles (entities : Fields) : Dict String String :=
  ((EXISTING_WORK_ENTITY_KEYS.flatMap (contextItems entities)).filterMap Json.asObj?).foldl
    (fun titles item =>
      let normalized := normalizeTitle rules (getField item "title")
      if normalized = "" then titles
      else Dict.setDefault titles normalized (getField item "title").toStr) []

def existingDuplicateIssues (nodes : List Fields) (entities : Fields) : List String :=
  let existing := existingTitles rules entities
  let duplicated := (nodes.filter fun node =>
    (existing.lookup (normalizeTitle rules (getField node "title"))).isSome).map fun node =>
      (getField node "title").toStr
  if existing = [] ∨ duplicated = [] then []
  else ["These planned tasks already exist as work items: " ++ quoteTitles duplicated ++ ". " ++
    "Drop them, or replace them with tasks for only the missing work that " ++
    "extends the existing item."]

/-- The description says too little. -/
def isWeak (node : Fields) : Bool :=
  let description := strip (textField node "description" "")
  description.length < MIN_DESCRIPTION_LENGTH ||
    normalizeTitle rules (.str description) =
      normalizeTitle rules (.str (textField node "title" "")) ||
    BOILERPLATE_HEADINGS.any fun heading =>
      heading.toList <:+: (rules.lower description).toList

def descriptionIssues (nodes : List Fields) : List String :=
  let weak := (nodes.filter (isWeak rules)).map fun node => textField node "title" ""
  if weak = [] then []
  else ["These task descriptions are missing, too thin, boilerplate, or restate the " ++
    "title: " ++ quoteTitles weak ++ ". Each description must be 2-5 sentences of " ++
    "plain prose with the concrete behavior, validation, and edge cases the " ++
    "implementer needs to start coding."]

end Nodes

section Assignments

variable (entities : Fields)

/-- `_known_member_count`. -/
def knownMemberCount : ℕ :=
  (((MEMBER_ENTITY_KEYS.flatMap (contextItems entities)).filterMap Json.asObj?).map fun member =>
    strip (textField member "username" "")).filter (· ≠ "") |>.dedup.length

/-- A member who has less than the count of active items that overloads; what is no number does
not count. -/
def hasCapacity (workload : Fields) : Bool :=
  match getField workload "activeItemCount" with
  | .int active => active < OVERLOADED_ACTIVE_ITEM_COUNT
  | _ => true

def membersWithCapacity : List String :=
  ((((contextItems entities "member_workloads").filterMap Json.asObj?).filter hasCapacity).map
    fun workload => strip (textField workload "username" "")).filter (· ≠ "")
  |>.take MAX_EXAMPLES_PER_ISSUE

/-- The nodes without children. -/
def leavesOf (nodes : List Fields) : List Fields :=
  nodes.filter fun node => !(getField node "children").truthy

/-- The assignees of a node, if it lists any. -/
def assigneesOf (node : Fields) : Option (List Json) :=
  match getField node "assigneeUsernames" with
  | .arr assignees => if assignees.isEmpty then none else some assignees
  | _ => none

/-- How often each name is assigned. -/
def assignmentCounts (assigned : List (List Json)) : Dict String ℕ :=
  ((assigned.flatten.map cleanText).filter (· ≠ "")).foldl
    (fun counts name => Dict.insert counts name ((counts.lookup name).getD 0 + 1)) []

/-- `max(counts.items(), key=...)`: of several with the largest count the first. -/
def topAssignee : Dict String ℕ → Option (String × ℕ)
  | [] => none
  | entry :: counts =>
      some (counts.foldl (fun top next => if top.2 < next.2 then next else top) entry)

/-- Too few of the leaves have an assignee. -/
def ratioIssue (leaves assigned : ℕ) : List String :=
  let available := membersWithCapacity entities
  let memberHint :=
    if available = [] then ""
    else " Members with capacity: " ++ ", ".intercalate available ++ "."
  if MIN_LEAVES_FOR_ASSIGNMENT_RATIO_CHECK ≤ leaves ∧
      (assigned : ℚ) / leaves < MIN_ASSIGNMENT_RATIO then
    ["Only " ++ toString assigned ++ " of " ++ toString leaves ++ " tasks have an assignee. " ++
      "Assigning work is the project manager's job: give every task whose required " ++
      "skills match a member's jobNames an owner, using exact username " ++
      "values." ++ memberHint]
  else []

/-- One member holds too many of the assigned leaves. -/
def balanceIssue (members assigned : ℕ) (counts : Dict String ℕ) : List String :=
  match topAssignee counts with
  | some (username, count) =>
      if 3 ≤ members ∧ MIN_ASSIGNED_LEAVES_FOR_BALANCE_CHECK ≤ assigned ∧
          ASSIGNMENT_CONCENTRATION_THRESHOLD < (count : ℚ) / assigned then
        ["Assignment is too concentrated: " ++ username ++ " holds " ++ toString count ++
          " of " ++ toString assigned ++ " assigned tasks while " ++ toString members ++
          " members are available. Rebalance across capable teammates or leave uncertain " ++
          "tasks unassigned."]
      else []
  | none => []

def assignmentIssues (nodes : List Fields) : List String :=
  let members := knownMemberCount entities
  let leaves := leavesOf nodes
  let assigned := leaves.filterMap assigneesOf
  if members < 2 then []
  else ratioIssue entities leaves.length assigned.length ++
    balanceIssue members assigned.length (assignmentCounts assigned)

end Assignments

section Plans

variable (rules : TextRules) (loads : String → Option Json) (entities : Fields)

/-- The findings on a tree that an action would create. -/
def treeIssues (items : List Json) : List String :=
  let nodes := flatten items
  duplicateTitleIssues rules nodes ++ existingDuplicateIssues rules nodes entities ++
    descriptionIssues rules nodes ++ assignmentIssues entities nodes

/-- The item ids of the updates of an action, as they are spelt there. -/
def updateItemIds (input : Fields) : List String :=
  (((coerceWorkItemUpdates loads input).getD []).filterMap Json.asObj?).map fun update =>
    textField update "itemId" ""

/-- The findings on one action. -/
def actionIssues (action : PlannedAction) : List String :=
  if action.toolName = "create_workitem_tree" then
    match coerceWorkItemTreeItems loads action.input with
    | some items => if items.isEmpty then [] else treeIssues rules entities items
    | none => []
  else if action.toolName = "update_workitems_bulk" then
    targetItemIssues (updateItemIds loads action.input) entities action.toolName true
  else if action.toolName = "add_sprint_work_items" then
    match action.input.lookup "itemIds" with
    | some (.arr rawIds) =>
        targetItemIssues (rawIds.map Json.toStr) entities action.toolName false
    | _ => []
  else []

end Plans

end PlanQuality

/-- `plan_quality_issues`. -/
def planQualityIssues (rules : TextRules) (loads : String → Option Json) (plan : AgentPlan)
    (entities : Fields) : List String :=
  plan.actions.flatMap (PlanQuality.actionIssues rules loads entities)

end PrismAgent
