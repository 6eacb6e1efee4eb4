import PrismAgent.Capabilities.WorkitemPayloads
import PrismAgent.Capabilities.WorkitemTools

/-!
# The tree tool

`CreateWorkItemTreeTool`: a whole hierarchy of work items in one action. The tree is validated
and the assignees are rolled up before the first item is created; then the levels are created
one after the other, the items of a level in parallel.
-/

namespace PrismAgent

open Effect
open Effect.Program (perform)

/-- The calls that the tool makes of the client: one `create_work_item` for each payload, by a
pool of threads that hands out the answers in the order of the payloads. -/
inductive TreeCall
  | createWorkItems (projectId : String) (payloads : List Fields)

abbrev TreeCall.Answer : TreeCall → Type
  | createWorkItems _ _ => List Fields

abbrev TreeProgram (α : Type) : Type := Program TreeCall TreeCall.Answer Exc α

namespace CreateWorkItemTreeTool

def WORK_ITEM_TREE_NODE_FIELDS : List String :=
  ["title", "description", "startDate", "dueDate", "priority", "status", "assigneeUsernames",
    "labelNames"]

def MAX_WORK_ITEM_TREE_DEPTH : ℕ := 3

def MAX_WORK_ITEM_TREE_ITEMS : ℕ := 100

/-- What `value.get` raises where the value is not a dictionary. -/
def noAttributeGet : Exc := .external "AttributeError" "object has no attribute 'get'"

def notIterable : Exc := .typeError "object is not iterable"

section Validation

/-- Check a node, and what is below it by `walkBelow`; the nodes are counted. -/
def checkNode (walkBelow : List Json → ℕ → Except String ℕ) (count : ℕ) (node : Json) :
    Except String ℕ :=
  match node with
  | .obj fields =>
      if !hasText fields "title" then
        .error "Every work item tree node requires a non-empty title."
      else if MAX_WORK_ITEM_TREE_ITEMS < count + 1 then
        .error ("Work item tree exceeds max size of " ++ toString MAX_WORK_ITEM_TREE_ITEMS ++
          " items.")
      else
        match (fields.lookup "children").getD .null with
        | .null => .ok (count + 1)
        | .arr children =>
            if children.isEmpty then .ok (count + 1) else walkBelow children (count + 1)
        | _ => .error "Work item tree 'children' must be a list."
  | _ => .error "Every work item tree node must be an object."

/-- `_walk`, with so many levels left. -/
def walk : ℕ → List Json → ℕ → Except String ℕ
  | 0, _, _ => .error
      ("Work item tree exceeds max depth of " ++ toString MAX_WORK_ITEM_TREE_DEPTH ++ ".")
  | levels + 1, nodes, count => nodes.foldlM (checkNode (walk levels)) count

/-- `validate_work_item_tree`: the error, if there is one. -/
def validateWorkItemTree (items : Option (List Json)) : Option String :=
  match items.getD [] with
  | [] => some "create_workitem_tree requires a non-empty 'items' list."
  | items =>
      match walk MAX_WORK_ITEM_TREE_DEPTH items 0 with
      | .error error => some error
      | .ok _ => none

end Validation

section Assignees

variable (rules : TextRules) (known : Dict String String)

/-- The names of a node that no known member has. -/
def unresolvedNames (fields : Fields) : List String :=
  match fields.lookup "assigneeUsernames" with
  | some (.arr names) =>
      (names.filter fun name => cleanText name ≠ "" &&
        (known.lookup (rules.lower (strip name.toStr))).isNone).map fun name => strip name.toStr
  | _ => []

mutual

def unresolvedNode : Json → List Json
  | .obj fields =>
      let missing := unresolvedNames rules known fields
      (if missing.isEmpty then []
        else [.obj [("title", .str (textField fields "title" "")),
          ("unresolved", .arr (missing.map .str))]]) ++ unresolvedBelow fields
  | _ => []

/-- The entries of the children among the fields. -/
def unresolvedBelow : List (String × Json) → List Json
  | [] => []
  | (key, value) :: fields =>
      if key = "children" then unresolvedList value else unresolvedBelow fields

def unresolvedList : Json → List Json
  | .arr nodes => unresolvedNodes nodes
  | _ => []

def unresolvedNodes : List Json → List Json
  | [] => []
  | node :: nodes => unresolvedNode node ++ unresolvedNodes nodes

end

/-- `_collect_unresolved_assignees`. -/
def collectUnresolvedAssignees (items : List Json) : List Json :=
  if known = [] then [] else unresolvedNodes rules known items

/-- A name joins the others once. -/
def addOnce (names : List String) (name : String) : List String :=
  if name ∈ names then names else names ++ [name]

/-- The fields with the assignees of the node and of everything below it. -/
def withAssignees (fields : Fields) (merged : List String) : Fields :=
  if merged.isEmpty then fields
  else Dict.insert fields "assigneeUsernames" (.arr (merged.map .str))

/-- A `for` loop over the value, if it is true, does not raise. -/
def isIterable (value : Json) : Bool :=
  match value with
  | .arr _ => true
  | .obj _ => true
  | .str _ => true
  | value => !value.truthy

mutual

/-- `_rollup_assignee_usernames`: the node as it is afterwards, and its merged assignees. -/
def rollupNode : Json → Except Exc (Json × List String)
  | .obj fields => do
      let below ← rollupFields fields
      let merged := below.2.foldl addOnce
        (cleanUsernames rules known ((fields.lookup "assigneeUsernames").getD .null))
      return (.obj (withAssignees below.1 merged), merged)
  | _ => .error noAttributeGet

/-- The fields with the children rolled up. -/
def rollupFields : List (String × Json) → Except Exc (List (String × Json) × List String)
  | [] => .ok ([], [])
  | (key, value) :: fields =>
      if key = "children" then do
        let below ← rollupList value
        return ((key, below.1) :: fields, below.2)
      else do
        let rest ← rollupFields fields
        return ((key, value) :: rest.1, rest.2)

def rollupList : Json → Except Exc (Json × List String)
  | .arr nodes => do
      let below ← rollupNodes nodes
      return (.arr below.1, below.2)
  | value => if isIterable value then .ok (value, []) else .error notIterable

/-- Children that are not objects are passed over. -/
def rollupNodes : List Json → Except Exc (List Json × List String)
  | [] => .ok ([], [])
  | node :: nodes =>
      (if node.isObj then rollupNode node else .ok (node, [])) >>= fun first => do
        let rest ← rollupNodes nodes
        return (first.1 :: rest.1, first.2 ++ rest.2)

end

end Assignees

section Levels

/-- A node whose parent has been created. -/
structure Pending where
  node : Json
  parentId : Option String
  depth : ℕ

/-- `str(node.get("title") or "Generated task")[:100]`. -/
def nodeTitle (fields : Fields) : String :=
  String.ofList ((textField fields "title" "Generated task").toList.take 100)

/-- `node.get("children") or []`, as a list. -/
def childNodes (node : Json) : Except Exc (List Json) :=
  match node with
  | .obj fields =>
      match (fields.lookup "children").getD .null with
      | .arr nodes => .ok nodes
      | .obj entries => .ok (entries.map fun entry => .str entry.1)
      | .str text => .ok (text.toList.map fun c => .str c.toString)
      | value => if isIterable value then .ok [] else .error notIterable
  | _ => .error noAttributeGet

variable (rules : TextRules) (known : Dict String String) (action : PlannedAction)

/-- What the payload has of the node itself. -/
def nodeFields (fields : Fields) : Fields :=
  let titled := Dict.insert (filterPayload fields WORK_ITEM_TREE_NODE_FIELDS) "title"
    (.str (nodeTitle fields))
  let described := Dict.setDefault titled "description"
    (.str (textField fields "description" action.instruction))
  normalizeNodePayload rules known described

/-- The payload with the parent, if there is one. -/
def withParent (payload : Fields) (parentId : Option String) : Fields :=
  match parentId with
  | some parentId =>
      if parentId = "" then payload else Dict.insert payload "parentId" (.str parentId)
  | none => payload

/-- The payload that creates a node. -/
def nodePayload (node : Json) (parentId : Option String) : Except Exc Fields :=
  match node with
  | .obj fields => .ok (withParent (nodeFields rules known action fields) parentId)
  | _ => .error noAttributeGet

/-- The item that stands for a created one where there is no client. -/
def localOutput (projectId workspaceId : String) (number : ℕ) (payload : Fields) : Fields :=
  Dict.merge [("itemId", .str ("local-" ++ action.actionId ++ "-" ++ toString number)),
    ("projectId", .str projectId), ("workspaceId", .str workspaceId)] payload

/-- The id that an item has been given. -/
def outputId (output : Fields) : String :=
  match (truthyField output "itemId").or (truthyField output "id") with
  | some itemId => itemId.toStr
  | none => "local-" ++ action.actionId

def ofExcept {α : Type} : Except Exc α → TreeProgram α
  | .ok a => .pure a
  | .error x => .raise x

variable (configured : Bool) (projectId : String) (requester : Option String)
  (context : AgentContext)

/-- `_create_level`: the ids of the items. -/
def createLevel (pending : List Pending) (startIndex : ℕ) : TreeProgram (List String) := do
  let payloads ← ofExcept
    (pending.mapM fun due => nodePayload rules known action due.node due.parentId)
  let outputs ←
    if configured then
      perform (TreeCall.createWorkItems projectId (payloads.map (withRequester · requester)))
    else
      pure (payloads.zipIdx.map fun entry =>
        localOutput action projectId context.workspaceId (startIndex + entry.2 + 1) entry.1)
  return outputs.map (outputId action)

/-- `zip(..., strict=True)`. -/
def zipStrict {α β : Type} (xs : List α) (ys : List β) : Except Exc (List (α × β)) :=
  if xs.length = ys.length then .ok (xs.zip ys)
  else .error (.valueError "zip() argument 2 is shorter or longer than argument 1")

/-- What the output says of a created node. -/
def createdEntry (due : Pending) (itemId : String) : Except Exc Json :=
  match due.node with
  | .obj fields => .ok (.obj [("itemId", .str itemId),
      ("parentId", (due.parentId.map Json.str).getD .null), ("depth", .int due.depth),
      ("title", .str (nodeTitle fields))])
  | _ => .error noAttributeGet

def duesBelow (due : Pending) (itemId : String) : Except Exc (List Pending) := do
  let children ← childNodes due.node
  return children.map fun child => ⟨child, some itemId, due.depth + 1⟩

/-- The loop over the levels. It ends with a level that is empty; `levels` bounds its rounds,
as the validation bounds the depth of the tree. -/
def createLevels : ℕ → List Pending → List Json → TreeProgram (List Json)
  | _, [], created => pure created
  | 0, _ :: _, _ => .raise (.external "RecursionError" "the tree is deeper than validated")
  | levels + 1, pending, created => do
      let itemIds ← createLevel rules known action configured projectId requester context pending
        created.length
      let pairs ← ofExcept (zipStrict pending itemIds)
      let entries ← ofExcept (pairs.mapM fun pair => createdEntry pair.1 pair.2)
      let next ← ofExcept (pairs.mapM fun pair => duesBelow pair.1 pair.2)
      createLevels levels next.flatten (created ++ entries)

end Levels

/-- The result of a tree whose items have been created. -/
def treeResult (resultId : String) (action : PlannedAction) (projectId : String)
    (unresolved created : List Json) : ToolResult :=
  { resultId := resultId
    planId := action.planId
    actionId := action.actionId
    toolName := "create_workitem_tree"
    success := true
    output :=
      [("projectId", .str projectId), ("createdCount", .int created.length),
        ("items", .arr created)] ++
      (if unresolved.isEmpty then [] else [("unresolvedAssignees", .arr unresolved)]) }

def execute (rules : TextRules) (loads : String → Option Json) (configured : Bool)
    (resultId : String) (action : PlannedAction) (context : AgentContext) :
    TreeProgram ToolResult := do
  let projectId := textField action.input "projectId" (context.projectId.getD "")
  let coerced := coerceWorkItemTreeItems loads action.input
  match validateWorkItemTree coerced with
  | some error =>
      return {
        resultId := resultId
        planId := action.planId
        actionId := action.actionId
        toolName := "create_workitem_tree"
        success := false
        error := some error }
  | none =>
      let items := coerced.getD []
      let rootParentId := validUuidOrNone ((action.input.lookup "parentId").getD .null)
      let known := knownMemberUsernames rules context
      let unresolved := collectUnresolvedAssignees rules known items
      let rolled ← ofExcept (items.mapM (rollupNode rules known))
      let created ← createLevels rules known action configured projectId
        (requestedByUserId action.input context) context MAX_WORK_ITEM_TREE_DEPTH
        (rolled.map fun node => ⟨node.1, rootParentId, 1⟩) []
      return treeResult resultId action projectId unresolved created

end CreateWorkItemTreeTool

end PrismAgent
