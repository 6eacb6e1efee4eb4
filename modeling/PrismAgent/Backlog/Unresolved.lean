import PrismAgent.Backlog.Resolver

/-!
# Unresolved assignees

One recursion reports the names of a tree that stand for nobody, another one cleans them away.
The report reads only lists of names; the cleaning also accepts a single name that stands
alone. A name is reported under the title of its node unless it stands alone and no list under
the same title has it.
-/

namespace PrismAgent

open CreateWorkItemTreeTool Effect
open Forest (nodeAt preorder)

section Names

/-- No listed member bears the name. -/
def StandsForNobody (rules : TextRules) (context : AgentContext) (name : String) : Prop :=
  name ≠ "" ∧ ∀ member ∈ listedMembers context, ¬Bears rules member (rules.lower name)

/-- The title that a report gives a node. -/
def reportTitle (node : Json) : String := textField (node.asObj?.getD []) "title" ""

/-- Somewhere in the tree a node with the title names somebody who is not there. -/
def Drops (rules : TextRules) (context : AgentContext) (items : List Json) (title name : String) :
    Prop :=
  StandsForNobody rules context name ∧ ∃ p node, nodeAt listedChildren items p = some node ∧
    reportTitle node = title ∧ ∃ raw, assigneesIn node = some raw ∧
      name ∈ (namesOf raw).map cleanText

/-- The output lists the name as unresolved, under the title. -/
def ReportedUnder (result : ToolResult) (title name : String) : Prop :=
  ∃ entries entry names, result.output.lookup "unresolvedAssignees" = some (.arr entries) ∧
    .obj entry ∈ entries ∧ entry.lookup "title" = some (.str title) ∧
      entry.lookup "unresolved" = some (.arr names) ∧ .str name ∈ names

/-- Somewhere in the tree a list of names under the title has somebody who is not there. -/
def ListsNobody (rules : TextRules) (context : AgentContext) (items : List Json)
    (title name : String) : Prop :=
  StandsForNobody rules context name ∧ ∃ p node names, nodeAt listedChildren items p = some node ∧
    reportTitle node = title ∧ assigneesIn node = some (.arr names) ∧ name ∈ names.map cleanText

/-- Whoever is named outside of a list is a member, or is also named in a list under the same
title. -/
def ListedAsWell (rules : TextRules) (context : AgentContext) (items : List Json) : Prop :=
  ∀ p node raw, nodeAt listedChildren items p = some node → assigneesIn node = some raw →
    (∀ names, raw ≠ .arr names) → StandsForNobody rules context (cleanText raw) →
      ∃ q other names, nodeAt listedChildren items q = some other ∧
        reportTitle other = reportTitle node ∧ assigneesIn other = some (.arr names) ∧
          cleanText raw ∈ names.map cleanText

variable {rules : TextRules} {context : AgentContext} {name : String}

/-- Whoever is left when names are cleaned is a member. -/
theorem StandsForNobody.notMem_cleanUsernames (h : StandsForNobody rules context name)
    (hknown : knownMemberUsernames rules context ≠ []) (raw : Json) :
    name ∉ cleanUsernames rules (knownMemberUsernames rules context) raw := by
  intro hmem
  obtain ⟨text, -, htext⟩ := mem_cleanUsernames_iff.1 hmem
  obtain ⟨-, hvalue, -⟩ := resolveName_eq_some htext
  obtain ⟨member, hmember, rfl⟩ := isMember_iff.1 (isMember_of_mem_values (hvalue hknown))
  exact h.2 member hmember (bears_username h.1)

theorem cleanText_eq_strip {value : Json} (h : cleanText value ≠ "") :
    cleanText value = strip value.toStr := by
  unfold cleanText at h ⊢
  split at h
  next htruthy => rw [if_pos htruthy]
  next => exact absurd rfl h

/-- The reported names of a node are the ones in its list that stand for nobody. -/
theorem mem_unresolvedNames_iff {fields : Fields} :
    name ∈ unresolvedNames rules (knownMemberUsernames rules context) fields ↔
      StandsForNobody rules context name ∧
        ∃ names, fields.lookup "assigneeUsernames" = some (.arr names) ∧
          name ∈ names.map cleanText := by
  unfold unresolvedNames
  cases hraw : fields.lookup "assigneeUsernames" with
  | none => simp
  | some raw =>
      cases raw with
      | arr names =>
          dsimp only
          rw [List.mem_map]
          constructor
          · rintro ⟨value, hvalue, rfl⟩
            obtain ⟨hmem, hcriterion⟩ := List.mem_filter.1 hvalue
            rw [Bool.and_eq_true, decide_eq_true_eq, Option.isNone_iff_eq_none] at hcriterion
            obtain ⟨hne, hnone⟩ := hcriterion
            rw [← cleanText_eq_strip hne] at hnone ⊢
            exact ⟨⟨hne, lookup_known_eq_none_iff.1 hnone⟩, names, rfl, List.mem_map_of_mem hmem⟩
          · rintro ⟨⟨hne, hnobody⟩, names', hnames, hmem⟩
            cases hnames
            obtain ⟨value, hvalue, rfl⟩ := List.mem_map.1 hmem
            refine ⟨value, List.mem_filter.2 ⟨hvalue, ?_⟩, (cleanText_eq_strip hne).symm⟩
            rw [Bool.and_eq_true, decide_eq_true_eq, Option.isNone_iff_eq_none,
              ← cleanText_eq_strip hne]
            exact ⟨hne, lookup_known_eq_none_iff.2 hnobody⟩
      | _ => simp

end Names

section Entries

variable {rules : TextRules} {known : Dict String String}

/-- What is reported of the node itself. -/
def unresolvedEntry (rules : TextRules) (known : Dict String String) (node : Json) : List Json :=
  let missing := unresolvedNames rules known (node.asObj?.getD [])
  if missing.isEmpty then []
  else [.obj [("title", .str (reportTitle node)), ("unresolved", .arr (missing.map .str))]]

theorem unresolvedBelow_eq (fields : Fields) :
    unresolvedBelow rules known fields =
      unresolvedList rules known ((fields.lookup "children").getD .null) := by
  induction fields with
  | nil => rfl
  | cons entry fields ih =>
      obtain ⟨key, value⟩ := entry
      rw [unresolvedBelow, ih, List.lookup_cons]
      by_cases hkey : key = "children"
      · rw [if_pos hkey, beq_iff_eq.2 hkey.symm]
        rfl
      · rw [if_neg hkey, beq_eq_false_iff_ne.2 (Ne.symm hkey)]

/-- A node is reported before what is below it. -/
theorem unresolvedNode_eq {node : Json} (h : IsTreeNode node) :
    unresolvedNode rules known node =
      unresolvedEntry rules known node ++ unresolvedNodes rules known (listedChildren node) := by
  obtain ⟨fields, rfl, hchildren⟩ := h
  rw [unresolvedNode, unresolvedBelow_eq]
  dsimp only [listedChildren]
  rcases hchildren with hnull | ⟨nodes, harr⟩
  · rw [hnull]
    rfl
  · rw [harr]
    rfl

theorem unresolvedNodes_eq_flatMap (nodes : List Json) :
    unresolvedNodes rules known nodes = nodes.flatMap (unresolvedNode rules known) := by
  induction nodes with
  | nil => rfl
  | cons node nodes ih => rw [unresolvedNodes, ih, List.flatMap_cons]

/-- The nodes of a tree are reported in preorder. -/
theorem unresolvedNodes_eq_preorder {levels : ℕ} {nodes : List Json} (h : Shaped levels nodes) :
    unresolvedNodes rules known nodes =
      (preorder listedChildren levels nodes).flatMap (unresolvedEntry rules known) := by
  induction levels generalizing nodes with
  | zero =>
      rw [show nodes = [] from h]
      rfl
  | succ levels ih =>
      rw [unresolvedNodes_eq_flatMap, Forest.preorder_succ, List.flatMap_assoc]
      refine List.flatMap_congr fun node hnode => ?_
      obtain ⟨htree, hbelow⟩ := h node hnode
      rw [unresolvedNode_eq htree, ih hbelow, List.flatMap_cons]

theorem mem_unresolvedEntry_iff {node entry : Json} :
    entry ∈ unresolvedEntry rules known node ↔
      unresolvedNames rules known (node.asObj?.getD []) ≠ [] ∧
        entry = .obj [("title", .str (reportTitle node)),
          ("unresolved", .arr ((unresolvedNames rules known (node.asObj?.getD [])).map .str))] := by
  unfold unresolvedEntry
  dsimp only
  cases unresolvedNames rules known (node.asObj?.getD []) with
  | nil => simp
  | cons name names => simp

theorem mem_collectUnresolvedAssignees_iff {items : List Json} {entry : Json} (hknown : known ≠ [])
    (h : Shaped MAX_WORK_ITEM_TREE_DEPTH items) :
    entry ∈ collectUnresolvedAssignees rules known items ↔
      ∃ p node, nodeAt listedChildren items p = some node ∧
        entry ∈ unresolvedEntry rules known node := by
  unfold collectUnresolvedAssignees
  rw [if_neg hknown, unresolvedNodes_eq_preorder h, List.mem_flatMap]
  constructor
  · rintro ⟨node, hnode, hentry⟩
    obtain ⟨p, hp, -⟩ := Forest.mem_preorder.1 hnode
    exact ⟨p, node, hp, hentry⟩
  · rintro ⟨p, node, hp, hentry⟩
    exact ⟨node, Forest.mem_preorder.2 ⟨p, hp, (h.of_nodeAt hp).1⟩, hentry⟩

theorem lookup_unresolvedAssignees (resultId : String) (action : PlannedAction) (projectId : String)
    (unresolved created : List Json) :
    (treeResult resultId action projectId unresolved created).output.lookup "unresolvedAssignees" =
      if unresolved.isEmpty then none else some (.arr unresolved) := by
  unfold treeResult
  dsimp only
  split
  · rfl
  · rfl

end Entries

section Reports

variable {rules : TextRules} {context : AgentContext} {items : List Json} {title name : String}

theorem lookup_assignees_eq (node : Json) :
    (node.asObj?.getD []).lookup "assigneeUsernames" = assigneesIn node := by
  cases node <;> rfl

/-- The reported names are those in lists that stand for nobody. -/
theorem reportedUnder_iff (hknown : knownMemberUsernames rules context ≠ [])
    (h : Shaped MAX_WORK_ITEM_TREE_DEPTH items) (resultId : String) (action : PlannedAction)
    (projectId : String) (created : List Json) :
    ReportedUnder (treeResult resultId action projectId
        (collectUnresolvedAssignees rules (knownMemberUsernames rules context) items) created)
        title name ↔ ListsNobody rules context items title name := by
  unfold ReportedUnder
  rw [lookup_unresolvedAssignees]
  constructor
  · rintro ⟨entries, entry, names, hentries, hentry, htitle, hnames, hname⟩
    split at hentries
    · cases hentries
    cases hentries
    obtain ⟨p, node, hp, hmem⟩ := (mem_collectUnresolvedAssignees_iff hknown h).1 hentry
    obtain ⟨-, heq⟩ := mem_unresolvedEntry_iff.1 hmem
    cases heq
    cases htitle
    cases hnames
    obtain ⟨name', hmissing, heq⟩ := List.mem_map.1 hname
    cases heq
    obtain ⟨hnobody, names, hraw, hlisted⟩ := mem_unresolvedNames_iff.1 hmissing
    rw [lookup_assignees_eq] at hraw
    exact ⟨hnobody, p, node, names, hp, rfl, hraw, hlisted⟩
  · rintro ⟨hnobody, p, node, names, hp, rfl, hraw, hlisted⟩
    rw [← lookup_assignees_eq] at hraw
    have hmissing := mem_unresolvedNames_iff.2 ⟨hnobody, names, hraw, hlisted⟩
    have hentry := (mem_collectUnresolvedAssignees_iff hknown h).2
      ⟨p, node, hp, mem_unresolvedEntry_iff.2 ⟨List.ne_nil_of_mem hmissing, rfl⟩⟩
    refine ⟨_, _, _, if_neg ?_, hentry, rfl, rfl, List.mem_map_of_mem hmissing⟩
    rw [List.isEmpty_iff]
    exact List.ne_nil_of_mem hentry

/-- A dropped name is reported unless it stands alone. -/
theorem drops_iff_reported_iff {result : ToolResult}
    (hreported : ∀ title name, ReportedUnder result title name ↔
      ListsNobody rules context items title name) :
    (∀ title name, Drops rules context items title name ↔ ReportedUnder result title name) ↔
      ListedAsWell rules context items := by
  constructor
  · intro h p node raw hp hraw hsingle hnobody
    have hnames : namesOf raw = [raw] := by
      cases raw with
      | arr names => exact absurd rfl (hsingle names)
      | _ => rfl
    have hdrops : Drops rules context items (reportTitle node) (cleanText raw) := by
      refine ⟨hnobody, p, node, hp, rfl, raw, hraw, ?_⟩
      rw [hnames]
      exact List.mem_singleton_self _
    obtain ⟨-, q, other, names, hq, htitle, hlist, hlisted⟩ :=
      (hreported _ _).1 ((h _ _).1 hdrops)
    exact ⟨q, other, names, hq, htitle, hlist, hlisted⟩
  · intro h title name
    rw [hreported]
    refine and_congr_right fun hnobody => ⟨?_, ?_⟩
    · rintro ⟨p, node, hp, rfl, raw, hraw, hname⟩
      by_cases hlist : ∃ names, raw = .arr names
      · obtain ⟨names, rfl⟩ := hlist
        exact ⟨p, node, names, hp, rfl, hraw, hname⟩
      · have hnames : namesOf raw = [raw] := by
          cases raw with
          | arr names => exact absurd ⟨names, rfl⟩ hlist
          | _ => rfl
        rw [hnames] at hname
        obtain rfl := List.mem_singleton.1 hname
        obtain ⟨q, other, names, hq, htitle, hother, hlisted⟩ :=
          h p node raw hp hraw (fun names hnames => hlist ⟨names, hnames⟩) hnobody
        exact ⟨q, other, names, hq, htitle, hother, hlisted⟩
    · rintro ⟨p, node, names, hp, rfl, hraw, hlisted⟩
      exact ⟨p, node, hp, rfl, .arr names, hraw, hlisted⟩

end Reports

/-- The names that stand for nobody are reported under the titles of their nodes, and not sent. -/
structure DropsReported (rules : TextRules) (action : PlannedAction) (context : AgentContext)
    (items : List Json) (result : ToolResult) (records : List CreatedNode) : Prop where
  reported : ∀ title name, Drops rules context items title name ↔ ReportedUnder result title name
  unsent : ∀ title name, Drops rules context items title name → ∀ record ∈ records, ∀ value,
    (record.call rules (knownMemberUsernames rules context) action
      (textField action.input "projectId" (context.projectId.getD ""))
      (requestedByUserId action.input context)).payload.lookup "assigneeUsernames" = some value →
        .str name ∉ namesOf value

/-- Executing the tool on a valid tree creates it and reports every dropped name, exactly if
whoever is named outside of a list is a member or also named in a list under the same title. -/
theorem dropped_assignees_reported_iff (rules : TextRules) (loads : String → Option Json)
    (configured : Bool) (resultId : String) (action : PlannedAction) (context : AgentContext)
    {items : List Json} (hcoerced : coerceWorkItemTreeItems loads action.input = some items)
    (hvalid : validateWorkItemTree (some items) = none)
    (hmember : ∃ username, IsMember context username ∧ username ≠ "") :
    (execute rules loads configured resultId action context).wp Creates
      (fun r log => ∃ result records made, r = .ok result ∧
        CreatesTree rules (knownMemberUsernames rules context) action configured
          (textField action.input "projectId" (context.projectId.getD ""))
          (requestedByUserId action.input context)
          (validUuidOrNone ((action.input.lookup "parentId").getD .null)) items result records made
          log ∧
        (DropsReported rules action context items result records ↔
          ListedAsWell rules context items)) [] := by
  have hknown : knownMemberUsernames rules context ≠ [] := by
    obtain ⟨username, hmember, hne⟩ := hmember
    exact known_of_isMember hmember hne
  obtain ⟨total, hwalk⟩ := walk_of_valid hvalid
  refine Program.wp_mono (wp_execute_tree rules loads configured resultId action context) ?_
  rintro r log ⟨result, rfl, ⟨-, -, hrefused⟩ |
    ⟨items', rolled, records, made, hcoerced', -, -, -, hresult, htree⟩⟩
  · rw [hcoerced] at hrefused
    exact absurd hvalid hrefused
  · cases hcoerced.symm.trans hcoerced'
    have hreported : ∀ title name, ReportedUnder result title name ↔
        ListsNobody rules context items title name := by
      rw [hresult]
      exact fun title name => reportedUnder_iff hknown (shaped_of_walk hwalk) _ _ _ _
    have hiff := drops_iff_reported_iff hreported
    refine ⟨result, records, made, rfl, htree, fun h => hiff.1 h.reported, fun h => ⟨hiff.2 h, ?_⟩⟩
    rintro title name ⟨hnobody, -⟩ record hrecord value hvalue hmem
    obtain ⟨fields, fields', -, hfields', -⟩ := htree.nodes record hrecord
    rw [lookup_call_assignees hfields'] at hvalue
    obtain ⟨sent, -, rfl⟩ := cleaned_of_nodeFields hvalue
    obtain ⟨username, husername, heq⟩ := List.mem_map.1 hmem
    cases heq
    exact hnobody.notMem_cleanUsernames hknown sent husername

/-- A node that names somebody who is not there, outside of a list. -/
def ghostTree : List Json :=
  [.obj [("title", .str "Release"), ("assigneeUsernames", .str "ghost")]]

/-- The same name, in a list. -/
def listedGhostTree : List Json :=
  [.obj [("title", .str "Release"), ("assigneeUsernames", .arr [.str "ghost"])]]

def treeAction (items : List Json) : PlannedAction :=
  { planId := "plan", actionId := "action", actionType := "tool", idempotencyKey := "key",
    toolName := "create_workitem_tree", instruction := "", input := [("items", .arr items)] }

theorem dropped_assignees_reported_iff_sample :
    (execute plainRules (fun _ => none) true "result" (treeAction listedGhostTree)
      (teamContext namesakes)).wp Creates
      (fun r log => ∃ result records made, r = .ok result ∧
        CreatesTree plainRules (knownMemberUsernames plainRules (teamContext namesakes))
          (treeAction listedGhostTree) true
          (textField (treeAction listedGhostTree).input "projectId"
            ((teamContext namesakes).projectId.getD ""))
          (requestedByUserId (treeAction listedGhostTree).input (teamContext namesakes))
          (validUuidOrNone (((treeAction listedGhostTree).input.lookup "parentId").getD .null))
          listedGhostTree result records made log ∧
        (DropsReported plainRules (treeAction listedGhostTree) (teamContext namesakes)
            listedGhostTree result records ↔
          ListedAsWell plainRules (teamContext namesakes) listedGhostTree)) [] :=
  dropped_assignees_reported_iff plainRules (fun _ => none) true "result"
    (treeAction listedGhostTree) (teamContext namesakes) rfl (by decide)
    ⟨"bob", ⟨"project_members", List.mem_cons_self, _, rfl, [("username", .str "bob")],
      List.mem_cons_of_mem _ List.mem_cons_self, by decide⟩, by decide⟩

/-- The name that stands alone is not reported. -/
theorem single_ghost_unreported :
    ¬∀ (rules : TextRules) (loads : String → Option Json) (configured : Bool) (resultId : String)
      (action : PlannedAction) (context : AgentContext) (items : List Json),
      coerceWorkItemTreeItems loads action.input = some items →
      validateWorkItemTree (some items) = none →
      (∃ username, IsMember context username ∧ username ≠ "") →
      (execute rules loads configured resultId action context).wp Creates
        (fun r log => ∃ result records made, r = .ok result ∧
          CreatesTree rules (knownMemberUsernames rules context) action configured
            (textField action.input "projectId" (context.projectId.getD ""))
            (requestedByUserId action.input context)
            (validUuidOrNone ((action.input.lookup "parentId").getD .null)) items result records
            made log ∧
          DropsReported rules action context items result records) [] := by
  intro h
  have hghost := h plainRules (fun _ => none) false "result" (treeAction ghostTree)
    (teamContext namesakes) ghostTree rfl (by decide)
    ⟨"bob", ⟨"project_members", List.mem_cons_self, _, rfl, [("username", .str "bob")],
      List.mem_cons_of_mem _ List.mem_cons_self, by decide⟩, by decide⟩
  obtain ⟨result, records, made, hresult, -, hreported, -⟩ := hghost
  have hnone : result.output.lookup "unresolvedAssignees" = none := by
    cases hresult
    rfl
  have hdrops : Drops plainRules (teamContext namesakes) ghostTree "Release" "ghost" :=
    ⟨⟨by decide, lookup_known_eq_none_iff.1 (by decide)⟩, [0], _, rfl, rfl, _, rfl, by decide⟩
  obtain ⟨entries, _, _, hentries, -⟩ := (hreported _ _).1 hdrops
  cases hnone.symm.trans hentries

end PrismAgent
